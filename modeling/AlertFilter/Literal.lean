import AlertFilter.Json.Decoder
import AlertFilter.Text.Blank

/-!
# Literals

What a user may give as a value: a truth value, a number, a text, or a list of such. On the wire a
literal is the JSON value of its shape; null and objects are no literals at any depth.
-/

namespace AlertFilter

inductive Literal where
  | bool (value : Bool)
  | number (value : Number)
  | text (value : String)
  | list (items : List Literal)

namespace Literal

/-- Nothing was given: a text of blanks or an empty list. -/
def isBlank : Literal → Bool
  | text s => Text.isBlank s
  | list items => items.isEmpty
  | _ => false

/-- A floating-point number; one that is not finite is kept by its name. -/
def ofFloat : FloatValue → Literal
  | .finite x => number (.float x)
  | .infinite true => text "-inf"
  | .infinite false => text "inf"
  | .nan => text "NaN"

mutual

def decEq : (a b : Literal) → Decidable (a = b)
  | bool a, bool b => if h : a = b then .isTrue (by rw [h]) else .isFalse (by simpa using h)
  | number a, number b => if h : a = b then .isTrue (by rw [h]) else .isFalse (by simpa using h)
  | text a, text b => if h : a = b then .isTrue (by rw [h]) else .isFalse (by simpa using h)
  | list a, list b =>
    match decEqItems a b with
    | .isTrue h => .isTrue (by rw [h])
    | .isFalse h => .isFalse (by simpa using h)
  | bool _, number _ | bool _, text _ | bool _, list _ | number _, bool _ | number _, text _
  | number _, list _ | text _, bool _ | text _, number _ | text _, list _ | list _, bool _
  | list _, number _ | list _, text _ => .isFalse (by simp)

def decEqItems : (a b : List Literal) → Decidable (a = b)
  | [], [] => .isTrue rfl
  | [], _ :: _ | _ :: _, [] => .isFalse (by simp)
  | a :: as, b :: bs =>
    match decEq a b, decEqItems as bs with
    | .isTrue h, .isTrue hs => .isTrue (by rw [h, hs])
    | .isFalse h, _ => .isFalse (by simp [h])
    | _, .isFalse hs => .isFalse (by simp [hs])

end

instance : DecidableEq Literal := decEq

mutual

/-- Equality with numbers compared by value. -/
def same : Literal → Literal → Bool
  | bool a, bool b => a == b
  | number a, number b => a == b
  | text a, text b => a == b
  | list a, list b => sameItems a b
  | _, _ => false

def sameItems : List Literal → List Literal → Bool
  | [], [] => true
  | a :: as, b :: bs => same a b && sameItems as bs
  | _, _ => false

end

instance : BEq Literal := ⟨same⟩

mutual

/-- As shown to a user: texts in quotes, as they are; lists in brackets. -/
def display : Literal → String
  | bool true => "true"
  | bool false => "false"
  | number n => n.text
  | text s => "\"" ++ s ++ "\""
  | list items => "[" ++ displayItems items ++ "]"

def displayItems : List Literal → String
  | [] => ""
  | [l] => display l
  | l :: rest => display l ++ ", " ++ displayItems rest

end

mutual

def toJson : Literal → Json
  | bool b => .bool b
  | number n => .number n
  | text s => .text s
  | list items => .array (toJsonItems items)

def toJsonItems : List Literal → List Json
  | [] => []
  | l :: rest => toJson l :: toJsonItems rest

end

mutual

def ofJson? : Json → Option Literal
  | .null => none
  | .bool b => some (bool b)
  | .number n => some (number n)
  | .text s => some (text s)
  | .array items => (ofJsonItems? items).map list
  | .object _ => none

def ofJsonItems? : List Json → Option (List Literal)
  | [] => some []
  | v :: rest =>
    match ofJson? v, ofJsonItems? rest with
    | some l, some ls => some (l :: ls)
    | _, _ => none

end

open Json in
def decode : Decoder Literal := fun origin d => do
  let v ← Decoder.value origin d
  match ofJson? v with
  | some l => return l
  | none => Decoder.shapeError (.noVariant "Literal")

end Literal

end AlertFilter
