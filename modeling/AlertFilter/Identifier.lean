import AlertFilter.Json.Decoder

/-!
# Identifiers

Steps and saved filters are named by texts that carry no meaning; new ones are made from random
numbers. A filter's identifier may also come as a database key, an object that holds the text under
`$oid`.
-/

namespace AlertFilter

structure StepId where
  text : String
deriving DecidableEq

structure FilterId where
  text : String
deriving DecidableEq

/-- The number as 32 hexadecimal digits; only its lower 128 bits count. -/
def tokenText (n : Nat) : String :=
  let digits := Nat.toDigits 16 (n % 340282366920938463463374607431768211456)
  String.ofList (List.replicate (32 - digits.length) '0' ++ digits)

open Json

/-- The text under a name that occurs just once among the members. -/
def onlyText? (name : String) (members : Members) : Option String :=
  match members.filter (·.1 = name) with
  | [(_, .text s)] => some s
  | _ => none

namespace StepId

def generated (stem : String) (n : Nat) : StepId := ⟨stem ++ "-" ++ tokenText n⟩

def decode : Decoder StepId := fun origin d => (Decoder.text origin d).map StepId.mk

end StepId

namespace FilterId

def generated (n : Nat) : FilterId := ⟨tokenText n⟩

def ofJson? : Json → Option FilterId
  | .text s => some ⟨s⟩
  | .object members => (onlyText? "$oid" members).map FilterId.mk
  | _ => none

def decode : Decoder FilterId := fun origin d => do
  let v ← Decoder.value origin d
  match ofJson? v with
  | some id => return id
  | none => Decoder.shapeError (.noVariant "RawFilterId")

end FilterId

end AlertFilter
