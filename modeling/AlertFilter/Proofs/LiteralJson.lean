import AlertFilter.Proofs.KindRecord

/-!
# The JSON values that are literals

A value is read as a literal if nothing in it is null or an object, however deep its arrays are
nested. What has been read is written as that very value, and at every place it has the form that
stood there. The shapes of literals exclude each other, so that they may be tried in any order.
-/

namespace AlertFilter

open Json

namespace Json

/-- The value at a place of nested arrays, which is given by the index to take in each of them. -/
def at? : Json → List Nat → Option Json
  | v, [] => some v
  | .array items, i :: place => items[i]?.bind fun v => v.at? place
  | _, _ :: _ => none

@[simp] lemma at?_nil (v : Json) : v.at? [] = some v := by
  cases v <;> rfl

@[simp] lemma at?_array_cons (items : List Json) (i : Nat) (place : List Nat) :
    (array items).at? (i :: place) = items[i]?.bind fun v => v.at? place := rfl

/-- Neither null nor an object occurs in the value, at any depth of nested arrays. -/
def IsPlain (v : Json) : Prop :=
  ∀ place, v.at? place ≠ some .null ∧ ∀ members, v.at? place ≠ some (.object members)

lemma not_isPlain_null : ¬ IsPlain null := fun h => (h []).1 rfl

lemma not_isPlain_object (members : Members) : ¬ IsPlain (object members) :=
  fun h => (h []).2 members rfl

lemma isPlain_of_not_array {v : Json} (harray : ∀ items, v ≠ array items) (hnull : v ≠ null)
    (hobject : ∀ members, v ≠ object members) : v.IsPlain := by
  intro place
  cases place with
  | nil => simp [hnull, hobject]
  | cons i place =>
    cases v with
    | array items => exact absurd rfl (harray items)
    | _ => simp [at?]

lemma isPlain_array_iff {items : List Json} : IsPlain (array items) ↔ ∀ v ∈ items, v.IsPlain := by
  constructor
  · intro h v hv place
    obtain ⟨i, hi⟩ := List.getElem?_of_mem hv
    have hplace := h (i :: place)
    rwa [at?_array_cons, hi] at hplace
  · intro h place
    cases place with
    | nil => simp
    | cons i place =>
      rw [at?_array_cons]
      cases hi : items[i]? with
      | none => simp
      | some v => exact h v (List.mem_of_getElem? hi) place

end Json

namespace Literal

/-- The literal at a place of nested lists. -/
def at? : Literal → List Nat → Option Literal
  | l, [] => some l
  | .list items, i :: place => items[i]?.bind fun l => l.at? place
  | _, _ :: _ => none

lemma toJsonItems_eq_map (items : List Literal) : toJsonItems items = items.map toJson := by
  induction items with
  | nil => rfl
  | cons l rest ih => rw [toJsonItems, ih, List.map_cons]

/-- At each place of a literal stands the value of what is there. -/
lemma at?_toJson (l : Literal) (place : List Nat) :
    l.toJson.at? place = (l.at? place).map toJson := by
  induction place generalizing l with
  | nil => cases l <;> simp [at?]
  | cons i place ih =>
    cases l with
    | list items =>
      rw [toJson, at?_array_cons, toJsonItems_eq_map, List.getElem?_map, at?]
      cases items[i]? with
      | none => rfl
      | some l => exact ih l
    | _ => rfl

/-- Whole and floating-point numbers are different forms. -/
inductive Form where
  | truth
  | whole
  | float
  | text
  | list
deriving DecidableEq

def form : Literal → Form
  | bool _ => .truth
  | number (.whole _ _) => .whole
  | number (.float _) => .float
  | text _ => .text
  | list _ => .list

end Literal

/-- The form of the literals that a value can be by its outermost shape. -/
def Json.form? : Json → Option Literal.Form
  | .null => none
  | .bool _ => some .truth
  | .number (.whole _ _) => some .whole
  | .number (.float _) => some .float
  | .text _ => some .text
  | .array _ => some .list
  | .object _ => none

namespace Literal

lemma form?_toJson (l : Literal) : l.toJson.form? = some l.form := by
  cases l with
  | number n => cases n <;> rfl
  | _ => rfl

lemma form?_at?_toJson (l : Literal) (place : List Nat) :
    (l.toJson.at? place).bind Json.form? = (l.at? place).map form := by
  rw [at?_toJson, Option.bind_map]
  cases l.at? place with
  | none => rfl
  | some l => exact form?_toJson l

mutual

lemma toJson_of_ofJson? : ∀ (v : Json) {l : Literal}, ofJson? v = some l → l.toJson = v
  | .null, _, h | .object _, _, h => by cases h
  | .bool _, _, h | .number _, _, h | .text _, _, h => by
    cases h
    rfl
  | .array items, l, h => by
    obtain ⟨ls, hls, rfl⟩ := Option.map_eq_some_iff.mp h
    rw [toJson, toJsonItems_of_ofJsonItems? items hls]

lemma toJsonItems_of_ofJsonItems? : ∀ (vs : List Json) {ls : List Literal},
    ofJsonItems? vs = some ls → toJsonItems ls = vs
  | [], _, h => by
    cases h
    rfl
  | v :: rest, ls, h => by
    rw [ofJsonItems?] at h
    split at h
    · next l ls' hl hls' =>
      cases h
      rw [toJsonItems, toJson_of_ofJson? v hl, toJsonItems_of_ofJsonItems? rest hls']
    · cases h

end

theorem ofJson?_eq_some_iff {v : Json} {l : Literal} : ofJson? v = some l ↔ l.toJson = v := by
  constructor
  · exact toJson_of_ofJson? v
  · rintro rfl
    exact ofJson?_toJson l

mutual

theorem isSome_ofJson?_iff : ∀ v : Json, (ofJson? v).isSome ↔ v.IsPlain
  | .null => iff_of_false (by simp [ofJson?]) not_isPlain_null
  | .object members => iff_of_false (by simp [ofJson?]) (not_isPlain_object members)
  | .bool _ | .number _ | .text _ => iff_of_true rfl (isPlain_of_not_array nofun nofun nofun)
  | .array items => by
    rw [isPlain_array_iff, ← isSome_ofJsonItems?_iff items, ofJson?, Option.isSome_map]

/-- One item that is no literal is enough for the whole list to be none. -/
lemma isSome_ofJsonItems?_iff : ∀ vs : List Json,
    (ofJsonItems? vs).isSome ↔ ∀ v ∈ vs, v.IsPlain
  | [] => by simp [ofJsonItems?]
  | v :: rest => by
    rw [List.forall_mem_cons, ← isSome_ofJson?_iff v, ← isSome_ofJsonItems?_iff rest, ofJsonItems?]
    cases ofJson? v <;> cases ofJsonItems? rest <;> simp

end

def bool? : Json → Option Literal
  | .bool b => some (bool b)
  | _ => none

def number? : Json → Option Literal
  | .number n => some (number n)
  | _ => none

def text? : Json → Option Literal
  | .text s => some (text s)
  | _ => none

/-- Each item of the array may have any shape again. -/
def list? : Json → Option Literal
  | .array items => (ofJsonItems? items).map list
  | _ => none

/-- The readers of the single shapes. -/
def variants : List (Json → Option Literal) := [bool?, number?, text?, list?]

lemma eq_none_or_eq_of_mem_variants {read : Json → Option Literal} (h : read ∈ variants)
    (v : Json) : read v = none ∨ read v = ofJson? v := by
  simp only [variants, List.mem_cons, List.not_mem_nil, or_false] at h
  obtain rfl | rfl | rfl | rfl := h <;> cases v <;>
    simp [bool?, number?, text?, list?, ofJson?]

lemma exists_mem_variants (v : Json) : ∃ read ∈ variants, read v = ofJson? v := by
  cases v with
  | number n => exact ⟨number?, by simp [variants], rfl⟩
  | text s => exact ⟨text?, by simp [variants], rfl⟩
  | array items => exact ⟨list?, by simp [variants], rfl⟩
  | _ => exact ⟨bool?, by simp [variants], rfl⟩

/-- At most one reader accepts a value: in whatever order they are tried, the first that accepts it
reads the same. In particular an array with an item that is no literal is not read otherwise. -/
theorem findSome?_variants {readers : List (Json → Option Literal)} (h : readers.Perm variants)
    (v : Json) : readers.findSome? (fun read => read v) = ofJson? v := by
  cases hfirst : readers.findSome? fun read => read v with
  | none =>
    obtain ⟨read, hread, hv⟩ := exists_mem_variants v
    rw [← hv, List.findSome?_eq_none_iff.mp hfirst read (h.mem_iff.mpr hread)]
  | some l =>
    obtain ⟨read, hread, hl⟩ := List.exists_of_findSome?_eq_some hfirst
    obtain hnone | hv := eq_none_or_eq_of_mem_variants (h.mem_iff.mp hread) v
    · rw [hnone] at hl
      cases hl
    · rw [← hv, hl]

/-- A document is read as a literal if all of it can be used, and its value is the literal's. -/
theorem decode_eq_ok_iff {origin : Origin} {d : Document} {l : Literal} :
    decode origin d = .ok l ↔ d.whole origin.depth = .ok l.toJson := by
  rw [decode, bind_eq_ok_iff]
  constructor
  · rintro ⟨v, hv, hl⟩
    split at hl
    · next l' hl' =>
      cases hl
      rw [toJson_of_ofJson? v hl']
      exact value_eq_whole.mp hv
    · cases hl
  · intro h
    refine ⟨l.toJson, value_eq_whole.mpr h, ?_⟩
    rw [ofJson?_toJson]
    rfl

lemma decodeValue_eq_ok_iff {v : Json} {l : Literal} :
    decodeValue decode v = .ok l ↔ l.toJson = v := by
  rw [decodeValue, decode_eq_ok_iff, ← value_eq_whole, readsAs_value v .value rfl, Except.ok.injEq,
    eq_comm]

lemma exists_decodeValue_iff {v : Json} : (∃ l, decodeValue decode v = .ok l) ↔ v.IsPlain := by
  rw [← isSome_ofJson?_iff, Option.isSome_iff_exists]
  simp only [decodeValue_eq_ok_iff, ofJson?_eq_some_iff]

/-- A value is refused only if no reader accepts it, which is what the error says. -/
theorem decodeValue_eq_error_iff {v : Json} {e : DecodeError} : decodeValue decode v = .error e ↔
    (∀ read ∈ variants, read v = none) ∧ e = .shape (.noVariant "Literal") := by
  rw [← List.findSome?_eq_none_iff, findSome?_variants (.refl _), decodeValue, decode,
    readsAs_value v .value rfl]
  simp only [bind, Except.bind]
  cases ofJson? v with
  | none => simp [Decoder.shapeError, eq_comm]
  | some l => simp [pure, Except.pure]

/-- Inside a record, a value that is not nested too deep is read as it is by itself. -/
lemma decode_of_reaches {origin : Origin} {v : Json} (h : origin.Reaches v) :
    decode origin (.ofJson v) = decodeValue decode v := by
  have hvalue : Origin.value.Reaches v := Origin.reaches_of_depth rfl v
  rw [Origin.Reaches] at h hvalue
  rw [decodeValue, decode, decode, h, hvalue]

/-- Exactly the values without null and objects are read as literals. A literal that is read is
written as the value it was read from, and has the form of that value at every place; and every
literal is read back from its own value. It makes no difference whether the value stands by itself,
in a text or among what was set aside. -/
theorem decoded_exactly :
    (∀ v : Json, ((∃ l, decodeValue decode v = .ok l) ↔ v.IsPlain) ∧
      (∀ l, decodeValue decode v = .ok l → l.toJson = v ∧
        ∀ place, (v.at? place).bind Json.form? = (l.at? place).map form) ∧
      ∀ origin : Origin, origin.Reaches v →
        decode origin (.ofJson v) = decodeValue decode v) ∧
    ∀ l : Literal, decodeValue decode l.toJson = .ok l := by
  refine ⟨fun v => ⟨exists_decodeValue_iff, fun l h => ?_, fun _ => decode_of_reaches⟩, fun l => ?_⟩
  · obtain rfl := decodeValue_eq_ok_iff.mp h
    exact ⟨rfl, form?_at?_toJson l⟩
  · exact decodeValue_eq_ok_iff.mpr rfl

/-- Whole numbers, floating-point numbers and texts of digits stay apart inside a list, and a null
inside a list beside it spoils all. -/
theorem decoded_exactly_nested :
    let float : Binary64 := ⟨false, 5629499534213120, -50, by decide⟩
    let l : Literal := .list [.list [.number (.whole 5 (by decide)), .number (.float float)],
      .text "5"]
    let v : Json := .array [.array [.number (.whole 5 (by decide)), .number (.float float)],
      .text "5"]
    decodeValue decode v = .ok l ∧ (v.at? [0, 0]).bind Json.form? = some .whole ∧
      (v.at? [0, 1]).bind Json.form? = some .float ∧
      ¬ ∃ l, decodeValue decode (.array [v, .array [.null]]) = .ok l := by
  intro float l v
  have hread : decodeValue decode v = .ok l := decoded_exactly.2 l
  have hform := ((decoded_exactly.1 v).2.1 l hread).2
  refine ⟨hread, hform [0, 0], hform [0, 1], fun h => ?_⟩
  exact ((decoded_exactly.1 _).1.mp h [1, 0]).1 rfl

end Literal

end AlertFilter
