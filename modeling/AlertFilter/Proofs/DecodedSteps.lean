import AlertFilter.Proofs.FilterRecord

/-!
# Decoded steps

Whatever a step is decoded from, its value is none that counts as missing: a blank literal is
taken for no value, and a value that is marked as a field becomes a path with something in it,
as the JSON text of a literal is never blank. So a decoded step is what is left of it on the
wire, and so are the steps of every record that holds a list of them.
-/

namespace AlertFilter

open Json

namespace Text

lemma isBlank_append (s t : String) : isBlank (s ++ t) = (isBlank s && isBlank t) := by
  rw [isBlank, String.toList_append, List.all_append, isBlank, isBlank]

lemma not_isBlankChar_of_isDigit {c : Char} (h : c.isDigit = true) : isBlankChar c = false := by
  simp only [Char.isDigit, Bool.and_eq_true, decide_eq_true_eq, UInt32.le_iff_toNat_le,
    ge_iff_le] at h
  have hrange : 48 ≤ c.toNat ∧ c.toNat ≤ 57 := h
  simp only [isBlankChar, Bool.or_eq_false_iff, Bool.and_eq_false_iff, decide_eq_false_iff_not,
    beq_eq_false_iff_ne]
  omega

lemma isBlank_natText (n : Nat) : isBlank n.repr = false := by
  obtain ⟨c, rest, hdigits⟩ := List.exists_cons_of_ne_nil (Nat.toDigits_ne_nil (n := n) (b := 10))
  have hc : c.isDigit = true :=
    Nat.isDigit_of_mem_toDigits (by decide) (by decide) (hdigits ▸ List.mem_cons_self)
  rw [isBlank, Nat.toList_repr, hdigits, List.all_cons, not_isBlankChar_of_isDigit hc,
    Bool.false_and]

lemma isBlank_intText (z : Int) : isBlank (toString z) = false := by
  cases z with
  | ofNat n => exact isBlank_natText n
  | negSucc n =>
    change isBlank ("-" ++ (n + 1).repr) = false
    rw [isBlank_append, isBlank_natText, Bool.and_false]

end Text

lemma isBlank_positionalText (d : DecimalDigits) : Text.isBlank (positionalText d) = false := by
  unfold positionalText
  by_cases h : 0 ≤ d.exponent
  · rw [if_pos h, Text.isBlank_append, show Text.isBlank ".0" = false by decide, Bool.and_false]
  · rw [if_neg h, plainText]
    dsimp only
    rw [if_neg h, Text.isBlank_append, Text.isBlank_append,
      show Text.isBlank "." = false by decide, Bool.and_false, Bool.false_and]

lemma isBlank_scientificText (n : FloatNotation) (d : DecimalDigits) (leading : Int) :
    Text.isBlank (scientificText n d leading) = false := by
  unfold scientificText
  dsimp only
  rw [Text.isBlank_append, Text.isBlank_append, Text.isBlank_append,
    show Text.isBlank "e" = false by decide, Bool.and_false, Bool.false_and, Bool.false_and]

lemma Number.isBlank_text (n : Number) : Text.isBlank n.text = false := by
  cases n with
  | whole z hz => exact Text.isBlank_intText z
  | float x =>
    rw [Number.text, Binary64.text]
    dsimp only
    split
    · rw [Text.isBlank_append, show Text.isBlank "0.0" = false by decide, Bool.and_false]
    · split
      · rw [Text.isBlank_append, isBlank_positionalText, Bool.and_false]
      · rw [Text.isBlank_append, isBlank_scientificText, Bool.and_false]

/-- A literal that is no text has a JSON text that is not blank. -/
lemma Literal.isBlank_compact {l : Literal} (h : ∀ s, l ≠ .text s) :
    Text.isBlank l.toJson.compact = false := by
  cases l with
  | bool b => cases b <;> decide
  | number n => exact n.isBlank_text
  | text s => exact absurd rfl (h s)
  | list items =>
    rw [toJson, compact, Text.isBlank_append, Text.isBlank_append,
      show Text.isBlank "]" = false by decide, Bool.and_false]

lemma StepValue.ofWire_eq_empty {value : Option Literal} {isField : Bool}
    (h : (ofWire value isField).isMissing = true) : ofWire value isField = .empty := by
  cases value with
  | none => rfl
  | some l =>
    unfold ofWire at h ⊢
    dsimp only at h ⊢
    by_cases hblank : l.isBlank = true
    · rw [if_pos hblank]
    · rw [if_neg hblank] at h ⊢
      cases isField with
      | false => exact absurd h hblank
      | true =>
        rw [if_pos rfl] at h ⊢
        cases l with
        | text s => exact absurd h hblank
        | bool _ | number _ | list _ =>
          rw [isMissing, Literal.isBlank_compact (by simp)] at h
          cases h

lemma Step.normal_eq_self {s : Step} (h : s.value.isMissing = true → s.value = .empty) :
    s.normal = s := by
  unfold normal
  by_cases hmissing : s.value.isMissing = true
  · rw [if_pos hmissing, ← h hmissing]
  · rw [if_neg hmissing]

/-- A decoded step is left on the wire as it is. -/
theorem Step.normal_of_decode {origin : Origin} {d : Document} {s : Step}
    (h : decode origin d = .ok s) : s.normal = s := by
  cases d with
  | object members ending =>
    simp only [decode, bind_eq_ok_iff] at h
    obtain ⟨-, -, t, -, -, -, hs⟩ := h
    obtain ⟨-, -, -, -, hvalue, -⟩ := ofSlots_eq_ok_iff.mp hs
    refine normal_eq_self fun hmissing => ?_
    rw [← hvalue] at hmissing ⊢
    exact StepValue.ofWire_eq_empty hmissing
  | _ => cases h

namespace Json

variable {α : Type} {decode : Decoder α}

lemma forall_of_items {P : α → Prop} (hP : ∀ origin d a, decode origin d = .ok a → P a)
    {origin : Origin} {ds : List Document} {as : List α}
    (h : Decoder.items decode origin ds = .ok as) : ∀ a ∈ as, P a := by
  induction ds generalizing as with
  | nil =>
    obtain rfl := Except.ok.inj h
    simp
  | cons d rest ih =>
    simp only [Decoder.items, bind_eq_ok_iff] at h
    obtain ⟨a, ha, as', has', hcons⟩ := h
    obtain rfl := Except.ok.inj hcons
    exact List.forall_mem_cons.mpr ⟨hP origin d a ha, ih has'⟩

lemma forall_of_list {P : α → Prop} (hP : ∀ origin d a, decode origin d = .ok a → P a)
    {origin : Origin} {d : Document} {as : List α}
    (h : Decoder.list decode origin d = .ok as) : ∀ a ∈ as, P a := by
  cases d with
  | array ds ending =>
    simp only [Decoder.list, bind_eq_ok_iff] at h
    obtain ⟨origin', -, as', has', -, -, hp⟩ := h
    obtain rfl := Except.ok.inj hp
    exact forall_of_items hP has'
  | _ => cases h

/-- What fills a slot has been decoded from one of the members. -/
lemma Fills.exists_decoded {names : List String} {origin : Origin} {members : Members}
    {slot : Option α} {a : α} (h : Fills names decode origin slot members (some a)) :
    slot = some a ∨ ∃ v, decode origin (.ofJson v) = .ok a := by
  induction members generalizing slot with
  | nil => exact .inl h.symm
  | cons m rest ih =>
    rw [Fills] at h
    split at h
    · obtain ⟨-, b, hb, hrest⟩ := h
      refine .inr ((ih hrest).elim (fun hab => ⟨m.2, ?_⟩) id)
      rwa [Option.some_inj.mp hab] at hb
    · exact ih h

/-- What a cursor yields has been decoded, unless it is the default. -/
lemma exists_of_next {c c' : Decoder.Cursor} {origin : Origin} {default : Except DecodeError α}
    {a : α} (h : c.next origin decode default = .ok (a, c')) :
    default = .ok a ∨ ∃ d, decode origin d = .ok a := by
  unfold Decoder.Cursor.next at h
  split at h
  · simp only [bind_eq_ok_iff] at h
    obtain ⟨b, hb, hpair⟩ := h
    obtain ⟨rfl, -⟩ := Prod.mk.inj (Except.ok.inj hpair)
    exact .inr ⟨_, hb⟩
  · simp only [bind_eq_ok_iff] at h
    obtain ⟨-, -, b, hb, hpair⟩ := h
    obtain ⟨rfl, -⟩ := Prod.mk.inj (Except.ok.inj hpair)
    exact .inl hb

end Json

/-- Steps that are left on the wire as they are. -/
def StepsNormal (steps : List Step) : Prop := steps.map Step.normal = steps

lemma stepsNormal_nil : StepsNormal [] := rfl

lemma stepsNormal_of_list {origin : Origin} {d : Document} {steps : List Step}
    (h : Decoder.list Step.decode origin d = .ok steps) : StepsNormal steps := by
  have hnormal : ∀ s ∈ steps, s.normal = id s :=
    forall_of_list (fun _ _ _ hs => Step.normal_of_decode hs) h
  exact (List.map_congr_left hnormal).trans (List.map_id steps)

lemma stepsNormal_of_fills {names : List String} {origin : Origin} {members : Members}
    {steps : List Step}
    (h : Fills names (Decoder.list Step.decode) origin none members (some steps)) :
    StepsNormal steps := by
  obtain hnone | ⟨v, hv⟩ := h.exists_decoded
  · cases hnone
  · exact stepsNormal_of_list hv

lemma stepsNormal_getD_of_fills {names : List String} {origin : Origin} {members : Members}
    {slot : Option (List Step)}
    (h : Fills names (Decoder.list Step.decode) origin none members slot) :
    StepsNormal (slot.getD []) := by
  cases slot with
  | none => exact stepsNormal_nil
  | some steps => exact stepsNormal_of_fills h

lemma stepsNormal_of_next {c c' : Decoder.Cursor} {origin : Origin}
    {default : Except DecodeError (List Step)} {steps : List Step}
    (hdefault : ∀ steps, default = .ok steps → StepsNormal steps)
    (h : c.next origin (Decoder.list Step.decode) default = .ok (steps, c')) :
    StepsNormal steps := by
  obtain hd | ⟨d, hd⟩ := exists_of_next h
  · exact hdefault steps hd
  · exact stepsNormal_of_list hd

end AlertFilter
