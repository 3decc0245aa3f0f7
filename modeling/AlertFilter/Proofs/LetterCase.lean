import AlertFilter.Text.LowerCase
import Mathlib.Data.List.Infix
import Mathlib.Tactic.Lemma

/-!
# Searching for ASCII text

A text in lower case contains a plain ASCII text just where the text itself does, up to the case of
ASCII letters. Letters of other alphabets do not become the letters searched for, except the Kelvin
sign, which becomes a k, and the capital I with a dot, which leaves its dot behind.
-/

namespace AlertFilter.Text

lemma occursIn_iff {part whole : List Char} : occursIn part whole = true ↔ part <:+: whole := by
  induction whole with
  | nil => simp [occursIn]
  | cons c rest ih =>
    simp only [occursIn, Bool.or_eq_true, List.isPrefixOf_iff_prefix, ih, List.infix_cons_iff]

/-- An ASCII character that lower-casing makes of its own two cases only. -/
def Plain (p : Char) : Prop :=
  0 < p.toNat ∧ p.toNat < 128 ∧ ¬(65 ≤ p.toNat ∧ p.toNat ≤ 90) ∧ p ≠ 'k'

instance (p : Char) : Decidable (Plain p) :=
  inferInstanceAs (Decidable (_ ∧ _))

/-- A text of plain characters. The last one is no i, for which a dotted one could stand. -/
structure PlainText (part : List Char) : Prop where
  ne_nil : part ≠ []
  plain : ∀ p ∈ part, Plain p
  last : part.getLast? ≠ some 'i'

lemma toNat_ofNat (n : Nat) : (Char.ofNat n).toNat = n ∨ (Char.ofNat n).toNat = 0 := by
  by_cases h : n.isValidChar
  · have hvalid : Char.ofNat n = Char.ofNatAux n h := dif_pos h
    rw [hvalid]
    exact .inl rfl
  · have hinvalid : Char.ofNat n = ⟨0, .inl (by decide)⟩ := dif_neg h
    rw [hinvalid]
    exact .inr rfl

lemma toLower_of_capital {c : Char} (h : 65 ≤ c.toNat ∧ c.toNat ≤ 90) :
    c.toLower = Char.ofNat (c.toNat + 32) := by
  have hlower : ∀ n < 91, 65 ≤ n → (Char.ofNat n).toLower = Char.ofNat (n + 32) := by decide
  have hc := hlower c.toNat (by omega) h.1
  rwa [Char.ofNat_toNat] at hc

lemma toLower_of_not_capital {c : Char} (h : ¬(65 ≤ c.toNat ∧ c.toNat ≤ 90)) : c.toLower = c :=
  dif_neg h

/-- Past the first row, letters beyond ASCII are moved, and only the Kelvin sign into ASCII. -/
lemma lowerShifts_beyond : ∀ r ∈ lowerShifts.tail, 128 ≤ r.first ∧
    (128 ≤ (r.first : Int) + r.shift ∨ (r.last = r.first ∧ (r.first : Int) + r.shift = 107)) := by
  decide +kernel

lemma lowerShifts_eq : lowerShifts = ⟨65, 90, 1, 32⟩ :: lowerShifts.tail := rfl

/-- A letter other than the dotted I becomes a plain character just if its ASCII case does. -/
lemma lowerChar_eq (c : Char) (hdot : c.toNat ≠ 0x130) :
    ∃ q, lowerChar c = [q] ∧ ∀ p, Plain p → (q = p ↔ c.toLower = p) := by
  rw [lowerChar, if_neg hdot]
  by_cases hcapital : 65 ≤ c.toNat ∧ c.toNat ≤ 90
  · have hfind : lowerShifts.find? (·.covers c.toNat) = some ⟨65, 90, 1, 32⟩ := by
      rw [lowerShifts_eq, List.find?_cons_of_pos]
      simp [CaseShift.covers, hcapital, Nat.mod_one]
    refine ⟨c.toLower, ?_, fun p _ => Iff.rfl⟩
    rw [hfind, toLower_of_capital hcapital]
    congr 1
  · have hfind : lowerShifts.find? (·.covers c.toNat) =
        lowerShifts.tail.find? (·.covers c.toNat) := by
      rw [lowerShifts_eq, List.find?_cons_of_neg]
      · rfl
      · simp only [CaseShift.covers, Bool.and_eq_true, decide_eq_true_eq, not_and]
        omega
    rw [hfind, toLower_of_not_capital hcapital]
    cases htail : lowerShifts.tail.find? (·.covers c.toNat) with
    | none => exact ⟨c, rfl, fun p _ => Iff.rfl⟩
    | some r =>
      obtain ⟨hfirst, himage⟩ := lowerShifts_beyond r (List.mem_of_find?_eq_some htail)
      have hcovers : r.covers c.toNat = true := by simpa using List.find?_some htail
      simp only [CaseShift.covers, Bool.and_eq_true, decide_eq_true_eq] at hcovers
      refine ⟨_, rfl, fun p hp => ?_⟩
      obtain ⟨hpos, hascii, -, hk⟩ := hp
      have hpk : p.toNat ≠ 107 := fun h => hk (Char.ext (UInt32.toNat_inj.mp h))
      have hc : c ≠ p := by
        rintro rfl
        omega
      have hq : Char.ofNat ((c.toNat : Int) + r.shift).toNat ≠ p := by
        rintro rfl
        rcases toNat_ofNat ((c.toNat : Int) + r.shift).toNat with hn | hn <;> omega
      exact iff_of_false hq hc

lemma not_plain_of_le {q : Char} (h : 128 ≤ q.toNat) : ¬Plain q := fun hq => by
  have := hq.2.1
  omega

/-- What the first character becomes, and the rest behind it. -/
lemma lowerFrom_cons (before : List Char) (c : Char) (rest : List Char) :
    (∃ q, lowerFrom before (c :: rest) = q :: lowerFrom (c :: before) rest ∧
      ∀ p, Plain p → (q = p ↔ c.toLower = p)) ∨
    (lowerFrom before (c :: rest) = 'i' :: Char.ofNat 0x307 :: lowerFrom (c :: before) rest ∧
      ∀ p, Plain p → c.toLower ≠ p) := by
  rw [lowerFrom]
  by_cases hsigma : c = capitalSigma
  · have hother : ∀ q p : Char, 128 ≤ q.toNat → Plain p → q ≠ p := by
      rintro q p hq hp rfl
      exact not_plain_of_le hq hp
    have hcase : ∀ p, Plain p → c.toLower ≠ p := fun p => hother _ p (by rw [hsigma]; decide)
    rw [if_pos hsigma]
    split
    · exact .inl ⟨'ς', rfl, fun p hp => iff_of_false (hother _ p (by decide) hp) (hcase p hp)⟩
    · exact .inl ⟨'σ', rfl, fun p hp => iff_of_false (hother _ p (by decide) hp) (hcase p hp)⟩
  · rw [if_neg hsigma]
    by_cases hdot : c.toNat = 0x130
    · refine .inr ⟨by rw [lowerChar, if_pos hdot]; rfl, fun p hp => ?_⟩
      rw [toLower_of_not_capital (by omega)]
      rintro rfl
      exact not_plain_of_le (by omega) hp
    · obtain ⟨q, hq, hqp⟩ := lowerChar_eq c hdot
      exact .inl ⟨q, by rw [hq]; rfl, hqp⟩

/-- A plain text does not begin with the dot that a capital I leaves behind. -/
lemma not_prefix_dot {part : List Char} (hne : part ≠ []) (hplain : ∀ p ∈ part, Plain p)
    (l : List Char) : ¬part <+: Char.ofNat 0x307 :: l := by
  cases part with
  | nil => exact absurd rfl hne
  | cons p part =>
    rw [List.cons_prefix_cons]
    rintro ⟨rfl, -⟩
    exact not_plain_of_le (by decide) (hplain _ List.mem_cons_self)

lemma prefix_lowerFrom_iff {part : List Char} (hplain : ∀ p ∈ part, Plain p)
    (hlast : part.getLast? ≠ some 'i') (before cs : List Char) :
    part <+: lowerFrom before cs ↔ part <+: cs.map Char.toLower := by
  induction cs generalizing part before with
  | nil => rfl
  | cons c rest ih =>
    cases part with
    | nil => simp
    | cons p part =>
      have hp : Plain p := hplain p List.mem_cons_self
      have hplain' : ∀ p' ∈ part, Plain p' := fun p' hp' => hplain p' (List.mem_cons_of_mem p hp')
      rw [List.map_cons, List.cons_prefix_cons]
      rcases lowerFrom_cons before c rest with ⟨q, hq, hqp⟩ | ⟨hi, hcase⟩
      · have hlast' : part.getLast? ≠ some 'i' := by
          cases part with
          | nil => simp
          | cons p' part => rwa [List.getLast?_cons_cons] at hlast
        rw [hq, List.cons_prefix_cons, ih hplain' hlast', eq_comm, hqp p hp, eq_comm]
      · -- The dotted I: a part that begins with its i would have to go on with its dot.
        rw [hi, List.cons_prefix_cons]
        refine iff_of_false ?_ fun h => hcase p hp h.1.symm
        rintro ⟨rfl, hpart⟩
        have hne : part ≠ [] := by
          rintro rfl
          exact hlast rfl
        exact not_prefix_dot hne hplain' _ hpart

lemma infix_lowerFrom_iff {part : List Char} (h : PlainText part) (before cs : List Char) :
    part <:+: lowerFrom before cs ↔ part <:+: cs.map Char.toLower := by
  induction cs generalizing before with
  | nil => rfl
  | cons c rest ih =>
    rw [List.map_cons, List.infix_cons_iff, ← List.map_cons,
      ← prefix_lowerFrom_iff h.plain h.last before (c :: rest)]
    rcases lowerFrom_cons before c rest with ⟨q, hq, -⟩ | ⟨hi, -⟩
    · rw [hq, List.infix_cons_iff, ih]
    · rw [hi, List.infix_cons_iff, List.infix_cons_iff, ih,
        or_iff_right (not_prefix_dot h.ne_nil h.plain _)]

/-- A text in lower case contains a plain text just if the text does, up to the case of its ASCII
letters. -/
theorem occursIn_lower_iff {part : List Char} (h : PlainText part) (s : String) :
    occursIn part (lower s).toList = true ↔ part <:+: s.toList.map Char.toLower := by
  rw [occursIn_iff, lower, String.toList_ofList, infix_lowerFrom_iff h]

end AlertFilter.Text
