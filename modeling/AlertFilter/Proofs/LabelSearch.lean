import AlertFilter.Proofs.LetterCase
import AlertFilter.SavedFilter
import Mathlib.Data.List.DropRight

/-!
# Searching a label for a part of it

Every letter has a lower case of its own but one: a capital sigma takes the final form where it
closes a word. The lower case of a part of a text is therefore a part of its lower case as long as
each sigma closes a word of the part just if it closes one of the text. A label is found by all
such parts, and whole words are among them; the beginning of a word that is cut behind a sigma is
not.
-/

namespace AlertFilter

namespace Text

/-- A capital sigma closes a word here; the characters before it come nearest first. -/
def closesWord (before after : List Char) : Bool := startsCased before && !startsCased after

/-- Lower-cases what stands between some characters, of which those before it come nearest
first. -/
def lowerBetween (before : List Char) : List Char → List Char → List Char
  | [], _ => []
  | c :: rest, after =>
    (if c = capitalSigma then if closesWord before (rest ++ after) then ['ς'] else ['σ']
      else lowerChar c) ++ lowerBetween (c :: before) rest after

lemma lowerFrom_append (before cs after : List Char) :
    lowerFrom before (cs ++ after) =
      lowerBetween before cs after ++ lowerFrom (cs.reverse ++ before) after := by
  induction cs generalizing before with
  | nil => rfl
  | cons c rest ih =>
    rw [List.cons_append, lowerFrom, ih, lowerBetween, closesWord, List.append_assoc,
      List.reverse_cons, List.append_assoc, List.singleton_append]

/-- A text stands between nothing and nothing. -/
lemma lowerFrom_eq (before cs : List Char) : lowerFrom before cs = lowerBetween before cs [] := by
  have happend := lowerFrom_append before cs []
  rwa [List.append_nil, lowerFrom, List.append_nil] at happend

/-- The lower case of a text is put together from what its parts become in it. -/
lemma lowerFrom_parts (before part after : List Char) :
    lowerFrom [] (before ++ part ++ after) =
      lowerBetween [] before (part ++ after) ++ lowerBetween before.reverse part after ++
        lowerBetween (before ++ part).reverse after [] := by
  rw [List.append_assoc before, lowerFrom_append, lowerFrom_append, List.append_nil,
    lowerFrom_eq _ after, ← List.reverse_append, List.append_assoc]

/-- The places of a character in a list that is not empty: at its head and behind it. -/
lemma forall_split_cons_iff {P : List Char → List Char → Prop} {c x : Char} {rest : List Char} :
    (∀ a b, c :: rest = a ++ x :: b → P a b) ↔
      (c = x → P [] rest) ∧ ∀ a b, rest = a ++ x :: b → P (c :: a) b := by
  constructor
  · intro h
    refine ⟨?_, fun a b hrest => h (c :: a) b (by rw [hrest, List.cons_append])⟩
    rintro rfl
    exact h [] rest rfl
  · rintro ⟨hhead, hrest⟩ a b hsplit
    rcases List.cons_eq_append_iff.mp hsplit with ⟨rfl, hx⟩ | ⟨a, rfl, hb⟩
    · cases hx
      exact hhead rfl
    · exact hrest a b hb

/-- Two contexts make the same of a text exactly if they agree about each of its sigmas. -/
theorem lowerBetween_eq_iff {before before' cs after after' : List Char} :
    lowerBetween before cs after = lowerBetween before' cs after' ↔
      ∀ a b, cs = a ++ capitalSigma :: b →
        closesWord (a.reverse ++ before) (b ++ after) =
          closesWord (a.reverse ++ before') (b ++ after') := by
  induction cs generalizing before before' with
  | nil => simp [lowerBetween]
  | cons c rest ih =>
    rw [forall_split_cons_iff, lowerBetween, lowerBetween]
    simp only [List.reverse_cons, List.append_assoc, List.singleton_append, List.reverse_nil,
      List.nil_append]
    rw [← ih]
    by_cases hsigma : c = capitalSigma
    · have hforms : 'ς' ≠ 'σ' := by decide
      simp only [hsigma, if_true, true_imp_iff]
      cases closesWord before (rest ++ after) <;> cases closesWord before' (rest ++ after') <;>
        simp [hforms, hforms.symm]
    · simp only [hsigma, if_false, false_imp_iff, true_and, List.append_cancel_left_eq]

/-- The code points of white space. -/
def blankCodes : List Nat :=
  [9, 10, 11, 12, 13, 0x20, 0x85, 0xA0, 0x1680] ++ List.range' 0x2000 11 ++
    [0x2028, 0x2029, 0x202F, 0x205F, 0x3000]

lemma toNat_mem_blankCodes {c : Char} (h : isBlankChar c = true) : c.toNat ∈ blankCodes := by
  simp only [isBlankChar, Bool.or_eq_true, Bool.and_eq_true, decide_eq_true_eq, beq_iff_eq] at h
  simp only [blankCodes, List.mem_append, List.mem_cons, List.mem_range'_1, List.not_mem_nil,
    or_false]
  omega

lemma not_inRanges_of_blank {table : List (Nat × Nat)}
    (htable : ∀ n ∈ blankCodes, (table.any fun r => r.1 ≤ n && n ≤ r.2) = false) {c : Char}
    (h : isBlankChar c = true) : inRanges table c = false :=
  htable c.toNat (toNat_mem_blankCodes h)

lemma isCased_of_blank {c : Char} (h : isBlankChar c = true) : isCased c = false :=
  not_inRanges_of_blank (by decide +kernel) h

lemma isCaseIgnorable_of_blank {c : Char} (h : isBlankChar c = true) :
    isCaseIgnorable c = false :=
  not_inRanges_of_blank (by decide +kernel) h

/-- White space stops the look for a cased character as the end of a text does. -/
lemma startsCased_append {cs ds : List Char} (h : ∀ c ∈ ds.head?, isBlankChar c = true) :
    startsCased (cs ++ ds) = startsCased cs := by
  induction cs with
  | nil =>
    cases ds with
    | nil => rfl
    | cons c rest =>
      have hc : isBlankChar c = true := h c rfl
      rw [List.nil_append, startsCased, startsCased,
        List.dropWhile_cons_of_neg (by simp [isCaseIgnorable_of_blank hc])]
      exact isCased_of_blank hc
  | cons c rest ih =>
    rw [List.cons_append, startsCased, startsCased, List.dropWhile_cons, List.dropWhile_cons]
    by_cases hc : isCaseIgnorable c = true
    · rw [if_pos hc, if_pos hc]
      exact ih
    · rw [if_neg hc, if_neg hc]

lemma head?_of_blank {cs : List Char} (h : ∀ c ∈ cs, isBlankChar c = true) :
    ∀ c ∈ cs.head?, isBlankChar c = true :=
  fun c hc => h c (List.mem_of_mem_head? hc)

lemma exists_trimChars (cs : List Char) : ∃ blanks blanks',
    cs = blanks ++ trimChars cs ++ blanks' ∧ (∀ c ∈ blanks, isBlankChar c = true) ∧
      ∀ c ∈ blanks', isBlankChar c = true := by
  have htrim : trimChars cs = (cs.dropWhile isBlankChar).rdropWhile isBlankChar := rfl
  refine ⟨cs.takeWhile isBlankChar, (cs.dropWhile isBlankChar).rtakeWhile isBlankChar, ?_,
    fun c => List.mem_takeWhile_imp, fun c => List.mem_rtakeWhile_imp⟩
  rw [htrim, List.append_assoc, List.rdropWhile_append_rtakeWhile, List.takeWhile_append_dropWhile]

/-- A part that is cut out of a text: each of its capital sigmas closes a word of the part exactly
if it closes one of the text. -/
def KeepsSigmas (before part after : List Char) : Prop :=
  ∀ a b, part = a ++ capitalSigma :: b →
    closesWord (a.reverse ++ before.reverse) (b ++ after) = closesWord a.reverse b

variable {before part after blanks blanks' : List Char}

lemma keepsSigmas_iff :
    KeepsSigmas before part after ↔ lowerBetween before.reverse part after = lowerFrom [] part := by
  rw [lowerFrom_eq, lowerBetween_eq_iff]
  simp only [KeepsSigmas, List.append_nil]

/-- Whole words keep their sigmas. -/
lemma keepsSigmas_of_words (hbefore : ∀ c ∈ before.getLast?, isBlankChar c = true)
    (hafter : ∀ c ∈ after.head?, isBlankChar c = true) : KeepsSigmas before part after := by
  intro a b hpart
  rw [closesWord, closesWord, startsCased_append hafter,
    startsCased_append (by rwa [List.head?_reverse])]

/-- White space at the ends of a part can be left to what stands around it. -/
lemma KeepsSigmas.trimmed (h : KeepsSigmas before (blanks ++ part ++ blanks') after)
    (hblanks : ∀ c ∈ blanks, isBlankChar c = true)
    (hblanks' : ∀ c ∈ blanks', isBlankChar c = true) :
    KeepsSigmas (before ++ blanks) part (blanks' ++ after) := by
  intro a b hpart
  have hkept := h (blanks ++ a) (b ++ blanks') (by simp [hpart])
  have hleft : startsCased (a.reverse ++ blanks.reverse) = startsCased a.reverse :=
    startsCased_append (head?_of_blank (by simpa using hblanks))
  have hright : startsCased (b ++ blanks') = startsCased b :=
    startsCased_append (head?_of_blank hblanks')
  have halone : closesWord (a.reverse ++ blanks.reverse) (b ++ blanks') =
      closesWord a.reverse b := by
    rw [closesWord, closesWord, hleft, hright]
  rw [List.reverse_append, halone] at hkept
  rw [← hkept, List.reverse_append]
  simp only [List.append_assoc]

/-- A part that keeps its sigmas is found, whatever white space stands around it. -/
lemma matchesQuery_of_part (h : KeepsSigmas before part after)
    (hblanks : ∀ c ∈ blanks, isBlankChar c = true)
    (hblanks' : ∀ c ∈ blanks', isBlankChar c = true) :
    matchesQuery (String.ofList (blanks ++ part ++ blanks'))
      (String.ofList (before ++ part ++ after)) = true := by
  obtain ⟨left, right, hpart, hleft, hright⟩ := exists_trimChars part
  have hneedle : (needle (String.ofList (blanks ++ part ++ blanks'))).toList =
      lowerFrom [] (trimChars part) := by
    rw [needle, lower, trim, String.toList_ofList, String.toList_ofList, String.toList_ofList,
      trimChars_padded hblanks hblanks']
  generalize trimChars part = core at hpart hneedle
  subst hpart
  have hparts := lowerFrom_parts (before ++ left) core (right ++ after)
  rw [keepsSigmas_iff.mp (h.trimmed hleft hright)] at hparts
  have htext : before ++ left ++ core ++ (right ++ after) =
      before ++ (left ++ core ++ right) ++ after := by
    simp only [List.append_assoc]
  rw [htext] at hparts
  rw [matchesQuery, Bool.or_eq_true, occursIn_iff, hneedle, lower, String.toList_ofList,
    String.toList_ofList, hparts]
  right
  exact List.infix_append _ _ _

end Text

namespace SavedFilter

open Text

/-- A label is found by each of its parts that keeps its sigmas, with any white space around it. In
the lower case of the label a part becomes its own lower case if it keeps them, and only then. -/
theorem label_found_by_part (f : SavedFilter) (before part after blanks blanks' : String)
    (hlabel : f.label = before ++ part ++ after) (hblanks : isBlank blanks = true)
    (hblanks' : isBlank blanks' = true) :
    (KeepsSigmas before.toList part.toList after.toList →
      f.matchesLabel (blanks ++ part ++ blanks') = true) ∧
    ∃ left middle right, (lower f.label).toList = left ++ middle ++ right ∧
      left = lowerBetween [] before.toList (part ++ after).toList ∧
      right = lowerBetween (before ++ part).toList.reverse after.toList [] ∧
      (middle = (lower part).toList ↔ KeepsSigmas before.toList part.toList after.toList) := by
  rw [isBlank, List.all_eq_true] at hblanks hblanks'
  refine ⟨fun h => ?_, _, lowerBetween before.toList.reverse part.toList after.toList, _, ?_, rfl,
    rfl, ?_⟩
  · have hfound := matchesQuery_of_part h hblanks hblanks'
    rw [← String.toList_append, ← String.toList_append, ← String.toList_append,
      ← String.toList_append, String.ofList_toList, String.ofList_toList] at hfound
    rw [matchesLabel, hlabel]
    exact hfound
  · rw [hlabel, lower, String.toList_ofList]
    simp only [String.toList_append]
    exact lowerFrom_parts _ _ _
  · rw [lower, String.toList_ofList]
    exact keepsSigmas_iff.symm

/-- A word of a label, searched for with a blank and a tab around it. -/
theorem label_found_by_part_word :
    let f : SavedFilter := ⟨⟨"f"⟩, "Ο ΔΙΑΣ ΚΑΙ Η ΗΡΑ", none, [], [], false⟩
    f.label = "Ο " ++ "ΔΙΑΣ" ++ " ΚΑΙ Η ΗΡΑ" ∧ isBlank " " = true ∧ isBlank "\t" = true ∧
      KeepsSigmas "Ο ".toList "ΔΙΑΣ".toList " ΚΑΙ Η ΗΡΑ".toList ∧
      f.matchesLabel (" " ++ "ΔΙΑΣ" ++ "\t") = true := by
  intro f
  have hlabel : f.label = "Ο " ++ "ΔΙΑΣ" ++ " ΚΑΙ Η ΗΡΑ" := by decide +kernel
  have hspace : isBlank " " = true := by decide
  have htab : isBlank "\t" = true := by decide
  have hblank : isBlankChar ' ' = true := by decide
  have hwords : KeepsSigmas "Ο ".toList "ΔΙΑΣ".toList " ΚΑΙ Η ΗΡΑ".toList := by
    apply keepsSigmas_of_words
    · rintro c ⟨⟩
      exact hblank
    · rintro c ⟨⟩
      exact hblank
  exact ⟨hlabel, hspace, htab, hwords,
    (label_found_by_part f "Ο " "ΔΙΑΣ" " ΚΑΙ Η ΗΡΑ" " " "\t" hlabel hspace htab).1 hwords⟩

/-- The beginning of a word is not found: its sigma closes a word of its own, but none of the
label. -/
theorem beginning_is_not_found :
    let f : SavedFilter := ⟨⟨"f"⟩, "ΑΣΤΡΑ", none, [], [], false⟩
    f.label = "" ++ "ΑΣ" ++ "ΤΡΑ" ∧ f.matchesLabel "ΑΣ" = false := by
  intro f
  refine ⟨by decide +kernel, ?_⟩
  decide +kernel

end SavedFilter

end AlertFilter
