/-!
# White space

A character is blank when Unicode gives it the property White_Space. Labels, values, field paths
and tags are trimmed by this rule, and one that is all blank counts as not given.
-/

namespace AlertFilter.Text

/-- White space in the sense of Unicode. -/
def isBlankChar (c : Char) : Bool :=
  let n := c.toNat
  (9 ≤ n && n ≤ 13) || n == 0x20 || n == 0x85 || n == 0xA0 || n == 0x1680 ||
    (0x2000 ≤ n && n ≤ 0x200A) || n == 0x2028 || n == 0x2029 || n == 0x202F || n == 0x205F ||
    n == 0x3000

def trimChars (cs : List Char) : List Char :=
  ((cs.dropWhile isBlankChar).reverse.dropWhile isBlankChar).reverse

def trim (s : String) : String := String.ofList (trimChars s.toList)

def isBlank (s : String) : Bool := s.toList.all isBlankChar

theorem dropWhile_eq_nil_iff {p : Char → Bool} {cs : List Char} :
    cs.dropWhile p = [] ↔ ∀ c ∈ cs, p c = true := by
  induction cs with
  | nil => simp
  | cons c rest ih =>
    by_cases h : p c = true
    · simp [h, ih]
    · simp [h]

/-- Trimming leaves nothing exactly when there is nothing but blanks. -/
theorem trimChars_eq_nil_iff {cs : List Char} :
    trimChars cs = [] ↔ ∀ c ∈ cs, isBlankChar c = true := by
  rw [trimChars, List.reverse_eq_nil_iff, dropWhile_eq_nil_iff,
    ← @dropWhile_eq_nil_iff isBlankChar cs]
  constructor
  · intro h
    refine Decidable.byContradiction fun hn => ?_
    have hb := h _ (List.mem_reverse.2 (List.head_mem hn))
    have := List.head_dropWhile_not isBlankChar hn
    simp [hb] at this
  · intro h
    simp [h]

theorem isBlank_iff_trim_eq_empty {s : String} : isBlank s = true ↔ trim s = "" := by
  rw [isBlank, List.all_eq_true, ← trimChars_eq_nil_iff, trim]
  exact ⟨fun h => by rw [h], fun h => by simpa using congrArg String.toList h⟩

theorem all_dropWhile {p : Char → Bool} {cs : List Char} : (cs.dropWhile p).all p = cs.all p := by
  induction cs with
  | nil => rfl
  | cons c rest ih =>
    rw [List.dropWhile_cons]
    split
    · next h => rw [ih, List.all_cons, h, Bool.true_and]
    · rfl

/-- What is blank does not depend on the blanks at the ends. -/
@[simp] theorem isBlank_trim (s : String) : isBlank (trim s) = isBlank s := by
  rw [isBlank, isBlank, trim, String.toList_ofList, trimChars, List.all_reverse, all_dropWhile,
    List.all_reverse, all_dropWhile]

/-- Blanks at the ends do not count for what is trimmed. -/
theorem trimChars_padded {blanks cs blanks' : List Char}
    (h : ∀ c ∈ blanks, isBlankChar c = true) (h' : ∀ c ∈ blanks', isBlankChar c = true) :
    trimChars (blanks ++ cs ++ blanks') = trimChars cs := by
  rw [trimChars, List.append_assoc, List.dropWhile_append_of_pos h, List.dropWhile_append,
    trimChars]
  split
  · next hempty =>
    rw [List.isEmpty_iff.mp hempty, dropWhile_eq_nil_iff.mpr h']
  · rw [List.reverse_append, List.dropWhile_append_of_pos (by simpa using h')]

end AlertFilter.Text
