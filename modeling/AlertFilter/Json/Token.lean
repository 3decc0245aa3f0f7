import AlertFilter.Json.Document

/-!
# Tokens of JSON text

The text is cut into marks, names or texts, and scalars. Cutting stops at the first piece that
cannot be a token; what to make of it depends on where it stands, which is not decided here.
-/

namespace AlertFilter.Json

inductive Token where
  | openArray
  | closeArray
  | openObject
  | closeObject
  | comma
  | colon
  /-- A string; a fault if it can be skipped but not used. -/
  | string (value : Except Fault String)
  /-- A string that does not end well, with the faults of using and of skipping it. -/
  | cutString (used skipped : Fault)
  | scalar (value : Document)
  | stray

namespace Token

def isHexDigit (c : Char) : Bool :=
  c.isDigit || ('a' ≤ c && c ≤ 'f') || ('A' ≤ c && c ≤ 'F')

def hexValue (c : Char) : Nat :=
  if c.isDigit then c.toNat - '0'.toNat
  else if 'a' ≤ c then c.toNat - 'a'.toNat + 10 else c.toNat - 'A'.toNat + 10

def hexCode (a b c d : Char) : Option Nat :=
  if isHexDigit a && isHexDigit b && isHexDigit c && isHexDigit d then
    some (((hexValue a * 16 + hexValue b) * 16 + hexValue c) * 16 + hexValue d)
  else none

/-- The fault of a code escape with fewer than four characters left: the end counts in bytes. -/
def shortCode (rest : List Char) : Fault :=
  if (String.ofList rest).utf8ByteSize < 4 then .endInString else .invalidEscape

def simpleEscape (c : Char) : Option Char :=
  match c with
  | '"' => some '"'
  | '\\' => some '\\'
  | '/' => some '/'
  | 'b' => some (Char.ofNat 8)
  | 'f' => some (Char.ofNat 12)
  | 'n' => some '\n'
  | 'r' => some '\r'
  | 't' => some '\t'
  | _ => none

def isControl (c : Char) : Bool := c.toNat < 32

/-- Passes over the inside of a string; what is left stands behind the closing quote. -/
def skipString : List Char → Except Fault (List Char)
  | [] => .error .endInString
  | '"' :: rest => .ok rest
  | ['\\'] => .error .endInString
  | '\\' :: 'u' :: a :: b :: c :: d :: rest =>
    if (hexCode a b c d).isSome then skipString rest else .error .invalidEscape
  | '\\' :: 'u' :: rest => .error (shortCode rest)
  | '\\' :: e :: rest => if (simpleEscape e).isSome then skipString rest else .error .invalidEscape
  | c :: rest => if isControl c then .error .controlCharacter else skipString rest

/-- A string read so far, last character first, and perhaps the first half of a surrogate pair. -/
structure Spelling where
  done : List Char
  lead : Option Nat

/-- Adds the code of an escape: a character, the first half of a pair or the second. -/
def Spelling.addCode (s : Spelling) (code : Nat) : Except Fault Spelling :=
  match s.lead with
  | none =>
    if 0xDC00 ≤ code ∧ code ≤ 0xDFFF then .error .loneSurrogate
    else if 0xD800 ≤ code ∧ code ≤ 0xDBFF then .ok { s with lead := some code }
    else .ok { s with done := Char.ofNat code :: s.done }
  | some first =>
    if 0xDC00 ≤ code ∧ code ≤ 0xDFFF then
      .ok ⟨Char.ofNat ((first - 0xD800) * 0x400 + (code - 0xDC00) + 0x10000) :: s.done, none⟩
    else .error .loneSurrogate

/-- Reads the inside of a string up to the closing quote. The first half of a pair must be followed
at once by the escape of the second. -/
def spell (s : Spelling) : List Char → Except Fault String
  | [] => .error .endInString
  | ['\\'] => .error .endInString
  | '\\' :: 'u' :: a :: b :: c :: d :: rest =>
    match hexCode a b c d with
    | none => .error .invalidEscape
    | some code =>
      match s.addCode code with
      | .ok s => spell s rest
      | .error f => .error f
  | '\\' :: 'u' :: rest => .error (shortCode rest)
  | '\\' :: e :: rest =>
    if s.lead.isSome then .error .unfinishedSurrogate
    else match simpleEscape e with
      | some c => spell { s with done := c :: s.done } rest
      | none => .error .invalidEscape
  | c :: rest =>
    if s.lead.isSome then .error .unfinishedSurrogate
    else if c = '"' then .ok (String.ofList s.done.reverse)
    else if isControl c then .error .controlCharacter
    else spell { s with done := c :: s.done } rest

/-- A piece of text cut off at the front: the token and what is left, nothing after a bad piece. -/
structure Cut where
  token : Token
  rest : List Char

/-- The string whose opening quote has been passed. -/
def cutStringAt (cs : List Char) : Cut :=
  match skipString cs with
  | .ok rest => ⟨.string (spell ⟨[], none⟩ cs), rest⟩
  | .error skipped =>
    match spell ⟨[], none⟩ cs with
    | .error used => ⟨.cutString used skipped, []⟩
    | .ok _ => ⟨.cutString skipped skipped, []⟩

/-- A number that stops short: at the end of the text a reader that uses it reports the end. -/
def cutNumber (rest : List Char) : Cut :=
  ⟨.scalar (.broken (if rest.isEmpty then .endInValue else .invalidNumber) .invalidNumber), []⟩

/-- A whole number in range as it is; others, and minus zero, as a floating-point number. -/
def wholeNumber (negative : Bool) (digits : List Char) : Document :=
  let n := Decimal.natOfDigits digits
  let z : Int := if negative then -(n : Int) else n
  if h : FitsWord z ∧ ¬(negative ∧ n = 0) then .number (.whole z h.1)
  else match Decimal.quickBinary64? negative digits [] 0 with
    | some x => .number (.float x)
    | none => .unusable .numberOutOfRange

def floatNumber (negative : Bool) (whole fraction : List Char) (exponent : Int) : Document :=
  match Decimal.quickBinary64? negative whole fraction exponent with
  | some x => .number (.float x)
  | none => .unusable .numberOutOfRange

def cutExponent (negative : Bool) (whole fraction : List Char) (cs : List Char) : Cut :=
  let (minus, cs) := Decimal.splitSign cs
  let (digits, rest) := Decimal.spanDigits cs
  if digits.isEmpty then cutNumber rest
  else
    let e : Int := Decimal.natOfDigits digits
    ⟨.scalar (floatNumber negative whole fraction (if minus then -e else e)), rest⟩

/-- An exponent if there is one, otherwise the number as it stands. -/
def cutBehindDigits (negative : Bool) (whole fraction : List Char) (plain : Document) :
    List Char → Cut
  | 'e' :: rest => cutExponent negative whole fraction rest
  | 'E' :: rest => cutExponent negative whole fraction rest
  | rest => ⟨.scalar plain, rest⟩

def cutBehindWhole (negative : Bool) (whole rest : List Char) : Cut :=
  if whole.isEmpty then cutNumber rest
  else if whole.head? = some '0' ∧ whole.length ≠ 1 then
    ⟨.scalar (.broken .invalidNumber .invalidNumber), []⟩
  else match rest with
    | '.' :: tail =>
      let digits := Decimal.spanDigits tail
      if digits.1.isEmpty then cutNumber digits.2
      else cutBehindDigits negative whole digits.1 (floatNumber negative whole digits.1 0) digits.2
    | rest => cutBehindDigits negative whole [] (wholeNumber negative whole) rest

def cutNumberAt (negative : Bool) (cs : List Char) : Cut :=
  cutBehindWhole negative (Decimal.spanDigits cs).1 (Decimal.spanDigits cs).2

/-- The rest of a word whose first letter has been passed. -/
def cutWord (value : Document) : List Char → List Char → Cut
  | [], rest => ⟨.scalar value, rest⟩
  | _ :: _, [] => ⟨.scalar (.broken .endInValue .endInValue), []⟩
  | w :: ws, c :: rest =>
    if w = c then cutWord value ws rest
    else ⟨.scalar (.broken .expectedWord .expectedWord), []⟩

/-- The token that begins with a character which is not blank. -/
def cutAt (c : Char) (rest : List Char) : Cut :=
  match c with
  | '[' => ⟨.openArray, rest⟩
  | ']' => ⟨.closeArray, rest⟩
  | '{' => ⟨.openObject, rest⟩
  | '}' => ⟨.closeObject, rest⟩
  | ',' => ⟨.comma, rest⟩
  | ':' => ⟨.colon, rest⟩
  | '"' => cutStringAt rest
  | 'n' => cutWord .null ['u', 'l', 'l'] rest
  | 't' => cutWord (.bool true) ['r', 'u', 'e'] rest
  | 'f' => cutWord (.bool false) ['a', 'l', 's', 'e'] rest
  | '-' => cutNumberAt true rest
  | c => if c.isDigit then cutNumberAt false (c :: rest) else ⟨.stray, []⟩

theorem length_skipString {cs rest : List Char} (h : skipString cs = .ok rest) :
    rest.length < cs.length := by
  fun_induction skipString cs <;> simp_all <;> grind

theorem length_cutStringAt (cs : List Char) : (cutStringAt cs).rest.length ≤ cs.length := by
  unfold cutStringAt
  split
  · next h => exact Nat.le_of_lt (length_skipString h)
  · split <;> simp

theorem length_spanDigits (cs : List Char) : (Decimal.spanDigits cs).2.length ≤ cs.length :=
  (List.dropWhile_sublist _).length_le

theorem length_splitSign (cs : List Char) : (Decimal.splitSign cs).2.length ≤ cs.length := by
  unfold Decimal.splitSign
  split <;> simp

theorem length_cutExponent (negative : Bool) (whole fraction cs : List Char) :
    (cutExponent negative whole fraction cs).rest.length ≤ cs.length := by
  have h := Nat.le_trans (length_spanDigits (Decimal.splitSign cs).2) (length_splitSign cs)
  simp only [cutExponent]
  split
  · simp [cutNumber]
  · exact h

theorem length_cutBehindDigits (negative : Bool) (whole fraction : List Char) (plain : Document)
    (rest : List Char) :
    (cutBehindDigits negative whole fraction plain rest).rest.length ≤ rest.length := by
  unfold cutBehindDigits
  split
  · exact Nat.le_succ_of_le (length_cutExponent _ _ _ _)
  · exact Nat.le_succ_of_le (length_cutExponent _ _ _ _)
  · exact Nat.le_refl _

theorem length_cutBehindWhole (negative : Bool) (whole rest : List Char) :
    (cutBehindWhole negative whole rest).rest.length ≤ rest.length := by
  unfold cutBehindWhole
  split
  · simp [cutNumber]
  split
  · simp
  split
  · next tail =>
    dsimp only
    split
    · simp [cutNumber]
    · exact Nat.le_succ_of_le
        (Nat.le_trans (length_cutBehindDigits _ _ _ _ _) (length_spanDigits tail))
  · exact length_cutBehindDigits _ _ _ _ _

theorem length_cutWord (value : Document) (ws cs : List Char) :
    (cutWord value ws cs).rest.length ≤ cs.length := by
  induction ws generalizing cs with
  | nil => simp [cutWord]
  | cons w ws ih =>
    cases cs with
    | nil => simp [cutWord]
    | cons c cs =>
      simp only [cutWord]
      split
      · exact Nat.le_succ_of_le (ih cs)
      · simp

theorem length_cutAt (c : Char) (rest : List Char) : (cutAt c rest).rest.length ≤ rest.length := by
  unfold cutAt
  split
  iterate 6 exact Nat.le_refl _
  · exact length_cutStringAt rest
  · exact length_cutWord _ _ rest
  · exact length_cutWord _ _ rest
  · exact length_cutWord _ _ rest
  · exact Nat.le_trans (length_cutBehindWhole _ _ _) (length_spanDigits rest)
  split
  · next h =>
    refine Nat.le_trans (length_cutBehindWhole _ _ _) ?_
    simpa [Decimal.spanDigits, List.dropWhile_cons, h] using length_spanDigits rest
  · simp

end Token

end AlertFilter.Json
