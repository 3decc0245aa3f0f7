import AlertFilter.Store.Address
import Mathlib.Data.List.Infix
import Mathlib.Tactic.Lemma
import Mathlib.Tactic.MkIffOfInductiveProp

/-!
# Percent escapes

In an address a character may stand for itself or be escaped, byte by byte. What was escaped and
what was not cannot be seen afterwards: a text that holds an escape of its own may be written like
another text. Texts without escapes that could have been written for a character are told apart by
what is written for them.
-/

namespace AlertFilter.Address

/-- The escape of a character. -/
def escape (c : Char) : List Char := (String.utf8EncodeChar c).flatMap encodeByte

/-- A character may not stand for itself. -/
def IsEscaped (reserved : List Char) (c : Char) : Prop :=
  c.toNat < 0x20 ∨ 0x7F ≤ c.toNat ∨ c ∈ reserved

/-- A text written with some of the characters escaped that may not stand for themselves. -/
@[mk_iff]
inductive Rendered (reserved : List Char) : List Char → List Char → Prop
  | nil : Rendered reserved [] []
  | plain (c : Char) {cs written : List Char} :
    Rendered reserved cs written → Rendered reserved (c :: cs) (c :: written)
  | escaped (c : Char) (hc : IsEscaped reserved c) {cs written : List Char} :
    Rendered reserved cs written → Rendered reserved (c :: cs) (escape c ++ written)

/-- No escape stands in a text of a character that may not stand for itself. -/
def NoEscape (reserved cs : List Char) : Prop := ∀ c, IsEscaped reserved c → ¬escape c <:+: cs

def isHexDigit (c : Char) : Bool :=
  c.isDigit || ('A' ≤ c && c ≤ 'F') || ('a' ≤ c && c ≤ 'f')

variable {reserved : List Char}

lemma toList_loop (bs : ByteArray) (i : Nat) (acc : List UInt8) :
    ByteArray.toList.loop bs i acc = acc.reverse ++ bs.data.toList.drop i := by
  induction i, acc using ByteArray.toList.loop.induct bs with
  | case1 i acc hi ih =>
    have hget : bs.get! i = bs.data.toList[i] := getElem!_pos bs.data i hi
    rw [ByteArray.toList.loop, if_pos hi, ih, List.drop_eq_getElem_cons hi, hget]
    simp
  | case2 i acc hi =>
    rw [ByteArray.toList.loop, if_neg hi, List.drop_eq_nil_of_le (Nat.not_lt.mp hi),
      List.append_nil]

lemma toList_toUTF8 (c : Char) :
    (String.ofList [c]).toUTF8.toList = String.utf8EncodeChar c := by
  have hbytes : (String.ofList [c]).toUTF8 = (String.utf8EncodeChar c).toByteArray := by
    rw [String.toUTF8_eq_toByteArray, String.toByteArray_ofList, List.utf8Encode,
      List.flatMap_singleton]
  rw [hbytes, ByteArray.toList, toList_loop, List.data_toByteArray]
  rfl

/-- The bytes of a character are not the beginning of those of another. -/
lemma eq_of_bytes_begin {c c' : Char}
    (h : String.utf8EncodeChar c <+: String.utf8EncodeChar c') : c = c' := by
  obtain ⟨rest, hrest⟩ := h
  have hread := @ByteArray.utf8DecodeChar?_utf8EncodeChar_append rest.toByteArray c
  have hread' := @ByteArray.utf8DecodeChar?_utf8EncodeChar_append ByteArray.empty c'
  rw [← List.toByteArray_append, hrest] at hread
  rw [ByteArray.append_empty, hread] at hread'
  exact Option.some.inj hread'

lemma byteDigit_injective : ∀ m < 16, ∀ n < 16, byteDigit m = byteDigit n → m = n := by decide

lemma isHexDigit_byteDigit : ∀ n < 16, isHexDigit (byteDigit n) = true := by decide

lemma encodeByte_eq (b : UInt8) : ∃ x y, encodeByte b = ['%', x, y] ∧
    isHexDigit x = true ∧ isHexDigit y = true := by
  have hb := b.toNat_lt
  exact ⟨_, _, rfl, isHexDigit_byteDigit _ (by omega), isHexDigit_byteDigit _ (by omega)⟩

lemma encodeByte_injective : Function.Injective encodeByte := by
  intro b b' h
  have hb := b.toNat_lt
  have hb' := b'.toNat_lt
  simp only [encodeByte, List.cons.injEq, true_and, and_true] at h
  have hhigh := byteDigit_injective _ (by omega) _ (by omega) h.1
  have hlow := byteDigit_injective _ (by omega) _ (by omega) h.2
  apply UInt8.toNat_inj.mp
  omega

lemma prefix_or_prefix_of_escapes {bs bs' : List UInt8} {written written' : List Char}
    (h : bs.flatMap encodeByte ++ written = bs'.flatMap encodeByte ++ written') :
    bs <+: bs' ∨ bs' <+: bs := by
  induction bs generalizing bs' with
  | nil => exact .inl List.nil_prefix
  | cons b rest ih =>
    cases bs' with
    | nil => exact .inr List.nil_prefix
    | cons b' rest' =>
      simp only [List.flatMap_cons, List.append_assoc] at h
      obtain ⟨hb, hrest⟩ := List.append_inj h rfl
      rw [encodeByte_injective hb, List.cons_prefix_cons, List.cons_prefix_cons]
      simpa using ih hrest

lemma escape_append_inj {c c' : Char} {written written' : List Char}
    (h : escape c ++ written = escape c' ++ written') : c = c' ∧ written = written' := by
  have hc : c = c' := by
    rcases prefix_or_prefix_of_escapes h with hbegin | hbegin
    · exact eq_of_bytes_begin hbegin
    · exact (eq_of_bytes_begin hbegin).symm
  subst hc
  exact ⟨rfl, List.append_cancel_left h⟩

/-- The first byte of a character is told from the others. -/
lemma exists_bytes (c : Char) : ∃ b bs, String.utf8EncodeChar c = b :: bs ∧ b.IsUTF8FirstByte ∧
    ∀ b' ∈ bs, ¬b'.IsUTF8FirstByte := by
  obtain ⟨b, bs, hbs⟩ := List.exists_cons_of_ne_nil (String.utf8EncodeChar_ne_nil (c := c))
  have hfirst {i : Nat} (hi : i < (b :: bs).length) : (b :: bs)[i].IsUTF8FirstByte ↔ i = 0 := by
    have hi' : i < (String.utf8EncodeChar c).length := hbs ▸ hi
    have h := @UInt8.isUTF8FirstByte_getElem_utf8EncodeChar c i hi'
    simpa only [hbs] using h
  refine ⟨b, bs, hbs, (hfirst (Nat.zero_lt_succ _)).mpr rfl, fun b' hb' hfirst' => ?_⟩
  obtain ⟨i, hi, rfl⟩ := List.mem_iff_getElem.mp hb'
  exact Nat.succ_ne_zero i ((hfirst (Nat.succ_lt_succ hi)).mp hfirst')

lemma NoEscape.tail {c : Char} {cs : List Char} (h : NoEscape reserved (c :: cs)) :
    NoEscape reserved cs :=
  fun d hd hpart => h d hd (hpart.trans (List.suffix_cons c cs).isInfix)

/-- A hexadecimal digit stands for itself: an escape begins with a percent sign. -/
lemma Rendered.exists_of_hex {cs written : List Char} {x : Char}
    (h : Rendered reserved cs (x :: written)) (hx : isHexDigit x = true) :
    ∃ rest, cs = x :: rest ∧ Rendered reserved rest written := by
  rcases (rendered_iff _ _ _).mp h with ⟨-, hnil⟩ | ⟨c, rest, written', hrest, rfl, hw⟩ |
    ⟨c, -, rest, written', -, -, hw⟩
  · cases hnil
  · cases hw
    exact ⟨rest, rfl, hrest⟩
  · obtain ⟨b, bs, hbs, -, -⟩ := exists_bytes c
    obtain ⟨y, z, hb, -, -⟩ := encodeByte_eq b
    rw [escape, hbs, List.flatMap_cons, hb] at hw
    cases hw
    exact absurd hx (by decide)

/-- The escape of a byte stands for itself if its percent sign does. -/
lemma Rendered.exists_of_byte {cs written rest : List Char} {b : UInt8}
    (h : Rendered reserved cs written) (hb : '%' :: written = encodeByte b ++ rest) :
    ∃ cs', '%' :: cs = encodeByte b ++ cs' ∧ Rendered reserved cs' rest := by
  obtain ⟨x, y, hbyte, hx, hy⟩ := encodeByte_eq b
  rw [hbyte] at hb ⊢
  cases hb
  obtain ⟨cs₁, rfl, h₁⟩ := h.exists_of_hex hx
  obtain ⟨cs₂, rfl, h₂⟩ := h₁.exists_of_hex hy
  exact ⟨cs₂, rfl, h₂⟩

/-- No escape begins with a byte that is not the first of a character. -/
lemma Rendered.prefix_of_not_first {cs written : List Char} {bs : List UInt8}
    (hbs : ∀ b ∈ bs, ¬b.IsUTF8FirstByte)
    (h : Rendered reserved cs (bs.flatMap encodeByte ++ written)) :
    bs.flatMap encodeByte <+: cs := by
  induction bs generalizing cs with
  | nil => exact List.nil_prefix
  | cons b bs ih =>
    obtain ⟨hb, hrest⟩ := List.forall_mem_cons.mp hbs
    rw [List.flatMap_cons, List.append_assoc] at h
    rcases (rendered_iff _ _ _).mp h with ⟨-, hnil⟩ | ⟨c, cs, written', hcs, rfl, hw⟩ |
      ⟨c, -, cs, written', -, -, hw⟩
    · obtain ⟨x, y, hbyte, -, -⟩ := encodeByte_eq b
      rw [hbyte] at hnil
      cases hnil
    · have hc : c = '%' := (List.cons.inj hw).1.symm
      subst hc
      obtain ⟨cs', hcs', hrendered⟩ := hcs.exists_of_byte hw.symm
      rw [List.flatMap_cons, hcs', List.prefix_append_right_inj]
      exact ih hrest hrendered
    · obtain ⟨b', bs', hc, hfirst, -⟩ := exists_bytes c
      rw [escape, hc, List.flatMap_cons, List.append_assoc] at hw
      have heq : b = b' := encodeByte_injective (List.append_inj hw rfl).1
      exact absurd (heq ▸ hfirst) hb

/-- A text whose first character stands for itself is not written like an escape. -/
lemma NoEscape.ne_append {c c' : Char} {cs written written' : List Char}
    (hplain : NoEscape reserved (c :: cs)) (h : Rendered reserved cs written)
    (hc' : IsEscaped reserved c') : c :: written ≠ escape c' ++ written' := by
  intro heq
  obtain ⟨b, bs, hbs, -, hrest⟩ := exists_bytes c'
  have hescape : escape c' = encodeByte b ++ bs.flatMap encodeByte := by
    rw [escape, hbs, List.flatMap_cons]
  rw [hescape, List.append_assoc] at heq
  have hc : c = '%' := (List.cons.inj heq).1
  subst hc
  obtain ⟨cs', hcs', hrendered⟩ := h.exists_of_byte heq
  refine hplain c' hc' (List.IsPrefix.isInfix ?_)
  rw [hescape, hcs', List.prefix_append_right_inj]
  exact hrendered.prefix_of_not_first hrest

lemma ne_nil_append (c : Char) (written : List Char) : escape c ++ written ≠ [] := by
  obtain ⟨b, bs, hbs, -, -⟩ := exists_bytes c
  obtain ⟨x, y, hbyte, -, -⟩ := encodeByte_eq b
  rw [escape, hbs, List.flatMap_cons, hbyte]
  exact List.cons_ne_nil _ _

/-- Texts without escapes of reserved characters are told apart by what is written for them. -/
theorem Rendered.eq_of_noEscape {cs cs' written : List Char} (h : Rendered reserved cs written)
    (h' : Rendered reserved cs' written) (hplain : NoEscape reserved cs)
    (hplain' : NoEscape reserved cs') : cs = cs' := by
  induction h generalizing cs' with
  | nil =>
    rcases (rendered_iff _ _ _).mp h' with ⟨rfl, -⟩ | ⟨c, rest, written', -, -, hw⟩ |
      ⟨c, -, rest, written', -, -, hw⟩
    · rfl
    · cases hw
    · exact absurd hw.symm (ne_nil_append c written')
  | @plain c cs written hrest ih =>
    rcases (rendered_iff _ _ _).mp h' with ⟨-, hnil⟩ | ⟨c', rest, written', hrest', rfl, hw⟩ |
      ⟨c', hc', rest, written', -, rfl, hw⟩
    · cases hnil
    · cases hw
      rw [ih hrest' hplain.tail hplain'.tail]
    · exact absurd hw (hplain.ne_append hrest hc')
  | @escaped c hc cs written hrest ih =>
    rcases (rendered_iff _ _ _).mp h' with ⟨-, hnil⟩ | ⟨c', rest, written', hrest', rfl, hw⟩ |
      ⟨c', -, rest, written', hrest', rfl, hw⟩
    · exact absurd hnil (ne_nil_append c written)
    · exact absurd hw.symm (hplain'.ne_append hrest' hc)
    · obtain ⟨rfl, rfl⟩ := escape_append_inj hw
      rw [ih hrest' hplain.tail hplain'.tail]

lemma Rendered.append {cs cs' written written' : List Char} (h : Rendered reserved cs written)
    (h' : Rendered reserved cs' written') :
    Rendered reserved (cs ++ cs') (written ++ written') := by
  induction h with
  | nil => exact h'
  | plain c _ ih => exact .plain c ih
  | escaped c hc _ ih =>
    rw [List.cons_append, List.append_assoc]
    exact .escaped c hc ih

/-- What a set of characters encodes is written by a larger one as well. -/
lemma rendered_encode {reserved' cs : List Char} (h : ∀ c ∈ cs, c ∈ reserved' → c ∈ reserved) :
    Rendered reserved cs (encode reserved' cs) := by
  induction cs with
  | nil => exact .nil
  | cons c rest ih =>
    obtain ⟨hc, hrest⟩ := List.forall_mem_cons.mp h
    rw [encode, List.flatMap_cons]
    split
    · next hescaped =>
      rw [toList_toUTF8]
      exact .escaped c (hescaped.imp_right (Or.imp_right hc)) (ih hrest)
    · exact .plain c (ih hrest)

end AlertFilter.Address
