import AlertFilter.Expression
import AlertFilter.Proofs.KindRecord

/-!
# The JSON of an expression

A field path is a text with a dollar sign before it, and a literal text is that text, so an
expression cannot always be told from its JSON. This file reads one back from the JSON, with
every text that has a dollar sign taken for a field path. Of the expressions that keep to
the shapes of the three kinds of nodes, two have the same JSON exactly when they are read
alike.
-/

namespace AlertFilter.Expression

open Json

mutual

/-- The canonical form of what is written out is what is shown. -/
theorem canonical_written : ∀ e : Expression, canonical e.written = e.toJson
  | field _ => rfl
  | literal l => l.canonical_toJson
  | unary _ operand => by
    rw [written, canonical, canonicalMembers, canonical_written operand]
    rfl
  | call _ operands => by
    rw [written, canonical, canonicalMembers, canonical, canonicalItems_written operands]
    rfl
  | named _ operands => by
    rw [toJson, ← foldl_canonical_written [] operands, written, canonical, canonicalMembers,
      canonical]
    rfl

lemma canonicalItems_written :
    ∀ es : List Expression, canonicalItems (writtenItems es) = toJsonItems es
  | [] => rfl
  | e :: rest => by
    rw [writtenItems, canonicalItems, canonical_written e, canonicalItems_written rest,
      toJsonItems]

lemma foldl_canonical_written : ∀ (done : Members) (operands : List (String × Expression)),
    (canonicalMembers (writtenNamed operands)).foldl
      (fun done m => insertMember m.1 m.2 done) done = toJsonNamed done operands
  | _, [] => rfl
  | done, (_, e) :: rest => by
    rw [writtenNamed, canonicalMembers, canonical_written e, List.foldl_cons,
      foldl_canonical_written _ rest, toJsonNamed]

end

lemma writtenItems_eq_map (es : List Expression) : writtenItems es = es.map written := by
  induction es with
  | nil => rfl
  | cons e rest ih => rw [writtenItems, ih, List.map_cons]

lemma writtenNamed_eq_map (operands : List (String × Expression)) :
    writtenNamed operands = operands.map (Prod.map id written) := by
  induction operands with
  | nil => rfl
  | cons m rest ih =>
    rw [writtenNamed, ih, List.map_cons]
    rfl

lemma toJsonItems_eq_map (es : List Expression) : toJsonItems es = es.map toJson := by
  induction es with
  | nil => rfl
  | cons e rest ih => rw [toJsonItems, ih, List.map_cons]

/-- Named operands in ascending order are the members as they stand. -/
lemma toJsonNamed_of_sorted {operands : List (String × Expression)}
    (h : operands.Pairwise (·.1 < ·.1)) :
    toJsonNamed [] operands = operands.map (Prod.map id toJson) := by
  have hmap : canonicalMembers (writtenNamed operands) = operands.map (Prod.map id toJson) := by
    rw [canonicalMembers_eq_map, writtenNamed_eq_map, List.map_map, Prod.map_comp_map]
    exact congrArg (fun f => operands.map (Prod.map id f)) (funext canonical_written)
  have hsorted : Sorted (operands.map (Prod.map id toJson)) := List.pairwise_map.mpr h
  rw [← foldl_canonical_written, hmap]
  exact hsorted.sortMembers_eq

/-- The text would be written for a field path. -/
def spellsField (s : String) : Bool := s.toList.head? = some '$'

/-- What a text on its own is read as: a dollar sign marks a field path. -/
def ofText (s : String) : Expression :=
  if spellsField s then field (String.ofList s.toList.tail) else literal (.text s)

lemma eq_of_spellsField {s : String} (h : spellsField s = true) :
    s = "$" ++ String.ofList s.toList.tail := by
  obtain ⟨path, hs⟩ := List.head?_eq_some_iff.mp (of_decide_eq_true h)
  apply String.toList_inj.mp
  simp [hs]

@[simp] lemma spellsField_append (path : String) : spellsField ("$" ++ path) = true := by
  simp [spellsField]

@[simp] lemma ofText_append (path : String) : ofText ("$" ++ path) = field path := by
  rw [ofText, if_pos (spellsField_append path)]
  simp

@[simp] lemma toJson_ofText (s : String) : (ofText s).toJson = .text s := by
  unfold ofText
  split
  · next h => rw [toJson, ← eq_of_spellsField h]
  · rfl

mutual

/-- The expression with every literal text that spells a field path read as that path. -/
def asRead : Expression → Expression
  | field path => field path
  | literal (.text s) => ofText s
  | literal l => literal l
  | unary symbol operand => unary symbol (asRead operand)
  | call symbol operands => call symbol (asReadItems operands)
  | named symbol operands => named symbol (asReadNamed operands)

def asReadItems : List Expression → List Expression
  | [] => []
  | e :: rest => asRead e :: asReadItems rest

def asReadNamed : List (String × Expression) → List (String × Expression)
  | [] => []
  | (name, e) :: rest => (name, asRead e) :: asReadNamed rest

end

lemma asReadItems_fields (paths : List String) :
    asReadItems (paths.map field) = paths.map field := by
  induction paths with
  | nil => rfl
  | cons path rest ih =>
    rw [List.map_cons, asReadItems, ih]
    rfl

mutual

/-- The JSON does not tell a literal text from the field path that it spells. -/
theorem toJson_asRead : ∀ e : Expression, e.asRead.toJson = e.toJson
  | field _ => rfl
  | literal l => by cases l <;> first | exact toJson_ofText _ | rfl
  | unary _ operand => by rw [asRead, toJson, toJson_asRead operand, toJson]
  | call _ operands => by rw [asRead, toJson, toJsonItems_asReadItems operands, toJson]
  | named _ operands => by rw [asRead, toJson, toJsonNamed_asReadNamed [] operands, toJson]

lemma toJsonItems_asReadItems :
    ∀ es : List Expression, toJsonItems (asReadItems es) = toJsonItems es
  | [] => rfl
  | e :: rest => by
    rw [asReadItems, toJsonItems, toJson_asRead e, toJsonItems_asReadItems rest, toJsonItems]

lemma toJsonNamed_asReadNamed : ∀ (done : Members) (operands : List (String × Expression)),
    toJsonNamed done (asReadNamed operands) = toJsonNamed done operands
  | _, [] => rfl
  | _, (_, e) :: rest => by
    rw [asReadNamed, toJsonNamed, toJson_asRead e, toJsonNamed_asReadNamed _ rest, toJsonNamed]

end

mutual

/-- An expression with all that it is made of. -/
def subexpressions : Expression → List Expression
  | field path => [field path]
  | literal l => [literal l]
  | unary symbol operand => unary symbol operand :: subexpressions operand
  | call symbol operands => call symbol operands :: subexpressionsOf operands
  | named symbol operands => named symbol operands :: subexpressionsOfNamed operands

def subexpressionsOf : List Expression → List Expression
  | [] => []
  | e :: rest => subexpressions e ++ subexpressionsOf rest

def subexpressionsOfNamed : List (String × Expression) → List Expression
  | [] => []
  | (_, e) :: rest => subexpressions e ++ subexpressionsOfNamed rest

end

/-- No literal text among some expressions spells a field path. -/
def NoneSpellsField (es : List Expression) : Prop :=
  ∀ s, literal (.text s) ∈ es → spellsField s = false

lemma noneSpellsField_append {es es' : List Expression} :
    NoneSpellsField (es ++ es') ↔ NoneSpellsField es ∧ NoneSpellsField es' := by
  simp only [NoneSpellsField, List.mem_append, or_imp, forall_and]

lemma NoneSpellsField.tail {e : Expression} {es : List Expression}
    (h : NoneSpellsField (e :: es)) : NoneSpellsField es :=
  fun s hs => h s (List.mem_cons_of_mem e hs)

mutual

/-- An expression without literal texts that spell field paths is read as it is. -/
theorem asRead_eq_self : ∀ e : Expression, NoneSpellsField e.subexpressions → e.asRead = e
  | field _, _ => rfl
  | literal l, h => by
    cases l with
    | text s =>
      have hs : spellsField s = false := h s (List.mem_singleton_self _)
      rw [asRead, ofText, hs, if_neg Bool.false_ne_true]
    | _ => rfl
  | unary _ operand, h => by rw [asRead, asRead_eq_self operand h.tail]
  | call _ operands, h => by rw [asRead, asReadItems_eq_self operands h.tail]
  | named _ operands, h => by rw [asRead, asReadNamed_eq_self operands h.tail]

lemma asReadItems_eq_self :
    ∀ es : List Expression, NoneSpellsField (subexpressionsOf es) → asReadItems es = es
  | [], _ => rfl
  | e :: rest, h => by
    obtain ⟨he, hrest⟩ := noneSpellsField_append.mp h
    rw [asReadItems, asRead_eq_self e he, asReadItems_eq_self rest hrest]

lemma asReadNamed_eq_self : ∀ operands : List (String × Expression),
    NoneSpellsField (subexpressionsOfNamed operands) → asReadNamed operands = operands
  | [], _ => rfl
  | (_, e) :: rest, h => by
    obtain ⟨he, hrest⟩ := noneSpellsField_append.mp h
    rw [asReadNamed, asRead_eq_self e he, asReadNamed_eq_self rest hrest]

end

/-! ### Reading JSON -/

mutual

/-- Reads an expression from its JSON. An object with a single member is an operator; the
shape of what it holds tells one operand from a list and from named ones. -/
def ofJson? : Json → Option Expression
  | .text s => some (ofText s)
  | .object [(symbol, .array items)] => (ofJsonItems? items).map (call symbol)
  | .object [(symbol, .object (m :: n :: rest))] =>
    (ofJsonNamed? (m :: n :: rest)).map (named symbol)
  | .object [(symbol, v)] => (ofJson? v).map (unary symbol)
  | v => (Literal.ofJson? v).map literal

def ofJsonItems? : List Json → Option (List Expression)
  | [] => some []
  | v :: rest =>
    match ofJson? v, ofJsonItems? rest with
    | some e, some es => some (e :: es)
    | _, _ => none

def ofJsonNamed? : Members → Option (List (String × Expression))
  | [] => some []
  | (name, v) :: rest =>
    match ofJson? v, ofJsonNamed? rest with
    | some e, some es => some ((name, e) :: es)
    | _, _ => none

end

/-- The shapes that can be told apart: a single operand is no literal, and there are at
least two named operands, in ascending order of their names. -/
inductive Regular : Expression → Prop
  | field (path : String) : Regular (.field path)
  | literal (l : Literal) : Regular (.literal l)
  | unary {symbol : String} {operand : Expression} :
    Regular operand → (∀ l, operand ≠ .literal l) → Regular (.unary symbol operand)
  | call {symbol : String} {operands : List Expression} :
    (∀ e ∈ operands, Regular e) → Regular (.call symbol operands)
  | named {symbol : String} {operands : List (String × Expression)} :
    (∀ m ∈ operands, Regular m.2) → operands.Pairwise (·.1 < ·.1) → 2 ≤ operands.length →
      Regular (.named symbol operands)

lemma ofJson?_literal (l : Literal) : ofJson? l.toJson = some (literal l).asRead := by
  cases l with
  | list items =>
    have hitems := Literal.ofJson?_toJson (.list items)
    rw [Literal.toJson] at hitems
    simp only [Literal.toJson, ofJson?, hitems]
    rfl
  | _ => rfl

lemma ofJson?_unary {symbol : String} {operand : Expression} (h : ∀ l, operand ≠ literal l) :
    ofJson? (unary symbol operand).toJson = (ofJson? operand.toJson).map (unary symbol) := by
  -- A literal list in place of the operand would be read as the operands of a call.
  cases operand with
  | literal l => exact absurd rfl (h l)
  | _ => simp [toJson, ofJson?]

lemma ofJsonItems?_toJsonItems {es : List Expression}
    (h : ∀ e ∈ es, ofJson? e.toJson = some e.asRead) :
    ofJsonItems? (toJsonItems es) = some (asReadItems es) := by
  induction es with
  | nil => rfl
  | cons e rest ih =>
    obtain ⟨he, hrest⟩ := List.forall_mem_cons.mp h
    rw [toJsonItems, ofJsonItems?, he, ih hrest, asReadItems]

lemma ofJsonNamed?_map {operands : List (String × Expression)}
    (h : ∀ m ∈ operands, ofJson? m.2.toJson = some m.2.asRead) :
    ofJsonNamed? (operands.map (Prod.map id toJson)) = some (asReadNamed operands) := by
  induction operands with
  | nil => rfl
  | cons m rest ih =>
    obtain ⟨hm, hrest⟩ := List.forall_mem_cons.mp h
    obtain ⟨name, e⟩ := m
    rw [List.map_cons, Prod.map_apply, ofJsonNamed?, hm, ih hrest, asReadNamed, id_eq]

/-- A regular expression is read back from its JSON, but for the texts that spell fields. -/
theorem Regular.ofJson?_toJson {e : Expression} (h : e.Regular) :
    ofJson? e.toJson = some e.asRead := by
  induction h with
  | field path => exact congrArg some (ofText_append path)
  | literal l => exact ofJson?_literal l
  | unary _ hne ih => rw [ofJson?_unary hne, ih, asRead, Option.map_some]
  | call _ ih =>
    rw [toJson, ofJson?, ofJsonItems?_toJsonItems ih, asRead, Option.map_some]
  | @named symbol operands _ hsorted htwo ih =>
    have hread := ofJsonNamed?_map ih
    rw [toJson, toJsonNamed_of_sorted hsorted, asRead]
    match operands, htwo with
    | m :: n :: rest, _ =>
      simp only [List.map_cons] at hread ⊢
      rw [ofJson?, hread, Option.map_some]

/-- Regular expressions have the same JSON exactly when they are read alike. -/
theorem Regular.toJson_eq_iff {e e' : Expression} (h : e.Regular) (h' : e'.Regular) :
    e.toJson = e'.toJson ↔ e.asRead = e'.asRead := by
  constructor
  · intro he
    have hread := h.ofJson?_toJson
    rw [he, h'.ofJson?_toJson] at hread
    exact (Option.some.inj hread).symm
  · intro he
    rw [← toJson_asRead, he, toJson_asRead]

/-- A regular expression is written out as it is shown. -/
theorem Regular.written_eq {e : Expression} (h : e.Regular) : e.written = e.toJson := by
  induction h with
  | field _ | literal _ => rfl
  | unary _ _ ih => rw [written, toJson, ih]
  | call _ ih =>
    rw [written, toJson, writtenItems_eq_map, toJsonItems_eq_map, List.map_congr_left ih]
  | @named symbol operands _ hsorted _ ih =>
    have hmap : operands.map (Prod.map id written) = operands.map (Prod.map id toJson) :=
      List.map_congr_left fun m hm => congrArg (Prod.mk m.1) (ih m hm)
    rw [written, toJson, toJsonNamed_of_sorted hsorted, writtenNamed_eq_map, hmap]

end AlertFilter.Expression
