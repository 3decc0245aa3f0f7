import AlertFilter.Proofs.Scopes
import Mathlib.Data.List.DropRight

/-!
# Well-formed names

Every field path in a compiled expression is trimmed, and every symbol of an operator has a dollar
sign before it. What is left behind that may still be nothing, in two places only: an operand of a
computed step may be blank, and the operation of an array step may be made of dollar signs.
-/

namespace AlertFilter

namespace Text

/-- There is no white space at either end. -/
def IsTrimmed (s : String) : Prop :=
  (∀ c ∈ s.toList.head?, isBlankChar c = false) ∧ ∀ c ∈ s.toList.getLast?, isBlankChar c = false

lemma isTrimmed_trim (s : String) : IsTrimmed (trim s) := by
  have htrim : (trim s).toList = (s.toList.dropWhile isBlankChar).rdropWhile isBlankChar := by
    rw [trim, String.toList_ofList]
    rfl
  rw [IsTrimmed, htrim]
  refine ⟨fun c hc => ?_, fun c hc => ?_⟩
  · obtain ⟨rest, hrest⟩ := List.rdropWhile_prefix isBlankChar (l := s.toList.dropWhile isBlankChar)
    have hfirst : (s.toList.dropWhile isBlankChar).head? = some c := by
      rw [← hrest, List.head?_append, hc, Option.some_or]
    have hnot := List.head?_dropWhile_not isBlankChar s.toList
    rwa [hfirst] at hnot
  · obtain ⟨hne, rfl⟩ := List.mem_getLast?_eq_getLast hc
    exact Bool.eq_false_iff.mpr (List.rdropWhile_last_not isBlankChar _ hne)

end Text

namespace Expression

/-- A field has a path that is trimmed and not empty, an operator a symbol with something behind the
dollar sign. -/
structure WellNamed (e : Expression) : Prop where
  path : ∀ path, e = field path → Text.IsTrimmed path ∧ path ≠ ""
  symbol : ∀ symbol, e.symbol? = some symbol → ∃ name, symbol = "$" ++ name ∧ name ≠ ""

end Expression

/-- Something is to be computed with a blank operand. -/
def StepKind.hasBlankOperand : StepKind → Bool
  | .computed operands _ => operands.any Text.isBlank
  | _ => false

lemma Operator.exists_name (o : Operator) : ∃ name, o.symbol = "$" ++ name ∧ name ≠ "" := by
  refine ⟨String.ofList (o.symbol.toList.drop 1), ?_⟩
  cases o <;> decide

lemma Connector.exists_name (c : Connector) : ∃ name, c.symbol = "$" ++ name ∧ name ≠ "" := by
  refine ⟨String.ofList (c.symbol.toList.drop 1), ?_⟩
  cases c <;> decide

namespace Step

open Expression

variable {s : Step} {e x : Expression} {path symbol : String}

lemma path_ne_empty (h : Text.isBlank s.fieldName = false) : s.path ≠ "" := by
  rw [Ne, ← String.isEmpty_iff, path_isEmpty h]
  exact Bool.false_ne_true

/-- Only an operand of a computed step may be nothing. -/
lemma LocalPart.isTrimmed_path (h : s.LocalPart (.field path)) :
    Text.IsTrimmed path ∧ (path = "" → s.kind.hasBlankOperand = true) := by
  generalize hx : Expression.field path = x at h
  cases h with
  | subject hfield =>
    cases hx
    exact ⟨Text.isTrimmed_trim _, fun h => absurd h (path_ne_empty hfield)⟩
  | comparand _ hpath =>
    cases hx
    refine ⟨Text.isTrimmed_trim _, fun h => ?_⟩
    rw [Text.isBlank_iff_trim_eq_empty.mpr h] at hpath
    cases hpath
  | operand hkind hmem =>
    cases hx
    refine ⟨Text.isTrimmed_trim _, fun h => ?_⟩
    rw [hkind, StepKind.hasBlankOperand, List.any_eq_true]
    exact ⟨_, hmem, Text.isBlank_iff_trim_eq_empty.mpr h⟩
  | operator _ hsymbol =>
    rw [← hx] at hsymbol
    cases hsymbol
  | _ => cases hx

/-- Only the operation of an array step may have no name. -/
lemma LocalPart.exists_name (h : s.LocalPart x) (hsymbol : x.symbol? = some symbol) :
    ∃ name, symbol = "$" ++ name ∧ (name = "" → s.kind.operationName? = some "") := by
  cases h with
  | @operator o _ _ ho =>
    obtain ⟨name, hname, hne⟩ := o.exists_name
    exact ⟨name, (Option.some.inj (hsymbol.symm.trans ho)).trans hname, fun h => absurd h hne⟩
  | absolute =>
    cases hsymbol
    exact ⟨"abs", rfl, fun h => absurd h (by decide)⟩
  | operation hname =>
    cases hsymbol
    exact ⟨_, rfl, fun h => h ▸ hname⟩
  | bounds =>
    cases hsymbol
    exact ⟨"and", rfl, fun h => absurd h (by decide)⟩
  | _ => cases hsymbol

/-- Outside of a range the left operand is part of what compiles. -/
lemma mem_subexpressions_of_not_range (hrange : ∀ r, s.kind ≠ .range r)
    (he : s.compileLocal = .ok (some e)) :
    ∃ o, ∀ x ∈ (s.subject o).subexpressions, x ∈ e.subexpressions := by
  obtain ⟨o, ho, -, -⟩ := localForm_of_compileLocal he
  have hb : o ≠ .between := by
    rintro rfl
    obtain ⟨r, -, -, -, -, hkind, -⟩ := bounded_of_compileLocal ho he
    exact hrange r hkind
  exact ⟨o, fun _ => mem_subexpressions_of_subject ho hb he⟩

/-- A blank operand of a step that compiles is a field without a path. -/
lemma field_empty_mem_subexpressions (he : s.compileLocal = .ok (some e))
    (h : s.kind.hasBlankOperand = true) : .field "" ∈ e.subexpressions := by
  cases hkind : s.kind with
  | computed operands operation =>
    rw [hkind, StepKind.hasBlankOperand, List.any_eq_true] at h
    obtain ⟨path, hpath, hblank⟩ := h
    obtain ⟨o, hsubject⟩ := mem_subexpressions_of_not_range (by simp [hkind]) he
    have hoperands : operands.isEmpty = false :=
      List.isEmpty_eq_false_iff.mpr (List.ne_nil_of_mem hpath)
    have hfield : .field "" ∈ (operands.map Text.trim).map Expression.field := by
      rw [← Text.isBlank_iff_trim_eq_empty.mp hblank]
      exact List.mem_map_of_mem (List.mem_map_of_mem hpath)
    refine hsubject _ ?_
    rw [subject, hkind]
    dsimp only
    rw [hoperands, if_neg Bool.false_ne_true]
    exact mem_subexpressions_call.mpr (.inr ⟨_, hfield, mem_subexpressions_self _⟩)
  | _ =>
    rw [hkind] at h
    cases h

lemma array_of_operationName? {name : String} (h : s.kind.operationName? = some name) :
    ∃ operation, s.kind = .array operation := by
  cases hkind : s.kind with
  | array operation => exact ⟨operation, rfl⟩
  | _ =>
    rw [hkind] at h
    cases h

lemma subject_of_operationName? {name : String} (h : s.kind.operationName? = some name)
    (o : Operator) : s.subject o = .call ("$" ++ name) [.field s.path] := by
  obtain ⟨operation, hkind⟩ := array_of_operationName? h
  rw [hkind] at h
  rw [subject, hkind]
  dsimp only
  rw [arraySubject_eq, h]

/-- The operation of an array step that compiles is the symbol of a part. -/
lemma operation_mem_subexpressions {name : String} (he : s.compileLocal = .ok (some e))
    (h : s.kind.operationName? = some name) :
    .call ("$" ++ name) [.field s.path] ∈ e.subexpressions := by
  obtain ⟨operation, hkind⟩ := array_of_operationName? h
  obtain ⟨o, hsubject⟩ := mem_subexpressions_of_not_range (by simp [hkind]) he
  rw [subject_of_operationName? h] at hsubject
  exact hsubject _ (mem_subexpressions_self _)

/-- An array step with an operation compares what comes of it with a list. -/
lemma compileLocal_operation {o : Operator} {name : String} (ho : s.operator = some o)
    (hb : o ≠ .between) (hfield : Text.isBlank s.fieldName = false)
    (h : s.kind.operationName? = some name) :
    s.compileLocal = .ok ((s.value.operand? .list).map
      (o.binary (.call ("$" ++ name) [.field s.path]))) := by
  obtain ⟨operation, hkind⟩ := array_of_operationName? h
  have hcompares : s.kind.compares o = true := by rw [hkind]; simp [StepKind.compares, hb]
  have hlist : s.coercion o = .list := by rw [coercion, hkind]; rfl
  have hnone : s.uncompared o = none := by rw [uncompared, hkind]
  rw [compileLocal_of_compares ho hfield hcompares,
    ← compared_eq_compileValue (by simp [hkind]) hnone, compileValue,
    subject_of_operationName? h, hlist]

end Step

/-! ### Compiled pipelines -/

namespace FilterSource

variable {source : FilterSource} {sc : Scope} {p : Pipeline} {e x : Expression}
  {path symbol : String}

lemma Makes.isTrimmed_path (h : source.Makes sc (.field path)) :
    Text.IsTrimmed path ∧ (path = "" → ∃ s below, s ∈ sc.steps ∧
      s.compileLocal = .ok (some below) ∧ s.kind.hasBlankOperand = true) := by
  generalize hx : Expression.field path = x at h
  cases h with
  | joined h =>
    obtain ⟨k, s, left, right, -, -, -, rfl⟩ := h
    cases hx
  | @single s below _ hs he hmem =>
    rw [← hx] at hmem
    obtain ⟨htrimmed, hempty⟩ := (Step.localPart_of_compileLocal he hmem).isTrimmed_path
    exact ⟨htrimmed, fun h => ⟨s, below, hs, he, hempty h⟩⟩
  | compared h =>
    have hsymbol := h.symbol?_wrap
    rw [← hx] at hsymbol
    cases hsymbol
  | comparand => cases hx

lemma Makes.exists_name (h : source.Makes sc x) (hsymbol : x.symbol? = some symbol) :
    ∃ name, symbol = "$" ++ name ∧ (name = "" → ∃ s below, s ∈ sc.steps ∧
      s.compileLocal = .ok (some below) ∧ s.kind.operationName? = some "") := by
  cases h with
  | joined h =>
    obtain ⟨k, s, left, right, -, -, -, rfl⟩ := h
    cases hsymbol
    obtain ⟨name, hname, hne⟩ := (connectorBefore sc.connectors k).exists_name
    exact ⟨name, hname, fun h => absurd h hne⟩
  | @single s below _ hs he hmem =>
    obtain ⟨name, hname, hempty⟩ := (Step.localPart_of_compileLocal he hmem).exists_name hsymbol
    exact ⟨name, hname, fun h => ⟨s, below, hs, he, hempty h⟩⟩
  | @compared r o below h =>
    obtain ⟨name, hname, hne⟩ := o.exists_name
    rw [h.symbol?_wrap] at hsymbol
    cases hsymbol
    exact ⟨name, hname, fun h => absurd h hne⟩
  | comparand => cases hsymbol

lemma mem_subexpressions_of_step {s : Step} {below : Expression}
    (he : (source.compile p).expression = some e) (hwithin : source.Within (.ofPipeline p) sc)
    (hs : s ∈ sc.steps) (hbelow : s.compileLocal = .ok (some below))
    (hx : x ∈ below.subexpressions) : x ∈ e.subexpressions :=
  (mem_subexpressions_compile_iff he).mpr ⟨sc, hwithin, .single hs hbelow hx⟩

/-- A path is empty only for a blank operand of a computed step. -/
lemma field_empty_mem_iff (he : (source.compile p).expression = some e) :
    .field "" ∈ e.subexpressions ↔ ∃ sc s below, source.Within (.ofPipeline p) sc ∧
      s ∈ sc.steps ∧ s.compileLocal = .ok (some below) ∧ s.kind.hasBlankOperand = true := by
  constructor
  · intro hpath
    obtain ⟨sc, hwithin, h⟩ := (mem_subexpressions_compile_iff he).mp hpath
    obtain ⟨s, below, hs, hbelow, hblank⟩ := h.isTrimmed_path.2 rfl
    exact ⟨sc, s, below, hwithin, hs, hbelow, hblank⟩
  · rintro ⟨sc, s, below, hwithin, hs, hbelow, hblank⟩
    exact mem_subexpressions_of_step he hwithin hs hbelow
      (Step.field_empty_mem_subexpressions hbelow hblank)

/-- A symbol is a dollar sign alone only for an operation that is made of dollar signs. -/
lemma exists_dollar_iff (he : (source.compile p).expression = some e) :
    (∃ x ∈ e.subexpressions, x.symbol? = some "$") ↔ ∃ sc s below,
      source.Within (.ofPipeline p) sc ∧ s ∈ sc.steps ∧ s.compileLocal = .ok (some below) ∧
        s.kind.operationName? = some "" := by
  constructor
  · rintro ⟨x, hx, hsymbol⟩
    obtain ⟨sc, hwithin, h⟩ := (mem_subexpressions_compile_iff he).mp hx
    obtain ⟨name, hname, hempty⟩ := h.exists_name hsymbol
    obtain ⟨s, below, hs, hbelow, hdollars⟩ := hempty (by simpa using hname.symm)
    exact ⟨sc, s, below, hwithin, hs, hbelow, hdollars⟩
  · rintro ⟨sc, s, below, hwithin, hs, hbelow, hdollars⟩
    exact ⟨_, mem_subexpressions_of_step he hwithin hs hbelow
      (Step.operation_mem_subexpressions hbelow hdollars), rfl⟩

/-- In what a pipeline compiles to, every field path is trimmed and every symbol of an operator has
a dollar sign before it. A path is empty exactly if a computed step that compiles has a blank
operand, and a symbol is a dollar sign alone exactly if the operation of an array step that compiles
is made of dollar signs. If neither the pipeline nor any saved filter has such steps, every name is
well formed. -/
theorem well_formed_names (he : (source.compile p).expression = some e) :
    (∀ path, .field path ∈ e.subexpressions → Text.IsTrimmed path) ∧
    (.field "" ∈ e.subexpressions ↔ ∃ sc s below, source.Within (.ofPipeline p) sc ∧
      s ∈ sc.steps ∧ s.compileLocal = .ok (some below) ∧ s.kind.hasBlankOperand = true) ∧
    (∀ x ∈ e.subexpressions, ∀ symbol, x.symbol? = some symbol →
      ∃ name, symbol = "$" ++ name) ∧
    ((∃ x ∈ e.subexpressions, x.symbol? = some "$") ↔ ∃ sc s below,
      source.Within (.ofPipeline p) sc ∧ s ∈ sc.steps ∧ s.compileLocal = .ok (some below) ∧
        s.kind.operationName? = some "") ∧
    ((∀ s, source.Holds p s → s.kind.hasBlankOperand = false ∧
        s.kind.operationName? ≠ some "") →
      ∀ x ∈ e.subexpressions, x.WellNamed) := by
  have hpaths : ∀ path, .field path ∈ e.subexpressions → Text.IsTrimmed path := by
    intro path hpath
    obtain ⟨sc, -, h⟩ := (mem_subexpressions_compile_iff he).mp hpath
    exact h.isTrimmed_path.1
  have hsymbols : ∀ x ∈ e.subexpressions, ∀ symbol, x.symbol? = some symbol →
      ∃ name, symbol = "$" ++ name := by
    intro x hx symbol hsymbol
    obtain ⟨sc, -, h⟩ := (mem_subexpressions_compile_iff he).mp hx
    obtain ⟨name, hname, -⟩ := h.exists_name hsymbol
    exact ⟨name, hname⟩
  refine ⟨hpaths, field_empty_mem_iff he, hsymbols, exists_dollar_iff he,
    fun hclean x hx => ⟨?_, fun symbol hsymbol => ?_⟩⟩
  · rintro path rfl
    refine ⟨hpaths path hx, ?_⟩
    rintro rfl
    obtain ⟨sc, s, below, hwithin, hs, -, hblank⟩ := (field_empty_mem_iff he).mp hx
    cases hblank.symm.trans (hclean s (hwithin.holds hs)).1
  · obtain ⟨name, rfl⟩ := hsymbols x hx symbol hsymbol
    refine ⟨name, rfl, ?_⟩
    rintro rfl
    obtain ⟨sc, s, below, hwithin, hs, -, hdollars⟩ := (exists_dollar_iff he).mp ⟨x, hx, hsymbol⟩
    exact (hclean s (hwithin.holds hs)).2 hdollars

/-- Two fields with blanks around them, and the length of an array. -/
theorem well_formed_names_trimmed :
    let one : Literal := .number (.whole 1 (by decide))
    let sum := (Step.new ⟨"a"⟩ "rb" (.computed [" rb", "drb "] none)).withOperator .add
    let length := ((Step.new ⟨"b"⟩ " tags " (.array (some " $size"))).withOperator
      .greater).withLiteral one
    let source := FilterStore.empty.source
    let p := Pipeline.ofParts [sum, length] [.and]
    let e : Expression := .call "$and" [.call "$add" [.field "rb", .field "drb"],
      .call "$gt" [.call "$size" [.field "tags"], .literal (.list [one])]]
    (source.compile p).expression = some e ∧ ∀ x ∈ e.subexpressions, x.WellNamed := by
  intro one sum length source p e
  have hsum : sum.compileLocal = .ok (some (.call "$add" [.field "rb", .field "drb"])) := by
    rw [Step.compileLocal_eq rfl (by decide)]
    rfl
  have hpath : length.path = "tags" := by decide
  have hname : length.kind.operationName? = some "size" := by decide
  have hlength : length.compileLocal = .ok (some
      (.call "$gt" [.call "$size" [.field "tags"], .literal (.list [one])])) := by
    rw [Step.compileLocal_operation rfl (by decide) (by decide) hname, hpath]
    rfl
  have he : (source.compile p).expression = some e :=
    compileWithin_pair (expression?_node_iff.mpr (.inl hsum))
      (expression?_node_iff.mpr (.inl hlength))
  obtain ⟨-, -, -, -, hnamed⟩ := well_formed_names he
  exact ⟨he, hnamed (forall_holds (by decide) (by decide))⟩

/-- An operand that is blank is a field without a path, and an operation that is a dollar sign is an
operator without a name. -/
theorem names_left_empty :
    let star : Literal := .text "star"
    let sum := (Step.new ⟨"a"⟩ "rb" (.computed ["rb", " "] none)).withOperator .add
    let member := ((Step.new ⟨"b"⟩ "tags" (.array (some "$"))).withOperator
      .within).withLiteral star
    let source := FilterStore.empty.source
    let p := Pipeline.ofParts [sum, member] [.and]
    let e : Expression := .call "$and" [.call "$add" [.field "rb", .field ""],
      .call "$in" [.call "$" [.field "tags"], .literal (.list [star])]]
    (source.compile p).expression = some e ∧ .field "" ∈ e.subexpressions ∧
      ∃ x ∈ e.subexpressions, x.symbol? = some "$" := by
  intro star sum member source p e
  have hsum : sum.compileLocal = .ok (some (.call "$add" [.field "rb", .field ""])) := by
    rw [Step.compileLocal_eq rfl (by decide)]
    rfl
  have hpath : member.path = "tags" := by decide
  have hname : member.kind.operationName? = some "" := by decide
  have hmember : member.compileLocal = .ok (some
      (.call "$in" [.call "$" [.field "tags"], .literal (.list [star])])) := by
    rw [Step.compileLocal_operation rfl (by decide) (by decide) hname, hpath]
    rfl
  have he : (source.compile p).expression = some e :=
    compileWithin_pair (expression?_node_iff.mpr (.inl hsum))
      (expression?_node_iff.mpr (.inl hmember))
  refine ⟨he, by simp [e], .call "$" [.field "tags"], by simp [e], rfl⟩

end FilterSource

end AlertFilter
