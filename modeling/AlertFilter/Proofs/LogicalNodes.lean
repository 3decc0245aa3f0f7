import AlertFilter.Proofs.Scopes

/-!
# Logical nodes

A node with the symbol of a connector joins two conditions: what two steps compile to, or the two
ends of a range. The operator `between` has the symbol of AND, so it compiles on a range step only.
Beside a reference it is not looked at, and there a condition is joined with a number: if no array
step has a connector for its operation, logical nodes join conditions exactly if no reference that
is followed is compared by `between`.
-/

namespace AlertFilter

namespace Expression

/-- The node has the symbol of a connector. -/
def IsLogical (e : Expression) : Prop := ∃ c : Connector, e.symbol? = some c.symbol

/-- The node joins two operands that are operators themselves, no fields and no literals. -/
def JoinsConditions (e : Expression) : Prop :=
  ∃ (c : Connector) (left right : Expression),
    e = call c.symbol [left, right] ∧ left.symbol?.isSome ∧ right.symbol?.isSome

lemma not_isLogical_field {path : String} : ¬(field path).IsLogical := fun ⟨_, h⟩ => nomatch h

lemma not_isLogical_literal {l : Literal} : ¬(literal l).IsLogical := fun ⟨_, h⟩ => nomatch h

end Expression

open Expression

lemma Connector.name_of_symbol {c : Connector} {name : String} (h : "$" ++ name = c.symbol) :
    name = "and" ∨ name = "or" := by
  cases c with
  | and => exact .inl ((String.append_right_inj _).mp (h : "$" ++ name = "$" ++ "and"))
  | or => exact .inr ((String.append_right_inj _).mp (h : "$" ++ name = "$" ++ "or"))

lemma Operator.symbol_ne {o : Operator} (h : o ≠ .between) (c : Connector) :
    o.symbol ≠ c.symbol := by
  revert h
  cases o <;> cases c <;> decide

/-- No operator but `between` makes a logical node. -/
lemma Operator.not_isLogical {o : Operator} {e : Expression} (h : o ≠ .between)
    (he : e.symbol? = some o.symbol) : ¬e.IsLogical := fun ⟨c, hc⟩ =>
  o.symbol_ne h c (Option.some.inj (he.symm.trans hc))

namespace Reference

variable {r : Reference} {o : Operator} {e : Expression}

/-- Beside a reference there is a literal or nothing. -/
lemma not_joinsConditions_wrap (h : r.parentOperator = some o) :
    ¬(r.wrap e).JoinsConditions := by
  rintro ⟨c, left, right, heq, -, hright⟩
  rw [wrap, h] at heq
  cases hvalue : r.parentValue with
  | none =>
    rw [hvalue] at heq
    cases (call.inj heq).2
  | some l =>
    rw [hvalue] at heq
    cases (call.inj heq).2
    cases hright

end Reference

namespace Step

variable {s : Step} {e x : Expression}

/-- What a step by itself compiles to is an operator. -/
lemma isSome_symbol?_of_compileLocal (he : s.compileLocal = .ok (some e)) :
    e.symbol?.isSome := by
  obtain ⟨o, -, -, hform⟩ := localForm_of_compileLocal he
  cases hform with
  | bounded => rfl
  | compared => rw [symbol?_compare, Option.isSome_some]
  | computed hkind => rw [subject, hkind]; rfl
  | alone => rw [symbol?_apply, Option.isSome_some]

/-- A logical node in a single step is an operation of that name, or the range itself. -/
lemma logical_of_compileLocal (he : s.compileLocal = .ok (some e)) (hx : x ∈ e.subexpressions)
    (hlogical : x.IsLogical) :
    (∃ (c : Connector) (name : String), s.kind.operationName? = some name ∧
      "$" ++ name = c.symbol) ∨ s.operator = some .between ∧ x = e := by
  by_cases ho : s.operator = some .between
  · obtain ⟨-, -, -, a, b, -, -, -, -, -, rfl⟩ := bounded_of_compileLocal ho he
    have hgreater : Operator.greaterOrEqual ≠ .between := by decide
    have hless : Operator.lessOrEqual ≠ .between := by decide
    simp only [mem_subexpressions_call, mem_subexpressions_field, mem_subexpressions_literal,
      List.mem_cons, List.not_mem_nil, or_false, exists_eq_or_imp, exists_eq_left] at hx
    rcases hx with rfl | (rfl | rfl | rfl) | rfl | rfl | rfl
    · exact .inr ⟨ho, rfl⟩
    · exact absurd hlogical (Operator.not_isLogical hgreater rfl)
    · exact absurd hlogical not_isLogical_field
    · exact absurd hlogical not_isLogical_literal
    · exact absurd hlogical (Operator.not_isLogical hless rfl)
    · exact absurd hlogical not_isLogical_field
    · exact absurd hlogical not_isLogical_literal
  · obtain ⟨c, hc⟩ := hlogical
    cases localPart_of_compileLocal he hx with
    | subject | comparand | operand | literal => cases hc
    | operator hbetween hsymbol => exact absurd ⟨c, hc⟩ (Operator.not_isLogical hbetween hsymbol)
    | absolute => exact absurd (Option.some.inj hc) (by cases c <;> decide)
    | @operation name hname => exact .inl ⟨c, name, hname, Option.some.inj hc⟩
    | bounds _ hbetween => exact absurd hbetween ho

lemma joinsConditions_of_bounded (ho : s.operator = some .between)
    (he : s.compileLocal = .ok (some e)) : e.JoinsConditions := by
  obtain ⟨-, -, -, a, b, -, -, -, -, -, rfl⟩ := bounded_of_compileLocal ho he
  exact ⟨.and, _, _, rfl, rfl, rfl⟩

end Step

/-- Whatever the compiler returns is an operator. -/
lemma Compiled.isSome_symbol? {e : Expression} (h : Compiled e) : e.symbol?.isSome := by
  refine Compiled.induction (P := fun e => e.symbol?.isSome) ⟨?_, ?_⟩ ?_ h
  · exact fun _ _ _ _ _ => rfl
  · intro r e he
    cases ho : r.parentOperator with
    | none => rwa [Reference.wrap, ho]
    | some o => rw [Reference.symbol?_wrap ho, Option.isSome_some]
  · exact fun _ _ => Step.isSome_symbol?_of_compileLocal

namespace FilterSource

variable {source : FilterSource} {sc : Scope} {p : Pipeline} {e x : Expression}

lemma Joins.joinsConditions (h : source.Joins sc x) : x.JoinsConditions := by
  obtain ⟨k, s, left, right, -, hleft, hright, rfl⟩ := h
  have hsingle : (source.compileWithin sc.trail [s] []).expression = some right := by
    rw [compileWithin_singleton, hright]
  exact ⟨connectorBefore sc.connectors k, left, right, rfl, (Compiled.steps hleft).isSome_symbol?,
    (Compiled.steps hsingle).isSome_symbol?⟩

lemma Compares.not_joinsConditions {r : Reference} {o : Operator} (h : source.Compares sc r o e) :
    ¬(r.wrap e).JoinsConditions := by
  obtain ⟨-, -, -, ho⟩ := h
  exact Reference.not_joinsConditions_wrap ho

/-- The ways in which a scope makes a logical node. -/
lemma Makes.of_isLogical (h : source.Makes sc x) (hlogical : x.IsLogical) :
    source.Joins sc x ∨
    (∃ s ∈ sc.steps, s.operator = some .between ∧ s.compileLocal = .ok (some x)) ∨
    (∃ s ∈ sc.steps, ∃ (c : Connector) (name : String), s.kind.operationName? = some name ∧
      "$" ++ name = c.symbol) ∨
    ∃ r below, source.Compares sc r .between below ∧ x = r.wrap below := by
  cases h with
  | joined h => exact .inl h
  | single hs he hx =>
    rcases Step.logical_of_compileLocal he hx hlogical with ⟨c, name, hname, hc⟩ | ⟨ho, rfl⟩
    · exact .inr (.inr (.inl ⟨_, hs, c, name, hname, hc⟩))
    · exact .inr (.inl ⟨_, hs, ho, he⟩)
  | @compared r o below h =>
    by_cases hbetween : o = .between
    · exact .inr (.inr (.inr ⟨r, below, hbetween ▸ h, rfl⟩))
    · exact absurd hlogical (Operator.not_isLogical hbetween h.symbol?_wrap)
  | comparand => exact absurd hlogical not_isLogical_literal

/-- If no array step has a connector for its operation, a logical node joins conditions unless it
compares by `between` beside a reference. -/
lemma logical_cases
    (hnames : ∀ s, source.Holds p s → ∀ name, s.kind.operationName? = some name →
      name ≠ "and" ∧ name ≠ "or")
    (he : (source.compile p).expression = some e) (hx : x ∈ e.subexpressions)
    (hlogical : x.IsLogical) :
    ∃ sc, source.Within (.ofPipeline p) sc ∧
      (x.JoinsConditions ∧ (source.Joins sc x ∨
          ∃ s ∈ sc.steps, s.operator = some .between ∧ s.compileLocal = .ok (some x)) ∨
        ¬x.JoinsConditions ∧ ∃ r below, source.Compares sc r .between below ∧
          x = r.wrap below) := by
  obtain ⟨sc, hwithin, hmakes⟩ := (mem_subexpressions_compile_iff he).mp hx
  refine ⟨sc, hwithin, ?_⟩
  rcases hmakes.of_isLogical hlogical with
    hjoins | ⟨s, hs, ho, hx⟩ | ⟨s, hs, c, name, hname, hc⟩ | ⟨r, below, hbelow, rfl⟩
  · exact .inl ⟨hjoins.joinsConditions, .inl hjoins⟩
  · exact .inl ⟨Step.joinsConditions_of_bounded ho hx, .inr ⟨s, hs, ho, hx⟩⟩
  · obtain ⟨hand, hor⟩ := hnames s (hwithin.holds hs) name hname
    exact absurd (Connector.name_of_symbol hc) (not_or.mpr ⟨hand, hor⟩)
  · exact .inr ⟨hbelow.not_joinsConditions, r, below, hbelow, rfl⟩

/-- If no array step has a connector for its operation, a logical node in what a pipeline compiles
to joins two conditions, by a connector between two steps or as the two ends of a range, or else it
is the comparison by `between` beside a reference. So logical nodes join conditions exactly if no
filter is compared so. By itself `between` compiles on a range step with both bounds only. -/
theorem logical_nodes
    (hnames : ∀ s, source.Holds p s → ∀ name, s.kind.operationName? = some name →
      name ≠ "and" ∧ name ≠ "or")
    (he : (source.compile p).expression = some e) :
    (∀ x ∈ e.subexpressions, x.IsLogical → ∃ sc, source.Within (.ofPipeline p) sc ∧
      (x.JoinsConditions ∧ (source.Joins sc x ∨
          ∃ s ∈ sc.steps, s.operator = some .between ∧ s.compileLocal = .ok (some x)) ∨
        ¬x.JoinsConditions ∧ ∃ r below, source.Compares sc r .between below ∧
          x = r.wrap below)) ∧
    ((∀ x ∈ e.subexpressions, x.IsLogical → x.JoinsConditions) ↔
      ∀ sc r below, source.Within (.ofPipeline p) sc →
        ¬source.Compares sc r .between below) ∧
    ∀ (s : Step) (x : Expression), s.operator = some .between → s.compileLocal = .ok (some x) →
      ∃ r min max a b, s.kind = .range r ∧ givenLiteral? (r.bounds.bind (·.min)) = some min ∧
        givenLiteral? (r.bounds.bind (·.max)) = some max ∧ min.coerceNumber = .ok a ∧
        max.coerceNumber = .ok b ∧
        x = .call "$and" [.call "$gte" [.field s.path, .literal (.number a)],
          .call "$lte" [.field s.path, .literal (.number b)]] := by
  refine ⟨fun x hx => logical_cases hnames he hx,
    ⟨fun h sc r below hwithin hbelow => ?_, fun h x hx hlogical => ?_⟩,
    fun s x => Step.bounded_of_compileLocal⟩
  · have hx : r.wrap below ∈ e.subexpressions :=
      (mem_subexpressions_compile_iff he).mpr ⟨sc, hwithin, .compared hbelow⟩
    have hlogical : (r.wrap below).IsLogical := ⟨.and, hbelow.symbol?_wrap⟩
    exact hbelow.not_joinsConditions (h _ hx hlogical)
  · obtain ⟨sc, hwithin, ⟨hjoins, -⟩ | ⟨-, r, below, hbelow, -⟩⟩ :=
      logical_cases hnames he hx hlogical
    · exact hjoins
    · exact absurd hbelow (h sc r below hwithin)

/-- A window or a test for presence, in a filter that is joined with a step. -/
theorem logical_nodes_in_filter :
    let one : Literal := .number (.whole 1 (by decide))
    let five : Literal := .number (.whole 5 (by decide))
    let settings : RangeSettings := ⟨false, false, some ⟨some one, some five⟩⟩
    let window := (Step.new ⟨"a"⟩ "rb" (.range settings)).withOperator .between
    let known := (Step.new ⟨"b"⟩ "drb" .element).withOperator .present
    let bright : SavedFilter := ⟨⟨"f"⟩, "bright", none, [window, known], [.or], true⟩
    let source := (FilterStore.ofList [bright]).source
    let dropped := Step.ofFilter ⟨"c"⟩ ⟨"f"⟩ "bright" true
    let p := Pipeline.ofParts [dropped, known] [.and]
    let between : Expression := .call "$and" [.call "$gte" [.field window.path, .literal one],
      .call "$lte" [.field window.path, .literal five]]
    let presence : Expression := .call "$ifNull" [.field known.path, .literal (.bool false)]
    let e : Expression := .call "$and" [.call "$or" [between, presence], presence]
    (∀ s, source.Holds p s → ∀ name, s.kind.operationName? = some name →
        name ≠ "and" ∧ name ≠ "or") ∧
      (source.compile p).expression = some e ∧
      ∀ x ∈ e.subexpressions, x.IsLogical → x.JoinsConditions := by
  intro one five settings window known bright source dropped p between presence e
  have hnames : ∀ s, source.Holds p s → ∀ name, s.kind.operationName? = some name →
      name ≠ "and" ∧ name ≠ "or" := by
    have hnone : ∀ s, source.Holds p s → s.kind.operationName? = none :=
      forall_holds (by decide) (by decide)
    intro s hs name hname
    cases (hnone s hs).symm.trans hname
  have hbounded : window.compileLocal = .ok (some between) := by
    rw [Step.compileLocal_eq rfl (by decide)]
    rfl
  have hknown : known.compileLocal = .ok (some presence) := by
    rw [Step.compileLocal_eq rfl (by decide)]
    rfl
  have hreference : ∀ s, source.Holds p s → ∀ r ∈ s.reference?, r.parentOperator = none :=
    forall_holds (by decide) (by decide)
  have hinner : (source.compileWithin [⟨"f"⟩] bright.steps bright.connectors).expression =
      some (.call "$or" [between, presence]) :=
    compileWithin_pair (expression?_node_iff.mpr (.inl hbounded))
      (expression?_node_iff.mpr (.inl hknown))
  have hlive : dropped.liveReference? = some ⟨⟨"f"⟩, none, none, true⟩ := by decide
  have hfetch : source.fetch [] ⟨"f"⟩ = .ok bright := rfl
  have hfilter : (source.node [] dropped).expression? = some (.call "$or" [between, presence]) := by
    rw [expression?_of_ok hlive hfetch, List.nil_append, hinner]
    rfl
  have he : (source.compile p).expression = some e :=
    compileWithin_pair hfilter (expression?_node_iff.mpr (.inl hknown))
  obtain ⟨-, hconditions, -⟩ := logical_nodes hnames he
  refine ⟨hnames, he, hconditions.mpr fun sc r below hwithin hbelow => ?_⟩
  obtain ⟨s, hs, hr⟩ := hbelow.holds hwithin
  obtain ⟨-, -, -, ho⟩ := hbelow
  cases (hreference s hs r hr).symm.trans ho

/-- Compared by `between`, a condition is joined with a number. -/
theorem condition_joined_with_number :
    let five : Literal := .number (.whole 5 (by decide))
    let known := (Step.new ⟨"a"⟩ "rb" .element).withOperator .present
    let bright : SavedFilter := ⟨⟨"f"⟩, "bright", none, [known], [], true⟩
    let source := (FilterStore.ofList [bright]).source
    let r : Reference := ⟨⟨"f"⟩, some .between, some five, true⟩
    let compared := { Step.ofFilter ⟨"c"⟩ r.filter "bright" true with kind := .reference r }
    let p := Pipeline.ofParts [compared] []
    let presence : Expression := .call "$ifNull" [.field known.path, .literal (.bool false)]
    let e : Expression := .call "$and" [presence, .literal five]
    (∀ s, source.Holds p s → s.kind.operationName? = none) ∧
      (source.compile p).expression = some e ∧ e.IsLogical ∧ ¬e.JoinsConditions := by
  intro five known bright source r compared p presence e
  have hknown : known.compileLocal = .ok (some presence) := by
    rw [Step.compileLocal_eq rfl (by decide)]
    rfl
  have hlive : compared.liveReference? = some r := by decide
  have he : (source.compile p).expression = some e := compile_reference rfl hlive rfl rfl hknown
  have hbeside : ¬(r.wrap presence).JoinsConditions := Reference.not_joinsConditions_wrap rfl
  exact ⟨forall_holds (by decide) (by decide), he, ⟨.and, rfl⟩, hbeside⟩

end FilterSource

end AlertFilter
