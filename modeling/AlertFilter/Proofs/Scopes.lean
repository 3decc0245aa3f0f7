import AlertFilter.Proofs.CompiledExpressions
import AlertFilter.Proofs.ExpressionParts
import AlertFilter.Store.Memory
import Mathlib.Data.List.Induction
import Mathlib.Logic.Relation

/-!
# Where the parts of a compiled expression come from

To compile a pipeline is to compile its steps, the steps of each filter that one of them enters, and
so on inside of these. Such a row of steps with its connectors is a scope. The parts of a compiled
expression are exactly what its scopes make: the parts of single steps, what is joined by a
connector, and what stands beside a reference with the comparison. So what holds of these holds of
every part of every compiled expression.
-/

namespace AlertFilter

/-- A row of steps with connectors, inside the filters of a trail. -/
structure Scope where
  trail : Trail
  steps : List Step
  connectors : List Connector

namespace Scope

def ofPipeline (p : Pipeline) : Scope := ⟨[], p.steps, p.connectors⟩

/-- The scope of a filter that a reference in the scope enters. -/
def inside (sc : Scope) (r : Reference) (f : SavedFilter) : Scope :=
  ⟨sc.trail ++ [r.filter], f.steps, f.connectors⟩

/-- The first steps of the scope. -/
def take (sc : Scope) (n : Nat) : Scope := { sc with steps := sc.steps.take n }

def expression? (source : FilterSource) (sc : Scope) : Option Expression :=
  (source.compileWithin sc.trail sc.steps sc.connectors).expression

end Scope

lemma Reference.symbol?_wrap {r : Reference} {o : Operator} {e : Expression}
    (h : r.parentOperator = some o) : (r.wrap e).symbol? = some o.symbol := by
  rw [wrap, h]
  cases r.parentValue <;> rfl

namespace FilterSource

/-- A named reference in the scope finds its filter. -/
def Enters (source : FilterSource) (sc : Scope) (r : Reference) (f : SavedFilter) : Prop :=
  (∃ s ∈ sc.steps, s.liveReference? = some r) ∧ source.fetch sc.trail r.filter = .ok f

/-- The second scope is compiled along with the first one. -/
def Within (source : FilterSource) : Scope → Scope → Prop :=
  Relation.ReflTransGen fun sc inner => ∃ r f, source.Enters sc r f ∧ inner = sc.inside r f

/-- The expression joins what some first steps of the scope compile to with the expression of the
next step, by the connector before that. -/
def Joins (source : FilterSource) (sc : Scope) (x : Expression) : Prop :=
  ∃ k s left right, sc.steps[k]? = some s ∧ (sc.take k).expression? source = some left ∧
    (source.node sc.trail s).expression? = some right ∧
    x = .call (connectorBefore sc.connectors k).symbol [left, right]

/-- What a filter compiles to is compared by the operator beside a reference to it. -/
def Compares (source : FilterSource) (sc : Scope) (r : Reference) (o : Operator)
    (e : Expression) : Prop :=
  ∃ f, source.Enters sc r f ∧ (sc.inside r f).expression? source = some e ∧
    r.parentOperator = some o

/-- The expression is made in the scope itself, and not in one further inside. -/
inductive Makes (source : FilterSource) (sc : Scope) : Expression → Prop
  | joined {x : Expression} : source.Joins sc x → Makes source sc x
  | single {s : Step} {e x : Expression} : s ∈ sc.steps → s.compileLocal = .ok (some e) →
    x ∈ e.subexpressions → Makes source sc x
  | compared {r : Reference} {o : Operator} {e : Expression} :
    source.Compares sc r o e → Makes source sc (r.wrap e)
  | comparand {r : Reference} {o : Operator} {e : Expression} {l : Literal} :
    source.Compares sc r o e → r.parentValue = some l →
      Makes source sc (.literal l.numberOrRaw)

/-- The step stands in the pipeline or in a filter of the source. -/
def Holds (source : FilterSource) (p : Pipeline) (s : Step) : Prop :=
  s ∈ p.steps ∨ ∃ id f, source.lookup id = .ok f ∧ s ∈ f.steps

variable {source : FilterSource} {sc inner : Scope} {trail : Trail} {steps : List Step}
  {connectors : List Connector} {s : Step} {r : Reference} {f : SavedFilter} {e x : Expression}

/-- The last step of a row is joined to what is before it, if both have an expression. -/
lemma compileWithin_concat (source : FilterSource) (trail : Trail) (steps : List Step) (s : Step)
    (connectors : List Connector) :
    (source.compileWithin trail (steps ++ [s]) connectors).expression =
      match (source.compileWithin trail steps connectors).expression,
        (source.node trail s).expression? with
      | left, none => left
      | none, some right => some right
      | some left, some right =>
        some (.call (connectorBefore connectors steps.length).symbol [left, right]) := by
  have hlast : ∀ row : List (Connector × Step), ∀ c,
      expressed (fun s => (source.node trail s).expression?) (row ++ [(c, s)]) =
        expressed (fun s => (source.node trail s).expression?) row ++
          ((source.node trail s).expression?.map (c, ·)).toList := by
    intro row c
    rw [expressed, List.filterMap_append]
    cases h : (source.node trail s).expression? <;> simp [h, expressed]
  rw [compileWithin_expression, compileWithin_expression, linkAll, List.mapIdx_concat, hlast,
    linkAll]
  cases (source.node trail s).expression? with
  | none => simp
  | some right =>
    cases expressed (fun s => (source.node trail s).expression?)
        (steps.mapIdx fun i a => (connectorBefore connectors i, a)) with
    | nil => rfl
    | cons m rest => simp [joinLinked]

lemma compileWithin_pair {t : Step} {left right : Expression}
    (hs : (source.node trail s).expression? = some left)
    (ht : (source.node trail t).expression? = some right) :
    (source.compileWithin trail [s, t] connectors).expression =
      some (.call (connectorBefore connectors 1).symbol [left, right]) := by
  have hrow := compileWithin_concat source trail [s] t connectors
  rw [compileWithin_singleton, hs, ht] at hrow
  exact hrow

/-- The joins in a row are those before its last step, and the one that this step makes. -/
lemma joins_concat_iff : source.Joins ⟨trail, steps ++ [s], connectors⟩ x ↔
    source.Joins ⟨trail, steps, connectors⟩ x ∨ ∃ left right,
      (source.compileWithin trail steps connectors).expression = some left ∧
      (source.node trail s).expression? = some right ∧
      x = .call (connectorBefore connectors steps.length).symbol [left, right] := by
  constructor
  · rintro ⟨k, t, left, right, ht, hleft, hright, rfl⟩
    rcases Nat.lt_trichotomy k steps.length with hk | rfl | hk
    · dsimp only at ht
      rw [List.getElem?_append_left hk] at ht
      rw [Scope.take, List.take_append_of_le_length (Nat.le_of_lt hk)] at hleft
      exact .inl ⟨k, t, left, right, ht, hleft, hright, rfl⟩
    · obtain rfl : s = t := by simpa using ht
      rw [Scope.take, List.take_left] at hleft
      exact .inr ⟨left, right, hleft, hright, rfl⟩
    · have hlength : (steps ++ [s]).length ≤ k := by
        rw [List.length_append, List.length_singleton]
        exact hk
      rw [List.getElem?_eq_none hlength] at ht
      cases ht
  · rintro (⟨k, t, left, right, ht, hleft, hright, rfl⟩ | ⟨left, right, hleft, hright, rfl⟩)
    · have hk : k < steps.length := (List.getElem?_eq_some_iff.mp ht).1
      refine ⟨k, t, left, right, ?_, ?_, hright, rfl⟩
      · rw [List.getElem?_append_left hk, ht]
      · rwa [Scope.take, List.take_append_of_le_length (Nat.le_of_lt hk)]
    · refine ⟨steps.length, s, left, right, List.getElem?_concat_length, ?_, hright, rfl⟩
      rwa [Scope.take, List.take_left]

/-- A row compiles to nothing only if all of its steps do. -/
lemma expression?_eq_none_of_row
    (h : (source.compileWithin trail steps connectors).expression = none) :
    ∀ s ∈ steps, (source.node trail s).expression? = none := by
  induction steps using List.reverseRecOn with
  | nil => exact fun _ hs => nomatch hs
  | append_singleton steps s ih =>
    rw [compileWithin_concat] at h
    cases hs : (source.node trail s).expression? with
    | none =>
      rw [hs] at h
      exact List.forall_mem_append.mpr ⟨ih h, List.forall_mem_singleton.mpr hs⟩
    | some right =>
      rw [hs] at h
      cases hleft : (source.compileWithin trail steps connectors).expression <;>
        simp [hleft] at h

lemma exists_of_node (hs : s ∈ sc.steps) (he : (source.node sc.trail s).expression? = some e) :
    ∃ e', sc.expression? source = some e' := by
  by_contra hnone
  have hrow : sc.expression? source = none := by
    simpa [Option.eq_none_iff_forall_ne_some] using hnone
  rw [expression?_eq_none_of_row hrow s hs] at he
  cases he

lemma exists_of_joins (h : source.Joins sc x) : ∃ e, sc.expression? source = some e := by
  obtain ⟨k, s, -, right, hs, -, hright, -⟩ := h
  exact exists_of_node (List.mem_of_getElem? hs) hright

/-- The parts of a row are its joins and the parts of its steps. -/
lemma mem_subexpressions_row_iff
    (he : (source.compileWithin trail steps connectors).expression = some e) :
    x ∈ e.subexpressions ↔ source.Joins ⟨trail, steps, connectors⟩ x ∨
      ∃ s ∈ steps, ∃ e', (source.node trail s).expression? = some e' ∧ x ∈ e'.subexpressions := by
  induction steps using List.reverseRecOn generalizing e with
  | nil =>
    rw [compileWithin_expression_eq_none connectors (by simp)] at he
    cases he
  | append_singleton steps s ih =>
    rw [compileWithin_concat] at he
    rw [joins_concat_iff]
    simp only [List.mem_append, List.mem_singleton, or_and_right, exists_or, exists_eq_left]
    cases hs : (source.node trail s).expression? with
    | none =>
      rw [hs] at he
      rw [ih he]
      simp
    | some right =>
      cases hleft : (source.compileWithin trail steps connectors).expression with
      | none =>
        rw [hs, hleft] at he
        cases he
        have hnone := expression?_eq_none_of_row hleft
        have hjoins : ¬source.Joins ⟨trail, steps, connectors⟩ x := fun h => by
          obtain ⟨e', he'⟩ := exists_of_joins h
          cases hleft.symm.trans he'
        have hparts : ¬∃ t ∈ steps, ∃ e', (source.node trail t).expression? = some e' ∧
            x ∈ e'.subexpressions := by
          rintro ⟨t, ht, e', he', -⟩
          rw [hnone t ht] at he'
          cases he'
        simp [hjoins, hparts]
      | some left =>
        rw [hs, hleft] at he
        cases he
        have hjoin : (∃ left' right', some left = some left' ∧ some right = some right' ∧
            x = .call (connectorBefore connectors steps.length).symbol [left', right']) ↔
            x = .call (connectorBefore connectors steps.length).symbol [left, right] := by
          simp
        rw [hjoin]
        simp only [Expression.mem_subexpressions_call, List.mem_cons, List.not_mem_nil, or_false,
          exists_eq_or_imp, exists_eq_left, ih hleft, Option.some_inj, exists_eq_left']
        rw [or_assoc, or_assoc, or_left_comm]

lemma reference?_of_compileLocal (he : s.compileLocal = .ok (some e)) :
    s.reference? = none := by
  obtain ⟨o, ho, hfield, -⟩ := Step.localForm_of_compileLocal he
  rw [Step.compileLocal_eq ho hfield] at he
  unfold Step.reference?
  split
  · next r hkind =>
    rw [hkind] at he
    split at he <;> cases he
  · rfl

/-- A step has an expression of its own, or that of the filter that it refers to. -/
lemma expression?_node_iff : (source.node trail s).expression? = some e ↔
    s.compileLocal = .ok (some e) ∨ ∃ r f inner, s.liveReference? = some r ∧
      source.fetch trail r.filter = .ok f ∧
      (source.compileWithin (trail ++ [r.filter]) f.steps f.connectors).expression = some inner ∧
      e = r.wrap inner := by
  constructor
  · intro he
    obtain h | ⟨r, h, hl⟩ | ⟨r, hl⟩ := step_cases s
    · rw [node_of_plain h] at he
      exact .inl (Node.expression?_plain he)
    · rw [node_of_unnamed h hl] at he
      cases he
    · cases hf : source.fetch trail r.filter with
      | error _ =>
        rw [node_of_error hl hf] at he
        cases he
      | ok f =>
        rw [expression?_of_ok hl hf, Option.map_eq_some_iff] at he
        obtain ⟨inner, hinner, rfl⟩ := he
        exact .inr ⟨r, f, inner, hl, hf, hinner, rfl⟩
  · rintro (he | ⟨r, f, inner, hl, hf, hinner, rfl⟩)
    · rw [node_of_plain (reference?_of_compileLocal he), Node.expression?, Node.compile, he]
      rfl
    · rw [expression?_of_ok hl hf, hinner, Option.map_some]

/-- What a comparison adds to the parts of the expression that is compared. -/
lemma mem_subexpressions_wrap_iff : x ∈ (r.wrap e).subexpressions ↔
    x ∈ e.subexpressions ∨ ∃ o, r.parentOperator = some o ∧
      (x = r.wrap e ∨ ∃ l, r.parentValue = some l ∧ x = .literal l.numberOrRaw) := by
  obtain ⟨filter, parentOperator, parentValue, isBoolean⟩ := r
  cases parentOperator with
  | none => simp [Reference.wrap]
  | some o => cases parentValue <;> simp [Reference.wrap] <;> tauto

lemma Enters.expression?_node (h : source.Enters sc r f)
    (he : (sc.inside r f).expression? source = some e) :
    ∃ s ∈ sc.steps, (source.node sc.trail s).expression? = some (r.wrap e) := by
  obtain ⟨⟨s, hs, hr⟩, hf⟩ := h
  exact ⟨s, hs, expression?_node_iff.mpr (.inr ⟨r, f, e, hr, hf, he, rfl⟩)⟩

lemma Compares.symbol?_wrap {o : Operator} (h : source.Compares sc r o e) :
    (r.wrap e).symbol? = some o.symbol := by
  obtain ⟨-, -, -, ho⟩ := h
  exact Reference.symbol?_wrap ho

lemma Compares.expression?_node {o : Operator} (h : source.Compares sc r o e) :
    ∃ s ∈ sc.steps, (source.node sc.trail s).expression? = some (r.wrap e) := by
  obtain ⟨f, henters, he, -⟩ := h
  exact henters.expression?_node he

/-! ### Parts of a scope -/

lemma within_iff {outer inner : Scope} : source.Within outer inner ↔
    outer = inner ∨ ∃ r f, source.Enters outer r f ∧ source.Within (outer.inside r f) inner := by
  rw [Within, Relation.ReflTransGen.cases_head_iff]
  constructor
  · rintro (rfl | ⟨c, ⟨r, f, h, rfl⟩, hc⟩)
    · exact .inl rfl
    · exact .inr ⟨r, f, h, hc⟩
  · rintro (rfl | ⟨r, f, h, hc⟩)
    · exact .inl rfl
    · exact .inr ⟨_, ⟨r, f, h, rfl⟩, hc⟩

lemma Makes.exists_expression (h : source.Makes sc x) : ∃ e, sc.expression? source = some e := by
  cases h with
  | joined h => exact exists_of_joins h
  | single hs he => exact exists_of_node hs (expression?_node_iff.mpr (.inl he))
  | compared h | comparand h =>
    obtain ⟨s, hs, he⟩ := h.expression?_node
    exact exists_of_node hs he

/-- What stands around an expression has one too. -/
lemma Within.exists_expression (h : source.Within sc inner)
    (hinner : ∃ e, inner.expression? source = some e) : ∃ e, sc.expression? source = some e := by
  induction h using Relation.ReflTransGen.head_induction_on with
  | refl => exact hinner
  | head hstep _ ih =>
    obtain ⟨r, f, henters, rfl⟩ := hstep
    obtain ⟨e, he⟩ := ih
    obtain ⟨s, hs, hs'⟩ := henters.expression?_node he
    exact exists_of_node hs hs'

/-- The parts of a compiled expression are what the scopes within it make. -/
theorem mem_subexpressions_iff (he : sc.expression? source = some e) :
    x ∈ e.subexpressions ↔ ∃ inner, source.Within sc inner ∧ source.Makes inner x := by
  obtain ⟨trail, steps, connectors⟩ := sc
  induction trail using source.trail_induction generalizing steps connectors e with
  | step trail ih =>
    rw [mem_subexpressions_row_iff he]
    constructor
    · rintro (h | ⟨s, hs, e', he', hx⟩)
      · exact ⟨_, .refl, .joined h⟩
      · rcases expression?_node_iff.mp he' with hlocal | ⟨r, f, below, hr, hf, hbelow, rfl⟩
        · exact ⟨_, .refl, .single hs hlocal hx⟩
        · have henters : source.Enters ⟨trail, steps, connectors⟩ r f := ⟨⟨s, hs, hr⟩, hf⟩
          rcases mem_subexpressions_wrap_iff.mp hx with hx | ⟨o, ho, hx⟩
          · obtain ⟨sc, hsc, hmakes⟩ := (ih r.filter f hf _ _ hbelow).mp hx
            exact ⟨sc, within_iff.mpr (.inr ⟨r, f, henters, hsc⟩), hmakes⟩
          · have hcompares : source.Compares ⟨trail, steps, connectors⟩ r o below :=
              ⟨f, henters, hbelow, ho⟩
            rcases hx with rfl | ⟨l, hl, rfl⟩
            · exact ⟨_, .refl, .compared hcompares⟩
            · exact ⟨_, .refl, .comparand hcompares hl⟩
    · rintro ⟨inner, hwithin, hmakes⟩
      rcases within_iff.mp hwithin with rfl | ⟨r, f, henters, hbelow⟩
      · cases hmakes with
        | joined h => exact .inl h
        | single hs hlocal hx =>
          exact .inr ⟨_, hs, _, expression?_node_iff.mpr (.inl hlocal), hx⟩
        | compared h =>
          obtain ⟨s, hs, he⟩ := h.expression?_node
          exact .inr ⟨s, hs, _, he, Expression.mem_subexpressions_self _⟩
        | comparand h hl =>
          obtain ⟨s, hs, he⟩ := h.expression?_node
          obtain ⟨-, -, -, ho⟩ := h
          refine .inr ⟨s, hs, _, he, mem_subexpressions_wrap_iff.mpr (.inr ⟨_, ho, .inr ?_⟩)⟩
          exact ⟨_, hl, rfl⟩
      · obtain ⟨e', he'⟩ := hbelow.exists_expression hmakes.exists_expression
        obtain ⟨s, hs, hs'⟩ := henters.expression?_node he'
        have hx := (ih r.filter f henters.2 _ _ he').mpr ⟨inner, hbelow, hmakes⟩
        exact .inr ⟨s, hs, _, hs', mem_subexpressions_wrap_iff.mpr (.inl hx)⟩

variable {p : Pipeline}

theorem mem_subexpressions_compile_iff (he : (source.compile p).expression = some e) :
    x ∈ e.subexpressions ↔
      ∃ sc, source.Within (.ofPipeline p) sc ∧ source.Makes sc x :=
  mem_subexpressions_iff he

/-- A reference by itself, to a filter of one step. -/
lemma compile_reference {t : Step} (hp : p.steps = [t]) (hr : t.liveReference? = some r)
    (hf : source.lookup r.filter = .ok f) (hsteps : f.steps = [s])
    (hs : s.compileLocal = .ok (some e)) : (source.compile p).expression = some (r.wrap e) := by
  rw [compile, compileSteps, hp, compileWithin_singleton, ← compileStep_eq,
    compileStep_of_found hr hf, hsteps, compileWithin_singleton,
    expression?_node_iff.mpr (.inl hs), Option.map_some]

lemma Within.holds (h : source.Within (.ofPipeline p) sc) (hs : s ∈ sc.steps) :
    source.Holds p s := by
  cases h with
  | refl => exact .inl hs
  | tail _ hstep =>
    obtain ⟨r, f, ⟨-, hf⟩, rfl⟩ := hstep
    exact .inr ⟨r.filter, f, (fetch_eq_ok_iff.mp hf).2, hs⟩

lemma Compares.holds {o : Operator} (hwithin : source.Within (.ofPipeline p) sc)
    (h : source.Compares sc r o e) : ∃ s, source.Holds p s ∧ s.reference? = some r := by
  obtain ⟨f, ⟨⟨s, hs, hr⟩, -⟩, -⟩ := h
  exact ⟨s, hwithin.holds hs, Step.reference?_of_liveReference? hr⟩

/-- In a store there are the steps of its filters. -/
lemma forall_holds {store : FilterStore} {P : Step → Prop} (hp : ∀ s ∈ p.steps, P s)
    (hstore : ∀ f ∈ store.filters, ∀ s ∈ f.steps, P s) (s : Step)
    (h : store.source.Holds p s) : P s := by
  obtain hs | ⟨id, f, hf, hs⟩ := h
  · exact hp s hs
  · exact hstore f (FilterStore.mem_of_get hf).1 s hs

end FilterSource

end AlertFilter
