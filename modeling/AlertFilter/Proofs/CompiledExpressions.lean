import AlertFilter.Compile.Remote
import AlertFilter.Proofs.Links
import AlertFilter.Proofs.LocalForms

/-!
# The expressions that the compiler returns

Every one is made of expressions of single steps: rows of them are joined, and what a
filter is joined to may be compared with the value beside its reference. What holds of the
expressions of single steps and is kept by both holds of all that is returned, wherever
the filters come from.
-/

namespace AlertFilter

variable {P : Expression → Prop}

/-- A property that is kept when two expressions are joined and when one is compared with
the value of a reference. -/
structure KeptByCompiling (P : Expression → Prop) : Prop where
  join : ∀ (c : Connector) (e e' : Expression), P e → P e' → P (.call c.symbol [e, e'])
  wrap : ∀ (r : Reference) (e : Expression), P e → P (r.wrap e)

namespace KeptByCompiling

lemma joinLinked (hP : KeptByCompiling P) {row : List (Connector × Expression)}
    {e : Expression} (hrow : ∀ m ∈ row, P m.2) (h : joinLinked row = some e) : P e := by
  cases row with
  | nil => cases h
  | cons m rest =>
    obtain ⟨hm, hrest⟩ := List.forall_mem_cons.mp hrow
    cases h
    exact List.foldlRecOn rest _ hm fun left hleft n hn =>
      hP.join n.1 left n.2 hleft (hrest n hn)

lemma join_compileNodes (hP : KeptByCompiling P) {filter : Option FilterId}
    {connectors : List Connector} {nodes : List Node} {e : Expression}
    (hnodes : ∀ node ∈ nodes, ∀ e, node.expression? = some e → P e)
    (h : AlertFilter.join connectors (compileNodes filter 0 nodes).1 = some e) : P e := by
  rw [AlertFilter.join_compileNodes] at h
  refine hP.joinLinked (fun m hm => ?_) h
  obtain ⟨n, hn, he⟩ := List.mem_filterMap.mp hm
  obtain ⟨e', he', rfl⟩ := Option.map_eq_some_iff.mp he
  refine hnodes n.2 ?_ e' he'
  rw [← map_snd_linkAll connectors nodes]
  exact List.mem_map_of_mem hn

end KeptByCompiling

mutual

/-- The steps inside a node that are no references. -/
def Node.leaves : Node → List Step
  | .plain step => [step]
  | .unnamed _ | .unresolved _ _ => []
  | .expanded _ _ _ nodes => leavesOf nodes

def leavesOf : List Node → List Step
  | [] => []
  | node :: rest => node.leaves ++ leavesOf rest

end

lemma Node.expression?_plain {s : Step} {e : Expression}
    (h : (Node.plain s).expression? = some e) : s.compileLocal = .ok (some e) := by
  rw [Node.expression?, Node.compile] at h
  cases hs : s.compileLocal with
  | error _ => rw [hs] at h; cases h
  | ok _ => rw [hs] at h; exact congrArg _ h

mutual

theorem KeptByCompiling.node (hP : KeptByCompiling P) : ∀ node : Node,
    (∀ s ∈ node.leaves, ∀ e, s.compileLocal = .ok (some e) → P e) →
    ∀ e, node.expression? = some e → P e
  | .plain s, hleaves, e, h => hleaves s (List.mem_singleton_self s) e (Node.expression?_plain h)
  | .unnamed _, _, _, h => nomatch h
  | .unresolved _ _, _, _, h => nomatch h
  | .expanded _ r _ nodes, hleaves, _, h => by
    obtain ⟨e', he', rfl⟩ := Option.map_eq_some_iff.mp h
    exact hP.wrap r e' (hP.join_compileNodes (hP.nodes nodes hleaves) he')

theorem KeptByCompiling.nodes (hP : KeptByCompiling P) : ∀ nodes : List Node,
    (∀ s ∈ leavesOf nodes, ∀ e, s.compileLocal = .ok (some e) → P e) →
    ∀ node ∈ nodes, ∀ e, node.expression? = some e → P e
  | [], _, _, hmem, _, _ => nomatch hmem
  | first :: rest, hleaves, node, hmem, e, h => by
    obtain ⟨hfirst, hrest⟩ := List.forall_mem_append.mp hleaves
    rcases List.mem_cons.mp hmem with hnode | hmem
    · exact hP.node first hfirst e (hnode ▸ h)
    · exact hP.nodes rest hrest node hmem e h

end

namespace FilterSource

variable {source : FilterSource} {trail : Trail} {s : Step} {o : Operator}

lemma node_withValue (h : s.readsValue = false) (v : StepValue) :
    (source.node trail (s.withValue v)).expression? = (source.node trail s).expression? := by
  obtain hplain | ⟨r, hr, hl⟩ | ⟨r, hr⟩ := step_cases s
  · have hvalue : (s.withValue v).reference? = none := hplain
    rw [node_of_plain hplain, node_of_plain hvalue, Node.expression?, Node.expression?,
      Node.compile, Node.compile, Step.compileLocal_withValue h]
  · have hvalue : (s.withValue v).reference? = some r := hr
    rw [node_of_unnamed hr hl, node_of_unnamed hvalue hl]
    rfl
  · have hvalue : (s.withValue v).liveReference? = some r := hr
    cases hf : source.fetch trail r.filter with
    | error e =>
      rw [node_of_error hr hf, node_of_error hvalue hf]
      rfl
    | ok f => rw [expression?_of_ok hr hf, expression?_of_ok hvalue hf]

lemma compileStep_of_compares (ho : s.operator = some o)
    (hfield : Text.isBlank s.fieldName = false) (h : s.kind.compares o = true) :
    source.compileStep s = s.compared o := by
  have hplain : s.reference? = none := by
    unfold Step.reference?
    split
    · next hkind => rw [hkind] at h; cases h
    · rfl
  rw [compileStep_of_plain source hplain, Step.compileLocal_of_compares ho hfield h]

end FilterSource

/-- The compiler returns the expression: for steps inside the filters of a trail, for one
step, or for a pipeline and a service, which may change and answer each look-up as it likes. -/
inductive Compiled : Expression → Prop
  | steps {source : FilterSource} {trail : Trail} {steps : List Step}
      {connectors : List Connector} {e : Expression} :
    (source.compileWithin trail steps connectors).expression = some e → Compiled e
  | step {source : FilterSource} {s : Step} {e : Expression} :
    source.compileStep s = some e → Compiled e
  | service {σ : Type} {lookup : FilterId → StateM σ (Except StoreError SavedFilter)}
      {depth : Nat} {p : Pipeline} {state : σ} {report : Report} {e : Expression} :
    ((compileThrough lookup depth p).run.run state).1 = some report →
      report.expression = some e → Compiled e

/-- What a service answers decides on the nodes, and the report is made from them. -/
lemma exists_nodes_of_compileThrough {σ : Type}
    {lookup : FilterId → StateM σ (Except StoreError SavedFilter)} {depth : Nat} {p : Pipeline}
    {state : σ} {report : Report}
    (h : ((compileThrough lookup depth p).run.run state).1 = some report) :
    ∃ nodes, report = reportNodes none p.connectors nodes := by
  rw [compileThrough, OptionT.run_bind, Option.elimM, StateT.run_bind] at h
  rcases hn : (p.steps.mapM (unfoldThrough lookup (depth + 1) [])).run.run state with
    ⟨_ | nodes, state'⟩
  · rw [hn] at h
    cases h
  · rw [hn] at h
    exact ⟨nodes, (Option.some.inj h).symm⟩

/-- What holds of the expressions of single steps and is kept holds of what is returned. -/
theorem Compiled.induction (hP : KeptByCompiling P)
    (hlocal : ∀ (s : Step) (e : Expression), s.compileLocal = .ok (some e) → P e)
    {e : Expression} (h : Compiled e) : P e := by
  have hnodes : ∀ {filter connectors nodes} {e : Expression},
      (reportNodes filter connectors nodes).expression = some e → P e := by
    intro filter connectors nodes e h
    exact hP.join_compileNodes (hP.nodes nodes fun s _ => hlocal s) h
  cases h with
  | steps h => exact hnodes h
  | step h =>
    rw [FilterSource.compileStep_eq] at h
    exact hP.node _ (fun s _ => hlocal s) e h
  | service h he =>
    obtain ⟨nodes, rfl⟩ := exists_nodes_of_compileThrough h
    exact hnodes he

end AlertFilter
