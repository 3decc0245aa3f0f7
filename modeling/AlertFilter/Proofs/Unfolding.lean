import AlertFilter.Compile.Report
import Mathlib.Tactic.Lemma

/-!
# Unfolding step by step

Each step of a list is unfolded by itself: `FilterSource.node` is the node of one step,
and a list unfolds to the nodes of its steps. This file gives the cases of a node, the
induction over the trails that an unfolding runs through, and the expressions and issues
of a list of nodes as a flat reading of its members.
-/

namespace AlertFilter

namespace FilterSource

variable {source : FilterSource} {trail : Trail} {id : FilterId}

lemma fetch_eq_ok_iff {f : SavedFilter} :
    source.fetch trail id = .ok f ↔ id ∉ trail ∧ source.lookup id = .ok f := by
  unfold fetch
  by_cases hid : id ∈ trail
  · simp [hid]
  · cases h : source.lookup id <;> simp [hid]

lemma fetch_eq_cyclic_iff {chain : List FilterId} :
    source.fetch trail id = .error (.cyclic chain) ↔ id ∈ trail ∧ chain = trail ++ [id] := by
  unfold fetch
  by_cases hid : id ∈ trail
  · simp [hid, eq_comm]
  · cases h : source.lookup id <;> simp [hid]

lemma fetch_of_mem (h : id ∈ trail) :
    source.fetch trail id = .error (.cyclic (trail ++ [id])) :=
  fetch_eq_cyclic_iff.mpr ⟨h, rfl⟩

lemma fetch_of_notMem (h : id ∉ trail) :
    source.fetch trail id = (source.lookup id).mapError (.fetch id) := by
  unfold fetch
  rw [if_neg h]
  cases source.lookup id <;> rfl

lemma nodup_extended {f : SavedFilter} (ht : trail.Nodup)
    (hf : source.fetch trail id = .ok f) : (trail ++ [id]).Nodup := by
  have hid := (fetch_eq_ok_iff.mp hf).1
  rw [List.nodup_append]
  refine ⟨ht, by simp, ?_⟩
  rintro a ha b hb rfl
  exact hid (List.mem_singleton.mp hb ▸ ha)

/-- The source with a change made to each of its filters. -/
def mapFilters (source : FilterSource) (g : SavedFilter → SavedFilter) : FilterSource where
  lookup id := (source.lookup id).map g
  ids := source.ids
  mem_ids {id f} h := by
    cases hf : source.lookup id with
    | error _ => rw [hf] at h; cases h
    | ok _ => exact source.mem_ids hf

lemma fetch_mapFilters (g : SavedFilter → SavedFilter) :
    (source.mapFilters g).fetch trail id = (source.fetch trail id).map g := by
  have hlookup : (source.mapFilters g).lookup id = (source.lookup id).map g := rfl
  by_cases hid : id ∈ trail
  · rw [fetch_of_mem hid, fetch_of_mem hid]
    rfl
  · rw [fetch_of_notMem hid, fetch_of_notMem hid, hlookup]
    cases source.lookup id <;> rfl

/-- What holds of a trail whenever it holds of every trail one filter deeper, holds of all. -/
theorem trail_induction (source : FilterSource) {motive : Trail → Prop}
    (step : ∀ trail, (∀ id f, source.fetch trail id = .ok f → motive (trail ++ [id])) →
      motive trail) (trail : Trail) : motive trail := by
  induction hn : (source.unvisited trail).length using Nat.strongRecOn
    generalizing trail with
  | ind n ih =>
    refine step trail fun id f hf => ?_
    have hlt := length_unvisited_lt hf
    exact ih _ (hn ▸ hlt) _ rfl

end FilterSource

namespace Step

lemma reference?_of_liveReference? {s : Step} {r : Reference}
    (h : s.liveReference? = some r) : s.reference? = some r := by
  unfold liveReference? at h
  split at h
  · cases h
  · exact h

end Step

namespace FilterSource

variable (source : FilterSource) (trail : Trail)

def node (step : Step) : Node :=
  match step.reference?, step.liveReference? with
  | none, _ => .plain step
  | some _, none => .unnamed step
  | some _, some r =>
    match source.fetch trail r.filter with
    | .error e => .unresolved step e
    | .ok f => .expanded step r f.connectors (source.unfold (trail ++ [r.filter]) f.steps)

theorem unfold_eq_map (steps : List Step) :
    source.unfold trail steps = steps.map (source.node trail) := by
  induction steps with
  | nil => rw [unfold, List.map_nil]
  | cons step rest ih =>
    rw [unfold, List.map_cons, ih]
    congr 1
    unfold node
    cases step.reference? <;> cases step.liveReference? <;> try rfl
    dsimp only
    split <;> rename_i h <;> rw [h]

variable {source trail} {step : Step} {r : Reference}

lemma node_of_plain (h : step.reference? = none) : source.node trail step = .plain step := by
  simp only [node, h]

lemma node_of_unnamed (h : step.reference? = some r) (hl : step.liveReference? = none) :
    source.node trail step = .unnamed step := by
  simp only [node, h, hl]

lemma node_of_error {e : CompileError} (h : step.liveReference? = some r)
    (hf : source.fetch trail r.filter = .error e) :
    source.node trail step = .unresolved step e := by
  simp only [node, Step.reference?_of_liveReference? h, h, hf]

lemma node_of_ok {f : SavedFilter} (h : step.liveReference? = some r)
    (hf : source.fetch trail r.filter = .ok f) :
    source.node trail step =
      .expanded step r f.connectors (f.steps.map (source.node (trail ++ [r.filter]))) := by
  simp only [node, Step.reference?_of_liveReference? h, h, hf, unfold_eq_map]

/-- A step is no reference, or one without a name, or one that is fetched. -/
lemma step_cases (step : Step) :
    step.reference? = none ∨ (∃ r, step.reference? = some r ∧ step.liveReference? = none) ∨
      ∃ r, step.liveReference? = some r := by
  cases hl : step.liveReference? with
  | some r => exact .inr (.inr ⟨r, rfl⟩)
  | none =>
    cases hr : step.reference? with
    | none => exact .inl rfl
    | some r => exact .inr (.inl ⟨r, rfl, rfl⟩)

@[simp] lemma node_step (step : Step) : (source.node trail step).step = step := by
  obtain h | ⟨r, h, hl⟩ | ⟨r, h⟩ := step_cases step
  · rw [node_of_plain h, Node.step]
  · rw [node_of_unnamed h hl, Node.step]
  · cases hf : source.fetch trail r.filter with
    | error e => rw [node_of_error h hf, Node.step]
    | ok f => rw [node_of_ok h hf, Node.step]

end FilterSource

lemma compileBetween_error {subject : Expression} {bounds : Option Bounds} {e : CompileError}
    (h : compileBetween subject bounds = .error e) : ∃ c, e = .coercion c := by
  unfold compileBetween at h
  repeat' split at h
  all_goals cases h
  all_goals exact ⟨_, rfl⟩

lemma compileComputed_error {s : Step} {field : String} {o : Operator}
    {operands : List String} {operation : Option Operator} {c : Coercion} {e : CompileError}
    (h : compileComputed s field o operands operation c = .error e) :
    ∃ u, e = .unsupported u := by
  unfold compileComputed at h
  dsimp only at h
  by_cases hmath : (operation.getD o).isMath = true
  · rw [if_pos hmath] at h
    cases h
  · rw [if_neg hmath] at h
    cases h
    exact ⟨_, rfl⟩

/-- A step by itself fails for its operands or its form, never for a filter. -/
lemma compileLocal_error {s : Step} {e : CompileError} (h : s.compileLocal = .error e) :
    (∃ c, e = .coercion c) ∨ ∃ u, e = .unsupported u := by
  unfold Step.compileLocal at h
  split at h
  · cases h
  · dsimp only at h
    repeat' split at h
    all_goals try cases h
    · exact .inl (compileBetween_error h)
    · exact .inr ⟨_, rfl⟩
    · exact .inr (compileComputed_error h)
    · exact .inr ⟨_, rfl⟩

/-! ### The reference graph -/

/-- Some step refers to a filter by a reference that has a name. -/
def RefersTo (steps : List Step) (id : FilterId) : Prop :=
  ∃ s ∈ steps, ∃ r, s.liveReference? = some r ∧ r.filter = id

lemma refersTo_iff_mem {steps : List Step} {id : FilterId} :
    RefersTo steps id ↔ id ∈ steps.filterMap fun s => s.liveReference?.map (·.filter) := by
  simp only [RefersTo, List.mem_filterMap, Option.map_eq_some_iff]

instance (steps : List Step) (id : FilterId) : Decidable (RefersTo steps id) :=
  decidable_of_iff' _ refersTo_iff_mem

/-- A filter that resolves refers to another one. -/
def FilterSource.Edge (source : FilterSource) (a b : FilterId) : Prop :=
  ∃ f, source.lookup a = .ok f ∧ RefersTo f.steps b

namespace Node

def expression? (node : Node) : Option Expression :=
  match node.compile with
  | .ok outcome => outcome.expression
  | .error _ => none

/-- The issues that a node at an index of its list adds to the report. -/
def issues (filter : Option FilterId) (i : Nat) (node : Node) : List Issue :=
  match node.compile with
  | .ok outcome => outcome.issues
  | .error e => [⟨node.step.id, i, filter, e⟩]

end Node

/-- Expressions and issues of a list of steps, each step by itself. -/
lemma compileNodes_eq (filter : Option FilterId) (nodes : List Node) (i : Nat) :
    compileNodes filter i nodes =
      ((nodes.zipIdx i).filterMap fun m => m.1.expression?.map (m.2, ·),
        (nodes.zipIdx i).flatMap fun m => m.1.issues filter m.2) := by
  induction nodes generalizing i with
  | nil => rfl
  | cons node rest ih =>
    rw [compileNodes, ih (i + 1), List.zipIdx_cons, List.filterMap_cons, List.flatMap_cons]
    rcases h : node.compile with e | ⟨_ | e, nested⟩ <;> simp [Node.expression?, Node.issues, h]

lemma compileNodes_fst (filter : Option FilterId) (nodes : List Node) (i : Nat) :
    (compileNodes filter i nodes).1 =
      (nodes.zipIdx i).filterMap fun m => m.1.expression?.map (m.2, ·) := by
  rw [compileNodes_eq]

lemma reportNodes_expression (filter : Option FilterId) (connectors : List Connector)
    (nodes : List Node) : (reportNodes filter connectors nodes).expression =
      join connectors (compileNodes filter 0 nodes).1 := rfl

lemma reportNodes_issues (filter : Option FilterId) (connectors : List Connector)
    (nodes : List Node) : (reportNodes filter connectors nodes).issues =
      (nodes.zipIdx 0).flatMap fun m => m.1.issues filter m.2 := by
  rw [reportNodes, compileNodes_eq]

namespace FilterSource

variable {source : FilterSource}

lemma compileStep_eq (source : FilterSource) (step : Step) :
    source.compileStep step = (source.node [] step).expression? := by
  rw [compileStep, unfold_eq_map, List.map_cons, List.map_nil, List.map_cons, List.map_nil,
    Node.expression?]
  cases (source.node [] step).compile <;> rfl

lemma compileStep_of_plain (source : FilterSource) {step : Step} (h : step.reference? = none) :
    source.compileStep step =
      match step.compileLocal with
      | .ok e => e
      | .error _ => none := by
  rw [compileStep_eq, node_of_plain h, Node.expression?, Node.compile]
  cases step.compileLocal <;> rfl

lemma compile_of_plain (source : FilterSource) {p : Pipeline}
    (h : ∀ s ∈ p.steps, s.reference? = none) :
    source.compile p = reportNodes none p.connectors (p.steps.map .plain) := by
  rw [compile, compileSteps, compileWithin, unfold_eq_map,
    List.map_congr_left fun s hs => node_of_plain (h s hs)]
  rfl

lemma mem_issues_iff {trail : Trail} {steps : List Step} {connectors : List Connector}
    {i : Issue} : i ∈ (source.compileWithin trail steps connectors).issues ↔
      ∃ k s, steps[k]? = some s ∧ i ∈ (source.node trail s).issues trail.getLast? k := by
  rw [compileWithin, reportNodes_issues, unfold_eq_map, List.mem_flatMap]
  constructor
  · rintro ⟨⟨node, k⟩, hm, hi⟩
    rw [List.mem_zipIdx_iff_getElem?, List.getElem?_map, Option.map_eq_some_iff] at hm
    obtain ⟨s, hs, rfl⟩ := hm
    exact ⟨k, s, hs, hi⟩
  · rintro ⟨k, s, hs, hi⟩
    refine ⟨(source.node trail s, k), ?_, hi⟩
    rw [List.mem_zipIdx_iff_getElem?, List.getElem?_map, hs, Option.map_some]

variable {trail : Trail} {step : Step} {r : Reference} {filter : Option FilterId} {i : Nat}

lemma issues_of_plain (h : step.reference? = none) :
    (source.node trail step).issues filter i =
      match step.compileLocal with
      | .ok _ => []
      | .error e => [⟨step.id, i, filter, e⟩] := by
  rw [node_of_plain h, Node.issues, Node.compile]
  cases step.compileLocal <;> rfl

lemma issues_of_unnamed (h : step.reference? = some r) (hl : step.liveReference? = none) :
    (source.node trail step).issues filter i = [] := by
  rw [node_of_unnamed h hl, Node.issues, Node.compile]

lemma issues_of_error {e : CompileError} (h : step.liveReference? = some r)
    (hf : source.fetch trail r.filter = .error e) :
    (source.node trail step).issues filter i = [⟨step.id, i, filter, e⟩] := by
  rw [node_of_error h hf, Node.issues, Node.compile, Node.step]

/-- A filter that is entered compiles by itself: what becomes of its steps inside of it. -/
lemma compile_node_of_ok {f : SavedFilter} (h : step.liveReference? = some r)
    (hf : source.fetch trail r.filter = .ok f) :
    let inner := source.compileWithin (trail ++ [r.filter]) f.steps f.connectors
    (source.node trail step).compile = .ok ⟨inner.expression.map r.wrap, inner.issues⟩ := by
  dsimp only
  rw [node_of_ok h hf, compileWithin, unfold_eq_map, List.getLast?_concat]
  rfl

/-- A filter that is entered reports by itself, whatever it is reported under. -/
lemma issues_of_ok {f : SavedFilter} (h : step.liveReference? = some r)
    (hf : source.fetch trail r.filter = .ok f) :
    (source.node trail step).issues filter i =
      (source.compileWithin (trail ++ [r.filter]) f.steps f.connectors).issues := by
  rw [Node.issues, compile_node_of_ok h hf]

/-- An issue of a step is its own failure or comes from inside the filter that it expands to. -/
lemma mem_issues_cases {x : Issue} (h : x ∈ (source.node trail step).issues filter i) :
    (∃ e, x = ⟨step.id, i, filter, e⟩ ∧
      (step.reference? = none ∧ step.compileLocal = .error e ∨
        ∃ r, step.liveReference? = some r ∧ source.fetch trail r.filter = .error e)) ∨
    ∃ r f, step.liveReference? = some r ∧ source.fetch trail r.filter = .ok f ∧
      x ∈ (source.compileWithin (trail ++ [r.filter]) f.steps f.connectors).issues := by
  obtain hr | ⟨r, hr, hl⟩ | ⟨r, hl⟩ := step_cases step
  · rw [issues_of_plain hr] at h
    cases hlocal : step.compileLocal with
    | ok e => rw [hlocal] at h; cases h
    | error e =>
      rw [hlocal] at h
      exact .inl ⟨e, List.mem_singleton.mp h, .inl ⟨hr, rfl⟩⟩
  · rw [issues_of_unnamed hr hl] at h
    cases h
  · cases hf : source.fetch trail r.filter with
    | error e =>
      rw [issues_of_error hl hf] at h
      exact .inl ⟨e, List.mem_singleton.mp h, .inr ⟨r, hl, hf⟩⟩
    | ok f =>
      rw [issues_of_ok hl hf] at h
      exact .inr ⟨r, f, hl, hf, h⟩

lemma expression?_of_ok {f : SavedFilter} (h : step.liveReference? = some r)
    (hf : source.fetch trail r.filter = .ok f) :
    (source.node trail step).expression? =
      (source.compileWithin (trail ++ [r.filter]) f.steps f.connectors).expression.map
        r.wrap := by
  rw [Node.expression?, compile_node_of_ok h hf]

/-- A reference by itself, to a filter that is found. -/
lemma compileStep_of_found {f : SavedFilter} (h : step.liveReference? = some r)
    (hf : source.lookup r.filter = .ok f) :
    source.compileStep step =
      (source.compileWithin [r.filter] f.steps f.connectors).expression.map r.wrap := by
  have hfetch : source.fetch [] r.filter = .ok f := fetch_eq_ok_iff.mpr ⟨List.not_mem_nil, hf⟩
  rw [compileStep_eq, expression?_of_ok h hfetch, List.nil_append]

end FilterSource

end AlertFilter
