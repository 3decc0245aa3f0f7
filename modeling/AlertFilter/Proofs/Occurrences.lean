import AlertFilter.Proofs.Links
import AlertFilter.Store.Memory
import Mathlib.Data.List.Basic

/-!
# Occurrences of steps

A pipeline unfolds into a tree: below a reference that is entered stand the steps of its
filter. An occurrence is a step at its place in that tree, so a filter that is referred to
twice has all of its steps occur twice. The issues of a report are those of the occurrences
that fail by themselves, from left to right and from the outside in.
-/

namespace AlertFilter

/-- A step at its place in the unfolded pipeline. -/
structure Occurrence where
  /-- Where the references stand that enclose it, outermost first. -/
  outer : List Nat
  trail : Trail
  index : Nat
  step : Step

namespace Occurrence

def path (o : Occurrence) : List Nat := o.outer ++ [o.index]

/-- The error of the step itself, whatever happens below it. -/
def failure? (source : FilterSource) (o : Occurrence) : Option CompileError :=
  match (source.node o.trail o.step).compile with
  | .ok _ => none
  | .error e => some e

/-- An occurrence that fails is reported with the innermost filter around it. -/
def issue? (source : FilterSource) (o : Occurrence) : Option Issue :=
  (o.failure? source).map fun e => ⟨o.step.id, o.index, o.trail.getLast?, e⟩

end Occurrence

lemma Step.liveReference?_of_plain {s : Step} (h : s.reference? = none) :
    s.liveReference? = none := by
  rw [liveReference?, h, ite_self]

namespace FilterSource

/-- The occurrences in a list of steps, each followed by those below it. -/
def occurrencesWithin (source : FilterSource) (outer : List Nat) (trail : Trail) (i : Nat) :
    List Step → List Occurrence
  | [] => []
  | step :: rest =>
    let below :=
      match step.liveReference? with
      | none => []
      | some r =>
        match _ : source.fetch trail r.filter with
        | .error _ => []
        | .ok f => source.occurrencesWithin (outer ++ [i]) (trail ++ [r.filter]) 0 f.steps
    ⟨outer, trail, i, step⟩ :: (below ++ source.occurrencesWithin outer trail (i + 1) rest)
termination_by steps => ((source.unvisited trail).length, steps.length)
decreasing_by
  · exact Prod.Lex.left _ _ (length_unvisited_lt ‹_›)
  · exact Prod.Lex.right _ (Nat.lt_succ_self _)

def occurrences (source : FilterSource) (steps : List Step) : List Occurrence :=
  source.occurrencesWithin [] [] 0 steps

/-- The tree of occurrences: the outermost steps, and below a named reference to a filter
that is not on its trail and is found, the steps of that filter. -/
inductive Occurs (source : FilterSource) (outer : List Nat) (trail : Trail)
    (steps : List Step) : Occurrence → Prop
  | outermost {i : Nat} {s : Step} (hs : steps[i]? = some s) :
    Occurs source outer trail steps ⟨outer, trail, i, s⟩
  | nested {o : Occurrence} {r : Reference} {f : SavedFilter} {i : Nat} {s : Step}
    (ho : Occurs source outer trail steps o) (hr : o.step.liveReference? = some r)
    (hid : r.filter ∉ o.trail) (hf : source.lookup r.filter = .ok f)
    (hs : f.steps[i]? = some s) :
    Occurs source outer trail steps ⟨o.path, o.trail ++ [r.filter], i, s⟩

variable {source : FilterSource}

def below (source : FilterSource) (o : Occurrence) : List Occurrence :=
  match o.step.liveReference? with
  | none => []
  | some r =>
    match source.fetch o.trail r.filter with
    | .error _ => []
    | .ok f => source.occurrencesWithin o.path (o.trail ++ [r.filter]) 0 f.steps

lemma below_of_none {o : Occurrence} (h : o.step.liveReference? = none) :
    source.below o = [] := by
  simp only [below, h]

lemma below_of_error {o : Occurrence} {r : Reference} {e : CompileError}
    (hr : o.step.liveReference? = some r) (hf : source.fetch o.trail r.filter = .error e) :
    source.below o = [] := by
  simp only [below, hr, hf]

lemma below_of_ok {o : Occurrence} {r : Reference} {f : SavedFilter}
    (hr : o.step.liveReference? = some r) (hf : source.fetch o.trail r.filter = .ok f) :
    source.below o = source.occurrencesWithin o.path (o.trail ++ [r.filter]) 0 f.steps := by
  simp only [below, hr, hf]

/-- Nothing is below an occurrence, or all of the filter that it refers to. -/
lemma below_cases (source : FilterSource) (o : Occurrence) : source.below o = [] ∨
    ∃ r f, o.step.liveReference? = some r ∧ source.fetch o.trail r.filter = .ok f ∧
      source.below o = source.occurrencesWithin o.path (o.trail ++ [r.filter]) 0 f.steps := by
  cases hr : o.step.liveReference? with
  | none => exact .inl (below_of_none hr)
  | some r =>
    cases hf : source.fetch o.trail r.filter with
    | error e => exact .inl (below_of_error hr hf)
    | ok f => exact .inr ⟨r, f, rfl, hf, below_of_ok hr hf⟩

lemma exists_of_mem_below {o o' : Occurrence} (h : o' ∈ source.below o) :
    ∃ r f, o.step.liveReference? = some r ∧ source.fetch o.trail r.filter = .ok f ∧
      o' ∈ source.occurrencesWithin o.path (o.trail ++ [r.filter]) 0 f.steps := by
  obtain hnil | ⟨r, f, hr, hf, hbelow⟩ := source.below_cases o
  · rw [hnil] at h
    cases h
  · exact ⟨r, f, hr, hf, hbelow ▸ h⟩

theorem occurrencesWithin_eq_flatMap (outer : List Nat) (trail : Trail) (steps : List Step)
    (i : Nat) :
    source.occurrencesWithin outer trail i steps =
      (steps.zipIdx i).flatMap fun m =>
        ⟨outer, trail, m.2, m.1⟩ :: source.below ⟨outer, trail, m.2, m.1⟩ := by
  induction steps generalizing i with
  | nil => rw [occurrencesWithin, List.zipIdx_nil, List.flatMap_nil]
  | cons step rest ih =>
    rw [occurrencesWithin, List.zipIdx_cons, List.flatMap_cons, List.cons_append, ← ih]
    congr 2
    unfold below
    cases step.liveReference? <;> try rfl
    dsimp only
    split <;> rename_i h <;> rw [h]
    rfl

lemma mem_occurrencesWithin_iff {outer : List Nat} {trail : Trail} {steps : List Step}
    {o : Occurrence} : o ∈ source.occurrencesWithin outer trail 0 steps ↔
      ∃ i s, steps[i]? = some s ∧
        (o = ⟨outer, trail, i, s⟩ ∨ o ∈ source.below ⟨outer, trail, i, s⟩) := by
  rw [occurrencesWithin_eq_flatMap, List.mem_flatMap]
  simp only [List.mem_cons, Prod.exists, List.mem_zipIdx_iff_getElem?]
  exact exists_comm

lemma Occurs.trans {outer : List Nat} {trail : Trail} {steps : List Step} {o p : Occurrence}
    {r : Reference} {f : SavedFilter} (hp : source.Occurs outer trail steps p)
    (hr : p.step.liveReference? = some r) (hf : source.fetch p.trail r.filter = .ok f)
    (ho : source.Occurs p.path (p.trail ++ [r.filter]) f.steps o) :
    source.Occurs outer trail steps o := by
  obtain ⟨hid, hlookup⟩ := fetch_eq_ok_iff.mp hf
  induction ho with
  | outermost hs => exact hp.nested hr hid hlookup hs
  | nested _ hr' hid' hf' hs ih => exact ih.nested hr' hid' hf' hs

lemma occurs_of_mem (trail : Trail) {outer : List Nat} {steps : List Step} {o : Occurrence}
    (h : o ∈ source.occurrencesWithin outer trail 0 steps) :
    source.Occurs outer trail steps o := by
  induction trail using source.trail_induction generalizing outer steps with
  | step trail ih =>
    obtain ⟨i, s, hs, rfl | ho⟩ := mem_occurrencesWithin_iff.mp h
    · exact .outermost hs
    · obtain ⟨r, f, hr, hf, ho⟩ := exists_of_mem_below ho
      exact (Occurs.outermost hs).trans hr hf (ih r.filter f hf ho)

/-- What stands right below an occurrence is listed when the occurrence is. -/
lemma mem_occurrencesWithin_below (trail : Trail) {outer : List Nat} {steps : List Step}
    {o : Occurrence} (ho : o ∈ source.occurrencesWithin outer trail 0 steps) {o' : Occurrence}
    (h : o' ∈ source.below o) : o' ∈ source.occurrencesWithin outer trail 0 steps := by
  induction trail using source.trail_induction generalizing outer steps with
  | step trail ih =>
    obtain ⟨i, s, hs, hor⟩ := mem_occurrencesWithin_iff.mp ho
    refine mem_occurrencesWithin_iff.mpr ⟨i, s, hs, .inr ?_⟩
    rcases hor with rfl | ho
    · exact h
    · obtain ⟨r, f, hr, hf, ho⟩ := exists_of_mem_below ho
      rw [below_of_ok hr hf]
      exact ih r.filter f hf ho

lemma mem_of_occurs {outer : List Nat} {trail : Trail} {steps : List Step} {o : Occurrence}
    (h : source.Occurs outer trail steps o) :
    o ∈ source.occurrencesWithin outer trail 0 steps := by
  induction h with
  | outermost hs => exact mem_occurrencesWithin_iff.mpr ⟨_, _, hs, .inl rfl⟩
  | nested _ hr hid hf hs ih =>
    refine mem_occurrencesWithin_below trail ih ?_
    rw [below_of_ok hr (fetch_eq_ok_iff.mpr ⟨hid, hf⟩)]
    exact mem_occurrencesWithin_iff.mpr ⟨_, _, hs, .inl rfl⟩

theorem mem_occurrences_iff {steps : List Step} {o : Occurrence} :
    o ∈ source.occurrences steps ↔ source.Occurs [] [] steps o :=
  ⟨occurs_of_mem [], mem_of_occurs⟩

lemma path_of_mem_below {o o' : Occurrence} (h : o' ∈ source.below o) :
    ∃ k rest, o'.path = o.path ++ k :: rest := by
  obtain ⟨r, f, -, -, ho'⟩ := exists_of_mem_below h
  have hoccurs := occurs_of_mem _ ho'
  clear ho' h
  induction hoccurs with
  | outermost hs => exact ⟨_, [], rfl⟩
  | @nested _ _ _ i _ _ _ _ _ _ ih =>
    obtain ⟨k, rest, hpath⟩ := ih
    refine ⟨k, rest ++ [i], ?_⟩
    rw [Occurrence.path, hpath, List.append_assoc, List.cons_append]

lemma path_of_mem_cons_below {o o' : Occurrence} (h : o' ∈ o :: source.below o) :
    ∃ rest, o'.path = o.path ++ rest := by
  rcases List.mem_cons.mp h with rfl | h
  · exact ⟨[], (List.append_nil _).symm⟩
  · obtain ⟨k, rest, hpath⟩ := path_of_mem_below h
    exact ⟨k :: rest, hpath⟩

lemma pairwise_zipIdx {α : Type} (items : List α) (i : Nat) :
    (items.zipIdx i).Pairwise fun m m' => m.2 < m'.2 := by
  have hindices : ((items.zipIdx i).map Prod.snd).Pairwise (· < ·) := by
    rw [List.zipIdx_map_snd]
    exact List.pairwise_lt_range'
  exact List.pairwise_map.mp hindices

lemma pairwise_below (o : Occurrence)
    (hin : ∀ id f, source.fetch o.trail id = .ok f →
      (source.occurrencesWithin o.path (o.trail ++ [id]) 0 f.steps).Pairwise
        fun p q => p.path < q.path) :
    (source.below o).Pairwise fun p q => p.path < q.path := by
  obtain hnil | ⟨r, f, -, hf, hbelow⟩ := source.below_cases o
  · rw [hnil]
    exact .nil
  · rw [hbelow]
    exact hin r.filter f hf

/-- Occurrences are listed by their paths: before all that is below them, and behind all that
is further to the left. -/
theorem pairwise_path_lt (trail : Trail) (outer : List Nat) (steps : List Step) :
    (source.occurrencesWithin outer trail 0 steps).Pairwise fun o o' => o.path < o'.path := by
  induction trail using source.trail_induction generalizing outer steps with
  | step trail ih =>
    rw [occurrencesWithin_eq_flatMap, List.pairwise_flatMap]
    constructor
    · rintro ⟨s, i⟩ -
      rw [List.pairwise_cons]
      constructor
      · intro o ho
        obtain ⟨k, rest, hpath⟩ := path_of_mem_below ho
        rw [hpath]
        conv_lhs => rw [← List.append_nil (Occurrence.path _)]
        exact List.append_left_lt (List.nil_lt_cons k rest)
      · exact pairwise_below ⟨outer, trail, i, s⟩ fun id f hf => ih id f hf _ _
    · refine (pairwise_zipIdx steps 0).imp fun {m m'} hlt o ho o' ho' => ?_
      obtain ⟨rest, hpath⟩ := path_of_mem_cons_below ho
      obtain ⟨rest', hpath'⟩ := path_of_mem_cons_below ho'
      rw [hpath, hpath', Occurrence.path, Occurrence.path, List.append_assoc, List.append_assoc]
      exact List.append_left_lt (List.cons_lt_cons_iff.mpr (.inl hlt))

/-! ### Issues -/

lemma issue?_of_plain {o : Occurrence} (h : o.step.reference? = none) :
    o.issue? source = match o.step.compileLocal with
      | .ok _ => none
      | .error e => some ⟨o.step.id, o.index, o.trail.getLast?, e⟩ := by
  rw [Occurrence.issue?, Occurrence.failure?, node_of_plain h, Node.compile]
  cases o.step.compileLocal <;> rfl

lemma issue?_of_unnamed {o : Occurrence} {r : Reference} (h : o.step.reference? = some r)
    (hl : o.step.liveReference? = none) : o.issue? source = none := by
  rw [Occurrence.issue?, Occurrence.failure?, node_of_unnamed h hl, Node.compile]
  rfl

lemma issue?_of_error {o : Occurrence} {r : Reference} {e : CompileError}
    (hr : o.step.liveReference? = some r) (hf : source.fetch o.trail r.filter = .error e) :
    o.issue? source = some ⟨o.step.id, o.index, o.trail.getLast?, e⟩ := by
  rw [Occurrence.issue?, Occurrence.failure?, node_of_error hr hf, Node.compile, Option.map_some]

lemma issue?_of_ok {o : Occurrence} {r : Reference} {f : SavedFilter}
    (hr : o.step.liveReference? = some r) (hf : source.fetch o.trail r.filter = .ok f) :
    o.issue? source = none := by
  rw [Occurrence.issue?, Occurrence.failure?, node_of_ok hr hf, Node.compile]
  rfl

/-- What a step adds to the report is its own issue and those of the occurrences below it. -/
lemma issues_eq_filterMap (o : Occurrence)
    (hin : ∀ id f, source.fetch o.trail id = .ok f →
      (source.compileWithin (o.trail ++ [id]) f.steps f.connectors).issues =
        (source.occurrencesWithin o.path (o.trail ++ [id]) 0 f.steps).filterMap
          (Occurrence.issue? source)) :
    (source.node o.trail o.step).issues o.trail.getLast? o.index =
      (o :: source.below o).filterMap (Occurrence.issue? source) := by
  obtain h | ⟨r, h, hl⟩ | ⟨r, hl⟩ := step_cases o.step
  · have hl : o.step.liveReference? = none := Step.liveReference?_of_plain h
    have hissue : o.issue? source = _ := issue?_of_plain h
    rw [issues_of_plain h, below_of_none hl]
    cases hlocal : o.step.compileLocal with
    | ok e => rw [hlocal] at hissue; rw [List.filterMap_cons_none hissue]; rfl
    | error e => rw [hlocal] at hissue; rw [List.filterMap_cons_some hissue]; rfl
  · rw [issues_of_unnamed h hl, below_of_none hl,
      List.filterMap_cons_none (issue?_of_unnamed h hl), List.filterMap_nil]
  · cases hf : source.fetch o.trail r.filter with
    | error e =>
      rw [issues_of_error hl hf, List.filterMap_cons_some (issue?_of_error hl hf),
        below_of_error hl hf, List.filterMap_nil]
    | ok f =>
      rw [issues_of_ok hl hf, hin r.filter f hf, List.filterMap_cons_none (issue?_of_ok hl hf),
        below_of_ok hl hf]

theorem compileWithin_issues (trail : Trail) (outer : List Nat) (steps : List Step)
    (connectors : List Connector) :
    (source.compileWithin trail steps connectors).issues =
      (source.occurrencesWithin outer trail 0 steps).filterMap (Occurrence.issue? source) := by
  induction trail using source.trail_induction generalizing outer steps connectors with
  | step trail ih =>
    rw [compileWithin, reportNodes_issues, unfold_eq_map, List.zipIdx_map, List.flatMap_map,
      occurrencesWithin_eq_flatMap, List.filterMap_flatMap]
    refine List.flatMap_congr fun m _ => ?_
    exact issues_eq_filterMap ⟨outer, trail, m.2, m.1⟩ fun id f hf => ih id f hf _ _ _

lemma failure?_eq_some_iff {o : Occurrence} {e : CompileError} :
    o.failure? source = some e ↔
      (o.step.reference? = none ∧ o.step.compileLocal = .error e) ∨
      ∃ r, o.step.liveReference? = some r ∧ source.fetch o.trail r.filter = .error e := by
  rw [Occurrence.failure?]
  obtain h | ⟨r, h, hl⟩ | ⟨r, hl⟩ := step_cases o.step
  · rw [node_of_plain h, Node.compile]
    cases hlocal : o.step.compileLocal <;> simp [h, Step.liveReference?_of_plain h, Except.map]
  · rw [node_of_unnamed h hl, Node.compile]
    simp [h, hl]
  · have hr := Step.reference?_of_liveReference? hl
    cases hf : source.fetch o.trail r.filter with
    | error e' =>
      rw [node_of_error hl hf, Node.compile]
      simp [hl, hr, hf]
    | ok f =>
      rw [node_of_ok hl hf, Node.compile]
      simp [hl, hr, hf]

lemma issue?_eq_none_iff {o : Occurrence} :
    o.issue? source = none ↔ o.failure? source = none := by
  rw [Occurrence.issue?, Option.map_eq_none_iff]

/-- A report accounts for every failure exactly once. A step fails by itself when it is no
reference and cannot be compiled, or when it is a named one and its filter cannot be had; the
issues are those of the occurrences that fail, in the order of the list. That list holds every
occurrence of the unfolded tree, ascending by path, hence once. So a report is clean if and
only if nothing fails at any depth, whatever becomes of the expressions around it. -/
theorem issues_eq_failures (source : FilterSource) (steps : List Step)
    (connectors : List Connector) :
    (∀ (o : Occurrence) e, o.failure? source = some e ↔
      (o.step.reference? = none ∧ o.step.compileLocal = .error e) ∨
      ∃ r, o.step.liveReference? = some r ∧ source.fetch o.trail r.filter = .error e) ∧
    (source.compileSteps steps connectors).issues =
      (source.occurrences steps).filterMap (Occurrence.issue? source) ∧
    (∀ o, o ∈ source.occurrences steps ↔ source.Occurs [] [] steps o) ∧
    ((source.occurrences steps).Pairwise fun o o' => o.path < o'.path) ∧
    ((source.compileSteps steps connectors).isClean = true ↔
      ∀ o, source.Occurs [] [] steps o → o.failure? source = none) := by
  have hissues : (source.compileSteps steps connectors).issues =
      (source.occurrences steps).filterMap (Occurrence.issue? source) :=
    compileWithin_issues [] [] steps connectors
  refine ⟨fun o e => failure?_eq_some_iff, hissues, fun o => mem_occurrences_iff,
    pairwise_path_lt [] [] steps, ?_⟩
  rw [Report.isClean, List.isEmpty_iff, hissues, List.filterMap_eq_nil_iff]
  simp only [issue?_eq_none_iff, mem_occurrences_iff]

/-- A filter that fails is referred to twice, with nothing left of it. -/
theorem issues_eq_failures_twice :
    let bad := (Step.new ⟨"x"⟩ "rb" .element).withOperator .between
    let f : SavedFilter := ⟨⟨"a"⟩, "bad", none, [bad], [], true⟩
    let source := (FilterStore.ofList [f]).source
    let s := Step.ofFilter ⟨"s"⟩ ⟨"a"⟩ "bad" true
    let issue : Issue :=
      ⟨⟨"x"⟩, 0, some ⟨"a"⟩, .unsupported (.betweenOutsideRange ⟨"x"⟩ "element")⟩
    (source.occurrences [s, s]).map Occurrence.path = [[0], [0, 0], [1], [1, 0]] ∧
      (source.compileSteps [s, s] [.or]).issues = [issue, issue] ∧
      (source.compileSteps [s, s] [.or]).expression = none := by
  intro bad f source s issue
  let r : Reference := ⟨⟨"a"⟩, none, none, true⟩
  have hs : (Step.ofFilter ⟨"s"⟩ ⟨"a"⟩ "bad" true).liveReference? = some r := rfl
  have hf : source.fetch [] r.filter = .ok f := rfl
  have hlist : source.occurrences [s, s] =
      [⟨[], [], 0, s⟩, ⟨[0], [⟨"a"⟩], 0, bad⟩, ⟨[], [], 1, s⟩, ⟨[1], [⟨"a"⟩], 0, bad⟩] := by
    have hbelow : ∀ i, source.below ⟨[], [], i, s⟩ = [⟨[i], [⟨"a"⟩], 0, bad⟩] := by
      intro i
      rw [below_of_ok hs hf, occurrencesWithin_eq_flatMap, List.zipIdx_singleton,
        List.flatMap_singleton, below_of_none (Step.liveReference?_of_plain rfl)]
      rfl
    rw [occurrences, occurrencesWithin_eq_flatMap]
    simp only [List.zipIdx_cons, List.zipIdx_nil, List.flatMap_cons, List.flatMap_nil, hbelow]
    rfl
  have hout : ∀ i, Occurrence.issue? source ⟨[], [], i, s⟩ = none := fun i => issue?_of_ok hs hf
  have hlocal : ((Step.new ⟨"x"⟩ "rb" .element).withOperator .between).compileLocal =
      .error issue.error := rfl
  have hin : ∀ i, Occurrence.issue? source ⟨[i], [⟨"a"⟩], 0, bad⟩ = some issue := by
    intro i
    rw [issue?_of_plain rfl, hlocal]
    rfl
  obtain ⟨-, hissues, -⟩ := issues_eq_failures source [s, s] [.or]
  refine ⟨by rw [hlist]; rfl, ?_, ?_⟩
  · rw [hissues, hlist, List.filterMap_cons_none (hout 0), List.filterMap_cons_some (hin 0),
      List.filterMap_cons_none (hout 1), List.filterMap_cons_some (hin 1), List.filterMap_nil]
  · have hbad : (source.node [⟨"a"⟩] bad).expression? = none := by
      rw [node_of_plain rfl, Node.expression?, Node.compile, hlocal]
      rfl
    have hnone : (source.node [] s).expression? = none := by
      rw [expression?_of_ok hs hf, compileWithin_expression_eq_none [] (by simpa [f] using hbad),
        Option.map_none]
    exact compileWithin_expression_eq_none [.or] (by simpa using hnone)

end FilterSource

end AlertFilter
