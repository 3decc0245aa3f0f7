import AlertFilter.Proofs.Links
import AlertFilter.Store.Memory
import Mathlib.Data.Set.Basic
import Mathlib.Logic.Relation

/-!
# What a compilation depends on

Compiling reads a source at the filters that can be reached from the steps, and the trail
only to see whether one of them is entered again. Two runs over sources that agree on the
reachable filters give one report, up to the filters that enclose all of the steps.
-/

namespace AlertFilter

/-- An error as it is reported inside the filters of a trail. -/
def CompileError.within (trail : Trail) : CompileError → CompileError
  | .cyclic chain => .cyclic (trail ++ chain)
  | e => e

/-- An issue as it is reported inside the filters of a trail: an outermost step belongs to
the last of them, and a chain begins with all of them. -/
def Issue.within (trail : Trail) (i : Issue) : Issue :=
  { i with filter := i.filter.or trail.getLast?, error := i.error.within trail }

def Report.within (trail : Trail) (r : Report) : Report :=
  ⟨r.expression, r.issues.map (Issue.within trail)⟩

lemma Issue.within_mk (outer trail : Trail) (id : StepId) (k : Nat) (e : CompileError) :
    (Issue.mk id k trail.getLast? e).within outer =
      ⟨id, k, (outer ++ trail).getLast?, e.within outer⟩ := by
  rw [Issue.within, List.getLast?_append]

@[simp] lemma Report.within_nil (r : Report) : r.within [] = r := by
  have hissue : Issue.within [] = id := by
    funext ⟨stepId, k, filter, e⟩
    cases filter <;> cases e <;> rfl
  rw [within, hissue, List.map_id]

namespace FilterSource

/-- The filters that can be reached from some steps. -/
def reachable (source : FilterSource) (steps : List Step) : Set FilterId :=
  {b | ∃ a, RefersTo steps a ∧ Relation.ReflTransGen source.Edge a b}

/-- Two sources answer alike for filters among which every reference stays. -/
structure AgreeOn (source source' : FilterSource) (S : Set FilterId) : Prop where
  closed : ∀ a ∈ S, ∀ b, source.Edge a b → b ∈ S
  lookup : ∀ a ∈ S, source'.lookup a = source.lookup a

variable {source source' : FilterSource} {S : Set FilterId}

lemma mem_reachable_of_refersTo {steps : List Step} {a : FilterId} (h : RefersTo steps a) :
    a ∈ source.reachable steps :=
  ⟨a, h, .refl⟩

/-- What nothing refers to cannot be reached. -/
lemma notMem_reachable {steps : List Step} {id : FilterId} (hsteps : ¬RefersTo steps id)
    (hstored : ∀ a, ¬source.Edge a id) : id ∉ source.reachable steps := by
  rintro ⟨a, ha, hpath⟩
  cases hpath with
  | refl => exact hsteps ha
  | tail _ hlast => exact hstored _ hlast

/-- In a store, what none of its filters refers to is not referred to. -/
lemma not_edge_of_forall {store : FilterStore} {id : FilterId}
    (h : ∀ f ∈ store.filters, ¬RefersTo f.steps id) (a : FilterId) : ¬store.source.Edge a id := by
  rintro ⟨f, hf, hrefers⟩
  exact h f (FilterStore.mem_of_get hf).1 hrefers

/-- From the steps of a filter those filters can be reached that it leads to itself. -/
lemma mem_reachable_iff_transGen {a b : FilterId} {f : SavedFilter}
    (hf : source.lookup a = .ok f) :
    b ∈ source.reachable f.steps ↔ Relation.TransGen source.Edge a b := by
  have hedge : ∀ c, source.Edge a c ↔ RefersTo f.steps c := by
    intro c
    simp only [Edge, hf, Except.ok.injEq]
    exact exists_eq_left'
  rw [Relation.TransGen.head'_iff]
  simp only [hedge]
  rfl

lemma agreeOn_reachable {steps : List Step}
    (h : ∀ a ∈ source.reachable steps, source'.lookup a = source.lookup a) :
    source.AgreeOn source' (source.reachable steps) := by
  refine ⟨?_, h⟩
  rintro b ⟨a, ha, hab⟩ c hbc
  exact ⟨a, ha, hab.tail hbc⟩

/-- A fetch inside more filters, none of which is asked for, finds the same. -/
lemma AgreeOn.fetch (h : source.AgreeOn source' S) {outer : Trail} (trail : Trail)
    {id : FilterId} (hid : id ∈ S) (houter : ∀ a ∈ outer, a ∉ S) :
    source'.fetch (outer ++ trail) id =
      (source.fetch trail id).mapError (CompileError.within outer) := by
  have hnot : id ∉ outer := fun hmem => houter id hmem hid
  by_cases hmem : id ∈ trail
  · rw [fetch_of_mem hmem, fetch_of_mem (List.mem_append_right outer hmem), List.append_assoc]
    rfl
  · have happ : id ∉ outer ++ trail := by simp [hnot, hmem]
    rw [fetch_of_notMem hmem, fetch_of_notMem happ, h.lookup id hid]
    cases source.lookup id <;> rfl

/-- A step inside more filters, none of which it reaches: the same expression, and the same
issues seen from further out. -/
lemma AgreeOn.node (h : source.AgreeOn source' S) {outer trail : Trail}
    (houter : ∀ a ∈ outer, a ∉ S) {s : Step} (hs : ∀ r, s.liveReference? = some r → r.filter ∈ S)
    (hin : ∀ id f, id ∈ S → source.fetch trail id = .ok f →
      source'.compileWithin (outer ++ (trail ++ [id])) f.steps f.connectors =
        (source.compileWithin (trail ++ [id]) f.steps f.connectors).within outer) :
    (source'.node (outer ++ trail) s).expression? = (source.node trail s).expression? ∧
      ∀ k, (source'.node (outer ++ trail) s).issues (outer ++ trail).getLast? k =
        ((source.node trail s).issues trail.getLast? k).map (Issue.within outer) := by
  obtain hr | ⟨r, hr, hl⟩ | ⟨r, hl⟩ := step_cases s
  · refine ⟨by rw [node_of_plain hr, node_of_plain hr], fun k => ?_⟩
    rw [issues_of_plain hr, issues_of_plain hr]
    cases hlocal : s.compileLocal with
    | ok e => rfl
    | error e =>
      rw [List.map_singleton, Issue.within_mk]
      rcases compileLocal_error hlocal with ⟨c, rfl⟩ | ⟨u, rfl⟩ <;> rfl
  · refine ⟨by rw [node_of_unnamed hr hl, node_of_unnamed hr hl], fun k => ?_⟩
    rw [issues_of_unnamed hr hl, issues_of_unnamed hr hl, List.map_nil]
  · have hfetch := h.fetch trail (hs r hl) houter
    cases hf : source.fetch trail r.filter with
    | error e =>
      rw [hf, Except.mapError] at hfetch
      refine ⟨by rw [node_of_error hl hfetch, node_of_error hl hf]; rfl, fun k => ?_⟩
      rw [issues_of_error hl hfetch, issues_of_error hl hf, List.map_singleton, Issue.within_mk]
    | ok f =>
      rw [hf, Except.mapError] at hfetch
      have hnested := hin r.filter f (hs r hl) hf
      refine ⟨?_, fun k => ?_⟩
      · rw [expression?_of_ok hl hfetch, expression?_of_ok hl hf, List.append_assoc, hnested,
          Report.within]
      · rw [issues_of_ok hl hfetch, issues_of_ok hl hf, List.append_assoc, hnested,
          Report.within]

/-- Steps inside more filters, none of which they reach, give the same report seen from
further out. -/
theorem AgreeOn.compileWithin (h : source.AgreeOn source' S) {outer : Trail}
    (houter : ∀ a ∈ outer, a ∉ S) (trail : Trail) (steps : List Step)
    (connectors : List Connector) (hsteps : ∀ id, RefersTo steps id → id ∈ S) :
    source'.compileWithin (outer ++ trail) steps connectors =
      (source.compileWithin trail steps connectors).within outer := by
  induction trail using source.trail_induction generalizing steps connectors with
  | step trail ih =>
    have hnode : ∀ s ∈ steps,
        (source'.node (outer ++ trail) s).expression? = (source.node trail s).expression? ∧
        ∀ k, (source'.node (outer ++ trail) s).issues (outer ++ trail).getLast? k =
          ((source.node trail s).issues trail.getLast? k).map (Issue.within outer) := by
      intro s hs
      refine h.node houter (fun r hl => hsteps _ ⟨s, hs, r, hl, rfl⟩) fun id f hid hf => ?_
      refine ih id f hf f.steps f.connectors fun b hb => h.closed id hid b ?_
      exact ⟨f, (fetch_eq_ok_iff.mp hf).2, hb⟩
    have hmap := compileWithin_map connectors id (Issue.within outer)
      (fun s hs => (hnode s hs).1) fun s hs => (hnode s hs).2
    rwa [List.map_id] at hmap

theorem compileWithin_eq_within {source : FilterSource} {trail : Trail} {steps : List Step}
    (connectors : List Connector) (h : ∀ id ∈ trail, id ∉ source.reachable steps) :
    source.compileWithin trail steps connectors =
      (source.compileSteps steps connectors).within trail := by
  have hagree : source.AgreeOn source (source.reachable steps) :=
    agreeOn_reachable fun _ _ => rfl
  have hwithin := hagree.compileWithin h [] steps connectors fun _ => mem_reachable_of_refersTo
  rwa [List.append_nil] at hwithin

lemma wrap_of_none {r : Reference} (h : r.parentOperator = none) (e : Expression) :
    r.wrap e = e := by
  rw [Reference.wrap, h]

/-- Expansion is compositional: a trail matters for cycles only. Steps that reach none of the
filters around them compile to the same expression as on their own, and to the same issues,
but that the outermost steps belong to the last of those filters and that every chain begins
with all of them. So a named reference that compares with nothing compiles to what the steps
of its filter compile to on their own, unless that filter reaches itself. -/
theorem expansion_compositional (source : FilterSource) :
    (∀ (trail : Trail) (steps : List Step) (connectors : List Connector),
      (∀ id ∈ trail, id ∉ source.reachable steps) →
      (source.compileWithin trail steps connectors).expression =
          (source.compileSteps steps connectors).expression ∧
        (source.compileWithin trail steps connectors).issues =
          (source.compileSteps steps connectors).issues.map (Issue.within trail)) ∧
    ∀ (s : Step) (r : Reference) (f : SavedFilter), s.liveReference? = some r →
      r.parentOperator = none → source.lookup r.filter = .ok f →
      ¬Relation.TransGen source.Edge r.filter r.filter →
      source.compileStep s = (source.compileSteps f.steps f.connectors).expression := by
  refine ⟨fun trail steps connectors h => ?_, fun s r f hs ho hf hself => ?_⟩
  · rw [compileWithin_eq_within connectors h]
    exact ⟨rfl, rfl⟩
  · have hfetch : source.fetch [] r.filter = .ok f :=
      fetch_eq_ok_iff.mpr ⟨List.not_mem_nil, hf⟩
    have hreach : ∀ id ∈ [r.filter], id ∉ source.reachable f.steps := by
      intro id hid
      obtain rfl := List.mem_singleton.mp hid
      rwa [mem_reachable_iff_transGen hf]
    have hwrap : r.wrap = id := funext (wrap_of_none ho)
    rw [compileStep_eq, expression?_of_ok hs hfetch, List.nil_append,
      compileWithin_eq_within f.connectors hreach, hwrap, Option.map_id]
    rfl

/-- A filter that refers to itself, compiled inside another one, and a filter that does not. -/
theorem expansion_compositional_loop :
    let loop : SavedFilter :=
      ⟨⟨"a"⟩, "loop", none, [.ofFilter ⟨"s"⟩ ⟨"a"⟩ "loop" true], [], true⟩
    let leaf : SavedFilter :=
      ⟨⟨"b"⟩, "leaf", none, [(Step.new ⟨"t"⟩ "rb" .element).withOperator .present], [], true⟩
    let source := (FilterStore.ofList [loop, leaf]).source
    let outer : Trail := [⟨"b"⟩]
    ⟨"b"⟩ ∉ source.reachable loop.steps ∧
      (source.compileWithin outer loop.steps []).issues =
        (source.compileSteps loop.steps []).issues.map (Issue.within outer) ∧
      ¬Relation.TransGen source.Edge ⟨"b"⟩ ⟨"b"⟩ ∧
      source.compileStep (.ofFilter ⟨"u"⟩ ⟨"b"⟩ "leaf" true) =
        (source.compileSteps leaf.steps []).expression := by
  intro loop leaf source outer
  have hloop : ¬RefersTo loop.steps ⟨"b"⟩ := by decide
  have hstored : ∀ a, ¬source.Edge a ⟨"b"⟩ := not_edge_of_forall (by decide)
  have hreach : ⟨"b"⟩ ∉ source.reachable loop.steps := notMem_reachable hloop hstored
  have hself : ¬Relation.TransGen source.Edge ⟨"b"⟩ ⟨"b"⟩ := by
    intro h
    obtain ⟨c, -, hlast⟩ := Relation.TransGen.tail'_iff.mp h
    exact hstored c hlast
  obtain ⟨hinside, hreference⟩ := expansion_compositional source
  have hissues := (hinside outer loop.steps [] fun id hid => ?_).2
  · exact ⟨hreach, hissues, hself,
      hreference _ ⟨⟨"b"⟩, none, none, true⟩ leaf rfl rfl rfl hself⟩
  · exact List.mem_singleton.mp hid ▸ hreach

end FilterSource

end AlertFilter
