import AlertFilter.Compile.Remote
import AlertFilter.Proofs.Unfolding
import AlertFilter.Store.Memory
import Mathlib.Data.Finset.Card
import Mathlib.Data.Finset.Filter

/-!
# Unfolding terminates

A source with finitely many filters is unfolded to the end by the depth-bounded recursion
as soon as the bound exceeds the number of identifiers that resolve, whatever cycles the
filters form. The trails that occur hold each identifier at most once, all of them
resolvable, and no identifier is looked up again inside its own filter.
-/

namespace AlertFilter

mutual

/-- The look-ups made while a step is unfolded, each with the trail it is made under. -/
def Node.requests (trail : Trail) : Node → List (Trail × FilterId)
  | .plain _ | .unnamed _ => []
  | .unresolved _ (.fetch id _) => [(trail, id)]
  | .unresolved _ _ => []
  | .expanded _ r _ nodes => (trail, r.filter) :: requestsOf (trail ++ [r.filter]) nodes

def requestsOf (trail : Trail) : List Node → List (Trail × FilterId)
  | [] => []
  | node :: rest => node.requests trail ++ requestsOf trail rest

end

mutual

/-- The trails under which the filters inside a step are unfolded. -/
def Node.trails (trail : Trail) : Node → List Trail
  | .expanded _ r _ nodes => (trail ++ [r.filter]) :: trailsOf (trail ++ [r.filter]) nodes
  | _ => []

def trailsOf (trail : Trail) : List Node → List Trail
  | [] => []
  | node :: rest => node.trails trail ++ trailsOf trail rest

end

lemma requestsOf_eq_flatMap (trail : Trail) (nodes : List Node) :
    requestsOf trail nodes = nodes.flatMap (Node.requests trail) := by
  induction nodes with
  | nil => rw [requestsOf, List.flatMap_nil]
  | cons node rest ih => rw [requestsOf, ih, List.flatMap_cons]

lemma trailsOf_eq_flatMap (trail : Trail) (nodes : List Node) :
    trailsOf trail nodes = nodes.flatMap (Node.trails trail) := by
  induction nodes with
  | nil => rw [trailsOf, List.flatMap_nil]
  | cons node rest ih => rw [trailsOf, ih, List.flatMap_cons]

namespace FilterSource

variable (source : FilterSource)

def resolvable : Finset FilterId :=
  source.ids.toFinset.filter fun id => (source.lookup id).isOk = true

/-- A trail as unfolding makes it: without repetition, of identifiers that resolve. -/
structure Simple (trail : Trail) : Prop where
  nodup : trail.Nodup
  resolves : ∀ id ∈ trail, ∃ f, source.lookup id = .ok f

/-- Looks an identifier up and writes it down. -/
def recorded (id : FilterId) : StateM (List FilterId) (Except StoreError SavedFilter) := do
  modify (· ++ [id])
  return source.lookup id

variable {source}

lemma mem_resolvable {id : FilterId} :
    id ∈ source.resolvable ↔ ∃ f, source.lookup id = .ok f := by
  rw [resolvable, Finset.mem_filter, List.mem_toFinset]
  cases h : source.lookup id with
  | error e => simp [Except.isOk, Except.toBool]
  | ok f => simpa [Except.isOk, Except.toBool] using source.mem_ids h

lemma simple_nil (source : FilterSource) : source.Simple [] := ⟨List.nodup_nil, by simp⟩

lemma Simple.extended {trail : Trail} (ht : source.Simple trail) {id : FilterId}
    {f : SavedFilter} (hf : source.fetch trail id = .ok f) : source.Simple (trail ++ [id]) := by
  refine ⟨nodup_extended ht.nodup hf, fun a ha => ?_⟩
  rcases List.mem_append.mp ha with ha | ha
  · exact ht.resolves a ha
  · exact ⟨f, List.mem_singleton.mp ha ▸ (fetch_eq_ok_iff.mp hf).2⟩

/-- No filters are nested deeper than there are identifiers that resolve. -/
lemma Simple.length_le {trail : Trail} (ht : source.Simple trail) :
    trail.length ≤ source.resolvable.card := by
  rw [← List.toFinset_card_of_nodup ht.nodup]
  apply Finset.card_le_card
  intro id hid
  exact mem_resolvable.mpr (ht.resolves id (List.mem_toFinset.mp hid))

end FilterSource

/-! ### Runs that write down what they look up -/

/-- The computation ends with a result, having looked up these identifiers in order. -/
def Answers {α : Type} (x : OptionT (StateM (List FilterId)) α) (a : α)
    (asked : List FilterId) : Prop :=
  ∀ log, x.run.run log = (some a, log ++ asked)

namespace Answers

variable {α β : Type}

lemma pure (a : α) : Answers (pure a) a [] := by
  intro log
  rw [List.append_nil]
  rfl

lemma bind {x : OptionT (StateM (List FilterId)) α} {a : α} {asked : List FilterId}
    {f : α → OptionT (StateM (List FilterId)) β} {b : β} {asked' : List FilterId}
    (hx : Answers x a asked) (hf : Answers (f a) b asked') :
    Answers (x >>= f) b (asked ++ asked') := by
  intro log
  rw [← List.append_assoc, ← hf (log ++ asked)]
  simp only [OptionT.run_bind, Option.elimM, StateT.run_bind]
  rw [hx log]
  rfl

lemma map {x : OptionT (StateM (List FilterId)) α} {a : α} {asked : List FilterId}
    (f : α → β) (hx : Answers x a asked) : Answers (f <$> x) (f a) asked := by
  rw [map_eq_pure_bind, ← List.append_nil asked]
  exact hx.bind (.pure _)

lemma mapM {f : α → OptionT (StateM (List FilterId)) β} {g : α → β}
    {asked : α → List FilterId} (items : List α) (h : ∀ a ∈ items, Answers (f a) (g a) (asked a)) :
    Answers (items.mapM f) (items.map g) (items.flatMap asked) := by
  induction items with
  | nil =>
    rw [List.mapM_nil]
    exact .pure _
  | cons a rest ih =>
    have ha := h a List.mem_cons_self
    have hrest := ih fun b hb => h b (List.mem_cons_of_mem a hb)
    rw [List.mapM_cons, List.map_cons, List.flatMap_cons]
    refine ha.bind ?_
    rw [← List.append_nil (rest.flatMap asked)]
    exact hrest.bind (.pure _)

lemma lift {x : StateM (List FilterId) α} {a : α} {asked : List FilterId}
    (h : ∀ log, x.run log = (a, log ++ asked)) : Answers (liftM x) a asked := by
  intro log
  change (some <$> x).run log = _
  rw [StateT.run_map, h log]
  rfl

end Answers

namespace FilterSource

variable {source : FilterSource}

lemma fetchThrough_recorded (source : FilterSource) (trail : Trail) (id : FilterId)
    (log : List FilterId) :
    (fetchThrough source.recorded trail id).run log =
      (source.fetch trail id, log ++ if id ∈ trail then [] else [id]) := by
  unfold fetchThrough
  by_cases hid : id ∈ trail
  · rw [if_pos hid, if_pos hid, fetch_of_mem hid, List.append_nil]
    rfl
  · rw [if_neg hid, if_neg hid, fetch_of_notMem hid]
    rfl

/-- A fetch that fails leaves one request if the store was asked at all. -/
lemma requests_of_error {trail : Trail} {step : Step} {id : FilterId} {e : CompileError}
    (hf : source.fetch trail id = .error e) :
    (Node.unresolved step e).requests trail = if id ∈ trail then [] else [(trail, id)] := by
  by_cases hid : id ∈ trail
  · rw [fetch_of_mem hid] at hf
    cases hf
    rw [if_pos hid]
    rfl
  · rw [fetch_of_notMem hid] at hf
    cases hl : source.lookup id with
    | ok f => rw [hl] at hf; cases hf
    | error e' =>
      rw [hl] at hf
      cases hf
      rw [if_neg hid]
      rfl

/-- Once the bound exceeds what is left of the resolvable identifiers, the depth-bounded
recursion gives the whole node. -/
theorem unfoldThrough_recorded (depth : Nat) (trail : Trail) (step : Step)
    (ht : source.Simple trail) (hd : source.resolvable.card < depth + trail.length) :
    Answers (unfoldThrough source.recorded depth trail step) (source.node trail step)
      (((source.node trail step).requests trail).map Prod.snd) := by
  induction depth generalizing trail step with
  | zero =>
    have hle := ht.length_le
    omega
  | succ depth ih =>
    rw [unfoldThrough]
    obtain h | ⟨r, h, hl⟩ | ⟨r, hl⟩ := step_cases step
    · rw [node_of_plain h, h]
      exact .pure _
    · rw [node_of_unnamed h hl, h, hl]
      exact .pure _
    · have hfetch := Answers.lift (fetchThrough_recorded source trail r.filter)
      rw [Step.reference?_of_liveReference? hl, hl]
      cases hf : source.fetch trail r.filter with
      | error e =>
        rw [node_of_error hl hf, requests_of_error hf, apply_ite (List.map Prod.snd),
          ← List.append_nil (ite _ _ _)]
        rw [hf] at hfetch
        exact hfetch.bind (.pure _)
      | ok f =>
        have hid : r.filter ∉ trail := (fetch_eq_ok_iff.mp hf).1
        have hnodes := Answers.mapM f.steps fun s _ =>
          ih (trail ++ [r.filter]) s (ht.extended hf) (by simp; omega)
        rw [hf, if_neg hid] at hfetch
        rw [node_of_ok hl hf, Node.requests, requestsOf_eq_flatMap, List.flatMap_map,
          List.map_cons, List.map_flatMap]
        exact hfetch.bind (hnodes.map _)

/-- Every trail inside a node is simple, and no request is for an identifier on its trail. -/
theorem node_trails (trail : Trail) (ht : source.Simple trail) (step : Step) :
    (∀ t ∈ (source.node trail step).trails trail, source.Simple t) ∧
    ∀ q ∈ (source.node trail step).requests trail,
      q.2 ∉ q.1 ∧ (q.1 = trail ∨ q.1 ∈ (source.node trail step).trails trail) := by
  induction trail using source.trail_induction generalizing step with
  | step trail ih =>
    obtain h | ⟨r, h, hl⟩ | ⟨r, hl⟩ := step_cases step
    · simp [node_of_plain h, Node.trails, Node.requests]
    · simp [node_of_unnamed h hl, Node.trails, Node.requests]
    · cases hf : source.fetch trail r.filter with
      | error e =>
        rw [node_of_error hl hf, requests_of_error hf]
        refine ⟨by simp [Node.trails], fun q hq => ?_⟩
        split at hq
        · cases hq
        · next hid =>
          obtain rfl := List.mem_singleton.mp hq
          exact ⟨hid, .inl rfl⟩
      | ok f =>
        have hin := ih r.filter f hf (ht.extended hf)
        rw [node_of_ok hl hf, Node.trails, Node.requests, trailsOf_eq_flatMap,
          requestsOf_eq_flatMap, List.flatMap_map, List.flatMap_map]
        refine ⟨fun t hmem => ?_, fun q hq => ?_⟩
        · rcases List.mem_cons.mp hmem with rfl | hmem
          · exact ht.extended hf
          · obtain ⟨s, -, hs⟩ := List.mem_flatMap.mp hmem
            exact (hin s).1 t hs
        · rcases List.mem_cons.mp hq with rfl | hq
          · exact ⟨(fetch_eq_ok_iff.mp hf).1, .inl rfl⟩
          · obtain ⟨s, hs, hqs⟩ := List.mem_flatMap.mp hq
            obtain ⟨hnot, htrail⟩ := (hin s).2 q hqs
            refine ⟨hnot, .inr (List.mem_cons.mpr ?_)⟩
            exact htrail.imp id fun h => List.mem_flatMap.mpr ⟨s, hs, h⟩

/-- Unfolding ends on every reference graph: with any bound beyond the number of resolvable
identifiers the depth-bounded recursion reports on the steps, and what it looks up are the
requests of the unfolded tree. Each trail inside that tree is free of repetition and
resolvable, so it is no longer than there are resolvable identifiers, and no request is for
an identifier on the trail it is made under. -/
theorem unfolding_terminates (source : FilterSource) (steps : List Step)
    (connectors : List Connector) :
    let nodes := source.unfold [] steps
    (∀ depth, source.resolvable.card < depth → ∀ log,
      (reportNodes none connectors <$>
          steps.mapM (unfoldThrough source.recorded depth [])).run.run log =
        (some (source.compileSteps steps connectors),
          log ++ (requestsOf [] nodes).map Prod.snd)) ∧
    (∀ trail ∈ trailsOf [] nodes, trail.Nodup ∧
      (∀ id ∈ trail, ∃ f, source.lookup id = .ok f) ∧
      trail.length ≤ source.resolvable.card) ∧
    ∀ q ∈ requestsOf [] nodes, q.2 ∉ q.1 ∧ (q.1 = [] ∨ q.1 ∈ trailsOf [] nodes) := by
  intro nodes
  have hnodes : nodes = steps.map (source.node []) := source.unfold_eq_map [] steps
  refine ⟨fun depth hdepth => ?_, fun trail htrail => ?_, fun q hq => ?_⟩
  · have hrun := Answers.mapM steps fun s _ =>
      unfoldThrough_recorded depth [] s source.simple_nil (by simpa using hdepth)
    have hreport := hrun.map (reportNodes none connectors)
    rw [← hnodes] at hreport
    rw [hnodes, requestsOf_eq_flatMap, List.flatMap_map, List.map_flatMap]
    exact hreport
  · rw [hnodes, trailsOf_eq_flatMap, List.flatMap_map] at htrail
    obtain ⟨s, -, hs⟩ := List.mem_flatMap.mp htrail
    have hsimple := (node_trails [] source.simple_nil s).1 trail hs
    exact ⟨hsimple.nodup, hsimple.resolves, hsimple.length_le⟩
  · rw [hnodes, requestsOf_eq_flatMap, List.flatMap_map] at hq
    rw [hnodes, trailsOf_eq_flatMap, List.flatMap_map]
    obtain ⟨s, hs, hqs⟩ := List.mem_flatMap.mp hq
    obtain ⟨hnot, htrail⟩ := (node_trails [] source.simple_nil s).2 q hqs
    exact ⟨hnot, htrail.imp id fun h => List.mem_flatMap.mpr ⟨s, hs, h⟩⟩

/-- A filter that refers to itself is looked up once and then left alone. -/
theorem unfolding_terminates_self_reference :
    let loop : SavedFilter :=
      ⟨⟨"a"⟩, "loop", none, [.ofFilter ⟨"s"⟩ ⟨"a"⟩ "loop" true], [], true⟩
    let source := (FilterStore.ofList [loop]).source
    let steps := [Step.ofFilter ⟨"t"⟩ ⟨"a"⟩ "loop" true]
    source.resolvable.card < 2 ∧
      (reportNodes none [] <$>
          steps.mapM (unfoldThrough source.recorded 2 [])).run.run [] =
        (some (source.compileSteps steps []), [⟨"a"⟩]) := by
  intro loop source steps
  have hcard : source.resolvable.card < 2 := by decide
  have hsteps : requestsOf [] (source.unfold [] steps) = [([], ⟨"a"⟩)] := by
    have hin : source.node [⟨"a"⟩] (.ofFilter ⟨"s"⟩ ⟨"a"⟩ "loop" true) =
        .unresolved (.ofFilter ⟨"s"⟩ ⟨"a"⟩ "loop" true) (.cyclic [⟨"a"⟩, ⟨"a"⟩]) :=
      node_of_error (r := ⟨⟨"a"⟩, none, none, true⟩) rfl rfl
    rw [unfold_eq_map, List.map_singleton,
      node_of_ok (r := ⟨⟨"a"⟩, none, none, true⟩) (f := loop) rfl rfl]
    simp [requestsOf, Node.requests, loop, hin]
  have hrun := (unfolding_terminates source steps []).1 2 hcard []
  rw [hsteps] at hrun
  exact ⟨hcard, hrun⟩

end FilterSource

end AlertFilter
