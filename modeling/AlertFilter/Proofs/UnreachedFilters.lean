import AlertFilter.Proofs.Locality
import AlertFilter.Proofs.StoreRuns

/-!
# Filters that a pipeline does not reach

Two sources that answer alike for the filters a pipeline can reach give it the same report. So no
call to a store changes what a pipeline compiles to, unless it saves or deletes one of these.
-/

namespace AlertFilter

/-- The identifier whose filter a call may change. -/
def StoreCall.target? : StoreCall → Option FilterId
  | .save fresh _ => some fresh
  | .delete id => some id
  | _ => none

namespace FilterSource

variable {source source' : FilterSource} {S : Set FilterId}

lemma AgreeOn.edge_iff (h : source.AgreeOn source' S) {a b : FilterId} (ha : a ∈ S) :
    source'.Edge a b ↔ source.Edge a b := by
  rw [Edge, Edge, h.lookup a ha]

lemma AgreeOn.symm (h : source.AgreeOn source' S) : source'.AgreeOn source S :=
  ⟨fun a ha b hab => h.closed a ha b ((h.edge_iff ha).mp hab), fun a ha => (h.lookup a ha).symm⟩

/-- A path through one source never leaves the agreement, so it is one through the other. -/
lemma AgreeOn.path (h : source.AgreeOn source' S) {a b : FilterId} (ha : a ∈ S)
    (hab : Relation.ReflTransGen source.Edge a b) :
    b ∈ S ∧ Relation.ReflTransGen source'.Edge a b := by
  induction hab with
  | refl => exact ⟨ha, .refl⟩
  | tail _ hedge ih =>
    obtain ⟨hmem, hpath⟩ := ih
    exact ⟨h.closed _ hmem _ hedge, hpath.tail ((h.edge_iff hmem).mpr hedge)⟩

lemma AgreeOn.reachable_eq (h : source.AgreeOn source' S) {steps : List Step}
    (hsteps : ∀ a, RefersTo steps a → a ∈ S) :
    source'.reachable steps = source.reachable steps := by
  ext b
  constructor
  · rintro ⟨a, ha, hab⟩
    exact ⟨a, ha, (h.symm.path (hsteps a ha) hab).2⟩
  · rintro ⟨a, ha, hab⟩
    exact ⟨a, ha, (h.path (hsteps a ha) hab).2⟩

lemma compile_congr {p : Pipeline}
    (h : ∀ a ∈ source.reachable p.steps, source'.lookup a = source.lookup a) :
    source'.compile p = source.compile p := by
  have houter : ∀ a ∈ ([] : Trail), a ∉ source.reachable p.steps :=
    fun a ha => absurd ha List.not_mem_nil
  have hcompile := (agreeOn_reachable h).compileWithin houter [] p.steps p.connectors
    fun _ => mem_reachable_of_refersTo
  rwa [Report.within_nil] at hcompile

end FilterSource

namespace FilterStore

variable {s : FilterStore} {a : FilterId}

lemma get_put_of_ne {f : SavedFilter} (h : a ≠ f.id) : (s.put f).get a = s.get a :=
  get_congr (by rw [get?_put, if_neg h])

lemma get_after_of_ne {c : StoreCall} (h : ∀ id, c.target? = some id → a ≠ id) :
    (s.after c).get a = s.get a := by
  obtain hs | ⟨fresh, d, rfl, -, hs⟩ | ⟨id, rfl, hs⟩ := s.after_cases c
  · rw [hs]
  · rw [hs, get_put_of_ne (h fresh rfl)]
  · rw [hs]
    exact get_congr (by rw [get?_erase, if_neg (h id rfl)])

lemma get_run_of_ne {calls : List StoreCall}
    (h : ∀ c ∈ calls, ∀ id, c.target? = some id → a ≠ id) : (s.run calls).get a = s.get a := by
  induction calls generalizing s with
  | nil => rfl
  | cons c rest ih =>
    calc ((s.after c).run rest).get a
        = (s.after c).get a := ih fun c' hc' => h c' (List.mem_cons_of_mem c hc')
      _ = s.get a := get_after_of_ne (h c List.mem_cons_self)

end FilterStore

/-- Compiling depends on the filters that can be reached. Two sources that answer alike, by the
same filter or by the same failure, for all that a pipeline can reach in one of them, let it reach
the same and give it the same report. So the report of a pipeline stays as it is when a filter out
of its reach is put into a store, new or in place of another one, and all along a run of calls that
save and delete only such filters. -/
theorem FilterSource.compile_depends_on_reachable (p : Pipeline) :
    (∀ source source' : FilterSource,
      (∀ a ∈ source.reachable p.steps, source'.lookup a = source.lookup a) →
      source'.reachable p.steps = source.reachable p.steps ∧
        source'.compile p = source.compile p) ∧
    ∀ s : FilterStore,
      (∀ f, f.id ∉ s.source.reachable p.steps →
        (s.put f).source.compile p = s.source.compile p) ∧
      ∀ calls : List StoreCall,
        (∀ c ∈ calls, ∀ id, c.target? = some id → id ∉ s.source.reachable p.steps) →
        (s.run calls).source.compile p = s.source.compile p := by
  refine ⟨fun source source' h => ?_, fun s => ⟨fun f hf => ?_, fun calls hcalls => ?_⟩⟩
  · have hagree := agreeOn_reachable h
    exact ⟨hagree.reachable_eq fun _ => mem_reachable_of_refersTo, compile_congr h⟩
  · refine compile_congr fun a ha => FilterStore.get_put_of_ne ?_
    rintro rfl
    exact hf ha
  · refine compile_congr fun a ha => FilterStore.get_run_of_ne fun c hc id hid => ?_
    rintro rfl
    exact hcalls c hc a hid ha

/-- A filter that only a reference without a name leads to, unreachable, deleted and replaced. -/
theorem FilterSource.compile_depends_on_reachable_unnamed :
    let loop : SavedFilter :=
      ⟨⟨"a"⟩, "loop", none, [.ofFilter ⟨"s"⟩ ⟨"a"⟩ "loop" true], [], true⟩
    let leaf : SavedFilter :=
      ⟨⟨"b"⟩, "leaf", none, [(Step.new ⟨"t"⟩ "rb" .element).withOperator .present], [], true⟩
    let draft : FilterDraft := ⟨"loop", "Filter with 1 conditions", leaf.steps, [], true⟩
    let p := Pipeline.ofParts [.ofFilter ⟨"r"⟩ ⟨"a"⟩ "loop" true, .ofFilter ⟨"u"⟩ ⟨"b"⟩ " " true] []
    let s := FilterStore.ofList [loop, leaf]
    let calls : List StoreCall := [.delete ⟨"b"⟩, .save ⟨"b"⟩ { draft with label := "twig" }, .list]
    let outage : FilterId → Option StoreError :=
      fun id => if id = ⟨"b"⟩ then some (.status 503 "down") else none
    ⟨"b"⟩ ∉ s.source.reachable p.steps ∧
      (s.source.failing outage).compile p = s.source.compile p ∧
      (s.put (draft.saved ⟨"b"⟩)).source.compile p = s.source.compile p ∧
      (s.run calls).source.compile p = s.source.compile p := by
  intro loop leaf draft p s calls outage
  have hp : ¬RefersTo p.steps ⟨"b"⟩ := by decide
  have hstored : ∀ a, ¬s.source.Edge a ⟨"b"⟩ := not_edge_of_forall (by decide)
  have hreach : ⟨"b"⟩ ∉ s.source.reachable p.steps := notMem_reachable hp hstored
  have hcalls : ∀ c ∈ calls, ∀ id, c.target? = some id → id = ⟨"b"⟩ := by
    simp [calls, StoreCall.target?]
  obtain ⟨hsources, hstores⟩ := compile_depends_on_reachable p
  obtain ⟨hput, hrun⟩ := hstores s
  refine ⟨hreach, (hsources _ _ fun a ha => ?_).2, hput _ hreach, hrun calls fun c hc id hid => ?_⟩
  · have hne : a ≠ ⟨"b"⟩ := fun he => hreach (he ▸ ha)
    simp only [failing, outage, if_neg hne]
  · exact hcalls c hc id hid ▸ hreach

end AlertFilter
