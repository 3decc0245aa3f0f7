import AlertFilter.Proofs.Unfolding
import AlertFilter.Store.Memory
import Mathlib.Data.List.Chain
import Mathlib.Data.List.Nodup
import Mathlib.Logic.Relation

/-!
# Cycles among saved filters

A report names a cycle exactly when one can be reached from the pipeline by references
that have a name. The chain of such an issue is a walk through the reference graph, from a
reference of the pipeline itself to the first filter that is entered again.
-/

namespace AlertFilter

lemma transGen_of_isChain {α : Type} {R : α → α → Prop} {a b : α} {between : List α}
    (h : (a :: (between ++ [b])).IsChain R) : Relation.TransGen R a b := by
  obtain ⟨c, rest, hc⟩ := List.exists_cons_of_ne_nil (List.concat_ne_nil b between)
  rw [hc, List.isChain_cons_cons] at h
  have hlast : (c :: rest).getLast (List.cons_ne_nil _ _) = b := by simp [← hc]
  exact .head' h.1 (List.relationReflTransGen_of_exists_isChain_cons rest h.2 hlast)

namespace FilterSource

/-- From this filter a cycle can be reached. -/
def ReachesCycle (source : FilterSource) (a : FilterId) : Prop :=
  ∃ b, Relation.ReflTransGen source.Edge a b ∧ Relation.TransGen source.Edge b b

/-- A walk along references that begins at one of the given steps. -/
structure WalkFrom (source : FilterSource) (roots : List Step) (chain : List FilterId) :
    Prop where
  edges : chain.IsChain source.Edge
  starts : ∃ a, chain.head? = some a ∧ RefersTo roots a

/-- A trail that has led from the given steps to those that are unfolded now. -/
structure LeadsTo (source : FilterSource) (roots : List Step) (trail : Trail)
    (steps : List Step) : Prop where
  nodup : trail.Nodup
  walk : ∀ id, RefersTo steps id → source.WalkFrom roots (trail ++ [id])

variable {source : FilterSource}

lemma ReachesCycle.exists_edge {a : FilterId} (h : source.ReachesCycle a) :
    ∃ a', source.Edge a a' ∧ source.ReachesCycle a' := by
  obtain ⟨b, hab, hbb⟩ := h
  rcases Relation.ReflTransGen.cases_head hab with rfl | ⟨a', haa', hab⟩
  · obtain ⟨c, hac, hca⟩ := Relation.TransGen.head'_iff.mp hbb
    exact ⟨c, hac, a, hca, hbb⟩
  · exact ⟨a', haa', b, hab, hbb⟩

lemma leadsTo_nil (source : FilterSource) (steps : List Step) :
    source.LeadsTo steps [] steps := by
  refine ⟨List.nodup_nil, fun id hid => ⟨?_, id, rfl, hid⟩⟩
  exact .singleton id

lemma LeadsTo.extended {roots steps : List Step} {trail : Trail}
    (h : source.LeadsTo roots trail steps) {id : FilterId} {f : SavedFilter}
    (hid : RefersTo steps id) (hf : source.fetch trail id = .ok f) :
    source.LeadsTo roots (trail ++ [id]) f.steps := by
  refine ⟨nodup_extended h.nodup hf, fun b hb => ?_⟩
  obtain ⟨hedges, a, ha, hroot⟩ := h.walk id hid
  refine ⟨?_, a, ?_, hroot⟩
  · rw [List.isChain_append]
    refine ⟨hedges, .singleton b, ?_⟩
    intro x hx y hy
    rw [List.getLast?_concat, Option.mem_some_iff] at hx
    rw [List.head?_cons, Option.mem_some_iff] at hy
    subst hx hy
    exact ⟨f, (fetch_eq_ok_iff.mp hf).2, hb⟩
  · rw [List.head?_append, ha, Option.some_or]

/-- A chain that has led back to a filter already entered, reported inside the last one. -/
structure Closes (source : FilterSource) (roots : List Step) (filter : Option FilterId)
    (chain : List FilterId) : Prop where
  walk : source.WalkFrom roots chain
  returns : ∃ trail id, chain = trail ++ [id] ∧ trail.Nodup ∧ id ∈ trail ∧
    filter = trail.getLast?

/-- Every cycle that is reported, at any depth, is one that the trail has walked into. -/
theorem closes_of_mem_issues {roots : List Step} (trail : Trail) {steps : List Step}
    {connectors : List Connector} (ht : source.LeadsTo roots trail steps) {i : Issue}
    (hi : i ∈ (source.compileWithin trail steps connectors).issues) {chain : List FilterId}
    (hc : i.error = .cyclic chain) : source.Closes roots i.filter chain := by
  induction trail using source.trail_induction generalizing steps connectors with
  | step trail ih =>
    obtain ⟨k, s, hs, hi⟩ := mem_issues_iff.mp hi
    have hrefers : ∀ r, s.liveReference? = some r → RefersTo steps r.filter :=
      fun r hl => ⟨s, List.mem_of_getElem? hs, r, hl, rfl⟩
    obtain ⟨e, rfl, ⟨-, hlocal⟩ | ⟨r, hl, hf⟩⟩ | ⟨r, f, hl, hf, hi⟩ := mem_issues_cases hi
    · obtain rfl : e = .cyclic chain := hc
      rcases compileLocal_error hlocal with ⟨c, hcoercion⟩ | ⟨u, hunsupported⟩
      · cases hcoercion
      · cases hunsupported
    · obtain rfl : e = .cyclic chain := hc
      obtain ⟨hmem, rfl⟩ := fetch_eq_cyclic_iff.mp hf
      exact ⟨ht.walk _ (hrefers r hl), trail, r.filter, rfl, ht.nodup, hmem, rfl⟩
    · exact ih r.filter f hf (ht.extended (hrefers r hl) hf) hi

/-- A cycle that can be reached is reported, whatever the trail so far. -/
theorem exists_cyclic_issue (trail : Trail) {steps : List Step} {connectors : List Connector}
    {a : FilterId} (ha : RefersTo steps a) (hcycle : source.ReachesCycle a) :
    ∃ i ∈ (source.compileWithin trail steps connectors).issues,
      ∃ chain, i.error = .cyclic chain := by
  induction trail using source.trail_induction generalizing steps connectors a with
  | step trail ih =>
    obtain ⟨s, hs, r, hl, rfl⟩ := ha
    obtain ⟨k, hk⟩ := List.mem_iff_getElem?.mp hs
    by_cases hmem : r.filter ∈ trail
    · refine ⟨⟨s.id, k, trail.getLast?, .cyclic (trail ++ [r.filter])⟩,
        mem_issues_iff.mpr ⟨k, s, hk, ?_⟩, _, rfl⟩
      rw [issues_of_error hl (fetch_of_mem hmem)]
      exact List.mem_singleton_self _
    · obtain ⟨a', ⟨f, hlookup, hrefers⟩, hcycle'⟩ := hcycle.exists_edge
      have hf := fetch_eq_ok_iff.mpr ⟨hmem, hlookup⟩
      obtain ⟨i, hi, hc⟩ :
          ∃ i ∈ (source.compileWithin (trail ++ [r.filter]) f.steps f.connectors).issues,
            ∃ chain, i.error = .cyclic chain := ih r.filter f hf hrefers hcycle'
      refine ⟨i, mem_issues_iff.mpr ⟨k, s, hk, ?_⟩, hc⟩
      rw [issues_of_ok hl hf]
      exact hi

lemma Closes.transGen {roots : List Step} {filter : Option FilterId} {chain : List FilterId}
    {id : FilterId} (h : source.Closes roots filter chain) (hid : chain.getLast? = some id) :
    Relation.TransGen source.Edge id id := by
  obtain ⟨⟨hedges, -⟩, trail, last, rfl, -, hmem, -⟩ := h
  rw [List.getLast?_concat, Option.some_inj] at hid
  subst hid
  obtain ⟨before, between, rfl⟩ := List.append_of_mem hmem
  rw [List.append_assoc] at hedges
  exact transGen_of_isChain hedges.right_of_append

lemma Closes.reachesCycle {roots : List Step} {filter : Option FilterId}
    {chain : List FilterId} (h : source.Closes roots filter chain) :
    ∃ a, RefersTo roots a ∧ source.ReachesCycle a := by
  have hcycle : ∀ id, chain.getLast? = some id → Relation.TransGen source.Edge id id :=
    fun _ hid => h.transGen hid
  obtain ⟨⟨hedges, a, ha, hroot⟩, trail, id, rfl, -⟩ := h
  have hne : trail ++ [id] ≠ [] := by simp
  have hwalk := List.relationReflTransGen_of_exists_isChain _ hedges hne
  rw [List.head?_eq_some_head hne, Option.some_inj] at ha
  rw [ha, List.getLast_concat] at hwalk
  exact ⟨a, hroot, id, hwalk, hcycle id List.getLast?_concat⟩

/-- Reporting cycles is sound and complete: there is such an issue exactly when a cycle of
the reference graph can be reached from a named reference of the pipeline. Its chain is a
walk from such a reference, free of repetition up to its last filter, which occurs once
before; it is reported inside the last but one. So no filter is named as the end of a
chain that cannot be reached from itself. -/
theorem cyclic_issues (source : FilterSource) (p : Pipeline) :
    ((∃ i ∈ (source.compile p).issues, ∃ chain, i.error = .cyclic chain) ↔
      ∃ a b, RefersTo p.steps a ∧ Relation.ReflTransGen source.Edge a b ∧
        Relation.TransGen source.Edge b b) ∧
    (∀ i ∈ (source.compile p).issues, ∀ chain, i.error = .cyclic chain →
      (∃ a, chain.head? = some a ∧ RefersTo p.steps a) ∧
      chain.IsChain source.Edge ∧
      ∃ trail id, chain = trail ++ [id] ∧ trail.Nodup ∧ trail.count id = 1 ∧
        i.filter = trail.getLast?) ∧
    ∀ id, ¬Relation.TransGen source.Edge id id → ∀ i ∈ (source.compile p).issues,
      ∀ chain, i.error = .cyclic chain → chain.getLast? ≠ some id := by
  have hcloses : ∀ i ∈ (source.compile p).issues, ∀ chain, i.error = .cyclic chain →
      source.Closes p.steps i.filter chain := fun i hi chain hc =>
    closes_of_mem_issues [] (leadsTo_nil source p.steps) hi hc
  refine ⟨⟨?_, ?_⟩, fun i hi chain hc => ?_, fun id hid i hi chain hc hlast => ?_⟩
  · rintro ⟨i, hi, chain, hc⟩
    obtain ⟨a, ha, b, hab, hbb⟩ := (hcloses i hi chain hc).reachesCycle
    exact ⟨a, b, ha, hab, hbb⟩
  · rintro ⟨a, b, ha, hab, hbb⟩
    exact exists_cyclic_issue [] ha ⟨b, hab, hbb⟩
  · obtain ⟨⟨hedges, hstarts⟩, trail, id, hchain, hnodup, hmem, hfilter⟩ := hcloses i hi chain hc
    have hcount : trail.count id = 1 := List.nodup_iff_count_eq_one.mp hnodup id hmem
    exact ⟨hstarts, hedges, trail, id, hchain, hnodup, hcount, hfilter⟩
  · exact hid ((hcloses i hi chain hc).transGen hlast)

/-- Two filters that refer to each other. -/
theorem cyclic_issues_mutual :
    let first : SavedFilter :=
      ⟨⟨"a"⟩, "first", none, [.ofFilter ⟨"s"⟩ ⟨"b"⟩ "second" true], [], true⟩
    let second : SavedFilter :=
      ⟨⟨"b"⟩, "second", none, [.ofFilter ⟨"t"⟩ ⟨"a"⟩ "first" true], [], true⟩
    let source := (FilterStore.ofList [first, second]).source
    let p := Pipeline.ofParts [.ofFilter ⟨"r"⟩ ⟨"a"⟩ "first" true] []
    RefersTo p.steps ⟨"a"⟩ ∧ source.Edge ⟨"a"⟩ ⟨"b"⟩ ∧ source.Edge ⟨"b"⟩ ⟨"a"⟩ ∧
      ∃ i ∈ (source.compile p).issues, ∃ chain, i.error = .cyclic chain ∧
        chain.IsChain source.Edge := by
  intro first second source p
  have hroot : RefersTo p.steps ⟨"a"⟩ :=
    ⟨_, List.mem_singleton_self _, ⟨⟨"a"⟩, none, none, true⟩, rfl, rfl⟩
  have hab : source.Edge ⟨"a"⟩ ⟨"b"⟩ :=
    ⟨first, rfl, _, List.mem_singleton_self _, ⟨⟨"b"⟩, none, none, true⟩, rfl, rfl⟩
  have hba : source.Edge ⟨"b"⟩ ⟨"a"⟩ :=
    ⟨second, rfl, _, List.mem_singleton_self _, ⟨⟨"a"⟩, none, none, true⟩, rfl, rfl⟩
  obtain ⟨hiff, hchains, -⟩ := cyclic_issues source p
  obtain ⟨i, hi, chain, hc⟩ := hiff.mpr ⟨_, _, hroot, .refl, .head hab (.single hba)⟩
  exact ⟨hroot, hab, hba, i, hi, chain, hc, (hchains i hi chain hc).2.1⟩

end FilterSource

end AlertFilter
