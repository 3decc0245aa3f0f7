import AlertFilter.Proofs.Links

/-!
# Neighbours

Two steps that are neighbours before an edit and after it are joined by the same connector. A step
keeps the connector before it: an inserted step brings one along, AND, and a removed step takes its
own away. So only the step that is first, which has no connector before it, is left to look at.
-/

namespace AlertFilter

variable {α : Type}

/-- Where the item at place `j` of a row stands in the row with one more item at place `c`. -/
def placeAround (c j : Nat) : Nat := if j < c then j else j + 1

lemma getElem?_insertIdx_placeAround (row : List α) (c j : Nat) (a : α) :
    (row.insertIdx c a)[placeAround c j]? = row[j]? := by
  rw [placeAround]
  split
  · next h => exact List.getElem?_insertIdx_of_lt h
  · next h => exact List.getElem?_insertIdx_of_gt (by omega)

lemma getElem?_eraseIdx_placeAround (row : List α) (c j : Nat) :
    (row.eraseIdx c)[j]? = row[placeAround c j]? := by
  rw [List.getElem?_eraseIdx, placeAround]
  split <;> rfl

namespace Pipeline

lemma link_insertStep (p : Pipeline) (k : Nat) (s : Step) :
    (p.insertStep k s).links[min k p.length]? = some (.and, s) := by
  rw [links_insertStep]
  exact List.getElem?_insertIdx_self.trans (if_pos (min_le_length_links p k))

/-- Every other step keeps its link. -/
lemma link_insertStep_placeAround (p : Pipeline) (k : Nat) (s : Step) (j : Nat) :
    (p.insertStep k s).links[placeAround (min k p.length) j]? = p.links[j]? := by
  rw [links_insertStep]
  exact getElem?_insertIdx_placeAround _ _ _ _

/-- The step that is pushed back by the inserted one keeps its connector, also if it was first. -/
lemma connector_behind_insertStep (p : Pipeline) (k : Nat) (s : Step) :
    (p.insertStep k s).connectors[min k p.length]? = p.links[min k p.length]?.map Prod.fst := by
  have hplace : placeAround (min k p.length) (min k p.length) = min k p.length + 1 :=
    if_neg (Nat.lt_irrefl _)
  rw [connectors_eq_links, ← hplace, link_insertStep_placeAround]

theorem removeStep_insertStep (p : Pipeline) (k : Nat) (s : Step) :
    (p.insertStep k s).removeStep (min k p.length) = p := by
  have hlt : min k p.length < (p.insertStep k s).links.length :=
    (List.getElem?_eq_some_iff.mp (link_insertStep p k s)).1
  rw [length_links] at hlt
  apply links_injective
  rw [links_removeStep _ hlt, links_insertStep]
  exact (congrArg resetHead (List.eraseIdx_insertIdx_self _)).trans (resetHead_links p)

variable {p : Pipeline}

lemma step?_removeStep {i : Nat} (h : i < p.length) (j : Nat) :
    (p.removeStep i).step? j = p.step? (placeAround i j) := by
  rw [step?_eq_links, links_removeStep p h, getElem?_resetHead, getElem?_eraseIdx_placeAround,
    Option.map_map, step?_eq_links]
  rfl

/-- A step that does not become the first one keeps the connector before it. -/
lemma connectors_removeStep {i : Nat} (h : i < p.length) (j : Nat) :
    (p.removeStep i).connectors[j]? = p.links[placeAround i (j + 1)]?.map Prod.fst := by
  rw [connectors_eq_links, links_removeStep p h, getElem?_resetHead,
    getElem?_eraseIdx_placeAround, Option.map_map]
  rfl

/-- Both edits at any place of any pipeline. All steps but the one that comes or goes are there
before and after, in the same order, and two of them that are neighbours both times are joined
alike. An inserted step is joined by AND to its left neighbour, or to its right one if it is first;
between two others it leaves the right one with the connector that joined these two. The neighbours
of a removed step are joined by the connector that was on its right. Removing the inserted step
gives back the pipeline. -/
theorem neighbours_stay_joined (p : Pipeline) :
    (∀ k s, let c := min k p.length
      let q := p.insertStep k s
      q.step? c = some s ∧
      (∀ j, q.step? (placeAround c j) = p.step? j) ∧
      (∀ j, placeAround c (j + 1) = placeAround c j + 1 →
        q.connectors[placeAround c j]? = p.connectors[j]?) ∧
      (0 < c → q.connectors[c - 1]? = some .and) ∧
      (c = 0 → 0 < p.length → q.connectors[0]? = some .and) ∧
      (0 < c → c < p.length → q.connectors[c]? = p.connectors[c - 1]?) ∧
      q.removeStep c = p) ∧
    ∀ i < p.length, let q := p.removeStep i
      (∀ j, q.step? j = p.step? (placeAround i j)) ∧
      (∀ j, placeAround i (j + 1) = placeAround i j + 1 →
        q.connectors[j]? = p.connectors[placeAround i j]?) ∧
      (0 < i → q.connectors[i - 1]? = p.connectors[i]?) := by
  constructor
  · intro k s c q
    refine ⟨?_, fun j => ?_, fun j hj => ?_, fun hc => ?_, fun hc hp => ?_, fun hc _ => ?_,
      removeStep_insertStep p k s⟩
    · rw [step?_eq_links, link_insertStep]
      rfl
    · rw [step?_eq_links, link_insertStep_placeAround, step?_eq_links]
    · rw [connectors_eq_links, ← hj, link_insertStep_placeAround, connectors_eq_links]
    · have hlink : q.links[c - 1 + 1]? = some (.and, s) := by
        rw [Nat.sub_add_cancel hc]
        exact link_insertStep p k s
      rw [connectors_eq_links, hlink]
      rfl
    · have hfirst : p.links[0]? = some (.and, p.steps[0]) := by
        rw [links, getElem?_linkAll, List.getElem?_eq_getElem hp]
        rfl
      have hbehind := connector_behind_insertStep p k s
      rw [show min k p.length = 0 from hc, hfirst] at hbehind
      exact hbehind
    · have hbefore := connectors_eq_links p (c - 1)
      rw [Nat.sub_add_cancel hc] at hbefore
      exact (connector_behind_insertStep p k s).trans hbefore.symm
  · intro i hi q
    refine ⟨step?_removeStep hi, fun j hj => ?_, fun hpos => ?_⟩
    · rw [connectors_removeStep hi, hj, connectors_eq_links]
    · have hplace : placeAround i (i - 1 + 1) = i + 1 := by
        rw [Nat.sub_add_cancel hpos]
        exact if_neg (Nat.lt_irrefl i)
      rw [connectors_removeStep hi, hplace, connectors_eq_links]

/-- Of four steps, one comes in behind the second, one at the head, and the second is removed. -/
theorem neighbours_stay_joined_in_the_middle :
    let step (name : String) : Step := Step.new ⟨name⟩ "rb" .element
    let p := ofParts [step "a", step "b", step "c", step "d"] [.or, .and, .or]
    let q := p.insertStep 2 (step "x")
    let h := p.insertStep 0 (step "x")
    let r := p.removeStep 1
    (q.step? 2 = some (step "x") ∧ q.step? 3 = p.step? 2 ∧ q.connectors[3]? = p.connectors[2]? ∧
      q.connectors[1]? = some .and ∧ q.connectors[2]? = p.connectors[1]? ∧ q.removeStep 2 = p) ∧
    h.connectors[0]? = some .and ∧
    r.step? 2 = p.step? 3 ∧ r.connectors[1]? = p.connectors[2]? ∧
      r.connectors[0]? = p.connectors[1]? := by
  intro step p q h r
  obtain ⟨hinsert, hremove⟩ := neighbours_stay_joined p
  obtain ⟨hnew, hsteps, hkept, hleft, -, hright, hback⟩ := hinsert 2 (step "x")
  obtain ⟨-, -, -, -, hhead, -, -⟩ := hinsert 0 (step "x")
  obtain ⟨hsteps', hkept', hclosed⟩ := hremove 1 (by decide)
  exact ⟨⟨hnew, hsteps 2, hkept 2 rfl, hleft (by decide), hright (by decide) (by decide), hback⟩,
    hhead rfl (by decide), hsteps' 2, hkept' 1 rfl, hclosed (by decide)⟩

end Pipeline

end AlertFilter
