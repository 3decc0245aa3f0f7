import AlertFilter.Proofs.Links
import AlertFilter.Store.Memory
import Mathlib.Logic.Relation

/-!
# Steps that compile to nothing

A step without an expression leaves no trace in what a pipeline compiles to, however many
of them stand side by side or at either end. Taking such steps out one after the other
always ends in the same pipeline, which holds the other steps only.
-/

namespace AlertFilter

variable {α β : Type}

lemma filterMap_eraseIdx {f : α → Option β} {row : List α} {i : Nat} {a : α}
    (h : row[i]? = some a) (hf : f a = none) :
    (row.eraseIdx i).filterMap f = row.filterMap f := by
  induction row generalizing i with
  | nil => simp at h
  | cons b rest ih =>
    cases i with
    | zero =>
      obtain rfl : b = a := by simpa using h
      rw [List.eraseIdx_cons_zero, List.filterMap_cons_none hf]
    | succ i =>
      rw [List.eraseIdx_cons_succ, List.filterMap_cons, List.filterMap_cons, ih (by simpa using h)]

lemma filterMap_insertIdx {f : α → Option β} {row : List α} {i : Nat} {a : α}
    (h : i ≤ row.length) (hf : f a = none) :
    (row.insertIdx i a).filterMap f = row.filterMap f := by
  have hget : (row.insertIdx i a)[i]? = some a := by
    rw [List.getElem?_insertIdx_self, if_pos h]
  rw [← filterMap_eraseIdx hget hf, List.eraseIdx_insertIdx_self]

lemma resetHead_expressed_resetHead (expression? : α → Option Expression)
    (row : List (Connector × α)) :
    resetHead (expressed expression? (resetHead row)) =
      resetHead (expressed expression? row) := by
  cases row with
  | nil => rfl
  | cons m rest =>
    simp only [resetHead, expressed, List.filterMap_cons]
    cases expression? m.2 <;> rfl

namespace Pipeline

def ofLinks (row : List (Connector × Step)) : Pipeline where
  steps := row.map Prod.snd
  connectors := (row.map Prod.fst).tail
  length_connectors := by simp [expectedConnectors]

lemma links_ofLinks (row : List (Connector × Step)) : (ofLinks row).links = resetHead row := by
  cases row with
  | nil => rfl
  | cons m rest =>
    apply List.ext_getElem?
    intro i
    cases i with
    | zero => simp [links, ofLinks, resetHead, connectorBefore]
    | succ i =>
      cases h : rest[i]? <;> simp [links, ofLinks, resetHead, connectorBefore, h]

end Pipeline

namespace FilterSource

variable (source : FilterSource)

/-- The step has no expression: it is incomplete or fails, or it refers to a filter that
cannot be had or compiles to nothing itself. -/
def Drops (s : Step) : Prop := source.compileStep s = none

/-- One pipeline is the other without one of the steps that have no expression. -/
def RemovesDropped (p q : Pipeline) : Prop :=
  ∃ i s, p.step? i = some s ∧ source.Drops s ∧ q = p.removeStep i

/-- The links whose steps have an expression. -/
def keptLinks (p : Pipeline) : List (Connector × Step) :=
  p.links.filter fun m => (source.compileStep m.2).isSome

variable {source}

lemma compile_expression (p : Pipeline) :
    (source.compile p).expression = joinLinked (expressed source.compileStep p.links) := by
  have hstep : (fun s => (source.node [] s).expression?) = source.compileStep :=
    funext fun s => (source.compileStep_eq s).symm
  rw [compile, compileSteps, compileWithin_expression, Pipeline.links, hstep]

theorem compile_insertStep (p : Pipeline) (i : Nat) {s : Step} (h : source.Drops s) :
    (source.compile (p.insertStep i s)).expression = (source.compile p).expression := by
  have hs : source.compileStep s = none := h
  rw [compile_expression, compile_expression, Pipeline.links_insertStep, expressed,
    filterMap_insertIdx (p.min_le_length_links i) (by simp [hs]), ← expressed]

lemma getElem?_links {p : Pipeline} {i : Nat} {s : Step} (h : p.step? i = some s) :
    p.links[i]? = some (connectorBefore p.connectors i, s) := by
  have hs : p.steps[i]? = some s := h
  rw [Pipeline.links, getElem?_linkAll, hs, Option.map_some]

theorem compile_removeStep {p : Pipeline} {i : Nat} {s : Step} (hi : p.step? i = some s)
    (h : source.Drops s) :
    (source.compile (p.removeStep i)).expression = (source.compile p).expression := by
  have hlen : i < p.steps.length := (List.getElem?_eq_some_iff.mp hi).1
  have hs : source.compileStep s = none := h
  rw [compile_expression, compile_expression, Pipeline.links_removeStep p hlen,
    ← joinLinked_resetHead, resetHead_expressed_resetHead, joinLinked_resetHead]
  congr 1
  exact filterMap_eraseIdx (getElem?_links hi) (by simp [hs])

/-- Each removal leaves the kept links as they are, the head apart. -/
lemma keptLinks_of_removesDropped {p q : Pipeline} (h : source.RemovesDropped p q) :
    resetHead (source.keptLinks q) = resetHead (source.keptLinks p) := by
  obtain ⟨i, s, hi, hs, rfl⟩ := h
  have hlen : i < p.steps.length := (List.getElem?_eq_some_iff.mp hi).1
  have hnone : source.compileStep s = none := hs
  rw [keptLinks, Pipeline.links_removeStep p hlen,
    resetHead_filter_resetHead fun s => (source.compileStep s).isSome, keptLinks,
    ← List.filterMap_eq_filter, filterMap_eraseIdx (getElem?_links hi) (by simp [hnone])]

lemma compile_of_removesDropped {p q : Pipeline}
    (h : Relation.ReflTransGen source.RemovesDropped p q) :
    (source.compile q).expression = (source.compile p).expression ∧
      resetHead (source.keptLinks q) = resetHead (source.keptLinks p) := by
  induction h with
  | refl => exact ⟨rfl, rfl⟩
  | tail _ hstep ih =>
    obtain ⟨hexpr, hkept⟩ := ih
    have hkept' := keptLinks_of_removesDropped hstep
    obtain ⟨i, s, hi, hs, rfl⟩ := hstep
    exact ⟨(compile_removeStep hi hs).trans hexpr, hkept'.trans hkept⟩

def kept (source : FilterSource) (p : Pipeline) : Pipeline := .ofLinks (source.keptLinks p)

lemma kept_steps (p : Pipeline) :
    (source.kept p).steps = p.steps.filter fun s => (source.compileStep s).isSome := by
  rw [← p.map_snd_links, List.filter_map]
  rfl

lemma kept_of_reflTransGen {p q : Pipeline}
    (h : Relation.ReflTransGen source.RemovesDropped p q) : source.kept q = source.kept p := by
  apply Pipeline.links_injective
  rw [kept, kept, Pipeline.links_ofLinks, Pipeline.links_ofLinks, (compile_of_removesDropped h).2]

lemma kept_eq_self {p : Pipeline} (h : ∀ s ∈ p.steps, ¬source.Drops s) : source.kept p = p := by
  have hall : source.keptLinks p = p.links := by
    refine List.filter_eq_self.mpr fun m hm => ?_
    have hs : m.2 ∈ p.steps := by
      rw [← p.map_snd_links]
      exact List.mem_map_of_mem hm
    exact Option.isSome_iff_ne_none.mpr (h _ hs)
  apply Pipeline.links_injective
  rw [kept, Pipeline.links_ofLinks, hall, p.resetHead_links]

/-- Removing the steps that have no expression ends, and only the others are left then. -/
lemma reflTransGen_kept (p : Pipeline) :
    Relation.ReflTransGen source.RemovesDropped p (source.kept p) := by
  induction hn : p.steps.length using Nat.strongRecOn generalizing p with
  | ind n ih =>
    by_cases hall : ∀ s ∈ p.steps, ¬source.Drops s
    · rw [kept_eq_self hall]
    · obtain ⟨s, hs⟩ := Classical.not_forall.mp hall
      obtain ⟨hmem, hs⟩ := Classical.not_imp.mp hs
      obtain ⟨i, hi⟩ := List.mem_iff_getElem?.mp hmem
      have hlen : i < p.steps.length := (List.getElem?_eq_some_iff.mp hi).1
      have hstep : source.RemovesDropped p (p.removeStep i) :=
        ⟨i, s, hi, Classical.not_not.mp hs, rfl⟩
      have hshort : (p.removeStep i).steps.length < n := by
        rw [← hn, Pipeline.removeStep, if_pos hlen, Pipeline.ofParts,
          List.length_eraseIdx_of_lt hlen]
        omega
      rw [← kept_of_reflTransGen (.single hstep)]
      exact .head hstep (ih _ hshort _ rfl)

/-- Steps without an expression are transparent to editing: putting one in or taking one
out changes nothing, and taking them out one by one ends, in whatever order, in one and
the same pipeline of all the other steps, which compiles to the same expression. -/
theorem compile_eq_of_dropped (source : FilterSource) (p : Pipeline) :
    (∀ i s, source.Drops s →
      (source.compile (p.insertStep i s)).expression = (source.compile p).expression) ∧
    (∀ i s, p.step? i = some s → source.Drops s →
      (source.compile (p.removeStep i)).expression = (source.compile p).expression) ∧
    ∃ q, q.steps = p.steps.filter (fun s => (source.compileStep s).isSome) ∧
      (source.compile q).expression = (source.compile p).expression ∧
      ∀ p', Relation.ReflTransGen source.RemovesDropped p p' →
        (source.compile p').expression = (source.compile p).expression ∧
          Relation.ReflTransGen source.RemovesDropped p' q := by
  refine ⟨fun i s h => compile_insertStep p i h, fun i s hi h => compile_removeStep hi h,
    source.kept p, kept_steps p, (compile_of_removesDropped (reflTransGen_kept p)).1, ?_⟩
  intro p' h
  refine ⟨(compile_of_removesDropped h).1, ?_⟩
  rw [← kept_of_reflTransGen h]
  exact reflTransGen_kept p'

/-- A step without an operator, taken out from between two that are joined by OR behind it. -/
theorem compile_eq_of_dropped_middle :
    let source := FilterStore.empty.source
    let x := Step.range ⟨"x"⟩ "jd"
    let p := Pipeline.ofParts
      [.withOperator (.new ⟨"a"⟩ "rb" .element) .present, x,
        .withOperator (.new ⟨"b"⟩ "drb" .element) .present] [.and, .or]
    p.step? 1 = some x ∧ source.Drops x ∧
      (source.compile (p.removeStep 1)).expression = (source.compile p).expression ∧
      (source.compile p).expression.bind Expression.symbol? = some "$or" := by
  intro source x p
  have hx : source.Drops x := by
    rw [Drops, compileStep_eq, node_of_plain rfl]
    rfl
  have hroot : (source.compile p).expression.bind Expression.symbol? = some "$or" := by
    rw [compile, compileSteps, compileWithin, unfold_eq_map]
    simp only [p, x, Pipeline.ofParts, List.map_cons, List.map_nil]
    rw [node_of_plain rfl, node_of_plain rfl, node_of_plain rfl]
    rfl
  exact ⟨rfl, hx, (compile_eq_of_dropped source p).2.1 1 x rfl hx, hroot⟩

end FilterSource

end AlertFilter
