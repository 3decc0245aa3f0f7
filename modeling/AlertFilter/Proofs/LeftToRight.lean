import AlertFilter.Proofs.Links
import AlertFilter.Proofs.LocalForms
import AlertFilter.Store.Memory
import Mathlib.Data.List.Induction

/-!
# Pipelines read from left to right

The steps that have an expression are joined strictly from left to right, each by the
connector that stood before it, whatever was left out in between. Seen from the root, the
left operands lead down to the first of the expressions and pass the others as right
operands, the last one first. So the truth of the joined expression is what a scan over the
steps makes of their truth values.
-/

namespace AlertFilter

namespace Connector

def ofSymbol? (symbol : String) : Option Connector := [and, or].find? (·.symbol = symbol)

@[simp] lemma ofSymbol?_symbol (c : Connector) : ofSymbol? c.symbol = some c := by
  cases c <;> rfl

/-- The truth of two conditions that are joined. -/
def combine : Connector → Bool → Bool → Bool
  | and, a, b => a && b
  | or, a, b => a || b

end Connector

namespace Expression

/-- An AND or OR of two operands, taken apart. -/
def connection? : Expression → Option (Connector × Expression × Expression)
  | call symbol [left, right] => (Connector.ofSymbol? symbol).map (·, left, right)
  | _ => none

@[simp] lemma connection?_call (c : Connector) (left right : Expression) :
    (call c.symbol [left, right]).connection? = some (c, left, right) := by
  rw [connection?, Connector.ofSymbol?_symbol, Option.map_some]

/-- Goes down the left operands of as many connections as told. The result is the expression
at the end, and the right operands passed with their connectors, the innermost first. -/
def leftSpine? : Nat → Expression → Option (Expression × List (Connector × Expression))
  | 0, e => some (e, [])
  | n + 1, e => do
    let (c, left, right) ← e.connection?
    let (first, row) ← left.leftSpine? n
    return (first, row ++ [(c, right)])

/-- The truth of connections nested in their left operands, from that of the innermost left
operand and those of the right operands, the outermost first. -/
def truth? (first : Bool) : List Bool → Expression → Option Bool
  | [], _ => some first
  | b :: rest, e => do
    let (c, left, _) ← e.connection?
    let a ← left.truth? first rest
    return c.combine a b

/-- AND and OR of two operands have the truth that the connectors give them. -/
def Truthful (truth : Expression → Bool) : Prop :=
  ∀ (c : Connector) (left right : Expression),
    truth (.call c.symbol [left, right]) = c.combine (truth left) (truth right)

end Expression

/-- The truth of steps read one after the other, each combined with all before it by the
connector in front of it, or by AND if there is none. -/
def scan (connectors : List Connector) (truth : Nat → Bool) : List Nat → Option Bool
  | [] => none
  | i :: rest =>
    some (rest.foldl (fun done j => (connectors[j - 1]?.getD .and).combine done (truth j))
      (truth i))

section Join

variable {connectors : List Connector} {left : Expression} {row : List (Nat × Expression)}

lemma joinAfter_concat (m : Nat × Expression) :
    joinAfter connectors left (row ++ [m]) =
      .call (connectorBefore connectors m.1).symbol [joinAfter connectors left row, m.2] := by
  rw [joinAfter_eq_foldl, List.foldl_concat, ← joinAfter_eq_foldl]

lemma leftSpine?_joinAfter :
    (joinAfter connectors left row).leftSpine? row.length =
      some (left, row.map fun m => (connectorBefore connectors m.1, m.2)) := by
  induction row using List.reverseRecOn with
  | nil => rfl
  | append_singleton row m ih =>
    rw [joinAfter_concat, List.length_append, List.length_singleton, Expression.leftSpine?,
      Expression.connection?_call, List.map_append]
    simp [ih]

lemma truth?_joinAfter (first : Bool) (truth : Nat → Bool) :
    (joinAfter connectors left row).truth? first (row.map fun m => truth m.1).reverse =
      some (row.foldl (fun done m => (connectorBefore connectors m.1).combine done (truth m.1))
        first) := by
  induction row using List.reverseRecOn with
  | nil => rfl
  | append_singleton row m ih =>
    rw [joinAfter_concat, List.map_append, List.map_singleton, List.reverse_concat,
      Expression.truth?, Expression.connection?_call, List.foldl_concat]
    simp [ih]

lemma truth_joinAfter {truth : Expression → Bool} (h : Expression.Truthful truth) :
    truth (joinAfter connectors left row) =
      row.foldl (fun done m => (connectorBefore connectors m.1).combine done (truth m.2))
        (truth left) := by
  induction row using List.reverseRecOn with
  | nil => rfl
  | append_singleton row m ih => rw [joinAfter_concat, h, ih, List.foldl_concat]

end Join

section Expressed

variable {α : Type} (expression? : α → Option Expression) (items : List α)

/-- The expression of the item at an index. -/
def expressionAt (i : Nat) : Option Expression := items[i]?.bind expression?

/-- The indices of the items that have an expression, in increasing order. -/
def expressedIndices : List Nat :=
  (List.range items.length).filter fun i => (expressionAt expression? items i).isSome

/-- The expressions with their indices. -/
def indexed : List (Nat × Expression) :=
  items.zipIdx.filterMap fun m => (expression? m.1).map (m.2, ·)

variable {expression? items}

lemma mem_expressedIndices {i : Nat} :
    i ∈ expressedIndices expression? items ↔ ∃ a, items[i]? = some a ∧ (expression? a).isSome := by
  rw [expressedIndices, List.mem_filter, List.mem_range, expressionAt]
  by_cases hi : i < items.length
  · simp [hi]
  · simp [hi]

lemma expressionAt_of_mem_indexed {m : Nat × Expression} (h : m ∈ indexed expression? items) :
    expressionAt expression? items m.1 = some m.2 := by
  obtain ⟨n, hn, he⟩ := List.mem_filterMap.mp h
  obtain ⟨e, hexpr, rfl⟩ := Option.map_eq_some_iff.mp he
  rw [expressionAt, List.mem_zipIdx_iff_getElem?.mp hn, Option.bind_some, hexpr]

lemma map_fst_indexed : (indexed expression? items).map Prod.fst =
    expressedIndices expression? items := by
  have hsome : ∀ m ∈ items.zipIdx, (expressionAt expression? items m.2).isSome =
      (expression? m.1).isSome := by
    intro m hm
    rw [expressionAt, List.mem_zipIdx_iff_getElem?.mp hm, Option.bind_some]
  rw [expressedIndices, List.range_eq_range', ← List.zipIdx_map_snd 0 items, List.filter_map,
    List.filter_congr (q := fun m => (expression? m.1).isSome) hsome, indexed]
  induction items.zipIdx with
  | nil => rfl
  | cons m rest ih =>
    cases he : expression? m.1 <;> simp [he, ih]

lemma pairwise_expressedIndices : (expressedIndices expression? items).Pairwise (· < ·) :=
  List.pairwise_lt_range.filter _

end Expressed

/-- A connector is in front of every item but the first. -/
lemma connectorBefore_of_pos (connectors : List Connector) {i : Nat} (h : 0 < i) :
    connectorBefore connectors i = connectors[i - 1]?.getD .and := by
  cases i with
  | zero => cases h
  | succ i => rfl

/-- In a row every item but the first has a connector in front of it. -/
lemma connectorBefore_of_mem (connectors : List Connector) {m n : Nat × Expression}
    {row : List (Nat × Expression)} (h : ((m :: row).map Prod.fst).Pairwise (· < ·))
    (hn : n ∈ row) : connectorBefore connectors n.1 = connectors[n.1 - 1]?.getD .and := by
  have hlt := (List.pairwise_cons.mp h).1 n.1 (List.mem_map_of_mem hn)
  exact connectorBefore_of_pos connectors (Nat.zero_lt_of_lt hlt)

/-- A scan over the indices of a row reads the connectors that the row is joined by. -/
lemma scan_indices {connectors : List Connector} {m : Nat × Expression}
    {row : List (Nat × Expression)} (truth : Nat → Bool)
    (h : ((m :: row).map Prod.fst).Pairwise (· < ·)) :
    scan connectors truth ((m :: row).map Prod.fst) =
      some (row.foldl (fun done n => (connectorBefore connectors n.1).combine done (truth n.1))
        (truth m.1)) := by
  rw [List.map_cons, scan, List.foldl_map]
  congr 1
  refine List.foldl_ext _ _ _ fun done n hn => ?_
  rw [connectorBefore_of_mem connectors h hn]

namespace FilterSource

lemma compileSteps_expression (source : FilterSource) (steps : List Step)
    (connectors : List Connector) :
    (source.compileSteps steps connectors).expression =
      join connectors (indexed source.compileStep steps) := by
  rw [compileSteps, compileWithin, reportNodes_expression, compileNodes_fst, unfold_eq_map,
    List.zipIdx_map, List.filterMap_map, indexed]
  congr 2
  funext m
  rw [compileStep_eq]
  rfl

/-- What a list of steps compiles to, read from left to right. Nothing is lost, doubled,
reordered or bracketed anew: from the root the left operands lead down through one AND or OR
for each expression behind the first, and the operands on the way are these expressions.
Whatever truth the steps are given, and whatever truth the expressions have by themselves,
the whole has the truth that a scan finds. -/
theorem compileSteps_left_to_right (source : FilterSource) (steps : List Step)
    (connectors : List Connector) :
    let at? := expressionAt source.compileStep steps
    let indices := expressedIndices source.compileStep steps
    let result := (source.compileSteps steps connectors).expression
    (result = none ↔ indices = []) ∧
    (∀ i, indices = [i] → result = at? i) ∧
    (∀ i rest, indices = i :: rest → ∃ e first row,
      result = some e ∧ e.leftSpine? rest.length = some (first, row) ∧
      at? i = some first ∧ row.map (some ·.2) = rest.map at? ∧
      row.map (·.1) = rest.map (fun j => connectors[j - 1]?.getD .and) ∧
      ∀ truth : Nat → Bool,
        e.truth? (truth i) (rest.map truth).reverse = scan connectors truth indices) ∧
    ∀ truth, Expression.Truthful truth →
      result.map truth = scan connectors (fun i => (at? i).any truth) indices := by
  intro at? indices result
  have hresult : result = join connectors (indexed source.compileStep steps) :=
    compileSteps_expression source steps connectors
  have hfst : (indexed source.compileStep steps).map Prod.fst = indices := map_fst_indexed
  have hat : ∀ m ∈ indexed source.compileStep steps, at? m.1 = some m.2 :=
    fun m hm => expressionAt_of_mem_indexed hm
  have hsorted : indices.Pairwise (· < ·) := pairwise_expressedIndices
  clear_value at? indices result
  subst hfst hresult
  generalize indexed source.compileStep steps = all at hat hsorted ⊢
  cases all with
  | nil =>
    refine ⟨iff_of_true rfl rfl, fun i hi => ?_, fun i rest hi => ?_, fun truth _ => rfl⟩
    · cases hi
    · cases hi
  | cons m row =>
    obtain ⟨hm, hrow⟩ := List.forall_mem_cons.mp hat
    refine ⟨iff_of_false (Option.some_ne_none _) (List.cons_ne_nil _ _), fun i hi => ?_,
      fun i rest hi => ?_, fun truth h => ?_⟩
    · obtain ⟨rfl, hnil⟩ := List.cons.inj hi
      rw [List.map_eq_nil_iff.mp hnil, hm]
      rfl
    · obtain ⟨rfl, rfl⟩ := List.cons.inj hi
      refine ⟨joinAfter connectors m.2 row, m.2,
        row.map fun n => (connectorBefore connectors n.1, n.2), rfl, ?_, hm, ?_, ?_,
        fun truth => ?_⟩
      · rw [List.length_map, leftSpine?_joinAfter]
      · rw [List.map_map, List.map_map]
        exact List.map_congr_left fun n hn => (hrow n hn).symm
      · rw [List.map_map, List.map_map]
        exact List.map_congr_left fun n hn => connectorBefore_of_mem connectors hsorted hn
      · rw [scan_indices truth hsorted, List.map_map]
        exact truth?_joinAfter (truth m.1) truth
    · rw [scan_indices _ hsorted, join, Option.map_some, truth_joinAfter h, hm, Option.any_some]
      congr 1
      refine List.foldl_ext _ _ _ fun done n hn => ?_
      rw [hrow n hn, Option.any_some]

/-- A step without an operator is left out, a range is a conjunction of its own, and the last
step has no connector in front of it. -/
theorem compileSteps_left_to_right_gap :
    let source := FilterStore.empty.source
    let zero : Literal := .number (.whole 0 (by decide))
    let a := (Step.new ⟨"a"⟩ "rb" .element).withOperator .present
    let x := Step.range ⟨"x"⟩ "jd"
    let w := (Step.new ⟨"w"⟩ "drb" (.range ⟨false, false, some ⟨some zero, some zero⟩⟩)).withOperator
      .between
    let steps := [a, x, w, a]
    expressedIndices source.compileStep steps = [0, 2, 3] ∧
      (source.compileStep w).bind Expression.symbol? = some "$and" ∧
      ∃ e first row, (source.compileSteps steps [.and, .or]).expression = some e ∧
        e.leftSpine? 2 = some (first, row) ∧ source.compileStep a = some first ∧
        row.map (some ·.2) = [source.compileStep w, source.compileStep a] ∧
        row.map (·.1) = [.or, .and] ∧
        e.truth? true [false, false] = some false ∧ e.truth? true [true, false] = some true := by
  intro source zero a x w steps
  have hrb : Text.isBlank "rb" = false := by decide
  have hdrb : Text.isBlank "drb" = false := by decide
  have ha : (source.compileStep a).isSome = true := by
    rw [compileStep_of_plain source rfl, Step.compileLocal_of_not_compares rfl hrb rfl]
    rfl
  have hx : source.compileStep x = none := compileStep_of_plain source rfl
  have hw : (source.compileStep w).bind Expression.symbol? = some "$and" := by
    rw [compileStep_of_plain source rfl, Step.compileLocal_of_not_compares rfl hdrb rfl]
    rfl
  have hw' : (source.compileStep w).isSome = true := by
    obtain ⟨e, he, -⟩ := Option.bind_eq_some_iff.mp hw
    rw [he, Option.isSome_some]
  have hindices : expressedIndices source.compileStep steps = [0, 2, 3] := by
    simp [expressedIndices, expressionAt, steps, List.range_succ, ha, hx, hw']
  obtain ⟨-, -, hspine, -⟩ := compileSteps_left_to_right source steps [.and, .or]
  obtain ⟨e, first, row, hresult, hleft, hfirst, hright, hconnectors, htruth⟩ :=
    hspine 0 [2, 3] hindices
  refine ⟨hindices, hw, e, first, row, hresult, hleft, hfirst, hright, hconnectors, ?_, ?_⟩
  · exact (htruth fun i => i = 0).trans (by rw [hindices]; rfl)
  · exact (htruth fun i => i ≠ 2).trans (by rw [hindices]; rfl)

end FilterSource

end AlertFilter
