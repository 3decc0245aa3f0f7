import AlertFilter.Pipeline.Edit
import AlertFilter.Proofs.Unfolding
import Mathlib.Data.List.Basic

/-!
# Pipelines as rows of links

A link is a step with the connector before it. Read as a row of links, a pipeline has no
index arithmetic left: an insertion puts one link into the row, a removal takes one out,
and compiling keeps the links whose steps have an expression and joins them in order.
The first link of a row carries a connector that nothing reads.
-/

namespace AlertFilter

variable {α β : Type}

/-- Each item with the connector before it. -/
def linkAll (connectors : List Connector) (items : List α) : List (Connector × α) :=
  items.mapIdx fun i a => (connectorBefore connectors i, a)

/-- The row with AND before its first item. -/
def resetHead : List (Connector × α) → List (Connector × α)
  | [] => []
  | (_, a) :: rest => (.and, a) :: rest

/-- Joins expressions from left to right, each by the connector before it. -/
def joinLinked : List (Connector × Expression) → Option Expression
  | [] => none
  | (_, e) :: rest => some (rest.foldl (fun left m => .call m.1.symbol [left, m.2]) e)

@[simp] lemma getElem?_linkAll (connectors : List Connector) (items : List α) (i : Nat) :
    (linkAll connectors items)[i]? = items[i]?.map (connectorBefore connectors i, ·) := by
  rw [linkAll, List.getElem?_mapIdx]

@[simp] lemma map_snd_linkAll (connectors : List Connector) (items : List α) :
    (linkAll connectors items).map Prod.snd = items := by
  apply List.ext_getElem?
  intro i
  simp [Function.comp_def]

lemma linkAll_map (connectors : List Connector) (f : α → β) (items : List α) :
    linkAll connectors (items.map f) = (linkAll connectors items).map (Prod.map id f) := by
  apply List.ext_getElem?
  intro i
  simp [Function.comp_def]

lemma getElem?_resetHead (row : List (Connector × α)) (i : Nat) :
    (resetHead row)[i]? = row[i]?.map fun m => (if i = 0 then .and else m.1, m.2) := by
  cases row with
  | nil => rfl
  | cons m rest => cases i <;> simp [resetHead]

@[simp] lemma resetHead_linkAll (connectors : List Connector) (items : List α) :
    resetHead (linkAll connectors items) = linkAll connectors items := by
  cases items with
  | nil => rfl
  | cons a rest =>
    rw [linkAll, List.mapIdx_cons]
    rfl

/-- What stands before the first item of a row is lost again when some items are dropped. -/
lemma resetHead_filter_resetHead (p : α → Bool) (row : List (Connector × α)) :
    resetHead ((resetHead row).filter fun m => p m.2) =
      resetHead (row.filter fun m => p m.2) := by
  cases row with
  | nil => rfl
  | cons m rest =>
    simp only [resetHead, List.filter_cons]
    by_cases h : p m.2
    · rw [if_pos h, if_pos h]
    · rw [if_neg h, if_neg h]

@[simp] lemma joinLinked_resetHead (row : List (Connector × Expression)) :
    joinLinked (resetHead row) = joinLinked row := by
  cases row <;> rfl

lemma joinAfter_eq_foldl (connectors : List Connector) (left : Expression)
    (row : List (Nat × Expression)) :
    joinAfter connectors left row =
      row.foldl (fun left m => .call (connectorBefore connectors m.1).symbol [left, m.2])
        left := by
  induction row generalizing left with
  | nil => rfl
  | cons m rest ih => exact ih _

lemma join_eq_joinLinked (connectors : List Connector) (row : List (Nat × Expression)) :
    join connectors row =
      joinLinked (row.map fun m => (connectorBefore connectors m.1, m.2)) := by
  cases row with
  | nil => rfl
  | cons m rest =>
    rw [join, joinAfter_eq_foldl, List.map_cons, joinLinked, List.foldl_map]

/-- The links of a row whose items have an expression. -/
def expressed (expression? : α → Option Expression) (row : List (Connector × α)) :
    List (Connector × Expression) :=
  row.filterMap fun m => (expression? m.2).map (m.1, ·)

/-- The joined expression of a list of nodes, index for index, is that of its links. -/
theorem join_compileNodes (filter : Option FilterId) (connectors : List Connector)
    (nodes : List Node) :
    join connectors (compileNodes filter 0 nodes).1 =
      joinLinked (expressed Node.expression? (linkAll connectors nodes)) := by
  rw [join_eq_joinLinked, compileNodes_fst, expressed, linkAll, List.mapIdx_eq_zipIdx_map,
    List.map_filterMap, List.filterMap_map]
  congr 2
  funext m
  cases h : m.1.expression? <;> simp [h]

namespace FilterSource

theorem compileWithin_expression (source : FilterSource) (trail : Trail) (steps : List Step)
    (connectors : List Connector) :
    (source.compileWithin trail steps connectors).expression =
      joinLinked (expressed (fun s => (source.node trail s).expression?)
        (linkAll connectors steps)) := by
  rw [compileWithin, reportNodes_expression, unfold_eq_map, join_compileNodes, linkAll_map,
    expressed, expressed, List.filterMap_map]
  rfl

/-- A single step is not joined to anything. -/
lemma compileWithin_singleton (source : FilterSource) (trail : Trail) (s : Step)
    (connectors : List Connector) :
    (source.compileWithin trail [s] connectors).expression =
      (source.node trail s).expression? := by
  rw [compileWithin_expression, linkAll, List.mapIdx_singleton, expressed]
  cases h : (source.node trail s).expression? <;> simp [h, joinLinked]

/-- Steps without expressions leave nothing to join. -/
lemma compileWithin_expression_eq_none {source : FilterSource} {trail : Trail}
    {steps : List Step} (connectors : List Connector)
    (h : ∀ s ∈ steps, (source.node trail s).expression? = none) :
    (source.compileWithin trail steps connectors).expression = none := by
  have hrow : expressed (fun s => (source.node trail s).expression?)
      (linkAll connectors steps) = [] := by
    refine List.filterMap_eq_nil_iff.mpr fun m hm => ?_
    have hs : m.2 ∈ steps := by
      rw [← map_snd_linkAll connectors steps]
      exact List.mem_map_of_mem hm
    exact (congrArg _ (h m.2 hs)).trans (Option.map_none _)
  rw [compileWithin_expression, hrow, joinLinked]

end FilterSource

lemma expressed_congr {f g : α → Option Expression} {row : List (Connector × α)}
    (h : ∀ m ∈ row, f m.2 = g m.2) : expressed f row = expressed g row :=
  List.filterMap_congr fun m hm => by rw [h m hm]

lemma expressed_map (f : α → Option Expression) (g : β → α) (row : List (Connector × β)) :
    expressed f (row.map (Prod.map id g)) = expressed (fun b => f (g b)) row := by
  rw [expressed, expressed, List.filterMap_map]
  rfl

lemma Report.eq_of_parts {r r' : Report} (he : r.expression = r'.expression)
    (hi : r.issues = r'.issues) : r = r' := by
  cases r
  cases r'
  simp_all

namespace FilterSource

/-- Two lists of which each step compiles like its partner compile alike; what differs in
the issues of the steps differs in those of the lists. -/
theorem compileWithin_map {source source' : FilterSource} {trail trail' : Trail}
    {steps : List Step} (connectors : List Connector) (f : Step → Step) (g : Issue → Issue)
    (hexpr : ∀ s ∈ steps,
      (source'.node trail' (f s)).expression? = (source.node trail s).expression?)
    (hissues : ∀ s ∈ steps, ∀ k, (source'.node trail' (f s)).issues trail'.getLast? k =
      ((source.node trail s).issues trail.getLast? k).map g) :
    source'.compileWithin trail' (steps.map f) connectors =
      ⟨(source.compileWithin trail steps connectors).expression,
        (source.compileWithin trail steps connectors).issues.map g⟩ := by
  apply Report.eq_of_parts
  · rw [compileWithin_expression, compileWithin_expression, linkAll_map, expressed_map]
    congr 1
    refine expressed_congr fun m hm => hexpr m.2 ?_
    rw [← map_snd_linkAll connectors steps]
    exact List.mem_map_of_mem hm
  · dsimp only
    rw [compileWithin, compileWithin, reportNodes_issues, reportNodes_issues, unfold_eq_map,
      unfold_eq_map, List.map_flatMap, List.map_map, List.zipIdx_map, List.zipIdx_map,
      List.flatMap_map, List.flatMap_map]
    refine List.flatMap_congr fun m hm => hissues m.1 ?_ m.2
    exact List.mem_of_getElem? (List.mem_zipIdx_iff_getElem?.mp hm)

/-- Two lists of which each step compiles like its partner, issues included, compile alike. -/
lemma compileWithin_congr {source source' : FilterSource} {trail : Trail} {steps : List Step}
    (connectors : List Connector) (f : Step → Step) (hid : ∀ s, (f s).id = s.id)
    (hcompile : ∀ s ∈ steps,
      (source'.node trail (f s)).compile = (source.node trail s).compile) :
    source'.compileWithin trail (steps.map f) connectors =
      source.compileWithin trail steps connectors := by
  have hmap : source'.compileWithin trail (steps.map f) connectors =
      ⟨(source.compileWithin trail steps connectors).expression,
        (source.compileWithin trail steps connectors).issues.map id⟩ := by
    refine compileWithin_map connectors f id (fun s hs => ?_) fun s hs k => ?_
    · rw [Node.expression?, hcompile s hs, Node.expression?]
    · rw [Node.issues, hcompile s hs, Node.issues, node_step, node_step, List.map_id, hid]
  rwa [List.map_id] at hmap

/-- A step compiles alike if the filter that it leads to does. -/
lemma compile_node_mapFilters {source : FilterSource} {trail : Trail}
    {g : SavedFilter → SavedFilter}
    (hg : ∀ id f, source.fetch trail id = .ok f →
      (source.mapFilters g).compileWithin (trail ++ [id]) (g f).steps (g f).connectors =
        source.compileWithin (trail ++ [id]) f.steps f.connectors) (s : Step) :
    ((source.mapFilters g).node trail s).compile = (source.node trail s).compile := by
  obtain hr | ⟨r, hr, hl⟩ | ⟨r, hl⟩ := step_cases s
  · rw [node_of_plain hr, node_of_plain hr]
  · rw [node_of_unnamed hr hl, node_of_unnamed hr hl]
  · have hfetch : (source.mapFilters g).fetch trail r.filter =
        (source.fetch trail r.filter).map g :=
      fetch_mapFilters g
    cases hf : source.fetch trail r.filter with
    | error e =>
      rw [hf] at hfetch
      rw [node_of_error hl hf, node_of_error hl hfetch]
    | ok f =>
      rw [hf] at hfetch
      rw [compile_node_of_ok hl hf, compile_node_of_ok hl hfetch, hg r.filter f hf]

/-- A change to all filters that shows in none of them by itself shows nowhere. -/
theorem compileWithin_mapFilters {g : SavedFilter → SavedFilter}
    (hg : ∀ (source : FilterSource) trail f,
      source.compileWithin trail (g f).steps (g f).connectors =
        source.compileWithin trail f.steps f.connectors)
    (source : FilterSource) (trail : Trail) (steps : List Step) (connectors : List Connector) :
    (source.mapFilters g).compileWithin trail steps connectors =
      source.compileWithin trail steps connectors := by
  induction trail using source.trail_induction generalizing steps connectors with
  | step trail ih =>
    have hnode : ∀ s, ((source.mapFilters g).node trail s).compile =
        (source.node trail s).compile :=
      compile_node_mapFilters fun id f hf =>
        (ih id f hf (g f).steps (g f).connectors).trans (hg source (trail ++ [id]) f)
    have hmap : (source.mapFilters g).compileWithin trail (steps.map id) connectors =
        source.compileWithin trail steps connectors :=
      compileWithin_congr connectors id (fun _ => rfl) fun s _ => hnode s
    rwa [List.map_id] at hmap

end FilterSource

/-! ### Links of a pipeline -/

namespace Pipeline

/-- The steps of a pipeline with the connectors before them. -/
def links (p : Pipeline) : List (Connector × Step) := linkAll p.connectors p.steps

@[simp] lemma map_snd_links (p : Pipeline) : p.links.map Prod.snd = p.steps :=
  map_snd_linkAll _ _

@[simp] lemma resetHead_links (p : Pipeline) : resetHead p.links = p.links :=
  resetHead_linkAll _ _

lemma length_links (p : Pipeline) : p.links.length = p.length := List.length_mapIdx

/-- The place where a step is inserted is in the row or at its end. -/
lemma min_le_length_links (p : Pipeline) (i : Nat) : min i p.steps.length ≤ p.links.length := by
  rw [length_links]
  exact Nat.min_le_right _ _

lemma step?_eq_links (p : Pipeline) (i : Nat) : p.step? i = p.links[i]?.map Prod.snd := by
  rw [← List.getElem?_map, map_snd_links, step?]

/-- The first step has no connector before it. -/
lemma connectors_eq_links (p : Pipeline) (i : Nat) :
    p.connectors[i]? = p.links[i + 1]?.map Prod.fst := by
  have hlen := p.length_connectors
  rw [expectedConnectors] at hlen
  rw [links, getElem?_linkAll, Option.map_map]
  by_cases hi : i < p.connectors.length
  · have hstep : i + 1 < p.steps.length := by omega
    rw [List.getElem?_eq_getElem hstep, Option.map_some, Function.comp_apply, connectorBefore,
      List.getElem?_eq_getElem hi]
    rfl
  · rw [List.getElem?_eq_none (by omega), List.getElem?_eq_none (by omega), Option.map_none]

/-- A pipeline is known by its links. -/
theorem links_injective : Function.Injective links := by
  intro p q h
  have hs : p.steps = q.steps := by rw [← map_snd_links p, h, map_snd_links]
  have hc : p.connectors = q.connectors := by
    apply List.ext_getElem?
    intro i
    rw [connectors_eq_links, h, connectors_eq_links]
  cases p
  cases q
  simp_all

lemma getElem?_fitConnectors (n : Nat) (cs : List Connector) (i : Nat) :
    (fitConnectors n cs)[i]? = if i < n then some (cs[i]?.getD .and) else none := by
  rw [fitConnectors, List.getElem?_append, List.length_take, List.getElem?_take,
    List.getElem?_replicate]
  by_cases hi : i < n
  · by_cases hc : i < cs.length
    · have hmin : i < min n cs.length := by omega
      rw [if_pos hmin, if_pos hi, if_pos hi, List.getElem?_eq_getElem hc]
      rfl
    · have hmin : ¬i < min n cs.length := by omega
      have hleft : i - min n cs.length < n - cs.length := by omega
      rw [if_neg hmin, if_pos hleft, if_pos hi, List.getElem?_eq_none (by omega)]
      rfl
  · have hmin : ¬i < min n cs.length := by omega
    have hleft : ¬i - min n cs.length < n - cs.length := by omega
    rw [if_neg hmin, if_neg hleft, if_neg hi]

/-- Connectors that are filled in or cut off are never before a step. -/
lemma connectorBefore_fitConnectors (cs : List Connector) {n i : Nat} (h : i ≤ n) :
    connectorBefore (fitConnectors n cs) i = connectorBefore cs i := by
  cases i with
  | zero => rfl
  | succ i =>
    rw [connectorBefore, connectorBefore, getElem?_fitConnectors, if_pos (Nat.lt_of_succ_le h)]
    rfl

lemma links_ofParts (steps : List Step) (connectors : List Connector) :
    (ofParts steps connectors).links = linkAll connectors steps := by
  apply List.ext_getElem?
  intro i
  simp only [links, ofParts, getElem?_linkAll]
  by_cases hi : i < steps.length
  · rw [connectorBefore_fitConnectors]
    simp only [expectedConnectors]
    omega
  · rw [List.getElem?_eq_none (by omega)]
    rfl

/-- Before the inserted place the connectors stay, behind it they move on by one. -/
lemma connectorBefore_insertIdx (cs : List Connector) (i j : Nat) (h : i - 1 ≤ cs.length) :
    connectorBefore (cs.insertIdx (i - 1) .and) j =
      if j < i then connectorBefore cs j
      else if j = i then .and else connectorBefore cs (j - 1) := by
  cases j with
  | zero => simp [connectorBefore]
  | succ m =>
    simp only [connectorBefore, List.getElem?_insertIdx]
    rcases Nat.lt_trichotomy (m + 1) i with hlt | rfl | hgt
    · rw [if_pos (by omega), if_pos hlt]
    · have hm : m ≤ cs.length := h
      simp [hm]
    · rw [if_neg (by omega), if_neg (by omega : ¬m + 1 < i), if_neg (by omega : ¬m + 1 = i)]
      cases m with
      | zero =>
        obtain rfl : i = 0 := by omega
        simp
      | succ m => rw [if_neg (by omega)]; rfl

/-- An inserted step becomes a link of its own, joined by AND, and no other link changes. -/
theorem links_insertStep (p : Pipeline) (i : Nat) (s : Step) :
    (p.insertStep i s).links = p.links.insertIdx (min i p.steps.length) (.and, s) := by
  have hlen := p.length_connectors
  simp only [expectedConnectors] at hlen
  have hle : min i p.steps.length ≤ p.steps.length := Nat.min_le_right _ _
  rw [insertStep, links_ofParts]
  generalize min i p.steps.length = k at hle ⊢
  rw [List.length_insertIdx_of_le_length hle]
  apply List.ext_getElem?
  intro j
  simp only [List.getElem?_insertIdx, links, linkAll, List.length_mapIdx,
    List.getElem?_mapIdx]
  by_cases hone : 1 < p.steps.length + 1
  · rw [if_pos hone, Nat.min_eq_left (by omega), connectorBefore_insertIdx _ _ _ (by omega)]
    rcases Nat.lt_trichotomy j k with hj | rfl | hj
    · simp [hj]
    · simp [hle]
    · simp [Nat.not_lt_of_gt hj, Nat.ne_of_gt hj]
  · obtain hnil : p.steps = [] := List.eq_nil_of_length_eq_zero (by omega)
    obtain rfl : k = 0 := by simpa [hnil] using hle
    rw [if_neg hone]
    cases j <;> simp [hnil, connectorBefore]

/-- Behind a removed place the connectors move up by one. -/
lemma connectorBefore_eraseIdx (cs : List Connector) (i j : Nat) :
    connectorBefore (cs.eraseIdx (i - 1)) (j + 1) =
      if j + 1 < i then connectorBefore cs (j + 1) else connectorBefore cs (j + 2) := by
  simp only [connectorBefore, List.getElem?_eraseIdx]
  by_cases h : j + 1 < i
  · rw [if_pos (by omega), if_pos h]
  · by_cases hj : j < i - 1
    · omega
    · rw [if_neg hj, if_neg h]

/-- A removed step takes its link out of the row, and no other link changes but the head. -/
theorem links_removeStep (p : Pipeline) {i : Nat} (h : i < p.steps.length) :
    (p.removeStep i).links = resetHead (p.links.eraseIdx i) := by
  have hlen := p.length_connectors
  simp only [expectedConnectors] at hlen
  have hcs : (if 0 < i ∧ i - 1 < p.connectors.length then p.connectors.eraseIdx (i - 1)
      else p.connectors.eraseIdx 0) = p.connectors.eraseIdx (i - 1) := by
    split
    · rfl
    · rw [show i - 1 = 0 by omega]
  rw [removeStep, if_pos h, hcs, links_ofParts]
  apply List.ext_getElem?
  intro j
  simp only [getElem?_resetHead, links, linkAll, List.getElem?_mapIdx, List.getElem?_eraseIdx]
  cases j with
  | zero => by_cases hi : 0 < i <;> simp [hi, connectorBefore, Function.comp_def]
  | succ j =>
    rw [connectorBefore_eraseIdx]
    by_cases hj : j + 1 < i <;> simp [hj, Function.comp_def]

end Pipeline

end AlertFilter
