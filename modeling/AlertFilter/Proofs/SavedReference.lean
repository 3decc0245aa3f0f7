import AlertFilter.Proofs.FilterRecord
import AlertFilter.Proofs.Locality
import AlertFilter.Store.Memory

/-!
# References to a filter just saved

A pipeline that is saved and then referred to means what it meant. What the wire does to
its steps is seen by no rule of compilation, and the new filter cannot be reached from its
own steps, so they compile inside it as they do on their own.
-/

namespace AlertFilter

lemma StepValue.operand?_normal (v : StepValue) (c : Coercion) :
    (if v.isMissing then .empty else v : StepValue).operand? c = v.operand? c := by
  by_cases h : v.isMissing = true
  · rw [if_pos h]
    cases v with
    | empty => rfl
    | literal l => simp_all [isMissing, operand?]
    | field path => simp_all [isMissing, operand?]
  · rw [if_neg h]

/-- A step compiles as it is left on the wire. -/
theorem Step.compileLocal_normal (s : Step) : s.normal.compileLocal = s.compileLocal := by
  have hvalue : ∀ c, s.normal.value.operand? c = s.value.operand? c :=
    s.value.operand?_normal
  have hfields : s.normal.operator = s.operator ∧ s.normal.fieldName = s.fieldName ∧
      s.normal.kind = s.kind ∧ s.normal.id = s.id := ⟨rfl, rfl, rfl, rfl⟩
  simp only [compileLocal, compileSubject, compileValue, compileComputed, hvalue, hfields]

lemma Pipeline.isBlank_of_validate {p : Pipeline} {label : String}
    (h : p.validate label = .ok ()) : Text.isBlank label = false :=
  (validate_eq_ok_iff.mp h).1

lemma FilterDraft.exists_of_validate {p : Pipeline} {label : String}
    (h : p.validate label = .ok ()) :
    ∃ draft, ofPipeline label p = .ok draft ∧ draft.label = Text.trim label ∧
      draft.steps = p.steps ∧ draft.connectors = p.connectors := by
  rw [ofPipeline, h]
  exact ⟨_, rfl, rfl, rfl, rfl⟩

namespace FilterSource

variable {source : FilterSource} {trail : Trail} {s s' : Step}

/-- Two steps with one reference that compile alike by themselves compile alike. -/
lemma compile_node_congr (hr : s'.reference? = s.reference?)
    (hl : s'.liveReference? = s.liveReference?) (hc : s'.compileLocal = s.compileLocal) :
    (source.node trail s').compile = (source.node trail s).compile := by
  unfold node
  rw [hr, hl]
  cases s.reference? with
  | none => simp only [Node.compile, hc]
  | some _ =>
    cases s.liveReference? with
    | none => rfl
    | some r =>
      dsimp only
      cases source.fetch trail r.filter <;> rfl

/-- Steps compile as they are left on the wire. -/
theorem compileWithin_normal (source : FilterSource) (trail : Trail) (steps : List Step)
    (connectors : List Connector) :
    source.compileWithin trail (steps.map Step.normal) connectors =
      source.compileWithin trail steps connectors := by
  refine compileWithin_congr connectors Step.normal (fun _ => rfl) fun s _ => ?_
  exact compile_node_congr rfl rfl s.compileLocal_normal

/-- The source with a filter put under an identifier. -/
def adding (source : FilterSource) (id : FilterId) (f : SavedFilter) : FilterSource where
  lookup a := if a = id then .ok f else source.lookup a
  ids := id :: source.ids
  mem_ids {a g} h := by
    by_cases ha : a = id
    · exact ha ▸ List.mem_cons_self
    · rw [if_neg ha] at h
      exact List.mem_cons_of_mem id (source.mem_ids h)

variable {id : FilterId} {f : SavedFilter}

lemma lookup_adding_self : (source.adding id f).lookup id = .ok f := if_pos rfl

lemma lookup_adding_of_ne {a : FilterId} (h : a ≠ id) :
    (source.adding id f).lookup a = source.lookup a := if_neg h

/-- Steps that do not reach the new filter compile as before, even inside of it. -/
lemma compileWithin_adding {steps : List Step} (h : id ∉ source.reachable steps)
    {outer : Trail} (houter : ∀ a ∈ outer, a = id) (connectors : List Connector) :
    (source.adding id f).compileWithin outer steps connectors =
      (source.compileSteps steps connectors).within outer := by
  have hagree : source.AgreeOn (source.adding id f) (source.reachable steps) :=
    agreeOn_reachable fun a ha => lookup_adding_of_ne fun he => h (he ▸ ha)
  have hout : ∀ a ∈ outer, a ∉ source.reachable steps := fun a ha => houter a ha ▸ h
  have hwithin := hagree.compileWithin hout [] steps connectors fun _ => mem_reachable_of_refersTo
  rwa [List.append_nil] at hwithin

/-- A reference that compares with nothing stands for the steps of its filter. -/
lemma compileStep_ofFilter {label : String} (hlabel : Text.isBlank label = false)
    (hf : source.lookup id = .ok f) (x : StepId) (b : Bool) :
    source.compileStep (.ofFilter x id label b) =
      (source.compileWithin [id] f.steps f.connectors).expression := by
  have hlive : (Step.ofFilter x id label b).liveReference? = some ⟨id, none, none, b⟩ := by
    simp [Step.liveReference?, Step.ofFilter, Step.new, Step.reference?, hlabel]
  have hwrap : Reference.wrap ⟨id, none, none, b⟩ = fun e => e := rfl
  rw [compileStep_of_found hlive hf, hwrap, Option.map_id']

/-- A pipeline that can be saved means the same behind a reference: its record is read back
from the wire, and in the source that holds the record, a reference to it compiles to the
expression of the pipeline. The identifier must be one that neither the pipeline nor a stored
filter refers to by a reference with a name. -/
theorem compileStep_saved {source : FilterSource} {p : Pipeline} {label : String} {id : FilterId}
    (hvalid : p.validate label = .ok ()) (hp : ¬RefersTo p.steps id)
    (hstored : ∀ a, ¬source.Edge a id) :
    ∃ draft record, FilterDraft.ofPipeline label p = .ok draft ∧
      Json.decodeValue SavedFilter.decode (Json.canonical (draft.saved id).toJson) =
        .ok record ∧
      (source.adding id record).compile p = source.compile p ∧
      ∀ x b, (source.adding id record).compileStep (.ofFilter x id draft.label b) =
        (source.compile p).expression := by
  obtain ⟨draft, hdraft, hlabel, hsteps, hconnectors⟩ := FilterDraft.exists_of_validate hvalid
  have hblank : Text.isBlank draft.label = false := by
    rw [hlabel, Text.isBlank_trim, Pipeline.isBlank_of_validate hvalid]
  have hread := (draft.saved id).readsAs .value rfl
  have hreach : id ∉ source.reachable p.steps := notMem_reachable hp hstored
  refine ⟨draft, (draft.saved id).normal, hdraft, hread, ?_, fun x b => ?_⟩
  · have hcompile := compileWithin_adding (f := (draft.saved id).normal) hreach
      (fun a ha => absurd ha List.not_mem_nil) p.connectors
    rw [Report.within_nil] at hcompile
    exact hcompile
  · have hinside := compileWithin_adding (f := (draft.saved id).normal) hreach
      (fun a ha => List.mem_singleton.mp ha) p.connectors
    rw [compileStep_ofFilter hblank lookup_adding_self]
    change ((source.adding id _).compileWithin [id] (draft.steps.map Step.normal)
      draft.connectors).expression = _
    rw [hsteps, hconnectors, compileWithin_normal, hinside]
    rfl

/-- A step with a blank value and a filter that refers to itself, saved and referred to. -/
theorem compileStep_saved_blank :
    let loop : SavedFilter :=
      ⟨⟨"a"⟩, "loop", none, [.ofFilter ⟨"s"⟩ ⟨"a"⟩ "loop" true], [], true⟩
    let source := (FilterStore.ofList [loop]).source
    let sum := ((Step.new ⟨"t"⟩ "rb" (.computed ["rb", "drb"] (some .add))).withOperator
      .greater).withLiteral (.text " ")
    let p := Pipeline.ofParts [sum, .ofFilter ⟨"u"⟩ ⟨"a"⟩ "loop" true] [.or]
    p.validate " sum " = .ok () ∧ sum.normal ≠ sum ∧
      ∃ draft record, FilterDraft.ofPipeline " sum " p = .ok draft ∧
        Json.decodeValue SavedFilter.decode (Json.canonical (draft.saved ⟨"b"⟩).toJson) =
          .ok record ∧
        (source.adding ⟨"b"⟩ record).compileStep (.ofFilter ⟨"v"⟩ ⟨"b"⟩ draft.label true) =
          (source.compile p).expression ∧
        (source.compile p).expression.isSome := by
  intro loop source sum p
  have hvalid : p.validate " sum " = .ok () := by decide
  have hsum : sum.normal ≠ sum := by decide
  have hp : ¬RefersTo p.steps ⟨"b"⟩ := by decide
  have hstored : ∀ a, ¬source.Edge a ⟨"b"⟩ := not_edge_of_forall (by decide)
  have hsome : (source.compile p).expression.isSome := by
    obtain ⟨e, he⟩ : ∃ e, (source.node [] sum).expression? = some e := by
      rw [node_of_plain rfl]
      exact Option.isSome_iff_exists.mp (by decide)
    rw [compile, compileSteps, compileWithin_expression]
    change (joinLinked (expressed _ [(.and, sum), (.or, .ofFilter ⟨"u"⟩ ⟨"a"⟩ "loop" true)])).isSome
    rw [expressed, List.filterMap_cons_some (by rw [he, Option.map_some]), joinLinked]
    rfl
  obtain ⟨draft, record, hdraft, hread, -, hstep⟩ := compileStep_saved hvalid hp hstored
  exact ⟨hvalid, hsum, draft, record, hdraft, hread, hstep ⟨"v"⟩ true, hsome⟩

end FilterSource

end AlertFilter
