import AlertFilter.Proofs.SavedReference
import AlertFilter.Proofs.Scopes

/-!
# Blank operands

A value or a bound that is blank counts as not given: the step compiles as if it had none, and no
literal of a single step is blank. The value beside a reference is not asked for this, so a blank
one becomes an operand whenever an operator stands beside it.
-/

namespace AlertFilter

namespace Literal

/-- What is blank is no number. -/
lemma numberOrRaw_of_isBlank {l : Literal} (h : l.isBlank = true) : l.numberOrRaw = l := by
  cases l with
  | text t =>
    have htext : Number.ofText? (Text.trim t) = none := by
      rw [Text.isBlank_iff_trim_eq_empty.mp h]
      decide
    have hcoerce : (text t).coerceNumber = .error (.notNumeric (text t)) := by
      unfold coerceNumber
      dsimp only
      rw [htext]
    rw [numberOrRaw, hcoerce]
  | _ => rfl

/-- A number is not blank, and anything else is left as it is. -/
lemma eq_of_isBlank_numberOrRaw {l : Literal} (h : l.numberOrRaw.isBlank = true) :
    l.numberOrRaw = l := by
  unfold numberOrRaw at h ⊢
  split at h
  · cases h
  · rfl

end Literal

lemma givenLiteral?_givenLiteral? (l : Option Literal) :
    givenLiteral? (givenLiteral? l) = givenLiteral? l := by
  cases l with
  | none => rfl
  | some l => cases h : l.isBlank <;> simp [givenLiteral?, h]

/-- The bounds that are given. -/
def Bounds.given (b : Bounds) : Bounds := ⟨givenLiteral? b.min, givenLiteral? b.max⟩

lemma compileBetween_given (subject : Expression) (bounds : Option Bounds) :
    compileBetween subject (bounds.map Bounds.given) = compileBetween subject bounds := by
  cases bounds with
  | none => rfl
  | some b =>
    simp only [compileBetween, Bounds.given, Option.map_some, Option.bind_some,
      givenLiteral?_givenLiteral?]

def StepKind.given : StepKind → StepKind
  | .range r => .range { r with bounds := r.bounds.map Bounds.given }
  | k => k

namespace Step

/-- The step without a value and bounds that are blank. -/
def given (s : Step) : Step := { s.normal with kind := s.kind.given }

variable (s : Step)

lemma reference?_given : s.given.reference? = s.reference? := by
  rw [reference?, reference?, given]
  cases s.kind <;> rfl

lemma liveReference?_given : s.given.liveReference? = s.liveReference? := by
  rw [liveReference?, reference?_given]
  rfl

lemma compileLocal_given : s.given.compileLocal = s.compileLocal := by
  refine Eq.trans ?_ s.compileLocal_normal
  obtain ⟨id, label, fieldName, operator, value, kind⟩ := s
  cases kind with
  | range r =>
    have hcoercion : ∀ (r' : RangeSettings) o,
        Coercion.ofStep (.range r') o = Coercion.ofStep (.range r) o :=
      fun _ o => by cases o <;> rfl
    simp only [compileLocal, given, normal, StepKind.given, compileBetween_given, compileSubject,
      compileValue, hcoercion { r with bounds := r.bounds.map Bounds.given }]
  | _ => exact congrArg compileLocal (rfl : given _ = normal _)

end Step

def SavedFilter.given (f : SavedFilter) : SavedFilter := { f with steps := f.steps.map Step.given }

namespace FilterSource

/-- The source with every filter as it is without values and bounds that are blank. -/
def given (source : FilterSource) : FilterSource where
  lookup id := (source.lookup id).map SavedFilter.given
  ids := source.ids
  mem_ids {id f} h := by
    cases hf : source.lookup id with
    | error _ => rw [hf] at h; cases h
    | ok g => exact source.mem_ids hf

variable {source : FilterSource} {p : Pipeline} {e : Expression}

lemma compileWithin_map_given (source : FilterSource) (trail : Trail) (steps : List Step)
    (connectors : List Connector) :
    source.compileWithin trail (steps.map Step.given) connectors =
      source.compileWithin trail steps connectors := by
  refine compileWithin_congr connectors Step.given (fun _ => rfl) fun s _ => ?_
  exact compile_node_congr s.reference?_given s.liveReference?_given s.compileLocal_given

/-- Blank values and bounds may as well be left out, of the steps and of all saved filters. -/
lemma compileWithin_given (source : FilterSource) (trail : Trail) (steps : List Step)
    (connectors : List Connector) :
    source.given.compileWithin trail (steps.map Step.given) connectors =
      source.compileWithin trail steps connectors := by
  have hfilters : source.given.compileWithin trail (steps.map Step.given) connectors =
      source.compileWithin trail (steps.map Step.given) connectors :=
    compileWithin_mapFilters
      (fun source trail f => compileWithin_map_given source trail f.steps f.connectors)
      source trail (steps.map Step.given) connectors
  rw [hfilters, compileWithin_map_given]

/-- A blank literal is made beside a reference only. -/
lemma Makes.of_isBlank {sc : Scope} {l : Literal} (h : source.Makes sc (.literal l))
    (hl : l.isBlank = true) :
    ∃ r o below, source.Compares sc r o below ∧ r.parentValue = some l := by
  generalize hx : Expression.literal l = x at h
  cases h with
  | joined h =>
    obtain ⟨k, s, left, right, -, -, -, rfl⟩ := h
    cases hx
  | single hs he hmem =>
    cases Step.localPart_of_compileLocal he hmem with
    | literal hgiven =>
      cases hx
      cases hl.symm.trans hgiven
    | operator _ hsymbol =>
      rw [← hx] at hsymbol
      cases hsymbol
    | _ => cases hx
  | compared h =>
    have hsymbol := h.symbol?_wrap
    rw [← hx] at hsymbol
    cases hsymbol
  | comparand h hvalue =>
    obtain rfl := Expression.literal.inj hx
    rw [Literal.eq_of_isBlank_numberOrRaw hl]
    exact ⟨_, _, _, h, hvalue⟩

/-- A blank literal in what a pipeline compiles to stands beside a reference with an operator. -/
lemma literal_mem_iff_of_isBlank {l : Literal} (he : (source.compile p).expression = some e)
    (hl : l.isBlank = true) : .literal l ∈ e.subexpressions ↔ ∃ sc r o below,
      source.Within (.ofPipeline p) sc ∧ source.Compares sc r o below ∧
        r.parentValue = some l := by
  rw [mem_subexpressions_compile_iff he]
  constructor
  · rintro ⟨sc, hwithin, hmakes⟩
    obtain ⟨r, o, below, hbelow, hvalue⟩ := hmakes.of_isBlank hl
    exact ⟨sc, r, o, below, hwithin, hbelow, hvalue⟩
  · rintro ⟨sc, r, o, below, hwithin, hbelow, hvalue⟩
    exact ⟨sc, hwithin, Literal.numberOrRaw_of_isBlank hl ▸ .comparand hbelow hvalue⟩

/-- A blank literal in what a pipeline compiles to is the value beside a reference that has an
operator, and every such value is one of its literals. If no reference has a blank value with an
operator, there is none. Every other value and bound that is blank, of the steps and of all saved
filters, may as well be left out; the value beside a reference only without an operator. -/
theorem blank_literals (he : (source.compile p).expression = some e) :
    (∀ l, l.isBlank = true → (.literal l ∈ e.subexpressions ↔ ∃ sc r o below,
      source.Within (.ofPipeline p) sc ∧ source.Compares sc r o below ∧
        r.parentValue = some l)) ∧
    ((∀ s, source.Holds p s → ∀ r ∈ s.reference?, ∀ l ∈ r.parentValue, l.isBlank = true →
        r.parentOperator = none) →
      ∀ l, .literal l ∈ e.subexpressions → l.isBlank = false) ∧
    (source.given.compileSteps (p.steps.map Step.given) p.connectors).expression = some e ∧
    ∀ (r : Reference) (l : Literal) (below : Expression), r.parentValue = some l →
      (({ r with parentValue := none } : Reference).wrap below = r.wrap below ↔
        r.parentOperator = none) := by
  refine ⟨fun l => literal_mem_iff_of_isBlank he, fun hnone l hmem => ?_, ?_,
    fun r l below hvalue => ?_⟩
  · by_contra hl
    have hblank := Bool.eq_true_of_not_eq_false hl
    obtain ⟨sc, r, o, below, hwithin, hbelow, hvalue⟩ :=
      (literal_mem_iff_of_isBlank he hblank).mp hmem
    obtain ⟨s, hs, hr⟩ := hbelow.holds hwithin
    obtain ⟨-, -, -, ho⟩ := hbelow
    cases (hnone s hs r hr l hvalue hblank).symm.trans ho
  · rw [compileSteps, compileWithin_given]
    exact he
  · rw [Reference.wrap, Reference.wrap, hvalue]
    cases r.parentOperator <;> simp

/-- A sum with a blank value, which is compared beside its reference with a number. -/
theorem blank_literals_compared_sum :
    let five : Literal := .number (.whole 5 (by decide))
    let sum := ((Step.new ⟨"a"⟩ "rb" (.computed ["rb", "drb"] none)).withOperator .add).withLiteral
      (.text " ")
    let scores : SavedFilter := ⟨⟨"f"⟩, "sum of scores", none, [sum], [], false⟩
    let source := (FilterStore.ofList [scores]).source
    let r : Reference := ⟨⟨"f"⟩, some .greater, some five, false⟩
    let compared := { Step.ofFilter ⟨"c"⟩ r.filter "sum of scores" false with kind := .reference r }
    let p := Pipeline.ofParts [compared] []
    let e : Expression := .call "$gt" [.call "$add" [.field "rb", .field "drb"], .literal five]
    (source.compile p).expression = some e ∧
      ∀ l, .literal l ∈ e.subexpressions → l.isBlank = false := by
  intro five sum scores source r compared p e
  have hsum : sum.compileLocal = .ok (some (.call "$add" [.field "rb", .field "drb"])) := by
    rw [Step.compileLocal_eq rfl (by decide)]
    rfl
  have hlive : compared.liveReference? = some r := by decide
  have he : (source.compile p).expression = some e := compile_reference rfl hlive rfl rfl hsum
  obtain ⟨-, hgiven, -⟩ := blank_literals he
  exact ⟨he, hgiven (forall_holds (by decide) (by decide))⟩

/-- Beside a reference a blank text is compared with the sum. -/
theorem blank_text_is_compared :
    let blank : Literal := .text "  "
    let sum := (Step.new ⟨"a"⟩ "rb" (.computed ["rb", "drb"] none)).withOperator .add
    let scores : SavedFilter := ⟨⟨"f"⟩, "sum of scores", none, [sum], [], false⟩
    let source := (FilterStore.ofList [scores]).source
    let r : Reference := ⟨⟨"f"⟩, some .greater, some blank, false⟩
    let compared := { Step.ofFilter ⟨"c"⟩ r.filter "sum of scores" false with kind := .reference r }
    let p := Pipeline.ofParts [compared] []
    let e : Expression := .call "$gt" [.call "$add" [.field "rb", .field "drb"], .literal blank]
    (source.compile p).expression = some e ∧ .literal blank ∈ e.subexpressions ∧
      blank.isBlank = true := by
  intro blank sum scores source r compared p e
  have hsum : sum.compileLocal = .ok (some (.call "$add" [.field "rb", .field "drb"])) := by
    rw [Step.compileLocal_eq rfl (by decide)]
    rfl
  have hlive : compared.liveReference? = some r := by decide
  have hmem : .literal blank ∈ e.subexpressions := by simp [e]
  have he : (source.compile p).expression = some e := compile_reference rfl hlive rfl rfl hsum
  exact ⟨he, hmem, by decide⟩

end FilterSource

end AlertFilter
