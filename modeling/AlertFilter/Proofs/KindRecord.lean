import AlertFilter.Proofs.RecordFields
import AlertFilter.Step.Record

/-!
# The parts of a step read back from the wire

Literals, operators and bounds are read as they were written. So is a kind, from its tag
and the fields beside it.
-/

namespace AlertFilter

open Json

/-- A field that is left out when there is nothing to write. -/
lemma Json.Fills.memberIf_canonical {α : Type} {names : List String} {decode : Decoder α}
    {origin : Origin} {members : Members} {o : Option α} (name : String) (encode : α → Json)
    (h : members.filter (fun m => m.1 ∈ names) = memberIf name encode o)
    (hv : ∀ a, ReadsAs decode (canonical (encode a)) a) (hne : ∀ a, canonical (encode a) ≠ .null)
    (ho : origin.depth = none) :
    Fills names (Decoder.optional decode) origin none (canonicalForm members) (o.map some) := by
  cases o with
  | none => exact .absent_canonical h
  | some a => exact .present_canonical name (encode a) h ((hv a).optional (hne a)) ho

mutual

lemma Literal.canonical_toJson : ∀ l : Literal, canonical l.toJson = l.toJson
  | .bool _ | .number _ | .text _ => rfl
  | .list items => by rw [Literal.toJson, canonical, Literal.canonicalItems_toJsonItems items]

lemma Literal.canonicalItems_toJsonItems :
    ∀ items : List Literal, canonicalItems (Literal.toJsonItems items) = Literal.toJsonItems items
  | [] => rfl
  | l :: rest => by
    rw [Literal.toJsonItems, canonicalItems, Literal.canonical_toJson l,
      Literal.canonicalItems_toJsonItems rest]

end

mutual

lemma Literal.ofJson?_toJson : ∀ l : Literal, Literal.ofJson? l.toJson = some l
  | .bool _ | .number _ | .text _ => rfl
  | .list items => by
    rw [Literal.toJson, Literal.ofJson?, Literal.ofJsonItems?_toJsonItems items, Option.map_some]

lemma Literal.ofJsonItems?_toJsonItems :
    ∀ items : List Literal, Literal.ofJsonItems? (Literal.toJsonItems items) = some items
  | [] => rfl
  | l :: rest => by
    rw [Literal.toJsonItems, Literal.ofJsonItems?, Literal.ofJson?_toJson l,
      Literal.ofJsonItems?_toJsonItems rest]

end

lemma Literal.canonical_toJson_ne_null (l : Literal) : canonical l.toJson ≠ .null := by
  rw [l.canonical_toJson]
  cases l <;> simp [Literal.toJson]

lemma readsAs_literal (l : Literal) : ReadsAs Literal.decode (canonical l.toJson) l := by
  intro origin h
  rw [Literal.canonical_toJson, Literal.decode, readsAs_value _ origin h]
  simp only [bind, Except.bind, Literal.ofJson?_toJson]
  rfl

lemma readsAs_operator (o : Operator) : ReadsAs Operator.decode o.codeJson o := by
  intro origin h
  rw [Operator.decode, readsAs_value _ origin h]
  simp only [bind, Except.bind, Operator.codeJson, Operator.wireCode?, Operator.ofCode?_code]
  rfl

lemma readsAs_filterId (id : FilterId) : ReadsAs FilterId.decode id.toJson id := by
  intro origin h
  rw [FilterId.decode, readsAs_value _ origin h]
  rfl

lemma readsAs_stepId (id : StepId) : ReadsAs StepId.decode (.text id.text) id := fun _ _ => rfl

lemma uniform_stepId : Uniform StepId.decode := by
  intro _ _ v _ _ h
  cases v <;> exact h

lemma uniform_operator : Uniform Operator.decode := uniform_value

lemma uniform_literal : Uniform Literal.decode := uniform_value

lemma readsAs_optionalLiteral (o : Option Literal) :
    ReadsAs (Decoder.optional Literal.decode) (canonical (orNull Literal.toJson o)) o := by
  cases o with
  | none => exact .ofNull
  | some l => exact (readsAs_literal l).optional l.canonical_toJson_ne_null

lemma readsAs_optionalOperator (o : Option Operator) :
    ReadsAs (Decoder.optional Operator.decode) (canonical (orNull Operator.codeJson o)) o := by
  cases o with
  | none => exact .ofNull
  | some op => exact (readsAs_operator op).optional Json.noConfusion

lemma readsAs_texts (items : List String) :
    ReadsAs (Decoder.list Decoder.text) (canonical (.array (items.map .text))) items := by
  have h : ReadsAs (Decoder.list Decoder.text) (.array (items.map .text)) (items.map id) :=
    .list fun s _ => readsAs_text s
  rw [List.map_id] at h
  rwa [canonical, canonicalItems_eq_map, List.map_map]

namespace Bounds

lemma foldMembers_take {origin : Origin} {members : Members} {s t : Slots} :
    Decoder.foldMembers (take origin) s (Document.ofMembers members) = .ok t ↔
      Fills ["min"] (Decoder.optional Literal.decode) origin s.min members t.min ∧
      Fills ["max"] (Decoder.optional Literal.decode) origin s.max members t.max := by
  apply foldMembers_eq_ok_iff
  · intro s t
    simp only [Fills]
    grind [cases Slots]
  · intro s name v rest t
    unfold take
    split
    case h_3 => simp_all [Fills, decoder_skip_ofJson, bind, Except.bind, pure, Except.pure]
    all_goals
      simp only [Fills, set_fill_eq_ok, exists_filled, List.mem_singleton, String.reduceEq,
        reduceIte]
      grind

lemma readsAs (b : Bounds) : ReadsAs decode (canonical b.toJson) b := by
  refine ReadsAs.of_foldMembers (t := ⟨some b.min, some b.max⟩) (fun origin ho => ?_) rfl
    fun _ _ _ => rfl
  rw [← canonicalForm, foldMembers_take]
  constructor
  · exact .present_canonical "min" _ rfl (readsAs_optionalLiteral b.min) ho
  · exact .present_canonical "max" _ rfl (readsAs_optionalLiteral b.max) ho

end Bounds

namespace StepKind

/-- The fields beside the tag. -/
def fields (k : StepKind) : Members := k.members.tail

lemma members_eq (k : StepKind) : k.members = ("kind", .text k.name) :: k.fields := by
  cases k <;> rfl

lemma foldMembers_takeRange {members : Members} {s t : RangeSlots} :
    Decoder.foldMembers takeRange s (Document.ofMembers members) = .ok t ↔
      Fills ["hasAbs"] Decoder.bool .aside s.hasAbs members t.hasAbs ∧
      Fills ["useAbs"] Decoder.bool .aside s.useAbs members t.useAbs ∧
      Fills ["bounds"] (Decoder.optional Bounds.decode) .aside s.bounds members t.bounds := by
  apply foldMembers_eq_ok_iff
  · intro s t
    simp only [Fills]
    grind [cases RangeSlots]
  · intro s name v rest t
    unfold takeRange
    split
    case h_4 => simp_all [Fills, pure, Except.pure]
    all_goals
      simp only [Fills, set_fill_eq_ok, exists_filled, List.mem_singleton, String.reduceEq,
        reduceIte]
      grind

lemma foldMembers_takeArray {members : Members} {s t : Option (Option String)} :
    Decoder.foldMembers takeArray s (Document.ofMembers members) = .ok t ↔
      Fills ["operation"] (Decoder.optional Decoder.text) .aside s members t := by
  apply foldMembers_eq_ok_iff
  · exact fun s t => eq_comm
  · intro s name v rest t
    unfold takeArray
    split
    case h_2 => simp_all [Fills, pure, Except.pure]
    simp only [Fills, fill_eq_ok, exists_filled, List.mem_singleton, reduceIte]

lemma foldMembers_takeComputed {members : Members} {s t : ComputedSlots} :
    Decoder.foldMembers takeComputed s (Document.ofMembers members) = .ok t ↔
      Fills ["operands"] (Decoder.list Decoder.text) .aside s.operands members t.operands ∧
      Fills ["operation"] (Decoder.optional Operator.decode) .aside s.operation members
        t.operation := by
  apply foldMembers_eq_ok_iff
  · intro s t
    simp only [Fills]
    grind [cases ComputedSlots]
  · intro s name v rest t
    unfold takeComputed
    split
    case h_3 => simp_all [Fills, pure, Except.pure]
    all_goals
      simp only [Fills, set_fill_eq_ok, exists_filled, List.mem_singleton, String.reduceEq,
        reduceIte]
      grind

lemma foldMembers_takeReference {members : Members} {s t : ReferenceSlots} :
    Decoder.foldMembers takeReference s (Document.ofMembers members) = .ok t ↔
      Fills ["filterId", "fieldReference"] FilterId.decode .aside s.filter members t.filter ∧
      Fills ["parentOperator"] (Decoder.optional Operator.decode) .aside s.parentOperator members
        t.parentOperator ∧
      Fills ["parentValue"] (Decoder.optional Literal.decode) .aside s.parentValue members
        t.parentValue ∧
      Fills ["isBoolean"] Decoder.bool .aside s.isBoolean members t.isBoolean := by
  apply foldMembers_eq_ok_iff
  · intro s t
    simp only [Fills]
    grind [cases ReferenceSlots]
  · intro s name v rest t
    unfold takeReference
    split
    case h_6 => simp_all [Fills, pure, Except.pure]
    all_goals
      simp only [Fills, set_fill_eq_ok, exists_filled, List.mem_cons, List.not_mem_nil, or_false,
        String.reduceEq, reduceIte, false_or]
      grind

lemma ofMembers_range (r : RangeSettings) :
    ofMembers (Document.ofMembers (canonicalForm (range r).fields)) .range = .ok (range r) := by
  obtain ⟨hasAbs, useAbs, bounds⟩ := r
  have h : Decoder.foldMembers takeRange ⟨none, none, none⟩
      (Document.ofMembers (canonicalForm (range ⟨hasAbs, useAbs, bounds⟩).fields)) =
        .ok ⟨some hasAbs, some useAbs, bounds.map some⟩ := by
    refine foldMembers_takeRange.mpr ⟨?_, ?_, ?_⟩
    · exact .present_canonical "hasAbs" (.bool hasAbs) (by cases bounds <;> rfl)
        (readsAs_bool _) rfl
    · exact .present_canonical "useAbs" (.bool useAbs) (by cases bounds <;> rfl)
        (readsAs_bool _) rfl
    · exact .memberIf_canonical "bounds" Bounds.toJson (by cases bounds <;> rfl)
        Bounds.readsAs (fun _ => Json.noConfusion) rfl
  rw [ofMembers, h]
  cases bounds <;> rfl

lemma ofMembers_array (operation : Option String) :
    ofMembers (Document.ofMembers (canonicalForm (array operation).fields)) .array =
      .ok (array operation) := by
  have h : Decoder.foldMembers takeArray none
      (Document.ofMembers (canonicalForm (array operation).fields)) =
        .ok (operation.map some) := by
    refine foldMembers_takeArray.mpr ?_
    exact .memberIf_canonical "operation" .text (by cases operation <;> rfl) readsAs_text
      (fun _ => Json.noConfusion) rfl
  rw [ofMembers, h]
  cases operation <;> rfl

lemma ofMembers_computed (operands : List String) (operation : Option Operator) :
    ofMembers (Document.ofMembers (canonicalForm (computed operands operation).fields))
      .computed = .ok (computed operands operation) := by
  have h : Decoder.foldMembers takeComputed ⟨none, none⟩
      (Document.ofMembers (canonicalForm (computed operands operation).fields)) =
        .ok ⟨some operands, operation.map some⟩ := by
    refine foldMembers_takeComputed.mpr ⟨?_, ?_⟩
    · exact .present_canonical "operands" (.array (operands.map .text))
        (by cases operation <;> rfl) (readsAs_texts operands) rfl
    · exact .memberIf_canonical "operation" Operator.codeJson (by cases operation <;> rfl)
        readsAs_operator (fun _ => Json.noConfusion) rfl
  rw [ofMembers, h]
  cases operation <;> rfl

lemma ofMembers_reference (r : Reference) :
    ofMembers (Document.ofMembers (canonicalForm (reference r).fields)) .reference =
      .ok (reference r) := by
  obtain ⟨filter, o, l, isBoolean⟩ := r
  have h : Decoder.foldMembers takeReference ⟨none, none, none, none⟩
      (Document.ofMembers (canonicalForm (reference ⟨filter, o, l, isBoolean⟩).fields)) =
        .ok ⟨some filter, o.map some, l.map some, some isBoolean⟩ := by
    refine foldMembers_takeReference.mpr ⟨?_, ?_, ?_, ?_⟩
    · exact .present_canonical "filterId" filter.toJson (by cases o <;> cases l <;> rfl)
        (readsAs_filterId filter) rfl
    · exact .memberIf_canonical "parentOperator" Operator.codeJson
        (by cases o <;> cases l <;> rfl) readsAs_operator (fun _ => Json.noConfusion) rfl
    · exact .memberIf_canonical "parentValue" Literal.toJson
        (by cases o <;> cases l <;> rfl) readsAs_literal Literal.canonical_toJson_ne_null rfl
    · exact .present_canonical "isBoolean" (.bool isBoolean) (by cases o <;> cases l <;> rfl)
        (readsAs_bool _) rfl
  rw [ofMembers, h]
  cases o <;> cases l <;> rfl

/-- A kind is read back from its tag and its fields. -/
theorem ofMembers_fields (k : StepKind) :
    ofMembers (Document.ofMembers (canonicalForm k.fields)) (.ofName k.name) = .ok k := by
  cases k with
  | range r => exact ofMembers_range r
  | array operation => exact ofMembers_array operation
  | computed operands operation => exact ofMembers_computed operands operation
  | reference r => exact ofMembers_reference r
  | element | evaluation | generic => rfl

end StepKind

lemma foldMembers_takeTagged {τ : Type} {tagName : String} {decodeTag : Decoder τ}
    {origin : Origin} (ho : origin.depth = none) {members : Members} {t u : Tagged τ} :
    Decoder.foldMembers (Tagged.take tagName decodeTag origin) t (Document.ofMembers members) =
        .ok u ↔
      Fills [tagName] decodeTag origin t.tag members u.tag ∧
      u.members = t.members ++ members.filter fun m => m.1 ∉ [tagName] := by
  apply foldMembers_eq_ok_iff
  · intro t u
    simp only [Fills, List.filter_nil, List.append_nil]
    grind [cases Tagged]
  · intro t name v rest u
    unfold Tagged.take
    by_cases hname : name = tagName
    · simp only [hname, Fills, reduceIte, set_fill_eq_ok, exists_filled, List.mem_singleton,
        List.filter_cons, not_true_eq_false, decide_false, Bool.false_eq_true]
      grind
    · rw [readsAs_value v origin ho]
      simp_all [Fills, bind, Except.bind, pure, Except.pure]

end AlertFilter
