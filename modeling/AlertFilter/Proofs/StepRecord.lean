import AlertFilter.Proofs.KindRecord

/-!
# Steps read back from the wire

A step that is encoded as a JSON value and decoded again is the same step, except that a
value which counts as missing has become no value. A value in memory has its members
sorted, so the fields of the kind stand among those of the step: reading sets them aside
in their order, and the kind is read from them alone.
-/

namespace AlertFilter

open Json

namespace StepValue

def wireLiteral? : StepValue → Option Literal
  | empty => none
  | literal l => some l
  | field path => some (.text path)

lemma readsAs_wire (v : StepValue) :
    ReadsAs (Decoder.optional Literal.decode) (canonical v.toWire.1) v.wireLiteral? := by
  cases v with
  | empty => exact .ofNull
  | literal l => exact (readsAs_literal l).optional l.canonical_toJson_ne_null
  | field path => exact (readsAs_literal (.text path)).optional Json.noConfusion

end StepValue

namespace Step

/-- The names of the fields of a step, older spellings included. -/
def fieldNames : List String :=
  ["id", "label", "fieldName", "field", "operator", "value", "isValueField", "kind", "type",
    "minValue", "maxValue"]

/-- The fields of a step are read each on its own, wherever the record comes from; what is kept for
the kind has to be read to the bottom. -/
lemma foldMembers_take {origin : Origin} {members : Members} {s t : Slots} :
    Decoder.foldMembers (take origin) s (Document.ofMembers members) = .ok t ↔
      Fills ["id"] StepId.decode origin s.id members t.id ∧
      Fills ["label"] Decoder.text origin s.label members t.label ∧
      Fills ["fieldName", "field"] Decoder.text origin s.fieldName members t.fieldName ∧
      Fills ["operator"] (Decoder.optional Operator.decode) origin s.operator members t.operator ∧
      Fills ["value"] (Decoder.optional Literal.decode) origin s.value members t.value ∧
      Fills ["isValueField"] Decoder.bool origin s.isValueField members t.isValueField ∧
      Fills ["kind", "type"] (Decoder.optional Decoder.text) origin s.kind members t.kind ∧
      Fills ["minValue"] (Decoder.optional Literal.decode) origin s.minValue members t.minValue ∧
      Fills ["maxValue"] (Decoder.optional Literal.decode) origin s.maxValue members t.maxValue ∧
      (∀ m ∈ members, m.1 ∉ fieldNames → origin.Reaches m.2) ∧
      t.rest = s.rest ++ members.filter fun m => m.1 ∉ fieldNames := by
  apply foldMembers_eq_ok_iff
  · intro s t
    simp only [Fills, List.filter_nil, List.append_nil, List.not_mem_nil, false_implies,
      implies_true, true_and]
    grind [cases Slots]
  · intro s name v rest t
    unfold take
    split
    case h_12 =>
      simp only [bind_eq_ok_iff, value_eq_ok_iff]
      simp_all [Fills, fieldNames, pure, Except.pure]
      grind
    all_goals
      simp only [Fills, set_fill_eq_ok, exists_filled, fieldNames, List.filter_cons, List.mem_cons,
        List.not_mem_nil, or_false, or_true, String.reduceEq, reduceIte, not_true_eq_false,
        decide_false, Bool.false_eq_true, forall_eq_or_imp, false_implies, true_and]
      grind

/-- What is kept for the kind are the members that are no fields of the step. -/
lemma rest_of_foldMembers {origin : Origin} {members : Members} {s t : Slots} (hs : s.rest = [])
    (h : Decoder.foldMembers (take origin) s (Document.ofMembers members) = .ok t) :
    t.rest = members.filter fun m => m.1 ∉ fieldNames := by
  obtain ⟨-, -, -, -, -, -, -, -, -, -, hrest⟩ := foldMembers_take.mp h
  rw [hrest, hs, List.nil_append]

/-- The fields of a kind have names of their own. -/
lemma notMem_fieldNames (k : StepKind) : ∀ m ∈ k.fields, m.1 ∉ fieldNames := by
  have h : k.fields.filter (fun m => m.1 ∈ fieldNames) = [] := by
    cases k with
    | range r => obtain ⟨_, _, _ | b⟩ := r <;> rfl
    | array operation => cases operation <;> rfl
    | computed operands operation => cases operation <;> rfl
    | reference r => obtain ⟨_, _ | o, _ | l, _⟩ := r <;> rfl
    | element | evaluation | generic => rfl
  simpa using List.filter_eq_nil_iff.mp h

lemma filter_mem_fields (k : StepKind) {names : List String} (h : ∀ n ∈ names, n ∈ fieldNames) :
    k.fields.filter (fun m => m.1 ∈ names) = [] := by
  refine List.filter_eq_nil_iff.mpr fun m hm hmem => ?_
  exact notMem_fieldNames k m hm (h m.1 (by simpa using hmem))

lemma filter_notMem_fields (k : StepKind) {names : List String}
    (h : ∀ n ∈ names, n ∈ fieldNames) :
    k.fields.filter (fun m => m.1 ∉ names) = k.fields := by
  refine List.filter_eq_self.mpr fun m hm => ?_
  have hmem : m.1 ∉ names := fun hmem => notMem_fieldNames k m hm (h m.1 hmem)
  simpa using hmem

lemma kindTag_name (k : StepKind) : kindTag (some k.name) = k.name := by
  have h : ∀ n ∈ ["range", "array", "element", "evaluation", "computed", "customFilterRef",
      "generic"], kindTag (some n) = n := by decide
  cases k <;> exact h _ (by simp [StepKind.name])

/-- The fields that the kind is read from, without its tag. -/
def kindFields (s : Slots) : Members :=
  let rest := canonicalForm s.rest
  let min := s.minValue.getD none
  let max := s.maxValue.getD none
  if (lookup "bounds" rest).isNone && (min.isSome || max.isSome) then
    insertMember "bounds" (canonical (Bounds.toJson ⟨min, max⟩)) rest
  else rest

lemma kindMembers_eq (s : Slots) :
    kindMembers s = insertMember "kind" (.text (kindTag (s.kind.getD none))) (kindFields s) := rfl

lemma sorted_kindFields (s : Slots) : Sorted (kindFields s) := by
  have hrest : Sorted (canonicalForm s.rest) := sorted_sortMembers _
  unfold kindFields
  dsimp only
  split
  · exact hrest.insertMember
  · exact hrest

/-- The ends of a range written beside the step are no matter of the other fields. -/
lemma filter_kindFields (s : Slots) {names : List String} (h : "bounds" ∉ names) :
    (kindFields s).filter (fun m => m.1 ∈ names) =
      canonicalForm (s.rest.filter fun m => m.1 ∈ names) := by
  have hrest : Sorted (canonicalForm s.rest) := sorted_sortMembers _
  have hfilter := filter_canonicalForm (fun n => n ∈ names) s.rest
  unfold kindFields
  dsimp only
  split
  · rw [hrest.filter_insertMember (fun n => n ∈ names), if_neg (by simpa using h), hfilter]
  · exact hfilter

/-- The kind is read from its tag and the fields beside it, as the tag itself is none of these. -/
lemma decode_kindMembers {s : Slots} (h : ∀ m ∈ s.rest, m.1 ∉ fieldNames) :
    decodeValue StepKind.decode (.object (kindMembers s)) =
      StepKind.ofMembers (Document.ofMembers (kindFields s))
        (.ofName (kindTag (s.kind.getD none))) := by
  have hrest : s.rest.filter (fun m => m.1 ∈ ["kind"]) = [] := by
    refine List.filter_eq_nil_iff.mpr fun m hm hkind => h m hm ?_
    have hname : m.1 = "kind" := by simpa using hkind
    rw [hname]
    decide
  have hsorted := sorted_kindFields s
  have htag : (kindFields s).filter (fun m => m.1 ∈ ["kind"]) = [] := by
    rw [filter_kindFields s (by decide), hrest]
    rfl
  have hother : (kindFields s).filter (fun m => m.1 ∉ ["kind"]) = kindFields s := by
    simpa using htag
  have hfold : Decoder.foldMembers (Tagged.take "kind" StepKind.decodeTag .value) ⟨none, []⟩
      (Document.ofMembers (kindMembers s)) =
        .ok ⟨some (.ofName (kindTag (s.kind.getD none))), kindFields s⟩ := by
    rw [kindMembers_eq]
    refine (foldMembers_takeTagged rfl).mpr ⟨?_, ?_⟩
    · refine .present "kind" (.text (kindTag (s.kind.getD none))) ?_ (fun _ _ => rfl) rfl
      rw [hsorted.filter_insertMember (fun n => n ∈ ["kind"]), htag]
      rfl
    · rw [hsorted.filter_insertMember (fun n => n ∉ ["kind"]), hother]
      rfl
  simp only [decodeValue, StepKind.decode, Document.ofJson, decodeTagged, Origin.enter, hfold, bind,
    Except.bind, Decoder.atEnd, Decoder.required]

lemma ofSlots_eq_ok_iff {t : Slots} {s : Step} :
    ofSlots t = .ok s ↔
      t.id = some s.id ∧ t.label.getD "" = s.label ∧ t.fieldName.getD "" = s.fieldName ∧
      t.operator.getD none = s.operator ∧
      StepValue.ofWire (t.value.getD none) (t.isValueField.getD false) = s.value ∧
      decodeValue StepKind.decode (.object (kindMembers t)) = .ok s.kind := by
  have hid : ∀ id, Decoder.required t.id "id" = .ok id ↔ t.id = some id := by
    intro id
    cases t.id <;> simp [Decoder.required, Decoder.shapeError]
  simp only [ofSlots, bind_eq_ok_iff, hid]
  constructor
  · rintro ⟨id, hid, kind, hkind, hs⟩
    obtain rfl := Except.ok.inj hs
    exact ⟨hid, rfl, rfl, rfl, rfl, hkind⟩
  · rintro ⟨hid, hlabel, hfield, hoperator, hvalue, hkind⟩
    refine ⟨s.id, hid, s.kind, hkind, ?_⟩
    rw [hlabel, hfield, hoperator, hvalue]
    rfl

/-- An object is read as a step through the slots that its members fill. -/
lemma decode_object_eq_ok_iff {members : Members} {origin : Origin} {s : Step} :
    decode origin (.ofJson (.object members)) = .ok s ↔
      ∃ inner, origin.enter = .ok inner ∧
        ∃ t, Decoder.foldMembers (take inner) {} (Document.ofMembers members) = .ok t ∧
          ofSlots t = .ok s := by
  simp only [Document.ofJson, decode, bind_eq_ok_iff]
  constructor
  · rintro ⟨inner, hinner, t, ht, -, -, hs⟩
    exact ⟨inner, hinner, t, ht, hs⟩
  · rintro ⟨inner, hinner, t, ht, hs⟩
    exact ⟨inner, hinner, t, ht, (), rfl, hs⟩

lemma decodeValue_object_eq_ok_iff {members : Members} {s : Step} :
    decodeValue decode (.object members) = .ok s ↔
      ∃ t, Decoder.foldMembers (take .value) {} (Document.ofMembers members) = .ok t ∧
        ofSlots t = .ok s := by
  rw [decodeValue, decode_object_eq_ok_iff]
  constructor
  · rintro ⟨_, hinner, hread⟩
    obtain rfl := Except.ok.inj hinner
    exact hread
  · intro hread
    exact ⟨.value, rfl, hread⟩

/-- The step that is left on the wire: a value that counts as missing is none. -/
def normal (s : Step) : Step :=
  { s with value := if s.value.isMissing then .empty else s.value }

def slots (s : Step) : Slots where
  id := some s.id
  label := some s.label
  fieldName := some s.fieldName
  operator := some s.operator
  value := some s.value.wireLiteral?
  isValueField := some s.value.toWire.2
  kind := some (some s.kind.name)
  rest := canonicalForm s.kind.fields

/-- The members of an encoded step that are not fields of its kind. -/
def ownMembers (s : Step) : Members :=
  [("id", .text s.id.text), ("label", .text s.label), ("fieldName", .text s.fieldName),
    ("operator", orNull Operator.codeJson s.operator), ("value", s.value.toWire.1),
    ("isValueField", .bool s.value.toWire.2), ("kind", .text s.kind.name)]

lemma toJson_eq (s : Step) : s.toJson = .object (s.ownMembers ++ s.kind.fields) := by
  rw [toJson, StepKind.members_eq]
  rfl

lemma filter_mem_members (s : Step) {names : List String} (h : ∀ n ∈ names, n ∈ fieldNames) :
    (s.ownMembers ++ s.kind.fields).filter (fun m => m.1 ∈ names) =
      s.ownMembers.filter fun m => m.1 ∈ names := by
  rw [List.filter_append, filter_mem_fields s.kind h, List.append_nil]

lemma foldMembers_members (s : Step) {origin : Origin} (ho : origin.depth = none) :
    Decoder.foldMembers (take origin) {}
        (Document.ofMembers (canonicalForm (s.ownMembers ++ s.kind.fields))) = .ok s.slots := by
  refine foldMembers_take.mpr ⟨?_, ?_, ?_, ?_, ?_, ?_, ?_, ?_, ?_,
    fun m _ _ => Origin.reaches_of_depth ho m.2, ?_⟩
  · exact .present_canonical "id" _ (filter_mem_members s (by decide)) (readsAs_stepId s.id) ho
  · exact .present_canonical "label" (.text s.label) (filter_mem_members s (by decide))
      (readsAs_text s.label) ho
  · exact .present_canonical "fieldName" (.text s.fieldName) (filter_mem_members s (by decide))
      (readsAs_text s.fieldName) ho
  · exact .present_canonical "operator" _ (filter_mem_members s (by decide))
      (readsAs_optionalOperator s.operator) ho
  · exact .present_canonical "value" _ (filter_mem_members s (by decide)) s.value.readsAs_wire ho
  · exact .present_canonical "isValueField" (.bool s.value.toWire.2)
      (filter_mem_members s (by decide)) (readsAs_bool _) ho
  · exact .present_canonical "kind" (.text s.kind.name) (filter_mem_members s (by decide))
      ((readsAs_text s.kind.name).optional Json.noConfusion) ho
  · exact .absent_canonical (filter_mem_members s (by decide))
  · exact .absent_canonical (filter_mem_members s (by decide))
  · rw [filter_canonicalForm (fun n => n ∉ fieldNames), List.filter_append,
      filter_notMem_fields s.kind fun _ h => h]
    rfl

lemma ofWire_toWire (v : StepValue) :
    StepValue.ofWire v.wireLiteral? v.toWire.2 = if v.isMissing then .empty else v := by
  cases v with
  | empty => rfl
  | literal l => rfl
  | field path => rfl

lemma kindFields_slots (s : Step) : kindFields s.slots = canonicalForm s.kind.fields := by
  have hform : canonicalForm s.slots.rest = canonicalForm s.kind.fields :=
    canonicalForm_canonicalForm s.kind.fields
  simp only [kindFields, hform]
  simp [slots]

lemma ofSlots_slots (s : Step) : ofSlots s.slots = .ok s.normal := by
  have hrest : ∀ m ∈ s.slots.rest, m.1 ∉ fieldNames := by
    have h : s.slots.rest.filter (fun m => m.1 ∈ fieldNames) = [] := by
      rw [slots, filter_canonicalForm (fun n => n ∈ fieldNames),
        filter_mem_fields s.kind fun _ h => h]
      rfl
    simpa using List.filter_eq_nil_iff.mp h
  have hkind : decodeValue StepKind.decode (.object (kindMembers s.slots)) = .ok s.kind := by
    have htag : kindTag (s.slots.kind.getD none) = s.kind.name := kindTag_name s.kind
    rw [decode_kindMembers hrest, kindFields_slots, htag, StepKind.ofMembers_fields]
  exact ofSlots_eq_ok_iff.mpr ⟨rfl, rfl, rfl, rfl, ofWire_toWire s.value, hkind⟩

/-- A step survives the way to the wire and back but for a value that counts as missing. -/
theorem readsAs (s : Step) : ReadsAs decode (canonical s.toJson) s.normal := by
  rw [toJson_eq, canonical_object]
  exact .of_foldMembers (fun _ ho => s.foldMembers_members ho) s.ofSlots_slots fun _ _ _ => rfl

/-- An object that is read in memory is read from anywhere, if it is not nested too deep. -/
theorem decode_of_reaches {members : Members} {s : Step} {origin : Origin}
    (hreaches : origin.Reaches (.object members))
    (h : decodeValue decode (.object members) = .ok s) :
    decode origin (.ofJson (.object members)) = .ok s := by
  obtain ⟨inner, hinner, hmembers⟩ := hreaches.enter
  obtain ⟨t, ht, hs⟩ := decodeValue_object_eq_ok_iff.mp h
  obtain ⟨hid, hlabel, hfield, hoperator, hvalue, hisField, hkind, hmin, hmax, -, hrest⟩ :=
    foldMembers_take.mp ht
  refine decode_object_eq_ok_iff.mpr ⟨inner, hinner, t, foldMembers_take.mpr ?_, hs⟩
  exact ⟨hid.of_uniform uniform_stepId hmembers, hlabel.of_uniform uniform_text hmembers,
    hfield.of_uniform uniform_text hmembers,
    hoperator.of_uniform uniform_operator.optional hmembers,
    hvalue.of_uniform uniform_literal.optional hmembers,
    hisField.of_uniform uniform_bool hmembers, hkind.of_uniform uniform_text.optional hmembers,
    hmin.of_uniform uniform_literal.optional hmembers,
    hmax.of_uniform uniform_literal.optional hmembers, fun m hm _ => hmembers m hm, hrest⟩

end Step

end AlertFilter
