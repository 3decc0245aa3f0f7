import AlertFilter.Proofs.DecodedSteps

/-!
# The way to the wire and back

Steps, pipelines, saved filters and drafts are read back from their JSON values as they were
written, but for values that count as missing. What has been read once, from a record of
whatever age or form, is read back as it is.
-/

namespace AlertFilter

open Json

variable {α : Type}

/-- What is written is read back in a normal form, and what has once been read is read back
exactly. -/
structure RoundTrip (decode : Decoder α) (encode : α → Json) (normal : α → α) : Prop where
  written : ∀ a, decodeValue decode (canonical (encode a)) = .ok (normal a)
  read : ∀ v a, decodeValue decode v = .ok a →
    decodeValue decode (canonical (encode a)) = .ok a

lemma RoundTrip.of_readsAs {decode : Decoder α} {encode : α → Json} {normal : α → α}
    (hread : ∀ a, ReadsAs decode (canonical (encode a)) (normal a))
    (hnormal : ∀ origin v a, decode origin (.ofJson v) = .ok a → normal a = a) :
    RoundTrip decode encode normal where
  written a := hread a .value rfl
  read v a h := by
    have ha := hread a .value rfl
    rwa [hnormal _ _ a h] at ha

lemma eq_some_of_required {slot : Option α} {name : String} {a : α}
    (h : Decoder.required slot name = .ok a) : slot = some a := by
  cases slot with
  | none => cases h
  | some b => rw [Except.ok.inj h]

namespace Pipeline

lemma foldMembers_take {origin : Origin} {members : Members} {s t : Slots} :
    Decoder.foldMembers (take origin) s (Document.ofMembers members) = .ok t ↔
      Fills ["steps"] (Decoder.list Step.decode) origin s.steps members t.steps ∧
      Fills ["operators", "connectors"] (Decoder.list Connector.decode) origin s.connectors
        members t.connectors := by
  apply foldMembers_eq_ok_iff
  · intro s t
    simp only [Fills]
    grind [cases Slots]
  · intro s name v rest t
    unfold take
    split
    case h_4 => simp_all [Fills, decoder_skip_ofJson, bind, Except.bind, pure, Except.pure]
    all_goals
      simp only [Fills, set_fill_eq_ok, exists_filled, List.mem_cons, List.not_mem_nil, or_false,
        or_true, String.reduceEq, reduceIte]
      grind

/-- The pipeline that is left on the wire. -/
def normal (p : Pipeline) : Pipeline :=
  ⟨p.steps.map Step.normal, p.connectors, by rw [List.length_map, p.length_connectors]⟩

lemma ofParts_of_length {steps : List Step} {connectors : List Connector}
    (h : connectors.length = expectedConnectors steps.length) :
    ofParts steps connectors = ⟨steps, connectors, h⟩ := by
  simp only [ofParts, fitConnectors_of_length h]

theorem readsAs (p : Pipeline) : ReadsAs decode (canonical p.toJson) p.normal := by
  refine .of_foldMembers (t := ⟨some p.normal.steps, some p.normal.connectors⟩)
    (fun origin ho => foldMembers_take.mpr ⟨?_, ?_⟩) ?_ fun _ _ _ => rfl
  · exact .present_canonical "steps" _ rfl (readsAs_steps p.steps) ho
  · exact .present_canonical "operators" _ rfl (readsAs_connectors p.connectors) ho
  · exact congrArg Except.ok (ofParts_of_length p.normal.length_connectors)

lemma normal_ofParts {steps : List Step} (h : StepsNormal steps) (connectors : List Connector) :
    (ofParts steps connectors).normal = ofParts steps connectors := by
  have hsteps : steps.map Step.normal = steps := h
  simp only [normal, ofParts, hsteps]

theorem normal_of_decode {origin : Origin} {v : Json} {p : Pipeline}
    (h : decode origin (.ofJson v) = .ok p) : p.normal = p := by
  cases v with
  | object members =>
    simp only [Document.ofJson, decode, bind_eq_ok_iff] at h
    obtain ⟨origin', -, t, ht, -, -, hp⟩ := h
    obtain rfl := Except.ok.inj hp
    exact normal_ofParts (stepsNormal_getD_of_fills (foldMembers_take.mp ht).1) _
  | array items =>
    simp only [Document.ofJson, decode, bind_eq_ok_iff, Prod.exists] at h
    obtain ⟨inner, -, steps, c, hsteps, connectors, c', -, -, -, hp⟩ := h
    obtain rfl := Except.ok.inj hp
    exact normal_ofParts (stepsNormal_of_next (by simp [stepsNormal_nil]) hsteps) _
  | _ => cases h

end Pipeline

namespace SavedFilter

lemma normal_eq_self {f : SavedFilter} (h : StepsNormal f.steps) : f.normal = f := by
  have hsteps : f.steps.map Step.normal = f.steps := h
  rw [normal, hsteps]

theorem normal_of_decode {origin : Origin} {v : Json} {f : SavedFilter}
    (h : decode origin (.ofJson v) = .ok f) : f.normal = f := by
  cases v with
  | object members =>
    simp only [Document.ofJson, decode, bind_eq_ok_iff] at h
    obtain ⟨origin', -, t, ht, -, -, id, -, label, -, hf⟩ := h
    obtain rfl := Except.ok.inj hf
    exact normal_eq_self (stepsNormal_getD_of_fills (foldMembers_take.mp ht).2.2.2.1)
  | array items =>
    simp only [Document.ofJson, decode, bind_eq_ok_iff, Prod.exists] at h
    obtain ⟨inner, -, id, c₁, -, label, c₂, -, description, c₃, -, steps, c₄, hsteps, h⟩ := h
    obtain ⟨connectors, c₅, -, isBoolean, c₆, -, -, -, hf⟩ := h
    obtain rfl := Except.ok.inj hf
    exact normal_eq_self (stepsNormal_of_next (by simp [stepsNormal_nil]) hsteps)
  | _ => cases h

end SavedFilter

namespace FilterDraft

lemma foldMembers_take {origin : Origin} {members : Members} {s t : Slots} :
    Decoder.foldMembers (take origin) s (Document.ofMembers members) = .ok t ↔
      Fills ["label"] Decoder.text origin s.label members t.label ∧
      Fills ["description"] Decoder.text origin s.description members t.description ∧
      Fills ["steps"] (Decoder.list Step.decode) origin s.steps members t.steps ∧
      Fills ["operators"] (Decoder.list Connector.decode) origin s.connectors members
        t.connectors ∧
      Fills ["isBoolean"] Decoder.bool origin s.isBoolean members t.isBoolean := by
  apply foldMembers_eq_ok_iff
  · intro s t
    simp only [Fills]
    grind [cases Slots]
  · intro s name v rest t
    unfold take
    split
    case h_6 => simp_all [Fills, decoder_skip_ofJson, bind, Except.bind, pure, Except.pure]
    all_goals
      simp only [Fills, set_fill_eq_ok, exists_filled, List.mem_singleton, String.reduceEq,
        reduceIte]
      grind

/-- The draft that is left on the wire. -/
def normal (d : FilterDraft) : FilterDraft := { d with steps := d.steps.map Step.normal }

theorem readsAs (d : FilterDraft) : ReadsAs decode (canonical d.toJson) d.normal := by
  refine .of_foldMembers (t := ⟨some d.label, some d.description, some d.normal.steps,
    some d.connectors, some d.isBoolean⟩)
    (fun origin ho => foldMembers_take.mpr ⟨?_, ?_, ?_, ?_, ?_⟩) rfl fun _ _ _ => rfl
  · exact .present_canonical "label" (.text d.label) rfl (readsAs_text d.label) ho
  · exact .present_canonical "description" (.text d.description) rfl
      (readsAs_text d.description) ho
  · exact .present_canonical "steps" _ rfl (readsAs_steps d.steps) ho
  · exact .present_canonical "operators" _ rfl (readsAs_connectors d.connectors) ho
  · exact .present_canonical "isBoolean" (.bool d.isBoolean) rfl (readsAs_bool d.isBoolean) ho

lemma normal_eq_self {d : FilterDraft} (h : StepsNormal d.steps) : d.normal = d := by
  have hsteps : d.steps.map Step.normal = d.steps := h
  rw [normal, hsteps]

theorem normal_of_decode {origin : Origin} {v : Json} {d : FilterDraft}
    (h : decode origin (.ofJson v) = .ok d) : d.normal = d := by
  cases v with
  | object members =>
    simp only [Document.ofJson, decode, bind_eq_ok_iff] at h
    obtain ⟨origin', -, t, ht, -, -, label, -, description, -, steps, hsteps, h⟩ := h
    obtain ⟨connectors, -, isBoolean, -, hd⟩ := h
    obtain rfl := Except.ok.inj hd
    have hfills := (foldMembers_take.mp ht).2.2.1
    rw [eq_some_of_required hsteps] at hfills
    exact normal_eq_self (stepsNormal_of_fills hfills)
  | array items =>
    simp only [Document.ofJson, decode, bind_eq_ok_iff, Prod.exists] at h
    obtain ⟨inner, -, label, c₁, -, description, c₂, -, steps, c₃, hsteps, h⟩ := h
    obtain ⟨connectors, c₄, -, isBoolean, c₅, -, -, -, hd⟩ := h
    obtain rfl := Except.ok.inj hd
    exact normal_eq_self (stepsNormal_of_next (fun _ h => by cases h) hsteps)
  | _ => cases h

end FilterDraft

/-- Encoding and decoding are inverse up to values that count as missing. A step is read back
with no value in place of such a value and unchanged otherwise, and so are the steps of
pipelines, saved filters and drafts, with all else as it was, connectors and their number
included. What has been decoded once, from whatever value, is read back exactly. -/
theorem wire_round_trip :
    RoundTrip Step.decode Step.toJson
        (fun s => if s.value.isMissing then { s with value := .empty } else s) ∧
      RoundTrip Pipeline.decode Pipeline.toJson Pipeline.normal ∧
      RoundTrip SavedFilter.decode SavedFilter.toJson SavedFilter.normal ∧
      RoundTrip FilterDraft.decode FilterDraft.toJson FilterDraft.normal := by
  have hnormal : (fun s : Step => if s.value.isMissing then { s with value := .empty } else s) =
      Step.normal := by
    funext s
    rw [Step.normal]
    split <;> rfl
  refine ⟨?_, ?_, ?_, ?_⟩
  · rw [hnormal]
    exact .of_readsAs Step.readsAs fun _ _ _ => Step.normal_of_decode
  · exact .of_readsAs Pipeline.readsAs fun _ _ _ => Pipeline.normal_of_decode
  · exact .of_readsAs SavedFilter.readsAs fun _ _ _ => SavedFilter.normal_of_decode
  · exact .of_readsAs FilterDraft.readsAs fun _ _ _ => FilterDraft.normal_of_decode

/-- What is read of a range in an older form: its bounds stand beside it, and a list in place of
the path of the field that it compares with. -/
def olderRangeSlots : Step.Slots where
  id := some ⟨"s"⟩
  fieldName := some "jd"
  kind := some (some " range ")
  operator := some (some .between)
  value := some (some (.list [.text "a"]))
  isValueField := some true
  minValue := some (some (.list [.list [.bool true], .text "1"]))

/-- A record of an older form, with its bounds beside it and a list in place of a path, and a
step whose value is blank. -/
theorem wire_round_trip_older :
    let v : Json := .object [("id", .text "s"), ("field", .text "jd"), ("type", .text " range "),
      ("operator", .text "between"), ("minValue", .array [.array [.bool true], .text "1"]),
      ("value", .array [.text "a"]), ("isValueField", .bool true)]
    let s : Step := ⟨⟨"s"⟩, "", "jd", some .between, .field "[\"a\"]",
      .range ⟨false, false, some ⟨some (.list [.list [.bool true], .text "1"]), none⟩⟩⟩
    let blank := (Step.range ⟨"t"⟩ "rb").withLiteral (.text " ")
    decodeValue Step.decode v = .ok s ∧ decodeValue Step.decode (canonical s.toJson) = .ok s ∧
      decodeValue Step.decode (canonical blank.toJson) = .ok (Step.range ⟨"t"⟩ "rb") := by
  intro v s blank
  have hread : decodeValue Step.decode v = .ok s :=
    Step.decodeValue_object_eq_ok_iff.mpr ⟨olderRangeSlots, rfl, rfl⟩
  obtain ⟨hsteps, -⟩ := wire_round_trip
  exact ⟨hread, hsteps.read v s hread, hsteps.written blank⟩

end AlertFilter
