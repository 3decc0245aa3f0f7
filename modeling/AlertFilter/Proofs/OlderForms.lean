import AlertFilter.Proofs.KindFields
import Mathlib.Logic.Relation

/-!
# Older forms of a step

Records of older versions write a step in other ways: three fields have another name, the
tag of the kind is spelled differently or left out, an identifier is a database key, an
operator is the whole block of the palette that it was dragged from, the ends of a range
stand beside the step. Each of these ways is one rewriting of an object. An object that
is read as a step is still read as that step after any number of them.
-/

namespace AlertFilter

open Json

open scoped List

namespace Step

/-- The tags that are told apart from any other text. -/
def knownTags : List String :=
  ["range", "array", "element", "evaluation", "computed", "customFilterRef", "customFilter",
    "generic"]

/-- An end of a range as a member of the step. One that is not set may be left out. -/
inductive EndForm (name : String) : Option Literal → Members → Prop where
  | written (o : Option Literal) : EndForm name o [(name, orNull Literal.toJson o)]
  | leftOut : EndForm name none []

/-- One place of the object of a step of kind `k`, written in another way. -/
inductive Rewrite (k : StepKind) : Members → Members → Prop where
  | reorder {members members' : Members} (h : members.Perm members') : Rewrite k members members'
  | rename {current older : String} (v : Json) (rest : Members)
      (h : (current, older) ∈
        [("kind", "type"), ("fieldName", "field"), ("filterId", "fieldReference")]) :
      Rewrite k ((current, v) :: rest) ((older, v) :: rest)
  | spacedTag {name : String} (tag tag' : String) (rest : Members) (hname : name ∈ ["kind", "type"])
      (h : Text.trim tag' = Text.trim tag) :
      Rewrite k ((name, .text tag) :: rest) ((name, .text tag') :: rest)
  | olderTag {name : String} (rest : Members) (hname : name ∈ ["kind", "type"]) :
      Rewrite k ((name, .text "customFilterRef") :: rest) ((name, .text "customFilter") :: rest)
  | unknownTag {name : String} (tag : String) (rest : Members) (hname : name ∈ ["kind", "type"])
      (h : Text.trim tag ∉ knownTags) :
      Rewrite k ((name, .text "generic") :: rest) ((name, .text tag) :: rest)
  | noTag {name : String} (rest : Members) (hname : name ∈ ["kind", "type"]) :
      Rewrite k ((name, .text "generic") :: rest) rest
  | databaseKey {name : String} (id : String) (rest : Members)
      (hname : name ∈ ["filterId", "fieldReference"]) :
      Rewrite k ((name, .text id) :: rest) ((name, .object [("$oid", .text id)]) :: rest)
  | paletteBlock {name : String} (code : String) (block rest : Members)
      (hname : name ∈ ["operator", "parentOperator"] ∨
        name = "operation" ∧ ∃ operands o, k = .computed operands o)
      (h : block.filter (·.1 = "operator") = [("operator", .text code)]) :
      Rewrite k ((name, .text code) :: rest) ((name, .object block) :: rest)
  | endsBeside (b : Bounds) {least greatest : Members} (rest : Members)
      (hset : b.min.isSome ∨ b.max.isSome) (hleast : EndForm "minValue" b.min least)
      (hgreatest : EndForm "maxValue" b.max greatest)
      (hrest : ∀ m ∈ rest, m.1 ∉ ["minValue", "maxValue"]) :
      Rewrite k (("bounds", b.toJson) :: rest) (least ++ greatest ++ rest)
  | unknownMember {name : String} (v : Json) (rest : Members)
      (h : name ∉ fieldNames ++ StepKind.fieldNames) : Rewrite k rest ((name, v) :: rest)

/-- One place written in another way, where no name occurs twice. -/
def Rewritten (k : StepKind) (members members' : Members) : Prop :=
  Rewrite k members members' ∧ (members'.map Prod.fst).Nodup

variable {s : Step} {rest : Members}

/-- Members of the kind, other than bounds, that can be written in place of others. -/
structure ReadFor (k : StepKind) (old new : Members) : Prop where
  old_names : ∀ m ∈ old, m.1 ∉ "bounds" :: fieldNames
  new_names : ∀ m ∈ new, m.1 ∉ "bounds" :: fieldNames
  ofMembers : ∀ {fields : Members} {tag : StepKind.Tag},
    StepKind.ofMembers (Document.ofMembers (canonicalMembers old ++ fields)) tag = .ok k →
    StepKind.ofMembers (Document.ofMembers (canonicalMembers new ++ fields)) tag = .ok k

namespace ReadFor

variable {k : StepKind} {old new : Members} (hfor : ReadFor k old new)
include hfor

lemma decode_kind {t : Slots} (hold : ((old ++ rest).map Prod.fst).Nodup)
    (hnew : ((new ++ rest).map Prod.fst).Nodup) (hrest : ∀ m ∈ rest, m.1 ∉ fieldNames)
    (h : decodeValue StepKind.decode (.object (kindMembers { t with rest := old ++ rest })) =
      .ok k) :
    decodeValue StepKind.decode (.object (kindMembers { t with rest := new ++ rest })) = .ok k := by
  have hfields : ∀ ms : Members, (∀ m ∈ ms, m.1 ∉ "bounds" :: fieldNames) →
      "bounds" ∉ ms.map Prod.fst ∧ ∀ m ∈ ms ++ rest, m.1 ∉ fieldNames := by
    intro ms hms
    simp only [List.mem_cons, not_or] at hms
    refine ⟨fun hmem => ?_, fun m hm => ?_⟩
    · obtain ⟨m, hm, hname⟩ := List.mem_map.mp hmem
      exact (hms m hm).1 hname
    · exact (List.mem_append.mp hm).elim (fun hm => (hms m hm).2) (hrest m)
  obtain ⟨holdBounds, holdFields⟩ := hfields old hfor.old_names
  obtain ⟨hnewBounds, hnewFields⟩ := hfields new hfor.new_names
  rw [decode_kindMembers holdFields] at h
  rw [decode_kindMembers hnewFields]
  exact StepKind.ofMembers_perm (kindFields_append_perm hnew hnewBounds).symm
    (hfor.ofMembers (StepKind.ofMembers_perm (kindFields_append_perm hold holdBounds) h))

end ReadFor

lemma decodeValue_of_perm_fields {members members' : Members}
    (hown : (members.filter fun m => m.1 ∈ fieldNames).Perm
      (members'.filter fun m => m.1 ∈ fieldNames))
    (hkind : ∀ t : Slots, t.rest = members.filter (fun m => m.1 ∉ fieldNames) →
      decodeValue StepKind.decode (.object (kindMembers t)) = .ok s.kind →
      decodeValue StepKind.decode (.object (kindMembers
        { t with rest := members'.filter fun m => m.1 ∉ fieldNames })) = .ok s.kind)
    (h : decodeValue decode (.object members) = .ok s) :
    decodeValue decode (.object members') = .ok s := by
  refine decode_of_perm_fields hown (fun inner hinner _ m _ _ => ?_) hkind h
  obtain rfl := Except.ok.inj hinner
  exact Origin.reaches_of_depth rfl m.2

lemma filter_append_own {added : Members} (hadded : ∀ m ∈ added, m.1 ∉ fieldNames) :
    (added ++ rest).filter (fun m => m.1 ∈ fieldNames) =
      rest.filter fun m => m.1 ∈ fieldNames := by
  rw [List.filter_append, List.filter_eq_nil_iff.mpr (by simpa using hadded), List.nil_append]

lemma filter_append_others {added : Members} (hadded : ∀ m ∈ added, m.1 ∉ fieldNames) :
    (added ++ rest).filter (fun m => m.1 ∉ fieldNames) =
      added ++ rest.filter fun m => m.1 ∉ fieldNames := by
  rw [List.filter_append, List.filter_eq_self.mpr (by simpa using hadded)]

lemma ReadFor.decode {old new : Members} (hfor : ReadFor s.kind old new)
    (hold : ((old ++ rest).map Prod.fst).Nodup) (hnew : ((new ++ rest).map Prod.fst).Nodup)
    (h : decodeValue decode (.object (old ++ rest)) = .ok s) :
    decodeValue Step.decode (.object (new ++ rest)) = .ok s := by
  have holdFields : ∀ m ∈ old, m.1 ∉ fieldNames := fun m hm hmem =>
    hfor.old_names m hm (List.mem_cons_of_mem _ hmem)
  have hnewFields : ∀ m ∈ new, m.1 ∉ fieldNames := fun m hm hmem =>
    hfor.new_names m hm (List.mem_cons_of_mem _ hmem)
  refine decodeValue_of_perm_fields ?_ (fun t hrest hkind => ?_) h
  · rw [filter_append_own holdFields, filter_append_own hnewFields]
  · have hothers : (rest.filter fun m => m.1 ∉ fieldNames).Sublist rest := List.filter_sublist
    rw [filter_append_others holdFields] at hrest
    rw [filter_append_others hnewFields]
    refine hfor.decode_kind (hold.sublist ((hothers.append_left old).map Prod.fst))
      (hnew.sublist ((hothers.append_left new).map Prod.fst)) (fun m hm => ?_) ?_
    · simpa using (List.mem_filter.mp hm).2
    · rwa [← hrest]

/-- What is read beside a tag does not depend on it. -/
lemma foldMembers_beside_tag {origin : Origin} {tag : Option String} {t : Slots}
    (slot : Option (Option String))
    (h : Decoder.foldMembers (take origin) { kind := some tag } (Document.ofMembers rest) = .ok t) :
    t.kind = some tag ∧
      Decoder.foldMembers (take origin) { kind := slot } (Document.ofMembers rest) =
        .ok { t with kind := slot } := by
  obtain ⟨hid, hlabel, hfield, hoperator, hvalue, hisField, hkind, hmin, hmax, hreaches, hrest⟩ :=
    foldMembers_take.mp h
  have hnone : rest.filter (fun m => m.1 ∈ ["kind", "type"]) = [] :=
    List.filter_eq_nil_iff.mpr (by simpa using hkind.notMem_of_some)
  exact ⟨hkind.eq_of_some, foldMembers_take.mpr
    ⟨hid, hlabel, hfield, hoperator, hvalue, hisField, .absent hnone, hmin, hmax, hreaches, hrest⟩⟩

/-- The kind is read from its tag as far as it is told apart from any other text. -/
lemma decode_kind_of_tag {t : Slots} (hrest : ∀ m ∈ t.rest, m.1 ∉ fieldNames)
    {slot : Option (Option String)}
    (htag : StepKind.Tag.ofName (kindTag (slot.getD none)) =
      StepKind.Tag.ofName (kindTag (t.kind.getD none))) :
    decodeValue StepKind.decode (.object (kindMembers { t with kind := slot })) =
      decodeValue StepKind.decode (.object (kindMembers t)) := by
  rw [decode_kindMembers (s := { t with kind := slot }) hrest, decode_kindMembers hrest, htag]
  rfl

lemma foldMembers_tag {name : String} (hname : name ∈ ["kind", "type"]) (tag : String) :
    Decoder.foldMembers (take .value) {} (Document.ofMembers ((name, .text tag) :: rest)) =
      Decoder.foldMembers (take .value) { kind := some (some tag) } (Document.ofMembers rest) := by
  have h : name = "kind" ∨ name = "type" := by simpa using hname
  rcases h with rfl | rfl <;> rfl

/-- In place of a tag can stand whatever fills its slot with one that means the same. -/
lemma decode_of_tag {name tag : String} {members : Members} {slot : Option (Option String)}
    (hname : name ∈ ["kind", "type"])
    (hslot : Decoder.foldMembers (take .value) {} (Document.ofMembers members) =
      Decoder.foldMembers (take .value) { kind := slot } (Document.ofMembers rest))
    (htag : StepKind.Tag.ofName (kindTag (slot.getD none)) =
      StepKind.Tag.ofName (kindTag (some tag)))
    (h : decodeValue decode (.object ((name, .text tag) :: rest)) = .ok s) :
    decodeValue decode (.object members) = .ok s := by
  rw [decodeValue_object_eq_ok_iff] at h ⊢
  obtain ⟨t, ht, hs⟩ := h
  rw [foldMembers_tag hname] at ht
  obtain ⟨hkind, hrest⟩ := foldMembers_beside_tag slot ht
  have hnames : ∀ m ∈ t.rest, m.1 ∉ fieldNames := fun m hm =>
    ((mem_rest (rest_of_foldMembers rfl ht)).mp hm).2
  obtain ⟨hid, hlabel, hfield, hoperator, hvalue, hread⟩ := ofSlots_eq_ok_iff.mp hs
  refine ⟨{ t with kind := slot }, hslot.trans hrest, ofSlots_eq_ok_iff.mpr
    ⟨hid, hlabel, hfield, hoperator, hvalue, ?_⟩⟩
  rw [decode_kind_of_tag hnames (by rwa [hkind]), hread]

lemma decode_of_otherTag {name tag tag' : String} (hname : name ∈ ["kind", "type"])
    (htag : StepKind.Tag.ofName (kindTag (some tag')) = StepKind.Tag.ofName (kindTag (some tag)))
    (h : decodeValue decode (.object ((name, .text tag) :: rest)) = .ok s) :
    decodeValue decode (.object ((name, .text tag') :: rest)) = .ok s :=
  decode_of_tag hname (foldMembers_tag hname tag') htag h

lemma kindTag_unknown {tag : String} (h : Text.trim tag ∉ knownTags) :
    StepKind.Tag.ofName (kindTag (some tag)) =
      StepKind.Tag.ofName (kindTag (some "generic")) := by
  have hgeneric : StepKind.Tag.ofName (kindTag (some "generic")) = .generic := by decide
  simp only [knownTags, List.mem_cons, List.not_mem_nil, or_false, not_or] at h
  obtain ⟨hrange, harray, helement, hevaluation, hcomputed, hreference, holder, -⟩ := h
  have htag : kindTag (some tag) = Text.trim tag ∨ kindTag (some tag) = "generic" := by
    unfold kindTag
    split <;> simp_all
  rw [hgeneric]
  rcases htag with htag | htag
  · rw [htag]
    unfold StepKind.Tag.ofName
    split <;> simp_all
  · rw [htag]
    rfl

lemma optional_decode_orNull (o : Option Literal) :
    Decoder.optional Literal.decode .value (.ofJson (orNull Literal.toJson o)) = .ok o := by
  have h := readsAs_optionalLiteral o .value rfl
  cases o with
  | none => exact h
  | some l => rwa [orNull, l.canonical_toJson] at h

/-- An end beside the step fills its slot, or leaves it as it is. -/
lemma EndForm.foldMembers {name : String} {o : Option Literal} {written : Members}
    (h : EndForm name o written) (fill : Option (Option Literal) → Slots)
    (htake : ∀ d, take .value (fill none) name d =
      (do return fill (← Decoder.fill none name (Decoder.optional Literal.decode .value d)))) :
    ∃ slot, slot.getD none = o ∧
      Decoder.foldMembers (take .value) (fill none) (Document.ofMembers (written ++ rest)) =
        Decoder.foldMembers (take .value) (fill slot) (Document.ofMembers rest) := by
  cases h with
  | leftOut => exact ⟨none, rfl, rfl⟩
  | written =>
    refine ⟨some o, rfl, ?_⟩
    have hmember : take .value (fill none) name (.ofJson (orNull Literal.toJson o)) =
        .ok (fill (some o)) := by
      rw [htake, optional_decode_orNull]
      rfl
    rw [List.singleton_append, Document.ofMembers, Decoder.foldMembers]
    simp only [Decoder.ofFault, bind, Except.bind, hmember]

lemma foldMembers_beside_ends {origin : Origin} {t : Slots} (min max : Option (Option Literal))
    (hrest : ∀ m ∈ rest, m.1 ∉ ["minValue", "maxValue"])
    (h : Decoder.foldMembers (take origin) {} (Document.ofMembers rest) = .ok t) :
    Decoder.foldMembers (take origin) { minValue := min, maxValue := max }
      (Document.ofMembers rest) = .ok { t with minValue := min, maxValue := max } := by
  have hnone : ∀ names : List String, (∀ n ∈ names, n ∈ ["minValue", "maxValue"]) →
      rest.filter (fun m => m.1 ∈ names) = [] := by
    intro names hnames
    refine List.filter_eq_nil_iff.mpr fun m hm hmem => hrest m hm (hnames m.1 ?_)
    simpa using hmem
  obtain ⟨hid, hlabel, hfield, hoperator, hvalue, hisField, hkind, -, -, hreaches, hothers⟩ :=
    foldMembers_take.mp h
  exact foldMembers_take.mpr ⟨hid, hlabel, hfield, hoperator, hvalue, hisField, hkind,
    .absent (hnone _ (by simp)), .absent (hnone _ (by simp)), hreaches, hothers⟩

/-- It makes no difference to the kind whether its bounds stand with it or beside the step. -/
lemma decode_kind_of_bounds {t u : Slots} {b : Bounds} {k : StepKind}
    (hset : b.min.isSome ∨ b.max.isSome) (hmin : u.minValue.getD none = b.min)
    (hmax : u.maxValue.getD none = b.max) (hkind : u.kind = t.kind)
    (hrest : t.rest = ("bounds", b.toJson) :: u.rest) (hnames : (t.rest.map Prod.fst).Nodup)
    (hothers : ∀ m ∈ t.rest, m.1 ∉ fieldNames)
    (h : decodeValue StepKind.decode (.object (kindMembers t)) = .ok k) :
    decodeValue StepKind.decode (.object (kindMembers u)) = .ok k := by
  have hnew : "bounds" ∉ u.rest.map Prod.fst ∧ (u.rest.map Prod.fst).Nodup := by
    rwa [hrest, List.map_cons, List.nodup_cons] at hnames
  have hbeside : boundsBeside u = [("bounds", canonical b.toJson)] := by
    rw [boundsBeside, hmin, hmax, if_pos ⟨hnew.1, by simpa using hset⟩]
  have hnone : boundsBeside t = [] := by
    rw [boundsBeside, if_neg fun hb => hb.1 (by simp [hrest])]
  -- the bounds that are put in from beside the step are the ones that were taken out
  have hfields : (kindFields t).Perm (kindFields u) :=
    calc kindFields t
        ~ boundsBeside t ++ canonicalMembers t.rest := kindFields_perm hnames
      _ = boundsBeside u ++ canonicalMembers u.rest := by rw [hnone, hbeside, hrest]; rfl
      _ ~ kindFields u := (kindFields_perm hnew.2).symm
  rw [decode_kindMembers hothers] at h
  have hothers' : ∀ m ∈ u.rest, m.1 ∉ fieldNames := fun m hm =>
    hothers m (hrest ▸ List.mem_cons_of_mem _ hm)
  rw [decode_kindMembers hothers', hkind]
  exact StepKind.ofMembers_perm hfields h

/-- Bounds can be written beside the step, in place of its own. -/
lemma decode_of_bounds {b : Bounds} {least greatest : Members}
    (hset : b.min.isSome ∨ b.max.isSome) (hleast : EndForm "minValue" b.min least)
    (hgreatest : EndForm "maxValue" b.max greatest)
    (hrest : ∀ m ∈ rest, m.1 ∉ ["minValue", "maxValue"])
    (hnames : ((("bounds", b.toJson) :: rest).map Prod.fst).Nodup)
    (h : decodeValue decode (.object (("bounds", b.toJson) :: rest)) = .ok s) :
    decodeValue decode (.object (least ++ greatest ++ rest)) = .ok s := by
  rw [decodeValue_object_eq_ok_iff] at h ⊢
  obtain ⟨t, ht, hs⟩ := h
  obtain ⟨min, hmin, hleast⟩ := hleast.foldMembers (fun min => { minValue := min }) fun _ => rfl
  obtain ⟨max, hmax, hgreatest⟩ :=
    hgreatest.foldMembers (fun max => { minValue := min, maxValue := max }) fun _ => rfl
  have hbounds : ∀ m ∈ [("bounds", b.toJson)], m.1 ∉ fieldNames := by
    simp [fieldNames]
  have hothers := rest_of_foldMembers rfl ht
  let u : Slots := { t with
    minValue := min, maxValue := max, rest := rest.filter fun m => m.1 ∉ fieldNames }
  have hu : Decoder.foldMembers (take .value) { minValue := min, maxValue := max }
      (Document.ofMembers rest) = .ok u := by
    refine foldMembers_beside_ends min max hrest (foldMembers_take_of_perm ?_ ?_ ht)
    · rw [← List.singleton_append, filter_append_own hbounds]
    · exact fun m _ _ => Origin.reaches_of_depth rfl m.2
  have hmem : ∀ m ∈ t.rest, m.1 ∉ fieldNames := fun m hm => ((mem_rest hothers).mp hm).2
  have hnodup : (t.rest.map Prod.fst).Nodup := by
    rw [hothers]
    exact hnames.sublist (List.filter_sublist.map Prod.fst)
  have hsplit : t.rest = ("bounds", b.toJson) :: u.rest := by
    rwa [← List.singleton_append, filter_append_others hbounds] at hothers
  obtain ⟨hid, hlabel, hfield, hoperator, hvalue, hread⟩ := ofSlots_eq_ok_iff.mp hs
  refine ⟨u, ?_, ofSlots_eq_ok_iff.mpr ⟨hid, hlabel, hfield, hoperator, hvalue, ?_⟩⟩
  · rw [List.append_assoc, hleast, hgreatest, hu]
  · have hkind : u.kind = t.kind := rfl
    exact decode_kind_of_bounds hset hmin hmax hkind hsplit hnodup hmem hread

/-! ### Rewriting -/

lemma decode_of_operator {code : String} {block : Members}
    (hblock : block.filter (·.1 = "operator") = [("operator", .text code)]) :
    decodeValue decode (.object (("operator", .text code) :: rest)) =
      decodeValue decode (.object (("operator", .object block) :: rest)) := by
  have hdecode : Decoder.optional Operator.decode .value (.ofJson (.text code)) =
      Decoder.optional Operator.decode .value (.ofJson (.object block)) :=
    Operator.optional_decode_block rfl hblock
  have htake : take .value {} "operator" (.text code) =
      take .value {} "operator" (.object (Document.ofMembers block) none) := by
    rw [Document.ofJson, Document.ofJson] at hdecode
    simp only [take, hdecode]
  simp only [decodeValue, decode, Document.ofJson, Document.ofMembers, Decoder.foldMembers,
    Decoder.ofFault, Origin.enter, bind, Except.bind, htake]

lemma readFor_rename (k : StepKind) (v : Json) :
    ReadFor k [("filterId", v)] [("fieldReference", v)] where
  old_names := by simp [fieldNames]
  new_names := by simp [fieldNames]
  ofMembers h := (StepKind.ofMembers_rename (canonical v)).symm.trans h

/-- The value of one member can be replaced. -/
lemma readFor_value {k : StepKind} {name : String} {v w : Json}
    (hname : name ∉ "bounds" :: fieldNames)
    (hread : ∀ {fields : Members} {tag : StepKind.Tag},
      StepKind.ofMembers (Document.ofMembers ((name, canonical v) :: fields)) tag = .ok k →
      StepKind.ofMembers (Document.ofMembers ((name, canonical w) :: fields)) tag = .ok k) :
    ReadFor k [(name, v)] [(name, w)] where
  old_names := List.forall_mem_singleton.mpr hname
  new_names := List.forall_mem_singleton.mpr hname
  ofMembers := hread

lemma readFor_databaseKey (k : StepKind) {name : String}
    (hname : name ∈ ["filterId", "fieldReference"]) (id : String) :
    ReadFor k [(name, .text id)] [(name, .object [("$oid", .text id)])] := by
  refine readFor_value ?_ fun h => (StepKind.ofMembers_databaseKey hname id).symm.trans h
  revert name
  decide

lemma readFor_paletteBlock {k : StepKind} {name code : String} {block : Members}
    (hname : name = "parentOperator" ∨ name = "operation" ∧ ∃ operands o, k = .computed operands o)
    (hblock : block.filter (·.1 = "operator") = [("operator", .text code)]) :
    ReadFor k [(name, .text code)] [(name, .object block)] := by
  refine readFor_value ?_ fun h => StepKind.ofMembers_operator hname
    (Operator.optional_decode_block rfl (Operator.filter_operator_canonicalForm hblock)) h
  obtain rfl | ⟨rfl, -⟩ := hname <;> decide

lemma readFor_unknownMember (k : StepKind) {name : String} (v : Json)
    (hname : name ∉ fieldNames ++ StepKind.fieldNames) : ReadFor k [] [(name, v)] where
  old_names := by simp
  new_names := by
    have hbounds : name ≠ "bounds" := by
      rintro rfl
      exact hname (by simp [StepKind.fieldNames])
    simpa [hbounds] using fun h => hname (List.mem_append_left _ h)
  ofMembers := StepKind.ofMembers_unknown (canonical v) fun h => hname (List.mem_append_right _ h)

/-- A step is read as before when one place of it is written in another way. -/
theorem decode_of_rewritten {members members' : Members} (hnames : (members.map Prod.fst).Nodup)
    (hrewritten : Rewritten s.kind members members')
    (h : decodeValue decode (.object members) = .ok s) :
    decodeValue decode (.object members') = .ok s := by
  obtain ⟨hrewrite, hnames'⟩ := hrewritten
  cases hrewrite with
  | reorder hperm => exact decode_of_perm hnames hperm h
  | rename v rest hname =>
    simp only [List.mem_cons, Prod.mk.injEq, List.not_mem_nil, or_false] at hname
    obtain ⟨rfl, rfl⟩ | ⟨rfl, rfl⟩ | ⟨rfl, rfl⟩ := hname
    -- both names of a field of the step lead to the same slot
    · exact h
    · exact h
    · exact (readFor_rename s.kind v).decode hnames hnames' h
  | spacedTag tag tag' rest hname htrim =>
    refine decode_of_otherTag hname ?_ h
    simp only [kindTag, Option.map_some, htrim]
  | olderTag rest hname => exact decode_of_otherTag hname (by decide) h
  | unknownTag tag rest hname hunknown =>
    exact decode_of_otherTag hname (kindTag_unknown hunknown) h
  | noTag rest hname => exact decode_of_tag hname rfl (by decide) h
  | databaseKey id rest hname =>
    exact (readFor_databaseKey s.kind hname id).decode hnames hnames' h
  | @paletteBlock name code block rest hname hblock =>
    simp only [List.mem_cons, List.not_mem_nil, or_false, or_assoc] at hname
    rcases hname with rfl | hname
    · rwa [← decode_of_operator hblock]
    · exact (readFor_paletteBlock hname hblock).decode hnames hnames' h
  | endsBeside b rest hset hleast hgreatest hrest =>
    exact decode_of_bounds hset hleast hgreatest hrest hnames h
  | unknownMember v rest hname =>
    exact (readFor_unknownMember s.kind v hname).decode hnames hnames' h

lemma nodup_members (s : Step) : ((s.ownMembers ++ s.kind.fields).map Prod.fst).Nodup := by
  cases hkind : s.kind with
  | range r => cases hbounds : r.bounds <;>
      simp [ownMembers, StepKind.fields, StepKind.members, memberIf, hbounds]
  | array operation => cases operation <;>
      simp [ownMembers, StepKind.fields, StepKind.members, memberIf]
  | computed operands operation => cases operation <;>
      simp [ownMembers, StepKind.fields, StepKind.members, memberIf]
  | reference r => cases ho : r.parentOperator <;> cases hl : r.parentValue <;>
      simp [ownMembers, StepKind.fields, StepKind.members, memberIf, ho, hl]
  | element | evaluation | generic => simp [ownMembers, StepKind.fields, StepKind.members]

lemma canonicalMembers_ownMembers (s : Step) : canonicalMembers s.ownMembers = s.ownMembers := by
  have hoperator : canonical (orNull Operator.codeJson s.operator) =
      orNull Operator.codeJson s.operator := by
    cases s.operator <;> rfl
  have hvalue : canonical s.value.toWire.1 = s.value.toWire.1 := by
    cases s.value with
    | literal l => exact l.canonical_toJson
    | empty | field => rfl
  simp only [ownMembers, canonicalMembers, hoperator, hvalue, canonical]

/-- A step is read from its current form as it is left on the wire. -/
lemma decode_current (s : Step) :
    decodeValue decode (.object (s.ownMembers ++ s.kind.fields)) = .ok s.normal := by
  -- from the canonical form back to the current one: first the order, then the values, which differ
  -- only inside bounds, and these are brought into canonical form before the kind is read
  have hnames := s.nodup_members
  have hperm := canonicalForm_perm hnames
  have hnames' : ((canonicalForm (s.ownMembers ++ s.kind.fields)).map Prod.fst).Nodup := by
    rwa [(hperm.map Prod.fst).nodup_iff, names_canonicalMembers]
  have hcanonical :
      decodeValue decode (.object (canonicalMembers (s.ownMembers ++ s.kind.fields))) =
        .ok s.normal := by
    refine decode_of_perm hnames' hperm ?_
    rw [← canonical_object, ← toJson_eq]
    exact s.readsAs .value rfl
  refine decodeValue_of_perm_fields ?_ (fun t hrest hread => ?_) hcanonical
  · rw [filter_canonicalMembers (fun n => n ∈ fieldNames), s.filter_mem_members fun _ h => h,
      ← filter_canonicalMembers (fun n => n ∈ fieldNames), canonicalMembers_ownMembers]
  · rw [filter_canonicalMembers (fun n => n ∉ fieldNames)] at hrest
    rw [kindMembers_rest, hread]
    rw [hrest, canonicalForm, canonicalMembers_canonicalMembers, canonicalForm]

/-- The object is written in another way at any number of places. -/
def OlderForm (k : StepKind) : Members → Members → Prop := Relation.ReflTransGen (Rewritten k)

lemma OlderForm.nodup {k : StepKind} {members members' : Members} (h : OlderForm k members members')
    (hnames : (members.map Prod.fst).Nodup) : (members'.map Prod.fst).Nodup := by
  cases h with
  | refl => exact hnames
  | tail _ hlast => exact hlast.2

/-- A member can be written in another way where it stands. -/
lemma OlderForm.inPlace {k : StepKind} (before old new after : Members)
    (hrewrite : Rewrite k (old ++ (before ++ after)) (new ++ (before ++ after)))
    (hold : ((before ++ old ++ after).map Prod.fst).Nodup)
    (hnew : ((before ++ new ++ after).map Prod.fst).Nodup) :
    OlderForm k (before ++ old ++ after) (before ++ new ++ after) := by
  have hfront : ∀ ms : Members, (before ++ ms ++ after).Perm (ms ++ (before ++ after)) := by
    intro ms
    rw [List.append_assoc]
    exact List.perm_append_comm_assoc before ms after
  have holdFront := ((hfront old).map Prod.fst).nodup hold
  have hnewFront := ((hfront new).map Prod.fst).nodup hnew
  exact .tail (.tail (.single ⟨.reorder (hfront old), holdFront⟩) ⟨hrewrite, hnewFront⟩)
    ⟨.reorder (hfront new).symm, hnew⟩

theorem OlderForm.decode {members members' : Members} (h : OlderForm s.kind members members')
    (hnames : (members.map Prod.fst).Nodup)
    (hread : decodeValue Step.decode (.object members) = .ok s) :
    decodeValue Step.decode (.object members') = .ok s := by
  induction h with
  | refl => exact hread
  | tail hrun hlast ih => exact decode_of_rewritten (OlderForm.nodup hrun hnames) hlast ih

/-- Older forms of a step mean what its current form means: in memory every one of them is read as
the same step, and from a text as well, if it is not nested too deep to be read to the bottom. -/
theorem older_forms_are_read {members members' : Members} (hcurrent : s.toJson = .object members)
    (h : OlderForm s.kind members members') :
    decodeValue decode (.object members) = .ok s.normal ∧
      decodeValue decode (.object members') = .ok s.normal ∧
      ∀ origin : Origin, origin.Reaches (.object members') →
        decode origin (.ofJson (.object members')) = .ok s.normal := by
  rw [toJson_eq, Json.object.injEq] at hcurrent
  subst hcurrent
  have hmemory := OlderForm.decode (s := s.normal) h s.nodup_members s.decode_current
  exact ⟨s.decode_current, hmemory, fun _ hreaches => decode_of_reaches hreaches hmemory⟩

/-- The object of a range, with the places that are written in one way or another. -/
def rangeObject (fieldName tagName : String) (operator : Json) (ends : Members) : Members :=
  [("id", .text "a"), ("label", .text ""), (fieldName, .text "mag"), ("operator", operator),
    ("value", .null), ("isValueField", .bool false), (tagName, .text "range"),
    ("hasAbs", .bool false), ("useAbs", .bool false)] ++ ends

/-- A range between no least and some greatest value is read from its older form, with the operator
as a block of the palette and with a member that no version has. -/
theorem older_forms_are_read_range :
    let b : Bounds := ⟨none, some (.bool true)⟩
    let block : Json := .object [("label", .text "><"), ("operator", .text "between")]
    decodeValue decode (.object
        (rangeObject "field" "type" block [("note", .null), ("maxValue", .bool true)])) =
      .ok { id := ⟨"a"⟩, label := "", fieldName := "mag", operator := some .between,
            value := .empty, kind := .range ⟨false, false, some b⟩ } := by
  intro b block
  let s : Step :=
    { id := ⟨"a"⟩, label := "", fieldName := "mag", operator := some .between, value := .empty,
      kind := .range ⟨false, false, some b⟩ }
  have hname : OlderForm s.kind
      (rangeObject "fieldName" "kind" (.text "between") [("bounds", b.toJson)])
      (rangeObject "field" "kind" (.text "between") [("bounds", b.toJson)]) :=
    .inPlace [("id", .text "a"), ("label", .text "")] [("fieldName", .text "mag")]
      [("field", .text "mag")] _ (.rename _ _ (by simp)) (by decide) (by decide)
  have htag : OlderForm s.kind
      (rangeObject "field" "kind" (.text "between") [("bounds", b.toJson)])
      (rangeObject "field" "type" (.text "between") [("bounds", b.toJson)]) :=
    .inPlace ((rangeObject "field" "kind" (.text "between") []).take 6) [("kind", .text "range")]
      [("type", .text "range")] _ (.rename _ _ (by simp)) (by decide) (by decide)
  have hoperator : OlderForm s.kind
      (rangeObject "field" "type" (.text "between") [("bounds", b.toJson)])
      (rangeObject "field" "type" block [("bounds", b.toJson)]) :=
    .inPlace ((rangeObject "field" "type" .null []).take 3) [("operator", .text "between")]
      [("operator", block)] _ (.paletteBlock _ _ _ (by simp) (by simp)) (by decide) (by decide)
  have hends : OlderForm s.kind
      (rangeObject "field" "type" block [("bounds", b.toJson)])
      (rangeObject "field" "type" block [("maxValue", .bool true)]) :=
    .inPlace (rangeObject "field" "type" block []) [("bounds", b.toJson)]
      [("maxValue", .bool true)] []
      (.endsBeside b _ (.inr rfl) .leftOut (.written _) (by simp [rangeObject])) (by decide)
      (by decide)
  have hnote : OlderForm s.kind
      (rangeObject "field" "type" block [("maxValue", .bool true)])
      (rangeObject "field" "type" block [("note", .null), ("maxValue", .bool true)]) :=
    .inPlace (rangeObject "field" "type" block []) [] [("note", .null)] _
      (.unknownMember _ _ (by decide)) (by decide) (by decide)
  have hform := (((hname.trans htag).trans hoperator).trans hends).trans hnote
  exact (older_forms_are_read (s := s) rfl hform).2.1

end Step

end AlertFilter
