import AlertFilter.Proofs.MemberOrder

/-!
# The fields of a kind

A kind is read from the members that are left for it, in any order, and from the ends of a
range beside the step where there are no bounds among them. Some fields can be written in
more than one way: the filter of a reference under two names and as a database key, an
operator as a whole block of the palette. What is no field is passed over.
-/

namespace AlertFilter

open Json

open scoped List

namespace StepKind

/-- The names of the fields of all kinds, older spellings included. -/
def fieldNames : List String :=
  ["hasAbs", "useAbs", "bounds", "operation", "operands", "filterId", "fieldReference",
    "parentOperator", "parentValue", "isBoolean"]

variable {members members' : Members} {tag : Tag} {k : StepKind}

/-- A kind is read from its fields in any order. -/
lemma ofMembers_perm (hperm : members.Perm members')
    (h : ofMembers (Document.ofMembers members) tag = .ok k) :
    ofMembers (Document.ofMembers members') tag = .ok k := by
  cases tag with
  | range =>
    simp only [ofMembers, bind_eq_ok_iff, foldMembers_takeRange] at h ⊢
    obtain ⟨t, ⟨hhas, huse, hbounds⟩, hk⟩ := h
    exact ⟨t, ⟨hhas.perm hperm, huse.perm hperm, hbounds.perm hperm⟩, hk⟩
  | array =>
    simp only [ofMembers, bind_eq_ok_iff, foldMembers_takeArray] at h ⊢
    obtain ⟨t, hoperation, hk⟩ := h
    exact ⟨t, hoperation.perm hperm, hk⟩
  | computed =>
    simp only [ofMembers, bind_eq_ok_iff, foldMembers_takeComputed] at h ⊢
    obtain ⟨t, ⟨hoperands, hoperation⟩, hk⟩ := h
    exact ⟨t, ⟨hoperands.perm hperm, hoperation.perm hperm⟩, hk⟩
  | reference =>
    simp only [ofMembers, bind_eq_ok_iff, foldMembers_takeReference] at h ⊢
    obtain ⟨t, ⟨hfilter, ho, hl, hboolean⟩, hk⟩ := h
    exact ⟨t, ⟨hfilter.perm hperm, ho.perm hperm, hl.perm hperm, hboolean.perm hperm⟩, hk⟩
  | element | evaluation | generic => exact h

lemma ofMembers_rename (v : Json) :
    ofMembers (Document.ofMembers (("filterId", v) :: members)) tag =
      ofMembers (Document.ofMembers (("fieldReference", v) :: members)) tag := by
  cases tag <;> rfl

lemma ofMembers_databaseKey {name : String} (hname : name ∈ ["filterId", "fieldReference"])
    (id : String) :
    ofMembers (Document.ofMembers ((name, .text id) :: members)) tag =
      ofMembers (Document.ofMembers ((name, .object [("$oid", .text id)]) :: members)) tag := by
  have h : name = "filterId" ∨ name = "fieldReference" := by simpa using hname
  rcases h with rfl | rfl <;> cases tag <;> rfl

/-- A member that is no field of any kind is passed over. -/
lemma ofMembers_unknown {name : String} (v : Json) (hname : name ∉ fieldNames)
    (h : ofMembers (Document.ofMembers members) tag = .ok k) :
    ofMembers (Document.ofMembers ((name, v) :: members)) tag = .ok k := by
  simp only [fieldNames, List.mem_cons, List.not_mem_nil, or_false, not_or] at hname
  cases tag <;>
    simp_all only [ofMembers, bind_eq_ok_iff, foldMembers_takeRange, foldMembers_takeArray,
      foldMembers_takeComputed, foldMembers_takeReference, Fills, List.mem_cons,
      List.not_mem_nil, or_false, if_false]

/-- A kind is read under its own tag. -/
lemma eq_ofName_of_ofMembers (h : ofMembers (Document.ofMembers members) tag = .ok k) :
    tag = .ofName k.name := by
  cases tag with
  | range | array | computed =>
    simp only [ofMembers, bind_eq_ok_iff] at h
    obtain ⟨_, -, hk⟩ := h
    obtain rfl := Except.ok.inj hk
    rfl
  | reference =>
    simp only [ofMembers, bind_eq_ok_iff] at h
    obtain ⟨_, -, _, -, hk⟩ := h
    obtain rfl := Except.ok.inj hk
    rfl
  | element | evaluation | generic =>
    obtain rfl := Except.ok.inj h
    rfl

/-- Only the kind of the step says whether an operation is an operator. -/
lemma ofMembers_operator {name : String} {v w : Json}
    (hname : name = "parentOperator" ∨ name = "operation" ∧ ∃ operands o, k = computed operands o)
    (hdecode : Decoder.optional Operator.decode .aside (.ofJson v) =
      Decoder.optional Operator.decode .aside (.ofJson w))
    (h : ofMembers (Document.ofMembers ((name, v) :: members)) tag = .ok k) :
    ofMembers (Document.ofMembers ((name, w) :: members)) tag = .ok k := by
  rcases hname with rfl | ⟨rfl, operands, o, rfl⟩
  · cases tag with
    | reference =>
      simpa only [ofMembers, bind_eq_ok_iff, foldMembers_takeReference, Fills, List.mem_cons,
        List.not_mem_nil, or_false, String.reduceEq, if_false, if_true, hdecode] using h
    | _ => exact h
  · obtain rfl := eq_ofName_of_ofMembers h
    simpa only [name, Tag.ofName, ofMembers, bind_eq_ok_iff, foldMembers_takeComputed, Fills,
      List.mem_cons, List.not_mem_nil, or_false, String.reduceEq, if_false, if_true, hdecode]
      using h

end StepKind

namespace Operator

lemma optional_decode_eq {origin : Origin} (ho : origin.depth = none) {v w : Json}
    (h : wireCode? v = wireCode? w) (hv : v ≠ .null) (hw : w ≠ .null) :
    Decoder.optional decode origin (.ofJson v) = Decoder.optional decode origin (.ofJson w) := by
  have hdecode : decode origin (.ofJson v) = decode origin (.ofJson w) := by
    rw [decode, decode, readsAs_value v origin ho, readsAs_value w origin ho]
    simp only [bind, Except.bind, h]
  cases v <;> cases w <;>
    simp_all only [ne_eq, not_true_eq_false, reduceCtorEq, Decoder.optional, Document.ofJson]

lemma optional_decode_block {origin : Origin} (ho : origin.depth = none) {code : String}
    {block : Members} (h : block.filter (·.1 = "operator") = [("operator", .text code)]) :
    Decoder.optional decode origin (.ofJson (.text code)) =
      Decoder.optional decode origin (.ofJson (.object block)) :=
  optional_decode_eq ho (by simp only [wireCode?, h]) Json.noConfusion Json.noConfusion

lemma filter_operator_canonicalForm {code : String} {block : Members}
    (h : block.filter (·.1 = "operator") = [("operator", .text code)]) :
    (canonicalForm block).filter (·.1 = "operator") = [("operator", .text code)] := by
  rw [filter_canonicalForm (· = "operator"), h]
  rfl

end Operator

namespace Step

/-- The bounds that are made of the ends beside the step, where it has none of its own. -/
def boundsBeside (t : Slots) : Members :=
  let b : Bounds := ⟨t.minValue.getD none, t.maxValue.getD none⟩
  if "bounds" ∉ t.rest.map Prod.fst ∧ (b.min.isSome || b.max.isSome) then
    [("bounds", canonical b.toJson)]
  else []

lemma lookup_isNone_iff {name : String} {members : Members} :
    (lookup name members).isNone = true ↔ name ∉ members.map Prod.fst := by
  simp only [lookup, Option.isNone_map, Option.isNone_iff_eq_none, List.find?_eq_none,
    List.mem_reverse, decide_eq_true_iff, List.mem_map, not_exists, not_and]

/-- The kind is read from the members left for it, in canonical form, and from these bounds. -/
lemma kindFields_perm {t : Slots} (hnames : (t.rest.map Prod.fst).Nodup) :
    (kindFields t).Perm (boundsBeside t ++ canonicalMembers t.rest) := by
  have hform := canonicalForm_perm hnames
  have hbounds : (lookup "bounds" (canonicalForm t.rest)).isNone = true ↔
      "bounds" ∉ t.rest.map Prod.fst := by
    rw [lookup_isNone_iff, (hform.map Prod.fst).mem_iff, names_canonicalMembers]
  unfold kindFields boundsBeside
  simp only [Bool.and_eq_true, hbounds]
  split
  · next h =>
    have hnew : "bounds" ∉ (canonicalForm t.rest).map Prod.fst := by
      rw [(hform.map Prod.fst).mem_iff, names_canonicalMembers]
      exact h.1
    exact (insertMember_perm hnew).trans (hform.cons _)
  · exact hform

/-- Members for the kind only, other than bounds, stand beside what the rest of them come to. -/
lemma kindFields_append_perm {t : Slots} {added rest : Members}
    (hnames : ((added ++ rest).map Prod.fst).Nodup) (hadded : "bounds" ∉ added.map Prod.fst) :
    (kindFields { t with rest := added ++ rest }).Perm
      (canonicalMembers added ++ kindFields { t with rest }) := by
  have hrest : (rest.map Prod.fst).Nodup :=
    hnames.sublist ((List.sublist_append_right added rest).map Prod.fst)
  have hbeside : boundsBeside { t with rest := added ++ rest } = boundsBeside { t with rest } := by
    simp only [boundsBeside, List.map_append, List.mem_append, hadded, false_or]
  calc kindFields { t with rest := added ++ rest }
      ~ boundsBeside { t with rest } ++ (canonicalMembers added ++ canonicalMembers rest) := by
        rw [← hbeside, ← canonicalMembers_append]
        exact kindFields_perm hnames
    _ ~ canonicalMembers added ++ (boundsBeside { t with rest } ++ canonicalMembers rest) :=
        List.perm_append_comm_assoc _ _ _
    _ ~ canonicalMembers added ++ kindFields { t with rest } :=
        (kindFields_perm hrest).symm.append_left _

end Step

end AlertFilter
