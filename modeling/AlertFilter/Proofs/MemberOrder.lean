import AlertFilter.Proofs.StepRecord

/-!
# The order of the members of a step

A record is read from the first member to the last, and what is reported of a bad one depends
on which fault is met first. What is read of a good one does not: every field has a slot of
its own that is filled at most once, the members that are left for the kind are sorted before
they are read, and the ends of a range are put among them after all have been met.
-/

namespace AlertFilter

open Json

namespace Json

namespace Fills

variable {α : Type} {names : List String} {decode : Decoder α} {origin : Origin}
  {members members' : Members} {slot slot' : Option α}

/-- No member fills a slot that is taken. -/
lemma notMem_of_some {a : α} (h : Fills names decode origin (some a) members slot') :
    ∀ m ∈ members, m.1 ∉ names := by
  induction members with
  | nil => simp
  | cons m rest ih =>
    rw [Fills] at h
    split at h
    · cases h.1
    · next hm => exact List.forall_mem_cons.mpr ⟨hm, ih h⟩

lemma perm (hperm : members.Perm members') (h : Fills names decode origin slot members slot') :
    Fills names decode origin slot members' slot' := by
  induction hperm generalizing slot with
  | nil => exact h
  | cons m _ ih =>
    by_cases hm : m.1 ∈ names
    · rw [Fills, if_pos hm] at h ⊢
      obtain ⟨hslot, a, ha, hrest⟩ := h
      exact ⟨hslot, a, ha, ih hrest⟩
    · rw [Fills, if_neg hm] at h ⊢
      exact ih h
  | swap m n rest =>
    by_cases hm : m.1 ∈ names
    · by_cases hn : n.1 ∈ names
      · -- the second of two members of the field would find the slot taken
        rw [Fills, if_pos hn] at h
        obtain ⟨-, a, -, hrest⟩ := h
        exact absurd hm (hrest.notMem_of_some m List.mem_cons_self)
      · simpa only [Fills, if_pos hm, if_neg hn] using h
    · simpa only [Fills, if_neg hm] using h
  | trans _ _ ih₁ ih₂ => exact ih₂ (ih₁ h)

lemma eq_of_some {a : α} (h : Fills names decode origin (some a) members slot') :
    slot' = some a := by
  have hfilter : members.filter (fun m => m.1 ∈ names) = [] :=
    List.filter_eq_nil_iff.mpr (by simpa using h.notMem_of_some)
  rwa [← fills_filter, hfilter] at h

/-- A member of the field is its only one, and the slot is filled from it. -/
lemma exists_others (h : Fills names decode origin slot members slot') {m : String × Json}
    (hmem : m ∈ members) (hm : m.1 ∈ names) :
    ∃ others a, members.Perm (m :: others) ∧ (∀ n ∈ others, n.1 ∉ names) ∧
      decode origin (.ofJson m.2) = .ok a ∧ slot' = some a := by
  obtain ⟨before, after, rfl⟩ := List.append_of_mem hmem
  have hfirst := h.perm List.perm_middle
  rw [Fills, if_pos hm] at hfirst
  obtain ⟨-, a, ha, hrest⟩ := hfirst
  exact ⟨before ++ after, a, List.perm_middle, hrest.notMem_of_some, ha, hrest.eq_of_some⟩

/-- A field is not read that is spelled in both of its ways. -/
lemma not_both {current older : String}
    (h : Fills [current, older] decode origin slot members slot') (hne : older ≠ current)
    {v w : Json} (hv : (current, v) ∈ members) (hw : (older, w) ∈ members) : False := by
  obtain ⟨others, -, hperm, hothers, -⟩ := h.exists_others hv (by simp)
  rcases List.mem_cons.mp (hperm.mem_iff.mp hw) with heq | hw
  · exact hne (Prod.mk.inj heq).1
  · exact hothers _ hw (by simp)

/-- Only the members that belong to some field matter, in any order. -/
lemma perm_of_subset {all : List String} (hsub : ∀ n ∈ names, n ∈ all)
    (hperm : (members.filter fun m => m.1 ∈ all).Perm (members'.filter fun m => m.1 ∈ all))
    (h : Fills names decode origin slot members slot') :
    Fills names decode origin slot members' slot' := by
  have hfilter : ∀ ms : Members, (ms.filter fun m => m.1 ∈ all).filter (fun m => m.1 ∈ names) =
      ms.filter fun m => m.1 ∈ names := by
    intro ms
    rw [List.filter_filter]
    refine List.filter_congr fun m _ => ?_
    by_cases hm : m.1 ∈ names
    · simp [hm, hsub m.1 hm]
    · simp [hm]
  have hnames := hperm.filter fun m => decide (m.1 ∈ names)
  rw [hfilter, hfilter] at hnames
  rw [← fills_filter] at h ⊢
  exact h.perm hnames

end Fills

variable {members members' : Members} {name : String} {value : Json}

lemma insertMember_perm (h : name ∉ members.map Prod.fst) :
    (insertMember name value members).Perm ((name, value) :: members) := by
  induction members with
  | nil => exact .refl _
  | cons n rest ih =>
    obtain ⟨hn, hrest⟩ := not_or.mp (List.mem_cons.not.mp h)
    rw [insertMember]
    split
    · exact .refl _
    · exact ((ih hrest).cons n).trans (.swap _ _ _)

lemma sortMembers_perm (h : (members.map Prod.fst).Nodup) : (sortMembers members).Perm members := by
  induction members using List.reverseRecOn with
  | nil => exact .refl _
  | append_singleton rest m ih =>
    rw [List.map_append, List.map_singleton] at h
    obtain ⟨hrest, -, hdisjoint⟩ := List.nodup_append.mp h
    have hsorted := ih hrest
    have hm : m.1 ∉ (sortMembers rest).map Prod.fst := by
      rw [(hsorted.map Prod.fst).mem_iff]
      exact fun hmem => hdisjoint m.1 hmem m.1 (List.mem_singleton_self _) rfl
    rw [sortMembers_concat]
    exact ((insertMember_perm hm).trans (hsorted.cons m)).trans
      (List.perm_append_singleton m rest).symm

/-- Members with names of their own are sorted alike in every order. -/
lemma sortMembers_eq_of_perm (h : (members.map Prod.fst).Nodup) (hperm : members.Perm members') :
    sortMembers members = sortMembers members' := by
  have h' : (members'.map Prod.fst).Nodup := (hperm.map Prod.fst).nodup h
  have hsame : (sortMembers members).Perm (sortMembers members') :=
    ((sortMembers_perm h).trans hperm).trans (sortMembers_perm h').symm
  refine hsame.eq_of_pairwise (fun m n _ _ hmn hnm => ?_) (sorted_sortMembers members)
    (sorted_sortMembers members')
  exact absurd hnm (String.lt_asymm hmn)

lemma canonicalForm_perm (h : (members.map Prod.fst).Nodup) :
    (canonicalForm members).Perm (canonicalMembers members) := by
  refine sortMembers_perm ?_
  rwa [names_canonicalMembers]

lemma canonicalForm_eq_of_perm (h : (members.map Prod.fst).Nodup) (hperm : members.Perm members') :
    canonicalForm members = canonicalForm members' := by
  have hcanonical : (canonicalMembers members).Perm (canonicalMembers members') := by
    rw [canonicalMembers_eq_map, canonicalMembers_eq_map]
    exact hperm.map _
  refine sortMembers_eq_of_perm ?_ hcanonical
  rwa [names_canonicalMembers]

lemma mem_canonicalForm (h : (members.map Prod.fst).Nodup) {m : String × Json}
    (hm : m ∈ members) : (m.1, canonical m.2) ∈ canonicalForm members := by
  rw [(canonicalForm_perm h).mem_iff, canonicalMembers_eq_map]
  exact List.mem_map_of_mem hm

end Json

namespace Step

variable {members members' : Members} {origin : Origin}

/-- The fields of a step are read from their own members, in any order of them. -/
lemma foldMembers_take_of_perm {s : Slots}
    (hown : (members.filter fun m => m.1 ∈ fieldNames).Perm
      (members'.filter fun m => m.1 ∈ fieldNames))
    (hreaches : ∀ m ∈ members', m.1 ∉ fieldNames → origin.Reaches m.2)
    (h : Decoder.foldMembers (take origin) {} (Document.ofMembers members) = .ok s) :
    Decoder.foldMembers (take origin) {} (Document.ofMembers members') =
      .ok { s with rest := members'.filter fun m => m.1 ∉ fieldNames } := by
  obtain ⟨hid, hlabel, hfield, hoperator, hvalue, hisField, hkind, hmin, hmax, -⟩ :=
    foldMembers_take.mp h
  exact foldMembers_take.mpr ⟨hid.perm_of_subset (by decide) hown,
    hlabel.perm_of_subset (by decide) hown, hfield.perm_of_subset (by decide) hown,
    hoperator.perm_of_subset (by decide) hown, hvalue.perm_of_subset (by decide) hown,
    hisField.perm_of_subset (by decide) hown, hkind.perm_of_subset (by decide) hown,
    hmin.perm_of_subset (by decide) hown, hmax.perm_of_subset (by decide) hown, hreaches, rfl⟩

/-- Objects that agree in the fields of the step, up to their order, and of which the same kind is
read, are read as the same step. -/
lemma decode_of_perm_fields {s : Step}
    (hown : (members.filter fun m => m.1 ∈ fieldNames).Perm
      (members'.filter fun m => m.1 ∈ fieldNames))
    (hreaches : ∀ inner, origin.enter = .ok inner →
      (∀ m ∈ members, m.1 ∉ fieldNames → inner.Reaches m.2) →
      ∀ m ∈ members', m.1 ∉ fieldNames → inner.Reaches m.2)
    (hkind : ∀ t : Slots, t.rest = members.filter (fun m => m.1 ∉ fieldNames) →
      decodeValue StepKind.decode (.object (kindMembers t)) = .ok s.kind →
      decodeValue StepKind.decode (.object (kindMembers
        { t with rest := members'.filter fun m => m.1 ∉ fieldNames })) = .ok s.kind)
    (h : decode origin (.ofJson (.object members)) = .ok s) :
    decode origin (.ofJson (.object members')) = .ok s := by
  obtain ⟨inner, hinner, t, ht, hs⟩ := decode_object_eq_ok_iff.mp h
  obtain ⟨-, -, -, -, -, -, -, -, -, hreached, -⟩ := foldMembers_take.mp ht
  obtain ⟨hid, hlabel, hfield, hoperator, hvalue, hread⟩ := ofSlots_eq_ok_iff.mp hs
  refine decode_object_eq_ok_iff.mpr
    ⟨inner, hinner, _, foldMembers_take_of_perm hown (hreaches inner hinner hreached) ht,
      ofSlots_eq_ok_iff.mpr ⟨hid, hlabel, hfield, hoperator, hvalue, ?_⟩⟩
  exact hkind t (rest_of_foldMembers rfl ht) hread

lemma kindMembers_rest {t : Slots} {rest : Members}
    (h : canonicalForm t.rest = canonicalForm rest) :
    kindMembers { t with rest } = kindMembers t := by
  have hfields : kindFields { t with rest } = kindFields t := by
    simp only [kindFields, h]
  rw [kindMembers_eq, kindMembers_eq, hfields]

/-- An object that is read as a step is read so in any order of its members. -/
lemma decode_of_perm (hnames : (members.map Prod.fst).Nodup) (hperm : members.Perm members')
    {s : Step} (h : decode origin (.ofJson (.object members)) = .ok s) :
    decode origin (.ofJson (.object members')) = .ok s := by
  refine decode_of_perm_fields (hperm.filter _)
    (fun inner _ hreached m hm => hreached m (hperm.mem_iff.mpr hm)) (fun t hrest hread => ?_) h
  have hdistinct : ((members.filter fun m => m.1 ∉ fieldNames).map Prod.fst).Nodup :=
    hnames.sublist (List.filter_sublist.map Prod.fst)
  have hform : canonicalForm t.rest =
      canonicalForm (members'.filter fun m => m.1 ∉ fieldNames) := by
    rw [hrest]
    exact canonicalForm_eq_of_perm hdistinct (hperm.filter _)
  rwa [kindMembers_rest hform]

/-- A field is spelled in both of its ways. The filter is a field of references only. -/
inductive SpelledTwice (members : Members) : Prop where
  | fieldName (v w : Json) (current : ("fieldName", v) ∈ members) (older : ("field", w) ∈ members)
  | kind (v w : Json) (current : ("kind", v) ∈ members) (older : ("type", w) ∈ members)
  | filter (name tag : String) (v w : Json) (isName : name ∈ ["kind", "type"])
      (tagged : (name, .text tag) ∈ members) (isReference : kindTag (some tag) = "customFilterRef")
      (current : ("filterId", v) ∈ members) (older : ("fieldReference", w) ∈ members)

/-- The members left for the kind are those that are no fields of the step. -/
lemma mem_rest {s : Slots} (hrest : s.rest = members.filter fun m => m.1 ∉ fieldNames)
    {m : String × Json} :
    m ∈ s.rest ↔ m ∈ members ∧ m.1 ∉ fieldNames := by
  rw [hrest, List.mem_filter, decide_eq_true_iff]

/-- A reference has one filter. -/
lemma not_both_filters {s : Slots} (hnames : (s.rest.map Prod.fst).Nodup)
    (hrest : ∀ m ∈ s.rest, m.1 ∉ fieldNames)
    (htag : kindTag (s.kind.getD none) = "customFilterRef") {v w : Json}
    (hv : ("filterId", v) ∈ s.rest) (hw : ("fieldReference", w) ∈ s.rest) (k : StepKind) :
    decodeValue StepKind.decode (.object (kindMembers s)) ≠ .ok k := by
  intro h
  rw [decode_kindMembers hrest, htag] at h
  simp only [StepKind.Tag.ofName, StepKind.ofMembers, bind_eq_ok_iff] at h
  obtain ⟨t, ht, -⟩ := h
  obtain ⟨hfilter, -, -, -⟩ := StepKind.foldMembers_takeReference.mp ht
  rw [← fills_filter, filter_kindFields s (by decide)] at hfilter
  have hdistinct : ((s.rest.filter fun m => m.1 ∈ ["filterId", "fieldReference"]).map
      Prod.fst).Nodup := hnames.sublist (List.filter_sublist.map Prod.fst)
  exact hfilter.not_both (by decide)
    (mem_canonicalForm hdistinct (List.mem_filter.mpr ⟨hv, by simp⟩))
    (mem_canonicalForm hdistinct (List.mem_filter.mpr ⟨hw, by simp⟩))

lemma decode_ne_ok_of_spelledTwice (hnames : (members.map Prod.fst).Nodup)
    (htwice : SpelledTwice members) (origin : Origin) (s : Step) :
    decode origin (.ofJson (.object members)) ≠ .ok s := by
  intro h
  obtain ⟨inner, -, t, ht, hs⟩ := decode_object_eq_ok_iff.mp h
  obtain ⟨-, -, hfield, -, -, -, hkind, -, -, -, -⟩ := foldMembers_take.mp ht
  have hrest := rest_of_foldMembers rfl ht
  cases htwice with
  | fieldName v w hcurrent holder => exact hfield.not_both (by decide) hcurrent holder
  | kind v w hcurrent holder => exact hkind.not_both (by decide) hcurrent holder
  | filter name tag v w hname htag hreference hcurrent holder =>
    obtain ⟨-, read, -, -, hread, hslot⟩ := hkind.exists_others htag hname
    obtain rfl := Except.ok.inj hread
    obtain ⟨-, -, -, -, -, hk⟩ := ofSlots_eq_ok_iff.mp hs
    have hdistinct : (t.rest.map Prod.fst).Nodup := by
      rw [hrest]
      exact hnames.sublist (List.filter_sublist.map Prod.fst)
    refine not_both_filters hdistinct (fun m hm => ((mem_rest hrest).mp hm).2) ?_
      ((mem_rest hrest).mpr ⟨hcurrent, by simp [fieldNames]⟩)
      ((mem_rest hrest).mpr ⟨holder, by simp [fieldNames]⟩) s.kind hk
    rw [hslot, Option.getD_some, hreference]

/-- The order of members with names of their own does not matter to a step: it is read in one
order if and only if it is in the other, and then it is the same. No order makes up for a field
that is spelled in both of its ways. -/
theorem read_in_any_order (hnames : (members.map Prod.fst).Nodup)
    (hperm : members.Perm members') (origin : Origin) :
    (∀ s, decode origin (.ofJson (.object members)) = .ok s ↔
      decode origin (.ofJson (.object members')) = .ok s) ∧
    (SpelledTwice members → ∀ s, decode origin (.ofJson (.object members)) ≠ .ok s ∧
      decode origin (.ofJson (.object members')) ≠ .ok s) := by
  have hsame : ∀ s, decode origin (.ofJson (.object members)) = .ok s ↔
      decode origin (.ofJson (.object members')) = .ok s := by
    intro s
    constructor
    · exact decode_of_perm hnames hperm
    · exact decode_of_perm ((hperm.map Prod.fst).nodup hnames) hperm.symm
  refine ⟨hsame, fun htwice s => ?_⟩
  have hrejected := decode_ne_ok_of_spelledTwice hnames htwice origin s
  exact ⟨hrejected, fun h => hrejected ((hsame s).mpr h)⟩

/-- A range in its older form, with an end beside the step. -/
def olderRange : Members :=
  [("id", .text "a"), ("type", .text "range"), ("note", .null), ("minValue", .bool true)]

/-- A reference that names its filter in both ways. -/
def filterTwice : Members :=
  [("filterId", .text "f"), ("id", .text "a"), ("type", .text " customFilter "),
    ("fieldReference", .text "f")]

/-- A range in its older form is read in both orders, and a reference that names its filter twice in
neither. -/
theorem read_in_any_order_reversed :
    (∃ s, decodeValue decode (.object olderRange) = .ok s ∧
      decodeValue decode (.object olderRange.reverse) = .ok s) ∧
    ∀ s, decodeValue decode (.object filterTwice) ≠ .ok s ∧
      decodeValue decode (.object filterTwice.reverse) ≠ .ok s := by
  constructor
  · have hread : decodeValue decode (.object olderRange) =
        .ok { id := ⟨"a"⟩, label := "", fieldName := "", operator := none, value := .empty,
              kind := .range ⟨false, false, some ⟨some (.bool true), none⟩⟩ } := by
      rfl
    have hperm : olderRange.Perm olderRange.reverse := (List.reverse_perm _).symm
    exact ⟨_, hread, ((read_in_any_order (by decide) hperm .value).1 _).mp hread⟩
  · have hperm : filterTwice.Perm filterTwice.reverse := (List.reverse_perm _).symm
    refine (read_in_any_order (by decide) hperm .value).2 ?_
    exact .filter "type" " customFilter " (.text "f") (.text "f") (by decide)
      (by simp [filterTwice]) (by decide) (by simp [filterTwice]) (by simp [filterTwice])

end Step

end AlertFilter
