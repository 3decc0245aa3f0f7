import AlertFilter.Json.Value
import Mathlib.Data.List.Induction

/-!
# Canonical form of JSON values

Sorting members by name leaves each name once, in ascending order. It commutes with maps
of the values and with the choice of some of the names, and does nothing the second time,
so the canonical form of a value is its own canonical form.
-/

namespace AlertFilter.Json

/-- Members in ascending order of their names, each name once. -/
def Sorted (members : Members) : Prop := members.Pairwise (·.1 < ·.1)

variable {members : Members} {name : String} {value : Json}

lemma lt_of_not_lt {a b : String} (h : ¬a < b) (hne : a ≠ b) : b < a :=
  Classical.byContradiction fun hba =>
    hne (String.le_antisymm (String.not_lt.mp hba) (String.not_lt.mp h))

lemma mem_insertMember {m : String × Json} (h : m ∈ insertMember name value members) :
    m = (name, value) ∨ m ∈ members := by
  induction members with
  | nil => exact .inl (List.mem_singleton.mp h)
  | cons n rest ih =>
    unfold insertMember at h
    split at h
    · exact (List.mem_cons.mp h).imp_right id
    · split at h
      · exact (List.mem_cons.mp h).imp_right (List.mem_cons_of_mem n)
      · rcases List.mem_cons.mp h with rfl | h
        · exact .inr List.mem_cons_self
        · exact (ih h).imp_right (List.mem_cons_of_mem n)

lemma insertMember_of_lt (h : ∀ m ∈ members, name < m.1) :
    insertMember name value members = (name, value) :: members := by
  cases members with
  | nil => rfl
  | cons n rest => rw [insertMember, if_pos (h n List.mem_cons_self)]

lemma insertMember_of_gt (h : ∀ m ∈ members, m.1 < name) :
    insertMember name value members = members ++ [(name, value)] := by
  induction members with
  | nil => rfl
  | cons n rest ih =>
    have hn := h n List.mem_cons_self
    have hne : name ≠ n.1 := fun he => String.lt_irrefl n.1 (he ▸ hn)
    rw [insertMember, if_neg (String.lt_asymm hn), if_neg hne,
      ih fun m hm => h m (List.mem_cons_of_mem n hm), List.cons_append]

lemma Sorted.insertMember (h : Sorted members) : Sorted (insertMember name value members) := by
  induction members with
  | nil => exact List.pairwise_singleton _ _
  | cons n rest ih =>
    obtain ⟨hn, hrest⟩ := List.pairwise_cons.mp h
    rw [Json.insertMember]
    split
    · next hlt =>
      refine List.pairwise_cons.mpr ⟨fun m hm => ?_, h⟩
      rcases List.mem_cons.mp hm with rfl | hm
      · exact hlt
      · exact String.lt_trans hlt (hn m hm)
    · next hlt =>
      split
      · next he => exact List.pairwise_cons.mpr ⟨fun m hm => he ▸ hn m hm, hrest⟩
      · next hne =>
        refine List.pairwise_cons.mpr ⟨fun m hm => ?_, ih hrest⟩
        rcases mem_insertMember hm with rfl | hm
        · exact lt_of_not_lt hlt hne
        · exact hn m hm

lemma insertMember_map (f : Json → Json) :
    Json.insertMember name (f value) (members.map (Prod.map id f)) =
      (Json.insertMember name value members).map (Prod.map id f) := by
  induction members with
  | nil => rfl
  | cons n rest ih =>
    simp only [List.map_cons, Json.insertMember, Prod.map_fst, id_eq, ih]
    split
    · rfl
    · split <;> rfl

/-- Choosing some names before or after a member is put among sorted ones is the same. -/
lemma Sorted.filter_insertMember (h : Sorted members) (p : String → Bool) :
    (Json.insertMember name value members).filter (fun m => p m.1) =
      if p name then Json.insertMember name value (members.filter fun m => p m.1)
      else members.filter fun m => p m.1 := by
  induction members with
  | nil => cases hp : p name <;> simp [Json.insertMember, hp]
  | cons n rest ih =>
    obtain ⟨hn, hrest⟩ := List.pairwise_cons.mp h
    rw [Json.insertMember]
    split
    · next hlt =>
      have hall : ∀ m ∈ (n :: rest).filter (fun m => p m.1), name < m.1 := by
        intro m hm
        rcases List.mem_cons.mp (List.mem_filter.mp hm).1 with rfl | hm
        · exact hlt
        · exact String.lt_trans hlt (hn m hm)
      rw [List.filter_cons, insertMember_of_lt hall]
    · next hlt =>
      split
      · next he =>
        obtain ⟨n, v⟩ := n
        obtain rfl : name = n := he
        rw [List.filter_cons, List.filter_cons]
        by_cases hp : p name = true
        · simp only [hp, if_true, Json.insertMember, if_neg (String.lt_irrefl name)]
        · simp only [hp, Bool.false_eq_true, if_false]
      · next hne =>
        rw [List.filter_cons, ih hrest]
        cases hp : p n.1 <;> cases hq : p name <;> simp [hp, Json.insertMember, hlt, hne]

lemma sortMembers_concat (members : Members) (m : String × Json) :
    sortMembers (members ++ [m]) = insertMember m.1 m.2 (sortMembers members) := by
  rw [sortMembers, List.foldl_append]
  rfl

theorem sorted_sortMembers (members : Members) : Sorted (sortMembers members) := by
  induction members using List.reverseRecOn with
  | nil => exact List.Pairwise.nil
  | append_singleton rest m ih =>
    rw [sortMembers_concat]
    exact ih.insertMember

theorem Sorted.sortMembers_eq (h : Sorted members) : sortMembers members = members := by
  induction members using List.reverseRecOn with
  | nil => rfl
  | append_singleton rest m ih =>
    obtain ⟨hrest, -, hlast⟩ := List.pairwise_append.mp h
    rw [sortMembers_concat, ih hrest]
    exact insertMember_of_gt fun n hn => hlast n hn m (List.mem_singleton_self m)

theorem filter_sortMembers (p : String → Bool) (members : Members) :
    (sortMembers members).filter (fun m => p m.1) =
      sortMembers (members.filter fun m => p m.1) := by
  induction members using List.reverseRecOn with
  | nil => rfl
  | append_singleton rest m ih =>
    rw [sortMembers_concat, (sorted_sortMembers rest).filter_insertMember, ih,
      List.filter_append]
    cases hp : p m.1 with
    | false =>
      have hm : [m].filter (fun m => p m.1) = [] := by simp [hp]
      rw [hm, List.append_nil, if_neg Bool.false_ne_true]
    | true =>
      have hm : [m].filter (fun m => p m.1) = [m] := by simp [hp]
      rw [hm, sortMembers_concat, if_pos rfl]

lemma sortMembers_map (f : Json → Json) (members : Members) :
    sortMembers (members.map (Prod.map id f)) = (sortMembers members).map (Prod.map id f) := by
  induction members using List.reverseRecOn with
  | nil => rfl
  | append_singleton rest m ih =>
    rw [List.map_append, List.map_singleton, sortMembers_concat, sortMembers_concat, ih]
    exact insertMember_map f

lemma canonicalItems_eq_map (items : List Json) :
    canonicalItems items = items.map canonical := by
  induction items with
  | nil => rfl
  | cons v rest ih => rw [canonicalItems, ih, List.map_cons]

lemma canonicalMembers_eq_map (members : Members) :
    canonicalMembers members = members.map (Prod.map id canonical) := by
  induction members with
  | nil => rfl
  | cons m rest ih => rw [canonicalMembers, ih, List.map_cons]; rfl

lemma names_canonicalMembers (members : Members) :
    (canonicalMembers members).map Prod.fst = members.map Prod.fst := by
  rw [canonicalMembers_eq_map, List.map_map]
  rfl

lemma canonicalMembers_append (members rest : Members) :
    canonicalMembers (members ++ rest) = canonicalMembers members ++ canonicalMembers rest := by
  rw [canonicalMembers_eq_map, List.map_append, ← canonicalMembers_eq_map,
    ← canonicalMembers_eq_map]

lemma filter_canonicalMembers (p : String → Bool) (members : Members) :
    (canonicalMembers members).filter (fun m => p m.1) =
      canonicalMembers (members.filter fun m => p m.1) := by
  rw [canonicalMembers_eq_map, canonicalMembers_eq_map, List.filter_map]
  rfl

lemma canonicalMembers_sortMembers (members : Members) :
    canonicalMembers (sortMembers members) = sortMembers (canonicalMembers members) := by
  rw [canonicalMembers_eq_map, canonicalMembers_eq_map, sortMembers_map]

mutual

theorem canonical_canonical : ∀ v : Json, canonical (canonical v) = canonical v
  | .null | .bool _ | .number _ | .text _ => rfl
  | .array items => by
    rw [canonical, canonical, canonicalItems_canonicalItems items]
  | .object members => by
    rw [canonical, canonical, canonicalMembers_sortMembers,
      canonicalMembers_canonicalMembers members,
      (sorted_sortMembers (canonicalMembers members)).sortMembers_eq]

theorem canonicalItems_canonicalItems :
    ∀ items : List Json, canonicalItems (canonicalItems items) = canonicalItems items
  | [] => rfl
  | v :: rest => by
    rw [canonicalItems, canonicalItems, canonical_canonical v,
      canonicalItems_canonicalItems rest]

theorem canonicalMembers_canonicalMembers :
    ∀ members : Members, canonicalMembers (canonicalMembers members) = canonicalMembers members
  | [] => rfl
  | (name, v) :: rest => by
    rw [canonicalMembers, canonicalMembers, canonical_canonical v,
      canonicalMembers_canonicalMembers rest]

end

end AlertFilter.Json
