import AlertFilter.Store.Memory
import Mathlib.Data.List.Nodup
import Mathlib.Data.String.Basic
import Mathlib.Tactic.Lemma

/-!
# Runs of a store in memory

A store answers calls one after the other. Whatever it was asked before, its labels differ from
one another, so that its list is strictly sorted. A call that fails changes nothing, a save adds
one filter and a deletion takes one away.
-/

namespace AlertFilter

/-- A call to a store. A save brings the identifier that a draft gets if it is accepted. -/
inductive StoreCall where
  | get (id : FilterId)
  | list
  | save (fresh : FilterId) (draft : FilterDraft)
  | delete (id : FilterId)

/-- What a call answers if it succeeds. -/
inductive StoreAnswer where
  | filter (f : SavedFilter)
  | filters (fs : List SavedFilter)
  | saved (id : FilterId)
  | deleted

namespace FilterStore

/-- The answer to a call, and the store behind it. -/
def called (s : FilterStore) : StoreCall → Except StoreError StoreAnswer × FilterStore
  | .get id => ((s.get id).map .filter, s)
  | .list => (.ok (.filters s.list), s)
  | .save fresh d =>
    match s.save fresh d with
    | .ok (id, s') => (.ok (.saved id), s')
    | .error e => (.error e, s)
  | .delete id =>
    match s.delete id with
    | .ok s' => (.ok .deleted, s')
    | .error e => (.error e, s)

def after (s : FilterStore) (c : StoreCall) : FilterStore := (s.called c).2

def run (s : FilterStore) (calls : List StoreCall) : FilterStore := calls.foldl after s

def HasLabel (s : FilterStore) (label : String) : Prop := ∃ f ∈ s.filters, f.label = label

/-- The identifier that a draft gets is not the key of another filter. A draft that is refused
gets none. -/
def Admits (s : FilterStore) : StoreCall → Prop
  | .save fresh d => ¬s.HasLabel d.label → s.get? fresh = none
  | _ => True

/-- Every identifier that is given in the course of a run is new at that time. -/
def Fresh (s : FilterStore) : List StoreCall → Prop
  | [] => True
  | c :: rest => s.Admits c ∧ (s.after c).Fresh rest

def LabelsDiffer (s : FilterStore) : Prop := (s.filters.map (·.label)).Nodup

/-- The stores a run starts with. -/
inductive Start : FilterStore → Prop
  | empty : Start .empty
  | filters {fs : List SavedFilter} (h : (fs.map (·.label)).Nodup) : Start (.ofList fs)

variable {s : FilterStore} {id : FilterId} {f : SavedFilter}

lemma get?_eq_some_iff : s.get? id = some f ↔ f ∈ s.filters ∧ f.id = id := by
  constructor
  · intro h
    exact ⟨List.mem_of_find?_eq_some h, by simpa using List.find?_some h⟩
  · rintro ⟨hf, rfl⟩
    obtain ⟨g, hg⟩ : ∃ g, s.get? f.id = some g := by
      rw [← Option.isSome_iff_exists, get?, List.find?_isSome]
      exact ⟨f, hf, decide_eq_true rfl⟩
    have hid : g.id = f.id := by simpa using List.find?_some hg
    rw [hg, List.inj_on_of_nodup_map s.nodup (List.mem_of_find?_eq_some hg) hf hid]

lemma get?_eq_none_iff : s.get? id = none ↔ ∀ f ∈ s.filters, f.id ≠ id := by
  simp only [get?, List.find?_eq_none, decide_eq_true_eq, ne_eq]

lemma get_of_get? (h : s.get? id = some f) : s.get id = .ok f := by
  rw [get, h]

lemma get_of_get?_none (h : s.get? id = none) : s.get id = .error (.notFound id) := by
  rw [get, h]

lemma get_eq_ok_iff : s.get id = .ok f ↔ s.get? id = some f := by
  unfold get
  cases s.get? id <;> simp

lemma get_congr {s' : FilterStore} (h : s'.get? id = s.get? id) : s'.get id = s.get id := by
  rw [get, get, h]

lemma get?_erase (s : FilterStore) (id a : FilterId) :
    (s.erase id).get? a = if a = id then none else s.get? a := by
  rw [get?, erase, List.find?_filter]
  split
  · next h =>
    rw [List.find?_eq_none]
    simp [h]
  · next h =>
    congr 1
    funext g
    have hg : g.id = a → g.id ≠ id := fun hga => hga ▸ h
    simpa using hg

lemma get?_put (s : FilterStore) (f : SavedFilter) (a : FilterId) :
    (s.put f).get? a = if a = f.id then some f else s.get? a := by
  rw [get?, put, List.find?_append, ← get?, get?_erase]
  split
  · next h => simp [h]
  · next h =>
    have hf : ¬f.id = a := fun hfa => h hfa.symm
    simp [hf]

lemma get?_put_saved (s : FilterStore) (d : FilterDraft) (id a : FilterId) :
    (s.put (d.saved id)).get? a = if a = id then some (d.saved id) else s.get? a :=
  s.get?_put (d.saved id) a

lemma ext_filters {s s' : FilterStore} (h : s.filters = s'.filters) : s = s' := by
  cases s
  cases s'
  cases h
  rfl

lemma erase_of_get?_none (h : s.get? id = none) : s.erase id = s := by
  refine ext_filters ?_
  rw [erase, List.filter_eq_self]
  simpa using get?_eq_none_iff.mp h

lemma filters_put (h : s.get? f.id = none) : (s.put f).filters = s.filters ++ [f] := by
  simp only [put, erase_of_get?_none h]

/-- A filter that is put under a new identifier and erased leaves nothing behind. -/
lemma erase_put (h : s.get? f.id = none) : (s.put f).erase f.id = s := by
  refine ext_filters ?_
  have hs : s.filters.filter (·.id ≠ f.id) = s.filters :=
    congrArg filters (erase_of_get?_none h)
  simp only [erase, filters_put h, List.filter_append, hs]
  simp

lemma called_save_of_hasLabel {d : FilterDraft} (h : s.HasLabel d.label) (fresh : FilterId) :
    s.called (.save fresh d) = (.error (.duplicateLabel d.label), s) := by
  have hany : s.filters.any (·.label = d.label) = true := by simpa [HasLabel] using h
  rw [called, save, if_pos hany]

lemma called_save {d : FilterDraft} (h : ¬s.HasLabel d.label) (fresh : FilterId) :
    s.called (.save fresh d) = (.ok (.saved fresh), s.put (d.saved fresh)) := by
  have hany : ¬s.filters.any (·.label = d.label) = true := by simpa [HasLabel] using h
  rw [called, save, if_neg hany]

lemma called_delete_of_none (h : s.get? id = none) :
    s.called (.delete id) = (.error (.notFound id), s) := by
  rw [called, delete, h]

lemma called_delete (h : s.get? id = some f) :
    s.called (.delete id) = (.ok .deleted, s.erase id) := by
  rw [called, delete, h]

/-- All that a call can do to a store. -/
lemma after_cases (s : FilterStore) (c : StoreCall) :
    s.after c = s ∨
      (∃ fresh d, c = .save fresh d ∧ ¬s.HasLabel d.label ∧
        s.after c = s.put (d.saved fresh)) ∨
      ∃ id, c = .delete id ∧ s.after c = s.erase id := by
  cases c with
  | get id => exact .inl rfl
  | list => exact .inl rfl
  | save fresh d =>
    by_cases h : s.HasLabel d.label
    · exact .inl (congrArg Prod.snd (called_save_of_hasLabel h fresh))
    · exact .inr (.inl ⟨fresh, d, rfl, h, congrArg Prod.snd (called_save h fresh)⟩)
  | delete id =>
    cases h : s.get? id with
    | none => exact .inl (congrArg Prod.snd (called_delete_of_none h))
    | some f => exact .inr (.inr ⟨id, rfl, congrArg Prod.snd (called_delete h)⟩)

lemma hasLabel_after_save (s : FilterStore) (fresh : FilterId) (d : FilterDraft) :
    (s.after (.save fresh d)).HasLabel d.label := by
  by_cases h : s.HasLabel d.label
  · rw [after, called_save_of_hasLabel h]
    exact h
  · rw [after, called_save h]
    exact ⟨d.saved fresh, List.mem_append_right _ (List.mem_singleton_self _), rfl⟩

lemma get?_after_delete (s : FilterStore) (id : FilterId) :
    (s.after (.delete id)).get? id = none := by
  cases h : s.get? id with
  | none =>
    rw [after, called_delete_of_none h]
    exact h
  | some f => rw [after, called_delete h, get?_erase, if_pos rfl]

lemma LabelsDiffer.erase (h : s.LabelsDiffer) (id : FilterId) : (s.erase id).LabelsDiffer :=
  List.Nodup.sublist (List.filter_sublist.map _) h

lemma LabelsDiffer.put (h : s.LabelsDiffer) (hf : ¬s.HasLabel f.label) :
    (s.put f).LabelsDiffer := by
  have herase : (s.erase f.id).filters.Sublist s.filters := List.filter_sublist
  rw [LabelsDiffer, FilterStore.put, List.map_append, List.nodup_append]
  refine ⟨h.erase f.id, List.nodup_singleton _, ?_⟩
  rintro a ha b hb rfl
  obtain ⟨g, hg, rfl⟩ := List.mem_map.mp ha
  exact hf ⟨g, herase.subset hg, List.mem_singleton.mp hb⟩

lemma LabelsDiffer.after (h : s.LabelsDiffer) (c : StoreCall) : (s.after c).LabelsDiffer := by
  obtain hc | ⟨fresh, d, -, hlabel, hc⟩ | ⟨id, -, hc⟩ := s.after_cases c
  · rwa [hc]
  · rw [hc]
    exact h.put hlabel
  · rw [hc]
    exact h.erase id

lemma LabelsDiffer.run (h : s.LabelsDiffer) (calls : List StoreCall) :
    (s.run calls).LabelsDiffer :=
  List.foldlRecOn calls FilterStore.after h fun _ hs c _ => hs.after c

lemma foldl_put_sublist (fs : List SavedFilter) (s : FilterStore) :
    (fs.foldl put s).filters.Sublist (s.filters ++ fs) := by
  induction fs generalizing s with
  | nil => exact List.sublist_append_left _ _
  | cons f rest ih =>
    have hput : (s.put f).filters.Sublist (s.filters ++ [f]) :=
      List.filter_sublist.append (List.Sublist.refl [f])
    have hrest := (ih (s.put f)).trans (hput.append (List.Sublist.refl rest))
    rwa [List.append_assoc] at hrest

lemma Start.labelsDiffer (h : s.Start) : s.LabelsDiffer := by
  cases h with
  | empty => exact List.nodup_nil
  | filters h => exact h.sublist ((foldl_put_sublist _ FilterStore.empty).map _)

lemma list_perm (s : FilterStore) : s.list.Perm s.filters := List.mergeSort_perm _ _

lemma pairwise_list_le (s : FilterStore) : s.list.Pairwise (·.label ≤ ·.label) := by
  let le : SavedFilter → SavedFilter → Bool := fun f g => !decide (g.label < f.label)
  have hle : ∀ f g, le f g = true ↔ f.label ≤ g.label := by
    intro f g
    simp only [le, Bool.not_eq_true', decide_eq_false_iff_not, not_lt]
  have hsorted : (s.filters.mergeSort le).Pairwise fun f g => le f g = true := by
    refine List.pairwise_mergeSort (fun f g h => ?_) (fun f g => ?_) s.filters
    · rw [hle, hle, hle]
      exact le_trans
    · rw [Bool.or_eq_true, hle, hle]
      exact le_total _ _
  exact hsorted.imp fun h => (hle _ _).mp h

/-- A list of filters whose labels differ is strictly sorted. -/
lemma LabelsDiffer.pairwise_list (h : s.LabelsDiffer) : s.list.Pairwise (·.label < ·.label) := by
  have hne : s.list.Pairwise (·.label ≠ ·.label) :=
    List.pairwise_map.mp ((s.list_perm.map _).nodup_iff.mpr h)
  exact (s.pairwise_list_le.and hne).imp fun h => lt_of_le_of_ne h.1 h.2

lemma mem_list_iff : f ∈ s.list ↔ s.get? f.id = some f := by
  rw [s.list_perm.mem_iff, get?_eq_some_iff, and_iff_left rfl]

/-- A filter stays as it is until it is deleted. -/
lemma get?_after {c : StoreCall} (hc : s.Admits c) (hdelete : c ≠ .delete id)
    (h : s.get? id = some f) : (s.after c).get? id = some f := by
  obtain hs | ⟨fresh, d, rfl, hlabel, hs⟩ | ⟨a, rfl, hs⟩ := s.after_cases c
  · rwa [hs]
  · have hne : id ≠ fresh := by
      rintro rfl
      cases h.symm.trans (hc hlabel)
    rw [hs, get?_put_saved, if_neg hne, h]
  · have hne : id ≠ a := fun he => hdelete (he ▸ rfl)
    rw [hs, get?_erase, if_neg hne, h]

lemma get?_run {calls : List StoreCall} (hfresh : s.Fresh calls) (hdelete : .delete id ∉ calls)
    (h : s.get? id = some f) : (s.run calls).get? id = some f := by
  induction calls generalizing s with
  | nil => exact h
  | cons c rest ih =>
    have hc : c ≠ .delete id := fun he => hdelete (he ▸ List.mem_cons_self)
    have hrest : .delete id ∉ rest := fun hmem => hdelete (List.mem_cons_of_mem c hmem)
    exact ih hfresh.2 hrest (get?_after hfresh.1 hc h)

/-- A store in memory along any run of calls. Labels stay distinct, and each filter stands under
its own identifier. A save under a label that is taken is refused. Any other save gives a filter
that is found until it is deleted, leaves all other filters as they were, and is undone by a
deletion. A deletion takes one filter away, and is refused where there is none. A refusal changes
nothing. The list holds each filter once, strictly sorted by label. -/
theorem Start.run_answers {s₀ : FilterStore} (h : s₀.Start) (calls : List StoreCall) :
    let s := s₀.run calls
    ((s.filters.map (·.label)).Nodup ∧ ∀ id f, s.get id = .ok f → f.id = id) ∧
    (∀ fresh d, (∃ f ∈ s.filters, f.label = d.label) →
      s.called (.save fresh d) = (.error (.duplicateLabel d.label), s)) ∧
    (∀ fresh d, (∀ f ∈ s.filters, f.label ≠ d.label) → (∀ f ∈ s.filters, f.id ≠ fresh) →
      ∃ s', s.called (.save fresh d) = (.ok (.saved fresh), s') ∧
        (∀ later, s'.Fresh later → .delete fresh ∉ later →
          (s'.run later).get fresh = .ok (d.saved fresh)) ∧
        (∀ id ≠ fresh, s'.get id = s.get id) ∧
        s'.called (.delete fresh) = (.ok .deleted, s)) ∧
    (∀ id f, s.get id = .ok f → ∃ s', s.called (.delete id) = (.ok .deleted, s') ∧
      s'.get id = .error (.notFound id) ∧ ∀ a ≠ id, s'.get a = s.get a) ∧
    (∀ id, (∀ f ∈ s.filters, f.id ≠ id) →
      s.called (.delete id) = (.error (.notFound id), s)) ∧
    ∃ fs, s.called .list = (.ok (.filters fs), s) ∧ fs.Pairwise (·.label < ·.label) ∧
      ∀ f, f ∈ fs ↔ s.get f.id = .ok f := by
  intro s
  have hlabels : s.LabelsDiffer := h.labelsDiffer.run calls
  refine ⟨⟨hlabels, fun id f hf => (mem_of_get hf).2⟩, fun fresh d hd => ?_,
    fun fresh d hd hfresh => ?_, fun id f hf => ?_, fun id hid => ?_, ?_⟩
  · exact called_save_of_hasLabel hd fresh
  · have hlabel : ¬s.HasLabel d.label := fun ⟨f, hf, he⟩ => hd f hf he
    have hnone : s.get? (d.saved fresh).id = none := get?_eq_none_iff.mpr hfresh
    have hput : (s.put (d.saved fresh)).get? fresh = some (d.saved fresh) := by
      rw [get?_put_saved, if_pos rfl]
    refine ⟨s.put (d.saved fresh), called_save hlabel fresh, fun later hlater hdelete => ?_,
      fun id hid => ?_, ?_⟩
    · exact get_of_get? (get?_run hlater hdelete hput)
    · exact get_congr (by rw [get?_put_saved, if_neg hid])
    · rw [called_delete hput]
      exact congrArg (Prod.mk _) (erase_put hnone)
  · refine ⟨s.erase id, called_delete (get_eq_ok_iff.mp hf), ?_, fun a ha => ?_⟩
    · exact get_of_get?_none (by rw [get?_erase, if_pos rfl])
    · exact get_congr (by rw [get?_erase, if_neg ha])
  · exact called_delete_of_none (get?_eq_none_iff.mpr hid)
  · refine ⟨s.list, rfl, hlabels.pairwise_list, fun f => ?_⟩
    rw [mem_list_iff, get_eq_ok_iff]

/-- A save, one refused for its label, one deletion that finds nothing and one that does. -/
theorem Start.run_answers_after_refusals :
    let old : SavedFilter := ⟨⟨"a"⟩, "dim", none, [], [], false⟩
    let draft : FilterDraft := ⟨"bright", "Filter with 0 conditions", [], [], true⟩
    let other : FilterDraft := { draft with label := "ash" }
    let s₀ := FilterStore.ofList [old]
    let s := s₀.run [.save ⟨"b"⟩ draft, .save ⟨"c"⟩ draft, .delete ⟨"c"⟩, .delete ⟨"a"⟩]
    s₀.Start ∧ s.filters = [draft.saved ⟨"b"⟩] ∧
      s.called (.save ⟨"c"⟩ draft) = (.error (.duplicateLabel "bright"), s) ∧
      ∃ s', s.called (.save ⟨"a"⟩ other) = (.ok (.saved ⟨"a"⟩), s') ∧
        s'.Fresh [.save ⟨"c"⟩ other, .delete ⟨"b"⟩] ∧
        (s'.run [.save ⟨"c"⟩ other, .delete ⟨"b"⟩]).get ⟨"a"⟩ = .ok (other.saved ⟨"a"⟩) ∧
        s'.called (.delete ⟨"a"⟩) = (.ok .deleted, s) := by
  intro old draft other s₀ s
  have hstart : s₀.Start := .filters (by decide)
  have hs : s.filters = [draft.saved ⟨"b"⟩] := by decide
  obtain ⟨-, hrefused, haccepted, -⟩ := hstart.run_answers
    [.save ⟨"b"⟩ draft, .save ⟨"c"⟩ draft, .delete ⟨"c"⟩, .delete ⟨"a"⟩]
  have hlabel : ∀ f ∈ s.filters, f.label ≠ other.label := by rw [hs]; decide
  have hid : ∀ f ∈ s.filters, f.id ≠ ⟨"a"⟩ := by rw [hs]; decide
  obtain ⟨s', hsaved, hlater, -, hundone⟩ := haccepted ⟨"a"⟩ other hlabel hid
  have hs' : s' = s.put (other.saved ⟨"a"⟩) := by
    have hnot : ¬s.HasLabel other.label := fun ⟨f, hf, he⟩ => hlabel f hf he
    exact congrArg Prod.snd (hsaved.symm.trans (called_save hnot ⟨"a"⟩))
  have hfresh : s'.Fresh [.save ⟨"c"⟩ other, .delete ⟨"b"⟩] := by
    rw [hs']
    exact ⟨fun _ => rfl, trivial, trivial⟩
  refine ⟨hstart, hs, hrefused ⟨"c"⟩ draft ?_, s', hsaved, hfresh, ?_, hundone⟩
  · exact ⟨draft.saved ⟨"b"⟩, by rw [hs]; exact List.mem_singleton_self _, rfl⟩
  · refine hlater _ hfresh ?_
    simp

end FilterStore

end AlertFilter
