import AlertFilter.Compile.Unfolding

/-!
# Filters in memory

A store keeps each filter under its own identifier. Labels are unique among the filters that are
saved: a draft whose label is taken is refused.
-/

namespace AlertFilter

structure FilterStore where
  filters : List SavedFilter
  nodup : (filters.map (·.id)).Nodup

namespace FilterStore

def empty : FilterStore := ⟨[], by simp⟩

def get? (s : FilterStore) (id : FilterId) : Option SavedFilter := s.filters.find? (·.id = id)

def size (s : FilterStore) : Nat := s.filters.length

def isEmpty (s : FilterStore) : Bool := s.filters.isEmpty

def erase (s : FilterStore) (id : FilterId) : FilterStore where
  filters := s.filters.filter (·.id ≠ id)
  nodup := s.nodup.sublist (List.filter_sublist.map _)

/-- Adds a filter, in place of one with its identifier. -/
def put (s : FilterStore) (f : SavedFilter) : FilterStore where
  filters := (s.erase f.id).filters ++ [f]
  nodup := by
    simp only [List.map_append, List.map_cons, List.map_nil, List.nodup_append]
    refine ⟨(s.erase f.id).nodup, by simp, ?_⟩
    intro a ha b hb
    simp only [List.mem_singleton] at hb
    simp only [erase, List.mem_map, List.mem_filter] at ha
    obtain ⟨g, ⟨-, hg⟩, rfl⟩ := ha
    simpa [hb] using hg

/-- A store of these filters; of two with one identifier the later counts. -/
def ofList (filters : List SavedFilter) : FilterStore := filters.foldl put empty

def get (s : FilterStore) (id : FilterId) : Except StoreError SavedFilter :=
  match s.get? id with
  | some f => .ok f
  | none => .error (.notFound id)

def list (s : FilterStore) : List SavedFilter :=
  s.filters.mergeSort fun f g => !decide (g.label < f.label)

/-- Saves a draft under a new identifier, unless its label is taken. -/
def save (s : FilterStore) (id : FilterId) (d : FilterDraft) :
    Except StoreError (FilterId × FilterStore) :=
  if s.filters.any (·.label = d.label) then .error (.duplicateLabel d.label)
  else .ok (id, s.put (d.saved id))

def delete (s : FilterStore) (id : FilterId) : Except StoreError FilterStore :=
  match s.get? id with
  | some _ => .ok (s.erase id)
  | none => .error (.notFound id)

theorem mem_of_get {s : FilterStore} {id : FilterId} {f : SavedFilter}
    (h : s.get id = .ok f) : f ∈ s.filters ∧ f.id = id := by
  unfold get at h
  split at h
  · next g hg =>
    cases h
    exact ⟨List.mem_of_find?_eq_some hg, by simpa using List.find?_some hg⟩
  · cases h

theorem mem_ids_of_get {s : FilterStore} {id : FilterId} {f : SavedFilter}
    (h : s.get id = .ok f) : id ∈ s.filters.map (·.id) :=
  List.mem_map.2 ⟨f, mem_of_get h⟩

def source (s : FilterStore) : FilterSource := ⟨s.get, s.filters.map (·.id), mem_ids_of_get⟩

end FilterStore

/-- A source that fails for some identifiers. -/
def FilterSource.failing (source : FilterSource) (failure : FilterId → Option StoreError) :
    FilterSource where
  lookup id :=
    match failure id with
    | some e => .error e
    | none => source.lookup id
  ids := source.ids
  mem_ids {id f} h := by
    split at h
    · cases h
    · exact source.mem_ids h

end AlertFilter
