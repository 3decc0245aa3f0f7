import AlertFilter.Proofs.PercentEscapes
import Mathlib.Data.List.DropRight

/-!
# Targets of addresses

What stands in an address behind a fixed front ends up at the end of the target, behind a front
that is fixed too, as long as parsing drops, cuts off or resolves nothing of it. So it can be read
off the target again. What stands behind a number sign can not: it is no part of the target.
-/

namespace AlertFilter.Address

/-- The characters that are encoded in a target, but for those that end its parts. -/
def targetReserved : List Char := fragmentReserved ++ ['{', '}', Char.ofNat 0x27]

/-- A text that keeps its place in a target: nothing of it is dropped, begins a fragment or is
resolved away, and what it escapes already would not be escaped for it. -/
structure Lasting (cs : List Char) : Prop where
  kept : ∀ c ∈ cs, c ∉ ['#', '\t', '\n', '\r']
  last : ∀ c ∈ cs.getLast?, 0x20 < c.toNat
  noEscape : NoEscape targetReserved cs
  slashes : '\\' ∉ (splitAtAny ['?'] cs).1
  segments : ∀ segment ∈ splitSegments (splitAtAny ['?'] cs).1,
    plainDots segment ∉ [['.'], ['.', '.']]

/-- What a server gets to see of what stands behind the host. -/
def targetBehind (cs : List Char) : List Char :=
  normalPath (splitAtAny ['?', '#'] cs).1 ++
    match (splitAtAny ['?', '#'] cs).2 with
    | '?' :: rest => '?' :: encode queryReserved (splitAtAny ['#'] rest).1
    | _ => []

/-- What stands between scheme and path. -/
def hostPart (cs : List Char) : List Char :=
  (splitAtAny ['/', '\\', '?', '#'] (cs.dropWhile isSlash)).1

/-- What stands behind the host. -/
def behindHost (cs : List Char) : List Char :=
  (splitAtAny ['/', '\\', '?', '#'] (cs.dropWhile isSlash)).2

variable {s : String} {address : Address} {front cs : List Char} {stops : List Char} {c : Char}

/-- The target of an address is what stands behind the host, if there is a host. -/
lemma map_target {secure : Bool} {rest : List Char}
    (h : readScheme? (clean s.toList) = some (secure, rest)) :
    (parse? s).map target =
      (readHost? secure (hostPart rest)).map fun _ =>
        String.ofList (targetBehind (behindHost rest)) := by
  rw [parse?, h]
  dsimp only
  rw [← hostPart, ← behindHost]
  cases readHost? secure (hostPart rest) with
  | none => rfl
  | some place =>
    rw [Option.map_some, Option.map_some, target, targetBehind]
    dsimp only
    generalize (splitAtAny ['?', '#'] (behindHost rest)).2 = tail
    rcases tail with _ | ⟨c, tail⟩
    · rfl
    · by_cases hc : c = '?'
      · subst hc
        rfl
      · simp [hc]

lemma target_of_parse (h : parse? s = some address) : ∃ secure rest,
    readScheme? (clean s.toList) = some (secure, rest) ∧
      address.target.toList = targetBehind (behindHost rest) := by
  cases hscheme : readScheme? (clean s.toList) with
  | none =>
    rw [parse?, hscheme] at h
    cases h
  | some scheme =>
    refine ⟨scheme.1, scheme.2, rfl, ?_⟩
    have htarget := map_target hscheme
    rw [h, Option.map_some, eq_comm, Option.map_eq_some_iff] at htarget
    obtain ⟨-, -, htarget⟩ := htarget
    rw [← htarget, String.toList_ofList]

lemma splitAtAny_append (hc : c ∈ stops) (front rest : List Char) :
    splitAtAny stops (front ++ c :: rest) =
      ((splitAtAny stops front).1, (splitAtAny stops front).2 ++ c :: rest) := by
  induction front with
  | nil => simp [splitAtAny, hc]
  | cons d front ih =>
    by_cases hd : d ∈ stops
    · simp [splitAtAny, hd]
    · simpa [splitAtAny, hd] using ih

lemma splitAtAny_eq_self (h : ∀ c ∈ cs, c ∉ stops) : splitAtAny stops cs = (cs, []) := by
  have hall : ∀ c ∈ cs, decide (c ∉ stops) = true := fun c hc => decide_eq_true (h c hc)
  rw [splitAtAny, List.takeWhile_eq_self_iff.mpr hall, List.dropWhile_eq_nil_iff.mpr hall]

lemma splitSegments_ne_nil (cs : List Char) : splitSegments cs ≠ [] := by
  induction cs with
  | nil => exact List.cons_ne_nil _ _
  | cons c rest ih =>
    rw [splitSegments]
    split
    · exact List.cons_ne_nil _ _
    · split <;> exact List.cons_ne_nil _ _

lemma splitSegments_cons_of_slash (hc : isSlash c = true) (rest : List Char) :
    splitSegments (c :: rest) = [] :: splitSegments rest := by
  rw [splitSegments, if_pos hc]

lemma splitSegments_cons (hc : isSlash c = false) {first : List Char} {others : List (List Char)}
    (h : splitSegments cs = first :: others) :
    splitSegments (c :: cs) = (c :: first) :: others := by
  rw [splitSegments, if_neg (Bool.eq_false_iff.mp hc), h]

lemma splitSegments_append (front rest : List Char) :
    splitSegments (front ++ '/' :: rest) = splitSegments front ++ splitSegments rest := by
  induction front with
  | nil => exact splitSegments_cons_of_slash rfl rest
  | cons c front ih =>
    rw [List.cons_append]
    cases hc : isSlash c with
    | true =>
      rw [splitSegments_cons_of_slash hc, splitSegments_cons_of_slash hc, ih, List.cons_append]
    | false =>
      obtain ⟨first, others, hfront⟩ := List.exists_cons_of_ne_nil (splitSegments_ne_nil front)
      rw [hfront, List.cons_append] at ih
      rw [splitSegments_cons hc hfront, splitSegments_cons hc ih, List.cons_append]

/-- Encoded segments with slashes before them are the encoded text with a slash before it. -/
lemma flatMap_splitSegments (h : '\\' ∉ cs) :
    (splitSegments cs).flatMap (fun segment => '/' :: encode pathReserved segment) =
      '/' :: encode pathReserved cs := by
  induction cs with
  | nil => rfl
  | cons c cs ih =>
    obtain ⟨first, others, hcs⟩ := List.exists_cons_of_ne_nil (splitSegments_ne_nil cs)
    have hrest := ih fun hmem => h (List.mem_cons_of_mem c hmem)
    cases hc : isSlash c with
    | true =>
      have hslash : c = '/' := by
        have hne : c ≠ '\\' := fun heq => h (heq ▸ List.mem_cons_self)
        simpa [isSlash, hne] using hc
      rw [splitSegments_cons_of_slash hc, List.flatMap_cons, hrest, hslash]
      rfl
    | false =>
      rw [hcs, List.flatMap_cons] at hrest
      rw [splitSegments_cons hc hcs, List.flatMap_cons]
      simp only [encode, List.flatMap_cons, List.cons_append, List.append_assoc] at hrest ⊢
      rw [(List.cons.inj hrest).2]

/-- Dot segments aside, segments stay as they are. -/
lemma resolve_eq_append {segments : List (List Char)} (done : List (List Char))
    (h : ∀ segment ∈ segments, plainDots segment ∉ [['.'], ['.', '.']]) :
    resolve done segments = done.reverse ++ segments.map (encode pathReserved) := by
  induction segments generalizing done with
  | nil => simp [resolve]
  | cons segment rest ih =>
    obtain ⟨hdot, hdots⟩ : plainDots segment ≠ ['.'] ∧ plainDots segment ≠ ['.', '.'] := by
      simpa using h segment List.mem_cons_self
    rw [resolve, if_neg hdots, if_neg hdot,
      ih _ fun s hs => h s (List.mem_cons_of_mem segment hs), List.reverse_cons, List.map_cons,
      List.append_assoc]
    rfl

/-- What the segments before a row without dot segments leave does not depend on the row. -/
lemma exists_resolve (segments done : List (List Char)) : ∃ front, ∀ rest, rest ≠ [] →
    (∀ segment ∈ rest, plainDots segment ∉ [['.'], ['.', '.']]) →
      resolve done (segments ++ rest) = front ++ rest.map (encode pathReserved) := by
  induction segments generalizing done with
  | nil => exact ⟨done.reverse, fun rest _ hrest => resolve_eq_append done hrest⟩
  | cons segment segments ih =>
    have hempty (rest : List (List Char)) (hne : rest ≠ []) :
        (segments ++ rest).isEmpty = false := by
      simp [hne]
    by_cases hdots : plainDots segment = ['.', '.']
    · obtain ⟨front, hfront⟩ := ih done.tail
      refine ⟨front, fun rest hne hrest => ?_⟩
      rw [List.cons_append, resolve, if_pos hdots, hempty rest hne, ← hfront rest hne hrest]
      rfl
    · by_cases hdot : plainDots segment = ['.']
      · obtain ⟨front, hfront⟩ := ih done
        refine ⟨front, fun rest hne hrest => ?_⟩
        rw [List.cons_append, resolve, if_neg hdots, if_pos hdot, hempty rest hne,
          ← hfront rest hne hrest]
        rfl
      · obtain ⟨front, hfront⟩ := ih (encode pathReserved segment :: done)
        refine ⟨front, fun rest hne hrest => ?_⟩
        rw [List.cons_append, resolve, if_neg hdots, if_neg hdot, hfront rest hne hrest]

lemma exists_normalPath (front : List Char) : ∃ done, ∀ cs, '\\' ∉ cs →
    (∀ segment ∈ splitSegments cs, plainDots segment ∉ [['.'], ['.', '.']]) →
      normalPath (front ++ '/' :: cs) = done ++ '/' :: encode pathReserved cs := by
  cases front with
  | nil =>
    refine ⟨[], fun cs hslash hsegments => ?_⟩
    rw [normalPath, List.nil_append, List.drop_one, List.tail_cons,
      resolve_eq_append _ hsegments, List.reverse_nil, List.nil_append, List.flatMap_map,
      flatMap_splitSegments hslash, List.nil_append]
  | cons c front =>
    obtain ⟨done, hdone⟩ := exists_resolve (splitSegments front) []
    refine ⟨done.flatMap ('/' :: ·), fun cs hslash hsegments => ?_⟩
    rw [normalPath, List.cons_append, List.drop_one, List.tail_cons, splitSegments_append,
      hdone _ (splitSegments_ne_nil cs) hsegments, List.flatMap_append, List.flatMap_map,
      flatMap_splitSegments hslash]

lemma encode_append (reserved cs cs' : List Char) :
    encode reserved (cs ++ cs') = encode reserved cs ++ encode reserved cs' :=
  List.flatMap_append

lemma splitAtAny_of_not_mem (h : ∀ c ∈ front, c ∉ stops) (hc : c ∈ stops) (rest : List Char) :
    splitAtAny stops (front ++ c :: rest) = (front, c :: rest) := by
  rw [splitAtAny_append hc, splitAtAny_eq_self h, List.nil_append]

lemma targetBehind_of_path (h : ∀ c ∈ cs, c ∉ ['?', '#']) : targetBehind cs = normalPath cs := by
  rw [targetBehind, splitAtAny_eq_self h, List.append_nil]

lemma not_mem_singleton (h : c ∉ cs) : ∀ d ∈ cs, d ∉ [c] :=
  fun _ hd heq => h (List.mem_singleton.mp heq ▸ hd)

lemma targetBehind_of_query {query : List Char} (h : ∀ c ∈ cs, c ∉ ['?', '#'])
    (hquery : '#' ∉ query) :
    targetBehind (cs ++ '?' :: query) = normalPath cs ++ '?' :: encode queryReserved query := by
  rw [targetBehind, splitAtAny_of_not_mem h List.mem_cons_self]
  change normalPath cs ++ '?' :: encode queryReserved (splitAtAny ['#'] query).1 = _
  rw [splitAtAny_eq_self (not_mem_singleton hquery)]

/-- What begins neither a query nor a fragment. -/
lemma not_mem_stops (hquery : '?' ∉ cs) (hfragment : '#' ∉ cs) : ∀ c ∈ cs, c ∉ ['?', '#'] := by
  intro c hc hstop
  rcases List.mem_pair.mp hstop with rfl | rfl
  · exact hquery hc
  · exact hfragment hc

lemma rendered_path (hquery : '?' ∉ cs) (hfragment : '#' ∉ cs) :
    Rendered targetReserved cs (encode pathReserved cs) := by
  refine rendered_encode fun c hc hreserved => ?_
  have hstops := not_mem_stops hquery hfragment c hc
  simp only [pathReserved, targetReserved, List.mem_append, List.mem_cons, List.not_mem_nil,
    or_false, not_or] at hreserved hstops ⊢
  tauto

lemma rendered_query (hfragment : '#' ∉ cs) :
    Rendered targetReserved cs (encode queryReserved cs) := by
  refine rendered_encode fun c hc hreserved => ?_
  have hne : c ≠ '#' := fun heq => hfragment (heq ▸ hc)
  simp only [queryReserved, targetReserved, fragmentReserved, List.mem_append, List.mem_cons,
    List.not_mem_nil, or_false] at hreserved ⊢
  tauto

lemma Lasting.not_mem (h : Lasting cs) : '#' ∉ cs := fun hc => h.kept _ hc List.mem_cons_self

/-- What stands behind the beginning of a query stands in the query. -/
lemma targetBehind_in_query {path query : List Char} (hpath : '?' ∉ path)
    (hfront : '#' ∉ path ++ '?' :: query) (h : Lasting cs) :
    targetBehind (path ++ '?' :: query ++ '/' :: cs) =
      normalPath path ++ '?' :: encode queryReserved (query ++ ['/']) ++
        encode queryReserved cs := by
  obtain ⟨hfragment, -, hrest⟩ : '#' ∉ path ∧ '#' ≠ '?' ∧ '#' ∉ query := by
    simpa [not_or] using hfront
  have hkept : '#' ∉ (query ++ ['/']) ++ cs := by
    simp [hrest, h.not_mem]
  rw [List.append_assoc, List.cons_append, List.append_cons query,
    targetBehind_of_query (not_mem_stops hpath hfragment) hkept, encode_append,
    List.append_assoc, List.cons_append]

/-- What stands in the path may begin a query. -/
lemma exists_targetBehind_in_path (hquery : '?' ∉ front) (hfront : '#' ∉ front) :
    ∃ before, ∀ cs, Lasting cs →
      ∃ written, Rendered targetReserved cs written ∧
        targetBehind (front ++ '/' :: cs) = before ++ written := by
  obtain ⟨done, hdone⟩ := exists_normalPath front
  refine ⟨done ++ ['/'], fun cs h => ?_⟩
  have hslash := h.slashes
  have hsegments := h.segments
  have hstops (path : List Char) (hpath : '?' ∉ path) (hfragment : '#' ∉ path) :
      ∀ c ∈ front ++ '/' :: path, c ∉ ['?', '#'] :=
    not_mem_stops (by simp [hquery, hpath]) (by simp [hfront, hfragment])
  by_cases hmem : '?' ∈ cs
  · obtain ⟨path, query, rfl, hpath⟩ := List.eq_append_cons_of_mem hmem
    obtain ⟨hfragment, -, hrest⟩ : '#' ∉ path ∧ '#' ≠ '?' ∧ '#' ∉ query := by
      simpa [not_or] using h.not_mem
    rw [splitAtAny_of_not_mem (not_mem_singleton hpath) List.mem_cons_self] at hslash hsegments
    refine ⟨encode pathReserved path ++ '?' :: encode queryReserved query,
      (rendered_path hpath hfragment).append (.plain _ (rendered_query hrest)), ?_⟩
    rw [← List.cons_append, ← List.append_assoc,
      targetBehind_of_query (hstops path hpath hfragment) hrest, hdone path hslash hsegments,
      List.append_cons done, List.append_assoc, List.append_assoc]
  · rw [splitAtAny_eq_self (not_mem_singleton hmem)] at hslash hsegments
    refine ⟨encode pathReserved cs, rendered_path hmem h.not_mem, ?_⟩
    rw [targetBehind_of_path (hstops cs hmem h.not_mem), hdone cs hslash hsegments,
      List.append_cons done]

/-- Behind a slash a lasting text stands at the end of the target. -/
lemma exists_targetBehind (hfront : '#' ∉ front) : ∃ before, ∀ cs, Lasting cs →
    ∃ written, Rendered targetReserved cs written ∧
      targetBehind (front ++ '/' :: cs) = before ++ written := by
  by_cases hquery : '?' ∈ front
  · obtain ⟨path, query, rfl, hpath⟩ := List.eq_append_cons_of_mem hquery
    exact ⟨_, fun cs h => ⟨_, rendered_query h.not_mem, targetBehind_in_query hpath hfront h⟩⟩
  · exact exists_targetBehind_in_path hquery hfront

/-! ### The whole address -/

lemma dropWhile_append_cons {p : Char → Bool} (hc : p c = false) (front rest : List Char) :
    (front ++ c :: rest).dropWhile p = front.dropWhile p ++ c :: rest := by
  rw [List.dropWhile_append, List.dropWhile_cons_of_neg (Bool.eq_false_iff.mp hc)]
  split
  · next hempty => rw [List.isEmpty_iff.mp hempty, List.nil_append]
  · rfl

/-- A text without tabs and line breaks. -/
def joined (cs : List Char) : List Char := cs.filter fun c => c ≠ '\t' && c ≠ '\n' && c ≠ '\r'

lemma joined_append (cs cs' : List Char) : joined (cs ++ cs') = joined cs ++ joined cs' :=
  List.filter_append ..

/-- A control character or a space. -/
def isEdge (c : Char) : Bool := decide (c.toNat ≤ 0x20)

lemma clean_eq (cs : List Char) : clean cs = joined ((cs.dropWhile isEdge).rdropWhile isEdge) := rfl

lemma isEdge_eq_false (hc : 0x20 < c.toNat) : ¬isEdge c = true := by
  simpa [isEdge] using hc

lemma clean_eq_joined (hfirst : ∀ c ∈ cs.head?, 0x20 < c.toNat)
    (hlast : ∀ c ∈ cs.getLast?, 0x20 < c.toNat) : clean cs = joined cs := by
  have hleft : cs.dropWhile isEdge = cs := by
    rw [List.dropWhile_eq_self_iff]
    intro hl
    exact isEdge_eq_false (hfirst _ (List.head?_eq_getElem? ▸ List.getElem?_eq_getElem hl))
  have hright : cs.rdropWhile isEdge = cs := by
    rw [List.rdropWhile_eq_self_iff]
    intro hl
    exact isEdge_eq_false (hlast _ (List.getLast?_eq_getLast_of_ne_nil hl))
  rw [clean_eq, hleft, hright]

/-- A blank at the end does not belong to an address. -/
lemma clean_concat (hc : isEdge c = true) (cs : List Char) : clean (cs ++ [c]) = clean cs := by
  rw [clean_eq, clean_eq, List.dropWhile_append]
  split
  · next hempty =>
    rw [List.isEmpty_iff.mp hempty, List.dropWhile_cons_of_pos hc, List.dropWhile_nil]
  · rw [List.rdropWhile_concat_pos _ _ _ hc]

lemma Lasting.joined_eq (h : Lasting cs) : joined cs = cs := by
  rw [joined, List.filter_eq_self]
  intro c hc
  have hkept := h.kept c hc
  simp only [List.mem_cons, List.not_mem_nil, or_false, not_or] at hkept
  simp [hkept]

lemma behindHost_append (h : ∃ c ∈ front, isSlash c = false) (cs : List Char) :
    behindHost (front ++ '/' :: cs) = behindHost front ++ '/' :: cs := by
  obtain ⟨c, hc, hslash⟩ := h
  obtain ⟨left, right, rfl⟩ := List.append_of_mem hc
  rw [behindHost, behindHost, dropWhile_append_cons hslash, List.append_assoc, List.cons_append,
    dropWhile_append_cons hslash, ← List.cons_append, ← List.append_assoc,
    splitAtAny_append List.mem_cons_self]

/-- The ways in which an address of the web begins. -/
def schemes : List (List Char) := ["http:".toList, "https:".toList]

lemma exists_readScheme {scheme : List Char} (h : scheme ∈ schemes) :
    ∃ secure, ∀ rest, readScheme? (scheme ++ rest) = some (secure, rest) := by
  rcases List.mem_pair.mp h with rfl | rfl
  · exact ⟨false, fun rest => rfl⟩
  · exact ⟨true, fun rest => rfl⟩

lemma joined_scheme : ∀ scheme ∈ schemes, joined scheme = scheme := by decide

lemma head_scheme : ∀ scheme ∈ schemes, scheme.head? = some 'h' := by decide

lemma clean_append {scheme : List Char} (hscheme : scheme ∈ schemes) (h : Lasting cs) :
    clean (scheme ++ (front ++ '/' :: cs)) = scheme ++ (joined front ++ '/' :: cs) := by
  have hfirst : ∀ c ∈ (scheme ++ (front ++ '/' :: cs)).head?, 0x20 < c.toNat := by
    rw [List.head?_append, head_scheme scheme hscheme]
    rintro c ⟨⟩
    decide
  have hlast : ∀ c ∈ (scheme ++ (front ++ '/' :: cs)).getLast?, 0x20 < c.toNat := by
    rw [List.getLast?_append, List.getLast?_append, List.getLast?_cons]
    intro c hc
    cases hcs : cs.getLast? with
    | none =>
      rw [hcs] at hc
      cases hc
      decide
    | some d =>
      rw [hcs] at hc
      cases hc
      exact h.last d hcs
  have hslash : joined ('/' :: cs) = '/' :: cs := by
    rw [joined, List.filter_cons_of_pos (by decide)]
    exact congrArg _ h.joined_eq
  rw [clean_eq_joined hfirst hlast, joined_append, joined_append, joined_scheme scheme hscheme,
    hslash]

/-- Behind a fixed front lasting texts stand at the end of the target, all behind one front. -/
theorem exists_target {scheme : List Char} (hscheme : scheme ∈ schemes)
    (hletter : ∃ c ∈ joined front, isSlash c = false)
    (hfront : '#' ∉ front) : ∃ before, ∀ cs, Lasting cs → ∀ address,
      parse? (String.ofList (scheme ++ (front ++ '/' :: cs))) = some address →
        ∃ written, Rendered targetReserved cs written ∧
          address.target.toList = before ++ written := by
  obtain ⟨secure, hread⟩ := exists_readScheme hscheme
  have hsub : (behindHost (joined front)).Sublist front :=
    (List.dropWhile_sublist _).trans ((List.dropWhile_sublist _).trans List.filter_sublist)
  obtain ⟨before, hbefore⟩ := exists_targetBehind fun hmem => hfront (hsub.subset hmem)
  refine ⟨before, fun cs h address haddress => ?_⟩
  obtain ⟨secure', rest, hrest, htarget⟩ := target_of_parse haddress
  rw [String.toList_ofList, clean_append hscheme h, hread] at hrest
  cases hrest
  rw [htarget, behindHost_append hletter]
  exact hbefore cs h

lemma clean_fragment (front cs : List Char) : ∃ rest,
    clean (front ++ '#' :: cs) = joined (front.dropWhile isEdge) ++ '#' :: rest := by
  have hright : (front.dropWhile isEdge ++ '#' :: cs).rdropWhile isEdge =
      front.dropWhile isEdge ++ '#' :: cs.rdropWhile isEdge := by
    rw [List.rdropWhile, List.reverse_append, List.reverse_cons, List.append_assoc,
      List.singleton_append, dropWhile_append_cons rfl, List.reverse_append, List.reverse_cons,
      List.reverse_reverse, List.append_assoc, List.singleton_append]
    rfl
  refine ⟨joined (cs.rdropWhile isEdge), ?_⟩
  rw [clean_eq, dropWhile_append_cons rfl, hright, joined_append]
  rfl

/-- A scheme has no number sign in it. -/
lemma readScheme_eq_none (h : '#' ∈ (splitAtAny [':'] cs).1) : readScheme? cs = none := by
  have hlower : '#' ∈ (String.ofList ((splitAtAny [':'] cs).1.map Char.toLower)).toList := by
    rw [String.toList_ofList]
    exact List.mem_map.mpr ⟨'#', h, rfl⟩
  rw [readScheme?]
  dsimp only
  generalize String.ofList ((splitAtAny [':'] cs).1.map Char.toLower) = name at hlower
  split
  · exact absurd hlower (by decide)
  · exact absurd hlower (by decide)
  · rfl

/-- What is read of a scheme does not depend on what stands behind a number sign. -/
lemma readScheme_fragment (front : List Char) :
    (∃ secure rest, ∀ cs, readScheme? (front ++ '#' :: cs) = some (secure, rest ++ '#' :: cs)) ∨
      ∀ cs, readScheme? (front ++ '#' :: cs) = none := by
  by_cases hcolon : ':' ∈ front
  · obtain ⟨scheme, rest, rfl, hscheme⟩ := List.eq_append_cons_of_mem hcolon
    have hsplit (cs : List Char) : splitAtAny [':'] (scheme ++ ':' :: rest ++ '#' :: cs) =
        (scheme, ':' :: (rest ++ '#' :: cs)) := by
      rw [List.append_assoc, List.cons_append,
        splitAtAny_of_not_mem (not_mem_singleton hscheme) List.mem_cons_self]
    simp only [readScheme?, hsplit]
    generalize String.ofList (scheme.map Char.toLower) = name
    by_cases hplain : name = "http"
    · subst hplain
      exact .inl ⟨false, rest, fun cs => rfl⟩
    · by_cases hsecure : name = "https"
      · subst hsecure
        exact .inl ⟨true, rest, fun cs => rfl⟩
      · exact .inr fun cs => by simp [hplain, hsecure]
  · refine .inr fun cs => readScheme_eq_none ?_
    have hcolons : ∀ c ∈ front, decide (c ∉ [':']) = true := fun c hc =>
      decide_eq_true (not_mem_singleton hcolon c hc)
    rw [splitAtAny, List.takeWhile_append_of_pos hcolons]
    exact List.mem_append_right _ List.mem_cons_self

lemma targetBehind_fragment (front cs cs' : List Char) :
    targetBehind (front ++ '#' :: cs) = targetBehind (front ++ '#' :: cs') := by
  have hstop : '#' ∈ ['?', '#'] := List.mem_cons_of_mem _ List.mem_cons_self
  rw [targetBehind, targetBehind, splitAtAny_append hstop, splitAtAny_append hstop]
  dsimp only
  generalize (splitAtAny ['?', '#'] front).2 = tail
  rcases tail with _ | ⟨c, query⟩
  · rfl
  · by_cases hc : c = '?'
    · subst hc
      simp only [List.cons_append, splitAtAny_append List.mem_cons_self]
    · simp [hc]

/-- What stands behind a number sign is not sent. -/
theorem exists_target_fragment (front : List Char) : ∃ sent, ∀ cs,
    (parse? (String.ofList (front ++ '#' :: cs))).map target = sent := by
  have hclean (cs : List Char) : ∃ tail, clean (String.ofList (front ++ '#' :: cs)).toList =
      joined (front.dropWhile isEdge) ++ '#' :: tail := by
    rw [String.toList_ofList]
    exact clean_fragment front cs
  rcases readScheme_fragment (joined (front.dropWhile isEdge)) with ⟨secure, rest, hread⟩ | hnone
  · have hslash : isSlash '#' = false := rfl
    have hstop : '#' ∈ ['/', '\\', '?', '#'] := by decide
    refine ⟨(readHost? secure (hostPart (rest ++ ['#']))).map fun _ =>
      String.ofList (targetBehind (behindHost (rest ++ ['#']))), fun cs => ?_⟩
    obtain ⟨tail, htail⟩ := hclean cs
    have hscheme := hread tail
    rw [← htail] at hscheme
    rw [map_target hscheme, hostPart, hostPart, behindHost, behindHost,
      dropWhile_append_cons hslash, dropWhile_append_cons hslash, splitAtAny_append hstop,
      splitAtAny_append hstop, targetBehind_fragment _ tail []]
  · refine ⟨none, fun cs => ?_⟩
    obtain ⟨tail, htail⟩ := hclean cs
    rw [parse?, htail, hnone tail]
    rfl

end AlertFilter.Address
