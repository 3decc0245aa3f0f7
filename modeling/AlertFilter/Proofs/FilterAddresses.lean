import AlertFilter.Proofs.AddressTargets
import AlertFilter.Proofs.ClientCalls

/-!
# Addresses of filters

A filter is fetched and deleted by an address with its identifier at the end, as it is written.
Identifiers that keep their place in an address have targets of their own, if the base address has
no fragment. Others have not: parsing the address makes of them what it makes of another identifier,
and so the filter of the other is fetched or deleted.
-/

namespace AlertFilter

/-- The requests that a call sends to a network with given replies. -/
def ClientCall.sent {α : Type} (call : ClientCall α) (config : StoreConfig)
    (script : Nat → Reply) : List Request :=
  (((FilterClient.mk (.scripted script) config).perform call).run []).2

/-- What the paths of calls for a filter begin with. -/
def filterStems : List (List Char) := ["get-filter".toList, "delete-filter".toList]

/-- A call has a text at the end of its path, behind one of the stems. -/
structure ClientCall.Names {α : Type} (call : ClientCall α) (stem cs : List Char) : Prop where
  known : stem ∈ filterStems
  ends : call.path.toList = stem ++ '/' :: cs

namespace StoreConfig

variable {config : StoreConfig}

lemma rdropWhile_append_of_eq {p : Char → Bool} {xs : List Char} (h : xs.rdropWhile p = xs)
    (ys : List Char) : (xs ++ ys).rdropWhile p = xs ++ ys.rdropWhile p := by
  rw [List.rdropWhile] at h
  rw [List.rdropWhile, List.reverse_append, List.dropWhile_append, List.rdropWhile]
  split
  · next hempty => rw [h, List.isEmpty_iff.mp hempty, List.reverse_nil, List.append_nil]
  · rw [List.reverse_append, List.reverse_reverse]

lemma rdropWhile_scheme : ∀ scheme ∈ Address.schemes,
    scheme.rdropWhile (fun c => decide (c = '/')) = scheme := by decide

/-- An accepted base address begins with a scheme. -/
lemma exists_base (h : config.check = .ok ()) : ∃ scheme ∈ Address.schemes, ∃ front,
    (dropTrailing '/' config.baseUrl).toList = scheme ++ front ∧
      ∀ c ∈ front, c ∈ config.baseUrl.toList := by
  have haccepts : config.acceptsBase = true := by
    rw [check] at h
    split at h
    · assumption
    · cases h
  have hbegin : ∃ scheme ∈ Address.schemes, ∃ front,
      config.baseUrl.toList = scheme ++ front := by
    rw [acceptsBase, Bool.or_eq_true, List.isPrefixOf_iff_prefix, List.isPrefixOf_iff_prefix]
      at haccepts
    rcases haccepts with ⟨rest, hrest⟩ | ⟨rest, hrest⟩
    · exact ⟨"http:".toList, List.mem_cons_self, "//".toList ++ rest, hrest.symm⟩
    · exact ⟨"https:".toList, List.mem_cons_of_mem _ List.mem_cons_self, "//".toList ++ rest,
        hrest.symm⟩
  obtain ⟨scheme, hscheme, front, hfront⟩ := hbegin
  refine ⟨scheme, hscheme, front.rdropWhile (· = '/'), ?_, fun c hc => ?_⟩
  · rw [dropTrailing, String.toList_ofList, hfront]
    exact rdropWhile_append_of_eq (rdropWhile_scheme scheme hscheme) front
  · rw [hfront]
    exact List.mem_append_right _ ((List.rdropWhile_prefix _ _).subset hc)

/-- What is put behind the base address stands behind a slash. -/
lemma toList_endpoint {path : String} (hpath : path.toList.head? ≠ some '/') :
    (config.endpoint path).toList =
      (dropTrailing '/' config.baseUrl).toList ++ '/' :: path.toList := by
  have hkept : path.toList.dropWhile (fun c => decide (c = '/')) = path.toList := by
    cases hcs : path.toList with
    | nil => rfl
    | cons c cs =>
      have hc : c ≠ '/' := fun heq => hpath (by rw [hcs, heq, List.head?_cons])
      rw [List.dropWhile_cons_of_neg (by simpa using hc)]
  rw [endpoint, dropLeading, hkept, String.ofList_toList, String.toList_append,
    String.toList_append, List.append_assoc]
  rfl

end StoreConfig

namespace FilterClient

variable {α : Type} {config : StoreConfig} {call : ClientCall α} {script : Nat → Reply}
  {r : Request}

lemma sent_eq (config : StoreConfig) (call : ClientCall α) (script : Nat → Reply) :
    call.sent config script = (((FilterClient.mk (.scripted script) config).request call.method
      call.path call.body).run []).2 :=
  congrArg Prod.snd (perform_run (c := ⟨.scripted script, config⟩) rfl)

/-- Every request goes to one address, the one of a call. -/
def OwnRequests (config : StoreConfig) (call : ClientCall α) (sent : List Request) : Prop :=
  ∀ r ∈ sent, Address.parse? (config.endpoint call.path) = some r.address

lemma OwnRequests.attempt {sent : List Request} (script : Nat → Reply)
    (h : OwnRequests config call sent) :
    OwnRequests config call (((FilterClient.mk (.scripted script) config).attempt call.method
      call.path call.body).run sent).2 := by
  by_cases hparse : ∃ address, Address.parse? (config.endpoint call.path) = some address
  · obtain ⟨address, haddress⟩ := hparse
    have hsend : ((Network.scripted script).send (call.request address)).run sent =
      (script sent.length, sent ++ [call.request address]) := rfl
    rw [attempt_run (c := ⟨.scripted script, config⟩) haddress hsend]
    intro r hr
    rcases List.mem_append.mp hr with hr | hr
    · exact h r hr
    · rw [List.mem_singleton.mp hr]
      exact haddress
  · have hnone : Address.parse? (config.endpoint call.path) = none :=
      Option.eq_none_iff_forall_not_mem.mpr fun address haddress => hparse ⟨address, haddress⟩
    rw [FilterClient.attempt, Network.exchange, hnone]
    exact h

/-- A call sends requests to its own address only. -/
lemma ownRequests_sent (config : StoreConfig) (call : ClientCall α) (script : Nat → Reply) :
    OwnRequests config call (call.sent config script) := by
  rw [sent_eq, request, StateT.run_bind]
  exact RetryPolicy.runFrom_preserves (fun _ h => h.attempt script) (fun _ _ h => h) _ _
    fun r hr => by cases hr

lemma names_get (id : FilterId) :
    (ClientCall.get id).Names "get-filter".toList id.text.toList :=
  ⟨List.mem_cons_self, String.toList_append⟩

lemma names_delete (id : FilterId) :
    (ClientCall.delete id).Names "delete-filter".toList id.text.toList :=
  ⟨List.mem_cons_of_mem _ List.mem_cons_self, String.toList_append⟩

lemma exists_stem : ∀ stem ∈ filterStems, '#' ∉ stem ∧
    ∃ c ∈ Address.joined stem, Address.isSlash c = false := by
  intro stem hstem
  rcases List.mem_pair.mp hstem with rfl | rfl
  · exact ⟨by decide, 'g', by decide, rfl⟩
  · exact ⟨by decide, 'd', by decide, rfl⟩

lemma toList_endpoint_of_names {stem cs : List Char} (h : call.Names stem cs) :
    (config.endpoint call.path).toList =
      (dropTrailing '/' config.baseUrl).toList ++ '/' :: (stem ++ '/' :: cs) := by
  have hhead : call.path.toList.head? ≠ some '/' := by
    rw [h.ends]
    rcases List.mem_pair.mp h.known with rfl | rfl <;> rintro ⟨⟩
  rw [StoreConfig.toList_endpoint hhead, h.ends]

/-- An identifier that keeps its place stands at the end of the target, and what stands before it
depends on the kind of the call alone. -/
lemma exists_target_of_sent {stem : List Char} (hstem : stem ∈ filterStems)
    (hconfig : config.check = .ok ()) (hfragment : '#' ∉ config.baseUrl.toList) :
    ∃ before, ∀ (call : ClientCall α) (cs : List Char), call.Names stem cs →
      Address.Lasting cs → ∀ script, ∀ r ∈ call.sent config script,
        ∃ written, Address.Rendered Address.targetReserved cs written ∧
          r.address.target.toList = before ++ written := by
  obtain ⟨scheme, hscheme, front, hbase, hfront⟩ := StoreConfig.exists_base hconfig
  obtain ⟨hplain, c, hc, hletter⟩ := exists_stem stem hstem
  have hnone : '#' ∉ front ++ '/' :: stem := by
    have hbefore : '#' ∉ front := fun h => hfragment (hfront _ h)
    simp [hbefore, hplain]
  have hexists : ∃ c ∈ Address.joined (front ++ '/' :: stem), Address.isSlash c = false := by
    refine ⟨c, ?_, hletter⟩
    rw [List.append_cons, Address.joined_append]
    exact List.mem_append_right _ hc
  obtain ⟨before, hbefore⟩ := Address.exists_target hscheme hexists hnone
  refine ⟨before, fun call cs hnames hcs script r hr => hbefore cs hcs r.address ?_⟩
  have hendpoint : String.ofList (scheme ++ (front ++ '/' :: stem ++ '/' :: cs)) =
      config.endpoint call.path := by
    rw [← String.toList_inj, toList_endpoint_of_names hnames, hbase, String.toList_ofList]
    simp only [List.append_assoc, List.cons_append]
  rw [hendpoint]
  exact ownRequests_sent config call script r hr

/-- Calls of one kind that name different filters are sent to different targets. -/
lemma target_ne (hconfig : config.check = .ok ()) (hfragment : '#' ∉ config.baseUrl.toList)
    {call' : ClientCall α} {stem cs cs' : List Char} (hcall : call.Names stem cs)
    (hcall' : call'.Names stem cs') (hcs : Address.Lasting cs) (hcs' : Address.Lasting cs')
    (hne : cs ≠ cs') {script script' : Nat → Reply} {r r' : Request}
    (hr : r ∈ call.sent config script) (hr' : r' ∈ call'.sent config script') :
    r.address.target ≠ r'.address.target := by
  intro heq
  obtain ⟨before, hbefore⟩ := exists_target_of_sent (α := α) hcall.known hconfig hfragment
  obtain ⟨written, hwritten, htarget⟩ := hbefore call cs hcall hcs script r hr
  obtain ⟨written', hwritten', htarget'⟩ := hbefore call' cs' hcall' hcs' script' r' hr'
  rw [← heq, htarget] at htarget'
  rw [← List.append_cancel_left htarget'] at hwritten'
  exact hne (hwritten.eq_of_noEscape hwritten' hcs.noEscape hcs'.noEscape)

/-- Different identifiers that keep their places in an address have targets of their own, to be
fetched from and to be deleted at. -/
theorem own_targets (config : StoreConfig) (hconfig : config.check = .ok ())
    (hfragment : '#' ∉ config.baseUrl.toList) {id id' : FilterId}
    (hid : Address.Lasting id.text.toList) (hid' : Address.Lasting id'.text.toList)
    (hne : id ≠ id') (script script' : Nat → Reply) :
    (∀ r ∈ (ClientCall.get id).sent config script,
      ∀ r' ∈ (ClientCall.get id').sent config script', r.address.target ≠ r'.address.target) ∧
    (∀ r ∈ (ClientCall.delete id).sent config script,
      ∀ r' ∈ (ClientCall.delete id').sent config script',
        r.address.target ≠ r'.address.target) := by
  have hcs : id.text.toList ≠ id'.text.toList := fun h =>
    hne (congrArg FilterId.mk (String.toList_inj.mp h))
  exact ⟨fun r hr r' hr' => target_ne hconfig hfragment (names_get id) (names_get id')
      hid hid' hcs hr hr',
    fun r hr r' hr' => target_ne hconfig hfragment (names_delete id) (names_delete id')
      hid hid' hcs hr hr'⟩

lemma sent_congr (call' call : ClientCall α) (hmethod : call'.method = call.method)
    (hbody : call'.body = call.body) (haddress : Address.parse? (config.endpoint call'.path) =
      Address.parse? (config.endpoint call.path)) (script : Nat → Reply) :
    call'.sent config script = call.sent config script := by
  have hattempt :
      (FilterClient.mk (.scripted script) config).attempt call'.method call'.path call'.body =
        (FilterClient.mk (.scripted script) config).attempt call.method call.path call.body := by
    rw [attempt, attempt, Network.exchange, Network.exchange, haddress, hmethod, hbody]
  rw [sent_eq, sent_eq, request, hattempt, ← request]

lemma parse_blank {call' : ClientCall α} {stem cs : List Char} {c : Char}
    (hc : Address.isEdge c = true) (hcall : call.Names stem cs)
    (hcall' : call'.Names stem (cs ++ [c])) :
    Address.parse? (config.endpoint call'.path) = Address.parse? (config.endpoint call.path) := by
  have hconcat : (config.endpoint call'.path).toList =
      (config.endpoint call.path).toList ++ [c] := by
    rw [toList_endpoint_of_names hcall, toList_endpoint_of_names hcall']
    simp only [List.append_assoc, List.cons_append]
  rw [Address.parse?, Address.parse?, hconcat, Address.clean_concat hc]

/-- No identifier is alone in being sent as it is: with a blank behind it, it is sent alike. -/
theorem sent_of_blank {c : Char} (hc : Address.isEdge c = true) (config : StoreConfig)
    (id : FilterId) (script : Nat → Reply) :
    (ClientCall.get ⟨id.text.push c⟩).sent config script =
      (ClientCall.get id).sent config script ∧
    (ClientCall.delete ⟨id.text.push c⟩).sent config script =
      (ClientCall.delete id).sent config script := by
  have hpush : (id.text.push c).toList = id.text.toList ++ [c] := String.toList_push c
  let longer : FilterId := ⟨id.text.push c⟩
  have hget : (ClientCall.get longer).Names "get-filter".toList (id.text.toList ++ [c]) :=
    hpush ▸ names_get longer
  have hdelete : (ClientCall.delete longer).Names "delete-filter".toList (id.text.toList ++ [c]) :=
    hpush ▸ names_delete longer
  exact ⟨sent_congr (.get longer) (.get id) rfl rfl (parse_blank hc (names_get id) hget) script,
    sent_congr (.delete longer) (.delete id) rfl rfl (parse_blank hc (names_delete id) hdelete)
      script⟩

/-- With a number sign in the base address all calls are sent to one target. -/
theorem one_target_of_fragment (h : '#' ∈ config.baseUrl.toList) {β : Type}
    (call : ClientCall α) (call' : ClientCall β) (script script' : Nat → Reply) :
    ∀ r ∈ call.sent config script, ∀ r' ∈ call'.sent config script',
      r.address.target = r'.address.target := by
  have hbase : '#' ∈ (dropTrailing '/' config.baseUrl).toList := by
    rw [dropTrailing, String.toList_ofList, List.mem_reverse]
    obtain ⟨front, rest, hsplit⟩ := List.append_of_mem (List.mem_reverse.mpr h)
    rw [hsplit, Address.dropWhile_append_cons rfl]
    exact List.mem_append_right _ List.mem_cons_self
  obtain ⟨front, rest, hsplit⟩ := List.append_of_mem hbase
  obtain ⟨sent, hsent⟩ := Address.exists_target_fragment front
  have htarget {γ : Type} (call : ClientCall γ) (script : Nat → Reply) :
      ∀ r ∈ call.sent config script, some r.address.target = sent := by
    intro r hr
    have hendpoint : config.endpoint call.path =
        String.ofList (front ++ '#' :: (rest ++ '/' :: (dropLeading '/' call.path).toList)) := by
      rw [← String.toList_inj, StoreConfig.endpoint, String.toList_append, String.toList_append,
        hsplit]
      simp only [String.toList_ofList, List.append_assoc, List.cons_append]
      rfl
    have hown := ownRequests_sent config call script r hr
    rw [hendpoint] at hown
    rw [← hsent (rest ++ '/' :: (dropLeading '/' call.path).toList), hown, Option.map_some]
  intro r hr r' hr'
  exact Option.some.inj ((htarget call script r hr).trans (htarget call' script' r' hr').symm)

end FilterClient

end AlertFilter
