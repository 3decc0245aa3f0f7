import AlertFilter.Proofs.ClientCalls
import AlertFilter.Proofs.StoreRuns

/-!
# Lost replies

A service keeps filters in a store and answers a request as the store does. A reply can be lost,
before the service acts on the request or after it. The client then sends the request again, and
takes the answer to the later request for the answer to its call: a label that the call itself has
stored is reported as taken, and a filter that it has deleted as missing.
-/

namespace AlertFilter

/-- A service with a store of filters. It takes a request for a call, by the number of requests
before it and the filters stored, and puts each answer into words. -/
structure FilterService where
  call : Nat → FilterStore → Request → StoreCall
  body : Except StoreError StoreAnswer → String
  body_taken : ∀ label, takenMark.toList <:+:
    (errorReason (stripMark (body (.error (.duplicateLabel label))))).toList.map Char.toLower

/-- A lost reply: whether the service acted on the request, and what comes in place of its
answer. -/
structure Fault where
  acted : Bool
  reply : Reply
  arrives : reply.Arrives
  isOutage : reply.IsOutage

/-- The filters of a service, and the number of requests that were sent to it. -/
structure Served where
  filters : FilterStore
  requests : Nat

namespace FilterService

/-- The status of an answer. -/
def status : Except StoreError StoreAnswer → Nat
  | .ok _ => 200
  | .error (.notFound _) => 404
  | .error _ => 400

/-- The answer to a request, and the filters behind it. -/
def served (service : FilterService) (r : Request) (x : Served) : Reply × Served :=
  let (answer, filters) := x.filters.called (service.call x.requests x.filters r)
  (.answer (status answer) (service.body answer), ⟨filters, x.requests + 1⟩)

/-- The network between a client and a service, with the faults that befall each request. -/
def network (service : FilterService) (faults : Nat → Option Fault) : Network (StateM Served) where
  send r := modifyGet fun x =>
    match faults x.requests with
    | none => service.served r x
    | some f =>
      (f.reply, if f.acted then (service.served r x).2 else ⟨x.filters, x.requests + 1⟩)
  sleep _ := pure ()

/-- The service takes this request for a save of a draft with this label. -/
def Saves (service : FilterService) (r : Request) (label : String) : Prop :=
  ∀ n s, ∃ fresh draft, service.call n s r = .save fresh draft ∧ draft.label = label

/-- The service takes this request for the deletion of the filter with this identifier. -/
def Deletes (service : FilterService) (r : Request) (id : FilterId) : Prop :=
  ∀ n s, service.call n s r = .delete id

/-- The filters of a service when this many requests of one kind were sent to it. -/
def filtersAt (service : FilterService) (faults : Nat → Option Fault) (r : Request)
    (s : FilterStore) : Nat → FilterStore
  | 0 => s
  | k + 1 =>
    let before := filtersAt service faults r s k
    if (faults k).all (·.acted) then before.after (service.call k before r) else before

end FilterService

/-- The reply to this request is the first that is not lost. -/
def FirstAnswered (faults : Nat → Option Fault) (k : Nat) : Prop :=
  faults k = none ∧ ∀ i < k, (faults i).isSome

/-- The service acted on one of the first requests although its reply was lost. -/
def ActedBefore (faults : Nat → Option Fault) (k : Nat) : Prop :=
  ∃ i < k, ∃ f, faults i = some f ∧ f.acted = true

variable {service : FilterService} {faults : Nat → Option Fault} {r : Request} {s : FilterStore}
  {k : Nat}

lemma exists_firstAnswered (faults : Nat → Option Fault) (n : Nat) :
    (∃ k < n, FirstAnswered faults k) ∨ ∀ i < n, (faults i).isSome := by
  induction n with
  | zero => exact .inr fun i hi => absurd hi i.not_lt_zero
  | succ n ih =>
    rcases ih with ⟨k, hk, hfirst⟩ | hlost
    · exact .inl ⟨k, Nat.lt_succ_of_lt hk, hfirst⟩
    · cases hn : faults n with
      | none => exact .inl ⟨n, n.lt_succ_self, hn, hlost⟩
      | some f =>
        refine .inr fun i hi => ?_
        rcases Nat.lt_succ_iff_lt_or_eq.mp hi with hi | rfl
        · exact hlost i hi
        · rw [hn, Option.isSome_some]

namespace FilterService

lemma filtersAt_succ_of_none (h : faults k = none) :
    service.filtersAt faults r s (k + 1) =
      (service.filtersAt faults r s k).after
        (service.call k (service.filtersAt faults r s k) r) := by
  rw [filtersAt, h]
  rfl

lemma filtersAt_succ_of_some {f : Fault} (h : faults k = some f) :
    service.filtersAt faults r s (k + 1) =
      if f.acted then
        (service.filtersAt faults r s k).after (service.call k (service.filtersAt faults r s k) r)
      else service.filtersAt faults r s k := by
  rw [filtersAt, h]
  rfl

lemma send_of_some {f : Fault} (h : faults k = some f) :
    ((service.network faults).send r).run ⟨service.filtersAt faults r s k, k⟩ =
      (f.reply, ⟨service.filtersAt faults r s (k + 1), k + 1⟩) := by
  rw [filtersAt_succ_of_some h]
  simp only [network, StateT.run_modifyGet, h]
  cases f.acted <;> rfl

/-- What the service answers to a request that reaches it. -/
def answerAt (service : FilterService) (faults : Nat → Option Fault) (r : Request)
    (s : FilterStore) (k : Nat) : Except StoreError StoreAnswer :=
  ((service.filtersAt faults r s k).called
    (service.call k (service.filtersAt faults r s k) r)).1

lemma send_of_none (h : faults k = none) :
    ((service.network faults).send r).run ⟨service.filtersAt faults r s k, k⟩ =
      (.answer (status (service.answerAt faults r s k))
          (service.body (service.answerAt faults r s k)),
        ⟨service.filtersAt faults r s (k + 1), k + 1⟩) := by
  rw [filtersAt_succ_of_none h]
  simp only [network, StateT.run_modifyGet, h]
  rfl

lemma status_lt (answer : Except StoreError StoreAnswer) : status answer < 500 := by
  unfold status
  split <;> decide

/-- What every request brings about holds after some requests if it held before, or if the service
acted on one of them. -/
lemma filtersAt_iff {P : FilterStore → Prop}
    (hacts : ∀ n (t : FilterStore), P (t.after (service.call n t r)))
    (hlost : ∀ i < k, (faults i).isSome) :
    P (service.filtersAt faults r s k) ↔ P s ∨ ActedBefore faults k := by
  induction k with
  | zero => exact ⟨.inl, fun h => h.resolve_right fun ⟨i, hi, _⟩ => i.not_lt_zero hi⟩
  | succ k ih =>
    obtain ⟨f, hf⟩ := Option.isSome_iff_exists.mp (hlost k k.lt_succ_self)
    have hbefore := ih fun i hi => hlost i (Nat.lt_succ_of_lt hi)
    rw [filtersAt_succ_of_some hf]
    by_cases hacted : f.acted = true
    · rw [if_pos hacted]
      exact iff_of_true (hacts k _) (.inr ⟨k, k.lt_succ_self, f, hf, hacted⟩)
    · -- The service never saw this request, so that no new one is among those it acted on.
      rw [if_neg hacted, hbefore]
      refine or_congr_right ⟨?_, ?_⟩
      · rintro ⟨i, hi, hacted⟩
        exact ⟨i, Nat.lt_succ_of_lt hi, hacted⟩
      · rintro ⟨i, hi, g, hg, hgacted⟩
        rcases Nat.lt_succ_iff_lt_or_eq.mp hi with hi | rfl
        · exact ⟨i, hi, g, hg, hgacted⟩
        · rw [hf, Option.some.injEq] at hg
          exact absurd (hg ▸ hgacted) hacted

section Calls

variable {α : Type} {config : StoreConfig} {call : ClientCall α} {address : Address}

lemma outages (haddress : Address.parse? (config.endpoint call.path) = some address)
    (hlost : ∀ i < k, (faults i).isSome) :
    FilterClient.Outages ⟨service.network faults, config⟩ call ⟨s, 0⟩ k
      ⟨service.filtersAt faults (call.request address) s k, k⟩ := by
  induction k with
  | zero => exact .start
  | succ k ih =>
    obtain ⟨f, hf⟩ := Option.isSome_iff_exists.mp (hlost k k.lt_succ_self)
    have hbefore := ih fun i hi => hlost i (Nat.lt_succ_of_lt hi)
    exact FilterClient.outages_next haddress hbefore (send_of_some hf) f.arrives f.isOutage

lemma perform_of_firstAnswered
    (haddress : Address.parse? (config.endpoint call.path) = some address)
    (hk : k < config.retry.tries) (hfirst : FirstAnswered faults k) :
    ((FilterClient.mk (service.network faults) config).perform call).run ⟨s, 0⟩ =
      (call.settled (status (service.answerAt faults (call.request address) s k))
          (service.body (service.answerAt faults (call.request address) s k)),
        ⟨service.filtersAt faults (call.request address) s (k + 1), k + 1⟩) :=
  FilterClient.perform_of_answer (outages haddress hfirst.2) hk haddress (send_of_none hfirst.1)
    (status_lt _)

lemma perform_of_lost (haddress : Address.parse? (config.endpoint call.path) = some address)
    (hlost : ∀ i < config.retry.tries, (faults i).isSome) :
    ∃ reason, (((FilterClient.mk (service.network faults) config).perform call).run ⟨s, 0⟩).1 =
      .error (.retriesExhausted reason) := by
  have hlast : config.retry.maxAttempts - 1 + 1 = config.retry.tries := config.retry.tries_eq.symm
  obtain ⟨f, hf⟩ := Option.isSome_iff_exists.mp (hlost (config.retry.maxAttempts - 1) (by omega))
  obtain ⟨e, -, hrun⟩ := FilterClient.perform_of_outage
    (outages haddress fun i hi => hlost i (by omega)) hlast haddress (send_of_some hf)
    f.arrives f.isOutage
  rw [hrun]
  exact ⟨_, rfl⟩

/-- An error other than exhausted tries comes from the first answer that is not lost. -/
lemma exists_of_error {e : StoreError} {x : Served} (he : ∀ reason, e ≠ .retriesExhausted reason)
    (haddress : Address.parse? (config.endpoint call.path) = some address)
    (hrun : ((FilterClient.mk (service.network faults) config).perform call).run ⟨s, 0⟩ =
      (.error e, x)) :
    ∃ k < config.retry.tries, FirstAnswered faults k ∧
      call.settled (status (service.answerAt faults (call.request address) s k))
        (service.body (service.answerAt faults (call.request address) s k)) = .error e ∧
      x.filters = service.filtersAt faults (call.request address) s (k + 1) := by
  rcases exists_firstAnswered faults config.retry.tries with ⟨k, hk, hfirst⟩ | hlost
  · rw [perform_of_firstAnswered haddress hk hfirst, Prod.mk.injEq] at hrun
    obtain ⟨hsettled, rfl⟩ := hrun
    exact ⟨k, hk, hfirst, hsettled, rfl⟩
  · obtain ⟨reason, hreason⟩ := perform_of_lost haddress hlost
    rw [hrun, Except.error.injEq] at hreason
    exact absurd hreason (he reason)

/-- An error that says what every request brings about is right about the filters that are left
behind, and about those found before unless the service acted on a request whose reply was lost. -/
lemma perform_eq_error_iff (call : ClientCall α) {P : FilterStore → Prop} {Q : Prop}
    {e : StoreError} (he : ∀ reason, e ≠ .retriesExhausted reason)
    (haddress : Address.parse? (config.endpoint call.path) = some address)
    (hacts : ∀ n (t : FilterStore), P (t.after (service.call n t (call.request address))))
    (hsettled : ∀ k, call.settled (status (service.answerAt faults (call.request address) s k))
        (service.body (service.answerAt faults (call.request address) s k)) = .error e ↔
      Q ∧ P (service.filtersAt faults (call.request address) s k)) :
    ((((FilterClient.mk (service.network faults) config).perform call).run ⟨s, 0⟩).1 = .error e ↔
      Q ∧ ∃ k < config.retry.tries, FirstAnswered faults k ∧ (P s ∨ ActedBefore faults k)) ∧
    ∀ x, ((FilterClient.mk (service.network faults) config).perform call).run ⟨s, 0⟩ =
      (.error e, x) → P x.filters := by
  refine ⟨⟨fun hrun => ?_, ?_⟩, fun x hrun => ?_⟩
  · obtain ⟨k, hk, hfirst, herror, -⟩ := exists_of_error he haddress (Prod.ext hrun rfl)
    obtain ⟨hQ, hP⟩ := (hsettled k).mp herror
    exact ⟨hQ, k, hk, hfirst, (filtersAt_iff hacts hfirst.2).mp hP⟩
  · rintro ⟨hQ, k, hk, hfirst, hP⟩
    rw [perform_of_firstAnswered haddress hk hfirst]
    exact (hsettled k).mpr ⟨hQ, (filtersAt_iff hacts hfirst.2).mpr hP⟩
  · obtain ⟨k, -, hfirst, -, hx⟩ := exists_of_error he haddress hrun
    rw [hx, filtersAt_succ_of_none hfirst.1]
    exact hacts k _

end Calls

lemma hasLabel_after {label : String} (hsaves : service.Saves r label) (n : Nat)
    (t : FilterStore) : (t.after (service.call n t r)).HasLabel label := by
  obtain ⟨fresh, d, hcall, hlabel⟩ := hsaves n t
  rw [hcall, ← hlabel]
  exact t.hasLabel_after_save fresh d

lemma get?_after {id : FilterId} (hdeletes : service.Deletes r id) (n : Nat) (t : FilterStore) :
    (t.after (service.call n t r)).get? id = none := by
  rw [hdeletes]
  exact t.get?_after_delete id

section Changes

variable {config : StoreConfig} {draft : FilterDraft} {id : FilterId} {address : Address}

lemma settled_save_taken (draft : FilterDraft) {body : String}
    (h : takenMark.toList <:+: (errorReason (stripMark body)).toList.map Char.toLower) :
    (ClientCall.save draft).settled 400 body = .error (.duplicateLabel draft.label) := by
  rw [ClientCall.settled, if_neg (by decide), ClientCall.refused, if_pos rfl, if_pos h]

lemma settled_save_accepted (draft : FilterDraft) (body label : String) :
    (ClientCall.save draft).settled 200 body ≠ .error (.duplicateLabel label) := by
  rw [ClientCall.settled, if_pos (by decide), ClientCall.accepted]
  split <;> simp

lemma settled_save_iff (hsaves : service.Saves r draft.label) {label : String} :
    (ClientCall.save draft).settled (status (service.answerAt faults r s k))
        (service.body (service.answerAt faults r s k)) = .error (.duplicateLabel label) ↔
      label = draft.label ∧ (service.filtersAt faults r s k).HasLabel draft.label := by
  obtain ⟨fresh, d, hcall, hlabel⟩ := hsaves k (service.filtersAt faults r s k)
  rw [answerAt, hcall, ← hlabel]
  by_cases htaken : (service.filtersAt faults r s k).HasLabel d.label
  · have hstatus : status (.error (.duplicateLabel d.label)) = 400 := rfl
    rw [FilterStore.called_save_of_hasLabel htaken, hstatus,
      settled_save_taken draft (service.body_taken d.label), hlabel, Except.error.injEq,
      StoreError.duplicateLabel.injEq, and_iff_left (hlabel ▸ htaken), eq_comm]
  · rw [FilterStore.called_save htaken, status]
    exact iff_of_false (settled_save_accepted draft _ label) fun h => htaken h.2

lemma settled_delete_iff (hdeletes : service.Deletes r id) {a : FilterId} :
    (ClientCall.delete id).settled (status (service.answerAt faults r s k))
        (service.body (service.answerAt faults r s k)) = .error (.notFound a) ↔
      a = id ∧ (service.filtersAt faults r s k).get? id = none := by
  rw [answerAt, hdeletes]
  cases hget : (service.filtersAt faults r s k).get? id with
  | none =>
    rw [FilterStore.called_delete_of_none hget, status, ClientCall.settled,
      if_neg (by decide), ClientCall.refused, if_pos rfl, Except.error.injEq,
      StoreError.notFound.injEq, and_iff_left rfl, eq_comm]
  | some f =>
    rw [FilterStore.called_delete hget, status, ClientCall.settled, if_pos (by decide)]
    simp [ClientCall.accepted]

/-- What a save says that finds its label taken. -/
lemma save_duplicateLabel_iff
    (haddress : Address.parse? (config.endpoint "save-filter") = some address)
    (hsaves : service.Saves ((ClientCall.save draft).request address) draft.label)
    (label : String) :
    ((((FilterClient.mk (service.network faults) config).save draft).run ⟨s, 0⟩).1 =
        .error (.duplicateLabel label) ↔
      label = draft.label ∧ ∃ k < config.retry.tries, FirstAnswered faults k ∧
        (s.HasLabel draft.label ∨ ActedBefore faults k)) ∧
    ∀ x, ((FilterClient.mk (service.network faults) config).save draft).run ⟨s, 0⟩ =
      (.error (.duplicateLabel label), x) → x.filters.HasLabel draft.label :=
  perform_eq_error_iff (.save draft) (P := (·.HasLabel draft.label)) (by simp) haddress
    (hasLabel_after hsaves) fun _ => settled_save_iff hsaves

/-- What a deletion says that does not find its filter. -/
lemma delete_notFound_iff
    (haddress : Address.parse? (config.endpoint ("delete-filter/" ++ id.text)) = some address)
    (hdeletes : service.Deletes ((ClientCall.delete id).request address) id) (a : FilterId) :
    ((((FilterClient.mk (service.network faults) config).delete id).run ⟨s, 0⟩).1 =
        .error (.notFound a) ↔
      a = id ∧ ∃ k < config.retry.tries, FirstAnswered faults k ∧
        (s.get? id = none ∨ ActedBefore faults k)) ∧
    ∀ x, ((FilterClient.mk (service.network faults) config).delete id).run ⟨s, 0⟩ =
      (.error (.notFound a), x) → x.filters.get? id = none :=
  perform_eq_error_iff (.delete id) (P := (·.get? id = none)) (by simp) haddress
    (get?_after hdeletes) fun _ => settled_delete_iff hdeletes

end Changes

/-! ### A service that knows one draft -/

/-- A service that takes the body of one draft for a save of it, and reads the identifier of a
deletion from its address. -/
def knowing (draft : FilterDraft) : FilterService where
  call n _ r :=
    match r.method with
    | .get => .list
    | .post => if r.body = some draft.toJson.compact then .save ⟨toString n⟩ draft else .list
    | .delete => .delete ⟨String.ofList (r.address.path.drop "/delete-filter/".length)⟩
  body
    | .ok (.saved id) => (Json.object [("success", .bool true), ("id", .text id.text)]).compact
    | .ok _ => (Json.object [("success", .bool true)]).compact
    | .error (.duplicateLabel _) =>
      (Json.object [("error", .text "Filter name already exists")]).compact
    | .error e => (Json.object [("error", .text e.message)]).compact
  body_taken := by
    intro label
    have hreason : errorReason (stripMark
        (Json.object [("error", .text "Filter name already exists")]).compact) =
          "Filter name already exists" := by cbv
    rw [hreason]
    decide

/-- A fault of the server in place of an answer. -/
def unavailable (acted : Bool) : Fault where
  acted
  reply := .answer 503 "Service Unavailable"
  arrives := by
    rintro e ⟨⟩
  isOutage := Nat.le_add_right 500 3

lemma firstAnswered_one (f : Fault) :
    FirstAnswered (fun n => if n = 0 then some f else none) 1 := by
  refine ⟨rfl, fun i hi => ?_⟩
  obtain rfl : i = 0 := by omega
  rfl

lemma saves_knowing (draft : FilterDraft) (address : Address) :
    (knowing draft).Saves ((ClientCall.save draft).request address) draft.label := by
  intro n s
  refine ⟨⟨toString n⟩, draft, ?_, rfl⟩
  simp only [knowing, ClientCall.request, ClientCall.method, ClientCall.body, if_true]

lemma deletes_knowing (draft : FilterDraft) {id : FilterId} {address : Address}
    (h : address.path = "/delete-filter/".toList ++ id.text.toList) :
    (knowing draft).Deletes ((ClientCall.delete id).request address) id := by
  intro n s
  have hid : String.ofList (address.path.drop "/delete-filter/".length) = id.text := by
    rw [h, ← String.length_toList, List.drop_left, String.ofList_toList]
  simp only [knowing, ClientCall.request, ClientCall.method, hid]

lemma parse_delete_endpoint (retry : RetryPolicy) :
    Address.parse? ((StoreConfig.standard.withRetry retry).endpoint ("delete-filter/" ++ "a")) =
      some ⟨false, "localhost", some 5001, "/delete-filter/a".toList, none, none⟩ := by
  have hurl : dropTrailing '/' "http://localhost:5001" ++ "/" ++
      dropLeading '/' ("delete-filter/" ++ "a") = "http://localhost:5001/delete-filter/a" := by
    decide +kernel
  exact FilterClient.parse_standard_endpoint hurl rfl retry

/-- Errors of a client whose replies get lost. A save that finds its label taken, and a deletion
that does not find its filter, are right about the filters that the call leaves behind. About those
that it found they are right as well, unless the service acted on an earlier request of the call
whose reply was lost; just then they speak of what the call itself has done. -/
theorem errors_under_lost_replies (service : FilterService) (faults : Nat → Option Fault)
    (config : StoreConfig) (s : FilterStore) (draft : FilterDraft) (id : FilterId)
    (saveAddress deleteAddress : Address)
    (hsave : Address.parse? (config.endpoint "save-filter") = some saveAddress)
    (hdelete : Address.parse? (config.endpoint ("delete-filter/" ++ id.text)) = some deleteAddress)
    (hsaves : service.Saves ((ClientCall.save draft).request saveAddress) draft.label)
    (hdeletes : service.Deletes ((ClientCall.delete id).request deleteAddress) id) :
    let client : FilterClient (StateM Served) := ⟨service.network faults, config⟩
    (∀ label, (((client.save draft).run ⟨s, 0⟩).1 = .error (.duplicateLabel label) ↔
        label = draft.label ∧ ∃ k < config.retry.tries, FirstAnswered faults k ∧
          (s.HasLabel draft.label ∨ ActedBefore faults k)) ∧
      ∀ x, (client.save draft).run ⟨s, 0⟩ = (.error (.duplicateLabel label), x) →
        x.filters.HasLabel draft.label) ∧
    ∀ a, (((client.delete id).run ⟨s, 0⟩).1 = .error (.notFound a) ↔
        a = id ∧ ∃ k < config.retry.tries, FirstAnswered faults k ∧
          (s.get? id = none ∨ ActedBefore faults k)) ∧
      ∀ x, (client.delete id).run ⟨s, 0⟩ = (.error (.notFound a), x) →
        x.filters.get? id = none :=
  ⟨save_duplicateLabel_iff hsave hsaves, delete_notFound_iff hdelete hdeletes⟩

/-- A save and a deletion that are refused for what was there before, after a reply that was lost
before the service acted. -/
theorem errors_under_lost_replies_refused :
    let draft : FilterDraft := ⟨"bright", "", [], [], true⟩
    let faults : Nat → Option Fault := fun n => if n = 0 then some (unavailable false) else none
    let client : FilterClient (StateM Served) :=
      ⟨(knowing draft).network faults, StoreConfig.standard.withRetry (.new 2 .zero .zero)⟩
    let s := FilterStore.ofList [draft.saved ⟨"b"⟩]
    ((client.save draft).run ⟨s, 0⟩).1 = .error (.duplicateLabel "bright") ∧
      ((client.delete ⟨"a"⟩).run ⟨s, 0⟩).1 = .error (.notFound ⟨"a"⟩) := by
  intro draft faults client s
  have hfirst : FirstAnswered faults 1 := firstAnswered_one _
  obtain ⟨hsave, hdelete⟩ := errors_under_lost_replies (knowing draft) faults
    (StoreConfig.standard.withRetry (.new 2 .zero .zero)) s draft ⟨"a"⟩ _ _
    (FilterClient.parse_save_endpoint _) (parse_delete_endpoint _) (saves_knowing draft _)
    (deletes_knowing draft rfl)
  have hlabel : s.HasLabel "bright" := ⟨draft.saved ⟨"b"⟩, by decide, rfl⟩
  have hmissing : s.get? ⟨"a"⟩ = none := rfl
  exact ⟨(hsave "bright").1.mpr ⟨rfl, 1, by decide, hfirst, .inl hlabel⟩,
    (hdelete ⟨"a"⟩).1.mpr ⟨rfl, 1, by decide, hfirst, .inl hmissing⟩⟩

/-- The reply to the first request is lost after the service has acted on it: a save reports a label
as taken that was free, and a deletion a filter as missing that was there. -/
theorem lost_reply_misleads :
    let draft : FilterDraft := ⟨"bright", "", [], [], true⟩
    let faults : Nat → Option Fault := fun n => if n = 0 then some (unavailable true) else none
    let client : FilterClient (StateM Served) :=
      ⟨(knowing draft).network faults, StoreConfig.standard.withRetry (.new 2 .zero .zero)⟩
    let s := FilterStore.ofList [draft.saved ⟨"a"⟩]
    (¬FilterStore.empty.HasLabel "bright" ∧
      ((client.save draft).run ⟨.empty, 0⟩).1 = .error (.duplicateLabel "bright")) ∧
    (s.get ⟨"a"⟩ = .ok (draft.saved ⟨"a"⟩) ∧
      ((client.delete ⟨"a"⟩).run ⟨s, 0⟩).1 = .error (.notFound ⟨"a"⟩)) := by
  intro draft faults client s
  have hfirst : FirstAnswered faults 1 := firstAnswered_one _
  have hacted : ActedBefore faults 1 := ⟨0, Nat.one_pos, unavailable true, rfl, rfl⟩
  have hsave : ((client.save draft).run ⟨.empty, 0⟩).1 = .error (.duplicateLabel "bright") :=
    (save_duplicateLabel_iff (FilterClient.parse_save_endpoint _) (saves_knowing draft _)
      "bright").1.mpr ⟨rfl, 1, by decide, hfirst, .inr hacted⟩
  have hdelete : ((client.delete ⟨"a"⟩).run ⟨s, 0⟩).1 = .error (.notFound ⟨"a"⟩) :=
    (delete_notFound_iff (parse_delete_endpoint _) (deletes_knowing draft rfl)
      ⟨"a"⟩).1.mpr ⟨rfl, 1, by decide, hfirst, .inr hacted⟩
  have hfree : ¬FilterStore.empty.HasLabel "bright" := by
    rintro ⟨f, hf, -⟩
    exact List.not_mem_nil hf
  exact ⟨⟨hfree, hsave⟩, rfl, hdelete⟩

end FilterService

end AlertFilter
