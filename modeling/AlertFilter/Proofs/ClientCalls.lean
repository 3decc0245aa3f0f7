import AlertFilter.Proofs.LetterCase
import AlertFilter.Proofs.RetryRuns
import AlertFilter.Store.Client

/-!
# Calls to the filter service

A call sends one request again and again, as long as the service is out and the retry policy
allows. The first answer of another kind settles the call, and what came before it does not
matter.
-/

namespace AlertFilter

open Json

/-- The calls of a client, by what they are answered with. -/
inductive ClientCall : Type → Type
  | get (id : FilterId) : ClientCall SavedFilter
  | list : ClientCall (List SavedFilter)
  | save (draft : FilterDraft) : ClientCall FilterId
  | delete (id : FilterId) : ClientCall Unit

namespace ClientCall

variable {α : Type}

def method : ClientCall α → Method
  | get _ | list => .get
  | save _ => .post
  | delete _ => .delete

def path : ClientCall α → String
  | get id => "get-filter/" ++ id.text
  | list => "get-filters"
  | save _ => "save-filter"
  | delete id => "delete-filter/" ++ id.text

def body : ClientCall α → Option String
  | save draft => some draft.toJson.compact
  | _ => none

def request (call : ClientCall α) (address : Address) : Request := ⟨call.method, address, call.body⟩

/-- What the body of a good answer says. -/
def accepted : ClientCall α → String → Except StoreError α
  | get _, body => (decodeText SavedFilter.decode body).mapError .decode
  | list, body => (decodeText (Decoder.list SavedFilter.decode) body).mapError .decode
  | save _, body =>
    match decodeText SaveResponse.decode body with
    | .ok ⟨true, some id, _⟩ => .ok id
    | .ok r => .error (.rejected (r.error.getD "save was not acknowledged"))
    | .error e => .error (.decode e)
  | delete _, _ => .ok ()

/-- What an answer says that is not good, by its status and the reason it gives. -/
def refused : ClientCall α → Nat → String → StoreError
  | get id, status, reason | delete id, status, reason =>
    if status = 404 then .notFound id else .status status reason
  | list, status, reason => .status status reason
  | save draft, status, reason =>
    if status = 400 then
      if takenMark.toList <:+: reason.toList.map Char.toLower then .duplicateLabel draft.label
      else .rejected reason
    else .status status reason

/-- What an answer says. -/
def settled (call : ClientCall α) (status : Nat) (body : String) : Except StoreError α :=
  if 200 ≤ status ∧ status < 300 then call.accepted (stripMark body)
  else .error (call.refused status (errorReason (stripMark body)))

/-- What the client makes of the outcome of its requests. -/
def read : ClientCall α → Except StoreError String → Except StoreError α
  | get id, r => (r.mapError (.forFilter id)).bind (FilterClient.decodeBody SavedFilter.decode)
  | list, r => r.bind (FilterClient.decodeBody (Decoder.list SavedFilter.decode))
  | save draft, r =>
    ((r.mapError (.forDraft draft.label)).bind
      (FilterClient.decodeBody SaveResponse.decode)).bind FilterClient.savedId
  | delete id, r => (r.mapError (.forFilter id)).map fun _ => ()

end ClientCall

namespace Reply

/-- The service is out: it cannot be reached, or says that the fault is its own. -/
def IsOutage : Reply → Prop
  | answer status _ => 500 ≤ status
  | failure _ => True

/-- The reply is none that a client makes up for itself, because it could not build the request or
could not read the answer. -/
def Arrives (reply : Reply) : Prop :=
  ∀ e, reply = .failure e → e ≠ .unsendable ∧ ∀ url, e ≠ .unreadable url

/-- What one try makes of a reply. -/
def result (reply : Reply) : Except StoreError String := reply.body.mapError .ofExchange

end Reply

variable {m : Type → Type} [Monad m]

def FilterClient.perform {α : Type} (c : FilterClient m) : ClientCall α → m (Except StoreError α)
  | .get id => c.get id
  | .list => c.list
  | .save draft => c.save draft
  | .delete id => c.delete id

namespace Reply

lemma mayPass_of_outage {reply : Reply} (harrives : reply.Arrives) (h : reply.IsOutage) :
    RetryPolicy.MayPass StoreError.isTransient reply.result := by
  cases reply with
  | answer status body =>
    have hstatus : 500 ≤ status := h
    have hbad : isSuccess status = false := by
      rw [isSuccess, Bool.and_eq_false_iff]
      exact .inr (decide_eq_false (by omega))
    refine ⟨.status status (errorReason (stripMark body)), ?_, decide_eq_true hstatus⟩
    rw [result, Reply.body, hbad]
    rfl
  | failure e =>
    refine ⟨.transport e, rfl, ?_⟩
    obtain ⟨hbuilt, hread⟩ := harrives e rfl
    cases e with
    | unsendable => exact absurd rfl hbuilt
    | unanswered url => rfl
    | unreadable url => exact absurd rfl (hread url)

lemma not_mayPass_of_answer {status : Nat} (body : String) (h : status < 500) :
    ¬RetryPolicy.MayPass StoreError.isTransient (answer status body).result := by
  rintro ⟨e, hresult, he⟩
  rw [result, Reply.body] at hresult
  split at hresult
  · cases hresult
  · cases hresult
    have hstatus : 500 ≤ status := of_decide_eq_true he
    omega

end Reply

namespace FilterClient

variable {σ α : Type} {c : FilterClient (StateM σ)} {call : ClientCall α} {address : Address}
  {s s₁ s₂ : σ} {k : Nat} {reply : Reply}

lemma read_ok (call : ClientCall α) (body : String) :
    call.read (.ok body) = call.accepted body := by
  cases call with
  | get id => rfl
  | list => rfl
  | save draft =>
    rw [ClientCall.read, ClientCall.accepted]
    change ((decodeText SaveResponse.decode body).mapError StoreError.decode).bind savedId = _
    cases decodeText SaveResponse.decode body with
    | error e => rfl
    | ok r =>
      obtain ⟨success, id, error⟩ := r
      cases success <;> cases id <;> rfl
  | delete id => rfl

lemma plainText_takenMark : Text.PlainText takenMark.toList where
  ne_nil := by decide
  plain := by
    -- Decided over the list: there are too many characters to decide it over all of them.
    have hall : takenMark.toList.all (fun p => decide (Text.Plain p)) = true := by decide
    exact fun p hp => of_decide_eq_true (List.all_eq_true.mp hall p hp)
  last := by decide

lemma forFilter_status (id : FilterId) (status : Nat) (reason : String) :
    StoreError.forFilter id (.status status reason) =
      if status = 404 then .notFound id else .status status reason := by
  unfold StoreError.forFilter
  split
  · next h =>
    cases h
    rfl
  · next h => rw [if_neg fun hstatus => h reason (by rw [hstatus])]

lemma forDraft_status (label : String) (status : Nat) (reason : String) :
    StoreError.forDraft label (.status status reason) =
      if status = 400 then
        if takenMark.toList <:+: reason.toList.map Char.toLower then .duplicateLabel label
        else .rejected reason
      else .status status reason := by
  unfold StoreError.forDraft
  split
  · next h =>
    cases h
    simp only [Text.occursIn_lower_iff plainText_takenMark, if_true]
  · next h => rw [if_neg fun hstatus => h reason (by rw [hstatus])]

lemma read_status (call : ClientCall α) (status : Nat) (reason : String) :
    call.read (.error (.status status reason)) = .error (call.refused status reason) := by
  cases call with
  | get id => exact congrArg Except.error (forFilter_status id status reason)
  | list => rfl
  | save draft => exact congrArg Except.error (forDraft_status draft.label status reason)
  | delete id => exact congrArg Except.error (forFilter_status id status reason)

lemma read_answer (call : ClientCall α) (status : Nat) (body : String) :
    call.read (Reply.answer status body).result = call.settled status body := by
  rw [Reply.result, Reply.body, ClientCall.settled]
  by_cases h : 200 ≤ status ∧ status < 300
  · have hgood : Reply.isSuccess status = true := by
      rw [Reply.isSuccess, decide_eq_true h.1, decide_eq_true h.2, Bool.and_self]
    rw [if_pos hgood, if_pos h]
    exact read_ok call (stripMark body)
  · have hbad : ¬Reply.isSuccess status = true := by
      rwa [Reply.isSuccess, Bool.and_eq_true, decide_eq_true_eq, decide_eq_true_eq]
    rw [if_neg hbad, if_neg h]
    exact read_status call status (errorReason (stripMark body))

/-- The states in which a call sends its requests, each after as many outages. -/
abbrev Outages (c : FilterClient (StateM σ)) (call : ClientCall α) : σ → Nat → σ → Prop :=
  c.config.retry.Retries c.network.sleep (c.attempt call.method call.path call.body)
    StoreError.isTransient

lemma attempt_run (haddress : Address.parse? (c.config.endpoint call.path) = some address)
    (hsend : (c.network.send (call.request address)).run s₁ = (reply, s₂)) :
    (c.attempt call.method call.path call.body).run s₁ = (reply.result, s₂) := by
  have hrequest : (⟨call.method, address, call.body⟩ : Request) = call.request address := rfl
  rw [attempt, Network.exchange, haddress]
  simp only [hrequest, StateT.run_map]
  rw [hsend]
  rfl

lemma outages_next (haddress : Address.parse? (c.config.endpoint call.path) = some address)
    (h : c.Outages call s k s₁)
    (hsend : (c.network.send (call.request address)).run s₁ = (reply, s₂))
    (harrives : reply.Arrives) (hout : reply.IsOutage) :
    c.Outages call s (k + 1) ((c.network.sleep (c.config.retry.backoff k)).run s₂).2 :=
  .next h (attempt_run haddress hsend) (Reply.mayPass_of_outage harrives hout)

lemma conclude_of_not_mayPass {r : Except StoreError String}
    (h : ¬RetryPolicy.MayPass StoreError.isTransient r) :
    (RetryPolicy.conclude StoreError.isTransient r).mapError c.ofRetryError = r := by
  cases r with
  | ok body => rfl
  | error e =>
    have he : e.isTransient = false := by
      simpa [RetryPolicy.MayPass] using h
    rw [RetryPolicy.conclude_of_fatal he]
    rfl

lemma request_run (h : c.Outages call s k s₁) (hk : k < c.config.retry.tries)
    (haddress : Address.parse? (c.config.endpoint call.path) = some address)
    (hsend : (c.network.send (call.request address)).run s₁ = (reply, s₂))
    (hlast : ¬RetryPolicy.MayPass StoreError.isTransient reply.result ∨
      k + 1 = c.config.retry.tries) :
    (c.request call.method call.path call.body).run s =
      ((RetryPolicy.conclude StoreError.isTransient reply.result).mapError c.ofRetryError, s₂) :=
  RetryPolicy.run_bind_of_run
    (RetryPolicy.run_eq_conclude h hk (attempt_run haddress hsend) hlast)

lemma perform_run {r : Except StoreError String}
    (h : (c.request call.method call.path call.body).run s = (r, s₂)) :
    (c.perform call).run s = (call.read r, s₂) := by
  cases call <;> exact RetryPolicy.run_bind_of_run h

/-- The first answer that is no outage settles the call. -/
theorem perform_of_answer (h : c.Outages call s k s₁) (hk : k < c.config.retry.tries)
    (haddress : Address.parse? (c.config.endpoint call.path) = some address)
    {status : Nat} {body : String}
    (hsend : (c.network.send (call.request address)).run s₁ = (.answer status body, s₂))
    (hstatus : status < 500) :
    (c.perform call).run s = (call.settled status body, s₂) := by
  have hlast := Reply.not_mayPass_of_answer body hstatus
  rw [perform_run (request_run h hk haddress hsend (.inl hlast)), conclude_of_not_mayPass hlast,
    read_answer]

/-- A call whose last request meets an outage says so. -/
theorem perform_of_outage (h : c.Outages call s k s₁) (hk : k + 1 = c.config.retry.tries)
    (haddress : Address.parse? (c.config.endpoint call.path) = some address)
    (hsend : (c.network.send (call.request address)).run s₁ = (reply, s₂))
    (harrives : reply.Arrives) (hout : reply.IsOutage) :
    ∃ e, reply.result = .error e ∧
      (c.perform call).run s = (.error (c.ofRetryError (.exceeded e)), s₂) := by
  obtain ⟨e, hresult, he⟩ := Reply.mayPass_of_outage harrives hout
  refine ⟨e, hresult, ?_⟩
  rw [perform_run (request_run h (by omega) haddress hsend (.inr hk)), hresult,
    RetryPolicy.conclude_of_transient he]
  cases call <;> rfl

end FilterClient

/-! ### A network with given replies -/

/-- Answers each request with the next reply, and keeps the requests. -/
def Network.scripted (script : Nat → Reply) : Network (StateM (List Request)) where
  send r := modifyGet fun sent => (script sent.length, sent ++ [r])
  sleep _ := pure ()

namespace FilterClient

variable {α : Type} {config : StoreConfig} {call : ClientCall α} {address : Address}
  {script : Nat → Reply} {k : Nat}

lemma parse_standard_endpoint {path url : String} {address : Address}
    (hurl : dropTrailing '/' "http://localhost:5001" ++ "/" ++ dropLeading '/' path = url)
    (hparse : Address.parse? url = some address) (retry : RetryPolicy) :
    Address.parse? ((StoreConfig.standard.withRetry retry).endpoint path) = some address := by
  rw [← hparse, ← hurl]
  rfl

lemma parse_save_endpoint (retry : RetryPolicy) :
    Address.parse? ((StoreConfig.standard.withRetry retry).endpoint "save-filter") =
      some ⟨false, "localhost", some 5001, "/save-filter".toList, none, none⟩ := by
  have hurl : dropTrailing '/' "http://localhost:5001" ++ "/" ++ dropLeading '/' "save-filter" =
      "http://localhost:5001/save-filter" := by decide +kernel
  exact parse_standard_endpoint hurl rfl retry

end FilterClient

end AlertFilter
