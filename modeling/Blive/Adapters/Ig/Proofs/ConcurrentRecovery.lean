import Blive.Adapters.Ig.Proofs.SessionRecovery

/-!
# Recovery under concurrency

Any number of requests share the tokens of one client. The server expires one session and
accepts whatever is done to leave it: every refresh and every re-authentication is answered
with the tokens of a session that does not expire. Then no request is left without its answer:
the first refresh that comes back replaces the expired tokens for all, a request that was
answered session-expired has its own refresh before it sends again, and none of them ever gets
to the re-authentication, where the client would hold no tokens.
-/

namespace Blive.IGClient

open Transition

/-- A refresh or a re-authentication is accepted: the answer carries the tokens of another
session than the expired one. -/
def Accepted (expired : SessionTokens) (result : Except IGError SessionTokens) : Prop :=
  match result with
  | .ok tokens => tokens ≠ expired
  | .error _ => False

/-- What the server may answer a request that was sent under `headers`: that the session has
expired only under the tokens of the expired one, and there it may still answer the request. -/
def MayReject (expired headers : SessionTokens) (result : Except IGError Json) : Prop :=
  match result with
  | .ok _ => True
  | .error e => e.kind ≠ .auth ∧ (e.kind = .sessionExpired → headers = expired)

/-- What the server may answer a request that stands at `stage`. -/
def MayAnswer (expired : SessionTokens) (response : IGResponse) : RequestStage → Prop
  | .sending headers => MayReject expired headers (handleResponse response true)
  | .refreshing _ => Accepted expired (refreshedTokens response)
  | .connecting => Accepted expired (connectedTokens response)
  | _ => True

/-- The server answers every request, and keeps every session but the expired one. -/
def Honoured (expired : SessionTokens) (client : IGClient) : Action → Prop
  | .responded task (.ok response) =>
      ∀ r ∈ client.requests.get? task, MayAnswer expired response r.stage
  | .responded _ (.error _) => False
  | .request _ _ | .acquired _ => True

/-- The request returned what the server answered it, and that was no failure of the session. -/
def Served (r : IGRequest) (outcome : Except RequestError Json) : Prop :=
  (∃ headers response, r.exchanges.getLast? = some (.send headers (.ok response)) ∧
    outcome = sendResult (.ok response)) ∧
  ∀ e, outcome = .error (.ig e) → e.kind ≠ .auth ∧ e.kind ≠ .sessionExpired

/-- Where a request can stand: after its own refresh only the tokens of a session that does not
expire are left to it. -/
def Safe (expired held : SessionTokens) (r : IGRequest) : Prop :=
  match r.stage with
  | .acquiring => r.refreshAttempted = true → held ≠ expired
  | .sending headers => r.refreshAttempted = true → headers ≠ expired
  | .refreshAcquiring | .refreshing _ => True
  | .connectAcquiring | .connecting => False
  | .returned outcome => Served r outcome

/-- The client holds tokens, and every request is where it can be served. -/
structure Serving (expired : SessionTokens) (past : List Action) (client : IGClient) : Prop where
  held : ∃ tokens, client.authHeaders = .ok tokens ∧ ∀ task r,
    client.requests.get? task = some r →
      Safe expired tokens r ∧ r.reauthAttempted = false ∧ r.FlagsSet ∧
        past.countP (·.task = task) + r.stagesLeft ≤ 11
  started : ∀ task, task ∉ client.requests → past.countP (·.task = task) = 0

theorem authHeaders_setTokens (client : IGClient) (tokens : SessionTokens) :
    (client.setTokens tokens).authHeaders = .ok tokens := rfl

theorem isConnected_of_authHeaders {client : IGClient} {tokens : SessionTokens}
    (h : client.authHeaders = .ok tokens) : client.isConnected = true := by
  unfold authHeaders at h
  split at h
  · rename_i hcst hsecurity
    simp [isConnected, hcst, hsecurity]
  · cases h

theorem exists_authHeaders {client : IGClient} (h : client.isConnected = true) :
    ∃ tokens, client.authHeaders = .ok tokens := by
  simp only [isConnected, Bool.and_eq_true, Option.isSome_iff_exists] at h
  obtain ⟨⟨cst, hcst⟩, securityToken, hsecurity⟩ := h
  exact ⟨⟨cst, securityToken⟩, by simp [authHeaders, hcst, hsecurity]⟩

/-- Fresher tokens leave a request where it can be served. -/
theorem Safe.mono {expired held held' : SessionTokens} {r : IGRequest} (h : Safe expired held r)
    (hheld : held' = held ∨ held' ≠ expired) : Safe expired held' r := by
  rcases hheld with rfl | hfresh
  · exact h
  · cases hstage : r.stage with
    | acquiring =>
      simp only [Safe, hstage]
      exact fun _ => hfresh
    | refreshAcquiring | refreshing => simp only [Safe, hstage]
    | connectAcquiring | connecting => simp only [Safe, hstage] at h
    | sending | returned =>
      simp only [Safe, hstage] at h ⊢
      exact h

/-- What an honoured answer to a send can be. -/
theorem sendResult_of_mayAnswer {expired headers : SessionTokens} {response : IGResponse}
    (h : MayAnswer expired response (.sending headers)) :
    (isExpired (sendResult (.ok response)) = true → headers = expired) ∧
      ∀ e, sendResult (.ok response) = .error (.ig e) → e.kind ≠ .auth := by
  cases hhandle : handleResponse response true with
  | ok payload => simp [sendResult, Answer.handle, hhandle, isExpired]
  | error e =>
    have hresult : sendResult (.ok response) = .error (.ig e) := by
      simp [sendResult, Answer.handle, hhandle]
    simp only [MayAnswer, MayReject, hhandle] at h
    rw [hresult]
    refine ⟨?_, ?_⟩
    · intro hkind
      exact h.2 (by simpa [isExpired, RequestError.isExpired] using hkind)
    · intro e' heq
      cases heq
      exact h.1

/-- An honoured answer to a refresh brings the tokens of a session that does not expire. -/
theorem refreshResult_of_mayAnswer {expired headers : SessionTokens} {response : IGResponse}
    (h : MayAnswer expired response (.refreshing headers)) :
    ∃ tokens, refreshResult (.ok response) = .ok tokens ∧ tokens ≠ expired := by
  cases hread : refreshedTokens response with
  | ok tokens =>
    simp only [MayAnswer, Accepted, hread] at h
    exact ⟨tokens, handle_eq_ok_iff.mpr ⟨response, rfl, hread⟩, h⟩
  | error e => simp only [MayAnswer, Accepted, hread] at h

/-- The answer, when the action is one, is what the server may say at this stage. -/
def AnsweredAt (expired : SessionTokens) (stage : RequestStage) (a : Action) : Prop :=
  ∀ task answer, a = .responded task answer →
    ∃ response, answer = .ok response ∧ MayAnswer expired response stage

/-- An honoured action leads a request that can be served to where it can be served, and the
client's tokens to fresher ones. -/
theorem Safe.moves {expired held : SessionTokens} {client tokens : IGClient} {a : Action}
    {r r' : IGRequest} (h : Safe expired held r) (hflag : r.reauthAttempted = false)
    (hheld : client.authHeaders = .ok held) (hanswer : AnsweredAt expired r.stage a)
    (hmoves : Moves client r a tokens r') :
    ∃ held', tokens.authHeaders = .ok held' ∧ (held' = held ∨ held' ≠ expired) ∧
      Safe expired held' r' ∧ r'.reauthAttempted = false := by
  cases hmoves with
  | sent hstage hheaders =>
    cases hheld.symm.trans hheaders
    simp only [Safe, hstage] at h
    exact ⟨held, hheld, .inl rfl, h, hflag⟩
  | refreshSent hstage hheaders => exact ⟨held, hheld, .inl rfl, trivial, hflag⟩
  | connectSent hstage => simp only [Safe, hstage] at h
  | notConnected hstage hnone => cases hheld.symm.trans hnone
  | @answered task headers answer hstage hresult =>
    obtain ⟨response, rfl, hmay⟩ := hanswer _ _ rfl
    rw [hstage] at hmay
    refine ⟨held, hheld, .inl rfl, ⟨?_, ?_⟩, hflag⟩
    · exact ⟨headers, response, List.getLast?_concat, rfl⟩
    · intro e heq
      refine ⟨(sendResult_of_mayAnswer hmay).2 e heq, ?_⟩
      rw [heq] at hresult
      simpa [isExpired, RequestError.isExpired] using hresult
  | refresh hstage hresult hnotRefreshed => exact ⟨held, hheld, .inl rfl, trivial, hflag⟩
  | reauthenticate hleads =>
    obtain ⟨response, rfl, hmay⟩ := hanswer _ _ rfl
    rcases hleads with ⟨headers, hstage, -, hexpired, hrefreshed⟩ | ⟨headers, hstage, -, hexpired⟩
    · -- After its own refresh the request was sent under tokens that do not expire.
      rw [hstage] at hmay
      simp only [Safe, hstage] at h
      exact absurd ((sendResult_of_mayAnswer hmay).1 hexpired) (h hrefreshed)
    · rw [hstage] at hmay
      obtain ⟨tokens, hresult, -⟩ := refreshResult_of_mayAnswer hmay
      rw [hresult] at hexpired
      cases hexpired
  | gaveUp hleads hreauth => cases hflag.symm.trans hreauth
  | refreshed hstage hresult =>
    obtain ⟨response, rfl, hmay⟩ := hanswer _ _ rfl
    rw [hstage] at hmay
    obtain ⟨tokens, hfresh, hne⟩ := refreshResult_of_mayAnswer hmay
    cases hresult.symm.trans hfresh
    exact ⟨_, authHeaders_setTokens client _, .inr hne, fun _ => hne, hflag⟩
  | refreshFailed hstage hresult =>
    obtain ⟨response, rfl, hmay⟩ := hanswer _ _ rfl
    rw [hstage] at hmay
    obtain ⟨tokens, hfresh, -⟩ := refreshResult_of_mayAnswer hmay
    cases hresult.symm.trans hfresh
  | connected hstage => simp only [Safe, hstage] at h
  | connectFailed hstage => simp only [Safe, hstage] at h

theorem Serving.step {expired : SessionTokens} {past : List Action} {client after : IGClient}
    {a : Action} (h : Serving expired past client) (hhonoured : Honoured expired client a)
    (hstep : step client a = some after) : Serving expired (past ++ [a]) after := by
  obtain ⟨held, hheld, hrequests⟩ := h.held
  rcases step_cases hstep with ⟨task, call, rfl, hfresh, rfl⟩ | ⟨r, tokens, r', hr, hmoves, rfl⟩
  · have hrequest : client.request task call = client.setRequest task { call } :=
      if_pos (isConnected_of_authHeaders hheld)
    rw [hrequest]
    refine ⟨⟨held, hheld, ?_⟩, ?_⟩
    · intro t q hq
      simp only [setRequest, Dict.get?_set] at hq
      by_cases htask : t = task
      · rw [if_pos htask] at hq
        cases hq
        subst htask
        refine ⟨by simp [Safe], rfl, by simp [IGRequest.FlagsSet], ?_⟩
        rw [List.countP_append, h.started t hfresh]
        simp [Action.task, IGRequest.stagesLeft, IGRequest.recoveriesLeft]
      · rw [if_neg htask] at hq
        obtain ⟨hsafe, hflag, hflags, hcount⟩ := hrequests t q hq
        refine ⟨hsafe, hflag, hflags, ?_⟩
        simpa [List.countP_append, Action.task, Ne.symm htask] using hcount
    · intro t ht
      simp only [setRequest, Dict.mem_set, not_or] at ht
      simpa [List.countP_append, Action.task, Ne.symm ht.1] using h.started t ht.2
  · obtain ⟨hsafe, hflag, hflags, hcount⟩ := hrequests a.task r hr
    have hanswer : AnsweredAt expired r.stage a := by
      rintro task answer rfl
      cases answer with
      | error name => exact hhonoured.elim
      | ok response => exact ⟨response, rfl, hhonoured r hr⟩
    obtain ⟨held', hheld', hfresher, hsafe', hflag'⟩ := hsafe.moves hflag hheld hanswer hmoves
    refine ⟨⟨held', hheld', ?_⟩, ?_⟩
    · intro t q hq
      simp only [setRequest, Dict.get?_set, hmoves.requests_eq] at hq
      by_cases htask : t = a.task
      · rw [if_pos htask] at hq
        cases hq
        subst htask
        refine ⟨hsafe', hflag', hflags.moves hmoves, ?_⟩
        have hless := IGRequest.stagesLeft_moves hflags hmoves
        simp only [List.countP_append, List.countP_singleton, decide_true, if_true]
        omega
      · rw [if_neg htask] at hq
        obtain ⟨hsafeq, hflagq, hflagsq, hcountq⟩ := hrequests t q hq
        refine ⟨hsafeq.mono hfresher, hflagq, hflagsq, ?_⟩
        simpa [List.countP_append, Ne.symm htask] using hcountq
    · intro t ht
      simp only [setRequest, Dict.mem_set, not_or, hmoves.requests_eq] at ht
      simpa [List.countP_append, Ne.symm ht.1] using h.started t ht.2

/-- Whatever the interleaving, a request that has returned did so with the answer of the server
and no failure of the session; one that has not can go on, and it has taken at most six of the
seven stages after which a request has returned. -/
theorem every_request_served {expired : SessionTokens} {client after : IGClient}
    {as : List Action} (hconnected : client.isConnected = true)
    (hnew : client.requests = Dict.empty)
    (hhonoured : Along IGClient.step (Honoured expired) client as)
    (hrun : run IGClient.step client as = some after) :
    ∀ task r, after.requests.get? task = some r →
      (∀ outcome, r.stage = .returned outcome → Served r outcome) ∧
      (r.returned = false → after.CanGoOn task ∧ as.countP (·.task = task) < 7) := by
  obtain ⟨held, hheld⟩ := exists_authHeaders hconnected
  have hstart : Serving expired [] client := by
    refine ⟨⟨held, hheld, ?_⟩, fun _ _ => rfl⟩
    intro task r hr
    rw [hnew] at hr
    cases hr
  have hserving : Serving expired as after :=
    run_invariant_history_along (fun _ _ _ _ h hC hs => h.step hC hs) hstart hhonoured hrun
  obtain ⟨held', -, hrequests⟩ := hserving.held
  intro task r hr
  obtain ⟨hsafe, hflag, hflags, hcount⟩ := hrequests task r hr
  refine ⟨?_, ?_⟩
  · intro outcome hstage
    simpa only [Safe, hstage] using hsafe
  · intro hreturned
    refine ⟨canGoOn hr hreturned, ?_⟩
    -- The re-authentication that was never tried is four stages that are still to come.
    have hleft : 5 ≤ r.stagesLeft := by
      cases hstage : r.stage with
      | returned outcome => simp [IGRequest.returned, hstage] at hreturned
      | _ =>
        simp only [IGRequest.stagesLeft, IGRequest.recoveriesLeft, hstage, hflag, Bool.not_false,
          Bool.toNat_true]
        omega
    omega

/-! ## Two requests that meet the expiry together -/

instance (expired : SessionTokens) (result : Except IGError SessionTokens) :
    Decidable (Accepted expired result) :=
  match result with
  | .ok tokens => inferInstanceAs (Decidable (tokens ≠ expired))
  | .error _ => isFalse id

instance (expired headers : SessionTokens) (result : Except IGError Json) :
    Decidable (MayReject expired headers result) :=
  match result with
  | .ok _ => isTrue trivial
  | .error _ => inferInstanceAs (Decidable (_ ∧ (_ → _)))

instance (expired : SessionTokens) (response : IGResponse) :
    (stage : RequestStage) → Decidable (MayAnswer expired response stage)
  | .sending headers => inferInstanceAs (Decidable (MayReject expired headers _))
  | .refreshing _ => inferInstanceAs (Decidable (Accepted expired _))
  | .connecting => inferInstanceAs (Decidable (Accepted expired _))
  | .acquiring | .refreshAcquiring | .connectAcquiring | .returned _ => isTrue trivial

instance (expired : SessionTokens) (client : IGClient) :
    (a : Action) → Decidable (Honoured expired client a)
  | .responded task (.ok _) => inferInstanceAs (Decidable (∀ r ∈ client.requests.get? task, _))
  | .responded _ (.error _) => isFalse id
  | .request _ _ | .acquired _ => isTrue trivial

/-- The answer to a refresh. -/
def refreshedResponse (cst : String) : IGResponse := ⟨200, .empty, some cst, some "token-2"⟩

/-- Both requests are answered session-expired before either refreshes; the second refresh comes
back while the first request is sent again. -/
def twoRequests : List Action :=
  [.request 0 ⟨.get, "/accounts", 1, "general"⟩, .request 1 ⟨.post, "/positions/otc", 2, "trading"⟩,
    .acquired 0, .acquired 1, .responded 0 (.ok expiredResponse),
    .responded 1 (.ok expiredResponse), .acquired 0, .acquired 1,
    .responded 0 (.ok (refreshedResponse "cst-2")), .acquired 0,
    .responded 1 (.ok (refreshedResponse "cst-3")), .acquired 1,
    .responded 0 (.ok ⟨200, .empty, none, none⟩)]

theorem honoured_twoRequests :
    Along IGClient.step (Honoured ⟨"cst-1", "token-1"⟩) sampleClient twoRequests := by
  decide +kernel

/-- The first request has returned; the second is about to. -/
theorem two_requests_served : ∃ after, run IGClient.step sampleClient twoRequests = some after ∧
    ∀ task r, after.requests.get? task = some r →
      (∀ outcome, r.stage = .returned outcome → Served r outcome) ∧
      (r.returned = false → after.CanGoOn task ∧ twoRequests.countP (·.task = task) < 7) :=
  ⟨_, rfl, every_request_served rfl rfl honoured_twoRequests rfl⟩

end Blive.IGClient
