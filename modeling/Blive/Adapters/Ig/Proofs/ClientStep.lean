import Blive.Misc.Transition
import Blive.Adapters.Ig.Client

/-!
# What one step of the client does

Every step but the start of a call moves one request; `Moves` says how, and what becomes of the
tokens. The bounds on what a request sends follow from the moves alone, whatever the other
requests do in between.
-/

namespace Blive

/-- What the caller of the HTTP library gets from an answer. -/
def Answer.handle {α : Type} (answer : Answer) (read : IGResponse → Except IGError α) :
    Except RequestError α :=
  match answer with
  | .error name => .error (.transport name)
  | .ok response =>
      match read response with
      | .ok a => .ok a
      | .error e => .error (.ig e)

/-- `IGSessionExpired` -/
def RequestError.isExpired : RequestError → Bool
  | .ig e => e.kind = .sessionExpired
  | .transport _ => false

/-- `IGAuthError` -/
def RequestError.isAuth : RequestError → Bool
  | .ig e => e.kind = .auth
  | .transport _ => false

/-- The result is `IGSessionExpired`. -/
def isExpired {α : Type} : Except RequestError α → Bool
  | .ok _ => false
  | .error e => e.isExpired

/-- The result is no exception other than `IGAuthError`. -/
def authAtWorst {α : Type} : Except RequestError α → Bool
  | .ok _ => true
  | .error e => e.isAuth

/-- What `_send_once` makes of an answer. -/
def sendResult (answer : Answer) : Except RequestError Json :=
  answer.handle (handleResponse · true)

/-- What `_refresh_session_or_reauth` makes of an answer. -/
def refreshResult (answer : Answer) : Except RequestError SessionTokens :=
  answer.handle refreshedTokens

/-- What `connect` makes of an answer. -/
def connectResult (answer : Answer) : Except RequestError SessionTokens :=
  answer.handle connectedTokens

theorem handle_eq_ok_iff {α : Type} {answer : Answer} {read : IGResponse → Except IGError α}
    {a : α} : answer.handle read = .ok a ↔ ∃ response, answer = .ok response ∧
      read response = .ok a := by
  cases answer with
  | error name => simp [Answer.handle]
  | ok response => cases h : read response <;> simp [Answer.handle, h]

/-- During the connection a session-expired answer is an `IGAuthError`. -/
theorem handleResponse_not_expired {response : IGResponse} {e : IGError}
    (h : handleResponse response false = .error e) : e.kind ≠ .sessionExpired := by
  unfold handleResponse at h
  split at h
  · split at h <;> cases h
    simp
  · split at h
    · cases h
      simp
    · rename_i hkind
      cases h
      intro hexpired
      exact hkind ⟨hexpired, rfl⟩

theorem connectedTokens_not_expired {response : IGResponse} {e : IGError}
    (h : connectedTokens response = .error e) : e.kind ≠ .sessionExpired := by
  unfold connectedTokens at h
  split at h
  · rename_i hhandle
    cases h
    exact handleResponse_not_expired hhandle
  · split at h <;> cases h
    simp

theorem connectResult_not_expired (answer : Answer) : isExpired (connectResult answer) = false := by
  cases answer with
  | error name => rfl
  | ok response =>
    cases h : connectedTokens response with
    | ok tokens => simp [connectResult, Answer.handle, h, isExpired]
    | error e =>
      simpa [connectResult, Answer.handle, h, isExpired, RequestError.isExpired] using
        connectedTokens_not_expired h

/-- The headers of a response that has both. -/
theorem tokens?_eq_some {response : IGResponse} {tokens : SessionTokens}
    (h : response.tokens? = some tokens) :
    response.cst = some tokens.cst ∧ response.securityToken = some tokens.securityToken := by
  unfold IGResponse.tokens? at h
  split at h
  · rename_i hcst hsecurity
    split at h
    · cases h
    · cases h
      exact ⟨hcst, hsecurity⟩
  · cases h

theorem connectedTokens_eq_ok {response : IGResponse} {tokens : SessionTokens}
    (h : connectedTokens response = .ok tokens) :
    (∃ payload, handleResponse response false = .ok payload) ∧
      response.tokens? = some tokens := by
  unfold connectedTokens at h
  split at h
  · cases h
  · rename_i payload hhandle
    split at h
    · rename_i htokens
      cases h
      exact ⟨⟨payload, hhandle⟩, htokens⟩
    · cases h

namespace IGClient

/-- A session-expired answer that leads to the re-authentication: to the request itself when the
refresh was tried before, or to the refresh. -/
def LeadsToReauth (r : IGRequest) (exchange : Exchange) (answer : Answer) : Prop :=
  (∃ headers, r.stage = .sending headers ∧ exchange = .send headers answer ∧
      isExpired (sendResult answer) = true ∧ r.refreshAttempted = true) ∨
    ∃ headers, r.stage = .refreshing headers ∧ exchange = .refresh headers answer ∧
      isExpired (refreshResult answer) = true

/-- How an action moves the request of its task, and what becomes of the client that holds the
tokens. -/
inductive Moves (client : IGClient) (r : IGRequest) : Action → IGClient → IGRequest → Prop where
  | sent {task : Nat} {headers : SessionTokens} (hstage : r.stage = .acquiring)
      (hheld : client.authHeaders = .ok headers) :
      Moves client r (.acquired task) client { r with stage := .sending headers }
  | refreshSent {task : Nat} {headers : SessionTokens} (hstage : r.stage = .refreshAcquiring)
      (hheld : client.authHeaders = .ok headers) :
      Moves client r (.acquired task) client { r with stage := .refreshing headers }
  | connectSent {task : Nat} (hstage : r.stage = .connectAcquiring) :
      Moves client r (.acquired task) client { r with stage := .connecting }
  | notConnected {task : Nat} {e : IGError}
      (hstage : r.stage = .acquiring ∨ r.stage = .refreshAcquiring)
      (hheld : client.authHeaders = .error e) :
      Moves client r (.acquired task) client (r.raise (.ig e))
  | answered {task : Nat} {headers : SessionTokens} {answer : Answer}
      (hstage : r.stage = .sending headers) (hresult : isExpired (sendResult answer) = false) :
      Moves client r (.responded task answer) client
        { r.note (.send headers answer) with stage := .returned (sendResult answer) }
  | refresh {task : Nat} {headers : SessionTokens} {answer : Answer}
      (hstage : r.stage = .sending headers) (hresult : isExpired (sendResult answer) = true)
      (hflag : r.refreshAttempted = false) :
      Moves client r (.responded task answer) client { r.note (.send headers answer) with
        refreshAttempted := true, stage := .refreshAcquiring }
  | reauthenticate {task : Nat} {exchange : Exchange} {answer : Answer} {tokens : IGClient}
      (hleads : LeadsToReauth r exchange answer) (hflag : r.reauthAttempted = false)
      (htokens : tokens = { client with cst := none, securityToken := none }) :
      Moves client r (.responded task answer) tokens { r.note exchange with
        reauthAttempted := true, stage := .connectAcquiring }
  | gaveUp {task : Nat} {exchange : Exchange} {answer : Answer}
      (hleads : LeadsToReauth r exchange answer) (hflag : r.reauthAttempted = true) :
      Moves client r (.responded task answer) client
        ((r.note exchange).raise (.ig notReestablished))
  | refreshed {task : Nat} {headers tokens : SessionTokens} {answer : Answer}
      (hstage : r.stage = .refreshing headers) (hresult : refreshResult answer = .ok tokens) :
      Moves client r (.responded task answer) (client.setTokens tokens)
        { r.note (.refresh headers answer) with stage := .acquiring }
  | refreshFailed {task : Nat} {headers : SessionTokens} {answer : Answer} {e : RequestError}
      (hstage : r.stage = .refreshing headers) (hresult : refreshResult answer = .error e)
      (hexpired : e.isExpired = false) :
      Moves client r (.responded task answer) client ((r.note (.refresh headers answer)).raise e)
  | connected {task : Nat} {tokens : SessionTokens} {answer : Answer}
      (hstage : r.stage = .connecting) (hresult : connectResult answer = .ok tokens) :
      Moves client r (.responded task answer) (client.setTokens tokens)
        { r.note (.connect answer) with stage := .acquiring }
  | connectFailed {task : Nat} {answer : Answer} {e : RequestError} {tokens : IGClient}
      (hstage : r.stage = .connecting) (hresult : connectResult answer = .error e)
      (htokens : tokens.requests = client.requests) :
      Moves client r (.responded task answer) tokens ((r.note (.connect answer)).raise e)

/-- What has returned does not move. -/
theorem Moves.underWay {client tokens : IGClient} {r r' : IGRequest} {a : Action}
    (h : Moves client r a tokens r') : r.returned = false := by
  cases h with
  | notConnected hstage hheld =>
    rcases hstage with hstage | hstage <;> simp [IGRequest.returned, hstage]
  | reauthenticate hleads | gaveUp hleads =>
    rcases hleads with ⟨_, hstage, -⟩ | ⟨_, hstage, -⟩ <;> simp [IGRequest.returned, hstage]
  | sent hstage | refreshSent hstage | connectSent hstage | answered hstage | refresh hstage
  | refreshed hstage | refreshFailed hstage | connected hstage | connectFailed hstage =>
    simp [IGRequest.returned, hstage]

theorem moves_of_acquired {client after : IGClient} {task : Nat} {r : IGRequest}
    (h : client.acquired task r = some after) :
    ∃ tokens r', Moves client r (.acquired task) tokens r' ∧
      after = tokens.setRequest task r' := by
  unfold acquired at h
  split at h
  · rename_i hstage
    split at h <;> cases h
    · rename_i hheld
      exact ⟨_, _, .sent hstage hheld, rfl⟩
    · rename_i hheld
      exact ⟨_, _, .notConnected (.inl hstage) hheld, rfl⟩
  · rename_i hstage
    split at h <;> cases h
    · rename_i hheld
      exact ⟨_, _, .refreshSent hstage hheld, rfl⟩
    · rename_i hheld
      exact ⟨_, _, .notConnected (.inr hstage) hheld, rfl⟩
  · rename_i hstage
    cases h
    exact ⟨_, _, .connectSent hstage, rfl⟩
  · cases h

/-- Both ways into the recovery end alike. -/
theorem moves_reauthenticate {client : IGClient} (task : Nat) {r : IGRequest} {exchange : Exchange}
    {answer : Answer} (hleads : LeadsToReauth r exchange answer) :
    ∃ tokens r', Moves client r (.responded task answer) tokens r' ∧
      client.reauthenticate task (r.note exchange) = tokens.setRequest task r' := by
  unfold reauthenticate
  split
  · rename_i hflag
    exact ⟨_, _, .gaveUp hleads hflag, rfl⟩
  · rename_i hflag
    exact ⟨_, _, .reauthenticate hleads (Bool.eq_false_iff.mpr hflag) rfl, rfl⟩

theorem moves_of_sendAnswered {client : IGClient} (task : Nat) {r : IGRequest}
    {headers : SessionTokens} (answer : Answer) (hstage : r.stage = .sending headers) :
    ∃ tokens r', Moves client r (.responded task answer) tokens r' ∧
      client.sendAnswered task (r.note (.send headers answer)) answer =
        tokens.setRequest task r' := by
  unfold sendAnswered
  split
  · rename_i name
    have hresult : isExpired (sendResult (.error name)) = false := rfl
    exact ⟨_, _, .answered hstage hresult, rfl⟩
  · rename_i response
    split
    · rename_i payload hhandle
      have hresult : sendResult (.ok response) = .ok payload := by
        simp [sendResult, Answer.handle, hhandle]
      refine ⟨_, _, .answered hstage (by rw [hresult]; rfl), ?_⟩
      rw [hresult]
    · rename_i e hhandle
      have hresult : sendResult (.ok response) = .error (.ig e) := by
        simp [sendResult, Answer.handle, hhandle]
      split
      · rename_i hkind
        have hexpired : isExpired (sendResult (.ok response)) = true := by
          simp [hresult, isExpired, RequestError.isExpired, hkind]
        unfold recover
        split
        · rename_i hflag
          exact moves_reauthenticate task (.inl ⟨headers, hstage, rfl, hexpired, hflag⟩)
        · rename_i hflag
          exact ⟨_, _, .refresh hstage hexpired (Bool.eq_false_iff.mpr hflag), rfl⟩
      · rename_i hkind
        have hexpired : isExpired (sendResult (.ok response)) = false := by
          simp [hresult, isExpired, RequestError.isExpired, hkind]
        refine ⟨_, _, .answered hstage hexpired, ?_⟩
        rw [hresult]
        rfl

theorem moves_of_refreshAnswered {client : IGClient} (task : Nat) {r : IGRequest}
    {headers : SessionTokens} (answer : Answer) (hstage : r.stage = .refreshing headers) :
    ∃ tokens r', Moves client r (.responded task answer) tokens r' ∧
      client.refreshAnswered task (r.note (.refresh headers answer)) answer =
        tokens.setRequest task r' := by
  unfold refreshAnswered
  split
  · rename_i name
    exact ⟨_, _, .refreshFailed (e := .transport name) hstage rfl rfl, rfl⟩
  · rename_i response
    split
    · rename_i tokens hread
      have hresult : refreshResult (.ok response) = .ok tokens := by
        simp [refreshResult, Answer.handle, hread]
      exact ⟨_, _, .refreshed hstage hresult, rfl⟩
    · rename_i e hread
      have hresult : refreshResult (.ok response) = .error (.ig e) := by
        simp [refreshResult, Answer.handle, hread]
      split
      · rename_i hkind
        refine moves_reauthenticate task (.inr ⟨headers, hstage, rfl, ?_⟩)
        simp [hresult, isExpired, RequestError.isExpired, hkind]
      · rename_i hkind
        refine ⟨_, _, .refreshFailed hstage hresult ?_, rfl⟩
        simpa [RequestError.isExpired] using hkind

theorem moves_of_connectAnswered {client : IGClient} (task : Nat) {r : IGRequest}
    (answer : Answer) (hstage : r.stage = .connecting) :
    ∃ tokens r', Moves client r (.responded task answer) tokens r' ∧
      client.connectAnswered task (r.note (.connect answer)) answer =
        tokens.setRequest task r' := by
  unfold connectAnswered
  split
  · rename_i name
    exact ⟨_, _, .connectFailed (e := .transport name) hstage rfl rfl, rfl⟩
  · rename_i response
    split
    · rename_i e hhandle
      refine ⟨_, _, .connectFailed (e := .ig e) hstage ?_ rfl, rfl⟩
      simp [connectResult, Answer.handle, connectedTokens, hhandle]
    · split
      · rename_i tokens hread
        obtain ⟨hcst, hsecurity⟩ := tokens?_eq_some (connectedTokens_eq_ok hread).2
        have hresult : connectResult (.ok response) = .ok tokens := by
          simp [connectResult, Answer.handle, hread]
        refine ⟨_, _, .connected hstage hresult, ?_⟩
        rw [keepHeaders, hcst, hsecurity]
        rfl
      · rename_i e hread
        have hresult : connectResult (.ok response) = .error (.ig e) := by
          simp [connectResult, Answer.handle, hread]
        exact ⟨client.keepHeaders response, _, .connectFailed hstage hresult rfl, rfl⟩

theorem moves_of_responded {client after : IGClient} {task : Nat} {r : IGRequest} {answer : Answer}
    (h : client.responded task r answer = some after) :
    ∃ tokens r', Moves client r (.responded task answer) tokens r' ∧
      after = tokens.setRequest task r' := by
  unfold responded at h
  split at h
  · rename_i hstage
    obtain ⟨tokens, r', hmoves, heq⟩ := moves_of_sendAnswered task answer hstage
    cases h
    exact ⟨tokens, r', hmoves, heq⟩
  · rename_i hstage
    obtain ⟨tokens, r', hmoves, heq⟩ := moves_of_refreshAnswered task answer hstage
    cases h
    exact ⟨tokens, r', hmoves, heq⟩
  · rename_i hstage
    obtain ⟨tokens, r', hmoves, heq⟩ := moves_of_connectAnswered task answer hstage
    cases h
    exact ⟨tokens, r', hmoves, heq⟩
  · cases h

/-- A move leaves the other requests alone. -/
theorem Moves.requests_eq {client tokens : IGClient} {r r' : IGRequest} {a : Action}
    (h : Moves client r a tokens r') : tokens.requests = client.requests := by
  cases h with
  | reauthenticate hleads hflag htokens => rw [htokens]
  | connectFailed hstage hresult htokens => exact htokens
  | sent | refreshSent | connectSent | notConnected | answered | refresh | gaveUp | refreshed
  | refreshFailed | connected => rfl

/-- What a step can do: it starts a call, or it moves the request of its task. -/
theorem step_cases {client after : IGClient} {a : Action} (h : step client a = some after) :
    (∃ task call, a = .request task call ∧ task ∉ client.requests ∧
      after = client.request task call) ∨
    ∃ r tokens r', client.requests.get? a.task = some r ∧ Moves client r a tokens r' ∧
      after = tokens.setRequest a.task r' := by
  cases a with
  | request task call =>
    simp only [step] at h
    split at h <;> cases h
    rename_i hfresh
    exact .inl ⟨task, call, rfl, hfresh, rfl⟩
  | acquired task =>
    simp only [step, Option.bind_eq_some_iff] at h
    obtain ⟨r, hr, h⟩ := h
    obtain ⟨tokens, r', hmoves, heq⟩ := moves_of_acquired h
    exact .inr ⟨r, tokens, r', hr, hmoves, heq⟩
  | responded task answer =>
    simp only [step, Option.bind_eq_some_iff] at h
    obtain ⟨r, hr, h⟩ := h
    obtain ⟨tokens, r', hmoves, heq⟩ := moves_of_responded h
    exact .inr ⟨r, tokens, r', hr, hmoves, heq⟩

end IGClient

end Blive
