import Blive.Adapters.Ig.Proofs.ClientStep

/-!
# The recovery of one request

A call that no other request disturbs sends its request at most three times, refreshes the
session at most once and authenticates anew at most once. It sends again only after a
session-expired answer, and the first answer to the request that is no such answer is what the
caller gets. When there is none, a recovery that failed says why; only when both went through
does the call end in an `IGAuthError` of its own. So a call whose every answer is session-expired
ends in an `IGAuthError` unless a recovery fails with another exception; a refresh that fails so
does not lead on to the re-authentication.
-/

namespace Blive

open Transition

/-- The result of an exchange that sent the request itself. -/
def Exchange.sendResult? : Exchange → Option (Except RequestError Json)
  | .send _ answer => some (sendResult answer)
  | _ => none

/-- The exception with which a refresh or a re-authentication ends the call: a refresh that is
answered session-expired leads on to the re-authentication. -/
def Exchange.failure? : Exchange → Option RequestError
  | .send _ _ => none
  | .refresh _ answer =>
      match refreshResult answer with
      | .ok _ => none
      | .error e => if e.isExpired then none else some e
  | .connect answer =>
      match connectResult answer with
      | .ok _ => none
      | .error e => some e

inductive ExchangeKind where
  | send | refresh | connect
  deriving DecidableEq

def Exchange.kind : Exchange → ExchangeKind
  | .send _ _ => .send
  | .refresh _ _ => .refresh
  | .connect _ => .connect

/-- The exchange a stage is in the middle of. -/
def RequestStage.inFlight : RequestStage → Option ExchangeKind
  | .sending _ => some .send
  | .refreshing _ => some .refresh
  | .connecting => some .connect
  | _ => none

namespace IGRequest

variable (r : IGRequest)

/-- The exchanges of a kind that were answered. -/
def answered (kind : ExchangeKind) : Nat := r.exchanges.countP fun exchange => exchange.kind = kind

/-- The exchanges of a kind, with the one that is not answered yet. -/
def made (kind : ExchangeKind) : Nat :=
  r.answered kind + if r.stage.inFlight = some kind then 1 else 0

/-- The results of the sends that were answered. -/
def sendResults : List (Except RequestError Json) := r.exchanges.filterMap Exchange.sendResult?

/-- What a request that is under way was answered was session-expired every time, and so was all
but the last answer of one that has returned. -/
def ResendsExpired : Prop :=
  ∀ result ∈ (if r.returned then r.sendResults.dropLast else r.sendResults), isExpired result

/-- The exception of the recovery that failed, or that of the loop when none did. -/
def unrecovered : RequestError :=
  (r.exchanges.findSome? Exchange.failure?).getD (.ig notReestablished)

/-- The recoveries the flags still allow. -/
def recoveriesLeft : Nat := (!r.refreshAttempted).toNat + (!r.reauthAttempted).toNat

/-- The exchanges of a kind still to be answered, at most. -/
def pending (kind : ExchangeKind) : Nat :=
  match r.stage, kind with
  | .returned _, _ => 0
  | _, .send => 1 + r.recoveriesLeft
  | .refreshAcquiring, .refresh | .refreshing _, .refresh => 1
  | .connectAcquiring, .connect | .connecting, .connect => 1
  | _, .refresh => (!r.refreshAttempted).toNat
  | _, .connect => (!r.reauthAttempted).toNat

/-- The stages still possible, this one included. -/
def stagesLeft : Nat :=
  match r.stage with
  | .acquiring => 2 + 4 * r.recoveriesLeft
  | .sending _ => 1 + 4 * r.recoveriesLeft
  | .refreshAcquiring | .connectAcquiring => 4 + 4 * r.recoveriesLeft
  | .refreshing _ | .connecting => 3 + 4 * r.recoveriesLeft
  | .returned _ => 0

/-- A request that waits for a recovery has set the flag of it. -/
def FlagsSet : Prop :=
  match r.stage with
  | .refreshAcquiring | .refreshing _ => r.refreshAttempted = true
  | .connectAcquiring | .connecting => r.refreshAttempted = true ∧ r.reauthAttempted = true
  | _ => r.reauthAttempted = true → r.refreshAttempted = true

variable {r}

@[simp] theorem answered_note (exchange : Exchange) (kind : ExchangeKind) :
    (r.note exchange).answered kind =
      r.answered kind + if exchange.kind = kind then 1 else 0 := by
  simp [answered, note, List.countP_append, List.countP_singleton]

theorem FlagsSet.moves {client tokens : IGClient} {a : IGClient.Action} {r' : IGRequest}
    (h : r.FlagsSet)
    (hmoves : IGClient.Moves client r a tokens r') : r'.FlagsSet := by
  cases hmoves with
  | reauthenticate hleads hflag htokens =>
    rcases hleads with ⟨_, hstage, rfl, _, hrefreshed⟩ | ⟨_, hstage, rfl, _⟩
    · exact ⟨hrefreshed, rfl⟩
    · simp only [FlagsSet, hstage] at h
      exact ⟨h, rfl⟩
  | gaveUp hleads hflag =>
    rcases hleads with ⟨_, hstage, rfl, _, hrefreshed⟩ | ⟨_, hstage, rfl, _⟩
    · exact fun _ => hrefreshed
    · simp only [FlagsSet, hstage] at h
      exact fun _ => h
  | notConnected hstage hheld =>
    rcases hstage with hstage | hstage <;> simp only [FlagsSet, hstage] at h
    · exact h
    · exact fun _ => h
  | sent hstage | refreshSent hstage | connectSent hstage | answered hstage =>
    simp only [FlagsSet, hstage] at h
    exact h
  | refresh hstage hresult hflag => rfl
  | refreshed hstage | refreshFailed hstage =>
    simp only [FlagsSet, hstage] at h
    exact fun _ => h
  | connected hstage | connectFailed hstage =>
    simp only [FlagsSet, hstage] at h
    exact fun _ => h.1

/-- What a request has been answered and may still be answered never grows. -/
theorem answered_add_pending_moves {client tokens : IGClient} {a : IGClient.Action} {r' : IGRequest}
    (h : r.FlagsSet)
    (hmoves : IGClient.Moves client r a tokens r') (kind : ExchangeKind) :
    r'.answered kind + r'.pending kind ≤ r.answered kind + r.pending kind := by
  cases hmoves with
  | sent hstage | refreshSent hstage | connectSent hstage =>
    cases kind <;> simp [pending, answered, recoveriesLeft, hstage]
  | notConnected hstage hheld =>
    simp [pending, raise, answered]
  | answered hstage hresult =>
    cases kind <;> simp [pending, answered, note, recoveriesLeft, Exchange.kind, hstage]
  | refresh hstage hresult hflag =>
    cases kind <;> simp [pending, answered, note, recoveriesLeft, Exchange.kind, hstage, hflag]
    omega
  | reauthenticate hleads hflag htokens =>
    rcases hleads with ⟨_, hstage, rfl, _, hrefreshed⟩ | ⟨_, hstage, rfl, _⟩
    · cases kind <;>
        simp [pending, answered, note, recoveriesLeft, Exchange.kind, hstage, hflag, hrefreshed]
    · have hrefreshed : r.refreshAttempted = true := by simpa only [FlagsSet, hstage] using h
      cases kind <;>
        simp [pending, answered, note, recoveriesLeft, Exchange.kind, hstage, hflag, hrefreshed]
  | gaveUp hleads hflag =>
    rcases hleads with ⟨_, hstage, rfl, _⟩ | ⟨_, hstage, rfl, _⟩ <;> cases kind <;>
      simp [pending, answered, note, raise, recoveriesLeft, Exchange.kind, hstage]
  | refreshed hstage =>
    have hrefreshed : r.refreshAttempted = true := by simpa only [FlagsSet, hstage] using h
    cases kind <;>
      simp [pending, answered, note, recoveriesLeft, Exchange.kind, hstage, hrefreshed]
  | refreshFailed hstage =>
    cases kind <;> simp [pending, answered, note, raise, recoveriesLeft, Exchange.kind, hstage]
  | connected hstage =>
    have hflags : r.refreshAttempted = true ∧ r.reauthAttempted = true := by
      simpa only [FlagsSet, hstage] using h
    cases kind <;>
      simp [pending, answered, note, recoveriesLeft, Exchange.kind, hstage, hflags]
  | connectFailed hstage =>
    cases kind <;> simp [pending, answered, note, raise, recoveriesLeft, Exchange.kind, hstage]

/-- Every move uses up a stage. -/
theorem stagesLeft_moves {client tokens : IGClient} {a : IGClient.Action} {r' : IGRequest}
    (h : r.FlagsSet)
    (hmoves : IGClient.Moves client r a tokens r') : r'.stagesLeft < r.stagesLeft := by
  cases hmoves with
  | sent hstage | refreshSent hstage | connectSent hstage =>
    simp [stagesLeft, recoveriesLeft, hstage]
  | notConnected hstage hheld =>
    rcases hstage with hstage | hstage <;> simp only [stagesLeft, raise, hstage] <;> omega
  | answered hstage | refreshFailed hstage | connectFailed hstage =>
    simp only [stagesLeft, raise, hstage]
    omega
  | refresh hstage hresult hflag =>
    simp [stagesLeft, recoveriesLeft, note, hstage, hflag]
    omega
  | reauthenticate hleads hflag htokens =>
    have hrefreshed : r.refreshAttempted = true := by
      rcases hleads with ⟨_, _, _, _, hrefreshed⟩ | ⟨_, hstage, _⟩
      · exact hrefreshed
      · simpa only [FlagsSet, hstage] using h
    rcases hleads with ⟨_, hstage, _⟩ | ⟨_, hstage, _⟩ <;>
      simp [stagesLeft, recoveriesLeft, note, hstage, hflag, hrefreshed]
  | gaveUp hleads hflag =>
    rcases hleads with ⟨_, hstage, _⟩ | ⟨_, hstage, _⟩ <;>
      simp only [stagesLeft, raise, hstage] <;> omega
  | refreshed hstage | connected hstage =>
    simp [stagesLeft, recoveriesLeft, note, hstage]

/-- The first answer to the request that is not session-expired. -/
def firstAnswer (r : IGRequest) : Option (Except RequestError Json) :=
  r.sendResults.find? fun result => !isExpired result

/-- A request under way was answered session-expired every time, and no recovery has failed. -/
def Unanswered (r : IGRequest) : Prop :=
  (∀ result ∈ r.sendResults, isExpired result = true) ∧ ∀ exchange ∈ r.exchanges,
    exchange.failure? = none

/-- A request that has returned did so with its first answer, or because it was not recovered. -/
structure Concluded (r : IGRequest) (outcome : Except RequestError Json) : Prop where
  resends : ∀ result ∈ r.sendResults.dropLast, isExpired result = true
  answer : ∀ result, r.firstAnswer = some result → outcome = result
  noAnswer : r.firstAnswer = none → outcome = .error r.unrecovered

/-- What a request owes its answers. -/
def Accounted (r : IGRequest) : Prop :=
  match r.stage with
  | .returned outcome => r.Concluded outcome
  | _ => r.Unanswered

theorem sendResults_note (exchange : Exchange) :
    (r.note exchange).sendResults = r.sendResults ++ exchange.sendResult?.toList := by
  cases exchange <;> simp [sendResults, note, Exchange.sendResult?]

theorem firstAnswer_note_send {headers : SessionTokens} {answer : Answer}
    (h : isExpired (sendResult answer) = false) :
    (r.note (.send headers answer)).firstAnswer ≠ none := by
  rw [firstAnswer, sendResults_note, ne_eq, List.find?_eq_none]
  intro hall
  exact hall (sendResult answer) (List.mem_append_right _ (List.mem_singleton_self _)) (by simp [h])

theorem sendResults_congr {r' : IGRequest} (h : r'.exchanges = r.exchanges) :
    r'.sendResults = r.sendResults := by
  rw [sendResults, sendResults, h]

theorem unrecovered_congr {r' : IGRequest} (h : r'.exchanges = r.exchanges) :
    r'.unrecovered = r.unrecovered := by
  rw [unrecovered, unrecovered, h]

theorem Unanswered.congr {r' : IGRequest} (h : r.Unanswered) (he : r'.exchanges = r.exchanges) :
    r'.Unanswered := by
  rw [Unanswered, sendResults_congr he, he]
  exact h

theorem Concluded.congr {r' : IGRequest} {outcome : Except RequestError Json}
    (h : r.Concluded outcome) (he : r'.exchanges = r.exchanges) : r'.Concluded outcome := by
  refine ⟨?_, ?_, ?_⟩
  · rw [sendResults_congr he]
    exact h.resends
  · rw [firstAnswer, sendResults_congr he]
    exact h.answer
  · rw [firstAnswer, sendResults_congr he, unrecovered_congr he]
    exact h.noAnswer

theorem Unanswered.firstAnswer_eq_none (h : r.Unanswered) : r.firstAnswer = none := by
  rw [firstAnswer, List.find?_eq_none]
  intro result hresult
  simp [h.1 result hresult]

theorem Unanswered.findSome?_failure (h : r.Unanswered) :
    r.exchanges.findSome? Exchange.failure? = none := by
  rw [List.findSome?_eq_none_iff]
  exact h.2

/-- An exchange that is answered session-expired, or a recovery that goes through, leaves the
request unanswered. -/
theorem Unanswered.note (h : r.Unanswered) {exchange : Exchange}
    (hexpired : ∀ result ∈ exchange.sendResult?, isExpired result = true)
    (hfailure : exchange.failure? = none) : (r.note exchange).Unanswered := by
  refine ⟨?_, ?_⟩
  · intro result hresult
    rw [sendResults_note, List.mem_append, Option.mem_toList] at hresult
    exact hresult.elim (h.1 result) (hexpired result)
  · intro x hx
    rcases List.mem_append.mp hx with hx | hx
    · exact h.2 x hx
    · rw [List.mem_singleton.mp hx]
      exact hfailure

/-- A request that was not answered ends for want of a recovery. -/
theorem Unanswered.concluded (h : r.Unanswered) :
    r.Concluded (.error (.ig notReestablished)) where
  resends := fun result hresult => h.1 result (List.dropLast_subset _ hresult)
  answer := by simp [h.firstAnswer_eq_none]
  noAnswer := fun _ => by rw [unrecovered, h.findSome?_failure]; rfl

/-- A recovery that fails ends the request with its exception. -/
theorem Unanswered.concluded_failure (h : r.Unanswered) {exchange : Exchange} {e : RequestError}
    (hsend : exchange.sendResult? = none) (hfailure : exchange.failure? = some e) :
    (r.note exchange).Concluded (.error e) := by
  have hresults : (r.note exchange).sendResults = r.sendResults := by
    rw [sendResults_note, hsend, Option.toList_none, List.append_nil]
  have hunrecovered : (r.note exchange).unrecovered = e := by
    rw [unrecovered, IGRequest.note, List.findSome?_append, h.findSome?_failure]
    simp [hfailure]
  refine ⟨?_, ?_, ?_⟩
  · rw [hresults]
    exact fun result hresult => h.1 result (List.dropLast_subset _ hresult)
  · rw [firstAnswer, hresults, ← firstAnswer, h.firstAnswer_eq_none]
    simp
  · intro _
    rw [hunrecovered]

/-- The first answer that is not session-expired ends the request. -/
theorem Unanswered.concluded_answer (h : r.Unanswered) {headers : SessionTokens} {answer : Answer}
    (hresult : isExpired (sendResult answer) = false) :
    (r.note (.send headers answer)).Concluded (sendResult answer) := by
  have hresults : (r.note (.send headers answer)).sendResults =
      r.sendResults ++ [sendResult answer] := sendResults_note _
  have hfirst : (r.note (.send headers answer)).firstAnswer = some (sendResult answer) := by
    rw [firstAnswer, hresults, List.find?_append, ← firstAnswer, h.firstAnswer_eq_none]
    simp [hresult]
  refine ⟨?_, ?_, ?_⟩
  · rw [hresults, List.dropLast_concat]
    exact h.1
  · intro result heq
    rw [hfirst] at heq
    exact (Option.some.inj heq)
  · rw [hfirst]
    simp

/-- Both ways into the recovery start from a session-expired answer. -/
theorem Accounted.noted_of_leads {exchange : Exchange} {answer : Answer} (h : r.Accounted)
    (hleads : IGClient.LeadsToReauth r exchange answer) : (r.note exchange).Unanswered := by
  rcases hleads with ⟨_, hstage, rfl, hexpired, _⟩ | ⟨_, hstage, rfl, hexpired⟩
  · simp only [Accounted, hstage] at h
    exact h.note (by simpa [Exchange.sendResult?] using hexpired) rfl
  · simp only [Accounted, hstage] at h
    refine h.note (by simp [Exchange.sendResult?]) ?_
    cases hresult : refreshResult answer with
    | ok tokens => simp [Exchange.failure?, hresult]
    | error e =>
      rw [hresult] at hexpired
      have hkind : e.isExpired = true := hexpired
      simp [Exchange.failure?, hresult, hkind]

/-- With its tokens at hand, a request keeps accounting for its answers. -/
theorem Accounted.moves {client tokens : IGClient} {a : IGClient.Action} {r' : IGRequest}
    (h : r.Accounted)
    (hheld : r.stage = .acquiring ∨ r.stage = .refreshAcquiring → client.isConnected = true)
    (hmoves : IGClient.Moves client r a tokens r') : r'.Accounted := by
  cases hmoves with
  | sent hstage | refreshSent hstage | connectSent hstage =>
    simp only [Accounted, hstage] at h
    exact h.congr rfl
  | notConnected hstage hnone =>
    have hconnected := hheld hstage
    simp only [IGClient.isConnected, Bool.and_eq_true, Option.isSome_iff_exists] at hconnected
    obtain ⟨⟨cst, hcst⟩, securityToken, hsecurity⟩ := hconnected
    simp [IGClient.authHeaders, hcst, hsecurity] at hnone
  | answered hstage hresult =>
    simp only [Accounted, hstage] at h
    exact (h.concluded_answer hresult).congr rfl
  | refresh hstage hresult hflag =>
    simp only [Accounted, hstage] at h
    exact (h.note (by simpa [Exchange.sendResult?] using hresult) rfl).congr rfl
  | reauthenticate hleads hflag htokens => exact (h.noted_of_leads hleads).congr rfl
  | gaveUp hleads hflag => exact (h.noted_of_leads hleads).concluded.congr rfl
  | refreshed hstage hresult =>
    simp only [Accounted, hstage] at h
    exact (h.note (by simp [Exchange.sendResult?]) (by simp [Exchange.failure?, hresult])).congr rfl
  | refreshFailed hstage hresult hexpired =>
    simp only [Accounted, hstage] at h
    exact (h.concluded_failure rfl (by simp [Exchange.failure?, hresult, hexpired])).congr rfl
  | connected hstage hresult =>
    simp only [Accounted, hstage] at h
    exact (h.note (by simp [Exchange.sendResult?]) (by simp [Exchange.failure?, hresult])).congr rfl
  | connectFailed hstage hresult =>
    simp only [Accounted, hstage] at h
    exact (h.concluded_failure rfl (by simp [Exchange.failure?, hresult])).congr rfl

end IGRequest

namespace IGClient

/-- The request of a task whose calls no other request disturbs. -/
structure Undisturbed (client : IGClient) (task : Nat) (r : IGRequest) : Prop where
  request : client.requests.get? task = some r
  flags : r.FlagsSet
  accounted : r.Accounted
  /-- The tokens are gone only while the request authenticates anew. -/
  connected : client.isConnected = true ∨ r.stage = .connectAcquiring ∨ r.stage = .connecting ∨
    r.returned = true

theorem Undisturbed.moves {client tokens : IGClient} {task : Nat} {a : Action}
    {r r' : IGRequest} (h : client.Undisturbed task r) (hmoves : Moves client r a tokens r') :
    (tokens.setRequest task r').Undisturbed task r' where
  request := by rw [setRequest, Dict.get?_set, if_pos rfl]
  flags := h.flags.moves hmoves
  accounted := by
    refine h.accounted.moves ?_ hmoves
    intro hstage
    refine h.connected.resolve_right ?_
    rcases hstage with hstage | hstage <;> simp [IGRequest.returned, hstage]
  connected := by
    have hkept (hstage : r.stage ≠ .connectAcquiring ∧ r.stage ≠ .connecting ∧
        r.returned = false) : client.isConnected = true := by
      refine h.connected.resolve_right ?_
      simp [hstage.1, hstage.2.1, hstage.2.2]
    cases hmoves with
    | sent hstage | refreshSent hstage | refresh hstage =>
      exact .inl (hkept (by simp [IGRequest.returned, hstage]))
    | connectSent hstage => exact .inr (.inr (.inl rfl))
    | reauthenticate hstage => exact .inr (.inl rfl)
    | refreshed hstage | connected hstage => exact .inl rfl
    | notConnected | answered | gaveUp | refreshFailed | connectFailed =>
      exact .inr (.inr (.inr rfl))

/-- The call of a task has sent and been answered no more than its stages allow. -/
structure Metered (r : IGRequest) (actions : Nat) : Prop where
  stages : actions + r.stagesLeft ≤ 10
  sends : r.answered .send + r.pending .send ≤ 3
  refreshes : r.answered .refresh + r.pending .refresh ≤ 1
  connects : r.answered .connect + r.pending .connect ≤ 1

theorem Metered.moves {client tokens : IGClient} {a : Action} {r r' : IGRequest}
    {actions : Nat} (h : Metered r actions) (hflags : r.FlagsSet)
    (hmoves : Moves client r a tokens r') :
    Metered r' (actions + 1) where
  stages := by
    have hless := IGRequest.stagesLeft_moves hflags hmoves
    have hstages := h.stages
    omega
  sends := (IGRequest.answered_add_pending_moves hflags hmoves .send).trans h.sends
  refreshes := (IGRequest.answered_add_pending_moves hflags hmoves .refresh).trans h.refreshes
  connects := (IGRequest.answered_add_pending_moves hflags hmoves .connect).trans h.connects

theorem made_le (r : IGRequest) (kind : ExchangeKind) :
    r.made kind ≤ r.answered kind + r.pending kind := by
  cases hstage : r.stage <;> cases kind <;>
    simp [IGRequest.made, IGRequest.pending, RequestStage.inFlight, hstage]

/-- A request that has not returned waits for the rate limiter or for the server. -/
def CanGoOn (client : IGClient) (task : Nat) : Prop :=
  (∃ after, step client (.acquired task) = some after) ∨
    ∀ answer, ∃ after, step client (.responded task answer) = some after

theorem canGoOn {client : IGClient} {task : Nat} {r : IGRequest}
    (hrequest : client.requests.get? task = some r) (hreturned : r.returned = false) :
    client.CanGoOn task := by
  cases hstage : r.stage with
  | returned outcome => simp [IGRequest.returned, hstage] at hreturned
  | acquiring | refreshAcquiring =>
    left
    cases hheld : client.authHeaders <;>
      simp [step, hrequest, acquired, hstage, hheld]
  | connectAcquiring =>
    left
    simp [step, hrequest, acquired, hstage]
  | sending | refreshing | connecting =>
    right
    intro answer
    simp [step, hrequest, responded, hstage]

theorem failure_not_expired {exchange : Exchange} {e : RequestError}
    (h : exchange.failure? = some e) : e.isExpired = false := by
  cases exchange with
  | send headers answer => cases h
  | refresh headers answer =>
    simp only [Exchange.failure?] at h
    split at h
    · cases h
    · split at h
      · cases h
      · rename_i hexpired
        cases h
        simpa using hexpired
  | connect answer =>
    simp only [Exchange.failure?] at h
    split at h
    · cases h
    · rename_i hresult
      cases h
      have hexpired := connectResult_not_expired answer
      rw [hresult] at hexpired
      exact hexpired

/-- No request ends in `IGSessionExpired`. -/
theorem concluded_not_expired {r : IGRequest} {outcome : Except RequestError Json}
    (h : r.Concluded outcome) : isExpired outcome = false := by
  cases hfirst : r.firstAnswer with
  | some result =>
    rw [h.answer result hfirst]
    simpa using List.find?_some hfirst
  | none =>
    rw [h.noAnswer hfirst]
    show r.unrecovered.isExpired = false
    unfold IGRequest.unrecovered
    cases hfailure : r.exchanges.findSome? Exchange.failure? with
    | none => rfl
    | some e =>
      obtain ⟨exchange, _, heq⟩ := List.exists_of_findSome?_eq_some hfailure
      exact failure_not_expired heq

/-- A call that starts on a connected client. -/
theorem undisturbed_request {client : IGClient} (task : Nat) (call : IGCall)
    (hconnected : client.isConnected = true) :
    (client.request task call).Undisturbed task { call } ∧ Metered { call } 0 := by
  have hrequest : client.request task call = client.setRequest task { call } := if_pos hconnected
  rw [hrequest]
  refine ⟨⟨?_, ?_, ?_, .inl hconnected⟩, ⟨?_, ?_, ?_, ?_⟩⟩
  · rw [setRequest, Dict.get?_set, if_pos rfl]
  · simp [IGRequest.FlagsSet]
  · simp [IGRequest.Accounted, IGRequest.Unanswered, IGRequest.sendResults]
  all_goals simp [IGRequest.stagesLeft, IGRequest.recoveriesLeft, IGRequest.answered,
    IGRequest.pending]

/-- A run in which only the request of one task moves. -/
theorem run_undisturbed {client after : IGClient} {task : Nat} {call : IGCall} {as : List Action}
    (hconnected : client.isConnected = true) (hfresh : task ∉ client.requests)
    (halone : ∀ a ∈ as, a.task = task)
    (hrun : run step client (.request task call :: as) = some after) :
    ∃ r, after.Undisturbed task r ∧ Metered r as.length := by
  obtain ⟨started, hstarted, hrun⟩ := run_cons_eq_some.mp hrun
  simp only [step, if_neg hfresh, Option.some.injEq] at hstarted
  subst hstarted
  let I (past : List Action) (c : IGClient) : Prop :=
    (∀ a ∈ past, a.task = task) → ∃ r, c.Undisturbed task r ∧ Metered r past.length
  have hstep : ∀ past c a c', I past c → step c a = some c' → I (past ++ [a]) c' := by
    intro past c a c' hI h halone
    obtain ⟨r, hund, hmetered⟩ := hI fun b hb => halone b (List.mem_append_left _ hb)
    have htask : a.task = task := halone a (List.mem_append_right _ (List.mem_singleton_self a))
    rcases step_cases h with ⟨t, call', rfl, habsent, -⟩ | ⟨q, tokens, r', hq, hmoves, rfl⟩
    · cases htask
      exact absurd (Dict.mem_of_get? hund.request) habsent
    · rw [htask] at hq ⊢
      cases hund.request.symm.trans hq
      refine ⟨r', hund.moves hmoves, ?_⟩
      rw [List.length_append]
      exact hmetered.moves hund.flags hmoves
  have hstart : I [] (client.request task call) := fun _ =>
    ⟨_, (undisturbed_request task call hconnected).1, (undisturbed_request task call hconnected).2⟩
  exact run_invariant_history hstep hstart hrun halone

/-! ## What a call keeps to -/

/-- The bounds on what a call sends, and when it sends again. -/
structure KeepsBounds (r : IGRequest) : Prop where
  sends : r.made .send ≤ 3
  refreshes : r.made .refresh ≤ 1
  connects : r.made .connect ≤ 1
  resends : r.ResendsExpired

theorem Undisturbed.keepsBounds {client : IGClient} {task actions : Nat} {r : IGRequest}
    (h : client.Undisturbed task r) (hmetered : Metered r actions) : KeepsBounds r where
  sends := (made_le r .send).trans hmetered.sends
  refreshes := (made_le r .refresh).trans hmetered.refreshes
  connects := (made_le r .connect).trans hmetered.connects
  resends := by
    have haccounted := h.accounted
    intro result hresult
    cases hstage : r.stage with
    | returned outcome =>
      simp only [IGRequest.Accounted, hstage] at haccounted
      simp only [IGRequest.returned, hstage, if_true] at hresult
      exact haccounted.resends result hresult
    | _ =>
      simp only [IGRequest.Accounted, hstage] at haccounted
      simp only [IGRequest.returned, hstage, Bool.false_eq_true, if_false] at hresult
      exact haccounted.1 result hresult

/-- After its actions `as` the call of a task has kept to its bounds, it can go on or has come to
its end within ten steps, and it ends as `ends` says. -/
def Recovered (ends : IGRequest → Except RequestError Json → Prop) (task : Nat) (as : List Action)
    (after : IGClient) : Prop :=
  ∃ r, after.requests.get? task = some r ∧ KeepsBounds r ∧ as.length ≤ 10 ∧
    (r.returned = false → after.CanGoOn task) ∧
    ∀ outcome, r.stage = .returned outcome → isExpired outcome = false ∧ ends r outcome

/-- Every call is recovered, whatever the server answers. -/
def RecoversTo (ends : IGRequest → Except RequestError Json → Prop) : Prop :=
  ∀ (client : IGClient) (task : Nat) (call : IGCall) (as : List Action) (after : IGClient),
    client.isConnected = true → task ∉ client.requests → (∀ a ∈ as, a.task = task) →
      run step client (.request task call :: as) = some after → Recovered ends task as after

/-- The first answer that is not session-expired ends the call; without one, it raises
`IGAuthError`. -/
def EndsInAuthError (r : IGRequest) (outcome : Except RequestError Json) : Prop :=
  match r.firstAnswer with
  | some result => outcome = result
  | none => ∃ e, outcome = .error (.ig e) ∧ e.kind = .auth

/-- The first answer that is not session-expired ends the call; without one, the recovery that
failed does, and only when none failed the call raises the `IGAuthError` of its own. -/
def EndsUnrecovered (r : IGRequest) (outcome : Except RequestError Json) : Prop :=
  match r.firstAnswer with
  | some result => outcome = result
  | none => outcome = .error r.unrecovered

theorem recoversTo_endsUnrecovered : RecoversTo EndsUnrecovered := by
  intro client task call as after hconnected hfresh halone hrun
  obtain ⟨r, hund, hmetered⟩ := run_undisturbed hconnected hfresh halone hrun
  refine ⟨r, hund.request, hund.keepsBounds hmetered, ?_, canGoOn hund.request, ?_⟩
  · have hstages := hmetered.stages
    omega
  · intro outcome hstage
    have hconcluded : r.Concluded outcome := by simpa only [IGRequest.Accounted, hstage] using
      hund.accounted
    refine ⟨concluded_not_expired hconcluded, ?_⟩
    unfold EndsUnrecovered
    split
    · rename_i result hfirst
      exact hconcluded.answer result hfirst
    · rename_i hfirst
      exact hconcluded.noAnswer hfirst

/-! ## A recovery that fails -/

/-- A refresh is not answered by a failure other than session-expired and `IGAuthError`, nor a
re-authentication by one other than `IGAuthError`. -/
def answerRecovers (client : IGClient) : Action → Bool
  | .responded task answer =>
      match (client.requests.get? task).map IGRequest.stage with
      | some (.refreshing _) =>
          isExpired (refreshResult answer) || authAtWorst (refreshResult answer)
      | some .connecting => authAtWorst (connectResult answer)
      | _ => true
  | _ => true

theorem answerRecovers_responded {client : IGClient} {task : Nat} {r : IGRequest} {answer : Answer}
    (hrequest : client.requests.get? task = some r) :
    client.answerRecovers (.responded task answer) =
      match r.stage with
      | .refreshing _ => isExpired (refreshResult answer) || authAtWorst (refreshResult answer)
      | .connecting => authAtWorst (connectResult answer)
      | _ => true := by
  rw [answerRecovers, hrequest, Option.map_some]
  cases r.stage <;> rfl

/-- Without an answer to it, the request has ended in an exception other than `IGAuthError`. -/
def EndsOtherwise (r : IGRequest) : Prop :=
  ∃ e, r.stage = .returned (.error e) ∧ r.firstAnswer = none ∧ e.isAuth = false

theorem not_endsOtherwise_of_underWay {r : IGRequest} (h : r.returned = false) :
    ¬ EndsOtherwise r := by
  rintro ⟨e, hstage, -⟩
  simp [IGRequest.returned, hstage] at h

/-- A recovery that fails ends the request in its exception. -/
theorem endsOtherwise_failure_iff {r : IGRequest} {exchange : Exchange} {e : RequestError}
    (hunanswered : r.Unanswered) (hsend : exchange.sendResult? = none) :
    EndsOtherwise ((r.note exchange).raise e) ↔ e.isAuth = false := by
  have hresults : (r.note exchange).sendResults = r.sendResults := by
    rw [IGRequest.sendResults_note, hsend, Option.toList_none, List.append_nil]
  have hfirst : (r.note exchange).firstAnswer = none := by
    rw [IGRequest.firstAnswer, hresults, ← IGRequest.firstAnswer, hunanswered.firstAnswer_eq_none]
  constructor
  · rintro ⟨e', hstage, -, hauth⟩
    cases hstage
    exact hauth
  · intro hauth
    exact ⟨e, rfl, hfirst, hauth⟩

/-- A request that moves ends otherwise exactly by an answer that does not recover it. -/
theorem endsOtherwise_moves_iff {client tokens : IGClient} {a : Action} {r r' : IGRequest}
    (hrequest : client.requests.get? a.task = some r) (haccounted : r.Accounted)
    (hmoves : Moves client r a tokens r') :
    EndsOtherwise r' ↔ client.answerRecovers a = false := by
  have hkeeps (hends : ¬ EndsOtherwise r') (hrecovers : client.answerRecovers a = true) :
      EndsOtherwise r' ↔ client.answerRecovers a = false :=
    iff_of_false hends (by simp [hrecovers])
  have hanswer {task : Nat} {answer : Answer} (ha : a = .responded task answer) :
      client.answerRecovers a =
        match r.stage with
        | .refreshing _ => isExpired (refreshResult answer) || authAtWorst (refreshResult answer)
        | .connecting => authAtWorst (connectResult answer)
        | _ => true := by
    subst ha
    exact answerRecovers_responded hrequest
  have hleadsOn {task : Nat} {exchange : Exchange} {answer : Answer}
      (ha : a = .responded task answer) (hleads : LeadsToReauth r exchange answer) :
      client.answerRecovers a = true := by
    rw [hanswer ha]
    rcases hleads with ⟨_, hstage, -⟩ | ⟨_, hstage, -, hexpired⟩
    · rw [hstage]
    · rw [hstage]
      simp [hexpired]
  cases hmoves with
  | sent hstage | refreshSent hstage | connectSent hstage =>
    exact hkeeps (not_endsOtherwise_of_underWay rfl) rfl
  | notConnected hstage hheld =>
    refine hkeeps ?_ rfl
    rintro ⟨e', hreturned, -, hauth⟩
    cases hreturned
    unfold authHeaders at hheld
    split at hheld <;> cases hheld
    cases hauth
  | answered hstage hresult =>
    refine hkeeps ?_ (by rw [hanswer rfl, hstage])
    rintro ⟨e, -, hfirst, -⟩
    exact IGRequest.firstAnswer_note_send hresult hfirst
  | refresh hstage hresult hflag =>
    exact hkeeps (not_endsOtherwise_of_underWay rfl) (by rw [hanswer rfl, hstage])
  | reauthenticate hleads hflag htokens =>
    exact hkeeps (not_endsOtherwise_of_underWay rfl) (hleadsOn rfl hleads)
  | gaveUp hleads hflag =>
    refine hkeeps ?_ (hleadsOn rfl hleads)
    rintro ⟨e, hreturned, -, hauth⟩
    cases hreturned
    cases hauth
  | refreshed hstage hresult | connected hstage hresult =>
    refine hkeeps (not_endsOtherwise_of_underWay rfl) ?_
    rw [hanswer rfl, hstage]
    simp [hresult, authAtWorst]
  | refreshFailed hstage hresult hexpired =>
    simp only [IGRequest.Accounted, hstage] at haccounted
    rw [endsOtherwise_failure_iff haccounted rfl, hanswer rfl, hstage]
    simp [hresult, authAtWorst, isExpired, hexpired]
  | connectFailed hstage hresult =>
    simp only [IGRequest.Accounted, hstage] at haccounted
    rw [endsOtherwise_failure_iff haccounted rfl, hanswer rfl, hstage]
    simp [hresult, authAtWorst]

/-- A run ends its call otherwise exactly when an answer did not recover it. -/
theorem run_endsOtherwise_iff {client after : IGClient} {task : Nat} {call : IGCall}
    {as : List Action} {r : IGRequest} (hconnected : client.isConnected = true)
    (hfresh : task ∉ client.requests) (halone : ∀ a ∈ as, a.task = task)
    (hrun : run step client (.request task call :: as) = some after)
    (hrequest : after.requests.get? task = some r) :
    ¬ EndsOtherwise r ↔
      Along step (fun c a => c.answerRecovers a) client (.request task call :: as) := by
  obtain ⟨started, hstarted, hrest⟩ := run_cons_eq_some.mp hrun
  rw [along_cons hstarted]
  simp only [step, if_neg hfresh, Option.some.injEq] at hstarted
  subst hstarted
  let I (c : IGClient) : Prop := ∃ q, c.Undisturbed task q
  let P (c : IGClient) : Prop := ∀ q, c.requests.get? task = some q → ¬ EndsOtherwise q
  have hmoves : ∀ c a c', I c → a.task = task → step c a = some c' →
      ∃ q tokens q', c.Undisturbed task q ∧ Moves c q a tokens q' ∧
        c' = tokens.setRequest task q' := by
    rintro c a c' ⟨q, hund⟩ ha h
    rcases step_cases h with ⟨t, call', rfl, habsent, -⟩ | ⟨q', tokens, q'', hq, hmoves, rfl⟩
    · cases ha
      exact absurd (Dict.mem_of_get? hund.request) habsent
    · rw [ha] at hq ⊢
      cases hund.request.symm.trans hq
      exact ⟨q, tokens, q'', hund, hmoves, rfl⟩
  have hI : ∀ c a c', I c → a.task = task → step c a = some c' → I c' := by
    intro c a c' hc ha h
    obtain ⟨q, tokens, q', hund, hmove, rfl⟩ := hmoves c a c' hc ha h
    exact ⟨q', hund.moves hmove⟩
  have hP : ∀ c a c', I c → a.task = task → step c a = some c' →
      (P c' ↔ P c ∧ c.answerRecovers a) := by
    intro c a c' hc ha h
    obtain ⟨q, tokens, q', hund, hmove, rfl⟩ := hmoves c a c' hc ha h
    have hstep := endsOtherwise_moves_iff (by rw [ha]; exact hund.request) hund.accounted hmove
    have hafter := (hund.moves hmove).request
    have hbefore : P c := by
      intro p hp
      cases hund.request.symm.trans hp
      exact not_endsOtherwise_of_underWay hmove.underWay
    constructor
    · intro hc'
      exact ⟨hbefore, Bool.not_eq_false _ ▸ mt hstep.mpr (hc' q' hafter)⟩
    · rintro ⟨-, hrecovers⟩ p hp
      cases hafter.symm.trans hp
      exact fun hends => Bool.false_ne_true ((hstep.mp hends).symm.trans hrecovers)
  have hund := (undisturbed_request task call hconnected).1
  have halong : Along step (fun _ a => a.task = task) (client.request task call) as :=
    Along.of_mem halone
  have hiff := run_iff_along hI hP ⟨_, hund⟩ halong hrest
  have hstart : P (client.request task call) := by
    intro q hq
    cases hund.request.symm.trans hq
    exact not_endsOtherwise_of_underWay rfl
  rw [and_iff_right hstart] at hiff
  rw [and_iff_right (show client.answerRecovers (.request task call) from rfl), ← hiff]
  constructor
  · intro hends q hq
    cases hrequest.symm.trans hq
    exact hends
  · intro h
    exact h r hrequest

/-- A call is recovered as expected exactly when no recovery of it was answered by a failure that
ends it otherwise. -/
theorem recovered_iff {client after : IGClient} {task : Nat} {call : IGCall} {as : List Action}
    (hconnected : client.isConnected = true) (hfresh : task ∉ client.requests)
    (halone : ∀ a ∈ as, a.task = task)
    (hrun : run step client (.request task call :: as) = some after) :
    Recovered EndsInAuthError task as after ↔
      Along step (fun c a => c.answerRecovers a) client (.request task call :: as) := by
  obtain ⟨r, hrequest, hbounds, hsteps, hgoesOn, hends⟩ :=
    recoversTo_endsUnrecovered client task call as after hconnected hfresh halone hrun
  rw [← run_endsOtherwise_iff hconnected hfresh halone hrun hrequest]
  constructor
  · rintro ⟨r', hrequest', -, -, -, hends'⟩ ⟨e, hstage, hfirst, hauth⟩
    cases hrequest.symm.trans hrequest'
    have hraised := (hends' _ hstage).2
    simp only [EndsInAuthError, hfirst] at hraised
    obtain ⟨e', heq, hkind⟩ := hraised
    cases heq
    simp [RequestError.isAuth, hkind] at hauth
  · intro hnot
    refine ⟨r, hrequest, hbounds, hsteps, hgoesOn, fun outcome hstage => ?_⟩
    obtain ⟨hexpired, hunrecovered⟩ := hends outcome hstage
    refine ⟨hexpired, ?_⟩
    unfold EndsInAuthError
    unfold EndsUnrecovered at hunrecovered
    split at hunrecovered
    · exact hunrecovered
    · rename_i hfirst
      rw [hunrecovered] at hstage
      have hauth : r.unrecovered.isAuth = true := by
        by_contra hother
        exact hnot ⟨_, hstage, hfirst, by simpa using hother⟩
      cases hfailure : r.unrecovered with
      | ig e =>
        rw [hfailure] at hauth
        exact ⟨e, by rw [hunrecovered, hfailure], by simpa [RequestError.isAuth] using hauth⟩
      | transport name =>
        rw [hfailure] at hauth
        cases hauth

def sampleClient : IGClient := ⟨some "cst-1", some "token-1", .empty⟩

/-- A 401 that says that the session has expired. -/
def expiredResponse : IGResponse where
  statusCode := 401
  content := .json (.dict [("errorCode", .str "error.security.client-token-invalid")])

/-- The request and the refresh are answered session-expired, and the re-authentication goes
through. -/
def reauthenticatedRun : List Action :=
  [.acquired 0, .responded 0 (.ok expiredResponse), .acquired 0,
    .responded 0 (.ok expiredResponse), .acquired 0,
    .responded 0 (.ok ⟨200, .empty, some "cst-2", some "token-2"⟩), .acquired 0,
    .responded 0 (.ok ⟨200, .empty, none, none⟩)]

theorem recovered_reauthenticatedRun : ∃ after,
    run step sampleClient (.request 0 ⟨.get, "/accounts", 1, "general"⟩ :: reauthenticatedRun) =
      some after ∧ Recovered EndsInAuthError 0 reauthenticatedRun after := by
  obtain ⟨after, hrun⟩ : ∃ after, run step sampleClient
      (.request 0 ⟨.get, "/accounts", 1, "general"⟩ :: reauthenticatedRun) = some after :=
    ⟨_, rfl⟩
  have hrecovers : Along step (fun c a => c.answerRecovers a) sampleClient
      (.request 0 ⟨.get, "/accounts", 1, "general"⟩ :: reauthenticatedRun) := by
    decide +kernel
  exact ⟨after, hrun, (recovered_iff rfl (Dict.notMem_empty 0)
    (by simp [reauthenticatedRun, Action.task]) hrun).mpr hrecovers⟩

/-- The request is answered session-expired, and the refresh by a 503. -/
def unavailableRun : List Action :=
  [.acquired 0, .responded 0 (.ok expiredResponse), .acquired 0,
    .responded 0 (.ok ⟨503, .empty, none, none⟩)]

/-- The call ends in the `IGConnectionError` of the refresh. -/
theorem not_recoversTo_endsInAuthError : ¬ RecoversTo EndsInAuthError := by
  intro h
  have hrun : ∃ after r e, run step sampleClient (.request 0 ⟨.get, "/accounts", 1, "general"⟩ ::
      unavailableRun) = some after ∧ after.requests.get? 0 = some r ∧
        r.stage = .returned (.error (.ig e)) ∧ e.kind = .connection ∧ r.firstAnswer = none :=
    ⟨_, _, _, rfl, rfl, rfl, rfl, rfl⟩
  obtain ⟨after, r, e, hrun, hr, hstage, hkind, hfirst⟩ := hrun
  obtain ⟨r', hr', -, -, -, hends⟩ := h sampleClient 0 _ unavailableRun after rfl
    (Dict.notMem_empty 0) (by simp [unavailableRun, Action.task]) hrun
  cases hr.symm.trans hr'
  have hauth := (hends _ hstage).2
  simp only [EndsInAuthError, hfirst] at hauth
  obtain ⟨e', heq, hkind'⟩ := hauth
  cases heq
  rw [hkind] at hkind'
  cases hkind'

end IGClient

end Blive
