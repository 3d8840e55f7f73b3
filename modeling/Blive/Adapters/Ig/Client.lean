import Blive.Misc.Dict
import Blive.Misc.Json

/-!
# The client of IG

`adapters/ig/client.py`: requests under a session that the server may expire. A request is a
coroutine: it waits for the rate limiter and for the answer of the server, and between the two
it reads the tokens the client holds at that moment. All requests of a client share these
tokens; each has its own two flags, one for the refresh and one for the re-authentication it
may try. `exchanges` is history: what a request sent and was answered.
-/

namespace Blive

/-! ## Exceptions -/

/-- The subclasses of `IGError`. -/
inductive IGErrorKind where
  | auth | sessionExpired | rateLimited | orderRejected | requestInvalid | connection
  deriving DecidableEq, Repr

/-- An `IGError`. The text is the one of the `raise` statement up to its first interpolated
value. -/
structure IGError where
  kind : IGErrorKind
  message : String
  errorCode : Option String := none
  httpStatus : Option Nat := none
  deriving DecidableEq, Repr

/-- What a request can raise: an `IGError`, or an exception of the HTTP library. -/
inductive RequestError where
  | ig (error : IGError)
  | transport (name : String)
  deriving DecidableEq, Repr

/-- `_AUTH_ERROR_CODES` -/
def authErrorCodes : List String :=
  ["error.security.invalid-details", "error.security.api-key-revoked",
    "error.public-api.failure.kyc.required"]

/-- `_SESSION_EXPIRED_CODES` -/
def sessionExpiredCodes : List String :=
  ["error.security.client-token-invalid", "error.public-api.client-token-invalid"]

/-- `_RATE_LIMIT_CODES` -/
def rateLimitCodes : List String :=
  ["error.public-api.exceeded-api-key-allowance", "error.public-api.exceeded-account-allowance",
    "error.public-api.exceeded-trading-allowance",
    "error.public-api.exceeded-historical-data-allowance"]

/-- `_REJECTED_CODES` -/
def rejectedCodes : List String := ["error.confirms.deal-rejected"]

/-- `error_code in codes` -/
def isCodeIn (codes : List String) (errorCode : Option String) : Bool := errorCode.any (· ∈ codes)

/-- `_classify_error` -/
def classifyError (errorCode : Option String) (httpStatus : Nat) : IGErrorKind :=
  if isCodeIn authErrorCodes errorCode then .auth
  else if isCodeIn sessionExpiredCodes errorCode then .sessionExpired
  else if isCodeIn rateLimitCodes errorCode then .rateLimited
  else if isCodeIn rejectedCodes errorCode then .orderRejected
  else if 500 ≤ httpStatus then .connection
  else .requestInvalid

/-! ## Responses -/

/-- The body of a response: none, a JSON value, or a text that is no JSON. -/
inductive Content where
  | empty
  | json (payload : Json)
  | text

structure IGResponse where
  statusCode : Nat
  content : Content
  cst : Option String := none
  securityToken : Option String := none

/-- `errorCode` of a structured error. -/
def IGResponse.errorCode (response : IGResponse) : Option String :=
  match response.content with
  | .json (.dict payload) => (Json.field payload "errorCode").str?
  | _ => none

/-- The exception class of an error response. -/
def IGResponse.errorKind (response : IGResponse) : IGErrorKind :=
  classifyError response.errorCode response.statusCode

/-- `_handle_response` -/
def handleResponse (response : IGResponse) (raiseOnSessionExpired : Bool) : Except IGError Json :=
  if 200 ≤ response.statusCode ∧ response.statusCode < 300 then
    match response.content with
    | .json payload => .ok payload
    | .empty => .ok (.dict [])
    | .text =>
        .error {
          kind := .requestInvalid
          message := "IG response was not JSON: "
          httpStatus := response.statusCode }
  else if response.errorKind = .sessionExpired ∧ raiseOnSessionExpired = false then
    .error {
      kind := .auth
      message := "IG auth failed during connection step: HTTP "
      errorCode := response.errorCode
      httpStatus := response.statusCode }
  else
    .error {
      kind := response.errorKind
      message := "IG request returned HTTP "
      errorCode := response.errorCode
      httpStatus := response.statusCode }

/-- The pair of tokens a session is known by. -/
structure SessionTokens where
  cst : String
  securityToken : String
  deriving DecidableEq, Repr

/-- The headers of a response, when both are there and neither is empty. -/
def IGResponse.tokens? (response : IGResponse) : Option SessionTokens :=
  match response.cst, response.securityToken with
  | some cst, some securityToken =>
      if cst = "" ∨ securityToken = "" then none else some ⟨cst, securityToken⟩
  | _, _ => none

/-- What `_refresh_session_or_reauth` does with the response: the tokens of the new session. -/
def refreshedTokens (response : IGResponse) : Except IGError SessionTokens :=
  match handleResponse response true with
  | .error e => .error e
  | .ok _ =>
      match response.tokens? with
      | some tokens => .ok tokens
      | none =>
          .error {
            kind := .sessionExpired
            message :=
              "IG /session/refresh-token returned 200 but missing CST / X-SECURITY-TOKEN"
            httpStatus := response.statusCode }

/-- What `connect` raises once the client has kept the headers of the response, if it does. -/
def connectedTokens (response : IGResponse) : Except IGError SessionTokens :=
  match handleResponse response false with
  | .error e => .error e
  | .ok _ =>
      match response.tokens? with
      | some tokens => .ok tokens
      | none =>
          .error {
            kind := .auth
            message := "IG /session returned 200 but missing CST / X-SECURITY-TOKEN headers"
            httpStatus := response.statusCode }

/-! ## Requests -/

inductive HttpMethod where
  | get | post | put | delete
  deriving DecidableEq, Repr

/-- The arguments of `_request` that the client itself reads. -/
structure IGCall where
  method : HttpMethod
  path : String
  version : Nat := 1
  bucket : String := "general"
  deriving DecidableEq, Repr

/-- A response, or the exception of the HTTP library. -/
abbrev Answer := Except String IGResponse

/-- One exchange with the server on behalf of a request: the request itself, a
`POST /session/refresh-token` or a `POST /session`. -/
inductive Exchange where
  | send (headers : SessionTokens) (answer : Answer)
  | refresh (headers : SessionTokens) (answer : Answer)
  | connect (answer : Answer)

/-- The `await` a request stands at: the rate limiter or the server, for the request itself,
for the refresh and for the re-authentication. -/
inductive RequestStage where
  | acquiring
  | sending (headers : SessionTokens)
  | refreshAcquiring
  | refreshing (headers : SessionTokens)
  | connectAcquiring
  | connecting
  | returned (outcome : Except RequestError Json)

structure IGRequest where
  call : IGCall
  refreshAttempted : Bool := false
  reauthAttempted : Bool := false
  stage : RequestStage := .acquiring
  exchanges : List Exchange := []

namespace IGRequest

def returned (request : IGRequest) : Bool :=
  match request.stage with
  | .returned _ => true
  | _ => false

/-- The request ends with an exception. -/
def raise (request : IGRequest) (e : RequestError) : IGRequest :=
  { request with stage := .returned (.error e) }

/-- The exchange that has just ended. -/
def note (request : IGRequest) (exchange : Exchange) : IGRequest :=
  { request with exchanges := request.exchanges ++ [exchange] }

end IGRequest

structure IGClient where
  cst : Option String
  securityToken : Option String
  /-- The requests made so far, by task. -/
  requests : Dict Nat IGRequest

/-- `notReestablished` is what the loop of `_dispatch_with_refresh` raises at its end. -/
def notReestablished : IGError :=
  ⟨.auth, "IG session could not be re-established after refresh + full re-auth; last call: ",
    none, none⟩

namespace IGClient

/-- `is_connected` -/
def isConnected (client : IGClient) : Bool := client.cst.isSome && client.securityToken.isSome

/-- `_auth_headers` -/
def authHeaders (client : IGClient) : Except IGError SessionTokens :=
  match client.cst, client.securityToken with
  | some cst, some securityToken => .ok ⟨cst, securityToken⟩
  | _, _ =>
      .error {
        kind := .auth
        message := "IGClient is not connected; call connect() first" }

def setRequest (client : IGClient) (task : Nat) (request : IGRequest) : IGClient :=
  { client with requests := client.requests.set task request }

def setTokens (client : IGClient) (tokens : SessionTokens) : IGClient :=
  { client with cst := some tokens.cst, securityToken := some tokens.securityToken }

/-- `_request` up to its first `await`. -/
def request (client : IGClient) (task : Nat) (call : IGCall) : IGClient :=
  if client.isConnected then client.setRequest task { call }
  else
    client.setRequest task (IGRequest.raise { call } (.ig {
      kind := .auth
      message := "IGClient." }))

/-- The rate limiter lets a request go on to the server. -/
def acquired (client : IGClient) (task : Nat) (request : IGRequest) : Option IGClient :=
  match request.stage with
  | .acquiring =>
      match client.authHeaders with
      | .ok headers => some (client.setRequest task { request with stage := .sending headers })
      | .error e => some (client.setRequest task (request.raise (.ig e)))
  | .refreshAcquiring =>
      match client.authHeaders with
      | .ok headers => some (client.setRequest task { request with stage := .refreshing headers })
      | .error e => some (client.setRequest task (request.raise (.ig e)))
  | .connectAcquiring => some (client.setRequest task { request with stage := .connecting })
  | _ => none

/-- The loop after `IGSessionExpired`, when the refresh was tried before or is of no use:
the client forgets its tokens and authenticates anew, once. -/
def reauthenticate (client : IGClient) (task : Nat) (request : IGRequest) : IGClient :=
  if request.reauthAttempted then client.setRequest task (request.raise (.ig notReestablished))
  else
    { client with cst := none, securityToken := none }.setRequest task
      { request with reauthAttempted := true, stage := .connectAcquiring }

/-- The loop after `IGSessionExpired` from the request itself. -/
def recover (client : IGClient) (task : Nat) (request : IGRequest) : IGClient :=
  if request.refreshAttempted then client.reauthenticate task request
  else
    client.setRequest task { request with refreshAttempted := true, stage := .refreshAcquiring }

/-- `_send_once` once the server has answered. -/
def sendAnswered (client : IGClient) (task : Nat) (request : IGRequest) (answer : Answer) :
    IGClient :=
  match answer with
  | .error name => client.setRequest task (request.raise (.transport name))
  | .ok response =>
      match handleResponse response true with
      | .ok payload => client.setRequest task { request with stage := .returned (.ok payload) }
      | .error e =>
          if e.kind = .sessionExpired then client.recover task request
          else client.setRequest task (request.raise (.ig e))

/-- `_refresh_session_or_reauth` once the server has answered. -/
def refreshAnswered (client : IGClient) (task : Nat) (request : IGRequest) (answer : Answer) :
    IGClient :=
  match answer with
  | .error name => client.setRequest task (request.raise (.transport name))
  | .ok response =>
      match refreshedTokens response with
      | .ok tokens => (client.setTokens tokens).setRequest task { request with stage := .acquiring }
      | .error e =>
          if e.kind = .sessionExpired then client.reauthenticate task request
          else client.setRequest task (request.raise (.ig e))

/-- The headers of a response to `connect` are kept even when one of them is missing. -/
def keepHeaders (client : IGClient) (response : IGResponse) : IGClient :=
  { client with cst := response.cst, securityToken := response.securityToken }

/-- `connect` once the server has answered. -/
def connectAnswered (client : IGClient) (task : Nat) (request : IGRequest) (answer : Answer) :
    IGClient :=
  match answer with
  | .error name => client.setRequest task (request.raise (.transport name))
  | .ok response =>
      match handleResponse response false with
      | .error e => client.setRequest task (request.raise (.ig e))
      | .ok _ =>
          match connectedTokens response with
          | .ok _ =>
              (client.keepHeaders response).setRequest task { request with stage := .acquiring }
          | .error e => (client.keepHeaders response).setRequest task (request.raise (.ig e))

/-- The server answers what a request waits for. -/
def responded (client : IGClient) (task : Nat) (request : IGRequest) (answer : Answer) :
    Option IGClient :=
  match request.stage with
  | .sending headers =>
      some (client.sendAnswered task (request.note (.send headers answer)) answer)
  | .refreshing headers =>
      some (client.refreshAnswered task (request.note (.refresh headers answer)) answer)
  | .connecting => some (client.connectAnswered task (request.note (.connect answer)) answer)
  | _ => none

/-- A call of `get`, `post`, `put` or `delete` starts, the rate limiter lets a request pass, or
the server answers one. -/
inductive Action where
  | request (task : Nat) (call : IGCall)
  | acquired (task : Nat)
  | responded (task : Nat) (answer : Answer)

/-- The task an action is about. -/
def Action.task : Action → Nat
  | .request task _ | .acquired task | .responded task _ => task

def step (client : IGClient) : Action → Option IGClient
  | .request task call => if task ∈ client.requests then none else some (client.request task call)
  | .acquired task => (client.requests.get? task).bind (client.acquired task)
  | .responded task answer =>
      (client.requests.get? task).bind fun request => client.responded task request answer

end IGClient

end Blive
