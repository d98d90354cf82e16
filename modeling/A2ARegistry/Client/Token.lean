import A2ARegistry.Auth.Middleware

namespace A2ARegistry.Client
open Base Auth Orchestration

/-- `TOKEN_REFRESH_MARGIN`, in seconds. -/
def tokenRefreshMargin : Int := 30

/-- `OAuthToken`. -/
structure OAuthToken where
  accessToken : String
  tokenType : String := "Bearer"
  expiresIn : Int := 3600
  scope : String := ""
  acquiredAt : Rat
deriving DecidableEq, Repr

/-- `OAuthToken.is_expired`. -/
def OAuthToken.isExpired (token : OAuthToken) (now : Rat) : Bool :=
  decide (token.acquiredAt + (token.expiresIn : Rat) - (tokenRefreshMargin : Rat) ≤ now)

/-- What the constructor keeps for the tokens. -/
structure A2AClient where
  clientId : String
  clientSecret : String
  authEnabled : Bool
  scope : String
deriving DecidableEq, Repr

/-- `A2AClient.__init__`, as far as its tokens go. -/
def A2AClient.create (clientId clientSecret : String) (authEnabled : Option Bool := none)
    (scope : String := "task:read task:write agent:read agent:register") : A2AClient where
  clientId := clientId
  clientSecret := clientSecret
  authEnabled := authEnabled.getD (clientId != "" && clientSecret != "")
  scope := scope

namespace A2AClient

variable (client : A2AClient)

/-- The form that it asks for a token with. -/
def tokenForm : TokenForm where
  grantType := "client_credentials"
  clientId := client.clientId
  clientSecret := client.clientSecret
  scope := client.scope

/-- The token it makes of the body of an answer. -/
def readToken (now : Rat) (data : List (String × Json)) : Option OAuthToken :=
  match Json.field data "access_token", Json.get data "token_type" (.str "Bearer"),
      Json.get data "expires_in" (.int 3600), Json.get data "scope" (.str client.scope) with
  | .str accessToken, .str tokenType, .int expiresIn, .str scope =>
    some ⟨accessToken, tokenType, expiresIn, scope, now⟩
  | _, _, _, _ => none

/-- The headers of `_async_auth_header`, as the server reads them. -/
def request (path accessToken : String) : HttpRequest :=
  if client.authEnabled then { path := path, authorization := "Bearer " ++ accessToken } else { path := path }

end A2AClient

/-- What a method makes of an answer: `async_heartbeat` and `_ws_connect_single` drop the token on some, the other
methods never do. The token goes to a WebSocket in its query, to the rest in a header. -/
inductive Method
  | http
  | heartbeat
  | webSocket
deriving DecidableEq, Repr

/-- `status in (401, 403)`, where the method asks that. -/
def Method.drops (method : Method) (status : Nat) : Bool := method != .http && (status == 401 || status == 403)

/-- What a call of a method is at: it has not begun or is over, it has asked for a token, the answer to that is on its
way, its request is, or the answer to its request. `issuedAt` and `since` are kept beside it: when the server answered,
and when the client had the token. -/
inductive Call
  | idle
  | asking (method : Method)
  | answered (method : Method) (issuedAt : Rat) (answer : Except Response TokenGrant)
  | requesting (method : Method) (accessToken : String) (since : Rat)
  | waiting (method : Method)

/-- A client and the server it works with: the server's store, the client's cached token, and its calls, any number of
which are under way at once. -/
structure Exchange where
  store : AuthStore
  token : Option OAuthToken
  calls : Nat → Call

/-- What happens next: a call begins, the server answers its token request, the answer arrives, its request arrives,
that is answered, it ends with an error on the way, or the server is asked something else. -/
inductive ClientEvent
  | call (id : Nat) (method : Method) (now : Rat)
  | serve (id : Nat) (draw : TokenDraw)
  | answer (id : Nat) (now : Rat)
  | arrive (id : Nat) (now : Rat) (path : String)
  | respond (id : Nat) (now : Rat) (status : Nat)
  | lose (id : Nat)
  | other (event : AuthEvent)

namespace Exchange

def start (store : AuthStore) : Exchange := ⟨store, none, fun _ => .idle⟩

def put (s : Exchange) (id : Nat) (call : Call) : Exchange := { s with calls := Function.update s.calls id call }

/-- `self._token = None`. -/
def dropToken (s : Exchange) : Exchange := { s with token := none }

variable (server : AuthServer) (client : A2AClient) (s : Exchange)

/-- `_async_ensure_token` up to its request, or to its end where there is none. -/
def ensureToken (method : Method) (now : Rat) : Call :=
  if client.authEnabled then
    match s.token with
    | some token => if token.isExpired now then .asking method else .requesting method token.accessToken now
    | none => .asking method
  else .requesting method "" now

/-- `_async_ensure_token` from the answer to its request on. An answer that is an error raises. -/
def gotToken (id : Nat) (method : Method) (now : Rat) : Except Response TokenGrant → Exchange
  | .error _ => s.put id .idle
  | .ok grant =>
    match client.readToken now grant.body with
    | some token => { s.put id (.requesting method token.accessToken now) with token := some token }
    | none => s.put id .idle

/-- A call gets the answer to its request. A heartbeat is tried once more, which then drops nothing. -/
def gotAnswer (id : Nat) (method : Method) (now : Rat) (status : Nat) : Exchange :=
  if method.drops status then
    match method with
    | .heartbeat => s.dropToken.put id (s.dropToken.ensureToken client .http now)
    | _ => s.dropToken.put id .idle
  else s.put id .idle

def step : ClientEvent → Exchange
  | .call id method now =>
    match s.calls id with
    | .idle => s.put id (s.ensureToken client method now)
    | _ => s
  | .serve id draw =>
    match s.calls id with
    | .asking method =>
      let (answer, store) := handleToken server s.store draw (some client.tokenForm)
      { s.put id (.answered method draw.issuedAt answer) with store := store }
    | _ => s
  | .answer id now =>
    match s.calls id with
    | .answered method _ answer => s.gotToken client id method now answer
    | _ => s
  | .arrive id _ _ =>
    match s.calls id with
    | .requesting method _ _ => s.put id (.waiting method)
    | _ => s
  | .respond id now status =>
    match s.calls id with
    | .waiting method => s.gotAnswer client id method now status
    | _ => s
  | .lose id => s.put id .idle
  | .other event => { s with store := Auth.step server s.store event }

end Exchange

end A2ARegistry.Client
