import A2ARegistry.Auth.Handlers
import A2ARegistry.Base.Run

namespace A2ARegistry.Auth
open Base Orchestration

/-- What the middleware reads of a request; an absent header or cookie is empty. -/
structure HttpRequest where
  path : String
  authorization : String := ""
  sessionCookie : String := ""
deriving DecidableEq, Repr

/-- What the middleware injects into a request. There is no tenant when authentication is off. -/
structure Identity where
  agentId : Json
  tokenScopes : String
  payload : Payload
  tenant : Option Json

/-- What becomes of a request: it is handed on as it is, or with an identity, or it is answered. -/
inductive Verdict
  | passed
  | identified (identity : Identity)
  | refused (response : Response)

/-- `path.startswith(...)`. -/
def startsWith (path start : String) : Bool := start.toList.isPrefixOf path.toList

/-- The paths that need no authentication. -/
def isPublic (path : String) : Bool :=
  ["/auth/", "/.well-known/", "/assets/", "/v2/ws/"].any (startsWith path) ||
    ["/health", "/", "/metrics", "/login", "/api/login", "/api/logout", "/api/me", "/favicon.ico",
      "/static/login.html"].contains path ||
    "/ws".toList.isSuffixOf path.toList

/-- The token of an `Authorization` header. -/
def bearerToken (authorization : String) : Option String :=
  if startsWith authorization "Bearer " then some (String.ofList (authorization.toList.drop 7)) else none

def unauthorized : Response where
  status := 401
  body := [("error", .str "unauthorized"), ("detail", .str "Missing or invalid Authorization header")]
  headers := [("WWW-Authenticate", "Bearer realm=\"simple-a2a-registry\"")]

def invalidToken : Response where
  status := 401
  body := [("error", .str "invalid_token"), ("detail", .str "Token expired or invalid")]
  headers := [("WWW-Authenticate", "Bearer realm=\"simple-a2a-registry\", error=\"invalid_token\"")]

/-- The identity of a browser session. A viewer has none. -/
def sessionIdentity (c : Crypto) (session : Payload) : Option Identity :=
  let identity (scope : String) : Identity := {
    agentId := .str ("user:" ++ Json.strOf c.toPython (Json.get session "sub" (.str "")))
    tokenScopes := scope
    payload := session
    tenant := some (.str "") }
  match Json.get session "role" (.str "viewer") with
  | .str "admin" =>
    some (identity "registry:admin agent:admin agent:register agent:read task:write task:read")
  | .str "operator" => some (identity "agent:register agent:read task:write task:read")
  | _ => none

/-- The identity of a token: a scope of the registry's administration takes the tenant away. It is
`none` when the scope is no text, and splitting it raises. -/
def tokenIdentity (payload : Payload) : Option Identity :=
  match Json.get payload "scope" (.str "") with
  | .str scope => some {
      agentId := Json.get payload "sub" (.str "")
      tokenScopes := scope
      payload := payload
      tenant := some (if (words scope).contains "registry:admin" then .str ""
        else Json.get payload "tenant" (.str "")) }
  | _ => none

/-- `auth_middleware`. -/
def authMiddleware (server : AuthServer) (now : Rat) (request : HttpRequest) : Verdict :=
  if !server.enabled then .identified ⟨.str "anonymous", joinBy " " scopes, [], none⟩
  else if isPublic request.path then .passed
  else match bearerToken request.authorization with
    | some token =>
      match verifyToken server.crypto server.key now token with
      | none => .refused invalidToken
      | some payload => match tokenIdentity payload with
        | none => .refused serverError
        | some identity => .identified identity
    | none =>
      match server.verifySession with
      | none => .refused unauthorized
      | some verifySession =>
        if request.sessionCookie = "" then .refused unauthorized
        else match (verifySession now request.sessionCookie).bind (sessionIdentity server.crypto) with
          | none => .refused unauthorized
          | some identity => .identified identity

/-- What happens to the store: a client or an agent is registered, a token is asked for, a code is
created, a token or all those of a client are revoked, a client is deleted, or a request passes the
middleware. -/
inductive AuthEvent
  | register (draw : ClientDraw) (body : Option RegisterBody)
  | registerAgent (draw : ClientDraw) (card : AgentCard)
  | token (draw : TokenDraw) (form : Option TokenForm)
  | createAuthCode (row : AuthCode)
  | revokeToken (jti : String)
  | revokeClientTokens (clientId : String)
  | deleteClient (clientId : String)
  | request (now : Rat) (request : HttpRequest)

/-- The store after an event. -/
def step (server : AuthServer) (store : AuthStore) : AuthEvent → AuthStore
  | .register draw body => (handleRegister server.crypto store draw body).2
  | .registerAgent draw card => (handleRegisterAgent server.crypto store draw card).2
  | .token draw form => (handleToken server store draw form).2
  | .createAuthCode row => (createAuthCode store row).getD store
  | .revokeToken jti => revokeToken store jti
  | .revokeClientTokens clientId => revokeClientTokens store clientId
  | .deleteClient clientId => deleteClient store clientId
  | .request _ _ => store

/-- The token an event issues, if it issues one. -/
def issued (server : AuthServer) (store : AuthStore) : AuthEvent → Option TokenGrant
  | .token draw form => (handleToken server store draw form).1.toOption
  | _ => none

/-- The client an event registers, if it registers one. -/
def registered (server : AuthServer) (store : AuthStore) : AuthEvent → Option Credentials
  | .register draw body => (handleRegister server.crypto store draw body).1.toOption
  | .registerAgent draw card => ((handleRegisterAgent server.crypto store draw card).1.toOption).join
  | _ => none

end A2ARegistry.Auth
