import A2ARegistry.Auth.Store
import A2ARegistry.Orchestration.Routes

namespace A2ARegistry.Auth
open Base Orchestration

/-- The part of the server that issues and checks tokens. `verifySession` is
`SessionManager.verify_session`, when there is a session manager. -/
structure AuthServer where
  crypto : Crypto
  enabled : Bool
  keyPair : String × String
  verifySession : Option (Rat → String → Option Payload) := none

/-- The key `create_app` sets up: a generated pair, or the development secret when
authentication is off. -/
def AuthServer.key (server : AuthServer) : SigningKey :=
  if server.enabled then ⟨server.keyPair.1, server.keyPair.2, "RS256"⟩
  else ⟨"dev-secret-not-for-production", "dev-secret-not-for-production", "HS256"⟩

/-- A client that was registered, as its creator is told. -/
structure Credentials where
  clientId : String
  clientSecret : String
  allowedScopes : List String
  tenant : String
deriving DecidableEq, Repr

section Register

variable (c : Crypto)

/-- The check of `handle_register` on the scopes it is given. A list or an object is not
hashable, so looking it up raises. -/
def validateScopes : List Json → Except Response (List String)
  | [] => .ok []
  | .str s :: rest =>
    if s ∈ scopes then (validateScopes rest).map (s :: ·)
    else .error (jsonError 400 "invalid_scope" s!"Unknown scope: {s}")
  | .arr _ :: _ | .obj _ :: _ => .error serverError
  | v :: _ => .error (jsonError 400 "invalid_scope" s!"Unknown scope: {Json.strOf c.toPython v}")

/-- The scopes a body asks for, once validated. None at all is an empty list. -/
def requestedScopes : Json → Except Response (List String)
  | .null => .ok []
  | v => match v.iterate with
    | none => .error serverError
    | some items => validateScopes c items

/-- The decoded body of a client registration. -/
structure RegisterBody where
  agentCardId : String := ""
  allowedScopes : Json := .null
  description : String := ""
  tenant : String := ""

/-- `POST /auth/register`; the body is `none` when it is not JSON. -/
def handleRegister (store : AuthStore) (draw : ClientDraw) (body : Option RegisterBody) :
    Except Response Credentials × AuthStore :=
  match body with
  | none => (.error (jsonError 400 "invalid_json" "Invalid JSON body"), store)
  | some body =>
    match requestedScopes c body.allowedScopes with
    | .error response => (.error response, store)
    | .ok allowed =>
      let row := clientRow c draw body.agentCardId allowed body.description body.tenant
      match registerClient store row with
      | none => (.error serverError, store)
      | some store' => (.ok ⟨row.clientId, draw.secret, if allowed.isEmpty then scopes else allowed,
          body.tenant⟩, store')

/-- The scopes of one flow; `none` when `.keys()` raises. What is no object is skipped. -/
def flowScopes : Json → Option (List String)
  | .obj flow => match Json.get flow "scopes" (.obj []) with
    | .obj named => some (named.map Prod.fst)
    | _ => none
  | _ => some []

/-- `scopesOf` of every value of an object, in order. -/
def collectScopes (scopesOf : Json → Option (List String)) : List (String × Json) → Option (List String)
  | [] => some []
  | (_, v) :: fields => do
    let first ← scopesOf v
    let rest ← collectScopes scopesOf fields
    return first ++ rest

/-- The scopes of the flows of one security scheme, if it is an OAuth scheme. -/
def schemeScopes : Json → Option (List String)
  | .obj scheme =>
    if (Json.field scheme "scheme_type").isWord ["oauth2"] then
      match Json.get scheme "oauth2" (.obj []) with
      | .obj oauth2 => match Json.get oauth2 "flows" (.obj []) with
        | .obj flows => collectScopes flowScopes flows
        | _ => none
      | _ => none
    else some []
  | _ => some []

/-- The scopes of a card: a set, which is listed in some order. -/
def cardScopes (securitySchemes : List (String × Json)) : Option (List String) :=
  (collectScopes schemeScopes securitySchemes).map List.dedup

/-- What `POST /v1/agents` registers an agent with: the id it draws, the name and tenant it
settles on, and the `security_schemes` of the card. -/
structure AgentCard where
  agentId : String
  name : String
  tenant : String
  securitySchemes : List (String × Json)

/-- The part of `POST /v1/agents` that creates a client, for a card that passed the checks and is
registered. A card without schemes gets none. -/
def handleRegisterAgent (store : AuthStore) (draw : ClientDraw) (card : AgentCard) :
    Except Response (Option Credentials) × AuthStore :=
  if card.securitySchemes.isEmpty then (.ok none, store)
  else match cardScopes card.securitySchemes with
    | none => (.error serverError, store)
    | some allowed =>
      let row := clientRow c draw card.agentId allowed
        s!"Auto-created client for agent '{card.name}'" card.tenant
      match registerClient store row with
      | none => (.error serverError, store)
      | some store' => (.ok (some ⟨row.clientId, draw.secret, row.scopeList, row.tenantId⟩), store')

end Register

/-- The form of a token request; an absent field is empty. -/
structure TokenForm where
  grantType : String
  clientId : String := ""
  clientSecret : String := ""
  scope : String := ""
  code : String := ""
  codeVerifier : String := ""
  redirectUri : String := ""
deriving DecidableEq, Repr

/-- What a token request draws: the clock when a code is consumed and when the token is created, and
the `jti`. -/
structure TokenDraw where
  now : Rat
  issuedAt : Rat
  jti : String
deriving DecidableEq, Repr

/-- A token that was issued, with its claims. -/
structure TokenGrant where
  accessToken : String
  payload : Payload
  scope : String
  tenant : String

/-- The body of the answer. -/
def TokenGrant.body (grant : TokenGrant) : List (String × Json) :=
  [("access_token", .str grant.accessToken), ("token_type", .str "Bearer"),
    ("expires_in", .int tokenExpirySeconds), ("scope", .str grant.scope), ("tenant", .str grant.tenant)]

section Token

variable (server : AuthServer) (store : AuthStore) (draw : TokenDraw)

/-- The claims of the token that is issued to a client. -/
def grantPayload (clientId scope tenant : String) : Payload :=
  TokenArgs.payload { sub := clientId, scope := scope, tenant := tenant } draw.issuedAt draw.jti

/-- The end of both grants: a token for the client is created and recorded. Decoding it without a
verification gives its claims back. -/
def issueToken (clientId scope : String) : TokenGrant × AuthStore :=
  let tenant := match getClient store clientId with
    | some client => client.tenantId
    | none => ""
  let payload := grantPayload draw clientId scope tenant
  (⟨encodeToken server.crypto server.key payload, payload, scope, tenant⟩, recordToken store payload)

/-- The scope of a token under client credentials: the one asked for, or all the client has. -/
def grantedScope (clientId scope : String) : String :=
  match getClient store clientId with
  | some client => if scope = "" then joinBy " " client.scopeList else scope
  | none => scope

/-- `_handle_client_credentials`. -/
def handleClientCredentials (clientId : String) (form : TokenForm) :
    Except Response TokenGrant × AuthStore :=
  if form.scope ≠ "" && !clientAllowedScopes store clientId form.scope then
    (.error (jsonError 400 "invalid_scope" "Requested scope(s) not allowed for this client"), store)
  else
    let (grant, store') := issueToken server store draw clientId (grantedScope store clientId form.scope)
    (.ok grant, store')

/-- `_handle_authorization_code`. -/
def handleAuthorizationCode (clientId : String) (form : TokenForm) :
    Except Response TokenGrant × AuthStore :=
  if form.code = "" ∨ form.codeVerifier = "" then
    (.error (jsonError 400 "invalid_request"
      "authorization_code grant requires 'code' and 'code_verifier'"), store)
  else match consumeAuthCode server.crypto store draw.now form.code form.codeVerifier with
    | none => (.error serverError, store)
    | some (none, store') =>
      (.error (jsonError 400 "invalid_grant" "Invalid or expired authorization code"), store')
    | some (some authData, store') =>
      if authData.redirectUri ≠ form.redirectUri then
        (.error (jsonError 400 "invalid_grant" "redirect_uri mismatch"), store')
      else
        let (grant, store'') := issueToken server store' draw clientId authData.scope
        (.ok grant, store'')

/-- `POST /auth/token`; the form is `none` when it cannot be parsed. -/
def handleToken (form : Option TokenForm) : Except Response TokenGrant × AuthStore :=
  match form with
  | none => (.error (jsonError 400 "invalid_request" "Could not parse form data"), store)
  | some form =>
    if form.grantType ∉ ["client_credentials", "authorization_code"] then
      (.error (jsonError 400 "unsupported_grant_type" (s!"Grant type '{form.grantType}' not supported. " ++
        "Supported: client_credentials, authorization_code")), store)
    else match verifyClientSecret server.crypto store form.clientId form.clientSecret with
      | none => (.error serverError, store)
      | some false => (.error (jsonError 401 "invalid_client" "Invalid client credentials"), store)
      | some true =>
        if form.grantType = "client_credentials" then
          handleClientCredentials server store draw form.clientId form
        else handleAuthorizationCode server store draw form.clientId form

end Token

end A2ARegistry.Auth
