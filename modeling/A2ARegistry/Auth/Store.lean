import A2ARegistry.Auth.Jwt
import A2ARegistry.Base.Table

namespace A2ARegistry.Auth
open Base

/-- The keys of `SCOPES`. -/
def scopes : List String :=
  ["task:read", "task:write", "agent:read", "agent:register", "agent:admin", "registry:admin"]

/-- `AUTH_CODE_EXPIRY_SECONDS`. -/
def authCodeExpirySeconds : Rat := 600

/-- A row of `oauth_clients`. -/
structure ClientRow where
  clientId : String
  clientSecretHash : String
  allowedScopes : String
  agentCardId : String
  createdAt : Rat
  description : String
  tenantId : String
deriving DecidableEq, Repr

/-- A row of `oauth_tokens`. -/
structure TokenRow where
  jti : String
  clientId : String
  scope : String
  expiresAt : Int
deriving DecidableEq, Repr

/-- A row of `auth_codes`. -/
structure AuthCode where
  code : String
  clientId : String
  codeChallenge : String
  codeChallengeMethod : String
  redirectUri : String
  scope : String
  createdAt : Rat
deriving DecidableEq, Repr

instance : Keyed String ClientRow := ⟨ClientRow.clientId⟩
instance : Keyed String TokenRow := ⟨TokenRow.jti⟩
instance : Keyed String AuthCode := ⟨AuthCode.code⟩

@[simp] theorem key_client (r : ClientRow) : key r = r.clientId := rfl
@[simp] theorem key_code (r : AuthCode) : key r = r.code := rfl

/-- The tables of the OAuth part of the store. -/
structure AuthStore where
  clients : Table ClientRow
  tokens : Table TokenRow
  codes : Table AuthCode

/-- The schema as created, with no rows. -/
def AuthStore.empty : AuthStore := ⟨Table.empty, Table.empty, Table.empty⟩

/-- The `allowed_scopes` of a client record. -/
def ClientRow.scopeList (row : ClientRow) : List String :=
  if row.allowedScopes = "" then [] else splitAt row.allowedScopes ','

/-- What `register_client` draws: the hex digits of the id, and the secret. -/
structure ClientDraw where
  hex : String
  secret : String
  now : Rat

/-- The row `register_client` inserts. -/
def clientRow (c : Crypto) (draw : ClientDraw) (agentCardId : String) (allowedScopes : List String)
    (description tenant : String) : ClientRow where
  clientId := "client-" ++ draw.hex
  clientSecretHash := c.sha256 draw.secret
  allowedScopes := joinBy "," (if allowedScopes.isEmpty then scopes else allowedScopes)
  agentCardId := agentCardId
  createdAt := draw.now
  description := description
  tenantId := tenant

/-- `register_client`; `none` when the insert raises. -/
def registerClient (store : AuthStore) (row : ClientRow) : Option AuthStore :=
  (store.clients.insert? row).map (fun clients => { store with clients := clients })

/-- `delete_client`. -/
def deleteClient (store : AuthStore) (clientId : String) : AuthStore :=
  { store with
    clients := store.clients.delete (fun r => r.clientId == clientId)
    tokens := store.tokens.delete (fun r => r.clientId == clientId) }

/-- `get_client`. -/
def getClient (store : AuthStore) (clientId : String) : Option ClientRow := store.clients.find? clientId

/-- `secrets.compare_digest` on texts; `none` when one of them is not ASCII and it raises. -/
def compareDigest (a b : String) : Option Bool :=
  if (a.toList ++ b.toList).all (fun c => c.toNat < 128) then some (a == b) else none

/-- `verify_client_secret`; `none` when it raises. -/
def verifyClientSecret (c : Crypto) (store : AuthStore) (clientId secret : String) : Option Bool :=
  match getClient store clientId with
  | none => some false
  | some row => compareDigest row.clientSecretHash (c.sha256 secret)

/-- `client_allowed_scopes`. -/
def clientAllowedScopes (store : AuthStore) (clientId requestedScopes : String) : Bool :=
  match getClient store clientId with
  | none => false
  | some row => (words requestedScopes).all (fun s => row.scopeList.contains s)

/-- A text claim of a payload, empty when it is absent. -/
def textClaim (payload : Payload) (name : String) : String :=
  match Json.field payload name with
  | .str s => s
  | _ => ""

/-- The row `record_token` writes. -/
def tokenRow (payload : Payload) : TokenRow where
  jti := textClaim payload "jti"
  clientId := textClaim payload "sub"
  scope := textClaim payload "scope"
  expiresAt := match Json.field payload "exp" with
    | .int n => n
    | _ => 0

/-- `record_token`. -/
def recordToken (store : AuthStore) (payload : Payload) : AuthStore :=
  { store with tokens := store.tokens.put (tokenRow payload) }

/-- `revoke_token`. -/
def revokeToken (store : AuthStore) (jti : String) : AuthStore :=
  { store with tokens := store.tokens.delete (fun r => r.jti == jti) }

/-- `revoke_client_tokens`. -/
def revokeClientTokens (store : AuthStore) (clientId : String) : AuthStore :=
  { store with tokens := store.tokens.delete (fun r => r.clientId == clientId) }

/-- `create_auth_code`, for the code that is drawn; `none` when the insert raises. -/
def createAuthCode (store : AuthStore) (row : AuthCode) : Option AuthStore :=
  (store.codes.insert? row).map (fun codes => { store with codes := codes })

def AuthStore.deleteCode (store : AuthStore) (code : String) : AuthStore :=
  { store with codes := store.codes.delete (fun r => r.code == code) }

/-- The code is too old to be redeemed. -/
def AuthCode.expired (row : AuthCode) (now : Rat) : Bool := decide (authCodeExpirySeconds < now - row.createdAt)

/-- The PKCE verification, which is made under one method only; `none` when it raises. -/
def AuthCode.verifies (c : Crypto) (row : AuthCode) (codeVerifier : String) : Option Bool :=
  if row.codeChallengeMethod = "S256" then compareDigest (c.sha256 codeVerifier) row.codeChallenge
  else some true

/-- `consume_auth_code`; `none` when it raises. -/
def consumeAuthCode (c : Crypto) (store : AuthStore) (now : Rat) (code codeVerifier : String) :
    Option (Option AuthCode × AuthStore) :=
  match store.codes.find? code with
  | none => some (none, store)
  | some row =>
    if row.expired now then some (none, store.deleteCode code)
    else match row.verifies c codeVerifier with
      | none => none
      | some false => some (none, store)
      | some true => some (some row, store.deleteCode code)

end A2ARegistry.Auth
