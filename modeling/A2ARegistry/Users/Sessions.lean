import A2ARegistry.Auth.Middleware
import A2ARegistry.Users.Store

namespace A2ARegistry.Users
open Base Orchestration Auth

/-- `SESSION_EXPIRY_SECONDS`. -/
def sessionExpirySeconds : Int := 3600

/-- What sessions take from outside: PyJWT with HS256 under a secret, and bcrypt's `checkpw` of a
password and a hash, which may raise. -/
structure Libraries where
  jwtEncode : String → Payload → String
  jwtDecode : String → Rat → String → Option Payload
  checkpw : String → String → Option Bool

/-- `verify_password`. -/
def verifyPassword (lib : Libraries) : Json → String → Bool
  | .str password, passwordHash => (lib.checkpw password passwordHash).getD false
  | _, _ => false

namespace UserStore

variable (store : UserStore)

/-- `authenticate`. -/
def authenticate (lib : Libraries) (username : String) (password : Json) : Option UserRecord :=
  match store.find? username with
  | none => none
  | some user => if verifyPassword lib password user.passwordHash then some user else none

/-- `bootstrap_admin`, with the password it returns. `adminPassword` is the variable of the
environment, `generated` what `token_urlsafe` yields. -/
def bootstrapAdmin (draw : Draw) (adminPassword : Option String) (generated : String) :
    Except UserError (String × UserStore) :=
  match store.rows, adminPassword with
  | _ :: _, some password =>
    (updateUser store draw "admin" (.str password) .null).map (fun updated => (password, updated.2))
  | _ :: _, none => .ok ("", store)
  | [], _ =>
    let initialPassword := if truthy adminPassword then adminPassword.getD "" else generated
    (createUser store draw "admin" (.str initialPassword) "admin").map (fun created => (initialPassword, created.2))

end UserStore

/-- `SessionManager`. -/
structure SessionManager where
  lib : Libraries
  secret : String

namespace SessionManager

variable (manager : SessionManager)

/-- The payload `create_session` builds; `jti` is what `uuid4` yields. -/
def payload (username role : String) (now : Rat) (jti : String) : Payload :=
  [("sub", .str username), ("role", .str role), ("iat", .int (truncate now)),
    ("exp", .int (truncate now + sessionExpirySeconds)), ("jti", .str jti), ("type", .str "user_session")]

/-- `create_session`. -/
def createSession (username role : String) (now : Rat) (jti : String) : String :=
  manager.lib.jwtEncode manager.secret (payload username role now jti)

/-- `verify_session`. -/
def verifySession (now : Rat) (token : String) : Option Payload :=
  match manager.lib.jwtDecode manager.secret now token with
  | none => none
  | some payload => if (Json.field payload "type").isWord ["user_session"] then some payload else none

/-- `get_session`; an absent cookie is empty. -/
def getSession (now : Rat) (cookie : String) : Option Payload :=
  if cookie = "" then none else manager.verifySession now cookie

end SessionManager

/-- `PUBLIC_PATHS`. -/
def publicPaths : List String :=
  ["/", "/health", "/metrics", "/login", "/logout", "/api/login", "/api/logout", "/.well-known/", "/auth/",
    "/static/login.html", "/favicon.ico"]

/-- `_is_public`. -/
def isPublicPath (path : String) : Bool :=
  publicPaths.contains path ||
    ["/health", "/.well-known/", "/auth/", "/assets/", "/v1/", "/v2/"].any (startsWith path)

/-- What the middleware makes of a request: it is handled, with a session or without, or answered. -/
inductive Admission
  | handled (session : Option Payload)
  | refused (response : Response)

/-- `_session_middleware`. -/
def sessionMiddleware (manager : SessionManager) (enabled : Bool) (now : Rat) (path cookie : String) : Admission :=
  if !enabled then .handled (some [("sub", .str "admin"), ("role", .str "admin")])
  else if isPublicPath path then .handled (manager.getSession now cookie)
  else match manager.getSession now cookie with
    | some session => .handled (some session)
    | none =>
      if startsWith path "/api/" || startsWith path "/admin" then
        .refused (jsonError 401 "unauthorized" "Session expired or invalid")
      else .refused ⟨302, [], [("Location", "/login")]⟩

/-- `session.get(name, default)`, for texts. -/
def textOf (session : Payload) (name default : String) : String :=
  match Json.get session name (.str default) with
  | .str text => text
  | _ => ""

/-- What the handlers read of the session that is injected. -/
def Session.ofPayload (session : Payload) : Session := ⟨textOf session "sub" "", textOf session "role" "viewer"⟩

/-- A request on its way to a handler behind `require_role`: the session it gets there with, or the answer. -/
def guarded (manager : SessionManager) (enabled : Bool) (requiredRole : String) (now : Rat) (path cookie : String) :
    Except Response Session :=
  match sessionMiddleware manager enabled now path cookie with
  | .refused response => .error response
  | .handled session =>
    match session.map Session.ofPayload, requireRole requiredRole (session.map Session.ofPayload) with
    | some session, none => .ok session
    | _, some response => .error response
    | none, none => .error serverError

/-- The cookie of a session; `set_session_cookie`. -/
structure SessionCookie where
  value : String
  maxAge : Int := sessionExpirySeconds
  httpOnly : Bool := true
  sameSite : String := "Lax"
  path : String := "/"
deriving DecidableEq, Repr

/-- The scope of the bearer token that goes with a session. -/
def bearerScope (role : String) : String :=
  if role = "admin" then "registry:admin agent:admin agent:register agent:read task:write task:read"
  else if role = "operator" then "agent:register agent:read task:write task:read"
  else "task:read agent:read"

/-- What a login draws: the clock, and `uuid4` for the session and for the token. -/
structure LoginDraw where
  now : Rat
  jti : String
  bearerJti : String

/-- What `UserHandler` is built with. Without a key it makes no bearer tokens. -/
structure UserHandler where
  lib : Libraries
  crypto : Crypto
  key : Option SigningKey

namespace UserHandler

variable (h : UserHandler)

/-- `create_token` for a user. -/
def bearerToken (draw : LoginDraw) (user : UserRecord) : String :=
  match h.key with
  | none => ""
  | some key =>
    let args : TokenArgs := { sub := "user:" ++ user.username, scope := bearerScope user.role }
    encodeToken h.crypto key (args.payload draw.now draw.bearerJti)

/-- `handle_login`; the body is `none` when it is not JSON. -/
def handleLogin (store : UserStore) (secret : String) (draw : LoginDraw) :
    Option Json → Response × Option SessionCookie
  | none => (invalidJson, none)
  | some (.obj body) =>
    let password := Json.get body "password" (.str "")
    match strippedName (Json.field body "username") with
    | none => (serverError, none)
    | some username =>
      if username = "" || !password.truthy then
        (jsonError 400 "validation_error" "Username and password are required", none)
      else match store.authenticate h.lib username password with
        | none => (jsonError 401 "invalid_credentials" "Invalid username or password", none)
        | some user =>
          let token := SessionManager.createSession ⟨h.lib, secret⟩ user.username user.role draw.now draw.jti
          (⟨200, [("token", .str (h.bearerToken draw user)), ("success", .bool true), ("username", .str user.username),
            ("role", .str user.role)], []⟩, some { value := token })
  | some _ => (serverError, none)

end UserHandler

/-- The users in the database, and the secret a start has drawn. -/
structure Dashboard where
  store : UserStore
  secret : String

/-- What happens to the dashboard: somebody logs in or out, a request to change the users comes in under
a cookie, or the server starts again. -/
inductive UserEvent
  | login (draw : LoginDraw) (body : Option Json)
  | logout
  | manage (now : Rat) (cookie : String) (request : UserRequest)
  | restart (draw : Draw) (secret : String) (adminPassword : Option String) (generated : String)

/-- The path a request to change the users is routed from. -/
def UserRequest.path : UserRequest → String
  | .create _ _ => "/admin/users"
  | .update _ targetUsername _ | .delete targetUsername => "/admin/users/" ++ targetUsername

/-- The dashboard after an event. A server that cannot bootstrap its admin does not start. -/
def Dashboard.step (h : UserHandler) (dashboard : Dashboard) : UserEvent → Dashboard
  | .login _ _ | .logout => dashboard
  | .manage now cookie request =>
    match guarded ⟨h.lib, dashboard.secret⟩ true "admin" now request.path cookie with
    | .error _ => dashboard
    | .ok session => { dashboard with store := (handle dashboard.store session request).2 }
  | .restart draw secret adminPassword generated =>
    match dashboard.store.bootstrapAdmin draw adminPassword generated with
    | .error _ => { dashboard with secret := secret }
    | .ok (_, store) => ⟨store, secret⟩

end A2ARegistry.Users
