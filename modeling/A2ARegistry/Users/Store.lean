import A2ARegistry.Base.Run
import A2ARegistry.Base.Table
import A2ARegistry.Orchestration.Workspace

namespace A2ARegistry.Users
open Base Orchestration

/-- `UserRecord`, a row of `users`. -/
structure UserRecord where
  username : String
  passwordHash : String
  role : String := "viewer"
  createdAt : Rat := 0
  updatedAt : Rat := 0

instance : Keyed String UserRecord := ⟨UserRecord.username⟩

abbrev UserStore : Type := Table UserRecord

/-- `ROLES`. -/
def roles : List String := ["admin", "operator", "viewer"]

/-- `ROLE_HIERARCHY.get(role, 0)`. -/
def roleLevel (role : String) : Nat :=
  ([("admin", 100), ("operator", 50), ("viewer", 10)].lookup role).getD 0

/-- `role_ge`. -/
def roleGe (userRole requiredRole : String) : Bool := decide (roleLevel requiredRole ≤ roleLevel userRole)

/-- An error of the store: a `ValueError`, which the handlers catch, or another. -/
inductive UserError
  | valueError (message : String)
  | raised

/-- What a request draws: the clock, and bcrypt with the salt it generates, which may refuse a password with a
`ValueError`. -/
structure Draw where
  now : Rat
  bcrypt : String → Except String String

/-- `hash_password`. -/
def hashPassword (draw : Draw) : Json → Except UserError String
  | .str password => (draw.bcrypt password).mapError .valueError
  | _ => .error .raised

/-- `role.lower()`. -/
def lowerRole : Json → Except UserError String
  | .str role => .ok (lower role)
  | _ => .error .raised

namespace UserStore

variable (store : UserStore)

/-- `create_user`. -/
def createUser (draw : Draw) (username : String) (password : Json) (role : String) :
    Except UserError (UserRecord × UserStore) :=
  let role := lower role
  let names := joinBy ", " roles
  if role ∉ roles then .error (.valueError s!"Invalid role '{role}'. Must be one of: {names}")
  else if (store.find? username).isSome then .error (.valueError s!"User '{username}' already exists")
  else match hashPassword draw password with
    | .error e => .error e
    | .ok pwHash =>
      let user : UserRecord := ⟨username, pwHash, role, draw.now, draw.now⟩
      match store.insert? user with
      | none => .error .raised
      | some store' => .ok (user, store')

/-- `UPDATE users SET ... WHERE username=?`. -/
def write (username pwHash newRole : String) (now : Rat) : UserStore :=
  store.modify (fun row => row.username == username)
    (fun row => { row with passwordHash := pwHash, role := newRole, updatedAt := now })

/-- `update_user`, with what it returns. -/
def updateUser (draw : Draw) (username : String) (password role : Json) : Except UserError (Bool × UserStore) :=
  match store.find? username with
  | none => .ok (false, store)
  | some existing =>
    match if password.truthy then hashPassword draw password else .ok existing.passwordHash with
    | .error e => .error e
    | .ok pwHash =>
      match if role.truthy then lowerRole role else .ok existing.role with
      | .error e => .error e
      | .ok newRole =>
        if newRole ∉ roles then .error (.valueError s!"Invalid role '{newRole}'")
        else .ok (true, store.write username pwHash newRole draw.now)

/-- `delete_user`, with what it returns. -/
def deleteUser (username : String) : Bool × UserStore :=
  ((store.find? username).isSome, store.delete (fun row => row.username == username))

end UserStore

/-- The session the middleware has injected. -/
structure Session where
  sub : String
  role : String
deriving DecidableEq, Repr

/-- `require_role`: the response when the session is missing or its role too low. -/
def requireRole (requiredRole : String) : Option Session → Option Response
  | none => some (jsonError 401 "unauthorized" "Not authenticated")
  | some session =>
    if roleGe session.role requiredRole then none
    else
      let role := session.role
      some (jsonError 403 "forbidden" s!"Role '{role}' insufficient; requires '{requiredRole}'")

section Handlers

variable (store : UserStore)

/-- What the handlers answer to an error of the store. -/
def UserError.response : UserError → Response
  | .valueError message => jsonError 400 "validation_error" message
  | .raised => serverError

def notFound (username : String) : Response := jsonError 404 "not_found" s!"User '{username}' not found"

def success (username : String) : Response where
  status := 200
  body := [("success", .bool true), ("username", .str username)]

def invalidJson : Response := jsonError 400 "invalid_json" "Invalid JSON body"

/-- `(body.get("username") or "").strip()`; `none` where it raises. -/
def strippedName (value : Json) : Option String :=
  if !value.truthy then some ""
  else match value with
    | .str s => some (strip s)
    | _ => none

/-- `len(value)`; `none` where it raises. -/
def length : Json → Option Nat
  | .str s => some s.length
  | .arr items => some items.length
  | .obj fields => some fields.length
  | _ => none

/-- `handle_create_user`; the body is `none` when it is not JSON. -/
def handleCreateUser (draw : Draw) : Option Json → Response × UserStore
  | none => (invalidJson, store)
  | some (.obj body) =>
    let password := Json.get body "password" (.str "")
    match strippedName (Json.field body "username"), Json.get body "role" (.str "viewer") with
    | some username, .str role =>
      if username = "" || !password.truthy then
        (jsonError 400 "validation_error" "Username and password are required", store)
      else match length password with
        | none => (serverError, store)
        | some n =>
          if n < 6 then (jsonError 400 "validation_error" "Password must be at least 6 characters", store)
          else match UserStore.createUser store draw username password (lower (strip role)) with
            | .error e => (e.response, store)
            | .ok (user, store') => (⟨201, [("username", .str user.username), ("role", .str user.role)], []⟩, store')
    | _, _ => (serverError, store)
  | some _ => (serverError, store)

/-- `handle_update_user`; the body is `none` when it is not JSON. -/
def handleUpdateUser (draw : Draw) (targetUsername : String) : Option Json → Response × UserStore
  | none => (invalidJson, store)
  | some (.obj body) =>
    let password := Json.field body "password"
    let role := Json.field body "role"
    if !password.truthy && !role.truthy then
      (jsonError 400 "validation_error" "At least one of 'password' or 'role' is required", store)
    else match UserStore.updateUser store draw targetUsername password role with
      | .error e => (e.response, store)
      | .ok (false, store') => (notFound targetUsername, store')
      | .ok (true, store') => (success targetUsername, store')
  | some _ => (serverError, store)

/-- `handle_delete_user`. -/
def handleDeleteUser (targetUsername currentUser : String) : Response × UserStore :=
  if targetUsername = "admin" then
    (jsonError 403 "protected" "Cannot delete the primary admin account", store)
  else if targetUsername = currentUser then
    (jsonError 403 "protected" "Cannot delete your own account", store)
  else match UserStore.deleteUser store targetUsername with
    | (true, store') => (success targetUsername, store')
    | (false, store') => (notFound targetUsername, store')

end Handlers

/-- A request to change the users, behind `require_role("admin")`. -/
inductive UserRequest
  | create (draw : Draw) (body : Option Json)
  | update (draw : Draw) (targetUsername : String) (body : Option Json)
  | delete (targetUsername : String)

def handle (store : UserStore) (session : Session) : UserRequest → Response × UserStore
  | .create draw body => handleCreateUser store draw body
  | .update draw targetUsername body => handleUpdateUser store draw targetUsername body
  | .delete targetUsername => handleDeleteUser store targetUsername session.sub

/-- The answer to a request under a session, and the users after it. -/
def respond (store : UserStore) (request : Option Session × UserRequest) : Response × UserStore :=
  match request.1, requireRole "admin" request.1 with
  | some session, none => handle store session request.2
  | _, some response => (response, store)
  | none, none => (serverError, store)

def step (store : UserStore) (request : Option Session × UserRequest) : UserStore := (respond store request).2

end A2ARegistry.Users
