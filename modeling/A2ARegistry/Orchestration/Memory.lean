import Mathlib.Algebra.Order.Ring.Rat
import Mathlib.Data.List.Sort
import A2ARegistry.Base.Dumps
import A2ARegistry.Base.Like
import A2ARegistry.Base.Table
import A2ARegistry.Base.Text
import A2ARegistry.Base.TimedMap
import A2ARegistry.Orchestration.Store.Listing

namespace A2ARegistry.Orchestration.Memory
open Base

/-- Only the owning agent can read. -/
def namespacePersonal : String := "personal"

/-- Visible within the same task. -/
def namespaceShared : String := "shared"

/-- Visible to all agents. -/
def namespaceGlobal : String := "global"

/-- A row of `agent_memory`. `nspace` is its namespace. -/
structure MemoryRecord where
  id : Nat
  agentId : String
  key : String
  value : String
  nspace : String
  ttl : Int
  expiresAt : Option Rat
  createdAt : Rat
  updatedAt : Rat
deriving DecidableEq, Repr

/-- What an entry is stored under: agent, key and namespace. -/
abbrev Slot := String × String × String

instance : Keyed Slot MemoryRecord := ⟨fun r => (r.agentId, r.key, r.nspace)⟩

@[simp] theorem key_record (r : MemoryRecord) : key r = (r.agentId, r.key, r.nspace) := rfl

/-- `to_dict`: the value decoded, and no id. -/
structure MemoryView where
  agentId : String
  key : String
  value : Json
  nspace : String
  ttl : Int
  expiresAt : Option Rat
  createdAt : Rat
  updatedAt : Rat

def MemoryRecord.toDict (p : Python) (r : MemoryRecord) : MemoryView where
  agentId := r.agentId
  key := r.key
  value := (Json.loads p r.value).getD (.str r.value)
  nspace := r.nspace
  ttl := r.ttl
  expiresAt := r.expiresAt
  createdAt := r.createdAt
  updatedAt := r.updatedAt

/-- `expires_at IS NULL OR expires_at > ?`. -/
def MemoryRecord.alive (now : Rat) (r : MemoryRecord) : Bool := r.expiresAt.all (fun t => decide (now < t))

/-- What the driver raises: an integer that does not fit its column, a row that is there already. -/
inductive MemoryError
  | overflowError
  | integrityError
deriving DecidableEq, Repr

/-- The table, and the id that is assigned next. -/
structure AgentMemoryStore where
  rows : Table MemoryRecord
  nextId : Nat

def AgentMemoryStore.empty : AgentMemoryStore := ⟨Table.empty, 1⟩

namespace AgentMemoryStore

variable (m : AgentMemoryStore)

section Crud

/-- `get`. -/
def get (now : Rat) (key agentId nspace : String) : Option MemoryRecord :=
  (m.rows.find? (agentId, key, nspace)).filter (MemoryRecord.alive now)

/-- The arguments of `set`, with the reading of the clock when it starts and when it reads the entry back. -/
structure SetCall where
  now : Rat
  later : Rat
  key : String
  value : Json
  agentId : String
  ttl : Int := 0
  nspace : String := namespacePersonal

namespace SetCall

variable (call : SetCall)

def slot : Slot := (call.agentId, call.key, call.nspace)

/-- `(now + ttl) if ttl > 0 else None`. -/
def expiresAt : Option Rat := if 0 < call.ttl then some (call.now + call.ttl) else none

/-- The row of the `INSERT`. -/
def row (id : Nat) : MemoryRecord where
  id := id
  agentId := call.agentId
  key := call.key
  value := Json.dumpsPlain call.value
  nspace := call.nspace
  ttl := call.ttl
  expiresAt := call.expiresAt
  createdAt := call.now
  updatedAt := call.now

/-- The `UPDATE`. -/
def update (r : MemoryRecord) : MemoryRecord :=
  { r with
    value := Json.dumpsPlain call.value
    ttl := call.ttl
    expiresAt := call.expiresAt
    updatedAt := call.now }

theorem key_update (r : MemoryRecord) : Base.key (call.update r) = Base.key r := rfl

end SetCall

/-- The statements of `set`. -/
def write (call : SetCall) : Except MemoryError AgentMemoryStore :=
  if !fitsInteger call.ttl then .error .overflowError
  else match m.rows.find? call.slot with
    | some _ => .ok { m with rows := m.rows.modify (fun r => key r == call.slot) call.update call.key_update }
    | none => match m.rows.insert? (call.row m.nextId) with
      | none => .error .integrityError
      | some rows => .ok ⟨rows, m.nextId + 1⟩

/-- `set`: the entry read back, and the store. -/
def set (call : SetCall) : Except MemoryError (Option MemoryRecord × AgentMemoryStore) :=
  (m.write call).map (fun m => (m.get call.later call.key call.agentId call.nspace, m))

/-- `delete`: whether a row was deleted, and the store. -/
def delete (key agentId nspace : String) : Bool × AgentMemoryStore :=
  let hit := fun r : MemoryRecord => Base.key r == (agentId, key, nspace)
  (!(m.rows.select hit).isEmpty, { m with rows := m.rows.delete hit })

/-- `purge_expired`: the number of rows, and the store. -/
def purgeExpired (now : Rat) : Nat × AgentMemoryStore :=
  ((m.rows.select (fun r => !r.alive now)).length, { m with rows := m.rows.delete (fun r => !r.alive now) })

end Crud

section Queries

/-- `LIMIT ? OFFSET ?`, both clamped. -/
def page (limit offset : Int) (rows : List MemoryRecord) : List MemoryRecord :=
  (rows.drop (max offset 0).toNat).take (min (max limit 1) 1000).toNat

/-- `namespace = ?`, where a namespace is asked for. -/
def inNamespace (nspace : Option String) (r : MemoryRecord) : Bool :=
  !truthy nspace || some r.nspace == nspace

/-- `key LIKE 'prefix%'`, where a prefix is asked for. -/
def hasPrefix (start : String) (r : MemoryRecord) : Bool :=
  start == "" || likeText (start ++ "%") r.key

/-- `LOWER` of SQL. -/
def lowerSql (text : String) : String := String.ofList (text.toList.map Char.toLower)

/-- `LOWER(value) LIKE '%query%'`, for the query in lower case. -/
def matchesQuery (query : String) (r : MemoryRecord) : Bool :=
  likeText ("%" ++ query ++ "%") (lowerSql r.value)

/-- `list_keys`. -/
def listKeys (now : Rat) (agentId start : String) (nspace : Option String) (limit offset : Int) :
    List MemoryRecord :=
  page limit offset ((m.rows.select (fun r =>
    r.agentId == agentId && hasPrefix start r && inNamespace nspace r && r.alive now)).insertionSort
      (fun a b => a.key ≤ b.key))

/-- `search`; `lower` is `str.lower`. -/
def search (lower : String → String) (now : Rat) (query agentId : String) (nspace : Option String)
    (limit offset : Int) : List MemoryRecord :=
  page limit offset ((m.rows.select (fun r =>
    r.agentId == agentId && matchesQuery (lower query) r && inNamespace nspace r && r.alive now)).insertionSort
      (fun a b => b.updatedAt ≤ a.updatedAt))

end Queries

/-- A call of the store. -/
inductive Op
  | set (call : SetCall)
  | get (now : Rat) (key agentId nspace : String)
  | delete (now : Rat) (key agentId nspace : String)
  | purgeExpired (now : Rat)

/-- The readings of the clock a call makes. A delete makes none of its own: it has the one at which it runs. -/
def Op.readings : Op → List Rat
  | .set call => [call.now, call.later]
  | .get now .. | .delete now .. | .purgeExpired now => [now]

/-- What a call leaves. One that raises leaves the store as it is. -/
def step : Op → AgentMemoryStore
  | .set call => match m.set call with
    | .ok (_, m') => m'
    | .error _ => m
  | .get .. => m
  | .delete _ key agentId nspace => (m.delete key agentId nspace).2
  | .purgeExpired now => (m.purgeExpired now).2

end AgentMemoryStore

section Handlers

/-- Who a request is from, as the middleware has it. -/
structure Caller where
  agentId : Json := .str ""
  tokenScopes : String := ""

/-- What the handlers read of a request. An integer is there when its parameter is, and parses. -/
structure MemoryRequest where
  caller : Caller
  agentId : String
  key : String := ""
  nspace : Option String := none
  start : String := ""
  q : String := ""
  limit : Option Int := none
  offset : Option Int := none

inductive Reply
  | refused (status : Nat) (error detail : String)
  | entry (view : MemoryView)
  | entries (agentId nspace : String) (limit offset : Int) (views : List MemoryView)

/-- `_resolve_agent_id`. -/
def resolveAgentId (caller : Caller) (agentId : String) : Option String :=
  if contains caller.tokenScopes "registry:admin" then some agentId
  else if caller.agentId.isWord [agentId] then some agentId
  else none

def forbidden : Reply := .refused 403 "forbidden" "Not authorised for this agent"

def MemoryRequest.pageLimit (r : MemoryRequest) : Int := min (r.limit.getD 100) 1000

def MemoryRequest.pageOffset (r : MemoryRequest) : Int := max (r.offset.getD 0) 0

def MemoryRequest.reply (p : Python) (r : MemoryRequest) (effective : String) (rows : List MemoryRecord) : Reply :=
  .entries effective (if truthy r.nspace then r.nspace.getD "" else "all") r.pageLimit r.pageOffset
    (rows.map (MemoryRecord.toDict p))

variable (p : Python) (m : AgentMemoryStore) (now : Rat) (r : MemoryRequest)

def handleGet : Reply :=
  match resolveAgentId r.caller r.agentId with
  | none => forbidden
  | some effective =>
    let nspace := r.nspace.getD namespacePersonal
    match m.get now r.key effective nspace with
    | none => .refused 404 "not_found" s!"Key '{r.key}' not found in namespace '{nspace}'"
    | some entry => .entry (entry.toDict p)

def handleList : Reply :=
  match resolveAgentId r.caller r.agentId with
  | none => forbidden
  | some effective =>
    r.reply p effective (m.listKeys now effective r.start r.nspace r.pageLimit r.pageOffset)

def handleSearch (lower : String → String) : Reply :=
  match resolveAgentId r.caller r.agentId with
  | none => forbidden
  | some effective =>
    let query := strip r.q
    if query = "" then .refused 400 "bad_request" "Missing 'q' query parameter"
    else r.reply p effective (m.search lower now query effective r.nspace r.pageLimit r.pageOffset)

/-- What the handlers that write answer, beside refusing. `raised` is an exception that they do not catch. -/
inductive Answer
  | reply (reply : Reply)
  | created (view : MemoryView)
  | deleted (key nspace : String)
  | insufficientScope (scope : String)
  | raised

def invalidKey : Reply := .refused 400 "bad_request" "Missing or invalid 'key' (must be a non-empty string)"

def invalidNamespace (nspace : Json) : Reply :=
  let shown := Json.strOf p nspace
  .refused 400 "bad_request" s!"Invalid namespace '{shown}'. Valid: global, personal, shared"

/-- `namespace not in VALID_NAMESPACES`; `none` where the value has no hash. -/
def inValidNamespaces : Json → Option Bool
  | .arr _ | .obj _ => none
  | nspace => some (nspace.isWord [namespaceGlobal, namespacePersonal, namespaceShared])

/-- What `int(value)` comes to: a number, a `ValueError` or `TypeError`, or an `OverflowError`. -/
inductive IntCall
  | value (n : Int)
  | refused
  | overflow

/-- `int(value)`; `intOfFloat` is that of a float. -/
def intOf (intOfFloat : String → IntCall) : Json → IntCall
  | .int n => .value n
  | .bool b => .value (if b then 1 else 0)
  | .str s => ((parseInt s).map IntCall.value).getD .refused
  | .float r => intOfFloat r
  | _ => .refused

/-- The `ttl` of a body: not negative, and zero where it is no number; `none` where `int` overflows. -/
def ttlOf (intOfFloat : String → IntCall) (ttl : Json) : Option Int :=
  match intOf intOfFloat ttl with
  | .value n => some (max n 0)
  | .refused => some 0
  | .overflow => none

/-- The call of `set` that a body asks for, or what it is answered with instead. -/
def readSet (intOfFloat : String → IntCall) (later : Rat) (effective : String) (body : List (String × Json)) :
    Except Answer AgentMemoryStore.SetCall :=
  match Json.get body "key" .null with
  | .str key =>
    let nspace := Json.get body "namespace" (.str namespacePersonal)
    if key = "" then .error (.reply invalidKey)
    else match inValidNamespaces nspace, ttlOf intOfFloat (Json.get body "ttl" (.int 0)) with
      | none, _ => .error .raised
      | some false, _ => .error (.reply (invalidNamespace p nspace))
      | some true, none => .error .raised
      | some true, some ttl => .ok {
          now := now
          later := later
          key := key
          value := Json.get body "value" .null
          agentId := effective
          ttl := ttl
          nspace := Json.strOf p nspace }
  | _ => .error (.reply invalidKey)

/-- `handle_set`. The body is `none` where it is no JSON. -/
def handleSet (intOfFloat : String → IntCall) (later : Rat) (caller : Caller) (agentId : String)
    (body : Option Json) : Answer × AgentMemoryStore :=
  match resolveAgentId caller agentId, body with
  | none, _ => (.reply forbidden, m)
  | some _, none => (.reply (.refused 400 "bad_request" "Invalid JSON body"), m)
  | some effective, some (.obj body) =>
    match readSet p now intOfFloat later effective body with
    | .error answer => (answer, m)
    | .ok call =>
      match m.set call with
      | .error _ => (.raised, m)
      | .ok (none, m') => (.raised, m')
      | .ok (some entry, m') => (.created (entry.toDict p), m')
  | some _, some _ => (.raised, m)

def handleDelete : Answer × AgentMemoryStore :=
  match resolveAgentId r.caller r.agentId with
  | none => (.reply forbidden, m)
  | some effective =>
    let nspace := r.nspace.getD namespacePersonal
    match m.delete r.key effective nspace with
    | (false, m') => (.reply (.refused 404 "not_found" s!"Key '{r.key}' not found in namespace '{nspace}'"), m')
    | (true, m') => (.deleted r.key nspace, m')

/-- A request to the memory API, by its route. -/
inductive MemoryCall
  | list (r : MemoryRequest)
  | get (r : MemoryRequest)
  | search (r : MemoryRequest)
  | set (caller : Caller) (agentId : String) (body : Option Json)
  | delete (r : MemoryRequest)

def MemoryCall.caller : MemoryCall → Caller
  | .list r | .get r | .search r | .delete r => r.caller
  | .set caller _ _ => caller

/-- The agent in the path. -/
def MemoryCall.agentId : MemoryCall → String
  | .list r | .get r | .search r | .delete r => r.agentId
  | .set _ agentId _ => agentId

/-- The scope that `register_memory_routes` requires. -/
def MemoryCall.scope : MemoryCall → String
  | .list _ | .get _ | .search _ => "memory:read"
  | .set .. | .delete _ => "memory:write"

/-- `require_scope`. -/
def MemoryCall.scoped (call : MemoryCall) : Bool := (words call.caller.tokenScopes).contains call.scope

/-- What the handlers take from Python: `str.lower`, and `int` of a float. -/
structure MemoryLibrary where
  lower : String → String
  intOfFloat : String → IntCall

/-- The handler of a request. -/
def MemoryCall.handle (lib : MemoryLibrary) (later : Rat) : MemoryCall → Answer × AgentMemoryStore
  | .list r => (.reply (handleList p m now r), m)
  | .get r => (.reply (handleGet p m now r), m)
  | .search r => (.reply (handleSearch p m now r lib.lower), m)
  | .set caller agentId body => handleSet p m now lib.intOfFloat later caller agentId body
  | .delete r => handleDelete m r

/-- The route of a request. -/
def MemoryCall.serve (lib : MemoryLibrary) (later : Rat) (call : MemoryCall) : Answer × AgentMemoryStore :=
  if call.scoped then call.handle p m now lib later else (.insufficientScope call.scope, m)

/-- What happens to the table: a request, at the readings of the clock that it makes, or a purge by the dispatcher. -/
inductive MemoryEvent
  | request (now later : Rat) (call : MemoryCall)
  | purge (now : Rat)

/-- The answer to a request, and the table after the event. -/
def memoryStep (lib : MemoryLibrary) : MemoryEvent → Option Answer × AgentMemoryStore
  | .request now later call =>
    let (answer, m') := call.serve p m now lib later
    (some answer, m')
  | .purge now => (none, (m.purgeExpired now).2)

end Handlers

end A2ARegistry.Orchestration.Memory
