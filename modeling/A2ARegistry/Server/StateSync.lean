import A2ARegistry.Server.Messages

namespace A2ARegistry.Server
open Base Orchestration

/-- A key of `_tasks`: a text, or what Python's `==` sees of another value. `None` is no key. -/
inductive TaskKey (κ : Type)
  | text (id : String)
  | other (k : κ)
deriving DecidableEq, Repr

/-- An entry of `_tasks` under a key that is no text: an agent has made it up. -/
structure OtherRecord (κ : Type) where
  k : κ
  agentId : String
  state : Json
  result : Json
  error : Json

instance {κ : Type} : Keyed κ (OtherRecord κ) := ⟨OtherRecord.k⟩

/-- The server with all entries of `_tasks`. -/
structure SyncHandler (κ : Type) [DecidableEq κ] extends RegistryHandler where
  others : Table (OtherRecord κ)

/-- Why a `state_sync` is refused. -/
inductive SyncRefusal
  | notOwner (claimed : Json)
  /-- with the microseconds that are left -/
  | rateLimited (retryAfter : Int)
  | unregistered
  | disabled

/-- A number of microseconds in whole seconds, as `:.0f` rounds it. -/
def wholeSeconds (micros : Int) : Int :=
  let seconds := micros / 1000000
  let rest := micros % 1000000
  if rest < 500000 ∨ rest = 500000 ∧ seconds % 2 = 0 then seconds else seconds + 1

/-- The `detail` of the error message. -/
def SyncRefusal.detail (e : Engine) (agentId : String) : SyncRefusal → String
  | .notOwner claimed => s!"state_sync agent_id '{e.str claimed}' does not match connection owner '{agentId}'"
  | .rateLimited retryAfter => s!"state_sync rate limited: retry after {wholeSeconds retryAfter}s"
  | .unregistered => s!"Agent '{agentId}' is not registered"
  | .disabled => s!"Agent '{agentId}' is disabled"

/-- An item of `orphaned_tasks`. -/
structure Orphan (κ : Type) where
  id : TaskKey κ
  status : Json
  result : Json
  error : Json

/-- The message a `state_sync` is answered with. -/
inductive SyncAnswer (κ : Type)
  | error (refusal : SyncRefusal)
  | stateSyncReply (orphanedTasks : List (Orphan κ))

/-- The first of the checks that a `state_sync` does not pass. -/
def syncRefusal (s : RegistryHandler) (agentId : String) (data : List (String × Json)) (now : Int)
    (card : Option Bool) : Option SyncRefusal :=
  let claimed := Json.get data "agent_id" (.str "")
  if claimed.truthy && !claimed.isWord [agentId] then some (.notOwner claimed)
  else if !stateSyncAllowed s agentId now then
    some (.rateLimited (stateSyncCooldown - (now - s.stateSyncLast agentId)))
  else
    match card with
    | none => some .unregistered
    | some true => some .disabled
    | some false => none

/-- The words for a task that the server holds for over. -/
def overWords : List String := ["completed", "failed"]

/-- `db_dispatched`: the rows of the tasks that were dispatched to the agent. -/
def dbDispatched (s : RegistryHandler) (agentId : String) : List Task :=
  match s.dispatchedWsTasks with
  | none => []
  | some tasks => (tasks.rows.filter (fun d => d.assignee == agentId)).filterMap (fun d => s.taskStore.task? d.taskId)

/-- An item the handler gets through with: `.get` raises on one that is no object, and the log of step 4 raises at
`t["id"]` on one that is reported as finished and has no `id`. -/
def loggable : Json → Bool
  | .obj fields =>
    !(Json.get fields "status" .null).isWord ["completed", "success", "done"] || fields.any (fun f => f.1 == "id")
  | _ => false

section
variable {κ : Type} [DecidableEq κ] (hash : Json → κ)

/-- The key an id is looked up under, if it can be one. -/
def taskKey : Json → Option (TaskKey κ)
  | .str id => some (.text id)
  | .null | .arr _ | .obj _ => none
  | id => some (.other (hash id))

/-- `agent_active_ids`, but for `None`. -/
def agentActiveIds (items : List Json) : List (TaskKey κ) :=
  items.filterMap (fun item =>
    match item with
    | .obj fields => taskKey hash (Json.get fields "id" .null)
    | _ => none)

/-- The merge of an item whose id is no text. -/
def mergeOther (agentId : String) (others : Table (OtherRecord κ)) (fields : List (String × Json)) :
    Table (OtherRecord κ) :=
  let id := Json.get fields "id" .null
  let status := Json.get fields "status" .null
  match taskKey hash id with
  | some (.other k) =>
    if !id.truthy || !status.truthy then others
    else if (others.find? k).isSome then others.modify (fun t => t.k == k) (fun t => { t with state := status })
    else if status.isWord ["completed", "failed", "success", "done"] then others
    else others.put ⟨k, agentId, status, .null, .null⟩
  | _ => others

/-- The merge of `active_tasks` up to an item that is no object. -/
def mergeOthers (agentId : String) : List Json → Table (OtherRecord κ) → Table (OtherRecord κ)
  | .obj fields :: items, others => mergeOthers agentId items (mergeOther hash agentId others fields)
  | _, others => others

namespace SyncHandler

/-- Step 3a: the entries of the agent that are over and that it did not report. -/
def memoryOrphans (s : SyncHandler κ) (agentId : String) (active : List (TaskKey κ)) : List (Orphan κ) :=
  (s.tasks.select (fun t => t.agentId == agentId && !active.contains (.text t.id) && t.state.isWord overWords)).map
      (fun t => ⟨.text t.id, t.state, t.result, t.error⟩) ++
    (s.others.select (fun t => t.agentId == agentId && !active.contains (.other t.k) && t.state.isWord overWords)).map
      (fun t => ⟨.other t.k, t.state, t.result, t.error⟩)

/-- Step 3b: the dispatched tasks that are over in the database, that the agent did not report and that are not
in the reply so far. -/
def storeOrphans (dispatched : List Task) (active seen : List (TaskKey κ)) : List (Orphan κ) :=
  (dispatched.filter (fun row => !seen.contains (.text row.id) && !active.contains (.text row.id) &&
      (Json.str row.status.value).isWord overWords)).map
    (fun row => ⟨.text row.id, .str row.status.value, .ofText row.result, .null⟩)

/-- `reply`, from the entries as they are after the merge and the rows as they were read before it. -/
def orphans (s : SyncHandler κ) (agentId : String) (dispatched : List Task) (active : List (TaskKey κ)) :
    List (Orphan κ) :=
  let reply := s.memoryOrphans agentId active
  reply ++ storeOrphans dispatched active (reply.map Orphan.id)

/-- `handle_state_sync`: the server after it, and the message that is sent. There is none when it raises. -/
def handleStateSync (e : Engine) (s : SyncHandler κ) (agentId : String) (data : List (String × Json))
    (clocks : String → Clock) (now : Int) (card : Option Bool) : SyncHandler κ × Option (SyncAnswer κ) :=
  let handler := Server.handleStateSync e s.toRegistryHandler agentId data clocks now card
  match syncRefusal s.toRegistryHandler agentId data now card with
  | some refusal => ({ s with toRegistryHandler := handler }, some (.error refusal))
  | none =>
    match syncedItems s.toRegistryHandler agentId data now card with
    | none => ({ s with toRegistryHandler := handler }, none)
    | some items =>
      let merged : SyncHandler κ := ⟨handler, mergeOthers hash agentId items s.others⟩
      if items.all loggable then
        (merged, some (.stateSyncReply
          (merged.orphans agentId (dbDispatched s.toRegistryHandler agentId) (agentActiveIds hash items))))
      else (merged, none)

end SyncHandler

end

end A2ARegistry.Server
