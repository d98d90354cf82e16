import Mathlib.Data.List.Dedup
import Mathlib.Data.List.Sort
import Mathlib.Data.String.Basic
import A2ARegistry.Base.Dumps
import A2ARegistry.Base.Interleaving
import A2ARegistry.Base.Like
import A2ARegistry.Base.Table
import A2ARegistry.Orchestration.Store.Listing

namespace A2ARegistry.Orchestration.SharedWorkspace
open Base

/-- A row of `shared_workspaces`. The members are the list that is dumped into its column. -/
structure Workspace where
  id : String
  name : String
  path : String
  tenant : String
  memberAgentIds : List String
  createdBy : String
  createdAt : Int
deriving DecidableEq, Repr

/-- A row of `workspace_files`. -/
structure WorkspaceFile where
  id : Nat
  workspaceId : String
  path : String
  lockedBy : Option String
  lockExpires : Option Int
  checksum : Option String
  version : Int
  updatedAt : Int
deriving DecidableEq, Repr

instance : Keyed String Workspace := ⟨Workspace.id⟩

instance : Keyed Nat WorkspaceFile := ⟨WorkspaceFile.id⟩

/-- The tables of the manager. -/
structure Shared where
  workspaces : Table Workspace
  files : AutoTable WorkspaceFile

def Shared.empty : Shared := ⟨Table.empty, AutoTable.empty⟩

inductive WorkspaceError
  | workspaceNotFound (message : String)
  | memberError (message : String)
  | lockError (message : String)
  | sharedWorkspaceError (message : String)
  | valueError
  | overflowError
  | integrityError
deriving DecidableEq, Repr

/-- What a call returns: a row, or the empty dict or `None` where there is none, or a truth value, or a number. -/
inductive Record
  | workspace (row : Option Workspace)
  | file (row : Option WorkspaceFile)
  | deleted (b : Bool)
  | released (n : Nat)
deriving DecidableEq, Repr

abbrev Outcome := Except WorkspaceError Record

section Statements

/-- `SELECT * FROM shared_workspaces WHERE id = ?`, which is all of `get`. -/
def Shared.get (db : Shared) (workspaceId : String) : Option Workspace := db.workspaces.find? workspaceId

/-- `SELECT * FROM workspace_files WHERE workspace_id = ? AND path = ?`, and the first of its rows. -/
def Shared.file (db : Shared) (workspaceId path : String) : Option WorkspaceFile :=
  db.files.rows.find? (fun f => f.workspaceId == workspaceId && f.path == path)

/-- The column `member_agent_ids`: `json.dumps` of the list. -/
def Workspace.memberColumn (w : Workspace) : String := Json.dumps (.arr (w.memberAgentIds.map Json.str))

/-- `list_accessible`. An empty name filters nothing. -/
def Shared.listAccessible (db : Shared) (agentId tenant : Option String) : List Workspace :=
  db.workspaces.select (fun w => (!truthy tenant || some w.tenant == tenant) &&
    (!truthy agentId || likeText ("%" ++ agentId.getD "" ++ "%") w.memberColumn))

def Shared.setMembers (db : Shared) (workspaceId : String) (members : List String) : Shared :=
  { db with
    workspaces := db.workspaces.modify (fun w => w.id == workspaceId)
      (fun w => { w with memberAgentIds := members }) }

/-- The `UPDATE` with which `leave` releases the locks of an agent. -/
def Shared.releaseAll (db : Shared) (workspaceId agentId : String) (now : Int) : Shared :=
  { db with
    files := db.files.modify
      (fun f => f.workspaceId == workspaceId && f.lockedBy == some agentId && f.lockExpires.all (fun e => now < e))
      (fun f => { f with lockedBy := none, lockExpires := none }) }

def Shared.takeLock (db : Shared) (fileId : Nat) (agentId : String) (expires : Int) : Shared :=
  { db with
    files := db.files.modify (fun f => f.id == fileId)
      (fun f => { f with lockedBy := some agentId, lockExpires := some expires, version := f.version + 1 }) }

def Shared.trackFile (db : Shared) (workspaceId path agentId : String) (expires : Int) (checksum : Option String)
    (now : Int) : Shared :=
  { db with
    files := db.files.insert (fun id =>
      ⟨id, workspaceId, path, some agentId, some expires, checksum, 1, now⟩) }

def Shared.releaseLock (db : Shared) (fileId : Nat) (checksum : Option String) (now : Int) : Shared :=
  { db with
    files := db.files.modify (fun f => f.id == fileId)
      (fun f => { f with
        lockedBy := none, lockExpires := none, checksum := checksum, version := f.version + 1, updatedAt := now }) }

end Statements

/-- `sorted(ids)` of a set. -/
def sortedIds (ids : List String) : List String := ids.dedup.insertionSort (· ≤ ·)

/-- A call of an agent. `relPath` is what the file system resolves the path to under the workspace, if it is within
it, and `checksum` what it computes of the file. -/
inductive Access
  | join (workspaceId agentId : String)
  | leave (workspaceId agentId : String)
  | lock (workspaceId : String) (relPath : Option String) (agentId : String) (ttl : Option Int)
    (checksum : Option String)
  | unlock (workspaceId : String) (relPath : Option String) (agentId : String) (checksum : Option String)
deriving DecidableEq, Repr

section Programs

def notFound (workspaceId : String) : WorkspaceError := .workspaceNotFound s!"Workspace '{workspaceId}' not found"

def notMember (workspaceId agentId : String) : WorkspaceError :=
  .memberError s!"Agent '{agentId}' is not a member of workspace '{workspaceId}'"

/-- The end of `join` and `leave`: a commit and the new record. -/
def finishWorkspace (workspaceId : String) : Program Shared Outcome :=
  .commit (.select fun db => .ret (.ok (.workspace (db.get workspaceId))))

/-- `join`. -/
def join (workspaceId agentId : String) : Program Shared Outcome :=
  .select fun db => match db.get workspaceId with
    | none => .ret (.error (notFound workspaceId))
    | some ws =>
      if agentId ∈ ws.memberAgentIds then .ret (.ok (.workspace (some ws)))
      else .write (fun db => db.setMembers workspaceId (sortedIds (agentId :: ws.memberAgentIds)))
        (finishWorkspace workspaceId)

/-- `leave`. -/
def leave (now : Int) (workspaceId agentId : String) : Program Shared Outcome :=
  .select fun db => match db.get workspaceId with
    | none => .ret (.error (notFound workspaceId))
    | some ws =>
      if agentId ∈ ws.memberAgentIds then
        .write (fun db => db.setMembers workspaceId (sortedIds (ws.memberAgentIds.filter (· ≠ agentId))))
          (.write (fun db => db.releaseAll workspaceId agentId now) (finishWorkspace workspaceId))
      else .ret (.ok (.workspace (some ws)))

/-- The test `lock` makes on a row: an unexpired lock of another agent. -/
def WorkspaceFile.lockedFor (f : WorkspaceFile) (agentId : String) (now : Int) : Bool :=
  truthy f.lockedBy && f.lockedBy != some agentId && now < f.lockExpires.getD 0

def pyOpt {α : Type} [ToString α] (v : Option α) : String := (v.map toString).getD "None"

/-- What follows when `lock` has read the row of the file. -/
def takeOrTrack (now expires : Int) (workspaceId path agentId : String) (checksum : Option String)
    (existing : Option WorkspaceFile) : Program Shared Outcome :=
  let finish := .commit (.select fun db => .ret (.ok (.file (db.file workspaceId path))))
  match existing with
  | some f =>
    if f.lockedFor agentId now then
      .ret (.error (.lockError
        s!"File '{path}' is already locked by agent '{pyOpt f.lockedBy}' until {pyOpt f.lockExpires}"))
    else if fitsInteger expires then .write (fun db => db.takeLock f.id agentId expires) finish
    else .ret (.error .overflowError)
  | none =>
    if fitsInteger expires then
      .write (fun db => db.trackFile workspaceId path agentId expires checksum now) finish
    else .ret (.error .overflowError)

/-- `lock`. -/
def lock (lockTtl now : Int) (workspaceId : String) (relPath : Option String) (agentId : String) (ttl : Option Int)
    (checksum : Option String) : Program Shared Outcome :=
  .select fun db => match db.get workspaceId with
    | none => .ret (.error (notFound workspaceId))
    | some ws =>
      if agentId ∈ ws.memberAgentIds then
        match relPath with
        | none => .ret (.error .valueError)
        | some path => .select fun db =>
          takeOrTrack now (now + ttl.getD lockTtl) workspaceId path agentId checksum (db.file workspaceId path)
      else .ret (.error (notMember workspaceId agentId))

/-- What follows when `unlock` has read the row of the file. -/
def releaseFile (now : Int) (path agentId : String) (checksum : Option String) :
    Option WorkspaceFile → Program Shared Outcome
  | none => .ret (.ok (.file none))
  | some f =>
    if truthy f.lockedBy && f.lockedBy != some agentId then
      .ret (.error (.lockError s!"File '{path}' is locked by agent '{pyOpt f.lockedBy}', not '{agentId}'"))
    else .write (fun db => db.releaseLock f.id checksum now)
      (.commit (.select fun db => .ret (.ok (.file (db.files.find? f.id)))))

/-- `unlock`. -/
def unlock (now : Int) (workspaceId : String) (relPath : Option String) (agentId : String)
    (checksum : Option String) : Program Shared Outcome :=
  .select fun db => match db.get workspaceId with
    | none => .ret (.error (notFound workspaceId))
    | some _ => match relPath with
      | none => .ret (.error .valueError)
      | some path => .select fun db => releaseFile now path agentId checksum (db.file workspaceId path)

/-- A call as its statements, by the clock it reads. -/
def Access.program (lockTtl now : Int) : Access → Program Shared Outcome
  | .join workspaceId agentId => SharedWorkspace.join workspaceId agentId
  | .leave workspaceId agentId => SharedWorkspace.leave now workspaceId agentId
  | .lock workspaceId relPath agentId ttl checksum =>
    SharedWorkspace.lock lockTtl now workspaceId relPath agentId ttl checksum
  | .unlock workspaceId relPath agentId checksum => SharedWorkspace.unlock now workspaceId relPath agentId checksum

end Programs

section Operations

/-- `create`, with the id and the path that it comes up with. -/
def create (now : Int) (workspaceId name path tenant createdBy : String) (members : List String) (db : Shared) :
    Outcome × Shared :=
  match db.workspaces.insert? ⟨workspaceId, name, path, tenant, sortedIds (createdBy :: members), createdBy, now⟩ with
  | none => (.error .integrityError, db)
  | some workspaces =>
    let db := { db with workspaces := workspaces }
    (.ok (.workspace (db.get workspaceId)), db)

/-- `delete`. -/
def delete (workspaceId caller : String) (db : Shared) : Outcome × Shared :=
  match db.get workspaceId with
  | none => (.ok (.deleted false), db)
  | some ws =>
    if caller ≠ "" ∧ ws.createdBy ≠ "" ∧ ws.createdBy ≠ caller then
      (.error (.sharedWorkspaceError s!"Agent '{caller}' is not the creator of workspace '{workspaceId}'"), db)
    else (.ok (.deleted true),
      { workspaces := db.workspaces.delete (fun w => w.id == workspaceId)
        files := db.files.keep (fun f => f.workspaceId != workspaceId) })

/-- The test of `reap_stale_locks`. -/
def WorkspaceFile.staleAt (f : WorkspaceFile) (cutoff : Int) : Bool := f.lockExpires.any (fun e => e < cutoff)

/-- `reap_stale_locks`. -/
def reapStaleLocks (lockTtl now : Int) (maxAge : Option Int) (db : Shared) : Outcome × Shared :=
  let cutoff := now - maxAge.getD lockTtl
  (.ok (.released (db.files.select (fun f => f.staleAt cutoff)).length),
    { db with
      files := db.files.modify (fun f => f.staleAt cutoff)
        (fun f => { f with lockedBy := none, lockExpires := none }) })

/-- An operation on the manager. -/
inductive Operation
  | create (workspaceId name path tenant createdBy : String) (members : List String)
  | delete (workspaceId caller : String)
  | access (a : Access)
  | reapStaleLocks
deriving DecidableEq, Repr

/-- An operation with nothing between its statements. -/
def Operation.run (lockTtl now : Int) (db : Shared) : Operation → Outcome × Shared
  | .create workspaceId name path tenant createdBy members =>
    SharedWorkspace.create now workspaceId name path tenant createdBy members db
  | .delete workspaceId caller => SharedWorkspace.delete workspaceId caller db
  | .access a => (a.program lockTtl now).run db
  | .reapStaleLocks => SharedWorkspace.reapStaleLocks lockTtl now none db

end Operations

end A2ARegistry.Orchestration.SharedWorkspace
