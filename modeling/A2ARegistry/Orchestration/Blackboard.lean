import A2ARegistry.Base.RoundTrip
import A2ARegistry.Base.Run
import A2ARegistry.Base.Table

namespace A2ARegistry.Orchestration.Blackboard
open Base

/-- The row of `blackboard_entries` for one key of one swarm. -/
structure Entry where
  value : String
  version : Int
  createdBy : String
  createdAt : Int
  updatedAt : Int
deriving DecidableEq, Repr

inductive BlackboardError
  | optimisticLock (message : String)
  | integrity
deriving DecidableEq, Repr

/-- The arguments of `write` besides the key: the dumped value, and a reading of the clock. -/
structure WriteArgs where
  value : String
  createdBy : String := "anonymous"
  expectedVersion : Option Int := none
  now : Int
deriving DecidableEq, Repr

/-- What `write` returns. `created_at` is not among the columns it selects, so it is the time of the write. -/
structure WriteResult where
  key : String
  version : Int
  createdAt : Int
  updatedAt : Int
deriving DecidableEq, Repr

/-- The statement with which `write` ends. -/
inductive Statement
  | insert
  | update (currentVersion : Int)
deriving DecidableEq, Repr

/-- What `write` goes on with, by the version its `SELECT` finds. -/
def WriteArgs.plan (args : WriteArgs) (key : String) : Option Int → Except BlackboardError Statement
  | none => match args.expectedVersion with
    | some expected =>
      if expected ≠ 0 then
        .error (.optimisticLock s!"Key '{key}' does not exist (expected_version={expected}, actual=0)")
      else .ok .insert
    | none => .ok .insert
  | some current => match args.expectedVersion with
    | some expected =>
      if current ≠ expected then
        .error (.optimisticLock s!"Key '{key}' version mismatch: expected={expected}, actual={current}")
      else .ok (.update current)
    | none => .ok (.update current)

/-- The row after a statement, and how many rows it changed. -/
def Statement.execute (args : WriteArgs) : Statement → Option Entry → Except BlackboardError (Option Entry × Nat)
  | .insert, none => .ok (some ⟨args.value, 1, args.createdBy, args.now, args.now⟩, 1)
  | .insert, some _ => .error .integrity
  | .update _, none => .ok (none, 0)
  | .update current, some entry =>
    if entry.version = current then
      .ok (some { entry with
        value := args.value, version := current + 1, updatedAt := args.now, createdBy := args.createdBy }, 1)
    else .ok (some entry, 0)

/-- What `write` returns after its statement, however many rows that changed. -/
def Statement.answer (args : WriteArgs) (key : String) : Statement → WriteResult
  | .insert => ⟨key, 1, args.now, args.now⟩
  | .update current => ⟨key, current + 1, args.now, args.now⟩

/-- `get_version`. -/
def getVersion (entry : Option Entry) : Option Int := entry.map Entry.version

/-- `write`, when nothing comes between its statements. -/
def write (key : String) (args : WriteArgs) (entry : Option Entry) :
    Except BlackboardError WriteResult × Option Entry :=
  match args.plan key (getVersion entry) with
  | .error e => (.error e, entry)
  | .ok statement => match statement.execute args entry with
    | .error e => (.error e, entry)
    | .ok (after, _) => (.ok (statement.answer args key), after)

/-- `delete`. -/
def delete (entry : Option Entry) : Bool × Option Entry := (entry.isSome, none)

/-- The version a client reads. An absent key has the version 0, by which `write` expects it to be absent. -/
def versionOf (entry : Option Entry) : Int := (getVersion entry).getD 0

/-- A read a client made, with the counts of modifications and deletions until then. -/
structure Read where
  client : Nat
  version : Int
  modifications : Nat
  deletions : Nat
deriving DecidableEq, Repr

/-- A write between its two statements. `basis` is the read its expected version is from. -/
structure Pending where
  args : WriteArgs
  basis : Option Read
  statement : Statement
deriving DecidableEq, Repr

/-- A success that was reported to a write with an expected version. -/
structure Success where
  result : WriteResult
  applied : Bool
  basis : Option Read
  modifications : Nat
deriving DecidableEq, Repr

/-- One key and the clients that work on it, with counts of how often the key was modified and how many of these
modifications were deletions. -/
structure Board where
  entry : Option Entry
  modifications : Nat
  deletions : Nat
  reads : List Read
  pending : List Pending
  successes : List Success
deriving DecidableEq, Repr

def Board.empty : Board := ⟨none, 0, 0, [], [], []⟩

/-- One statement of a client. `execute` is the second statement of the pending write at an index; it may fail for
a reason outside the key. -/
inductive BoardEvent
  | read (client : Nat)
  | select (client : Nat) (args : WriteArgs)
  | execute (i : Nat) (fails : Bool)
  | delete
deriving DecidableEq, Repr

namespace Board

/-- The last read of the client that returned the version it expects. -/
def basis (s : Board) (client : Nat) (args : WriteArgs) : Option Read :=
  args.expectedVersion.bind (fun expected =>
    s.reads.find? (fun r => r.client == client && r.version == expected))

/-- The end of a write whose statement changed `rows` rows. -/
def finish (key : String) (s : Board) (p : Pending) (entry : Option Entry) (rows : Nat) : Board :=
  let success : Success := ⟨p.statement.answer p.args key, rows != 0, p.basis, s.modifications⟩
  { s with
    entry := entry
    modifications := s.modifications + rows
    successes := if p.args.expectedVersion.isSome then success :: s.successes else s.successes }

def step (key : String) (s : Board) : BoardEvent → Board
  | .read client => { s with reads := ⟨client, versionOf s.entry, s.modifications, s.deletions⟩ :: s.reads }
  | .select client args =>
    match args.plan key (getVersion s.entry) with
    | .error _ => s
    | .ok statement => { s with pending := s.pending ++ [⟨args, s.basis client args, statement⟩] }
  | .execute i fails =>
    match s.pending[i]? with
    | none => s
    | some p =>
      let rest := { s with pending := s.pending.eraseIdx i }
      if fails then rest
      else match p.statement.execute p.args s.entry with
        | .error _ => rest
        | .ok (entry, rows) => rest.finish key p entry rows
  | .delete =>
    let (deleted, entry) := Blackboard.delete s.entry
    { s with
      entry := entry
      modifications := s.modifications + (if deleted then 1 else 0)
      deletions := s.deletions + (if deleted then 1 else 0) }

/-- Every write that was told it succeeded was applied, and nothing was applied between the read it goes by and it. -/
def NoLostUpdate (s : Board) : Prop :=
  ∀ o ∈ s.successes, o.applied = true ∧ ∀ r, o.basis = some r → r.modifications = o.modifications

end Board

/-- A row of `blackboard_entries`. -/
structure Row where
  swarmRootId : String
  key : String
  entry : Entry
deriving DecidableEq, Repr

instance : Keyed (String × String) Row := ⟨fun r => (r.swarmRootId, r.key)⟩

/-- The row of one key of one swarm. -/
def entryOf (rows : Table Row) (rootId key : String) : Option Entry := (rows.find? (rootId, key)).map Row.entry

/-- The table when the row of one key is as given. -/
def setEntry (rows : Table Row) (rootId key : String) : Option Entry → Table Row
  | none => rows.delete (fun r => r.swarmRootId == rootId && r.key == key)
  | some entry => rows.put ⟨rootId, key, entry⟩

namespace BlackboardStore

/-- `write`. The `INSERT` or `UPDATE` is refused when the root is not a task. -/
def write (rows : Table Row) (rootId key : String) (args : WriteArgs) (refused : Bool) :
    Except BlackboardError WriteResult × Table Row :=
  match Blackboard.write key args (entryOf rows rootId key) with
  | (.error e, _) => (.error e, rows)
  | (.ok result, entry) => if refused then (.error .integrity, rows) else (.ok result, setEntry rows rootId key entry)

/-- `delete`. -/
def delete (rows : Table Row) (rootId key : String) : Bool × Table Row :=
  let (deleted, entry) := Blackboard.delete (entryOf rows rootId key)
  (deleted, setEntry rows rootId key entry)

/-- What `read` returns for an entry. -/
def cell (value : Json) (version : Int) (createdBy : String) (createdAt updatedAt : Int) : Json :=
  .obj [("value", value), ("version", .int version), ("created_by", .str createdBy), ("created_at", .int createdAt),
    ("updated_at", .int updatedAt)]

/-- The value of a row: the text itself, if it is not JSON. -/
def storedValue (p : Python) (entry : Entry) : Json := (Json.loads p entry.value).getD (.str entry.value)

def entryCell (p : Python) (entry : Entry) : Json :=
  cell (storedValue p entry) entry.version entry.createdBy entry.createdAt entry.updatedAt

/-- The rows of `read`, for all keys if none are named. -/
def selected (rows : Table Row) (rootId : String) (keys : List String) : List Row :=
  (rows.select (fun r => r.swarmRootId == rootId && (keys.isEmpty || keys.contains r.key))).mergeSort
    (fun r s => r.key ≤ s.key)

/-- `read`. -/
def read (p : Python) (rows : Table Row) (rootId : String) (keys : List String) : List (String × Json) :=
  let rows := selected rows rootId keys
  Json.putField (rows.map (fun r => (r.key, entryCell p r.entry)))
    ("_authors", .obj (rows.map (fun r => (r.key, .str r.entry.createdBy))))

end BlackboardStore

end A2ARegistry.Orchestration.Blackboard
