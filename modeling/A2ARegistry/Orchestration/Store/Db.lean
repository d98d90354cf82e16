import A2ARegistry.Orchestration.Models

namespace A2ARegistry.Orchestration
open Base

/-- The tables the task store writes. -/
structure Db where
  tasks : Table Task
  links : Table TaskLink
  runs : AutoTable TaskRun
  comments : AutoTable TaskComment
  events : AutoTable TaskEvent

/-- The clock readings of one call: `now` is read before the transaction begins,
`eventNow n` when the audit event with id `n` is inserted. -/
structure Clock where
  now : Int
  eventNow : Nat → Int

/-- A clock that stands still. -/
def Clock.fixed (now : Int) : Clock := ⟨now, fun _ => now⟩

/-- Default TTL of a claim lock, in seconds. -/
def defaultClaimTtl : Int := 900

/-- Default retry limit. -/
def defaultMaxRetries : Int := 3

namespace Db

/-- The schema as created, with no rows. -/
def empty : Db := ⟨Table.empty, Table.empty, AutoTable.empty, AutoTable.empty, AutoTable.empty⟩

/-- `SELECT * FROM tasks WHERE id = ?`. -/
def task? (db : Db) (id : String) : Option Task := db.tasks.find? id

def run? (db : Db) (id : Nat) : Option TaskRun := db.runs.find? id

/-- `UPDATE tasks SET f WHERE id = ?`. -/
def setTask (db : Db) (id : String) (f : Task → Task)
    (hf : ∀ t, (f t).id = t.id := by intro _; rfl) : Db :=
  { db with tasks := db.tasks.modify (fun t => t.id == id) f hf }

/-- `UPDATE task_runs SET f WHERE id = ?`, skipped when the id is NULL. -/
def setRun (db : Db) (id : Option Nat) (f : TaskRun → TaskRun)
    (hf : ∀ r, (f r).id = r.id := by intro _; rfl) : Db :=
  match id with
  | none => db
  | some runId => { db with runs := db.runs.modify (fun r => r.id == runId) f hf }

/-- `TaskStore._tx` around a body: commit its result, or roll back and re-raise. -/
def tx {α : Type} (db : Db) (body : Except StoreError (α × Db)) : Except StoreError α × Db :=
  match body with
  | .ok (a, db') => (.ok a, db')
  | .error e => (.error e, db)

theorem task_id {db : Db} {id : String} {t : Task} (h : db.task? id = some t) : t.id = id :=
  Table.find_key h

theorem mem_tasks {db : Db} {t : Task} : t ∈ db.tasks.rows ↔ db.task? t.id = some t :=
  ⟨fun h => Table.find_mem h, fun h => (Table.find_some_iff.mp h).1⟩

@[simp] theorem task_setTask (db : Db) (id : String) (f : Task → Task) (hf : ∀ t, (f t).id = t.id)
    (k : String) :
    (db.setTask id f hf).task? k = (db.task? k).map (fun t => if k = id then f t else t) := by
  have he : (db.setTask id f hf).task? k =
      (db.tasks.find? k).map (fun t => if t.id == id then f t else t) :=
    Table.find_modify db.tasks (fun t => t.id == id) f hf k
  rw [he]
  cases h : db.tasks.find? k with
  | none => simp [task?, h]
  | some t =>
    have ht : t.id = k := Table.find_key h
    simp [task?, h, ht]

@[simp] theorem links_setTask (db : Db) (id : String) (f : Task → Task) (hf : ∀ t, (f t).id = t.id) :
    (db.setTask id f hf).links = db.links := rfl

@[simp] theorem run_setTask (db : Db) (id : String) (f : Task → Task) (hf : ∀ t, (f t).id = t.id)
    (n : Nat) : (db.setTask id f hf).run? n = db.run? n := rfl

section
variable (db : Db) (id : Option Nat) (f : TaskRun → TaskRun) (hf : ∀ r, (f r).id = r.id)

@[simp] theorem task_setRun (k : String) : (db.setRun id f hf).task? k = db.task? k := by
  cases id <;> rfl

@[simp] theorem links_setRun : (db.setRun id f hf).links = db.links := by
  cases id <;> rfl

@[simp] theorem run_setRun (n : Nat) : (db.setRun id f hf).run? n =
    (db.run? n).map (fun r => if id = some n then f r else r) := by
  cases id with
  | none => simp [setRun]
  | some runId =>
    have he : (db.setRun (some runId) f hf).run? n =
        (db.run? n).map (fun r => if r.id == runId then f r else r) :=
      AutoTable.find_modify db.runs (fun r => r.id == runId) f hf n
    rw [he]
    cases h : db.run? n with
    | none => rfl
    | some r =>
      have hr : r.id = n := Table.find_key h
      by_cases hn : n = runId
      · simp [hr, hn]
      · simp [hr, hn, Ne.symm hn]

end

end Db

/-- `TaskStore._emit_event`. An empty payload is stored as NULL. -/
def emitEvent (db : Db) (clock : Clock) (taskId kind : String) (runId : Option Nat)
    (payload : List (String × Json)) : Db :=
  { db with
    events := db.events.insert (fun id => {
      id := id
      taskId := taskId
      runId := runId
      kind := kind
      payload := if payload.isEmpty then none else some payload
      createdAt := clock.eventNow id }) }

section
variable (db : Db) (clock : Clock) (taskId kind : String) (runId : Option Nat)
  (payload : List (String × Json))

@[simp] theorem links_emitEvent : (emitEvent db clock taskId kind runId payload).links = db.links := rfl

@[simp] theorem task_emitEvent (k : String) :
    (emitEvent db clock taskId kind runId payload).task? k = db.task? k := rfl

@[simp] theorem run_emitEvent (n : Nat) :
    (emitEvent db clock taskId kind runId payload).run? n = db.run? n := rfl

end

/-- What `get_task` loads of a linked task. -/
structure TaskSummary where
  id : String
  title : String
  status : TaskStatus
deriving DecidableEq, Repr

/-- A task with the transient lists `get_task` fills in. -/
structure TaskView where
  task : Task
  parents : List TaskSummary
  children : List TaskSummary
deriving DecidableEq, Repr

def Task.summary (t : Task) : TaskSummary := ⟨t.id, t.title, t.status⟩

/-- `TaskStore.get_task`. -/
def getTask (db : Db) (taskId : String) : Option TaskView :=
  (db.task? taskId).map (fun t => {
    task := t
    parents := (db.links.select (fun l => l.childId == taskId)).filterMap
      (fun l => (db.task? l.parentId).map Task.summary)
    children := (db.links.select (fun l => l.parentId == taskId)).filterMap
      (fun l => (db.task? l.childId).map Task.summary) })

end A2ARegistry.Orchestration
