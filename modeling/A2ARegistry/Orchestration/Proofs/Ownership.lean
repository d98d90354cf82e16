import A2ARegistry.Orchestration.Routes
import A2ARegistry.Orchestration.Proofs.Runs

namespace A2ARegistry.Orchestration
open Base Security

/-- What can ask for a new status of a task: a call of the store, or one of the
requests that make one. -/
inductive StatusRequest
  | update (clock : Clock) (newStatus : String) (args : StatusArgs)
  | complete (ape : Option Ape) (agentId : String) (clock : Clock) (body : CompleteBody)
  | block (clock commentClock : Clock) (body : BlockBody)
  | patch (clock : Clock) (status : Json)

namespace StatusRequest

/-- The lock a request presents. A `PATCH` has none to present. -/
def claimLock : StatusRequest → Json
  | update _ _ args => args.claimLock
  | complete _ _ _ body => body.claimLock
  | block _ _ body => body.claimLock
  | patch .. => .null

/-- The database after the request. -/
def run (codec : Codec) (db : Db) (taskId : String) : StatusRequest → Db
  | update clock newStatus args => step db (.updateTaskStatus clock taskId newStatus args)
  | complete ape agentId clock body => (handleComplete codec ape db clock agentId taskId body).2
  | block clock commentClock body => (handleBlock codec db clock commentClock taskId body).2
  | patch clock status => (handleUpdateStatus codec db clock taskId status).2

end StatusRequest

/-- One call of `update_task_status` with this lock went through and gave these tasks. -/
def UpdatedUnder (claimLock : Json) (taskId : String) (db db' : Db) : Prop :=
  ∃ clock s args view mid, args.claimLock = claimLock ∧
    updateTaskStatus db clock taskId s args = .ok (view, mid) ∧ db'.tasks = mid.tasks

theorem blockComment_tasks (codec : Codec) (db : Db) (clock : Clock) (taskId : String) (reason : Json) :
    (blockComment codec db clock taskId reason).tasks = db.tasks := by
  unfold blockComment
  split
  · exact commented_tasks ..
  · rfl

section
variable (codec : Codec) (db : Db) (clock : Clock) (taskId : String)

theorem failOnContract_db (body : CompleteBody) (headers : List (String × String)) (error : String) :
    (failOnContract codec db clock taskId body headers error).2 = db ∨
      UpdatedUnder body.claimLock taskId db
        (failOnContract codec db clock taskId body headers error).2 := by
  unfold failOnContract
  cases h : updateTaskStatus db clock taskId TaskStatus.failed.value (body.failArgs error) with
  | ok r => exact Or.inr ⟨_, _, _, _, _, rfl, h, rfl⟩
  | error e =>
    left
    cases e <;> rfl

theorem completeTask_db (body : CompleteBody) (headers : List (String × String)) :
    (completeTask codec db clock taskId body headers).2 = db ∨
      UpdatedUnder body.claimLock taskId db (completeTask codec db clock taskId body headers).2 := by
  unfold completeTask
  cases h : updateTaskStatus db clock taskId TaskStatus.completed.value (body.args codec) with
  | ok r => exact Or.inr ⟨_, _, _, _, _, rfl, h, rfl⟩
  | error e => exact Or.inl rfl

theorem handleComplete_db (ape : Option Ape) (agentId : String) (body : CompleteBody) :
    (handleComplete codec ape db clock agentId taskId body).2 = db ∨
      UpdatedUnder body.claimLock taskId db
        (handleComplete codec ape db clock agentId taskId body).2 := by
  unfold handleComplete
  dsimp only
  split
  · exact Or.inl rfl
  split
  · exact Or.inl rfl
  · exact failOnContract_db codec db clock taskId body _ _
  · exact completeTask_db codec db clock taskId body _

theorem handleBlock_db (commentClock : Clock) (body : BlockBody) :
    (handleBlock codec db clock commentClock taskId body).2 = db ∨
      UpdatedUnder body.claimLock taskId db
        (handleBlock codec db clock commentClock taskId body).2 := by
  unfold handleBlock
  cases h : updateTaskStatus db clock taskId TaskStatus.blocked.value { claimLock := body.claimLock } with
  | ok r => exact Or.inr ⟨_, _, _, _, _, rfl, h, blockComment_tasks ..⟩
  | error e => exact Or.inl rfl

theorem handleUpdateStatus_db (status : Json) :
    (handleUpdateStatus codec db clock taskId status).2 = db ∨
      UpdatedUnder .null taskId db (handleUpdateStatus codec db clock taskId status).2 := by
  unfold handleUpdateStatus
  split
  · rename_i newStatus
    cases h : updateTaskStatus db clock taskId newStatus {} with
    | ok r => exact Or.inr ⟨_, _, _, _, _, rfl, h, rfl⟩
    | error e => exact Or.inl rfl
  · left
    cases db.task? taskId <;> rfl

/-- Every request comes down to at most one update, which presents the request's lock. -/
theorem request_db (r : StatusRequest) : r.run codec db taskId = db ∨
    UpdatedUnder r.claimLock taskId db (r.run codec db taskId) := by
  cases r with
  | update clock s args =>
    rcases tx_cases db (updateTaskStatus db clock taskId s args) with ⟨view, db', h, he⟩ | ⟨_, _, he⟩
    · exact Or.inr ⟨clock, s, args, view, db', rfl, h, congrArg Db.tasks he⟩
    · exact Or.inl he
  | complete ape agentId clock body => exact handleComplete_db codec db clock taskId ape agentId body
  | block clock commentClock body => exact handleBlock_db codec db clock taskId commentClock body
  | patch clock status => exact handleUpdateStatus_db codec db clock taskId status

end

/-- A lock that counts as presented and is not the stored one. -/
structure ForeignLock (t : Task) (claimLock : Json) : Prop where
  presented : claimLock.truthy = true
  other : claimLock ≠ .ofText t.claimLock

theorem foreign_refused {t : Task} {claimLock : Json} (hs : t.status = .running)
    (h : ForeignLock t claimLock) : lockRefused t claimLock = true := by
  have hne : claimLock.eqText t.claimLock = false :=
    Bool.eq_false_iff.mpr fun he => h.other (Json.eqText_iff.mp he)
  simp [lockRefused, hs, h.presented, hne]

/-- The calls that can take a running task out of `running`. -/
inductive Ends (k : String) (t : Task) : Op → Prop
  | update (h : ¬ ForeignLock t args.claimLock) : Ends k t (.updateTaskStatus clock k s args)
  | release (h : t.expired clock.now tenant = true) : Ends k t (.releaseExpiredClaims clock tenant)

theorem step_ends {db : Db} {op : Op} {k : String} {t t' : Task} (ht : db.task? k = some t)
    (hs : t.status = .running) (ht' : (step db op).task? k = some t') (hs' : t'.status ≠ .running) :
    Ends k t op := by
  have hid := Db.task_id ht
  have hrow := step_moves ht ht'
  generalize step db op = db' at hrow
  cases hrow with
  | same | edited | placed | manned | beat => exact absurd hs hs'
  | claimed => exact absurd rfl hs'
  | moved accepted =>
    subst hid
    refine Ends.update fun hf => ?_
    have hlock := accepted.lock
    rw [foreign_refused hs hf] at hlock
    cases hlock
  | settled =>
    rcases settle_cases db' t with ⟨htodo, _⟩ | ⟨hready, _⟩ | ⟨_, _, he⟩
    · rw [hs] at htodo
      cases htodo
    · rw [hs] at hready
      cases hready
    · rw [he] at hs'
      exact absurd hs hs'
  | released expired => exact Ends.release expired
  | promoted retryable =>
    simp [Task.retryable, hs] at retryable

/-- An update that goes through on a running task does not present a foreign lock. -/
theorem updated_not_foreign {db db' : Db} {claimLock : Json} {k : String} {t : Task}
    (ht : db.task? k = some t) (hs : t.status = .running) (h : UpdatedUnder claimLock k db db') :
    ¬ ForeignLock t claimLock := by
  obtain ⟨clock, s, args, view, mid, rfl, hok, _⟩ := h
  intro hf
  obtain ⟨e, he⟩ := updateTaskStatus_refused clock s ht (foreign_refused hs hf)
  rw [hok] at he
  cases he

/-- What a status request leaves alone: the lock and the current run of the task, and its
result unless it completes. -/
structure LeaseKept (t t' : Task) : Prop where
  lock : t'.claimLock = t.claimLock
  run : t'.currentRunId = t.currentRunId
  result : t'.status ≠ .completed → t'.result = t.result

theorem updated_keeps_lease {db db' : Db} {claimLock : Json} {k : String} {t : Task}
    (ht : db.task? k = some t) (h : UpdatedUnder claimLock k db db') :
    ∃ t', db'.task? k = some t' ∧ LeaseKept t t' := by
  obtain ⟨clock, s, args, view, mid, _, hok, htasks⟩ := h
  have hstep : step db (.updateTaskStatus clock k s args) = mid := by
    simp [step, Db.tx, hok]
  obtain ⟨t', ht', hrow⟩ := step_row (.updateTaskStatus clock k s args) ht
  rw [hstep] at ht' hrow
  refine ⟨t', by rw [Db.task?, htasks]; exact ht', ?_⟩
  cases hrow with
  | same => exact ⟨rfl, rfl, fun _ => rfl⟩
  | @moved _ _ new =>
    refine ⟨rfl, rfl, fun hs => ?_⟩
    have hnew : ¬ new = .completed := hs
    simp [Task.move, hnew]
  | settled =>
    obtain ⟨status, he⟩ := settle_kept mid t
    rw [he]
    exact ⟨rfl, rfl, fun _ => rfl⟩

/-- A running task belongs to its lease holder as far as a lock is presented at all: a
request with a foreign lock changes nothing, no request changes the lock or the current
run, nor the result unless the task completes, and what ends the task is an update without
a foreign lock or an expiry. -/
theorem running_task_owned {db : Db} {k : String} {t : Task} (ht : db.task? k = some t)
    (hs : t.status = .running) :
    (∀ codec (r : StatusRequest), ForeignLock t r.claimLock → r.run codec db k = db) ∧
    (∀ codec (r : StatusRequest), ∃ t', (r.run codec db k).task? k = some t' ∧ LeaseKept t t') ∧
    (∀ op t', (step db op).task? k = some t' → t'.status ≠ .running → Ends k t op) := by
  refine ⟨?_, ?_, fun op t' => step_ends ht hs⟩
  · intro codec r hf
    rcases request_db codec db k r with he | hu
    · exact he
    · exact absurd hf (updated_not_foreign ht hs hu)
  · intro codec r
    rcases request_db codec db k r with he | hu
    · rw [he]
      exact ⟨t, ht, rfl, rfl, fun _ => rfl⟩
    · exact updated_keeps_lease ht hu

def heldTask : List Op :=
  [.createTask (.fixed 0) "a" { title := "a" }, .claimTask (.fixed 0) "t_a" "w" 1 900]

/-- Conversions that agree with the real ones on `null`, all the requests below convert. -/
def nullCodec : Codec := ⟨fun _ => "null", fun _ => "None", fun _ => some .null⟩

theorem heldTask_row : ∃ t, (exec step Db.empty heldTask).task? "t_a" = some t ∧
    t.status = .running ∧ t.claimLock = some "w:1" := by
  refine ⟨_, rfl, ?_⟩
  decide

/-- The worker of another process cannot block the task. -/
theorem running_task_owned_by_first :
    (StatusRequest.block (.fixed 5) (.fixed 5) { claimLock := .str "w:2" }).run nullCodec
      (exec step Db.empty heldTask) "t_a" = exec step Db.empty heldTask := by
  obtain ⟨t, ht, hs, hl⟩ := heldTask_row
  refine (running_task_owned ht hs).1 nullCodec _ ⟨by decide, fun he => ?_⟩
  rw [hl] at he
  exact absurd (Json.eqText_iff.mpr he) (by decide)

/-- A completion without a lock: the empty request body. -/
def bareCompletion : StatusRequest := .complete none "" (.fixed 5) {}

/-- It finishes the task of another worker. -/
theorem completed_without_lock :
    ((exec step Db.empty heldTask).task? "t_a").map (fun t => (t.status, t.claimLock)) =
      some (.running, some "w:1") ∧
    bareCompletion.claimLock ≠ .str "w:1" ∧
    InStatus "t_a" .completed (bareCompletion.run nullCodec (exec step Db.empty heldTask) "t_a") := by
  refine ⟨by decide, ?_, by decide⟩
  intro he
  cases he

end A2ARegistry.Orchestration
