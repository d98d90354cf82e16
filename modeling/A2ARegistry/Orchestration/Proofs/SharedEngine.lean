import A2ARegistry.Base.Run
import A2ARegistry.Orchestration.SharedEngine

namespace A2ARegistry.Orchestration.Shared
open Base Session

section Tidy

theorem tidy_selects (faults : List (Option String)) : Tidy (selects faults) := by
  induction faults with
  | nil => exact tidy_pure ()
  | cons fault faults ih => exact (tidy_query _ _).bind fun _ => ih

theorem tidy_read (faults : TaskStore.TxFaults) : Tidy (TaskStore.read faults) := tidy_transaction _ _ _

theorem tidy_write (faults reload : TaskStore.TxFaults) (op : Op) : Tidy (TaskStore.write faults reload op) := by
  unfold TaskStore.write
  split
  · exact tidy_raise _
  · refine Tidy.bind (tidy_transaction _ _ _) fun again => ?_
    split
    · exact tidy_read reload
    · exact tidy_pure ()

theorem tidy_batch (newStatus : String) (items : List (Clock × String × TaskStore.TxFaults × TaskStore.TxFaults)) :
    Tidy (TaskStore.batch newStatus items) := by
  induction items with
  | nil => exact tidy_pure ()
  | cons item items ih =>
    obtain ⟨clock, taskId, faults, reload⟩ := item
    exact Tidy.bind (tidy_write faults reload _).catching fun _ => ih

end Tidy

section Refused

theorem refused_read (faults : TaskStore.TxFaults) : Refused (TaskStore.read faults) := refused_transaction _ _ _

theorem refused_write (faults reload : TaskStore.TxFaults) {op : Op} (h : TaskStore.refusal op = none) :
    Refused (TaskStore.write faults reload op) := by
  unfold TaskStore.write
  rw [h]
  exact Refused.bind (refused_transaction _ _ _) _

end Refused

section Plain

theorem plain_selects (faults : List (Option String)) : Plain (selects faults) := by
  induction faults with
  | nil => exact plain_pure ()
  | cons fault faults ih => exact (plain_query _ _).bind fun _ => ih

theorem plain_ignore {α : Type} {x : Call α} (hx : Plain x) : Plain (ignore x) := hx.bind fun _ => plain_pure ()

/-- The calls of the task store. -/
def Operation.isTask : Operation → Bool
  | .taskRead .. | .taskWrite .. | .taskBatch .. => true
  | _ => false

/-- Only the task store begins transactions, and rolls them back. -/
theorem plain_call {op : Operation} (h : op.isTask = false) : Plain op.call := by
  cases op with
  | taskRead | taskWrite | taskBatch => cases h
  | reads faults => exact plain_selects faults
  | blackboardWrite faults swarmRootId key args =>
    refine (plain_query _ _).bind fun existing => ?_
    split
    · exact plain_raise _
    · exact plain_execute _ _
  | blackboardDelete => exact plain_ignore (plain_execute _ _)
  | memorySet =>
    exact plain_ignore ((plain_query _ _).bind fun _ =>
      ((plain_execute _ _).committing _).bind fun _ => plain_query _ _)
  | memoryDelete | memoryPurge | cronUpdateNextRun | cronSetEnabled =>
    exact plain_ignore ((plain_execute _ _).committing _)
  | cronCreate | cronUpdateExecutionStatus => exact (plain_execute _ _).committing _
  | cronDelete =>
    exact plain_ignore ((Plain.bind (plain_execute _ _) fun _ => plain_execute _ _).committing _)
  | cronCreateExecution => exact ((plain_execute _ _).committing _).bind fun _ => plain_query _ _

theorem tidy_call {op : Operation} (h : op.isTask = true) : Tidy op.call := by
  cases op with
  | taskRead faults => exact tidy_read faults
  | taskWrite faults reload op => exact tidy_write faults reload op
  | taskBatch newStatus items => exact tidy_batch newStatus items
  | _ => cases h

/-- From a connection with no open transaction no call is refused a `BEGIN`. -/
theorem admitted {op : Operation} {c : Connection Content} (hc : c.Closed) : (op.call c).1 ≠ .error .nested := by
  cases h : op.isTask with
  | true => exact (tidy_call h c hc).2
  | false => exact (plain_call h c).1

/-- Where a transaction is open nothing is rolled back: the calls that roll back are refused before. -/
theorem open_rollbacks (op : Operation) {c : Connection Content} (hc : ¬ c.Closed) :
    (op.call c).2.rollbacks = c.rollbacks := by
  cases op with
  | taskRead faults => rw [show (Operation.taskRead faults).call c = _ from refused_read faults c hc]
  | taskWrite faults reload op =>
    cases hrefusal : TaskStore.refusal op with
    | none => rw [show (Operation.taskWrite faults reload op).call c = _ from refused_write faults reload hrefusal c hc]
    | some e => simp [Operation.call, TaskStore.write, hrefusal, raise]
  | taskBatch newStatus items =>
    cases items with
    | nil => rfl
    | cons item items =>
      obtain ⟨clock, taskId, faults, reload⟩ := item
      have hfirst : Refused (TaskStore.batch newStatus ((clock, taskId, faults, reload) :: items)) :=
        Refused.bind (refused_write faults reload rfl).catching _
      rw [show (Operation.taskBatch newStatus ((clock, taskId, faults, reload) :: items)).call c = _ from hfirst c hc]
  | _ => exact (plain_call rfl c).2

end Plain

/-- The calls after which no transaction is open, by what they find and what fails: those of the task store; those
that only read; a write of the blackboard that does not come to its second statement; and the others, where no
statement and no `COMMIT` fails. -/
def Clean (content : Content) : Operation → Prop
  | .taskRead .. | .taskWrite .. | .taskBatch .. | .reads .. => True
  | .blackboardWrite faults swarmRootId key args => faults 0 ≠ none ∨
      ∃ e, args.plan key (Blackboard.getVersion (BlackboardStore.entryOf content swarmRootId key)) = .error e
  | .blackboardDelete .. => False
  | .memorySet faults .. => faults 0 ≠ none ∨ faults 1 = none ∧ faults 2 = none
  | .cronCreate faults _ hex _ cron =>
    faults 0 = none ∧ content.cronTasks.find? (cron.ensureId hex) = none ∧ faults 1 = none
  | .cronDelete faults _ => faults 0 = none ∧ faults 1 = none ∧ faults 2 = none
  | .cronCreateExecution faults execution =>
    faults 0 = none ∧ (content.cronTasks.find? execution.cronTaskId).isSome ∧ faults 1 = none
  | .memoryDelete faults .. | .memoryPurge faults _ | .cronUpdateNextRun faults .. | .cronSetEnabled faults .. |
    .cronUpdateExecutionStatus faults .. => faults 0 = none ∧ faults 1 = none

section Closed

variable {α : Type} {c : Connection Content} {faults : Faults}

theorem raises_none {n : Nat} : faults.raises n = none ↔ faults n = none := by
  simp [Faults.raises]

theorem ignore_conn (x : Call α) (c : Connection Content) : (ignore x c).2 = (x c).2 := bind_conn (fun _ _ => rfl) c

/-- A statement with its `COMMIT` ends with no open transaction exactly when neither fails. -/
theorem committed_closed (n m : Nat) (f : Content → Except EngineError (α × Content)) :
    (committing (execute (faults.raises n) f) (faults.raises m) c).2.Closed ↔
      faults n = none ∧ (∃ r, f c.content = .ok r) ∧ faults m = none := by
  rw [committing_closed (execute_open _ f c), execute_returns, raises_none, raises_none, and_assoc]

/-- A statement that the content admits is clean when nothing fails. -/
theorem committed_closed_ok (n m : Nat) {f : Content → Except EngineError (α × Content)}
    (hf : ∃ r, f c.content = .ok r) :
    (committing (execute (faults.raises n) f) (faults.raises m) c).2.Closed ↔ faults n = none ∧ faults m = none := by
  rw [committed_closed]
  exact ⟨fun h => ⟨h.1, h.2.2⟩, fun h => ⟨h.1, hf, h.2⟩⟩

theorem insertTask_admits {cron : CronTask} {content : Content} :
    (∃ r, CronTaskStore.insertTask cron content = .ok r) ↔ content.cronTasks.find? cron.id = none := by
  have hiff := Table.insert_isSome (t := content.cronTasks) (r := cron)
  unfold CronTaskStore.insertTask
  rw [show content.cronTasks.find? cron.id = none ↔ (content.cronTasks.insert? cron).isSome from hiff.symm]
  cases content.cronTasks.insert? cron with
  | none => simp
  | some cronTasks => simp

theorem insertExecution_admits {execution : CronExecution} {content : Content} :
    (∃ r, CronTaskStore.insertExecution execution content = .ok r) ↔
      (content.cronTasks.find? execution.cronTaskId).isSome := by
  unfold CronTaskStore.insertExecution
  cases content.cronTasks.find? execution.cronTaskId with
  | none => simp
  | some cron => simp

theorem blackboardWrite_closed (hc : c.Closed) (swarmRootId key : String) (args : Blackboard.WriteArgs) :
    (BlackboardStore.write faults swarmRootId key args c).2.Closed ↔ faults 0 ≠ none ∨
      ∃ e, args.plan key (Blackboard.getVersion (BlackboardStore.entryOf c.content swarmRootId key)) = .error e := by
  rw [BlackboardStore.write, query_bind_closed hc, ne_eq, raises_none]
  refine or_congr_right ?_
  cases args.plan key (Blackboard.getVersion (BlackboardStore.entryOf c.content swarmRootId key)) with
  | error e => exact ⟨fun _ => ⟨e, rfl⟩, fun _ => hc⟩
  | ok statement => exact iff_of_false (execute_open _ _ c) (fun ⟨_, h⟩ => nomatch h)

theorem memorySet_closed (hc : c.Closed) (args : AgentMemoryStore.SetArgs) (now : Rat) :
    (AgentMemoryStore.set faults args now c).2.Closed ↔ faults 0 ≠ none ∨ faults 1 = none ∧ faults 2 = none := by
  rw [AgentMemoryStore.set, query_bind_closed hc, ne_eq, raises_none]
  refine or_congr_right ?_
  have hget : ∀ (_ : Unit) c', (AgentMemoryStore.get (faults 3) now args.key args.agentId args.nameSpace c').2 = c' :=
    fun _ c' => query_conn _ _ c'
  rw [bind_conn hget, committed_closed_ok]
  split
  · rename_i hnew
    exact ⟨_, if_pos hnew⟩
  · exact ⟨_, rfl⟩

/-- Of two statements with one `COMMIT` none may fail. -/
theorem deleteCronTask_closed (cronId : String) :
    (CronTaskStore.deleteCronTask faults cronId c).2.Closed ↔ faults 0 = none ∧ faults 1 = none ∧ faults 2 = none := by
  rw [CronTaskStore.deleteCronTask, committing_closed (execute_twice_open _ _ _ _ c), bind_returns, raises_none]
  have hreturns : ∀ (n : Nat) {β : Type} (f : Content → β × Content) (d : Connection Content),
      (∃ b, (execute (faults.raises n) (fun content => .ok (f content)) d).1 = .ok b) ↔ faults n = none := by
    intro n β f d
    rw [execute_returns, raises_none]
    exact and_iff_left ⟨_, rfl⟩
  constructor
  · intro ⟨⟨a, hfirst, hsecond⟩, hfinish⟩
    exact ⟨(hreturns 0 _ c).mp ⟨a, hfirst⟩, (hreturns 1 _ _).mp hsecond, hfinish⟩
  · intro ⟨hfirst, hsecond, hfinish⟩
    obtain ⟨a, ha⟩ := (hreturns 0 _ c).mpr hfirst
    exact ⟨⟨a, ha, (hreturns 1 _ _).mpr hsecond⟩, hfinish⟩

/-- From a connection with no open transaction a call leaves none open exactly when it is clean. -/
theorem call_closed (hc : c.Closed) (op : Operation) : (op.call c).2.Closed ↔ Clean c.content op := by
  cases op with
  | taskRead | taskWrite | taskBatch => exact ⟨fun _ => trivial, fun _ => (tidy_call rfl c hc).1⟩
  | reads faults => exact ⟨fun _ => trivial, fun _ => (tidy_selects faults c hc).1⟩
  | blackboardWrite faults swarmRootId key args => exact blackboardWrite_closed hc swarmRootId key args
  | blackboardDelete faults swarmRootId key =>
    rw [Operation.call, ignore_conn]
    exact iff_of_false (execute_open _ _ c) id
  | memorySet faults args now =>
    rw [Operation.call, ignore_conn]
    exact memorySet_closed hc args now
  | memoryDelete | memoryPurge | cronUpdateNextRun | cronSetEnabled =>
    rw [Operation.call, ignore_conn]
    exact committed_closed_ok 0 1 ⟨_, rfl⟩
  | cronCreate faults now hex next cron =>
    rw [Operation.call, CronTaskStore.createCronTask, committed_closed, insertTask_admits]
    rfl
  | cronDelete faults cronId =>
    rw [Operation.call, ignore_conn]
    exact deleteCronTask_closed cronId
  | cronCreateExecution faults execution =>
    have hlast : ∀ (_ : Unit) c', (query (faults.raises 2) (fun _ : Content => ()) c').2 = c' :=
      fun _ c' => query_conn _ _ c'
    rw [Operation.call, CronTaskStore.createExecution, bind_conn hlast, committed_closed, insertExecution_admits]
    rfl
  | cronUpdateExecutionStatus faults execId status completedAt => exact committed_closed_ok 0 1 ⟨_, rfl⟩

end Closed

namespace SharedEngine

/-- What holds in every run: nothing is unsaved where no transaction is open, and nothing was undone. -/
structure Coherent (s : SharedEngine) : Prop where
  unsaved : s.conn.Closed → s.unsaved = 0
  undone : s.undone = 0

variable {s : SharedEngine}

theorem coherent_start (content : Content) : Coherent (start content) := ⟨fun _ => rfl, rfl⟩

/-- A rollback meets no transaction of an earlier call, so it takes nothing back. -/
theorem coherent_step (s : SharedEngine) (op : Operation) (hs : Coherent s) : Coherent (step s op) := by
  constructor
  · intro hc
    have hnone : (op.call s.conn).2.working.isNone = true := Option.isNone_iff_eq_none.mpr hc
    simp [step, hnone]
  · by_cases hc : s.conn.Closed
    · simp [step, hs.undone, hs.unsaved hc]
    · have hsame := open_rollbacks op hc
      simp [step, hs.undone, hsame]

/-- In no run does a rollback take back what an earlier call has written. -/
theorem nothing_undone (content : Content) (ops : List Operation) : (exec step (start content) ops).undone = 0 :=
  (exec_invariant coherent_step (coherent_start content) ops).undone

/-- From a hygienic state a call is not refused, so only the transaction it leaves open can break hygiene. -/
theorem hygienic_step_iff (op : Operation) (hs : Coherent s) (hh : Hygienic s) :
    Hygienic (step s op) ↔ Clean s.conn.content op := by
  rw [← call_closed hh.closed op]
  constructor
  · intro h
    exact h.closed
  · intro hclosed
    refine ⟨hclosed, ?_, (coherent_step s op hs).undone⟩
    have hadmitted : (op.call s.conn).1 ≠ .error .nested := admitted hh.closed
    have hzero : s.refused = 0 := hh.admitted
    unfold step
    dsimp only
    split
    · rename_i hnested
      exact absurd hnested hadmitted
    · exact hzero

/-- The stores stay hygienic exactly when every call is clean. -/
theorem hygienic_iff (content : Content) (ops : List Operation) :
    Always step Hygienic (start content) ops ↔
      EachStep step (fun s op => Clean s.conn.content op) (start content) ops :=
  always_iff_guarded (fun s op hs _ => coherent_step s op hs) (fun _ op hs hh => hygienic_step_iff op hs hh)
    (coherent_start content) ⟨rfl, rfl, rfl⟩ ops

/-- A task is created, an entry is written to its blackboard, and the task store is called again. -/
def boardBetween : List Operation :=
  [.taskWrite {} {} (.createTask (.fixed 0) "1" { title := "swarm" }),
    .blackboardWrite (fun _ => none) "t_1" "k" { value := "1", now := 0 },
    .taskWrite {} {} (.createTask (.fixed 1) "2" { title := "task" })]

/-- The write returns with its transaction open, and the task store is refused its `BEGIN`. -/
theorem write_left_open : ¬ Always step Hygienic (start .empty) boardBetween := by
  intro h
  have hrefused : (exec step (start .empty) boardBetween).refused = 1 := by decide +kernel
  have hadmitted := h.last.admitted
  rw [hrefused] at hadmitted
  cases hadmitted

end SharedEngine

end A2ARegistry.Orchestration.Shared
