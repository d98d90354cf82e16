import A2ARegistry.Orchestration.Proofs.Results
import A2ARegistry.Server.Proofs.Outcomes

namespace A2ARegistry.Server
open Base Orchestration

/-- The states the server is in later: after events, and after restarts, which keep the database. -/
inductive Later (e : Engine) (s : RegistryHandler) : RegistryHandler → Prop
  | now : Later e s s
  | event (before : Later e s s') (ev : Event) : Later e s (ev.step e s')
  | restart (before : Later e s s') (dispatcher : Bool) : Later e s (.start s'.taskStore dispatcher)

/-- The second database is the first after some writes. -/
def Written (e : Engine) (db db' : Db) : Prop := ∃ writes, db' = exec (Write.step e) db writes

section
variable {e : Engine} {s s' : RegistryHandler}

theorem Written.same {db db' : Db} (h : db' = db) : Written e db db' := ⟨[], h⟩

theorem Written.one (db : Db) (w : Write) : Written e db (w.step e db) := ⟨[w], rfl⟩

theorem Written.trans {db db' db'' : Db} (h : Written e db db') (h' : Written e db' db'') :
    Written e db db'' := by
  obtain ⟨ws, rfl⟩ := h
  obtain ⟨ws', rfl⟩ := h'
  exact ⟨ws ++ ws', (exec_append db ws ws').symm⟩

variable (s)

theorem updateStore_written (clock : Clock) (k : String) (new : TaskStatus) (value : Json) :
    Written e s.taskStore (s.updateStore e clock k new value).taskStore := by
  have h := Written.one (e := e) s.taskStore (.report clock k new value)
  simp only [Write.step] at h
  unfold RegistryHandler.updateStore
  cases hr : reportStatus e s.taskStore clock k new value with
  | none => exact .same rfl
  | some db =>
    rw [hr] at h
    exact h

theorem updateDispatched_written (clock : Clock) (k : String) (new : TaskStatus) (value : Json) :
    Written e s.taskStore (s.updateDispatched e clock k new value).taskStore := by
  unfold RegistryHandler.updateDispatched
  split
  · exact updateStore_written s clock k new value
  · exact .same rfl

theorem updateAll_written (clocks : String → Clock) (new : TaskStatus) (value : Json)
    (records : List Record) : Written e s.taskStore (s.updateAll e clocks new value records).taskStore := by
  unfold RegistryHandler.updateAll
  induction records generalizing s with
  | nil => exact .same rfl
  | cons t ts ih => exact (updateDispatched_written s (clocks t.id) t.id new value).trans (ih _)

theorem boardAfter_written (db : Db) (clock : Clock) (k : String) (dispatched : Bool)
    (update : Option (TaskStatus × Json)) : Written e db (boardAfter e db clock k dispatched update) := by
  cases update with
  | none => exact .same rfl
  | some u =>
    cases dispatched with
    | true => exact .one db (.report clock k u.1 u.2)
    | false => exact .same rfl

theorem finishTimeout_written (k : String) (clock : Clock) :
    Written e s.taskStore (finishTimeout e s k clock).taskStore :=
  updateDispatched_written s clock k _ _

theorem timeoutWorker_written (k : String) (clock : Clock) (connected : Bool) :
    Written e s.taskStore (timeoutWorker e s k clock connected).taskStore := by
  unfold timeoutWorker
  split
  · exact .same rfl
  · split
    · exact .same rfl
    · cases connected with
      | true => exact .same rfl
      | false => exact finishTimeout_written (s.setRecord k timeoutChange) k clock

theorem endDispatch_store (k : String) (how : DispatchEnd) :
    (endDispatch s k how).taskStore = s.taskStore := by
  cases how with
  | delivered => exact timer_store k true _
  | failed | cancelled => rfl

theorem beginSend_written (clock : Clock) (k assignee : String) (channel : Channel) (pid ttl : Int)
    (workspace : Except String String) :
    Written e s.taskStore (beginSend e s clock k assignee channel pid ttl workspace).taskStore := by
  unfold beginSend
  dsimp only
  split
  · exact .same rfl
  · rename_i view db hclaim
    have hdb : Written e s.taskStore db :=
      ⟨[.call (.claimTask clock k _ pid ttl)], (congrArg Prod.snd hclaim).symm⟩
    cases workspace with
    | ok path => exact hdb.trans (.one db (.call (.updateWorkspacePath k path)))
    | error error => exact hdb.trans (updateStore_written { s with taskStore := db } clock k _ _)

theorem endSend_written (clock : Clock) (sent : Sending) (error : Option DispatchError) :
    Written e s.taskStore (endSend e s clock sent error).taskStore := by
  unfold endSend
  split
  · split
    · exact .same rfl
    · exact .same rfl
    · exact updateStore_written { s with sending := s.sending.erase sent } clock _ _ _
  · exact .same rfl

theorem redispatch_written (clock : Clock) (agentId k : String) :
    Written e s.taskStore (redispatch e s clock agentId k).taskStore := by
  have h := Written.one (e := e) s.taskStore (.report clock k .running .null)
  simp only [Write.step] at h
  unfold redispatch
  split
  · dsimp only
    cases hr : reportStatus e s.taskStore clock k .running .null with
    | none => exact .same rfl
    | some db =>
      rw [hr] at h
      exact h
  · exact .same rfl

/-- Every event of the server is some writes to the store. -/
theorem step_written (ev : Event) : Written e s.taskStore (ev.step e s).taskStore := by
  cases ev with
  | storeCall op => exact .one s.taskStore (.call op)
  | message agentId data around =>
    rw [message_store]
    split
    · exact .same rfl
    · exact boardAfter_written ..
  | disconnect agentId clocks => exact .same (dangle_store e s agentId clocks)
  | danglingExpires agentId clocks =>
    simp only [Event.step]
    split
    · exact updateAll_written _ clocks _ _ _
    · exact .same rfl
  | timeoutExpires k clock connected =>
    simp only [Event.step]
    split
    · exact timeoutWorker_written s k clock connected
    · exact .same rfl
  | timeoutSent k clock =>
    simp only [Event.step]
    split
    · exact finishTimeout_written s k clock
    · exact .same rfl
  | dispatchBegins agentId k now =>
    simp only [Event.step, beginDispatch]
    split <;> exact .same rfl
  | dispatchEnds k how =>
    simp only [Event.step]
    split
    · exact .same (endDispatch_store s k how)
    · exact .same rfl
  | callbackBegins k card authHeader =>
    simp only [Event.step, beginCallback]
    split
    · split <;> exact .same rfl
    · exact .same rfl
  | callbackEnds k clock body =>
    simp only [Event.step, endCallback]
    split
    · cases body with
      | none => exact .same rfl
      | some body =>
        dsimp only
        rw [finishCallback_store]
        exact boardAfter_written ..
    · exact .same rfl
  | sendBegins clock k assignee channel pid ttl workspace =>
    simp only [Event.step]
    split
    · exact beginSend_written s clock k assignee channel pid ttl workspace
    · exact .same rfl
  | sendEnds clock sent error => exact endSend_written s clock sent error
  | reconnect agentId listed => exact .same rfl
  | redispatches clock agentId k => exact redispatch_written s clock agentId k

variable {s}

/-- A run of the server is a run of writes, restarts included. -/
theorem Later.written (h : Later e s s') : Written e s.taskStore s'.taskStore := by
  induction h with
  | now => exact .same rfl
  | event before ev ih => exact ih.trans (step_written _ ev)
  | restart before dispatcher ih => exact ih

theorem Later.exec (e : Engine) (s : RegistryHandler) (events : List Event) :
    Later e s (exec (Event.step e) s events) := by
  induction events using List.reverseRecOn with
  | nil => exact .now
  | append_singleton events ev ih =>
    rw [exec_append]
    exact .event ih ev

theorem Later.settled (h : Later e s s') (hs : ResultsSettled s.taskStore) :
    ResultsSettled s'.taskStore := by
  obtain ⟨writes, he⟩ := h.written
  rw [he]
  exact exec_invariant (fun db w hdb => write_settled w hdb) hs writes

end

end A2ARegistry.Server
