import A2ARegistry.Server.Inbox
import A2ARegistry.Server.Proofs.Rows

namespace A2ARegistry.Server
open Base Orchestration

/-- The tasks whose entries a message is about: the task of its id, or for a `state_sync` the tasks
it lists. -/
def Names (data : List (String × Json)) (k : String) : Prop :=
  match messageType data with
  | none => False
  | some .stateSync =>
    ∃ items, (Json.get data "active_tasks" (.arr [])).iterate = some items ∧ (lastListed k items).isSome
  | some _ => messageId data = some k

/-- The kanban task that a message is about, if it was dispatched, and the status it reports. -/
def Reports (e : Engine) (s : RegistryHandler) (data : List (String × Json)) (k : String)
    (new : TaskStatus) : Prop :=
  s.isDispatched k ∧ ∃ value, messageUpdate e data = some (k, new, value)

/-- An entry that the end of its agent's connection has marked. -/
def Dangled (s' : Inbox) (k : String) (t : Record) (details : Details) : Prop :=
  s'.record? k = some (dangleChange.apply t) ∧ ∃ now, s'.details k = details.assign { updatedAt := some now }

/-- An agent's message changes no more than what it is about, whoever's the rest is. -/
structure Confined (e : Engine) (s : Inbox) (agentId : String) (data : List (String × Json))
    (around : Surroundings) (s' : Inbox) : Prop where
  /-- the entries of other tasks stay as they are, but for open entries of the agent whose connection ends -/
  tasks : ∀ k t, s.record? k = some t → ¬ Names data k →
    s'.record? k = some t ∧ s'.details k = s.details k ∨
      s.endsConnection agentId data around = true ∧ t.active agentId = true ∧ Dangled s' k t (s.details k)
  /-- so do the rows of other kanban tasks, but for the dependents of a task that completes -/
  board : ∀ k row, s.taskStore.task? k = some row → (∀ new, ¬ Reports e s.toRegistryHandler data k new) →
    s'.taskStore.task? k = some row ∨ s'.taskStore.task? k = some (settle s'.taskStore row) ∧
      ∃ id, Reports e s.toRegistryHandler data id .completed ∧ k ∈ childIds s.taskStore id
  /-- other calls stay pending, and without an answer -/
  calls : ∀ id call, s.pendingRequests id = some call → Inbox.requestId data ≠ some id →
    s'.pendingRequests id = some call ∧ s'.answers id = s.answers id
  /-- a `state_sync` in the name of another agent changes nothing -/
  owner : messageType data = some .stateSync → (Json.get data "agent_id" (.str "")).truthy = true →
    (Json.get data "agent_id" (.str "")).isWord [agentId] = false → s' = s

section
variable {e : Engine} {s : Inbox} {agentId : String} {data : List (String × Json)} {around : Surroundings}
  {stamps : String → Stamp} {k : String}

theorem Details.assign_nothing (d : Details) : d.assign {} = d := rfl

/-- Only the entry that is written gets other details, if anything is assigned. -/
theorem write_details (written : RegistryHandler) {taskId : String} {found : Details} (created : Details)
    (h : k = taskId → (s.record? k).isSome ∧ found = {}) :
    (s.write written taskId found created).details k = s.details k := by
  simp only [Inbox.write]
  by_cases hk : k = taskId
  · obtain ⟨hr, rfl⟩ := h hk
    subst hk
    rw [Function.update_self, if_pos hr, Details.assign_nothing]
  · rw [Function.update_of_ne hk]

/-- Restoring leaves the details of the entries there are. -/
theorem restoreTasks_details (hr : (s.record? k).isSome) :
    (s.restoreTasks agentId stamps).details k = s.details k := by
  unfold Inbox.restoreTasks
  cases s.dispatchedWsTasks with
  | none => rfl
  | some tasks =>
    dsimp only
    generalize tasks.rows = rows
    induction rows generalizing s with
    | nil => rfl
    | cons d rows ih =>
      obtain ⟨t, ht⟩ := Option.isSome_iff_exists.mp hr
      have hwrites := (restoreTask_restores s.toRegistryHandler agentId d).2
      have hthere : ((s.restoreTask agentId stamps d).record? k).isSome := by
        rw [Inbox.restoreTask, Inbox.write_handler, hwrites.entry k t ht]
        rfl
      exact (ih hthere).trans (write_details _ _ fun _ => ⟨hr, rfl⟩)

/-- The merge leaves the details of a task that is not listed. -/
theorem mergeTasks_details (items : List Json) (healed : Nat) (hn : lastListed k items = none) :
    (Inbox.mergeTasks e agentId around stamps items s healed).details k = s.details k := by
  induction items generalizing s healed with
  | nil =>
    simp only [Inbox.mergeTasks]
    split <;> rfl
  | cons item items ih =>
    cases item with
    | obj fields =>
      simp only [lastListed, Option.or_eq_none_iff, Option.map_eq_none_iff, Option.filter_eq_none_iff] at hn
      simp only [Inbox.mergeTasks]
      cases hm : mergedItem fields with
      | none => exact ih healed hn.1
      | some listed =>
        have hne : k ≠ listed.1 := fun he => hn.2 listed hm (by simp [he])
        have hsame : (s.write (mergeRecord s.toRegistryHandler agentId listed.1 listed.2) listed.1
            { updatedAt := some (stamps listed.1).updated }
            { startedAt := some (Json.get fields "started_at" (stamps listed.1).started)
              createdAt := some (stamps listed.1).created
              updatedAt := some (stamps listed.1).updated }).details k = s.details k :=
          write_details _ _ fun he => absurd he hne
        dsimp only [Inbox.write_handler]
        cases healTask e (mergeRecord s.toRegistryHandler agentId listed.1 listed.2)
            (around.clocks listed.1) listed.1 listed.2 with
        | none => exact (ih healed hn.1).trans hsame
        | some healedStore => exact (ih (healed + 1) hn.1).trans hsame
    | _ => rfl

theorem syncedItems_listed {s : RegistryHandler} {items : List Json}
    (h : syncedItems s agentId data around.now around.card = some items) :
    (Json.get data "active_tasks" (.arr [])).iterate = some items := by
  unfold syncedItems at h
  dsimp only at h
  split at h
  · cases h
  · split at h
    · cases h
    · split at h
      · cases h
      · exact (Option.filter_eq_some_iff.mp h).1

/-- A `state_sync` that is not about a task does not list it. -/
theorem unlisted {s : RegistryHandler} {items : List Json} (hn : ¬ Names data k)
    (hty : messageType data = some .stateSync)
    (h : syncedItems s agentId data around.now around.card = some items) : lastListed k items = none := by
  rw [Names, hty] at hn
  by_contra hlisted
  exact hn ⟨items, syncedItems_listed h, Option.isSome_iff_ne_none.mpr hlisted⟩

/-- The entries a message is not about. -/
theorem handle_details {t : Record} (ht : s.record? k = some t) (hn : ¬ Names data k) :
    (s.handle e agentId data around stamps).details k = s.details k := by
  have hr : (s.record? k).isSome := by rw [ht]; rfl
  unfold Inbox.handle
  split
  · unfold Inbox.handleSyncResponse Inbox.resolvePending
    cases Inbox.requestId data with
    | none => rfl
    | some id =>
      dsimp only
      cases s.pendingRequests id <;> rfl
  · cases hty : messageType data with
    | none => rfl
    | some type =>
      cases type with
      | stateSync =>
        simp only [Inbox.handleTaskMessage, Inbox.handleStateSync]
        cases hi : syncedItems s.toRegistryHandler agentId data around.now around.card with
        | none => rfl
        | some items =>
          dsimp only
          rw [mergeTasks_details items 0 (unlisted hn hty hi)]
          refine restoreTasks_details (s := { s with toRegistryHandler := _ }) ?_
          have hrecords : (recordSync s.toRegistryHandler agentId data around.now).tasks = s.tasks := by
            unfold recordSync
            dsimp only
            split <;> rfl
          exact (congrArg (fun tasks => (Table.find? tasks k).isSome) hrecords).trans hr
      | taskAck | taskProgress | taskComplete | taskFail | taskResult =>
        rw [Names, hty] at hn
        simp only [Inbox.handleTaskMessage]
        cases hid : messageId data with
        | none => rfl
        | some id => exact write_details _ _ fun he => absurd (he ▸ hid) hn

theorem handle_record {t : Record} (ht : s.record? k = some t) (hn : ¬ Names data k) :
    (s.handle e agentId data around stamps).record? k = some t := by
  rw [s.handle_handler e agentId data around stamps,
    (message_writes e s.toRegistryHandler agentId data around).entry k t ht]
  have hid : t.id = k := Memory.record_id ht
  have hnone : (Event.message agentId data around).assigns s.toRegistryHandler t = none := by
    simp only [Event.assigns]
    cases hty : messageType data with
    | none => rfl
    | some type =>
      cases type with
      | stateSync =>
        simp only [if_true, syncChange, mergeChange, Option.bind_eq_none_iff, Option.map_eq_none_iff]
        intro items hi
        rw [hid]
        exact unlisted hn hty hi
      | taskAck | taskProgress | taskComplete | taskFail | taskResult =>
        rw [Names, hty] at hn
        simp only [reduceCtorEq, if_false]
        exact if_neg (hid ▸ hn)
  rw [hnone]
  rfl

/-- The end of the connection marks the open entries of its agent. -/
theorem closeConnection_task {t : Record} (clocks : String → Clock) (ht : s.record? k = some t) :
    (s.closeConnection e agentId stamps clocks).record? k = some t ∧
        (s.closeConnection e agentId stamps clocks).details k = s.details k ∨
      t.active agentId = true ∧ Dangled (s.closeConnection e agentId stamps clocks) k t (s.details k) := by
  have hentry : (s.closeConnection e agentId stamps clocks).record? k = some (t.after _) :=
    (dangle_writes e s.toRegistryHandler agentId clocks).entry k t ht
  cases ha : t.active agentId with
  | false =>
    refine Or.inl ⟨by simpa [ha] using hentry, ?_⟩
    simp [Inbox.closeConnection, ht, ha]
  | true =>
    refine Or.inr ⟨rfl, by simpa [ha] using hentry, (stamps k).updated, ?_⟩
    simp [Inbox.closeConnection, ht, ha]

theorem receive_task {t : Record} (ht : s.record? k = some t) (hn : ¬ Names data k) :
    let s' := s.receive e agentId data around stamps
    s'.record? k = some t ∧ s'.details k = s.details k ∨
      s.endsConnection agentId data around = true ∧ t.active agentId = true ∧ Dangled s' k t (s.details k) := by
  have hrecord : (s.handle e agentId data around stamps).record? k = some t := handle_record ht hn
  have hdetails : (s.handle e agentId data around stamps).details k = s.details k := handle_details ht hn
  unfold Inbox.receive
  dsimp only
  split
  · rename_i hends
    rw [← hdetails]
    exact (closeConnection_task around.clocks hrecord).imp_right fun h => ⟨hends, h⟩
  · exact Or.inl ⟨hrecord, hdetails⟩

/-- A report on another kanban task settles a row only as a dependent of a task that completes. -/
theorem boardAfter_settles {db : Db} {row : Task} (hrow : db.task? k = some row) (clock : Clock) {id : String}
    (hne : id ≠ k) (new : TaskStatus) (value : Json) :
    (boardAfter e db clock id true (some (new, value))).task? k = some row ∨
      (boardAfter e db clock id true (some (new, value))).task? k =
          some (settle (boardAfter e db clock id true (some (new, value))) row) ∧
        new = .completed ∧ k ∈ childIds db id := by
  simp only [boardAfter, if_true]
  cases h : reportStatus e db clock id new value with
  | none => exact Or.inl hrow
  | some db' =>
    obtain ⟨t, bound, retryAt, kind, ht, _, _, rfl⟩ := reportStatus_some h
    have hid := Db.task_id ht
    subst hid
    have hwritten := writeReport_task clock new value ht bound retryAt kind k
    rw [if_neg (Ne.symm hne), hrow, Option.map_some] at hwritten
    rw [Option.getD_some]
    by_cases hc : new = .completed ∧ k ∈ childIds db t.id
    · rw [if_pos hc] at hwritten
      exact Or.inr ⟨hwritten, hc⟩
    · rw [if_neg hc] at hwritten
      exact Or.inl hwritten

/-- To the kanban board the end of the connection is nothing: no row can become dangling. -/
theorem receive_store : (s.receive e agentId data around stamps).taskStore =
    (s.handle e agentId data around stamps).taskStore := by
  unfold Inbox.receive
  dsimp only
  split
  · exact dangle_store ..
  · rfl

theorem receive_board {row : Task} (hrow : s.taskStore.task? k = some row)
    (hn : ∀ new, ¬ Reports e s.toRegistryHandler data k new) :
    let s' := s.receive e agentId data around stamps
    s'.taskStore.task? k = some row ∨ s'.taskStore.task? k = some (settle s'.taskStore row) ∧
      ∃ id, Reports e s.toRegistryHandler data id .completed ∧ k ∈ childIds s.taskStore id := by
  intro s'
  have hstore := message_store e s.toRegistryHandler agentId data around
  rw [← s.handle_handler e agentId data around stamps, ← receive_store] at hstore
  change s'.taskStore = _ at hstore
  rw [hstore]
  cases hm : messageUpdate e data with
  | none => exact Or.inl hrow
  | some named =>
    obtain ⟨id, new, value⟩ := named
    dsimp only
    cases hd : s.isDispatched id with
    | false => exact Or.inl (by simpa [boardAfter] using hrow)
    | true =>
      have hne : id ≠ k := by
        rintro rfl
        exact hn new ⟨hd, value, hm⟩
      rcases boardAfter_settles (e := e) hrow (around.clocks id) hne new value with hsame | ⟨hs, rfl, hc⟩
      · exact Or.inl hsame
      · exact Or.inr ⟨hs, id, ⟨hd, value, hm⟩, hc⟩

theorem restoreTasks_calls : (s.restoreTasks agentId stamps).pendingRequests = s.pendingRequests ∧
    (s.restoreTasks agentId stamps).answers = s.answers := by
  unfold Inbox.restoreTasks
  cases s.dispatchedWsTasks with
  | none => exact ⟨rfl, rfl⟩
  | some tasks =>
    dsimp only
    generalize tasks.rows = rows
    induction rows generalizing s with
    | nil => exact ⟨rfl, rfl⟩
    | cons d rows ih => exact ih (s := s.restoreTask agentId stamps d)

theorem mergeTasks_calls (items : List Json) (healed : Nat) :
    (Inbox.mergeTasks e agentId around stamps items s healed).pendingRequests = s.pendingRequests ∧
      (Inbox.mergeTasks e agentId around stamps items s healed).answers = s.answers := by
  induction items generalizing s healed with
  | nil =>
    simp only [Inbox.mergeTasks]
    split <;> exact ⟨rfl, rfl⟩
  | cons item items ih =>
    cases item with
    | obj fields =>
      simp only [Inbox.mergeTasks]
      cases mergedItem fields with
      | none => exact ih healed
      | some listed =>
        dsimp only [Inbox.write_handler]
        cases healTask e (mergeRecord s.toRegistryHandler agentId listed.1 listed.2)
            (around.clocks listed.1) listed.1 listed.2 with
        | none => exact ih healed
        | some healedStore => exact ih (healed + 1)
    | _ => exact ⟨rfl, rfl⟩

/-- A message about tasks is nothing to the calls. -/
theorem handleTaskMessage_calls (type : MessageType) :
    (s.handleTaskMessage e agentId data around stamps type).pendingRequests = s.pendingRequests ∧
      (s.handleTaskMessage e agentId data around stamps type).answers = s.answers := by
  cases type with
  | stateSync =>
    simp only [Inbox.handleTaskMessage, Inbox.handleStateSync]
    cases syncedItems s.toRegistryHandler agentId data around.now around.card with
    | none => exact ⟨rfl, rfl⟩
    | some items =>
      dsimp only
      rw [(mergeTasks_calls items 0).1, (mergeTasks_calls items 0).2]
      exact restoreTasks_calls
  | taskAck | taskProgress | taskComplete | taskFail | taskResult =>
    simp only [Inbox.handleTaskMessage]
    cases messageId data <;> exact ⟨rfl, rfl⟩

theorem handle_calls {id : String} {call : PendingCall} (hc : s.pendingRequests id = some call)
    (hn : Inbox.requestId data ≠ some id) :
    (s.handle e agentId data around stamps).pendingRequests id = some call ∧
      (s.handle e agentId data around stamps).answers id = s.answers id := by
  unfold Inbox.handle
  split
  · unfold Inbox.handleSyncResponse
    cases hr : Inbox.requestId data with
    | none => exact ⟨hc, rfl⟩
    | some other =>
      have hne : id ≠ other := by
        rintro rfl
        exact hn hr
      dsimp only [Inbox.resolvePending]
      cases s.pendingRequests other with
      | none => exact ⟨hc, rfl⟩
      | some answered =>
        refine ⟨(Function.update_of_ne hne ..).trans hc, ?_⟩
        dsimp only
        split
        · rfl
        · exact Function.update_of_ne hne ..
  · cases messageType data with
    | none => exact ⟨hc, rfl⟩
    | some type =>
      obtain ⟨hp, ha⟩ : (s.handleTaskMessage e agentId data around stamps type).pendingRequests =
          s.pendingRequests ∧ (s.handleTaskMessage e agentId data around stamps type).answers = s.answers :=
        handleTaskMessage_calls type
      exact ⟨(congrFun hp id).trans hc, congrFun ha id⟩

theorem receive_calls {id : String} {call : PendingCall} (hc : s.pendingRequests id = some call)
    (hn : Inbox.requestId data ≠ some id) :
    (s.receive e agentId data around stamps).pendingRequests id = some call ∧
      (s.receive e agentId data around stamps).answers id = s.answers id := by
  have hcalls : (s.handle e agentId data around stamps).pendingRequests id = some call ∧
      (s.handle e agentId data around stamps).answers id = s.answers id := handle_calls hc hn
  unfold Inbox.receive
  dsimp only
  split <;> exact hcalls

/-- A `state_sync` that claims another agent is rejected. -/
theorem receive_owner (hty : messageType data = some .stateSync)
    (hclaimed : (Json.get data "agent_id" (.str "")).truthy = true)
    (hother : (Json.get data "agent_id" (.str "")).isWord [agentId] = false) :
    s.receive e agentId data around stamps = s := by
  have hnot : ¬ (Json.get data "type" (.str "")).isWord ["sync_call_response"] = true := by
    intro h
    rw [Inbox.messageType_sync data h] at hty
    cases hty
  have hrecord : recordSync s.toRegistryHandler agentId data around.now = s.toRegistryHandler := by
    simp [recordSync, hclaimed, hother]
  have hitems : syncedItems s.toRegistryHandler agentId data around.now around.card = none := by
    simp [syncedItems, hclaimed, hother]
  have hrefused : (syncRefusal s.toRegistryHandler agentId data around.now around.card).isSome = true := by
    simp [syncRefusal, hclaimed, hother]
  have hhandled : s.handle e agentId data around stamps = s := by
    simp only [Inbox.handle, if_neg hnot, hty, Inbox.handleTaskMessage, Inbox.handleStateSync, hitems, hrecord]
  have hstays : s.endsConnection agentId data around = false := by
    unfold Inbox.endsConnection
    split
    · rename_i hword
      simp [messageType, hword] at hty
    · rename_i hword
      simp [messageType, hword] at hty
    · split
      · rename_i hclose
        obtain ⟨word, hmem, hword⟩ := Json.isWord_iff.mp hclose
        obtain rfl := List.mem_singleton.mp hmem
        simp [messageType, hword, MessageType.ofText?] at hty
      · simp [hty, Inbox.syncRaises, hrefused]
  simp only [Inbox.receive, hstays, hhandled, Bool.false_eq_true, if_false]

end

/-- What the tasks and calls of other agents are before and after a message. -/
structure Unaffected (agentId : String) (s s' : Inbox) : Prop where
  tasks : ∀ k t, s.record? k = some t → t.agentId ≠ agentId →
    s'.record? k = some t ∧ s'.details k = s.details k
  board : ∀ k row, s.taskStore.task? k = some row → row.assignee ≠ some agentId →
    s'.taskStore.task? k = some row
  calls : ∀ id call, s.pendingRequests id = some call → call.agentId ≠ agentId →
    s'.pendingRequests id = some call ∧ s'.answers id = s.answers id

/-- Agent `a` has a kanban task, which one of agent `b` waits for. Agent `b` has another one, a task of
its own, and a call to answer. -/
def twoAgents : Inbox :=
  let created (hex assignee : String) (parents : List ParentItem) : Event := .storeCall
    (.createTask (.fixed 0) hex { title := hex, assignee := some assignee, parents := parents })
  let sent (taskId assignee : String) : List Event :=
    [.sendBegins (.fixed 0) taskId assignee .ws 1 900 (.ok "/tmp"),
      .sendEnds (.fixed 0) ⟨taskId, assignee, .ws⟩ none]
  let handler := exec (Event.step idleEngine) (.start Db.empty true)
    ([created "a" "a" [], created "c" "b" [.plain "t_a"], created "b" "b" []] ++
      sent "t_a" "a" ++ sent "t_b" "b")
  ((Inbox.start handler).receive idleEngine "b" [("type", .str "task_ack"), ("id", .str "v")]
    ⟨fun _ => .fixed 0, 0, some false⟩ (fun _ => ⟨.int 0, .int 0, .int 0⟩)).call "sync_1" "b"

/-- The server after a message of agent `a`. -/
def afterMessage (fields : List (String × Json)) : Inbox :=
  twoAgents.receive idleEngine "a" fields ⟨fun _ => .fixed 0, 0, some false⟩
    (fun _ => ⟨.int 1, .int 1, .int 1⟩)

/-- An id that cannot be looked up costs the agent its connection. -/
example : ((twoAgents.receive idleEngine "b" [("type", .str "task_ack"), ("id", .arr [.int 1])]
    ⟨fun _ => .fixed 0, 0, some false⟩ (fun _ => ⟨.int 1, .int 1, .int 1⟩)).record? "v").map Record.state =
      some (.str "dangling") := rfl

end A2ARegistry.Server
