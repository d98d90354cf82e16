import A2ARegistry.Orchestration.Handlers
import A2ARegistry.Orchestration.Proofs.Acyclic
import A2ARegistry.Orchestration.Proofs.Batch
import A2ARegistry.Orchestration.Proofs.History
import A2ARegistry.Orchestration.Proofs.Ownership
import A2ARegistry.Orchestration.Proofs.Tenant

namespace A2ARegistry.Orchestration
open Base Security

/-- Calls of the store lead from one database to another. -/
def ByCalls (db db' : Db) : Prop := ∃ ops, db' = exec step db ops

theorem ByCalls.refl (db : Db) : ByCalls db db := ⟨[], rfl⟩

theorem ByCalls.single {db db' : Db} (op : Op) (h : step db op = db') : ByCalls db db' := ⟨[op], h.symm⟩

theorem ByCalls.trans {db db' db'' : Db} (h : ByCalls db db') (h' : ByCalls db' db'') : ByCalls db db'' := by
  obtain ⟨ops, rfl⟩ := h
  obtain ⟨ops', rfl⟩ := h'
  exact ⟨ops ++ ops', (exec_append ..).symm⟩

/-- What the task API owes its callers: it works on the store through the store's calls, a request that it refuses
changes nothing, and one that it grants is done. -/
structure Answered (db : Db) (done : Response → Db → Prop) (answer : Response × Db) : Prop where
  calls : ByCalls db answer.2
  refused : 400 ≤ answer.1.status → answer.1.status < 500 → answer.2 = db
  granted : answer.1.status < 300 → done answer.1 answer.2

section Answers

variable {db db' : Db} {done done' : Response → Db → Prop} {response : Response} {answer : Response × Db}

theorem Answered.error (hstatus : 400 ≤ response.status) : Answered db done (response, db) :=
  ⟨.refl db, fun _ _ => rfl, fun h => absurd h (by dsimp only; omega)⟩

theorem Answered.raised (h : ByCalls db db') : Answered db done (serverError, db') :=
  ⟨h, fun _ hlt => absurd hlt (Nat.lt_irrefl 500), fun hlt => absurd hlt (show ¬ 500 < 300 by decide)⟩

theorem Answered.success (h : ByCalls db db') (hstatus : response.status < 300) (hdone : done response db') :
    Answered db done (response, db') :=
  ⟨h, fun hle => absurd hle (by dsimp only; omega), fun _ => hdone⟩

theorem Answered.imp (h : Answered db done answer) (himp : ∀ response db', done response db' → done' response db') :
    Answered db done' answer :=
  ⟨h.calls, h.refused, fun hlt => himp _ _ (h.granted hlt)⟩

/-- A handler that raises after its calls has done them all the same. -/
theorem Answered.afterBroadcast (h : OrchestrationHandler) (taskId : String) (ha : Answered db done answer) :
    Answered db done (afterBroadcast h taskId answer) := by
  unfold Orchestration.afterBroadcast broadcastAnswer
  split
  · split
    · split
      · exact ha
      · split
        · exact .raised ha.calls
        · exact ha
    · exact ha
  · exact ha

theorem Answered.afterRendering (h : OrchestrationHandler) (taskId : String) (ha : Answered db done answer) :
    Answered db done (afterRendering h taskId answer) := by
  unfold Orchestration.afterRendering
  split
  · exact .raised ha.calls
  · exact ha

end Answers

/-- The task has one of the statuses, and the answer names it. -/
def NamesStatus (statuses : List TaskStatus) (taskId : String) (response : Response) (db : Db) : Prop :=
  ∃ t, db.task? taskId = some t ∧ t.status ∈ statuses ∧ ("status", Json.str t.status.value) ∈ response.body

/-- The answer shows the task as it is in the store. -/
def ShowsTask (codec : Codec) (t : Task) (response : Response) (db : Db) : Prop :=
  db.task? t.id = some t ∧ ∃ detail, taskToDetail codec t = some detail ∧ ("task", .obj detail) ∈ response.body

/-- The answer counts different tasks that did not have the status and have it now. -/
def CountsUpdates (key status : String) (before : Db) (response : Response) (after : Db) : Prop :=
  ∃ ids : List String, ids.Nodup ∧ (key, Json.int ids.length) ∈ response.body ∧ ∀ id ∈ ids, ∃ t t',
    before.task? id = some t ∧ after.task? id = some t' ∧ t.status.value ≠ status ∧ t'.status.value = status

/-- What a request asks for is done, and the answer says so. -/
def ApiRequest.Done (h : OrchestrationHandler) (db : Db) : ApiRequest → Response → Db → Prop
  | .task (.list _), _, db' | .task (.get _), _, db' => db' = db
  | .task (.create ..), response, db' => ∃ t, db.task? t.id = none ∧ ShowsTask h.engine.toCodec t response db'
  | .task (.update _ taskId body), response, db' => ∃ t, t.id = taskId ∧ ShowsTask h.engine.toCodec t response db' ∧
    ∀ status, body.status = some status → status = .str t.status.value
  | .task (.claim _ _ taskId _), response, db' => ∃ t, db'.task? taskId = some t ∧ t.status = .running ∧
    ("claim_lock", Json.ofText t.claimLock) ∈ response.body ∧ ("claim_expires", ofInt t.claimExpires) ∈ response.body
  | .task (.complete _ taskId _), response, db' => NamesStatus [.completed, .failed] taskId response db'
  | .task (.unblock _ _ taskId _), response, db' => NamesStatus [.running] taskId response db'
  | .task (.delete _ taskId), response, db' => NamesStatus [.archived] taskId response db'
  | .block _ _ taskId _, response, db' => NamesStatus [.blocked] taskId response db'
  | .heartbeat _ taskId claimLock, response, db' => ∃ t, db'.task? taskId = some t ∧
    (claimLock.getD (.str "")).eqText t.claimLock = true ∧ ("claim_expires", ofInt t.claimExpires) ∈ response.body
  | .comment _ taskId body, response, db' => ∃ comment ∈ db'.comments.rows, comment.taskId = taskId ∧
    strippedOr "anonymous" body.author = some comment.author ∧ strippedOr "" body.body = some comment.body ∧
    ("comment_id", Json.int comment.id) ∈ response.body
  | .depend _ taskId body, response, db' => ∃ link ∈ db'.links.rows, link.childId = taskId ∧
    body.strippedParent = some link.parentId ∧ link.condition = body.storedCondition h.engine.toCodec ∧
    ("parent_id", Json.str link.parentId) ∈ response.body ∧ ("condition", Json.ofText link.condition) ∈ response.body
  | .undepend _ taskId parentId, _, db' => ∀ link ∈ db'.links.rows, ¬ (link.parentId = parentId ∧ link.childId = taskId)
  | .batchStatus body, response, db' => ∃ status, strippedOr "" body.status = some status ∧
    CountsUpdates "updated" status db response db'
  | .batchDelete _, response, db' => CountsUpdates "deleted" TaskStatus.archived.value db response db'

section Errors

theorem le_statusErrorResponse (codec : Codec) (e : StoreError) : 400 ≤ (statusErrorResponse codec e).status := by
  unfold statusErrorResponse
  cases e with
  | valueError =>
    dsimp only
    split <;> simp [jsonError]
  | _ => simp [jsonError, serverError]

theorem le_patchErrorResponse (codec : Codec) (e : StoreError) : 400 ≤ (patchErrorResponse codec e).status := by
  unfold patchErrorResponse
  cases e with
  | valueError | invalidTransition =>
    dsimp only
    split <;> simp [jsonError]
  | _ => simp [jsonError]

theorem le_refuseStatus (codec : Codec) (task : Task) (status : Json) : 400 ≤ (refuseStatus codec task status).status := by
  unfold refuseStatus
  split
  · simp [jsonError]
  · simp [jsonError]
  · exact le_patchErrorResponse ..

theorem le_createErrorResponse (message : String) : 400 ≤ (createErrorResponse message).status := by
  unfold createErrorResponse
  split
  · simp [jsonError]
  · split <;> simp [jsonError]

theorem le_dependErrorResponse (parentId message : String) : 400 ≤ (dependErrorResponse parentId message).status := by
  unfold dependErrorResponse
  split
  · simp [jsonError]
  · split
    · split <;> simp [jsonError]
    · simp [jsonError]

end Errors

section Updates

variable {db db' : Db} {clock : Clock} {taskId status : String} {args : StatusArgs} {view : Option TaskView}

theorem update_calls (h : updateTaskStatus db clock taskId status args = .ok (view, db')) : ByCalls db db' :=
  .single _ (step_updateTaskStatus h)

/-- A status update gives its task the status, and returns the task. -/
theorem update_row (h : updateTaskStatus db clock taskId status args = .ok (view, db')) :
    ∃ t, db'.task? taskId = some t ∧ t.status.value = status := by
  obtain ⟨t, new, retryAt, kind, ht, hnew, _, rfl⟩ := updateTaskStatus_ok h
  obtain rfl := Db.task_id ht
  exact ⟨t.move clock.now new args.result retryAt, (writeStatus_task db clock t new args retryAt kind ht t.id).trans
    (if_pos rfl), hnew⟩

theorem update_view (h : updateTaskStatus db clock taskId status args = .ok (view, db')) :
    view = getTask db' taskId := by
  unfold updateTaskStatus at h
  simp only [bind, pure, Except.bind, Except.pure, throw, throwThe, MonadExceptOf.throw] at h
  split at h
  · cases h
  split at h
  · cases h
  split at h
  · cases h
  split at h
  · cases h
  split at h
  · cases h
  split at h
  · cases h
  cases h
  rfl

end Updates

section Requests

variable (h : OrchestrationHandler) {db : Db}

theorem answered_createAndAnswer (draw : Draw) (args : CreateArgs) (parents : List ParentArg)
    (headers : List (String × String)) : Answered db (fun response db' => ∃ t, db.task? t.id = none ∧
      ShowsTask h.engine.toCodec t response db') (createAndAnswer h db draw args parents headers) := by
  unfold createAndAnswer
  split
  · exact .raised (.refl db)
  · split
    · exact .error (le_createErrorResponse _)
    · exact .raised (.refl db)
    · rename_i t db' hok
      have hcalls : ByCalls db db' := .single _ (step_createTask hok)
      split
      · exact .raised (.refl db)
      · split
        · exact .raised hcalls
        · rename_i detail hdetail
          obtain ⟨rfl, hfresh, htask, _⟩ := createTask_ok hok
          exact .success hcalls (by simp) ⟨_, hfresh, (htask _).trans (if_pos rfl), detail, hdetail,
            List.mem_cons_self⟩

theorem answered_create (draw : Draw) (caller : CallerIdentity) (body : CreateBody) :
    Answered db (fun response db' => ∃ t, db.task? t.id = none ∧ ShowsTask h.engine.toCodec t response db')
      (handleCreateTask h db draw caller body) := by
  unfold handleCreateTask
  split
  · exact .raised (.refl db)
  · split
    · exact .error (by simp [jsonError])
    · split
      · exact .raised (.refl db)
      · dsimp only
        split
        · exact .error (by simp [jsonError])
        · split
          · exact .raised (.refl db)
          · exact answered_createAndAnswer h draw _ _ _

/-- After an edit the row is the task that is returned. -/
theorem updateTask_row {clock : Clock} {taskId : String} {args : EditArgs} {task : Task} {db' : Db}
    (hu : updateTask db clock taskId args = .ok (task, db')) : db'.task? taskId = some task := by
  unfold updateTask at hu
  cases ht : db.task? taskId with
  | none => simp [ht, throw, throwThe, MonadExceptOf.throw] at hu
  | some t =>
    simp only [ht, pure, Except.pure] at hu
    split at hu
    · cases hu
      rw [task_emitEvent, Db.task_setTask, ht]
      exact congrArg some (if_pos rfl)
    · cases hu
      exact ht

/-- The promotion after an edit is always accepted: a task in `todo` may become ready, whoever asks. -/
theorem promoteAssigned_ok (clock : Clock) (taskId : String) (body : PatchBody) {task : Task}
    (ht : db.task? taskId = some task) : ∃ t db', promoteAssigned clock taskId body task db = .ok (some t, db') ∧
      ByCalls db db' ∧ db'.task? taskId = some t := by
  unfold promoteAssigned
  split
  · rename_i hpromoted
    simp only [Bool.and_eq_true, beq_iff_eq] at hpromoted
    have htodo := hpromoted.1.2
    have haccepted : Accepted task clock.now .ready ({} : StatusArgs).claimLock none :=
      accepted_of_edge (by simp [htodo, transitions]) (by simp [htodo]) (by simp) (by simp [htodo])
    obtain ⟨view, kind, hok⟩ := updateTaskStatus_accepted ht haccepted
    obtain ⟨t, ht', _⟩ := update_row hok
    refine ⟨t, _, ?_, update_calls hok, ht'⟩
    rw [hok, update_view hok]
    simp only [Except.map, getTask_task, ht']
  · exact ⟨task, db, rfl, .refl db, ht⟩

/-- The answer to a `PATCH`, once its update is made. -/
theorem answered_taskResponse {db' : Db} {taskId : String} {t : Task} (done : Response → Db → Prop)
    (hcalls : ByCalls db db') (ht : db'.task? taskId = some t)
    (hdone : ∀ response, ShowsTask h.engine.toCodec t response db' → done response db') :
    Answered db done (taskResponse h.engine.toCodec (some t), db') := by
  unfold taskResponse
  dsimp only [Option.bind_some]
  split
  · exact .raised hcalls
  · rename_i detail hdetail
    exact .success hcalls (by simp)
      (hdone _ ⟨(Db.task_id ht).symm ▸ ht, detail, hdetail, List.mem_cons_self⟩)

theorem editTask_cases (clock : Clock) (taskId : String) (body : PatchBody) (codec : Codec) (priority : Option Int) :
    (∃ response, editTask db clock taskId body codec priority = (.error response, db) ∧ 400 ≤ response.status) ∨
      ∃ t db', editTask db clock taskId body codec priority = (.ok (some t), db') ∧ ByCalls db db' ∧
        db'.task? taskId = some t := by
  unfold editTask
  cases hu : updateTask db clock taskId (body.args priority) with
  | error e => exact Or.inl ⟨_, rfl, le_patchErrorResponse codec e⟩
  | ok edited =>
    obtain ⟨task, db'⟩ := edited
    dsimp only
    split
    · exact Or.inl ⟨_, rfl, by simp [jsonError]⟩
    · have hstep : step db (.updateTask clock taskId (body.args priority)) = db' := by
        simp only [step, Db.tx, hu]
      obtain ⟨t, db'', hpromoted, hcalls, ht⟩ := promoteAssigned_ok clock taskId body (updateTask_row hu)
      rw [hpromoted]
      exact Or.inr ⟨t, db'', rfl, (ByCalls.single _ hstep).trans hcalls, ht⟩

theorem handleUpdateStatus_cases (codec : Codec) (clock : Clock) (taskId : String) (status : Json) :
    (∃ response, handleUpdateStatus codec db clock taskId status = (.error response, db) ∧ 400 ≤ response.status) ∨
      ∃ newStatus t view db', status = .str newStatus ∧
        handleUpdateStatus codec db clock taskId status = (.task view, db') ∧ ByCalls db db' ∧
        view.map TaskView.task = some t ∧ db'.task? taskId = some t ∧ t.status.value = newStatus := by
  unfold handleUpdateStatus
  split
  · rename_i newStatus
    cases hu : updateTaskStatus db clock taskId newStatus {} with
    | error e => exact Or.inl ⟨_, rfl, le_patchErrorResponse codec e⟩
    | ok updated =>
      obtain ⟨view, db'⟩ := updated
      obtain ⟨t, ht, hvalue⟩ := update_row hu
      have hview : view.map TaskView.task = some t := by
        rw [update_view hu, getTask_task, ht]
      exact Or.inr ⟨newStatus, t, view, db', rfl, rfl, update_calls hu, hview, ht, hvalue⟩
  · split
    · exact Or.inl ⟨_, rfl, le_patchErrorResponse codec _⟩
    · exact Or.inl ⟨_, rfl, le_refuseStatus ..⟩

theorem answered_update (clock : Clock) (taskId : String) (body : PatchBody) :
    Answered db (ApiRequest.Done h db (.task (.update clock taskId body))) (handleUpdateTask h db clock taskId body) := by
  unfold handleUpdateTask
  split
  · exact .error (by simp [jsonError])
  split
  · exact .error (by simp [jsonError])
  rename_i priority _
  cases hstatus : body.status with
  | some status =>
    rcases handleUpdateStatus_cases h.engine.toCodec clock taskId status with
      ⟨response, he, hle⟩ | ⟨newStatus, t, view, db', rfl, he, hcalls, hview, ht, hvalue⟩
    · dsimp only
      rw [he]
      exact .error hle
    · dsimp only
      rw [he]
      dsimp only
      rw [hview]
      refine answered_taskResponse h _ hcalls ht fun response hshown => ?_
      refine ⟨t, Db.task_id ht, hshown, fun asked hasked => ?_⟩
      rw [hstatus] at hasked
      cases hasked
      exact congrArg Json.str hvalue.symm
  | none =>
    rcases editTask_cases clock taskId body h.engine.toCodec priority with ⟨response, he, hle⟩ | ⟨t, db', he, hcalls, ht⟩
    · dsimp only
      rw [he]
      exact .error hle
    · dsimp only
      rw [he]
      refine answered_taskResponse h _ hcalls ht fun response hshown => ?_
      refine ⟨t, Db.task_id ht, hshown, fun asked hasked => ?_⟩
      rw [hstatus] at hasked
      cases hasked

theorem answered_claim (now : Rat) (clock : Clock) (caller : CallerIdentity) (taskId : String) (body : ClaimBody) :
    Answered db (ApiRequest.Done h db (.task (.claim now clock taskId body)))
      (handleClaim h db now clock caller taskId body) := by
  unfold handleClaim
  split
  · rename_i workerId _
    split
    · exact .raised (.refl db)
    · split
      · exact .error (by simp [jsonError])
      · apply Answered.afterBroadcast
        unfold claimAndAnswer
        rcases claimTask_cases db clock taskId (strip workerId) body.pid (body.ttl.getD defaultClaimTtl) with
          ⟨t, ht, hfree⟩ | hnone
        · rw [claimTask_claims ht hfree]
          have hcalls := ByCalls.single (.claimTask clock taskId (strip workerId) body.pid (body.ttl.getD defaultClaimTtl))
            (congrArg Prod.snd (claimTask_claims ht hfree))
          refine .success hcalls (by simp) ?_
          exact ⟨_, (writeClaim_task _ _ _ ht hfree taskId).trans (if_pos rfl), rfl, by simp [ClaimResult.toJson, claimedRow,
            Task.claim, Json.ofText], by simp [ClaimResult.toJson, claimedRow, Task.claim, ofInt]⟩
        · rw [hnone]
          dsimp only
          split
          · exact .error (by simp [jsonError])
          · exact .error (by simp [jsonError])
  · exact .raised (.refl db)

/-- The answer to a status update that went through. -/
theorem answered_status {clock : Clock} {taskId : String} {status : TaskStatus} {args : StatusArgs}
    {view : Option TaskView} {db' db'' : Db} {statuses : List TaskStatus} (extra : List (String × Json))
    (headers : List (String × String)) (hok : updateTaskStatus db clock taskId status.value args = .ok (view, db'))
    (hcalls : ByCalls db' db'') (hrow : db''.task? taskId = db'.task? taskId) (hstatus : status ∈ statuses) :
    Answered db (NamesStatus statuses taskId)
      (⟨200, ("task_id", .str taskId) :: ("status", .str status.value) :: extra, headers⟩, db'') := by
  obtain ⟨t, ht, hvalue⟩ := update_row hok
  obtain rfl := TaskStatus.value_injective hvalue
  exact .success ((update_calls hok).trans hcalls) (by simp)
    ⟨t, hrow.trans ht, hstatus, List.mem_cons_of_mem _ List.mem_cons_self⟩

theorem commented_calls (clock : Clock) (taskId author body : String) :
    ByCalls db (db.tx (addComment db clock taskId author body)).2 :=
  .single (.addComment clock taskId author body) rfl

theorem commented_row (clock : Clock) (taskId author body k : String) :
    (db.tx (addComment db clock taskId author body)).2.task? k = db.task? k :=
  congrArg (fun tasks : Table Task => tasks.find? k) (commented_tasks db clock taskId author body)

theorem answered_complete (clock : Clock) (agentId taskId : String) (body : CompleteBody) (ape : Option Ape) :
    Answered db (NamesStatus [.completed, .failed] taskId)
      (postComplete h.engine.toCodec h.broadcasts ape db clock agentId taskId body) := by
  refine Answered.afterBroadcast h taskId ?_
  unfold handleComplete
  dsimp only
  split
  · exact .error (by simp [jsonError])
  split
  · exact .raised (.refl db)
  · rename_i error _
    unfold failOnContract
    split
    · rename_i hok
      exact answered_status [("failure_reason", .str error)] _ hok (.refl _) rfl (by simp)
    · split
      · exact .error (by simp [jsonError])
      · exact .error (by simp [jsonError])
      · exact .error (by simp [jsonError])
      · exact .raised (.refl db)
  · unfold completeTask
    split
    · rename_i hok
      exact answered_status [] _ hok (.refl _) rfl (by simp)
    · exact .error (le_statusErrorResponse ..)

theorem answered_block (clock commentClock : Clock) (taskId : String) (body : BlockBody) :
    Answered db (NamesStatus [.blocked] taskId)
      (afterBroadcast h taskId (handleBlock h.engine.toCodec db clock commentClock taskId body)) := by
  apply Answered.afterBroadcast
  unfold handleBlock
  dsimp only
  split
  · exact .error (le_statusErrorResponse ..)
  · rename_i hok
    unfold blockComment
    split
    · exact answered_status [("block_reason", _)] [] hok (commented_calls ..) (commented_row ..) (by simp)
    · exact answered_status [("block_reason", _)] [] hok (.refl _) rfl (by simp)

theorem answered_unblock (clock commentClock : Clock) (taskId : String) (reason : Option Json) :
    Answered db (NamesStatus [.running] taskId) (handleUnblock h db clock commentClock taskId reason) := by
  unfold handleUnblock
  split
  · exact .error (le_statusErrorResponse ..)
  · rename_i hok
    apply Answered.afterBroadcast
    unfold unblockComment
    split
    · exact answered_status [] [] hok (commented_calls ..) (commented_row ..) (by simp)
    · exact answered_status [] [] hok (.refl _) rfl (by simp)

theorem answered_delete (clock : Clock) (taskId : String) :
    Answered db (NamesStatus [.archived] taskId) (handleDeleteTask h db clock taskId) := by
  unfold handleDeleteTask
  split
  · exact .error (by simp [jsonError])
  split
  · exact .error (by simp [jsonError])
  split
  · split
    · exact .error (by simp [jsonError])
    · exact .raised (.refl db)
  · rename_i hok
    exact answered_status [] [] hok (.refl _) rfl (by simp)

theorem answered_heartbeat (clock : Clock) (taskId : String) (claimLock : Option Json) :
    Answered db (ApiRequest.Done h db (.heartbeat clock taskId claimLock))
      (handleHeartbeat h db clock taskId claimLock) := by
  unfold handleHeartbeat
  dsimp only
  by_cases hlock : ∃ t, db.task? taskId = some t ∧ (claimLock.getD (.str "")).eqText t.claimLock = true
  · obtain ⟨t, ht, hl⟩ := hlock
    have hrow := (heartbeat_task clock ht hl taskId).trans (if_pos rfl)
    have haccepted : heartbeat db clock taskId (claimLock.getD (.str "")) =
        (true, step db (.heartbeat clock taskId (claimLock.getD (.str "")))) := by
      simp [heartbeat, step, ht, hl]
    rw [haccepted] at hrow ⊢
    refine .success (.single _ rfl) (by simp) ⟨_, hrow, hl, ?_⟩
    simp [getTask, hrow]
  · rw [heartbeat_refused clock fun t ht => Bool.eq_false_iff.mpr fun hl => hlock ⟨t, ht, hl⟩]
    dsimp only
    split
    · exact .error (by simp [jsonError])
    · exact .error (by simp [jsonError])

/-- The row that a comment adds. -/
theorem addComment_row {clock : Clock} {taskId author body : String} {comment : TaskComment} {db' : Db}
    (hok : addComment db clock taskId author body = .ok (comment, db')) :
    comment ∈ db'.comments.rows ∧ comment.taskId = taskId ∧ comment.author = author ∧ comment.body = body := by
  unfold addComment at hok
  split at hok
  · cases hok
  · cases hok
    exact ⟨List.mem_append_right _ List.mem_cons_self, rfl, rfl, rfl⟩

theorem answered_comment (clock : Clock) (taskId : String) (body : CommentBody) :
    Answered db (ApiRequest.Done h db (.comment clock taskId body)) (handleAddComment h db clock taskId body) := by
  unfold handleAddComment
  split
  · rename_i author text hauthor htext
    split
    · exact .error (by simp [jsonError])
    split
    · split
      · exact .error (by simp [jsonError])
      · exact .error (by simp [jsonError])
    · exact .raised (.refl db)
    · rename_i comment db' hok
      apply Answered.afterRendering
      obtain ⟨hmem, htask, hname, hbody⟩ := addComment_row hok
      have hstep : step db (.addComment clock taskId author text) = db' := by
        simp only [step, Db.tx, hok]
      refine .success (.single _ hstep) (by simp) ?_
      exact ⟨comment, hmem, htask, hname.symm ▸ hauthor, hbody.symm ▸ htext, List.mem_cons_self⟩
  · exact .raised (.refl db)

theorem answered_depend (clock : Clock) (taskId : String) (body : DependBody) :
    Answered db (ApiRequest.Done h db (.depend clock taskId body)) (handleAddDependency h db clock taskId body) := by
  unfold handleAddDependency
  split
  · exact .raised (.refl db)
  rename_i parentId hparent
  split
  · exact .error (by simp [jsonError])
  dsimp only
  split
  · exact .error (le_dependErrorResponse ..)
  · exact .raised (.refl db)
  · rename_i hok
    apply Answered.afterRendering
    have hcalls := ByCalls.single (.addDependency clock taskId parentId (body.storedCondition h.engine.toCodec))
      (congrArg (fun body => (db.tx body).2) hok)
    obtain ⟨_, _, links, rfl, hlinks⟩ := addDependency_ok hok
    refine .success hcalls (by simp) ?_
    refine ⟨⟨parentId, taskId, body.storedCondition h.engine.toCodec⟩, ?_, rfl, hparent, rfl, ?_, ?_⟩
    · rw [resolve_links]
      exact (hlinks _).mpr (Or.inl rfl)
    · exact List.mem_cons_of_mem _ List.mem_cons_self
    · exact List.mem_cons_of_mem _ (List.mem_cons_of_mem _ List.mem_cons_self)

theorem answered_undepend (clock : Clock) (taskId parentId : String) :
    Answered db (ApiRequest.Done h db (.undepend clock taskId parentId))
      (handleRemoveDependency h db clock taskId parentId) := by
  unfold handleRemoveDependency
  rcases removeDependency_cases db clock taskId parentId with ⟨hnone, _⟩ | ⟨links, hremoved, hlinks⟩
  · rw [hnone]
    exact .error (by simp [jsonError])
  · have hcalls := ByCalls.single (.removeDependency clock taskId parentId) (congrArg Prod.snd hremoved)
    rw [hremoved]
    refine Answered.afterRendering h taskId (.success hcalls (by simp) fun link hmem => ?_)
    rw [resolve_links] at hmem
    exact ((hlinks link).mp hmem).2

theorem batchComments_calls (status text : String) (items : List BatchItem) (db : Db) :
    ByCalls db (batchComments status text items db) := by
  induction items generalizing db with
  | nil => exact .refl db
  | cons item items ih =>
    refine ByCalls.trans ?_ (ih _)
    dsimp only
    split
    · split
      · exact commented_calls ..
      · exact .refl db
    · exact .refl db

theorem batchComments_row (status text : String) (items : List BatchItem) (db : Db) (k : String) :
    (batchComments status text items db).task? k = db.task? k := by
  induction items generalizing db with
  | nil => rfl
  | cons item items ih =>
    refine (ih _).trans ?_
    dsimp only
    split
    · split
      · exact commented_row ..
      · rfl
    · rfl

theorem answered_batch (key status : String) (text : String → String) (items : List BatchItem) (reason : Json) :
    Answered db (CountsUpdates key status db) (runBatch h db key status text items reason) := by
  unfold runBatch
  have hcalls : ByCalls db (batchUpdateStatus db (items.map (fun item => (item.clock, item.taskId))) status).2 :=
    ⟨_, batchLoop_exec status _ {} db⟩
  have hcounted := batchLoop_counted status (items.map (fun item => (item.clock, item.taskId))) {} db
  have hrows := fun k t => @countedItems_rows status (items.map (fun item => (item.clock, item.taskId))) db k t
  have hfit := countedItems_fit status (items.map (fun item => (item.clock, item.taskId))) db
  unfold batchUpdateStatus at hcalls ⊢
  revert hcalls hcounted hrows hfit
  generalize countedItems status db (items.map (fun item => (item.clock, item.taskId))) = counted
  intro hcalls ⟨hdb, hresult⟩ hrows ⟨hnodup, hfit⟩
  rw [← hdb] at hrows
  split
  · rename_i hraised
    rw [hraised] at hcalls
    exact .raised hcalls
  · rename_i result db' hok
    rw [hok] at hcalls hrows
    have hupdated := (hresult result (congrArg Prod.fst hok)).1
    have hdone : ∀ db'', (∀ k, db''.task? k = db'.task? k) →
        CountsUpdates key status db ⟨200, result.toJson h.engine.toCodec key, []⟩ db'' := by
      intro db'' hsame
      refine ⟨counted.map Prod.snd, hnodup, ?_, fun k hk => ?_⟩
      · rw [List.length_map]
        simp [BatchResult.toJson, hupdated]
      · obtain ⟨item, hitem, rfl⟩ := List.mem_map.mp hk
        obtain ⟨t, ht, _⟩ := hfit item hitem
        obtain ⟨t', ht', hcount⟩ := hrows item.2 t ht
        rw [if_pos hk] at hcount
        exact ⟨t, t', ht, (hsame _).trans ht', hcount.1, hcount.2⟩
    split
    · exact .success (hcalls.trans (batchComments_calls ..)) (by simp)
        (hdone _ fun _ => batchComments_row ..)
    · exact .success hcalls (by simp) (hdone _ fun _ => rfl)

theorem answered_batchStatus (body : BatchBody) :
    Answered db (ApiRequest.Done h db (.batchStatus body)) (handleBatchStatus h db body) := by
  unfold handleBatchStatus
  split
  · exact .error (by simp [emptyBatch, jsonError])
  · exact .error (by simp [emptyBatch, jsonError])
  split
  · exact .raised (.refl db)
  rename_i status hstatus
  split
  · exact .error (by simp [jsonError])
  · exact (answered_batch h "updated" status _ _ _).imp fun _ _ hcounts => ⟨status, hstatus, hcounts⟩

theorem answered_batchDelete (body : BatchBody) :
    Answered db (ApiRequest.Done h db (.batchDelete body)) (handleBatchDelete h db body) := by
  unfold handleBatchDelete
  split
  · exact .error (by simp [emptyBatch, jsonError])
  · exact .error (by simp [emptyBatch, jsonError])
  · exact answered_batch h "deleted" TaskStatus.archived.value _ _ _

/-- The contract of every route, in every state of the store. -/
theorem answered_serve (r : CallerIdentity × ApiRequest) : Answered db (r.2.Done h db) (serveApi h db r) := by
  obtain ⟨caller, request⟩ := r
  unfold serveApi
  split
  · cases request with
    | task request => cases request with
      | list query => exact ⟨.refl db, fun _ _ => rfl, fun _ => rfl⟩
      | get taskId => exact ⟨.refl db, fun _ _ => rfl, fun _ => rfl⟩
      | create draw body => exact answered_create h draw caller body
      | update clock taskId body => exact answered_update h clock taskId body
      | claim now clock taskId body => exact answered_claim h now clock caller taskId body
      | complete clock taskId body => exact answered_complete h clock caller.agentId taskId body _
      | unblock clock commentClock taskId reason => exact answered_unblock h clock commentClock taskId reason
      | delete clock taskId => exact answered_delete h clock taskId
    | block clock commentClock taskId body => exact answered_block h clock commentClock taskId body
    | heartbeat clock taskId claimLock => exact answered_heartbeat h clock taskId claimLock
    | comment clock taskId body => exact answered_comment h clock taskId body
    | depend clock taskId body => exact answered_depend h clock taskId body
    | undepend clock taskId parentId => exact answered_undepend h clock taskId parentId
    | batchStatus body => exact answered_batchStatus h body
    | batchDelete body => exact answered_batchDelete h body
  · exact .error (by simp [insufficientScope])

end Requests

/-- The database after a request. -/
def apiStep (h : OrchestrationHandler) (db : Db) (r : CallerIdentity × ApiRequest) : Db := (serveApi h db r).2

theorem apiStep_calls (h : OrchestrationHandler) (requests : List (CallerIdentity × ApiRequest)) (db : Db) :
    ByCalls db (exec (apiStep h) db requests) := by
  induction requests generalizing db with
  | nil => exact .refl db
  | cons r requests ih => exact (answered_serve h r).calls.trans (ih _)

/-- Whatever requests come in, by whoever they are made: the store has only seen its own calls, so its rows refer to
rows and no task waits for itself, and every request on the way is answered by the contract. -/
theorem api_contract (h : OrchestrationHandler) (requests : List (CallerIdentity × ApiRequest)) :
    ByCalls Db.empty (exec (apiStep h) Db.empty requests) ∧
    Integrity (exec (apiStep h) Db.empty requests) ∧ Graph.Acyclic (Linked (exec (apiStep h) Db.empty requests)) ∧
    EachStep (apiStep h) (fun db r => Answered db (r.2.Done h db) (serveApi h db r)) Db.empty requests := by
  have hcalls := apiStep_calls h requests Db.empty
  refine ⟨hcalls, ?_, ?_, .of_forall (fun db r => answered_serve h r) _ _⟩
  · obtain ⟨ops, hops⟩ := hcalls
    rw [hops]
    exact reachable_integrity ops
  · obtain ⟨ops, hops⟩ := hcalls
    rw [hops]
    exact reachable_acyclic ops

end A2ARegistry.Orchestration
