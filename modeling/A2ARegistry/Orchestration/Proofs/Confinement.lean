import A2ARegistry.Base.Run
import A2ARegistry.Orchestration.Proofs.Depth
import A2ARegistry.Orchestration.Proofs.Provenance
import A2ARegistry.Orchestration.Proofs.Tenant

namespace A2ARegistry.Orchestration
open Base Security

variable {tenant : String} {db : Db}

section Reads

/-- The row of a task of the tenant, as `get_task` finds it in its part of the database. -/
theorem getTask_restrict {k : String} (hk : Own tenant db k) :
    (getTask db k = none ∧ getTask (db.restrict tenant) k = none) ∨
    ∃ view view', getTask db k = some view ∧ getTask (db.restrict tenant) k = some view' ∧
      view'.task = view.task ∧ db.task? k = some view.task := by
  cases ht : db.task? k with
  | none => exact Or.inl ⟨by simp [getTask, ht], by simp [getTask, hk.task_restrict, ht]⟩
  | some t =>
    have ht' : (db.restrict tenant).task? k = some t := hk.task_restrict.trans ht
    obtain ⟨view, hv, rfl⟩ := Option.map_eq_some_iff.mp ((getTask_task k).trans ht)
    obtain ⟨view', hv', htask⟩ := Option.map_eq_some_iff.mp ((getTask_task k).trans ht')
    exact Or.inr ⟨view, view', hv, hv', htask, rfl⟩

/-- So too where an engine may have no task store. -/
theorem lookup_restrict {k : String} (tasks : Bool) (hk : Own tenant db k) :
    ((if tasks then getTask db k else none) = none ∧
      (if tasks then getTask (db.restrict tenant) k else none) = none) ∨
    ∃ view view', (if tasks then getTask db k else none) = some view ∧
      (if tasks then getTask (db.restrict tenant) k else none) = some view' ∧ view'.task = view.task := by
  cases tasks with
  | false => exact Or.inl ⟨rfl, rfl⟩
  | true =>
    rcases getTask_restrict hk with hnone | ⟨view, view', hv, hv', htask, _⟩
    · exact Or.inl hnone
    · exact Or.inr ⟨view, view', hv, hv', htask⟩

/-- The tasks that a task is linked to are of the tenant. -/
structure OwnLinks (tenant : String) (db : Db) (k : String) : Prop where
  parents : OwnParents tenant db k
  children : ∀ l ∈ db.links.rows, l.parentId = k → Own tenant db l.childId

instance (k : String) : Decidable (OwnLinks tenant db k) :=
  decidable_of_iff (OwnParents tenant db k ∧ ∀ l ∈ db.links.rows, l.parentId = k → Own tenant db l.childId)
    ⟨fun ⟨hp, hc⟩ => ⟨hp, hc⟩, fun h => ⟨h.parents, h.children⟩⟩

theorem restrict_children {α : Type} {k : String} (hk : owns tenant db k = true)
    (hc : ∀ l ∈ db.links.rows, l.parentId = k → Own tenant db l.childId) (f : TaskLink → Task → α) :
    ((db.restrict tenant).links.select (fun l => l.parentId == k)).filterMap
        (fun l => ((db.restrict tenant).task? l.childId).map (f l)) =
      (db.links.select (fun l => l.parentId == k)).filterMap (fun l => (db.task? l.childId).map (f l)) := by
  rw [restrict_childLinks hk]
  apply List.filterMap_congr
  intro l hl
  obtain ⟨hmem, hparent⟩ := Table.mem_select.mp hl
  rw [(hc l hmem (by simpa using hparent)).task_restrict]

/-- A task that is linked within the tenant is shown alike. -/
theorem restrict_handleGetTask {k : String} (codec : Codec) (hk : Own tenant db k) (hl : OwnLinks tenant db k) :
    handleGetTask (db.restrict tenant) k codec = handleGetTask db k codec := by
  unfold handleGetTask
  rcases getTask_restrict hk with ⟨hv, hv'⟩ | ⟨view, view', hv, hv', htask, ht⟩
  · rw [hv, hv']
  · have howns := hk.owns ht
    have hparents : getParents (db.restrict tenant) k = getParents db k :=
      restrict_parents howns hl.parents (fun l t => Json.obj [("id", .str t.id), ("title", .str t.title),
        ("status", .str t.status.value), ("condition", .ofText l.condition)])
    have hchildren : getChildren (db.restrict tenant) k = getChildren db k :=
      restrict_children howns hl.children (fun l t => Json.obj [("id", .str t.id), ("title", .str t.title),
        ("status", .str t.status.value), ("condition", .ofText l.condition)])
    have hruns : getRuns (db.restrict tenant) k = getRuns db k := by
      refine congrArg List.reverse (Table.select_keep db.runs.toTable fun r _ hr => ?_)
      rw [beq_iff_eq.mp hr]
      exact howns
    have hcomments : getComments (db.restrict tenant) k = getComments db k := by
      have hselect : (db.restrict tenant).comments.select (fun c => c.taskId == k) =
          db.comments.select (fun c => c.taskId == k) := by
        refine Table.select_keep db.comments.toTable fun c _ hc => ?_
        rw [beq_iff_eq.mp hc]
        exact howns
      rw [getComments, getComments, hselect]
    have hevents : getEvents (db.restrict tenant) k = getEvents db k := by
      have hselect : (db.restrict tenant).events.select (fun e => e.taskId == k) =
          db.events.select (fun e => e.taskId == k) := by
        refine Table.select_keep db.events.toTable fun e _ he => ?_
        rw [beq_iff_eq.mp he]
        exact howns
      rw [getEvents, getEvents, hselect]
    rw [hv, hv']
    simp only [htask, hparents, hchildren, hruns, hcomments, hevents]

/-- A list that is filtered by the tenant shows its tasks alike. -/
theorem restrict_listTasks {args : ListArgs} (ht : args.tenant = some tenant) (hne : tenant ≠ "") :
    listTasks (db.restrict tenant) args = listTasks db args := by
  have hgiven : given args.tenant = some tenant := by simp [given, ht, truthy, hne]
  have hselect : (db.restrict tenant).tasks.select (args.selects (db.restrict tenant)) =
      db.tasks.select (args.selects db) := by
    have hkeep : (db.restrict tenant).tasks.select (args.selects db) = db.tasks.select (args.selects db) := by
      refine Table.select_keep db.tasks fun t _ hs => ?_
      simp only [ListArgs.selects, hgiven, Bool.and_eq_true] at hs
      exact hs.1.1.2
    rw [← hkeep]
    apply List.filter_congr
    intro t hmem
    have howns : owns tenant db t.id = true := by
      obtain ⟨hrow, hin⟩ := List.mem_filter.mp hmem
      have hfind : db.task? t.id = some t := Table.find_mem hrow
      simpa [owns, hfind] using hin
    have hlinked : ∀ p, (childIds (db.restrict tenant) p).contains t.id = (childIds db p).contains t.id := by
      intro p
      rw [Bool.eq_iff_iff, List.contains_iff_mem, List.contains_iff_mem, mem_childIds, mem_childIds]
      constructor
      · rintro ⟨l, hl, h⟩
        exact ⟨l, (List.mem_filter.mp hl).1, h⟩
      · rintro ⟨l, hl, hp, hc⟩
        exact ⟨l, List.mem_filter.mpr ⟨hl, by simp [hc, howns]⟩, hp, hc⟩
    simp only [ListArgs.selects, hlinked]
  rw [listTasks, listTasks, hselect]

end Reads

/-- A handler comes to the same in the part of the database that is the tenant's, and leaves the other tasks
alone. -/
def Confined {α : Type} (tenant : String) (handle : Db → α × Db) (db : Db) : Prop :=
  handle (db.restrict tenant) = ((handle db).1, (handle db).2.restrict tenant) ∧ OthersSame tenant db (handle db).2

/-- A completion of the task that is accepted. -/
def Completes (db : Db) (clock : Clock) (k : String) (lock : Json) : Prop :=
  ∃ t retryAt, db.task? k = some t ∧ Accepted t clock.now .completed lock retryAt

section Handlers

variable (h : OrchestrationHandler) (clock : Clock)

/-- What is answered without a look at the database, and writes nothing, is confined. -/
theorem confined_const {α : Type} (response : α) : Confined tenant (fun db => (response, db)) db :=
  ⟨rfl, .refl tenant db⟩

/-- The rendering for the broadcast looks at the task alone. -/
theorem confined_afterBroadcast {k : String} {handle : Db → Response × Db} (hconfined : Confined tenant handle db)
    (hk : Own tenant db k) : Confined tenant (fun db => afterBroadcast h k (handle db)) db := by
  obtain ⟨hrestrict, hsame⟩ := hconfined
  simp only [Confined, afterBroadcast, hrestrict]
  split
  · have hk' : Own tenant (handle db).2 k := hsame.own.mpr hk
    unfold broadcastAnswer
    dsimp only
    split
    · rcases getTask_restrict hk' with ⟨hv, hv'⟩ | ⟨view, view', hv, hv', htask, _⟩
      · rw [hv, hv']
        exact ⟨rfl, hsame⟩
      · rw [hv, hv']
        dsimp only
        rw [htask]
        cases taskToDetail h.engine.toCodec view.task with
        | none => exact ⟨rfl, hsame⟩
        | some _ => exact ⟨rfl, hsame⟩
    · exact ⟨rfl, hsame⟩
  · exact ⟨rfl, hsame⟩

theorem confined_handleDeleteTask {k : String} (hk : Own tenant db k) :
    Confined tenant (fun db => handleDeleteTask h db clock k) db := by
  have harchived : TaskStatus.archived.value ≠ TaskStatus.completed.value := by decide
  unfold Confined handleDeleteTask
  dsimp only
  rcases getTask_restrict hk with ⟨hv, hv'⟩ | ⟨view, view', hv, hv', htask, _⟩
  · rw [hv, hv']
    exact confined_const _
  · rw [hv, hv']
    dsimp only
    rw [htask]
    split
    · exact confined_const _
    · rcases restrict_updateTaskStatus clock {} TaskStatus.archived.value hk
          (fun _ _ _ hnew => absurd hnew harchived) with
        ⟨e, he, he'⟩ | ⟨archived, archived', db', hok, hok', _, hsame⟩
      · rw [he, he']
        cases e with
        | invalidTransition | valueError | permissionError | integrityError | attributeError | overflowError =>
          exact confined_const _
      · rw [hok, hok']
        exact ⟨rfl, hsame⟩

section Complete

variable (codec : Codec) {k : String} (body : CompleteBody) (headers : List (String × String))

theorem confined_completeTask (hk : Own tenant db k)
    (hc : Completes db clock k body.claimLock → OwnChildren tenant db k) :
    Confined tenant (fun db => completeTask codec db clock k body headers) db := by
  unfold Confined completeTask
  dsimp only
  rcases restrict_updateTaskStatus clock (body.args codec) TaskStatus.completed.value hk
      (fun t retryAt ht _ ha => hc ⟨t, retryAt, ht, ha⟩) with
    ⟨e, he, he'⟩ | ⟨view, view', db', hok, hok', _, hsame⟩
  · rw [he, he']
    exact confined_const _
  · rw [hok, hok']
    exact ⟨rfl, hsame⟩

theorem confined_failOnContract (error : String) (hk : Own tenant db k) :
    Confined tenant (fun db => failOnContract codec db clock k body headers error) db := by
  have hfailed : TaskStatus.failed.value ≠ TaskStatus.completed.value := by decide
  unfold Confined failOnContract
  dsimp only
  rcases restrict_updateTaskStatus clock (body.failArgs error) TaskStatus.failed.value hk
      (fun _ _ _ hnew => absurd hnew hfailed) with
    ⟨e, he, he'⟩ | ⟨view, view', db', hok, hok', _, hsame⟩
  · rw [he, he']
    cases e with
    | invalidTransition | valueError | permissionError | integrityError | attributeError | overflowError =>
      exact confined_const _
  · rw [hok, hok']
    exact ⟨rfl, hsame⟩

theorem completeCheckpoint_restrict (ape : Option Ape) (agentId : String) (hk : Own tenant db k) :
    completeCheckpoint ape (db.restrict tenant) agentId k body = completeCheckpoint ape db agentId k body := by
  cases ape with
  | none => rfl
  | some ape =>
    unfold completeCheckpoint Ape.checkTaskComplete
    rcases lookup_restrict ape.tasks hk with ⟨hv, hv'⟩ | ⟨view, view', hv, hv', htask⟩
    · simp only [hv, hv']
    · simp only [hv, hv', htask]

theorem confined_handleComplete (ape : Option Ape) (agentId : String) (hk : Own tenant db k)
    (hc : Completes db clock k body.claimLock → OwnChildren tenant db k) :
    Confined tenant (fun db => handleComplete codec ape db clock agentId k body) db := by
  unfold Confined handleComplete
  dsimp only
  rw [completeCheckpoint_restrict body ape agentId hk]
  split
  · exact confined_const _
  · cases checkContract codec body with
    | none => exact confined_const serverError
    | some outcome => cases outcome with
      | none => exact confined_completeTask clock codec body _ hk hc
      | some error => exact confined_failOnContract clock codec body _ error hk

theorem confined_postComplete (caller : CallerIdentity) (hk : Own tenant db k)
    (hc : Completes db clock k body.claimLock → OwnChildren tenant db k) :
    Confined tenant (fun db => postComplete h.engine.toCodec h.broadcasts (h.ape.map PolicyEngine.toApe) db clock
      caller.agentId k body) db :=
  confined_afterBroadcast h (confined_handleComplete clock h.engine.toCodec body (h.ape.map PolicyEngine.toApe)
    caller.agentId hk hc) hk

end Complete

theorem claimCheckpoint_restrict {k : String} (now : Rat) (caller : CallerIdentity) (token : Option String)
    (hk : Own tenant db k) :
    claimCheckpoint h (db.restrict tenant) now caller k token = claimCheckpoint h db now caller k token := by
  cases hape : h.ape with
  | none => simp [claimCheckpoint, hape]
  | some engine =>
    have hverdict : claimVerdict engine (db.restrict tenant) h.tokens now caller k token =
        claimVerdict engine db h.tokens now caller k token := by
      unfold claimVerdict
      rcases lookup_restrict engine.tasks hk with ⟨hv, hv'⟩ | ⟨view, view', hv, hv', htask⟩
      · simp only [hv, hv']
      · simp only [hv, hv', htask]
    simp [claimCheckpoint, hape, Security.checkTaskClaim, hverdict]

theorem confined_claimAndAnswer {k : String} (workerId : String) (body : ClaimBody) (headers : List (String × String))
    (hk : Own tenant db k) :
    Confined tenant (fun db => claimAndAnswer db clock k workerId body headers) db := by
  obtain ⟨hrestrict, hsame⟩ := restrict_claimTask clock hk workerId body.pid (body.ttl.getD defaultClaimTtl)
  have hk' := hsame.own.mpr hk
  simp only [Confined, claimAndAnswer, hrestrict]
  generalize claimTask db clock k workerId body.pid (body.ttl.getD defaultClaimTtl) = claimed at hsame hk' ⊢
  obtain ⟨result, db'⟩ := claimed
  cases result with
  | some result => exact ⟨rfl, hsame⟩
  | none =>
    rcases getTask_restrict hk' with ⟨hv, hv'⟩ | ⟨view, view', hv, hv', _, _⟩
    · simp only [hv, hv']
      exact ⟨trivial, hsame⟩
    · simp only [hv, hv']
      exact ⟨trivial, hsame⟩

theorem confined_handleClaim {k : String} (now : Rat) (caller : CallerIdentity) (body : ClaimBody)
    (hk : Own tenant db k) : Confined tenant (fun db => handleClaim h db now clock caller k body) db := by
  unfold Confined handleClaim
  dsimp only
  rw [claimCheckpoint_restrict h now caller body.delegationToken hk]
  cases body.workerId with
  | str workerId =>
    cases claimCheckpoint h db now caller k body.delegationToken with
    | none => exact confined_const serverError
    | some checkpoint =>
      dsimp only
      split
      · exact confined_const _
      · exact confined_afterBroadcast h (confined_claimAndAnswer clock (strip workerId) body
          checkpoint.responseHeaders hk) hk
  | null | bool | int | float | arr | obj => exact confined_const serverError

theorem confined_unblockComment {k : String} (codec : Codec) (reason : Json) (response : Response)
    (hk : Own tenant db k) :
    Confined tenant (fun db => (response, unblockComment codec db clock k reason)) db := by
  unfold unblockComment
  split
  · obtain ⟨hrestrict, hsame⟩ := restrict_addComment clock hk "system" s!"Unblock reason: {codec.str reason}"
    simp only [Confined, hrestrict]
    exact ⟨trivial, hsame⟩
  · exact confined_const response

theorem confined_handleUnblock {k : String} (commentClock : Clock) (reason : Option Json) (hk : Own tenant db k) :
    Confined tenant (fun db => handleUnblock h db clock commentClock k reason) db := by
  have hrunning : TaskStatus.running.value ≠ TaskStatus.completed.value := by decide
  rcases restrict_updateTaskStatus clock {} TaskStatus.running.value hk
      (fun _ _ _ hnew => absurd hnew hrunning) with
    ⟨e, he, he'⟩ | ⟨view, view', db', hok, hok', _, hsame⟩
  · simp only [Confined, handleUnblock, he, he']
    exact ⟨trivial, .refl tenant db⟩
  · have hk' := hsame.own.mpr hk
    obtain ⟨hrestrict, hcommented⟩ := confined_afterBroadcast h (confined_unblockComment commentClock h.engine.toCodec
      (reason.getD (.str "Unblocked"))
      ⟨200, [("task_id", .str k), ("status", .str TaskStatus.running.value)], []⟩ hk') hk'
    simp only [Confined, handleUnblock, hok, hok']
    exact ⟨hrestrict, hsame.trans hcommented⟩

/-- An edit leaves the status of the task alone. -/
theorem updateTask_status {k : String} {args : EditArgs} {task : Task} {db' : Db}
    (hu : updateTask db clock k args = .ok (task, db')) : ∃ t, db.task? k = some t ∧ task.status = t.status := by
  unfold updateTask at hu
  cases ht : db.task? k with
  | none => simp [ht, throw, throwThe, MonadExceptOf.throw] at hu
  | some t =>
    simp only [ht, pure, Except.pure] at hu
    split at hu
    · cases hu
      exact ⟨t, rfl, rfl⟩
    · cases hu
      exact ⟨task, rfl, rfl⟩

/-- The promotion after an edit is confined, where the parents of a task that may be promoted are of the
tenant. -/
theorem restrict_promoteAssigned {k : String} (body : PatchBody) (task : Task) (hk : Own tenant db k)
    (hp : body.assignee.isSome → task.status = .todo → OwnParents tenant db k) :
    (∃ e, promoteAssigned clock k body task db = .error e ∧
      promoteAssigned clock k body task (db.restrict tenant) = .error e) ∨
    ∃ task' db', promoteAssigned clock k body task db = .ok (task', db') ∧
      promoteAssigned clock k body task (db.restrict tenant) = .ok (task', db'.restrict tenant) ∧
      OthersSame tenant db db' := by
  have hparents : body.assignee.isSome = true → task.status = .todo →
      (getTask (db.restrict tenant) k).any (fun view => view.parents.isEmpty) =
        (getTask db k).any (fun view => view.parents.isEmpty) := by
    intro ha hs
    unfold getTask
    rw [hk.task_restrict]
    cases ht : db.task? k with
    | none => rfl
    | some t =>
      have hsame := restrict_parents (hk.owns ht) (hp ha hs) (fun _ t => t.summary)
      simp only [Option.map_some, Option.any_some]
      exact congrArg List.isEmpty hsame
  have hcond : (body.assignee.isSome && truthy task.assignee && task.status == .todo &&
      (getTask (db.restrict tenant) k).any (fun view => view.parents.isEmpty)) =
      (body.assignee.isSome && truthy task.assignee && task.status == .todo &&
        (getTask db k).any (fun view => view.parents.isEmpty)) := by
    cases ha : body.assignee.isSome with
    | false => rfl
    | true =>
      by_cases hs : task.status = .todo
      · rw [hparents ha hs]
      · have htodo : (task.status == .todo) = false := beq_false_of_ne hs
        simp [htodo]
  have hready : TaskStatus.ready.value ≠ TaskStatus.completed.value := by decide
  unfold promoteAssigned
  rw [hcond]
  split
  · rcases restrict_updateTaskStatus clock {} TaskStatus.ready.value hk
        (fun _ _ _ hnew => absurd hnew hready) with
      ⟨e, he, he'⟩ | ⟨view, view', db', hok, hok', hview, hsame⟩
    · exact Or.inl ⟨e, by rw [he]; rfl, by rw [he']; rfl⟩
    · refine Or.inr ⟨view.map TaskView.task, db', by rw [hok]; rfl, ?_, hsame⟩
      rw [hok', ← hview]
      rfl
  · exact Or.inr ⟨_, _, rfl, rfl, .refl tenant db⟩

theorem confined_editTask {k : String} (body : PatchBody) (codec : Codec) (priority : Option Int)
    (hk : Own tenant db k)
    (hp : body.assignee.isSome → ∀ t, db.task? k = some t → t.status = .todo → OwnParents tenant db k) :
    Confined tenant (fun db => editTask db clock k body codec priority) db := by
  rcases restrict_updateTask clock hk (body.args priority) with ⟨e, he, he'⟩ | ⟨task, db', hok, hok', hsame⟩
  · simp only [Confined, editTask, he, he']
    exact ⟨trivial, .refl tenant db⟩
  · cases hfits : priority.all fitsInteger with
    | false =>
      simp only [Confined, editTask, hok, hok', hfits]
      exact ⟨rfl, .refl tenant db⟩
    | true =>
      obtain ⟨t, ht, hstatus⟩ := updateTask_status clock hok
      have hp' : body.assignee.isSome → task.status = .todo → OwnParents tenant db' k := by
        intro ha hs l hl hchild
        have hparents := hp ha t ht (hstatus ▸ hs)
        rw [(updateTask_ok hok).1] at hl
        exact hsame.own.mpr (hparents l hl hchild)
      rcases restrict_promoteAssigned clock body task (hsame.own.mpr hk) hp' with
        ⟨e, he, he'⟩ | ⟨task', db'', he, he', hsame'⟩
      · simp only [Confined, editTask, hok, hok', hfits, he, he']
        exact ⟨rfl, hsame⟩
      · simp only [Confined, editTask, hok, hok', hfits, he, he']
        exact ⟨rfl, hsame.trans hsame'⟩

/-- A status that is given in a `PATCH`. -/
theorem confined_patchStatus {k : String} (codec : Codec) (status : Json) (hk : Own tenant db k)
    (hc : status = .str TaskStatus.completed.value → Completes db clock k .null → OwnChildren tenant db k) :
    Confined tenant (fun db => match handleUpdateStatus codec db clock k status with
      | (.error response, db') => (response, db')
      | (.task view, db') => (taskResponse codec (view.map TaskView.task), db')) db := by
  unfold Confined handleUpdateStatus
  dsimp only
  cases status with
  | str newStatus =>
    dsimp only
    rcases restrict_updateTaskStatus clock {} newStatus hk
        (fun t retryAt ht hnew ha => hc (congrArg Json.str hnew) ⟨t, retryAt, ht, ha⟩) with
      ⟨e, he, he'⟩ | ⟨view, view', db', hok, hok', hview, hsame⟩
    · rw [he, he']
      exact confined_const _
    · rw [hok, hok']
      dsimp only
      rw [hview]
      exact ⟨rfl, hsame⟩
  | null | bool | int | float | arr | obj =>
    dsimp only
    rw [hk.task_restrict]
    cases db.task? k with
    | none => exact confined_const _
    | some t => exact confined_const _

theorem confined_handleUpdateTask {k : String} (body : PatchBody) (hk : Own tenant db k)
    (hc : body.status = some (.str TaskStatus.completed.value) → Completes db clock k .null →
      OwnChildren tenant db k)
    (hp : body.status = none → body.assignee.isSome → ∀ t, db.task? k = some t → t.status = .todo →
      OwnParents tenant db k) :
    Confined tenant (fun db => handleUpdateTask h db clock k body) db := by
  unfold handleUpdateTask
  split
  · exact confined_const _
  · cases hr : body.readPriority h.intOfFloat with
    | none => exact confined_const _
    | some priority =>
      cases hs : body.status with
      | some status =>
        have hcompletes := fun he : status = .str TaskStatus.completed.value => hc (hs.trans (congrArg some he))
        exact confined_patchStatus clock h.engine.toCodec status hk hcompletes
      | none =>
        dsimp only
        obtain ⟨hrestrict, hsame⟩ := confined_editTask clock body h.engine.toCodec priority hk (hp hs)
        dsimp only at hrestrict hsame
        simp only [Confined, hrestrict]
        generalize editTask db clock k body h.engine.toCodec priority = edited at hsame ⊢
        obtain ⟨result, db'⟩ := edited
        cases result with
        | error response => exact ⟨rfl, hsame⟩
        | ok task => exact ⟨rfl, hsame⟩

section Create

theorem lookupRaises_restrict (engine : Engine) {parents : List ParentArg}
    (hp : ∀ parent ∈ parents, Own tenant db (parent.id engine.toCodec)) :
    lookupRaises engine (db.restrict tenant) parents = lookupRaises engine db parents := by
  induction parents with
  | nil => rfl
  | cons parent parents ih =>
    obtain ⟨hparent, hparents⟩ := List.forall_mem_cons.mp hp
    rw [lookupRaises, lookupRaises, hparent.task_restrict, ih hparents]

/-- An engine that looks for the depth of a parent finds one of the tenant. -/
def OwnDepth (tenant : String) (db : Db) (ape : Option PolicyEngine) (parentId : Json) : Prop :=
  ∀ engine, ape = some engine → engine.maxDelegationDepth ≤ 0 → ∀ id, parentId = .str id → Own tenant db id

/-- The depth of every task reads as zero, so a positive limit denies nothing. -/
theorem checkDepth_restrict (engine : PolicyEngine) (taskData : TaskData)
    (hd : engine.maxDelegationDepth ≤ 0 → ∀ id, taskData.parentId = .str id → Own tenant db id) :
    checkDepth engine (db.restrict tenant) taskData = checkDepth engine db taskData := by
  have hpositive : ∀ db₀, ¬ engine.maxDelegationDepth ≤ 0 → checkDepth engine db₀ taskData = none := by
    intro db₀ hlimit
    unfold checkDepth
    split
    · split
      · rfl
      · split
        · rfl
        · exact if_neg hlimit
    · rfl
  by_cases hlimit : engine.maxDelegationDepth ≤ 0
  · unfold checkDepth
    split
    · rename_i id hid
      rcases lookup_restrict engine.tasks (hd hlimit id hid) with ⟨hv, hv'⟩ | ⟨view, view', hv, hv', _⟩
      · rw [hv, hv']
      · rw [hv, hv']
        rfl
    · rfl
  · rw [hpositive _ hlimit, hpositive _ hlimit]

theorem createCheckpoint_restrict (draw : Draw) (caller : CallerIdentity) (body : CreateBody)
    (hd : OwnDepth tenant db h.ape body.parentId) :
    createCheckpoint h (db.restrict tenant) draw caller body = createCheckpoint h db draw caller body := by
  cases hape : h.ape with
  | none => simp [createCheckpoint, hape]
  | some engine =>
    have hdepth := checkDepth_restrict engine ⟨body.assignee, body.parentId⟩ (hd engine hape)
    simp [createCheckpoint, hape, checkTaskCreate, createDenial, hdepth]

theorem confined_createAndAnswer (draw : Draw) (body : CreateBody) (title : String) (priority : Int)
    {parents : List ParentArg} (headers : List (String × String)) (ht : body.tenant = some tenant)
    (hnew : NewId db (freshId draw.hex)) (hp : ∀ parent ∈ parents, Own tenant db (parent.id h.engine.toCodec)) :
    Confined tenant (fun db =>
      createAndAnswer h db draw (body.args h.engine title priority parents) parents headers) db := by
  have hspecs := args_parentSpecs h.engine body title priority parents
  have htenant : (body.args h.engine title priority parents).tenant = some tenant := ht
  generalize body.args h.engine title priority parents = args at hspecs htenant ⊢
  have hparents : ∀ spec ∈ args.parentSpecs, Own tenant db spec.parentId := by
    rw [hspecs]
    intro spec hs
    obtain ⟨parent, hparent, rfl⟩ := List.mem_map.mp hs
    exact hp parent hparent
  unfold Confined createAndAnswer
  dsimp only
  rw [lookupRaises_restrict h.engine hp]
  split
  · exact confined_const serverError
  · rcases restrict_createTask draw.clock htenant hparents hnew with ⟨e, he, he'⟩ | ⟨task, db', hok, hok', hsame⟩
    · rw [he, he']
      cases e with
      | valueError message => exact confined_const (createErrorResponse message)
      | invalidTransition | permissionError | integrityError | attributeError | overflowError =>
        exact confined_const serverError
    · rw [hok, hok']
      dsimp only
      split
      · exact confined_const serverError
      · cases taskToDetail h.engine.toCodec task with
        | none => exact ⟨rfl, hsame⟩
        | some detail => exact ⟨rfl, hsame⟩

/-- A creation for the tenant, with a new id and with parents of the tenant, is confined. -/
theorem confined_handleCreateTask (draw : Draw) (caller : CallerIdentity) (body : CreateBody)
    (ht : body.tenant = some tenant) (hnew : NewId db (freshId draw.hex))
    (hd : OwnDepth tenant db h.ape body.parentId)
    (hp : ∀ parents, parentArgs h.engine.toCodec body.parents = some parents →
      ∀ parent ∈ parents, Own tenant db (parent.id h.engine.toCodec)) :
    Confined tenant (fun db => handleCreateTask h db draw caller body) db := by
  unfold Confined handleCreateTask
  dsimp only
  rw [createCheckpoint_restrict h draw caller body hd]
  cases body.strippedTitle with
  | none => exact confined_const serverError
  | some title =>
    dsimp only
    split
    · exact confined_const _
    · cases readPriority h.intOfFloat body.priority with
      | none => exact confined_const serverError
      | some priority =>
        dsimp only
        split
        · exact confined_const _
        · cases hparents : parentArgs h.engine.toCodec body.parents with
          | none => exact confined_const serverError
          | some parents =>
            exact confined_createAndAnswer h draw body title priority _ ht hnew (hp parents hparents)

end Create

end Handlers

/-- The caller bears a token of the tenant that is not an administrator's. -/
def OfTenant (tenant : String) (caller : CallerIdentity) : Prop :=
  caller.tenant = tenant ∧ "registry:admin" ∉ caller.scopes

instance (tenant : String) (caller : CallerIdentity) : Decidable (OfTenant tenant caller) :=
  inferInstanceAs (Decidable (_ ∧ _))

/-- The store after a request. -/
def serveStep (h : OrchestrationHandler) (reader : TraceReader) (s : TracedStore) (r : TracedRequest) : TracedStore :=
  (serveTraced h reader s r).2

/-- The chains of a task, each with its hops. -/
def tracesOf (pt : ProvenanceTracker) (k : String) : List (ChainRow × List ProvenanceHop) :=
  (pt.chains.select (fun row => row.taskId == k)).map (fun row => (row, pt.hopsOf row.chainId))

/-- The trackers know the same of a task: its chains, and the chain and the hops that have its id. -/
structure SameTrace (p q : ProvenanceTracker) (k : String) : Prop where
  traces : tracesOf p k = tracesOf q k
  chain : p.chains.find? k = q.chains.find? k
  hops : p.hopsOf k = q.hopsOf k

/-- They do of all these tasks, on one kind of database. -/
structure SameTraces (ids : String → Prop) (p q : ProvenanceTracker) : Prop where
  driver : p.driver = q.driver
  traces : ∀ k, ids k → SameTrace p q k

/-- The stores agree on the tasks of a tenant, and on their chains if a tracker is wired up. -/
structure Agree (tenant : String) (s t : TracedStore) : Prop where
  db : s.db.restrict tenant = t.db.restrict tenant
  pt : Option.Rel (SameTraces (fun k => owns tenant s.db k = true)) s.pt t.pt

/-- The requests are answered alike from both stores, and at no time has a task of another tenant changed. -/
structure Noninterferent (tenant : String) (h : OrchestrationHandler) (reader : TraceReader) (s t : TracedStore)
    (requests : List TracedRequest) : Prop where
  answers : outputs (serveTraced h reader) s requests = outputs (serveTraced h reader) t requests
  others₁ : Always (serveStep h reader) (fun s' => OthersSame tenant s.db s'.db) s requests
  others₂ : Always (serveStep h reader) (fun t' => OthersSame tenant t.db t'.db) t requests

/-- The tracker has nothing under the id. -/
structure Untraced (pt : ProvenanceTracker) (k : String) : Prop where
  chains : ∀ row ∈ pt.chains.rows, row.chainId ≠ k ∧ row.taskId ≠ k
  hops : ∀ row ∈ pt.hops.rows, row.chainId ≠ k

instance (pt : ProvenanceTracker) (k : String) : Decidable (Untraced pt k) :=
  decidable_of_iff ((∀ row ∈ pt.chains.rows, row.chainId ≠ k ∧ row.taskId ≠ k) ∧ ∀ row ∈ pt.hops.rows, row.chainId ≠ k)
    ⟨fun ⟨hc, hh⟩ => ⟨hc, hh⟩, fun h => ⟨h.chains, h.hops⟩⟩

/-- A request stays with the tenant: it lists with the filter, creates with the tenant and its parents and a new
id, and otherwise names a task of the tenant; where the tasks that are linked to it are shown or resolved, they
are of the tenant too. -/
def TaskRequest.Inside (tenant : String) (h : OrchestrationHandler) (db : Db) : TaskRequest → Prop
  | .list query => tenant ≠ "" ∧ query.tenant = some tenant
  | .get taskId => Own tenant db taskId ∧ OwnLinks tenant db taskId
  | .create draw body => body.tenant = some tenant ∧ NewId db (freshId draw.hex) ∧
      OwnDepth tenant db h.ape body.parentId ∧
      ∀ parents, parentArgs h.engine.toCodec body.parents = some parents →
        ∀ parent ∈ parents, Own tenant db (parent.id h.engine.toCodec)
  | .update clock taskId body => Own tenant db taskId ∧
      (body.status = some (.str TaskStatus.completed.value) → Completes db clock taskId .null →
        OwnChildren tenant db taskId) ∧
      (body.status = none → body.assignee.isSome → ∀ t, db.task? taskId = some t → t.status = .todo →
        OwnParents tenant db taskId)
  | .claim _ _ taskId _ | .unblock _ _ taskId _ | .delete _ taskId => Own tenant db taskId
  | .complete clock taskId body => Own tenant db taskId ∧
      (Completes db clock taskId body.claimLock → OwnChildren tenant db taskId)

/-- A task that is created is new to the tracker too. -/
def TaskRequest.NewTrace (pt : ProvenanceTracker) : TaskRequest → Prop
  | .create draw _ => Untraced pt (freshId draw.hex)
  | _ => True

/-- A request that gets to its handler stays with the tenant. -/
def Within (tenant : String) (h : OrchestrationHandler) (s : TracedStore) (r : TracedRequest) : Prop :=
  r.caller.scopes.contains r.request.scope = true →
    r.request.Inside tenant h s.db ∧ ∀ pt ∈ s.pt, r.request.NewTrace pt

section Traces

variable {ids : String → Prop} {p q : ProvenanceTracker} {k : String}

theorem SameTraces.mono {ids' : String → Prop} (h : SameTraces ids p q) (hsub : ∀ k, ids' k → ids k) :
    SameTraces ids' p q :=
  ⟨h.driver, fun k hk => h.traces k (hsub k hk)⟩

/-- What neither tracker has anything of, they know the same of. -/
theorem Untraced.same (hp : Untraced p k) (hq : Untraced q k) : SameTrace p q k := by
  have hnone : ∀ {pt : ProvenanceTracker}, Untraced pt k →
      tracesOf pt k = [] ∧ pt.chains.find? k = none ∧ pt.hopsOf k = [] := by
    intro pt h
    refine ⟨List.map_eq_nil_iff.mpr ?_, Table.find_none_iff.mpr fun row hrow => (h.chains row hrow).1, hopsOf_nil h.hops⟩
    exact List.filter_eq_nil_iff.mpr fun row hrow => by simpa using (h.chains row hrow).2
  obtain ⟨htraces, hchain, hhops⟩ := hnone hp
  obtain ⟨htraces', hchain', hhops'⟩ := hnone hq
  exact ⟨htraces.trans htraces'.symm, hchain.trans hchain'.symm, hhops.trans hhops'.symm⟩

theorem SameTrace.getChainByTask (h : SameTrace p q k) (reader : TraceReader) :
    p.getChainByTask reader.choice k = q.getChainByTask reader.choice k := by
  have hrows : p.chains.select (fun row => row.taskId == k) = q.chains.select (fun row => row.taskId == k) := by
    simpa [tracesOf, List.map_map, Function.comp_def] using congrArg (List.map Prod.fst) h.traces
  have htraces := h.traces
  unfold tracesOf at htraces
  rw [hrows] at htraces
  unfold ProvenanceTracker.getChainByTask
  rw [hrows]
  cases hfetch : reader.choice.fetch (q.chains.select (fun row => row.taskId == k)) with
  | none => rfl
  | some row =>
    have hhops : p.hopsOf row.chainId = q.hopsOf row.chainId :=
      congrArg Prod.snd (List.map_inj_left.mp htraces row (reader.fetched _ _ hfetch))
    simp only [Option.map_some, ProvenanceTracker.chain, hhops]

/-- A new chain is one of its task. -/
theorem tracesOf_ensureChain (now : Rat) (args : ChainArgs) (k : String) : tracesOf (p.ensureChain now args) k =
    tracesOf p k ++ if p.chains.find? args.chainId = none ∧ args.taskId = k
      then [(args.row now, p.hopsOf args.chainId)] else [] := by
  have hhops : ∀ row : ChainRow, (p.ensureChain now args).hopsOf row.chainId = p.hopsOf row.chainId :=
    fun row => hopsOf_ensureChain args
  simp only [tracesOf, hhops]
  rcases ensureChain_cases args p now with ⟨hthere, hsame⟩ | ⟨hnone, chains, hchains, hrows⟩
  · have hsome : ¬ (p.chains.find? args.chainId = none ∧ args.taskId = k) := by
      rintro ⟨hnone, _⟩
      rw [ProvenanceTracker.hasChain, hnone] at hthere
      cases hthere
    rw [hsame, if_neg hsome, List.append_nil]
  · have hnew : p.chains.find? args.chainId = none := Option.isNone_iff_eq_none.mp (Option.isSome_eq_false_iff.mp hnone)
    rw [hchains, Table.select, hrows, List.filter_append, List.map_append]
    by_cases hk : args.taskId = k
    · simp [Table.select, hnew, hk, ChainArgs.row]
    · simp [Table.select, hk, ChainArgs.row]

theorem find_ensureChain (now : Rat) (args : ChainArgs) (k : String) : (p.ensureChain now args).chains.find? k =
    if p.chains.find? args.chainId = none ∧ args.chainId = k then some (args.row now) else p.chains.find? k := by
  unfold ProvenanceTracker.ensureChain
  cases hinsert : p.chains.insert? (args.row now) with
  | none =>
    have hsome : p.chains.find? args.chainId ≠ none := by
      intro hnone
      have hthere := Table.insert_isSome.mpr (show p.chains.find? (key (args.row now)) = none from hnone)
      rw [hinsert] at hthere
      cases hthere
    rw [if_neg fun h => hsome h.1]
  | some chains =>
    have hnone : p.chains.find? args.chainId = none := (Table.insert_some hinsert).1
    simp only [hnone, true_and]
    exact (Table.find_insert hinsert k).trans (if_congr eq_comm rfl rfl)

/-- A chain is ensured for a task in both trackers, or in neither. -/
theorem SameTraces.ensureChain (h : SameTraces ids p q) (now : Rat) {args : ChainArgs} (hid : ids args.chainId) :
    SameTraces ids (p.ensureChain now args) (q.ensureChain now args) := by
  have hargs := h.traces args.chainId hid
  refine ⟨by rw [ensureChain_driver, ensureChain_driver, h.driver], fun k hk => ?_⟩
  have hsame := h.traces k hk
  constructor
  · rw [tracesOf_ensureChain, tracesOf_ensureChain, hsame.traces, hargs.chain, hargs.hops]
  · rw [find_ensureChain, find_ensureChain, hargs.chain, hsame.chain]
  · rw [hopsOf_ensureChain, hopsOf_ensureChain, hsame.hops]

section Record

variable {now : Rat} {args : HopArgs} {hop : ProvenanceHop} {p' q' : ProvenanceTracker}

/-- The chain of a hop counts it. -/
theorem rows_recordHop (h : p.recordHop now args = some (hop, p')) : p'.chains = p.chains.modify
    (fun row => row.chainId == args.chainId) (fun row => { row with depth := (p'.hopsOf args.chainId).length }) := by
  unfold ProvenanceTracker.recordHop at h
  split at h
  · cases h
  · cases h
    rfl

theorem tracesOf_recordHop (h : p.recordHop now args = some (hop, p')) (k : String) : tracesOf p' k =
    (tracesOf p k).map (fun (row, hops) =>
      if row.chainId = args.chainId then
        ({ row with depth := (p.hopsOf args.chainId ++ [hop]).length }, hops ++ [hop])
      else (row, hops)) := by
  have hhops := hopsOf_recordHop h
  rw [tracesOf, rows_recordHop h, tracesOf, Table.select, Table.select, Table.modify, List.filter_map, List.map_map,
    List.map_map]
  have hkeeps : (fun row : ChainRow => row.taskId == k) ∘ (fun row => if row.chainId == args.chainId then
      { row with depth := (p'.hopsOf args.chainId).length } else row) = fun row => row.taskId == k := by
    funext row
    dsimp only [Function.comp_apply]
    split <;> rfl
  rw [hkeeps]
  apply List.map_congr_left
  intro row _
  by_cases hchain : row.chainId = args.chainId
  · simp [hchain, hhops]
  · simp [hchain, Ne.symm hchain, hhops]

/-- A hop of a task is recorded in both trackers, or in neither. -/
theorem SameTraces.recordHop (h : SameTraces ids p q) (now : Rat) (args : HopArgs) (hid : ids args.chainId) :
    p.recordHop now args = none ∧ q.recordHop now args = none ∨
    ∃ hop p' q', p.recordHop now args = some (hop, p') ∧ q.recordHop now args = some (hop, q') ∧ SameTraces ids p' q' := by
  have hargs := h.traces args.chainId hid
  have hthere : q.hasChain args.chainId = p.hasChain args.chainId := by
    rw [ProvenanceTracker.hasChain, ← hargs.chain, ProvenanceTracker.hasChain]
  by_cases hraises : p.driver = .sqlite ∧ p.hasChain args.chainId = false
  · refine Or.inl ⟨if_pos hraises, if_pos ?_⟩
    rw [← h.driver, hthere]
    exact hraises
  · have hp : p.recordHop now args = some _ := if_neg hraises
    have hq : q.recordHop now args = some _ := if_neg (by rw [← h.driver, hthere]; exact hraises)
    refine Or.inr ⟨_, _, _, hp, hq, h.driver, fun k hk => ?_⟩
    have hsame := h.traces k hk
    have hkeyed : ∀ k, (_ : ProvenanceTracker).hopsOf k = _ := hopsOf_recordHop hp
    have hkeyed' : ∀ k, (_ : ProvenanceTracker).hopsOf k = _ := hopsOf_recordHop hq
    constructor
    · rw [tracesOf_recordHop hp, tracesOf_recordHop hq, hsame.traces, hargs.hops]
    · rw [rows_recordHop hp, rows_recordHop hq, Table.find_modify, Table.find_modify, hsame.chain, hkeyed, hkeyed',
        hargs.hops]
    · rw [hkeyed, hkeyed', hsame.hops]

end Record

end Traces

section Steps

variable {tenant : String} {h : OrchestrationHandler} {db : Db}

theorem confined_handle (caller : CallerIdentity) {request : TaskRequest} (hin : request.Inside tenant h db) :
    Confined tenant (fun db => handle h db caller request) db := by
  cases request with
  | list query =>
    obtain ⟨hne, htenant⟩ := hin
    have hlist : listTasks (db.restrict tenant) query.args = listTasks db query.args :=
      restrict_listTasks htenant hne
    simp only [Confined, handle, handleListTasks, hlist]
    exact ⟨trivial, .refl tenant db⟩
  | get taskId =>
    obtain ⟨hown, hlinks⟩ := hin
    simp only [Confined, handle, restrict_handleGetTask h.engine.toCodec hown hlinks]
    exact ⟨trivial, .refl tenant db⟩
  | create draw body =>
    obtain ⟨htenant, hnew, hdepth, hparents⟩ := hin
    exact confined_handleCreateTask h draw caller body htenant hnew hdepth hparents
  | update clock taskId body =>
    obtain ⟨hown, hcompletes, hpromotes⟩ := hin
    exact confined_handleUpdateTask h clock body hown hcompletes hpromotes
  | claim now clock taskId body => exact confined_handleClaim h clock now caller body hin
  | complete clock taskId body =>
    obtain ⟨hown, hcompletes⟩ := hin
    exact confined_postComplete h clock body caller hown hcompletes
  | unblock clock commentClock taskId reason => exact confined_handleUnblock h clock commentClock reason hin
  | delete clock taskId => exact confined_handleDeleteTask h clock hin

/-- The handler makes no task. -/
def MakesNone (db : Db) (answer : Response × Db) : Prop := ∀ k, db.task? k = none → answer.2.task? k = none

section MakesNone

variable (h) {response : Response} {taskId : String}

theorem step_absent {op : Op} (hop : ∀ clock hex args, op ≠ .createTask clock hex args) {k : String}
    (hk : db.task? k = none) : (step db op).task? k = none := by
  cases ht : (step db op).task? k with
  | none => rfl
  | some t =>
    obtain ⟨clock, hex, args, _, he, _⟩ := step_created hk ht
    exact absurd he (hop clock hex args)

theorem MakesNone.refl : MakesNone db (response, db) := fun _ hk => hk

theorem MakesNone.updated {clock : Clock} {status : String} {args : StatusArgs} {view : Option TaskView} {db' : Db}
    (hu : updateTaskStatus db clock taskId status args = .ok (view, db')) : MakesNone db (response, db') := by
  intro k hk
  rw [← step_updateTaskStatus hu]
  exact step_absent (fun _ _ _ he => by cases he) hk

theorem MakesNone.tasks {answer : Response × Db} {db' : Db} (hmakes : MakesNone db answer)
    (hsame : db'.tasks = answer.2.tasks) : MakesNone db (response, db') := by
  intro k hk
  rw [Db.task?, hsame]
  exact hmakes k hk

theorem afterBroadcast_db (answer : Response × Db) : (afterBroadcast h taskId answer).2 = answer.2 := by
  unfold afterBroadcast broadcastAnswer
  split
  · split
    · split
      · rfl
      · split <;> rfl
    · rfl
  · rfl

theorem MakesNone.afterBroadcast {answer : Response × Db} (hmakes : MakesNone db answer) :
    MakesNone db (afterBroadcast h taskId answer) :=
  hmakes.tasks (congrArg Db.tasks (afterBroadcast_db h answer))

theorem makesNone_promoteAssigned {clock : Clock} {body : PatchBody} {task : Task} {promoted : Option Task × Db}
    (hp : promoteAssigned clock taskId body task db = .ok promoted) {k : String} (hk : db.task? k = none) :
    promoted.2.task? k = none := by
  unfold promoteAssigned at hp
  split at hp
  · cases hu : updateTaskStatus db clock taskId TaskStatus.ready.value {} with
    | error e =>
      rw [hu] at hp
      cases hp
    | ok updated =>
      rw [hu] at hp
      cases hp
      have hnone : MakesNone db (serverError, _) := .updated hu
      exact hnone k hk
  · cases hp
    exact hk

theorem makesNone_editTask (clock : Clock) (body : PatchBody) (codec : Codec) (priority : Option Int) :
    MakesNone db (response, (editTask db clock taskId body codec priority).2) := by
  unfold editTask
  cases hu : updateTask db clock taskId (body.args priority) with
  | error e => exact .refl
  | ok edited =>
    obtain ⟨task, db'⟩ := edited
    have hedited : ∀ k, db.task? k = none → db'.task? k = none := by
      intro k hk
      have hstep : step db (.updateTask clock taskId (body.args priority)) = db' := by simp only [step, Db.tx, hu]
      rw [← hstep]
      exact step_absent (fun _ _ _ he => by cases he) hk
    dsimp only
    cases hfits : priority.all fitsInteger with
    | false => exact .refl
    | true =>
      rw [if_neg (by decide)]
      cases hp : promoteAssigned clock taskId body task db' with
      | error e => exact hedited
      | ok promoted => exact fun k hk => makesNone_promoteAssigned hp (hedited k hk)

theorem makesNone_handleUpdateTask (clock : Clock) (body : PatchBody) :
    MakesNone db (handleUpdateTask h db clock taskId body) := by
  unfold handleUpdateTask
  split
  · exact .refl
  split
  · exact .refl
  rename_i priority _
  cases body.status with
  | some status =>
    dsimp only
    unfold handleUpdateStatus
    cases status with
    | str newStatus =>
      dsimp only
      cases hu : updateTaskStatus db clock taskId newStatus {} with
      | error e => exact .refl
      | ok updated => exact .updated hu
    | null | bool | int | float | arr | obj =>
      dsimp only
      cases db.task? taskId <;> exact .refl
  | none =>
    have hedited : MakesNone db (serverError, (editTask db clock taskId body h.engine.toCodec priority).2) :=
      makesNone_editTask clock body h.engine.toCodec priority
    dsimp only
    generalize editTask db clock taskId body h.engine.toCodec priority = edited at hedited ⊢
    obtain ⟨result, db'⟩ := edited
    cases result <;> exact hedited

theorem makesNone_handleClaim (now : Rat) (clock : Clock) (caller : CallerIdentity) (body : ClaimBody) :
    MakesNone db (handleClaim h db now clock caller taskId body) := by
  have hclaimed : ∀ workerId headers, MakesNone db (claimAndAnswer db clock taskId workerId body headers) := by
    intro workerId headers k hk
    have hstep : (claimAndAnswer db clock taskId workerId body headers).2 =
        step db (.claimTask clock taskId workerId body.pid (body.ttl.getD defaultClaimTtl)) := by
      unfold claimAndAnswer
      split
      · rename_i hc
        exact (congrArg Prod.snd hc).symm
      · rename_i hc
        split <;> exact (congrArg Prod.snd hc).symm
    rw [hstep]
    exact step_absent (fun _ _ _ he => by cases he) hk
  unfold handleClaim
  split
  · split
    · exact .refl
    · split
      · exact .refl
      · exact (hclaimed _ _).afterBroadcast h
  · exact .refl

theorem makesNone_postComplete (clock : Clock) (agentId : String) (body : CompleteBody) (ape : Option Ape) :
    MakesNone db (postComplete h.engine.toCodec h.broadcasts ape db clock agentId taskId body) := by
  refine MakesNone.afterBroadcast h ?_
  unfold handleComplete
  dsimp only
  split
  · exact .refl
  split
  · exact .refl
  · unfold failOnContract
    split
    · exact .updated ‹_›
    · split <;> exact .refl
  · unfold completeTask
    split
    · exact .updated ‹_›
    · exact .refl

theorem makesNone_handleUnblock (clock commentClock : Clock) (reason : Option Json) :
    MakesNone db (handleUnblock h db clock commentClock taskId reason) := by
  unfold handleUnblock
  split
  · exact .refl
  · rename_i hu
    apply MakesNone.afterBroadcast
    have hupdated : MakesNone db (serverError, _) := .updated hu
    refine hupdated.tasks ?_
    unfold unblockComment
    split
    · exact commented_tasks ..
    · rfl

/-- Of all requests only a creation makes a task, and that only under its id. -/
theorem handle_makes (caller : CallerIdentity) (request : TaskRequest) {k : String} (hk : db.task? k = none)
    (hthere : (handle h db caller request).2.task? k ≠ none) : ∃ draw body, request = .create draw body ∧
      k = freshId draw.hex := by
  cases request with
  | list | get => exact absurd hk hthere
  | create draw body =>
    refine ⟨draw, body, rfl, ?_⟩
    obtain ⟨t, ht⟩ := Option.ne_none_iff_exists'.mp hthere
    rcases handleCreateTask_created h db draw caller body with hsame | ⟨_, _, _, _, db', _, hc, hdb⟩
    · rw [handle, hsame] at hthere
      exact absurd hk hthere
    · rw [handle, hdb, ← step_createTask hc] at ht
      obtain ⟨_, _, _, _, he, hid, _⟩ := step_created hk ht
      cases he
      exact hid
  | update clock taskId body => exact absurd (makesNone_handleUpdateTask h clock body k hk) hthere
  | claim now clock taskId body => exact absurd (makesNone_handleClaim h now clock caller body k hk) hthere
  | complete clock taskId body => exact absurd (makesNone_postComplete h clock _ body _ k hk) hthere
  | unblock clock commentClock taskId reason =>
    exact absurd (makesNone_handleUnblock h clock commentClock reason k hk) hthere
  | delete clock taskId =>
    refine absurd ?_ hthere
    rw [handle]
    unfold handleDeleteTask
    split
    · exact hk
    split
    · exact hk
    split
    · split <;> exact hk
    · rename_i hu
      have hnone : MakesNone db (serverError, _) := .updated hu
      exact hnone k hk

end MakesNone

/-- A task is the tenant's after a request only if it was before, or is new. -/
theorem owns_kept {db' : Db} (hsame : OthersSame tenant db db') {k : String} (hk : owns tenant db' k = true)
    (hmakes : db.task? k = none → db'.task? k = none) : owns tenant db k = true := by
  have hthere : db'.task? k ≠ none := by
    intro hnone
    rw [owns, hnone] at hk
    cases hk
  have hown : Own tenant db' k := by
    obtain ⟨t, ht⟩ := Option.ne_none_iff_exists'.mp hthere
    simpa [Own, owns, ht] using hk
  obtain ⟨t, ht⟩ := Option.ne_none_iff_exists'.mp (mt hmakes hthere)
  exact (hsame.own.mp hown).owns ht

theorem task_agree {db₁ db₂ : Db} (agree : db₁.restrict tenant = db₂.restrict tenant) {k : String}
    (h₁ : Own tenant db₁ k) (h₂ : Own tenant db₂ k) : db₁.task? k = db₂.task? k := by
  rw [← h₁.task_restrict, agree, h₂.task_restrict]

/-- What is confined comes to the same in both. -/
theorem Confined.agree {α : Type} {handle : Db → α × Db} {db₁ db₂ : Db} (h₁ : Confined tenant handle db₁)
    (h₂ : Confined tenant handle db₂) (agree : db₁.restrict tenant = db₂.restrict tenant) :
    (handle db₁).1 = (handle db₂).1 ∧ (handle db₁).2.restrict tenant = (handle db₂).2.restrict tenant := by
  have hsame := h₁.1.symm.trans ((congrArg handle agree).trans h₂.1)
  exact Prod.mk.inj hsame

section Traced

variable {reader : TraceReader} {r : TracedRequest} {db₁ db₂ : Db} {p q : ProvenanceTracker}

/-- The handlers come to the same: the answers, the tasks of the tenant and their chains. -/
structure Alike (tenant : String) (a b : (Response × Db) × ProvenanceTracker) : Prop where
  answer : a.1.1 = b.1.1
  db : a.1.2.restrict tenant = b.1.2.restrict tenant
  traces : SameTraces (fun k => owns tenant a.1.2 k = true) a.2 b.2

theorem SameTraces.recordHop? {ids : String → Prop} (h : SameTraces ids p q) (now : Rat) {args? : Option HopArgs}
    (hid : ∀ args ∈ args?, ids args.chainId) :
    SameTraces ids (Orchestration.recordHop? p now args?).2 (Orchestration.recordHop? q now args?).2 := by
  cases args? with
  | none => exact h
  | some args =>
    rcases h.recordHop now args (hid args rfl) with ⟨hp, hq⟩ | ⟨hop, p', q', hp, hq, hsame⟩
    · simpa [Orchestration.recordHop?, hp, hq] using h
    · simpa [Orchestration.recordHop?, hp, hq] using hsame

/-- The chain that is shown with a task. -/
theorem alike_get {k : String} (agree : db₁.restrict tenant = db₂.restrict tenant)
    (traces : SameTraces (fun k => owns tenant db₁ k = true) p q) (h₁ : Own tenant db₁ k ∧ OwnLinks tenant db₁ k)
    (h₂ : Own tenant db₂ k ∧ OwnLinks tenant db₂ k) (codec : Codec) :
    attachProvenance reader p k (handleGetTask db₁ k codec) =
      attachProvenance reader q k (handleGetTask db₂ k codec) := by
  have hanswer : handleGetTask db₁ k codec = handleGetTask db₂ k codec := by
    rw [← restrict_handleGetTask codec h₁.1 h₁.2, agree, restrict_handleGetTask codec h₂.1 h₂.2]
  rw [← hanswer]
  cases ht : db₁.task? k with
  | none =>
    have hview : getTask db₁ k = none := by simp [getTask, ht]
    simp [attachProvenance, handleGetTask, hview, jsonError]
  | some t =>
    unfold attachProvenance
    rw [(traces.traces k (h₁.1.owns ht)).getChainByTask reader]

section Create

variable {draw : Draw} {caller : CallerIdentity} {body : CreateBody} {token : TokenRequest} {ensuredAt recordedAt : Rat}

theorem createdTask_agree (h₁ : (TaskRequest.create draw body).Inside tenant h db₁)
    (h₂ : (TaskRequest.create draw body).Inside tenant h db₂) (agree : db₁.restrict tenant = db₂.restrict tenant) :
    createdTask h db₁ draw caller body = createdTask h db₂ draw caller body := by
  have hc₁ := confined_handle caller h₁
  have hc₂ := confined_handle caller h₂
  have hfresh : ∀ {db}, NewId db (freshId draw.hex) → Own tenant db (freshId draw.hex) := by
    intro db hnew
    simp [Own, hnew.task]
  have htask := task_agree (hc₁.agree hc₂ agree).2 (hc₁.2.own.mpr (hfresh h₁.2.1)) (hc₂.2.own.mpr (hfresh h₂.2.1))
  rw [handle, handle] at htask
  simpa [createdTask, h₁.2.1.task, h₂.2.1.task] using htask

/-- The chain of a task that is created for the tenant. -/
theorem traces_create (h₁ : (TaskRequest.create draw body).Inside tenant h db₁)
    (h₂ : (TaskRequest.create draw body).Inside tenant h db₂) (agree : db₁.restrict tenant = db₂.restrict tenant)
    (traces : SameTraces (fun k => owns tenant db₁ k = true) p q) (hp : Untraced p (freshId draw.hex))
    (hq : Untraced q (freshId draw.hex)) :
    SameTraces (fun k => owns tenant (handleCreateTask h db₁ draw caller body).2 k = true)
      (trackCreate h db₁ p draw caller body token ensuredAt recordedAt).2
      (trackCreate h db₂ q draw caller body token ensuredAt recordedAt).2 := by
  have hothers : OthersSame tenant db₁ (handleCreateTask h db₁ draw caller body).2 := (confined_handle caller h₁).2
  have hknown : SameTraces (fun k => owns tenant db₁ k = true ∨ k = freshId draw.hex) p q := by
    refine ⟨traces.driver, fun k hk => ?_⟩
    rcases hk with howned | rfl
    · exact traces.traces k howned
    · exact hp.same hq
  have hgrows : ∀ k, owns tenant (handleCreateTask h db₁ draw caller body).2 k = true →
      owns tenant db₁ k = true ∨ k = freshId draw.hex := by
    intro k hk
    by_cases hid : k = freshId draw.hex
    · exact Or.inr hid
    · refine Or.inl (owns_kept hothers hk fun hnone => ?_)
      by_contra hthere
      obtain ⟨draw', _, he, hk'⟩ := handle_makes h caller (.create draw body) hnone hthere
      cases he
      exact hid hk'
  unfold trackCreate
  rw [← createdTask_agree h₁ h₂ agree]
  rcases createdTask_cases h db₁ draw caller body with ⟨hnone, _⟩ | ⟨_, _, _, task, _, _, _, _, hcreated, hid⟩
  · rw [hnone]
    exact hknown.mono hgrows
  · rw [hcreated]
    refine (((hknown.ensureChain ensuredAt (Or.inr hid)).recordHop? recordedAt ?_)).mono hgrows
    intro args hargs
    exact Or.inr ((createHopArgs_chain hargs).trans hid)

end Create

/-- The hop of a task of the tenant that is claimed. -/
theorem alike_traceClaim {k : String} {response : Response} (agree : db₁.restrict tenant = db₂.restrict tenant)
    (h₁ : Own tenant db₁ k) (h₂ : Own tenant db₂ k) (traces : SameTraces (fun k => owns tenant db₁ k = true) p q)
    (body : ClaimBody) (token : TokenRequest) (now : Rat) :
    Alike tenant (traceClaim h p k body token now (response, db₁)) (traceClaim h q k body token now (response, db₂)) := by
  have hbroadcast := (confined_afterBroadcast h (confined_const response) h₁).agree
    (confined_afterBroadcast h (confined_const response) h₂) agree
  have hkept : ∀ db : Db, (afterBroadcast h k (response, db)).2 = db := fun db => afterBroadcast_db h (response, db)
  have hrendered : ∀ {p' q'}, SameTraces (fun k => owns tenant db₁ k = true) p' q' →
      Alike tenant (afterBroadcast h k (response, db₁), p') (afterBroadcast h k (response, db₂), q') := by
    intro p' q' hsame
    refine ⟨hbroadcast.1, hbroadcast.2, ?_⟩
    dsimp only
    rw [hkept]
    exact hsame
  unfold traceClaim
  simp only [claimHopArgs, task_agree agree h₁ h₂]
  cases ht : db₂.task? k with
  | none => exact hrendered traces
  | some task =>
    have howned : owns tenant db₁ k = true := h₁.owns ((task_agree agree h₁ h₂).trans ht)
    simp only [Option.map_some]
    rcases traces.recordHop now ⟨k, _, _, _, _, _⟩ howned with ⟨hp, hq⟩ | ⟨hop, p', q', hp, hq, hsame⟩
    · rw [hp, hq]
      exact ⟨rfl, agree, traces⟩
    · rw [hp, hq]
      exact hrendered hsame

theorem traceClaim_db {k : String} (body : ClaimBody) (token : TokenRequest) (now : Rat) (claimed : Response × Db) :
    (traceClaim h p k body token now claimed).1.2 = claimed.2 := by
  unfold traceClaim
  dsimp only
  split
  · exact afterBroadcast_db h claimed
  · split
    · rfl
    · exact afterBroadcast_db h claimed

/-- The tracker has no part in what becomes of the tasks. -/
theorem handleTraced_db : (handleTraced h reader db p r).1.2 = (handle h db r.caller r.request).2 := by
  unfold handleTraced
  cases hr : r.request with
  | list | get | create | update | complete | unblock | delete => rfl
  | claim now clock taskId body =>
    have hclaimed : (handleClaim { h with broadcasts := false } db now clock r.caller taskId body).2 =
        (handleClaim h db now clock r.caller taskId body).2 := by
      unfold handleClaim
      split
      · have hcheckpoint : claimCheckpoint { h with broadcasts := false } db now r.caller taskId body.delegationToken =
            claimCheckpoint h db now r.caller taskId body.delegationToken := rfl
        rw [hcheckpoint]
        split
        · rfl
        · split
          · rfl
          · rw [afterBroadcast_db, afterBroadcast_db]
      · rfl
    dsimp only
    split
    · rw [traceClaim_db, hclaimed, handle]
    · rw [hclaimed, handle]

/-- Handlers that stay with the tenant come to the same in stores that agree. -/
theorem alike_handleTraced (agree : db₁.restrict tenant = db₂.restrict tenant)
    (traces : SameTraces (fun k => owns tenant db₁ k = true) p q) (h₁ : r.request.Inside tenant h db₁)
    (h₂ : r.request.Inside tenant h db₂) (hp : r.request.NewTrace p) (hq : r.request.NewTrace q) :
    Alike tenant (handleTraced h reader db₁ p r) (handleTraced h reader db₂ q r) := by
  have hc₁ := confined_handle r.caller h₁
  have hc₂ := confined_handle r.caller h₂
  obtain ⟨hanswer, hdb⟩ := hc₁.agree hc₂ agree
  have hothers := hc₁.2
  have hmakes : ∀ k, db₁.task? k = none → (handle h db₁ r.caller r.request).2.task? k ≠ none →
      ∃ draw body, r.request = .create draw body ∧ k = freshId draw.hex := fun k => handle_makes h r.caller r.request
  -- Only a creation and a claim have the tracker record something.
  have hkept : (∀ draw body, r.request ≠ .create draw body) →
      SameTraces (fun k => owns tenant (handle h db₁ r.caller r.request).2 k = true) p q := by
    intro hnew
    refine traces.mono fun k hk => owns_kept hothers hk fun hnone => ?_
    by_contra hthere
    obtain ⟨draw, body, he, _⟩ := hmakes k hnone hthere
    exact hnew draw body he
  unfold handleTraced
  cases hr : r.request with
  | list | update | complete | unblock | delete =>
    rw [hr] at hanswer hdb hkept
    exact ⟨hanswer, hdb, hkept fun _ _ he => by cases he⟩
  | get taskId =>
    rw [hr] at h₁ h₂
    exact ⟨alike_get agree traces h₁ h₂ h.engine.toCodec, agree, traces⟩
  | create draw body =>
    rw [hr] at h₁ h₂ hp hq hanswer hdb
    exact ⟨hanswer, hdb, traces_create h₁ h₂ agree traces hp hq⟩
  | claim now clock taskId body =>
    rw [hr] at h₁ h₂
    let quiet : OrchestrationHandler := { h with broadcasts := false }
    have hq₁ := confined_handleClaim quiet clock now r.caller body h₁
    have hq₂ := confined_handleClaim quiet clock now r.caller body h₂
    obtain ⟨hclaimed, hdb'⟩ := hq₁.agree hq₂ agree
    have hnone : MakesNone db₁ (handleClaim quiet db₁ now clock r.caller taskId body) :=
      makesNone_handleClaim quiet now clock r.caller body
    have hown₁ := hq₁.2.own.mpr h₁
    have hown₂ := hq₂.2.own.mpr h₂
    have htraces : SameTraces (fun k => owns tenant (handleClaim quiet db₁ now clock r.caller taskId body).2 k = true)
        p q := traces.mono fun k hk => owns_kept hq₁.2 hk (hnone k)
    dsimp only at hclaimed hdb' hown₁ hown₂ ⊢
    change Alike tenant (if (handleClaim quiet db₁ now clock r.caller taskId body).1.status = 200 then _ else _)
      (if (handleClaim quiet db₂ now clock r.caller taskId body).1.status = 200 then _ else _)
    generalize handleClaim quiet db₁ now clock r.caller taskId body = claimed₁ at hclaimed hdb' hown₁ htraces ⊢
    generalize handleClaim quiet db₂ now clock r.caller taskId body = claimed₂ at hclaimed hdb' hown₂ ⊢
    obtain ⟨response, db₁'⟩ := claimed₁
    obtain ⟨response', db₂'⟩ := claimed₂
    obtain rfl : response = response' := hclaimed
    split
    · exact alike_traceClaim hdb' hown₁ hown₂ htraces body r.token r.recordedAt
    · exact ⟨rfl, hdb', htraces⟩

variable {s t : TracedStore}

/-- Stores that agree answer a request that stays with the tenant alike, and agree after it. -/
theorem Agree.serve (agree : Agree tenant s t) (hs : Within tenant h s r) (ht : Within tenant h t r) :
    (serveTraced h reader s r).1 = (serveTraced h reader t r).1 ∧
      Agree tenant (serveStep h reader s r) (serveStep h reader t r) := by
  obtain ⟨db₁, pt₁⟩ := s
  obtain ⟨db₂, pt₂⟩ := t
  obtain ⟨hdb, hpt⟩ := agree
  unfold serveStep serveTraced
  cases hpt with
  | none =>
    dsimp only
    unfold Orchestration.serve
    split
    · rename_i hscope
      have hagree := (confined_handle r.caller (hs hscope).1).agree (confined_handle r.caller (ht hscope).1) hdb
      exact ⟨hagree.1, hagree.2, .none⟩
    · exact ⟨rfl, hdb, .none⟩
  | some traces =>
    dsimp only
    split
    · rename_i hscope
      have halike : Alike tenant (handleTraced h reader db₁ _ r) (handleTraced h reader db₂ _ r) :=
        alike_handleTraced hdb traces (hs hscope).1 (ht hscope).1 ((hs hscope).2 _ rfl) ((ht hscope).2 _ rfl)
      exact ⟨halike.answer, halike.db, .some halike.traces⟩
    · exact ⟨rfl, hdb, .some traces⟩

theorem others_serve (hs : Within tenant h s r) : OthersSame tenant s.db (serveStep h reader s r).db := by
  obtain ⟨db, pt⟩ := s
  unfold serveStep serveTraced
  cases pt with
  | none =>
    dsimp only
    unfold Orchestration.serve
    split
    · rename_i hscope
      exact (confined_handle r.caller (hs hscope).1).2
    · exact .refl tenant db
  | some pt =>
    dsimp only
    split
    · rename_i hscope
      rw [handleTraced_db]
      exact (confined_handle r.caller (hs hscope).1).2
    · exact .refl tenant db

/-- Along such requests the tasks of the others stay as they were. -/
theorem others_always {requests : List TracedRequest}
    (hin : EachStep (serveStep h reader) (Within tenant h) s requests) :
    Always (serveStep h reader) (fun s' => OthersSame tenant s.db s'.db) s requests :=
  hin.always (I := fun s' => OthersSame tenant s.db s'.db)
    (fun _ _ hsame hwithin => hsame.trans (others_serve hwithin)) (.refl tenant s.db)

end Traced

end Steps

/-- Requests that stay with the tenant do not interfere: stores that agree on its tasks, and on their chains, answer
them alike, and they leave the tasks of the other tenants alone. -/
theorem tenant_noninterference (tenant : String) (h : OrchestrationHandler) (reader : TraceReader) {s t : TracedStore}
    {requests : List TracedRequest} (agree : Agree tenant s t)
    (within₁ : EachStep (serveStep h reader) (Within tenant h) s requests)
    (within₂ : EachStep (serveStep h reader) (Within tenant h) t requests) :
    Noninterferent tenant h reader s t requests :=
  ⟨outputs_eq_of_related (fun _ _ _ hagree hs ht => hagree.serve hs ht) agree within₁ within₂,
    others_always within₁, others_always within₂⟩

section Samples

/-- A task of `A`, and one of `B` under the given id, each with its chain. -/
def twoTenants (hex : String) : TracedStore where
  db := exec step Db.empty [.createTask (.fixed 0) "1" { title := "a", assignee := some "worker", tenant := some "A" },
    .createTask (.fixed 0) hex { title := "b", tenant := some "B" }]
  pt := some (((ProvenanceTracker.start .sqlite).ensureChain 0 ⟨"t_1", "client-a", "A", "t_1", none, "t_1"⟩).ensureChain 0
    ⟨freshId hex, "client-b", "B", freshId hex, none, freshId hex⟩)

/-- SQLite's rows in their order, and the whole seconds of a timestamp. -/
def sampleReader : TraceReader := ⟨Choice.sqlite, Choice.sqlite_lawful.fetched, fun t => s!"{t.num}.0"⟩

/-- A client of `A` that may read and write tasks. -/
def clientOfA : CallerIdentity := { agentId := "client-a", tenant := "A", scope := "task:read task:write" }

def requestsOfA : List TracedRequest :=
  [.list { tenant := some "A" }, .claim 0 (.fixed 1) "t_1" {}, .get "t_1",
    .create ⟨0, .fixed 2, "4"⟩ { title := .str "c", tenant := some "A", parents := .arr [.str "t_1"] },
    .complete (.fixed 3) "t_1" {}, .delete (.fixed 4) "t_1"].map (fun request => ⟨⟨clientOfA, request⟩, "jti-a", 2, 2⟩)

theorem twoTenants_agree : Agree "A" (twoTenants "2") (twoTenants "3") where
  db := rfl
  pt := by
    refine .some ⟨rfl, fun k hk => ?_⟩
    have hid : ∀ task ∈ (twoTenants "2").db.tasks.rows, task.inTenant (some "A") = true → task.id = "t_1" := by
      decide +kernel
    obtain ⟨task, hfind, hin⟩ := (Option.any_eq_true _ _).mp hk
    obtain ⟨hrow, rfl⟩ := Table.find_some_iff.mp hfind
    rw [show key task = "t_1" from hid task hrow hin]
    exact ⟨by decide +kernel, by decide +kernel, by decide +kernel⟩

/-- They stay with the tenant, whichever task of `B` there is. -/
theorem requestsOfA_within : ∀ hex ∈ ["2", "3"],
    EachStep (serveStep sampleHandler sampleReader) (Within "A" sampleHandler) (twoTenants hex) requestsOfA := by
  rw [List.forall_mem_cons, List.forall_mem_singleton]
  have hparents : ∀ db, Own "A" db "t_1" → ∀ parents,
      parentArgs sampleHandler.engine.toCodec (.arr [.str "t_1"]) = some parents →
        ∀ parent ∈ parents, Own "A" db (parent.id sampleHandler.engine.toCodec) := by
    intro db hown parents hp parent hmem
    cases hp
    cases List.mem_singleton.mp hmem
    exact hown
  constructor
  all_goals
    refine ⟨fun _ => ⟨⟨by decide, rfl⟩, fun _ _ => trivial⟩, fun _ => ⟨(show Own "A" _ "t_1" from ?_), fun _ _ => trivial⟩,
      fun _ => ⟨⟨?_, ?_⟩, fun _ _ => trivial⟩,
      fun _ => ⟨⟨rfl, ?_, fun _ he => (nomatch he), hparents _ ?_⟩,
        (show ∀ pt ∈ TracedStore.pt _, Untraced pt "t_4" from ?_)⟩,
      fun _ => ⟨⟨?_, fun _ => ?_⟩, fun _ _ => trivial⟩,
      fun _ => ⟨(show Own "A" _ "t_1" from ?_), fun _ _ => trivial⟩, trivial⟩
    all_goals decide +kernel

theorem tenant_noninterference_sample :
    Noninterferent "A" sampleHandler sampleReader (twoTenants "2") (twoTenants "3") requestsOfA :=
  tenant_noninterference "A" sampleHandler sampleReader twoTenants_agree (requestsOfA_within "2" (by simp))
    (requestsOfA_within "3" (by simp))

/-- A client of `A` is shown the task of `B`. -/
theorem tenant_interferes : ¬ ∀ tenant h reader s t requests, Agree tenant s t →
    (∀ r ∈ requests, OfTenant tenant r.caller) → Noninterferent tenant h reader s t requests := by
  intro hclaim
  have hsame := hclaim "A" sampleHandler sampleReader (twoTenants "2") (twoTenants "3")
    [⟨⟨clientOfA, .get "t_2"⟩, "jti-a", 2, 2⟩] twoTenants_agree (by decide +kernel)
  have hstatus := congrArg (List.map Response.status) hsame.answers
  exact absurd hstatus (by decide +kernel)

end Samples

end A2ARegistry.Orchestration
