import Mathlib.Data.List.Find
import A2ARegistry.Orchestration.Proofs.Effects
import A2ARegistry.Orchestration.Store.Listing

namespace A2ARegistry.Orchestration
open Base

variable (tenant : String)

/-- There is a task with the id, and it is of the tenant. -/
def owns (db : Db) (k : String) : Bool := (db.task? k).any (fun t => t.inTenant (some tenant))

/-- The id is not that of a task of another tenant. -/
def Own (db : Db) (k : String) : Prop := (db.task? k).all (fun t => t.inTenant (some tenant)) = true

instance (db : Db) (k : String) : Decidable (Own tenant db k) := inferInstanceAs (Decidable (_ = true))

/-- The tasks of a tenant with their links, runs, comments and events. The ids that are assigned next stay. -/
def Db.restrict (db : Db) : Db where
  tasks := db.tasks.keep (fun t => t.inTenant (some tenant))
  links := db.links.keep (fun l => owns tenant db l.parentId || owns tenant db l.childId)
  runs := db.runs.keep (fun r => owns tenant db r.taskId)
  comments := db.comments.keep (fun c => owns tenant db c.taskId)
  events := db.events.keep (fun e => owns tenant db e.taskId)

variable {tenant} {db : Db}

theorem task_restrict (k : String) :
    (db.restrict tenant).task? k = (db.task? k).filter (fun t => t.inTenant (some tenant)) :=
  Table.find_keep db.tasks _ k

theorem Own.task_restrict {k : String} (h : Own tenant db k) : (db.restrict tenant).task? k = db.task? k := by
  rw [Orchestration.task_restrict]
  cases ht : db.task? k with
  | none => rfl
  | some t =>
    have hin : t.inTenant (some tenant) = true := by simpa [Own, ht] using h
    simp [Option.filter, hin]

theorem Own.owns {k : String} {t : Task} (h : Own tenant db k) (ht : db.task? k = some t) :
    owns tenant db k = true := by
  simpa [Own, Orchestration.owns, ht] using h

/-- The tasks of the other tenants are the same. -/
def OthersSame (tenant : String) (db db' : Db) : Prop := ∀ k,
  (db'.task? k).filter (fun t => !t.inTenant (some tenant)) = (db.task? k).filter (fun t => !t.inTenant (some tenant))

theorem own_iff {k : String} :
    Own tenant db k ↔ (db.task? k).filter (fun t => !t.inTenant (some tenant)) = none := by
  cases ht : db.task? k with
  | none => simp [Own, ht]
  | some t => cases hin : t.inTenant (some tenant) <;> simp [Own, ht, hin, Option.filter]

theorem OthersSame.refl (tenant : String) (db : Db) : OthersSame tenant db db := fun _ => rfl

theorem OthersSame.trans {db' db'' : Db} (h : OthersSame tenant db db') (h' : OthersSame tenant db' db'') :
    OthersSame tenant db db'' :=
  fun k => (h' k).trans (h k)

theorem OthersSame.own {db' : Db} (h : OthersSame tenant db db') {k : String} :
    Own tenant db' k ↔ Own tenant db k := by
  rw [own_iff, own_iff, h k]

theorem OthersSame.of_tasks {db' : Db} (h : ∀ k, db'.task? k = db.task? k) : OthersSame tenant db db' := by
  intro k
  rw [h k]

/-- Where only tasks of the tenant change, and stay with it, the others are the same. -/
theorem OthersSame.of_own {db' : Db} (h : ∀ k, db'.task? k = db.task? k ∨ Own tenant db k ∧ Own tenant db' k) :
    OthersSame tenant db db' := by
  intro k
  rcases h k with he | ⟨hk, hk'⟩
  · rw [he]
  · rw [own_iff.mp hk, own_iff.mp hk']

section Primitives

/-- An update of tasks that leaves their tenant alone. -/
theorem owns_modify {q : Task → Bool} {f : Task → Task} (hf : ∀ t, key (f t) = key t)
    (ht : ∀ t, (f t).tenant = t.tenant) :
    owns tenant { db with tasks := db.tasks.modify q f hf } = owns tenant db := by
  funext k
  have hfind : ({ db with tasks := db.tasks.modify q f hf } : Db).task? k =
      (db.task? k).map (fun t => if q t then f t else t) := Table.find_modify db.tasks q f hf k
  rw [owns, owns, hfind]
  cases db.task? k with
  | none => rfl
  | some t =>
    by_cases hq : q t
    · simp [hq, Task.inTenant, ht]
    · simp [hq]

theorem restrict_modify {q : Task → Bool} {f : Task → Task} (hf : ∀ t, key (f t) = key t)
    (ht : ∀ t, (f t).tenant = t.tenant) :
    ({ db with tasks := db.tasks.modify q f hf } : Db).restrict tenant =
      { db.restrict tenant with tasks := (db.restrict tenant).tasks.modify q f hf } := by
  have hkeep := Table.keep_modify db.tasks (p := fun t => t.inTenant (some tenant)) (q := q) hf
    (fun t => by simp [Task.inTenant, ht])
  unfold Db.restrict
  rw [owns_modify hf ht, hkeep]

variable (tenant db) in
theorem restrict_setTask (k : String) (f : Task → Task) (hf : ∀ t, (f t).id = t.id)
    (ht : ∀ t, (f t).tenant = t.tenant) :
    (db.setTask k f hf).restrict tenant = (db.restrict tenant).setTask k f hf :=
  restrict_modify hf ht

variable (tenant db) in
theorem owns_setTask (k : String) (f : Task → Task) (hf : ∀ t, (f t).id = t.id)
    (ht : ∀ t, (f t).tenant = t.tenant) : owns tenant (db.setTask k f hf) = owns tenant db :=
  owns_modify hf ht

variable (tenant db) in
theorem restrict_setRun (id : Option Nat) (f : TaskRun → TaskRun) (hf : ∀ r, (f r).id = r.id)
    (ht : ∀ r, (f r).taskId = r.taskId) :
    (db.setRun id f hf).restrict tenant = (db.restrict tenant).setRun id f hf := by
  cases id with
  | none => rfl
  | some n =>
    have hkeep := AutoTable.keep_modify db.runs (p := fun r => owns tenant db r.taskId)
      (q := fun r => r.id == n) hf (fun r => by simp [ht])
    change Db.mk _ _ ((db.runs.modify _ f hf).keep (fun r => owns tenant db r.taskId)) _ _ = _
    rw [hkeep]
    rfl

theorem restrict_insertRun {k : String} (hk : owns tenant db k = true) {f : Nat → TaskRun}
    (hf : ∀ n, (f n).id = n) (ht : ∀ n, (f n).taskId = k) :
    ({ db with runs := db.runs.insert f hf } : Db).restrict tenant =
      { db.restrict tenant with runs := (db.restrict tenant).runs.insert f hf } := by
  have hkeep := AutoTable.keep_insert db.runs (p := fun r => owns tenant db r.taskId) hf
    (by rw [ht]; exact hk)
  change Db.mk _ _ ((db.runs.insert f hf).keep (fun r => owns tenant db r.taskId)) _ _ = _
  rw [hkeep]
  rfl

theorem restrict_insertComment {k : String} (hk : owns tenant db k = true) {f : Nat → TaskComment}
    (hf : ∀ n, (f n).id = n) (ht : ∀ n, (f n).taskId = k) :
    ({ db with comments := db.comments.insert f hf } : Db).restrict tenant =
      { db.restrict tenant with comments := (db.restrict tenant).comments.insert f hf } := by
  have hkeep := AutoTable.keep_insert db.comments (p := fun c => owns tenant db c.taskId) hf
    (by rw [ht]; exact hk)
  change Db.mk _ _ _ ((db.comments.insert f hf).keep (fun c => owns tenant db c.taskId)) _ = _
  rw [hkeep]
  rfl

theorem restrict_emitEvent (clock : Clock) {k : String} (hk : owns tenant db k = true) (kind : String)
    (runId : Option Nat) (payload : List (String × Json)) :
    (emitEvent db clock k kind runId payload).restrict tenant =
      emitEvent (db.restrict tenant) clock k kind runId payload := by
  have hkeep := AutoTable.keep_insert db.events (p := fun e => owns tenant db e.taskId)
    (f := fun id => ⟨id, k, runId, kind, if payload.isEmpty then none else some payload, clock.eventNow id⟩)
    (fun _ => rfl) hk
  change Db.mk _ _ _ _ ((db.events.insert _ _).keep (fun e => owns tenant db e.taskId)) = _
  rw [hkeep]
  rfl

end Primitives

section Dependencies

/-- No parent of the task is of another tenant. -/
def OwnParents (tenant : String) (db : Db) (k : String) : Prop :=
  ∀ l ∈ db.links.rows, l.childId = k → Own tenant db l.parentId

instance (k : String) : Decidable (OwnParents tenant db k) :=
  inferInstanceAs (Decidable (∀ l ∈ db.links.rows, l.childId = k → Own tenant db l.parentId))

/-- The links into a task of the tenant stay. -/
theorem restrict_parentLinks {k : String} (hk : owns tenant db k = true) :
    (db.restrict tenant).links.select (fun l => l.childId == k) = db.links.select (fun l => l.childId == k) := by
  apply Table.select_keep
  intro l _ hl
  simp [beq_iff_eq.mp hl, hk]

theorem restrict_childLinks {k : String} (hk : owns tenant db k = true) :
    (db.restrict tenant).links.select (fun l => l.parentId == k) = db.links.select (fun l => l.parentId == k) := by
  apply Table.select_keep
  intro l _ hl
  simp [beq_iff_eq.mp hl, hk]

/-- What is looked up of the parents of a task is seen, where they are of the tenant. -/
theorem restrict_parents {α : Type} {k : String} (hk : owns tenant db k = true) (hp : OwnParents tenant db k)
    (f : TaskLink → Task → α) :
    ((db.restrict tenant).links.select (fun l => l.childId == k)).filterMap
        (fun l => ((db.restrict tenant).task? l.parentId).map (f l)) =
      (db.links.select (fun l => l.childId == k)).filterMap (fun l => (db.task? l.parentId).map (f l)) := by
  rw [restrict_parentLinks hk]
  apply List.filterMap_congr
  intro l hl
  obtain ⟨hmem, hchild⟩ := Table.mem_select.mp hl
  rw [(hp l hmem (by simpa using hchild)).task_restrict]

theorem restrict_childIds {k : String} (hk : owns tenant db k = true) :
    childIds (db.restrict tenant) k = childIds db k := by
  rw [childIds, childIds, restrict_childLinks hk]

/-- Resolving a task of the tenant leaves the others alone. -/
theorem othersSame_resolve (clock : Clock) {c : String} (hc : Own tenant db c) :
    OthersSame tenant db (resolveDependencies db clock c) := by
  apply OthersSame.of_own
  intro k
  have htask := resolve_task db clock c k
  by_cases hk : k = c
  · subst hk
    refine Or.inr ⟨hc, ?_⟩
    cases ht : db.task? k with
    | none => simp [Own, htask, ht]
    | some t =>
      have htenant : (settle db t).tenant = t.tenant := by
        rcases settle_cases db t with ⟨_, _, he⟩ | ⟨_, _, he⟩ | ⟨_, _, he⟩
        · rw [he]
        · rw [he]
        · rw [he]
      simpa [Own, htask, ht, Task.inTenant, htenant] using hc
  · exact Or.inl (by simp [htask, hk])

/-- The resolution of a task whose parents are of its tenant is that tenant's own. -/
theorem restrict_resolveDependencies (clock : Clock) {c : String} (hc : Own tenant db c)
    (hp : OwnParents tenant db c) :
    (resolveDependencies db clock c).restrict tenant = resolveDependencies (db.restrict tenant) clock c := by
  unfold resolveDependencies
  rw [hc.task_restrict]
  cases ht : db.task? c with
  | none => rfl
  | some t =>
    have howns := hc.owns ht
    have hrows : parentRows (db.restrict tenant) c = parentRows db c :=
      restrict_parents howns hp (fun l p => (⟨p.status, p.result, l.condition⟩ : ParentRow))
    have hmove : ∀ status payload, (moveByDependencies db clock c status payload).restrict tenant =
        moveByDependencies (db.restrict tenant) clock c status payload := by
      intro status payload
      have hset := restrict_setTask tenant db c (fun t => { t with status := status }) (fun _ => rfl) (fun _ => rfl)
      have howns' := owns_setTask tenant db c (fun t => { t with status := status }) (fun _ => rfl) (fun _ => rfl)
      rw [moveByDependencies, restrict_emitEvent clock (by rw [howns']; exact howns), hset]
      rfl
    simp only [hrows]
    split
    · split
      · exact hmove _ _
      · rfl
    · split
      · split
        · exact hmove _ _
        · rfl
      · split
        · exact hmove _ _
        · rfl

/-- The children of a task, with all of their parents, are of the tenant. -/
def OwnChildren (tenant : String) (db : Db) (k : String) : Prop :=
  ∀ c ∈ childIds db k, Own tenant db c ∧ OwnParents tenant db c

instance (k : String) : Decidable (OwnChildren tenant db k) :=
  inferInstanceAs (Decidable (∀ c ∈ childIds db k, Own tenant db c ∧ OwnParents tenant db c))

theorem restrict_resolveAll (clock : Clock) {children : List String}
    (h : ∀ c ∈ children, Own tenant db c ∧ OwnParents tenant db c) :
    (children.foldl (fun db child => resolveDependencies db clock child) db).restrict tenant =
      children.foldl (fun db child => resolveDependencies db clock child) (db.restrict tenant) := by
  induction children generalizing db with
  | nil => rfl
  | cons c children ih =>
    obtain ⟨hown, hparents⟩ := h c List.mem_cons_self
    have hsame := othersSame_resolve clock hown
    rw [List.foldl_cons, List.foldl_cons, ← restrict_resolveDependencies clock hown hparents]
    apply ih
    intro c' hc'
    obtain ⟨hown', hparents'⟩ := h c' (List.mem_cons_of_mem c hc')
    refine ⟨hsame.own.mpr hown', fun l hl hchild => hsame.own.mpr (hparents' l ?_ hchild)⟩
    rw [← resolve_links db clock c]
    exact hl

theorem othersSame_resolveAll (clock : Clock) {children : List String}
    (h : ∀ c ∈ children, Own tenant db c) :
    OthersSame tenant db (children.foldl (fun db child => resolveDependencies db clock child) db) := by
  induction children generalizing db with
  | nil => exact .refl tenant db
  | cons c children ih =>
    have hsame := othersSame_resolve clock (h c List.mem_cons_self)
    refine hsame.trans (ih fun c' hc' => hsame.own.mpr (h c' (List.mem_cons_of_mem c hc')))

theorem restrict_resolveChildren (clock : Clock) {k : String} (hk : owns tenant db k = true)
    (hc : OwnChildren tenant db k) :
    (resolveChildren db clock k).restrict tenant = resolveChildren (db.restrict tenant) clock k := by
  unfold resolveChildren
  rw [restrict_resolveAll clock hc, restrict_childIds hk]

end Dependencies

section Status

variable (clock : Clock) (task : Task) (new : TaskStatus) (args : StatusArgs) (retryAt : Option Int) (kind : String)

theorem othersSame_moveStatus (ht : db.task? task.id = some task) (hk : Own tenant db task.id) :
    OthersSame tenant db (moveStatus db clock task new args retryAt kind) := by
  apply OthersSame.of_own
  intro k
  have htask := moveStatus_task db clock task new args retryAt kind ht k
  by_cases he : k = task.id
  · rw [if_pos he] at htask
    subst he
    refine Or.inr ⟨hk, ?_⟩
    simpa [Own, htask, ht, Task.inTenant, Task.move] using hk
  · exact Or.inl (htask.trans (if_neg he))

theorem restrict_finishRun : (finishRun db clock.now task new args).restrict tenant =
    finishRun (db.restrict tenant) clock.now task new args := by
  unfold finishRun
  split
  · exact restrict_setRun tenant db task.currentRunId (fun r => r.finish clock.now new args)
      (fun r => r.finish_id clock.now new args) (fun _ => rfl)
  · rfl

theorem restrict_moveStatus (ht : db.task? task.id = some task) (hk : Own tenant db task.id) :
    (moveStatus db clock task new args retryAt kind).restrict tenant =
      moveStatus (db.restrict tenant) clock task new args retryAt kind := by
  have hset := restrict_setTask tenant (finishRun db clock.now task new args) task.id
    (fun t => t.move clock.now new args.result retryAt) (fun t => t.move_id clock.now new args.result retryAt)
    (fun _ => rfl)
  have howns := owns_setTask tenant (finishRun db clock.now task new args) task.id
    (fun t => t.move clock.now new args.result retryAt) (fun t => t.move_id clock.now new args.result retryAt)
    (fun _ => rfl)
  have hfinish : owns tenant (finishRun db clock.now task new args) task.id = true := by
    rw [owns, finishRun_task]
    exact hk.owns ht
  rw [moveStatus, restrict_emitEvent clock (by rw [howns]; exact hfinish), hset, restrict_finishRun]
  rfl

/-- The writes of a status change on a task of the tenant are that tenant's own, where a completion finds
only its children there. -/
theorem restrict_writeStatus (ht : db.task? task.id = some task) (hk : Own tenant db task.id)
    (hc : new = .completed → OwnChildren tenant db task.id) :
    (writeStatus db clock task new args retryAt kind).restrict tenant =
        writeStatus (db.restrict tenant) clock task new args retryAt kind ∧
      OthersSame tenant db (writeStatus db clock task new args retryAt kind) := by
  have hmove := restrict_moveStatus clock task new args retryAt kind ht hk
  have hsame := othersSame_moveStatus clock task new args retryAt kind ht hk
  unfold writeStatus
  dsimp only
  split
  · rename_i hnew
    have hlinks := moveStatus_links db clock task new args retryAt kind
    have hchildIds : childIds (moveStatus db clock task new args retryAt kind) task.id = childIds db task.id := by
      rw [childIds, childIds, hlinks]
    have hchildren : OwnChildren tenant (moveStatus db clock task new args retryAt kind) task.id := by
      intro c hmem
      rw [hchildIds] at hmem
      obtain ⟨hown, hparents⟩ := hc hnew c hmem
      refine ⟨hsame.own.mpr hown, fun l hl hchild => hsame.own.mpr (hparents l ?_ hchild)⟩
      rw [← hlinks]
      exact hl
    have howns : owns tenant (moveStatus db clock task new args retryAt kind) task.id = true := by
      have htask := moveStatus_task db clock task new args retryAt kind ht task.id
      exact (hsame.own.mpr hk).owns (htask.trans (if_pos rfl))
    refine ⟨?_, hsame.trans ?_⟩
    · rw [restrict_resolveChildren clock howns hchildren, hmove]
    · exact othersSame_resolveAll clock fun c hmem => (hchildren c hmem).1
  · exact ⟨hmove, hsame⟩

theorem getTask_task (k : String) : (getTask db k).map TaskView.task = db.task? k := by
  rw [getTask, Option.map_map]
  exact Option.map_id'

/-- Whether a status change is made, and what it writes, depends on the row alone. -/
theorem updateTaskStatus_congr {db₀ : Db} {k : String} (newStatus : String) (hrow : db₀.task? k = db.task? k) :
    (∃ e, updateTaskStatus db clock k newStatus args = .error e ∧
      updateTaskStatus db₀ clock k newStatus args = .error e) ∨
    ∃ t new retryAt kind, db.task? k = some t ∧ new.value = newStatus ∧
      Accepted t clock.now new args.claimLock retryAt ∧
      updateTaskStatus db clock k newStatus args =
        .ok (getTask (writeStatus db clock t new args retryAt kind) k, writeStatus db clock t new args retryAt kind) ∧
      updateTaskStatus db₀ clock k newStatus args =
        .ok (getTask (writeStatus db₀ clock t new args retryAt kind) k,
          writeStatus db₀ clock t new args retryAt kind) := by
  unfold updateTaskStatus
  simp only [hrow, bind, pure, Except.bind, Except.pure, throw, throwThe, MonadExceptOf.throw]
  cases ht : db.task? k with
  | none => exact Or.inl ⟨_, rfl, rfl⟩
  | some t =>
    dsimp only
    cases hv : validateTransition t.status.value newStatus with
    | error e => exact Or.inl ⟨_, rfl, rfl⟩
    | ok _ =>
      obtain ⟨new, hedge, rfl⟩ := validate_ok_iff.mp hv
      simp only [TaskStatus.ofValue_value]
      cases hlock : lockRefused t args.claimLock with
      | true => exact Or.inl ⟨_, rfl, rfl⟩
      | false =>
        cases hretry : nextRetry clock.now t new with
        | error e => exact Or.inl ⟨_, rfl, rfl⟩
        | ok retryAt =>
          cases hkind : eventKind t.status new with
          | error e => exact Or.inl ⟨_, rfl, rfl⟩
          | ok kind => exact Or.inr ⟨t, new, retryAt, kind, rfl, rfl,
              ⟨hedge, hlock, eventKind_ok_iff.mp ⟨kind, hkind⟩, hretry⟩, rfl, rfl⟩

/-- A status change on a task of the tenant comes to the same in its part of the database, and leaves the
others alone, where a completion that is accepted finds only its children there. -/
theorem restrict_updateTaskStatus {k : String} (newStatus : String) (hk : Own tenant db k)
    (hc : ∀ t retryAt, db.task? k = some t → newStatus = TaskStatus.completed.value →
      Accepted t clock.now .completed args.claimLock retryAt → OwnChildren tenant db k) :
    (∃ e, updateTaskStatus db clock k newStatus args = .error e ∧
      updateTaskStatus (db.restrict tenant) clock k newStatus args = .error e) ∨
    ∃ view view' db', updateTaskStatus db clock k newStatus args = .ok (view, db') ∧
      updateTaskStatus (db.restrict tenant) clock k newStatus args = .ok (view', db'.restrict tenant) ∧
      view'.map TaskView.task = view.map TaskView.task ∧ OthersSame tenant db db' := by
  rcases updateTaskStatus_congr clock args newStatus hk.task_restrict with herror |
    ⟨t, new, retryAt, kind, ht, rfl, haccepted, hok, hok'⟩
  · exact Or.inl herror
  · obtain rfl : t.id = k := Db.task_id ht
    have hchildren : new = .completed → OwnChildren tenant db t.id := by
      rintro rfl
      exact hc t retryAt ht rfl haccepted
    obtain ⟨hrestrict, hsame⟩ := restrict_writeStatus clock t new args retryAt kind ht hk hchildren
    rw [← hrestrict] at hok'
    refine Or.inr ⟨_, _, _, hok, hok', ?_, hsame⟩
    rw [getTask_task, getTask_task, (hsame.own.mpr hk).task_restrict]

end Status

section Writes

variable (clock : Clock)

theorem restrict_writeClaim {k : String} (hk : owns tenant db k = true) (workerId : String) (pid ttl : Int) :
    (writeClaim db clock k workerId pid ttl).restrict tenant =
      writeClaim (db.restrict tenant) clock k workerId pid ttl := by
  let claim := fun t : Task => t.claim clock.now (clock.now + ttl) (lockOf workerId pid) pid
  have hid : ∀ t, key (claim t) = key t := fun t => t.claim_id clock.now (clock.now + ttl) (lockOf workerId pid) pid
  let claimed : Db := { db with tasks := db.tasks.modify (claimHits clock k) claim hid }
  have hclaimed : owns tenant claimed = owns tenant db := owns_modify hid (fun _ => rfl)
  let run := claimRun k workerId pid clock.now (clock.now + ttl)
  have hrun : ∀ n, (run n).id = n := claimRun_id k workerId pid clock.now (clock.now + ttl)
  let running : Db := { claimed with runs := claimed.runs.insert run hrun }
  have hrunning : owns tenant running = owns tenant db := hclaimed
  let point := fun t : Task => { t with currentRunId := some claimed.runs.next }
  have hcurrent := (owns_setTask tenant running k point (fun _ => rfl) (fun _ => rfl)).trans hrunning
  have hmodify : claimed.restrict tenant = { db.restrict tenant with
      tasks := (db.restrict tenant).tasks.modify (claimHits clock k) claim hid } :=
    restrict_modify hid (fun _ => rfl)
  have hinsert : running.restrict tenant = { claimed.restrict tenant with
      runs := (claimed.restrict tenant).runs.insert run hrun } :=
    restrict_insertRun (by rw [hclaimed]; exact hk) hrun (fun _ => rfl)
  change (emitEvent (running.setTask k point (fun _ => rfl)) clock k _ _ _).restrict tenant = _
  rw [restrict_emitEvent clock (by rw [hcurrent]; exact hk), restrict_setTask tenant running k point _ (fun _ => rfl),
    hinsert, hmodify]
  rfl

/-- A claim of a task of the tenant comes to the same in its part of the database. -/
theorem restrict_claimTask {k : String} (hk : Own tenant db k) (workerId : String) (pid ttl : Int) :
    claimTask (db.restrict tenant) clock k workerId pid ttl =
        ((claimTask db clock k workerId pid ttl).1, (claimTask db clock k workerId pid ttl).2.restrict tenant) ∧
      OthersSame tenant db (claimTask db clock k workerId pid ttl).2 := by
  by_cases h : ∃ t, db.task? k = some t ∧ t.claimable clock.now = true
  · obtain ⟨t, ht, hc⟩ := h
    have ht' : (db.restrict tenant).task? k = some t := hk.task_restrict.trans ht
    rw [claimTask_claims ht hc, claimTask_claims ht' hc]
    refine ⟨?_, OthersSame.of_own fun j => ?_⟩
    · rw [restrict_writeClaim clock (hk.owns ht)]
    · have htask := writeClaim_task workerId pid ttl ht hc j
      by_cases hj : j = k
      · subst hj
        refine Or.inr ⟨hk, ?_⟩
        rw [if_pos rfl] at htask
        simpa [Own, htask, ht, Task.inTenant, claimedRow, Task.claim] using hk
      · exact Or.inl (htask.trans (if_neg hj))
  · have hnone : ∀ t, db.task? k = some t → t.claimable clock.now = false :=
      fun t ht => Bool.eq_false_iff.mpr fun hc => h ⟨t, ht, hc⟩
    have hnone' : ∀ t, (db.restrict tenant).task? k = some t → t.claimable clock.now = false := by
      rw [hk.task_restrict]
      exact hnone
    rw [claimTask_refused hnone, claimTask_refused hnone']
    exact ⟨rfl, .refl tenant db⟩

/-- An edit of a task of the tenant comes to the same in its part of the database. -/
theorem restrict_updateTask {k : String} (hk : Own tenant db k) (args : EditArgs) :
    (∃ e, updateTask db clock k args = .error e ∧ updateTask (db.restrict tenant) clock k args = .error e) ∨
    ∃ t db', updateTask db clock k args = .ok (t, db') ∧
      updateTask (db.restrict tenant) clock k args = .ok (t, db'.restrict tenant) ∧ OthersSame tenant db db' := by
  unfold updateTask
  rw [hk.task_restrict]
  cases ht : db.task? k with
  | none => exact Or.inl ⟨_, rfl, rfl⟩
  | some t =>
    dsimp only
    split
    · have hset := restrict_setTask tenant db k args.edit args.edit_id (fun _ => rfl)
      have howns := owns_setTask tenant db k args.edit args.edit_id (fun _ => rfl)
      refine Or.inr ⟨_, _, rfl, ?_, OthersSame.of_own fun j => ?_⟩
      · rw [restrict_emitEvent clock (by rw [howns]; exact hk.owns ht), hset]
        rfl
      · rw [task_emitEvent, Db.task_setTask]
        by_cases hj : j = k
        · subst hj
          refine Or.inr ⟨hk, ?_⟩
          simpa [Own, ht, Task.inTenant, EditArgs.edit] using hk
        · exact Or.inl (by simp [hj])
    · exact Or.inr ⟨_, _, rfl, rfl, .refl tenant db⟩

/-- A comment on a task of the tenant comes to the same in its part of the database. -/
theorem restrict_addComment {k : String} (hk : Own tenant db k) (author body : String) :
    (db.restrict tenant).tx (addComment (db.restrict tenant) clock k author body) =
        ((db.tx (addComment db clock k author body)).1, (db.tx (addComment db clock k author body)).2.restrict tenant) ∧
      OthersSame tenant db (db.tx (addComment db clock k author body)).2 := by
  unfold addComment
  rw [hk.task_restrict]
  cases ht : db.task? k with
  | none => exact ⟨rfl, .refl tenant db⟩
  | some t =>
    refine ⟨?_, OthersSame.of_tasks fun _ => rfl⟩
    let comment : Nat → TaskComment := fun id => ⟨id, k, author, body, clock.now⟩
    let commented : Db := { db with comments := db.comments.insert comment (fun _ => rfl) }
    have howns : owns tenant commented k = true := hk.owns ht
    have hinsert : commented.restrict tenant = { db.restrict tenant with
        comments := (db.restrict tenant).comments.insert comment (fun _ => rfl) } :=
      restrict_insertComment (hk.owns ht) (fun _ => rfl) (fun _ => rfl)
    refine Prod.ext rfl ?_
    change _ = (emitEvent commented clock k _ _ _).restrict tenant
    rw [restrict_emitEvent clock howns, hinsert]
    rfl

end Writes

section Creation

/-- Nothing has the id, and nothing refers to it. -/
structure NewId (db : Db) (id : String) : Prop where
  task : db.task? id = none
  links : ∀ l ∈ db.links.rows, l.parentId ≠ id ∧ l.childId ≠ id
  runs : ∀ r ∈ db.runs.rows, r.taskId ≠ id
  comments : ∀ c ∈ db.comments.rows, c.taskId ≠ id
  events : ∀ e ∈ db.events.rows, e.taskId ≠ id

instance (db : Db) (id : String) : Decidable (NewId db id) :=
  decidable_of_iff (db.task? id = none ∧ (∀ l ∈ db.links.rows, l.parentId ≠ id ∧ l.childId ≠ id) ∧
      (∀ r ∈ db.runs.rows, r.taskId ≠ id) ∧ (∀ c ∈ db.comments.rows, c.taskId ≠ id) ∧
      ∀ e ∈ db.events.rows, e.taskId ≠ id)
    ⟨fun ⟨ht, hl, hr, hc, he⟩ => ⟨ht, hl, hr, hc, he⟩, fun h => ⟨h.task, h.links, h.runs, h.comments, h.events⟩⟩

/-- The links of a new task go in, or not, whatever else is in the table. -/
theorem insertLinks_congr (child : String) (specs : List ParentSpec) {links links' : Table TaskLink}
    (h : ∀ p, links.find? (p, child) = links'.find? (p, child)) :
    (∃ e, insertLinks child specs links = .error e ∧ insertLinks child specs links' = .error e) ∨
    ∃ m m', insertLinks child specs links = .ok m ∧ insertLinks child specs links' = .ok m' ∧
      m.rows = links.rows ++ specs.map (fun spec => ⟨spec.parentId, child, spec.condition⟩) ∧
      m'.rows = links'.rows ++ specs.map (fun spec => ⟨spec.parentId, child, spec.condition⟩) := by
  induction specs generalizing links links' with
  | nil => exact Or.inr ⟨links, links', rfl, rfl, by simp, by simp⟩
  | cons spec specs ih =>
    unfold insertLinks
    cases hi : links.insert? ⟨spec.parentId, child, spec.condition⟩ with
    | none =>
      have htaken : ¬ links.find? (key (⟨spec.parentId, child, spec.condition⟩ : TaskLink)) = none := by
        intro hf
        have hs := Table.insert_isSome.mpr hf
        simp [hi] at hs
      have htaken' : links'.insert? ⟨spec.parentId, child, spec.condition⟩ = none := by
        refine Option.not_isSome_iff_eq_none.mp fun hs => htaken ?_
        exact (h spec.parentId).trans (Table.insert_isSome.mp hs)
      exact Or.inl ⟨_, rfl, by rw [htaken']⟩
    | some m =>
      obtain ⟨hfree, hrows⟩ := Table.insert_some hi
      have hfree' : links'.find? (key (⟨spec.parentId, child, spec.condition⟩ : TaskLink)) = none :=
        (h spec.parentId).symm.trans hfree
      obtain ⟨m', hi'⟩ := Option.isSome_iff_exists.mp (Table.insert_isSome.mpr hfree')
      obtain ⟨_, hrows'⟩ := Table.insert_some hi'
      have hnext : ∀ p, m.find? (p, child) = m'.find? (p, child) := by
        intro p
        rw [Table.find_insert hi, Table.find_insert hi', h p]
      rw [hi']
      rcases ih hnext with ⟨e, he, he'⟩ | ⟨n, n', hn, hn', hr, hr'⟩
      · exact Or.inl ⟨e, he, he'⟩
      · exact Or.inr ⟨n, n', hn, hn', by simp [hr, hrows], by simp [hr', hrows']⟩

/-- No link leads on from a new id, so a search for a cycle from it finds none. -/
theorem detectCycle_new {db : Db} {id p : String} (hnew : NewId db id) (hp : p ≠ id) : detectCycle db id p = false := by
  have hchildren : childIds db id = [] := by
    apply List.eq_nil_iff_forall_not_mem.mpr
    intro c hm
    obtain ⟨l, hl, he, _⟩ := mem_childIds.mp hm
    exact (hnew.links l hl).1 he
  have hdone : ∀ n visited, detectCycleLoop db p n visited [] = false := by
    intro n visited
    cases n with
    | zero => rfl
    | succ n => rfl
  simp only [detectCycle, if_neg (Ne.symm hp), detectCycleLoop, hchildren, List.not_mem_nil, if_false,
    List.reverse_nil, List.append_nil, hdone]

/-- What a new task of the tenant adds is its own. -/
theorem restrict_created {task : Task} {tasks : Table Task} {links links' : Table TaskLink} {specs : List ParentSpec}
    (hnew : NewId db task.id) (htenant : task.inTenant (some tenant) = true) (htasks : tasks.rows = db.tasks.rows ++ [task])
    (htask : ∀ k, tasks.find? k = if k = task.id then some task else db.task? k)
    (hlinks : links.rows = db.links.rows ++ specs.map (fun spec => ⟨spec.parentId, task.id, spec.condition⟩))
    (hlinks' : links'.rows = (db.restrict tenant).links.rows ++
      specs.map (fun spec => ⟨spec.parentId, task.id, spec.condition⟩)) {tasks' : Table Task}
    (htasks' : tasks'.rows = (db.restrict tenant).tasks.rows ++ [task]) :
    ({ db with tasks := tasks, links := links } : Db).restrict tenant =
      { db.restrict tenant with tasks := tasks', links := links' } := by
  have howns : ∀ k, owns tenant { db with tasks := tasks, links := links } k =
      if k = task.id then true else owns tenant db k := by
    intro k
    have hfind : ({ db with tasks := tasks, links := links } : Db).task? k = _ := htask k
    rw [owns, hfind]
    split
    · simpa using htenant
    · rfl
  have hold : ∀ k, k ≠ task.id → owns tenant { db with tasks := tasks, links := links } k = owns tenant db k :=
    fun k hk => (howns k).trans (if_neg hk)
  unfold Db.restrict
  congr 1
  · exact Table.ext_rows (by simp [Table.keep, htasks, htasks', Db.restrict, htenant])
  · apply Table.ext_rows
    rw [hlinks']
    simp only [Table.keep, hlinks, List.filter_append, Db.restrict]
    congr 1
    · apply List.filter_congr
      intro l hl
      rw [hold _ (hnew.links l hl).1, hold _ (hnew.links l hl).2]
    · apply List.filter_eq_self.mpr
      intro l hl
      obtain ⟨spec, _, rfl⟩ := List.mem_map.mp hl
      simp [howns]
  · refine AutoTable.ext_rows (List.filter_congr fun r hr => ?_) rfl
    exact hold _ (hnew.runs r hr)
  · refine AutoTable.ext_rows (List.filter_congr fun c hc => ?_) rfl
    exact hold _ (hnew.comments c hc)
  · refine AutoTable.ext_rows (List.filter_congr fun e he => ?_) rfl
    exact hold _ (hnew.events e he)

/-- The creation of a task of the tenant, with parents of the tenant, comes to the same in its part of the
database. -/
theorem restrict_createTask (clock : Clock) {hex : String} {args : CreateArgs} (htenant : args.tenant = some tenant)
    (hparents : ∀ spec ∈ args.parentSpecs, Own tenant db spec.parentId) (hnew : NewId db (freshId hex)) :
    (∃ e, createTask db clock hex args = .error e ∧ createTask (db.restrict tenant) clock hex args = .error e) ∨
    ∃ t db', createTask db clock hex args = .ok (t, db') ∧
      createTask (db.restrict tenant) clock hex args = .ok (t, db'.restrict tenant) ∧ OthersSame tenant db db' := by
  have hfresh' : (db.restrict tenant).task? (freshId hex) = none := by
    rw [task_restrict, hnew.task]
    rfl
  have hnew' : NewId (db.restrict tenant) (freshId hex) :=
    ⟨hfresh', fun l hl => hnew.links l (List.mem_filter.mp hl).1, fun r hr => hnew.runs r (List.mem_filter.mp hr).1,
      fun c hc => hnew.comments c (List.mem_filter.mp hc).1, fun e he => hnew.events e (List.mem_filter.mp he).1⟩
  have hmissing : args.parentSpecs.find? (fun spec => ((db.restrict tenant).task? spec.parentId).isNone) =
      args.parentSpecs.find? (fun spec => (db.task? spec.parentId).isNone) :=
    List.find?_congr fun spec hs => by rw [(hparents spec hs).task_restrict]
  unfold createTask
  simp only [hmissing, bind, pure, Except.bind, Except.pure, throw, throwThe, MonadExceptOf.throw]
  split
  · exact Or.inl ⟨_, rfl, rfl⟩
  cases hf : args.parentSpecs.find? (fun spec => (db.task? spec.parentId).isNone) with
  | some spec => exact Or.inl ⟨_, rfl, rfl⟩
  | none =>
    have hne : ∀ spec ∈ args.parentSpecs, spec.parentId ≠ freshId hex := by
      intro spec hs he
      have := List.find?_eq_none.mp hf spec hs
      simp [he, hnew.task] at this
    have hcycle : args.parentSpecs.find? (fun spec => detectCycle db (args.row clock.now hex).id spec.parentId) = none :=
      List.find?_eq_none.mpr fun spec hs => Bool.eq_false_iff.mp (detectCycle_new hnew (hne spec hs))
    have hcycle' : args.parentSpecs.find?
        (fun spec => detectCycle (db.restrict tenant) (args.row clock.now hex).id spec.parentId) = none :=
      List.find?_eq_none.mpr fun spec hs => Bool.eq_false_iff.mp (detectCycle_new hnew' (hne spec hs))
    simp only [hcycle, hcycle']
    obtain ⟨tasks, htasks⟩ := Option.isSome_iff_exists.mp
      (Table.insert_isSome (t := db.tasks) (r := args.row clock.now hex) |>.mpr hnew.task)
    obtain ⟨tasks', htasks'⟩ := Option.isSome_iff_exists.mp
      (Table.insert_isSome (t := (db.restrict tenant).tasks) (r := args.row clock.now hex) |>.mpr hfresh')
    simp only [htasks, htasks']
    have hfree : ∀ p, db.links.find? (p, freshId hex) = (db.restrict tenant).links.find? (p, freshId hex) := by
      intro p
      have hnone : db.links.find? (p, freshId hex) = none :=
        Table.find_none_iff.mpr fun l hl he => (hnew.links l hl).2 (congrArg Prod.snd he)
      rw [hnone, Db.restrict, Table.find_keep, hnone]
      rfl
    rcases insertLinks_congr (freshId hex) args.parentSpecs hfree with
      ⟨e, he, he'⟩ | ⟨m, m', hm, hm', hr, hr'⟩
    · have he₁ : insertLinks (args.row clock.now hex).id args.parentSpecs db.links = .error e := he
      have he₂ : insertLinks (args.row clock.now hex).id args.parentSpecs (db.restrict tenant).links = .error e := he'
      exact Or.inl ⟨e, by rw [he₁], by rw [he₂]⟩
    · have hm₁ : insertLinks (args.row clock.now hex).id args.parentSpecs db.links = .ok m := hm
      have hm₂ : insertLinks (args.row clock.now hex).id args.parentSpecs (db.restrict tenant).links = .ok m' := hm'
      rw [hm₁, hm₂]
      have hin : (args.row clock.now hex).inTenant (some tenant) = true := by
        simp [Task.inTenant, CreateArgs.row, htenant]
      have hfind := Table.find_insert htasks
      have hcreated := restrict_created hnew hin (Table.insert_some htasks).2 hfind hr hr' (Table.insert_some htasks').2
      have howns : owns tenant { db with tasks := tasks, links := m } (freshId hex) = true := by
        have htask : ({ db with tasks := tasks, links := m } : Db).task? (freshId hex) = _ := hfind (freshId hex)
        rw [owns, htask]
        simpa [CreateArgs.row] using hin
      refine Or.inr ⟨_, _, rfl, ?_, OthersSame.of_own fun k => ?_⟩
      · have hemit := restrict_emitEvent clock howns TaskEventKind.created.value none
          [("assignee", .ofText args.assignee), ("parents", .arr (args.parentSpecs.map ParentSpec.toJson)),
            ("status", .str (args.row clock.now hex).status.value)]
        rw [hcreated] at hemit
        exact congrArg (fun d => Except.ok (args.row clock.now hex, d)) hemit.symm
      · have htask := hfind k
        by_cases hk : k = freshId hex
        · refine Or.inr ⟨by simp [Own, hk, hnew.task], ?_⟩
          have hnow : ({ db with tasks := tasks, links := m } : Db).task? k = some (args.row clock.now hex) :=
            htask.trans (if_pos hk)
          simpa [Own, task_emitEvent, hnow] using hin
        · exact Or.inl (htask.trans (if_neg hk))

end Creation

end A2ARegistry.Orchestration
