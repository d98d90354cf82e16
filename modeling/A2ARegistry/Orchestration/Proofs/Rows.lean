import A2ARegistry.Orchestration.Proofs.Effects
import A2ARegistry.Orchestration.Proofs.Loops

namespace A2ARegistry.Orchestration
open Base

/-- What a call commits, when it commits anything. -/
inductive Wrote (db : Db) : Op → Db → Prop
  | created (ok : createTask db clock hex args = .ok (t, db')) :
      Wrote db (.createTask clock hex args) db'
  | edited (ok : updateTask db clock taskId args = .ok (t, db')) :
      Wrote db (.updateTask clock taskId args) db'
  | moved {clock : Clock} {taskId : String} {t : Task} {new : TaskStatus} {args : StatusArgs}
      {retryAt : Option Int} {kind : String} (task : db.task? taskId = some t)
      (accepted : Accepted t clock.now new args.claimLock retryAt) :
      Wrote db (.updateTaskStatus clock taskId new.value args)
        (writeStatus db clock t new args retryAt kind)
  | claimed {clock : Clock} {taskId workerId : String} {pid ttl : Int} {t : Task}
      (task : db.task? taskId = some t) (free : t.claimable clock.now = true) :
      Wrote db (.claimTask clock taskId workerId pid ttl) (writeClaim db clock taskId workerId pid ttl)
  | beat {clock : Clock} {taskId : String} {t : Task} {claimLock : Json}
      (task : db.task? taskId = some t) (lock : claimLock.eqText t.claimLock = true) :
      Wrote db (.heartbeat clock taskId claimLock) (heartbeat db clock taskId claimLock).2
  | released : Wrote db (.releaseExpiredClaims clock tenant) (releaseExpiredClaims db clock tenant).2
  | promoted :
      Wrote db (.promoteRetryableTasks clock tenant) (promoteRetryableTasks db clock tenant).2
  | linked (ok : addDependency db clock taskId parent condition = .ok ((), db')) :
      Wrote db (.addDependency clock taskId parent condition) db'
  | unlinked (ok : removeDependency db clock taskId parent = (true, db')) :
      Wrote db (.removeDependency clock taskId parent) db'
  | commented (ok : addComment db clock taskId author body = .ok (comment, db')) :
      Wrote db (.addComment clock taskId author body) db'
  | placed : Wrote db (.updateWorkspacePath taskId path) (updateWorkspacePath db taskId path)
  | manned : Wrote db (.setWorkerPid taskId pid) (setWorkerPid db taskId pid)

theorem wrote_tx {α : Type} {db : Db} {op : Op} {body : Except StoreError (α × Db)}
    (hs : step db op = (db.tx body).2) (hw : ∀ a db', body = .ok (a, db') → Wrote db op db') :
    step db op = db ∨ Wrote db op (step db op) := by
  rw [hs]
  rcases tx_cases db body with ⟨a, db', h, he⟩ | ⟨_, _, he⟩
  · rw [he]
    exact Or.inr (hw a db' h)
  · exact Or.inl he

/-- A call that raises, or finds nothing to do, leaves the database as it was. -/
theorem step_wrote (db : Db) (op : Op) : step db op = db ∨ Wrote db op (step db op) := by
  cases op with
  | createTask clock hex args => exact wrote_tx rfl fun _ _ h => Wrote.created h
  | updateTask clock id args => exact wrote_tx rfl fun _ _ h => Wrote.edited h
  | updateTaskStatus clock id s args =>
    apply wrote_tx rfl
    intro view db' h
    obtain ⟨t, new, retryAt, kind, ht, rfl, ha, rfl⟩ := updateTaskStatus_ok h
    exact Wrote.moved ht ha
  | claimTask clock id workerId pid ttl =>
    rcases claimTask_cases db clock id workerId pid ttl with ⟨t, ht, hc⟩ | h
    · right
      have he : step db (.claimTask clock id workerId pid ttl) =
          writeClaim db clock id workerId pid ttl := congrArg Prod.snd (claimTask_claims ht hc)
      exact he.symm ▸ Wrote.claimed ht hc
    · exact Or.inl (congrArg Prod.snd h)
  | heartbeat clock id claimLock =>
    by_cases h : ∃ t, db.task? id = some t ∧ claimLock.eqText t.claimLock = true
    · obtain ⟨t, ht, hl⟩ := h
      exact Or.inr (Wrote.beat ht hl)
    · left
      have hr : ∀ t, db.task? id = some t → claimLock.eqText t.claimLock = false :=
        fun t ht => Bool.eq_false_iff.mpr fun hl => h ⟨t, ht, hl⟩
      exact congrArg Prod.snd (heartbeat_refused clock hr)
  | releaseExpiredClaims clock tenant => exact Or.inr Wrote.released
  | promoteRetryableTasks clock tenant => exact Or.inr Wrote.promoted
  | addDependency clock id parent condition => exact wrote_tx rfl fun _ _ h => Wrote.linked h
  | removeDependency clock id parent =>
    rcases removeDependency_cases db clock id parent with ⟨he, _⟩ | ⟨links, he, _⟩
    · exact Or.inl (congrArg Prod.snd he)
    · have hs : step db (.removeDependency clock id parent) =
          resolveDependencies { db with links := links } clock id := congrArg Prod.snd he
      exact Or.inr (hs.symm ▸ Wrote.unlinked he)
  | addComment clock id author body => exact wrote_tx rfl fun _ _ h => Wrote.commented h
  | updateWorkspacePath id path => exact Or.inr Wrote.placed
  | setWorkerPid id pid => exact Or.inr Wrote.manned

/-- The calls that can reach `_resolve_dependencies`. -/
def Op.resolves : Op → Bool
  | .updateTaskStatus .. | .addDependency .. | .removeDependency .. => true
  | _ => false

/-- What a call can do to the row of a task: one constructor for each statement
that writes rows of `tasks`, with the guard it has. -/
inductive RowStep (db db' : Db) : Op → Task → Task → Prop
  | same : RowStep db db' op t t
  | edited : RowStep db db' (.updateTask clock t.id args) t (args.edit t)
  | placed : RowStep db db' (.updateWorkspacePath t.id path) t { t with workspacePath := some path }
  | manned : RowStep db db' (.setWorkerPid t.id pid) t { t with workerPid := some pid }
  | beat (lock : claimLock.eqText t.claimLock = true) :
      RowStep db db' (.heartbeat clock t.id claimLock) t (t.beat clock.now)
  | claimed {clock : Clock} {t : Task} {workerId : String} {pid ttl : Int}
      (free : t.claimable clock.now = true) (run : db'.run? db.runs.next =
        some (claimRun t.id workerId pid clock.now (clock.now + ttl) db.runs.next)) :
      RowStep db db' (.claimTask clock t.id workerId pid ttl) t
        (claimedRow t clock.now workerId pid ttl db.runs.next)
  | moved {clock : Clock} {t : Task} {new : TaskStatus} {args : StatusArgs} {retryAt : Option Int}
      (accepted : Accepted t clock.now new args.claimLock retryAt) :
      RowStep db db' (.updateTaskStatus clock t.id new.value args) t
        (t.move clock.now new args.result retryAt)
  | settled (resolves : op.resolves = true) : RowStep db db' op t (settle db' t)
  | released (expired : t.expired clock.now tenant = true) :
      RowStep db db' (.releaseExpiredClaims clock tenant) t
        (t.release clock.now (t.consecutiveFailures + 1))
  | promoted (retryable : t.retryable tenant = true) (fresh : db.runs.next ≤ n)
      (run : db'.run? n = some (retryRun t.id clock.now n)) :
      RowStep db db' (.promoteRetryableTasks clock tenant) t (t.promote n)

/-- The resolver's verdict can be read off the database it leaves. -/
theorem resolve_row (db : Db) (clock : Clock) (id : String) {k : String} {t : Task}
    (ht : db.task? k = some t) :
    (resolveDependencies db clock id).task? k =
      some (if k = id then settle (resolveDependencies db clock id) t else t) := by
  have hs : settle (resolveDependencies db clock id) t = settle db t :=
    settle_congr (parentsDone_resolve db clock id t.id)
  rw [hs, resolve_task, ht]
  rfl

section
variable {db db' : Db} {op : Op} {k id : String} {t u u' : Task}

/-- A statement that replaces the row `u` of one task. -/
theorem row_replaced (task : db.task? id = some u)
    (hrow : db'.task? k = if k = id then some u' else db.task? k) (hstep : RowStep db db' op u u')
    (ht : db.task? k = some t) : ∃ t', db'.task? k = some t' ∧ RowStep db db' op t t' := by
  by_cases hk : k = id
  · subst hk
    rw [task] at ht
    cases ht
    exact ⟨u', by rw [hrow, if_pos rfl], hstep⟩
  · exact ⟨t, by rw [hrow, if_neg hk, ht], RowStep.same⟩

/-- A statement that updates the row of one task where it finds it. -/
theorem row_updated {f : Task → Task} (hrow : db'.task? k = some (if k = id then f t else t))
    (hstep : k = id → RowStep db db' op t (f t)) : ∃ t', db'.task? k = some t' ∧ RowStep db db' op t t' := by
  by_cases hk : k = id
  · exact ⟨f t, by rw [hrow, if_pos hk], hstep hk⟩
  · exact ⟨t, by rw [hrow, if_neg hk], RowStep.same⟩

theorem Wrote.row (h : Wrote db op db') (ht : db.task? k = some t) :
    ∃ t', db'.task? k = some t' ∧ RowStep db db' op t t' := by
  have hid := Db.task_id ht
  cases h with
  | created ok =>
    obtain ⟨_, hfresh, htask, _⟩ := createTask_ok ok
    have hne : k ≠ freshId _ := fun he => by rw [he, hfresh] at ht; cases ht
    exact ⟨t, by rw [htask, if_neg hne, ht], RowStep.same⟩
  | @edited clock id args _ _ ok =>
    obtain ⟨_, _, htask | htask⟩ := updateTask_ok ok
    · exact ⟨t, (htask k).trans ht, RowStep.same⟩
    · have hrow := htask k
      rw [ht, Option.map_some] at hrow
      refine row_updated hrow fun hk => ?_
      rw [← hk, ← hid]
      exact RowStep.edited
  | @moved clock id u new args retryAt kind task accepted =>
    have huid := Db.task_id task
    subst huid
    have hrow := writeStatus_task db clock u new args retryAt kind task k
    by_cases hk : k = u.id
    · subst hk
      rw [task] at ht
      cases ht
      exact ⟨_, by rw [hrow, if_pos rfl], RowStep.moved accepted⟩
    · rw [if_neg hk, ht, Option.map_some] at hrow
      split at hrow
      · exact ⟨_, hrow, RowStep.settled rfl⟩
      · exact ⟨_, hrow, RowStep.same⟩
  | @claimed clock id workerId pid ttl u task free =>
    have huid := Db.task_id task
    subst huid
    exact row_replaced task (writeClaim_task workerId pid ttl task free k)
      (RowStep.claimed free (by rw [writeClaim_run, if_pos rfl])) ht
  | @beat clock id u claimLock task lock =>
    have huid := Db.task_id task
    subst huid
    exact row_replaced task (heartbeat_task clock task lock k) (RowStep.beat lock) ht
  | @released clock tenant =>
    have hrow := release_task db clock tenant k
    rw [ht, Option.map_some] at hrow
    split at hrow
    · rename_i he
      exact ⟨_, hrow, RowStep.released he⟩
    · exact ⟨_, hrow, RowStep.same⟩
  | @promoted clock tenant =>
    have hrow := promote_task clock tenant ht
    cases hr : t.retryable tenant with
    | false => exact ⟨t, hrow.1 hr, RowStep.same⟩
    | true =>
      obtain ⟨n, hn, htask, hrun⟩ := hrow.2 hr
      exact ⟨_, htask, RowStep.promoted hr hn (hid ▸ hrun)⟩
  | @linked clock id parent condition _ ok =>
    obtain ⟨_, _, links, rfl, _⟩ := addDependency_ok ok
    exact row_updated (resolve_row { db with links := links } clock id ht) fun _ => RowStep.settled rfl
  | @unlinked clock id parent _ ok =>
    obtain ⟨links, rfl, _⟩ := removeDependency_ok ok
    exact row_updated (resolve_row { db with links := links } clock id ht) fun _ => RowStep.settled rfl
  | commented ok =>
    obtain ⟨htask, _, _⟩ := addComment_ok ok
    exact ⟨t, by rw [Db.task?, htask]; exact ht, RowStep.same⟩
  | @placed id path =>
    have hrow := Db.task_setTask db id (fun t => { t with workspacePath := some path }) (fun _ => rfl) k
    rw [ht, Option.map_some] at hrow
    refine row_updated (f := fun t => { t with workspacePath := some path }) hrow fun hk => ?_
    rw [← hk, ← hid]
    exact RowStep.placed
  | @manned id pid =>
    have hrow := Db.task_setTask db id (fun t => { t with workerPid := some pid }) (fun _ => rfl) k
    rw [ht, Option.map_some] at hrow
    refine row_updated (f := fun t => { t with workerPid := some pid }) hrow fun hk => ?_
    rw [← hk, ← hid]
    exact RowStep.manned

end

/-- No call deletes a task. -/
theorem step_row {db : Db} (op : Op) {k : String} {t : Task} (ht : db.task? k = some t) :
    ∃ t', (step db op).task? k = some t' ∧ RowStep db (step db op) op t t' := by
  rcases step_wrote db op with he | h
  · exact ⟨t, he.symm ▸ ht, RowStep.same⟩
  · exact h.row ht

/-- The row of a task after a call comes from its row before it. -/
theorem step_moves {db : Db} {op : Op} {k : String} {t t' : Task} (ht : db.task? k = some t)
    (ht' : (step db op).task? k = some t') : RowStep db (step db op) op t t' := by
  obtain ⟨u, hu, hrow⟩ := step_row op ht
  rw [ht'] at hu
  cases hu
  exact hrow

/-- A statement that replaces the row of one task brings no other row in. -/
theorem no_row_replaced {db db' : Db} {k id : String} {t u u' : Task} (task : db.task? id = some u)
    (hrow : db'.task? k = if k = id then some u' else db.task? k) (hn : db.task? k = none) :
    db'.task? k ≠ some t := by
  have hk : k ≠ id := by
    intro he
    rw [he, task] at hn
    cases hn
  rw [hrow, if_neg hk, hn]
  simp

theorem no_row_resolved {db : Db} {links : Table TaskLink} {clock : Clock} {k id : String} {t : Task}
    (hn : db.task? k = none) :
    (resolveDependencies { db with links := links } clock id).task? k ≠ some t := by
  have hn' : ({ db with links := links } : Db).task? k = none := hn
  simp [resolve_task, hn']

/-- The rows of a call that is not `create_task` are those that were there. -/
theorem Wrote.created_row {db db' : Db} {op : Op} {k : String} {t : Task} (h : Wrote db op db')
    (hn : db.task? k = none) (ht : db'.task? k = some t) :
    ∃ clock hex args u, op = .createTask clock hex args ∧ k = freshId hex ∧
      t = args.row clock.now hex ∧ createTask db clock hex args = .ok (u, db') := by
  cases h with
  | @created clock hex args u _ ok =>
    obtain ⟨rfl, _, htask, _⟩ := createTask_ok ok
    rw [htask] at ht
    split at ht
    · rename_i hk
      cases ht
      exact ⟨clock, hex, args, _, rfl, hk, rfl, ok⟩
    · rw [hn] at ht
      cases ht
  | edited ok =>
    obtain ⟨_, _, htask | htask⟩ := updateTask_ok ok <;> simp [htask, hn] at ht
  | @moved clock id u new args retryAt kind task accepted =>
    have huid := Db.task_id task
    subst huid
    rw [writeStatus_task db clock u new args retryAt kind task k] at ht
    split at ht
    · rename_i hk
      rw [hk, task] at hn
      cases hn
    · simp [hn] at ht
  | @claimed clock id workerId pid ttl u task free =>
    exact absurd ht (no_row_replaced task (writeClaim_task workerId pid ttl task free k) hn)
  | @beat clock id u claimLock task lock =>
    exact absurd ht (no_row_replaced task (heartbeat_task clock task lock k) hn)
  | released => simp [release_task, hn] at ht
  | @promoted clock tenant =>
    have hloop := promoteRetryable_loop db clock tenant
    rw [hloop.others k ?_, hn] at ht
    · cases ht
    · intro hk
      obtain ⟨row, hrow, he⟩ := List.mem_map.mp hk
      have := Db.mem_tasks.mp (Table.mem_select.mp hrow).1
      rw [he, hn] at this
      cases this
  | linked ok =>
    obtain ⟨_, _, links, rfl, _⟩ := addDependency_ok ok
    exact absurd ht (no_row_resolved hn)
  | unlinked ok =>
    obtain ⟨links, rfl, _⟩ := removeDependency_ok ok
    exact absurd ht (no_row_resolved hn)
  | commented ok =>
    obtain ⟨htask, _, _⟩ := addComment_ok ok
    rw [Db.task?, htask] at ht
    rw [Db.task?, ht] at hn
    cases hn
  | placed => simp [updateWorkspacePath, hn] at ht
  | manned => simp [setWorkerPid, hn] at ht

theorem step_created {db : Db} {op : Op} {k : String} {t : Task} (hn : db.task? k = none)
    (ht : (step db op).task? k = some t) : ∃ clock hex args u, op = .createTask clock hex args ∧
      k = freshId hex ∧ t = args.row clock.now hex ∧
      createTask db clock hex args = .ok (u, step db op) := by
  rcases step_wrote db op with he | h
  · rw [he, hn] at ht
    cases ht
  · exact h.created_row hn ht

/-- Where a row comes from: `create_task` inserted it, or the call was made on the row
the task had. -/
theorem step_origin {db : Db} {op : Op} {k : String} {t' : Task}
    (ht' : (step db op).task? k = some t') :
    (∃ clock hex args u, op = .createTask clock hex args ∧ k = freshId hex ∧
      t' = args.row clock.now hex ∧ createTask db clock hex args = .ok (u, step db op)) ∨
    ∃ t, db.task? k = some t ∧ RowStep db (step db op) op t t' := by
  cases hk : db.task? k with
  | none => exact Or.inl (step_created hk ht')
  | some t => exact Or.inr ⟨t, rfl, step_moves hk ht'⟩

/-- What a call can do to the links. -/
inductive LinkStep (db : Db) : Op → Db → Prop
  | same (links : db'.links = db.links) : LinkStep db op db'
  | created (ok : createTask db clock hex args = .ok (t, db')) :
      LinkStep db (.createTask clock hex args) db'
  | linked {links : Table TaskLink} (task : (db.task? k).isSome) (parent : (db.task? p).isSome)
      (rows : ∀ l, l ∈ links.rows ↔ l = ⟨p, k, condition⟩ ∨
        (l ∈ db.links.rows ∧ ¬ (l.parentId = p ∧ l.childId = k))) :
      LinkStep db (.addDependency clock k p condition)
        (resolveDependencies { db with links := links } clock k)
  | unlinked {links : Table TaskLink} (rows : ∀ l, l ∈ links.rows ↔
        l ∈ db.links.rows ∧ ¬ (l.parentId = p ∧ l.childId = k)) :
      LinkStep db (.removeDependency clock k p)
        (resolveDependencies { db with links := links } clock k)

theorem Wrote.links {db db' : Db} {op : Op} (h : Wrote db op db') : LinkStep db op db' := by
  cases h with
  | created ok => exact LinkStep.created ok
  | edited ok => exact LinkStep.same (updateTask_ok ok).1
  | moved => exact LinkStep.same (writeStatus_links ..)
  | claimed => exact LinkStep.same rfl
  | beat => exact LinkStep.same (heartbeat_links _)
  | released => exact LinkStep.same (release_links ..)
  | promoted => exact LinkStep.same (promoteRetryable_loop ..).links
  | linked ok =>
    obtain ⟨ht, hp, links, rfl, hl⟩ := addDependency_ok ok
    exact LinkStep.linked ht hp hl
  | unlinked ok =>
    obtain ⟨links, rfl, hl⟩ := removeDependency_ok ok
    exact LinkStep.unlinked hl
  | commented ok => exact LinkStep.same (addComment_ok ok).2.1
  | placed => exact LinkStep.same rfl
  | manned => exact LinkStep.same rfl

theorem step_links (db : Db) (op : Op) : LinkStep db op (step db op) := by
  rcases step_wrote db op with he | h
  · rw [he]
    exact LinkStep.same rfl
  · exact h.links

def InStatus (k : String) (status : TaskStatus) (db : Db) : Prop :=
  (db.task? k).map Task.status = some status

instance (k : String) (status : TaskStatus) : DecidablePred (InStatus k status) :=
  fun _ => inferInstanceAs (Decidable (_ = _))

theorem inStatus_iff {k : String} {status : TaskStatus} {db : Db} :
    InStatus k status db ↔ ∃ t, db.task? k = some t ∧ t.status = status :=
  Option.map_eq_some_iff

end A2ARegistry.Orchestration
