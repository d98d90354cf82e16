import A2ARegistry.Orchestration.Proofs.Depth
import A2ARegistry.Orchestration.Proofs.Rows
import A2ARegistry.Orchestration.Workspace

namespace A2ARegistry.Orchestration
open Base Security

/-- A statement keeps the kind of a workspace, and its path unless it is the one that writes it. -/
theorem RowStep.workspace {db db' : Db} {op : Op} {t t' : Task} (h : RowStep db db' op t t') :
    t'.workspaceKind = t.workspaceKind ∧ (op.places = false → t'.workspacePath = t.workspacePath) := by
  cases h with
  | same | edited | manned | beat | claimed | moved | released | promoted => exact ⟨rfl, fun _ => rfl⟩
  | placed => exact ⟨rfl, fun h => nomatch h⟩
  | settled =>
    rcases settle_cases db' t with ⟨_, _, he⟩ | ⟨_, _, he⟩ | ⟨_, _, he⟩ <;> rw [he] <;> exact ⟨rfl, fun _ => rfl⟩

/-- What stays of the workspaces: every task keeps its own, and only `create_task` brings ids in. -/
structure Kept (db db' : Db) : Prop where
  rows : ∀ k t, db.task? k = some t → ∃ t', db'.task? k = some t' ∧
    t'.workspaceKind = t.workspaceKind ∧ t'.workspacePath = t.workspacePath
  ids : ∀ k t', db'.task? k = some t' → (db.task? k).isSome ∨ ∃ hex, IsHex hex ∧ k = freshId hex

theorem Kept.refl (db : Db) : Kept db db :=
  ⟨fun _ t ht => ⟨t, ht, rfl, rfl⟩, fun _ _ ht => Or.inl (by rw [ht]; rfl)⟩

theorem Kept.trans {db₁ db₂ db₃ : Db} (h₁ : Kept db₁ db₂) (h₂ : Kept db₂ db₃) : Kept db₁ db₃ := by
  constructor
  case rows =>
    intro k t ht
    obtain ⟨u, hu, hkind, hpath⟩ := h₁.rows k t ht
    obtain ⟨v, hv, hkind', hpath'⟩ := h₂.rows k u hu
    exact ⟨v, hv, hkind'.trans hkind, hpath'.trans hpath⟩
  case ids =>
    intro k t' ht'
    rcases h₂.ids k t' ht' with hsome | hnew
    · obtain ⟨u, hu⟩ := Option.isSome_iff_exists.mp hsome
      exact h₁.ids k u hu
    · exact Or.inr hnew

theorem kept_step (db : Db) (op : Op) (hother : op.places = false) (hfresh : op.Fresh) : Kept db (step db op) := by
  constructor
  case rows =>
    intro k t ht
    obtain ⟨t', ht', hrow⟩ := step_row op ht
    exact ⟨t', ht', hrow.workspace.1, hrow.workspace.2 hother⟩
  case ids =>
    intro k t' ht'
    rcases step_origin ht' with ⟨clock, hex, args, _, rfl, hk, _⟩ | ⟨t, ht, _⟩
    · exact Or.inr ⟨hex, hfresh, hk⟩
    · exact Or.inl (by rw [ht]; rfl)

section Handlers

variable (h : OrchestrationHandler) (db : Db)

/-- A creation is a call of `create_task`, or leaves the database alone. -/
theorem handleCreateTask_db (draw : Draw) (caller : CallerIdentity) (body : CreateBody) :
    (handleCreateTask h db draw caller body).2 = db ∨
      ∃ args, (handleCreateTask h db draw caller body).2 = step db (.createTask draw.clock draw.hex args) := by
  have hanswer : ∀ args parents headers, (createAndAnswer h db draw args parents headers).2 = db ∨
      (createAndAnswer h db draw args parents headers).2 = step db (.createTask draw.clock draw.hex args) := by
    intro args parents headers
    unfold createAndAnswer
    split
    · exact Or.inl rfl
    cases hc : createTask db draw.clock draw.hex args with
    | error e => cases e <;> exact Or.inl rfl
    | ok created =>
      have hstep : step db (.createTask draw.clock draw.hex args) = created.2 := by simp [step, hc, Db.tx]
      dsimp only
      split
      · exact Or.inl rfl
      · rw [hstep]
        split <;> exact Or.inr rfl
  unfold handleCreateTask
  split
  · exact Or.inl rfl
  split
  · exact Or.inl rfl
  split
  · exact Or.inl rfl
  dsimp only
  split
  · exact Or.inl rfl
  split
  · exact Or.inl rfl
  · exact (hanswer _ _ _).imp_right fun hstep => ⟨_, hstep⟩

/-- A deletion is a change of the status, or leaves the database alone. -/
theorem handleDeleteTask_db (clock : Clock) (taskId : String) : (handleDeleteTask h db clock taskId).2 = db ∨
    (handleDeleteTask h db clock taskId).2 = step db (.updateTaskStatus clock taskId TaskStatus.archived.value {}) := by
  unfold handleDeleteTask
  split
  · exact Or.inl rfl
  split
  · exact Or.inl rfl
  cases hu : updateTaskStatus db clock taskId TaskStatus.archived.value {} with
  | error e => cases e <;> exact Or.inl rfl
  | ok updated => exact Or.inr (by simp [step, hu, Db.tx])

/-- The statuses in which a task may be archived. -/
def Archivable (status : TaskStatus) : Prop := status = .completed ∨ status = .failed ∨ status = .cancelled

variable {h db} in
/-- A deletion succeeds exactly on a task in one of these statuses. -/
theorem handleDeleteTask_status {clock : Clock} {taskId : String} {t : Task} (ht : db.task? taskId = some t) :
    (handleDeleteTask h db clock taskId).1.status = 200 ↔ Archivable t.status := by
  unfold handleDeleteTask
  rw [getTask, ht]
  dsimp only [Option.map]
  split
  · rename_i hstatus
    have hno : ¬ Archivable t.status := by simpa [Archivable, not_or] using hstatus
    simp [hno, jsonError]
  · rename_i hstatus
    have hyes : Archivable t.status := by
      unfold Archivable
      tauto
    have haccepted : Accepted t clock.now .archived .null none := by
      refine ⟨?_, by simp [lockRefused, Json.truthy], by simp, by simp [nextRetry]⟩
      rcases hyes with he | he | he <;> rw [he] <;> decide
    obtain ⟨view, kind, hok⟩ :
        ∃ view kind, updateTaskStatus db clock taskId TaskStatus.archived.value {} =
          .ok (view, writeStatus db clock t .archived {} none kind) := updateTaskStatus_accepted ht haccepted
    simp [hok, hyes]

end Handlers

section Places

variable {ws : WorkspaceManager} {m : Machine} {task row : Task} {path : Path}

/-- An id is the name of a file. -/
theorem parse_id {hex : String} (h : IsHex hex) :
    (Path.parse (freshId hex)).anchor = .relative ∧ (Path.parse (freshId hex)).parts = [freshId hex] := by
  have hletters : (freshId hex).toList = 't' :: '_' :: hex.toList := by simp [freshId]
  refine Path.parse_name ⟨?_, ?_, ?_⟩
  · intro he
    rw [he] at hletters
    cases hletters
  · intro he
    rw [he] at hletters
    cases hletters
  · rw [hletters]
    intro hslash
    have hmem : '/' ∈ hex.toList := by simpa using hslash
    exact absurd (h '/' hmem) (by decide)

theorem id_stays {hex : String} (h : IsHex hex) : ".." ∉ (Path.parse (freshId hex)).parts := by
  rw [(parse_id h).2, List.mem_singleton]
  intro he
  have hletters := congrArg String.toList he
  simp [freshId] at hletters

/-- The directories that are made lie below the root. -/
theorem made_enclosed {hex : String} (h : IsHex hex) (hid : task.id = freshId hex) (hmade : ws.made task = some path) :
    ws.root.Encloses path := by
  obtain ⟨hrel, hparts⟩ := parse_id h
  have hstays := id_stays h
  unfold WorkspaceManager.made at hmade
  rw [hid] at hmade
  split at hmade
  · cases hmade
    exact Path.encloses_join hrel (by simp [hparts]) hstays
  · cases hmade
    have hworktrees : ws.root.Encloses (ws.root.join (.parse "worktrees")) :=
      Path.encloses_join rfl (by decide +kernel) (by decide +kernel)
    exact hworktrees.join hrel hstays
  · cases hmade
  · cases hmade

/-- What is allocated is what is made, where anything is made. -/
theorem allocate_made (h : ws.allocate m task = .ok path) {made : Path} (hmade : ws.made task = some made) :
    path = made := by
  unfold WorkspaceManager.allocate at h
  unfold WorkspaceManager.made at hmade
  split at h
  · cases h
  · rename_i hkind
    rw [hkind] at hmade
    cases hmade
    unfold WorkspaceManager.allocateScratch at h
    dsimp only at h
    split at h
    · cases h
      rfl
    · cases h
  · rename_i hkind
    rw [hkind] at hmade
    cases hmade
  · rename_i hkind
    rw [hkind] at hmade
    cases hmade
    unfold WorkspaceManager.allocateWorktree at h
    dsimp only at h
    repeat' split at h
    all_goals first
      | cases h
        done
      | cases h
        rfl

/-- The directory of a task depends on its id and on the kind of its workspace. -/
theorem made_congr (hid : row.id = task.id) (hkind : row.workspaceKind = task.workspaceKind) :
    ws.made row = ws.made task := by
  unfold WorkspaceManager.made
  rw [hid, hkind]

/-- The tree that a cleanup of the task would remove: that of its path, where the path is there and can be removed,
or where git removes it as a worktree. -/
inductive Removable (m : Machine) (task : Task) : Path → Prop
  | scratch {text : String} (kind : validateKind task.workspaceKind = .ok .scratch)
      (given : given task.workspacePath = some text) (there : m.pathExists (.parse text) = true)
      (removes : m.rmtree (.parse text) = true) : Removable m task (.parse text)
  | worktree {text : String} (kind : validateKind task.workspaceKind = .ok .worktree)
      (given : given task.workspacePath = some text)
      (git : m.gitAvailable (m.worktreeRoot (.parse text)) = true)
      (removes : (m.git (m.worktreeRoot (.parse text)) ["worktree", "remove", (Path.parse text).str]).code = 0) :
      Removable m task (.parse text)

theorem cleanup_iff : cleanup m task = some path ↔ Removable m task path := by
  constructor
  · intro h
    unfold cleanup at h
    split at h
    · rename_i hkind hgiven
      unfold cleanupScratch at h
      split at h
      · rename_i hgoes
        rw [Bool.and_eq_true] at hgoes
        cases h
        exact Removable.scratch hkind hgiven hgoes.1 hgoes.2
      · cases h
    · rename_i hkind hgiven
      unfold cleanupWorktree at h
      split at h
      · rename_i hgoes
        rw [Bool.and_eq_true, beq_iff_eq] at hgoes
        cases h
        exact Removable.worktree hkind hgiven hgoes.1 hgoes.2
      · cases h
    · cases h
  · intro h
    cases h with
    | scratch hkind hgiven hthere hremoves =>
      unfold cleanup
      rw [hkind, hgiven]
      simp [cleanupScratch, hthere, hremoves]
    | worktree hkind hgiven hgit hremoves =>
      unfold cleanup
      rw [hkind, hgiven]
      simp [cleanupWorktree, hgit, hremoves]

/-- A cleanup goes by the path in the row. -/
theorem Removable.path_eq {made : Path} (h : Removable m task path) (hpath : task.workspacePath = some made.str) :
    path = made := by
  have hgiven : ∀ {text}, given task.workspacePath = some text → text = made.str := by
    intro text htext
    rw [hpath, given] at htext
    split at htext
    · exact (Option.some.inj htext).symm
    · cases htext
  cases h with
  | scratch _ htext => rw [hgiven htext, Path.parse_str]
  | worktree _ htext => rw [hgiven htext, Path.parse_str]

end Places

theorem listed_row {db : Db} {args : ListArgs} {t : Task} (h : t ∈ (listTasks db args).1) : db.task? t.id = some t := by
  have hpage : t ∈ (db.tasks.select (args.selects db)).mergeSort (sortColumn args.sort).before := by
    simp only [listTasks, page] at h
    split at h
    · exact List.mem_of_mem_drop h
    · exact List.mem_of_mem_drop (List.mem_of_mem_take h)
  exact Db.mem_tasks.mp (Table.mem_select.mp (List.mem_mergeSort.mp hpage)).1

namespace Workspaces

/-- The ids are names, what is listed has the kind of its row, and a directory made for a task is the one its row
has the path of. -/
structure Coherent (ws : WorkspaceManager) (s : Workspaces) : Prop where
  ids : ∀ k t, s.db.task? k = some t → ∃ hex, IsHex hex ∧ k = freshId hex
  listed : ∀ t ∈ s.listed, ∃ row, s.db.task? t.id = some row ∧ row.workspaceKind = t.workspaceKind
  allocated : ∀ entry ∈ s.allocated, ∃ row, s.db.task? entry.1 = some row ∧ ws.made row = some entry.2 ∧
    row.workspacePath = some entry.2.str

/-- A deletion of a task whose cleanup would remove a tree comes after a dispatch that made a directory for it. -/
def Dispatched (s : Workspaces) : WorkspaceEvent → Prop
  | .delete m _ taskId => ∀ task path, s.db.task? taskId = some task → Archivable task.status →
      Removable m task path → ∃ made, (taskId, made) ∈ s.allocated
  | .post .. | .call .. | .poll .. | .dispatch .. => True

variable {ws : WorkspaceManager} {s : Workspaces}

theorem coherent_empty : Coherent ws .empty :=
  ⟨fun _ _ ht => (nomatch ht), fun _ ht => (nomatch ht), fun _ ht => (nomatch ht)⟩

theorem Coherent.kept {db : Db} (hs : Coherent ws s) (hdb : Kept s.db db) : Coherent ws { s with db := db } := by
  constructor
  case ids =>
    intro k t' ht'
    rcases hdb.ids k t' ht' with hsome | hnew
    · obtain ⟨t, ht⟩ := Option.isSome_iff_exists.mp hsome
      exact hs.ids k t ht
    · exact hnew
  case listed =>
    intro t ht
    obtain ⟨row, hrow, hkind⟩ := hs.listed t ht
    obtain ⟨row', hrow', hkind', _⟩ := hdb.rows _ row hrow
    exact ⟨row', hrow', hkind'.trans hkind⟩
  case allocated =>
    intro entry hentry
    obtain ⟨row, hrow, hmade, hpath⟩ := hs.allocated entry hentry
    obtain ⟨row', hrow', hkind', hpath'⟩ := hdb.rows _ row hrow
    have hid : row'.id = row.id := (Db.task_id hrow').trans (Db.task_id hrow).symm
    exact ⟨row', hrow', (made_congr hid hkind').trans hmade, hpath'.trans hpath⟩

/-- A directory that is allocated becomes the path of its task. -/
theorem Coherent.placed {task row : Task} {path : Path} (hs : Coherent ws s) (hrow : s.db.task? task.id = some row)
    (hkind : row.workspaceKind = task.workspaceKind) (hmade : ∀ made, ws.made task = some made → path = made) :
    Coherent ws { s with
      db := updateWorkspacePath s.db task.id path.str
      allocated := s.allocated ++ (ws.made task).toList.map (fun made => (task.id, made)) } := by
  have hset : ∀ k, (updateWorkspacePath s.db task.id path.str).task? k =
      (s.db.task? k).map (fun t => if k = task.id then { t with workspacePath := some path.str } else t) :=
    fun k => Db.task_setTask s.db task.id (fun t => { t with workspacePath := some path.str }) (fun _ => rfl) k
  have hrow' : (updateWorkspacePath s.db task.id path.str).task? task.id =
      some { row with workspacePath := some path.str } := by
    rw [hset, hrow]
    simp
  have hid : row.id = task.id := Db.task_id hrow
  have hsame : ws.made { row with workspacePath := some path.str } = ws.made task := made_congr hid hkind
  constructor
  case ids =>
    intro k t' ht'
    rw [hset, Option.map_eq_some_iff] at ht'
    obtain ⟨t, ht, _⟩ := ht'
    exact hs.ids k t ht
  case listed =>
    intro t ht
    obtain ⟨u, hu, hukind⟩ := hs.listed t ht
    refine ⟨_, by rw [hset, hu]; rfl, ?_⟩
    split
    · exact hukind
    · exact hukind
  case allocated =>
    intro entry hentry
    rcases List.mem_append.mp hentry with hold | hnew
    · obtain ⟨u, hu, humade, hupath⟩ := hs.allocated entry hold
      by_cases hk : entry.1 = task.id
      · rw [hk] at hu ⊢
        rw [hrow] at hu
        cases hu
        have htask : ws.made task = some entry.2 := (made_congr hid hkind).symm.trans humade
        exact ⟨_, hrow', hsame.trans htask, congrArg (fun p => some (Path.str p)) (hmade _ htask)⟩
      · refine ⟨u, ?_, humade, hupath⟩
        rw [hset, hu]
        simp [hk]
    · obtain ⟨made, hin, rfl⟩ := List.mem_map.mp hnew
      have htask : ws.made task = some made := Option.mem_toList.mp hin
      exact ⟨_, hrow', hsame.trans htask, congrArg (fun p => some (Path.str p)) (hmade _ htask)⟩

theorem Coherent.dispatch {m : Machine} {clock failClock : Clock} {listed : Task} {workerId : String} {pid ttl : Int}
    {viaWorkerCommand : Bool} (hs : Coherent ws s) (hin : listed ∈ s.listed) :
    Coherent ws (s.dispatch ws m clock failClock listed workerId pid ttl viaWorkerCommand) := by
  have hclaim : Kept s.db (claimTask s.db clock listed.id workerId pid ttl).2 :=
    kept_step s.db (.claimTask clock listed.id workerId pid ttl) rfl trivial
  unfold Workspaces.dispatch
  rcases hc : claimTask s.db clock listed.id workerId pid ttl with ⟨_ | claim, db⟩
  · rw [hc] at hclaim
    exact hs.kept hclaim
  rw [hc] at hclaim
  dsimp only
  have hid : ∀ path, (if viaWorkerCommand then { listed with workspacePath := path } else listed).id = listed.id ∧
      (if viaWorkerCommand then { listed with workspacePath := path } else listed).workspaceKind =
        listed.workspaceKind := by
    intro path
    cases viaWorkerCommand <;> exact ⟨rfl, rfl⟩
  generalize htask : (if viaWorkerCommand then { listed with workspacePath := claim.workspacePath } else listed) = task
  obtain ⟨htaskid, htaskkind⟩ := htask ▸ hid claim.workspacePath
  split
  · exact hs.kept (hclaim.trans (kept_step db (.updateTaskStatus ..) rfl trivial))
  · rename_i path hallocated
    have hs' := hs.kept hclaim
    obtain ⟨row, hrow, hkind⟩ := hs'.listed listed hin
    rw [← htaskid] at hrow
    exact hs'.placed hrow (hkind.trans htaskkind.symm) fun made hmade => allocate_made hallocated hmade

variable (h : OrchestrationHandler)

theorem coherent_step (event : WorkspaceEvent) (hs : Coherent ws s) : Coherent ws (step ws h s event) := by
  cases event with
  | post draw caller body fresh =>
    have hkept : Kept s.db (handleCreateTask h s.db draw caller body).2 := by
      rcases handleCreateTask_db h s.db draw caller body with he | ⟨args, he⟩ <;> rw [he]
      · exact Kept.refl s.db
      · exact kept_step s.db (.createTask draw.clock draw.hex args) rfl fresh
    exact hs.kept hkept
  | call op other fresh => exact hs.kept (kept_step s.db op other fresh)
  | poll tenant =>
    have hlisted : ∀ t ∈ (s.poll tenant).listed, s.db.task? t.id = some t := by
      intro t ht
      dsimp only [Workspaces.poll] at ht
      exact listed_row ht
    exact ⟨hs.ids, fun t ht => ⟨t, hlisted t ht, rfl⟩, hs.allocated⟩
  | dispatch m clock failClock task workerId pid ttl viaWorkerCommand =>
    rw [step]
    split
    · rename_i hin
      exact hs.dispatch hin
    · exact hs
  | delete m clock taskId =>
    have hkept : Kept s.db (handleDeleteTask h s.db clock taskId).2 := by
      rcases handleDeleteTask_db h s.db clock taskId with he | he <;> rw [he]
      · exact Kept.refl s.db
      · exact kept_step s.db (.updateTaskStatus clock taskId TaskStatus.archived.value {}) rfl trivial
    have hs' := hs.kept hkept
    exact ⟨hs'.ids, hs'.listed, hs'.allocated⟩

/-- What a deletion removes. -/
theorem delete_removed {m : Machine} {clock : Clock} {taskId : String} {entry : String × Path} :
    entry ∈ (s.delete h m clock taskId).removed ↔ entry ∈ s.removed ∨ entry.1 = taskId ∧
      ∃ task, s.db.task? taskId = some task ∧ Archivable task.status ∧ Removable m task entry.2 := by
  have hgone : entry ∈ (s.delete h m clock taskId).removed ↔ entry ∈ s.removed ∨
      entry.1 = taskId ∧ ∃ task, s.db.task? taskId = some task ∧
        (handleDeleteTask h s.db clock taskId).1.status = 200 ∧ cleanup m task = some entry.2 := by
    simp only [Workspaces.delete, List.mem_append]
    refine or_congr_right ?_
    split
    · rename_i hok
      simp only [List.mem_map, Option.mem_toList, Option.bind_eq_some_iff, hok, true_and]
      constructor
      · intro ⟨path, htask, he⟩
        cases he
        exact ⟨rfl, htask⟩
      · intro ⟨hid, htask⟩
        exact ⟨entry.2, htask, by rw [← hid]⟩
    · rename_i hno
      simp [hno]
  rw [hgone]
  refine or_congr_right (and_congr_right fun _ => exists_congr fun task => and_congr_right fun htask => ?_)
  rw [handleDeleteTask_status htask, cleanup_iff]

/-- A deletion removes nothing else exactly when a directory was made for its task. -/
theorem contained_delete_iff {m : Machine} {clock : Clock} {taskId : String} (hs : Coherent ws s)
    (hc : Contained ws s) :
    Contained ws (s.delete h m clock taskId) ↔ s.Dispatched (.delete m clock taskId) := by
  constructor
  · intro hafter task path htask harchivable hremovable
    exact ⟨path, (hafter (taskId, path)
      ((delete_removed h).mpr (Or.inr ⟨rfl, task, htask, harchivable, hremovable⟩))).1⟩
  · intro hdispatched entry hentry
    rcases (delete_removed h).mp hentry with hold | ⟨hid, task, htask, harchivable, hremovable⟩
    · exact hc entry hold
    · obtain ⟨made, hmade⟩ := hdispatched task entry.2 htask harchivable hremovable
      obtain ⟨row, hrow, hrowmade, hpath⟩ := hs.allocated _ hmade
      have hsame : row = task := Option.some.inj (hrow.symm.trans htask)
      subst hsame
      have hentry' : entry = (taskId, made) := Prod.ext hid (hremovable.path_eq hpath)
      obtain ⟨hex, hhex, hname⟩ := hs.ids _ _ hrow
      rw [hentry']
      exact ⟨hmade, made_enclosed hhex ((Db.task_id hrow).trans hname) hrowmade⟩

theorem contained_step_iff (event : WorkspaceEvent) (hs : Coherent ws s) (hc : Contained ws s) :
    Contained ws (step ws h s event) ↔ s.Dispatched event := by
  cases event with
  | post | call | poll => exact ⟨fun _ => trivial, fun _ => hc⟩
  | dispatch m clock failClock task workerId pid ttl viaWorkerCommand =>
    refine ⟨fun _ => trivial, fun _ => ?_⟩
    rw [step]
    split
    · unfold Workspaces.dispatch
      split
      · exact hc
      · dsimp only
        split
        · exact hc
        · intro entry hentry
          exact ⟨List.mem_append_left _ (hc entry hentry).1, (hc entry hentry).2⟩
    · exact hc
  | delete m clock taskId => exact contained_delete_iff h hs hc

/-- The server removes only directories that it made for the task exactly when it deletes no task whose path
names another tree: one that no dispatch has made a directory for. -/
theorem removal_contained_iff (ws : WorkspaceManager) (h : OrchestrationHandler) (events : List WorkspaceEvent) :
    Always (step ws h) (Contained ws) .empty events ↔ EachStep (step ws h) Dispatched .empty events := by
  have hc : Contained ws .empty := fun _ he => (nomatch he)
  exact always_iff_guarded (fun _ event hs _ => coherent_step h event hs)
    (fun _ event hs hcontained => contained_step_iff h event hs hcontained) coherent_empty hc events

def sampleManager : WorkspaceManager := ⟨.parse "/srv/workspaces"⟩

/-- A machine on which every path is there and can be removed, and no git. -/
def sampleMachine : Machine where
  cwd := .parse "/srv"
  mkdir _ := none
  resolve := .ok
  pathExists _ := true
  isDir _ := true
  rmtree _ := true
  git _ _ := ⟨"", "", 128⟩

/-- A client creates a task with the path of a directory of its own, cancels and deletes it. -/
def postedPath : List WorkspaceEvent :=
  [.post ⟨0, .fixed 0, "0a1b2c3d"⟩ { agentId := "user:admin", scope := "task:write" }
      { title := .str "task", workspaceKind := some "scratch", workspacePath := some "/home/user" } (by decide +kernel),
    .call (.updateTaskStatus (.fixed 1) "t_0a1b2c3d" TaskStatus.cancelled.value {}) rfl trivial,
    .delete sampleMachine (.fixed 2) "t_0a1b2c3d"]

/-- The directory is removed, and the server has made none. -/
theorem posted_path_removed :
    ¬ Always (step sampleManager sampleHandler) (Contained sampleManager) .empty postedPath := by
  intro h
  have hremoved : ("t_0a1b2c3d", Path.parse "/home/user") ∈
      (exec (step sampleManager sampleHandler) .empty postedPath).removed := by decide +kernel
  have hnone : (exec (step sampleManager sampleHandler) .empty postedPath).allocated = [] := by decide +kernel
  have hallocated := (h.last _ hremoved).1
  rw [hnone] at hallocated
  cases hallocated

end Workspaces

end A2ARegistry.Orchestration
