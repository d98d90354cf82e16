import Mathlib.Data.List.Perm.Subperm
import A2ARegistry.Orchestration.Proofs.Listing
import A2ARegistry.Server.PollLoop
import A2ARegistry.Server.Proofs.Terminal

namespace A2ARegistry.Server
open Base Orchestration

section
variable {σ : Type} (dispatch : σ → Task → σ × DispatchResult)

/-- The tasks that are dispatched, up to the first dispatch that raises. -/
def dispatched : σ → List Task → List Task
  | _, [] => []
  | state, task :: tasks =>
    match dispatch state task with
    | (_, .raised) => [task]
    | (state, .counted _) => task :: dispatched state tasks

/-- The dispatches of the tasks, one after the other, all return. -/
def AllReturn : σ → List Task → Prop
  | _, [] => True
  | state, task :: tasks => (dispatch state task).2 ≠ .raised ∧ AllReturn (dispatch state task).1 tasks

theorem dispatched_initial (state : σ) (tasks : List Task) : dispatched dispatch state tasks <+: tasks := by
  induction tasks generalizing state with
  | nil => exact List.prefix_refl []
  | cons task tasks ih =>
    unfold dispatched
    split
    · exact List.prefix_append [task] tasks
    · rename_i state' sent hresult
      exact (List.prefix_cons_inj task).mpr (ih state')

/-- A task is dispatched exactly when the dispatches before it return. -/
theorem mem_dispatched_iff {pre post : List Task} {task : Task} (state : σ) (hnodup : (pre ++ task :: post).Nodup) :
    task ∈ dispatched dispatch state (pre ++ task :: post) ↔ AllReturn dispatch state pre := by
  induction pre generalizing state with
  | nil =>
    have hfirst : task ∈ dispatched dispatch state (task :: post) := by
      unfold dispatched
      split
      · exact List.mem_singleton_self task
      · exact List.mem_cons_self
    exact iff_of_true hfirst trivial
  | cons first pre ih =>
    rw [List.cons_append, List.nodup_cons] at hnodup
    have hne : task ≠ first := by
      intro heq
      exact hnodup.1 (heq ▸ List.mem_append_right pre List.mem_cons_self)
    rw [List.cons_append, dispatched, AllReturn]
    cases hresult : dispatch state first with
    | mk state' result =>
      cases result with
      | raised => simp [hne]
      | counted sent =>
        rw [← ih state' hnodup.2]
        simp [hne]

/-- Tasks of different ids are never taken for dispatched ones, and the loop dispatches each once. -/
theorem spawnEach_calls (tasks : List Task) (s : Spawning σ) (hnodup : (tasks.map Task.id).Nodup)
    (hfresh : ∀ t ∈ tasks, t.id ∉ s.dispatchedIds) :
    (spawnEach dispatch tasks s).calls = s.calls ++ dispatched dispatch s.state tasks := by
  induction tasks generalizing s with
  | nil => exact (List.append_nil s.calls).symm
  | cons task tasks ih =>
    rw [List.map_cons, List.nodup_cons] at hnodup
    have hfirst := hfresh task List.mem_cons_self
    unfold spawnEach dispatched
    rw [if_neg hfirst]
    obtain ⟨state', result⟩ := dispatch s.state task
    cases result with
    | raised => rfl
    | counted sent =>
      have hnew : ∀ t ∈ tasks, t.id ∉ if sent then task.id :: s.dispatchedIds else s.dispatchedIds := by
        intro t ht
        have hold := hfresh t (List.mem_cons_of_mem task ht)
        have hne : t.id ≠ task.id := by
          intro heq
          exact hnodup.1 (heq ▸ List.mem_map_of_mem ht)
        cases sent with
        | true => simp [hne, hold]
        | false => simpa using hold
      simp only
      rw [ih _ hnodup.2 hnew, List.append_assoc]
      rfl

end

section
variable (db : Db) (tenant : Option String)

/-- A task `_claim_and_spawn` is to dispatch: it is ready, in the dispatcher's tenant, and has an assignee. -/
structure Waiting (t : Task) : Prop where
  row : t ∈ db.tasks.rows
  ready : t.status = .ready
  tenant : t.inTenant (given tenant) = true
  assigned : truthy t.assignee = true

theorem readyArgs_selects (t : Task) :
    (readyArgs tenant).selects db t = true ↔ t.status = .ready ∧ t.inTenant (given tenant) = true := by
  rw [selects_status db rfl, Bool.and_eq_true, beq_iff_eq]
  simp [ListArgs.selects, readyArgs]

theorem waiting_iff (t : Task) :
    Waiting db tenant t ↔ t ∈ matching db (readyArgs tenant) ∧ truthy t.assignee = true := by
  rw [matching, Table.mem_select, readyArgs_selects]
  constructor
  · intro h
    exact ⟨⟨h.row, h.ready, h.tenant⟩, h.assigned⟩
  · intro h
    exact ⟨h.1.1, h.1.2.1, h.1.2.2, h.2⟩

/-- The first page of the ready tasks. -/
def readyPage : List Task := (listTasks db (readyArgs tenant)).1

theorem mem_readyPage_iff (t : Task) : t ∈ readyPage db tenant ↔
    t ∈ matching db (readyArgs tenant) ∧ rank SortColumn.priority.before (matching db (readyArgs tenant)) t < 200 := by
  have hcolumn : sortColumn "-priority" = .priority := by decide
  have hpage := mem_firstPage_iff db (readyArgs tenant) 200 t
  simp only [readyArgs, hcolumn] at hpage
  exact hpage

theorem readyPage_eq : readyPage db tenant = slice 200 0 (everything db (readyArgs tenant)) :=
  firstPage_eq db (readyArgs tenant) 200

theorem readyPage_ids : ((readyPage db tenant).map Task.id).Nodup := firstPage_ids db (readyArgs tenant) 200

theorem agenda_eq : agenda db tenant = (groupRows groupKey (readyPage db tenant)).flatMap groupWork := rfl

theorem groupWork_subperm (group : Option String × List Task) : (groupWork group).Subperm group.2 := by
  obtain ⟨key, tasks⟩ := group
  cases key with
  | none => exact List.filter_sublist.subperm.trans (List.mergeSort_perm tasks _).subperm
  | some key => exact List.Subperm.refl tasks

theorem groupWork_assigned (group : Option String × List Task) {t : Task} (ht : t ∈ group.2)
    (ha : truthy t.assignee = true) : t ∈ groupWork group := by
  obtain ⟨key, tasks⟩ := group
  cases key with
  | none => exact List.mem_filter.mpr ⟨(List.mergeSort_perm tasks _).mem_iff.mpr ht, ha⟩
  | some key => exact ht

/-- The loop comes to no task that is not listed, and to none twice. -/
theorem agenda_subperm : (agenda db tenant).Subperm (readyPage db tenant) := by
  have hgroups : ∀ groups : List (Option String × List Task),
      (groups.flatMap groupWork).Subperm (groups.flatMap Prod.snd) := by
    intro groups
    induction groups with
    | nil => exact List.Subperm.refl []
    | cons group groups ih => exact List.Subperm.append (groupWork_subperm group) ih
  rw [agenda_eq]
  exact (hgroups _).trans (groupRows_perm groupKey (readyPage db tenant)).subperm

theorem agenda_ids : ((agenda db tenant).map Task.id).Nodup := by
  obtain ⟨tasks, hperm, hsub⟩ := agenda_subperm db tenant
  have hnodup := (readyPage_ids db tenant).sublist (hsub.map Task.id)
  exact (hperm.map Task.id).nodup_iff.mp hnodup

/-- It comes to every listed task with an assignee. -/
theorem mem_agenda_iff {t : Task} (ha : truthy t.assignee = true) : t ∈ agenda db tenant ↔ t ∈ readyPage db tenant := by
  constructor
  · intro ht
    exact (agenda_subperm db tenant).subset ht
  · intro ht
    have hgrouped := (groupRows_perm groupKey (readyPage db tenant)).mem_iff.mpr ht
    obtain ⟨group, hgroup, hmember⟩ := List.mem_flatMap.mp hgrouped
    rw [agenda_eq]
    exact List.mem_flatMap.mpr ⟨group, hgroup, groupWork_assigned group hmember ha⟩

variable {σ : Type} (dispatch : σ → Task → σ × DispatchResult) (state : σ)

theorem claimAndSpawn_calls :
    (claimAndSpawn dispatch db tenant state).calls = dispatched dispatch state (agenda db tenant) :=
  spawnEach_calls dispatch (agenda db tenant) { state := state } (agenda_ids db tenant) (fun _ _ => List.not_mem_nil)

theorem calls_nodup : (claimAndSpawn dispatch db tenant state).calls.Nodup := by
  rw [claimAndSpawn_calls]
  exact (dispatched_initial dispatch state (agenda db tenant)).sublist.nodup (agenda_ids db tenant).of_map

/-- No call runs `_dispatch_single_task` more often than the page has room for. -/
theorem calls_length_le : (claimAndSpawn dispatch db tenant state).calls.length ≤ 200 := by
  rw [claimAndSpawn_calls]
  calc (dispatched dispatch state (agenda db tenant)).length
      ≤ (agenda db tenant).length := (dispatched_initial dispatch state (agenda db tenant)).length_le
    _ ≤ (readyPage db tenant).length := (agenda_subperm db tenant).length_le
    _ ≤ 200 := firstPage_length_le db (readyArgs tenant) 200

theorem count_calls_iff (t : Task) : (claimAndSpawn dispatch db tenant state).calls.count t = 1 ↔
    t ∈ (claimAndSpawn dispatch db tenant state).calls := by
  constructor
  · intro hcount
    exact List.count_pos_iff.mp (hcount ▸ Nat.one_pos)
  · intro hmem
    exact List.count_eq_one_of_mem (calls_nodup db tenant dispatch state) hmem

/-- Where more than a page of tasks waits, one of them is dispatched and another is not. -/
theorem one_starves (hall : ∀ t ∈ matching db (readyArgs tenant), Waiting db tenant t)
    (hmany : 200 < (matching db (readyArgs tenant)).length) :
    ∃ t u, Waiting db tenant t ∧ Waiting db tenant u ∧ (claimAndSpawn dispatch db tenant state).calls.count t = 1 ∧
      (claimAndSpawn dispatch db tenant state).calls.count u = 0 := by
  have hlength := calls_length_le db tenant dispatch state
  -- more tasks than calls
  obtain ⟨u, hu, hmissed⟩ : ∃ u ∈ matching db (readyArgs tenant),
      u ∉ (claimAndSpawn dispatch db tenant state).calls := by
    by_contra hnone
    have hsub : matching db (readyArgs tenant) ⊆ (claimAndSpawn dispatch db tenant state).calls := by
      intro u hu
      by_contra hmissed
      exact hnone ⟨u, hu, hmissed⟩
    have hle := (List.subperm_of_subset (matching_nodup db (readyArgs tenant)) hsub).length_le
    omega
  -- the first task of the loop is dispatched in any case
  obtain ⟨first, hfirst⟩ : ∃ first, first ∈ readyPage db tenant := by
    apply List.exists_mem_of_length_pos
    rw [readyPage_eq, slice, List.drop_zero, List.length_take, (everything_perm db (readyArgs tenant)).length_eq]
    omega
  have hwaits := hall first ((mem_readyPage_iff db tenant first).mp hfirst).1
  have hagenda := (mem_agenda_iff db tenant hwaits.assigned).mpr hfirst
  obtain ⟨t, rest, hsplit⟩ := List.exists_cons_of_ne_nil (List.ne_nil_of_mem hagenda)
  have hnodup := (agenda_ids db tenant).of_map
  rw [hsplit] at hnodup
  have hcalled : t ∈ dispatched dispatch state (agenda db tenant) := by
    rw [hsplit]
    exact (@mem_dispatched_iff _ dispatch [] rest t state hnodup).mpr trivial
  have ht : t ∈ readyPage db tenant := (agenda_subperm db tenant).subset (hsplit ▸ List.mem_cons_self)
  refine ⟨t, u, hall t ((mem_readyPage_iff db tenant t).mp ht).1, hall u hu, ?_, List.count_eq_zero.mpr hmissed⟩
  rw [count_calls_iff, claimAndSpawn_calls]
  exact hcalled

/-- Every waiting task is dispatched once exactly when fewer than 200 ready tasks come before each of them in the
listing, and the dispatches before each of them return. -/
theorem dispatches_once_iff :
    (∀ t, Waiting db tenant t → (claimAndSpawn dispatch db tenant state).calls.count t = 1) ↔
    (∀ t, Waiting db tenant t → rank SortColumn.priority.before (matching db (readyArgs tenant)) t < 200) ∧
      ∀ pre t post, agenda db tenant = pre ++ t :: post → truthy t.assignee = true → AllReturn dispatch state pre := by
  have honce : ∀ t, (claimAndSpawn dispatch db tenant state).calls.count t = 1 ↔
      t ∈ dispatched dispatch state (agenda db tenant) := by
    intro t
    rw [← claimAndSpawn_calls db tenant dispatch state]
    exact count_calls_iff db tenant dispatch state t
  have hnodup := (agenda_ids db tenant).of_map
  constructor
  · intro hall
    constructor
    · intro t ht
      have hcalled := (honce t).mp (hall t ht)
      have hagenda := (dispatched_initial dispatch state (agenda db tenant)).subset hcalled
      exact ((mem_readyPage_iff db tenant t).mp ((mem_agenda_iff db tenant ht.assigned).mp hagenda)).2
    · intro pre t post hsplit ha
      have hagenda : t ∈ agenda db tenant := hsplit ▸ List.mem_append_right pre List.mem_cons_self
      have hlisted := (mem_readyPage_iff db tenant t).mp ((mem_agenda_iff db tenant ha).mp hagenda)
      have hcalled := (honce t).mp (hall t ((waiting_iff db tenant t).mpr ⟨hlisted.1, ha⟩))
      rw [hsplit] at hcalled hnodup
      exact (mem_dispatched_iff dispatch state hnodup).mp hcalled
  · rintro ⟨hrank, hreturn⟩ t ht
    have hlisted := (mem_readyPage_iff db tenant t).mpr ⟨((waiting_iff db tenant t).mp ht).1, hrank t ht⟩
    have hagenda := (mem_agenda_iff db tenant ht.assigned).mpr hlisted
    obtain ⟨pre, post, hsplit⟩ := List.append_of_mem hagenda
    rw [honce, hsplit]
    rw [hsplit] at hnodup
    exact (mem_dispatched_iff dispatch state hnodup).mpr (hreturn pre t post hsplit ht.assigned)

end

section
variable (e : Engine) (d : Dispatcher) (turns : String → Turn)

/-- A dispatch raises only where a workspace or a send fails. -/
theorem dispatchTask_returns (task : Task) (hworkspace : (turns task.id).inputs.workspace.isOk = true)
    (hsend : (turns task.id).sendError = none) : (d.dispatchTask e turns task).2 ≠ .raised := by
  obtain ⟨path, hpath⟩ : ∃ path, (turns task.id).inputs.workspace = .ok path := by
    cases h : (turns task.id).inputs.workspace with
    | ok path => exact ⟨path, rfl⟩
    | error text =>
      rw [h] at hworkspace
      cases hworkspace
  unfold Dispatcher.dispatchTask
  dsimp only
  split
  · unfold Dispatcher.earlyResult
    rw [hpath]
    split
    · rename_i hbad _
      cases hbad
    · intro h
      cases h
  · unfold Dispatcher.sendResult
    rw [hsend]
    intro h
    cases h
  · intro h
    cases h

/-- The server's own steps leave the attempt of the poll loop alone. -/
theorem waits_attempt (meanwhile : List Event) : (d.waits e meanwhile).attempt = d.attempt := by
  unfold Dispatcher.waits
  induction meanwhile generalizing d with
  | nil => rfl
  | cons ev meanwhile ih =>
    have hstep : ((DispatcherEvent.server ev).step e d).attempt = d.attempt := by
      unfold DispatcherEvent.step
      dsimp only
      split
      · rfl
      · rfl
    rw [List.map_cons, exec_cons, ih, hstep]

theorem sendEnds_step {sent : Sending} (h : d.attempt = some (.send sent)) (times : PollClock)
    (error : Option DispatchError) :
    (DispatcherEvent.sendEnds times error).step e d = d.endSend e times sent error := by
  simp only [DispatcherEvent.step, h]

theorem spawnEnds_step {taskId assignee : String} (h : d.attempt = some (.spawn taskId assignee)) (times : PollClock)
    (process : Except String Int) :
    (DispatcherEvent.spawnEnds times process).step e d = d.endSpawn e times taskId assignee process := by
  simp only [DispatcherEvent.step, h]

/-- One dispatch is a run of the server with its dispatcher. -/
theorem dispatchTask_run (task : Task) :
    ∃ evs : List DispatcherEvent, (d.dispatchTask e turns task).1 = exec (DispatcherEvent.step e) d evs := by
  let turn := turns task.id
  let first := DispatcherEvent.dispatches turn.times ⟨task.id, task.assignee⟩ turn.route turn.inputs
  unfold Dispatcher.dispatchTask
  dsimp only
  split
  · exact ⟨[first], rfl⟩
  · rename_i sent hattempt
    refine ⟨first :: (turn.meanwhile.map .server ++ [.sendEnds turn.ended turn.sendError]), ?_⟩
    rw [exec_cons, exec_append]
    have hwaits := (waits_attempt e (first.step e d) turn.meanwhile).trans hattempt
    exact (sendEnds_step e _ hwaits turn.ended turn.sendError).symm
  · rename_i taskId assignee hattempt
    refine ⟨first :: (turn.meanwhile.map .server ++ [.spawnEnds turn.ended turn.process]), ?_⟩
    rw [exec_cons, exec_append]
    have hwaits := (waits_attempt e (first.step e d) turn.meanwhile).trans hattempt
    exact (spawnEnds_step e _ hwaits turn.ended turn.process).symm

/-- So is the whole of `_claim_and_spawn`, with its calls of `_dispatch_single_task` in their order. -/
theorem claimAndSpawn_run (tenant : Option String) : ∃ evs : List DispatcherEvent,
    (d.claimAndSpawn e tenant turns).state = exec (DispatcherEvent.step e) d evs := by
  have hloop : ∀ (tasks : List Task) (s : Spawning Dispatcher), ∃ evs : List DispatcherEvent,
      (spawnEach (fun d task => d.dispatchTask e turns task) tasks s).state =
        exec (DispatcherEvent.step e) s.state evs := by
    intro tasks
    induction tasks with
    | nil => exact fun s => ⟨[], rfl⟩
    | cons task tasks ih =>
      intro s
      obtain ⟨evs, hevs⟩ := dispatchTask_run e s.state turns task
      unfold spawnEach
      split
      · exact ih s
      · split
        · rename_i state hresult
          exact ⟨evs, by rw [← hevs, hresult]⟩
        · rename_i state sent hresult
          obtain ⟨rest, hrest⟩ := ih
            { s with
              state := state
              calls := s.calls ++ [task]
              claimedCount := s.claimedCount + sent.toNat
              dispatchedIds := if sent then task.id :: s.dispatchedIds else s.dispatchedIds }
          refine ⟨evs ++ rest, ?_⟩
          rw [exec_append, ← hevs, hresult]
          exact hrest
  exact hloop _ _

/-- One call of `_claim_and_spawn` runs `_dispatch_single_task` once for every task it is to dispatch exactly when
fewer than 200 ready tasks of the tenant come before each of them in the listing, and the dispatches before each of
them return. -/
theorem Dispatcher.ready_dispatched_iff (tenant : Option String) :
    (∀ t, Waiting d.taskStore tenant t → (d.claimAndSpawn e tenant turns).calls.count t = 1) ↔
    (∀ t, Waiting d.taskStore tenant t →
      rank SortColumn.priority.before (matching d.taskStore (readyArgs tenant)) t < 200) ∧
    ∀ pre t post, agenda d.taskStore tenant = pre ++ t :: post → truthy t.assignee = true →
      AllReturn (fun d task => d.dispatchTask e turns task) d pre :=
  dispatches_once_iff d.taskStore tenant (fun (d : Dispatcher) task => d.dispatchTask e turns task) d

end

/-- A task for an agent `a`, in a group. -/
def memberArgs : CreateArgs where
  title := "a"
  assignee := some "a"
  parallelGroup := some "g"

/-- A store with a group of `n` ready tasks. -/
def groupStore (n : Nat) : Db := crowd memberArgs n

theorem groupStore_rows (n : Nat) :
    (groupStore n).tasks.rows = (List.range n).map (fun i => memberArgs.row 0 (numberedHex i)) := crowd_rows rfl n

theorem groupStore_waiting {n : Nat} {t : Task} (h : t ∈ (groupStore n).tasks.rows) :
    Waiting (groupStore n) none t ∧ t.parallelGroup = some "g" := by
  have hrow := h
  rw [groupStore_rows] at hrow
  obtain ⟨i, _, rfl⟩ := List.mem_map.mp hrow
  exact ⟨⟨h, rfl, rfl, rfl⟩, rfl⟩

/-- Dispatches that all go through at once. -/
def readyTurns (_ : String) : Turn := ⟨.still, .ws, ⟨1, 900, .ok "/tmp"⟩, [], .still, none, .ok 1⟩

/-- What the poll loop of a server dispatches, from a store with a group of `n` ready tasks. -/
def groupCalls (n : Nat) : List Task :=
  ((Dispatcher.start (groupStore n) {}).claimAndSpawn idleEngine none readyTurns).calls

theorem group_starves {n : Nat} (hmany : 200 < n) :
    ∃ t u, Waiting (groupStore n) none t ∧ Waiting (groupStore n) none u ∧ t.parallelGroup = some "g" ∧
      u.parallelGroup = some "g" ∧ (groupCalls n).count t = 1 ∧ (groupCalls n).count u = 0 := by
  have hrow : ∀ t, t ∈ matching (groupStore n) (readyArgs none) → t ∈ (groupStore n).tasks.rows :=
    fun t ht => (Table.mem_select.mp ht).1
  have hall : matching (groupStore n) (readyArgs none) = (groupStore n).tasks.rows := by
    apply List.filter_eq_self.mpr
    intro t ht
    have hwaiting := (groupStore_waiting ht).1
    exact (readyArgs_selects (groupStore n) none t).mpr ⟨hwaiting.ready, hwaiting.tenant⟩
  have hmatching : 200 < (matching (groupStore n) (readyArgs none)).length := by
    rw [hall, groupStore_rows, List.length_map, List.length_range]
    exact hmany
  obtain ⟨t, u, ht, hu, hcalled, hmissed⟩ := one_starves (groupStore n) none
    (fun (d : Dispatcher) task => d.dispatchTask idleEngine readyTurns task) (Dispatcher.start (groupStore n) {})
    (fun t ht => (groupStore_waiting (hrow t ht)).1) hmatching
  exact ⟨t, u, ht, hu, (groupStore_waiting ht.row).2, (groupStore_waiting hu.row).2, hcalled, hmissed⟩

/-- Of a group of 201 ready tasks one is dispatched and another is not. -/
theorem group_split : ∃ t u, Waiting (groupStore 201) none t ∧ Waiting (groupStore 201) none u ∧
    t.parallelGroup = some "g" ∧ u.parallelGroup = some "g" ∧ (groupCalls 201).count t = 1 ∧
      (groupCalls 201).count u = 0 :=
  group_starves (by decide)

end A2ARegistry.Server
