import A2ARegistry.Orchestration.AnomalyScanner
import A2ARegistry.Orchestration.Proofs.Listing
import A2ARegistry.Orchestration.Proofs.Rows

namespace A2ARegistry.Orchestration
open Base

/-- The failing of the task would set a retry time that overflows. -/
def overflows (t : Task) : Bool :=
  t.maxRetries.any (fun limit => ((t.consecutiveFailures + 1 : Nat) : Int) ≤ limit) && 1024 ≤ t.consecutiveFailures

/-- The row of a task that has failed once more. -/
structure FailedOnce (t t' : Task) : Prop where
  status : t'.status = .failed
  counted : t'.consecutiveFailures = t.consecutiveFailures + 1

theorem nextRetry_ok_iff (now : Int) (t : Task) :
    (∃ retryAt, nextRetry now t .failed = .ok retryAt) ↔ overflows t = false := by
  unfold nextRetry overflows
  cases t.maxRetries with
  | none => simp
  | some limit =>
    dsimp only
    generalize ((t.consecutiveFailures + 1 : Nat) : Int) = failures
    by_cases hlimit : failures ≤ limit
    · rw [if_pos hlimit]
      unfold backoffDelay
      by_cases hlarge : 1024 ≤ t.consecutiveFailures
      · simp [hlarge, hlimit, Except.map]
      · simp [hlarge, Except.map]
    · rw [if_neg hlimit]
      simp [hlimit]

section
variable (clocks : String → Clock) (db : Db) (a : Anomaly) {t : Task}

/-- A running task is failed, and nothing else changes. -/
theorem failKanbanTask_fails (ht : db.task? a.taskId = some t) (hrunning : t.status = .running)
    (hsafe : overflows t = false) :
    ∃ t', FailedOnce t t' ∧
      ∀ k, (failKanbanTask clocks db a).task? k = if k = a.taskId then some t' else db.task? k := by
  let args : StatusArgs := { result := some a.reason }
  obtain ⟨retryAt, hretry⟩ := (nextRetry_ok_iff (clocks a.taskId).now t).mpr hsafe
  have haccepted : Accepted t (clocks a.taskId).now .failed args.claimLock retryAt := by
    refine ⟨?_, ?_, ?_, hretry⟩
    · rw [hrunning]
      decide
    · simp [lockRefused, args, Json.truthy]
    · simp [hrunning]
  obtain ⟨view, kind, hok⟩ := @updateTaskStatus_accepted db (clocks a.taskId) a.taskId args t _ retryAt ht haccepted
  have hid : t.id = a.taskId := Db.task_id ht
  have hrow : db.task? t.id = some t := hid ▸ ht
  refine ⟨t.move (clocks a.taskId).now .failed args.result retryAt, ⟨rfl, rfl⟩, fun k => ?_⟩
  have hstep : failKanbanTask clocks db a = writeStatus db (clocks a.taskId) t .failed args retryAt kind :=
    step_updateTaskStatus hok
  rw [hstep, writeStatus_task db (clocks a.taskId) t .failed args retryAt kind hrow, hid]
  simp

theorem failKanbanTask_overflows (ht : db.task? a.taskId = some t) (hover : overflows t = true) :
    failKanbanTask clocks db a = db := by
  cases hu : updateTaskStatus db (clocks a.taskId) a.taskId TaskStatus.failed.value { result := some a.reason } with
  | ok r =>
    obtain ⟨u, new, retryAt, kind, hrow, hvalue, haccepted, _⟩ := updateTaskStatus_ok hu
    rw [ht] at hrow
    cases hrow
    have hnew : new = .failed := TaskStatus.value_injective hvalue
    subst hnew
    have hsafe := (nextRetry_ok_iff _ t).mp ⟨retryAt, haccepted.retry⟩
    rw [hover] at hsafe
    cases hsafe
  | error e =>
    unfold failKanbanTask step
    dsimp only
    rw [hu]
    rfl

/-- The failing of several running tasks, each once. -/
theorem failAll_rows (anomalies : List Anomaly) (db : Db) (hnodup : (anomalies.map Anomaly.taskId).Nodup)
    (hrunning : ∀ a ∈ anomalies, ∃ t, db.task? a.taskId = some t ∧ t.status = .running) {k : String} {t : Task}
    (ht : db.task? k = some t) :
    ∃ t', (anomalies.foldl (failKanbanTask clocks) db).task? k = some t' ∧
      if k ∈ anomalies.map Anomaly.taskId ∧ overflows t = false then FailedOnce t t' else t' = t := by
  induction anomalies generalizing db t with
  | nil => exact ⟨t, ht, by simp⟩
  | cons a anomalies ih =>
    rw [List.map_cons, List.nodup_cons] at hnodup
    obtain ⟨u, hu, hstatus⟩ := hrunning a List.mem_cons_self
    rw [List.foldl_cons]
    have hrest : ∀ b ∈ anomalies, b.taskId ≠ a.taskId ∧ ∃ v, db.task? b.taskId = some v ∧ v.status = .running := by
      intro b hb
      exact ⟨fun heq => hnodup.1 (heq ▸ List.mem_map_of_mem hb), hrunning b (List.mem_cons_of_mem a hb)⟩
    cases hover : overflows u with
    | true =>
      rw [failKanbanTask_overflows clocks db a hu hover]
      obtain ⟨t', ht', hrow⟩ := ih db hnodup.2 (fun b hb => (hrest b hb).2) ht
      refine ⟨t', ht', ?_⟩
      by_cases hk : k = a.taskId
      · rw [hk, hu] at ht
        cases ht
        rw [if_neg (by simp [hover])] at hrow ⊢
        exact hrow
      · simpa [hk] using hrow
    | false =>
      obtain ⟨u', hfailed, htask⟩ := failKanbanTask_fails clocks db a hu hstatus hover
      have hrunning' : ∀ b ∈ anomalies, ∃ v, (failKanbanTask clocks db a).task? b.taskId = some v ∧
          v.status = .running := by
        intro b hb
        obtain ⟨hne, v, hv, hs⟩ := hrest b hb
        exact ⟨v, by rw [htask, if_neg hne, hv], hs⟩
      by_cases hk : k = a.taskId
      · have hmoved : (failKanbanTask clocks db a).task? k = some u' := by rw [htask, if_pos hk]
        obtain ⟨t', ht', hrow⟩ := ih _ hnodup.2 hrunning' hmoved
        rw [if_neg (fun hmem => hnodup.1 (hk ▸ hmem.1))] at hrow
        rw [hk, hu] at ht
        cases ht
        refine ⟨t', ht', ?_⟩
        rw [if_pos ⟨hk ▸ List.mem_cons_self, hover⟩, hrow]
        exact hfailed
      · have hkept : (failKanbanTask clocks db a).task? k = some t := by rw [htask, if_neg hk, ht]
        obtain ⟨t', ht', hrow⟩ := ih _ hnodup.2 hrunning' hkept
        refine ⟨t', ht', ?_⟩
        simpa [hk] using hrow

theorem failAll_absent (anomalies : List Anomaly) (db : Db) {k : String} (hk : db.task? k = none) :
    (anomalies.foldl (failKanbanTask clocks) db).task? k = none := by
  induction anomalies generalizing db with
  | nil => exact hk
  | cons a anomalies ih =>
    apply ih
    cases hrow : (failKanbanTask clocks db a).task? k with
    | none => rfl
    | some t =>
      obtain ⟨clock, hex, args, u, hop, _⟩ := step_created hk hrow
      cases hop

end

section
variable (reason : Task → Option String) (db : Db)

/-- The running tasks. -/
def runningRows : List Task := matching db runningArgs

theorem mem_runningRows (t : Task) : t ∈ runningRows db ↔ db.task? t.id = some t ∧ t.status = .running := by
  rw [runningRows, matching, Table.mem_select, Db.mem_tasks, selects_status db rfl, Bool.and_eq_true, beq_iff_eq]
  simp [ListArgs.selects, runningArgs, Task.inTenant]

/-- A task on the first page of the running ones, with a reason to be failed. -/
def reachedBy (rows : List Task) (t : Task) : Bool :=
  (reason t).isSome && rank SortColumn.createdAt.before rows t < 500

theorem mem_page (t : Task) : t ∈ (listTasks db runningArgs).1 ↔
    t ∈ runningRows db ∧ rank SortColumn.createdAt.before (runningRows db) t < 500 := by
  have hcolumn : sortColumn "-created_at" = .createdAt := by decide
  have hpage := mem_firstPage_iff db runningArgs 500 t
  simp only [runningArgs, hcolumn] at hpage
  exact hpage

theorem detect_taskIds : (detect reason db).map Anomaly.taskId =
    ((listTasks db runningArgs).1.filter (fun t => (reason t).isSome)).map Task.id := by
  unfold detect
  induction (listTasks db runningArgs).1 with
  | nil => rfl
  | cons t rows ih =>
    cases hreason : reason t with
    | none => simpa [hreason] using ih
    | some why => simpa [hreason] using ih

theorem detect_ids : ((detect reason db).map Anomaly.taskId).Nodup := by
  rw [detect_taskIds]
  exact (firstPage_ids db runningArgs 500).sublist (List.filter_sublist.map Task.id)

theorem mem_detect {k : String} {t : Task} (ht : db.task? k = some t) :
    k ∈ (detect reason db).map Anomaly.taskId ↔ t.status = .running ∧ reachedBy reason (runningRows db) t = true := by
  have hid : t.id = k := Db.task_id ht
  have hpage : k ∈ (detect reason db).map Anomaly.taskId ↔
      t ∈ (listTasks db runningArgs).1 ∧ (reason t).isSome = true := by
    rw [detect_taskIds]
    constructor
    · intro hmem
      obtain ⟨u, hu, huid⟩ := List.mem_map.mp hmem
      obtain ⟨hlisted, hreason⟩ := List.mem_filter.mp hu
      have hrow := ((mem_runningRows db u).mp ((mem_page db u).mp hlisted).1).1
      rw [huid, ht] at hrow
      cases hrow
      exact ⟨hlisted, hreason⟩
    · rintro ⟨hlisted, hreason⟩
      exact List.mem_map.mpr ⟨t, List.mem_filter.mpr ⟨hlisted, hreason⟩, hid⟩
  have hrow : db.task? t.id = some t := hid ▸ ht
  rw [hpage, mem_page, mem_runningRows, reachedBy, Bool.and_eq_true, decide_eq_true_iff]
  tauto

theorem detect_running : ∀ a ∈ detect reason db, ∃ t, db.task? a.taskId = some t ∧ t.status = .running := by
  intro a ha
  have hmem : a.taskId ∈ (detect reason db).map Anomaly.taskId := List.mem_map_of_mem ha
  rw [detect_taskIds] at hmem
  obtain ⟨t, ht, hid⟩ := List.mem_map.mp hmem
  have hrow := (mem_runningRows db t).mp ((mem_page db t).mp (List.mem_filter.mp ht).1).1
  exact ⟨t, hid ▸ hrow.1, hrow.2⟩

/-- What a detector's step makes of a row. -/
theorem detect_fails (clocks : String → Clock) {k : String} {t : Task} (ht : db.task? k = some t) :
    ∃ t', ((detect reason db).foldl (failKanbanTask clocks) db).task? k = some t' ∧
      if t.status = .running ∧ reachedBy reason (runningRows db) t = true ∧ overflows t = false then FailedOnce t t'
      else t' = t := by
  obtain ⟨t', ht', hrow⟩ :=
    failAll_rows clocks (detect reason db) db (detect_ids reason db) (detect_running reason db) ht
  refine ⟨t', ht', ?_⟩
  simp only [mem_detect reason db ht, and_assoc] at hrow
  exact hrow

end

section
variable (connected : String → Bool) (now : Rat) (clocks : ScanClocks) (db : Db)

/-- The running tasks that the first step leaves running. -/
def stillRunning : List Task :=
  (runningRows db).filter (fun t => !reachedBy (orphanReason connected now) (runningRows db) t || overflows t)

/-- The database between the steps. -/
def betweenSteps : Db := (detectOrphans connected now db).foldl (failKanbanTask clocks.orphans) db

theorem running_between :
    (runningRows (betweenSteps connected now clocks db)).Perm (stillRunning connected now db) := by
  have hbetween : (runningRows (betweenSteps connected now clocks db)).Nodup := matching_nodup _ _
  have hstill : (stillRunning connected now db).Nodup := (matching_nodup db runningArgs).filter _
  rw [List.perm_ext_iff_of_nodup hbetween hstill]
  intro t
  rw [stillRunning, mem_runningRows, List.mem_filter, mem_runningRows, Bool.or_eq_true, Bool.not_eq_true']
  constructor
  · rintro ⟨hrow, hstatus⟩
    cases hold : db.task? t.id with
    | none =>
      have habsent := failAll_absent clocks.orphans (detectOrphans connected now db) db hold
      have hrow : ((detectOrphans connected now db).foldl (failKanbanTask clocks.orphans) db).task? t.id = some t :=
        hrow
      rw [habsent] at hrow
      cases hrow
    | some u =>
      obtain ⟨t', ht', hfails⟩ := detect_fails (orphanReason connected now) db clocks.orphans hold
      have hrow : some t = some t' := hrow.symm.trans ht'
      cases hrow
      split at hfails
      · rw [hfails.status] at hstatus
        cases hstatus
      · rename_i hspared
        subst hfails
        refine ⟨⟨rfl, hstatus⟩, ?_⟩
        cases hover : overflows t with
        | true => exact Or.inr rfl
        | false =>
          left
          simpa [hstatus, hover] using hspared
  · rintro ⟨⟨hrow, hstatus⟩, hspared⟩
    obtain ⟨t', ht', hfails⟩ := detect_fails (orphanReason connected now) db clocks.orphans hrow
    rw [if_neg (by rcases hspared with h | h <;> simp [h])] at hfails
    subst hfails
    exact ⟨ht', hstatus⟩

/-- What a scan makes of a row. -/
theorem scanCycle_row {k : String} {t : Task} (ht : db.task? k = some t) :
    ∃ t', (scanCycle connected now clocks db).1.task? k = some t' ∧
      if t.status = .running ∧ overflows t = false ∧
          (reachedBy (orphanReason connected now) (runningRows db) t = true ∨
            reachedBy (timeoutReason now) (stillRunning connected now db) t = true) then FailedOnce t t'
      else t' = t := by
  have hrank : reachedBy (timeoutReason now) (runningRows (betweenSteps connected now clocks db)) =
      reachedBy (timeoutReason now) (stillRunning connected now db) := by
    funext u
    rw [reachedBy, rank_perm (running_between connected now clocks db), reachedBy]
  obtain ⟨u, hu, hfirst⟩ := detect_fails (orphanReason connected now) db clocks.orphans ht
  have hu : (betweenSteps connected now clocks db).task? k = some u := hu
  obtain ⟨t', ht', hsecond⟩ :=
    detect_fails (timeoutReason now) (betweenSteps connected now clocks db) clocks.timeouts hu
  rw [hrank] at hsecond
  refine ⟨t', ht', ?_⟩
  split at hfirst
  · rename_i horphan
    rw [if_neg (by simp [hfirst.status])] at hsecond
    rw [if_pos ⟨horphan.1, horphan.2.2, Or.inl horphan.2.1⟩, hsecond]
    exact hfirst
  · rename_i hspared
    subst hfirst
    split at hsecond
    · rename_i htimeout
      rw [if_pos ⟨htimeout.1, htimeout.2.2, Or.inr htimeout.2.1⟩]
      exact hsecond
    · rename_i hkept
      rw [if_neg (by tauto)]
      exact hsecond

/-- The last sign of life of a task: its last heartbeat, or its start, or its creation. -/
def lastSeen (t : Task) : Int := (t.lastHeartbeatAt.or t.startedAt).getD t.createdAt

/-- The agent of the task is not connected, and has given no sign of life for 120 seconds. -/
def Orphaned (t : Task) : Prop :=
  ∃ assignee, given t.assignee = some assignee ∧ connected assignee = false ∧
    ∀ heartbeat : Int, t.lastHeartbeatAt = some heartbeat → 120 ≤ now - heartbeat

/-- The task has run for longer than it may. -/
def Overdue (t : Task) : Prop :=
  ∃ maxRuntime : Int, t.maxRuntimeSeconds = some maxRuntime ∧ 0 < maxRuntime ∧ maxRuntime ≤ now - lastSeen t

/-- A running task that a scan is to fail. -/
def Anomalous (t : Task) : Prop := t.status = .running ∧ (Orphaned connected now t ∨ Overdue now t)

theorem nonzero_eq {time : Option Int} (h : time ≠ some 0) : nonzero time = time := by
  cases time with
  | none => rfl
  | some n =>
    have hn : n ≠ 0 := fun heq => h (by rw [heq])
    simp [nonzero, Option.filter, hn]

/-- The orphan detector takes a heartbeat at zero for none. -/
theorem orphanReason_isSome {t : Task} (hheartbeat : t.lastHeartbeatAt ≠ some 0) :
    (orphanReason connected now t).isSome = true ↔ Orphaned connected now t := by
  unfold orphanReason Orphaned
  rw [nonzero_eq hheartbeat]
  cases given t.assignee with
  | none => simp
  | some assignee =>
    cases hconnected : connected assignee with
    | true => simp [hconnected]
    | false =>
      cases t.lastHeartbeatAt with
      | none => simp [hconnected]
      | some heartbeat => simp [hconnected]

/-- The timeout detector takes a time at zero for none. -/
theorem timeoutReason_isSome {t : Task} (hheartbeat : t.lastHeartbeatAt ≠ some 0) (hstarted : t.startedAt ≠ some 0) :
    (timeoutReason now t).isSome = true ↔ Overdue now t := by
  unfold timeoutReason Overdue lastSeen
  rw [nonzero_eq hheartbeat, nonzero_eq hstarted]
  cases t.maxRuntimeSeconds with
  | none => simp
  | some maxRuntime =>
    by_cases hpositive : maxRuntime ≤ 0
    · simp [hpositive, not_lt.mpr hpositive]
    · simp [hpositive, not_le.mp hpositive]

/-- The scan fails the anomalous tasks, each once, and leaves the others as they are. -/
def ExactScan : Prop :=
  ∀ k t, db.task? k = some t → ∃ t', (scanCycle connected now clocks db).1.task? k = some t' ∧
    (Anomalous connected now t → FailedOnce t t') ∧ (¬ Anomalous connected now t → t' = t)

/-- The pages of the two steps reach the anomalous tasks, whose failing does not overflow, and no others. -/
structure Covered : Prop where
  reached : ∀ t ∈ runningRows db, Anomalous connected now t → overflows t = false ∧
    (reachedBy (orphanReason connected now) (runningRows db) t = true ∨
      reachedBy (timeoutReason now) (stillRunning connected now db) t = true)
  spared : ∀ t ∈ runningRows db, ¬ Anomalous connected now t → overflows t = true ∨
    reachedBy (orphanReason connected now) (runningRows db) t = false ∧
      reachedBy (timeoutReason now) (stillRunning connected now db) t = false

theorem FailedOnce.differ {t : Task} (hrunning : t.status = .running) : ¬ FailedOnce t t := by
  intro hfailed
  rw [hfailed.status] at hrunning
  cases hrunning

theorem ExactScan.covered (hexact : ExactScan connected now clocks db) : Covered connected now db := by
  constructor
  · intro t ht hanomalous
    obtain ⟨hrow, hrunning⟩ := (mem_runningRows db t).mp ht
    obtain ⟨t', ht', hfails, _⟩ := hexact t.id t hrow
    obtain ⟨u, hu, hscan⟩ := scanCycle_row connected now clocks db hrow
    rw [ht'] at hu
    cases hu
    split at hscan
    · rename_i hreached
      exact hreached.2
    · rw [hscan] at hfails
      exact absurd (hfails hanomalous) (FailedOnce.differ hrunning)
  · intro t ht hnormal
    obtain ⟨hrow, hrunning⟩ := (mem_runningRows db t).mp ht
    obtain ⟨t', ht', _, hkept⟩ := hexact t.id t hrow
    obtain ⟨u, hu, hscan⟩ := scanCycle_row connected now clocks db hrow
    rw [ht'] at hu
    cases hu
    rw [hkept hnormal] at hscan
    split at hscan
    · exact absurd hscan (FailedOnce.differ hrunning)
    · rename_i hspared
      cases hover : overflows t with
      | true => exact Or.inl rfl
      | false =>
        right
        simpa [hrunning, hover] using hspared

/-- A scan is exact exactly when its pages, of 500 tasks each and the newest first, reach the anomalous tasks. -/
theorem scan_exact_iff : ExactScan connected now clocks db ↔ Covered connected now db := by
  constructor
  · exact ExactScan.covered connected now clocks db
  · intro hcovered k t ht
    obtain ⟨t', ht', hscan⟩ := scanCycle_row connected now clocks db ht
    have hid : t.id = k := Db.task_id ht
    have hrow : db.task? t.id = some t := hid ▸ ht
    refine ⟨t', ht', fun hanomalous => ?_, fun hnormal => ?_⟩
    · have hrunning := (mem_runningRows db t).mpr ⟨hrow, hanomalous.1⟩
      rw [if_pos ⟨hanomalous.1, hcovered.reached t hrunning hanomalous⟩] at hscan
      exact hscan
    · split at hscan
      · rename_i hreached
        have hrunning := (mem_runningRows db t).mpr ⟨hrow, hreached.1⟩
        rcases hcovered.spared t hrunning hnormal with hover | ⟨horphan, htimeout⟩
        · rw [hover] at hreached
          exact absurd hreached.2.1 (by decide)
        · rw [horphan, htimeout] at hreached
          exact absurd hreached.2.2 (by decide)
      · exact hscan

/-- Where no running task has a time of zero, only the size of the pages and the overflow matter. -/
theorem covered_iff (htimes : ∀ t ∈ runningRows db, t.lastHeartbeatAt ≠ some 0 ∧ t.startedAt ≠ some 0) :
    Covered connected now db ↔ ∀ t ∈ runningRows db, Anomalous connected now t → overflows t = false ∧
      (Orphaned connected now t ∧ rank SortColumn.createdAt.before (runningRows db) t < 500 ∨
        Overdue now t ∧ rank SortColumn.createdAt.before (stillRunning connected now db) t < 500) := by
  have horphan : ∀ t ∈ runningRows db, ∀ rows, reachedBy (orphanReason connected now) rows t = true ↔
      Orphaned connected now t ∧ rank SortColumn.createdAt.before rows t < 500 := by
    intro t ht rows
    rw [reachedBy, Bool.and_eq_true, orphanReason_isSome connected now (htimes t ht).1, decide_eq_true_iff]
  have htimeout : ∀ t ∈ runningRows db, ∀ rows, reachedBy (timeoutReason now) rows t = true ↔
      Overdue now t ∧ rank SortColumn.createdAt.before rows t < 500 := by
    intro t ht rows
    rw [reachedBy, Bool.and_eq_true, timeoutReason_isSome now (htimes t ht).1 (htimes t ht).2, decide_eq_true_iff]
  constructor
  · intro hcovered t ht hanomalous
    have hreached := hcovered.reached t ht hanomalous
    rw [horphan t ht, htimeout t ht] at hreached
    exact hreached
  · intro hall
    refine ⟨fun t ht hanomalous => ?_, fun t ht hnormal => Or.inr ?_⟩
    · rw [horphan t ht, htimeout t ht]
      exact hall t ht hanomalous
    · have hrunning := ((mem_runningRows db t).mp ht).2
      have hneither : ¬ (Orphaned connected now t ∨ Overdue now t) := fun h => hnormal ⟨hrunning, h⟩
      rw [← Bool.not_eq_true, ← Bool.not_eq_true, horphan t ht, htimeout t ht]
      tauto

end

/-- A task for an agent `a`. -/
def strayArgs : CreateArgs where
  title := "a"
  assignee := some "a"

/-- A store with `n` tasks of the agent, all set to running. -/
def strayStore (n : Nat) : Db :=
  { crowd strayArgs n with
    tasks := (crowd strayArgs n).tasks.modify (fun _ => true) (fun t => { t with status := .running }) }

theorem strayStore_rows (n : Nat) : (strayStore n).tasks.rows =
    (List.range n).map (fun i => { strayArgs.row 0 (numberedHex i) with status := .running }) := by
  have hrows : (strayStore n).tasks.rows =
      (crowd strayArgs n).tasks.rows.map (fun t => { t with status := .running }) := rfl
  rw [hrows, crowd_rows rfl, List.map_map]
  rfl

/-- Of more running tasks than a page has, all orphans, one is not failed. -/
theorem strays_missed {n : Nat} (hmany : 500 < n) (now : Rat) (clocks : ScanClocks) :
    ¬ ExactScan (fun _ => false) now clocks (strayStore n) := by
  intro hexact
  have hcovered := ExactScan.covered (fun _ => false) now clocks (strayStore n) hexact
  have hsub : (strayStore n).tasks.rows ⊆ (listTasks (strayStore n) runningArgs).1 := by
    intro t ht
    have hrow := ht
    rw [strayStore_rows] at hrow
    obtain ⟨i, _, rfl⟩ := List.mem_map.mp hrow
    have hrunning := (mem_runningRows (strayStore n) _).mpr ⟨Table.find_mem ht, rfl⟩
    have hassignee : given (some "a") = some "a" := by decide
    have horphaned : Orphaned (fun _ => false) now { strayArgs.row 0 (numberedHex i) with status := .running } :=
      ⟨"a", hassignee, rfl, fun heartbeat hnone => nomatch hnone⟩
    rcases (hcovered.reached _ hrunning ⟨rfl, Or.inl horphaned⟩).2 with horphan | htimeout
    · rw [reachedBy, Bool.and_eq_true, decide_eq_true_iff] at horphan
      exact (mem_page (strayStore n) _).mpr ⟨hrunning, horphan.2⟩
    · cases htimeout
  have hle := (List.subperm_of_subset (strayStore n).tasks.nodup.of_map hsub).length_le
  have hpage : (listTasks (strayStore n) runningArgs).1.length ≤ 500 :=
    firstPage_length_le (strayStore n) runningArgs 500
  rw [strayStore_rows, List.length_map, List.length_range] at hle
  omega

/-- Of 501 such tasks one is left running. -/
theorem stray_missed : ¬ ExactScan (fun _ => false) 1000000 ⟨fun _ => .fixed 1000000, fun _ => .fixed 1000000⟩
    (strayStore 501) := strays_missed (by decide) 1000000 _

end A2ARegistry.Orchestration
