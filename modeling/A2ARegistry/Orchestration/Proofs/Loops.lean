import A2ARegistry.Orchestration.Store.Claims

namespace A2ARegistry.Orchestration
open Base

section
variable (clock : Clock) (db : Db) (row : Task)

theorem releaseOne_task (k : String) : (releaseOne clock db row).task? k =
    if k = row.id then (db.task? k).map (fun t => t.release clock.now (row.consecutiveFailures + 1))
    else db.task? k := by
  simp only [releaseOne, task_emitEvent, Db.task_setTask, Db.task_setRun]
  by_cases hk : k = row.id
  · simp [hk]
  · simp [hk]

theorem releaseOne_run (n : Nat) : (releaseOne clock db row).run? n =
    (db.run? n).map (fun r => if row.currentRunId = some n then r.timeOut clock.now else r) := by
  simp only [releaseOne, run_emitEvent, Db.run_setTask, Db.run_setRun]

theorem releaseOne_links : (releaseOne clock db row).links = db.links := by
  simp only [releaseOne, links_emitEvent, Db.links_setTask, Db.links_setRun]

end

theorem releaseFold_links (clock : Clock) (rows : List Task) (db : Db) :
    (rows.foldl (releaseOne clock) db).links = db.links := by
  induction rows generalizing db with
  | nil => rfl
  | cons row rows ih => exact (ih (releaseOne clock db row)).trans (releaseOne_links clock db row)

/-- Timing out a run twice at the same reading is timing it out once. -/
theorem releaseFold_run (clock : Clock) (rows : List Task) (db : Db) (n : Nat) :
    (rows.foldl (releaseOne clock) db).run? n = (db.run? n).map (fun r =>
      if ∃ row ∈ rows, row.currentRunId = some n then r.timeOut clock.now else r) := by
  induction rows generalizing db with
  | nil => simp
  | cons row rows ih =>
    rw [List.foldl_cons, ih, releaseOne_run, Option.map_map]
    congr 1
    funext r
    by_cases hr : row.currentRunId = some n <;>
      by_cases hrs : ∃ row ∈ rows, row.currentRunId = some n <;>
        simp [hr, hrs, TaskRun.timeOut]

section
variable (db : Db) (clock : Clock) (tenant : Option String)

theorem release_links : (releaseExpiredClaims db clock tenant).2.links = db.links :=
  releaseFold_links clock _ db

theorem release_run (n : Nat) : (releaseExpiredClaims db clock tenant).2.run? n =
    (db.run? n).map (fun r => if ∃ t ∈ db.tasks.rows, t.expired clock.now tenant ∧
      t.currentRunId = some n then r.timeOut clock.now else r) := by
  have hm : ∀ t, t ∈ db.tasks.select (fun t => t.expired clock.now tenant) ↔
      t ∈ db.tasks.rows ∧ t.expired clock.now tenant = true := fun t => Table.mem_select
  simp only [releaseExpiredClaims, releaseFold_run, hm, and_assoc]

/-- `release_expired_claims` fails exactly the rows its query selects. -/
theorem release_task (k : String) : (releaseExpiredClaims db clock tenant).2.task? k =
    (db.task? k).map (fun t => if t.expired clock.now tenant
      then t.release clock.now (t.consecutiveFailures + 1) else t) := by
  have hfold := Table.foldl_update (fun (db : Db) k => db.task? k)
    (fun row t => t.map (fun t => t.release clock.now (row.consecutiveFailures + 1)))
    (fun db row k => releaseOne_task clock db row k)
    (Table.select_nodup db.tasks (fun t => t.expired clock.now tenant)) db k
  simp only [releaseExpiredClaims]
  rw [hfold, Table.find_select, Db.task?]
  cases ht : db.tasks.find? k with
  | none => rfl
  | some t =>
    cases he : t.expired clock.now tenant with
    | true => simp [Option.filter, he]
    | false => simp [Option.filter, he]

end

section
variable (clock : Clock) (db : Db) (row : Task)

theorem promoteOne_task (k : String) : (promoteOne clock db row).task? k =
    if k = row.id then (db.task? k).map (fun t => t.promote db.runs.next) else db.task? k := by
  have h : (promoteOne clock db row).task? k = (db.setTask row.id
      (fun t => t.promote db.runs.next) (fun t => t.promote_id db.runs.next)).task? k := rfl
  rw [h, Db.task_setTask]
  by_cases hk : k = row.id
  · simp [hk]
  · simp [hk]

theorem promoteOne_run (n : Nat) : (promoteOne clock db row).run? n =
    if n = db.runs.next then some (retryRun row.id clock.now n) else db.run? n := by
  have h : (promoteOne clock db row).run? n = (db.runs.insert (retryRun row.id clock.now)
      (retryRun_id row.id clock.now)).find? n := rfl
  rw [h, AutoTable.find_insert]
  split
  · rename_i hn
    rw [hn]
  · rfl

end

/-- What the loop of `promote_retryable_tasks` over `rows` has done to the database. -/
structure PromoteLoop (clock : Clock) (rows : List Task) (db db' : Db) : Prop where
  links : db'.links = db.links
  next : db.runs.next ≤ db'.runs.next
  others : ∀ k, k ∉ rows.map Task.id → db'.task? k = db.task? k
  selected : ∀ row ∈ rows, ∀ t, db.task? row.id = some t → ∃ n, db.runs.next ≤ n ∧
    db'.task? row.id = some (t.promote n) ∧ db'.run? n = some (retryRun row.id clock.now n)
  kept : ∀ n, n < db.runs.next → db'.run? n = db.run? n
  opened : ∀ n r, db.runs.next ≤ n → db'.run? n = some r → ∃ row ∈ rows,
    r = retryRun row.id clock.now n ∧
      ∀ t, db.task? row.id = some t → db'.task? row.id = some (t.promote n)

theorem promoteLoop (clock : Clock) (rows : List Task) (hn : (rows.map Task.id).Nodup) (db : Db) :
    PromoteLoop clock rows db (rows.foldl (promoteOne clock) db) := by
  induction rows generalizing db with
  | nil =>
    refine ⟨rfl, Nat.le_refl _, fun _ _ => rfl, by simp, fun _ _ => rfl, ?_⟩
    intro n r hle hr
    exact absurd (AutoTable.find_lt hr) (Nat.not_lt.mpr hle)
  | cons row rows ih =>
    obtain ⟨hrow, hn⟩ := List.nodup_cons.mp hn
    have hloop := ih hn (promoteOne clock db row)
    have hnext : (promoteOne clock db row).runs.next = db.runs.next + 1 := rfl
    have htask := promoteOne_task clock db row
    have hrun := promoteOne_run clock db row
    have hfirst : ∀ t, db.task? row.id = some t →
        ((row :: rows).foldl (promoteOne clock) db).task? row.id = some (t.promote db.runs.next) := by
      intro t ht
      rw [List.foldl_cons, hloop.others row.id hrow, htask]
      simp [ht]
    have hopen : ((row :: rows).foldl (promoteOne clock) db).run? db.runs.next =
        some (retryRun row.id clock.now db.runs.next) := by
      rw [List.foldl_cons, hloop.kept _ (by omega), hrun]
      simp
    refine ⟨hloop.links, ?_, ?_, ?_, ?_, ?_⟩
    · have := hloop.next
      rw [List.foldl_cons]
      omega
    · intro k hk
      simp only [List.map_cons, List.mem_cons, not_or] at hk
      rw [List.foldl_cons, hloop.others k hk.2, htask, if_neg hk.1]
    · intro r hr t ht
      rcases List.mem_cons.mp hr with rfl | hr
      · exact ⟨db.runs.next, Nat.le_refl _, hfirst t ht, hopen⟩
      · have hne : r.id ≠ row.id := fun he => hrow (he ▸ List.mem_map_of_mem hr)
        have ht' : (promoteOne clock db row).task? r.id = some t := by
          rw [htask, if_neg hne, ht]
        obtain ⟨n, hle, hrest⟩ := hloop.selected r hr t ht'
        exact ⟨n, by omega, hrest⟩
    · intro n hlt
      rw [List.foldl_cons, hloop.kept n (by omega), hrun, if_neg (by omega)]
    · intro n r hle hr
      by_cases hn : n = db.runs.next
      · subst hn
        rw [hopen] at hr
        cases hr
        exact ⟨row, List.mem_cons_self, rfl, hfirst⟩
      · obtain ⟨r', hr', he, ht'⟩ := hloop.opened n r (by omega) hr
        have hne : r'.id ≠ row.id := fun he => hrow (he ▸ List.mem_map_of_mem hr')
        refine ⟨r', List.mem_cons_of_mem _ hr', he, fun t ht => ht' t ?_⟩
        rw [htask, if_neg hne, ht]

section
variable (db : Db) (clock : Clock) (tenant : Option String)

theorem promoteRetryable_loop : PromoteLoop clock (db.tasks.select (fun t => t.retryable tenant)) db
    (promoteRetryableTasks db clock tenant).2 :=
  promoteLoop clock _ (Table.select_nodup db.tasks _) db

variable {db}

/-- `promote_retryable_tasks` re-opens the rows its query selects, each with a new run. -/
theorem promote_task (clock : Clock) (tenant : Option String) {k : String} {t : Task}
    (ht : db.task? k = some t) :
    (t.retryable tenant = false → (promoteRetryableTasks db clock tenant).2.task? k = some t) ∧
    (t.retryable tenant = true → ∃ n, db.runs.next ≤ n ∧
      (promoteRetryableTasks db clock tenant).2.task? k = some (t.promote n) ∧
      (promoteRetryableTasks db clock tenant).2.run? n = some (retryRun k clock.now n)) := by
  have hid := Db.task_id ht
  have hloop := promoteRetryable_loop db clock tenant
  have hmem := (Table.find_some_iff.mp ht).1
  constructor
  · intro hr
    rw [hloop.others k, ht]
    intro hk
    obtain ⟨row, hrow, he⟩ := List.mem_map.mp hk
    obtain ⟨hrow, hp⟩ := Table.mem_select.mp hrow
    have : row = t := List.inj_on_of_nodup_map db.tasks.nodup hrow hmem (he.trans hid.symm)
    rw [this, hr] at hp
    cases hp
  · intro hr
    subst hid
    exact hloop.selected t (Table.mem_select.mpr ⟨hmem, hr⟩) t ht

end

end A2ARegistry.Orchestration
