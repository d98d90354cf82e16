import A2ARegistry.Orchestration.Proofs.Effects
import A2ARegistry.Orchestration.Store.Ops

namespace A2ARegistry.Orchestration
open Base

/-- What the update of one entry demands of the row. -/
def Fits (newStatus : String) (now : Int) (t : Task) : Prop :=
  ∃ new retryAt, new.value = newStatus ∧ Accepted t now new .null retryAt

/-- A row that a batch to `newStatus` does not update. Completing a task resolves its children. -/
def Beside (newStatus : String) (t t' : Task) : Prop :=
  t' = t ∨ newStatus = TaskStatus.completed.value ∧
    (t.status = .todo ∧ t' = { t with status := .ready } ∨ t.status = .ready ∧ t' = { t with status := .todo })

theorem Beside.trans {newStatus : String} {t u v : Task} (h : Beside newStatus t u) (h' : Beside newStatus u v) :
    Beside newStatus t v := by
  rcases h with rfl | ⟨hnew, ⟨ht, rfl⟩ | ⟨ht, rfl⟩⟩
  · exact h'
  · rcases h' with rfl | ⟨_, ⟨hu, rfl⟩ | ⟨_, rfl⟩⟩
    · exact Or.inr ⟨hnew, Or.inl ⟨ht, rfl⟩⟩
    · cases hu
    · exact Or.inl (by rw [← ht])
  · rcases h' with rfl | ⟨_, ⟨_, rfl⟩ | ⟨hu, rfl⟩⟩
    · exact Or.inr ⟨hnew, Or.inr ⟨ht, rfl⟩⟩
    · exact Or.inl (by rw [← ht])
    · cases hu

theorem Beside.status_eq {newStatus : String} {t t' : Task} (h : Beside newStatus t t')
    (ht : t.status.value = newStatus) : t'.status.value = newStatus := by
  rcases h with rfl | ⟨hnew, ⟨hs, _⟩ | ⟨hs, _⟩⟩
  · exact ht
  · rw [hnew, hs] at ht
    exact absurd ht (by decide)
  · rw [hnew, hs] at ht
    exact absurd ht (by decide)

/-- Only a running task is completed, so what resolution does to a row never decides about its update. -/
theorem Beside.fits_iff {newStatus : String} {t t' : Task} (h : Beside newStatus t t') (now : Int) :
    Fits newStatus now t' ↔ Fits newStatus now t := by
  have hunfit : newStatus = TaskStatus.completed.value → ∀ u : Task, u.status = .todo ∨ u.status = .ready →
      ¬ Fits newStatus now u := by
    rintro rfl u hu ⟨new, retryAt, hvalue, haccepted⟩
    have hnew : new = .completed := TaskStatus.value_injective hvalue
    have hedge := haccepted.edge
    rcases hu with hu | hu
    · rw [hu, hnew] at hedge
      exact absurd hedge (by decide)
    · rw [hu, hnew] at hedge
      exact absurd hedge (by decide)
  rcases h with rfl | ⟨hnew, ⟨ht, rfl⟩ | ⟨ht, rfl⟩⟩
  · rfl
  · exact iff_of_false (hunfit hnew _ (Or.inr rfl)) (hunfit hnew t (Or.inl ht))
  · exact iff_of_false (hunfit hnew _ (Or.inl rfl)) (hunfit hnew t (Or.inr ht))

/-- No status leads to itself. -/
theorem Fits.status_ne {newStatus : String} {now : Int} {t : Task} (h : Fits newStatus now t) :
    t.status.value ≠ newStatus := by
  obtain ⟨new, retryAt, rfl, haccepted⟩ := h
  intro heq
  have hedge := haccepted.edge
  rw [← TaskStatus.value_injective heq] at hedge
  revert hedge
  cases t.status <;> decide

theorem nextRetry_error {now : Int} {t : Task} {new : TaskStatus} {e : StoreError}
    (h : nextRetry now t new = .error e) : e = .overflowError := by
  unfold nextRetry at h
  split at h
  · split at h
    · unfold backoffDelay at h
      split at h
      · cases h
        rfl
      · cases h
    · cases h
  · cases h

theorem eventKind_error {old new : TaskStatus} {e : StoreError} (h : eventKind old new = .error e) :
    ∃ owner name, e = .attributeError owner name := by
  unfold eventKind at h
  split at h
  · cases h
  · split at h
    · cases h
      exact ⟨_, _, rfl⟩
    · split at h <;> cases h

section
variable (newStatus : String)

/-- The transaction of one entry. -/
def batchOp (item : Clock × String) : Op := .updateTaskStatus item.1 item.2 newStatus {}

/-- The entries that `batch_update_status` counts as updated. -/
def countedItems : Db → List (Clock × String) → List (Clock × String)
  | _, [] => []
  | db, item :: rest =>
    match raised db (batchOp newStatus item) with
    | none => item :: countedItems (step db (batchOp newStatus item)) rest
    | some e => if e.uncaught then [] else countedItems db rest

variable {newStatus} {db : Db} {item : Clock × String}

/-- An entry that fits is updated: its row gets the status, and the other rows stand beside it. -/
structure Updates (newStatus : String) (db : Db) (item : Clock × String) : Prop where
  raises : raised db (batchOp newStatus item) = none
  row : ∃ t, (step db (batchOp newStatus item)).task? item.2 = some t ∧ t.status.value = newStatus
  others : ∀ k t, k ≠ item.2 → db.task? k = some t →
    ∃ t', (step db (batchOp newStatus item)).task? k = some t' ∧ Beside newStatus t t'
  absent : ∀ k, db.task? k = none → (step db (batchOp newStatus item)).task? k = none

theorem settle_beside (db : Db) (t : Task) : Beside TaskStatus.completed.value t (settle db t) := by
  rcases settle_cases db t with ⟨ht, _, he⟩ | ⟨ht, _, he⟩ | ⟨_, _, he⟩
  · exact Or.inr ⟨rfl, Or.inl ⟨ht, he⟩⟩
  · exact Or.inr ⟨rfl, Or.inr ⟨ht, he⟩⟩
  · exact Or.inl he

theorem fits_updates {t : Task} (ht : db.task? item.2 = some t) (hfits : Fits newStatus item.1.now t) :
    Updates newStatus db item := by
  obtain ⟨new, retryAt, rfl, haccepted⟩ := hfits
  obtain ⟨view, kind, hok⟩ := @updateTaskStatus_accepted db item.1 item.2 {} t new retryAt ht haccepted
  have hid : t.id = item.2 := Db.task_id ht
  have hrow : db.task? t.id = some t := hid ▸ ht
  have hraised : raised db (batchOp new.value item) = none := by
    simp only [batchOp, raised, hok]
    rfl
  have htask := writeStatus_task db item.1 t new {} retryAt kind hrow
  have hstep : step db (batchOp new.value item) = writeStatus db item.1 t new {} retryAt kind :=
    step_updateTaskStatus hok
  refine ⟨hraised, ?_, ?_, ?_⟩
  · rw [hstep, htask, if_pos hid.symm]
    exact ⟨_, rfl, rfl⟩
  · intro k u hk hu
    rw [hstep, htask, if_neg (fun heq => hk (heq.trans hid)), hu]
    refine ⟨_, rfl, ?_⟩
    split
    · rename_i hchild
      rw [hchild.1]
      exact settle_beside _ u
    · exact Or.inl rfl
  · intro k hk
    have hne : k ≠ t.id := by
      rintro rfl
      rw [hrow] at hk
      cases hk
    rw [hstep, htask, if_neg hne, hk]
    rfl

theorem batchOp_error {e : StoreError} (h : raised db (batchOp newStatus item) = some e) :
    updateTaskStatus db item.1 item.2 newStatus {} = .error e := by
  have herror : errorOf (db.tx (updateTaskStatus db item.1 item.2 newStatus {})).1 = some e := h
  cases hu : updateTaskStatus db item.1 item.2 newStatus {} with
  | ok r =>
    rw [hu] at herror
    cases herror
  | error e' =>
    rw [hu] at herror
    cases herror
    rfl

/-- Only what fits is updated. -/
theorem batchOp_fits (h : raised db (batchOp newStatus item) = none) :
    ∃ t, db.task? item.2 = some t ∧ Fits newStatus item.1.now t := by
  have herror : errorOf (db.tx (updateTaskStatus db item.1 item.2 newStatus {})).1 = none := h
  cases hu : updateTaskStatus db item.1 item.2 newStatus {} with
  | ok r =>
    obtain ⟨t, new, retryAt, kind, ht, hvalue, haccepted, _⟩ := updateTaskStatus_ok hu
    exact ⟨t, ht, new, retryAt, hvalue, haccepted⟩
  | error e =>
    rw [hu] at herror
    cases herror

/-- An id that no task has is skipped. -/
theorem batchOp_missing (h : db.task? item.2 = none) :
    ∃ message, raised db (batchOp newStatus item) = some (.valueError message) := by
  have hu : updateTaskStatus db item.1 item.2 newStatus {} = .error (.valueError s!"Task '{item.2}' not found") := by
    unfold updateTaskStatus
    rw [h]
    rfl
  refine ⟨s!"Task '{item.2}' not found", ?_⟩
  simp only [batchOp, raised, hu]
  rfl

/-- A batch presents no lock, so no lock is refused. -/
theorem batchOp_no_permission {expected : Option String} {got : Json} :
    raised db (batchOp newStatus item) ≠ some (.permissionError expected got) := by
  intro h
  have hu := batchOp_error h
  unfold updateTaskStatus at hu
  simp only [bind, pure, Except.bind, Except.pure, throw, throwThe, MonadExceptOf.throw] at hu
  split at hu
  · cases hu
  rename_i t ht
  split at hu
  · rename_i e hv
    unfold validateTransition at hv
    split at hv <;> cases hv
    cases hu
  split at hu
  · cases hu
  rename_i new hnew
  have hlock : lockRefused t ({} : StatusArgs).claimLock = false := by
    simp [lockRefused, Json.truthy]
  rw [if_neg (by simp [hlock])] at hu
  split at hu
  · rename_i e hretry
    cases hu
    cases nextRetry_error hretry
  split at hu
  · rename_i e hkind
    cases hu
    obtain ⟨owner, name, he⟩ := eventKind_error hkind
    cases he
  · cases hu

theorem batchLoop_updates (h : raised db (batchOp newStatus item) = none) (rest : List (Clock × String))
    (acc : BatchResult) : batchLoop newStatus (item :: rest) acc db =
      batchLoop newStatus rest { acc with updated := acc.updated + 1 } (step db (batchOp newStatus item)) := by
  obtain ⟨t, ht, new, retryAt, rfl, haccepted⟩ := batchOp_fits h
  obtain ⟨view, kind, hok⟩ := @updateTaskStatus_accepted db item.1 item.2 {} t new retryAt ht haccepted
  have hstep : step db (batchOp new.value item) = _ := step_updateTaskStatus hok
  obtain ⟨clock, taskId⟩ := item
  rw [hstep]
  simp only [batchLoop, Db.tx, hok]

/-- An entry whose update raises is skipped, or ends the loop. It is not reported. -/
theorem batchLoop_raises {e : StoreError} (h : raised db (batchOp newStatus item) = some e)
    (rest : List (Clock × String)) (acc : BatchResult) : batchLoop newStatus (item :: rest) acc db =
      if e.uncaught then (.error e, db) else batchLoop newStatus rest acc db := by
  have hu := batchOp_error h
  obtain ⟨clock, taskId⟩ := item
  simp only [batchLoop, Db.tx, hu]
  cases e with
  | permissionError expected got => exact absurd h batchOp_no_permission
  | valueError | invalidTransition | integrityError | attributeError | overflowError => rfl

end

section
variable (newStatus : String)

/-- What the loop returns and leaves behind, in terms of the entries it counts. -/
theorem batchLoop_counted (taskIds : List (Clock × String)) (acc : BatchResult) (db : Db) :
    (batchLoop newStatus taskIds acc db).2 =
      exec step db ((countedItems newStatus db taskIds).map (batchOp newStatus)) ∧
    ∀ result, (batchLoop newStatus taskIds acc db).1 = .ok result →
      result.updated = acc.updated + (countedItems newStatus db taskIds).length ∧ result.failed = acc.failed := by
  induction taskIds generalizing acc db with
  | nil =>
    refine ⟨rfl, fun result hok => ?_⟩
    cases hok
    exact ⟨rfl, rfl⟩
  | cons item rest ih =>
    unfold countedItems
    cases h : raised db (batchOp newStatus item) with
    | none =>
      rw [batchLoop_updates h]
      obtain ⟨hdb, hresult⟩ := ih { acc with updated := acc.updated + 1 } (step db (batchOp newStatus item))
      refine ⟨hdb, fun result hok => ?_⟩
      obtain ⟨hupdated, hfailed⟩ := hresult result hok
      refine ⟨?_, hfailed⟩
      rw [hupdated, List.length_cons]
      exact Nat.add_right_comm acc.updated 1 _
    | some e =>
      rw [batchLoop_raises h]
      dsimp only
      split
      · refine ⟨rfl, fun result hok => ?_⟩
        cases hok
      · exact ih acc db

/-- Every counted entry names a task that fits from the start, and no task is counted twice. -/
theorem countedItems_fit (taskIds : List (Clock × String)) (db : Db) :
    ((countedItems newStatus db taskIds).map Prod.snd).Nodup ∧
    ∀ item ∈ countedItems newStatus db taskIds, ∃ t, db.task? item.2 = some t ∧ Fits newStatus item.1.now t := by
  induction taskIds generalizing db with
  | nil => exact ⟨List.nodup_nil, fun _ h => absurd h List.not_mem_nil⟩
  | cons item rest ih =>
    unfold countedItems
    cases h : raised db (batchOp newStatus item) with
    | none =>
      obtain ⟨t, ht, hfits⟩ := batchOp_fits h
      have hupdates := fits_updates ht hfits
      obtain ⟨hnodup, hrest⟩ := ih (step db (batchOp newStatus item))
      -- the rest names other tasks, which stand beside the updated one
      have hother : ∀ next ∈ countedItems newStatus (step db (batchOp newStatus item)) rest,
          next.2 ≠ item.2 ∧ ∃ u, db.task? next.2 = some u ∧ Fits newStatus next.1.now u := by
        intro next hnext
        obtain ⟨u, hu, hufits⟩ := hrest next hnext
        have hne : next.2 ≠ item.2 := by
          intro heq
          obtain ⟨moved, hmoved, hstatus⟩ := hupdates.row
          rw [heq, hmoved] at hu
          cases hu
          exact hufits.status_ne hstatus
        refine ⟨hne, ?_⟩
        cases hold : db.task? next.2 with
        | none =>
          rw [hupdates.absent _ hold] at hu
          cases hu
        | some v =>
          obtain ⟨v', hv', hbeside⟩ := hupdates.others _ v hne hold
          rw [hu] at hv'
          cases hv'
          exact ⟨v, rfl, (hbeside.fits_iff _).mp hufits⟩
      constructor
      · rw [List.map_cons, List.nodup_cons]
        refine ⟨?_, hnodup⟩
        intro hmem
        obtain ⟨next, hnext, heq⟩ := List.mem_map.mp hmem
        exact (hother next hnext).1 heq
      · intro next hnext
        rcases List.mem_cons.mp hnext with rfl | hnext
        · exact ⟨t, ht, hfits⟩
        · exact (hother next hnext).2
    | some e =>
      dsimp only
      split
      · exact ⟨List.nodup_nil, fun _ hmem => absurd hmem List.not_mem_nil⟩
      · exact ih db

/-- The tasks that are counted get the status, and the others stand beside them. -/
theorem countedItems_rows (taskIds : List (Clock × String)) (db : Db) {k : String} {t : Task}
    (ht : db.task? k = some t) :
    ∃ t', (exec step db ((countedItems newStatus db taskIds).map (batchOp newStatus))).task? k = some t' ∧
      if k ∈ (countedItems newStatus db taskIds).map Prod.snd then
        t.status.value ≠ newStatus ∧ t'.status.value = newStatus
      else Beside newStatus t t' := by
  induction taskIds generalizing db t with
  | nil => exact ⟨t, ht, Or.inl rfl⟩
  | cons item rest ih =>
    unfold countedItems
    cases h : raised db (batchOp newStatus item) with
    | none =>
      obtain ⟨u, hu, hfits⟩ := batchOp_fits h
      have hupdates := fits_updates hu hfits
      rw [List.map_cons, exec_cons, List.map_cons]
      by_cases hk : k = item.2
      · subst hk
        rw [hu] at ht
        cases ht
        obtain ⟨moved, hmoved, hstatus⟩ := hupdates.row
        obtain ⟨t', ht', hcounted⟩ := ih (step db (batchOp newStatus item)) hmoved
        refine ⟨t', ht', ?_⟩
        rw [if_pos List.mem_cons_self]
        refine ⟨hfits.status_ne, ?_⟩
        split at hcounted
        · exact hcounted.2
        · exact hcounted.status_eq hstatus
      · obtain ⟨v, hv, hbeside⟩ := hupdates.others k t hk ht
        obtain ⟨t', ht', hcounted⟩ := ih (step db (batchOp newStatus item)) hv
        refine ⟨t', ht', ?_⟩
        simp only [List.mem_cons, hk, false_or]
        split at hcounted
        · rename_i hmem
          rw [if_pos hmem]
          exact ⟨fun hold => hcounted.1 (hbeside.status_eq hold), hcounted.2⟩
        · rename_i hmem
          rw [if_neg hmem]
          exact hbeside.trans hcounted
    | some e =>
      dsimp only
      split
      · exact ⟨t, ht, Or.inl rfl⟩
      · exact ih db ht

/-- How many entries name no task. -/
def missing (db : Db) (taskIds : List (Clock × String)) : Nat :=
  taskIds.countP (fun item => (db.task? item.2).isNone)

/-- The entries that name a task name different ones, and all of them fit. -/
def AllFit (db : Db) (taskIds : List (Clock × String)) : Prop :=
  ((taskIds.map Prod.snd).filter (fun id => (db.task? id).isSome)).Nodup ∧
    ∀ item ∈ taskIds, ∀ t, db.task? item.2 = some t → Fits newStatus item.1.now t

variable {newStatus} {db : Db} {item : Clock × String}

theorem Updates.isSome (hupdates : Updates newStatus db item) (k : String) :
    ((step db (batchOp newStatus item)).task? k).isSome = (db.task? k).isSome := by
  cases hk : db.task? k with
  | none => rw [hupdates.absent k hk]
  | some t =>
    by_cases heq : k = item.2
    · obtain ⟨moved, hmoved, _⟩ := hupdates.row
      rw [heq, hmoved]
      rfl
    · obtain ⟨t', ht', _⟩ := hupdates.others k t heq hk
      rw [ht']
      rfl

theorem Updates.missing_eq (hupdates : Updates newStatus db item) (rest : List (Clock × String)) :
    missing (step db (batchOp newStatus item)) rest = missing db rest := by
  unfold missing
  apply List.countP_congr
  intro next _
  have hsome := hupdates.isSome next.2
  rw [← Option.not_isSome, ← Option.not_isSome, hsome]

theorem allFit_missing (h : db.task? item.2 = none) (rest : List (Clock × String)) :
    AllFit newStatus db (item :: rest) ↔ AllFit newStatus db rest := by
  simp [AllFit, h]

/-- After an update the rest is to fit as it did before, and is not to name the task again. -/
theorem allFit_updates {t : Task} (ht : db.task? item.2 = some t) (hfits : Fits newStatus item.1.now t)
    (rest : List (Clock × String)) :
    AllFit newStatus db (item :: rest) ↔ AllFit newStatus (step db (batchOp newStatus item)) rest := by
  have hupdates := fits_updates ht hfits
  obtain ⟨moved, hmoved, hstatus⟩ := hupdates.row
  have hfilter : (rest.map Prod.snd).filter (fun id => ((step db (batchOp newStatus item)).task? id).isSome) =
      (rest.map Prod.snd).filter (fun id => (db.task? id).isSome) := by
    apply List.filter_congr
    intro id _
    exact hupdates.isSome id
  have hfound : (db.task? item.2).isSome = true := by rw [ht]; rfl
  simp only [AllFit, hfilter, List.map_cons, List.filter_cons_of_pos (p := fun id => (db.task? id).isSome) hfound,
    List.nodup_cons]
  constructor
  · rintro ⟨⟨hnew, hnodup⟩, hall⟩
    refine ⟨hnodup, fun next hnext u' hu' => ?_⟩
    have hold : (db.task? next.2).isSome := by rw [← hupdates.isSome, hu']; rfl
    have hne : next.2 ≠ item.2 := by
      intro heq
      exact hnew (List.mem_filter.mpr ⟨heq ▸ List.mem_map_of_mem hnext, hfound⟩)
    obtain ⟨u, hu⟩ := Option.isSome_iff_exists.mp hold
    obtain ⟨v, hv, hbeside⟩ := hupdates.others _ u hne hu
    rw [hu'] at hv
    cases hv
    exact (hbeside.fits_iff _).mpr (hall next (List.mem_cons_of_mem item hnext) u hu)
  · rintro ⟨hnodup, hall⟩
    have hne : ∀ next ∈ rest, next.2 ≠ item.2 := by
      intro next hnext heq
      exact (hall next hnext moved (heq ▸ hmoved)).status_ne hstatus
    refine ⟨⟨?_, hnodup⟩, fun next hnext u hu => ?_⟩
    · intro hmem
      obtain ⟨next, hnext, heq⟩ := List.mem_map.mp (List.mem_filter.mp hmem).1
      exact hne next hnext heq
    · rcases List.mem_cons.mp hnext with rfl | hnext
      · rw [ht] at hu
        cases hu
        exact hfits
      · obtain ⟨u', hu', hbeside⟩ := hupdates.others _ u (hne next hnext) hu
        exact (hbeside.fits_iff _).mp (hall next hnext u' hu')

variable (newStatus) (taskIds : List (Clock × String))

/-- No entry is both counted and missing. -/
theorem counted_le (db : Db) : (countedItems newStatus db taskIds).length + missing db taskIds ≤ taskIds.length := by
  induction taskIds generalizing db with
  | nil => exact Nat.le_refl 0
  | cons item rest ih =>
    unfold countedItems
    cases h : raised db (batchOp newStatus item) with
    | none =>
      obtain ⟨t, ht, hfits⟩ := batchOp_fits h
      have hrest := ih (step db (batchOp newStatus item))
      rw [(fits_updates ht hfits).missing_eq] at hrest
      have hhead : missing db (item :: rest) = missing db rest := by simp [missing, ht]
      dsimp only
      rw [hhead, List.length_cons, List.length_cons]
      omega
    | some e =>
      have hrest := ih db
      have hhead : missing db (item :: rest) ≤ missing db rest + 1 := by
        simp only [missing, List.countP_cons]
        split <;> omega
      have hle : missing db rest ≤ rest.length := List.countP_le_length
      dsimp only
      split
      · rw [List.length_nil, List.length_cons]
        omega
      · rw [List.length_cons]
        omega

/-- The loop comes to its end and accounts for every entry exactly when all entries fit. -/
theorem batchLoop_accounts_iff (acc : BatchResult) (db : Db) :
    ((∃ result, (batchLoop newStatus taskIds acc db).1 = .ok result) ∧
      (countedItems newStatus db taskIds).length + missing db taskIds = taskIds.length) ↔
    AllFit newStatus db taskIds := by
  induction taskIds generalizing acc db with
  | nil => exact iff_of_true ⟨⟨acc, rfl⟩, rfl⟩ ⟨List.nodup_nil, fun _ h => absurd h List.not_mem_nil⟩
  | cons item rest ih =>
    cases h : raised db (batchOp newStatus item) with
    | none =>
      obtain ⟨t, ht, hfits⟩ := batchOp_fits h
      have hmissing : missing db (item :: rest) = missing (step db (batchOp newStatus item)) rest := by
        rw [(fits_updates ht hfits).missing_eq]
        simp [missing, ht]
      rw [allFit_updates ht hfits, ← ih { acc with updated := acc.updated + 1 }, batchLoop_updates h, hmissing]
      simp only [countedItems, h, List.length_cons, Nat.add_right_comm _ 1, Nat.add_right_cancel_iff]
    | some e =>
      rw [batchLoop_raises h]
      cases ht : db.task? item.2 with
      | none =>
        obtain ⟨message, hmessage⟩ := @batchOp_missing newStatus db item ht
        rw [h] at hmessage
        cases hmessage
        have hmissing : missing db (item :: rest) = missing db rest + 1 := by simp [missing, ht]
        rw [allFit_missing ht, ← ih acc, hmissing]
        simp only [countedItems, h, StoreError.uncaught, Bool.false_eq_true, if_false, List.length_cons,
          ← Nat.add_assoc, Nat.add_right_cancel_iff]
      | some t =>
        have hunfit : ¬ Fits newStatus item.1.now t := by
          intro hfits
          rw [(fits_updates ht hfits).raises] at h
          cases h
        have hmissing : missing db (item :: rest) = missing db rest := by simp [missing, ht]
        have hle := counted_le newStatus rest db
        have hle' : missing db rest ≤ rest.length := List.countP_le_length
        refine iff_of_false ?_ (fun hall => hunfit (hall.2 item List.mem_cons_self t ht))
        rintro ⟨_, hequal⟩
        simp only [countedItems, h, hmissing, List.length_cons] at hequal
        split at hequal
        · rw [List.length_nil] at hequal
          omega
        · omega

theorem countedItems_sublist (db : Db) : (countedItems newStatus db taskIds).Sublist taskIds := by
  induction taskIds generalizing db with
  | nil => exact List.Sublist.refl []
  | cons item rest ih =>
    unfold countedItems
    split
    · exact (ih _).cons_cons item
    · split
      · exact List.nil_sublist _
      · exact (ih db).cons item

end

/-- The batch changed these tasks and no other: their updates are all that was written. Completing a task resolves
its children, as it does for a single task. -/
structure Changed (newStatus : String) (db db' : Db) (counted : List (Clock × String)) : Prop where
  written : db' = exec step db (counted.map (batchOp newStatus))
  once : (counted.map Prod.snd).Nodup
  exist : ∀ item ∈ counted, (db.task? item.2).isSome
  rows : ∀ k t, db.task? k = some t → ∃ t', db'.task? k = some t' ∧
    if k ∈ counted.map Prod.snd then t.status.value ≠ newStatus ∧ t'.status.value = newStatus
    else Beside newStatus t t'

/-- The batch returns, has changed what it counts as updated, and every entry is updated, failed or names no task. -/
def Accounted (db : Db) (taskIds : List (Clock × String)) (newStatus : String) : Prop :=
  ∃ result counted, (batchUpdateStatus db taskIds newStatus).1 = .ok result ∧
    counted.Sublist taskIds ∧ counted.length = result.updated ∧
    Changed newStatus db (batchUpdateStatus db taskIds newStatus).2 counted ∧
    result.updated + result.failed.length + missing db taskIds = taskIds.length

/-- A batch is accounted for exactly when the entries that name a task name different ones, and the update of each is
one that the state machine allows and that does not raise. -/
theorem batch_accounted_iff (db : Db) (taskIds : List (Clock × String)) (newStatus : String) :
    Accounted db taskIds newStatus ↔ AllFit newStatus db taskIds := by
  obtain ⟨hdb, hresult⟩ := batchLoop_counted newStatus taskIds {} db
  rw [← batchLoop_accounts_iff newStatus taskIds {} db]
  constructor
  · rintro ⟨result, counted, hok, _, _, _, hsum⟩
    obtain ⟨hupdated, hfailed⟩ := hresult result hok
    refine ⟨⟨result, hok⟩, ?_⟩
    rw [hupdated, hfailed] at hsum
    simpa using hsum
  · rintro ⟨⟨result, hok⟩, hsum⟩
    obtain ⟨hupdated, hfailed⟩ := hresult result hok
    have hcount : result.updated = (countedItems newStatus db taskIds).length := by simpa using hupdated
    obtain ⟨honce, hfit⟩ := countedItems_fit newStatus taskIds db
    refine ⟨result, countedItems newStatus db taskIds, hok, countedItems_sublist newStatus taskIds db, hcount.symm,
      ⟨hdb, honce, ?_, ?_⟩, ?_⟩
    · intro item hitem
      obtain ⟨t, ht, _⟩ := hfit item hitem
      rw [ht]
      rfl
    · intro k t ht
      obtain ⟨t', ht', hrow⟩ := countedItems_rows newStatus taskIds db ht
      exact ⟨t', by rw [← ht', ← hdb]; rfl, hrow⟩
    · rw [hcount, hfailed]
      exact hsum

/-- A store with one ready task. -/
def readyStore : Db := exec step Db.empty [.createTask (.fixed 0) "a" { title := "a" }]

/-- A ready task cannot be completed, and the batch says nothing of it. -/
theorem refusal_unreported : ¬ Accounted readyStore [(.fixed 0, "t_a")] TaskStatus.completed.value := by
  rintro ⟨result, counted, hok, _, _, _, hsum⟩
  have hempty : (batchUpdateStatus readyStore [(.fixed 0, "t_a")] TaskStatus.completed.value).1 = .ok {} := rfl
  rw [hempty] at hok
  cases hok
  exact absurd hsum (by decide)

end A2ARegistry.Orchestration
