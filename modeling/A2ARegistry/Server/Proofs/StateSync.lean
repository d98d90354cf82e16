import A2ARegistry.Server.Proofs.Terminal
import A2ARegistry.Server.StateSync

namespace A2ARegistry.Server
open Base Orchestration

/-- The entries that are over are the same. -/
def OverSame (s s' : RegistryHandler) : Prop :=
  ∀ k t, t.state.isWord overWords = true → (s'.record? k = some t ↔ s.record? k = some t)

theorem restoreTask_over (agentId : String) (s : RegistryHandler) (d : Dispatched) :
    OverSame s (restoreTask agentId s d) := by
  intro k t hover
  unfold restoreTask
  split
  · rfl
  · rename_i hlost
    cases s.taskStore.task? d.taskId with
    | none => rfl
    | some row =>
      dsimp only
      split
      · rfl
      · rename_i hstatus
        simp only [Bool.or_eq_true, not_or] at hlost
        have hnone : s.record? d.taskId = none := by simpa using hlost.2
        rw [RegistryHandler.record_writeRecord]
        split
        · rename_i hk
          subst hk
          have hrestored : (Json.str row.status.value).isWord overWords = false := by
            cases hrow : row.status <;> simp_all [overWords, Json.isWord, TaskStatus.value]
          simp only [hnone, Option.getD_none, Option.some.injEq, reduceCtorEq, iff_false]
          rintro rfl
          rw [Change.apply_state, hrestored] at hover
          cases hover
        · rfl

theorem restoreTasks_over (s : RegistryHandler) (agentId : String) : OverSame s (restoreTasks s agentId) := by
  unfold restoreTasks
  cases s.dispatchedWsTasks with
  | none => exact fun _ _ _ => Iff.rfl
  | some tasks =>
    dsimp only
    generalize tasks.rows = rows
    induction rows generalizing s with
    | nil => exact fun _ _ _ => Iff.rfl
    | cons d rows ih =>
      intro k t hover
      exact (ih (restoreTask agentId s d) k t hover).trans (restoreTask_over agentId s d k t hover)

section
variable (e : Engine) (agentId : String) (clocks : String → Clock)

theorem mergeRecord_other (s : RegistryHandler) {taskId k : String} (status : Json) (hne : k ≠ taskId) :
    (mergeRecord s agentId taskId status).record? k = s.record? k := by
  unfold mergeRecord
  split
  · rw [RegistryHandler.record_writeRecord, if_neg hne]
  · rfl

/-- The merge leaves an entry alone that no item names. -/
theorem mergeTasks_unlisted {items : List Json} {k : String} (s : RegistryHandler) (hn : lastListed k items = none) :
    (mergeTasks e agentId clocks items s 0).record? k = s.record? k := by
  induction items generalizing s with
  | nil => rfl
  | cons item items ih =>
    cases item with
    | obj fields =>
      simp only [lastListed, Option.or_eq_none_iff] at hn
      cases hm : mergedItem fields with
      | none =>
        simp only [mergeTasks, hm]
        exact ih s hn.1
      | some listed =>
        obtain ⟨id, status⟩ := listed
        have hne : k ≠ id := by
          rintro rfl
          simp [hm] at hn
        simp only [mergeTasks, hm, healTask_none]
        rw [ih _ hn.1, mergeRecord_other agentId s status hne]
    | _ => rfl

end

theorem mergedItem_key {κ : Type} (hash : Json → κ) {fields : List (String × Json)} {id : String} {status : Json}
    (h : mergedItem fields = some (id, status)) : taskKey hash (Json.get fields "id" .null) = some (.text id) := by
  unfold mergedItem at h
  split at h
  · rename_i text hid
    dsimp only at h
    split at h
    · cases h
    · cases h
      rw [hid]
      rfl
  · cases h

/-- A key that the agent did not report is not that of the first item, and the others do not report it. -/
theorem unreported_cons {κ : Type} (hash : Json → κ) {fields : List (String × Json)} {items : List Json}
    {k : TaskKey κ} (hk : k ∉ agentActiveIds hash (.obj fields :: items)) :
    taskKey hash (Json.get fields "id" .null) ≠ some k ∧ k ∉ agentActiveIds hash items := by
  constructor
  · intro hkey
    exact hk (List.mem_filterMap.mpr ⟨.obj fields, List.mem_cons_self, hkey⟩)
  · intro hmem
    apply hk
    obtain ⟨item, hitem, hkey⟩ := List.mem_filterMap.mp hmem
    exact List.mem_filterMap.mpr ⟨item, List.mem_cons_of_mem _ hitem, hkey⟩

/-- The merge takes no status for a text that the agent did not report. -/
theorem unreported_unlisted {κ : Type} (hash : Json → κ) {items : List Json} {k : String}
    (hk : .text k ∉ agentActiveIds hash items) : lastListed k items = none := by
  induction items with
  | nil => rfl
  | cons item items ih =>
    cases item with
    | obj fields =>
      obtain ⟨hself, hrest⟩ := unreported_cons hash hk
      simp only [lastListed, ih hrest, Option.none_or]
      cases hm : mergedItem fields with
      | none => rfl
      | some listed =>
        obtain ⟨id, status⟩ := listed
        have hne : id ≠ k := by
          rintro rfl
          exact hself (mergedItem_key hash hm)
        have hbeq : (id == k) = false := by simpa using hne
        simp [Option.filter, hbeq]
    | _ => rfl

section
variable {κ : Type} [DecidableEq κ] (hash : Json → κ) (agentId : String)

/-- The merge does not change the entry of another id that was not reported either. -/
theorem mergeOthers_unreported {items : List Json} {k : κ} (others : Table (OtherRecord κ))
    (hk : .other k ∉ agentActiveIds hash items) : (mergeOthers hash agentId items others).find? k = others.find? k := by
  induction items generalizing others with
  | nil => rfl
  | cons item items ih =>
    cases item with
    | obj fields =>
      obtain ⟨hself, hrest⟩ := unreported_cons hash hk
      rw [mergeOthers, ih _ hrest]
      unfold mergeOther
      dsimp only
      split
      · rename_i k' hkey
        have hne : k ≠ k' := by
          rintro rfl
          exact hself hkey
        split
        · rfl
        · split
          · rw [Table.find_modify]
            cases hfind : others.find? k with
            | none => rfl
            | some t =>
              have hid : t.k = k := Table.find_key hfind
              have hkeep : t.k ≠ k' := by rwa [hid]
              simp [hkeep]
          · split
            · rfl
            · exact (Table.find_put others _ k).trans (if_neg hne)
      · rfl
    | _ => rfl

/-- An entry of the agent says that the task is completed or failed. -/
def OverInMemory (s : SyncHandler κ) (agentId : String) : TaskKey κ → Prop
  | .text id => ∃ t, s.record? id = some t ∧ t.agentId = agentId ∧ t.state.isWord overWords = true
  | .other k => ∃ t, s.others.find? k = some t ∧ t.agentId = agentId ∧ t.state.isWord overWords = true

/-- The task was dispatched to the agent, and is completed or failed in the store. -/
def OverInStore (s : RegistryHandler) (agentId : String) : TaskKey κ → Prop
  | .text id => s.assignee? id = some agentId ∧
      ∃ row, s.taskStore.task? id = some row ∧ (row.status = .completed ∨ row.status = .failed)
  | .other _ => False

variable (s : SyncHandler κ)

theorem mem_memoryOrphans (active : List (TaskKey κ)) (k : TaskKey κ) :
    k ∈ (s.memoryOrphans agentId active).map Orphan.id ↔ OverInMemory s agentId k ∧ k ∉ active := by
  simp only [SyncHandler.memoryOrphans, List.map_append, List.map_map, List.mem_append, List.mem_map,
    Table.mem_select, Function.comp_apply, Bool.and_eq_true, beq_iff_eq, Bool.not_eq_true', List.contains_eq_mem,
    decide_eq_false_iff_not]
  cases k with
  | text id =>
    simp only [TaskKey.text.injEq, reduceCtorEq, and_false, exists_false, or_false]
    constructor
    · rintro ⟨t, ⟨hrow, ⟨hagent, hactive⟩, hover⟩, rfl⟩
      exact ⟨⟨t, Table.find_mem hrow, hagent, hover⟩, hactive⟩
    · rintro ⟨⟨t, hfind, hagent, hover⟩, hactive⟩
      obtain ⟨hrow, hid⟩ := Table.find_some_iff.mp hfind
      have hid : t.id = id := hid
      exact ⟨t, ⟨hrow, ⟨hagent, hid ▸ hactive⟩, hover⟩, hid⟩
  | other k =>
    simp only [TaskKey.other.injEq, reduceCtorEq, and_false, exists_false, false_or]
    constructor
    · rintro ⟨t, ⟨hrow, ⟨hagent, hactive⟩, hover⟩, rfl⟩
      exact ⟨⟨t, Table.find_mem hrow, hagent, hover⟩, hactive⟩
    · rintro ⟨⟨t, hfind, hagent, hover⟩, hactive⟩
      obtain ⟨hrow, hid⟩ := Table.find_some_iff.mp hfind
      have hid : t.k = k := hid
      exact ⟨t, ⟨hrow, ⟨hagent, hid ▸ hactive⟩, hover⟩, hid⟩

theorem memoryOrphans_nodup (active : List (TaskKey κ)) : ((s.memoryOrphans agentId active).map Orphan.id).Nodup := by
  simp only [SyncHandler.memoryOrphans, List.map_append, List.map_map]
  refine List.nodup_append.mpr ⟨?_, ?_, ?_⟩
  · have hids := Table.select_nodup s.tasks
      (fun t => t.agentId == agentId && !active.contains (.text t.id) && t.state.isWord overWords)
    have htext := hids.map (f := TaskKey.text (κ := κ)) (fun _ _ h => TaskKey.text.inj h)
    rwa [List.map_map] at htext
  · have hids := Table.select_nodup s.others
      (fun t => t.agentId == agentId && !active.contains (.other t.k) && t.state.isWord overWords)
    have hother := hids.map (f := TaskKey.other (κ := κ)) (fun _ _ h => TaskKey.other.inj h)
    rwa [List.map_map] at hother
  · intro a ha b hb
    obtain ⟨t, _, rfl⟩ := List.mem_map.mp ha
    obtain ⟨u, _, rfl⟩ := List.mem_map.mp hb
    simp

/-- The rows of dispatched tasks are those of the tasks the agent has. -/
theorem mem_dbDispatched (s : RegistryHandler) (row : Task) :
    row ∈ dbDispatched s agentId ↔ s.assignee? row.id = some agentId ∧ s.taskStore.task? row.id = some row := by
  unfold dbDispatched Memory.assignee?
  cases s.dispatchedWsTasks with
  | none => simp
  | some tasks =>
    simp only [List.mem_filterMap, List.mem_filter, beq_iff_eq, Option.bind_some, Option.map_eq_some_iff]
    constructor
    · rintro ⟨d, ⟨hd, hassignee⟩, hrow⟩
      have hid : row.id = d.taskId := Table.find_key hrow
      rw [hid]
      exact ⟨⟨d, Table.find_mem hd, hassignee⟩, hrow⟩
    · rintro ⟨⟨d, hd, hassignee⟩, hrow⟩
      obtain ⟨hmem, hid⟩ := Table.find_some_iff.mp hd
      have hid : d.taskId = row.id := hid
      exact ⟨d, ⟨hmem, hassignee⟩, by rwa [hid]⟩

theorem dbDispatched_ids (s : RegistryHandler) : ((dbDispatched s agentId).map Task.id).Nodup := by
  unfold dbDispatched
  cases s.dispatchedWsTasks with
  | none => exact List.nodup_nil
  | some tasks =>
    have hsub : ∀ rows : List Dispatched,
        ((rows.filterMap (fun d => s.taskStore.task? d.taskId)).map Task.id).Sublist (rows.map Dispatched.taskId) := by
      intro rows
      induction rows with
      | nil => exact List.Sublist.refl []
      | cons d rows ih =>
        cases hrow : s.taskStore.task? d.taskId with
        | none =>
          simp only [List.filterMap_cons, hrow]
          exact ih.cons d.taskId
        | some row =>
          have hid : row.id = d.taskId := Table.find_key hrow
          simp only [List.filterMap_cons, hrow, List.map_cons, hid]
          exact ih.cons_cons d.taskId
    have hids := tasks.nodup.sublist (List.filter_sublist (p := fun d => d.assignee == agentId) |>.map key)
    exact hids.sublist (hsub _)

theorem mem_storeOrphans (s : RegistryHandler) (active seen : List (TaskKey κ)) (k : TaskKey κ) :
    k ∈ (SyncHandler.storeOrphans (dbDispatched s agentId) active seen).map Orphan.id ↔
      OverInStore s agentId k ∧ k ∉ active ∧ k ∉ seen := by
  have hword : ∀ status : TaskStatus,
      (Json.str status.value).isWord overWords = true ↔ status = .completed ∨ status = .failed := by
    intro status
    cases status <;> decide
  simp only [SyncHandler.storeOrphans, List.map_map, List.mem_map, List.mem_filter, Function.comp_apply,
    Bool.and_eq_true, Bool.not_eq_true', List.contains_eq_mem, decide_eq_false_iff_not, mem_dbDispatched, hword]
  cases k with
  | text id =>
    simp only [TaskKey.text.injEq]
    constructor
    · rintro ⟨row, ⟨⟨hassignee, hrow⟩, ⟨hseen, hactive⟩, hstatus⟩, rfl⟩
      exact ⟨⟨hassignee, row, hrow, hstatus⟩, hactive, hseen⟩
    · rintro ⟨⟨hassignee, row, hrow, hstatus⟩, hactive, hseen⟩
      have hid : row.id = id := Table.find_key hrow
      subst hid
      exact ⟨row, ⟨⟨hassignee, hrow⟩, ⟨hseen, hactive⟩, hstatus⟩, rfl⟩
  | other k => simp [OverInStore]

theorem storeOrphans_nodup (s : RegistryHandler) (active seen : List (TaskKey κ)) :
    ((SyncHandler.storeOrphans (dbDispatched s agentId) active seen).map Orphan.id).Nodup := by
  have hids := (dbDispatched_ids agentId s).map (f := TaskKey.text (κ := κ)) (fun _ _ h => TaskKey.text.inj h)
  rw [List.map_map] at hids
  rw [SyncHandler.storeOrphans, List.map_map]
  exact hids.sublist (List.filter_sublist.map _)

/-- The reply has the tasks that are over in memory or in the store and that were not reported, each once. -/
theorem mem_orphans (active : List (TaskKey κ)) (dispatched : RegistryHandler) (k : TaskKey κ) :
    k ∈ (s.orphans agentId (dbDispatched dispatched agentId) active).map Orphan.id ↔
      (OverInMemory s agentId k ∨ OverInStore dispatched agentId k) ∧ k ∉ active := by
  rw [SyncHandler.orphans, List.map_append, List.mem_append, mem_memoryOrphans, mem_storeOrphans, mem_memoryOrphans]
  tauto

theorem orphans_nodup (active : List (TaskKey κ)) (dispatched : RegistryHandler) :
    ((s.orphans agentId (dbDispatched dispatched agentId) active).map Orphan.id).Nodup := by
  rw [SyncHandler.orphans, List.map_append]
  refine List.nodup_append.mpr
    ⟨memoryOrphans_nodup agentId s active, storeOrphans_nodup agentId dispatched active _, ?_⟩
  intro a ha b hb
  have hunseen := ((mem_storeOrphans agentId dispatched active _ b).mp hb).2.2
  rintro rfl
  exact hunseen ha

theorem recordSync_record (s : RegistryHandler) (data : List (String × Json)) (now : Int) (k : String) :
    (recordSync s agentId data now).record? k = s.record? k := by
  unfold recordSync
  dsimp only
  split <;> rfl

/-- What the agent did not report is over after the merge if it was before it. -/
theorem merged_over (e : Engine) {data : List (String × Json)} (clocks : String → Clock) {now : Int}
    {card : Option Bool} {items : List Json}
    (hitems : syncedItems s.toRegistryHandler agentId data now card = some items) {k : TaskKey κ}
    (hk : k ∉ agentActiveIds hash items) :
    OverInMemory ⟨Server.handleStateSync e s.toRegistryHandler agentId data clocks now card,
      mergeOthers hash agentId items s.others⟩ agentId k ↔ OverInMemory s agentId k := by
  cases k with
  | other k => simp only [OverInMemory, mergeOthers_unreported hash agentId s.others hk]
  | text id =>
    have hrecord : ∀ t : Record, t.state.isWord overWords = true →
        ((Server.handleStateSync e s.toRegistryHandler agentId data clocks now card).record? id = some t ↔
          s.record? id = some t) := by
      intro t hover
      have hrestored := restoreTasks_over (recordSync s.toRegistryHandler agentId data now) agentId id t hover
      simp only [Server.handleStateSync, hitems]
      rw [mergeTasks_unlisted e agentId clocks _ (unreported_unlisted hash hk), hrestored, recordSync_record]
    simp only [OverInMemory]
    constructor
    · rintro ⟨t, hfind, hagent, hover⟩
      exact ⟨t, (hrecord t hover).mp hfind, hagent, hover⟩
    · rintro ⟨t, hfind, hagent, hover⟩
      exact ⟨t, (hrecord t hover).mpr hfind, hagent, hover⟩

/-- The answer is a reply that has the tasks of the agent that are over and that it did not report, each once. -/
def ExactReply (items : List Json) : Option (SyncAnswer κ) → Prop
  | some (.stateSyncReply orphanedTasks) => (orphanedTasks.map Orphan.id).Nodup ∧
      ∀ k, k ∈ orphanedTasks.map Orphan.id ↔
        (OverInMemory s agentId k ∨ OverInStore s.toRegistryHandler agentId k) ∧ k ∉ agentActiveIds hash items
  | _ => False

/-- A message that names an agent names the owner of the connection. -/
def OwnsSync (agentId : String) (data : List (String × Json)) : Prop :=
  (Json.get data "agent_id" (.str "")).truthy = true → Json.get data "agent_id" (.str "") = .str agentId

theorem syncRefusal_none_iff {s : RegistryHandler} {data : List (String × Json)} {now : Int}
    (hallowed : stateSyncAllowed s agentId now = true) :
    syncRefusal s agentId data now (some false) = none ↔ OwnsSync agentId data := by
  have howner : (Json.get data "agent_id" (.str "")).isWord [agentId] = true ↔
      Json.get data "agent_id" (.str "") = .str agentId := by
    simp [Json.isWord_iff]
  rw [OwnsSync, ← howner]
  simp [syncRefusal, hallowed]

theorem syncedItems_eq {s : RegistryHandler} {data : List (String × Json)} {now : Int} {items : List Json}
    (hallowed : stateSyncAllowed s agentId now = true) (howns : OwnsSync agentId data)
    (hitems : Json.get data "active_tasks" (.arr []) = .arr items) :
    syncedItems s agentId data now (some false) = if items.all idReadable then some items else none := by
  have hrefused := (syncRefusal_none_iff agentId hallowed).mpr howns
  have hclaimed : ((Json.get data "agent_id" (.str "")).truthy &&
      !(Json.get data "agent_id" (.str "")).isWord [agentId]) = false := by
    by_contra htrue
    unfold syncRefusal at hrefused
    dsimp only at hrefused
    rw [if_pos (by simpa using htrue)] at hrefused
    cases hrefused
  simp only [syncedItems, hclaimed, hallowed, hitems, Json.iterate, Option.filter, Bool.false_eq_true, if_false,
    Bool.not_true, bne_self_eq_false]

/-- A `state_sync` of a registered agent, within its rate limit, with a list of objects, is answered by the exact
reply if and only if the message names no other agent, every id can be hashed and every item that is reported as
finished has an id. -/
theorem SyncHandler.state_sync_exact_iff (e : Engine) (data : List (String × Json)) (clocks : String → Clock)
    (now : Int) (items : List (List (String × Json)))
    (hitems : Json.get data "active_tasks" (.arr []) = .arr (items.map .obj))
    (hallowed : stateSyncAllowed s.toRegistryHandler agentId now = true) :
    ExactReply hash agentId s (items.map .obj)
        (SyncHandler.handleStateSync hash e s agentId data clocks now (some false)).2 ↔
      OwnsSync agentId data ∧ ∀ fields ∈ items, idReadable (.obj fields) = true ∧ loggable (.obj fields) = true := by
  have hall : (∀ fields ∈ items, idReadable (.obj fields) = true ∧ loggable (.obj fields) = true) ↔
      (items.map Json.obj).all idReadable = true ∧ (items.map Json.obj).all loggable = true := by
    simp only [List.all_map, List.all_eq_true, Function.comp_apply]
    exact forall₂_and
  rw [hall]
  unfold SyncHandler.handleStateSync
  dsimp only
  cases hrefusal : syncRefusal s.toRegistryHandler agentId data now (some false) with
  | some refusal =>
    have hforeign : ¬ OwnsSync agentId data := by
      rw [← syncRefusal_none_iff agentId hallowed, hrefusal]
      simp
    exact iff_of_false (fun h => h) (fun h => hforeign h.1)
  | none =>
    have howns := (syncRefusal_none_iff agentId hallowed).mp hrefusal
    have hsynced := syncedItems_eq agentId hallowed howns hitems
    by_cases hread : (items.map Json.obj).all idReadable = true
    · rw [if_pos hread] at hsynced
      simp only [hsynced]
      by_cases hlog : (items.map Json.obj).all loggable = true
      · rw [if_pos hlog]
        refine iff_of_true ⟨orphans_nodup agentId _ _ s.toRegistryHandler, fun k => ?_⟩ ⟨howns, hread, hlog⟩
        rw [mem_orphans]
        apply and_congr_left
        intro hk
        rw [merged_over hash agentId s e clocks hsynced hk]
      · rw [if_neg hlog]
        exact iff_of_false (fun h => h) (fun h => hlog h.2.2)
    · rw [if_neg hread] at hsynced
      simp only [hsynced]
      exact iff_of_false (fun h => h) (fun h => hread h.2.1)

end

/-- Ids that are numbers are equal by their value. -/
def numberKey : Json → Int
  | .int n => n
  | .bool true => 1
  | _ => 0

/-- A server that holds a task of the agent for completed. -/
def syncServer : SyncHandler Int where
  toRegistryHandler := { RegistryHandler.start Db.empty true with
    tasks := Table.empty.put ⟨"t", "a", .str "completed", .null, .null, none⟩ }
  others := Table.empty

/-- A `state_sync` of the agent with these items. -/
def syncOf (items : List (List (String × Json))) : Option (SyncAnswer Int) :=
  (SyncHandler.handleStateSync numberKey idleEngine syncServer "a" [("active_tasks", .arr (items.map .obj))]
    (fun _ => .fixed 0) 0 (some false)).2

/-- An agent that works on another task, and on one with a number for its id, is told of the completed one. -/
theorem state_sync_sample : ExactReply numberKey "a" syncServer
    [.obj [("id", .str "u"), ("status", .str "working")], .obj [("id", .int 5), ("status", .str "working")]]
    (syncOf [[("id", .str "u"), ("status", .str "working")], [("id", .int 5), ("status", .str "working")]]) := by
  refine (SyncHandler.state_sync_exact_iff numberKey "a" syncServer idleEngine _ (fun _ => .fixed 0) 0
    [[("id", .str "u"), ("status", .str "working")], [("id", .int 5), ("status", .str "working")]] rfl rfl).mpr ⟨?_, ?_⟩
  · intro hclaimed
    cases hclaimed
  · decide

/-- An item that is reported as completed and has no id leaves the agent without a reply. -/
theorem unnamed_item_raises :
    ¬ ExactReply numberKey "a" syncServer [.obj [("status", .str "completed")]]
      (syncOf [[("status", .str "completed")]]) :=
  fun h => h

end A2ARegistry.Server
