import A2ARegistry.Audit.Store

namespace A2ARegistry.Audit
open Base

/-- A purge leaves alone what is not older than it allows, and nothing else deletes. -/
def AuditCall.spares (retentionDays : Int) (timestamp : Rat) : AuditCall → Bool
  | .log _ _ => true
  | .purgeOld now days => !(timestamp < now - (days.getD retentionDays : Int) * 86400)

/-- How often `log` is called. -/
def logs (calls : List AuditCall) : Nat :=
  calls.countP (fun call => match call with | .log _ _ => true | .purgeOld _ _ => false)

section History

variable {store : AuditStore}

@[simp] theorem step_retention (store : AuditStore) (call : AuditCall) :
    (store.step call).retentionDays = store.retentionDays := by
  cases call <;> rfl

@[simp] theorem exec_retention (store : AuditStore) (calls : List AuditCall) :
    (exec AuditStore.step store calls).retentionDays = store.retentionDays :=
  exec_invariant (I := fun later : AuditStore => later.retentionDays = store.retentionDays)
    (fun later call h => (step_retention later call).trans h) rfl calls

theorem exec_next (store : AuditStore) (calls : List AuditCall) :
    (exec AuditStore.step store calls).rows.next = store.rows.next + logs calls := by
  induction calls generalizing store with
  | nil => rfl
  | cons call calls ih =>
    rw [exec_cons, ih]
    cases call with
    | log now args =>
      have hlogs : logs (.log now args :: calls) = logs calls + 1 := by simp [logs]
      rw [hlogs]
      change store.rows.next + 1 + logs calls = _
      omega
    | purgeOld now days =>
      have hlogs : logs (.purgeOld now days :: calls) = logs calls := by simp [logs]
      rw [hlogs]
      rfl

/-- A call leaves the row of an id that has been assigned as it is, or deletes it. -/
theorem step_find {id : Nat} (hid : id < store.rows.next) (call : AuditCall) : (store.step call).rows.find? id =
    (store.rows.find? id).filter (fun r => call.spares store.retentionDays r.timestamp) := by
  cases call with
  | log now args =>
    have hinsert := AutoTable.find_insert store.rows (args.row now) (fun _ => rfl) id
    rw [if_neg (Nat.ne_of_lt hid)] at hinsert
    refine hinsert.trans ?_
    cases store.rows.find? id <;> rfl
  | purgeOld now days => exact Table.find_keep store.rows.toTable _ id

/-- So does a run. -/
theorem exec_find {id : Nat} (hid : id < store.rows.next) (calls : List AuditCall) :
    (exec AuditStore.step store calls).rows.find? id =
      (store.rows.find? id).filter (fun r => calls.all (fun call => call.spares store.retentionDays r.timestamp)) := by
  induction calls generalizing store with
  | nil =>
    rw [exec_nil]
    cases store.rows.find? id <;> rfl
  | cons call calls ih =>
    have hnext : id < (store.step call).rows.next := by
      have hgrow := exec_next store [call]
      rw [exec_cons, exec_nil] at hgrow
      omega
    rw [exec_cons, ih hnext, step_find hid, step_retention, Option.filter_filter]
    rfl

theorem start_retention (retentionDays : Int) : (AuditStore.start retentionDays).retentionDays = retentionDays := rfl

theorem start_next (retentionDays : Int) : (AuditStore.start retentionDays).rows.next = 1 := rfl

/-- The ids that are there are those of calls. -/
theorem exec_ids (retentionDays : Int) (calls : List AuditCall) {id : Nat} {row : AuditRow}
    (h : (exec AuditStore.step (.start retentionDays) calls).rows.find? id = some row) : 1 ≤ id ∧ id ≤ logs calls := by
  have hlt := AutoTable.find_lt h
  rw [exec_next, start_next] at hlt
  refine ⟨?_, by omega⟩
  by_contra hzero
  have hunassigned : id < (AuditStore.start retentionDays).rows.next := by
    rw [start_next]
    omega
  rw [exec_find hunassigned] at h
  cases h

/-- The n-th call of `log` is somewhere in the run. -/
theorem nth_log {calls : List AuditCall} {n : Nat} (hn : n < logs calls) :
    ∃ pre now args post, calls = pre ++ .log now args :: post ∧ logs pre = n := by
  induction calls generalizing n with
  | nil => cases hn
  | cons call calls ih =>
    cases call with
    | purgeOld now days =>
      obtain ⟨pre, t, args, post, rfl, hpre⟩ := ih (by simpa [logs] using hn)
      exact ⟨.purgeOld now days :: pre, t, args, post, rfl, by simpa [logs] using hpre⟩
    | log now args =>
      cases n with
      | zero => exact ⟨[], now, args, calls, rfl, rfl⟩
      | succ n =>
        obtain ⟨pre, t, more, post, rfl, hpre⟩ := ih (by simpa [logs] using hn)
        exact ⟨.log now args :: pre, t, more, post, rfl, by simpa [logs] using hpre⟩

/-- The audit log is its history: in every run of calls the n-th call of `log` gets the id n, its row is there as it was
written until a purge finds it too old, and never again, and there are no other rows. -/
theorem audit_history (retentionDays : Int) (calls : List AuditCall) :
    (∀ pre now args post, calls = pre ++ .log now args :: post →
      ((exec AuditStore.step (.start retentionDays) pre).log now args).1 = logs pre + 1 ∧
      (exec AuditStore.step (.start retentionDays) calls).rows.find? (logs pre + 1) =
        if post.all (fun call => call.spares retentionDays now) then some (args.row now (logs pre + 1)) else none) ∧
    ∀ row ∈ (exec AuditStore.step (.start retentionDays) calls).rows.rows, ∃ pre now args post,
      calls = pre ++ .log now args :: post ∧ row = args.row now (logs pre + 1) := by
  have hlogged : ∀ pre now args post, calls = pre ++ .log now args :: post →
      ((exec AuditStore.step (.start retentionDays) pre).log now args).1 = logs pre + 1 ∧
      (exec AuditStore.step (.start retentionDays) calls).rows.find? (logs pre + 1) =
        if post.all (fun call => call.spares retentionDays now) then some (args.row now (logs pre + 1)) else none := by
    rintro pre now args post rfl
    have hnext : (exec AuditStore.step (.start retentionDays) pre).rows.next = logs pre + 1 := by
      rw [exec_next, start_next, Nat.add_comm]
    refine ⟨hnext, ?_⟩
    have hinsert := AutoTable.find_insert (exec AuditStore.step (.start retentionDays) pre).rows (args.row now)
      (fun _ => rfl) (logs pre + 1)
    rw [if_pos hnext.symm, hnext] at hinsert
    have hlater : logs pre + 1 < ((exec AuditStore.step (.start retentionDays) pre).step (.log now args)).rows.next := by
      change logs pre + 1 < (exec AuditStore.step (.start retentionDays) pre).rows.next + 1
      omega
    rw [exec_append, exec_cons, exec_find hlater post, step_retention, exec_retention, start_retention]
    refine (congrArg _ hinsert).trans ?_
    rw [Option.filter_some]
    rfl
  refine ⟨hlogged, fun row hrow => ?_⟩
  have hfind := Table.find_mem hrow
  obtain ⟨hpos, hle⟩ := exec_ids retentionDays calls hfind
  have hbefore : key row - 1 < logs calls := by omega
  obtain ⟨pre, now, args, post, hsplit, hpre⟩ := nth_log hbefore
  have hid : key row = logs pre + 1 := by omega
  refine ⟨pre, now, args, post, hsplit, ?_⟩
  have hrow' := (hlogged pre now args post hsplit).2
  rw [← hid, hfind] at hrow'
  split at hrow'
  · rw [← hid]
    exact Option.some.inj hrow'
  · cases hrow'

end History

section Reader

variable {store : AuditStore} {lower : String → String} {f : AuditFilter} {x : AuditRow} {sortDesc : Bool}
  {calls : List AuditCall}

theorem older_iff {a b : AuditRow} :
    older a b = true ↔ a.timestamp < b.timestamp ∨ a.timestamp = b.timestamp ∧ a.id ≤ b.id := by
  simp [older]

theorem older_trans (a b c : AuditRow) (hab : older a b = true) (hbc : older b c = true) : older a c = true := by
  rw [older_iff] at *
  rcases hab with hab | ⟨hab, hid⟩
  · rcases hbc with hbc | ⟨hbc, _⟩
    · exact Or.inl (lt_trans hab hbc)
    · exact Or.inl (hbc ▸ hab)
  · rcases hbc with hbc | ⟨hbc, hid'⟩
    · exact Or.inl (hab ▸ hbc)
    · exact Or.inr ⟨hab.trans hbc, Nat.le_trans hid hid'⟩

theorem older_total (a b : AuditRow) : older a b = true ∨ older b a = true := by
  rw [older_iff, older_iff]
  rcases lt_trichotomy a.timestamp b.timestamp with hlt | heq | hgt
  · exact Or.inl (Or.inl hlt)
  · rcases Nat.le_total a.id b.id with hid | hid
    · exact Or.inl (Or.inr ⟨heq, hid⟩)
    · exact Or.inr (Or.inr ⟨heq.symm, hid⟩)
  · exact Or.inr (Or.inl hgt)

theorem older_anti {a b : AuditRow} (hab : older a b = true) (hba : older b a = true) : a.id = b.id := by
  rw [older_iff] at hab hba
  rcases hab with hab | ⟨hab, hid⟩
  · rcases hba with hba | ⟨hba, _⟩
    · exact absurd (lt_trans hab hba) (lt_irrefl _)
    · exact absurd (hba ▸ hab) (lt_irrefl _)
  · rcases hba with hba | ⟨_, hid'⟩
    · exact absurd (hab ▸ hba) (lt_irrefl _)
    · exact Nat.le_antisymm hid hid'

theorem ordered_trans (a b c : AuditRow) (hab : ordered sortDesc a b = true) (hbc : ordered sortDesc b c = true) :
    ordered sortDesc a c = true := by
  cases sortDesc with
  | true => exact older_trans c b a hbc hab
  | false => exact older_trans a b c hab hbc

theorem ordered_total (a b : AuditRow) : (ordered sortDesc a b || ordered sortDesc b a) = true := by
  rw [Bool.or_eq_true]
  cases sortDesc with
  | true => exact older_total b a
  | false => exact older_total a b

theorem matching_nodup (store : AuditStore) : (store.matching lower f).Nodup :=
  (List.Nodup.of_map key store.rows.nodup).filter _

theorem mem_matching : x ∈ store.matching lower f ↔ store.rows.find? x.id = some x ∧ f.matches lower x = true := by
  rw [AuditStore.matching, List.mem_filter]
  refine and_congr_left fun _ => ⟨fun h => Table.find_mem h, fun h => (Table.find_some_iff.mp h).1⟩

theorem matching_anti (store : AuditStore) (a : AuditRow) (ha : a ∈ store.matching lower f) (b : AuditRow)
    (hb : b ∈ store.matching lower f) (hab : ordered sortDesc a b = true) (hba : ordered sortDesc b a = true) :
    a = b := by
  have hid : a.id = b.id := by
    cases sortDesc with
    | true => exact older_anti hba hab
    | false => exact older_anti hab hba
  have hfound := (mem_matching.mp ha).1
  rw [hid, (mem_matching.mp hb).1] at hfound
  exact (Option.some.inj hfound).symm

/-- A row that was there is there after a run exactly when no purge of the run deletes it. -/
theorem matching_exec (hx : x ∈ store.matching lower f) (calls : List AuditCall) :
    x ∈ (exec AuditStore.step store calls).matching lower f ↔
      calls.all (fun call => call.spares store.retentionDays x.timestamp) = true := by
  obtain ⟨hfind, hmatches⟩ := mem_matching.mp hx
  rw [mem_matching, exec_find (AutoTable.find_lt hfind), hfind, Option.filter_some]
  split
  · rename_i hall
    exact iff_of_true ⟨rfl, hmatches⟩ hall
  · rename_i hnot
    exact iff_of_false (fun h => nomatch h.1) hnot

/-- The order of a reader whom no purge can mislead: newest first, or none is made. -/
def Steady (sortDesc : Bool) : AuditCall → Prop
  | .log _ _ => True
  | .purgeOld _ _ => sortDesc = true

/-- Rows come before a row that stays, and none of those before it goes. -/
theorem rank_step (call : AuditCall) (hsteady : Steady sortDesc call)
    (hspares : call.spares store.retentionDays x.timestamp = true) :
    rank (ordered sortDesc) (store.matching lower f) x ≤
      rank (ordered sortDesc) ((store.step call).matching lower f) x := by
  cases call with
  | log now args =>
    have hmore : (store.step (.log now args)).matching lower f =
        store.matching lower f ++ [args.row now store.rows.next].filter (f.matches lower) := List.filter_append ..
    rw [hmore, rank, rank, List.countP_append]
    exact Nat.le_add_right _ _
  | purgeOld now days =>
    obtain rfl : sortDesc = true := hsteady
    have hless : (store.step (.purgeOld now days)).matching lower f = (store.matching lower f).filter
        (fun r => !(r.timestamp < store.cutoff now days)) := List.filter_comm _ _ _
    have hkept : ¬ x.timestamp < store.cutoff now days := by
      simpa [AuditCall.spares, AuditStore.cutoff] using hspares
    rw [hless, rank, rank, List.countP_filter]
    refine List.countP_mono_left fun y _ hy => ?_
    have hbefore : older x y = true := (Bool.and_eq_true_iff.mp hy).1
    have hle : x.timestamp ≤ y.timestamp := by
      rcases older_iff.mp hbefore with hlt | ⟨heq, _⟩
      · exact hlt.le
      · exact heq.le
    rw [hy, Bool.true_and, Bool.not_eq_true', decide_eq_false_iff_not]
    exact fun hlt => hkept (lt_of_le_of_lt hle hlt)

theorem rank_exec (hsteady : ∀ call ∈ calls, Steady sortDesc call)
    (hspares : ∀ call ∈ calls, call.spares store.retentionDays x.timestamp = true) :
    rank (ordered sortDesc) (store.matching lower f) x ≤
      rank (ordered sortDesc) ((exec AuditStore.step store calls).matching lower f) x := by
  induction calls generalizing store with
  | nil => exact Nat.le_refl _
  | cons call calls ih =>
    obtain ⟨hfirst, hrest⟩ := List.forall_mem_cons.mp hspares
    obtain ⟨hone, hmore⟩ := List.forall_mem_cons.mp hsteady
    exact Nat.le_trans (rank_step call hone hfirst) (ih hmore (by rwa [step_retention]))

/-- The pages of a reader that asks for one after the other, while calls are made in between. -/
def AuditStore.read (lower : String → String) (f : AuditFilter) (limit : Int) (sortDesc : Bool) :
    Nat → AuditStore → List (List AuditCall) → List (List AuditEvent)
  | k, store, [] => [store.query lower f limit (k * pageSize limit : Nat) sortDesc]
  | k, store, gap :: gaps =>
    store.query lower f limit (k * pageSize limit : Nat) sortDesc ::
      AuditStore.read lower f limit sortDesc (k + 1) (exec AuditStore.step store gap) gaps

/-- The store after the calls of a gap. -/
def AuditStore.during (store : AuditStore) (gap : List AuditCall) : AuditStore := exec AuditStore.step store gap

theorem query_page (store : AuditStore) (limit : Int) (k : Nat) :
    store.query lower f limit (k * AuditStore.pageSize limit : Nat) sortDesc =
      (slice (AuditStore.pageSize limit) (k * AuditStore.pageSize limit)
        ((store.matching lower f).mergeSort (ordered sortDesc))).map AuditRow.toAuditEvent := by
  have hoffset : (max ((k * AuditStore.pageSize limit : Nat) : Int) 0).toNat = k * AuditStore.pageSize limit := by omega
  rw [AuditStore.query, AuditStore.selected, hoffset]

theorem read_pages (k : Nat) (store : AuditStore) (limit : Int) (gaps : List (List AuditCall)) :
    AuditStore.read lower f limit sortDesc k store gaps =
      (readPages AuditStore.during (fun s => s.matching lower f) (ordered sortDesc) (AuditStore.pageSize limit) k store
        gaps).map (List.map AuditRow.toAuditEvent) := by
  induction gaps generalizing k store with
  | nil => rw [AuditStore.read, readPages, query_page, List.map_singleton]
  | cons gap gaps ih =>
    rw [AuditStore.read, readPages, query_page, ih, List.map_cons]
    rfl

theorem exec_during (store : AuditStore) (gaps : List (List AuditCall)) :
    exec AuditStore.during store gaps = exec AuditStore.step store gaps.flatten := by
  induction gaps generalizing store with
  | nil => rfl
  | cons gap gaps ih =>
    rw [exec_cons, ih, List.flatten_cons, exec_append]
    rfl

/-- Whatever is logged and purged between its pages, with whatever clocks, a reader that goes on until a page is not
full sees every event it asks for that is there all the while: newest first in any case, oldest first where nothing is
purged. -/
theorem reader_misses_nothing (store : AuditStore) (lower : String → String) (f : AuditFilter) (limit : Int)
    {sortDesc : Bool} {gaps : List (List AuditCall)} (hsteady : ∀ call ∈ gaps.flatten, Steady sortDesc call)
    (hshort : ((exec AuditStore.step store gaps.flatten).query lower f limit
      (gaps.length * AuditStore.pageSize limit : Nat) sortDesc).length < AuditStore.pageSize limit)
    {x : AuditRow} (hfirst : x ∈ store.matching lower f)
    (hlast : x ∈ (exec AuditStore.step store gaps.flatten).matching lower f) :
    ∃ page ∈ AuditStore.read lower f limit sortDesc 0 store gaps, x.toAuditEvent ∈ page := by
  rw [read_pages]
  have hspares := (matching_exec hfirst gaps.flatten).mp hlast
  have hrun : Always AuditStore.during (fun s => x ∈ s.matching lower f) store gaps ∧
      EachStep AuditStore.during (fun s gap => rank (ordered sortDesc) (s.matching lower f) x ≤
        rank (ordered sortDesc) ((s.during gap).matching lower f) x) store gaps := by
    clear hshort hlast
    induction gaps generalizing store with
    | nil => exact ⟨hfirst, trivial⟩
    | cons gap gaps ih =>
      rw [List.flatten_cons, List.all_append, Bool.and_eq_true] at hspares
      rw [List.flatten_cons, List.forall_mem_append] at hsteady
      have hnext := (matching_exec hfirst gap).mpr hspares.1
      obtain ⟨halways, heach⟩ := ih (exec AuditStore.step store gap) hsteady.2 hnext (by rw [exec_retention]; exact hspares.2)
      exact ⟨⟨hfirst, halways⟩, rank_exec hsteady.1 (List.all_eq_true.mp hspares.1), heach⟩
  rw [query_page, List.length_map] at hshort
  have hend := slice_short hshort
  rw [List.length_mergeSort, ← Nat.succ_mul] at hend
  have hfull : (AuditStore.matching (exec AuditStore.during store gaps) lower f).length <
      (0 + gaps.length + 1) * AuditStore.pageSize limit := by
    rw [exec_during, Nat.zero_add]
    exact hend
  have hfrom : 0 * AuditStore.pageSize limit ≤ rank (ordered sortDesc) (store.matching lower f) x := by
    rw [Nat.zero_mul]
    exact Nat.zero_le _
  obtain ⟨page, hpage, hx⟩ :=
    mem_readPages ordered_trans ordered_total matching_anti matching_nodup hrun.1 hrun.2 hfull hfrom
  exact ⟨_, List.mem_map_of_mem hpage, List.mem_map_of_mem hx⟩

def registered (agentId : String) : LogArgs := { eventType := "AGENT_REGISTER", actor := agentId, target := agentId }

/-- Pages of one event, while another is logged: the second page repeats the first, and nothing is missed. -/
theorem first_event_seen : ∃ page ∈ AuditStore.read id {} 1 true 0
    (exec AuditStore.step (.start 90) [.log 0 (registered "a"), .log 1 (registered "b")])
    [[.log 2 (registered "c")], [.purgeOld 3 none], []], ((registered "a").row 0 1).toAuditEvent ∈ page := by
  refine reader_misses_nothing _ _ _ _ ?_ ?_ ?_ ?_
  · intro call hcall
    rcases List.mem_cons.mp hcall with rfl | hcall
    · trivial
    · rw [List.mem_singleton.mp hcall]
      rfl
  · simp only [AuditStore.query, AuditStore.selected, slice, List.length_map, List.length_take, List.length_drop,
      List.length_mergeSort]
    decide +kernel
  · decide
  · decide +kernel

end Reader

end A2ARegistry.Audit
