import A2ARegistry.Orchestration.SharedWorkspace

namespace A2ARegistry.Orchestration.SharedWorkspace
open Base

/-- The agent has an unexpired lock on the file. -/
def WorkspaceFile.Held (f : WorkspaceFile) (t : Int) (agentId : String) : Prop :=
  f.lockedBy = some agentId ∧ ∃ e, f.lockExpires = some e ∧ t < e

/-- At a moment each path has at most one unexpired lock, and its holder is a member of the workspace. -/
structure LockSafe (db : Shared) (t : Int) : Prop where
  unique : ∀ f ∈ db.files.rows, ∀ g ∈ db.files.rows, ∀ a b, f.workspaceId = g.workspaceId → f.path = g.path →
    f.Held t a → g.Held t b → f = g
  member : ∀ f ∈ db.files.rows, ∀ a, f.Held t a → ∃ ws, db.get f.workspaceId = some ws ∧ a ∈ ws.memberAgentIds

/-- The manager, and the time of its last operation. -/
structure Moment where
  db : Shared
  clock : Int

def Moment.step (lockTtl : Int) (s : Moment) (op : Int × Operation) : Moment :=
  ⟨(op.2.run lockTtl op.1 s.db).2, op.1⟩

/-- A lock goes to an agent only if no other has an unexpired one, and `unlock` takes a lock from its holder only. -/
def Respects (lockTtl : Int) (s : Moment) (op : Int × Operation) : Prop :=
  match op.2 with
  | .access (.lock workspaceId (some path) agentId _ _) => (op.2.run lockTtl op.1 s.db).1.isOk = true →
    ∀ f ∈ s.db.files.rows, f.workspaceId = workspaceId → f.path = path → ∀ b, f.Held op.1 b → b = agentId
  | .access (.unlock _ _ agentId _) => ∀ f ∈ s.db.files.rows, ∀ b, f.lockedBy = some b →
    (∀ g, (op.2.run lockTtl op.1 s.db).2.files.find? f.id = some g → g.lockedBy ≠ some b) → b = agentId
  | _ => True

/-- Nobody takes a lock that is held by the agent with the empty name, or unlocks a file it has locked. -/
def Spares (lockTtl : Int) (s : Moment) (op : Int × Operation) : Prop :=
  match op.2 with
  | .access (.lock workspaceId (some path) agentId ttl _) => ∀ ws f, s.db.get workspaceId = some ws →
    agentId ∈ ws.memberAgentIds → fitsInteger (op.1 + ttl.getD lockTtl) = true → s.db.file workspaceId path = some f →
      f.Held op.1 "" → agentId = ""
  | .access (.unlock workspaceId (some path) agentId _) => ∀ ws f, s.db.get workspaceId = some ws →
    s.db.file workspaceId path = some f → f.lockedBy = some "" → agentId = ""
  | _ => True

/-- A path has one row at most, a lock has a time at which it expires, and holders are members. -/
structure Locks (db : Shared) (t : Int) : Prop where
  unique : ∀ f ∈ db.files.rows, ∀ g ∈ db.files.rows, f.workspaceId = g.workspaceId → f.path = g.path → f = g
  timed : ∀ f ∈ db.files.rows, f.lockedBy.isSome → f.lockExpires.isSome
  member : ∀ f ∈ db.files.rows, ∀ a, f.Held t a → ∃ ws, db.get f.workspaceId = some ws ∧ a ∈ ws.memberAgentIds

section Rows

variable {db db' : Shared} {t t' now lockTtl : Int} {f : WorkspaceFile} {workspaceId path agentId : String}

theorem WorkspaceFile.Held.mono {a : String} (h : f.Held t' a) (ht : t ≤ t') : f.Held t a := by
  obtain ⟨hby, e, he, hlt⟩ := h
  exact ⟨hby, e, he, by omega⟩

theorem Locks.safe (h : Locks db t) (ht : t ≤ t') : LockSafe db t' :=
  ⟨fun f hf g hg _ _ hws hpath _ _ => h.unique f hf g hg hws hpath, fun f hf a ha => h.member f hf a (ha.mono ht)⟩

theorem file_some (h : db.file workspaceId path = some f) :
    f ∈ db.files.rows ∧ f.workspaceId = workspaceId ∧ f.path = path := by
  have hfound := List.find?_some h
  simp only [Bool.and_eq_true, beq_iff_eq] at hfound
  exact ⟨List.mem_of_find?_eq_some h, hfound⟩

theorem file_none (h : db.file workspaceId path = none) :
    ∀ f ∈ db.files.rows, f.workspaceId = workspaceId → f.path ≠ path := by
  intro f hf hws hpath
  have hout := List.find?_eq_none.mp h f hf
  simp [hws, hpath] at hout

/-- The row of a path is the one that is found. -/
theorem Locks.file_eq (h : Locks db t) (hf : f ∈ db.files.rows) (hws : f.workspaceId = workspaceId)
    (hpath : f.path = path) : db.file workspaceId path = some f := by
  cases hfile : db.file workspaceId path with
  | none => exact absurd hpath (file_none hfile f hf hws)
  | some g =>
    obtain ⟨hg, hgws, hgpath⟩ := file_some hfile
    rw [h.unique f hf g hg (hws.trans hgws.symm) (hpath.trans hgpath.symm)]

/-- Rows that are changed one by one, each with a lock of a member if it has one. -/
theorem Locks.map (h : Locks db t) (change : WorkspaceFile → WorkspaceFile)
    (hrows : db'.files.rows = db.files.rows.map change)
    (hplace : ∀ f, (change f).workspaceId = f.workspaceId ∧ (change f).path = f.path)
    (hlocks : ∀ f ∈ db.files.rows, ((change f).lockedBy.isSome → (change f).lockExpires.isSome) ∧
      ∀ a, (change f).Held t' a → ∃ ws, db'.get f.workspaceId = some ws ∧ a ∈ ws.memberAgentIds) : Locks db' t' := by
  constructor
  · intro f hf g hg hws hpath
    rw [hrows] at hf hg
    obtain ⟨f₀, hf₀, rfl⟩ := List.mem_map.mp hf
    obtain ⟨g₀, hg₀, rfl⟩ := List.mem_map.mp hg
    rw [(hplace f₀).1, (hplace g₀).1] at hws
    rw [(hplace f₀).2, (hplace g₀).2] at hpath
    rw [h.unique f₀ hf₀ g₀ hg₀ hws hpath]
  · intro f hf
    rw [hrows] at hf
    obtain ⟨f₀, hf₀, rfl⟩ := List.mem_map.mp hf
    exact (hlocks f₀ hf₀).1
  · intro f hf a ha
    rw [hrows] at hf
    obtain ⟨f₀, hf₀, rfl⟩ := List.mem_map.mp hf
    rw [(hplace f₀).1]
    exact (hlocks f₀ hf₀).2 a ha

theorem mem_sortedIds {ids : List String} {a : String} : a ∈ sortedIds ids ↔ a ∈ ids := by
  rw [sortedIds, List.mem_insertionSort, List.mem_dedup]

/-- A workspace whose members are changed. -/
theorem get_setMembers (db : Shared) (workspaceId : String) (members : List String) (k : String) :
    (db.setMembers workspaceId members).get k = (db.get k).map (fun w =>
      if k = workspaceId then { w with memberAgentIds := members } else w) := by
  rw [Shared.get, Shared.setMembers, Table.find_modify, ← Shared.get]
  cases hget : db.get k with
  | none => rfl
  | some w =>
    have hid : w.id = k := Table.find_key hget
    simp [hid]

theorem Locks.mono (h : Locks db t) (ht : t ≤ t') : Locks db t' :=
  ⟨h.unique, h.timed, fun f hf a ha => h.member f hf a (ha.mono ht)⟩

/-- Rows that lose their lock where `p` says so, and members that keep those who still have one. -/
theorem Locks.clear (h : Locks db t) (ht : t ≤ t') (p : WorkspaceFile → Bool) (clear : WorkspaceFile → WorkspaceFile)
    (hrows : db'.files.rows = db.files.rows.map (fun f => if p f then clear f else f))
    (hclear : ∀ f, (clear f).workspaceId = f.workspaceId ∧ (clear f).path = f.path ∧ (clear f).lockedBy = none)
    (hmembers : ∀ f ∈ db.files.rows, p f = false → ∀ a, f.Held t' a → ∀ ws, db.get f.workspaceId = some ws →
      a ∈ ws.memberAgentIds → ∃ ws', db'.get f.workspaceId = some ws' ∧ a ∈ ws'.memberAgentIds) : Locks db' t' := by
  refine h.map _ hrows (fun f => ?_) (fun f hf => ?_)
  · by_cases hp : p f = true
    · rw [if_pos hp]
      exact ⟨(hclear f).1, (hclear f).2.1⟩
    · rw [if_neg hp]
      exact ⟨rfl, rfl⟩
  · by_cases hp : p f = true
    · rw [if_pos hp]
      refine ⟨fun hby => ?_, fun a ha => ?_⟩
      · rw [(hclear f).2.2] at hby
        cases hby
      · have hby := ha.1
        rw [(hclear f).2.2] at hby
        cases hby
    · rw [if_neg hp]
      refine ⟨h.timed f hf, fun a ha => ?_⟩
      obtain ⟨ws, hws, hin⟩ := h.member f hf a (ha.mono ht)
      exact hmembers f hf (Bool.eq_false_iff.mpr hp) a ha ws hws hin

end Rows

section Operations

variable {db : Shared} {t now lockTtl : Int} {workspaceId agentId : String}

theorem create_locks (h : Locks db t) (ht : t ≤ now) (name path tenant createdBy : String) (members : List String) :
    Locks (create now workspaceId name path tenant createdBy members db).2 now := by
  unfold create
  split
  · exact h.mono ht
  · rename_i workspaces hinsert
    refine ⟨h.unique, h.timed, fun f hf a ha => ?_⟩
    obtain ⟨ws, hws, hin⟩ := h.member f hf a (ha.mono ht)
    refine ⟨ws, ?_, hin⟩
    have hother : f.workspaceId ≠ workspaceId := by
      intro he
      have hfree := (Table.insert_some hinsert).1
      have hnone : db.get workspaceId = none := hfree
      rw [he, hnone] at hws
      cases hws
    exact (Table.find_insert hinsert f.workspaceId).trans ((if_neg hother).trans hws)

theorem delete_locks (h : Locks db t) (ht : t ≤ now) (caller : String) :
    Locks (delete workspaceId caller db).2 now := by
  unfold delete
  split
  · exact h.mono ht
  split
  · exact h.mono ht
  have hkept : ∀ f, f ∈ (db.files.keep (fun f => f.workspaceId != workspaceId)).rows →
      f ∈ db.files.rows ∧ f.workspaceId ≠ workspaceId := by
    intro f hf
    obtain ⟨hf, hne⟩ := List.mem_filter.mp hf
    exact ⟨hf, by simpa using hne⟩
  constructor
  · exact fun f hf g hg => h.unique f (hkept f hf).1 g (hkept g hg).1
  · exact fun f hf => h.timed f (hkept f hf).1
  · intro f hf a ha
    obtain ⟨hf, hne⟩ := hkept f hf
    obtain ⟨ws, hws, hin⟩ := h.member f hf a (ha.mono ht)
    refine ⟨ws, ?_, hin⟩
    have hid : ws.id = f.workspaceId := Table.find_key hws
    have hkeeps : (!(ws.id == workspaceId)) = true := by simpa [hid] using hne
    have hfind := Table.find_delete db.workspaces (fun w => w.id == workspaceId) f.workspaceId
    have hwsrow : db.workspaces.find? f.workspaceId = some ws := hws
    rw [hwsrow, Option.filter_some, if_pos hkeeps] at hfind
    exact hfind

theorem reap_locks (h : Locks db t) (ht : t ≤ now) (maxAge : Option Int) :
    Locks (reapStaleLocks lockTtl now maxAge db).2 now := by
  refine h.clear ht (fun f => f.staleAt (now - maxAge.getD lockTtl))
    (fun f => { f with lockedBy := none, lockExpires := none }) rfl (fun f => ⟨rfl, rfl, rfl⟩) ?_
  exact fun f _ _ a _ ws hws hin => ⟨ws, hws, hin⟩

/-- More members. -/
theorem join_locks (h : Locks db t) (ht : t ≤ now) : Locks ((join workspaceId agentId).run db).2 now := by
  simp only [join, Program.run]
  cases hget : db.get workspaceId with
  | none => exact h.mono ht
  | some ws =>
    dsimp only
    split
    · exact h.mono ht
    · refine ⟨h.unique, h.timed, fun f hf a ha => ?_⟩
      obtain ⟨ws', hws', hin⟩ := h.member f hf a (ha.mono ht)
      have hafter := get_setMembers db workspaceId (sortedIds (agentId :: ws.memberAgentIds)) f.workspaceId
      rw [hws', Option.map_some] at hafter
      refine ⟨_, hafter, ?_⟩
      split
      · rename_i hid
        rw [hid, hget] at hws'
        cases hws'
        exact mem_sortedIds.mpr (List.mem_cons_of_mem _ hin)
      · exact hin

/-- A member leaves, and its locks are released. -/
theorem leave_locks (h : Locks db t) (ht : t ≤ now) : Locks ((leave now workspaceId agentId).run db).2 now := by
  simp only [leave, Program.run]
  cases hget : db.get workspaceId with
  | none => exact h.mono ht
  | some ws =>
    dsimp only
    split
    · refine h.clear ht
        (fun f => f.workspaceId == workspaceId && f.lockedBy == some agentId && f.lockExpires.all (fun e => now < e))
        (fun f => { f with lockedBy := none, lockExpires := none }) rfl (fun f => ⟨rfl, rfl, rfl⟩) ?_
      intro f hf hkept a ha ws' hws' hin
      have hafter := get_setMembers db workspaceId (sortedIds (ws.memberAgentIds.filter (· ≠ agentId))) f.workspaceId
      rw [hws', Option.map_some] at hafter
      refine ⟨_, hafter, ?_⟩
      split
      · rename_i hid
        rw [hid, hget] at hws'
        cases hws'
        obtain ⟨hby, e, he, hlt⟩ := ha
        have hne : a ≠ agentId := by
          intro hsame
          simp [hid, hby, hsame, he, hlt] at hkept
        exact mem_sortedIds.mpr (List.mem_filter.mpr ⟨hin, by simpa using hne⟩)
      · exact hin
    · exact h.mono ht

theorem takeLock_locks {f : WorkspaceFile} (h : Locks db t) (ht : t ≤ now) (hf : f ∈ db.files.rows) {ws : Workspace}
    (hget : db.get f.workspaceId = some ws) (hmember : agentId ∈ ws.memberAgentIds) (expires : Int) :
    Locks (db.takeLock f.id agentId expires) now := by
  refine h.map _ rfl (fun g => ?_) (fun g hg => ?_)
  · split
    · exact ⟨rfl, rfl⟩
    · exact ⟨rfl, rfl⟩
  · split
    · rename_i hid
      have hsame : g = f :=
        List.inj_on_of_nodup_map db.files.nodup hg hf (by simpa [Keyed.key] using hid)
      refine ⟨fun _ => rfl, fun a ha => ⟨ws, by rw [hsame]; exact hget, ?_⟩⟩
      cases ha.1
      exact hmember
    · exact ⟨h.timed g hg, fun a ha => h.member g hg a (ha.mono ht)⟩

theorem trackFile_locks {path : String} (h : Locks db t) (ht : t ≤ now) (hnone : db.file workspaceId path = none)
    {ws : Workspace} (hget : db.get workspaceId = some ws) (hmember : agentId ∈ ws.memberAgentIds) (expires : Int)
    (checksum : Option String) : Locks (db.trackFile workspaceId path agentId expires checksum now) now := by
  have hcases : ∀ f ∈ (db.trackFile workspaceId path agentId expires checksum now).files.rows,
      f ∈ db.files.rows ∨ f = ⟨db.files.next, workspaceId, path, some agentId, some expires, checksum, 1, now⟩ := by
    intro f hf
    rcases List.mem_append.mp hf with hf | hf
    · exact Or.inl hf
    · exact Or.inr (List.mem_singleton.mp hf)
  constructor
  · intro f hf g hg hws hpath
    rcases hcases f hf with hf | rfl
    · rcases hcases g hg with hg | rfl
      · exact h.unique f hf g hg hws hpath
      · exact absurd hpath (file_none hnone f hf hws)
    · rcases hcases g hg with hg | rfl
      · exact absurd hpath.symm (file_none hnone g hg hws.symm)
      · rfl
  · intro f hf
    rcases hcases f hf with hf | rfl
    · exact h.timed f hf
    · exact fun _ => rfl
  · intro f hf a ha
    rcases hcases f hf with hf | rfl
    · exact h.member f hf a (ha.mono ht)
    · cases ha.1
      exact ⟨ws, hget, hmember⟩

theorem lock_locks (h : Locks db t) (ht : t ≤ now) (relPath : Option String) (ttl : Option Int)
    (checksum : Option String) :
    Locks ((lock lockTtl now workspaceId relPath agentId ttl checksum).run db).2 now := by
  simp only [lock, Program.run]
  cases hget : db.get workspaceId with
  | none => exact h.mono ht
  | some ws =>
    dsimp only
    split
    · rename_i hmember
      cases relPath with
      | none => exact h.mono ht
      | some path =>
        simp only [Program.run, takeOrTrack]
        cases hfile : db.file workspaceId path with
        | none =>
          dsimp only
          split
          · exact trackFile_locks h ht hfile hget hmember _ _
          · exact h.mono ht
        | some f =>
          obtain ⟨hf, hws, _⟩ := file_some hfile
          dsimp only
          split
          · exact h.mono ht
          split
          · exact takeLock_locks h ht hf (hws ▸ hget) hmember _
          · exact h.mono ht
    · exact h.mono ht

theorem unlock_locks (h : Locks db t) (ht : t ≤ now) (relPath : Option String) (checksum : Option String) :
    Locks ((unlock now workspaceId relPath agentId checksum).run db).2 now := by
  simp only [unlock, Program.run]
  cases hget : db.get workspaceId with
  | none => exact h.mono ht
  | some ws =>
    cases relPath with
    | none => exact h.mono ht
    | some path =>
      simp only [Program.run]
      cases hfile : db.file workspaceId path with
      | none => exact h.mono ht
      | some f =>
        simp only [releaseFile]
        split
        · exact h.mono ht
        · refine h.clear ht (fun g => g.id == f.id) (fun g => { g with
            lockedBy := none, lockExpires := none, checksum := checksum, version := g.version + 1, updatedAt := now })
            rfl (fun g => ⟨rfl, rfl, rfl⟩) ?_
          exact fun g _ _ a _ ws hws hin => ⟨ws, hws, hin⟩

/-- Every operation keeps the locks in order. -/
theorem run_locks (h : Locks db t) (ht : t ≤ now) (op : Operation) : Locks (op.run lockTtl now db).2 now := by
  cases op with
  | create workspaceId name path tenant createdBy members => exact create_locks h ht name path tenant createdBy members
  | delete workspaceId caller => exact delete_locks h ht caller
  | reapStaleLocks => exact reap_locks h ht none
  | access a =>
    cases a with
    | join workspaceId agentId => exact join_locks h ht
    | leave workspaceId agentId => exact leave_locks h ht
    | lock workspaceId relPath agentId ttl checksum => exact lock_locks h ht relPath ttl checksum
    | unlock workspaceId relPath agentId checksum => exact unlock_locks h ht relPath checksum

/-- An unexpired lock of another agent is seen by `lock`, unless that agent has the empty name. -/
theorem lockedFor_iff {f : WorkspaceFile} {b : String} (h : f.Held now b) :
    f.lockedFor agentId now = true ↔ b ≠ "" ∧ b ≠ agentId := by
  obtain ⟨hby, e, he, hlt⟩ := h
  simp [WorkspaceFile.lockedFor, hby, he, hlt, truthy]

theorem lock_respects_iff (h : Locks db t) (relPath : Option String) (ttl : Option Int) (checksum : Option String) :
    Respects lockTtl ⟨db, t⟩ (now, .access (.lock workspaceId relPath agentId ttl checksum)) ↔
      Spares lockTtl ⟨db, t⟩ (now, .access (.lock workspaceId relPath agentId ttl checksum)) := by
  cases relPath with
  | none => exact Iff.rfl
  | some path =>
    simp only [Respects, Spares, Operation.run, Access.program, lock, Program.run]
    constructor
    · intro hrespects ws f hget hmember hfits hfile hheld
      obtain ⟨hf, hws, hpath⟩ := file_some hfile
      have hfree : f.lockedFor agentId now = false := by
        apply Bool.eq_false_iff.mpr
        intro hlocked
        exact ((lockedFor_iff hheld).mp hlocked).1 rfl
      refine (hrespects ?_ f hf hws hpath "" hheld).symm
      simp only [hget, if_pos hmember, Program.run, takeOrTrack, hfile, hfree, hfits]
      rfl
    · intro hspares hok f hf hws hpath b hheld
      have hfile : db.file workspaceId path = some f := h.file_eq hf hws hpath
      cases hget : db.get workspaceId with
      | none =>
        rw [hget] at hok
        cases hok
      | some ws =>
        simp only [hget] at hok
        by_cases hmember : agentId ∈ ws.memberAgentIds
        · simp only [if_pos hmember, Program.run, takeOrTrack, hfile] at hok
          have hfree : f.lockedFor agentId now = false := by
            cases hlocked : f.lockedFor agentId now with
            | false => rfl
            | true => simp [hlocked, Program.run, Except.isOk, Except.toBool] at hok
          have hfits : fitsInteger (now + ttl.getD lockTtl) = true := by
            cases hfits : fitsInteger (now + ttl.getD lockTtl) with
            | true => rfl
            | false => simp [hfree, hfits, Program.run, Except.isOk, Except.toBool] at hok
          have hname : b = "" ∨ b = agentId := by
            by_contra hother
            rw [not_or] at hother
            rw [(lockedFor_iff hheld).mpr hother] at hfree
            cases hfree
          rcases hname with hname | hname
          · rw [hname]
            exact (hspares ws f hget hmember hfits hfile (hname ▸ hheld)).symm
          · exact hname
        · simp [hmember, Program.run, Except.isOk, Except.toBool] at hok

/-- A row that is still there with its lock was not unlocked. -/
theorem unlock_unchanged {db' : Shared} {f : WorkspaceFile} (hf : f ∈ db.files.rows) {b : String}
    (hby : f.lockedBy = some b) (hsame : db'.files.find? f.id = db.files.find? f.id) :
    ¬ ∀ g, db'.files.find? f.id = some g → g.lockedBy ≠ some b := by
  intro h
  exact h f (hsame.trans (Table.find_mem hf)) hby

/-- A release takes the lock from nobody but the agent, unless that of the empty name has it. -/
theorem release_respects_iff {f : WorkspaceFile} (checksum : Option String) (hf : f ∈ db.files.rows)
    (hown : ¬ (truthy f.lockedBy && f.lockedBy != some agentId) = true) :
    (∀ g ∈ db.files.rows, ∀ b, g.lockedBy = some b →
      (∀ g', (db.releaseLock f.id checksum now).files.find? g.id = some g' → g'.lockedBy ≠ some b) → b = agentId) ↔
    (f.lockedBy = some "" → agentId = "") := by
  have hafter : ∀ k, (db.releaseLock f.id checksum now).files.find? k = (db.files.find? k).map (fun g =>
      if g.id == f.id then { g with
        lockedBy := none, lockExpires := none, checksum := checksum, version := g.version + 1, updatedAt := now }
      else g) := fun k => AutoTable.find_modify db.files _ _ _ k
  have hrow : db.files.find? f.id = some f := Table.find_mem hf
  constructor
  · intro hrespects hby
    refine (hrespects f hf "" hby fun g hg => ?_).symm
    rw [hafter, hrow] at hg
    cases hg
    simp
  · intro hspares g hg b hby hgone
    have hgrow : db.files.find? g.id = some g := Table.find_mem hg
    by_cases hid : g.id = f.id
    · rw [hid, hrow] at hgrow
      cases hgrow
      have hname : b = "" ∨ b = agentId := by
        by_contra hboth
        rw [not_or] at hboth
        rw [hby] at hown
        simp [truthy, hboth.1, hboth.2] at hown
      rcases hname with hname | hname
      · rw [hname]
        exact (hspares (hname ▸ hby)).symm
      · exact hname
    · refine absurd hgone (unlock_unchanged hg hby ?_)
      rw [hafter, hgrow, Option.map_some, if_neg (by simpa using hid)]

theorem unlock_respects_iff (relPath : Option String) (checksum : Option String) :
    Respects lockTtl ⟨db, t⟩ (now, .access (.unlock workspaceId relPath agentId checksum)) ↔
      Spares lockTtl ⟨db, t⟩ (now, .access (.unlock workspaceId relPath agentId checksum)) := by
  simp only [Respects, Operation.run, Access.program, unlock, Program.run]
  cases relPath with
  | none =>
    refine ⟨fun _ => trivial, fun _ f hf b hby hgone => absurd hgone (unlock_unchanged hf hby ?_)⟩
    cases db.get workspaceId <;> rfl
  | some path =>
    simp only [Spares]
    cases hget : db.get workspaceId with
    | none =>
      refine ⟨fun _ ws f hws => (nomatch hws), fun _ f hf b hby hgone => ?_⟩
      exact absurd hgone (unlock_unchanged hf hby rfl)
    | some ws =>
      simp only [Program.run]
      cases hfile : db.file workspaceId path with
      | none =>
        refine ⟨fun _ ws f _ hf => (nomatch hf), fun _ f hf b hby hgone => ?_⟩
        exact absurd hgone (unlock_unchanged hf hby rfl)
      | some f =>
        obtain ⟨hf, hws, hpath⟩ := file_some hfile
        simp only [releaseFile]
        by_cases hother : (truthy f.lockedBy && f.lockedBy != some agentId) = true
        · simp only [if_pos hother, Program.run]
          refine ⟨fun _ ws' f' _ hf' hby => ?_, fun _ g hg b hby hgone => absurd hgone (unlock_unchanged hg hby rfl)⟩
          cases hf'
          rw [hby] at hother
          simp [truthy] at hother
        · simp only [if_neg hother, Program.run]
          refine (release_respects_iff checksum hf hother).trans ⟨fun h ws' f' _ hf' => ?_, fun h => h ws f rfl rfl⟩
          cases hf'
          exact h

theorem respects_iff (h : Locks db t) (op : Operation) :
    Respects lockTtl ⟨db, t⟩ (now, op) ↔ Spares lockTtl ⟨db, t⟩ (now, op) := by
  cases op with
  | create | delete | reapStaleLocks => exact Iff.rfl
  | access a =>
    cases a with
    | join | leave => exact Iff.rfl
    | lock workspaceId relPath agentId ttl checksum => exact lock_respects_iff h relPath ttl checksum
    | unlock workspaceId relPath agentId checksum => exact unlock_respects_iff relPath checksum

end Operations

/-- The lock discipline holds exactly in the runs in which nobody gets at what the agent with the empty name has
locked; a lock of that agent looks like none. -/
theorem lock_discipline_iff {lockTtl t₀ : Int} {ops : List (Int × Operation)}
    (hclock : EachStep (Moment.step lockTtl) (fun s op => s.clock ≤ op.1) ⟨.empty, t₀⟩ ops) :
    (Always (Moment.step lockTtl) (fun s => ∀ t, s.clock ≤ t → LockSafe s.db t) ⟨.empty, t₀⟩ ops ∧
      EachStep (Moment.step lockTtl) (Respects lockTtl) ⟨.empty, t₀⟩ ops) ↔
        EachStep (Moment.step lockTtl) (Spares lockTtl) ⟨.empty, t₀⟩ ops := by
  have hempty : Locks Shared.empty t₀ :=
    ⟨fun _ hf => (nomatch hf), fun _ hf => (nomatch hf), fun _ hf => (nomatch hf)⟩
  have hstep : ∀ (s : Moment) (op : Int × Operation), Locks s.db s.clock → s.clock ≤ op.1 →
      Locks (s.step lockTtl op).db (s.step lockTtl op).clock :=
    fun s op hs hle => run_locks hs hle op.2
  have hlocks : Always (Moment.step lockTtl) (fun s => Locks s.db s.clock) ⟨.empty, t₀⟩ ops :=
    hclock.always hstep hempty
  have hcongr := eachStep_congr_guarded (I := fun s : Moment => Locks s.db s.clock) (C := Respects lockTtl)
    (D := Spares lockTtl) hstep (fun s op hs _ => respects_iff hs op.2) hempty hclock
  constructor
  · exact fun h => hcongr.mp h.2
  · intro h
    refine ⟨hlocks.imp ?_, hcongr.mpr h⟩
    intro s hs t ht
    exact hs.safe ht

/-- An agent with the empty name creates a workspace and locks a file, and another member locks the file too. -/
def namelessOwner : List (Int × Operation) :=
  [(0, .create "ws_1" "w" "/w" "" "" ["b"]), (1, .access (.lock "ws_1" (some "f") "" none none)),
    (2, .access (.lock "ws_1" (some "f") "b" none none))]

/-- Two agents with names: the second has to wait until the lock has expired. -/
def namedOwners : List (Int × Operation) :=
  [(0, .create "ws_1" "w" "/w" "" "a" ["b"]), (1, .access (.lock "ws_1" (some "f") "a" (some 5) none)),
    (2, .access (.lock "ws_1" (some "f") "b" none none)), (6, .access (.lock "ws_1" (some "f") "b" none none))]

theorem lock_discipline_sample :
    EachStep (Moment.step 300) (Respects 300) ⟨.empty, 0⟩ namedOwners := by
  have hclock : EachStep (Moment.step 300) (fun s op => s.clock ≤ op.1) ⟨.empty, 0⟩ namedOwners :=
    ⟨by decide, by decide, by decide, by decide, trivial⟩
  refine ((lock_discipline_iff hclock).mpr ?_).2
  refine ⟨trivial, ?_, ?_, ?_, trivial⟩
  · intro ws f _ _ _ hfile
    cases hfile
  · intro ws f _ _ _ hfile hheld
    cases hfile
    exact absurd (Option.some.inj hheld.1) (by decide)
  · intro ws f _ _ _ hfile hheld
    cases hfile
    exact absurd (Option.some.inj hheld.1) (by decide)

/-- The second agent gets the lock while the first has it. -/
theorem nameless_lock_taken : ¬ ∀ (lockTtl t₀ : Int) (ops : List (Int × Operation)), 0 ≤ lockTtl →
    EachStep (Moment.step lockTtl) (fun s op => s.clock ≤ op.1) ⟨.empty, t₀⟩ ops →
      EachStep (Moment.step lockTtl) (Respects lockTtl) ⟨.empty, t₀⟩ ops := by
  intro h
  obtain ⟨_, _, htaken, _⟩ := h 300 0 namelessOwner (by decide) ⟨by decide, by decide, by decide, trivial⟩
  have hheld : (⟨1, "ws_1", "f", some "", some 301, none, 1, 1⟩ : WorkspaceFile).Held 2 "" :=
    ⟨rfl, 301, rfl, by decide⟩
  have hname := htaken (by decide) ⟨1, "ws_1", "f", some "", some 301, none, 1, 1⟩ (by decide) rfl rfl "" hheld
  exact absurd hname (by decide)

end A2ARegistry.Orchestration.SharedWorkspace
