import A2ARegistry.Orchestration.Proofs.Locks

namespace A2ARegistry.Orchestration.SharedWorkspace
open Base

section Definitions

variable (lockTtl t : Int) (db : Shared) (f : WorkspaceFile)

/-- `reap_stale_locks` with its default age releases the lock of a file. -/
def Reaped : Prop := ∃ g, (reapStaleLocks lockTtl t none db).2.files.find? f.id = some g ∧ g.lockedBy = none

/-- `lock` gives the file to an agent. -/
def TakenOver (agentId : String) (ttl : Option Int) (checksum : Option String) : Prop :=
  let result := (Operation.access (.lock f.workspaceId (some f.path) agentId ttl checksum)).run lockTtl t db
  result.1.isOk = true ∧ ∃ g, result.2.files.find? f.id = some g ∧ g.lockedBy = some agentId

/-- At a time the reaper releases the locks that have expired, which are those that another member may take. -/
structure ReaperAgrees : Prop where
  expired : ∀ f ∈ db.files.rows, ∀ e, f.lockExpires = some e → (Reaped lockTtl t db f ↔ e ≤ t)
  taken : ∀ f ∈ db.files.rows, ∀ a, f.lockedBy = some a → ∀ ws, db.get f.workspaceId = some ws →
    ∀ b ∈ ws.memberAgentIds, b ≠ a → ∀ ttl checksum, fitsInteger (t + ttl.getD lockTtl) = true →
      (Reaped lockTtl t db f ↔ TakenOver lockTtl t db f b ttl checksum)

/-- The lock has expired and is not older than the age the reaper waits for, or, where that age is negative, it has
not expired and is. -/
def Overlooked : Prop := ∃ e, f.lockExpires = some e ∧ (t - lockTtl ≤ e ∧ e ≤ t ∨ t < e ∧ e < t - lockTtl)

/-- The lock has not expired, but its holder has the empty name and the workspace has another member. -/
def Nameless : Prop := f.lockedBy = some "" ∧ (∃ e, f.lockExpires = some e ∧ t < e) ∧
  ∃ ws, db.get f.workspaceId = some ws ∧ ∃ b ∈ ws.memberAgentIds, b ≠ ""

end Definitions

section Rows

/-- What an operation does to the rows of the files: it changes each in its place, and its holder and its time both or
neither, or it drops some, or adds one with a lock under a path that has none. -/
inductive FilesStep (db db' : Shared) : Prop
  | changed (change : WorkspaceFile → WorkspaceFile) (rows : db'.files.rows = db.files.rows.map change)
      (place : ∀ f, (change f).workspaceId = f.workspaceId ∧ (change f).path = f.path)
      (paired : ∀ f, f.lockedBy.isSome = f.lockExpires.isSome →
        (change f).lockedBy.isSome = (change f).lockExpires.isSome)
  | fewer (sub : ∀ f ∈ db'.files.rows, f ∈ db.files.rows)
  | tracked (f : WorkspaceFile) (rows : db'.files.rows = db.files.rows ++ [f])
      (new : ∀ g ∈ db.files.rows, g.workspaceId = f.workspaceId → g.path ≠ f.path)
      (paired : f.lockedBy.isSome = f.lockExpires.isSome)

variable {db db' : Shared} {now lockTtl : Int} {workspaceId agentId : String}

theorem FilesStep.same (h : db'.files = db.files) : FilesStep db db' := .fewer fun _ hf => h ▸ hf

/-- Rows of which some are changed in their place. -/
theorem FilesStep.modified (p : WorkspaceFile → Bool) (change : WorkspaceFile → WorkspaceFile)
    (rows : db'.files.rows = db.files.rows.map (fun f => if p f then change f else f))
    (place : ∀ f, (change f).workspaceId = f.workspaceId ∧ (change f).path = f.path)
    (paired : ∀ f, (change f).lockedBy.isSome = (change f).lockExpires.isSome) : FilesStep db db' := by
  refine .changed _ rows (fun f => ?_) (fun f hf => ?_)
  · split
    · exact place f
    · exact ⟨rfl, rfl⟩
  · split
    · exact paired f
    · exact hf

theorem lock_files (relPath : Option String) (ttl : Option Int) (checksum : Option String) :
    FilesStep db ((lock lockTtl now workspaceId relPath agentId ttl checksum).run db).2 := by
  simp only [lock, Program.run]
  cases db.get workspaceId with
  | none => exact .same rfl
  | some ws =>
    dsimp only
    split
    · cases relPath with
      | none => exact .same rfl
      | some path =>
        simp only [Program.run, takeOrTrack]
        cases hfile : db.file workspaceId path with
        | none =>
          dsimp only
          split
          · exact .tracked _ rfl (fun g hg hws => file_none hfile g hg hws) rfl
          · exact .same rfl
        | some f =>
          dsimp only
          split
          · exact .same rfl
          split
          · exact .modified (fun g => g.id == f.id) _ rfl (fun _ => ⟨rfl, rfl⟩) (fun _ => rfl)
          · exact .same rfl
    · exact .same rfl

theorem unlock_files (relPath : Option String) (checksum : Option String) :
    FilesStep db ((unlock now workspaceId relPath agentId checksum).run db).2 := by
  simp only [unlock, Program.run]
  cases db.get workspaceId with
  | none => exact .same rfl
  | some ws =>
    cases relPath with
    | none => exact .same rfl
    | some path =>
      simp only [Program.run]
      cases db.file workspaceId path with
      | none => exact .same rfl
      | some f =>
        simp only [releaseFile]
        split
        · exact .same rfl
        · exact .modified (fun g => g.id == f.id) _ rfl (fun _ => ⟨rfl, rfl⟩) (fun _ => rfl)

theorem run_files (op : Operation) : FilesStep db (op.run lockTtl now db).2 := by
  cases op with
  | create workspaceId name path tenant createdBy members =>
    simp only [Operation.run, create]
    split
    · exact .same rfl
    · exact .same rfl
  | delete workspaceId caller =>
    simp only [Operation.run, delete]
    split
    · exact .same rfl
    split
    · exact .same rfl
    · exact .fewer fun f hf => (List.mem_filter.mp hf).1
  | reapStaleLocks =>
    exact .modified (fun f => f.staleAt (now - lockTtl)) _ rfl (fun _ => ⟨rfl, rfl⟩) (fun _ => rfl)
  | access a =>
    cases a with
    | join workspaceId agentId =>
      simp only [Operation.run, Access.program, join, Program.run]
      cases db.get workspaceId with
      | none => exact .same rfl
      | some ws =>
        dsimp only
        split
        · exact .same rfl
        · exact .same rfl
    | leave workspaceId agentId =>
      simp only [Operation.run, Access.program, leave, Program.run]
      cases db.get workspaceId with
      | none => exact .same rfl
      | some ws =>
        dsimp only
        split
        · exact .modified _ _ rfl (fun _ => ⟨rfl, rfl⟩) (fun _ => rfl)
        · exact .same rfl
    | lock workspaceId relPath agentId ttl checksum => exact lock_files relPath ttl checksum
    | unlock workspaceId relPath agentId checksum => exact unlock_files relPath checksum

/-- A path has one row at most, and a row has a holder when it has a time at which its lock expires. -/
structure Tracked (db : Shared) : Prop where
  unique : ∀ f ∈ db.files.rows, ∀ g ∈ db.files.rows, f.workspaceId = g.workspaceId → f.path = g.path → f = g
  paired : ∀ f ∈ db.files.rows, f.lockedBy.isSome = f.lockExpires.isSome

theorem Tracked.step (h : Tracked db) (hstep : FilesStep db db') : Tracked db' := by
  cases hstep with
  | changed change rows place paired =>
    constructor
    · intro f hf g hg hws hpath
      rw [rows] at hf hg
      obtain ⟨f₀, hf₀, rfl⟩ := List.mem_map.mp hf
      obtain ⟨g₀, hg₀, rfl⟩ := List.mem_map.mp hg
      rw [(place f₀).1, (place g₀).1] at hws
      rw [(place f₀).2, (place g₀).2] at hpath
      rw [h.unique f₀ hf₀ g₀ hg₀ hws hpath]
    · intro f hf
      rw [rows] at hf
      obtain ⟨f₀, hf₀, rfl⟩ := List.mem_map.mp hf
      exact paired f₀ (h.paired f₀ hf₀)
  | fewer sub => exact ⟨fun f hf g hg => h.unique f (sub f hf) g (sub g hg), fun f hf => h.paired f (sub f hf)⟩
  | tracked new rows hnew paired =>
    have hcases : ∀ f ∈ db'.files.rows, f ∈ db.files.rows ∨ f = new := by
      intro f hf
      rw [rows, List.mem_append, List.mem_singleton] at hf
      exact hf
    constructor
    · intro f hf g hg hws hpath
      rcases hcases f hf with hf | rfl
      · rcases hcases g hg with hg | rfl
        · exact h.unique f hf g hg hws hpath
        · exact absurd hpath (hnew f hf hws)
      · rcases hcases g hg with hg | rfl
        · exact absurd hpath.symm (hnew g hg hws.symm)
        · rfl
    · intro f hf
      rcases hcases f hf with hf | rfl
      · exact h.paired f hf
      · exact paired

theorem exec_tracked (lockTtl t₀ : Int) (ops : List (Int × Operation)) :
    Tracked (exec (Moment.step lockTtl) ⟨.empty, t₀⟩ ops).db := by
  have hempty : Tracked Shared.empty := ⟨fun _ hf => (nomatch hf), fun _ hf => (nomatch hf)⟩
  exact exec_invariant (I := fun s : Moment => Tracked s.db) (fun _ op hs => hs.step (run_files op.2)) hempty ops

theorem Tracked.file_eq (h : Tracked db) {f : WorkspaceFile} (hf : f ∈ db.files.rows) :
    db.file f.workspaceId f.path = some f := by
  cases hfile : db.file f.workspaceId f.path with
  | none => exact absurd rfl (file_none hfile f hf rfl)
  | some g =>
    obtain ⟨hg, hws, hpath⟩ := file_some hfile
    rw [h.unique f hf g hg hws.symm hpath.symm]

end Rows

section Agreement

variable {lockTtl t : Int} {db : Shared} {f : WorkspaceFile} {a : String} {e : Int}

theorem find_row (hf : f ∈ db.files.rows) : db.files.find? f.id = some f := Table.find_mem hf

/-- The reaper releases the locks that expired longer ago than its age. -/
theorem reaped_iff (hf : f ∈ db.files.rows) (hby : f.lockedBy = some a) (he : f.lockExpires = some e) :
    Reaped lockTtl t db f ↔ e < t - lockTtl := by
  have hfind : (reapStaleLocks lockTtl t none db).2.files.find? f.id =
      some (if f.staleAt (t - lockTtl) then { f with lockedBy := none, lockExpires := none } else f) := by
    simp only [reapStaleLocks, Option.getD_none]
    rw [AutoTable.find_modify, find_row hf, Option.map_some]
  have hstale : f.staleAt (t - lockTtl) = true ↔ e < t - lockTtl := by simp [WorkspaceFile.staleAt, he]
  unfold Reaped
  rw [hfind]
  by_cases hlate : e < t - lockTtl
  · rw [if_pos (hstale.mpr hlate)]
    exact iff_of_true ⟨_, rfl, rfl⟩ hlate
  · rw [if_neg (mt hstale.mp hlate)]
    refine iff_of_false ?_ hlate
    rintro ⟨g, hg, hnone⟩
    cases hg
    rw [hby] at hnone
    cases hnone

/-- Another member gets a file that is locked when the lock has expired, or its holder has the empty name. -/
theorem takenOver_iff (h : Tracked db) (hf : f ∈ db.files.rows) (hby : f.lockedBy = some a)
    (he : f.lockExpires = some e) {ws : Workspace} (hget : db.get f.workspaceId = some ws) {b : String}
    (hmember : b ∈ ws.memberAgentIds) (hne : b ≠ a) {ttl : Option Int} (checksum : Option String)
    (hfits : fitsInteger (t + ttl.getD lockTtl) = true) : TakenOver lockTtl t db f b ttl checksum ↔ a = "" ∨ e ≤ t := by
  have hlocked : f.lockedFor b t = true ↔ a ≠ "" ∧ t < e := by
    simp [WorkspaceFile.lockedFor, hby, he, truthy, hne.symm]
  simp only [TakenOver, Operation.run, Access.program, lock, Program.run, hget, if_pos hmember, h.file_eq hf,
    takeOrTrack]
  by_cases hheld : f.lockedFor b t = true
  · rw [if_pos hheld]
    refine iff_of_false ?_ ?_
    · rintro ⟨hok, _⟩
      cases hok
    · obtain ⟨hname, hlate⟩ := hlocked.mp hheld
      rintro (hempty | hexpired)
      · exact hname hempty
      · omega
  · rw [if_neg hheld, if_pos hfits]
    refine iff_of_true ⟨rfl, ?_⟩ ?_
    · refine ⟨{ f with lockedBy := some b, lockExpires := some (t + ttl.getD lockTtl), version := f.version + 1 }, ?_,
        rfl⟩
      simp only [Program.run, Shared.takeLock]
      rw [AutoTable.find_modify, find_row hf, Option.map_some, if_pos (by simp)]
    · by_contra hnot
      obtain ⟨hname, hlate⟩ := not_or.mp hnot
      exact hheld (hlocked.mpr ⟨hname, by omega⟩)

theorem agrees_iff (h : Tracked db) : ReaperAgrees lockTtl t db ↔
    ∀ f ∈ db.files.rows, ¬ Overlooked lockTtl t f ∧ ¬ Nameless t db f := by
  have hlock : ∀ f ∈ db.files.rows, ∀ e, f.lockExpires = some e → ∃ a, f.lockedBy = some a := by
    intro f hf e he
    exact Option.isSome_iff_exists.mp ((h.paired f hf).trans (by rw [he]; rfl))
  constructor
  · intro hagrees f hf
    constructor
    · rintro ⟨e, he, hbetween⟩
      obtain ⟨a, hby⟩ := hlock f hf e he
      have hsame := (reaped_iff hf hby he).symm.trans (hagrees.expired f hf e he)
      omega
    · rintro ⟨hby, ⟨e, he, hlive⟩, ws, hget, b, hmember, hne⟩
      have hfits : fitsInteger (t + (some (-t)).getD lockTtl) = true := by simp [fitsInteger]
      have htaken := (takenOver_iff h hf hby he hget hmember hne none hfits).mpr (Or.inl rfl)
      have hreaped := (hagrees.taken f hf "" hby ws hget b hmember hne (some (-t)) none hfits).mpr htaken
      have hexpired := (hagrees.expired f hf e he).mp hreaped
      omega
  · intro hclear
    have hexpired : ∀ f ∈ db.files.rows, ∀ e, f.lockExpires = some e → (Reaped lockTtl t db f ↔ e ≤ t) := by
      intro f hf e he
      obtain ⟨a, hby⟩ := hlock f hf e he
      rw [reaped_iff hf hby he]
      have hout : ¬ (t - lockTtl ≤ e ∧ e ≤ t ∨ t < e ∧ e < t - lockTtl) :=
        fun hbetween => (hclear f hf).1 ⟨e, he, hbetween⟩
      omega
    refine ⟨hexpired, fun f hf a hby ws hget b hmember hne ttl checksum hfits => ?_⟩
    obtain ⟨e, he⟩ := Option.isSome_iff_exists.mp ((h.paired f hf).symm.trans (by rw [hby]; rfl))
    rw [hexpired f hf e he, takenOver_iff h hf hby he hget hmember hne checksum hfits]
    refine ⟨Or.inr, fun hor => hor.elim (fun hname => ?_) id⟩
    subst hname
    by_contra hlate
    exact (hclear f hf).2 ⟨hby, ⟨e, he, by omega⟩, ws, hget, b, hmember, hne⟩

/-- In every state that the operations lead to, the reaper and `lock` agree at a time on which locks are dead if and
only if none expired within the reaper's age before it and none that is live has a holder with the empty name. -/
theorem reaper_agrees_iff (lockTtl t₀ t : Int) (ops : List (Int × Operation)) :
    ReaperAgrees lockTtl t (exec (Moment.step lockTtl) ⟨.empty, t₀⟩ ops).db ↔
      ∀ f ∈ (exec (Moment.step lockTtl) ⟨.empty, t₀⟩ ops).db.files.rows,
        ¬ Overlooked lockTtl t f ∧ ¬ Nameless t (exec (Moment.step lockTtl) ⟨.empty, t₀⟩ ops).db f :=
  agrees_iff (exec_tracked lockTtl t₀ ops)

/-- A lock of ten seconds is dead after a minute, and the reaper leaves it. -/
theorem dead_lock_left : ¬ ∀ (lockTtl t₀ t : Int) (ops : List (Int × Operation)), 0 ≤ lockTtl →
    ReaperAgrees lockTtl t (exec (Moment.step lockTtl) ⟨.empty, t₀⟩ ops).db := by
  intro h
  have hagrees := h 300 0 60 [(0, .create "ws_1" "team" "/w" "" "a" ["b"]),
    (0, .access (.lock "ws_1" (some "f") "a" (some 10) none))] (by decide)
  have hreaped := (hagrees.expired ⟨1, "ws_1", "f", some "a", some 10, none, 1, 0⟩ (by decide) 10 rfl).mpr (by decide)
  obtain ⟨g, hg, hnone⟩ := hreaped
  cases hg
  cases hnone

end Agreement

end A2ARegistry.Orchestration.SharedWorkspace
