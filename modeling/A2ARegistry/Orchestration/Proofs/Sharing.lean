import Mathlib.Data.List.Permutation
import A2ARegistry.Orchestration.SharedWorkspace

namespace A2ARegistry.Orchestration.SharedWorkspace
open Base

/-- A call with the time it reads. -/
abbrev TimedAccess := Int × Access

def TimedAccess.program (lockTtl : Int) (c : TimedAccess) : Program Shared Outcome := c.2.program lockTtl c.1

/-- The members of the workspaces, and the locks. -/
def Shared.membersAndLocks (db : Shared) :
    List (String × List String) × List (String × String × Option String × Option Int) :=
  (db.workspaces.rows.map (fun w => (w.id, w.memberAgentIds)),
    db.files.rows.map (fun f => (f.workspaceId, f.path, f.lockedBy, f.lockExpires)))

section Shape

theorem join_deciding (workspaceId agentId : String) : (join workspaceId agentId).Deciding := by
  intro db
  dsimp only
  split
  · trivial
  split
  · trivial
  · exact fun _ => trivial

theorem leave_deciding (now : Int) (workspaceId agentId : String) : (leave now workspaceId agentId).Deciding := by
  intro db
  dsimp only
  split
  · trivial
  split
  · exact fun _ => trivial
  · trivial

theorem lock_deciding (lockTtl now : Int) (workspaceId : String) (relPath : Option String) (agentId : String)
    (ttl : Option Int) (checksum : Option String) :
    (lock lockTtl now workspaceId relPath agentId ttl checksum).Deciding := by
  intro db
  dsimp only
  split
  · trivial
  split
  · split
    · trivial
    intro db
    dsimp only [takeOrTrack]
    split
    · split
      · trivial
      split
      · exact fun _ => trivial
      · trivial
    · split
      · exact fun _ => trivial
      · trivial
  · trivial

theorem unlock_deciding (now : Int) (workspaceId : String) (relPath : Option String) (agentId : String)
    (checksum : Option String) : (unlock now workspaceId relPath agentId checksum).Deciding := by
  intro db
  dsimp only
  split
  · trivial
  split
  · trivial
  intro db
  dsimp only [releaseFile]
  split
  · trivial
  split
  · trivial
  · exact fun _ => trivial

/-- Every call reads, then writes and commits if it does, and reads the new row. -/
theorem program_deciding (lockTtl : Int) (c : TimedAccess) : (c.program lockTtl).Deciding := by
  obtain ⟨now, a⟩ := c
  cases a with
  | join workspaceId agentId => exact join_deciding workspaceId agentId
  | leave workspaceId agentId => exact leave_deciding now workspaceId agentId
  | lock workspaceId relPath agentId ttl checksum =>
    exact lock_deciding lockTtl now workspaceId relPath agentId ttl checksum
  | unlock workspaceId relPath agentId checksum => exact unlock_deciding now workspaceId relPath agentId checksum

end Shape

variable {ι : Type} [DecidableEq ι]

/-- The calls of several processes come to those of one process, if no call has what it has read changed under it. -/
theorem sharing_serialisable (lockTtl : Int) (db : Shared) {turns : List (Turn ι TimedAccess)}
    (hfresh : EachStep (Processes.step (TimedAccess.program lockTtl)) (Processes.Fresh (TimedAccess.program lockTtl))
      (Processes.begin db) turns) :
    Always (Processes.step (TimedAccess.program lockTtl))
      (Processes.Serialisable (TimedAccess.program lockTtl) Shared.membersAndLocks db) (Processes.begin db) turns :=
  Processes.serialisable_of_fresh Shared.membersAndLocks (program_deciding lockTtl) db hfresh

/-- A workspace without files. -/
def oneWorkspace : Shared := (create 0 "ws_1" "w" "/w" "" "o" [] .empty).2

/-- Two processes let two agents join at once. The second reads the members when the first has committed, which reads
them back after that. -/
def joinsInTurn : List (Turn Bool TimedAccess) :=
  [.start true (0, .join "ws_1" "a"), .start false (0, .join "ws_1" "b"), .statement true, .statement true,
    .statement true, .statement false, .statement true, .statement false, .statement false, .statement false]

/-- Both read the members before one of them writes. -/
def joinsAtOnce : List (Turn Bool TimedAccess) :=
  [.start true (0, .join "ws_1" "a"), .start false (0, .join "ws_1" "b"), .statement true, .statement false,
    .statement true, .statement true, .statement true, .statement false, .statement false, .statement false]

theorem joins_serialisable : Processes.Serialisable (TimedAccess.program 300) Shared.membersAndLocks oneWorkspace
    (exec (Processes.step (TimedAccess.program 300)) (Processes.begin oneWorkspace) joinsInTurn) := by
  have hfresh : EachStep (Processes.step (TimedAccess.program 300)) (Processes.Fresh (TimedAccess.program 300))
      (Processes.begin oneWorkspace) joinsInTurn := by
    refine ⟨trivial, trivial, ?_, ?_, ?_, ?_, ?_, ?_, ?_, ?_, trivial⟩
    all_goals
      intro r hr
      cases hr
    · exact .refl _
    · exact fun _ => .select _ _ (.refl _)
    · trivial
    · exact .refl _
    · rfl
    · exact fun _ => .select _ _ (.refl _)
    · trivial
    · rfl
  exact (sharing_serialisable 300 oneWorkspace hfresh).last

/-- One of the two is told that it has joined, and is no member. -/
theorem join_lost : ¬ ∀ (lockTtl : Int) (db : Shared) (turns : List (Turn Bool TimedAccess)),
    Always (Processes.step (TimedAccess.program lockTtl))
      (Processes.Serialisable (TimedAccess.program lockTtl) Shared.membersAndLocks db) (Processes.begin db) turns := by
  intro h
  have hlast := (h 300 oneWorkspace joinsAtOnce).last
  have hidle : ∀ i, (exec (Processes.step (TimedAccess.program 300)) (Processes.begin oneWorkspace)
      joinsAtOnce).running i = none := by
    intro i
    cases i <;> rfl
  obtain ⟨order, d', hperm, hserial, hseen⟩ := hlast hidle
  have hfinal : (exec (Processes.step (TimedAccess.program 300)) (Processes.begin oneWorkspace)
      joinsAtOnce).committed.membersAndLocks = ([("ws_1", ["b", "o"])], []) := by decide +kernel
  have hcalls : (order.map Prod.fst).Perm [(0, .join "ws_1" "a"), (0, .join "ws_1" "b")] := hperm.map Prod.fst
  have hserially := hserial.last
  rw [hfinal] at hseen
  rcases List.perm_pair.mp hcalls with hcalls | hcalls
  · rw [hcalls] at hserially
    rw [← hserially] at hseen
    exact absurd hseen (by decide +kernel)
  · rw [hcalls] at hserially
    rw [← hserially] at hseen
    exact absurd hseen (by decide +kernel)

end A2ARegistry.Orchestration.SharedWorkspace
