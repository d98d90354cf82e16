import A2ARegistry.Orchestration.Store.Db

namespace A2ARegistry.Security
open Base Orchestration

/-- Configuration of the authorization policy engine. `tasks` says whether it was
given a task store to look tasks up in. -/
structure Ape where
  mode : String := "warn"
  tasks : Bool

/-- What a checkpoint tells the route. -/
structure CheckpointResult where
  allowed : Bool
  reason : String
  responseHeaders : List (String × String) := []
deriving DecidableEq, Repr

/-- `_deny`: only a mode other than `audit` and `warn` blocks. -/
def Ape.deny (ape : Ape) (reason agentId target : String) : CheckpointResult :=
  if ape.mode = "audit" then { allowed := true, reason := reason }
  else if ape.mode = "warn" then {
    allowed := true
    reason := reason
    responseHeaders := [("X-Security-Warning",
      s!"type=AUTHORIZATION_DENIED; actor={agentId}; target={target}; reason={reason}")] }
  else { allowed := false, reason := reason }

/-- `check_task_complete`: the presented lock is compared when there are two to compare. -/
def Ape.checkTaskComplete (ape : Ape) (db : Db) (agentId taskId : String) (claimLock : Json) :
    CheckpointResult :=
  match if ape.tasks then getTask db taskId else none with
  | none => ape.deny "task not found" agentId taskId
  | some view =>
    if truthy view.task.claimLock && claimLock.truthy && !claimLock.eqText view.task.claimLock then
      ape.deny "claim_lock mismatch: caller's lock does not match" agentId taskId
    else { allowed := true, reason := "complete allowed" }

end A2ARegistry.Security
