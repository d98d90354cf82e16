import A2ARegistry.Base.Paths
import A2ARegistry.Orchestration.Handlers
import A2ARegistry.Orchestration.Store.Ops

namespace A2ARegistry.Orchestration
open Base Security

/-- The modes of a workspace. -/
inductive WorkspaceKind
  | scratch | dir | worktree
deriving DecidableEq, Repr

/-- `VALID_KINDS`. -/
def WorkspaceKind.ofValue? : String → Option WorkspaceKind
  | "scratch" => some .scratch
  | "dir" => some .dir
  | "worktree" => some .worktree
  | _ => none

/-- `c.lower()`. Besides those of ASCII one letter, the Kelvin sign, has a letter of ASCII for its lower case. -/
def lowerChar (c : Char) : Char := if c.toNat = 0x212A then 'k' else c.toLower

def lower (s : String) : String := String.ofList (s.toList.map lowerChar)

/-- `validate_kind`. -/
def validateKind (kind : Option String) : Except String WorkspaceKind :=
  let text := (given kind).getD "scratch"
  match WorkspaceKind.ofValue? (lower (strip text)) with
  | some kind => .ok kind
  | none => .error s!"Unknown workspace kind '{text}'; expected one of dir, scratch, worktree"

/-- What a run of git ends with; one that could not be started has a code that is not zero. -/
structure GitResult where
  stdout : String
  stderr : String
  code : Int

/-- The output `_run_git_sync` returns. -/
def GitResult.output (result : GitResult) : String := if result.stderr = "" then result.stdout else result.stderr

/-- The machine as one call finds it. `mkdir` is the error of making a directory and its parents, and
`rmtree` whether anything of a tree goes. -/
structure Machine where
  cwd : Path
  mkdir : Path → Option String
  resolve : Path → Except String Path
  pathExists : Path → Bool
  isDir : Path → Bool
  rmtree : Path → Bool
  git : Path → List String → GitResult

/-- `_git_available`. -/
def Machine.gitAvailable (m : Machine) (cwd : Path) : Bool :=
  (m.git cwd ["rev-parse", "--is-inside-work-tree"]).code == 0

/-- `_find_git_root`. -/
def Machine.findGitRoot (m : Machine) (task : Task) : Option Path :=
  ((given task.workspacePath).toList.map Path.parse ++ [m.cwd]).findSome? (fun c =>
    let result := m.git c ["rev-parse", "--show-toplevel"]
    if result.code = 0 then some (.parse (strip result.stdout)) else none)

/-- `_find_git_root_from_path`. -/
def Machine.findGitRootFromPath (m : Machine) (path : Path) : Option Path :=
  (path :: path.parents).find? (fun parent => m.pathExists (parent.join (.parse ".git")))

/-- The workspace manager, with its resolved root. -/
structure WorkspaceManager where
  root : Path

namespace WorkspaceManager

def scratchPath (ws : WorkspaceManager) (taskId : String) : Path := ws.root.join (.parse taskId)

def worktreePath (ws : WorkspaceManager) (taskId : String) : Path :=
  (ws.root.join (.parse "worktrees")).join (.parse taskId)

section Allocate

variable (ws : WorkspaceManager) (m : Machine) (task : Task)

/-- `_allocate_scratch`. -/
def allocateScratch : Except String Path :=
  let path := ws.scratchPath task.id
  match m.mkdir path with
  | none => .ok path
  | some error => .error s!"Failed to create scratch workspace for task '{task.id}': {error}"

/-- `_validate_dir`. -/
def validateDir : Except String Path :=
  match given task.workspacePath with
  | none => .error s!"Dir-mode task '{task.id}' has no 'workspace_path' configured"
  | some text => do
    let path ← m.resolve (.parse text)
    if !m.pathExists path then .error s!"Dir-mode workspace '{text}' for task '{task.id}' does not exist"
    else if !m.isDir path then .error s!"Dir-mode workspace '{text}' for task '{task.id}' is not a directory"
    else .ok path

/-- `_allocate_worktree`. -/
def allocateWorktree : Except String Path :=
  let branch := s!"worktree/{task.id}"
  let path := ws.worktreePath task.id
  match m.mkdir path.parent with
  | some error => .error error
  | none =>
    let gitRoot := (m.findGitRoot task).getD m.cwd
    if !m.gitAvailable gitRoot then
      .error s!"Git is not available in '{gitRoot.str}'; cannot create worktree for task '{task.id}'"
    else if (m.git gitRoot ["rev-parse", "--verify", branch]).code ≠ 0 ∧
        (m.git gitRoot ["checkout", "-b", branch]).code ≠ 0 then
      .error (s!"Failed to create branch '{branch}' for task '{task.id}' " ++
        "(git may need a repo with at least one commit)")
    else
      let added := m.git gitRoot ["worktree", "add", path.str, branch]
      if added.code ≠ 0 then .error s!"Failed to create worktree for task '{task.id}': {added.output}"
      else .ok path

/-- `allocate`. -/
def allocate : Except String Path :=
  match validateKind task.workspaceKind with
  | .error error => .error error
  | .ok .scratch => ws.allocateScratch m task
  | .ok .dir => validateDir m task
  | .ok .worktree => ws.allocateWorktree m task

end Allocate

/-- The directory that is made for a task. A shared one is only looked up. -/
def made (ws : WorkspaceManager) (task : Task) : Option Path :=
  match validateKind task.workspaceKind with
  | .ok .scratch => some (ws.scratchPath task.id)
  | .ok .worktree => some (ws.worktreePath task.id)
  | .ok .dir | .error _ => none

end WorkspaceManager

section CleanUp

variable (m : Machine)

/-- `_cleanup_scratch`: the tree it removes. -/
def cleanupScratch (path : Path) : Option Path :=
  if m.pathExists path && m.rmtree path then some path else none

/-- The directory git is asked from to remove a worktree. -/
def Machine.worktreeRoot (path : Path) : Path := (m.findGitRootFromPath path).getD path.parent

/-- `_cleanup_worktree`: the tree it removes. The branch that goes with it is no directory. -/
def cleanupWorktree (path : Path) : Option Path :=
  if m.gitAvailable (m.worktreeRoot path) &&
      (m.git (m.worktreeRoot path) ["worktree", "remove", path.str]).code == 0 then some path
  else none

/-- `cleanup`: the tree it removes, if it removes one. What it raises is only logged. -/
def cleanup (task : Task) : Option Path :=
  match validateKind task.workspaceKind, given task.workspacePath with
  | .ok .scratch, some text => cleanupScratch m (.parse text)
  | .ok .worktree, some text => cleanupWorktree m (.parse text)
  | _, _ => none

end CleanUp

/-- The task store, the tasks of the last poll, and the directories made and the trees removed so far, each
with the task it was for. -/
structure Workspaces where
  db : Db
  listed : List Task
  allocated : List (String × Path)
  removed : List (String × Path)

def Workspaces.empty : Workspaces := ⟨.empty, [], [], []⟩

/-- The calls of the store by which the path of a workspace is written over. -/
def Op.places : Op → Bool
  | .updateWorkspacePath .. => true
  | _ => false

/-- What `uuid4().hex` is made of. -/
def IsHex (hex : String) : Prop := ∀ c ∈ hex.toList, c ∈ "0123456789abcdef".toList

instance (hex : String) : Decidable (IsHex hex) := List.decidableBAll _ _

/-- The ids a call draws are those `uuid4` yields. -/
def Op.Fresh : Op → Prop
  | .createTask _ hex _ => IsHex hex
  | _ => True

/-- What the server does with its tasks: the two requests the workspaces depend on, any call of the store that
is not the dispatcher's own, and the two halves of a poll. -/
inductive WorkspaceEvent
  | post (draw : Draw) (caller : CallerIdentity) (body : CreateBody) (fresh : IsHex draw.hex)
  | call (op : Op) (other : op.places = false) (fresh : op.Fresh)
  | poll (tenant : Option String)
  | dispatch (m : Machine) (clock failClock : Clock) (task : Task) (workerId : String) (pid ttl : Int)
      (viaWorkerCommand : Bool)
  | delete (m : Machine) (clock : Clock) (taskId : String)

namespace Workspaces

/-- The tasks `_claim_and_spawn` goes through. -/
def poll (s : Workspaces) (tenant : Option String) : Workspaces :=
  { s with listed := (listTasks s.db
    { status := some TaskStatus.ready.value, limit := 200, sort := "-priority", tenant := tenant }).1 }

/-- A dispatch from the claim to the workspace. Over the worker command the path is the one the claim read. -/
def dispatch (ws : WorkspaceManager) (s : Workspaces) (m : Machine) (clock failClock : Clock) (listed : Task)
    (workerId : String) (pid ttl : Int) (viaWorkerCommand : Bool) : Workspaces :=
  match claimTask s.db clock listed.id workerId pid ttl with
  | (none, db) => { s with db := db }
  | (some claim, db) =>
    let task := if viaWorkerCommand then { listed with workspacePath := claim.workspacePath } else listed
    match ws.allocate m task with
    | .error error =>
      { s with db := step db (.updateTaskStatus failClock task.id TaskStatus.failed.value { result := some error }) }
    | .ok path =>
      let allocated := s.allocated ++ (ws.made task).toList.map (fun made => (task.id, made))
      { s with db := updateWorkspacePath db task.id path.str, allocated := allocated }

/-- `DELETE /v2/tasks/{id}`, with the tree that goes once the task is archived. -/
def delete (h : OrchestrationHandler) (s : Workspaces) (m : Machine) (clock : Clock) (taskId : String) :
    Workspaces :=
  let answer := handleDeleteTask h s.db clock taskId
  let gone := if answer.1.status = 200 then (s.db.task? taskId).bind (cleanup m) else none
  { s with db := answer.2, removed := s.removed ++ gone.toList.map (fun path => (taskId, path)) }

/-- A dispatch is of a task that was listed. -/
def step (ws : WorkspaceManager) (h : OrchestrationHandler) (s : Workspaces) : WorkspaceEvent → Workspaces
  | .post draw caller body _ => { s with db := (handleCreateTask h s.db draw caller body).2 }
  | .call op _ _ => { s with db := Orchestration.step s.db op }
  | .poll tenant => s.poll tenant
  | .dispatch m clock failClock task workerId pid ttl viaWorkerCommand =>
    if task ∈ s.listed then s.dispatch ws m clock failClock task workerId pid ttl viaWorkerCommand else s
  | .delete m clock taskId => s.delete h m clock taskId

/-- Every tree that was removed is a directory made for that task, and lies below the root. -/
def Contained (ws : WorkspaceManager) (s : Workspaces) : Prop :=
  ∀ entry ∈ s.removed, entry ∈ s.allocated ∧ ws.root.Encloses entry.2

end Workspaces

end A2ARegistry.Orchestration
