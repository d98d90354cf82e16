import A2ARegistry.Orchestration.Store.Ops
import A2ARegistry.Orchestration.Detail

namespace A2ARegistry.Orchestration.Swarm
open Base

def blackboardPrefix : String := "[swarm:blackboard]"

/-- `_make_blackboard_body`. -/
def makeBlackboardBody (key : String) (value : Json) : String :=
  blackboardPrefix ++ Json.dumpsPlain (.obj [("key", .str key), ("value", value)])

/-- `post_blackboard`. -/
def postBlackboard (db : Db) (clock : Clock) (rootId author key : String) (value : Json) :
    Except StoreError (TaskComment × Db) :=
  addComment db clock rootId author (makeBlackboardBody key value)

section Creation

/-- Calls of the store in sequence, each of them its own transaction: what a call has committed stays when a later one
raises. -/
abbrev Session := ExceptT StoreError (StateM Db)

def call {α : Type} (body : Db → Except StoreError (α × Db)) : Session α := fun db => db.tx (body db)

structure SwarmWorkerSpec where
  profile : String
  title : String
  body : String := ""
  skills : List String := []
  priority : Int := 0
  maxRuntimeSeconds : Option Int := none
deriving DecidableEq, Repr

structure SwarmCreated where
  rootId : String
  workerIds : List String
  verifierId : String
  synthesizerId : String
deriving DecidableEq, Repr

def SwarmCreated.taskIds (created : SwarmCreated) : List String :=
  created.rootId :: created.workerIds ++ [created.verifierId, created.synthesizerId]

/-- The arguments of `create_swarm`. -/
structure SwarmArgs where
  goal : String
  workers : List SwarmWorkerSpec
  verifierProfile : String
  synthesizerProfile : String
  rootTitle : Option String := none
  verifierTitle : String := "Verify swarm outputs"
  synthesizerTitle : String := "Synthesize swarm outputs"
  tenant : Option String := none
  createdBy : String := "swarm-orchestrator"
  priority : Int := 0

/-- `_build_swarm_context`. -/
def buildSwarmContext (rootId goal : String) : String :=
  "\n\n## Swarm 协议\n" ++
  "- Swarm 根任务 / 共享黑板：`" ++ rootId ++ "`\n" ++
  "- 所有 Worker 并行执行。通过根任务的结构化评论分享中间成果\n" ++
  "- 将机器可读的结构化信息放在完成（complete）的 metadata 中\n" ++
  "- 将跨 Worker 的备注用结构化评论（[swarm:blackboard]JSON）放在根任务上\n" ++
  "- 目标：" ++ goal

/-- `_apply_body_augmentation`. -/
def applyBodyAugmentation (body swarmContext : String) (skills : List String) : String :=
  let augmented := body ++ swarmContext
  if skills = [] then augmented else augmented ++ "\n- 所需技能：" ++ ", ".intercalate skills

/-- What `create_swarm` refuses of a worker. -/
def SwarmWorkerSpec.refusal (w : SwarmWorkerSpec) : Option String :=
  if w.profile = "" then some "Each worker must have a profile"
  else if w.title = "" then some "Each worker must have a title"
  else none

namespace SwarmArgs

variable (args : SwarmArgs)

/-- The first of the checks of `create_swarm` to fail. -/
def refusal : Option String :=
  if args.workers = [] then some "At least one worker is required"
  else match args.workers.findSome? SwarmWorkerSpec.refusal with
  | some message => some message
  | none =>
    if args.verifierProfile = "" then some "Verifier profile is required"
    else if args.synthesizerProfile = "" then some "Synthesizer profile is required"
    else none

def rootArgs : CreateArgs where
  title := match args.rootTitle with
    | none | some "" => "Swarm: " ++ String.ofList (args.goal.toList.take 60)
    | some title => title
  body := some (s!"# Swarm Root: {args.goal}\n\nSwarm orchestration root task.\n\n" ++
    s!"Workers: {args.workers.length}\nVerifier: {args.verifierProfile}\nSynthesizer: {args.synthesizerProfile}")
  assignee := some "swarm-orchestrator"
  priority := args.priority
  tenant := args.tenant
  createdBy := some args.createdBy

def workerArgs (rootId : String) (w : SwarmWorkerSpec) : CreateArgs where
  title := w.title
  body := some (applyBodyAugmentation w.body (buildSwarmContext rootId args.goal) w.skills)
  assignee := some w.profile
  priority := if w.priority = 0 then args.priority else w.priority
  parents := [.plain rootId]
  maxRuntimeSeconds := w.maxRuntimeSeconds
  tenant := args.tenant
  createdBy := some args.createdBy

def verifierArgs (rootId : String) (workerIds : List String) : CreateArgs where
  title := args.verifierTitle
  body := some (s!"Verify the outputs from {args.workers.length} swarm workers.\n\n" ++
    "Read all worker results, then decide:\n" ++
    "- If all pass → complete with metadata.gate='pass'\n" ++
    "- If any fail → block this task with reasons\n" ++ buildSwarmContext rootId args.goal)
  assignee := some args.verifierProfile
  priority := args.priority
  parents := workerIds.map .plain
  tenant := args.tenant
  createdBy := some args.createdBy

def synthesizerArgs (rootId verifierId : String) : CreateArgs where
  title := args.synthesizerTitle
  body := some (s!"Synthesize the results from {args.workers.length} swarm workers.\n\n" ++
    "Read all worker results and blackboard entries, then produce a consolidated output.\n" ++
    buildSwarmContext rootId args.goal)
  assignee := some args.synthesizerProfile
  priority := args.priority
  parents := [.plain verifierId]
  tenant := args.tenant
  createdBy := some args.createdBy

def metadata : Json :=
  .obj [("kind", .str "kanban_swarm_v1"), ("goal", .str args.goal), ("worker_count", .int args.workers.length)]

def topology (created : SwarmCreated) : Json :=
  .obj [("goal", .str args.goal), ("root_id", .str created.rootId),
    ("worker_ids", .arr (created.workerIds.map .str)), ("verifier_id", .str created.verifierId),
    ("synthesizer_id", .str created.synthesizerId),
    ("worker_specs", .arr (args.workers.map (fun w => .obj [("profile", .str w.profile), ("title", .str w.title),
      ("skills", .arr (w.skills.map .str))]))),
    ("verifier_profile", .str args.verifierProfile), ("synthesizer_profile", .str args.synthesizerProfile)]

end SwarmArgs

/-- What the calls of `create_swarm` meet: the clock of the n-th call, and what `uuid4` yields for the n-th task. -/
structure Draws where
  clock : Nat → Clock
  hex : Nat → String

/-- The call of `create_task` that is the n-th call of the swarm. -/
def createNth (draws : Draws) (n : Nat) (args : CreateArgs) : Session Task :=
  call (fun db => createTask db (draws.clock n) (draws.hex n) args)

def setStatus (clock : Clock) (taskId : String) (status : TaskStatus) (args : StatusArgs) : Session (Option TaskView) :=
  call (fun db => updateTaskStatus db clock taskId status.value args)

/-- The loop over the workers; `n` counts the calls before it. -/
def createWorkers (draws : Draws) (args : SwarmArgs) (rootId : String) :
    Nat → List SwarmWorkerSpec → Session (List String)
  | _, [] => pure []
  | n, w :: workers => do
    let task ← createNth draws n (args.workerArgs rootId w)
    let workerIds ← createWorkers draws args rootId (n + 1) workers
    return task.id :: workerIds

/-- `create_swarm`. -/
def createSwarm (draws : Draws) (args : SwarmArgs) : Session SwarmCreated :=
  match args.refusal with
  | some message => throw (.valueError message)
  | none => do
    let n := args.workers.length
    let root ← createNth draws 0 args.rootArgs
    let workerIds ← createWorkers draws args root.id 1 args.workers
    let verifier ← createNth draws (n + 1) (args.verifierArgs root.id workerIds)
    let synthesizer ← createNth draws (n + 2) (args.synthesizerArgs root.id verifier.id)
    let created : SwarmCreated := ⟨root.id, workerIds, verifier.id, synthesizer.id⟩
    -- The root is completed only now that its children exist: nothing resolves a child that is created later.
    let _ ← setStatus (draws.clock (n + 3)) root.id .running {}
    let _ ← setStatus (draws.clock (n + 4)) root.id .completed { metadata := args.metadata }
    let _ ← call (fun db =>
      postBlackboard db (draws.clock (n + 5)) root.id args.createdBy "topology" (args.topology created))
    return created

end Creation

section Reading

/-- The text that `read_blackboard` decodes of a comment. -/
def blackboardText (body : String) : Option String :=
  if blackboardPrefix.toList.isPrefixOf body.toList then
    some (String.ofList ((body.toList.drop blackboardPrefix.length).dropWhile (· == ' ')))
  else if (blackboardPrefix ++ " ").toList.isPrefixOf body.toList then
    some (String.ofList (body.toList.drop (blackboardPrefix.length + 1)))
  else none

/-- What is raised by `data.get` where there is no such method, by a key that cannot be hashed, and by `json.loads` at
the bounds of the interpreter. -/
inductive BoardError
  | attributeError
  | typeError
  | overrun (o : Json.Overrun)
deriving DecidableEq, Repr

/-- A dict whose keys are JSON values, as the assignments it was made by, the last one first. -/
abbrev Dict (α : Type) := List (Json × α)

/-- `d.get(key)` for a text, which no key of another type equals. -/
def Dict.get {α : Type} (d : Dict α) (key : String) : Option α :=
  (d.find? (fun a => a.1.eqText (some key))).map Prod.snd

/-- What one comment puts on the blackboard. -/
structure Post where
  key : Json
  value : Json
  author : String

/-- What `read_blackboard` makes of the JSON value in a comment. -/
def Post.ofData (author : String) : Json → Except BoardError (Option Post)
  | .obj data => match Json.field data "key" with
    | .null => .ok none
    | .arr _ | .obj _ => .error .typeError
    | key => .ok (some ⟨key, Json.field data "value", author⟩)
  | _ => .error .attributeError

/-- What `read_blackboard` makes of a comment. Text that is not JSON is passed over. -/
def Post.ofComment (limits : Json.Limits) (p : Python) (author body : String) : Except BoardError (Option Post) :=
  match (blackboardText body).map (Json.loadsWithin limits p) with
  | none | some (.error .decodeError) => .ok none
  | some (.error (.overrun o)) => .error (.overrun o)
  | some (.ok data) => ofData author data

/-- The dicts `read_blackboard` fills. -/
structure Board where
  blackboard : Dict Json
  authors : Dict String

def Board.empty : Board := ⟨[], []⟩

/-- `blackboard[key] = value` and `authors[key] = c.author`. -/
def Board.put (b : Board) (post : Post) : Board :=
  ⟨(post.key, post.value) :: b.blackboard, (post.key, post.author) :: b.authors⟩

/-- The body of the loop over the comments. -/
def Board.take (limits : Json.Limits) (p : Python) (b : Board) (author body : String) : Except BoardError Board :=
  (Post.ofComment limits p author body).map (fun post => post.elim b b.put)

/-- A value of the dict that is returned: a posted one, or the dict of the authors. -/
inductive Cell
  | value (v : Json)
  | authors (d : Dict String)

/-- `blackboard["_authors"] = authors`. -/
def Board.result (b : Board) : Dict Cell :=
  (.str "_authors", .authors b.authors) :: b.blackboard.map (fun a => (a.1, .value a.2))

/-- `read_blackboard`. -/
def readBlackboard (limits : Json.Limits) (p : Python) (db : Db) (rootId : String) : Except BoardError (Dict Cell) :=
  ((getComments db rootId).foldlM (fun (b : Board) c => b.take limits p c.author c.body) Board.empty).map Board.result

end Reading

end A2ARegistry.Orchestration.Swarm
