import A2ARegistry.Auth.Proofs.Steps
import A2ARegistry.Orchestration.Handlers
import A2ARegistry.Orchestration.Proofs.Acyclic
import A2ARegistry.Orchestration.Proofs.Completeness

namespace A2ARegistry.Orchestration
open Base Security

/-- A request that creates a task. -/
structure CreateRequest where
  draw : Draw
  caller : CallerIdentity
  body : CreateBody

/-- The database, with the tasks that were accepted. -/
structure Creations where
  db : Db
  accepted : List String

namespace Creations

def start (db : Db) : Creations := ⟨db, []⟩

def step (h : OrchestrationHandler) (s : Creations) (r : CreateRequest) : Creations :=
  let answer := handleCreateTask h s.db r.draw r.caller r.body
  ⟨answer.2, s.accepted ++ if answer.1.status = 201 then [freshId r.draw.hex] else []⟩

/-- No accepted task lies at the end of a chain of more than `limit` links. -/
def DepthBounded (limit : Int) (s : Creations) : Prop :=
  ∀ id ∈ s.accepted, ∀ n a, Graph.Walk (Linked s.db) (n + 1) a id → (n + 1 : Int) ≤ limit

end Creations

/-- The handler, with a policy engine that enforces. -/
def OrchestrationHandler.enforcing (h : OrchestrationHandler) (engine : PolicyEngine) : OrchestrationHandler :=
  { h with ape := some { engine with mode := "enforce" } }

/-- The rows of a creation can be written: their values can be bound, the parents are there and distinct, and
the id drawn for the task is free. -/
structure Storable (engine : Engine) (db : Db) (hex : String) (args : CreateArgs) (parents : List ParentArg) :
    Prop where
  values : args.bindable engine parents = true
  ids : ∀ parent ∈ parents, (engine.bind parent.parentId).isSome
  named : ∀ parent ∈ parents, parent.id engine.toCodec ≠ ""
  stored : ∀ parent ∈ parents, (db.task? (parent.id engine.toCodec)).isSome
  distinct : (parents.map (ParentArg.id engine.toCodec)).Nodup
  fresh : db.task? (freshId hex) = none

/-- A creation that nothing refuses: the body is well formed, no check of the engine denies, and the rows can
be written. -/
structure Admitted (h : OrchestrationHandler) (engine : PolicyEngine) (db : Db) (r : CreateRequest)
    (title : String) (priority : Int) (parents : List ParentArg) : Prop where
  titled : r.body.strippedTitle = some title
  untrivial : title ≠ ""
  prioritised : readPriority h.intOfFloat r.body.priority = some priority
  undenied : createDenial engine h.registry db r.draw.now r.caller ⟨r.body.assignee, r.body.parentId⟩ = none
  listed : parentArgs h.engine.toCodec r.body.parents = some parents
  storable : Storable h.engine db r.draw.hex (r.body.args h.engine title priority parents) parents

section Create

variable {h : OrchestrationHandler} {engine : PolicyEngine} {db : Db} {r : CreateRequest}

/-- An engine that enforces lets a creation pass exactly when no check denies. -/
theorem createCheckpoint_enforcing :
    (createCheckpoint (h.enforcing engine) db r.draw r.caller r.body).allowed = true ↔
      createDenial engine h.registry db r.draw.now r.caller ⟨r.body.assignee, r.body.parentId⟩ = none := by
  have hchecks : createDenial { engine with mode := "enforce" } h.registry db r.draw.now r.caller
      ⟨r.body.assignee, r.body.parentId⟩ =
      createDenial engine h.registry db r.draw.now r.caller ⟨r.body.assignee, r.body.parentId⟩ := rfl
  simp only [createCheckpoint, OrchestrationHandler.enforcing, checkTaskCreate, hchecks]
  cases createDenial engine h.registry db r.draw.now r.caller ⟨r.body.assignee, r.body.parentId⟩ with
  | none => simp
  | some denial => simp [Ape.denyAs]

theorem createErrorResponse_status (message : String) : (createErrorResponse message).status = 400 := by
  unfold createErrorResponse
  split
  · rfl
  · split <;> rfl

/-- Parents that are all there raise in the lookup exactly when one of their ids cannot be bound. -/
theorem lookupRaises_iff {engine : Engine} {parents : List ParentArg}
    (hstored : ∀ parent ∈ parents, (db.task? (parent.id engine.toCodec)).isSome) :
    lookupRaises engine db parents = false ↔ ∀ parent ∈ parents, (engine.bind parent.parentId).isSome := by
  induction parents with
  | nil => simp [lookupRaises]
  | cons parent parents ih =>
    obtain ⟨hparent, hparents⟩ := List.forall_mem_cons.mp hstored
    rw [List.forall_mem_cons, ← ih hparents, lookupRaises]
    cases hb : engine.bind parent.parentId with
    | none => simp
    | some id => simp [Option.isNone_eq_false_iff.mpr hparent]

theorem args_parentSpecs (engine : Engine) (body : CreateBody) (title : String) (priority : Int)
    (parents : List ParentArg) : (body.args engine title priority parents).parentSpecs =
      parents.map (fun parent => ⟨parent.id engine.toCodec, (engine.bind parent.condition).join⟩) := by
  simp [CreateArgs.parentSpecs, CreateBody.args, ParentArg.item, ParentItem.spec, Function.comp_def]

/-- The store creates the task exactly when its rows can be written. -/
theorem createAndAnswer_cases (hi : Integrity db) (draw : Draw) (body : CreateBody) (title : String) (priority : Int)
    (parents : List ParentArg) (headers : List (String × String)) :
    (∃ task db', Storable h.engine db draw.hex (body.args h.engine title priority parents) parents ∧
      createTask db draw.clock draw.hex (body.args h.engine title priority parents) = .ok (task, db') ∧
      (createAndAnswer h db draw (body.args h.engine title priority parents) parents headers).1.status = 201 ∧
      (createAndAnswer h db draw (body.args h.engine title priority parents) parents headers).2 = db') ∨
    ¬ Storable h.engine db draw.hex (body.args h.engine title priority parents) parents ∧
      (createAndAnswer h db draw (body.args h.engine title priority parents) parents headers).1.status ≠ 201 ∧
      (createAndAnswer h db draw (body.args h.engine title priority parents) parents headers).2 = db := by
  have hspecs := args_parentSpecs h.engine body title priority parents
  generalize hargs : body.args h.engine title priority parents = args at hspecs ⊢
  unfold createAndAnswer
  split
  · rename_i hraises
    refine Or.inr ⟨fun hs => ?_, by simp [serverError], rfl⟩
    simp [(lookupRaises_iff hs.stored).mpr hs.ids] at hraises
  rename_i hraises
  cases hc : createTask db draw.clock draw.hex args with
  | error e =>
    refine Or.inr ⟨fun hs => ?_, ?_⟩
    · have hnamed : ∀ spec ∈ args.parentSpecs, spec.parentId ≠ "" := by simpa [hspecs] using hs.named
      have hstored : ∀ spec ∈ args.parentSpecs, (db.task? spec.parentId).isSome := by
        simpa [hspecs] using hs.stored
      have hdistinct : (args.parentSpecs.map ParentSpec.parentId).Nodup := by
        simpa [hspecs, Function.comp_def] using hs.distinct
      obtain ⟨task, db', hok⟩ := createTask_accepts hi draw.clock hs.fresh hnamed hstored hdistinct
      cases hc.symm.trans hok
    · cases e with
      | valueError message => exact ⟨by simp [createErrorResponse_status], rfl⟩
      | invalidTransition | permissionError | integrityError | attributeError | overflowError =>
        exact ⟨by simp [serverError], rfl⟩
  | ok created =>
    obtain ⟨task, db'⟩ := created
    obtain ⟨hrow, hfresh, _, _, hstored, _⟩ := createTask_ok hc
    obtain ⟨hnamed, hdistinct⟩ := createTask_specs hc
    rw [hspecs] at hnamed hstored hdistinct
    dsimp only
    split
    · rename_i hvalues
      refine Or.inr ⟨fun hs => ?_, by simp [serverError], rfl⟩
      simp [hs.values] at hvalues
    · rename_i hvalues
      have hdetail : taskToDetail h.engine.toCodec task ≠ none := by
        subst hrow
        simp [taskToDetail, loadColumn, CreateArgs.row, truthy]
      obtain ⟨detail, hdetail⟩ := Option.ne_none_iff_exists'.mp hdetail
      have hstored' : ∀ parent ∈ parents, (db.task? (parent.id h.engine.toCodec)).isSome := by simpa using hstored
      have hnamed' : ∀ parent ∈ parents, parent.id h.engine.toCodec ≠ "" := by simpa using hnamed
      have hall : parents.all (fun parent => parent.id h.engine.toCodec != "") = true := by simpa using hnamed'
      refine Or.inl ⟨task, db', ⟨by simpa using hvalues, ?_, hnamed', hstored', ?_, hfresh⟩, rfl, ?_, ?_⟩
      · exact (lookupRaises_iff hstored').mp (by simpa [hall] using hraises)
      · simpa [Function.comp_def] using hdistinct
      · simp [hdetail]
      · simp [hdetail]

variable (h engine r) in
/-- A creation is admitted, and creates the task, or it is refused and changes nothing. -/
theorem handleCreateTask_cases (hi : Integrity db) :
    (∃ title priority parents task db', Admitted h engine db r title priority parents ∧
      createTask db r.draw.clock r.draw.hex (r.body.args h.engine title priority parents) = .ok (task, db') ∧
      (handleCreateTask (h.enforcing engine) db r.draw r.caller r.body).1.status = 201 ∧
      (handleCreateTask (h.enforcing engine) db r.draw r.caller r.body).2 = db') ∨
    (∀ title priority parents, ¬ Admitted h engine db r title priority parents) ∧
      (handleCreateTask (h.enforcing engine) db r.draw r.caller r.body).1.status ≠ 201 ∧
      (handleCreateTask (h.enforcing engine) db r.draw r.caller r.body).2 = db := by
  unfold handleCreateTask
  cases ht : r.body.strippedTitle with
  | none => exact Or.inr ⟨fun _ _ _ ha => (nomatch ht.symm.trans ha.titled), by simp [serverError], rfl⟩
  | some title =>
    dsimp only
    split
    · rename_i hempty
      refine Or.inr ⟨fun _ _ _ ha => ?_, by simp [jsonError], rfl⟩
      cases ht.symm.trans ha.titled
      exact ha.untrivial hempty
    rename_i hne
    cases hp : readPriority (h.enforcing engine).intOfFloat r.body.priority with
    | none => exact Or.inr ⟨fun _ _ _ ha => (nomatch hp.symm.trans ha.prioritised), by simp [serverError], rfl⟩
    | some priority =>
      dsimp only
      split
      · rename_i hdenied
        refine Or.inr ⟨fun _ _ _ ha => ?_, by simp [jsonError], rfl⟩
        simp [createCheckpoint_enforcing.mpr ha.undenied] at hdenied
      rename_i hallowed
      have hundenied := (createCheckpoint_enforcing (h := h)).mp (by simpa using hallowed)
      cases hl : parentArgs (h.enforcing engine).engine.toCodec r.body.parents with
      | none => exact Or.inr ⟨fun _ _ _ ha => (nomatch hl.symm.trans ha.listed), by simp [serverError], rfl⟩
      | some parents =>
        rcases createAndAnswer_cases (h := h.enforcing engine) hi r.draw r.body title priority parents
            (createCheckpoint (h.enforcing engine) db r.draw r.caller r.body).responseHeaders with
          ⟨task, db', hs, hc, hstatus, hdb⟩ | ⟨hs, hstatus, hdb⟩
        · exact Or.inl ⟨title, priority, parents, task, db', ⟨ht, hne, hp, hundenied, hl, hs⟩, hc, hstatus, hdb⟩
        · refine Or.inr ⟨fun _ _ _ ha => hs ?_, hstatus, hdb⟩
          cases ht.symm.trans ha.titled
          cases hp.symm.trans ha.prioritised
          cases hl.symm.trans ha.listed
          exact ha.storable

/-- Where a task is created, the links gain one from each of its parents. -/
theorem created_linked {title : String} {priority : Int} {parents : List ParentArg} {task : Task} {db' : Db}
    (hc : createTask db r.draw.clock r.draw.hex (r.body.args h.engine title priority parents) = .ok (task, db'))
    (p c : String) : Linked db' p c ↔
      Linked db p c ∨ c = freshId r.draw.hex ∧ ∃ parent ∈ parents, parent.id h.engine.toCodec = p := by
  obtain ⟨_, _, _, _, _, hlinks⟩ := createTask_ok hc
  rw [args_parentSpecs] at hlinks
  constructor
  · rintro ⟨l, hl, rfl, rfl⟩
    rcases (hlinks l).mp hl with hl | ⟨spec, hspec, rfl⟩
    · exact Or.inl ⟨l, hl, rfl, rfl⟩
    · obtain ⟨parent, hparent, rfl⟩ := List.mem_map.mp hspec
      exact Or.inr ⟨rfl, parent, hparent, rfl⟩
  · rintro (⟨l, hl, rfl, rfl⟩ | ⟨rfl, parent, hparent, rfl⟩)
    · exact ⟨l, (hlinks l).mpr (Or.inl hl), rfl, rfl⟩
    · exact ⟨_, (hlinks _).mpr (Or.inr ⟨_, List.mem_map_of_mem hparent, rfl⟩), rfl, rfl⟩

end Create

namespace Creations

/-- Links join tasks that are there, and the accepted tasks are there. -/
structure Stored (s : Creations) : Prop where
  integrity : Integrity s.db
  accepted : ∀ id ∈ s.accepted, (s.db.task? id).isSome

/-- A creation that nothing refuses links only parents at the end of chains that are shorter than the limit. -/
def Shallow (h : OrchestrationHandler) (engine : PolicyEngine) (limit : Int) (s : Creations) (r : CreateRequest) :
    Prop :=
  ∀ title priority parents, Admitted h engine s.db r title priority parents → ∀ parent ∈ parents, ∀ n a,
    Graph.Walk (Linked s.db) n a (parent.id h.engine.toCodec) → (n : Int) < limit

variable {h : OrchestrationHandler} {engine : PolicyEngine} {s : Creations}

theorem step_stored (r : CreateRequest) (hs : s.Stored) : (step (h.enforcing engine) s r).Stored := by
  rcases handleCreateTask_cases h engine r hs.integrity with
    ⟨title, priority, parents, task, db', _, hc, hstatus, hdb⟩ | ⟨_, hstatus, hdb⟩
  · have hdb' : (step (h.enforcing engine) s r).db = db' := hdb
    have hstep := step_createTask hc
    obtain ⟨_, _, htask, _, _, _⟩ := createTask_ok hc
    refine ⟨?_, fun id hid => ?_⟩
    · rw [hdb', ← hstep]
      exact step_integrity s.db _ hs.integrity
    · rw [hdb', htask]
      split
      · rfl
      · rename_i hne
        have hold : id ∈ s.accepted := by simpa [step, hstatus, hne] using hid
        exact hs.accepted id hold
  · have hdb' : (step (h.enforcing engine) s r).db = s.db := hdb
    refine ⟨hdb' ▸ hs.integrity, fun id hid => ?_⟩
    rw [hdb']
    exact hs.accepted id (by simpa [step, hstatus] using hid)

/-- A creation keeps the depth bounded exactly when it links shallow parents only. -/
theorem depthBounded_step_iff {limit : Int} (r : CreateRequest) (hs : s.Stored) (hb : s.DepthBounded limit) :
    (step (h.enforcing engine) s r).DepthBounded limit ↔ s.Shallow h engine limit r := by
  rcases handleCreateTask_cases h engine r hs.integrity with
    ⟨title, priority, parents, task, db', hadmitted, hc, hstatus, hdb⟩ | ⟨hrefused, hstatus, hdb⟩
  · have hdb' : (step (h.enforcing engine) s r).db = db' := hdb
    have hlinked := created_linked hc
    obtain ⟨_, hfresh, _, _, _, _⟩ := createTask_ok hc
    have hinto : ∀ p, ¬ Linked s.db p (freshId r.draw.hex) := by
      rintro p ⟨l, hl, _, hchild⟩
      have := hs.integrity.child l hl
      rw [hchild, hfresh] at this
      cases this
    -- the links of the new task lead into it, and none leads on
    have hedges : ∀ a b, Linked db' a b → Linked s.db a b ∨ b = freshId r.draw.hex :=
      fun a b hab => ((hlinked a b).mp hab).imp_right And.left
    have hne : ∀ parent ∈ parents, parent.id h.engine.toCodec ≠ freshId r.draw.hex := by
      intro parent hparent he
      have := hadmitted.storable.stored parent hparent
      rw [he, hfresh] at this
      cases this
    have hsink : ∀ b, ¬ Linked db' (freshId r.draw.hex) b := by
      intro b hb'
      rcases (hlinked _ b).mp hb' with hold | ⟨_, parent, hparent, he⟩
      · exact fresh_sink hs.integrity hfresh b hold
      · exact hne parent hparent he
    constructor
    · intro hafter title' priority' parents' hadmitted' parent hparent n a hwalk
      cases hadmitted.listed.symm.trans hadmitted'.listed
      have hold : Graph.Walk (Linked db') n a (parent.id h.engine.toCodec) :=
        hwalk.mono fun a b hab => (hlinked a b).mpr (Or.inl hab)
      have hnew : Graph.Walk (Linked db') (n + 1) a (freshId r.draw.hex) :=
        hold.tail ((hlinked _ _).mpr (Or.inr ⟨rfl, parent, hparent, rfl⟩))
      have hmem : freshId r.draw.hex ∈ (step (h.enforcing engine) s r).accepted := by
        simp [step, hstatus]
      have hlimit := hafter _ hmem n a (hdb' ▸ hnew)
      omega
    · intro hshallow id hid n a hwalk
      rw [hdb'] at hwalk
      by_cases he : id = freshId r.draw.hex
      · subst he
        cases hwalk with
        | @tail _ _ v _ hwalk hstep =>
          obtain ⟨_, parent, hparent, rfl⟩ := ((hlinked v _).mp hstep).resolve_left (hinto v)
          have hold := hwalk.sink hedges hsink (hne parent hparent)
          have hlimit := hshallow title priority parents hadmitted parent hparent n a hold
          omega
      · have hmem : id ∈ s.accepted := by simpa [step, hstatus, he] using hid
        exact hb id hmem n a (hwalk.sink hedges hsink he)
  · have hsame : step (h.enforcing engine) s r = s := by
      simp only [step, hdb, if_neg hstatus, List.append_nil]
    rw [hsame]
    exact iff_of_true hb fun title priority parents ha => absurd ha (hrefused title priority parents)

end Creations

/-- From any database the store leads to, the creations an enforcing engine accepts stay within its depth
exactly as long as each one that nothing refuses links parents whose chains are shorter than the limit. -/
theorem depth_bounded_iff (h : OrchestrationHandler) (engine : PolicyEngine) (ops : List Op)
    (requests : List CreateRequest) :
    Always (Creations.step (h.enforcing engine)) (Creations.DepthBounded engine.maxDelegationDepth)
        (.start (exec step Db.empty ops)) requests ↔
      EachStep (Creations.step (h.enforcing engine)) (Creations.Shallow h engine engine.maxDelegationDepth)
        (.start (exec step Db.empty ops)) requests := by
  refine always_iff_guarded (I := Creations.Stored) (fun s r hs _ => Creations.step_stored r hs)
    (fun s r hs hb => Creations.depthBounded_step_iff r hs hb) ⟨reachable_integrity ops, ?_⟩ ?_ requests
  · exact fun id hid => absurd hid List.not_mem_nil
  · exact fun id hid => absurd hid List.not_mem_nil

/-- An engine that allows a depth of one. -/
def shallowEngine : PolicyEngine where
  mode := "enforce"
  tasks := true
  maxDelegationDepth := 1
  dtm := { engine := python Auth.sampleCrypto.toPython some, crypto := Auth.sampleCrypto, privateKey := "private", publicKey := "public", floatRepr := fun _ => "0.0" }

def sampleHandler : OrchestrationHandler where
  engine := python Auth.sampleCrypto.toPython some
  intOfFloat _ := none
  ape := none
  registry := ⟨fun _ _ => none, none⟩
  tokens := Table.empty

/-- A user creates three tasks, each with the one before it in `parents`. -/
def chainOfThree : List CreateRequest :=
  [("1", .null), ("2", .arr [.str "t_1"]), ("3", .arr [.str "t_2"])].map (fun (hex, parents) => {
    draw := ⟨0, .fixed 0, hex⟩
    caller := { agentId := "user:admin", scope := "task:write" }
    body := { title := .str "task", parents := parents } })

/-- The third is accepted, two links deep. -/
theorem chain_too_deep : ¬ Always (Creations.step (sampleHandler.enforcing shallowEngine))
    (Creations.DepthBounded shallowEngine.maxDelegationDepth) (.start Db.empty) chainOfThree := by
  intro h
  have hid : "t_3" ∈ (exec (Creations.step (sampleHandler.enforcing shallowEngine)) (.start Db.empty)
      chainOfThree).accepted := by
    decide +kernel
  have hlinks : (exec (Creations.step (sampleHandler.enforcing shallowEngine)) (.start Db.empty)
      chainOfThree).db.links.rows = [⟨"t_1", "t_2", none⟩, ⟨"t_2", "t_3", none⟩] := by
    decide +kernel
  have hwalk : Graph.Walk (Linked (exec (Creations.step (sampleHandler.enforcing shallowEngine)) (.start Db.empty)
      chainOfThree).db) 2 "t_1" "t_3" := by
    refine ((Graph.Walk.refl "t_1").tail (b := "t_1") (c := "t_2") ?_).tail ?_
    · exact ⟨⟨"t_1", "t_2", none⟩, by simp [hlinks], rfl, rfl⟩
    · exact ⟨⟨"t_2", "t_3", none⟩, by simp [hlinks], rfl, rfl⟩
  have hlimit := h.last "t_3" hid 1 "t_1" hwalk
  simp [shallowEngine] at hlimit

end A2ARegistry.Orchestration
