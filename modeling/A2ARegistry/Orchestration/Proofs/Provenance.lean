import A2ARegistry.Orchestration.Proofs.Depth
import A2ARegistry.Orchestration.Provenance

namespace A2ARegistry.Orchestration
open Base Security

section Definitions

/-- The task store and the tracker, with the hops that were recorded, under the ids of their chains. -/
structure Traced where
  db : Db
  pt : ProvenanceTracker
  recorded : List (String × ProvenanceHop)

/-- What reaches the tracker: a request that creates a task, a claim, and calls of its own methods. -/
inductive ProvenanceCall
  | create (draw : Draw) (caller : CallerIdentity) (body : CreateBody) (request : TokenRequest)
      (ensuredAt recordedAt : Rat)
  | claimed (now : Rat) (taskId : String) (request : TokenRequest) (workerId : String)
  | ensureChain (now : Rat) (args : ChainArgs)
  | recordHop (now : Rat) (args : HopArgs)

namespace Traced

def start (driver : Driver) : Traced := ⟨Db.empty, ProvenanceTracker.start driver, []⟩

variable (h : OrchestrationHandler) (s : Traced)

/-- What a call leaves, and the hop it has recorded. -/
def note (chainId : String) (result : Option ProvenanceHop × ProvenanceTracker) : Traced :=
  { s with pt := result.2, recorded := s.recorded ++ (result.1.map (fun hop => (chainId, hop))).toList }

def step : ProvenanceCall → Traced
  | .create draw caller body request ensuredAt recordedAt =>
    { s.note (freshId draw.hex) (trackCreate h s.db s.pt draw caller body request ensuredAt recordedAt) with
      db := (handleCreateTask h s.db draw caller body).2 }
  | .claimed now taskId request workerId =>
    s.note taskId (recordProvenanceClaim s.db s.pt taskId request workerId now)
  | .ensureChain now args => { s with pt := s.pt.ensureChain now args }
  | .recordHop now args => s.note args.chainId (recordHop? s.pt now (some args))

/-- The hops that were recorded for a chain, in the order in which they were. -/
def recordedOf (chainId : String) : List ProvenanceHop :=
  (s.recorded.filter (fun r => r.1 == chainId)).map Prod.snd

end Traced

/-- An ancestor of the task, or the task itself, that has no parent. -/
def IsRoot (db : Db) (taskId rootId : String) : Prop :=
  Graph.Reaches (fun child parent => Linked db parent child) taskId rootId ∧ ∀ parent, ¬ Linked db parent rootId

/-- A chain that tells how many hops were recorded for it, has them in their order, and starts at a root of its
task. -/
structure ChainFaithful (s : Traced) (taskId : String) (chain : ProvenanceChain) : Prop where
  depth : chain.depth = (s.recordedOf chain.chainId).length
  hops : chain.hops = s.recordedOf chain.chainId
  root : IsRoot s.db taskId chain.rootTaskId

/-- Every chain of a task is faithful, whatever the database chooses, and ensuring one that is there changes
nothing. -/
structure Traced.Faithful (s : Traced) : Prop where
  chains : ∀ choice : Choice, choice.Lawful s.pt.driver → ∀ row ∈ s.pt.chains.rows,
    ChainFaithful s row.taskId (s.pt.chain choice row)
  found : ∀ choice : Choice, choice.Lawful s.pt.driver → ∀ taskId chain,
    s.pt.getChainByTask choice taskId = some chain → ChainFaithful s taskId chain
  repeated : ∀ now args, s.pt.hasChain args.chainId = true → s.pt.ensureChain now args = s.pt

/-- Hops that come in the order in which they were inserted. MySQL leaves open how those of one timestamp come. -/
def Precedes (driver : Driver) (earlier later : ProvenanceHop) : Prop :=
  match driver with
  | .sqlite => earlier.timestamp ≤ later.timestamp
  | .mysql => earlier.timestamp < later.timestamp ∨ earlier = later

section Conditions

variable (s : Traced)

/-- The hop, if there is one to record, comes behind those of its chain, if that is there. -/
def ComesLast (now : Rat) (args : Option HopArgs) : Prop :=
  ∀ a ∈ args, s.pt.hasChain a.chainId = true → ∀ hop ∈ s.pt.hopsOf a.chainId,
    Precedes s.pt.driver hop (a.hop now)

/-- No hop was recorded before its chain; on SQLite none can be. -/
def Unrecorded (chainId : String) : Prop := s.pt.driver = .mysql → s.pt.hopsOf chainId = []

/-- The chain that a new task gets is rooted and counts its hops: the task has no parents, or its chain is there, for
another task, and hops that were recorded before the chain are counted with the one to the assignee. -/
structure Creatable (body : CreateBody) (task : Task) (hop : Option HopArgs) (now : Rat) : Prop where
  unparented : body.parents.truthy = true →
    s.pt.hasChain task.id = true ∧ ∀ row ∈ s.pt.chains.rows, row.taskId ≠ task.id
  uncounted : s.pt.hasChain task.id = false → hop = none → Unrecorded s task.id
  ordered : ∀ a ∈ hop, (s.pt.hopsOf task.id ++ [a.hop now]).Pairwise (Precedes s.pt.driver)

/-- What a call must meet. -/
def Traceable (h : OrchestrationHandler) : ProvenanceCall → Prop
  | .create draw caller body request _ recordedAt => ∀ task, createdTask h s.db draw caller body = some task →
      Creatable s body task (createHopArgs task request) recordedAt
  | .claimed now taskId request workerId => ComesLast s now (claimHopArgs s.db taskId request workerId)
  | .ensureChain _ args => s.pt.hasChain args.chainId = false →
      Unrecorded s args.chainId ∧ IsRoot s.db args.taskId args.rootTaskId
  | .recordHop now args => ComesLast s now (some args)

end Conditions

end Definitions

section Tracker

variable {pt pt' : ProvenanceTracker} {now : Rat} {row : ChainRow} {chainId : String}

/-- The hops of a tracker that is in order: they reference their chains, each chain counts its own, and they come in
the order in which they were inserted. -/
structure Tidy (pt : ProvenanceTracker) : Prop where
  referenced : pt.driver = .sqlite → ∀ row ∈ pt.hops.rows, pt.hasChain row.chainId = true
  counted : ∀ row ∈ pt.chains.rows, row.depth = (pt.hopsOf row.chainId).length
  ordered : ∀ row ∈ pt.chains.rows, (pt.hopsOf row.chainId).Pairwise (Precedes pt.driver)

/-- The same, but for one chain, between its creation and its first hop. -/
structure TidyExcept (pt : ProvenanceTracker) (chainId : String) : Prop where
  referenced : pt.driver = .sqlite → ∀ row ∈ pt.hops.rows, pt.hasChain row.chainId = true
  counted : ∀ row ∈ pt.chains.rows, row.chainId ≠ chainId → row.depth = (pt.hopsOf row.chainId).length
  ordered : ∀ row ∈ pt.chains.rows, row.chainId ≠ chainId → (pt.hopsOf row.chainId).Pairwise (Precedes pt.driver)

theorem hasChain_iff : pt.hasChain chainId = true ↔ ∃ row ∈ pt.chains.rows, row.chainId = chainId := by
  rw [ProvenanceTracker.hasChain, Option.isSome_iff_exists]
  exact exists_congr fun row => Table.find_some_iff

theorem Tidy.except (ht : Tidy pt) (chainId : String) : TidyExcept pt chainId :=
  ⟨ht.referenced, fun row hrow _ => ht.counted row hrow, fun row hrow _ => ht.ordered row hrow⟩

theorem TidyExcept.tidy (ht : TidyExcept pt chainId) (hrest : ∀ row ∈ pt.chains.rows, row.chainId = chainId →
    row.depth = (pt.hopsOf chainId).length ∧ (pt.hopsOf chainId).Pairwise (Precedes pt.driver)) : Tidy pt := by
  refine ⟨ht.referenced, fun row hrow => ?_, fun row hrow => ?_⟩
  · by_cases he : row.chainId = chainId
    · rw [he]
      exact (hrest row hrow he).1
    · exact ht.counted row hrow he
  · by_cases he : row.chainId = chainId
    · rw [he]
      exact (hrest row hrow he).2
    · exact ht.ordered row hrow he

/-- A chain that is not there needs no exception. -/
theorem TidyExcept.absent (ht : TidyExcept pt chainId) (hnone : pt.hasChain chainId = false) : Tidy pt := by
  refine ht.tidy fun row hrow he => ?_
  rw [hasChain_iff.mpr ⟨row, hrow, he⟩] at hnone
  cases hnone

theorem hopsOf_nil (h : ∀ row ∈ pt.hops.rows, row.chainId ≠ chainId) : pt.hopsOf chainId = [] := by
  rw [ProvenanceTracker.hopsOf, List.map_eq_nil_iff, Table.select, List.filter_eq_nil_iff]
  intro row hrow
  simpa using h row hrow

section Ensure

variable (args : ChainArgs)

theorem ensureChain_cases (pt : ProvenanceTracker) (now : Rat) : pt.hasChain args.chainId = true ∧
    pt.ensureChain now args = pt ∨ pt.hasChain args.chainId = false ∧
    ∃ chains, pt.ensureChain now args = { pt with chains := chains } ∧ chains.rows = pt.chains.rows ++ [args.row now] := by
  unfold ProvenanceTracker.ensureChain
  cases hinsert : pt.chains.insert? (args.row now) with
  | none =>
    left
    refine ⟨?_, rfl⟩
    have hnot := mt (Table.insert_isSome (r := args.row now)).mpr (by rw [hinsert]; exact Bool.false_ne_true)
    exact Option.isSome_iff_ne_none.mpr hnot
  | some chains =>
    right
    obtain ⟨hnone, hrows⟩ := Table.insert_some hinsert
    exact ⟨Option.isSome_eq_false_iff.mpr (Option.isNone_iff_eq_none.mpr hnone), chains, rfl, hrows⟩

/-- Ensuring a chain that is there changes nothing. -/
theorem ensureChain_repeated (h : pt.hasChain args.chainId = true) : pt.ensureChain now args = pt := by
  rcases ensureChain_cases args pt now with ⟨_, hsame⟩ | ⟨hnone, _⟩
  · exact hsame
  · rw [h] at hnone
    cases hnone

theorem ensureChain_hops : (pt.ensureChain now args).hops = pt.hops := by
  rcases ensureChain_cases args pt now with ⟨_, hsame⟩ | ⟨_, chains, hchains, _⟩
  · rw [hsame]
  · rw [hchains]

theorem ensureChain_driver : (pt.ensureChain now args).driver = pt.driver := by
  rcases ensureChain_cases args pt now with ⟨_, hsame⟩ | ⟨_, chains, hchains, _⟩
  · rw [hsame]
  · rw [hchains]

theorem hopsOf_ensureChain : (pt.ensureChain now args).hopsOf chainId = pt.hopsOf chainId := by
  rw [ProvenanceTracker.hopsOf, ensureChain_hops, ProvenanceTracker.hopsOf]

/-- The rows are those that were there, and one more where there was none. -/
theorem mem_ensureChain (hrow : row ∈ (pt.ensureChain now args).chains.rows) : row ∈ pt.chains.rows ∨
    pt.hasChain args.chainId = false ∧ row = args.row now := by
  rcases ensureChain_cases args pt now with ⟨_, hsame⟩ | ⟨hnone, chains, hchains, hrows⟩
  · rw [hsame] at hrow
    exact Or.inl hrow
  · rw [hchains, hrows, List.mem_append, List.mem_singleton] at hrow
    exact hrow.imp_right fun he => ⟨hnone, he⟩

theorem hasChain_ensureChain (h : pt.hasChain chainId = true) : (pt.ensureChain now args).hasChain chainId = true := by
  obtain ⟨row, hrow, he⟩ := hasChain_iff.mp h
  rcases ensureChain_cases args pt now with ⟨_, hsame⟩ | ⟨_, chains, hchains, hrows⟩
  · rw [hsame, h]
  · rw [hasChain_iff, hchains]
    exact ⟨row, by simp [hrows, hrow], he⟩

/-- On SQLite a chain that is not there has no hops. -/
theorem Tidy.unrecorded (ht : Tidy pt) (hsqlite : pt.driver = .sqlite) (hnone : pt.hasChain chainId = false) :
    pt.hopsOf chainId = [] := by
  apply hopsOf_nil
  rintro row hrow rfl
  rw [ht.referenced hsqlite row hrow] at hnone
  cases hnone

theorem Tidy.ensureChain_except (ht : Tidy pt) : TidyExcept (pt.ensureChain now args) args.chainId := by
  constructor
  · intro hsqlite hop hhop
    rw [ensureChain_driver] at hsqlite
    rw [ensureChain_hops] at hhop
    exact hasChain_ensureChain args (ht.referenced hsqlite hop hhop)
  · intro row hrow hne
    rw [hopsOf_ensureChain]
    rcases mem_ensureChain args hrow with hold | ⟨_, rfl⟩
    · exact ht.counted row hold
    · exact absurd rfl hne
  · intro row hrow hne
    rw [hopsOf_ensureChain, ensureChain_driver]
    rcases mem_ensureChain args hrow with hold | ⟨_, rfl⟩
    · exact ht.ordered row hold
    · exact absurd rfl hne

theorem Tidy.ensureChain (ht : Tidy pt) (hnew : pt.hasChain args.chainId = false → pt.driver = .mysql →
    pt.hopsOf args.chainId = []) : Tidy (pt.ensureChain now args) := by
  refine (ht.ensureChain_except args).tidy fun row hrow he => ?_
  rw [hopsOf_ensureChain, ensureChain_driver]
  rcases mem_ensureChain args hrow with hold | ⟨hnone, rfl⟩
  · rw [← he]
    exact ⟨ht.counted row hold, ht.ordered row hold⟩
  · have hempty : pt.hopsOf args.chainId = [] := by
      cases hdriver : pt.driver with
      | sqlite => exact ht.unrecorded hdriver hnone
      | mysql => exact hnew hnone hdriver
    rw [hempty]
    exact ⟨rfl, List.Pairwise.nil⟩

end Ensure

section Record

variable {args : HopArgs} {hop : ProvenanceHop}

theorem recordHop_some (h : pt.recordHop now args = some (hop, pt')) : hop = args.hop now ∧
    (pt.driver = .sqlite → pt.hasChain args.chainId = true) ∧ pt'.driver = pt.driver ∧
    pt'.hops.rows = pt.hops.rows ++ [⟨pt.hops.next, args.chainId, hop⟩] ∧
    ∀ row, row ∈ pt'.chains.rows ↔ ∃ old ∈ pt.chains.rows,
      row = if old.chainId = args.chainId then { old with depth := (pt'.hopsOf args.chainId).length } else old := by
  unfold ProvenanceTracker.recordHop at h
  split at h
  · cases h
  · rename_i hreferenced
    cases h
    refine ⟨rfl, ?_, rfl, rfl, ?_⟩
    · intro hsqlite
      simpa [hsqlite] using hreferenced
    · intro row
      simp only [ProvenanceTracker.countHops, Table.modify, List.mem_map, beq_iff_eq]
      exact exists_congr fun old => and_congr_right fun _ => eq_comm

theorem hopsOf_recordHop (h : pt.recordHop now args = some (hop, pt')) (chainId : String) :
    pt'.hopsOf chainId = pt.hopsOf chainId ++ if args.chainId = chainId then [hop] else [] := by
  obtain ⟨_, _, _, hrows, _⟩ := recordHop_some h
  rw [ProvenanceTracker.hopsOf, Table.select, hrows, List.filter_append, List.map_append]
  by_cases hchain : args.chainId = chainId
  · simp [ProvenanceTracker.hopsOf, Table.select, hchain]
  · simp [ProvenanceTracker.hopsOf, Table.select, hchain]

/-- A row keeps its id, its task and its root. -/
theorem mem_recordHop (h : pt.recordHop now args = some (hop, pt')) (hrow : row ∈ pt'.chains.rows) :
    ∃ old ∈ pt.chains.rows, row.chainId = old.chainId ∧ row.taskId = old.taskId ∧ row.rootTaskId = old.rootTaskId ∧
      row.depth = if old.chainId = args.chainId then (pt'.hopsOf args.chainId).length else old.depth := by
  obtain ⟨_, _, _, _, hrows⟩ := recordHop_some h
  obtain ⟨old, hold, rfl⟩ := (hrows row).mp hrow
  refine ⟨old, hold, ?_⟩
  split <;> exact ⟨rfl, rfl, rfl, rfl⟩

theorem hasChain_recordHop (h : pt.recordHop now args = some (hop, pt')) (hthere : pt.hasChain chainId = true) :
    pt'.hasChain chainId = true := by
  obtain ⟨_, _, _, _, hrows⟩ := recordHop_some h
  obtain ⟨old, hold, he⟩ := hasChain_iff.mp hthere
  refine hasChain_iff.mpr ⟨_, (hrows _).mpr ⟨old, hold, rfl⟩, ?_⟩
  split <;> exact he

/-- With its hop the chain is in order as well. -/
theorem TidyExcept.recordHop (ht : TidyExcept pt args.chainId) (h : pt.recordHop now args = some (hop, pt'))
    (hlast : pt.hasChain args.chainId = true →
      (pt.hopsOf args.chainId ++ [args.hop now]).Pairwise (Precedes pt.driver)) : Tidy pt' := by
  obtain ⟨rfl, hreferenced, hdriver, hrows, _⟩ := recordHop_some h
  have hself : pt'.hopsOf args.chainId = pt.hopsOf args.chainId ++ [args.hop now] := by
    rw [hopsOf_recordHop h, if_pos rfl]
  have hother : ∀ chainId ≠ args.chainId, pt'.hopsOf chainId = pt.hopsOf chainId := by
    intro chainId hne
    rw [hopsOf_recordHop h, if_neg hne.symm, List.append_nil]
  constructor
  · intro hsqlite row hrow
    rw [hdriver] at hsqlite
    rw [hrows, List.mem_append, List.mem_singleton] at hrow
    rcases hrow with hold | rfl
    · exact hasChain_recordHop h (ht.referenced hsqlite row hold)
    · exact hasChain_recordHop h (hreferenced hsqlite)
  · intro row hrow
    obtain ⟨old, hold, hid, _, _, hdepth⟩ := mem_recordHop h hrow
    rw [hdepth, hid]
    by_cases he : old.chainId = args.chainId
    · rw [if_pos he, he]
    · rw [if_neg he, hother _ he]
      exact ht.counted old hold he
  · intro row hrow
    obtain ⟨old, hold, hid, _, _, _⟩ := mem_recordHop h hrow
    rw [hid, hdriver]
    by_cases he : old.chainId = args.chainId
    · rw [he, hself]
      exact hlast (hasChain_iff.mpr ⟨old, hold, he⟩)
    · rw [hother _ he]
      exact ht.ordered old hold he

/-- A call without arguments, or one that raises, leaves the tracker as it was. -/
theorem recordHop?_cases (pt : ProvenanceTracker) (now : Rat) (args? : Option HopArgs) :
    recordHop? pt now args? = (none, pt) ∧ (∀ a ∈ args?, pt.hasChain a.chainId = false) ∨
      ∃ a hop pt', args? = some a ∧ pt.recordHop now a = some (hop, pt') ∧ recordHop? pt now args? = (some hop, pt') := by
  cases args? with
  | none => exact Or.inl ⟨rfl, fun a ha => by cases ha⟩
  | some a =>
    cases hrecord : pt.recordHop now a with
    | none =>
      left
      refine ⟨by rw [recordHop?, Option.bind_some, hrecord], fun b hb => ?_⟩
      cases hb
      unfold ProvenanceTracker.recordHop at hrecord
      split at hrecord
      · rename_i hraises
        exact hraises.2
      · cases hrecord
    | some result =>
      right
      obtain ⟨hop, pt'⟩ := result
      exact ⟨a, hop, pt', rfl, hrecord, by rw [recordHop?, Option.bind_some, hrecord]⟩

end Record

end Tracker

section Order

/-- Hops whose timestamps follow their order come back in it, whatever the database chooses. -/
theorem order_self {driver : Driver} {choice : Choice} (hl : choice.Lawful driver) {hops : List ProvenanceHop}
    (h : hops.Pairwise (Precedes driver)) : choice.order hops = hops := by
  cases driver with
  | sqlite =>
    rw [hl.sqlite rfl]
    apply List.mergeSort_of_pairwise
    have hle : hops.Pairwise (fun a b => a.timestamp ≤ b.timestamp) := h
    exact hle.imp fun hab => decide_eq_true hab
  | mysql =>
    have hsorted : hops.Pairwise (fun a b => a.timestamp ≤ b.timestamp) :=
      h.imp fun hab => hab.elim le_of_lt fun he => he ▸ le_refl _
    -- Hops of one timestamp are equal, so there is one order only.
    have hequal : ∀ a ∈ hops, ∀ b ∈ hops, a.timestamp = b.timestamp → a = b := by
      have hpair : hops.Pairwise (fun a b => a.timestamp = b.timestamp → a = b) :=
        h.imp fun hab he => hab.elim (fun hlt => absurd he (ne_of_lt hlt)) id
      exact hpair.forall_of_forall_of_flip (fun _ _ _ => rfl) (hpair.imp fun hab he => Eq.symm (hab (Eq.symm he)))
    refine List.Perm.eq_of_pairwise (fun a b ha hb hab hba => ?_) (hl.sorted hops) hsorted (hl.permuted hops)
    exact hequal a ((hl.permuted hops).mem_iff.mp ha) b hb (le_antisymm hab hba)

end Order

section Creation

variable (h : OrchestrationHandler) (db : Db) (draw : Draw) (caller : CallerIdentity) (body : CreateBody)

/-- The hop of a new task is one of its own chain. -/
theorem createHopArgs_chain {task : Task} {request : TokenRequest} {args : HopArgs}
    (ha : args ∈ createHopArgs task request) : args.chainId = task.id := by
  unfold createHopArgs at ha
  split at ha
  · cases ha
    rfl
  · cases ha

/-- A request creates a task by the store call of its body, or leaves the database as it was. -/
theorem handleCreateTask_created : (handleCreateTask h db draw caller body).2 = db ∨
    ∃ title priority parents task db', parentArgs h.engine.toCodec body.parents = some parents ∧
      createTask db draw.clock draw.hex (body.args h.engine title priority parents) = .ok (task, db') ∧
      (handleCreateTask h db draw caller body).2 = db' := by
  unfold handleCreateTask
  cases body.strippedTitle with
  | none => exact Or.inl rfl
  | some title =>
    dsimp only
    split
    · exact Or.inl rfl
    cases readPriority h.intOfFloat body.priority with
    | none => exact Or.inl rfl
    | some priority =>
      dsimp only
      split
      · exact Or.inl rfl
      cases hl : parentArgs h.engine.toCodec body.parents with
      | none => exact Or.inl rfl
      | some parents =>
        dsimp only
        unfold createAndAnswer
        split
        · exact Or.inl rfl
        cases hc : createTask db draw.clock draw.hex (body.args h.engine title priority parents) with
        | error e => cases e <;> exact Or.inl rfl
        | ok created =>
          obtain ⟨task, db'⟩ := created
          dsimp only
          split
          · exact Or.inl rfl
          · right
            refine ⟨title, priority, parents, task, db', rfl, hc, ?_⟩
            split <;> rfl

/-- The task that was created is the one the store has returned. -/
theorem createdTask_cases : createdTask h db draw caller body = none ∧ (handleCreateTask h db draw caller body).2 = db ∨
    ∃ title priority parents task db', parentArgs h.engine.toCodec body.parents = some parents ∧
      createTask db draw.clock draw.hex (body.args h.engine title priority parents) = .ok (task, db') ∧
      (handleCreateTask h db draw caller body).2 = db' ∧ createdTask h db draw caller body = some task ∧
      task.id = freshId draw.hex := by
  unfold createdTask
  rcases handleCreateTask_created h db draw caller body with
    hsame | ⟨title, priority, parents, task, db', hparents, hc, hdb⟩
  · left
    refine ⟨?_, hsame⟩
    split
    · rfl
    · rename_i hfresh
      rw [hsame]
      exact Option.not_isSome_iff_eq_none.mp hfresh
  · right
    obtain ⟨hrow, hfresh, htask, _⟩ := createTask_ok hc
    refine ⟨title, priority, parents, task, db', hparents, hc, hdb, ?_, ?_⟩
    · rw [hfresh, hdb, htask, if_pos rfl]
      rfl
    · rw [hrow]
      rfl

/-- A request links none but the task that it creates, and that only to parents of its body. -/
theorem created_links (p c : String) (hlinked : Linked (handleCreateTask h db draw caller body).2 p c) :
    Linked db p c ∨ c = freshId draw.hex ∧ body.parents.truthy = true := by
  rcases createdTask_cases h db draw caller body with
    ⟨_, hsame⟩ | ⟨title, priority, parents, task, db', hparents, hc, hdb, _, _⟩
  · rw [hsame] at hlinked
    exact Or.inl hlinked
  · rw [hdb] at hlinked
    rcases (created_linked (h := h) (r := ⟨draw, caller, body⟩) hc p c).mp hlinked with hold | ⟨he, parent, hparent, _⟩
    · exact Or.inl hold
    · refine Or.inr ⟨he, ?_⟩
      by_contra hbody
      rw [parentArgs, Bool.eq_false_iff.mpr hbody] at hparents
      cases hparents
      cases hparent

theorem created_links_kept (p c : String) (hlinked : Linked db p c) :
    Linked (handleCreateTask h db draw caller body).2 p c := by
  rcases createdTask_cases h db draw caller body with
    ⟨_, hsame⟩ | ⟨title, priority, parents, task, db', _, hc, hdb, _, _⟩
  · rw [hsame]
    exact hlinked
  · rw [hdb]
    exact (created_linked (h := h) (r := ⟨draw, caller, body⟩) hc p c).mpr (Or.inl hlinked)

/-- The root of a task stays one, unless the task itself is created with parents. -/
theorem isRoot_created (hi : Integrity db) (hfresh : db.task? (freshId draw.hex) = none) {taskId rootId : String}
    (hroot : IsRoot db taskId rootId) (hbody : body.parents.truthy = true → taskId ≠ freshId draw.hex) :
    IsRoot (handleCreateTask h db draw caller body).2 taskId rootId := by
  obtain ⟨hreach, hnone⟩ := hroot
  refine ⟨Relation.ReflTransGen.mono (fun c p => created_links_kept h db draw caller body p c) _ _ hreach, ?_⟩
  intro parent hlinked
  rcases created_links h db draw caller body parent rootId hlinked with hold | ⟨he, htruthy⟩
  · exact hnone parent hold
  · -- No task is linked to the new one yet, so only the new one itself has it as its root.
    rcases Relation.ReflTransGen.cases_tail hreach with hself | ⟨child, _, hchild⟩
    · exact hbody htruthy (hself.symm.trans he)
    · rw [he] at hchild
      exact fresh_sink hi hfresh child hchild

/-- A new task without parents is a root. -/
theorem isRoot_fresh (hi : Integrity db) (hfresh : db.task? (freshId draw.hex) = none)
    (hbody : body.parents.truthy = false) :
    IsRoot (handleCreateTask h db draw caller body).2 (freshId draw.hex) (freshId draw.hex) := by
  refine ⟨Relation.ReflTransGen.refl, ?_⟩
  intro parent hlinked
  rcases created_links h db draw caller body parent _ hlinked with ⟨l, hl, _, hchild⟩ | ⟨_, htruthy⟩
  · have hthere := hi.child l hl
    rw [hchild, hfresh] at hthere
    cases hthere
  · rw [hbody] at htruthy
    cases htruthy

theorem handleCreateTask_integrity (hi : Integrity db) : Integrity (handleCreateTask h db draw caller body).2 := by
  rcases createdTask_cases h db draw caller body with
    ⟨_, hsame⟩ | ⟨title, priority, parents, task, db', _, hc, hdb, _, _⟩
  · rw [hsame]
    exact hi
  · rw [hdb, ← step_createTask hc]
    exact step_integrity db _ hi

end Creation

namespace Traced

variable {h : OrchestrationHandler} {s : Traced}

/-- What holds wherever each call meets its conditions. -/
structure Kept (s : Traced) : Prop where
  integrity : Integrity s.db
  mirrored : ∀ chainId, s.pt.hopsOf chainId = s.recordedOf chainId
  tidy : Tidy s.pt
  rooted : ∀ row ∈ s.pt.chains.rows, IsRoot s.db row.taskId row.rootTaskId

theorem start_kept (driver : Driver) : Kept (start driver) where
  integrity := empty_integrity
  mirrored _ := rfl
  tidy := ⟨fun _ _ hrow => (List.not_mem_nil hrow).elim, fun _ hrow => (List.not_mem_nil hrow).elim,
    fun _ hrow => (List.not_mem_nil hrow).elim⟩
  rooted _ hrow := (List.not_mem_nil hrow).elim

theorem recordedOf_note (chainId : String) (result : Option ProvenanceHop × ProvenanceTracker) (other : String) :
    (s.note chainId result).recordedOf other =
      s.recordedOf other ++ if chainId = other then result.1.toList else [] := by
  obtain ⟨hop?, pt'⟩ := result
  cases hop? with
  | none => simp [note, recordedOf]
  | some hop =>
    by_cases he : chainId = other
    · simp [note, recordedOf, he]
    · simp [note, recordedOf, he]

/-- A recorded hop is noted under its chain, and puts that chain in order. -/
theorem noted_kept {now : Rat} {args? : Option HopArgs} {chainId : String} (hi : Integrity s.db)
    (hm : ∀ other, s.pt.hopsOf other = s.recordedOf other) (ht : TidyExcept s.pt chainId)
    (hroot : ∀ row ∈ s.pt.chains.rows, IsRoot s.db row.taskId row.rootTaskId)
    (hargs : ∀ a ∈ args?, a.chainId = chainId) (hnone : args? = none → Tidy s.pt)
    (hlast : ∀ a ∈ args?, s.pt.hasChain chainId = true →
      (s.pt.hopsOf chainId ++ [a.hop now]).Pairwise (Precedes s.pt.driver)) :
    Kept (s.note chainId (recordHop? s.pt now args?)) := by
  rcases recordHop?_cases s.pt now args? with ⟨hsame, habsent⟩ | ⟨a, hop, pt', rfl, hrecord, hresult⟩
  · have htidy : Tidy s.pt := by
      cases args? with
      | none => exact hnone rfl
      | some a =>
        have hchain := habsent a rfl
        rw [hargs a rfl] at hchain
        exact ht.absent hchain
    rw [hsame]
    refine ⟨hi, fun other => ?_, htidy, hroot⟩
    rw [recordedOf_note]
    simpa [note] using hm other
  · obtain rfl := hargs a rfl
    rw [hresult]
    refine ⟨hi, fun other => ?_, ht.recordHop hrecord (hlast a rfl), fun row hrow => ?_⟩
    · rw [recordedOf_note, ← hm other]
      exact hopsOf_recordHop hrecord other
    · obtain ⟨old, hold, _, htask, hrootId, _⟩ := mem_recordHop hrecord hrow
      rw [htask, hrootId]
      exact hroot old hold

theorem record_kept (hk : Kept s) {now : Rat} {args? : Option HopArgs} {chainId : String}
    (hargs : ∀ a ∈ args?, a.chainId = chainId) (hlast : ComesLast s now args?) :
    Kept (s.note chainId (recordHop? s.pt now args?)) := by
  refine noted_kept hk.integrity hk.mirrored (hk.tidy.except chainId) hk.rooted hargs (fun _ => hk.tidy) ?_
  intro a ha hthere
  obtain ⟨row, hrow, he⟩ := hasChain_iff.mp hthere
  rw [List.pairwise_append]
  refine ⟨he ▸ hk.tidy.ordered row hrow, List.pairwise_singleton _ _, fun earlier hearlier later hlater => ?_⟩
  obtain rfl := hargs a ha
  rw [List.mem_singleton.mp hlater]
  exact hlast a ha hthere earlier hearlier

theorem ensureChain_kept (hk : Kept s) {now : Rat} {args : ChainArgs} (hnew : s.pt.hasChain args.chainId = false →
    Unrecorded s args.chainId ∧ IsRoot s.db args.taskId args.rootTaskId) :
    Kept { s with pt := s.pt.ensureChain now args } := by
  refine ⟨hk.integrity, fun chainId => ?_, hk.tidy.ensureChain args fun hnone => (hnew hnone).1, fun row hrow => ?_⟩
  · exact (hopsOf_ensureChain args).trans (hk.mirrored chainId)
  · rcases mem_ensureChain args hrow with hold | ⟨hnone, rfl⟩
    · exact hk.rooted row hold
    · exact (hnew hnone).2

/-- A chain has a root of its task behind a request that creates one, and so has the chain that it makes. -/
theorem ensured_rooted (hk : Kept s) {draw : Draw} {caller : CallerIdentity} {body : CreateBody} {task : Task}
    {request : TokenRequest} {hop : Option HopArgs} {ensuredAt recordedAt : Rat} (hid : task.id = freshId draw.hex)
    (hfresh : s.db.task? (freshId draw.hex) = none) (hok : Creatable s body task hop recordedAt) :
    ∀ row ∈ (s.pt.ensureChain ensuredAt (createChainArgs task request [])).chains.rows,
      IsRoot (handleCreateTask h s.db draw caller body).2 row.taskId row.rootTaskId := by
  intro row hrow
  rcases mem_ensureChain _ hrow with hold | ⟨hnone, rfl⟩
  · apply isRoot_created h s.db draw caller body hk.integrity hfresh (hk.rooted row hold)
    intro htruthy
    rw [← hid]
    exact (hok.unparented htruthy).2 row hold
  · have hbody : body.parents.truthy = false := by
      by_contra hparents
      have hthere := (hok.unparented (Bool.not_eq_false _ ▸ hparents)).1
      exact absurd (hthere.symm.trans hnone) Bool.false_ne_true.symm
    have hroot := isRoot_fresh h s.db draw caller body hk.integrity hfresh hbody
    rw [← hid] at hroot
    exact hroot

theorem create_kept (hk : Kept s) {draw : Draw} {caller : CallerIdentity} {body : CreateBody}
    {request : TokenRequest} {ensuredAt recordedAt : Rat}
    (hok : Traceable s h (.create draw caller body request ensuredAt recordedAt)) :
    Kept (step h s (.create draw caller body request ensuredAt recordedAt)) := by
  rcases createdTask_cases h s.db draw caller body with
    ⟨hnone, hsame⟩ | ⟨_, _, _, task, db', _, hc, hdb, hcreated, hid⟩
  · have hstep : step h s (.create draw caller body request ensuredAt recordedAt) = s := by
      simp [step, trackCreate, hnone, hsame, note]
    rw [hstep]
    exact hk
  · have hcreatable := hok task hcreated
    obtain ⟨_, hfresh, _⟩ := createTask_ok hc
    let args := createChainArgs task request []
    let mid : Traced := ⟨(handleCreateTask h s.db draw caller body).2, s.pt.ensureChain ensuredAt args, s.recorded⟩
    have hstep : step h s (.create draw caller body request ensuredAt recordedAt) =
        mid.note task.id (recordHop? mid.pt recordedAt (createHopArgs task request)) := by
      simp only [step, trackCreate, hcreated, hid]
      rfl
    rw [hstep]
    apply noted_kept (handleCreateTask_integrity h s.db draw caller body hk.integrity)
    · exact fun chainId => (hopsOf_ensureChain args).trans (hk.mirrored chainId)
    · exact hk.tidy.ensureChain_except args
    · exact ensured_rooted hk hid hfresh hcreatable
    · exact fun a ha => createHopArgs_chain ha
    · intro hnone
      exact hk.tidy.ensureChain args fun habsent => hcreatable.uncounted habsent hnone
    · intro a ha _
      show (List.Pairwise (Precedes (s.pt.ensureChain ensuredAt args).driver)
        ((s.pt.ensureChain ensuredAt args).hopsOf task.id ++ [a.hop recordedAt]))
      rw [hopsOf_ensureChain, ensureChain_driver]
      exact hcreatable.ordered a ha

theorem step_kept (s : Traced) (call : ProvenanceCall) (hk : Kept s) (hok : Traceable s h call) :
    Kept (step h s call) := by
  cases call with
  | create draw caller body request ensuredAt recordedAt => exact create_kept hk hok
  | claimed now taskId request workerId =>
    refine record_kept hk (fun a ha => ?_) hok
    obtain ⟨task, _, rfl⟩ := Option.map_eq_some_iff.mp ha
    rfl
  | ensureChain now args => exact ensureChain_kept hk hok
  | recordHop now args =>
    refine record_kept hk (fun a ha => ?_) hok
    cases ha
    rfl

theorem Kept.faithful (hk : Kept s) : s.Faithful := by
  have hchains : ∀ choice : Choice, choice.Lawful s.pt.driver → ∀ row ∈ s.pt.chains.rows,
      ChainFaithful s row.taskId (s.pt.chain choice row) := by
    intro choice hl row hrow
    constructor
    · exact (hk.tidy.counted row hrow).trans (congrArg List.length (hk.mirrored row.chainId))
    · exact (order_self hl (hk.tidy.ordered row hrow)).trans (hk.mirrored row.chainId)
    · exact hk.rooted row hrow
  refine ⟨hchains, fun choice hl taskId chain hchain => ?_, fun now args => ensureChain_repeated args⟩
  obtain ⟨row, hfetch, rfl⟩ := Option.map_eq_some_iff.mp hchain
  obtain ⟨hrow, htask⟩ := Table.mem_select.mp (hl.fetched _ row hfetch)
  rw [← eq_of_beq htask]
  exact hchains choice hl row hrow

end Traced

/-- The chains are faithful in every run whose calls meet their conditions. -/
theorem chains_faithful (h : OrchestrationHandler) (driver : Driver) (calls : List ProvenanceCall)
    (hok : EachStep (Traced.step h) (fun s call => Traceable s h call) (Traced.start driver) calls) :
    Always (Traced.step h) Traced.Faithful (Traced.start driver) calls :=
  (hok.always Traced.step_kept (Traced.start_kept driver)).imp fun _ hk => hk.faithful

/-- A user creates a task. -/
def createCall (hex : String) (parents : Json) (assignee : Option String) : ProvenanceCall :=
  .create ⟨0, .fixed 0, hex⟩ { agentId := "user:admin", scope := "task:write" }
    { title := .str "task", parents := parents, assignee := assignee } {} 0 0

/-- A task with an assignee, whose chain is ensured once more and gets a second hop. -/
def handedOn : List ProvenanceCall :=
  [createCall "1" .null (some "planner"),
    .ensureChain 1 { chainId := "t_1", originAgent := "other", rootTaskId := "t_1", taskId := "t_1" },
    .recordHop 2 { chainId := "t_1", fromAgent := "planner", toAgent := "coder" }]

theorem chains_faithful_handedOn : EachStep (Traced.step sampleHandler) (fun s call => Traceable s sampleHandler call)
    (Traced.start .sqlite) handedOn ∧
    Always (Traced.step sampleHandler) Traced.Faithful (Traced.start .sqlite) handedOn := by
  have hok : EachStep (Traced.step sampleHandler) (fun s call => Traceable s sampleHandler call)
      (Traced.start .sqlite) handedOn := by
    refine ⟨fun task _ => ⟨fun hparents => ?_, fun _ _ hdriver => ?_, fun a _ => ?_⟩, ?_, ?_, trivial⟩
    · cases hparents
    · cases hdriver
    · exact List.pairwise_singleton _ _
    · intro hnone
      have hthere : (exec (Traced.step sampleHandler) (Traced.start .sqlite) (handedOn.take 1)).pt.hasChain "t_1" =
          true := by decide +kernel
      cases hthere.symm.trans hnone
    · intro a ha _
      cases ha
      have hearlier : ∀ hop ∈ (exec (Traced.step sampleHandler) (Traced.start .sqlite) (handedOn.take 2)).pt.hopsOf
          "t_1", hop.timestamp ≤ 2 := by decide +kernel
      exact hearlier
  exact ⟨hok, chains_faithful sampleHandler .sqlite handedOn hok⟩

/-- The chain of a task with a parent has the task itself as its root. -/
theorem child_rooted_itself : ¬ ∀ calls,
    Always (Traced.step sampleHandler) Traced.Faithful (Traced.start .sqlite) calls := by
  intro h
  have hfaithful := (h [createCall "1" .null none, createCall "2" (.arr [.str "t_1"]) none]).last
  have hroot : ((exec (Traced.step sampleHandler) (Traced.start .sqlite)
      [createCall "1" .null none, createCall "2" (.arr [.str "t_1"]) none]).pt.getChainByTask Choice.sqlite
        "t_2").map ProvenanceChain.rootTaskId = some "t_2" := by
    decide +kernel
  have hlinks : (exec (Traced.step sampleHandler) (Traced.start .sqlite)
      [createCall "1" .null none, createCall "2" (.arr [.str "t_1"]) none]).db.links.rows =
        [⟨"t_1", "t_2", none⟩] := by
    decide +kernel
  obtain ⟨chain, hchain, hid⟩ := Option.map_eq_some_iff.mp hroot
  have htop := (hfaithful.found Choice.sqlite Choice.sqlite_lawful "t_2" chain hchain).root.2 "t_1"
  rw [hid] at htop
  exact htop ⟨⟨"t_1", "t_2", none⟩, by rw [hlinks, List.mem_singleton], rfl, rfl⟩

end A2ARegistry.Orchestration
