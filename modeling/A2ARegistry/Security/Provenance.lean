import Mathlib.Algebra.Order.Ring.Rat
import Mathlib.Data.List.Sort
import A2ARegistry.Base.Json
import A2ARegistry.Base.Table

namespace A2ARegistry.Security
open Base

/-- `engine.driver`. -/
inductive Driver
  | sqlite | mysql
deriving DecidableEq, Repr

structure ProvenanceHop where
  fromAgent : String
  toAgent : String
  action : String := "delegate"
  scopeAt : String := ""
  timestamp : Rat
  tokenJti : String := ""
deriving DecidableEq

structure ProvenanceChain where
  chainId : String
  originAgent : String
  originTenant : String
  rootTaskId : String
  parentTaskId : Option String
  depth : Nat
  hops : List ProvenanceHop

/-- `to_dict`; `float` is the text of a timestamp. -/
def ProvenanceChain.toDict (float : Rat → String) (chain : ProvenanceChain) : List (String × Json) :=
  [("chain_id", .str chain.chainId), ("origin_agent", .str chain.originAgent),
    ("origin_tenant", .str chain.originTenant), ("root_task_id", .str chain.rootTaskId),
    ("parent_task_id", match chain.parentTaskId with
      | none => .null
      | some id => .str id),
    ("depth", .int chain.depth),
    ("hops", .arr (chain.hops.map (fun hop => .obj [("from_agent", .str hop.fromAgent),
      ("to_agent", .str hop.toAgent), ("action", .str hop.action), ("scope_at", .str hop.scopeAt),
      ("timestamp", .float (float hop.timestamp)), ("token_jti", .str hop.tokenJti)])))]

/-- A row of `provenance_chains`. -/
structure ChainRow where
  chainId : String
  originAgent : String
  originTenant : String
  rootTaskId : String
  parentTaskId : Option String
  depth : Nat
  taskId : String
  createdAt : Rat
deriving DecidableEq

/-- A row of `provenance_hops`. -/
structure HopRow where
  id : Nat
  chainId : String
  hop : ProvenanceHop
deriving DecidableEq

instance : Keyed String ChainRow := ⟨ChainRow.chainId⟩
instance : Keyed Nat HopRow := ⟨HopRow.id⟩

structure ProvenanceTracker where
  driver : Driver
  chains : Table ChainRow
  hops : AutoTable HopRow

/-- The arguments of `record_hop`. -/
structure HopArgs where
  chainId : String
  fromAgent : String
  toAgent : String
  action : String := "delegate"
  scopeAt : String := ""
  tokenJti : String := ""

def HopArgs.hop (args : HopArgs) (now : Rat) : ProvenanceHop :=
  ⟨args.fromAgent, args.toAgent, args.action, args.scopeAt, now, args.tokenJti⟩

/-- The arguments of `ensure_chain`. -/
structure ChainArgs where
  chainId : String
  originAgent : String
  originTenant : String := ""
  rootTaskId : String
  parentTaskId : Option String := none
  taskId : String

/-- The row `ensure_chain` inserts. -/
def ChainArgs.row (args : ChainArgs) (now : Rat) : ChainRow :=
  ⟨args.chainId, args.originAgent, args.originTenant, args.rootTaskId, args.parentTaskId, 0, args.taskId, now⟩

/-- What SQL leaves open: which of several rows `fetchone` gets where nothing orders them, and in which order rows of
one timestamp come. -/
structure Choice where
  fetch : List ChainRow → Option ChainRow
  order : List ProvenanceHop → List ProvenanceHop

/-- What SQLite chooses: the rows as they were inserted. -/
def Choice.sqlite : Choice where
  fetch := List.head?
  order hops := hops.mergeSort (fun a b => a.timestamp ≤ b.timestamp)

/-- A choice that a driver may make. -/
structure Choice.Lawful (driver : Driver) (choice : Choice) : Prop where
  fetched : ∀ rows row, choice.fetch rows = some row → row ∈ rows
  found : ∀ rows, rows ≠ [] → (choice.fetch rows).isSome
  permuted : ∀ hops, (choice.order hops).Perm hops
  sorted : ∀ hops, (choice.order hops).Pairwise (fun a b => a.timestamp ≤ b.timestamp)
  sqlite : driver = .sqlite → choice = Choice.sqlite

theorem Choice.sqlite_lawful : Choice.sqlite.Lawful .sqlite where
  fetched _ _ hrow := List.mem_of_head? hrow
  found rows hrows := List.isSome_head?.mpr hrows
  permuted _ := List.mergeSort_perm _ _
  sorted hops := by
    have hsorted : (hops.mergeSort (fun a b => a.timestamp ≤ b.timestamp)).Pairwise
        (fun a b => decide (a.timestamp ≤ b.timestamp) = true) :=
      List.pairwise_mergeSort
        (fun a b c hab hbc => by simpa using le_trans (of_decide_eq_true hab) (of_decide_eq_true hbc))
        (fun a b => by simpa using le_total a.timestamp b.timestamp) hops
    exact hsorted.imp fun hab => of_decide_eq_true hab
  sqlite _ := rfl

namespace ProvenanceTracker

/-- The tables as they are created. -/
def start (driver : Driver) : ProvenanceTracker := ⟨driver, Table.empty, AutoTable.empty⟩

variable (pt : ProvenanceTracker)

/-- The hops of a chain, in the order in which they were inserted. -/
def hopsOf (chainId : String) : List ProvenanceHop :=
  (pt.hops.select (fun row => row.chainId == chainId)).map HopRow.hop

def hasChain (chainId : String) : Bool := (pt.chains.find? chainId).isSome

/-- The `UPDATE` of `record_hop`. -/
def countHops (chainId : String) : ProvenanceTracker :=
  let chains := pt.chains.modify (fun row => row.chainId == chainId)
    (fun row => { row with depth := (pt.hopsOf chainId).length })
  { pt with chains := chains }

/-- `record_hop`; `none` when it raises. On SQLite a hop references its chain, on MySQL it need not be there. -/
def recordHop (now : Rat) (args : HopArgs) : Option (ProvenanceHop × ProvenanceTracker) :=
  if pt.driver = .sqlite ∧ pt.hasChain args.chainId = false then none
  else
    let inserted := { pt with hops := pt.hops.insert (fun id => ⟨id, args.chainId, args.hop now⟩) }
    some (args.hop now, inserted.countHops args.chainId)

/-- `ensure_chain`. -/
def ensureChain (now : Rat) (args : ChainArgs) : ProvenanceTracker :=
  match pt.chains.insert? (args.row now) with
  | none => pt
  | some chains => { pt with chains := chains }

/-- The chain of a row, with its hops, as a query returns it. -/
def chain (choice : Choice) (row : ChainRow) : ProvenanceChain where
  chainId := row.chainId
  originAgent := row.originAgent
  originTenant := row.originTenant
  rootTaskId := row.rootTaskId
  parentTaskId := row.parentTaskId
  depth := row.depth
  hops := choice.order (pt.hopsOf row.chainId)

/-- `get_chain_by_task`. -/
def getChainByTask (choice : Choice) (taskId : String) : Option ProvenanceChain :=
  (choice.fetch (pt.chains.select (fun row => row.taskId == taskId))).map (pt.chain choice)

end ProvenanceTracker

end A2ARegistry.Security
