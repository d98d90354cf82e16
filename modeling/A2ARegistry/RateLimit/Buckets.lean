import Mathlib.Algebra.Order.Ring.Rat
import Mathlib.Logic.Function.Basic
import A2ARegistry.Base.Run
import A2ARegistry.Base.Table

namespace A2ARegistry.RateLimit
open Base

/-- A call of `consume`, with the reading of the clock it makes. -/
structure Call where
  key : String
  tokens : Int := 1
  rate : Int
  burst : Int
  now : Rat
deriving DecidableEq

/-- What `consume` returns. -/
structure Answer where
  allowed : Bool
  remaining : Int
  resetAt : Rat
deriving DecidableEq

/-- `int(x)`. -/
def truncate (x : Rat) : Int := x.num.tdiv x.den

/-- When a bucket that holds `current` tokens is full again. -/
def resetAt (now : Rat) (rate burst : Int) (current : Rat) : Rat :=
  if 0 < rate then now + (burst - current) / (rate / 60) else now + 60

/-- `MemoryTokenBucket`. -/
structure MemoryTokenBucket where
  buckets : String → Option Rat
  lastRefill : String → Option Rat
  rates : String → Option (Int × Int)

namespace MemoryTokenBucket

/-- `__init__`. -/
def init : MemoryTokenBucket := ⟨fun _ => none, fun _ => none, fun _ => none⟩

/-- The tokens there are at a call: a new bucket is full. -/
def refilled (m : MemoryTokenBucket) (c : Call) : Rat :=
  match m.buckets c.key with
  | none => c.burst
  | some current =>
    let elapsed := c.now - (m.lastRefill c.key).getD c.now
    min (current + elapsed * (c.rate / 60)) c.burst

/-- `consume`. -/
def consume (m : MemoryTokenBucket) (c : Call) : Answer × MemoryTokenBucket :=
  let current := m.refilled c
  let allowed := decide ((c.tokens : Rat) ≤ current)
  let current := if allowed then current - c.tokens else current
  (⟨allowed, truncate current, resetAt c.now c.rate c.burst current⟩, {
    buckets := Function.update m.buckets c.key (some current)
    lastRefill := Function.update m.lastRefill c.key (some c.now)
    rates := Function.update m.rates c.key (some (c.rate, c.burst)) })

def step (m : MemoryTokenBucket) (c : Call) : MemoryTokenBucket := (m.consume c).2

end MemoryTokenBucket

/-- A row of `rate_limit_buckets`. -/
structure BucketRow where
  bucketKey : String
  tokens : Rat := 0
  rate : Int := 60
  burst : Int := 60
  lastRefill : Rat := 0
  updatedAt : Rat := 0
deriving DecidableEq

instance : Keyed String BucketRow := ⟨BucketRow.bucketKey⟩

/-- The one write of a call. -/
inductive Write
  | insert (row : BucketRow)
  | update (tokens now : Rat)
deriving DecidableEq

namespace MySQLTokenBucket

/-- What a call makes of the row it has read: its write, and what it returns. -/
def decideCall (row : Option BucketRow) (c : Call) : Write × Answer :=
  match row with
  | none =>
    let current : Rat := c.burst
    (.insert ⟨c.key, current - c.tokens, c.rate, c.burst, c.now, c.now⟩,
      ⟨decide (c.tokens ≤ c.burst), max 0 (truncate (current - c.tokens)),
        resetAt c.now c.rate c.burst (current - c.tokens)⟩)
  | some row =>
    let effectiveRate := if 0 < c.rate then c.rate else row.rate
    let effectiveBurst := if 0 < c.burst then c.burst else row.burst
    let elapsed := c.now - row.lastRefill
    let current := min (row.tokens + elapsed * (effectiveRate / 60)) effectiveBurst
    let allowed := decide ((c.tokens : Rat) ≤ current)
    let current := if allowed then current - c.tokens else current
    (.update current c.now, ⟨allowed, truncate current, resetAt c.now effectiveRate effectiveBurst current⟩)

/-- The statement, on the bucket of the call; `none` when the primary key refuses an insert. -/
def execute (table : Table BucketRow) (key : String) : Write → Option (Table BucketRow)
  | .insert row => table.insert? row
  | .update tokens now => some (table.modify (fun row => row.bucketKey == key)
      (fun row => { row with tokens := tokens, lastRefill := now, updatedAt := now }))

/-- `consume`, with nothing between its statements. The answer is `none` when it raises. -/
def consume (table : Table BucketRow) (c : Call) : Option Answer × Table BucketRow :=
  let (write, answer) := decideCall (table.find? c.key) c
  match execute table c.key write with
  | none => (none, table)
  | some table' => (some answer, table')

end MySQLTokenBucket

/-- A call in its transaction: before its `SELECT`, behind it, and with its write not yet committed. -/
inductive Phase
  | started
  | selected (row : Option BucketRow)
  | written (write : Write) (answer : Answer)

structure Running where
  call : Call
  phase : Phase

/-- Threads that work on the table, each with a connection of its own. A row that is written is locked up to the
commit; what is returned is `none` where a call raises. -/
structure Threads (ι : Type) where
  committed : Table BucketRow
  locks : String → Option ι
  running : ι → Option Running
  returned : List (Call × Option Answer)

/-- A thread starts a call, or executes the next statement of its call. -/
inductive Turn (ι : Type)
  | start (i : ι) (call : Call)
  | statement (i : ι)

namespace Threads

variable {ι : Type} [DecidableEq ι]

def begin : Threads ι := ⟨Table.empty, fun _ => none, fun _ => none, []⟩

def put (s : Threads ι) (i : ι) (call : Call) (phase : Phase) : Threads ι :=
  { s with running := Function.update s.running i (some ⟨call, phase⟩) }

def finish (s : Threads ι) (i : ι) (call : Call) (answer : Option Answer) : Threads ι :=
  { s with running := Function.update s.running i none, returned := s.returned ++ [(call, answer)] }

/-- The next statement. A `SELECT` sees what is committed; a write waits for the lock of its row. -/
def execute (s : Threads ι) (i : ι) (r : Running) : Threads ι :=
  match r.phase with
  | .started => s.put i r.call (.selected (s.committed.find? r.call.key))
  | .selected row =>
    if (s.locks r.call.key).isSome then s
    else
      let (write, answer) := MySQLTokenBucket.decideCall row r.call
      match MySQLTokenBucket.execute s.committed r.call.key write with
      | none => s.finish i r.call none
      | some _ => { s with locks := Function.update s.locks r.call.key (some i) }.put i r.call (.written write answer)
  | .written write answer =>
    match MySQLTokenBucket.execute s.committed r.call.key write with
    | none => s.finish i r.call none
    | some table =>
      { s with committed := table, locks := Function.update s.locks r.call.key none }.finish i r.call (some answer)

def step (s : Threads ι) : Turn ι → Threads ι
  | .start i call => match s.running i with
    | none => s.put i call .started
    | some _ => s
  | .statement i => match s.running i with
    | none => s
    | some r => s.execute i r

end Threads

end A2ARegistry.RateLimit
