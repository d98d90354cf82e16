import Mathlib.Algebra.Order.Ring.Rat
import A2ARegistry.Base.Like
import A2ARegistry.Base.Paging
import A2ARegistry.Base.Run
import A2ARegistry.Base.Table

namespace A2ARegistry.Audit
open Base

/-- `AuditEvent`. -/
structure AuditEvent where
  timestamp : Rat
  eventType : String
  actor : String
  target : String
  detail : String := ""
  success : Bool := true
  tenantId : String := ""
deriving DecidableEq

/-- A row of `audit_log`. -/
structure AuditRow extends AuditEvent where
  id : Nat
deriving DecidableEq

instance : Keyed Nat AuditRow := ⟨AuditRow.id⟩

/-- What `log` is given. -/
structure LogArgs where
  eventType : String
  actor : String
  target : String
  detail : String := ""
  success : Bool := true
  tenantId : String := ""

/-- The row that `log` inserts. -/
def LogArgs.row (args : LogArgs) (now : Rat) (id : Nat) : AuditRow :=
  ⟨⟨now, args.eventType, args.actor, args.target, args.detail, args.success, args.tenantId⟩, id⟩

/-- The filters of `query` and `count`. -/
structure AuditFilter where
  eventType : Option String := none
  actor : Option String := none
  since : Option Rat := none
  untilTime : Option Rat := none
  tenantId : Option String := none

/-- `LOWER(actor) LIKE '%actor%'`, where an actor is asked for; `lower` is `str.lower`. -/
def actorMatches (lower : String → String) (asked : Option String) (actor : String) : Bool :=
  asked.all (fun part =>
    part == "" || likeText ("%" ++ lower part ++ "%") (String.ofList (actor.toList.map Char.toLower)))

/-- The `WHERE` clauses. -/
def AuditFilter.matches (lower : String → String) (f : AuditFilter) (r : AuditRow) : Bool :=
  f.eventType.all (fun eventType => eventType == "" || r.eventType == eventType) && actorMatches lower f.actor r.actor &&
    f.since.all (fun since => since ≤ r.timestamp) && f.untilTime.all (fun until' => r.timestamp < until') &&
    f.tenantId.all (fun tenantId => r.tenantId == tenantId)

/-- `timestamp ASC, id ASC`. -/
def older (a b : AuditRow) : Bool := a.timestamp < b.timestamp || a.timestamp == b.timestamp && a.id ≤ b.id

/-- The order of `query`. -/
def ordered (sortDesc : Bool) (a b : AuditRow) : Bool := if sortDesc then older b a else older a b

/-- `AuditStore`; the retention is in days. -/
structure AuditStore where
  rows : AutoTable AuditRow
  retentionDays : Int := 90

namespace AuditStore

variable (store : AuditStore)

/-- The store over a new database. -/
def start (retentionDays : Int) : AuditStore := ⟨AutoTable.empty, retentionDays⟩

/-- `log`: the id of the row, and the store. -/
def log (now : Rat) (args : LogArgs) : Nat × AuditStore :=
  (store.rows.next, { store with rows := store.rows.insert (args.row now) })

/-- The rows `query` and `count` are about. -/
def matching (lower : String → String) (f : AuditFilter) : List AuditRow := store.rows.rows.filter (f.matches lower)

/-- The size of a page, clamped. -/
def pageSize (limit : Int) : Nat := (min (max limit 1) 1000).toNat

/-- The rows `query` selects. -/
def selected (lower : String → String) (f : AuditFilter) (limit offset : Int) (sortDesc : Bool) : List AuditRow :=
  slice (pageSize limit) (max offset 0).toNat ((store.matching lower f).mergeSort (ordered sortDesc))

/-- `query`. -/
def query (lower : String → String) (f : AuditFilter) (limit offset : Int) (sortDesc : Bool) : List AuditEvent :=
  (store.selected lower f limit offset sortDesc).map AuditRow.toAuditEvent

/-- Before when `purge_old` deletes. -/
def cutoff (now : Rat) (retentionDays : Option Int) : Rat := now - (retentionDays.getD store.retentionDays) * 86400

/-- `purge_old`: the number of rows, and the store. -/
def purgeOld (now : Rat) (retentionDays : Option Int) : Nat × AuditStore :=
  ((store.rows.select (fun r => r.timestamp < store.cutoff now retentionDays)).length,
    { store with rows := store.rows.keep (fun r => !(r.timestamp < store.cutoff now retentionDays)) })

end AuditStore

/-- A call that writes. -/
inductive AuditCall
  | log (now : Rat) (args : LogArgs)
  | purgeOld (now : Rat) (retentionDays : Option Int)

def AuditStore.step (store : AuditStore) : AuditCall → AuditStore
  | .log now args => (store.log now args).2
  | .purgeOld now retentionDays => (store.purgeOld now retentionDays).2

end A2ARegistry.Audit
