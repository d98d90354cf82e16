import Mathlib.Algebra.Order.Ring.Rat
import Mathlib.Data.Rat.Defs
import A2ARegistry.Orchestration.Store.Ops

namespace A2ARegistry.Orchestration.Sla
open Base

/-- The statistics of one time window; there is no rate where nothing was finished. -/
structure WindowStat where
  windowLabel : String
  completed : Nat
  failed : Nat
  cancelled : Nat
  totalTerminal : Nat
  successRate : Option Rat
  windowStart : Rat
  windowEnd : Rat
deriving DecidableEq

/-- The statistics of a moment. -/
structure SlaSnapshot where
  windows : List WindowStat
  trendSlope : Option Rat
  trendIntercept : Option Rat
  trendRSquared : Option Rat
  capturedAt : Rat

/-- A row of the counts. -/
structure Counts where
  completed : Nat
  failed : Nat
  cancelled : Nat
  terminal : Nat

/-- The sums of both queries, over the rows that the `WHERE` clause has left. -/
def countStatuses (rows : List Task) : Counts :=
  let count (statuses : List TaskStatus) := rows.countP (fun t => statuses.contains t.status)
  ⟨count [.completed], count [.failed], count [.cancelled], count [.completed, .failed, .cancelled]⟩

/-- `completed_at >= start AND completed_at < end`, which no row without one meets. -/
def within (start stop : Rat) (t : Task) : Bool :=
  t.completedAt.any (fun (ended : Int) => decide (start ≤ (ended : Rat)) && decide ((ended : Rat) < stop))

section Calculator

variable (db : Db)

/-- `_query_counts`. -/
def queryCounts (start stop : Rat) : Counts := countStatuses (db.tasks.select (within start stop))

/-- `_query_counts_all`. -/
def queryCountsAll : Counts := countStatuses db.tasks.rows

/-- `_window_stat`. -/
def windowStat (label : String) (start stop : Rat) : WindowStat :=
  let counts := if start ≤ 0 then queryCountsAll db else queryCounts db start stop
  let denom := counts.completed + counts.failed
  { windowLabel := label
    completed := counts.completed
    failed := counts.failed
    cancelled := counts.cancelled
    totalTerminal := counts.terminal
    successRate := if 0 < denom then some ((counts.completed : Rat) / denom) else none
    windowStart := start
    windowEnd := stop }

/-- `_linear_regression`: slope, intercept and R². -/
def linearRegression (xs ys : List Rat) : Rat × Rat × Rat :=
  let n := xs.length
  if n < 2 then (0, 0, 0)
  else
    let meanX := xs.sum / n
    let meanY := ys.sum / n
    let deviations := (xs.zip ys).map (fun p => (p.1 - meanX, p.2 - meanY))
    let num := (deviations.map (fun d => d.1 * d.2)).sum
    let denXX := (deviations.map (fun d => d.1 * d.1)).sum
    let denYY := (deviations.map (fun d => d.2 * d.2)).sum
    if denXX = 0 then (0, meanY, 0)
    else
      let slope := num / denXX
      (slope, meanY - slope * meanX, if 0 < denYY then num ^ 2 / (denXX * denYY) else 0)

/-- `a / b`; `none` is a `ZeroDivisionError`. -/
def divide (a b : Rat) : Option Rat := if b = 0 then none else some (a / b)

/-- The sums that the loop of `_linear_regression` carries: `num`, `den_xx` and `den_yy`. -/
def accumulate (meanX meanY : Rat) (sums : Rat × Rat × Rat) (p : Rat × Rat) : Rat × Rat × Rat :=
  let dx := p.1 - meanX
  let dy := p.2 - meanY
  (sums.1 + dx * dy, sums.2.1 + dx * dx, sums.2.2 + dy * dy)

/-- `_linear_regression` with its loop, where a division can raise. -/
def linearRegression? (xs ys : List Rat) : Option (Rat × Rat × Rat) :=
  let n := xs.length
  if n < 2 then some (0, 0, 0)
  else
    (divide xs.sum n).bind fun meanX =>
    (divide ys.sum n).bind fun meanY =>
      let (num, denXX, denYY) := (xs.zip ys).foldl (accumulate meanX meanY) (0, 0, 0)
      if denXX = 0 then some (0, meanY, 0)
      else
        (divide num denXX).bind fun slope =>
        (if 0 < denYY then divide (num ^ 2) (denXX * denYY) else some 0).map fun r2 =>
          (slope, meanY - slope * meanX, r2)

/-- `DEFAULT_WINDOWS`. -/
def defaultWindows : List (String × Int) := [("1h", 3600), ("6h", 21600), ("24h", 86400), ("7d", 604800)]

/-- The points of the trend: the end and the success rate of each window in which something was finished. -/
def trendPoints (stats : List WindowStat) : List (Rat × Rat) :=
  stats.filterMap (fun stat => stat.successRate.bind (fun rate =>
    if 0 < stat.completed + stat.failed then some (stat.windowEnd, rate) else none))

/-- `snapshot`. -/
def snapshot (now : Rat) (windows : List (String × Int)) : SlaSnapshot :=
  let stats := windows.map (fun w => windowStat db w.1 (now - w.2) now)
  let points := trendPoints stats
  let trend := if 2 ≤ points.length then some (linearRegression (points.map Prod.fst) (points.map Prod.snd)) else none
  { windows := stats ++ [windowStat db "all" 0 now]
    trendSlope := trend.map (fun fit => fit.1)
    trendIntercept := trend.map (fun fit => fit.2.1)
    trendRSquared := trend.map (fun fit => fit.2.2)
    capturedAt := now }

end Calculator

end A2ARegistry.Orchestration.Sla
