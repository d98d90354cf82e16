import Mathlib.Algebra.Order.Ring.Cast
import Mathlib.Tactic.Linarith
import A2ARegistry.Orchestration.Proofs.Backoff
import A2ARegistry.Orchestration.Sla

namespace A2ARegistry.Orchestration.Sla
open Base

section Definitions

def statusOf (db : Db) (k : String) : Option TaskStatus := (db.task? k).map Task.status

/-- The database, with the time of the latest status transition of each task, by the clock of the call that made it. -/
structure Dated where
  db : Db
  entered : String → Int

def Dated.begin : Dated := ⟨Db.empty, fun _ => 0⟩

def Dated.step (d : Dated) (op : Op) : Dated where
  db := Orchestration.step d.db op
  entered k := if statusOf (Orchestration.step d.db op) k = statusOf d.db k then d.entered k
    else op.now?.getD (d.entered k)

variable (d : Dated)

/-- The task has the status, and got it within the window. -/
def Dated.got (status : TaskStatus) (start stop : Rat) (t : Task) : Bool :=
  t.status == status && (decide (start ≤ (d.entered t.id : Rat)) && decide ((d.entered t.id : Rat) < stop))

/-- How many tasks have the status and got it within the window. -/
def Dated.count (status : TaskStatus) (start stop : Rat) : Nat := d.db.tasks.rows.countP (d.got status start stop)

/-- In every window the completed and the failed tasks are accounted for. -/
def Dated.FinishedExact : Prop := ∀ label start stop, 0 < start →
  (windowStat d.db label start stop).completed = d.count .completed start stop ∧
  (windowStat d.db label start stop).failed = d.count .failed start stop

/-- In every window the cancelled ones are, too. -/
def Dated.Exact : Prop := d.FinishedExact ∧ ∀ label start stop, 0 < start →
  (windowStat d.db label start stop).cancelled = d.count .cancelled start stop

/-- A `completed_at` that no window with a positive start tells from a time. -/
def SameStamp (completedAt : Option Int) (time : Int) : Prop :=
  completedAt = some time ∨ (time ≤ 0 ∧ ∀ stamp, completedAt = some stamp → stamp ≤ 0)

/-- A call that cancels a task finds the time of it in `completed_at` already. -/
def CancelsInTime (db : Db) : Op → Prop
  | .updateTaskStatus clock taskId newStatus args => newStatus = TaskStatus.cancelled.value →
      ∀ t, db.task? taskId = some t → .cancelled ∈ transitions t.status → lockRefused t args.claimLock = false →
        SameStamp t.completedAt clock.now
  | _ => True

end Definitions

section Rows

variable {db db' : Db} {op : Op} {t t' : Task}

/-- No transition leads from a status to itself. -/
theorem transition_ne {old new : TaskStatus} (h : new ∈ transitions old) : new ≠ old := by
  rintro rfl
  cases new <;> simp [transitions] at h

/-- What a call does to the status of a task and to its `completed_at`. -/
inductive StatusStep (op : Op) (t t' : Task) : Prop
  | kept (status : t'.status = t.status) (stamp : t'.completedAt = t.completedAt)
  | finished (now : Int) (time : op.now? = some now) (changed : t'.status ≠ t.status)
      (stamp : t'.completedAt = some now) (other : t'.status ≠ .cancelled)
  | cancelled (clock : Clock) (args : StatusArgs) (call : op = .updateTaskStatus clock t.id TaskStatus.cancelled.value args)
      (edge : .cancelled ∈ transitions t.status) (lock : lockRefused t args.claimLock = false)
      (status : t'.status = .cancelled) (stamp : t'.completedAt = t.completedAt)
  | opened (completed : t'.status ≠ .completed) (failed : t'.status ≠ .failed) (cancelled : t'.status ≠ .cancelled)

/-- A status that is not counted can be told from those that are. -/
theorem StatusStep.unfinished (hs : t'.status = .running ∨ t'.status = .ready ∨ t'.status = .todo) :
    StatusStep op t t' := by
  apply StatusStep.opened
  · intro he
    simp [he] at hs
  · intro he
    simp [he] at hs
  · intro he
    simp [he] at hs

theorem status_step (h : RowStep db db' op t t') : StatusStep op t t' := by
  cases h with
  | same | edited | placed | manned | beat => exact .kept rfl rfl
  | claimed => exact .unfinished (Or.inl rfl)
  | @moved clock _ new args retryAt accepted =>
    have hne := transition_ne accepted.edge
    by_cases hfinished : new = .completed ∨ new = .failed
    · refine .finished clock.now rfl hne (if_pos hfinished) ?_
      rintro rfl
      simp at hfinished
    · by_cases hcancelled : new = .cancelled
      · subst hcancelled
        exact .cancelled clock args rfl accepted.edge accepted.lock rfl (by simp [Task.move])
      · exact .opened (fun he => hfinished (Or.inl he)) (fun he => hfinished (Or.inr he)) hcancelled
  | settled =>
    rcases settle_cases db' t with ⟨_, _, he⟩ | ⟨_, _, he⟩ | ⟨_, _, he⟩
    · rw [he]
      exact .unfinished (Or.inr (Or.inl rfl))
    · rw [he]
      exact .unfinished (Or.inr (Or.inr rfl))
    · rw [he]
      exact .kept rfl rfl
  | @released clock tenant _ expired =>
    have hne : TaskStatus.failed ≠ t.status := by
      intro he
      simp [Task.expired, ← he] at expired
    refine .finished clock.now rfl hne rfl fun he => ?_
    cases he
  | promoted => exact .unfinished (Or.inr (Or.inl rfl))

end Rows

section Steps

variable {d : Dated} {op : Op} {k : String} {t t' : Task}

theorem entered_kept (ht : d.db.task? k = some t) (ht' : (d.step op).db.task? k = some t')
    (hs : t'.status = t.status) : (d.step op).entered k = d.entered k := by
  have hsame : statusOf (d.step op).db k = statusOf d.db k := by
    rw [statusOf, statusOf, ht, ht', Option.map_some, Option.map_some, hs]
  exact if_pos hsame

theorem entered_changed (ht : d.db.task? k = some t) (ht' : (d.step op).db.task? k = some t')
    (hs : t'.status ≠ t.status) {now : Int} (hnow : op.now? = some now) : (d.step op).entered k = now := by
  have hother : statusOf (d.step op).db k ≠ statusOf d.db k := by
    rw [statusOf, statusOf, ht, ht', Option.map_some, Option.map_some]
    exact fun he => hs (Option.some.inj he)
  have hentered : (d.step op).entered k = op.now?.getD (d.entered k) := if_neg hother
  rw [hentered, hnow, Option.getD_some]

/-- The `completed_at` of a completed or failed task is the time it became so. -/
def Dated.Finished (d : Dated) : Prop := ∀ k t, d.db.task? k = some t →
  t.status = .completed ∨ t.status = .failed → t.completedAt = some (d.entered k)

/-- That of a cancelled one cannot be told from it. -/
def Dated.Cancelled (d : Dated) : Prop := ∀ k t, d.db.task? k = some t → t.status = .cancelled →
  SameStamp t.completedAt (d.entered k)

/-- A task is created unfinished. -/
theorem created_open (args : CreateArgs) (now : Int) (hex : String) : (args.row now hex).status = .ready ∨
    (args.row now hex).status = .todo := by
  unfold CreateArgs.row
  dsimp only
  split
  · exact Or.inl rfl
  · exact Or.inr rfl

theorem step_finished (h : d.Finished) (op : Op) : (d.step op).Finished := by
  intro k t' ht' hs
  rcases step_origin ht' with ⟨clock, hex, args, u, rfl, rfl, rfl, _⟩ | ⟨t, ht, hrow⟩
  · rcases created_open args clock.now hex with hopen | hopen
    · simp [hopen] at hs
    · simp [hopen] at hs
  · cases status_step hrow with
    | kept status stamp =>
      rw [stamp, entered_kept ht ht' status]
      exact h k t ht (by rw [← status]; exact hs)
    | finished now time changed stamp other => rw [stamp, entered_changed ht ht' changed time]
    | cancelled clock args call edge lock status stamp => simp [status] at hs
    | opened completed failed cancelled => exact absurd hs (not_or.mpr ⟨completed, failed⟩)

/-- A task that is cancelled after a call was before, or the call has cancelled it. -/
theorem cancelled_origin (ht' : (d.step op).db.task? k = some t') (hs : t'.status = .cancelled) :
    (∃ t, d.db.task? k = some t ∧ t.status = .cancelled ∧ t'.completedAt = t.completedAt ∧
      (d.step op).entered k = d.entered k) ∨
    ∃ t clock args, d.db.task? k = some t ∧ op = .updateTaskStatus clock k TaskStatus.cancelled.value args ∧
      .cancelled ∈ transitions t.status ∧ lockRefused t args.claimLock = false ∧ t'.completedAt = t.completedAt ∧
      (d.step op).entered k = clock.now := by
  rcases step_origin ht' with ⟨clock, hex, args, u, rfl, rfl, rfl, _⟩ | ⟨t, ht, hrow⟩
  · rcases created_open args clock.now hex with hopen | hopen
    · simp [hopen] at hs
    · simp [hopen] at hs
  · have hid := Db.task_id ht
    cases status_step hrow with
    | kept status stamp =>
      exact Or.inl ⟨t, ht, status.symm.trans hs, stamp, entered_kept ht ht' status⟩
    | finished now time changed stamp other => exact absurd hs other
    | cancelled clock args call edge lock status stamp =>
      have hchanged : t'.status ≠ t.status := by
        rw [status]
        exact transition_ne edge
      rw [hid] at call
      refine Or.inr ⟨t, clock, args, ht, call, edge, lock, stamp, entered_changed ht ht' hchanged ?_⟩
      rw [call]
      rfl
    | opened completed failed cancelled => exact absurd hs cancelled

theorem step_cancelled (h : d.Cancelled) (hop : CancelsInTime d.db op) : (d.step op).Cancelled := by
  intro k t' ht' hs
  rcases cancelled_origin ht' hs with ⟨t, ht, hwas, hstamp, hentered⟩ |
    ⟨t, clock, args, ht, rfl, hedge, hlock, hstamp, hentered⟩
  · rw [hstamp, hentered]
    exact h k t ht hwas
  · rw [hstamp, hentered]
    exact hop rfl t ht hedge hlock

end Steps

section Counting

/-- Where one more is picked out, more are. -/
theorem countP_lt {α : Type} {p q : α → Bool} {l : List α} (hpq : ∀ x ∈ l, p x = true → q x = true) {a : α} (ha : a ∈ l)
    (hq : q a = true) (hp : p a = false) : l.countP p < l.countP q := by
  induction l with
  | nil => cases ha
  | cons b l ih =>
    have hrest : ∀ x ∈ l, p x = true → q x = true := fun x hx => hpq x (List.mem_cons_of_mem b hx)
    have hle : l.countP p ≤ l.countP q := List.countP_mono_left hrest
    rcases List.mem_cons.mp ha with rfl | ha
    · rw [List.countP_cons_of_pos hq, List.countP_cons_of_neg (by simp [hp])]
      omega
    · have hlt := ih hrest ha
      rw [List.countP_cons, List.countP_cons]
      by_cases hb : p b = true
      · rw [if_pos hb, if_pos (hpq b List.mem_cons_self hb)]
        omega
      · rw [if_neg hb]
        omega

/-- Counts of rows that agree on all but one differ. -/
theorem countP_ne {α : Type} {p q : α → Bool} {l : List α} {a : α} (ha : a ∈ l) (hdiff : p a ≠ q a)
    (hsame : ∀ x ∈ l, x ≠ a → p x = q x) : l.countP p ≠ l.countP q := by
  have hless : ∀ p q : α → Bool, (∀ x ∈ l, x ≠ a → p x = q x) → p a = false → q a = true →
      l.countP p < l.countP q := by
    intro p q hpq hp hq
    refine countP_lt (fun x hx hpx => ?_) ha hq hp
    have hne : x ≠ a := by
      rintro rfl
      rw [hp] at hpx
      cases hpx
    rw [← hpq x hx hne]
    exact hpx
  cases hp : p a with
  | false => exact (hless p q hsame hp (by simpa [hp] using hdiff)).ne
  | true => exact (hless q p (fun x hx hne => (hsame x hx hne).symm) (by simpa [hp] using hdiff) hp).ne'

variable {d : Dated} {start stop : Rat}

/-- The rows of the status that the query counts. -/
def counted (status : TaskStatus) (start stop : Rat) (t : Task) : Bool := t.status == status && within start stop t

theorem within_iff {t : Task} : within start stop t = true ↔
    ∃ ended, t.completedAt = some ended ∧ start ≤ (ended : Rat) ∧ (ended : Rat) < stop := by
  simp [within, Option.any_eq_true]

theorem sameStamp_within {completedAt : Option Int} {time : Int} (h : SameStamp completedAt time) (hstart : 0 < start)
    {t : Task} (ht : t.completedAt = completedAt) :
    within start stop t = (decide (start ≤ (time : Rat)) && decide ((time : Rat) < stop)) := by
  rcases h with rfl | ⟨htime, hstamps⟩
  · simp [within, ht]
  · have htime' : ¬ start ≤ (time : Rat) := not_le.mpr (lt_of_le_of_lt (by exact_mod_cast htime) hstart)
    rw [decide_eq_false htime', Bool.false_and, ← Bool.not_eq_true, within_iff]
    rintro ⟨ended, hended, hle, -⟩
    have hearly : (ended : Rat) ≤ 0 := by exact_mod_cast hstamps ended (ht.symm.trans hended)
    exact absurd hle (not_le.mpr (lt_of_le_of_lt hearly hstart))

/-- A task that is dated right is counted in the windows it belongs to. -/
theorem counted_got {status : TaskStatus} (hstart : 0 < start) {t : Task}
    (h : t.status = status → SameStamp t.completedAt (d.entered t.id)) :
    counted status start stop t = d.got status start stop t := by
  unfold counted Dated.got
  cases hs : t.status == status with
  | false => rfl
  | true => rw [sameStamp_within (h (by simpa using hs)) hstart rfl]

/-- The numbers of a window are those of the rows that are in it. -/
theorem windowStat_counts (db : Db) (label : String) (stop : Rat) (hstart : 0 < start) :
    (windowStat db label start stop).completed = db.tasks.rows.countP (counted .completed start stop) ∧
    (windowStat db label start stop).failed = db.tasks.rows.countP (counted .failed start stop) ∧
    (windowStat db label start stop).cancelled = db.tasks.rows.countP (counted .cancelled start stop) := by
  have hone : ∀ status : TaskStatus, (db.tasks.select (within start stop)).countP
      (fun t => [status].contains t.status) = db.tasks.rows.countP (counted status start stop) := by
    intro status
    rw [Table.select, List.countP_filter]
    apply List.countP_congr
    intro t _
    simp [counted]
  unfold windowStat queryCounts countStatuses
  rw [if_neg (not_le.mpr hstart)]
  exact ⟨hone _, hone _, hone _⟩

theorem count_eq {status : TaskStatus} (hstart : 0 < start)
    (h : ∀ t ∈ d.db.tasks.rows, t.status = status → SameStamp t.completedAt (d.entered t.id)) :
    d.db.tasks.rows.countP (counted status start stop) = d.count status start stop := by
  apply List.countP_congr
  intro t ht
  rw [counted_got hstart (h t ht)]

theorem Dated.Finished.exact (h : d.Finished) : d.FinishedExact := by
  intro label start stop hstart
  obtain ⟨hcompleted, hfailed, _⟩ := windowStat_counts d.db label stop hstart
  rw [hcompleted, hfailed]
  constructor
  · exact count_eq hstart fun t ht hs => Or.inl (h t.id t (Table.find_mem ht) (Or.inl hs))
  · exact count_eq hstart fun t ht hs => Or.inl (h t.id t (Table.find_mem ht) (Or.inr hs))

theorem Dated.Cancelled.exact (h : d.Cancelled) (hfinished : d.Finished) : d.Exact := by
  refine ⟨hfinished.exact, fun label start stop hstart => ?_⟩
  obtain ⟨_, _, hcancelled⟩ := windowStat_counts d.db label stop hstart
  rw [hcancelled]
  exact count_eq hstart fun t ht hs => h t.id t (Table.find_mem ht) hs

/-- A `completed_at` that is not the time of the cancellation shows in some window. -/
theorem window_tells {t : Task} (hs : t.status = .cancelled) (hwrong : ¬ SameStamp t.completedAt (d.entered t.id)) :
    ∃ start stop : Rat, 0 < start ∧ counted .cancelled start stop t ≠ d.got .cancelled start stop t := by
  by_cases htime : 0 < d.entered t.id
  · -- In the second in which it was cancelled the query finds no end of it.
    have hmissed : counted .cancelled (d.entered t.id) (d.entered t.id + 1) t = false := by
      rw [← Bool.not_eq_true, counted, Bool.and_eq_true, within_iff]
      rintro ⟨-, ended, hended, hle, hlt⟩
      have hle' : d.entered t.id ≤ ended := by exact_mod_cast hle
      have hlt' : ended < d.entered t.id + 1 := by exact_mod_cast hlt
      have he : ended = d.entered t.id := by omega
      exact hwrong (Or.inl (he ▸ hended))
    have hgot : d.got .cancelled (d.entered t.id) (d.entered t.id + 1) t = true := by
      simp [Dated.got, hs]
    refine ⟨d.entered t.id, d.entered t.id + 1, by exact_mod_cast htime, ?_⟩
    rw [hmissed, hgot]
    exact Bool.false_ne_true
  · -- It was cancelled before any window, and finished in one.
    have hstamp : ∃ ended, t.completedAt = some ended ∧ 0 < ended := by
      by_contra hnone
      push Not at hnone
      exact hwrong (Or.inr ⟨not_lt.mp htime, hnone⟩)
    obtain ⟨ended, hended, hpos⟩ := hstamp
    have hcounted : counted .cancelled ended (ended + 1) t = true := by
      rw [counted, Bool.and_eq_true, within_iff]
      exact ⟨by simp [hs], ended, hended, le_rfl, by linarith⟩
    have hmissed : d.got .cancelled ended (ended + 1) t = false := by
      have hlate : ¬ (ended : Rat) ≤ (d.entered t.id : Rat) := by
        rw [not_le]
        exact_mod_cast (by omega : d.entered t.id < ended)
      simp [Dated.got, hs, hlate]
    refine ⟨ended, ended + 1, by exact_mod_cast hpos, ?_⟩
    rw [hcounted, hmissed]
    exact Bool.false_ne_true.symm

/-- Some window is wrong when one task alone is dated wrong. -/
theorem not_exact {k : String} {t : Task} (ht : d.db.task? k = some t) (hs : t.status = .cancelled)
    (hwrong : ¬ SameStamp t.completedAt (d.entered k))
    (hothers : ∀ u, d.db.task? u.id = some u → u.id ≠ k → u.status = .cancelled →
      SameStamp u.completedAt (d.entered u.id)) : ¬ d.Exact := by
  rintro ⟨-, hexact⟩
  obtain rfl := Db.task_id ht
  obtain ⟨start, stop, hstart, htells⟩ := window_tells hs hwrong
  refine countP_ne (Db.mem_tasks.mpr ht) htells (fun u hu hne => ?_) ?_
  · have hu' : d.db.task? u.id = some u := Table.find_mem hu
    refine counted_got hstart (hothers u hu' fun he => hne ?_)
    rw [he, ht] at hu'
    exact (Option.some.inj hu').symm
  · rw [← (windowStat_counts d.db "" stop hstart).2.2]
    exact hexact "" start stop hstart

end Counting

section Runs

/-- A call that cancels a task with another time in `completed_at` leaves a window that is wrong. -/
theorem step_not_exact {d : Dated} {op : Op} (h : d.Cancelled) (hop : ¬ CancelsInTime d.db op) :
    ¬ (d.step op).Exact := by
  cases op with
  | updateTaskStatus clock k newStatus args =>
    simp only [CancelsInTime, not_forall] at hop
    obtain ⟨rfl, t, ht, hedge, hlock, hwrong⟩ := hop
    have haccepted : Accepted t clock.now .cancelled args.claimLock none :=
      ⟨hedge, hlock, nofun ∘ And.right, nextRetry_of_ne nofun⟩
    obtain ⟨view, kind, hok⟩ := updateTaskStatus_accepted ht haccepted
    have hid := Db.task_id ht
    have hrow : (d.step (.updateTaskStatus clock k TaskStatus.cancelled.value args)).db.task? k =
        some (t.move clock.now .cancelled args.result none) := by
      change (Orchestration.step d.db _).task? k = _
      rw [step_updateTaskStatus hok, writeStatus_task d.db clock t _ _ _ _ (hid.symm ▸ ht), if_pos hid.symm]
    have hentered := entered_changed ht hrow (transition_ne hedge) rfl
    refine not_exact hrow rfl ?_ ?_
    · rw [hentered]
      exact hwrong
    · intro u hu hne hs
      rcases cancelled_origin hu hs with ⟨v, hv, hwas, hstamp, hsame⟩ | ⟨v, clock', args', hv, he, _⟩
      · rw [hstamp, hsame]
        exact h u.id v hv hwas
      · cases he
        exact absurd rfl hne
  | _ => exact absurd trivial hop

/-- The completed and the failed tasks are accounted for in every state of every run. -/
theorem finished_exact (ops : List Op) : (exec Dated.step Dated.begin ops).FinishedExact := by
  have hbegin : Dated.begin.Finished := by
    intro k t ht
    cases ht
  exact (exec_invariant (I := Dated.Finished) (fun d op h => step_finished h op) hbegin ops).exact

/-- The windows are accounted for throughout a run exactly when every call that cancels a task finds the time of it in
`completed_at`, which only completing and failing set. -/
theorem windows_exact_iff (ops : List Op) : Always Dated.step Dated.Exact Dated.begin ops ↔
    EachStep Dated.step (fun d op => CancelsInTime d.db op) Dated.begin ops := by
  apply always_iff_kept (I := fun d => d.Finished ∧ d.Cancelled)
  · intro d h
    exact h.2.exact h.1
  · intro d op h hop
    exact ⟨step_finished h.1 op, step_cancelled h.2 hop⟩
  · intro d op h hop
    exact step_not_exact h.2 hop
  · constructor
    · intro k t ht
      cases ht
    · intro k t ht
      cases ht

end Runs

section Sample

/-- A task that is cancelled ten seconds after it was created. -/
def createdAndCancelled : List Op :=
  [.createTask (.fixed 100) "00000000" { title := "report" },
    .updateTaskStatus (.fixed 110) "t_00000000" "cancelled" {}]

/-- No window reports it. -/
theorem cancelled_uncounted : ¬ Always Dated.step Dated.Exact Dated.begin createdAndCancelled := by
  intro h
  have hlast := h.last.2 "1h" 105 115 (by norm_num)
  exact absurd hlast (by decide +kernel)

end Sample

end A2ARegistry.Orchestration.Sla
