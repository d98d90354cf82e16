import Mathlib.Order.Bounds.Defs
import A2ARegistry.Orchestration.Cron

namespace A2ARegistry.Orchestration.Cron
open Base

/-- The schedule of an expression, when `croniter` follows it: the next run is the least match strictly behind the
base. -/
def Follows (lib : Libraries) (schedule : String → Set Int) (cronExpression : String) : Prop :=
  ∀ base, ∃ m, lib.croniter cronExpression base = some m ∧ IsLeast {k | k ∈ schedule cronExpression ∧ base < k} m

def CronTask.hasTemplate (p : Python) (cron : CronTask) : Bool :=
  match parseTemplate p cron.taskTemplate with
  | .obj _ => true
  | _ => false

/-- A valid expression and a template that is a JSON object. -/
def CronTask.Sound (lib : Libraries) (schedule : String → Set Int) (cron : CronTask) : Prop :=
  Follows lib schedule cron.cronExpression ∧ cron.hasTemplate lib.python = true

/-- An execution of the task was recorded under `n` or later. -/
def Recorded (s : State) (n : Nat) (cronId : String) : Prop :=
  ∃ x ∈ s.executions.rows, n ≤ x.id ∧ x.cronTaskId = cronId

/-- An event fires a task when an execution of it is recorded. -/
def Fires (lib : Libraries) (s : State) (event : Event) (cronId : String) : Prop :=
  Recorded (step lib s event) s.executions.next cronId

/-- In a tick the task store raises nothing. -/
def Served (lib : Libraries) (s : State) : Event → Prop
  | .tick now draws => EachStep (fireOrLog lib now draws)
      (fun s cron => ∀ e, fireCronTask lib now (draws cron.id) cron s ≠ .error (.taskStore e)) s (loadDueCronTasks now s)
  | _ => True

/-- The times of the ticks of a run. -/
def tickTimes (events : List Event) : List Int :=
  events.filterMap fun
    | .tick now _ => some now
    | _ => none

/-- What a run has to do for its scheduler to be exact, for the tasks with a valid expression and a template that is
an object. -/
structure Exact (lib : Libraries) (schedule : String → Set Int) (s : State) (events : List Event) : Prop where
  /-- Between two firings of a task there is a match. -/
  spaced : ∀ pre now draws mid now' draws' post,
    events = pre ++ Event.tick now draws :: mid ++ Event.tick now' draws' :: post →
    ∀ cron, (exec (step lib) s pre).crons.find? cron.id = some cron → cron.Sound lib schedule →
    Event.delete cron.id ∉ mid → Fires lib (exec (step lib) s pre) (.tick now draws) cron.id →
    Fires lib (exec (step lib) s (pre ++ Event.tick now draws :: mid)) (.tick now' draws') cron.id →
    ∃ m ∈ schedule cron.cronExpression, now < m ∧ m ≤ now'
  /-- Behind a firing the next run is in the future. -/
  ahead : ∀ pre now draws post, events = pre ++ Event.tick now draws :: post →
    ∀ cron, (exec (step lib) s pre).crons.find? cron.id = some cron → cron.Sound lib schedule →
    Fires lib (exec (step lib) s pre) (.tick now draws) cron.id →
    ∃ row nextRun, (exec (step lib) s (pre ++ [Event.tick now draws])).crons.find? cron.id = some row ∧
      row.nextRun = some nextRun ∧ now < nextRun
  /-- The first tick at or behind a match fires a task that was created before the match and is enabled. -/
  punctual : ∀ pre created hex cron mid now draws post,
    events = pre ++ Event.create created hex cron :: mid ++ Event.tick now draws :: post →
    ∀ cronId s', createCronTask lib created hex cron (exec (step lib) s pre) = .ok (cronId, s') →
    cron.Sound lib schedule → Event.delete cronId ∉ mid →
    ∀ m ∈ schedule cron.cronExpression, created ≤ m → m ≤ now → (∀ t ∈ tickTimes mid, t < m) →
    (∃ row, (exec (step lib) s (pre ++ Event.create created hex cron :: mid)).crons.find? cronId = some row ∧
      row.enabled = true) →
    Fires lib (exec (step lib) s (pre ++ Event.create created hex cron :: mid)) (.tick now draws) cronId

/-- No tick comes at a time that the schedule of an enabled task matches. -/
def OffSchedule (lib : Libraries) (schedule : String → Set Int) (s : State) : Event → Prop
  | .tick now _ => ∀ cron ∈ s.crons.rows, cron.Sound lib schedule → cron.enabled = true → cron.createdAt ≤ now →
      now ∉ schedule cron.cronExpression
  | _ => True

section Firings

variable {lib : Libraries} {schedule : String → Set Int} {s s' : State} {now : Int} {draw : Draw}
  {draws : String → Draw} {cron row : CronTask} {cronId : String} {n : Nat}

/-- The row of a task when it has fired. -/
def CronTask.fired (lib : Libraries) (now : Int) (cron : CronTask) : CronTask :=
  match computeNextRun lib cron.cronExpression (now - 1) with
  | some nextRun => { cron with lastRun := some now, nextRun := some nextRun }
  | none => { cron with enabled := false }

/-- A firing leaves what the task is and asks for as it is. -/
theorem fired_kept (lib : Libraries) (now : Int) (cron : CronTask) : (cron.fired lib now).id = cron.id ∧
    (cron.fired lib now).cronExpression = cron.cronExpression ∧ (cron.fired lib now).taskTemplate = cron.taskTemplate ∧
    (cron.fired lib now).createdAt = cron.createdAt := by
  unfold CronTask.fired
  split <;> exact ⟨rfl, rfl, rfl, rfl⟩

theorem dispatch_cases (lib : Libraries) (draw : Draw) (cron : CronTask) (tasks : Db) :
    (cron.hasTemplate lib.python = false ∧ dispatch lib draw cron tasks = .error .attributeError) ∨
    (cron.hasTemplate lib.python = true ∧
      ((∃ e, dispatch lib draw cron tasks = .error (.taskStore e)) ∨
        ∃ created, dispatch lib draw cron tasks = .ok created)) := by
  unfold CronTask.hasTemplate dispatch
  cases parseTemplate lib.python cron.taskTemplate with
  | obj template =>
    refine Or.inr ⟨rfl, ?_⟩
    dsimp only
    split
    · exact Or.inl ⟨_, rfl⟩
    · split
      · exact Or.inl ⟨_, rfl⟩
      · exact Or.inr ⟨_, rfl⟩
  | null | bool | int | float | str | arr => exact Or.inl ⟨rfl, rfl⟩

/-- What a firing does: one execution is recorded, and of the tasks only its own changes. -/
structure Fired (lib : Libraries) (now : Int) (cron : CronTask) (s s' : State) : Prop where
  crons : s.crons.find? cron.id = some cron → ∀ cronId, s'.crons.find? cronId =
    if cronId = cron.id then some (cron.fired lib now) else s.crons.find? cronId
  next : s.executions.next ≤ s'.executions.next
  recorded : ∀ n ≤ s.executions.next, ∀ cronId, Recorded s' n cronId ↔ Recorded s n cronId ∨ cronId = cron.id

theorem find_modified (hrow : s.crons.find? cron.id = some cron) (f : CronTask → CronTask)
    (hf : ∀ c, key (f c) = key c) (cronId : String) :
    (s.crons.modify (fun c => c.id == cron.id) f hf).find? cronId =
      if cronId = cron.id then some (f cron) else s.crons.find? cronId := by
  rw [Table.find_modify]
  by_cases hid : cronId = cron.id
  · rw [if_pos hid, hid, hrow]
    simp
  · rw [if_neg hid]
    cases hfind : s.crons.find? cronId with
    | none => rfl
    | some c =>
      have hc : c.id = cronId := Table.find_key hfind
      have hne : ¬ c.id = cron.id := fun he => hid (hc.symm.trans he)
      simp [hne]

/-- A record that is made and then marked counts as one execution. -/
theorem recorded_execution (hn : n ≤ s.executions.next) (record : CronExecution) (status : ExecutionStatus)
    (completedAt : Int) :
    Recorded (updateExecutionStatus s.executions.next status completedAt (createExecution record s).2) n cronId ↔
      Recorded s n cronId ∨ cronId = record.cronTaskId := by
  constructor
  · intro h
    obtain ⟨x, hx, hle, hid⟩ := h
    obtain ⟨y, hy, hyx⟩ := List.mem_map.mp hx
    subst hyx
    have hy' : n ≤ y.id ∧ y.cronTaskId = cronId := by
      split at hle
      · rename_i he
        rw [if_pos he] at hid
        exact ⟨hle, hid⟩
      · rename_i he
        rw [if_neg he] at hid
        exact ⟨hle, hid⟩
    rcases List.mem_append.mp hy with hold | hnew
    · exact Or.inl ⟨y, hold, hy'⟩
    · rw [List.mem_singleton.mp hnew] at hy'
      exact Or.inr hy'.2.symm
  · intro h
    rcases h with ⟨x, hx, hle, hid⟩ | rfl
    · have hlt : x.id < s.executions.next := s.executions.bound x hx
      have hne : ¬ (x.id == s.executions.next) = true := by
        simp [Nat.ne_of_lt hlt]
      exact ⟨x, List.mem_map.mpr ⟨x, List.mem_append_left _ hx, if_neg hne⟩, hle, hid⟩
    · refine ⟨_, List.mem_map.mpr ⟨_, List.mem_append_right _ (List.mem_singleton.mpr rfl), rfl⟩, ?_⟩
      simp [hn]

theorem fire_fired (h : fireCronTask lib now draw cron s = .ok s') : Fired lib now cron s s' := by
  unfold fireCronTask at h
  split at h
  · cases h
  · rename_i task tasks hdispatch
    cases h
    have hrecorded : ∀ n ≤ s.executions.next, ∀ cronId, Recorded (updateExecutionStatus s.executions.next .completed
        draw.completedAt (createExecution ⟨0, cron.id, task.id, now, some now, none, .running⟩
          { s with tasks := tasks }).2) n cronId ↔ Recorded s n cronId ∨ cronId = cron.id :=
      fun n hn cronId => recorded_execution (s := { s with tasks := tasks }) hn _ _ _
    cases hnext : computeNextRun lib cron.cronExpression (now - 1) with
    | none =>
      refine ⟨fun hrow cronId => ?_, Nat.le_succ _, hrecorded⟩
      rw [CronTask.fired, hnext]
      exact find_modified hrow (fun c => { c with enabled := false }) (fun _ => rfl) cronId
    | some nextRun =>
      refine ⟨fun hrow cronId => ?_, Nat.le_succ _, hrecorded⟩
      rw [CronTask.fired, hnext]
      exact find_modified hrow (fun c => { c with lastRun := some now, nextRun := some nextRun }) (fun _ => rfl) cronId

/-- A task that is not fired although the task store raised nothing has no object for a template. -/
theorem fireOrLog_cases (hserved : ∀ e, fireCronTask lib now (draws cron.id) cron s ≠ .error (.taskStore e)) :
    (cron.hasTemplate lib.python = true ∧ Fired lib now cron s (fireOrLog lib now draws s cron)) ∨
      (cron.hasTemplate lib.python = false ∧ fireOrLog lib now draws s cron = s) := by
  unfold fireOrLog
  cases hfire : fireCronTask lib now (draws cron.id) cron s with
  | ok s' =>
    rcases dispatch_cases lib (draws cron.id) cron s.tasks with ⟨_, hraise⟩ | ⟨htemplate, _⟩
    · rw [fireCronTask, hraise] at hfire
      cases hfire
    · exact Or.inl ⟨htemplate, fire_fired hfire⟩
  | error e =>
    rcases dispatch_cases lib (draws cron.id) cron s.tasks with ⟨htemplate, _⟩ | ⟨_, ⟨e', hraise⟩ | ⟨created, hok⟩⟩
    · exact Or.inr ⟨htemplate, rfl⟩
    · exact absurd (by rw [fireCronTask, hraise]) (hserved e')
    · rw [fireCronTask, hok] at hfire
      cases hfire

/-- The loop of a tick over tasks that are stored: each with an object for a template is fired, once. -/
theorem loop_fires {due : List CronTask} (hids : (due.map CronTask.id).Nodup)
    (hdue : ∀ c ∈ due, s.crons.find? c.id = some c)
    (hserved : EachStep (fireOrLog lib now draws)
      (fun s cron => ∀ e, fireCronTask lib now (draws cron.id) cron s ≠ .error (.taskStore e)) s due) :
    (∀ cronId, (exec (fireOrLog lib now draws) s due).crons.find? cronId =
      (s.crons.find? cronId).map
        (fun c => if c ∈ due ∧ c.hasTemplate lib.python = true then c.fired lib now else c)) ∧
    (∀ n ≤ s.executions.next, ∀ cronId, Recorded (exec (fireOrLog lib now draws) s due) n cronId ↔
      Recorded s n cronId ∨ ∃ c ∈ due, c.hasTemplate lib.python = true ∧ c.id = cronId) := by
  induction due generalizing s with
  | nil => simp
  | cons c due ih =>
    obtain ⟨hc, hids⟩ := List.nodup_cons.mp hids
    have hstored := hdue c List.mem_cons_self
    have hother : ∀ d ∈ due, d.id ≠ c.id := fun d hd he => hc (List.mem_map.mpr ⟨d, hd, he⟩)
    have hout : c ∉ due := fun hin => hother c hin rfl
    rcases fireOrLog_cases hserved.1 with ⟨htemplate, hfired⟩ | ⟨htemplate, hsame⟩
    · have hcrons := hfired.crons hstored
      have hkept : ∀ d ∈ due, (fireOrLog lib now draws s c).crons.find? d.id = some d := by
        intro d hd
        rw [hcrons, if_neg (hother d hd)]
        exact hdue d (List.mem_cons_of_mem c hd)
      obtain ⟨hrows, hrecorded⟩ := ih hids hkept hserved.2
      refine ⟨fun cronId => ?_, fun n hn cronId => ?_⟩
      · rw [exec_cons, hrows, hcrons]
        by_cases hid : cronId = c.id
        · have hnot : c.fired lib now ∉ due := by
            intro hin
            refine hother _ hin ?_
            unfold CronTask.fired
            split <;> rfl
          rw [if_pos hid, hid, hstored]
          simp [hnot, htemplate]
        · rw [if_neg hid]
          cases hfind : s.crons.find? cronId with
          | none => rfl
          | some d =>
            have hd : d.id = cronId := Table.find_key hfind
            have hne : d ≠ c := fun he => hid (by rw [← hd, he])
            simp [hne]
      · rw [exec_cons, hrecorded n (Nat.le_trans hn hfired.next), hfired.recorded n hn]
        simp only [List.mem_cons]
        constructor
        · rintro ((hold | hid) | ⟨d, hd, htd, hid⟩)
          · exact Or.inl hold
          · exact Or.inr ⟨c, Or.inl rfl, htemplate, hid.symm⟩
          · exact Or.inr ⟨d, Or.inr hd, htd, hid⟩
        · rintro (hold | ⟨d, rfl | hd, htd, hid⟩)
          · exact Or.inl (Or.inl hold)
          · exact Or.inl (Or.inr hid.symm)
          · exact Or.inr ⟨d, hd, htd, hid⟩
    · have hkept : ∀ d ∈ due, (fireOrLog lib now draws s c).crons.find? d.id = some d := by
        intro d hd
        rw [hsame]
        exact hdue d (List.mem_cons_of_mem c hd)
      have hserved' := hserved.2
      rw [hsame] at hkept hserved'
      obtain ⟨hrows, hrecorded⟩ := ih hids hkept hserved'
      refine ⟨fun cronId => ?_, fun n hn cronId => ?_⟩
      · rw [exec_cons, hsame, hrows]
        refine congrArg (fun f => Option.map f (s.crons.find? cronId)) (funext fun d => ?_)
        by_cases hd : d = c
        · simp [hd, hout, htemplate]
        · simp [hd]
      · rw [exec_cons, hsame, hrecorded n hn]
        simp [htemplate]

theorem mem_loadDue {c : CronTask} : c ∈ loadDueCronTasks now s ↔ c ∈ s.crons.rows ∧ c.enabled = true ∧ c.due now = true := by
  simp [loadDueCronTasks, listCronTasks, Table.mem_select, and_assoc]

theorem loadDue_nodup (now : Int) (s : State) : ((loadDueCronTasks now s).map CronTask.id).Nodup := by
  have hlist : ((listCronTasks true s).map CronTask.id).Nodup :=
    ((List.perm_insertionSort _ _).map CronTask.id).nodup_iff.mpr (Table.select_nodup s.crons _)
  exact List.Nodup.sublist (List.Sublist.map _ List.filter_sublist) hlist

/-- A tick fires the task: it is enabled and due, and its template is an object. -/
def CronTask.starts (p : Python) (now : Int) (cron : CronTask) : Bool :=
  cron.enabled && cron.due now && cron.hasTemplate p

theorem starts_iff {p : Python} {c : CronTask} (hrow : s.crons.find? c.id = some c) :
    c ∈ loadDueCronTasks now s ∧ c.hasTemplate p = true ↔ c.starts p now = true := by
  have hmem : c ∈ s.crons.rows := (Table.find_some_iff.mp hrow).1
  rw [mem_loadDue, CronTask.starts]
  simp [hmem]

theorem due_stored {c : CronTask} (hc : c ∈ loadDueCronTasks now s) : s.crons.find? c.id = some c :=
  Table.find_mem (mem_loadDue.mp hc).1

theorem find_stored {c : CronTask} (h : s.crons.find? cronId = some c) : s.crons.find? c.id = some c := by
  have hid : c.id = cronId := Table.find_key h
  rw [hid]
  exact h

theorem tick_find (hserved : Served lib s (.tick now draws)) (cronId : String) :
    (step lib s (.tick now draws)).crons.find? cronId =
      (s.crons.find? cronId).map (fun c => if c.starts lib.python now = true then c.fired lib now else c) := by
  have hloop := (loop_fires (loadDue_nodup now s) (fun c hc => due_stored hc) hserved).1 cronId
  refine Eq.trans hloop ?_
  cases hfind : s.crons.find? cronId with
  | none => rfl
  | some c =>
    simp [starts_iff (find_stored hfind)]

theorem not_recorded (s : State) (cronId : String) : ¬ Recorded s s.executions.next cronId := by
  intro h
  obtain ⟨x, hx, hle, _⟩ := h
  exact absurd (s.executions.bound x hx) (Nat.not_lt.mpr hle)

theorem fires_iff {event : Event} (hserved : Served lib s event) : Fires lib s event cronId ↔
    ∃ now draws c, event = .tick now draws ∧ s.crons.find? cronId = some c ∧ c.starts lib.python now = true := by
  cases event with
  | tick now draws =>
    have hloop := (loop_fires (loadDue_nodup now s) (fun c hc => due_stored hc) hserved).2
      s.executions.next (Nat.le_refl _) cronId
    refine Iff.trans hloop ?_
    constructor
    · intro h
      rcases h with hold | ⟨c, hc, htemplate, rfl⟩
      · exact absurd hold (not_recorded s cronId)
      · exact ⟨now, draws, c, rfl, due_stored hc, (starts_iff (due_stored hc)).mp ⟨hc, htemplate⟩⟩
    · rintro ⟨_, _, c, he, hrow, hstarts⟩
      cases he
      obtain ⟨hdue, htemplate⟩ := (starts_iff (find_stored hrow)).mpr hstarts
      exact Or.inr ⟨c, hdue, htemplate, Table.find_key hrow⟩
  | create now hex cron =>
    refine ⟨fun h => absurd ?_ (not_recorded s cronId), fun ⟨_, _, _, he, _⟩ => (nomatch he)⟩
    unfold Fires step createCronTask at h
    dsimp only at h
    split at h
    · exact h
    · rename_i hok
      split at hok
      · cases hok
      · cases hok
        exact h
  | delete cronId' =>
    refine ⟨fun h => absurd ?_ (not_recorded s cronId), fun ⟨_, _, _, he, _⟩ => (nomatch he)⟩
    obtain ⟨x, hx, hkey⟩ := h
    exact ⟨x, (List.mem_filter.mp hx).1, hkey⟩
  | setEnabled cronId' enabled =>
    exact ⟨fun h => absurd h (not_recorded s cronId), fun ⟨_, _, _, he, _⟩ => (nomatch he)⟩

/-- The row an event leaves of a task. -/
structure Carried (lib : Libraries) (event : Event) (c c' : CronTask) : Prop where
  cronExpression : c'.cronExpression = c.cronExpression
  taskTemplate : c'.taskTemplate = c.taskTemplate
  createdAt : c'.createdAt = c.createdAt
  nextRun : c'.nextRun = c.nextRun ∨
    ∃ now draws, event = .tick now draws ∧ c.starts lib.python now = true ∧ c' = c.fired lib now

theorem create_row {created : Int} {hex : String} (h : createCronTask lib created hex cron s = .ok (cronId, s')) :
    s.crons.find? cronId = none ∧ ∀ k, s'.crons.find? k = if k = cronId then some { cron with
      id := cronId
      createdAt := created
      nextRun := some ((lib.croniter cron.cronExpression (created - 1)).getD (created + 3600)) }
      else s.crons.find? k := by
  unfold createCronTask at h
  dsimp only at h
  split at h
  · cases h
  · rename_i crons hinsert
    cases h
    exact ⟨(Table.insert_some hinsert).1, Table.find_insert hinsert⟩

/-- Where the row of a task comes from: it is created, or it was there. -/
theorem step_row {event : Event} {c' : CronTask} (hserved : Served lib s event)
    (hrow : (step lib s event).crons.find? cronId = some c') :
    (∃ created hex cron, event = .create created hex cron ∧
      createCronTask lib created hex cron s = .ok (cronId, step lib s event)) ∨
    (event ≠ .delete cronId ∧ ∃ c, s.crons.find? cronId = some c ∧ Carried lib event c c') := by
  cases event with
  | create created hex cron =>
    cases hcreate : createCronTask lib created hex cron s with
    | error e =>
      have hsame : step lib s (.create created hex cron) = s := by simp [step, hcreate]
      rw [hsame] at hrow
      exact Or.inr ⟨fun he => (nomatch he), c', hrow, rfl, rfl, rfl, Or.inl rfl⟩
    | ok made =>
      obtain ⟨madeId, s'⟩ := made
      have hstep : step lib s (.create created hex cron) = s' := by simp [step, hcreate]
      rw [hstep] at hrow ⊢
      by_cases hid : cronId = madeId
      · subst hid
        exact Or.inl ⟨created, hex, cron, rfl, hcreate⟩
      · rw [(create_row hcreate).2, if_neg hid] at hrow
        exact Or.inr ⟨fun he => (nomatch he), c', hrow, rfl, rfl, rfl, Or.inl rfl⟩
  | delete deleted =>
    have hfind := Table.find_delete s.crons (fun c => c.id == deleted) cronId
    have hrow' : (s.crons.find? cronId).filter (fun c => !(c.id == deleted)) = some c' := hfind.symm.trans hrow
    obtain ⟨hold, hkept⟩ := Option.filter_eq_some_iff.mp hrow'
    refine Or.inr ⟨fun he => ?_, c', hold, rfl, rfl, rfl, Or.inl rfl⟩
    cases he
    have hid : c'.id = cronId := Table.find_key hold
    simp [hid] at hkept
  | setEnabled changed enabled =>
    have hfind := Table.find_modify s.crons (fun c => c.id == changed) (fun c => { c with enabled := enabled })
      (fun _ => rfl) cronId
    obtain ⟨c, hold, rfl⟩ := Option.map_eq_some_iff.mp (hfind.symm.trans hrow)
    refine Or.inr ⟨fun he => (nomatch he), c, hold, ?_⟩
    split <;> exact ⟨rfl, rfl, rfl, Or.inl rfl⟩
  | tick now draws =>
    rw [tick_find hserved] at hrow
    obtain ⟨c, hold, hc'⟩ := Option.map_eq_some_iff.mp hrow
    refine Or.inr ⟨fun he => (nomatch he), c, hold, ?_⟩
    split at hc'
    · rename_i hstarts
      subst hc'
      obtain ⟨_, hexpression, htemplate, hcreated⟩ := fired_kept lib now c
      exact ⟨hexpression, htemplate, hcreated, Or.inr ⟨now, draws, rfl, hstarts, rfl⟩⟩
    · subst hc'
      exact ⟨rfl, rfl, rfl, Or.inl rfl⟩

/-- Only a deletion takes a task away. -/
theorem step_isSome {event : Event} (hserved : Served lib s event) (hkept : event ≠ .delete cronId)
    (h : (s.crons.find? cronId).isSome) : ((step lib s event).crons.find? cronId).isSome := by
  cases event with
  | create created hex cron =>
    cases hcreate : createCronTask lib created hex cron s with
    | error e => simpa [step, hcreate] using h
    | ok made =>
      obtain ⟨madeId, s'⟩ := made
      have hrow := (create_row hcreate).2 cronId
      simp only [step, hcreate]
      rw [hrow]
      split
      · rfl
      · exact h
  | delete deleted =>
    obtain ⟨c, hc⟩ := Option.isSome_iff_exists.mp h
    have hid : c.id = cronId := Table.find_key hc
    have hne : ¬ cronId = deleted := fun he => hkept (by rw [he])
    have hfind := Table.find_delete s.crons (fun c => c.id == deleted) cronId
    refine Option.isSome_iff_exists.mpr ⟨c, hfind.trans ?_⟩
    simp [hc, hid, hne]
  | setEnabled changed enabled =>
    have hfind := Table.find_modify s.crons (fun c => c.id == changed) (fun c => { c with enabled := enabled })
      (fun _ => rfl) cronId
    exact (congrArg Option.isSome hfind).trans (by simpa using h)
  | tick now draws =>
    rw [tick_find hserved]
    simpa using h

theorem step_carried {event : Event} {c : CronTask} (hserved : Served lib s event) (hkept : event ≠ .delete cronId)
    (hrow : s.crons.find? cronId = some c) :
    ∃ c', (step lib s event).crons.find? cronId = some c' ∧ Carried lib event c c' := by
  have hsome := step_isSome hserved hkept (Option.isSome_iff_exists.mpr ⟨c, hrow⟩)
  obtain ⟨c', hrow'⟩ := Option.isSome_iff_exists.mp hsome
  rcases step_row hserved hrow' with ⟨created, hex, cron, _, hcreate⟩ | ⟨_, d, hd, hcarried⟩
  · rw [(create_row hcreate).1] at hrow
    cases hrow
  · rw [hrow] at hd
    cases hd
    exact ⟨c', hrow', hcarried⟩

end Firings

section Runs

variable {lib : Libraries} {schedule : String → Set Int} {s s' : State} {now m : Int} {draws : String → Draw}
  {cron : CronTask} {cronId : String} {events pre mid post : List Event}

theorem Follows.next {cronExpression : String} (h : Follows lib schedule cronExpression) (now : Int) :
    ∃ m ∈ schedule cronExpression, computeNextRun lib cronExpression (now - 1) = some m ∧ now ≤ m ∧
      ∀ k ∈ schedule cronExpression, now ≤ k → m ≤ k := by
  obtain ⟨m, hnext, ⟨hm, hlt⟩, hleast⟩ := h (now - 1)
  refine ⟨m, hm, hnext, by omega, fun k hk hle => ?_⟩
  have hbase : now - 1 < k := by omega
  exact hleast ⟨hk, hbase⟩

theorem Follows.fired (h : Follows lib schedule cron.cronExpression) (now : Int) :
    ∃ m ∈ schedule cron.cronExpression, (cron.fired lib now).nextRun = some m ∧ now ≤ m ∧
      ∀ k ∈ schedule cron.cronExpression, now ≤ k → m ≤ k := by
  obtain ⟨m, hm, hnext, hrest⟩ := h.next now
  exact ⟨m, hm, by simp [CronTask.fired, hnext], hrest⟩

theorem due_iff {c : CronTask} : c.due now = true ↔ ∃ n, c.nextRun = some n ∧ n ≤ now := by
  unfold CronTask.due
  cases c.nextRun with
  | none => simp
  | some n => simp

theorem starts_due {p : Python} {c : CronTask} (h : c.starts p now = true) : ∃ n, c.nextRun = some n ∧ n ≤ now := by
  simp only [CronTask.starts, Bool.and_eq_true] at h
  exact due_iff.mp h.1.2

theorem mem_tickTimes {event : Event} (h : event ∈ events) (he : event = .tick now draws) : now ∈ tickTimes events :=
  List.mem_filterMap.mpr ⟨event, h, by rw [he]⟩

/-- The next run of a task with a valid expression is a match that is not before its creation. -/
def Booked (lib : Libraries) (schedule : String → Set Int) (s : State) : Prop :=
  ∀ cronId c, s.crons.find? cronId = some c → Follows lib schedule c.cronExpression →
    ∃ n ∈ schedule c.cronExpression, c.nextRun = some n ∧ c.createdAt ≤ n

theorem booked_step {event : Event} (h : Booked lib schedule s) (hserved : Served lib s event) :
    Booked lib schedule (step lib s event) := by
  intro cronId c' hrow hfollows
  rcases step_row hserved hrow with ⟨created, hex, cron, _, hcreate⟩ | ⟨_, c, hold, hcarried⟩
  · rw [(create_row hcreate).2, if_pos rfl] at hrow
    cases hrow
    obtain ⟨n, hn, hnext, hle, _⟩ := Follows.next hfollows created
    have hcroniter : lib.croniter cron.cronExpression (created - 1) = some n := hnext
    exact ⟨n, hn, by simp [hcroniter], hle⟩
  · rw [hcarried.cronExpression] at hfollows ⊢
    obtain ⟨n, hn, hnext, hle⟩ := h cronId c hold hfollows
    rcases hcarried.nextRun with hsame | ⟨now, draws, _, hstarts, hfired⟩
    · exact ⟨n, hn, hsame.trans hnext, by rw [hcarried.createdAt]; exact hle⟩
    · obtain ⟨m, hm, hnext', hlow, _⟩ := hfollows.fired now
      obtain ⟨n', hn', hdue⟩ := starts_due hstarts
      rw [hnext] at hn'
      cases hn'
      refine ⟨m, hm, by rw [hfired]; exact hnext', ?_⟩
      rw [hcarried.createdAt]
      omega

/-- The task that was created then is stored. It waits at the latest for the match `m`, if that is one behind its
creation. -/
def Awaits (lib : Libraries) (schedule : String → Set Int) (cronId : String) (created : Int) (cron : CronTask) (m : Int)
    (s : State) : Prop :=
  ∃ c, s.crons.find? cronId = some c ∧ c.cronExpression = cron.cronExpression ∧ c.taskTemplate = cron.taskTemplate ∧
    c.createdAt = created ∧ (Follows lib schedule cron.cronExpression → m ∈ schedule cron.cronExpression →
      created ≤ m → ∃ n ≤ m, c.nextRun = some n)

/-- So it is for as long as the ticks are before the match. -/
theorem awaits_from {created : Int} {hex : String} (hcreate : createCronTask lib created hex cron s = .ok (cronId, s'))
    (hserved : EachStep (step lib) (Served lib) s' mid) (hkept : Event.delete cronId ∉ mid)
    (hticks : ∀ t ∈ tickTimes mid, t < m) : Awaits lib schedule cronId created cron m (exec (step lib) s' mid) := by
  have hstart : Awaits lib schedule cronId created cron m s' := by
    refine ⟨_, ((create_row hcreate).2 cronId).trans (if_pos rfl), rfl, rfl, rfl, fun hfollows hm hle => ?_⟩
    obtain ⟨n, _, hnext, _, hleast⟩ := hfollows.next created
    have hcroniter : lib.croniter cron.cronExpression (created - 1) = some n := hnext
    exact ⟨n, hleast m hm hle, by simp [hcroniter]⟩
  refine EachStep.invariant_of_mem (fun s event hevent hs hserved => ?_) hstart hserved
  obtain ⟨c, hrow, hexpression, htemplate, hcreated, hnext⟩ := hs
  obtain ⟨c', hrow', hcarried⟩ := step_carried hserved (fun he => hkept (he ▸ hevent)) hrow
  refine ⟨c', hrow', hcarried.cronExpression.trans hexpression, hcarried.taskTemplate.trans htemplate,
    hcarried.createdAt.trans hcreated, fun hfollows hm hle => ?_⟩
  rcases hcarried.nextRun with hsame | ⟨t, draws, he, _, hfired⟩
  · rw [hsame]
    exact hnext hfollows hm hle
  · rw [← hexpression] at hfollows hm
    obtain ⟨n, _, hnext', _, hleast⟩ := hfollows.fired t
    have ht : t < m := hticks t (mem_tickTimes hevent he)
    exact ⟨n, hleast m hm (by omega), by rw [hfired]; exact hnext'⟩

/-- The task waits for a match behind `now`. -/
def LooksAhead (schedule : String → Set Int) (cronId cronExpression : String) (now : Int) (s : State) : Prop :=
  ∃ c, s.crons.find? cronId = some c ∧ c.cronExpression = cronExpression ∧
    ∃ n ∈ schedule cronExpression, now < n ∧ c.nextRun = some n

theorem looksAhead_run {cronExpression : String} (hfollows : Follows lib schedule cronExpression)
    (hstart : LooksAhead schedule cronId cronExpression now s)
    (hserved : EachStep (step lib) (Served lib) s mid) (hkept : Event.delete cronId ∉ mid)
    (hticks : ∀ t ∈ tickTimes mid, now < t) :
    LooksAhead schedule cronId cronExpression now (exec (step lib) s mid) := by
  refine EachStep.invariant_of_mem (fun s event hevent hs hserved => ?_) hstart hserved
  obtain ⟨c, hrow, rfl, n, hn, hlt, hnext⟩ := hs
  obtain ⟨c', hrow', hcarried⟩ := step_carried hserved (fun he => hkept (he ▸ hevent)) hrow
  refine ⟨c', hrow', hcarried.cronExpression, ?_⟩
  rcases hcarried.nextRun with hsame | ⟨t, draws, he, _, hfired⟩
  · exact ⟨n, hn, hlt, hsame.trans hnext⟩
  · obtain ⟨n', hn', hnext', hle, _⟩ := hfollows.fired t
    have ht : now < t := hticks t (mem_tickTimes hevent he)
    exact ⟨n', hn', by omega, by rw [hfired]; exact hnext'⟩

/-- The match a task waits for comes before its next firing. -/
theorem LooksAhead.before_firing {cronExpression : String} {now' : Int} {draws' : String → Draw}
    (h : LooksAhead schedule cronId cronExpression now s) (hserved : Served lib s (.tick now' draws'))
    (hfires : Fires lib s (.tick now' draws') cronId) : ∃ m ∈ schedule cronExpression, now < m ∧ m ≤ now' := by
  obtain ⟨c, hc, _, n, hn, hlt, hnext⟩ := h
  obtain ⟨_, _, d, he, hd, hstarts⟩ := (fires_iff hserved).mp hfires
  cases he
  rw [hc] at hd
  cases hd
  obtain ⟨n', hn', hdue⟩ := starts_due hstarts
  rw [hnext] at hn'
  cases hn'
  exact ⟨n, hn, hlt, hdue⟩

/-- A firing of a sound task books the first match that is not before the tick. -/
theorem fires_books {c : CronTask} (hserved : Served lib s (.tick now draws)) (hrow : s.crons.find? cronId = some c)
    (hfollows : Follows lib schedule c.cronExpression) (hfires : Fires lib s (.tick now draws) cronId) :
    c.starts lib.python now = true ∧
      (step lib s (.tick now draws)).crons.find? cronId = some (c.fired lib now) ∧
      ∃ n ∈ schedule c.cronExpression, (c.fired lib now).nextRun = some n ∧ now ≤ n ∧
        ∀ k ∈ schedule c.cronExpression, now ≤ k → n ≤ k := by
  obtain ⟨_, _, d, he, hd, hstarts⟩ := (fires_iff hserved).mp hfires
  cases he
  rw [hrow] at hd
  cases hd
  refine ⟨hstarts, ?_, hfollows.fired now⟩
  rw [tick_find hserved, hrow]
  simp [hstarts]

/-- A task that is stored was created, and not deleted since. -/
theorem created_before {tasks : Db} {pre : List Event} (hserved : EachStep (step lib) (Served lib) (State.init tasks) pre)
    (h : ((exec (step lib) (State.init tasks) pre).crons.find? cronId).isSome) :
    ∃ before created hex cron mid, pre = before ++ Event.create created hex cron :: mid ∧
      createCronTask lib created hex cron (exec (step lib) (State.init tasks) before) =
        .ok (cronId, step lib (exec (step lib) (State.init tasks) before) (.create created hex cron)) ∧
      Event.delete cronId ∉ mid := by
  have hnone : ¬ ((State.init tasks).crons.find? cronId).isSome := fun hsome => (nomatch hsome)
  obtain ⟨before, event, mid, rfl, habsent, hsince⟩ := exec_last_entry
    (P := fun s : State => ((s.crons.find? cronId).isSome = true)) hnone h
  obtain ⟨hbefore, hevent, _⟩ := eachStep_append.mp hserved
  obtain ⟨c, hc⟩ := Option.isSome_iff_exists.mp hsince.head
  rcases step_row hevent hc with ⟨created, hex, cron, rfl, hcreate⟩ | ⟨_, d, hd, _⟩
  · refine ⟨before, created, hex, cron, mid, rfl, hcreate, fun hin => ?_⟩
    obtain ⟨front, back, rfl⟩ := List.append_of_mem hin
    have hafter : front ++ Event.delete cronId :: back = (front ++ [Event.delete cronId]) ++ back := by simp
    rw [hafter] at hsince
    have hstill := hsince.after
    rw [exec_append] at hstill
    have hgone := Table.find_delete
      (exec (step lib) (step lib (exec (step lib) (State.init tasks) before) (.create created hex cron)) front).crons
      (fun c => c.id == cronId) cronId
    obtain ⟨d, hd⟩ := Option.isSome_iff_exists.mp hstill
    obtain ⟨hold, hkept⟩ := Option.filter_eq_some_iff.mp (hgone.symm.trans hd)
    have hid : d.id = cronId := Table.find_key hold
    simp [hid] at hkept
  · exact absurd (Option.isSome_iff_exists.mpr ⟨d, hd⟩) habsent

theorem tickTimes_append (is js : List Event) : tickTimes (is ++ js) = tickTimes is ++ tickTimes js :=
  List.filterMap_append

theorem tickTimes_tick (now : Int) (draws : String → Draw) (is : List Event) :
    tickTimes (.tick now draws :: is) = now :: tickTimes is := rfl

theorem booked_run {tasks : Db} (hserved : EachStep (step lib) (Served lib) (State.init tasks) pre) :
    Booked lib schedule (exec (step lib) (State.init tasks) pre) := by
  refine EachStep.invariant (fun _ _ h hserved => booked_step h hserved) ?_ hserved
  intro cronId c hrow
  cases hrow

/-- A task that waits for a match that has come by a tick is fired if it is enabled. -/
theorem Awaits.fires {created : Int} (h : Awaits lib schedule cronId created cron m s)
    (hserved : Served lib s (.tick now draws)) (hsound : cron.Sound lib schedule)
    (hm : m ∈ schedule cron.cronExpression) (hle : created ≤ m) (hnow : m ≤ now)
    (henabled : ∃ row, s.crons.find? cronId = some row ∧ row.enabled = true) :
    Fires lib s (.tick now draws) cronId := by
  obtain ⟨c, hrow, hexpression, htemplate, _, hwaits⟩ := h
  obtain ⟨row, hrow', henabled⟩ := henabled
  rw [hrow] at hrow'
  cases hrow'
  obtain ⟨n, hn, hnext⟩ := hwaits hsound.1 hm hle
  have hobject : c.hasTemplate lib.python = true := by
    rw [CronTask.hasTemplate, htemplate]
    exact hsound.2
  refine (fires_iff hserved).mpr ⟨now, draws, c, rfl, hrow, ?_⟩
  have hdue : c.due now = true := due_iff.mpr ⟨n, hnext, Int.le_trans hn hnow⟩
  simp [CronTask.starts, henabled, hdue, hobject]

/-- A firing that does not come at a match books a run in the future. -/
theorem fires_ahead {c : CronTask} (hbooked : Booked lib schedule s) (hserved : Served lib s (.tick now draws))
    (hoff : OffSchedule lib schedule s (.tick now draws)) (hrow : s.crons.find? c.id = some c)
    (hsound : c.Sound lib schedule) (hfires : Fires lib s (.tick now draws) c.id) :
    LooksAhead schedule c.id c.cronExpression now (step lib s (.tick now draws)) := by
  obtain ⟨hstarts, hrow', n, hn, hnext, hle, _⟩ := fires_books hserved hrow hsound.1 hfires
  have henabled : c.enabled = true := by
    simp only [CronTask.starts, Bool.and_eq_true] at hstarts
    exact hstarts.1.1
  obtain ⟨n', _, hbook, hcreated⟩ := hbooked c.id c hrow hsound.1
  obtain ⟨n'', hnow, hdue⟩ := starts_due hstarts
  rw [hbook] at hnow
  cases hnow
  have hmatch := hoff c (Table.find_some_iff.mp hrow).1 hsound henabled (Int.le_trans hcreated hdue)
  have hlt : now < n := by
    rcases Int.lt_or_eq_of_le hle with hlt | heq
    · exact hlt
    · exact absurd (heq ▸ hn) hmatch
  exact ⟨_, hrow', (fired_kept lib now c).2.1, n, hn, hlt, hnext⟩

/-- A firing at a match books the same match again. -/
theorem fires_again {c row : CronTask} {n : Int} (hserved : Served lib s (.tick now draws))
    (hrow : s.crons.find? cronId = some c) (hfollows : Follows lib schedule c.cronExpression)
    (hmatch : now ∈ schedule c.cronExpression) (hfires : Fires lib s (.tick now draws) cronId)
    (hrow' : (step lib s (.tick now draws)).crons.find? cronId = some row) (hn : row.nextRun = some n) : n ≤ now := by
  obtain ⟨_, hfired, n', _, hnext, _, hleast⟩ := fires_books hserved hrow hfollows hfires
  rw [hfired] at hrow'
  cases hrow'
  rw [hnext] at hn
  cases hn
  exact hleast now hmatch (Int.le_refl now)

/-- A tick at a match fires every enabled task of that schedule that was created by then. -/
theorem match_fires {tasks : Db} {c : CronTask} (hticks : (tickTimes (pre ++ .tick now draws :: post)).Pairwise (· < ·))
    (hserved : EachStep (step lib) (Served lib) (State.init tasks) (pre ++ .tick now draws :: post))
    (hrow : (exec (step lib) (State.init tasks) pre).crons.find? cronId = some c) (hsound : c.Sound lib schedule)
    (henabled : c.enabled = true) (hcreated : c.createdAt ≤ now) (hmatch : now ∈ schedule c.cronExpression) :
    Fires lib (exec (step lib) (State.init tasks) pre) (.tick now draws) cronId := by
  obtain ⟨hpre, htick, _⟩ := eachStep_append.mp hserved
  obtain ⟨before, created, hex, cron, mid, rfl, hcreate, hkept⟩ :=
    created_before hpre (Option.isSome_iff_exists.mpr ⟨c, hrow⟩)
  have hbefore : ∀ t ∈ tickTimes mid, t < now := by
    intro t ht
    rw [tickTimes_append, tickTimes_append, tickTimes_tick] at hticks
    exact (List.pairwise_append.mp hticks).2.2 t (List.mem_append_right _ ht) now List.mem_cons_self
  have hmid := (eachStep_append.mp hpre).2.2
  rw [exec_append, exec_cons] at hrow htick ⊢
  have hawaits : Awaits lib schedule cronId created cron now _ := awaits_from hcreate hmid hkept hbefore
  have hjob := hawaits
  obtain ⟨d, hd, hexpression, htemplate, hat, _⟩ := hjob
  rw [hrow] at hd
  cases hd
  have hsound' : cron.Sound lib schedule := by
    refine ⟨hexpression ▸ hsound.1, ?_⟩
    rw [CronTask.hasTemplate, ← htemplate]
    exact hsound.2
  exact hawaits.fires htick hsound' (hexpression ▸ hmatch) (hat ▸ hcreated) (Int.le_refl now) ⟨c, hrow, henabled⟩

end Runs

/-- In a run in which the clock of the ticks goes on and the task store raises nothing the scheduler is exact if and
only if no tick comes at a match. -/
theorem exact_iff (lib : Libraries) (schedule : String → Set Int) (tasks : Db) (events : List Event)
    (hticks : (tickTimes events).Pairwise (· < ·))
    (hserved : EachStep (step lib) (Served lib) (State.init tasks) events) :
    Exact lib schedule (State.init tasks) events ↔
      EachStep (step lib) (OffSchedule lib schedule) (State.init tasks) events := by
  constructor
  · intro h
    refine eachStep_iff.mpr fun pre event post he => ?_
    cases event with
    | create | delete | setEnabled => exact trivial
    | tick now draws =>
      intro c hc hsound henabled hcreated hmatch
      subst he
      have hrow : (exec (step lib) (State.init tasks) pre).crons.find? c.id = some c := Table.find_mem hc
      have hfires := match_fires hticks hserved hrow hsound henabled hcreated hmatch
      obtain ⟨row, n, hrow', hn, hlt⟩ := h.ahead pre now draws post rfl c hrow hsound hfires
      rw [exec_append] at hrow'
      have hle := fires_again (eachStep_append.mp hserved).2.1 hrow hsound.1 hmatch hfires hrow' hn
      exact absurd hlt (Int.not_lt.mpr hle)
  · intro hoff
    have hahead : ∀ pre now draws post, events = pre ++ Event.tick now draws :: post →
        ∀ cron, (exec (step lib) (State.init tasks) pre).crons.find? cron.id = some cron → cron.Sound lib schedule →
        Fires lib (exec (step lib) (State.init tasks) pre) (.tick now draws) cron.id →
        LooksAhead schedule cron.id cron.cronExpression now
          (step lib (exec (step lib) (State.init tasks) pre) (.tick now draws)) := by
      intro pre now draws post he cron hrow hsound hfires
      subst he
      obtain ⟨hpre, htick, _⟩ := eachStep_append.mp hserved
      exact fires_ahead (booked_run hpre) htick (eachStep_append.mp hoff).2.1 hrow hsound hfires
    refine ⟨?_, ?_, ?_⟩
    · intro pre now draws mid now' draws' post he cron hrow hsound hkept hfires hfires'
      have hlooks := hahead pre now draws (mid ++ .tick now' draws' :: post) (by simp [he]) cron hrow hsound hfires
      subst he
      obtain ⟨hfront, hlast, _⟩ := eachStep_append.mp hserved
      have hbehind : ∀ t ∈ tickTimes mid, now < t := by
        intro t ht
        rw [tickTimes_append, tickTimes_append, tickTimes_tick] at hticks
        have hpair := (List.pairwise_append.mp (List.pairwise_append.mp hticks).1).2.1
        exact List.rel_of_pairwise_cons hpair ht
      have hmid := looksAhead_run hsound.1 hlooks (eachStep_append.mp hfront).2.2 hkept hbehind
      rw [exec_append, exec_cons] at hfires' hlast
      exact hmid.before_firing hlast hfires'
    · intro pre now draws post he cron hrow hsound hfires
      obtain ⟨row, hrow', _, n, _, hlt, hnext⟩ := hahead pre now draws post he cron hrow hsound hfires
      exact ⟨row, n, by rw [exec_append]; exact hrow', hnext, hlt⟩
    · intro pre created hex cron mid now draws post he cronId s' hcreate hsound hkept m hm hle hnow hbefore henabled
      subst he
      obtain ⟨hfront, hlast, _⟩ := eachStep_append.mp hserved
      have hstep : step lib (exec (step lib) (State.init tasks) pre) (.create created hex cron) = s' := by
        simp [step, hcreate]
      have hmid := (eachStep_append.mp hfront).2.2
      rw [exec_append, exec_cons] at hlast henabled ⊢
      rw [hstep] at hlast henabled hmid ⊢
      exact (awaits_from hcreate hmid hkept hbefore).fires hlast hsound hm hle hnow henabled

section EveryMinute

/-- `croniter` of `* * * * *`, and a database that takes texts and whole numbers. -/
def everyMinute : Libraries where
  python := ⟨id, fun _ => true⟩
  croniter := fun expression base => if expression = "* * * * *" then some (60 * (base / 60 + 1)) else none
  bind := fun r => match r.title, r.body, r.priority with
    | .str title, .str body, .int priority => .ok { title, body, assignee := r.assignee, priority, createdBy := r.createdBy }
    | _, _, _ => .error .overflowError

def minutes (_ : String) : Set Int := {k | 60 ∣ k}

theorem everyMinute_follows : Follows everyMinute minutes "* * * * *" := by
  intro base
  refine ⟨60 * (base / 60 + 1), rfl, ⟨⟨base / 60 + 1, rfl⟩, by omega⟩, ?_⟩
  intro k hk
  obtain ⟨⟨j, rfl⟩, hlt⟩ := hk
  omega

/-- A task that is created at second 30, and two ticks. -/
def twoTicks (t u : Int) : List Event := [
  .create 30 "a1" ⟨"", "beat", "worker", "* * * * *", "{}", true, none, none, "ops", 0, none⟩,
  .tick t (fun _ => ⟨Clock.fixed t, "b1", t⟩),
  .tick u (fun _ => ⟨Clock.fixed u, "b2", u⟩)]

theorem served_of_fires {lib : Libraries} {s : State} {now : Int} {draws : String → Draw}
    (h : EachStep (fireOrLog lib now draws) (fun s cron => fires lib now draws s cron = true) s (loadDueCronTasks now s)) :
    Served lib s (.tick now draws) := by
  refine EachStep.imp (fun s cron hfires e he => ?_) h
  rw [fires, he] at hfires
  cases hfires

/-- The row of the task before the first tick. -/
def beat : CronTask :=
  ⟨"cron_a1", "beat", "worker", "* * * * *", "{}", true, none, some 60, "ops", 30, none⟩

theorem beat_sound : beat.Sound everyMinute minutes := ⟨everyMinute_follows, by decide⟩

theorem twoTicks_served (t u : Int)
    (ht : EachStep (fireOrLog everyMinute t (fun _ => ⟨Clock.fixed t, "b1", t⟩))
      (fun s cron => fires everyMinute t (fun _ => ⟨Clock.fixed t, "b1", t⟩) s cron = true)
      (exec (step everyMinute) (State.init Db.empty) ((twoTicks t u).take 1))
      (loadDueCronTasks t (exec (step everyMinute) (State.init Db.empty) ((twoTicks t u).take 1))))
    (hu : EachStep (fireOrLog everyMinute u (fun _ => ⟨Clock.fixed u, "b2", u⟩))
      (fun s cron => fires everyMinute u (fun _ => ⟨Clock.fixed u, "b2", u⟩) s cron = true)
      (exec (step everyMinute) (State.init Db.empty) ((twoTicks t u).take 2))
      (loadDueCronTasks u (exec (step everyMinute) (State.init Db.empty) ((twoTicks t u).take 2)))) :
    EachStep (step everyMinute) (Served everyMinute) (State.init Db.empty) (twoTicks t u) :=
  ⟨trivial, served_of_fires ht, served_of_fires hu, trivial⟩

/-- Ticks at the seconds 60 and 90 both fire the task, and no match is between them. -/
theorem fires_twice : (tickTimes (twoTicks 60 90)).Pairwise (· < ·) ∧
    EachStep (step everyMinute) (Served everyMinute) (State.init Db.empty) (twoTicks 60 90) ∧
    ¬ Exact everyMinute minutes (State.init Db.empty) (twoTicks 60 90) := by
  refine ⟨by decide, twoTicks_served 60 90 (by decide) (by decide), fun h => ?_⟩
  have hrow : (exec (step everyMinute) (State.init Db.empty) ((twoTicks 60 90).take 1)).crons.find? beat.id = some beat := by
    decide
  have hfirst : Fires everyMinute (exec (step everyMinute) (State.init Db.empty) ((twoTicks 60 90).take 1))
      (.tick 60 (fun _ => ⟨Clock.fixed 60, "b1", 60⟩)) beat.id := by
    unfold Fires Recorded
    decide
  have hsecond : Fires everyMinute (exec (step everyMinute) (State.init Db.empty) ((twoTicks 60 90).take 2))
      (.tick 90 (fun _ => ⟨Clock.fixed 90, "b2", 90⟩)) beat.id := by
    unfold Fires Recorded
    decide
  obtain ⟨m, ⟨j, rfl⟩, hlow, hhigh⟩ := h.spaced _ 60 _ [] 90 _ [] rfl beat hrow beat_sound (by simp) hfirst hsecond
  omega

/-- Ticks at the seconds 61 and 125 are off the schedule. -/
theorem exact_off_minutes : Exact everyMinute minutes (State.init Db.empty) (twoTicks 61 125) := by
  refine (exact_iff everyMinute minutes Db.empty (twoTicks 61 125) (by decide)
    (twoTicks_served 61 125 (by decide) (by decide))).mpr ⟨trivial, ?_, ?_, trivial⟩
  · intro cron _ _ _ _ hmatch
    obtain ⟨j, hj⟩ := hmatch
    omega
  · intro cron _ _ _ _ hmatch
    obtain ⟨j, hj⟩ := hmatch
    omega

end EveryMinute

end A2ARegistry.Orchestration.Cron
