import A2ARegistry.Orchestration.Store.Listing
import A2ARegistry.Orchestration.Proofs.Lifecycle

namespace A2ARegistry.Orchestration
open Base

/-- What a report demands of the row before it writes anything, and the values it writes. -/
structure Reportable (e : Engine) (t : Task) (now : Int) (new : TaskStatus) (value : Json)
    (bound : Option String) (retryAt : Option Int) : Prop where
  edge : new ∈ transitions t.status
  bind : e.bindFor t new value = some bound
  retry : nextRetry now t new = .ok retryAt
  kind : ¬ (t.status = .failed ∧ new = .ready)

theorem toOption_some {α ε : Type} {x : Except ε α} {a : α} : x.toOption = some a ↔ x = .ok a := by
  cases x <;> simp [Except.toOption]

section
variable {e : Engine} {db : Db} {clock : Clock} {id : String} {new : TaskStatus} {value : Json}

theorem reportStatus_some {db' : Db} (h : reportStatus e db clock id new value = some db') :
    ∃ t bound retryAt kind, db.task? id = some t ∧ Reportable e t clock.now new value bound retryAt ∧
      eventKind t.status new = .ok kind ∧ db' = writeReport db clock t new value bound retryAt kind := by
  simp only [reportStatus, Option.bind_eq_bind, Option.bind_eq_some_iff, toOption_some] at h
  obtain ⟨t, ht, u, hv, bound, hb, retryAt, hr, kind, hk, he⟩ := h
  cases he
  obtain ⟨new', hedge, hval⟩ := validate_ok_iff.mp hv
  have hnew := TaskStatus.value_injective hval
  subst hnew
  exact ⟨t, bound, retryAt, kind, ht, ⟨hedge, hb, hr, eventKind_ok_iff.mp ⟨kind, hk⟩⟩, hk, rfl⟩

theorem reportStatus_ok {t : Task} {bound : Option String} {retryAt : Option Int}
    (ht : db.task? id = some t) (h : Reportable e t clock.now new value bound retryAt) :
    ∃ kind, reportStatus e db clock id new value =
      some (writeReport db clock t new value bound retryAt kind) := by
  obtain ⟨kind, hk⟩ := eventKind_ok_iff.mpr h.kind
  refine ⟨kind, ?_⟩
  have hv := validate_ok_iff.mpr ⟨new, h.edge, rfl⟩
  simp only [reportStatus, ht, hv, h.bind, h.retry, hk, Except.toOption, Option.bind_eq_bind,
    Option.bind_some]
  rfl

variable (db clock new value)

theorem reportMove_links (t : Task) (bound : Option String) (retryAt : Option Int) (kind : String) :
    (reportMove db clock t new value bound retryAt kind).links = db.links := by
  simp only [reportMove, links_emitEvent, Db.links_setTask, finishRun_links]

variable {db}

theorem reportMove_task {t : Task} (ht : db.task? t.id = some t) (bound : Option String)
    (retryAt : Option Int) (kind : String) (k : String) :
    (reportMove db clock t new value bound retryAt kind).task? k =
      if k = t.id then some (t.report clock.now new value bound retryAt) else db.task? k := by
  simp only [reportMove, task_emitEvent, Db.task_setTask, finishRun_task]
  by_cases hk : k = t.id
  · simp [hk, ht]
  · simp [hk]

/-- The reported row itself, and the settled children of a task that completes. -/
theorem writeReport_task {t : Task} (ht : db.task? t.id = some t) (bound : Option String)
    (retryAt : Option Int) (kind : String) (k : String) :
    (writeReport db clock t new value bound retryAt kind).task? k =
      if k = t.id then some (t.report clock.now new value bound retryAt)
      else (db.task? k).map (fun u => if new = .completed ∧ k ∈ childIds db t.id then
        settle (writeReport db clock t new value bound retryAt kind) u else u) := by
  have hmoved := reportMove_task clock new value ht bound retryAt kind k
  by_cases hn : new = .completed
  · have hw : writeReport db clock t new value bound retryAt kind =
        resolveChildren (reportMove db clock t new value bound retryAt kind) clock t.id := by
      simp [writeReport, hn]
    have hs : ∀ u, settle (writeReport db clock t new value bound retryAt kind) u =
        settle (reportMove db clock t new value bound retryAt kind) u := by
      intro u
      rw [hw]
      exact settle_congr (parentsDone_resolveChildren ..)
    have hc : childIds (reportMove db clock t new value bound retryAt kind) t.id =
        childIds db t.id := by
      simp only [childIds, reportMove_links]
    simp only [hs]
    rw [hw, resolveChildren_task, hmoved, hc]
    by_cases hk : k = t.id
    · simp [hk, settle, Task.report, hn]
    · simp [hk, hn]
  · have hw : writeReport db clock t new value bound retryAt kind =
        reportMove db clock t new value bound retryAt kind := by
      simp [writeReport, hn]
    rw [hw, hmoved]
    simp [hn]

variable {clock new value}

/-- What a report does to a row: it reports the status of its own task and settles others. -/
inductive ReportStep (e : Engine) (db' : Db) (now : Int) (id : String) (new : TaskStatus) (value : Json)
    (t : Task) : Task → Prop
  | same : ReportStep e db' now id new value t t
  | settled : ReportStep e db' now id new value t (settle db' t)
  | reported (own : t.id = id) (ok : Reportable e t now new value bound retryAt) :
      ReportStep e db' now id new value t (t.report now new value bound retryAt)

theorem report_row {db' : Db} (h : reportStatus e db clock id new value = some db') {k : String}
    {t : Task} (ht : db.task? k = some t) :
    ∃ t', db'.task? k = some t' ∧ ReportStep e db' clock.now id new value t t' := by
  obtain ⟨u, bound, retryAt, kind, hu, hr, _, rfl⟩ := reportStatus_some h
  have hid := Db.task_id hu
  subst hid
  have hrow := writeReport_task clock new value hu bound retryAt kind k
  by_cases hk : k = u.id
  · subst hk
    rw [ht] at hu
    cases hu
    exact ⟨_, by rw [hrow, if_pos rfl], ReportStep.reported rfl hr⟩
  · rw [if_neg hk, ht, Option.map_some] at hrow
    split at hrow
    · exact ⟨_, hrow, ReportStep.settled⟩
    · exact ⟨_, hrow, ReportStep.same⟩

/-- A report keeps the row of a finished task as any call does. -/
theorem ReportStep.settled_row {db' : Db} {now : Int} {t t' : Task}
    (h : ReportStep e db' now id new value t t') : Settled t t' := by
  cases h with
  | same => exact Settled.refl t
  | settled =>
    rcases settle_cases db' t with ⟨hs, _, he⟩ | ⟨hs, _, he⟩ | ⟨_, _, he⟩
    · rw [he]
      exact ⟨by simp [hs], by simp [hs], by simp [hs], fun _ => rfl⟩
    · rw [he]
      exact ⟨by simp [hs], by simp [hs], by simp [hs], fun _ => rfl⟩
    · rw [he]
      exact Settled.refl t
  | @reported bound retryAt own ok =>
    have hedge := ok.edge
    refine ⟨fun hs => ?_, fun hs => ?_, fun hs => ?_, fun hs => ?_⟩
    · simp only [hs, transitions, List.mem_singleton] at hedge
      exact Or.inr hedge
    · simp only [hs, transitions, List.mem_singleton] at hedge
      exact Or.inr hedge
    · simp only [hs, transitions, List.not_mem_nil] at hedge
    · have hnew : new ≠ .completed := by
        intro hn
        rcases hs with hs | hs <;> simp [transitions, hs, hn] at hedge
      simp [Task.report, hnew]

end

theorem truthy_ofText (r : Option String) : (Json.ofText r).truthy = truthy r := by
  cases r <;> rfl

theorem bind_ofText (e : Engine) (r : Option String) : e.bind (Json.ofText r) = some r := by
  cases r <;> rfl

/-- For a text the report is the update it models. -/
theorem writeReport_text (db : Db) (clock : Clock) (t : Task) (new : TaskStatus) (r : Option String)
    (bound : Option String) (retryAt : Option Int) (kind : String)
    {e : Engine} (hb : e.bindFor t new (.ofText r) = some bound) :
    writeReport db clock t new (.ofText r) bound retryAt kind =
      writeStatus db clock t new { result := r } retryAt kind := by
  rw [Engine.bindFor, bind_ofText] at hb
  have hrow : ∀ u : Task, u.report clock.now new (.ofText r) bound retryAt =
      u.move clock.now new r retryAt := by
    intro u
    cases new with
    | failed =>
      simp only [Task.binds, if_true, Option.some.injEq] at hb
      simp [Task.report, Task.move, hb]
    | completed =>
      simp only [Task.report, Task.move, truthy_ofText]
      by_cases hr : truthy r = true
      · simp only [Task.binds, truthy_ofText, hr, Bool.or_true, if_true, Option.some.injEq] at hb
        simp [hb]
      · simp [hr]
    | _ => simp [Task.report, Task.move]
  have hrun : finishRun db clock.now t new { result := bound } =
      finishRun db clock.now t new { result := r } := by
    unfold finishRun
    split
    · cases hc : t.currentRunId with
      | none => rfl
      | some n =>
        have hbinds : t.binds new (.ofText r) = true := by
          rename_i hnew
          rcases hnew with rfl | rfl
          · simp [Task.binds, hc]
          · rfl
        rw [hbinds, if_pos rfl] at hb
        cases hb
        rfl
    · rfl
  have hmove : reportMove db clock t new (.ofText r) bound retryAt kind =
      moveStatus db clock t new { result := r } retryAt kind := by
    simp only [reportMove, moveStatus, hrow, hrun]
  simp only [writeReport, writeStatus, hmove]

/-- A report with a text, or with nothing, is the call of `update_task_status` it stands for. -/
theorem reportStatus_text (e : Engine) (db : Db) (clock : Clock) (id : String) (new : TaskStatus)
    (r : Option String) : reportStatus e db clock id new (.ofText r) =
      (updateTaskStatus db clock id new.value { result := r }).toOption.map Prod.snd := by
  cases h : updateTaskStatus db clock id new.value { result := r } with
  | ok res =>
    obtain ⟨t, new', retryAt, kind, ht, hv, ha, hk, he⟩ := updateTaskStatus_wrote h
    have hnew := TaskStatus.value_injective hv
    subst hnew
    obtain ⟨bound, hb⟩ : ∃ bound, e.bindFor t new' (.ofText r) = some bound := by
      rw [Engine.bindFor, bind_ofText]
      split
      · exact ⟨r, rfl⟩
      · exact ⟨none, rfl⟩
    have hval := validate_ok_iff.mpr ⟨new', ha.edge, rfl⟩
    simp only [reportStatus, ht, hval, hb, ha.retry, hk, Except.toOption,
      Option.bind_eq_bind, Option.bind_some, Option.map_some]
    exact congrArg some ((writeReport_text db clock t new' r bound retryAt kind hb).trans he.symm)
  | error err =>
    cases hr : reportStatus e db clock id new (.ofText r) with
    | none => rfl
    | some db' =>
      obtain ⟨t, bound, retryAt, kind, ht, hrep, hk, _⟩ := reportStatus_some hr
      have hacc : Accepted t clock.now new .null retryAt :=
        ⟨hrep.edge, by simp [lockRefused, Json.truthy], hrep.kind, hrep.retry⟩
      have hok : ∃ view kind', updateTaskStatus db clock id new.value { result := r } =
          .ok (view, writeStatus db clock t new { result := r } retryAt kind') :=
        updateTaskStatus_accepted ht hacc
      obtain ⟨view, kind', hok⟩ := hok
      rw [h] at hok
      cases hok

section
variable {e : Engine} {db : Db} {clock : Clock} {id : String} {new : TaskStatus} {value : Json} {t : Task}

/-- The row of the task after a report that goes through. -/
theorem reportStatus_own {db' : Db} (ht : db.task? id = some t)
    (h : reportStatus e db clock id new value = some db') : ∃ bound retryAt,
      Reportable e t clock.now new value bound retryAt ∧
        db'.task? id = some (t.report clock.now new value bound retryAt) := by
  obtain ⟨u, bound, retryAt, kind, hu, hr, _, rfl⟩ := reportStatus_some h
  rw [ht] at hu
  cases hu
  have hid := Db.task_id ht
  subst hid
  exact ⟨bound, retryAt, hr, by rw [writeReport_task clock new value ht, if_pos rfl]⟩

theorem reportStatus_isSome (ht : db.task? id = some t) :
    (reportStatus e db clock id new value).isSome ↔
      ∃ bound retryAt, Reportable e t clock.now new value bound retryAt := by
  constructor
  · intro h
    obtain ⟨db', h⟩ := Option.isSome_iff_exists.mp h
    obtain ⟨bound, retryAt, hr, _⟩ := reportStatus_own ht h
    exact ⟨bound, retryAt, hr⟩
  · rintro ⟨bound, retryAt, hr⟩
    obtain ⟨kind, h⟩ := reportStatus_ok ht hr
    rw [h]
    rfl

end

end A2ARegistry.Orchestration
