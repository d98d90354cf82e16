import A2ARegistry.Server.Proofs.Reconcile

namespace A2ARegistry.Server
open Base Orchestration

/-- The words of an outcome, successes first. -/
def successWords : List String := ["completed", "success", "done"]

def failureWords : List String := ["failed", "error"]

/-- An outcome reported about a task: the fields of the message, what its handler passes on, and
the clock of the store call. -/
structure Reported where
  fields : List (String × Json)
  outcome : Outcome
  clock : Clock

/-- What the callback endpoint passes on. -/
def callbackOutcome (body : List (String × Json)) : Outcome :=
  if callbackFailed body then { status := .str "failed", error := callbackError body }
  else { status := .str "completed", result := Json.get body "result" .null }

/-- The outcome an event reports about the task, over the WebSocket or the callback endpoint. -/
def Event.reported (s : RegistryHandler) (k : String) : Event → Option Reported
  | .message _ data around =>
    (messageType data).bind fun type =>
      if messageId data = some k then
        ((messageOutcome data type).filter
          (fun o => o.status.isWord (successWords ++ failureWords))).map
            (fun o => ⟨data, o, around.clocks k⟩)
      else none
  | .callbackEnds taskId clock (some body) =>
    if taskId = k ∧ k ∈ s.callbacks ∧ (s.record? k).isSome then some ⟨body, callbackOutcome body, clock⟩
    else none
  | _ => none

/-- The text a column holds for a result: a text is its own, other values are dumped. -/
def resultColumn (e : Engine) : Json → Option String
  | .null => none
  | .str s => some s
  | .bool b => some (if b then "true" else "false")
  | .int n => some (toString n)
  | .float r => some r
  | value => some (e.dumps value)

/-- The V1 outcome of the task and its kanban row tell the same. -/
structure Reflected (e : Engine) (s : RegistryHandler) (k : String) (r : Reported) : Prop where
  success : ∀ t row, s.record? k = some t → s.taskStore.task? k = some row →
    t.state.isWord successWords = true → row.status = .completed ∧
      ∀ text, resultColumn e r.outcome.result = some text → row.result = some text
  failure : ∀ t row, s.record? k = some t → s.taskStore.task? k = some row →
    t.state.isWord failureWords = true → row.status = .failed ∧
      ∀ text, Json.get r.fields "error" .null = .str text → text ≠ "" → row.lastFailureError = some text

/-- The results a completion stores as they are. A falsy one is not written, and binding a list
raises; a boolean is bound as 0 or 1, a float as the text SQLite makes of it. -/
def Kept (e : Engine) (row : Task) : Json → Prop
  | .null | .obj _ => True
  | .str s => s = "" → row.result = some ""
  | .bool b => b = false ∧ row.result = some "false"
  | .int n => if n = 0 then row.result = some "0" else fitsInteger n = true
  | .float r => if (Json.float r).truthy then e.realText r = some r else row.result = some r
  | .arr items => items = [] ∧ row.currentRunId = none ∧ row.result = some (e.dumps (.arr []))

/-- The exponential backoff of the failure does not fit a float. -/
def Overflows (row : Task) : Prop :=
  ∃ limit, row.maxRetries = some limit ∧ ((row.consecutiveFailures + 1 : Nat) : Int) ≤ limit ∧
    1024 ≤ row.consecutiveFailures

/-- The failures that are stored with their error: there is a result beside the error, or the
error is the text that stands in for one. -/
structure FailureKept (e : Engine) (row : Task) (r : Reported) : Prop where
  backoff : ¬ Overflows row
  bind : r.outcome.result.truthy = true → r.outcome.error.truthy = true →
    (e.bind r.outcome.error).isSome
  error : ∀ text, Json.get r.fields "error" .null = .str text → text ≠ "" →
    r.outcome.result.truthy = true ∨ text = "Agent reported failure"

/-- The outcomes that reach the kanban row; `done` is a word `_reconcile_task_store` does not know. -/
def Carried (e : Engine) (row : Task) (r : Reported) : Prop :=
  if r.outcome.status.isWord ["completed", "success"] then Kept e row r.outcome.result
  else r.outcome.status.isWord failureWords = true ∧ FailureKept e row r

section
variable {e : Engine} {s : RegistryHandler} {k : String} {ev : Event} {r : Reported}

/-- The handler of an outcome puts its word in the entry. -/
theorem messageOutcome_change {data : List (String × Json)} {type : MessageType} {o : Outcome}
    (h : messageOutcome data type = some o)
    (hw : o.status.isWord (successWords ++ failureWords) = true) :
    ∃ change, messageChange data type = some change ∧ change.state = o.status := by
  cases type with
  | taskAck =>
    cases h
    simp [Json.isWord, successWords, failureWords, TaskStatus.value] at hw
  | taskProgress | stateSync => cases h
  | taskComplete | taskFail | taskResult =>
    cases h
    exact ⟨_, rfl, rfl⟩

theorem reportTask_record (clock : Clock) (agentId : String) (change : Change)
    (outcome : Option Outcome) (resets : Bool) :
    ∃ t, (reportTask e s agentId clock k change outcome resets).record? k = some t ∧
      t.state = change.state := by
  have hm := memory_reportTask e s clock k agentId change outcome resets
  have ht := congrArg (Table.find? · k) (congrArg Memory.tasks hm :)
  have hr := (ht.trans (RegistryHandler.record_writeRecord s agentId k change k)).trans (if_pos rfl)
  exact ⟨_, hr, rfl⟩

theorem callbackOutcome_state (body : List (String × Json)) :
    (callbackChange body).state = (callbackOutcome body).status ∧
      (callbackOutcome body).status.isWord (successWords ++ failureWords) = true := by
  unfold callbackChange callbackOutcome
  split <;> exact ⟨rfl, rfl⟩

/-- What a callback result does to the kanban board is its outcome. -/
theorem finishCallback_store (clock : Clock) (taskId : String) (body : List (String × Json)) :
    (finishCallback e s clock taskId body).taskStore =
      boardAfter e s.taskStore clock taskId (s.isDispatched taskId) ((callbackOutcome body).update e) := by
  unfold finishCallback callbackOutcome
  dsimp only
  split
  · exact kanban_store e ((s.setRecord taskId (callbackChange body)).cancelTaskTimeout taskId) clock taskId
      { status := .str "failed", error := callbackError body } rfl
  · exact kanban_store e ((s.setRecord taskId (callbackChange body)).cancelTaskTimeout taskId) clock taskId
      { status := .str "completed", result := Json.get body "result" .null } rfl

/-- The entry of the task shows the outcome, and the kanban board got it. -/
theorem reported_step (e : Engine) (h : ev.reported s k = some r) :
    (∃ t, (ev.step e s).record? k = some t ∧ t.state = r.outcome.status) ∧
    (ev.step e s).taskStore =
      boardAfter e s.taskStore r.clock k (s.isDispatched k) (r.outcome.update e) ∧
    r.outcome.status.isWord (successWords ++ failureWords) = true := by
  cases ev with
  | message agentId data around =>
    simp only [Event.reported, Option.bind_eq_some_iff] at h
    obtain ⟨type, hty, h⟩ := h
    split at h
    · rename_i hid
      obtain ⟨o, ho, rfl⟩ := Option.map_eq_some_iff.mp h
      obtain ⟨ho, hword⟩ := Option.filter_eq_some_iff.mp ho
      obtain ⟨change, hc, hstate⟩ := messageOutcome_change ho hword
      have hstep : (Event.message agentId data around).step e s =
          reportTask e s agentId (around.clocks k) k change (some o) type.resets := by
        simp only [Event.step, hty, handleMessage_task e s agentId around hc, hid, ho]
      rw [hstep]
      refine ⟨?_, reportTask_store .., hword⟩
      rw [← hstate]
      exact reportTask_record ..
    · cases h
  | callbackEnds taskId clock body =>
    cases body with
    | none => cases h
    | some body =>
      simp only [Event.reported] at h
      split at h
      · rename_i hcond
        obtain ⟨rfl, hmem, hsome⟩ := hcond
        cases h
        obtain ⟨t, ht⟩ := Option.isSome_iff_exists.mp hsome
        have hw := (step_writes e s (.callbackEnds taskId clock (some body))).entry taskId t ht
        have hid := Memory.record_id ht
        simp only [Event.assigns, hid, hmem, and_self, if_true, Option.map_some] at hw
        obtain ⟨hstate, hword⟩ := callbackOutcome_state body
        refine ⟨⟨_, hw, hstate⟩, ?_, hword⟩
        simp only [Event.step, endCallback, hmem, if_true]
        exact finishCallback_store ..
      · cases h
  | _ => cases h

theorem get_of_str {fields : List (String × Json)} {name text : String} (default : Json)
    (h : Json.get fields name .null = .str text) : Json.get fields name default = .str text := by
  unfold Json.get at *
  cases hf : fields.find? (fun f => f.1 == name) with
  | none => simp [hf] at h
  | some f => simpa [hf] using h

/-- The error text of a failure is what its handler passes on. -/
theorem reported_error (h : ev.reported s k = some r)
    (hw : r.outcome.status.isWord failureWords = true) {text : String}
    (he : Json.get r.fields "error" .null = .str text) (hne : text ≠ "") :
    r.outcome.error = .str text := by
  cases ev with
  | message agentId data around =>
    simp only [Event.reported, Option.bind_eq_some_iff] at h
    obtain ⟨type, _, h⟩ := h
    split at h
    · obtain ⟨o, ho, rfl⟩ := Option.map_eq_some_iff.mp h
      have ho := (Option.filter_eq_some_iff.mp ho).1
      cases type with
      | taskAck | taskComplete =>
        cases ho
        simp [Json.isWord, failureWords, TaskStatus.value] at hw
      | taskProgress | stateSync => cases ho
      | taskFail | taskResult =>
        cases ho
        exact get_of_str _ he
    · cases h
  | callbackEnds taskId clock body =>
    cases body with
    | none => cases h
    | some body =>
      simp only [Event.reported] at h
      split at h
      · cases h
        have htruthy : (Json.get body "error" .null).truthy = true := by
          rw [he]
          simpa [Json.truthy] using hne
        simp only [callbackOutcome, callbackFailed, htruthy, Bool.or_true, if_true, callbackError]
        exact he
      · cases h
  | _ => cases h

end

section
variable {e : Engine} {row : Task}

theorem nextRetry_failed_iff (now : Int) :
    (∃ retryAt, nextRetry now row .failed = .ok retryAt) ↔ ¬ Overflows row := by
  cases hm : row.maxRetries with
  | none => simp [nextRetry, Overflows, hm]
  | some limit =>
    have hnext : nextRetry now row .failed =
        if ((row.consecutiveFailures + 1 : Nat) : Int) ≤ limit then
          (backoffDelay (row.consecutiveFailures + 1)).map (fun delay => some (now + delay))
        else .ok none := by
      simp only [nextRetry, hm]
    have hover : Overflows row ↔
        ((row.consecutiveFailures + 1 : Nat) : Int) ≤ limit ∧ 1024 ≤ row.consecutiveFailures := by
      simp only [Overflows, hm, Option.some.injEq, exists_eq_left']
    rw [hnext, hover, backoffDelay, Nat.add_sub_cancel]
    by_cases hl : ((row.consecutiveFailures + 1 : Nat) : Int) ≤ limit
    · rw [if_pos hl]
      by_cases ho : 1024 ≤ row.consecutiveFailures
      · rw [if_pos ho]
        simp only [Except.map, reduceCtorEq, exists_false, hl, ho, and_self, not_true_eq_false]
      · rw [if_neg ho]
        simp only [Except.map, Except.ok.injEq, exists_eq', ho, and_false, not_false_eq_true]
    · rw [if_neg hl]
      simp only [Except.ok.injEq, exists_eq', hl, false_and, not_false_eq_true]

/-- A running task can be completed with whatever can be bound. -/
theorem reportable_completed_iff (hs : row.status = .running) {now : Int} {value : Json}
    {bound : Option String} {retryAt : Option Int} :
    Reportable e row now .completed value bound retryAt ↔
      e.bindFor row .completed value = some bound ∧ retryAt = none := by
  constructor
  · intro h
    have hr := h.retry
    simp only [nextRetry, Except.ok.injEq] at hr
    exact ⟨h.bind, hr.symm⟩
  · rintro ⟨hb, rfl⟩
    exact ⟨by simp [hs, transitions], hb, rfl, by simp [hs]⟩

theorem reportable_failed_iff (hs : row.status = .running) {now : Int} {value : Json}
    {bound : Option String} {retryAt : Option Int} :
    Reportable e row now .failed value bound retryAt ↔
      e.bind value = some bound ∧ nextRetry now row .failed = .ok retryAt := by
  constructor
  · intro h
    exact ⟨by simpa [Engine.bindFor, Task.binds] using h.bind, h.retry⟩
  · rintro ⟨hb, hr⟩
    exact ⟨by simp [hs, transitions], by simpa [Engine.bindFor, Task.binds] using hb, hr, by simp [hs]⟩

theorem completionValue_truthy (e : Engine) (fields : List (String × Json)) :
    (completionValue e (.obj fields)).truthy = true := by
  simp [completionValue, Json.truthy, e.dumps_ne]

/-- What is kept can be bound. -/
theorem Kept.binds {result : Json} (h : Kept e row result) :
    ∃ bound, e.bindFor row .completed (completionValue e result) = some bound := by
  unfold Engine.bindFor
  split
  · rename_i hb
    cases result with
    | arr items =>
      obtain ⟨rfl, hrun, _⟩ := h
      simp [Task.binds, completionValue, hrun, Json.truthy] at hb
    | int n =>
      have hfits : fitsInteger n = true := by
        by_cases hn : n = 0
        · rw [hn]
          rfl
        · simpa [Kept, hn] using h
      exact ⟨some (toString n), by simp [completionValue, Engine.bind, hfits]⟩
    | null | bool | float | str | obj => exact ⟨_, rfl⟩
  · exact ⟨none, rfl⟩

/-- The column holds the reported result after a completion exactly when it is kept. -/
theorem kept_iff {result : Json} {bound : Option String}
    (hb : e.bindFor row .completed (completionValue e result) = some bound) :
    (∀ text, resultColumn e result = some text →
      (if (completionValue e result).truthy then bound else row.result) = some text) ↔
    Kept e row result := by
  have htruthy : (completionValue e result).truthy = true → e.bind (completionValue e result) = some bound := by
    intro ht
    simpa [Engine.bindFor, Task.binds, ht] using hb
  cases result with
  | null => simp [resultColumn, Kept]
  | str t =>
    by_cases ht : t = ""
    · simp [resultColumn, Kept, completionValue, Json.truthy, ht]
    · have := htruthy (by simp [completionValue, Json.truthy, ht])
      simp only [completionValue, Engine.bind, Option.some.injEq] at this
      simp [resultColumn, Kept, completionValue, Json.truthy, ht, ← this]
  | bool b =>
    cases b with
    | false => simp [resultColumn, Kept, completionValue, Json.truthy]
    | true =>
      have := htruthy rfl
      simp only [completionValue, Engine.bind, Option.some.injEq] at this
      simp [resultColumn, Kept, completionValue, Json.truthy, ← this]
  | int n =>
    by_cases hn : n = 0
    · have hzero : Int.repr 0 = "0" := rfl
      simp [resultColumn, Kept, completionValue, Json.truthy, hn, hzero]
    · have := htruthy (by simp [completionValue, Json.truthy, hn])
      simp only [completionValue, Engine.bind] at this
      split at this
      · rename_i hf
        cases this
        simp [resultColumn, Kept, completionValue, Json.truthy, hn, hf]
      · cases this
  | float r =>
    cases ht : (Json.float r).truthy with
    | false => simp [resultColumn, Kept, completionValue, ht]
    | true =>
      have := htruthy ht
      simp only [completionValue, Engine.bind, Option.some.injEq] at this
      simp [resultColumn, Kept, completionValue, ht, this]
  | arr items =>
    have hnone : row.currentRunId.isSome = false ∧ (Json.arr items).truthy = false := by
      unfold Engine.bindFor at hb
      split at hb
      · cases hb
      · rename_i hn
        simpa [Task.binds, completionValue] using hn
    have hitems : items = [] := by simpa [Json.truthy] using hnone.2
    have hrun : row.currentRunId = none := by simpa using hnone.1
    subst hitems
    simp [resultColumn, Kept, completionValue, Json.truthy, hrun]
  | obj fields =>
    have := htruthy (completionValue_truthy e fields)
    simp only [completionValue, Engine.bind, Option.some.injEq] at this
    simp [resultColumn, Kept, completionValue_truthy, ← this]

theorem failureValue_binds_iff (result error : Json) :
    (∃ bound, e.bind (failureValue e result error) = some bound) ↔
      (result.truthy = true → error.truthy = true → (e.bind error).isSome) := by
  unfold failureValue
  cases hr : result.truthy with
  | false => simp [Engine.bind]
  | true =>
    cases he : error.truthy with
    | false => simp [Engine.bind]
    | true => simp [Option.isSome_iff_exists]

/-- The three kinds of outcome words: two successes and two failures are passed on, and `done`. -/
inductive Outcome.Kind (e : Engine) (o : Outcome) : Prop
  | completed (word : o.status.isWord ["completed", "success"] = true)
      (success : o.status.isWord successWords = true) (failure : o.status.isWord failureWords = false)
      (update : o.update e = some (.completed, completionValue e o.result))
  | failed (word : o.status.isWord ["completed", "success"] = false)
      (success : o.status.isWord successWords = false) (failure : o.status.isWord failureWords = true)
      (update : o.update e = some (.failed, failureValue e o.result o.error))
  | ignored (word : o.status.isWord ["completed", "success"] = false)
      (success : o.status.isWord successWords = true) (failure : o.status.isWord failureWords = false)
      (update : o.update e = none)

theorem outcome_kind (e : Engine) {o : Outcome}
    (h : o.status.isWord (successWords ++ failureWords) = true) : o.Kind e := by
  obtain ⟨w, hmem, hword⟩ := Json.isWord_iff.mp h
  simp only [successWords, failureWords, List.cons_append, List.nil_append, List.mem_cons,
    List.not_mem_nil, or_false] at hmem
  rcases hmem with rfl | rfl | rfl | rfl | rfl
  · exact .completed (by rw [hword]; rfl) (by rw [hword]; rfl) (by rw [hword]; rfl)
      (by simp [Outcome.update, hword, Json.isWord])
  · exact .completed (by rw [hword]; rfl) (by rw [hword]; rfl) (by rw [hword]; rfl)
      (by simp [Outcome.update, hword, Json.isWord])
  · exact .ignored (by rw [hword]; rfl) (by rw [hword]; rfl) (by rw [hword]; rfl)
      (by simp [Outcome.update, hword, Json.isWord])
  · exact .failed (by rw [hword]; rfl) (by rw [hword]; rfl) (by rw [hword]; rfl)
      (by simp [Outcome.update, hword, Json.isWord])
  · exact .failed (by rw [hword]; rfl) (by rw [hword]; rfl) (by rw [hword]; rfl)
      (by simp [Outcome.update, hword, Json.isWord])

variable {db : Db} {k : String}

/-- The board after a report on the task: its row is reported, or nothing is. -/
theorem boardAfter_own (e : Engine) (clock : Clock) (hrow : db.task? k = some row) (new : TaskStatus)
    (value : Json) : (∃ bound retryAt, Reportable e row clock.now new value bound retryAt ∧
      (boardAfter e db clock k true (some (new, value))).task? k =
        some (row.report clock.now new value bound retryAt)) ∨
    ((¬ ∃ bound retryAt, Reportable e row clock.now new value bound retryAt) ∧
      boardAfter e db clock k true (some (new, value)) = db) := by
  cases h : reportStatus e db clock k new value with
  | some db' =>
    obtain ⟨bound, retryAt, hr, ht⟩ := reportStatus_own hrow h
    exact Or.inl ⟨bound, retryAt, hr, by simpa [boardAfter, h] using ht⟩
  | none =>
    refine Or.inr ⟨fun hr => ?_, by simp [boardAfter, h]⟩
    have := (reportStatus_isSome hrow).mpr hr
    rw [h] at this
    cases this

/-- A completion ends in a completed row with the result exactly when the result is kept. -/
theorem completion_iff (clock : Clock) (hrow : db.task? k = some row) (hs : row.status = .running)
    (result : Json) : (∀ row',
      (boardAfter e db clock k true (some (.completed, completionValue e result))).task? k = some row' →
      row'.status = .completed ∧
        ∀ text, resultColumn e result = some text → row'.result = some text) ↔ Kept e row result := by
  rcases boardAfter_own e clock hrow .completed (completionValue e result) with
    ⟨bound, retryAt, hr, ht⟩ | ⟨hn, hsame⟩
  · have hb := ((reportable_completed_iff hs).mp hr).1
    rw [← kept_iff hb, ht]
    constructor
    · intro h text htext
      have := (h _ rfl).2 text htext
      simpa [Task.report] using this
    · rintro h _ ⟨⟩
      refine ⟨rfl, fun text htext => ?_⟩
      have := h text htext
      simpa [Task.report] using this
  · rw [hsame]
    constructor
    · intro h
      have := (h row hrow).1
      rw [hs] at this
      cases this
    · intro hk
      obtain ⟨bound, hb⟩ := hk.binds
      exact absurd ⟨bound, none, (reportable_completed_iff hs).mpr ⟨hb, rfl⟩⟩ hn

/-- A failure ends in a failed row with its error exactly when it can be bound, its backoff can
be computed, and the error is not dropped for want of a result. -/
theorem failure_iff (clock : Clock) (result : Json) (hrow : db.task? k = some row)
    (hs : row.status = .running) {error raw : Json} (herror : ∀ text, raw = .str text → text ≠ "" → error = .str text) :
    (∀ row', (boardAfter e db clock k true (some (.failed, failureValue e result error))).task? k =
        some row' → row'.status = .failed ∧
          ∀ text, raw = .str text → text ≠ "" → row'.lastFailureError = some text) ↔
      ¬ Overflows row ∧ (result.truthy = true → error.truthy = true → (e.bind error).isSome) ∧
        ∀ text, raw = .str text → text ≠ "" →
          result.truthy = true ∨ text = "Agent reported failure" := by
  rw [← failureValue_binds_iff, ← nextRetry_failed_iff clock.now]
  rcases boardAfter_own e clock hrow .failed (failureValue e result error) with
    ⟨bound, retryAt, hr, ht⟩ | ⟨hn, hsame⟩
  · obtain ⟨hb, hretry⟩ := (reportable_failed_iff hs).mp hr
    have hbound : ∀ text, raw = .str text → text ≠ "" →
        (bound = some text ↔ result.truthy = true ∨ text = "Agent reported failure") := by
      intro text htext hne
      rw [herror text htext hne] at hb
      have htruthy : (Json.str text).truthy = true := by simpa [Json.truthy] using hne
      cases hres : result.truthy with
      | true =>
        simp only [failureValue, hres, htruthy, if_true, Engine.bind, Option.some.injEq] at hb
        simp [hb]
      | false =>
        simp only [failureValue, hres, Bool.false_eq_true, if_false, Engine.bind, Option.some.injEq] at hb
        simp [← hb, eq_comm]
    rw [ht]
    constructor
    · intro h
      refine ⟨⟨retryAt, hretry⟩, ⟨bound, hb⟩, fun text htext hne => ?_⟩
      exact (hbound text htext hne).mp ((h _ rfl).2 text htext hne)
    · rintro ⟨_, _, h⟩ _ ⟨⟩
      exact ⟨rfl, fun text htext hne => (hbound text htext hne).mpr (h text htext hne)⟩
  · rw [hsame]
    constructor
    · intro h
      have := (h row hrow).1
      rw [hs] at this
      cases this
    · rintro ⟨⟨retryAt, hretry⟩, ⟨bound, hb⟩, _⟩
      exact absurd ⟨bound, retryAt, (reportable_failed_iff hs).mpr ⟨hb, hretry⟩⟩ hn

variable {s : RegistryHandler} {ev : Event} {r : Reported}

/-- For every kanban task that is running, dispatched, and reported finished, the row shows the
outcome exactly when the outcome is one that is carried over. -/
theorem outcome_reflected_iff (hd : s.isDispatched k = true) (hrow : s.taskStore.task? k = some row)
    (hs : row.status = .running) (hr : ev.reported s k = some r) :
    Reflected e (ev.step e s) k r ↔ Carried e row r := by
  obtain ⟨⟨t, ht, hstate⟩, hstore, hword⟩ := reported_step e hr
  rw [hd] at hstore
  cases outcome_kind e hword with
  | completed word success failure update =>
    rw [Carried, if_pos word, ← completion_iff r.clock hrow hs, ← update, ← hstore]
    constructor
    · intro h row' hrow'
      exact h.success t row' ht hrow' (hstate ▸ success)
    · intro h
      refine ⟨fun t' row' _ hrow' _ => h row' hrow', fun t' row' ht' _ hf => ?_⟩
      rw [ht] at ht'
      cases ht'
      rw [hstate, failure] at hf
      cases hf
  | failed word success failure update =>
    have hraw : ∀ text, Json.get r.fields "error" .null = .str text → text ≠ "" →
        r.outcome.error = .str text := fun text he hne => reported_error hr failure he hne
    have hiff := failure_iff (e := e) r.clock r.outcome.result hrow hs hraw
    rw [← update, ← hstore] at hiff
    rw [Carried, if_neg (by simp [word])]
    constructor
    · intro h
      obtain ⟨hb, hbind, herr⟩ := hiff.mp fun row' hrow' => h.failure t row' ht hrow' (hstate ▸ failure)
      exact ⟨failure, hb, hbind, herr⟩
    · rintro ⟨_, hk⟩
      refine ⟨fun t' row' ht' _ hf => ?_, fun t' row' _ hrow' _ => ?_⟩
      · rw [ht] at ht'
        cases ht'
        rw [hstate, success] at hf
        cases hf
      · exact hiff.mpr ⟨hk.backoff, hk.bind, hk.error⟩ row' hrow'
  | ignored word success failure update =>
    rw [Carried, if_neg (by simp [word])]
    constructor
    · intro h
      have hsame : (ev.step e s).taskStore.task? k = some row := by
        rw [hstore, update]
        exact hrow
      have := (h.success t row ht hsame (hstate ▸ success)).1
      rw [hs] at this
      cases this
    · rintro ⟨hf, _⟩
      rw [failure] at hf
      cases hf

end

/-- The agent of the working task reports that it failed, and why. -/
def failsWithError : Event := tells "a" "task_fail" [("id", .str "t_a"), ("error", .str "boom")]

/-- The kanban task is failed with another text. -/
theorem failsWithError_lost : ∃ row r, workingTask.isDispatched "t_a" = true ∧
    workingTask.taskStore.task? "t_a" = some row ∧ row.status = .running ∧
    failsWithError.reported workingTask "t_a" = some r ∧
    ¬ Reflected idleEngine (failsWithError.step idleEngine workingTask) "t_a" r := by
  refine ⟨_, _, rfl, rfl, rfl, rfl, fun h => ?_⟩
  have hlost : some "Agent reported failure" = some "boom" :=
    (h.failure _ _ rfl rfl rfl).2 "boom" rfl (by simp)
  simp at hlost

/-- It reports that it is done, with a text for a result. -/
def completesWithText : Event := tells "a" "task_complete" [("id", .str "t_a"), ("result", .str "ok")]

/-- The kanban task is completed with the text. -/
theorem completesWithText_reflected : ∃ r, completesWithText.reported workingTask "t_a" = some r ∧
    Reflected idleEngine (completesWithText.step idleEngine workingTask) "t_a" r := by
  refine ⟨_, rfl, (outcome_reflected_iff rfl rfl rfl rfl).mpr ?_⟩
  have hkept : ∀ row, Kept idleEngine row (.str "ok") := fun row h => by simp at h
  exact hkept _

end A2ARegistry.Server
