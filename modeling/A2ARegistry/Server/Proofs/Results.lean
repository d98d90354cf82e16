import A2ARegistry.Server.Proofs.Writes

namespace A2ARegistry.Server
open Base Orchestration

/-- The task is completed, and every later GET returns this result. -/
structure Survives (e : Engine) (s : RegistryHandler) (k : String) (result : Json) : Prop where
  completed : ∃ row, s.taskStore.task? k = some row ∧ row.status = .completed
  returned : ∀ s', Later e s s' → (handleGetTask s'.taskStore k e.toCodec).returns result

section
variable {e : Engine} {s : RegistryHandler} {k : String} {result : Json}

/-- The result of a completed task survives if its column is read as the result now. -/
theorem survives_iff : Survives e s k result ↔
    ∃ row, s.taskStore.task? k = some row ∧ row.status = .completed ∧
      loadColumn e.toCodec row.result = some result := by
  constructor
  · intro h
    obtain ⟨row, hrow, hs⟩ := h.completed
    obtain ⟨row', hrow', hload⟩ := (handleGetTask_returns_iff e.toCodec s.taskStore k result).mp
      (h.returned s .now)
    rw [hrow] at hrow'
    cases hrow'
    exact ⟨row, hrow, hs, hload⟩
  · rintro ⟨row, hrow, hs, hload⟩
    refine ⟨⟨row, hrow, hs⟩, fun s' hlater => (handleGetTask_returns_iff ..).mpr ?_⟩
    obtain ⟨writes, he⟩ := hlater.written
    obtain ⟨row', hrow', hsettled⟩ := writes_keep (e := e) hrow writes
    refine ⟨row', by rw [he]; exact hrow', ?_⟩
    rw [hsettled.result (Or.inl hs)]
    exact hload

end

/-- The results a POST stores as a text that is read as the same result: what is no object is
stored as Python writes it, and a text as it is. -/
def Reread (p : Python) : Json → Prop
  | .null | .obj _ => True
  | .str _ => False
  | value => value.Every (Json.node (Json.reprGood p))

/-- The results a `task_complete` stores so: a falsy one is not written, a boolean is bound as 0
or 1, binding a list raises, and a text is stored as it is. -/
def Rebound (e : Engine) : Json → Prop
  | .null | .obj _ => True
  | .int n => n ≠ 0 ∧ fitsInteger n = true
  | .float r => (Json.float r).truthy = true ∧
      ∃ text, e.realText r = some text ∧ e.loads text = some (.float r)
  | .bool _ | .str _ | .arr _ => False

section
variable {p : Python} {realText : String → Option String}

theorem loads_empty (p : Python) : Json.loads p "" = none := rfl

theorem loads_int (p : Python) (n : Int) : Json.loads p (toString n) = some (.int n) := by
  have htoken := Json.Token.of_number (Json.scanNumber_int p n)
  simpa using (htoken.loads (.int n)).mpr ⟨trivial, rfl⟩

/-- What the column of a new result is read as after a POST. -/
theorem resultText_loads_iff (realText : String → Option String) {result : Json} (hv : result.Decoded p) :
    loadColumn (python p realText).toCodec
      (if truthy (resultText (python p realText).toCodec result) then
        resultText (python p realText).toCodec result else none) = some result ↔ Reread p result := by
  let codec := (python p realText).toCodec
  have hread {value : Json} (hvalue : value ≠ .null) (text : String) :
      loadColumn codec (if truthy (some text) then some text else none) = some value ↔
        codec.loads text = some value :=
    loadColumn_iff codec (loads_empty p) hvalue text
  have hrepr : ∀ value : Json, value.Decoded p → value ≠ .null →
      resultText (python p realText).toCodec value =
        some (String.ofList (Json.render (Json.reprStyle p) value)) →
      (loadColumn (python p realText).toCodec
        (if truthy (resultText (python p realText).toCodec value) then
          resultText (python p realText).toCodec value else none) = some value ↔
        value.Every (Json.node (Json.reprGood p))) := by
    intro value hd hvalue htext
    rw [htext, hread hvalue]
    exact (Json.loads_repr hd value).trans (by simp)
  cases result with
  | null => simp [resultText, truthy, loadColumn, Reread]
  | obj fields =>
    have htext : resultText (python p realText).toCodec (.obj fields) =
      some (Json.dumps (.obj fields)) := rfl
    rw [htext, hread (by simp)]
    exact iff_of_true (Json.loads_dumps hv) trivial
  | str s =>
    have htext : resultText (python p realText).toCodec (.str s) = some s := rfl
    rw [htext, hread (by simp)]
    exact iff_of_false (Json.loads_ne_self p s) id
  | bool | int | float | arr => exact hrepr _ hv (by simp) rfl

variable {s : RegistryHandler} {k : String} {row : Task}

/-- What is not completed yet has no result. -/
theorem unfinished_result (hs : ResultsSettled s.taskStore) (hrow : s.taskStore.task? k = some row)
    (hedge : TaskStatus.completed ∈ transitions row.status) : row.result = none := by
  cases hr : row.result with
  | none => rfl
  | some text =>
    have hdone := hs k row hrow (by rw [hr]; rfl)
    rcases hdone with hd | hd <;> simp [hd, transitions] at hedge

theorem posted_survives_iff (hs : ResultsSettled s.taskStore) {clock : Clock}
    {ape : Option Security.Ape} {agentId : String} {body : CompleteBody}
    (h : Accepts (python p realText).toCodec s.taskStore k clock ape agentId body)
    (hv : body.result.Decoded p) (broadcasts : Bool) :
    Survives (python p realText)
      { s with taskStore :=
          (postComplete (python p realText).toCodec broadcasts ape s.taskStore clock agentId k body).2 }
      k body.result ↔ Reread p body.result := by
  obtain ⟨t, t', ht, hedge, ht', hdone, hresult⟩ := accepted_row h
  rw [unfinished_result hs ht hedge] at hresult
  rw [survives_iff, postComplete_db, ← resultText_loads_iff realText hv, ← hresult]
  simp [ht', hdone]

theorem loadColumn_none {codec : Codec} {value : Json} (hvalue : value ≠ .null) :
    loadColumn codec none ≠ some value := by
  simpa [loadColumn, truthy] using hvalue.symm

/-- How the column of a new result is read after a report of a value. -/
def ReadAfter (e : Engine) (row : Task) (value result : Json) : Prop :=
  ∃ bound, e.bindFor row .completed value = some bound ∧
    loadColumn e.toCodec (if value.truthy then bound else none) = some result

theorem readAfter_truthy {e : Engine} {value result : Json} (ht : value.truthy = true) :
    ReadAfter e row value result ↔
      ∃ bound, e.bind value = some bound ∧ loadColumn e.toCodec bound = some result := by
  have hbind : e.bindFor row .completed value = e.bind value := by simp [Engine.bindFor, Task.binds, ht]
  simp only [ReadAfter, hbind, ht, if_true]

theorem readAfter_falsy {e : Engine} {value result : Json} (ht : value.truthy = false)
    (hresult : result ≠ .null) : ¬ ReadAfter e row value result := by
  rintro ⟨bound, _, hload⟩
  simp only [ht, Bool.false_eq_true, if_false] at hload
  exact loadColumn_none hresult hload

/-- A text that is not empty is read as it is. -/
theorem loadColumn_some {codec : Codec} {text : String} (ht : text ≠ "") :
    loadColumn codec (some text) = codec.loads text := by
  simp [loadColumn, truthy, ht]

theorem toString_ne_empty (n : Int) : toString n ≠ "" := by
  intro h
  have hloads := loads_int ⟨id, fun _ => false⟩ n
  rw [h, loads_empty] at hloads
  cases hloads

theorem report_int_iff (row : Task) (n : Int) :
    ReadAfter (python p realText) row (.int n) (.int n) ↔ Rebound (python p realText) (.int n) := by
  by_cases hn : n = 0
  · subst hn
    exact iff_of_false (readAfter_falsy rfl (by simp)) (fun h => h.1 rfl)
  · have htruthy : (Json.int n).truthy = true := by simp [Json.truthy, hn]
    rw [readAfter_truthy htruthy]
    cases hfits : fitsInteger n with
    | true =>
      have hload : loadColumn (python p realText).toCodec (some (toString n)) = some (.int n) :=
        (loadColumn_some (toString_ne_empty n)).trans (loads_int p n)
      exact iff_of_true ⟨some (toString n), by simp [Engine.bind, hfits], hload⟩ ⟨hn, hfits⟩
    | false => simp [Engine.bind, Rebound, hfits]

theorem report_float_iff (row : Task) (r : String) :
    ReadAfter (python p realText) row (.float r) (.float r) ↔ Rebound (python p realText) (.float r) := by
  cases htruthy : (Json.float r).truthy with
  | false =>
    refine iff_of_false (readAfter_falsy htruthy (by simp)) fun h => ?_
    rw [h.1] at htruthy
    cases htruthy
  | true =>
    rw [readAfter_truthy htruthy]
    simp only [Engine.bind, Option.some.injEq, exists_eq_left', Rebound, htruthy, true_and]
    cases hreal : (python p realText).realText r with
    | none => simp [loadColumn_none]
    | some text =>
      by_cases ht : text = ""
      · subst ht
        simp only [Option.some.injEq, exists_eq_left']
        exact iff_of_false (loadColumn_none (by simp)) (by simp [python, loads_empty])
      · simp [loadColumn_some ht]

/-- A boolean is read as a number, a text as what it says or not at all, and a list is not stored. -/
theorem report_lost (row : Task) {result : Json}
    (h : (∃ b, result = .bool b) ∨ (∃ s, result = .str s) ∨ ∃ items, result = .arr items) :
    ¬ ReadAfter (python p realText) row result result := by
  cases htruthy : result.truthy with
  | false =>
    refine readAfter_falsy htruthy ?_
    rcases h with ⟨b, rfl⟩ | ⟨s, rfl⟩ | ⟨items, rfl⟩ <;> simp
  | true =>
    rw [readAfter_truthy htruthy]
    rcases h with ⟨b, rfl⟩ | ⟨s, rfl⟩ | ⟨items, rfl⟩
    · obtain rfl : b = true := htruthy
      have hone : Json.loads p "1" = some (.int 1) := loads_int p 1
      simp [Engine.bind, loadColumn_some, python, hone]
    · have hs : s ≠ "" := by simpa [Json.truthy] using htruthy
      simp [Engine.bind, loadColumn_some hs, python, Json.loads_ne_self]
    · simp [Engine.bind]

theorem report_loads_iff (row : Task) {result : Json} (hv : result.Decoded p) :
    ReadAfter (python p realText) row (completionValue (python p realText) result) result ↔
      Rebound (python p realText) result := by
  cases result with
  | null =>
    have hbind : (python p realText).bindFor row .completed .null = some none := ite_self _
    exact iff_of_true ⟨none, hbind, rfl⟩ trivial
  | bool b => exact iff_of_false (report_lost row (Or.inl ⟨b, rfl⟩)) id
  | int n => exact report_int_iff row n
  | float r => exact report_float_iff row r
  | str s => exact iff_of_false (report_lost row (Or.inr (Or.inl ⟨s, rfl⟩))) id
  | arr items => exact iff_of_false (report_lost row (Or.inr (Or.inr ⟨items, rfl⟩))) id
  | obj fields =>
    have hne := (python p realText).dumps_ne fields
    have hload : loadColumn (python p realText).toCodec (some ((python p realText).dumps (.obj fields))) =
        some (.obj fields) := (loadColumn_some hne).trans (Json.loads_dumps hv)
    rw [completionValue, readAfter_truthy (by simp [Json.truthy, hne])]
    exact iff_of_true ⟨_, rfl, hload⟩ trivial

theorem completion_survives_iff (hs : ResultsSettled s.taskStore) {agentId : String}
    {data : List (String × Json)} {around : Surroundings} (hty : messageType data = some .taskComplete)
    (hid : messageId data = some k) (hd : s.isDispatched k = true)
    (hrow : s.taskStore.task? k = some row) (hrun : row.status = .running)
    (hv : (Json.get data "result" .null).Decoded p) :
    Survives (python p realText) ((Event.message agentId data around).step (python p realText) s) k
      (Json.get data "result" .null) ↔ Rebound (python p realText) (Json.get data "result" .null) := by
  have hupdate : messageUpdate (python p realText) data =
      some (k, .completed, completionValue (python p realText) (Json.get data "result" .null)) := by
    simp [messageUpdate, hty, hid, messageOutcome, Outcome.update, Json.isWord, TaskStatus.value]
  have hnone := unfinished_result hs hrow (by simp [hrun, transitions])
  rw [survives_iff, ← report_loads_iff row hv, message_store, hupdate]
  dsimp only
  rw [hd]
  rcases boardAfter_own (python p realText) (around.clocks k) hrow .completed
    (completionValue (python p realText) (Json.get data "result" .null)) with
    ⟨bound, retryAt, hr, ht⟩ | ⟨hn, hsame⟩
  · have hb := ((reportable_completed_iff hrun).mp hr).1
    simp [ht, Task.report, hnone, ReadAfter, hb]
  · rw [hsame]
    constructor
    · rintro ⟨row', hrow', hdone, _⟩
      rw [hrow] at hrow'
      cases hrow'
      rw [hrun] at hdone
      cases hdone
    · rintro ⟨bound, hb, _⟩
      exact absurd ⟨bound, none, (reportable_completed_iff hrun).mpr ⟨hb, rfl⟩⟩ hn

/-- In every state the server reaches, an accepted result survives exactly when the text it is
stored as is read as the same result: the ones a POST rereads, and the ones a message rebinds. -/
theorem result_survives_iff {dispatcher : Bool}
    (hs : Later (python p realText) (.start Db.empty dispatcher) s) :
    (∀ broadcasts ape clock agentId body,
      Accepts (python p realText).toCodec s.taskStore k clock ape agentId body → body.result.Decoded p →
      (Survives (python p realText)
        { s with taskStore :=
            (postComplete (python p realText).toCodec broadcasts ape s.taskStore clock agentId k body).2 }
        k body.result ↔ Reread p body.result)) ∧
    (∀ agentId data around row, messageType data = some .taskComplete → messageId data = some k →
      s.isDispatched k = true → s.taskStore.task? k = some row → row.status = .running →
      (Json.get data "result" .null).Decoded p →
      (Survives (python p realText) ((Event.message agentId data around).step (python p realText) s) k
        (Json.get data "result" .null) ↔ Rebound (python p realText) (Json.get data "result" .null))) := by
  have hsettled := hs.settled empty_settled
  refine ⟨fun broadcasts ape clock agentId body h hv => ?_, fun agentId data around row hty hid hd hrow hrun hv => ?_⟩
  · exact posted_survives_iff hsettled h hv broadcasts
  · exact completion_survives_iff hsettled hty hid hd hrow hrun hv

end

/-- Python on numbers as it writes them itself, and on texts of ASCII. -/
def asciiPython : Python := ⟨id, fun c => ' ' ≤ c ∧ c ≤ '~'⟩

def asciiEngine : Engine := python asciiPython some

/-- A kanban task that is dispatched to a connected agent. -/
def sentTask : RegistryHandler :=
  exec (Event.step asciiEngine) (.start Db.empty true)
    [.storeCall (.createTask (.fixed 0) "a" { title := "a", assignee := some "a" }),
      .sendBegins (.fixed 0) "t_a" "a" .ws 1 900 (.ok "/tmp"),
      .sendEnds (.fixed 0) ⟨"t_a", "a", .ws⟩ none]

/-- The agent of the task reports that it is done. -/
def completesWith (result : Json) : Event :=
  .message "a" [("type", .str "task_complete"), ("id", .str "t_a"), ("result", result)]
    ⟨fun _ => .fixed 0, 0, some false⟩

/-- The server after a result is posted for the task. -/
def postedTask (result : Json) : RegistryHandler :=
  { sentTask with taskStore :=
      (postComplete asciiEngine.toCodec true none sentTask.taskStore (.fixed 0) "a" "t_a"
        { result := result }).2 }

/-- A list of numbers survives a POST, and a number a message. -/
theorem numbers_survive : Survives asciiEngine (postedTask (.arr [.int 1, .float "2.5"])) "t_a"
      (.arr [.int 1, .float "2.5"]) ∧
    Survives asciiEngine ((completesWith (.int 42)).step asciiEngine sentTask) "t_a" (.int 42) := by
  have hlater : Later asciiEngine (.start Db.empty true) sentTask :=
    Later.exec asciiEngine (.start Db.empty true) _
  have hlist : ∀ q : Json → Prop, q (.int 1) → q (.float "2.5") → q (.arr [.int 1, .float "2.5"]) →
      (Json.arr [.int 1, .float "2.5"]).Every q := by
    intro q hint hfloat harr
    refine Json.every_arr.mpr ⟨harr, ?_⟩
    simpa using ⟨(Json.every_leaf rfl).mpr hint, (Json.every_leaf rfl).mpr hfloat⟩
  have hfloat : Json.IsFloat asciiPython "2.5" := Or.inr rfl
  have hint : (Json.int 42).Decoded asciiPython := (Json.every_leaf rfl).mpr trivial
  obtain ⟨hpost, hmessage⟩ := result_survives_iff (p := asciiPython) (k := "t_a") hlater
  refine ⟨?_, ?_⟩
  · refine (hpost true none (.fixed 0) "a" { result := .arr [.int 1, .float "2.5"] }
      ⟨rfl, rfl, _, rfl⟩ (hlist _ trivial hfloat trivial)).mpr (hlist _ trivial ?_ trivial)
    simp [Json.node, Json.reprGood]
  · exact (hmessage "a" [("type", .str "task_complete"), ("id", .str "t_a"), ("result", .int 42)]
      ⟨fun _ => .fixed 0, 0, some false⟩ _ rfl rfl rfl rfl rfl hint).mpr ⟨by simp, rfl⟩

theorem hello_loads (p : Python) : Json.loads p "hello" = none := by
  have hchars : "hello".toList = ['h', 'e', 'l', 'l', 'o'] := rfl
  rw [Json.loads, hchars]
  rfl

/-- A text reported as a result completes the task, and every later GET is answered with 500; a
text that is posted is taken too, and does not come back. -/
theorem texts_lost : Later asciiEngine (.start Db.empty true) sentTask ∧
    (∃ row, sentTask.taskStore.task? "t_a" = some row ∧ row.status = .running) ∧
    sentTask.isDispatched "t_a" = true ∧
    (∀ s, Later asciiEngine ((completesWith (.str "hello")).step asciiEngine sentTask) s →
      (handleGetTask s.taskStore "t_a" asciiEngine.toCodec).status = 500) ∧
    Accepts asciiEngine.toCodec sentTask.taskStore "t_a" (.fixed 0) none "a" { result := .str "5" } ∧
    ¬ Survives asciiEngine (postedTask (.str "5")) "t_a" (.str "5") := by
  have haccepts : Accepts asciiEngine.toCodec sentTask.taskStore "t_a" (.fixed 0) none "a"
      { result := .str "5" } := ⟨rfl, rfl, _, rfl⟩
  refine ⟨Later.exec asciiEngine (.start Db.empty true) _, ⟨_, rfl, rfl⟩, rfl, fun s hs => ?_, haccepts, fun h => ?_⟩
  · obtain ⟨row, hrow, hdone, hresult⟩ : ∃ row,
        ((completesWith (.str "hello")).step asciiEngine sentTask).taskStore.task? "t_a" = some row ∧
          row.status = .completed ∧ row.result = some "hello" := ⟨_, rfl, rfl, rfl⟩
    obtain ⟨writes, he⟩ := hs.written
    obtain ⟨row', hrow', hkept⟩ := writes_keep (e := asciiEngine) hrow writes
    have hfails : loadColumn asciiEngine.toCodec row'.result = none := by
      rw [hkept.result (Or.inl hdone), hresult, loadColumn_some (by simp)]
      exact hello_loads asciiPython
    rw [handleGetTask_fails asciiEngine.toCodec (he ▸ hrow') hfails]
    rfl
  · obtain ⟨row, hrow, _, hload⟩ := survives_iff.mp h
    have hstored : ∃ row, (postedTask (.str "5")).taskStore.task? "t_a" = some row ∧
        row.result = some "5" := ⟨_, rfl, rfl⟩
    obtain ⟨row', hrow', hresult⟩ := hstored
    rw [hrow] at hrow'
    cases hrow'
    rw [hresult, loadColumn_some (by simp)] at hload
    exact Json.loads_ne_self asciiPython "5" hload

end A2ARegistry.Server
