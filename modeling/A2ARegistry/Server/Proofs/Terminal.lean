import A2ARegistry.Server.Proofs.Steps

namespace A2ARegistry.Server
open Base Orchestration

/-- The words the server stores for a task that is over, in all their spellings. -/
def terminalWords : List String :=
  ["completed", "success", "done", "failed", "error", "cancelled", "canceled"]

def Record.terminal (t : Record) : Bool := t.state.isWord terminalWords

/-- State, result and error of an entry. -/
def Record.verdict (t : Record) : Json × Json × Json := (t.state, t.result, t.error)

/-- An assignment of what the entry holds already. -/
structure Change.Repeats (c : Change) (t : Record) : Prop where
  state : c.state = t.state
  result : ∀ r, c.result = some r → r = t.result
  error : ∀ x, c.error = some x → x = t.error

/-- The event leaves a finished entry alone: what is reported about the task repeats what its
entry holds, and a disconnect or a timeout finds it in a state that it takes for final. -/
def Event.spares (s : RegistryHandler) (t : Record) : Event → Prop
  | .message agentId data around =>
    match messageType data with
    | none => True
    | some type =>
      if type = .stateSync then
        ∀ items, syncedItems s agentId data around.now around.card = some items →
          ∀ status, lastListed t.id items = some status → status = t.state
      else messageId data = some t.id → ∀ c, messageChange data type = some c → c.Repeats t
  | .disconnect agentId _ => t.agentId = agentId → t.state.isWord finalizedWords
  | .timeoutExpires taskId _ _ =>
    t.id = taskId → s.taskTimers taskId = some .sleeping → t.state.isWord finalizedWords
  | .dispatchEnds taskId how =>
    t.id = taskId → s.dispatching taskId → ∀ c, how.change = some c → c.Repeats t
  | .callbackEnds taskId _ body =>
    t.id = taskId → taskId ∈ s.callbacks → ∀ b, body = some b → (callbackChange b).Repeats t
  | _ => True

theorem Change.repeats_iff (c : Change) (t : Record) : (c.apply t).verdict = t.verdict ↔ c.Repeats t := by
  simp only [Record.verdict, Change.apply, Prod.mk.injEq]
  constructor
  · rintro ⟨hs, hr, he⟩
    refine ⟨hs, fun r h => ?_, fun x h => ?_⟩
    · simpa [h] using hr
    · simpa [h] using he
  · intro h
    refine ⟨h.state, ?_, ?_⟩
    · cases hr : c.result with
      | none => rfl
      | some r => exact h.result r hr
    · cases he : c.error with
      | none => rfl
      | some x => exact h.error x he

theorem Record.after_iff (t : Record) (c : Option Change) :
    (t.after c).verdict = t.verdict ↔ ∀ x, c = some x → x.Repeats t := by
  cases c with
  | none => simp
  | some c => simpa using c.repeats_iff t

theorem terminal_ne_dangling {t : Record} (h : t.terminal = true) : t.state ≠ .str "dangling" := by
  intro he
  simp [Record.terminal, he, Json.isWord, terminalWords] at h

theorem terminal_settled {t : Record} (h : t.terminal = true) :
    t.state.isWord settledWords = t.state.isWord finalizedWords := by
  obtain ⟨w, hw, he⟩ := Json.isWord_iff.mp h
  have hne : w ≠ "dangling" := fun hd => terminal_ne_dangling h (hd ▸ he)
  simp [he, Json.isWord, settledWords, finalizedWords, hne]

theorem terminal_not_dangles {t : Record} (h : t.terminal = true) (agentId : String) :
    t.dangles agentId = false := by
  have hne := terminal_ne_dangling h
  cases ht : t.state with
  | str w =>
    have hw : w ≠ "dangling" := fun hw => hne (by rw [ht, hw])
    simp [Record.dangles, ht, Json.isWord, hw]
  | _ => simp [Record.dangles, ht, Json.isWord]

/-- What is assigned under a guard. -/
theorem assigned_iff {P : Prop} [Decidable P] {c : Option Change} {Q : Change → Prop} :
    (∀ x, (if P then c else none) = some x → Q x) ↔ (P → ∀ x, c = some x → Q x) := by
  by_cases h : P <;> simp [h]

/-- For a finished entry the two readings of an event agree. -/
theorem spares_iff {s : RegistryHandler} {t : Record} (h : t.terminal = true) (ev : Event) :
    (t.after (ev.assigns s t)).verdict = t.verdict ↔ ev.spares s t := by
  rw [Record.after_iff]
  cases ev with
  | message agentId data around =>
    simp only [Event.assigns, Event.spares]
    cases messageType data with
    | none => simp
    | some type =>
      dsimp only
      split
      · simp only [syncChange, mergeChange, Option.bind_eq_some_iff, Option.map_eq_some_iff]
        constructor
        · intro hall items hi status hl
          exact (hall _ ⟨items, hi, status, hl, rfl⟩).state
        · rintro hall c ⟨items, hi, status, hl, rfl⟩
          exact ⟨hall items hi status hl, by simp, by simp⟩
      · exact assigned_iff
  | disconnect agentId clocks =>
    have hno : ¬ dangleChange.Repeats t := fun hr => terminal_ne_dangling h hr.state.symm
    rw [Event.assigns, assigned_iff]
    simp [Event.spares, Record.active, terminal_settled h, hno]
  | danglingExpires agentId clocks => simp [Event.assigns, Event.spares, terminal_not_dangles h]
  | timeoutExpires taskId clock connected =>
    have hfinal : timeoutChange.Repeats t → t.state.isWord finalizedWords = true := by
      intro hr
      rw [← hr.state]
      rfl
    rw [Event.assigns, assigned_iff]
    simp only [Event.spares, Option.some.injEq, forall_eq']
    constructor
    · intro hall hid hl
      by_contra hf
      exact hf (hfinal (hall ⟨hid, hl, hf⟩))
    · rintro hall ⟨hid, hl, hf⟩
      exact absurd (hall hid hl) hf
  | dispatchEnds taskId how =>
    rw [Event.assigns, assigned_iff]
    simp only [Event.spares, and_imp]
  | callbackEnds taskId clock body =>
    rw [Event.assigns, assigned_iff]
    simp only [Event.spares, and_imp, Option.map_eq_some_iff, forall_exists_index, forall_apply_eq_imp_iff₂]
  | _ => simp [Event.assigns, Event.spares]

/-- The entry of the task holds this verdict. -/
def Keeps (k : String) (verdict : Json × Json × Json) (s : RegistryHandler) : Prop :=
  (s.record? k).map Record.verdict = some verdict

/-- The event spares the entry of the task. -/
def Spares (k : String) (s : RegistryHandler) (ev : Event) : Prop :=
  ∀ t, s.record? k = some t → ev.spares s t

theorem step_keeps_iff (e : Engine) {s : RegistryHandler} {k : String} {verdict : Json × Json × Json}
    (hv : verdict.1.isWord terminalWords = true) (h : Keeps k verdict s) (ev : Event) :
    Keeps k verdict (ev.step e s) ↔ Spares k s ev := by
  obtain ⟨t, ht, rfl⟩ := Option.map_eq_some_iff.mp h
  have he := (step_writes e s ev).entry k t ht
  have hi := spares_iff (s := s) (t := t) hv ev
  simp only [Keeps, Spares, he, ht, Option.map_some, Option.some.injEq, forall_eq']
  exact hi

/-- A finished V1 task keeps its state, result and error through a run exactly when every event
of the run spares it: in the handlers nothing else protects it. -/
theorem terminal_absorbing_iff (e : Engine) {s : RegistryHandler} {k : String} {t : Record}
    (ht : s.record? k = some t) (hterm : t.terminal = true) (events : List Event) :
    Always (Event.step e) (Keeps k t.verdict) s events ↔
      EachStep (Event.step e) (Spares k) s events := by
  refine always_iff_guarded (I := fun _ => True) (fun _ _ _ _ => trivial)
    (fun s' ev _ hk => step_keeps_iff e (by exact hterm) hk ev) trivial ?_ events
  simp [Keeps, ht]

/-- Conversions for runs that make none. -/
def idleEngine : Engine where
  dumps := fun _ => "null"
  str := fun _ => "None"
  loads := fun _ => some .null
  realText := fun r => some r
  dumps_ne := fun _ => by simp

/-- A message of an agent whose card is there, at a time when clocks stand still. -/
def tells (agentId type : String) (fields : List (String × Json)) : Event :=
  .message agentId (("type", .str type) :: fields) ⟨fun _ => .fixed 0, 0, some false⟩

/-- A task that is dispatched and completed. -/
def finishedTask : RegistryHandler :=
  exec (Event.step idleEngine) (.start Db.empty true)
    [.dispatchBegins "a" "t" 0, .dispatchEnds "t" .delivered, tells "a" "task_complete" [("id", .str "t")]]

/-- A late `task_progress` takes the finished task back to work. -/
theorem lateProgress_revives : ∃ t, finishedTask.record? "t" = some t ∧ t.terminal = true ∧
    ¬ Always (Event.step idleEngine) (Keeps "t" t.verdict) finishedTask
      [tells "a" "task_progress" [("id", .str "t")]] := by
  refine ⟨⟨"t", "a", .str "completed", .obj [], .null, some 0⟩, rfl, rfl, fun h => ?_⟩
  have hk : some (Json.str "working", Json.obj [], Json.null) =
      some (Json.str "completed", Json.obj [], Json.null) := h.2
  simp at hk

/-- A disconnect of its agent is nothing to it, nor is a duplicate of the message that ended it. -/
theorem finishedTask_survives : Always (Event.step idleEngine)
    (Keeps "t" (.str "completed", .obj [], .null)) finishedTask
    [.disconnect "a" (fun _ => .fixed 0), tells "a" "task_complete" [("id", .str "t")]] := by
  have ht : finishedTask.record? "t" = some ⟨"t", "a", .str "completed", .obj [], .null, some 0⟩ := rfl
  refine (terminal_absorbing_iff idleEngine ht rfl _).mpr ⟨fun t h _ => ?_, fun t h _ c hc => ?_, trivial⟩
  · rw [ht] at h
    cases h
    rfl
  · cases hc
    have h : some (Record.mk "t" "a" (.str "completed") (.obj []) .null (some 0)) = some t := h
    cases h
    exact ⟨rfl, fun r hr => by cases hr; rfl, fun x hx => by cases hx; rfl⟩

end A2ARegistry.Server
