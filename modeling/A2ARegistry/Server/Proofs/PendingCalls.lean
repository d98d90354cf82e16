import A2ARegistry.Server.PendingCalls
import A2ARegistry.Server.Proofs.SyncCall

namespace A2ARegistry.Server
open Base Orchestration Security

def CallHandler.Ended (handler : CallHandler) : Prop := ∃ delivery, handler.phase = .ended delivery

namespace SyncCalls

/-- The request is not registered, and an answer to it changes nothing any more. -/
structure Released (h : SyncCallHandler) (s : SyncCalls) (id : String) : Prop where
  unregistered : s.pendingRequests id = none
  ignored : ∀ data, Inbox.requestId data = some id → s.step h (.response data) = s

/-- However a handler has ended, its request is released. -/
def NoneLeaked (h : SyncCallHandler) (s : SyncCalls) : Prop :=
  ∀ n handler, s.handlers n = some handler → handler.Ended → Released h s handler.requestId

/-- The id of a request is not one that was drawn before. -/
def FreshId (s : SyncCalls) : SyncEvent → Prop
  | .request _ r _ => ∀ n handler, s.handlers n = some handler → handler.requestId ≠ r.requestId
  | _ => True

/-- A message goes out with a timeout that `wait_for` takes, and a handler is cancelled at its end, unless the
agent has answered before. -/
def KeepsTable (s : SyncCalls) : SyncEvent → Prop
  | .sent n => ∀ handler timeout, s.handlers n = some handler → handler.phase = .sending timeout →
    timeoutAccepted timeout = true ∨ s.pendingRequests handler.requestId = none
  | .cancelled n => ∀ handler, s.handlers n = some handler → ¬ handler.Ended →
    s.pendingRequests handler.requestId = none
  | _ => True

/-- What an event can do. -/
inductive Move (s : SyncCalls) : SyncEvent → SyncCalls → Prop
  | same : Move s e s
  | begun (new : s.handlers n = none) : Move s (.request n r connected)
      (((s.register r.requestId n).setFuture n .unset).setHandler n ⟨r.requestId, .sending r.timeout⟩)
  | sent (found : s.handlers n = some handler) (phase : handler.phase = .sending timeout) : Move s (.sent n)
      (s.setHandler n { handler with
        phase := if timeoutAccepted timeout then .waiting timeout else .ended (some .raised) })
  | sendFailed (found : s.handlers n = some handler) : Move s (.sendFailed n error)
      ((s.unregister handler.requestId).setHandler n { handler with phase := .ended (some (.sendFailed error)) })
  | answered {id : String} (entry : s.pendingRequests id = some n) :
      Move s (.response data) ((s.unregister id).setFuture n (.result answer))
  | late {id : String} (entry : s.pendingRequests id = some n) : Move s (.response data) (s.unregister id)
  | expired (unset : s.futures n = .unset) : Move s (.expired n) (s.setFuture n .cancelled)
  | resumed (found : s.handlers n = some handler) (result : s.futures n = .result answer) : Move s (.resumed n)
      (s.setHandler n { handler with phase := .ended (some (.answered answer)) })
  | timedOut (found : s.handlers n = some handler) : Move s (.resumed n)
      ((s.unregister handler.requestId).setHandler n { handler with phase := .ended (some .timedOut) })
  | cancelled (found : s.handlers n = some handler) (running : ¬ handler.Ended) : Move s (.cancelled n)
      (s.setHandler n { handler with phase := .ended none })
  | cancelledWait (found : s.handlers n = some handler) (running : ¬ handler.Ended)
      (unset : s.futures n = .unset) : Move s (.cancelled n)
      ((s.setFuture n .cancelled).setHandler n { handler with phase := .ended none })

section
variable {h : SyncCallHandler} {s s' : SyncCalls} {e : SyncEvent}

theorem not_ended_sending {handler : CallHandler} {timeout : Json} (hp : handler.phase = .sending timeout) :
    ¬ handler.Ended := by
  rintro ⟨delivery, he⟩
  rw [hp] at he
  cases he

theorem not_ended_waiting {handler : CallHandler} {timeout : Json} (hp : handler.phase = .waiting timeout) :
    ¬ handler.Ended := by
  rintro ⟨delivery, he⟩
  rw [hp] at he
  cases he

theorem step_moves (h : SyncCallHandler) (s : SyncCalls) (e : SyncEvent) : Move s e (s.step h e) := by
  cases e with
  | request n r connected =>
    simp only [step, begin]
    split
    · rename_i hall
      simp only [Bool.and_eq_true, Option.isNone_iff_eq_none] at hall
      exact Move.begun hall.2
    · exact Move.same
  | sent n =>
    simp only [step, afterSend]
    cases hn : s.handlers n with
    | none => exact Move.same
    | some handler =>
      dsimp only
      cases hp : handler.phase with
      | sending timeout => exact Move.sent hn hp
      | waiting | ended => exact Move.same
  | sendFailed n error =>
    simp only [step, afterSendFailed]
    cases hn : s.handlers n with
    | none => exact Move.same
    | some handler =>
      dsimp only
      cases hp : handler.phase with
      | sending timeout => exact Move.sendFailed hn
      | waiting | ended => exact Move.same
  | response data =>
    simp only [step]
    cases Inbox.requestId data with
    | none => exact Move.same
    | some id =>
      simp only [resolvePending]
      cases hentry : s.pendingRequests id with
      | none => exact Move.same
      | some n =>
        dsimp only
        cases s.futures n with
        | unset => exact Move.answered hentry
        | result | cancelled => exact Move.late hentry
  | expired n =>
    simp only [step, expire]
    split
    · exact Move.same
    · rename_i hf
      exact Move.expired hf
    · exact Move.same
  | resumed n =>
    simp only [step, resume]
    cases hn : s.handlers n with
    | none => exact Move.same
    | some handler =>
      dsimp only
      split
      · rename_i hf
        exact Move.resumed hn hf
      · exact Move.timedOut hn
      · exact Move.same
  | cancelled n =>
    simp only [step, cancel]
    cases hn : s.handlers n with
    | none => exact Move.same
    | some handler =>
      dsimp only
      cases hp : handler.phase with
      | ended => exact Move.same
      | sending timeout => exact Move.cancelled hn (not_ended_sending hp)
      | waiting timeout =>
        cases hf : s.futures n with
        | unset => exact Move.cancelledWait hn (not_ended_waiting hp) hf
        | result | cancelled => exact Move.cancelled hn (not_ended_waiting hp)

/-- An entry of the table is of the handler that has its id, and of one whose future has no result yet. -/
structure Linked (s : SyncCalls) : Prop where
  owner : ∀ id n, s.pendingRequests id = some n → ∃ handler, s.handlers n = some handler ∧ handler.requestId = id
  unanswered : ∀ id n answer, s.pendingRequests id = some n → s.futures n ≠ .result answer
  distinct : ∀ m n a b, s.handlers m = some a → s.handlers n = some b → a.requestId = b.requestId → m = n

theorem released_iff {id : String} : Released h s id ↔ s.pendingRequests id = none := by
  refine ⟨fun hr => hr.unregistered, fun hp => ⟨hp, ?_⟩⟩
  intro data hid
  simp [step, hid, resolvePending, hp]

theorem noneLeaked_iff : NoneLeaked h s ↔
    ∀ n handler, s.handlers n = some handler → handler.Ended → s.pendingRequests handler.requestId = none := by
  simp only [NoneLeaked, released_iff]

/-- A handler that goes on keeps its id. -/
theorem Linked.setHandler (hs : Linked s) {n : Nat} {handler : CallHandler} {phase : CallPhase}
    (found : s.handlers n = some handler) : Linked (s.setHandler n { handler with phase := phase }) := by
  have hback : ∀ m a, (s.setHandler n { handler with phase := phase }).handlers m = some a →
      ∃ b, s.handlers m = some b ∧ b.requestId = a.requestId := by
    intro m a ha
    rw [handlers_setHandler] at ha
    split at ha
    · rename_i hm
      cases ha
      exact ⟨handler, hm ▸ found, rfl⟩
    · exact ⟨a, ha, rfl⟩
  refine ⟨?_, hs.unanswered, ?_⟩
  · intro id m hentry
    obtain ⟨a, ha, hid⟩ := hs.owner id m hentry
    rw [handlers_setHandler]
    by_cases hm : m = n
    · subst hm
      rw [found] at ha
      cases ha
      exact ⟨_, if_pos rfl, hid⟩
    · exact ⟨a, by rw [if_neg hm, ha], hid⟩
  · intro m k a b ha hb hid
    obtain ⟨a', ha', haid⟩ := hback m a ha
    obtain ⟨b', hb', hbid⟩ := hback k b hb
    exact hs.distinct m k a' b' ha' hb' (by rw [haid, hbid, hid])

theorem Linked.unregister (hs : Linked s) (id : String) : Linked (s.unregister id) := by
  have hback : ∀ k n, (s.unregister id).pendingRequests k = some n → s.pendingRequests k = some n := by
    intro k n hentry
    rw [pending_unregister] at hentry
    split at hentry
    · cases hentry
    · exact hentry
  exact ⟨fun k n hentry => hs.owner k n (hback k n hentry),
    fun k n answer hentry => hs.unanswered k n answer (hback k n hentry), hs.distinct⟩

theorem Linked.setFuture (hs : Linked s) {n : Nat} {future : CallFuture}
    (hfuture : ∀ id answer, s.pendingRequests id = some n → future ≠ .result answer) :
    Linked (s.setFuture n future) := by
  refine ⟨hs.owner, ?_, hs.distinct⟩
  intro id m answer hentry
  rw [futures_setFuture]
  split
  · rename_i hm
    exact hfuture id answer (hm ▸ hentry)
  · exact hs.unanswered id m answer hentry

theorem Linked.begun (hs : Linked s) {n : Nat} {r : SyncRequest} (new : s.handlers n = none)
    (fresh : ∀ m handler, s.handlers m = some handler → handler.requestId ≠ r.requestId) :
    Linked (((s.register r.requestId n).setFuture n .unset).setHandler n ⟨r.requestId, .sending r.timeout⟩) := by
  have hother : ∀ id m, s.pendingRequests id = some m → m ≠ n := by
    intro id m hentry hm
    obtain ⟨handler, hfound, _⟩ := hs.owner id m hentry
    rw [hm, new] at hfound
    cases hfound
  refine ⟨?_, ?_, ?_⟩
  · intro id m hentry
    simp only [pending_setHandler, pending_setFuture, pending_register] at hentry
    simp only [handlers_setHandler, handlers_setFuture, handlers_register]
    split at hentry
    · rename_i hid
      cases hentry
      exact ⟨_, if_pos rfl, hid.symm⟩
    · obtain ⟨handler, hfound, hid⟩ := hs.owner id m hentry
      exact ⟨handler, by rw [if_neg (hother id m hentry), hfound], hid⟩
  · intro id m answer hentry
    simp only [pending_setHandler, pending_setFuture, pending_register] at hentry
    simp only [futures_setHandler, futures_setFuture, futures_register]
    split at hentry
    · cases hentry
      simp
    · rw [if_neg (hother id m hentry)]
      exact hs.unanswered id m answer hentry
  · intro m k a b ha hb hid
    simp only [handlers_setHandler, handlers_setFuture, handlers_register] at ha hb
    split at ha <;> split at hb
    · rename_i hm hk
      rw [hm, hk]
    · cases ha
      exact absurd hid.symm (fresh k b hb)
    · cases hb
      exact absurd hid (fresh m a ha)
    · exact hs.distinct m k a b ha hb hid

/-- One event keeps the table linked to the handlers. -/
theorem step_linked (h : SyncCallHandler) (hs : Linked s) (hfresh : FreshId s e) : Linked (s.step h e) := by
  have hmove := step_moves h s e
  generalize s.step h e = s' at hmove
  cases hmove with
  | same => exact hs
  | begun new => exact hs.begun new hfresh
  | sent found | resumed found | cancelled found => exact hs.setHandler found
  | sendFailed found | timedOut found => exact (hs.unregister _).setHandler found
  | @answered n _ _ id entry =>
    apply (hs.unregister id).setFuture
    intro k answer' hentry
    obtain ⟨a, ha, hida⟩ := hs.owner id n entry
    rw [pending_unregister] at hentry
    split at hentry
    · cases hentry
    · rename_i hk
      obtain ⟨b, hb, hidb⟩ := hs.owner k n hentry
      rw [ha] at hb
      cases hb
      exact absurd (hidb.symm.trans hida) hk
  | late entry => exact hs.unregister _
  | expired unset => exact hs.setFuture (fun _ _ _ => by simp)
  | cancelledWait found _ unset => exact (hs.setFuture (fun _ _ _ => by simp)).setHandler found

/-- A handler that goes on leaks nothing if its request is released where it ends. -/
theorem setHandler_released {n : Nat} {handler : CallHandler} {phase : CallPhase}
    (hs : ∀ n handler, s.handlers n = some handler → handler.Ended → s.pendingRequests handler.requestId = none)
    (hend : (∃ delivery, phase = .ended delivery) → s.pendingRequests handler.requestId = none) :
    ∀ m a, (s.setHandler n { handler with phase := phase }).handlers m = some a → a.Ended →
      (s.setHandler n { handler with phase := phase }).pendingRequests a.requestId = none := by
  intro m a ha hended
  rw [handlers_setHandler] at ha
  split at ha
  · cases ha
    exact hend hended
  · exact hs m a ha hended

theorem unregister_released (id : String)
    (hs : ∀ n handler, s.handlers n = some handler → handler.Ended → s.pendingRequests handler.requestId = none) :
    ∀ n handler, (s.unregister id).handlers n = some handler → handler.Ended →
      (s.unregister id).pendingRequests handler.requestId = none := by
  intro n handler hn hended
  rw [pending_unregister]
  split
  · rfl
  · exact hs n handler hn hended

theorem step_keeps (hs : Linked s) (hfresh : FreshId s e) (hnone : NoneLeaked h s) (hkeeps : KeepsTable s e) :
    NoneLeaked h (s.step h e) := by
  rw [noneLeaked_iff] at hnone ⊢
  have hmove := step_moves h s e
  generalize s.step h e = s' at hmove
  cases hmove with
  | same => exact hnone
  | begun new =>
    intro m a ha hended
    simp only [handlers_setHandler, handlers_setFuture, handlers_register] at ha
    simp only [pending_setHandler, pending_setFuture, pending_register]
    split at ha
    · cases ha
      exact absurd hended (not_ended_sending rfl)
    · rw [if_neg (hfresh m a ha)]
      exact hnone m a ha hended
  | @sent n handler timeout found phase =>
    apply setHandler_released hnone
    rintro ⟨delivery, he⟩
    rcases hkeeps handler timeout found phase with haccepted | hpending
    · rw [haccepted, if_pos rfl] at he
      cases he
    · exact hpending
  | sendFailed found | timedOut found =>
    apply setHandler_released (unregister_released _ hnone)
    intro _
    rw [pending_unregister, if_pos rfl]
  | answered entry => exact unregister_released _ hnone
  | late entry => exact unregister_released _ hnone
  | expired unset => exact hnone
  | @resumed n handler answer found result =>
    apply setHandler_released hnone
    intro _
    cases hentry : s.pendingRequests handler.requestId with
    | none => rfl
    | some m =>
      obtain ⟨a, ha, hid⟩ := hs.owner _ m hentry
      have hm := hs.distinct m n a handler ha found hid
      exact absurd result (hs.unanswered _ n answer (hm ▸ hentry))
  | cancelled found running => exact setHandler_released hnone fun _ => hkeeps _ found running
  | cancelledWait found running unset => exact setHandler_released hnone fun _ => hkeeps _ found running

theorem released_at_end {n : Nat} {handler : CallHandler} {delivery : Option Delivery}
    (hnone : NoneLeaked h (s.setHandler n { handler with phase := .ended delivery })) :
    s.pendingRequests handler.requestId = none := by
  have hfound : (s.setHandler n { handler with phase := .ended delivery }).handlers n =
      some { handler with phase := .ended delivery } := by
    rw [handlers_setHandler, if_pos rfl]
  exact noneLeaked_iff.mp hnone n { handler with phase := .ended delivery } hfound ⟨delivery, rfl⟩

/-- Where nothing is leaked, the event has met its guard. -/
theorem keeps_of_step (hnone : NoneLeaked h (s.step h e)) : KeepsTable s e := by
  cases e with
  | sent n =>
    intro handler timeout hn hp
    by_cases haccepted : timeoutAccepted timeout = true
    · exact Or.inl haccepted
    · right
      have hstep : s.step h (.sent n) = s.setHandler n { handler with phase := .ended (some .raised) } := by
        simp only [step, afterSend, hn, hp, if_neg haccepted]
      rw [hstep] at hnone
      exact released_at_end hnone
  | cancelled n =>
    intro handler hn hrunning
    obtain ⟨s', hstep, hpending⟩ : ∃ s' : SyncCalls,
        s.step h (.cancelled n) = s'.setHandler n { handler with phase := .ended none } ∧
        s'.pendingRequests = s.pendingRequests := by
      simp only [step, cancel, hn]
      cases hp : handler.phase with
      | ended delivery => exact absurd ⟨delivery, hp⟩ hrunning
      | sending timeout => exact ⟨s, rfl, rfl⟩
      | waiting timeout =>
        cases s.futures n with
        | unset => exact ⟨s.setFuture n .cancelled, rfl, rfl⟩
        | result | cancelled => exact ⟨s, rfl, rfl⟩
    rw [hstep] at hnone
    rw [← hpending]
    exact released_at_end hnone
  | request | sendFailed | response | expired | resumed => trivial

end

/-- In a run whose requests have ids of their own no handler ever leaves its request behind exactly when each
message goes out with a timeout that `wait_for` takes and no handler is cancelled before its end, unless the
agent has answered by then. -/
theorem none_leaked_iff (h : SyncCallHandler) (events : List SyncEvent)
    (hfresh : EachStep (step h) FreshId start events) :
    Always (step h) (NoneLeaked h) start events ↔ EachStep (step h) KeepsTable start events := by
  apply always_iff_restricted (I := Linked) (G := FreshId) _ _ _ _ hfresh
  · intro s e hs _ hf
    exact step_linked h hs hf
  · intro s e hs hnone hf
    exact ⟨keeps_of_step, step_keeps hs hf hnone⟩
  · refine ⟨?_, ?_, ?_⟩
    · intro id n hentry
      cases hentry
    · intro id n answer hentry
      cases hentry
    · intro m n a b ha
      cases ha
  · intro n handler hn
    cases hn

/-- A call whose body asks for a timeout that is a text. -/
def textTimeout : SyncRequest where
  db := Db.empty
  draw := syncDraw
  caller := sampleCaller
  body := sampleCall ++ [("timeout_seconds", .str "5")]

/-- It is sent to its agent. -/
def textTimeoutSent : List SyncEvent := [.request 0 textTimeout true, .sent 0]

theorem textTimeoutSent_fresh : EachStep (step sampleSync) FreshId start textTimeoutSent := by
  refine ⟨?_, trivial, trivial⟩
  intro n handler hn
  cases hn

theorem none_leaked_sample : EachStep (step sampleSync) FreshId start textTimeoutSent ∧
    (Always (step sampleSync) (NoneLeaked sampleSync) start textTimeoutSent ↔
      EachStep (step sampleSync) KeepsTable start textTimeoutSent) :=
  ⟨textTimeoutSent_fresh, none_leaked_iff sampleSync textTimeoutSent textTimeoutSent_fresh⟩

/-- `wait_for` raises, and the request stays in the table. -/
theorem text_timeout_leaks : EachStep (step sampleSync) FreshId start textTimeoutSent ∧
    ¬ Always (step sampleSync) (NoneLeaked sampleSync) start textTimeoutSent := by
  refine ⟨textTimeoutSent_fresh, fun hall => ?_⟩
  have hend : (exec (step sampleSync) start textTimeoutSent).handlers 0 =
      some ⟨"sync_3", .ended (some .raised)⟩ := by
    rfl
  have hreleased := hall.last 0 _ hend ⟨_, rfl⟩
  have hentry : (exec (step sampleSync) start textTimeoutSent).pendingRequests "sync_3" = some 0 := by
    rfl
  rw [hreleased.unregistered] at hentry
  cases hentry

end SyncCalls

end A2ARegistry.Server
