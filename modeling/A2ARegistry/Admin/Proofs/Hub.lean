import A2ARegistry.Admin.Hub

namespace A2ARegistry.Admin
open Base

section Definitions

/-- What a session has asked for. -/
structure Asked where
  tasks : List Json := []
  progress : List Json := []

def Asked.update (a : Asked) : Json → Asked
  | .obj data =>
    match Json.get data "type" (.str "") with
    | .str "subscribe" =>
      match Json.field data "task_ids" with
      | .null => { a with tasks := [] }
      | taskIds => { a with tasks := (setOf taskIds).getD a.tasks }
    | .str "subscribe_all" => { a with tasks := [] }
    | .str "subscribe_progress" =>
      match Json.field data "task_ids" with
      | .arr taskIds => { a with progress := (setOf (.arr taskIds)).getD a.progress }
      | _ => a
    | _ => a
  | _ => a

/-- The hub, and what each live session has asked for. A session is live until its own handler or heartbeat
ends it, its own socket is closed, or a message to it could not be sent. -/
structure Watch where
  hub : AdminWSHub
  live : Nat → Option Asked

namespace Watch

variable (w : Watch)

def initial : Watch := ⟨AdminWSHub.initial, fun _ => none⟩

/-- The sessions that are live after a step. -/
def liveAfter : Event → Nat → Option Asked
  | .register c _ _ => if (w.hub.sockets c).isNone then Function.update w.live c (some {}) else w.live
  | .receive c data =>
    match w.hub.sockets c, data with
    | some socket, some data =>
      if socket.serving then
        match w.hub.onMessage socket.sessionId data with
        | some _ => Function.update w.live c ((w.live c).map (fun a => a.update data))
        | none => Function.update w.live c none
      else w.live
    | _, _ => w.live
  | .finish c => Function.update w.live c none
  | .close c => Function.update w.live c none
  | .beat c outcome =>
    if (w.hub.sockets c).any Socket.beating && decide (outcome ≠ .failed) then Function.update w.live c none else w.live
  | .send b outcome =>
    match w.hub.broadcasts b with
    | some ⟨kind, taskId, entry :: remaining, stale⟩ =>
      if w.hub.foundStale ⟨kind, taskId, entry :: remaining, stale⟩ entry outcome
        then Function.update w.live entry.socket none else w.live
    | _ => w.live
  | .broadcast _ _ _ | .clean _ => w.live

def step (event : Event) : Watch := ⟨w.hub.step event, w.liveAfter event⟩

end Watch

/-- The entries under an id are those of a socket, with what its session has asked for. -/
structure Own (hub : AdminWSHub) (sessionId : String) (c : Nat) (a : Asked) : Prop where
  connection : hub.connections.find? sessionId = some ⟨sessionId, c⟩
  tasks : hub.subscriptions sessionId = some a.tasks
  progress : hub.progressSubs sessionId = some a.progress
  heartbeat : hub.heartbeatTasks sessionId = some c

/-- Every live session has its own entries. -/
def Integrity (w : Watch) : Prop :=
  ∀ c a, w.live c = some a → ∃ socket, w.hub.sockets c = some socket ∧ Own w.hub socket.sessionId c a

/-- The id is that of a session whose handler or heartbeat task is not over, or a broadcast under way has it. -/
def Taken (hub : AdminWSHub) (sessionId : String) : Prop :=
  (∃ c socket, hub.sockets c = some socket ∧ socket.sessionId = sessionId ∧
    (socket.serving = true ∨ socket.beating = true)) ∨
  ∃ b bc, hub.broadcasts b = some bc ∧
    (sessionId ∈ bc.stale ∨ ∃ entry ∈ bc.remaining, entry.sessionId = sessionId)

/-- A session is registered under an id that is not taken. -/
def FreshId (w : Watch) : Event → Prop
  | .register _ requestId now => ¬ Taken w.hub (makeSessionId requestId now)
  | _ => True

/-- A session with its own entries, whose id is no one else's. -/
structure Safe (hub : AdminWSHub) (c : Nat) (a : Asked) (sessionId : String) : Prop where
  socket : ∃ socket, hub.sockets c = some socket ∧ socket.sessionId = sessionId ∧ socket.serving = true
  own : Own hub sessionId c a
  alone : ∀ c' socket, hub.sockets c' = some socket → socket.sessionId = sessionId →
    (socket.serving = true ∨ socket.beating = true) → c' = c
  pending : ∀ b bc, hub.broadcasts b = some bc →
    (∀ entry ∈ bc.remaining, entry.sessionId = sessionId → entry.socket = c) ∧ sessionId ∉ bc.stale

def AllSafe (w : Watch) : Prop := ∀ c a, w.live c = some a → ∃ sessionId, Safe w.hub c a sessionId

end Definitions

section Messages

variable {data : List (String × Json)} {a : Asked} {taskIds : List Json}

theorem update_null (htype : Json.get data "type" (.str "") = .str "subscribe")
    (hnull : Json.field data "task_ids" = .null) : a.update (.obj data) = { a with tasks := [] } := by
  simp only [Asked.update, htype, hnull]

theorem update_tasks (htype : Json.get data "type" (.str "") = .str "subscribe")
    (hset : setOf (Json.field data "task_ids") = some taskIds) : a.update (.obj data) = { a with tasks := taskIds } := by
  simp only [Asked.update, htype]
  generalize Json.field data "task_ids" = ids at hset ⊢
  cases ids with
  | null => cases hset
  | _ => simp only [hset, Option.getD_some]

theorem update_all (htype : Json.get data "type" (.str "") = .str "subscribe_all") :
    a.update (.obj data) = { a with tasks := [] } := by
  simp only [Asked.update, htype]

theorem update_progress (htype : Json.get data "type" (.str "") = .str "subscribe_progress") {items : List Json}
    (hitems : Json.field data "task_ids" = .arr items) (hset : setOf (.arr items) = some taskIds) :
    a.update (.obj data) = { a with progress := taskIds } := by
  simp only [Asked.update, htype, hitems, hset, Option.getD_some]

theorem update_unlisted (htype : Json.get data "type" (.str "") = .str "subscribe_progress")
    (hitems : ∀ items, Json.field data "task_ids" ≠ .arr items) : a.update (.obj data) = a := by
  simp only [Asked.update, htype]

theorem update_other (hsubscribe : Json.get data "type" (.str "") ≠ .str "subscribe")
    (hall : Json.get data "type" (.str "") ≠ .str "subscribe_all")
    (hprogress : Json.get data "type" (.str "") ≠ .str "subscribe_progress") : a.update (.obj data) = a := by
  simp only [Asked.update]

end Messages

/-- What a message comes to, if it does not raise: nothing, or a set of tasks that the session asks for. -/
theorem onMessage_cases {hub hub' : AdminWSHub} {sessionId : String} {data : Json}
    (hm : hub.onMessage sessionId data = some hub') :
    (hub' = hub ∧ ((∃ entry, hub.connections.find? sessionId = some entry) → ∀ a : Asked, a.update data = a)) ∨
    (∃ taskIds, hub' = hub.setSubscription sessionId taskIds ∧ ∀ a : Asked, a.update data = { a with tasks := taskIds }) ∨
    ∃ taskIds, hub' = hub.setProgress sessionId taskIds ∧ ∀ a : Asked, a.update data = { a with progress := taskIds } := by
  cases data with
  | obj data =>
    simp only [AdminWSHub.onMessage] at hm
    split at hm
    · rename_i htype
      unfold AdminWSHub.subscribe at hm
      split at hm
      · rename_i hunknown
        cases hm
        exact Or.inl ⟨rfl, fun ⟨entry, hfind⟩ => by cases hunknown.symm.trans hfind⟩
      · split at hm
        · rename_i hnull
          cases hm
          exact Or.inr (Or.inl ⟨[], rfl, fun _ => update_null htype hnull⟩)
        · obtain ⟨taskIds, hset, rfl⟩ := Option.map_eq_some_iff.mp hm
          exact Or.inr (Or.inl ⟨taskIds, rfl, fun _ => update_tasks htype hset⟩)
    · rename_i htype
      cases hm
      exact Or.inr (Or.inl ⟨[], rfl, fun _ => update_all htype⟩)
    · rename_i htype
      split at hm
      · rename_i items hitems
        obtain ⟨taskIds, hset, rfl⟩ := Option.map_eq_some_iff.mp hm
        exact Or.inr (Or.inr ⟨taskIds, rfl, fun _ => update_progress htype hitems hset⟩)
      · rename_i hitems
        cases hm
        exact Or.inl ⟨rfl, fun _ _ => update_unlisted htype hitems⟩
    · rename_i hsubscribe hall hprogress
      cases hm
      exact Or.inl ⟨rfl, fun _ _ => update_other hsubscribe hall hprogress⟩
  | _ => cases hm

namespace Safe

variable {hub : AdminWSHub} {c : Nat} {a : Asked} {sessionId : String}

section Steps

/-- A disconnect under another id leaves the session alone. -/
theorem disconnect (h : Safe hub c a sessionId) {other : String} (hne : other ≠ sessionId) :
    Safe (hub.disconnect other) c a sessionId := by
  rw [AdminWSHub.disconnect]
  split
  · exact h
  · have hdelete : (hub.connections.delete (fun entry => entry.sessionId == other)).find? sessionId =
        some ⟨sessionId, c⟩ := by
      rw [Table.find_delete, h.own.connection]
      simp [Option.filter, hne.symm]
    constructor
    · obtain ⟨socket, hsocket, hid, hserving⟩ := h.socket
      refine ⟨_, congrArg (Option.map _) hsocket, ?_⟩
      split
      · exact ⟨hid, hserving⟩
      · exact ⟨hid, hserving⟩
    · exact ⟨hdelete, (Function.update_of_ne hne.symm ..).trans h.own.tasks,
        (Function.update_of_ne hne.symm ..).trans h.own.progress,
        (Function.update_of_ne hne.symm ..).trans h.own.heartbeat⟩
    · intro c' socket' hsocket' hid hruns
      obtain ⟨socket, hsocket, rfl⟩ := Option.map_eq_some_iff.mp hsocket'
      apply h.alone c' socket hsocket
      · split at hid
        · exact hid
        · exact hid
      · split at hruns
        · rcases hruns with hserving | hbeating
          · exact Or.inl hserving
          · cases hbeating
        · exact hruns
    · exact h.pending

theorem disconnectAll (h : Safe hub c a sessionId) {stale : List String} (hstale : sessionId ∉ stale) :
    Safe (stale.foldl AdminWSHub.disconnect hub) c a sessionId := by
  induction stale generalizing hub with
  | nil => exact h
  | cons other stale ih =>
    have hne : other ≠ sessionId := fun he => hstale (he ▸ List.mem_cons_self ..)
    exact ih (h.disconnect hne) (fun hmem => hstale (List.mem_cons_of_mem other hmem))

/-- A socket of which less goes on than before. -/
theorem setSocket (h : Safe hub c a sessionId) {c' : Nat} {old : Socket} (new : Socket) (hold : hub.sockets c' = some old)
    (hid : new.sessionId = old.sessionId) (hserving : new.serving = true → old.serving = true)
    (hbeating : new.beating = true → old.beating = true) (hown : c' = c → new.serving = old.serving) :
    Safe (hub.setSocket c' new) c a sessionId := by
  constructor
  · obtain ⟨socket, hsocket, hsocketId, hserves⟩ := h.socket
    by_cases hc : c = c'
    · subst hc
      cases hold.symm.trans hsocket
      exact ⟨new, Function.update_self .., hid.trans hsocketId, (hown rfl).trans hserves⟩
    · exact ⟨socket, (Function.update_of_ne hc ..).trans hsocket, hsocketId, hserves⟩
  · exact ⟨h.own.connection, h.own.tasks, h.own.progress, h.own.heartbeat⟩
  · intro d socket hsocket hsocketId hruns
    rw [AdminWSHub.setSocket_sockets] at hsocket
    split at hsocket
    · rename_i hd
      cases hsocket
      exact h.alone d old (hd ▸ hold) (hid.symm.trans hsocketId) (hruns.imp hserving hbeating)
    · exact h.alone d socket hsocket hsocketId hruns
  · exact h.pending

/-- The end of another session's handler. -/
theorem leave (h : Safe hub c a sessionId) {c' : Nat} {socket : Socket} (hsocket : hub.sockets c' = some socket)
    (hserving : socket.serving = true) (hne : c' ≠ c) : Safe (hub.leave c' socket) c a sessionId := by
  have hid : socket.sessionId ≠ sessionId := fun he => hne (h.alone c' socket hsocket he (Or.inl hserving))
  have hset := h.setSocket { socket with serving := false } hsocket rfl (by simp) id (fun he => absurd he hne)
  exact hset.disconnect hid

theorem beat (h : Safe hub c a sessionId) (c' : Nat) (outcome : Beat)
    (hown : (hub.sockets c').any Socket.beating = true → outcome ≠ .failed → c' ≠ c) :
    Safe (hub.beat c' outcome) c a sessionId := by
  rw [AdminWSHub.beat]
  cases hsocket : hub.sockets c' with
  | none => exact h
  | some socket =>
    by_cases hbeating : socket.beating = true
    · have hset := h.setSocket { socket with beating := false } hsocket rfl id (by simp) (fun _ => rfl)
      simp only [hbeating, if_true]
      split
      · exact hset
      · rename_i hends
        have hne : c' ≠ c := hown (by simp [hsocket, hbeating]) hends
        exact hset.disconnect (fun he => hne (h.alone c' socket hsocket he (Or.inr hbeating)))
    · simp only [hbeating]
      exact h

theorem close (h : Safe hub c a sessionId) (c' : Nat) : Safe (hub.close c') c a sessionId := by
  rw [AdminWSHub.close]
  cases hsocket : hub.sockets c' with
  | none => exact h
  | some socket => exact h.setSocket _ hsocket rfl id id (fun _ => rfl)

/-- A broadcast that has no other entry under the id, and not the id among its stale ones. -/
theorem setBroadcast (h : Safe hub c a sessionId) (b : Nat) {bc : Option Broadcast}
    (hbc : ∀ bc', bc = some bc' → (∀ entry ∈ bc'.remaining, entry.sessionId = sessionId → entry.socket = c) ∧
      sessionId ∉ bc'.stale) : Safe (hub.setBroadcast b bc) c a sessionId := by
  refine ⟨h.socket, ⟨h.own.connection, h.own.tasks, h.own.progress, h.own.heartbeat⟩, h.alone, ?_⟩
  intro b' bc' hb'
  rw [AdminWSHub.setBroadcast_broadcasts] at hb'
  split at hb'
  · exact hbc bc' hb'
  · exact h.pending b' bc' hb'

/-- The copy of the connections has no other entry under the id. -/
theorem broadcast (h : Safe hub c a sessionId) (b : Nat) (kind : Kind) (taskId : String) :
    Safe (hub.broadcast b kind taskId) c a sessionId := by
  rw [AdminWSHub.broadcast]
  split
  · exact h
  · apply h.setBroadcast
    intro bc hbc
    cases hbc
    refine ⟨?_, List.not_mem_nil⟩
    intro entry hentry hid
    have hfind : hub.connections.find? sessionId = some entry := Table.find_some_iff.mpr ⟨hentry, hid⟩
    cases h.own.connection.symm.trans hfind
    rfl

theorem send (h : Safe hub c a sessionId) {b : Nat} {kind : Kind} {taskId : String} {entry : Entry}
    {remaining : List Entry} {stale : List String} (hb : hub.broadcasts b = some ⟨kind, taskId, entry :: remaining, stale⟩)
    {outcome : Sent} (hown : hub.foundStale ⟨kind, taskId, entry :: remaining, stale⟩ entry outcome = true →
      entry.socket ≠ c) : Safe (hub.send b outcome) c a sessionId := by
  obtain ⟨hremaining, hstale⟩ := h.pending b _ hb
  simp only [AdminWSHub.send, hb]
  apply h.setBroadcast
  intro bc hbc
  cases hbc
  refine ⟨fun other hother => hremaining other (List.mem_cons_of_mem entry hother), ?_⟩
  split
  · rename_i hfound
    intro hmem
    rcases List.mem_append.mp hmem with hmem | hmem
    · exact hstale hmem
    · have hid := List.mem_singleton.mp hmem
      exact hown hfound (hremaining entry (List.mem_cons_self ..) hid.symm)
  · exact hstale

theorem clean (h : Safe hub c a sessionId) (b : Nat) : Safe (hub.clean b) c a sessionId := by
  rw [AdminWSHub.clean]
  split
  · rename_i hb
    have hremoved : Safe (hub.setBroadcast b none) c a sessionId := h.setBroadcast b (fun _ hbc => nomatch hbc)
    exact hremoved.disconnectAll (h.pending b _ hb).2
  · exact h

theorem setSubscription (h : Safe hub c a sessionId) {other : String} (hne : other ≠ sessionId) (taskIds : List Json) :
    Safe (hub.setSubscription other taskIds) c a sessionId :=
  ⟨h.socket, ⟨h.own.connection, (Function.update_of_ne hne.symm ..).trans h.own.tasks,
    h.own.progress, h.own.heartbeat⟩, h.alone, h.pending⟩

theorem setProgress (h : Safe hub c a sessionId) {other : String} (hne : other ≠ sessionId) (taskIds : List Json) :
    Safe (hub.setProgress other taskIds) c a sessionId :=
  ⟨h.socket, ⟨h.own.connection, h.own.tasks,
    (Function.update_of_ne hne.symm ..).trans h.own.progress, h.own.heartbeat⟩, h.alone, h.pending⟩

theorem subscribed (h : Safe hub c a sessionId) (taskIds : List Json) :
    Safe (hub.setSubscription sessionId taskIds) c { a with tasks := taskIds } sessionId :=
  ⟨h.socket, ⟨h.own.connection, Function.update_self .., h.own.progress, h.own.heartbeat⟩, h.alone, h.pending⟩

theorem progressed (h : Safe hub c a sessionId) (taskIds : List Json) :
    Safe (hub.setProgress sessionId taskIds) c { a with progress := taskIds } sessionId :=
  ⟨h.socket, ⟨h.own.connection, h.own.tasks, Function.update_self .., h.own.heartbeat⟩, h.alone, h.pending⟩

/-- A message under another id. -/
theorem onMessage (h : Safe hub c a sessionId) {other : String} (hne : other ≠ sessionId) {data : Json}
    {hub' : AdminWSHub} (hm : hub.onMessage other data = some hub') : Safe hub' c a sessionId := by
  rcases onMessage_cases hm with ⟨rfl, -⟩ | ⟨taskIds, rfl, -⟩ | ⟨taskIds, rfl, -⟩
  · exact h
  · exact h.setSubscription hne taskIds
  · exact h.setProgress hne taskIds

/-- A message of the session: its entries go with what it asks for. -/
theorem onOwnMessage (h : Safe hub c a sessionId) {data : Json} {hub' : AdminWSHub}
    (hm : hub.onMessage sessionId data = some hub') : Safe hub' c (a.update data) sessionId := by
  rcases onMessage_cases hm with ⟨rfl, hsame⟩ | ⟨taskIds, rfl, hasked⟩ | ⟨taskIds, rfl, hasked⟩
  · rw [hsame ⟨_, h.own.connection⟩ a]
    exact h
  · rw [hasked a]
    exact h.subscribed taskIds
  · rw [hasked a]
    exact h.progressed taskIds

/-- Another session is registered, under another id. -/
theorem register (h : Safe hub c a sessionId) {c' : Nat} (hc : hub.sockets c' = none) {requestId : String} {now : Rat}
    (hfresh : ¬ Taken hub (makeSessionId requestId now)) : Safe (hub.register c' requestId now) c a sessionId := by
  obtain ⟨socket, hsocket, hid, hserving⟩ := h.socket
  have hne : sessionId ≠ makeSessionId requestId now :=
    fun he => hfresh (Or.inl ⟨c, socket, hsocket, hid.trans he, Or.inl hserving⟩)
  have hother : c ≠ c' := by
    rintro rfl
    cases hc.symm.trans hsocket
  rw [AdminWSHub.register, hc]
  refine ⟨⟨socket, (Function.update_of_ne hother ..).trans hsocket, hid, hserving⟩, ⟨?_, ?_, ?_, ?_⟩, ?_, h.pending⟩
  · rw [Table.find_put]
    exact (if_neg hne).trans h.own.connection
  · exact (Function.update_of_ne hne ..).trans h.own.tasks
  · exact (Function.update_of_ne hne ..).trans h.own.progress
  · exact (Function.update_of_ne hne ..).trans h.own.heartbeat
  · intro d other hsocket' hid' hruns
    have hset : (Function.update hub.sockets c' (some { sessionId := makeSessionId requestId now })) d = some other := hsocket'
    rw [Function.update_apply] at hset
    split at hset
    · cases hset
      exact absurd hid'.symm hne
    · exact h.alone d other hset hid' hruns

end Steps

/-- A session that is registered under an id that is not taken. -/
theorem registered {c : Nat} (hc : hub.sockets c = none) {requestId : String} {now : Rat}
    (hfresh : ¬ Taken hub (makeSessionId requestId now)) :
    Safe (hub.register c requestId now) c {} (makeSessionId requestId now) := by
  rw [AdminWSHub.register, hc]
  refine ⟨⟨_, Function.update_self .., rfl, rfl⟩, ⟨?_, Function.update_self .., Function.update_self ..,
    Function.update_self ..⟩, ?_, ?_⟩
  · rw [Table.find_put]
    exact if_pos rfl
  · intro d other hsocket hid hruns
    have hset : (Function.update hub.sockets c (some { sessionId := makeSessionId requestId now })) d = some other := hsocket
    rw [Function.update_apply] at hset
    split at hset
    · rename_i hd
      exact hd
    · exact absurd (Or.inl ⟨d, other, hset, hid, hruns⟩) hfresh
  · intro b bc hbc
    constructor
    · intro entry hentry hid
      exact absurd (Or.inr ⟨b, bc, hbc, Or.inr ⟨entry, hentry, hid⟩⟩) hfresh
    · intro hstale
      exact hfresh (Or.inr ⟨b, bc, hbc, Or.inl hstale⟩)

end Safe

section Runs

variable {w : Watch}

/-- Who is live after another session has ended was live before. -/
theorem live_of_ended {live : Nat → Option Asked} {c c' : Nat} {a : Asked}
    (h : Function.update live c' none c = some a) : c' ≠ c ∧ live c = some a := by
  rw [Function.update_apply] at h
  split at h
  · cases h
  · rename_i hne
    exact ⟨Ne.symm hne, h⟩

theorem allSafe_receive (h : AllSafe w) (c' : Nat) (data : Option Json) : AllSafe (w.step (.receive c' data)) := by
  intro c a hlive
  simp only [Watch.step, Watch.liveAfter, AdminWSHub.step, AdminWSHub.receive] at hlive ⊢
  cases hsocket : w.hub.sockets c' with
  | none =>
    rw [hsocket] at hlive
    exact h c a hlive
  | some socket =>
    rw [hsocket] at hlive
    cases data with
    | none => exact h c a hlive
    | some data =>
      by_cases hserving : socket.serving = true
      · simp only [hserving, if_true] at hlive ⊢
        cases hm : w.hub.onMessage socket.sessionId data with
        | none =>
          rw [hm] at hlive
          obtain ⟨hne, hbefore⟩ := live_of_ended hlive
          obtain ⟨sessionId, hsafe⟩ := h c a hbefore
          exact ⟨sessionId, hsafe.leave hsocket hserving hne⟩
        | some hub' =>
          rw [hm] at hlive
          simp only [Function.update_apply] at hlive
          split at hlive
          · rename_i hc
            subst hc
            obtain ⟨asked, hbefore, rfl⟩ := Option.map_eq_some_iff.mp hlive
            obtain ⟨sessionId, hsafe⟩ := h c asked hbefore
            obtain ⟨own, hown, hid, -⟩ := hsafe.socket
            cases hown.symm.trans hsocket
            exact ⟨sessionId, hsafe.onOwnMessage (hid ▸ hm)⟩
          · rename_i hne
            obtain ⟨sessionId, hsafe⟩ := h c a hlive
            have hother : socket.sessionId ≠ sessionId :=
              fun he => hne (hsafe.alone c' socket hsocket he (Or.inl hserving)).symm
            exact ⟨sessionId, hsafe.onMessage hother hm⟩
      · simp only [hserving, Bool.false_eq_true, if_false] at hlive ⊢
        exact h c a hlive

/-- An entry that is found stale is that of no live session any more. -/
theorem allSafe_send (h : AllSafe w) (b : Nat) (outcome : Sent) : AllSafe (w.step (.send b outcome)) := by
  intro c a hlive
  simp only [Watch.step, Watch.liveAfter, AdminWSHub.step] at hlive ⊢
  cases hb : w.hub.broadcasts b with
  | none =>
    simp only [hb] at hlive
    simp only [AdminWSHub.send, hb]
    exact h c a hlive
  | some bc =>
    obtain ⟨kind, taskId, remaining, stale⟩ := bc
    cases remaining with
    | nil =>
      simp only [hb] at hlive
      simp only [AdminWSHub.send, hb]
      exact h c a hlive
    | cons entry remaining =>
      simp only [hb] at hlive
      split at hlive
      · obtain ⟨hne, hbefore⟩ := live_of_ended hlive
        obtain ⟨sessionId, hsafe⟩ := h c a hbefore
        exact ⟨sessionId, hsafe.send hb (fun _ => hne)⟩
      · rename_i hfound
        obtain ⟨sessionId, hsafe⟩ := h c a hlive
        exact ⟨sessionId, hsafe.send hb (fun hstale => absurd hstale hfound)⟩

theorem allSafe_register (h : AllSafe w) (c' : Nat) {requestId : String} {now : Rat}
    (hfresh : ¬ Taken w.hub (makeSessionId requestId now)) : AllSafe (w.step (.register c' requestId now)) := by
  intro c a hlive
  simp only [Watch.step, Watch.liveAfter, AdminWSHub.step] at hlive ⊢
  cases hsocket : w.hub.sockets c' with
  | some socket =>
    simp only [hsocket, Option.isNone_some, Bool.false_eq_true, if_false] at hlive
    simp only [AdminWSHub.register, hsocket]
    exact h c a hlive
  | none =>
    simp only [hsocket, Option.isNone_none, if_true, Function.update_apply] at hlive
    split at hlive
    · rename_i hc
      subst hc
      cases hlive
      exact ⟨_, Safe.registered hsocket hfresh⟩
    · obtain ⟨sessionId, hsafe⟩ := h c a hlive
      exact ⟨sessionId, hsafe.register hsocket hfresh⟩

theorem allSafe_finish (h : AllSafe w) (c' : Nat) : AllSafe (w.step (.finish c')) := by
  intro c a hlive
  obtain ⟨hne, hbefore⟩ := live_of_ended hlive
  obtain ⟨sessionId, hsafe⟩ := h c a hbefore
  simp only [Watch.step, AdminWSHub.step, AdminWSHub.finish]
  split
  · exact ⟨sessionId, hsafe⟩
  · rename_i socket hsocket
    split
    · rename_i hserving
      exact ⟨sessionId, hsafe.leave hsocket hserving hne⟩
    · exact ⟨sessionId, hsafe⟩

theorem allSafe_beat (h : AllSafe w) (c' : Nat) (outcome : Beat) : AllSafe (w.step (.beat c' outcome)) := by
  intro c a hlive
  simp only [Watch.step, Watch.liveAfter] at hlive
  split at hlive
  · obtain ⟨hne, hbefore⟩ := live_of_ended hlive
    obtain ⟨sessionId, hsafe⟩ := h c a hbefore
    exact ⟨sessionId, hsafe.beat c' outcome (fun _ _ => hne)⟩
  · rename_i hgoes
    obtain ⟨sessionId, hsafe⟩ := h c a hlive
    exact ⟨sessionId, hsafe.beat c' outcome (fun hbeating hends => absurd (by simp [hbeating, hends]) hgoes)⟩

theorem allSafe_step (event : Event) (h : AllSafe w) (hfresh : FreshId w event) : AllSafe (w.step event) := by
  cases event with
  | register c' requestId now => exact allSafe_register h c' hfresh
  | receive c' data => exact allSafe_receive h c' data
  | finish c' => exact allSafe_finish h c'
  | close c' =>
    intro c a hlive
    obtain ⟨-, hbefore⟩ := live_of_ended hlive
    obtain ⟨sessionId, hsafe⟩ := h c a hbefore
    exact ⟨sessionId, hsafe.close c'⟩
  | beat c' outcome => exact allSafe_beat h c' outcome
  | broadcast b kind taskId =>
    intro c a hlive
    obtain ⟨sessionId, hsafe⟩ := h c a hlive
    exact ⟨sessionId, hsafe.broadcast b kind taskId⟩
  | send b outcome => exact allSafe_send h b outcome
  | clean b =>
    intro c a hlive
    obtain ⟨sessionId, hsafe⟩ := h c a hlive
    exact ⟨sessionId, hsafe.clean b⟩

theorem AllSafe.integrity (h : AllSafe w) : Integrity w := by
  intro c a hlive
  obtain ⟨sessionId, hsafe⟩ := h c a hlive
  obtain ⟨socket, hsocket, rfl, -⟩ := hsafe.socket
  exact ⟨socket, hsocket, hsafe.own⟩

/-- As long as sessions are registered under ids that are not taken, every live session has its own entries,
whoever comes, asks, leaves or cannot be sent to. -/
theorem entries_kept {run : List Event} (h : EachStep Watch.step FreshId Watch.initial run) :
    Always Watch.step Integrity Watch.initial run := by
  have hinitial : AllSafe Watch.initial := by
    intro c a hlive
    cases hlive
  have hsafe : Always Watch.step AllSafe Watch.initial run :=
    EachStep.always (fun _ event hsafe hfresh => allSafe_step event hsafe hfresh) hinitial h
  exact hsafe.imp (fun _ => AllSafe.integrity)

/-- A live session whose socket is open is sent what is for everyone. -/
theorem broadcastToAll_reaches (h : Integrity w) {c : Nat} {a : Asked} (hlive : w.live c = some a)
    (hopen : w.hub.isOpen c = true) : c ∈ w.hub.broadcastToAll := by
  obtain ⟨socket, -, hown⟩ := h c a hlive
  have hentry := (Table.find_some_iff.mp hown.connection).1
  exact List.mem_filter.mpr ⟨List.mem_map.mpr ⟨_, hentry, rfl⟩, hopen⟩

/-- To register a session under the id of a live one takes that one's entry away. -/
theorem register_taken {c c' : Nat} {a : Asked} {socket : Socket} (hlive : w.live c = some a)
    (hsocket : w.hub.sockets c = some socket) (hc' : w.hub.sockets c' = none) {requestId : String} {now : Rat}
    (hid : makeSessionId requestId now = socket.sessionId) :
    ¬ Integrity (w.step (.register c' requestId now)) := by
  intro h
  have hne : c ≠ c' := by
    rintro rfl
    cases hc'.symm.trans hsocket
  have hstill : (w.step (.register c' requestId now)).live c = some a := by
    simp [Watch.step, Watch.liveAfter, hc', Function.update_of_ne hne, hlive]
  obtain ⟨socket', hsocket', hown⟩ := h c a hstill
  simp only [Watch.step, AdminWSHub.step, AdminWSHub.register, hc'] at hsocket' hown
  rw [Function.update_of_ne hne, hsocket] at hsocket'
  cases hsocket'
  have hfind := hown.connection
  rw [Table.find_put, hid] at hfind
  simp only [key, if_true, Option.some.injEq, Entry.mk.injEq, true_and] at hfind
  exact hne hfind.symm

section Samples

/-- Two sessions of one user, a millisecond apart; the first leaves. -/
def apart : List Event := [.register 0 "" 1, .register 1 "" (1001 / 1000), .finish 0]

/-- The same, in one millisecond. -/
def together : List Event := [.register 0 "" 1, .register 1 "" 1, .finish 0]

theorem apart_kept : Always Watch.step Integrity Watch.initial apart := by
  apply entries_kept
  refine ⟨?_, ?_, trivial, trivial⟩
  · rintro (⟨c, socket, hsocket, -⟩ | ⟨b, bc, hbc, -⟩)
    · cases hsocket
    · cases hbc
  · rintro (⟨c, socket, hsocket, hid, -⟩ | ⟨b, bc, hbc, -⟩)
    · have hset : (Function.update (fun _ => none) 0 (some { sessionId := makeSessionId "" 1 })) c = some socket := hsocket
      rw [Function.update_apply] at hset
      split at hset
      · cases hset
        exact absurd hid (by decide +kernel)
      · cases hset
    · cases hbc

theorem together_lost : ¬ Always Watch.step Integrity Watch.initial together := by
  intro h
  obtain ⟨socket, hsocket, hown⟩ := h.last 1 {} rfl
  have hone : ((exec Watch.step Watch.initial together).hub.sockets 1).map Socket.sessionId =
      some (makeSessionId "" 1) := by decide +kernel
  rw [hsocket] at hone
  have hid : socket.sessionId = makeSessionId "" 1 := Option.some.inj hone
  have hfind := hown.connection
  rw [hid] at hfind
  revert hfind
  decide +kernel

end Samples

end Runs

end A2ARegistry.Admin
