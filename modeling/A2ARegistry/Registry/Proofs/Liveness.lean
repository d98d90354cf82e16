import A2ARegistry.Registry.Liveness

namespace A2ARegistry.Registry
open Base

section Definitions

variable (env : Env) (agentId : String)

/-- The step does not hand out the agent as stale, and does not purge it. -/
def Spared (s : Live) : Event → Prop
  | .request (.cleanup now) =>
    (s.store.agents.find? agentId).isSome = true → ((s.store.purgeStale now).agents.find? agentId).isSome = true
  | event => ∀ view ∈ s.reports event, view.id = agentId → view.status ≠ "stale"

/-- The last time the agent was registered, had a heartbeat answered or a socket accepted. -/
def heard (s : Live) (last : Rat) : Event → Rat
  | .request (.register draw _ _) =>
    if draw.agentId = agentId ∧ (s.store.agents.find? agentId).isNone = true then draw.now else last
  | .request (.heartbeat now id authTenant queryTenant) =>
    if id = agentId ∧ (handleHeartbeat env s.store now id authTenant queryTenant).1.status = 203 then now else last
  | .connect now id _ queryTenant upgrade =>
    match s.upgraded now id queryTenant upgrade with
    | some tenant => if s.store.agents.rows.any (Store.ofTenant id tenant) ∧ id = agentId then now else last
    | none => last
  | _ => last

/-- The registry, and when the agent was heard of last. -/
def track (p : Live × Rat) (event : Event) : Live × Rat := (p.1.step env event, heard env agentId p.1 p.2 event)

/-- The agent is neither disabled nor out of the tenant's sight. -/
def Shown (s : Live) (tenant : Option String) : Prop :=
  ∃ row ∈ s.store.agents.rows, row.id = agentId ∧ row.disabled = false ∧ Store.visibleTo tenant row = true

/-- When the agent is shown it was heard of within the timeout; when the registry is cleaned up, within the time
an agent is kept. -/
def Timely (p : Live × Rat) : Event → Prop
  | .list now tenant => Shown agentId p.1 tenant → p.2 ≠ 0 ∧ now - p.2 ≤ heartbeatTimeout
  | .get now id tenant => id = agentId → Shown agentId p.1 tenant → p.2 ≠ 0 ∧ now - p.2 ≤ heartbeatTimeout
  | .request (.cleanup now) =>
    (p.1.store.agents.find? agentId).isSome = true → 0 < p.2 → now - heartbeatPurge ≤ p.2
  | _ => True

/-- A row that can be read, with the time its agent was heard of last. -/
structure Kept (last : Rat) (row : AgentRow) : Prop where
  card : ∃ card, row.card = .obj card
  heartbeat : ∃ lastHb, row.heartbeatAt = some lastHb
  heard : row.id = agentId → row.heartbeatAt = some last

/-- The table holds the time an agent was heard of last, and none is unreadable. -/
def AllKept (p : Live × Rat) : Prop := ∀ row ∈ p.1.store.agents.rows, Kept agentId p.2 row

end Definitions

variable {env : Env} {agentId : String} {s : Live} {last : Rat}

section Steps

theorem find_none_ne {store : Store} (h : store.agents.find? agentId = none) :
    ∀ row ∈ store.agents.rows, row.id ≠ agentId :=
  Table.find_none_iff.mp h

/-- Where there is no such agent, any time will do. -/
theorem Kept.unheard {row : AgentRow} (h : Kept agentId last row) (hne : row.id ≠ agentId) (last' : Rat) :
    Kept agentId last' row := ⟨h.card, h.heartbeat, fun he => absurd he hne⟩

theorem kept_delete (h : AllKept agentId (s, last)) (p : AgentRow → Bool) :
    ∀ row ∈ (s.store.agents.delete p).rows, Kept agentId last row :=
  fun row hrow => h row (List.mem_of_mem_filter hrow)

theorem kept_toggle (h : AllKept agentId (s, last)) (id tenant : String) :
    ∀ row ∈ (s.store.toggleAgent id tenant).agents.rows, Kept agentId last row := by
  intro row hrow
  have hmodified : row ∈ (s.store.agents.modify (Store.ofTenant id tenant)
      (fun row => { row with disabled := !row.disabled }) (fun _ => rfl)).rows := hrow
  obtain ⟨old, hold, rfl⟩ := Table.mem_modify.mp hmodified
  have hkept := h old hold
  split
  · exact ⟨hkept.card, hkept.heartbeat, hkept.heard⟩
  · exact hkept

/-- A heartbeat that is recorded is that of the one row with the id. -/
theorem kept_heartbeat (h : AllKept agentId (s, last)) (now : Rat) (id tenant : String) :
    ∀ row ∈ (s.store.heartbeat now id tenant).agents.rows,
      Kept agentId (if s.store.agents.rows.any (Store.ofTenant id tenant) ∧ id = agentId then now else last) row := by
  intro row hrow
  have hmodified : row ∈ (s.store.agents.modify (Store.ofTenant id tenant)
      (fun row => { row with heartbeatAt := some now }) (fun _ => rfl)).rows := hrow
  obtain ⟨old, hold, rfl⟩ := Table.mem_modify.mp hmodified
  have hkept := h old hold
  by_cases hmatch : Store.ofTenant id tenant old = true
  · rw [if_pos hmatch]
    refine ⟨hkept.card, ⟨now, rfl⟩, ?_⟩
    intro he
    have hany : s.store.agents.rows.any (Store.ofTenant id tenant) = true := List.any_eq_true.mpr ⟨old, hold, hmatch⟩
    have hid : old.id = id := by
      simp only [Store.ofTenant, Bool.and_eq_true, beq_iff_eq] at hmatch
      exact hmatch.1
    rw [if_pos ⟨hany, hid.symm.trans he⟩]
  · rw [if_neg hmatch]
    refine ⟨hkept.card, hkept.heartbeat, ?_⟩
    intro he
    rw [if_neg]
    · exact hkept.heard he
    · intro ⟨hany, hid⟩
      -- the row that matches has the same key, so it is this one
      obtain ⟨other, hother, hmatches⟩ := List.any_eq_true.mp hany
      have hsame : other = old := by
        apply List.inj_on_of_nodup_map s.store.agents.nodup hother hold
        simp only [Store.ofTenant, Bool.and_eq_true, beq_iff_eq] at hmatches
        exact hmatches.1.trans (hid.trans he.symm)
      exact hmatch (hsame ▸ hmatches)

theorem kept_register (h : AllKept agentId (s, last)) (draw : RegisterDraw) (authTenant : Option String)
    (body : Option Json) : ∀ row ∈ (handleRegister env s.store draw authTenant body).2.agents.rows,
      Kept agentId (heard env agentId s last (.request (.register draw authTenant body))) row := by
  have hold : ∀ row ∈ s.store.agents.rows,
      Kept agentId (heard env agentId s last (.request (.register draw authTenant body))) row := by
    intro row hrow
    simp only [heard]
    split
    · rename_i hnone
      exact (h row hrow).unheard (find_none_ne (Option.isNone_iff_eq_none.mp hnone.2) row hrow) _
    · exact h row hrow
  rcases handleRegister_cases env s.store draw authTenant body with hsame | ⟨_, _, _, _, _, _, hregistered⟩
  · rw [hsame]
    exact hold
  · obtain ⟨card, row, -, hinserted⟩ := registerCard_some hregistered
    rw [hinserted.rows_eq]
    intro other hother
    rcases List.mem_append.mp hother with hother | hother
    · exact hold other hother
    · obtain rfl := List.mem_singleton.mp hother
      refine ⟨⟨_, hinserted.card_eq⟩, ⟨_, hinserted.heartbeat_eq⟩, ?_⟩
      intro he
      have hid : draw.agentId = agentId := hinserted.id_eq.symm.trans he
      rw [hinserted.heartbeat_eq, heard, if_pos ⟨hid, by rw [← hid, hinserted.fresh]; rfl⟩]

/-- A heartbeat is recorded when it is answered so, and in the row of the agent. -/
theorem handleHeartbeat_cases (env : Env) (store : Store) (now : Rat) (id : String) (authTenant queryTenant : Option String) :
    ((handleHeartbeat env store now id authTenant queryTenant).1.status ≠ 203 ∧
        (handleHeartbeat env store now id authTenant queryTenant).2 = store) ∨
      ((handleHeartbeat env store now id authTenant queryTenant).1.status = 203 ∧
        ∃ tenant, store.agents.rows.any (Store.ofTenant id tenant) = true ∧
          (handleHeartbeat env store now id authTenant queryTenant).2 = store.heartbeat now id tenant) := by
  simp only [handleHeartbeat]
  split
  · exact Or.inl ⟨by simp [Orchestration.serverError], rfl⟩
  · exact Or.inl ⟨by simp [Orchestration.jsonError], rfl⟩
  · split
    · exact Or.inl ⟨by simp [Orchestration.jsonError], rfl⟩
    · split
      · rename_i hany
        exact Or.inr ⟨rfl, _, hany, rfl⟩
      · exact Or.inl ⟨by simp [Orchestration.jsonError], rfl⟩

theorem leave_store (id : String) (socket : Nat) : (s.leave id socket).store = s.store := by
  unfold Live.leave
  split
  · rfl
  · rfl

/-- A message over a socket leaves the store alone. -/
theorem onText_store (id : String) (socket : Nat) (data : Option Json) :
    (s.onText id socket data).1.store = s.store := by
  unfold Live.onText
  repeat' split
  all_goals first
    | rfl
    | exact leave_store id socket

theorem allKept_step {p : Live × Rat} (event : Event) (h : AllKept agentId p) : AllKept agentId (track env agentId p event) := by
  obtain ⟨s, last⟩ := p
  cases event with
  | request request =>
    cases request with
    | register draw authTenant body => exact kept_register h draw authTenant body
    | unregister id tenant =>
      intro row hrow
      simp only [track, Live.step, Registry.step, handleUnregister] at hrow
      split at hrow
      · exact kept_delete h _ row hrow
      · exact h row hrow
    | heartbeat now id authTenant queryTenant =>
      simp only [AllKept, track, Live.step, Registry.step, heard]
      rcases handleHeartbeat_cases env s.store now id authTenant queryTenant with
        ⟨hstatus, hsame⟩ | ⟨hstatus, tenant, hany, hstore⟩
      · rw [hsame, if_neg (fun hc => hstatus hc.2)]
        exact h
      · rw [hstore]
        simpa [hstatus, hany] using kept_heartbeat h now id tenant
    | toggle now id tenant =>
      intro row hrow
      simp only [track, Live.step, Registry.step, handleToggleAgent] at hrow
      split at hrow
      · exact kept_toggle h id tenant row hrow
      · exact h row hrow
    | cleanup now => exact kept_delete h _
  | connect now id socket queryTenant upgrade =>
    simp only [AllKept, track, Live.step, Live.connect, heard]
    cases s.upgraded now id queryTenant upgrade with
    | none => exact h
    | some tenant => exact kept_heartbeat h now id tenant
  | message now id socket data =>
    intro row hrow
    have hstore : (s.onText id socket data).1.store = s.store := onText_store id socket data
    have hsame : row ∈ s.store.agents.rows := by rwa [← hstore]
    exact h row hsame
  | leave id socket =>
    intro row hrow
    have hsame : row ∈ s.store.agents.rows := by rwa [← leave_store id socket]
    exact h row hsame
  | list now tenant => exact h
  | get now id tenant => exact h

end Steps

section Reports

variable {now : Rat} {tenant : Option String}

theorem readAgent_isSome (now : Rat) (listed : Bool) {row : AgentRow} (h : Kept agentId last row) :
    (Store.readAgent now listed row).isSome = true := by
  obtain ⟨card, hcard⟩ := h.card
  obtain ⟨lastHb, hheartbeat⟩ := h.heartbeat
  simp [Store.readAgent, hcard, hheartbeat]

/-- Shown agents were heard of within the timeout, if and only if no view of the agent's row is stale. -/
theorem fresh_iff (h : AllKept agentId (s, last)) (listed : Bool) :
    (Shown agentId s tenant → last ≠ 0 ∧ now - last ≤ heartbeatTimeout) ↔
    ∀ row ∈ s.store.agents.rows, row.id = agentId → Store.visibleTo tenant row = true →
      ∀ view, Store.readAgent now listed row = some view → view.status ≠ "stale" := by
  constructor
  · intro hfresh row hrow hid hvisible view hview hstale
    obtain ⟨henabled, hold⟩ := (Store.readAgent_stale hview ((h row hrow).heard hid)).mp hstale
    exact hold (hfresh ⟨row, hrow, hid, henabled, hvisible⟩)
  · intro hnever ⟨row, hrow, hid, henabled, hvisible⟩
    obtain ⟨view, hview⟩ := Option.isSome_iff_exists.mp (readAgent_isSome now listed (h row hrow))
    by_contra hold
    exact hnever row hrow hid hvisible view hview
      ((Store.readAgent_stale hview ((h row hrow).heard hid)).mpr ⟨henabled, hold⟩)

theorem list_iff (h : AllKept agentId (s, last)) :
    Spared agentId s (.list now tenant) ↔ Timely agentId (s, last) (.list now tenant) := by
  simp only [Spared, Timely, Live.reports]
  rw [fresh_iff h true]
  have hreads : ∀ row ∈ s.store.agents.select (Store.visibleTo tenant),
      (Store.readAgent now true row).isSome = true :=
    fun row hrow => readAgent_isSome now true (h row (Table.mem_select.mp hrow).1)
  obtain ⟨views, hviews⟩ := Store.mapM_isSome hreads
  have hlist : s.store.listAgents now tenant = some views := hviews
  rw [hlist, Option.getD_some]
  constructor
  · intro hspared row hrow hid hvisible view hview
    obtain ⟨view', hmem, hview'⟩ := Store.listAgents_complete hlist hrow hvisible
    obtain rfl := Option.some.inj (hview.symm.trans hview')
    exact hspared view hmem ((Store.readAgent_some hview).2.1.trans hid)
  · intro hnever view hview hid
    obtain ⟨row, hrow, hvisible, hread⟩ := Store.mem_listAgents hlist hview
    exact hnever row hrow ((Store.readAgent_some hread).2.1.symm.trans hid) hvisible view hread

theorem get_iff (h : AllKept agentId (s, last)) (id : String) :
    Spared agentId s (.get now id tenant) ↔ Timely agentId (s, last) (.get now id tenant) := by
  simp only [Spared, Timely, Live.reports]
  rw [fresh_iff h false]
  constructor
  · intro hspared hid row hrow hrowId hvisible view hview
    have hfind : s.store.agents.find? id = some row := Table.find_some_iff.mpr ⟨hrow, hrowId.trans hid.symm⟩
    have hget : s.store.getAgent now id tenant = some (some view) := by
      simp [Store.getAgent, hfind, Option.filter, hvisible, hview]
    exact hspared view (by simp [hget]) ((Store.readAgent_some hview).2.1.trans hrowId)
  · intro hnever view hview hid
    have hget : s.store.getAgent now id tenant = some (some view) := by
      simpa [Option.join_eq_some_iff] using hview
    obtain ⟨row, hrow, hrowId, hvisible, hread⟩ := Store.getAgent_some hget
    have hagent : row.id = agentId := (Store.readAgent_some hread).2.1.symm.trans hid
    exact hnever (hrowId.symm.trans hagent) row hrow hagent hvisible view hread

theorem cleanup_iff (h : AllKept agentId (s, last)) :
    Spared agentId s (.request (.cleanup now)) ↔ Timely agentId (s, last) (.request (.cleanup now)) := by
  simp only [Spared, Timely, Store.purgeStale, Table.find_delete]
  cases hfind : s.store.agents.find? agentId with
  | none => simp
  | some row =>
    obtain ⟨hrow, hid⟩ := Table.find_some_iff.mp hfind
    have hheartbeat := (h row hrow).heard hid
    simp only [Option.isSome_some, Option.filter, hheartbeat, forall_const, Option.any_some, Bool.not_eq_true',
      Bool.and_eq_false_iff, decide_eq_false_iff_not, Option.isSome_ite]
    rw [← imp_iff_not_or, Rat.not_lt]

end Reports

theorem spared_iff {p : Live × Rat} (event : Event) (h : AllKept agentId p) :
    Spared agentId p.1 event ↔ Timely agentId p event := by
  obtain ⟨s, last⟩ := p
  cases event with
  | list now tenant => exact list_iff h
  | get now id tenant => exact get_iff h id
  | request request =>
    cases request with
    | cleanup now => exact cleanup_iff h
    | _ => simp [Spared, Timely, Live.reports]
  | _ => simp [Spared, Timely, Live.reports]

/-- An agent is never handed out as stale and never purged if and only if it was heard of in time whenever
it is listed, looked up or a candidate for the purge; its pings are not among what it is heard by. -/
theorem never_stale_iff (env : Env) (agentId : String) (run : List Event) :
    EachStep (track env agentId) (fun p event => Spared agentId p.1 event) (Live.initial, 0) run ↔
      EachStep (track env agentId) (Timely agentId) (Live.initial, 0) run := by
  have hinitial : AllKept agentId (Live.initial, 0) := fun row hrow => absurd hrow List.not_mem_nil
  exact eachStep_congr (fun _ event h => allKept_step event h) (fun _ event h => spared_iff event h) hinitial run

section Answers

theorem annotate_id (view : Store.AgentView) : (s.annotate view).id = view.id := by
  rw [Live.annotate]
  split
  · rfl
  · rfl

theorem annotate_alive {view : Store.AgentView} (h : (s.wsConnections (s.annotate view).id).isSome = true) :
    (s.annotate view).status = "alive" := by
  rw [annotate_id] at h
  rw [Live.annotate, if_pos h]

/-- Over HTTP an agent with an open socket is always alive: the handlers look at the socket, the store does not. -/
theorem answers_alive {now : Rat} {authTenant queryTenant : Option String} {views : List Store.AgentView}
    (h : s.handleListAgents now authTenant queryTenant = some views) :
    ∀ view ∈ views, (s.wsConnections view.id).isSome = true → view.status = "alive" := by
  obtain ⟨agents, -, rfl⟩ := Option.map_eq_some_iff.mp h
  intro view hview hconnected
  obtain ⟨agent, -, rfl⟩ := List.mem_map.mp hview
  exact annotate_alive hconnected

theorem answer_alive {now : Rat} {id : String} {authTenant queryTenant headerTenant : Option String}
    {view : Store.AgentView} (h : s.handleGetAgent now id authTenant queryTenant headerTenant = some (some view))
    (hconnected : (s.wsConnections view.id).isSome = true) : view.status = "alive" := by
  obtain ⟨agent, -, hagent⟩ := Option.map_eq_some_iff.mp h
  obtain ⟨found, -, rfl⟩ := Option.map_eq_some_iff.mp hagent
  exact annotate_alive hconnected

end Answers

section Pings

/-- The time of a step. -/
def Event.time : Event → Option Rat
  | .request (.register draw _ _) => some draw.now
  | .request (.heartbeat now _ _ _) | .request (.toggle now _ _) | .request (.cleanup now) => some now
  | .connect now _ _ _ _ | .message now _ _ _ | .list now _ | .get now _ _ => some now
  | .request (.unregister _ _) | .leave _ _ => none

/-- The agent goes away, or something else than a ping comes from it. -/
def Event.unattended (agentId : String) : Event → Bool
  | .request (.unregister id _) | .leave id _ => id == agentId
  | .message _ id _ data =>
    id == agentId && !data.any (fun data => match data with
      | .obj [("type", .str "ping")] => true
      | _ => false)
  | _ => false

/-- From one ping to the next, and to any other step, it is no longer than the timeout. -/
def attends (agentId : String) (last : Rat) : List Event → Bool
  | [] => true
  | event :: events =>
    !event.unattended agentId &&
    event.time.all (fun now => decide (last ≤ now) && decide (now - last ≤ heartbeatTimeout)) &&
    attends agentId (match event with
      | .message now id _ _ => if id = agentId then now else last
      | _ => last) events

def sampleEnv : Env :=
  let p : Python := ⟨id, fun _ => true⟩
  ⟨p, Orchestration.python p some, id, fun _ => "0.0"⟩

def ping (now : Rat) : Event := .message now "a1" 0 (some (.obj [("type", .str "ping")]))

/-- An agent is registered and opens its socket. -/
def openSocket : List Event :=
  [.request (.register ⟨1000, "a1", ""⟩ none (some (.obj [("name", .str "echo")]))),
    .connect 1000 "a1" 0 none (.admitted none)]

/-- It pings every hundred seconds, is listed as stale, and is purged. -/
def pingOnly : List Event :=
  [ping 1100, .list 1150 none, ping 1200, ping 1300, .request (.cleanup 1301)]

theorem pinging_purged : attends "a1" 1000 pingOnly = true ∧
    (¬ EachStep (track sampleEnv "a1") (fun p event => Spared "a1" p.1 event) (Live.initial, 0)
      (openSocket ++ pingOnly)) ∧
    ((exec (track sampleEnv "a1") (Live.initial, 0) (openSocket ++ pingOnly)).1.store.agents.find? "a1").isNone = true := by
  refine ⟨by decide +kernel, ?_, by decide +kernel⟩
  intro h
  have hlisted : ∀ view ∈ (exec (track sampleEnv "a1") (Live.initial, 0) openSocket).1.reports (.list 1150 none),
      view.id = "a1" → view.status ≠ "stale" := h.2.2.2.1
  revert hlisted
  decide +kernel

end Pings

end A2ARegistry.Registry
