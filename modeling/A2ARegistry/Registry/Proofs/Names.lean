import A2ARegistry.Base.Outcomes
import A2ARegistry.Registry.Handlers

namespace A2ARegistry.Registry
open Base

section Definitions

variable (env : Env)

/-- The name of a card, stripped and in lower case; `none` when it is no text. -/
def foldedName : Json → Option String
  | .obj card =>
    match Json.get card "name" (.str "") with
    | .str name => some (env.lower (strip name))
    | _ => none
  | _ => none

/-- The tenant of an agent, and its name there. -/
def agentName (row : AgentRow) : String × Option String := (row.tenantId, foldedName env row.card)

/-- No two agents of a tenant have the same name. -/
def NamesUnique (store : Store) : Prop := (store.agents.rows.map (agentName env)).Nodup

end Definitions

variable {env : Env} {store store' : Store}

section Lookup

variable {now : Rat} {views : List Store.AgentView}

/-- The list that is searched for a name has every agent in it of the tenant the new one is put in. -/
theorem listTenant_complete {tenant : Json} (h : listTenant env store now tenant = some views) {row : AgentRow}
    (hrow : row ∈ store.agents.rows)
    (htenant : tenant.truthy = true → env.engine.bind tenant = some (some row.tenantId)) :
    ∃ view ∈ views, row.card = .obj view.card := by
  rw [listTenant] at h
  split at h
  · rename_i htruthy
    rw [htenant htruthy, Option.bind_some, Option.getD_some] at h
    obtain ⟨view, hview, hread⟩ := Store.listAgents_complete h hrow (by simp [Store.visibleTo])
    exact ⟨view, hview, (Store.readAgent_some hread).1⟩
  · obtain ⟨view, hview, hread⟩ := Store.listAgents_complete h hrow rfl
    exact ⟨view, hview, (Store.readAgent_some hread).1⟩

theorem nameTaken_false {name : String} (h : nameTaken env name views = some false) :
    ∀ view ∈ views, ∃ other, Json.get view.card "name" (.str "") = .str other ∧
      env.lower (strip other) ≠ env.lower name := by
  induction views with
  | nil => simp
  | cons view views ih =>
    rw [nameTaken] at h
    split at h
    · rename_i other hother
      split at h
      · cases h
      · rename_i hdiffers
        exact List.forall_mem_cons.mpr ⟨⟨other, hother, hdiffers⟩, ih h⟩
    · cases h

/-- A name that is not taken is the name of no agent there. -/
theorem foldedName_ne {name : String} (h : nameTaken env name views = some false) {view : Store.AgentView}
    (hview : view ∈ views) : foldedName env (.obj view.card) ≠ some (env.lower name) := by
  obtain ⟨other, hother, hdiffers⟩ := nameTaken_false h view hview
  intro he
  simp only [foldedName, hother, Option.some.injEq] at he
  exact hdiffers he

end Lookup

section Registering

variable {draw : RegisterDraw} {body : List (String × Json)} {tenant : Json}

theorem fromDict_name {card : AgentCard} (h : AgentCard.fromDict (.obj body) = .ok card) :
    card.name = Json.get body "name" (.str "") := by
  rw [AgentCard.fromDict] at h
  obtain ⟨d, hd, h⟩ := Returns.bind_ok_iff.mp h
  cases hd
  obtain ⟨_, -, h⟩ := Returns.bind_ok_iff.mp h
  obtain ⟨_, -, h⟩ := Returns.bind_ok_iff.mp h
  obtain ⟨_, -, h⟩ := Returns.bind_ok_iff.mp h
  obtain ⟨_, -, h⟩ := Returns.bind_ok_iff.mp h
  obtain ⟨_, -, h⟩ := Returns.bind_ok_iff.mp h
  obtain ⟨_, -, h⟩ := Returns.bind_ok_iff.mp h
  obtain ⟨_, -, h⟩ := Returns.bind_ok_iff.mp h
  cases h
  rfl

theorem toDict_name {card : AgentCard} {name : String} (h : card.name = .str name) :
    Json.get card.toDict "name" (.str "") = .str name := by
  simp [AgentCard.toDict, Orchestration.toDict, Json.get, h]

/-- A card that is registered is kept under its name, in the tenant it is registered under if there is one. -/
theorem registerCard_named {name : String} (hname : Json.get body "name" (.str "") = .str name)
    (h : registerCard env store draw body tenant = some store') :
    ∃ row, store'.agents.rows = store.agents.rows ++ [row] ∧
      foldedName env row.card = some (env.lower (strip name)) ∧
      (tenant.truthy = true → env.engine.bind tenant = some (some row.tenantId)) := by
  obtain ⟨card, row, hcard, hrow⟩ := registerCard_some h
  refine ⟨row, hrow.rows_eq, ?_, ?_⟩
  · rw [hrow.card_eq]
    simp only [foldedName, toDict_name ((fromDict_name hcard).trans hname)]
  · intro htruthy
    have hbound := hrow.tenant_eq
    rwa [registeredTenant, if_pos htruthy] at hbound

theorem namesUnique_register (h : NamesUnique env store) (draw : RegisterDraw) (authTenant : Option String)
    (body : Option Json) : NamesUnique env (handleRegister env store draw authTenant body).2 := by
  rcases handleRegister_cases env store draw authTenant body with hsame |
    ⟨fields, name, views, hname, hviews, hfree, hregistered⟩
  · rw [hsame]
    exact h
  · obtain ⟨row, hrows, hfolded, htenant⟩ := registerCard_named hname hregistered
    rw [NamesUnique, hrows, List.map_append, List.map_singleton, List.nodup_append]
    refine ⟨h, List.nodup_singleton _, ?_⟩
    intro a ha b hb he
    obtain rfl := List.mem_singleton.mp hb
    obtain ⟨other, hother, rfl⟩ := List.mem_map.mp ha
    obtain ⟨hsameTenant, hsameName⟩ := Prod.mk.inj he
    obtain ⟨view, hview, hcard⟩ := listTenant_complete hviews hother (fun ht => hsameTenant ▸ htenant ht)
    rw [hcard, hfolded] at hsameName
    exact foldedName_ne hfree hview hsameName

end Registering

theorem namesUnique_modify (h : NamesUnique env store) {p : AgentRow → Bool} {f : AgentRow → AgentRow}
    (hf : ∀ row, key (f row) = key row) (hname : ∀ row, agentName env (f row) = agentName env row) :
    NamesUnique env { store with agents := store.agents.modify p f hf } := by
  have hsame : agentName env ∘ (fun row => if p row then f row else row) = agentName env := by
    funext row
    by_cases hp : p row
    · simp [hp, hname]
    · simp [hp]
  rw [NamesUnique, Table.modify, List.map_map, hsame]
  exact h

theorem namesUnique_delete (h : NamesUnique env store) (p : AgentRow → Bool) :
    NamesUnique env { store with agents := store.agents.delete p } :=
  List.Nodup.sublist (List.Sublist.map (agentName env) List.filter_sublist) h

theorem namesUnique_step (request : Request) (h : NamesUnique env store) : NamesUnique env (step env store request) := by
  cases request with
  | register draw authTenant body => exact namesUnique_register h draw authTenant body
  | unregister agentId tenant =>
    simp only [step, handleUnregister]
    split
    · exact namesUnique_delete h _
    · exact h
  | heartbeat now agentId authTenant queryTenant =>
    simp only [step, handleHeartbeat]
    repeat' split
    all_goals first | exact h | exact namesUnique_modify h _ (fun _ => rfl)
  | toggle now agentId tenant =>
    simp only [step, handleToggleAgent]
    split
    · exact namesUnique_modify h _ (fun _ => rfl)
    · exact h
  | cleanup now => exact namesUnique_delete h _

/-- Whatever is requested of an empty registry, no two agents of a tenant come to have the same name. -/
theorem names_unique (env : Env) (requests : List Request) :
    NamesUnique env (exec (step env) ⟨Table.empty, AutoTable.empty⟩ requests) := by
  have hempty : NamesUnique env ⟨Table.empty, AutoTable.empty⟩ := List.nodup_nil
  exact exec_invariant (fun _ request h => namesUnique_step request h) hempty requests

end A2ARegistry.Registry
