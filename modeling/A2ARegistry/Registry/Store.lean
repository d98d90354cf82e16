import A2ARegistry.Base.Run
import A2ARegistry.Base.Table
import A2ARegistry.Orchestration.Detail

namespace A2ARegistry.Registry
open Base

/-- `HEARTBEAT_TIMEOUT`. -/
def heartbeatTimeout : Rat := 120

/-- `HEARTBEAT_PURGE`. -/
def heartbeatPurge : Rat := 300

/-- `AgentCard`, each field as it is serialized. -/
structure AgentCard where
  name : Json
  description : Json := .str ""
  supportedInterfaces : Json := .arr []
  provider : Json := .null
  version : Json := .str "1.0.0"
  documentationUrl : Json := .null
  capabilities : Json := .obj []
  securitySchemes : Json := .obj []
  securityRequirements : Json := .arr []
  defaultInputModes : Json := .arr [.str "text/plain"]
  defaultOutputModes : Json := .arr [.str "text/plain"]
  skills : Json := .arr []
  signatures : Json := .arr []
  iconUrl : Json := .null

/-- `to_dict`. -/
def AgentCard.toDict (card : AgentCard) : List (String × Json) :=
  Orchestration.toDict [("name", card.name), ("description", card.description),
    ("supported_interfaces", card.supportedInterfaces), ("provider", card.provider), ("version", card.version),
    ("documentation_url", card.documentationUrl), ("capabilities", card.capabilities),
    ("security_schemes", card.securitySchemes), ("security_requirements", card.securityRequirements),
    ("default_input_modes", card.defaultInputModes), ("default_output_modes", card.defaultOutputModes),
    ("skills", card.skills), ("signatures", card.signatures), ("icon_url", card.iconUrl)]

/-- A card has no field for the tenant its agent is in. -/
theorem AgentCard.toDict_tenantId (card : AgentCard) : ∀ f ∈ card.toDict, f.1 ≠ "tenant_id" := by
  intro f hf he
  have hname := List.mem_map_of_mem (f := Prod.fst) (List.mem_filter.mp hf).1
  rw [he] at hname
  simp at hname

/-- A row of `agents`, the card decoded. A heartbeat that is not a number is `none`. -/
structure AgentRow where
  id : String
  card : Json
  heartbeatAt : Option Rat
  disabled : Bool := false
  tenantId : String := ""
  preferredChannel : String := "ws"
  callbackUrl : String := ""
  callbackToken : String := ""

instance : Keyed String AgentRow := ⟨AgentRow.id⟩

/-- `AuthorizationRecord`, a row of `agent_authorizations`, the actions decoded. -/
structure AuthorizationRecord where
  id : Nat
  sourceAgentId : String
  targetAgentId : String
  allowedActions : List String
  scopeRestriction : Option String := none
  maxDepth : Int := 5
  tenantId : String := ""
  createdAt : Rat
  expiresAt : Option Rat := none

instance : Keyed Nat AuthorizationRecord := ⟨AuthorizationRecord.id⟩

/-- The tables of the registry part of the store. -/
structure Store where
  agents : Table AgentRow
  authorizations : AutoTable AuthorizationRecord

namespace Store

section Queries

/-- An agent as it is handed out: its card, and the keys that are put over the card's own. -/
structure AgentView where
  card : List (String × Json)
  id : String
  tenant : String
  preferredChannel : String
  callbackUrl : String
  callbackToken : String
  status : String
  disabled : Bool
  lastHeartbeat : Option Rat

/-- The agents a tenant sees: its own, and those without one. No tenant at all sees every agent. -/
def visibleTo (tenant : Option String) (row : AgentRow) : Bool :=
  match tenant with
  | none => true
  | some tenant => row.tenantId == tenant || row.tenantId == ""

/-- The view of a row; `none` when a card that is no object, or a heartbeat that is no number, makes it raise. -/
def readAgent (now : Rat) (listed : Bool) (row : AgentRow) : Option AgentView :=
  match row.card, row.heartbeatAt with
  | .obj card, some lastHb =>
    let elapsed := if lastHb = 0 then heartbeatTimeout + 1 else now - lastHb
    some {
      card := card
      id := row.id
      tenant := row.tenantId
      preferredChannel := if row.preferredChannel = "" then "ws" else row.preferredChannel
      callbackUrl := row.callbackUrl
      callbackToken := row.callbackToken
      status := if row.disabled then "disabled" else if elapsed ≤ heartbeatTimeout then "alive" else "stale"
      disabled := row.disabled
      lastHeartbeat := if listed then some lastHb else none }
  | _, _ => none

/-- `list_agents` without a skill, a tag or a text to search for; `none` when it raises. -/
def listAgents (store : Store) (now : Rat) (tenant : Option String) : Option (List AgentView) :=
  (store.agents.select (visibleTo tenant)).mapM (readAgent now true)

/-- `needle in value`; `none` for a value that contains nothing. -/
def textIn (needle : String) : Json → Option Bool
  | .str s => some (contains s needle)
  | .arr items => some (items.any (Json.isWord [needle]))
  | .obj fields => some (fields.any (fun f => f.1 == needle))
  | _ => none

/-- `s.get("name", "") or s.get("id", "")`. -/
def skillText (s : List (String × Json)) : Json :=
  let name := Json.get s "name" (.str "")
  if name.truthy then name else Json.get s "id" (.str "")

/-- One of the skills has the text in what is looked at; `none` when one before it raises. -/
def anySkill (skill : String) : List Json → Option Bool
  | [] => some false
  | .obj s :: skills => match textIn skill (skillText s) with
    | none => none
    | some true => some true
    | some false => anySkill skill skills
  | _ :: _ => none

/-- The test of a card for a skill. -/
def fitsSkill (skill : Option String) (card : List (String × Json)) : Option Bool :=
  if truthy skill then (Json.get card "skills" (.arr [])).iterate.bind (anySkill (skill.getD "")) else some true

/-- The test of a card for a tag. -/
def fitsTag (tag : Option String) (card : List (String × Json)) : Option Bool :=
  if truthy tag then textIn (tag.getD "") (Json.get card "tags" (.arr [])) else some true

/-- A row in the loop of `list_agents`: its view, if it is not passed over; the outer `none` when it raises. -/
def searchRow (now : Rat) (skill tag : Option String) (row : AgentRow) : Option (Option AgentView) :=
  (readAgent now true row).bind (fun view =>
    match fitsSkill skill view.card with
    | none => none
    | some false => some none
    | some true => (fitsTag tag view.card).map (fun fits => if fits then some view else none))

/-- `list_agents` for a skill and a tag, without a text to search for; `none` when it raises. -/
def searchAgents (store : Store) (now : Rat) (skill tag tenant : Option String) : Option (List AgentView) :=
  ((store.agents.select (visibleTo tenant)).mapM (searchRow now skill tag)).map List.reduceOption

/-- `get_agent`; the outer `none` when it raises. -/
def getAgent (store : Store) (now : Rat) (agentId : String) (tenant : Option String) : Option (Option AgentView) :=
  match (store.agents.find? agentId).filter (visibleTo tenant) with
  | none => some none
  | some row => (readAgent now false row).map some

/-- What a conversion makes of a list comes from its elements. -/
theorem mem_mapM {α β : Type} {f : α → Option β} {as : List α} {bs : List β} {b : β}
    (h : as.mapM f = some bs) (hb : b ∈ bs) : ∃ a ∈ as, f a = some b := by
  induction as generalizing bs with
  | nil =>
    obtain rfl : bs = [] := by simpa using h.symm
    cases hb
  | cons a as ih =>
    simp only [List.mapM_cons, Option.bind_eq_bind, Option.bind_eq_some_iff, Option.pure_def] at h
    obtain ⟨b', hb', bs', hbs', he⟩ := h
    cases he
    rcases List.mem_cons.mp hb with rfl | hb
    · exact ⟨a, List.mem_cons_self .., hb'⟩
    · obtain ⟨a', ha', hfa⟩ := ih hbs' hb
      exact ⟨a', List.mem_cons_of_mem a ha', hfa⟩

/-- A conversion that goes through has converted every element. -/
theorem mapM_mem {α β : Type} {f : α → Option β} {as : List α} {bs : List β} {a : α}
    (h : as.mapM f = some bs) (ha : a ∈ as) : ∃ b ∈ bs, f a = some b := by
  induction as generalizing bs with
  | nil => cases ha
  | cons first as ih =>
    simp only [List.mapM_cons, Option.bind_eq_bind, Option.bind_eq_some_iff, Option.pure_def, Option.some.injEq] at h
    obtain ⟨b, hb, bs', hbs', rfl⟩ := h
    rcases List.mem_cons.mp ha with rfl | ha
    · exact ⟨b, List.mem_cons_self .., hb⟩
    · obtain ⟨b', hb', hfa⟩ := ih hbs' ha
      exact ⟨b', List.mem_cons_of_mem b hb', hfa⟩

/-- One goes through if it does for each element. -/
theorem mapM_isSome {α β : Type} {f : α → Option β} {as : List α} (h : ∀ a ∈ as, (f a).isSome = true) :
    ∃ bs, as.mapM f = some bs := by
  induction as with
  | nil => exact ⟨[], rfl⟩
  | cons a as ih =>
    obtain ⟨hfirst, hrest⟩ := List.forall_mem_cons.mp h
    obtain ⟨b, hb⟩ := Option.isSome_iff_exists.mp hfirst
    obtain ⟨bs, hbs⟩ := ih hrest
    exact ⟨b :: bs, by simp [hb, hbs]⟩

/-- Without a skill and a tag every agent the tenant sees is listed. -/
theorem searchAgents_all (store : Store) (now : Rat) (tenant : Option String) :
    searchAgents store now none none tenant = listAgents store now tenant := by
  unfold searchAgents listAgents
  generalize store.agents.select (visibleTo tenant) = rows
  induction rows with
  | nil => rfl
  | cons row rows ih =>
    have hrow : searchRow now none none row = (readAgent now true row).map some := by
      cases hread : readAgent now true row with
      | none => simp [searchRow, hread]
      | some view => simp [searchRow, hread, fitsSkill, fitsTag, truthy]
    rw [List.mapM_cons, List.mapM_cons, hrow, ← ih]
    cases readAgent now true row with
    | none => rfl
    | some view =>
      cases List.mapM (searchRow now none none) rows with
      | none => rfl
      | some views => rfl

theorem readAgent_some {now : Rat} {listed : Bool} {row : AgentRow} {view : AgentView}
    (h : readAgent now listed row = some view) :
    row.card = .obj view.card ∧ view.id = row.id ∧ view.tenant = row.tenantId ∧ view.disabled = row.disabled := by
  unfold readAgent at h
  split at h
  · rename_i hcard _
    cases h
    exact ⟨hcard, rfl, rfl, rfl⟩
  · cases h

/-- What is handed out under an id is its row, if the tenant sees it. -/
theorem getAgent_some {store : Store} {now : Rat} {agentId : String} {tenant : Option String} {view : AgentView}
    (h : getAgent store now agentId tenant = some (some view)) :
    ∃ row ∈ store.agents.rows, row.id = agentId ∧ visibleTo tenant row = true ∧
      readAgent now false row = some view := by
  unfold getAgent at h
  cases hf : (store.agents.find? agentId).filter (visibleTo tenant) with
  | none => simp [hf] at h
  | some row =>
    obtain ⟨hrow, hvisible⟩ := Option.filter_eq_some_iff.mp hf
    obtain ⟨hmem, hid⟩ := Table.find_some_iff.mp hrow
    simp only [hf, Option.map_eq_some_iff, Option.some.injEq, exists_eq_right] at h
    exact ⟨row, hmem, hid, hvisible, h⟩

/-- What is handed out as stale is not disabled, and its heartbeat is longer ago than the timeout, or is zero. -/
theorem readAgent_stale {now lastHb : Rat} {listed : Bool} {row : AgentRow} {view : AgentView}
    (h : readAgent now listed row = some view) (hheartbeat : row.heartbeatAt = some lastHb) :
    view.status = "stale" ↔ row.disabled = false ∧ ¬ (lastHb ≠ 0 ∧ now - lastHb ≤ heartbeatTimeout) := by
  unfold readAgent at h
  rw [hheartbeat] at h
  split at h
  · rename_i he
    cases he
    cases h
    cases hdisabled : row.disabled with
    | true => simp
    | false =>
      by_cases hzero : lastHb = 0
      · have hlate : ¬ heartbeatTimeout + 1 ≤ heartbeatTimeout := by decide +kernel
        simp [hzero, hlate]
      · by_cases hfresh : now - lastHb ≤ heartbeatTimeout
        · simp [hzero, hfresh]
        · simp [hzero, hfresh]
  · cases h

/-- Every agent a tenant sees is in the list it is given. -/
theorem listAgents_complete {store : Store} {now : Rat} {tenant : Option String} {views : List AgentView}
    (h : listAgents store now tenant = some views) {row : AgentRow} (hrow : row ∈ store.agents.rows)
    (hvisible : visibleTo tenant row = true) : ∃ view ∈ views, readAgent now true row = some view :=
  mapM_mem h (Table.mem_select.mpr ⟨hrow, hvisible⟩)

/-- What is listed are rows the tenant sees. -/
theorem mem_listAgents {store : Store} {now : Rat} {tenant : Option String} {views : List AgentView}
    {view : AgentView} (h : listAgents store now tenant = some views) (hview : view ∈ views) :
    ∃ row ∈ store.agents.rows, visibleTo tenant row = true ∧ readAgent now true row = some view := by
  obtain ⟨row, hrow, hread⟩ := mem_mapM h hview
  obtain ⟨hmem, hvisible⟩ := Table.mem_select.mp hrow
  exact ⟨row, hmem, hvisible, hread⟩

end Queries

section Mutations

variable (store : Store)

/-- What `register_agent` draws and takes from the body, next to the card. -/
structure Registration where
  agentId : String
  card : AgentCard
  tenant : String := ""
  preferredChannel : String := "ws"
  callbackUrl : String := ""
  callbackToken : String := ""

/-- `register_agent`; `none` when the insert raises. -/
def registerAgent (now : Rat) (r : Registration) : Option Store :=
  (store.agents.insert? {
    id := r.agentId
    card := .obj r.card.toDict
    heartbeatAt := some now
    tenantId := r.tenant
    preferredChannel := r.preferredChannel
    callbackUrl := r.callbackUrl
    callbackToken := if r.preferredChannel = "callback" then r.callbackToken else "" }).map
    (fun agents => { store with agents := agents })

/-- The row a mutation by id is about, and by tenant if it names one. -/
def ofTenant (agentId tenant : String) (row : AgentRow) : Bool :=
  row.id == agentId && (tenant == "" || row.tenantId == tenant)

/-- `heartbeat`. -/
def heartbeat (now : Rat) (agentId tenant : String) : Store :=
  let agents := store.agents.modify (ofTenant agentId tenant) (fun row => { row with heartbeatAt := some now })
  { store with agents := agents }

/-- `unregister`. -/
def unregister (agentId tenant : String) : Store :=
  { store with agents := store.agents.delete (ofTenant agentId tenant) }

/-- `purge_stale`. -/
def purgeStale (now : Rat) : Store :=
  { store with agents := store.agents.delete (fun row =>
      row.heartbeatAt.any (fun hb => decide (0 < hb) && decide (hb < now - heartbeatPurge))) }

/-- `toggle_agent`. -/
def toggleAgent (agentId tenant : String) : Store :=
  let agents := store.agents.modify (ofTenant agentId tenant) (fun row => { row with disabled := !row.disabled })
  { store with agents := agents }

/-- The arguments of `create_authorization`. -/
structure Authorization where
  sourceAgentId : String
  targetAgentId : String
  allowedActions : List String := []
  scopeRestriction : Option String := none
  maxDepth : Int := 5
  expiresAt : Option Rat := none
  tenant : String := ""

/-- `create_authorization`; `none` when there is a record for the two agents in the tenant. -/
def createAuthorization (now : Rat) (a : Authorization) : Option Store :=
  if store.authorizations.rows.any (fun row => row.sourceAgentId == a.sourceAgentId &&
      row.targetAgentId == a.targetAgentId && row.tenantId == a.tenant) then none
  else some { store with authorizations := store.authorizations.insert (fun id => {
    id := id
    sourceAgentId := a.sourceAgentId
    targetAgentId := a.targetAgentId
    allowedActions := if a.allowedActions.isEmpty then ["*"] else a.allowedActions
    scopeRestriction := a.scopeRestriction
    maxDepth := a.maxDepth
    tenantId := a.tenant
    createdAt := now
    expiresAt := a.expiresAt }) }

/-- `delete_authorization`. -/
def deleteAuthorization (authzId : Nat) : Store :=
  { store with authorizations := store.authorizations.keep (fun row => row.id != authzId) }

end Mutations

/-- An entry of `registry.json`: any card there is, under an id. -/
structure LegacyAgent where
  id : String
  card : Json
  heartbeatAt : Option Rat

/-- `_maybe_migrate_from_json`: an agent whose id is there already is ignored. -/
def migrateAgents (table : Table AgentRow) : List LegacyAgent → Table AgentRow
  | [] => table
  | agent :: agents =>
    let row : AgentRow := { id := agent.id, card := agent.card, heartbeatAt := agent.heartbeatAt }
    migrateAgents ((table.insert? row).getD table) agents

/-- The store that starts from them. -/
def migrateFromJson (agents : List LegacyAgent) : Store := ⟨migrateAgents Table.empty agents, AutoTable.empty⟩

/-- A call that changes the registry. -/
inductive Call
  | registerAgent (now : Rat) (r : Registration)
  | heartbeat (now : Rat) (agentId tenant : String)
  | unregister (agentId tenant : String)
  | purgeStale (now : Rat)
  | toggleAgent (agentId tenant : String)
  | createAuthorization (now : Rat) (a : Authorization)
  | deleteAuthorization (authzId : Nat)

def step (store : Store) : Call → Store
  | .registerAgent now r => (store.registerAgent now r).getD store
  | .heartbeat now agentId tenant => store.heartbeat now agentId tenant
  | .unregister agentId tenant => store.unregister agentId tenant
  | .purgeStale now => store.purgeStale now
  | .toggleAgent agentId tenant => store.toggleAgent agentId tenant
  | .createAuthorization now a => (store.createAuthorization now a).getD store
  | .deleteAuthorization authzId => store.deleteAuthorization authzId

/-- The card of an agent in a tenant does not name one of its own. -/
def Untenanted (row : AgentRow) : Prop :=
  row.tenantId ≠ "" → ∃ card : List (String × Json), row.card = .obj card ∧ ∀ f ∈ card, f.1 ≠ "tenant_id"

/-- Agents in a tenant have been registered there. -/
def TenantsRegistered (store : Store) : Prop := ∀ row ∈ store.agents.rows, Untenanted row

/-- The agents of the file are in no tenant. -/
theorem migrateAgents_tenant {table : Table AgentRow} (h : ∀ row ∈ table.rows, row.tenantId = "")
    (legacy : List LegacyAgent) : ∀ row ∈ (migrateAgents table legacy).rows, row.tenantId = "" := by
  induction legacy generalizing table with
  | nil => exact h
  | cons agent legacy ih =>
    apply ih
    cases hi : table.insert? _ with
    | none => exact h
    | some table' =>
      intro row hrow
      rw [Option.getD_some, (Table.insert_some hi).2] at hrow
      rcases List.mem_append.mp hrow with hrow | hrow
      · exact h row hrow
      · rw [List.mem_singleton.mp hrow]

theorem tenantsRegistered_migrated (legacy : List LegacyAgent) : (migrateFromJson legacy).TenantsRegistered :=
  fun row hrow htenant => absurd (migrateAgents_tenant (fun _ h => absurd h List.not_mem_nil) legacy row hrow) htenant

/-- Changing rows in place keeps the invariant if their tenants and cards are left alone. -/
theorem tenantsRegistered_modify {store : Store} (h : store.TenantsRegistered) {p : AgentRow → Bool}
    {f : AgentRow → AgentRow} (hf : ∀ row, key (f row) = key row) (htenant : ∀ row, (f row).tenantId = row.tenantId)
    (hcard : ∀ row, (f row).card = row.card) :
    TenantsRegistered { store with agents := store.agents.modify p f hf } := by
  intro row hrow
  have hmodified : row ∈ (store.agents.modify p f hf).rows := hrow
  obtain ⟨old, hold, rfl⟩ := Table.mem_modify.mp hmodified
  split
  · unfold Untenanted
    rw [htenant, hcard]
    exact h old hold
  · exact h old hold

theorem tenantsRegistered_step {store : Store} (call : Call) (h : store.TenantsRegistered) :
    (store.step call).TenantsRegistered := by
  cases call with
  | registerAgent now r =>
    simp only [step, registerAgent]
    cases hi : store.agents.insert? _ with
    | none => exact h
    | some agents =>
      intro row hrow
      rw [Option.map_some, Option.getD_some, (Table.insert_some hi).2] at hrow
      rcases List.mem_append.mp hrow with hrow | hrow
      · exact h row hrow
      · rw [List.mem_singleton.mp hrow]
        exact fun _ => ⟨r.card.toDict, rfl, r.card.toDict_tenantId⟩
  | heartbeat now agentId tenant =>
    unfold step heartbeat
    exact tenantsRegistered_modify h _ (fun _ => rfl) (fun _ => rfl)
  | unregister agentId tenant => exact fun row hrow => h row (List.mem_of_mem_filter hrow)
  | purgeStale now => exact fun row hrow => h row (List.mem_of_mem_filter hrow)
  | toggleAgent agentId tenant =>
    unfold step toggleAgent
    exact tenantsRegistered_modify h _ (fun _ => rfl) (fun _ => rfl)
  | createAuthorization now a =>
    simp only [step, createAuthorization]
    split
    · exact h
    · exact h
  | deleteAuthorization authzId => exact h

/-- It holds of every store the calls lead to. -/
theorem tenantsRegistered (legacy : List LegacyAgent) (calls : List Call) :
    (exec step (migrateFromJson legacy) calls).TenantsRegistered :=
  exec_invariant (fun _ call h => tenantsRegistered_step call h) (tenantsRegistered_migrated legacy) calls

end Store

end A2ARegistry.Registry
