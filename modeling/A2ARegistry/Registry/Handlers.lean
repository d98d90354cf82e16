import A2ARegistry.Orchestration.Store.Listing
import A2ARegistry.Registry.Cards
import A2ARegistry.Registry.Validation

namespace A2ARegistry.Registry
open Base Orchestration

/-- What the handlers take from Python and from SQLite: the text conversions, what a parameter is bound to,
`str.lower()`, and the `repr` of a float. -/
structure Env where
  python : Python
  engine : Orchestration.Engine
  lower : String → String
  floatRepr : Rat → String

namespace Store

/-- A view as it is handed out, its keys put over those of the card. -/
def AgentView.toJson (floatRepr : Rat → String) (view : AgentView) : Json :=
  let keys : List (String × Json) := [("id", .str view.id), ("tenant", .str view.tenant),
    ("preferred_channel", .str view.preferredChannel), ("callback_url", .str view.callbackUrl),
    ("callback_token", .str view.callbackToken), ("status", .str view.status), ("disabled", .bool view.disabled)] ++
    (view.lastHeartbeat.map (fun lastHb => ("lastHeartbeat", Json.float (floatRepr lastHb)))).toList
  .obj (keys.foldl Json.putField view.card)

end Store

/-- What a registration draws. -/
structure RegisterDraw where
  now : Rat
  agentId : String
  callbackToken : String

section Handlers

variable (env : Env) (store : Store)

/-- The first tenant that an interface of the card names. -/
def interfaceTenant : Json → Option Json
  | .arr interfaces => (interfaces.map (fun iface => match iface with
    | .obj iface => Json.field iface "tenant"
    | _ => .null)).find? Json.truthy
  | _ => none

/-- The tenant an agent is put in: the one it is registered under, or else what its card says. -/
def registeredTenant (body : List (String × Json)) (card : AgentCard) (tenant : Json) : Json :=
  if tenant.truthy then tenant
  else
    let tenant := Json.get body "tenant" (.str "")
    if tenant.truthy then tenant else (interfaceTenant card.supportedInterfaces).getD tenant

/-- `register_agent`, for a card as it is posted; `none` when it raises. No column of the row may be NULL. -/
def registerCard (draw : RegisterDraw) (body : List (String × Json)) (tenant : Json) : Option Store :=
  match AgentCard.fromDict (.obj body) with
  | .error _ => none
  | .ok card =>
    match env.engine.bind (registeredTenant body card tenant),
      env.engine.bind (Json.get body "preferred_channel" (.str "ws")),
      env.engine.bind (Json.get body "callback_url" (.str "")) with
    | some (some tenant), some (some preferredChannel), some (some callbackUrl) =>
      store.registerAgent draw.now ⟨draw.agentId, card, tenant, preferredChannel, callbackUrl, draw.callbackToken⟩
    | _, _, _ => none

/-- `list_agents(tenant=tenant if tenant else None)`. Nothing is equal to a tenant that is bound as NULL, so that only
the agents without one are seen. -/
def listTenant (now : Rat) (tenant : Json) : Option (List Store.AgentView) :=
  if tenant.truthy then
    (env.engine.bind tenant).bind (fun bound => store.listAgents now (some (bound.getD "")))
  else store.listAgents now none

/-- An agent of the list has the name; `none` when one has a name that is no text. -/
def nameTaken (name : String) : List Store.AgentView → Option Bool
  | [] => some false
  | agent :: agents =>
    match Json.get agent.card "name" (.str "") with
    | .str other => if env.lower (strip other) = env.lower name then some true else nameTaken name agents
    | _ => none

/-- The tenant of the request: the caller's, or else the one the body names. -/
def requestTenant (authTenant : Option String) (body : List (String × Json)) : Json :=
  if truthy authTenant then .ofText authTenant else Json.get body "tenant" (.str "")

/-- The answer to a registration that went through. -/
def registered (now : Rat) (agentId : String) (store : Store) : Response :=
  match store.getAgent now agentId none with
  | none => serverError
  | some view =>
    let card := (view.map (Store.AgentView.toJson env.floatRepr)).getD .null
    ⟨201, [("message", .str "Agent registered successfully"), ("id", .str agentId),
      ("card", sanitizeCardOutput card 0)], []⟩

/-- `handle_register`; the body is `none` when it is not JSON. -/
def handleRegister (draw : RegisterDraw) (authTenant : Option String) : Option Json → Response × Store
  | none => (jsonError 400 "invalid_json" "Invalid JSON body", store)
  | some (.obj body) =>
    match Json.get body "name" (.str "") with
    | .str rawName =>
      let name := strip rawName
      if name = "" then (jsonError 400 "validation_error" "Agent requires a 'name'", store)
      else match validateAgentCard env.python (.obj body) with
        | .error _ => (serverError, store)
        | .ok (error :: errors) =>
          let details := joinBy "; " (((error :: errors).take 5).map ValidationError.detail)
          (jsonError 400 "validation_error" details, store)
        | .ok [] =>
          let tenant := requestTenant authTenant body
          match (listTenant env store draw.now tenant).bind (nameTaken env name) with
          | none => (serverError, store)
          | some true => (jsonError 409 "agent_exists" s!"Agent '{name}' already exists", store)
          | some false =>
            match registerCard env store draw body tenant with
            | none => (serverError, store)
            | some store' => (registered env draw.now draw.agentId store', store')
    | _ => (serverError, store)
  | some _ => (serverError, store)

/-- `handle_unregister`. -/
def handleUnregister (agentId tenant : String) : Response × Store :=
  if store.agents.rows.any (Store.ofTenant agentId tenant) then
    (⟨200, [("message", .str "Agent unregistered successfully"), ("id", .str agentId)], []⟩,
      store.unregister agentId tenant)
  else (jsonError 404 "agent_not_found" s!"Agent '{agentId}' not found", store)

/-- The tenant an agent is looked up in for a heartbeat: the caller's, or the one the query names to a caller
without one. -/
def heartbeatTenant (authTenant queryTenant : Option String) : Option String :=
  if truthy authTenant then authTenant else queryTenant

/-- `handle_heartbeat`. -/
def handleHeartbeat (now : Rat) (agentId : String) (authTenant queryTenant : Option String) : Response × Store :=
  let tenant := heartbeatTenant authTenant queryTenant
  match store.getAgent now agentId tenant with
  | none => (serverError, store)
  | some none => (jsonError 404 "agent_not_found" s!"Agent '{agentId}' not found", store)
  | some (some view) =>
    if view.status = "stale" then
      (jsonError 410 "agent_stale" s!"Agent '{agentId}' is stale and cannot heartbeat", store)
    else if store.agents.rows.any (Store.ofTenant agentId (tenant.getD "")) then
      (⟨203, [("id", .str agentId), ("status", .str "alive"), ("last_heartbeat", .float (env.floatRepr now)),
          ("expires_at", .float (env.floatRepr (now + heartbeatTimeout))), ("stale_timeout", .int 120)], []⟩,
        store.heartbeat now agentId (tenant.getD ""))
    else (jsonError 404 "agent_not_found" s!"Agent '{agentId}' not found", store)

/-- `handle_toggle_agent`. -/
def handleToggleAgent (now : Rat) (agentId tenant : String) : Response × Store :=
  if store.agents.rows.any (Store.ofTenant agentId tenant) then
    let store' := store.toggleAgent agentId tenant
    let response := match store'.getAgent now agentId none with
      | none => serverError
      | some none => ⟨200, [("id", .str agentId), ("status", .str "unknown"), ("disabled", .bool false)], []⟩
      | some (some view) =>
        ⟨200, [("id", .str agentId), ("status", .str view.status), ("disabled", .bool view.disabled)], []⟩
    (response, store')
  else (jsonError 404 "agent_not_found" s!"Agent '{agentId}' not found", store)

end Handlers

section Specs

variable {env : Env} {store store' : Store} {draw : RegisterDraw} {body : List (String × Json)} {tenant : Json}

/-- The row that a registration adds. -/
structure Inserted (env : Env) (store store' : Store) (draw : RegisterDraw) (body : List (String × Json))
    (tenant : Json) (card : AgentCard) (row : AgentRow) : Prop where
  fresh : store.agents.find? draw.agentId = none
  rows_eq : store'.agents.rows = store.agents.rows ++ [row]
  id_eq : row.id = draw.agentId
  card_eq : row.card = .obj card.toDict
  heartbeat_eq : row.heartbeatAt = some draw.now
  tenant_eq : env.engine.bind (registeredTenant body card tenant) = some (some row.tenantId)

theorem registerCard_some (h : registerCard env store draw body tenant = some store') :
    ∃ card row, AgentCard.fromDict (.obj body) = .ok card ∧ Inserted env store store' draw body tenant card row := by
  rw [registerCard] at h
  split at h
  · cases h
  · rename_i card hcard
    split at h
    · rename_i hbound _ _
      obtain ⟨agents, hagents, rfl⟩ := Option.map_eq_some_iff.mp h
      obtain ⟨hfresh, hrows⟩ := Table.insert_some hagents
      exact ⟨card, _, hcard, hfresh, hrows, rfl, rfl, rfl, hbound⟩
    · cases h

/-- A registration changes the store only if the name was looked up and is not taken. -/
theorem handleRegister_cases (env : Env) (store : Store) (draw : RegisterDraw) (authTenant : Option String)
    (body : Option Json) : (handleRegister env store draw authTenant body).2 = store ∨
      ∃ fields name views, Json.get fields "name" (.str "") = .str name ∧
        listTenant env store draw.now (requestTenant authTenant fields) = some views ∧
        nameTaken env (strip name) views = some false ∧
        registerCard env store draw fields (requestTenant authTenant fields) =
          some (handleRegister env store draw authTenant body).2 := by
  unfold handleRegister
  split
  · exact Or.inl rfl
  · rename_i fields
    split
    · rename_i name hname
      simp only []
      split
      · exact Or.inl rfl
      · split
        · exact Or.inl rfl
        · exact Or.inl rfl
        · split
          · exact Or.inl rfl
          · exact Or.inl rfl
          · rename_i htaken
            obtain ⟨views, hviews, hfalse⟩ := Option.bind_eq_some_iff.mp htaken
            split
            · exact Or.inl rfl
            · rename_i store' hstore'
              exact Or.inr ⟨fields, name, views, hname, hviews, hfalse, hstore'⟩
    · exact Or.inl rfl
  · exact Or.inl rfl

end Specs

/-- A request that changes the agents, or a turn of the cleanup task. -/
inductive Request
  | register (draw : RegisterDraw) (authTenant : Option String) (body : Option Json)
  | unregister (agentId tenant : String)
  | heartbeat (now : Rat) (agentId : String) (authTenant queryTenant : Option String)
  | toggle (now : Rat) (agentId tenant : String)
  | cleanup (now : Rat)

/-- What becomes of the store when a request is handled. -/
def step (env : Env) (store : Store) : Request → Store
  | .register draw authTenant body => (handleRegister env store draw authTenant body).2
  | .unregister agentId tenant => (handleUnregister store agentId tenant).2
  | .heartbeat now agentId authTenant queryTenant => (handleHeartbeat env store now agentId authTenant queryTenant).2
  | .toggle now agentId tenant => (handleToggleAgent store now agentId tenant).2
  | .cleanup now => store.purgeStale now

end A2ARegistry.Registry
