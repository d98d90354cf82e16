import A2ARegistry.Registry.Store
import A2ARegistry.Security.Ape
import A2ARegistry.Security.Dtm

namespace A2ARegistry.Security
open Base Orchestration Auth Registry

/-- `CallerIdentity`. -/
structure CallerIdentity where
  agentId : String := "anonymous"
  tenant : String := ""
  scope : String := ""
deriving DecidableEq, Repr

/-- What the engine reads of an agent's card. -/
structure AgentRecord where
  disabled : Bool
  tenant : Json

/-- What it reads of a row of `agent_authorizations`, the actions decoded. -/
structure AuthorizationRow where
  allowedActions : List String
  expiresAt : Option Rat
deriving DecidableEq, Repr

/-- What the engine looks up in the registry store: an agent, by `_get_agent`, in a tenant, and what the
query of `_check_agent_authz` finds for two agents, where the store has an `execute` to run it. -/
structure AgentRegistry where
  agent : String → String → Option AgentRecord
  execute : Option (String → String → Option AuthorizationRow)

/-- The reasons a plugin gives for a rejection, if one rejects. Their hooks are no part of the source. -/
structure Plugins where
  rejectsCreate : CallerIdentity → Option String → Option String := fun _ _ => none
  rejectsClaim : CallerIdentity → String → Option String → Option String := fun _ _ _ => none

/-- `AuthorizationPolicyEngine`. -/
structure PolicyEngine extends Ape where
  defaultDelegationPolicy : String := "open"
  maxDelegationDepth : Int := 10
  dtm : Dtm
  plugins : Plugins := {}

/-- `_deny`, with the type of the error. -/
def Ape.denyAs (ape : Ape) (errType reason agentId target : String) : CheckpointResult :=
  if ape.mode = "audit" then { allowed := true, reason := reason }
  else if ape.mode = "warn" then {
    allowed := true
    reason := reason
    responseHeaders := [("X-Security-Warning",
      s!"type={errType}; actor={agentId}; target={target}; reason={reason}")] }
  else { allowed := false, reason := reason }

/-- Why a checkpoint denies. -/
structure Denial where
  errType : String := "AUTHORIZATION_DENIED"
  reason : String
deriving DecidableEq, Repr

section Claim

/-- What the claim checkpoint comes to, before the mode is looked at. -/
inductive ClaimVerdict
  | raised
  | denied (denial : Denial)
  | withoutToken
  | onToken (jti : Option String)
deriving DecidableEq, Repr

variable (engine : PolicyEngine) (db : Db) (tokens : DelegationTokens) (now : Rat) (caller : CallerIdentity)
  (taskId : String) (token : Option String)

/-- The plugin hook, which comes last. -/
def claimHook (verdict : ClaimVerdict) : ClaimVerdict :=
  match engine.plugins.rejectsClaim caller taskId token with
  | some reason => .denied ⟨"PLUGIN_REJECT", if reason = "" then "plugin rejected task claim" else reason⟩
  | none => verdict

/-- The checks of `check_task_claim`. The token is verified, and not consumed. -/
def claimVerdict : ClaimVerdict :=
  match if engine.tasks then getTask db taskId else none with
  | none => .denied { reason := "task not found" }
  | some view =>
    if view.task.assignee ≠ some caller.agentId then
      let assignee := view.task.assignee.getD "None"
      .denied { reason := s!"caller '{caller.agentId}' is not the assignee '{assignee}'" }
    else if (token.getD "") ≠ "" then
      match (verifyDelegationToken engine.dtm tokens now (token.getD "") taskId caller.agentId false).1 with
      | .error e => match e.message with
        | none => .raised
        | some message => .denied { reason := message }
      | .ok jti => claimHook engine caller taskId token (.onToken jti)
    else if engine.defaultDelegationPolicy = "restricted" then
      .denied ⟨"SECURITY_VIOLATION", "delegation token required but not provided"⟩
    else claimHook engine caller taskId token .withoutToken

/-- `check_task_claim`; `none` when it raises. -/
def checkTaskClaim : Option CheckpointResult :=
  match claimVerdict engine db tokens now caller taskId token with
  | .raised => none
  | .denied denial => some (engine.denyAs denial.errType denial.reason caller.agentId taskId)
  | .withoutToken | .onToken _ => some { allowed := true, reason := "claim allowed" }

end Claim

section Create

/-- What the creation checkpoint reads of a body. -/
structure TaskData where
  assignee : Option String := none
  parentId : Json := .null

variable (engine : PolicyEngine) (registry : AgentRegistry) (db : Db) (now : Rat) (caller : CallerIdentity)
  (taskData : TaskData)

/-- `agent_id.startswith("user:")`. -/
def CallerIdentity.isHuman (caller : CallerIdentity) : Bool := "user:".toList.isPrefixOf caller.agentId.toList

def CallerIdentity.scopes (caller : CallerIdentity) : List String := (words caller.scope).dedup

/-- The agent a task is for; an absent one reads like an empty text. -/
def TaskData.target (taskData : TaskData) : String := taskData.assignee.getD ""

/-- The card of the assignee, in the caller's tenant or in any. -/
def assigneeCard : Option AgentRecord :=
  (registry.agent taskData.target caller.tenant).or (registry.agent taskData.target "")

/-- The first check of a list that denies. -/
def firstDenial (checks : List (Option Denial)) : Option Denial := checks.findSome? id

/-- 1 and 2: the caller is known and active. -/
def checkCaller : Option Denial :=
  if caller.agentId = "" then some { reason := "caller identity is empty" }
  else if caller.agentId = "anonymous" then some { reason := "anonymous caller not allowed" }
  else if caller.isHuman then none
  else match registry.agent caller.agentId caller.tenant with
    | none => some ⟨"AGENT_NOT_FOUND", s!"caller '{caller.agentId}' not registered"⟩
    | some card => if card.disabled then some ⟨"AGENT_DISABLED", s!"caller '{caller.agentId}' is disabled"⟩ else none

/-- 3: the assignee exists and is active. -/
def checkAssignee : Option Denial :=
  if taskData.target = "" then none
  else match assigneeCard registry caller taskData with
    | none => some ⟨"AGENT_NOT_FOUND", s!"assignee '{taskData.target}' not found"⟩
    | some card => if card.disabled then some ⟨"AGENT_DISABLED", s!"assignee '{taskData.target}' is disabled"⟩ else none

/-- 4: the scope. -/
def checkScope : Option Denial :=
  if caller.scopes.contains "task:write" || caller.scopes.contains "registry:admin" then none
  else some ⟨"SCOPE_DENIED", "insufficient scope: task:write required"⟩

/-- 5: the tenant, for agents. -/
def checkTenant : Option Denial :=
  if caller.isHuman || caller.tenant = "" || taskData.target = "" then none
  else match assigneeCard registry caller taskData with
    | none => none
    | some card => if card.tenant.truthy && !card.tenant.isWord [caller.tenant] then
        let assigneeTenant := Json.strOf engine.dtm.crypto.toPython card.tenant
        some ⟨"TENANT_MISMATCH", s!"tenant mismatch: caller='{caller.tenant}', assignee='{assigneeTenant}'"⟩
      else none

/-- `getattr(parent_task, "delegation_depth", 0) or 0`. The attribute has no column in the table and
nothing sets it, so it is `None` on every task that is looked up. -/
def delegationDepth (_ : TaskView) : Int := 0

/-- 6: the delegation depth, by the `parent_id` of the body. -/
def checkDepth : Option Denial :=
  match taskData.parentId with
  | .str parentId =>
    if parentId = "" then none
    else match if engine.tasks then getTask db parentId else none with
      | none => none
      | some parent =>
        if engine.maxDelegationDepth ≤ delegationDepth parent then
          some ⟨"DELEGATION_DEPTH_EXCEEDED",
            s!"delegation depth exceeded: {delegationDepth parent} >= {engine.maxDelegationDepth}"⟩
        else none
  | _ => none

/-- The text of a set of scopes. -/
def setText (scopes : List String) : String :=
  if scopes.isEmpty then "set()"
  else "\x7b" ++ joinBy ", " (scopes.map (fun s => "'" ++ s ++ "'")) ++ "\x7d"

/-- `_check_agent_authz`, on what the query finds. -/
def authzViolation : Option AuthorizationRow → Option String
  | none => some "no authorization record found (restricted policy)"
  | some row =>
    if row.expiresAt.any (fun expires => expires ≠ 0 && decide (expires < now)) then
      some "authorization record has expired"
    else if row.allowedActions.contains "*" || caller.scopes.any row.allowedActions.contains then none
    else some ("no allowed action covers token scopes " ++ setText caller.scopes)

/-- `_check_agent_authz`. It fails closed where the query cannot be run. -/
def checkAgentAuthz : Option String :=
  if engine.defaultDelegationPolicy = "open" then none
  else match registry.execute with
    | none => some "authorization check failed: 'Store' object has no attribute 'execute'"
    | some query => authzViolation now caller (query caller.agentId taskData.target)

/-- 7: the authorization of one agent by another. -/
def checkAuthorization : Option Denial :=
  if caller.isHuman || taskData.target = "" || caller.agentId = taskData.target then none
  else (checkAgentAuthz engine registry now caller taskData).map (fun reason => { reason := reason })

/-- 8: the plugin hook. -/
def createHook : Option Denial :=
  (engine.plugins.rejectsCreate caller taskData.assignee).map (fun reason =>
    ⟨"PLUGIN_REJECT", if reason = "" then "plugin rejected task creation" else reason⟩)

/-- The checks of `check_task_create`, in order. -/
def createDenial : Option Denial :=
  firstDenial [checkCaller registry caller, checkAssignee registry caller taskData, checkScope caller,
    checkTenant engine registry caller taskData, checkDepth engine db taskData,
    checkAuthorization engine registry now caller taskData, createHook engine caller taskData]

/-- `check_task_create`. -/
def checkTaskCreate : CheckpointResult :=
  match createDenial engine registry db now caller taskData with
  | some denial => engine.denyAs denial.errType denial.reason caller.agentId taskData.target
  | none => { allowed := true, reason := "all checks passed" }

end Create

/-- `card.get("name", "") == agent_id`. -/
def namedBy (agentId : String) (card : List (String × Json)) : Bool :=
  (Json.get card "name" (.str "")).isWord [agentId]

/-- `tenant or None`. -/
def tenantFilter (tenant : String) : Option String := if tenant = "" then none else some tenant

/-- `_get_agent`: by id, or else by name among all the agents the tenant sees. -/
def getAgentCard (store : Store) (now : Rat) (agentId tenant : String) : Option Store.AgentView :=
  match Store.getAgent store now agentId (tenantFilter tenant) with
  | some (some view) => some view
  | _ => ((Store.listAgents store now (tenantFilter tenant)).getD []).find? (fun view => namedBy agentId view.card)

/-- What the engine reads of a view: a `tenant_id` of the card itself goes before the tenant of the agent. -/
def recordOf (view : Store.AgentView) : AgentRecord where
  disabled := view.disabled
  tenant :=
    let tenantId := Json.get view.card "tenant_id" (.str "")
    if tenantId.truthy then tenantId else .str view.tenant

/-- The registry store as the engine sees it. It has no `execute`. -/
def registryOf (store : Store) (now : Rat) : AgentRegistry where
  agent agentId tenant := (getAgentCard store now agentId tenant).map recordOf
  execute := none

/-- A row that goes by an id or a name. -/
def GoesBy (agentId : String) (row : AgentRow) : Prop :=
  row.id = agentId ∨ ∃ card, row.card = .obj card ∧ namedBy agentId card = true

/-- What is found goes by the id it is looked up by, and is in the tenant, or in none. -/
theorem getAgentCard_some {store : Store} {now : Rat} {agentId tenant : String} {view : Store.AgentView}
    (h : getAgentCard store now agentId tenant = some view) :
    ∃ row ∈ store.agents.rows, GoesBy agentId row ∧ (tenant = "" ∨ row.tenantId = tenant ∨ row.tenantId = "") ∧
      row.card = .obj view.card ∧ row.tenantId = view.tenant ∧ row.disabled = view.disabled := by
  have hvisible : ∀ row : AgentRow, Store.visibleTo (tenantFilter tenant) row = true →
      tenant = "" ∨ row.tenantId = tenant ∨ row.tenantId = "" := by
    intro row hrow
    by_cases htenant : tenant = ""
    · exact Or.inl htenant
    · exact Or.inr (by simpa [tenantFilter, htenant, Store.visibleTo] using hrow)
  unfold getAgentCard at h
  split at h
  · rename_i found hget
    cases h
    obtain ⟨row, hrow, hid, hsees, hread⟩ := Store.getAgent_some hget
    obtain ⟨hcard, _, htenant, hdisabled⟩ := Store.readAgent_some hread
    exact ⟨row, hrow, Or.inl hid, hvisible row hsees, hcard, htenant.symm, hdisabled.symm⟩
  · cases hl : Store.listAgents store now (tenantFilter tenant) with
    | none => simp [hl] at h
    | some views =>
      simp only [hl, Option.getD_some] at h
      have hname := List.find?_some h
      obtain ⟨row, hrow, hsees, hread⟩ := Store.mem_listAgents hl (List.mem_of_find?_eq_some h)
      obtain ⟨hcard, _, htenant, hdisabled⟩ := Store.readAgent_some hread
      exact ⟨row, hrow, Or.inr ⟨_, hcard, hname⟩, hvisible row hsees, hcard, htenant.symm, hdisabled.symm⟩

/-- An agent in a tenant is read as being in it. -/
theorem recordOf_tenant {row : AgentRow} {view : Store.AgentView} (hrow : Store.Untenanted row)
    (hcard : row.card = .obj view.card) (htenant : row.tenantId = view.tenant) (hne : row.tenantId ≠ "") :
    (recordOf view).tenant = .str row.tenantId := by
  obtain ⟨card, hobj, hnone⟩ := hrow hne
  obtain rfl : card = view.card := by simpa using hobj.symm.trans hcard
  have hfind : view.card.find? (fun f => f.1 == "tenant_id") = none := by
    rw [List.find?_eq_none]
    intro f hf
    simpa using hnone f hf
  simp [recordOf, Json.get, hfind, Json.truthy, htenant]

end A2ARegistry.Security
