import A2ARegistry.Auth.Proofs.Steps
import A2ARegistry.Security.PolicyEngine

namespace A2ARegistry.Security
open Base Orchestration Registry

/-- A registered agent that is not disabled, by its id or its name, in the tenant or in none. -/
def ActiveAgent (store : Store) (tenant agentId : String) : Prop :=
  ∃ row ∈ store.agents.rows, GoesBy agentId row ∧ row.disabled = false ∧
    (row.tenantId = tenant ∨ row.tenantId = "")

theorem firstDenial_none {checks : List (Option Denial)} :
    firstDenial checks = none ↔ ∀ check ∈ checks, check = none := by
  simp [firstDenial, List.findSome?_eq_none_iff]

section Checks

variable {engine : PolicyEngine} {store : Store} {now : Rat} {caller : CallerIdentity} {taskData : TaskData}

/-- The caller of an agent that passes is active in its tenant. -/
theorem checkCaller_none (h : checkCaller (registryOf store now) caller = none) (hagent : caller.isHuman = false)
    (htenant : caller.tenant ≠ "") : ActiveAgent store caller.tenant caller.agentId := by
  unfold checkCaller at h
  split at h
  · cases h
  split at h
  · cases h
  simp only [hagent, Bool.false_eq_true, if_false] at h
  cases hc : getAgentCard store now caller.agentId caller.tenant with
  | none => simp [registryOf, hc] at h
  | some view =>
    obtain ⟨row, hrow, hgoes, hsees, _, _, hdisabled⟩ := getAgentCard_some hc
    have hactive : view.disabled = false := by simpa [registryOf, hc, recordOf] using h
    exact ⟨row, hrow, hgoes, hdisabled.trans hactive, hsees.resolve_left htenant⟩

/-- An assignee that passes is an agent that is not disabled, whose card the tenant check reads too. -/
theorem checkAssignee_none (h : checkAssignee (registryOf store now) caller taskData = none)
    (hassignee : taskData.target ≠ "") :
    ∃ row ∈ store.agents.rows, ∃ view, GoesBy taskData.target row ∧ row.disabled = false ∧
      row.card = .obj view.card ∧ row.tenantId = view.tenant ∧
      assigneeCard (registryOf store now) caller taskData = some (recordOf view) := by
  have hfound : ∀ tenant view, getAgentCard store now taskData.target tenant = some view →
      assigneeCard (registryOf store now) caller taskData = some (recordOf view) →
      ∃ row ∈ store.agents.rows, ∃ view, GoesBy taskData.target row ∧ row.disabled = false ∧
        row.card = .obj view.card ∧ row.tenantId = view.tenant ∧
        assigneeCard (registryOf store now) caller taskData = some (recordOf view) := by
    intro tenant view hc hcard
    obtain ⟨row, hrow, hgoes, _, hobj, htenant, hdisabled⟩ := getAgentCard_some hc
    have hactive : view.disabled = false := by simpa [checkAssignee, hassignee, hcard, recordOf] using h
    exact ⟨row, hrow, view, hgoes, hdisabled.trans hactive, hobj, htenant, hcard⟩
  cases hown : getAgentCard store now taskData.target caller.tenant with
  | some view => exact hfound _ view hown (by simp [assigneeCard, registryOf, hown])
  | none =>
    cases hany : getAgentCard store now taskData.target "" with
    | some view => exact hfound _ view hany (by simp [assigneeCard, registryOf, hown, hany])
    | none => simp [checkAssignee, hassignee, assigneeCard, registryOf, hown, hany] at h

theorem checkScope_none : checkScope caller = none ↔ "task:write" ∈ caller.scopes ∨ "registry:admin" ∈ caller.scopes := by
  simp [checkScope, or_iff_not_imp_left]

/-- A card that passes the check of the tenant names the caller's, or none. -/
theorem checkTenant_none {registry : AgentRegistry} {card : AgentRecord}
    (h : checkTenant engine registry caller taskData = none) (hagent : caller.isHuman = false)
    (htenant : caller.tenant ≠ "") (hassignee : taskData.target ≠ "")
    (hcard : assigneeCard registry caller taskData = some card) :
    card.tenant.truthy = false ∨ card.tenant.isWord [caller.tenant] = true := by
  cases ht : card.tenant.truthy with
  | false => exact Or.inl rfl
  | true => exact Or.inr (by simpa [checkTenant, hagent, htenant, hassignee, hcard, ht] using h)

end Checks

/-- What is denied is let pass in two of the modes. -/
theorem denyAs_allowed (ape : Ape) (errType reason agentId target : String) :
    (ape.denyAs errType reason agentId target).allowed = true ↔ ape.mode = "audit" ∨ ape.mode = "warn" := by
  unfold Ape.denyAs
  split
  · rename_i haudit
    simp [haudit]
  · rename_i haudit
    split
    · rename_i hwarn
      simp [hwarn]
    · rename_i hwarn
      simp [haudit, hwarn]

/-- An engine that enforces allows exactly what no check denies. -/
theorem checkTaskCreate_allowed {engine : PolicyEngine} (hmode : engine.mode = "enforce") (registry : AgentRegistry)
    (db : Db) (now : Rat) (caller : CallerIdentity) (taskData : TaskData) :
    (checkTaskCreate engine registry db now caller taskData).allowed = true ↔
      createDenial engine registry db now caller taskData = none := by
  unfold checkTaskCreate
  cases createDenial engine registry db now caller taskData with
  | none => simp
  | some denial => simp [denyAs_allowed, hmode]

/-- In every state of the registry, an agent of a tenant that an enforcing engine allows to create a task for an
assignee has the scope for it, and both are active agents of the tenant or of none. -/
theorem creation_enforced (engine : PolicyEngine) (legacy : List Store.LegacyAgent) (calls : List Store.Call)
    (db : Db) (now : Rat) (caller : CallerIdentity) (taskData : TaskData) (hmode : engine.mode = "enforce")
    (hagent : caller.isHuman = false) (htenant : caller.tenant ≠ "") (hassignee : taskData.target ≠ "")
    (hallowed : (checkTaskCreate engine (registryOf (exec Store.step (Store.migrateFromJson legacy) calls) now) db
      now caller taskData).allowed = true) :
    ("task:write" ∈ caller.scopes ∨ "registry:admin" ∈ caller.scopes) ∧
      ActiveAgent (exec Store.step (Store.migrateFromJson legacy) calls) caller.tenant caller.agentId ∧
      ActiveAgent (exec Store.step (Store.migrateFromJson legacy) calls) caller.tenant taskData.target := by
  have hregistered := Store.tenantsRegistered legacy calls
  revert hallowed hregistered
  generalize exec Store.step (Store.migrateFromJson legacy) calls = store
  intro hallowed hregistered
  have hchecks := firstDenial_none.mp ((checkTaskCreate_allowed hmode _ _ _ _ _).mp hallowed)
  simp only [List.forall_mem_cons] at hchecks
  obtain ⟨hcaller, hcheck, hscope, htenants, _⟩ := hchecks
  obtain ⟨row, hrow, view, hgoes, hactive, hobj, hview, hcard⟩ := checkAssignee_none hcheck hassignee
  refine ⟨checkScope_none.mp hscope, checkCaller_none hcaller hagent htenant, row, hrow, hgoes, hactive, ?_⟩
  by_cases hne : row.tenantId = ""
  · exact Or.inr hne
  · have hread := recordOf_tenant (hregistered row hrow) hobj hview hne
    have hpassed := checkTenant_none htenants hagent htenant hassignee hcard
    rw [hread] at hpassed
    simpa [Json.truthy, Json.isWord, hne] using hpassed

/-- Two agents of a tenant, by the names their tokens carry. -/
def sampleAgents : List Store.Call :=
  [.registerAgent 0 { agentId := "id-a", card := { name := .str "agent-a" }, tenant := "acme" },
    .registerAgent 0 { agentId := "id-b", card := { name := .str "agent-b" }, tenant := "acme" }]

/-- An engine that enforces, without a store of tasks. -/
def samplePolicy : PolicyEngine where
  mode := "enforce"
  tasks := false
  dtm := { engine := python Auth.sampleCrypto.toPython some, crypto := Auth.sampleCrypto, privateKey := "", publicKey := "", floatRepr := fun _ => "0.0" }

def sampleCaller : CallerIdentity where
  agentId := "agent-a"
  tenant := "acme"
  scope := "task:write"

/-- One of them may create a task for the other. -/
theorem creation_enforced_sample :
    ("task:write" ∈ sampleCaller.scopes ∨ "registry:admin" ∈ sampleCaller.scopes) ∧
      ActiveAgent (exec Store.step (Store.migrateFromJson []) sampleAgents) "acme" "agent-a" ∧
      ActiveAgent (exec Store.step (Store.migrateFromJson []) sampleAgents) "acme" "agent-b" :=
  creation_enforced samplePolicy [] sampleAgents Db.empty 10 sampleCaller { assignee := some "agent-b" } rfl
    (by decide +kernel) (by decide) (by decide) (by decide +kernel)

section Restricted

/-- A record that authorizes a caller for an assignee: it is between the two, in the caller's tenant, not
expired, and it allows everything or a scope of the token. -/
structure Authorizes (now : Rat) (caller : CallerIdentity) (assignee : String) (record : AuthorizationRecord) :
    Prop where
  source : record.sourceAgentId = caller.agentId
  target : record.targetAgentId = assignee
  tenant : record.tenantId = caller.tenant
  unexpired : ∀ expires ∈ record.expiresAt, expires = 0 ∨ now ≤ expires
  allowed : "*" ∈ record.allowedActions ∨ ∃ s ∈ caller.scopes, s ∈ record.allowedActions

variable (engine : PolicyEngine) (store : Store) (db : Db) (now : Rat) (caller : CallerIdentity) (taskData : TaskData)

/-- Every check of a creation passes, the one of the authorization left aside. -/
structure OthersPass : Prop where
  known : checkCaller (registryOf store now) caller = none
  assigned : checkAssignee (registryOf store now) caller taskData = none
  permitted : checkScope caller = none
  together : checkTenant engine (registryOf store now) caller taskData = none
  shallow : checkDepth engine db taskData = none
  unrejected : createHook engine caller taskData = none

/-- The check of the authorization decides nothing: denials are let pass, or the creation is no agent's for
another agent. -/
def Exempt : Prop :=
  (engine.mode = "audit" ∨ engine.mode = "warn") ∨ caller.isHuman = true ∨ taskData.target = "" ∨
    caller.agentId = taskData.target

/-- Under a restricted policy the registry denies every agent every other agent. -/
theorem checkAuthorization_restricted (hpolicy : engine.defaultDelegationPolicy = "restricted") :
    checkAuthorization engine (registryOf store now) now caller taskData = none ↔
      caller.isHuman = true ∨ taskData.target = "" ∨ caller.agentId = taskData.target := by
  unfold checkAuthorization
  split
  · rename_i hexempt
    simpa [or_assoc] using hexempt
  · rename_i hexempt
    simpa [checkAgentAuthz, registryOf, hpolicy, or_assoc] using hexempt

/-- Whatever records are stored, a creation is allowed exactly when it is exempt. -/
theorem restricted_allowed (hpolicy : engine.defaultDelegationPolicy = "restricted")
    (hothers : OthersPass engine store db now caller taskData) :
    (checkTaskCreate engine (registryOf store now) db now caller taskData).allowed = true ↔
      Exempt engine caller taskData := by
  have hdenial : createDenial engine (registryOf store now) db now caller taskData =
      checkAuthorization engine (registryOf store now) now caller taskData := by
    simp only [createDenial, firstDenial, hothers.known, hothers.assigned, hothers.permitted, hothers.together,
      hothers.shallow, hothers.unrejected]
    cases checkAuthorization engine (registryOf store now) now caller taskData <;> rfl
  have hauthz := checkAuthorization_restricted engine store now caller taskData hpolicy
  unfold checkTaskCreate Exempt
  rw [hdenial, ← hauthz]
  cases hcheck : checkAuthorization engine (registryOf store now) now caller taskData with
  | none => simp
  | some denial =>
    simp [denyAs_allowed]

/-- Where every other check passes, the policy is what it should be exactly when the creation is exempt and a
record authorizes it, or it is not and none does. -/
theorem restricted_policy_iff (hpolicy : engine.defaultDelegationPolicy = "restricted")
    (hothers : OthersPass engine store db now caller taskData) :
    ((checkTaskCreate engine (registryOf store now) db now caller taskData).allowed = true ↔
        ∃ record ∈ store.authorizations.rows, Authorizes now caller taskData.target record) ↔
      (Exempt engine caller taskData ↔
        ∃ record ∈ store.authorizations.rows, Authorizes now caller taskData.target record) := by
  rw [restricted_allowed engine store db now caller taskData hpolicy hothers]

end Restricted

/-- The two agents, the one authorized for the other. -/
def authorizedAgents : Store := exec Store.step (Store.migrateFromJson [])
  (sampleAgents ++ [.createAuthorization 0 { sourceAgentId := "agent-a", targetAgentId := "agent-b", tenant := "acme" }])

def restrictedPolicy : PolicyEngine := { samplePolicy with defaultDelegationPolicy := "restricted" }

theorem authorized_othersPass :
    OthersPass restrictedPolicy authorizedAgents Db.empty 10 sampleCaller { assignee := some "agent-b" } where
  known := by rfl
  assigned := by rfl
  permitted := by rfl
  together := by rfl
  shallow := by rfl
  unrejected := by rfl

theorem authorized_record : ∃ record ∈ authorizedAgents.authorizations.rows,
    Authorizes 10 sampleCaller "agent-b" record :=
  ⟨_, List.mem_singleton_self _, rfl, rfl, rfl, (fun _ h => nomatch h), Or.inl (by decide)⟩

/-- It is denied all the same. -/
theorem authorized_denied :
    ¬ ((checkTaskCreate restrictedPolicy (registryOf authorizedAgents 10) Db.empty 10 sampleCaller
        { assignee := some "agent-b" }).allowed = true ↔
      ∃ record ∈ authorizedAgents.authorizations.rows, Authorizes 10 sampleCaller "agent-b" record) := by
  intro h
  have hallowed := h.mpr authorized_record
  exact absurd hallowed (by decide +kernel)

theorem restricted_policy_sample :
    ((checkTaskCreate restrictedPolicy (registryOf authorizedAgents 10) Db.empty 10 sampleCaller
        { assignee := some "agent-b" }).allowed = true ↔
      ∃ record ∈ authorizedAgents.authorizations.rows, Authorizes 10 sampleCaller "agent-b" record) ↔
    (Exempt restrictedPolicy sampleCaller { assignee := some "agent-b" } ↔
      ∃ record ∈ authorizedAgents.authorizations.rows, Authorizes 10 sampleCaller "agent-b" record) :=
  restricted_policy_iff restrictedPolicy authorizedAgents Db.empty 10 sampleCaller { assignee := some "agent-b" } rfl
    authorized_othersPass

end A2ARegistry.Security
