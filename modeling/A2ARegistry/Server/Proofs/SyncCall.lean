import A2ARegistry.Base.Records
import A2ARegistry.Orchestration.Proofs.Depth
import A2ARegistry.Security.Proofs.Gate
import A2ARegistry.Security.Proofs.Redaction
import A2ARegistry.Server.SyncCall

namespace A2ARegistry.Server
open Base Orchestration Security

section Entry

/-- An envelope names no assignee and no parent. -/
theorem taskDataOf_envelope (envelope : TaskEnvelope) : taskDataOf envelope.toDict = ⟨some "", .null⟩ := by
  have hassignee : Json.get envelope.toDict "assignee" (.str "") = .str "" := get_written_not_mem (by simp) _
  have hparent : Json.get envelope.toDict "parent_id" .null = .null := get_written_not_mem (by simp) _
  have hfield : Json.field envelope.toDict "parent_id" = .null := hparent
  simp [taskDataOf, hassignee, hfield]

/-- The creation of a task for an agent is denied because of that agent: it is disabled, or in another tenant,
or the caller is not authorized for it. -/
inductive TargetDenied (engine : PolicyEngine) (registry : AgentRegistry) (db : Db) (now : Rat)
    (caller : CallerIdentity) (taskData : TaskData) : Prop
  | disabled (htarget : taskData.target ≠ "") (hcaller : checkCaller registry caller = none) {card : AgentRecord}
      (hcard : assigneeCard registry caller taskData = some card) (hdisabled : card.disabled = true)
  | elsewhere (hcaller : checkCaller registry caller = none) (hassignee : checkAssignee registry caller taskData = none)
      (hscope : checkScope caller = none) {denial : Denial}
      (htenant : checkTenant engine registry caller taskData = some denial)
  | unauthorized (hcaller : checkCaller registry caller = none)
      (hassignee : checkAssignee registry caller taskData = none) (hscope : checkScope caller = none)
      (htenant : checkTenant engine registry caller taskData = none) (hdepth : checkDepth engine db taskData = none)
      {denial : Denial} (hauthz : checkAuthorization engine registry now caller taskData = some denial)

variable {engine : PolicyEngine} {registry : AgentRegistry} {db : Db} {now : Rat} {caller : CallerIdentity}
  {taskData : TaskData}

theorem TargetDenied.known (h : TargetDenied engine registry db now caller taskData) :
    checkCaller registry caller = none := by
  cases h with
  | disabled _ hcaller => exact hcaller
  | elsewhere hcaller => exact hcaller
  | unauthorized hcaller => exact hcaller

/-- Such a creation is denied. -/
theorem TargetDenied.denied (h : TargetDenied engine registry db now caller taskData) :
    createDenial engine registry db now caller taskData ≠ none := by
  intro hnone
  have hchecks := firstDenial_none.mp hnone
  simp only [List.forall_mem_cons] at hchecks
  obtain ⟨_, hassignee, _, htenant, _, hauthz, _⟩ := hchecks
  cases h with
  | disabled htarget _ hcard hdisabled => simp [checkAssignee, htarget, hcard, hdisabled] at hassignee
  | elsewhere _ _ _ hdenied => cases htenant.symm.trans hdenied
  | unauthorized _ _ _ _ _ hdenied => cases hauthz.symm.trans hdenied

/-- Without an assignee and a parent, the caller, its scope and the hook are all that is checked. -/
theorem createDenial_untargeted : createDenial engine registry db now caller ⟨some "", .null⟩ = none ↔
    checkCaller registry caller = none ∧ checkScope caller = none ∧
      engine.plugins.rejectsCreate caller (some "") = none := by
  unfold createDenial
  rw [firstDenial_none]
  simp [checkAssignee, checkTenant, checkDepth, checkAuthorization, createHook, TaskData.target]

end Entry

/-- The call names an agent and a skill. -/
def Callable (body : List (String × Json)) : Prop :=
  ∃ agentId skill, strippedField body "agent_id" = some agentId ∧ agentId ≠ "" ∧
    strippedField body "skill" = some skill ∧ skill ≠ ""

/-- The call is refused with a 403, and nothing is sent. -/
def CallDenied (answer : Response × Option (List (String × Json))) : Prop :=
  answer.1.status = 403 ∧ answer.2 = none

section Calls

variable {h : SyncCallHandler} {engine : PolicyEngine} {db : Db} {draw : SyncDraw} {caller : CallerIdentity}
  {body : List (String × Json)}

/-- A call is denied by the entry barrier, or by nothing. -/
theorem handleSyncCall_denied (hape : h.ape = some engine) (hbody : Callable body) (delivery : Delivery) :
    CallDenied (handleSyncCall h db draw caller body delivery) ↔
      (checkTaskCreate engine h.registry db draw.now caller ⟨some "", .null⟩).allowed = false := by
  obtain ⟨agentId, skill, hagent, hagentne, hskill, hskillne⟩ := hbody
  have hbarrier : runEntryBarriers h db draw caller (envelopeOf draw caller body skill) =
      if (checkTaskCreate engine h.registry db draw.now caller ⟨some "", .null⟩).allowed then none
      else some (apiError draw 403 "security_denied"
        (checkTaskCreate engine h.registry db draw.now caller ⟨some "", .null⟩).reason) := by
    simp [runEntryBarriers, hape, taskDataOf_envelope]
  unfold handleSyncCall CallDenied
  simp only [hagent, if_neg hagentne, hskill, if_neg hskillne, hbarrier]
  cases (checkTaskCreate engine h.registry db draw.now caller ⟨some "", .null⟩).allowed with
  | false => simp [apiError]
  | true => cases delivery <;> simp [apiError, serverError]

/-- A caller whose creation of a task is denied because of the target is denied a synchronous call exactly when
its token has no scope for it, or a plugin rejects a creation without assignee. -/
theorem sync_governed_iff (hape : h.ape = some engine) (hmode : engine.mode = "enforce") {taskData : TaskData}
    (hdenied : TargetDenied engine h.registry db draw.now caller taskData) (hbody : Callable body)
    (delivery : Delivery) :
    (checkTaskCreate engine h.registry db draw.now caller taskData).allowed = false ∧
      (CallDenied (handleSyncCall h db draw caller body delivery) ↔
        ("task:write" ∉ caller.scopes ∧ "registry:admin" ∉ caller.scopes) ∨
          engine.plugins.rejectsCreate caller (some "") ≠ none) := by
  constructor
  · apply Bool.eq_false_iff.mpr
    rw [ne_eq, checkTaskCreate_allowed hmode]
    exact hdenied.denied
  · rw [handleSyncCall_denied hape hbody delivery, ← Bool.not_eq_true, checkTaskCreate_allowed hmode,
      createDenial_untargeted, checkScope_none]
    simp only [hdenied.known, true_and]
    rw [not_and_or, not_or]

end Calls

/-- Two agents of different tenants. -/
def strangers : Registry.Store := exec Registry.Store.step (Registry.Store.migrateFromJson [])
  [.registerAgent 0 { agentId := "id-a", card := { name := .str "agent-a" }, tenant := "acme" },
    .registerAgent 0 { agentId := "id-b", card := { name := .str "agent-b" }, tenant := "globex" }]

def sampleSync : SyncCallHandler where
  ape := some samplePolicy
  registry := registryOf strangers 10
  exitBarriers := [sanitiseBarrier sampleGuardrail]
  toPython := Auth.sampleCrypto.toPython

def syncDraw : SyncDraw where
  now := 10
  taskHex := "1"
  chainHex := "2"
  requestHex := "3"

/-- A call of the one to the other. -/
def sampleCall : List (String × Json) := [("agent_id", .str "agent-b"), ("skill", .str "echo")]

theorem sampleCall_callable : Callable sampleCall :=
  ⟨"agent-b", "echo", by decide +kernel, by decide, by decide +kernel, by decide⟩

theorem stranger_denied :
    TargetDenied samplePolicy sampleSync.registry Db.empty syncDraw.now sampleCaller { assignee := some "agent-b" } :=
  .elsewhere rfl rfl rfl rfl

/-- What the other answers. -/
def sampleAnswer : Answer := ⟨.str "success", .obj [("password", .str "hunter2")], .null⟩

theorem sync_governed_sample :
    (checkTaskCreate samplePolicy sampleSync.registry Db.empty syncDraw.now sampleCaller
        { assignee := some "agent-b" }).allowed = false ∧
      (CallDenied (handleSyncCall sampleSync Db.empty syncDraw sampleCaller sampleCall (.answered sampleAnswer)) ↔
        ("task:write" ∉ sampleCaller.scopes ∧ "registry:admin" ∉ sampleCaller.scopes) ∨
          samplePolicy.plugins.rejectsCreate sampleCaller (some "") ≠ none) :=
  sync_governed_iff rfl rfl stranger_denied sampleCall_callable (.answered sampleAnswer)

/-- The call goes through where the creation is denied. -/
theorem sync_ungoverned :
    ¬ (TargetDenied samplePolicy sampleSync.registry Db.empty syncDraw.now sampleCaller
        { assignee := some "agent-b" } →
      CallDenied (handleSyncCall sampleSync Db.empty syncDraw sampleCaller sampleCall (.answered sampleAnswer))) := by
  intro h
  obtain ⟨hstatus, _⟩ := h stranger_denied
  exact absurd hstatus (by decide +kernel)

section Exit

/-- A barrier that sanitises gives no response. -/
theorem runExitBarriers_sanitise (g : Guardrail) (answer : Answer) :
    (runExitBarriers [sanitiseBarrier g] answer).2 = none := by
  unfold runExitBarriers sanitiseBarrier
  cases answer.result with
  | obj fields => cases fields <;> rfl
  | _ => rfl

variable {h : SyncCallHandler} {g : Guardrail} {db : Db} {draw : SyncDraw} {caller : CallerIdentity}
  {body : List (String × Json)} {answer : Answer}

/-- A response of success hands out the result as the agent gave it. -/
theorem respond_ok (hbarriers : h.exitBarriers = [sanitiseBarrier g]) {envelope : TaskEnvelope}
    (hok : (respond h draw envelope answer).status = 200) :
    Json.field (respond h draw envelope answer).body "result" = answer.result := by
  unfold respond at hok ⊢
  rw [hbarriers, runExitBarriers_sanitise] at hok ⊢
  split at hok
  · cases hok
  · cases hok
  · rename_i hvalid
    dsimp only at hok ⊢
    split at hok
    · cases hok
    · rename_i herror
      rw [if_neg herror]
      rfl

theorem runEntryBarriers_status {envelope : TaskEnvelope} {response : Response}
    (hbarrier : runEntryBarriers h db draw caller envelope = some response) : response.status = 403 := by
  unfold runEntryBarriers at hbarrier
  split at hbarrier
  · cases hbarrier
  · dsimp only at hbarrier
    split at hbarrier
    · cases hbarrier
    · cases hbarrier
      rfl

/-- A call that succeeds passed every check before it was answered. -/
theorem handleSyncCall_ok (hok : (handleSyncCall h db draw caller body (.answered answer)).1.status = 200) :
    ∃ envelope, (handleSyncCall h db draw caller body (.answered answer)).1 = respond h draw envelope answer := by
  unfold handleSyncCall at hok ⊢
  split at hok
  · cases hok
  split at hok
  · cases hok
  rename_i hagent
  split at hok
  · cases hok
  split at hok
  · cases hok
  rename_i skill _ hskill
  dsimp only at hok ⊢
  cases hbarrier : runEntryBarriers h db draw caller (envelopeOf draw caller body skill) with
  | some response =>
    have hstatus := runEntryBarriers_status hbarrier
    rw [hbarrier] at hok
    exact nomatch hstatus.symm.trans hok
  | none => exact ⟨envelopeOf draw caller body skill, by rw [if_neg hagent, if_neg hskill]⟩

/-- With the sanitising barrier installed, the result of a call that succeeds is the sanitised one exactly where
there is nothing to redact in it. -/
theorem sync_result_iff (hbarriers : h.exitBarriers = [sanitiseBarrier g])
    (hok : (handleSyncCall h db draw caller body (.answered answer)).1.status = 200) :
    Json.field (handleSyncCall h db draw caller body (.answered answer)).1.body "result" =
        sanitizeOutput g answer.result ↔
      Untouched g 0 answer.result := by
  obtain ⟨envelope, hresponse⟩ := handleSyncCall_ok hok
  rw [hresponse] at hok ⊢
  rw [respond_ok hbarriers hok, eq_comm, sanitizeOutput_self]

end Exit

/-- The password the agent answers with leaves through the call. -/
theorem sync_result_leaks :
    ¬ Json.field (handleSyncCall sampleSync Db.empty syncDraw sampleCaller sampleCall
        (.answered sampleAnswer)).1.body "result" = sanitizeOutput sampleGuardrail sampleAnswer.result := by
  intro h
  have hresult : Json.field (handleSyncCall sampleSync Db.empty syncDraw sampleCaller sampleCall
      (.answered sampleAnswer)).1.body "result" = .obj [("password", .str "hunter2")] := rfl
  have hmasked : sanitizeOutput sampleGuardrail sampleAnswer.result = .obj [("password", .str "***")] := rfl
  rw [hresult, hmasked] at h
  simp at h

theorem sync_result_sample :
    Json.field (handleSyncCall sampleSync Db.empty syncDraw sampleCaller sampleCall (.answered sampleAnswer)).1.body
        "result" = sanitizeOutput sampleGuardrail sampleAnswer.result ↔
      Untouched sampleGuardrail 0 sampleAnswer.result :=
  sync_result_iff rfl (by decide +kernel)

end A2ARegistry.Server
