import A2ARegistry.Base.Records
import A2ARegistry.Base.RoundTrip
import A2ARegistry.Security.Proofs.Detection
import A2ARegistry.Server.Envelope
import A2ARegistry.Server.SyncCall

namespace A2ARegistry.Server
open Base Orchestration Security

/-- The envelope as a dict is read. -/
def TaskEnvelope.read (envelope : TaskEnvelope) : ReadEnvelope where
  taskId := .str envelope.taskId
  interactionMode := .mode envelope.interactionMode
  skill := .str envelope.skill
  inputSchema := envelope.inputSchema
  input := envelope.input
  outputContract := envelope.outputContract
  securityContext := envelope.securityContext
  tenantId := envelope.tenantId
  workspaceUri := envelope.workspaceUri

/-- Envelopes that are read alike are the same. -/
theorem TaskEnvelope.read_injective : Function.Injective TaskEnvelope.read := by
  intro first second h
  cases first
  cases second
  simp only [read, ReadEnvelope.mk.injEq, Json.str.injEq, ModeField.mode.injEq] at h
  simpa using h

/-- The fields of a security context have the types it declares. -/
structure SecurityContext.WellTyped (context : SecurityContext) : Prop where
  effectiveScope : FieldType.text.Holds context.effectiveScope
  delegationDepth : FieldType.integer.Holds context.delegationDepth
  deadlineMs : FieldType.integer.Holds context.deadlineMs
  provenanceChainId : FieldType.text.Holds context.provenanceChainId

/-- The fields of an envelope have the types it declares. -/
structure TaskEnvelope.WellTyped (envelope : TaskEnvelope) : Prop where
  inputSchema : (FieldType.optional (.dict .anything)).Holds envelope.inputSchema
  input : (FieldType.dict .anything).Holds envelope.input
  outputContract : ∀ contract, envelope.outputContract = some contract →
    (FieldType.list .text).Holds contract.requiredFields
  securityContext : ∀ context, envelope.securityContext = some context → context.WellTyped
  tenantId : FieldType.text.Holds envelope.tenantId
  workspaceUri : (FieldType.optional .text).Holds envelope.workspaceUri

theorem toDict_eq_written (fields : List (String × Json)) : Orchestration.toDict fields = written fields := rfl

theorem outputContract_fromDict {contract : OutputContract}
    (h : (FieldType.list .text).Holds contract.requiredFields) :
    OutputContract.fromDict (written [("required_fields", contract.requiredFields)]) = contract := by
  obtain ⟨value⟩ := contract
  obtain ⟨items, hvalue, _⟩ := h
  cases hvalue
  rfl

theorem securityContext_fromDict {context : SecurityContext} (h : context.WellTyped) :
    SecurityContext.fromDict (written [("effective_scope", context.effectiveScope),
      ("delegation_depth", context.delegationDepth), ("deadline_ms", context.deadlineMs),
      ("provenance_chain_id", context.provenanceChainId)]) = context := by
  simp [SecurityContext.fromDict, orDefault_holds h.effectiveScope rfl, orDefault_holds h.delegationDepth rfl,
    orDefault_holds h.deadlineMs rfl, orDefault_holds h.provenanceChainId rfl]

theorem readMode_value (mode : InteractionMode) : readMode (.str mode.value) = some (.mode mode) := by
  have hvalue : InteractionMode.ofValue mode.value = some mode := by cases mode <;> decide +kernel
  rw [readMode, hvalue, Option.map_some]

section RoundTrip

variable {envelope : TaskEnvelope}

/-- The contract is written as an object, if there is one. -/
theorem outputContract_toDict (h : envelope.WellTyped) :
    readContract (Json.field envelope.toDict "output_contract") = envelope.outputContract := by
  cases hcontract : envelope.outputContract with
  | none => simp [TaskEnvelope.toDict, toDict_eq_written, field_eq_get, hcontract, readContract]
  | some contract =>
    simp [TaskEnvelope.toDict, toDict_eq_written, field_eq_get, hcontract, readContract,
      outputContract_fromDict (h.outputContract contract hcontract)]

/-- So is the security context. -/
theorem securityContext_toDict (h : envelope.WellTyped) :
    readContext (Json.field envelope.toDict "security_context") = envelope.securityContext := by
  cases hcontext : envelope.securityContext with
  | none => simp [TaskEnvelope.toDict, toDict_eq_written, field_eq_get, hcontext, readContext]
  | some context =>
    simp [TaskEnvelope.toDict, toDict_eq_written, field_eq_get, hcontext, readContext,
      securityContext_fromDict (h.securityContext context hcontext)]

/-- An envelope of the right types is read back as it is. -/
theorem TaskEnvelope.fromDict_toDict (h : envelope.WellTyped) :
    TaskEnvelope.fromDict envelope.toDict = some envelope.read := by
  have hmode : Json.get envelope.toDict "interaction_mode" (.str "task") = .str envelope.interactionMode.value := by
    simp [TaskEnvelope.toDict, toDict_eq_written, orDefault]
  have htask : Json.get envelope.toDict "task_id" (.str "") = .str envelope.taskId := by
    simp [TaskEnvelope.toDict, toDict_eq_written, orDefault]
  have hskill : Json.get envelope.toDict "skill" (.str "") = .str envelope.skill := by
    simp [TaskEnvelope.toDict, toDict_eq_written, orDefault]
  have hschema : Json.field envelope.toDict "input_schema" = envelope.inputSchema := by
    simp [TaskEnvelope.toDict, toDict_eq_written, field_eq_get]
  have hinput : Json.get envelope.toDict "input" (.obj []) = envelope.input := by
    simp [TaskEnvelope.toDict, toDict_eq_written, orDefault_holds h.input rfl]
  have htenant : Json.get envelope.toDict "tenant_id" (.str "") = envelope.tenantId := by
    simp [TaskEnvelope.toDict, toDict_eq_written, orDefault_holds h.tenantId rfl]
  have hworkspace : Json.field envelope.toDict "workspace_uri" = envelope.workspaceUri := by
    simp [TaskEnvelope.toDict, toDict_eq_written, field_eq_get]
  rw [TaskEnvelope.fromDict, hmode, readMode_value, Option.map_some, htask, hskill, hschema, hinput, htenant,
    hworkspace, outputContract_toDict h, securityContext_toDict h]
  rfl

end RoundTrip

/-- An envelope with a nested record and without the other. -/
def sampleEnvelope : TaskEnvelope where
  taskId := "sync_1"
  interactionMode := .syncCall
  skill := "echo"
  input := .obj [("text", .null)]
  outputContract := some { requiredFields := .arr [.str "text"] }

theorem sampleEnvelope_typed : sampleEnvelope.WellTyped where
  inputSchema := Or.inl rfl
  input := ⟨_, rfl, fun _ _ => trivial⟩
  outputContract := by
    intro contract h
    cases h
    exact ⟨_, rfl, fun _ hi => ⟨"text", List.mem_singleton.mp hi⟩⟩
  securityContext := fun _ h => by cases h
  tenantId := ⟨"", rfl⟩
  workspaceUri := Or.inl rfl

theorem sampleEnvelope_read : TaskEnvelope.fromDict sampleEnvelope.toDict = some sampleEnvelope.read :=
  TaskEnvelope.fromDict_toDict sampleEnvelope_typed

section Delivery

variable {p : Python}

/-- An envelope as the server builds it, up to its texts and the fields of its input. -/
def builtEnvelope (taskId skill tenantId : String) (fields : List (String × Json)) (uri : Json) : TaskEnvelope where
  taskId := taskId
  interactionMode := .task
  skill := skill
  input := .obj fields
  outputContract := some {}
  securityContext := some {}
  tenantId := .str tenantId
  workspaceUri := uri

/-- There is no workspace, or its URI is a text. -/
def IsUri (uri : Json) : Prop := uri = .null ∨ ∃ s, uri = .str s

section Built

variable {taskId skill tenantId : String} {fields : List (String × Json)} {uri : Json}

theorem builtEnvelope_toDict (huri : IsUri uri) : (builtEnvelope taskId skill tenantId fields uri).toDict =
    [("task_id", .str taskId), ("interaction_mode", .str "task"), ("skill", .str skill), ("input", .obj fields),
      ("output_contract", .obj [("required_fields", .arr [])]),
      ("security_context", .obj [("effective_scope", .str ""), ("delegation_depth", .int 0), ("deadline_ms", .int 0),
        ("provenance_chain_id", .str "")]), ("tenant_id", .str tenantId)] ++ written [("workspace_uri", uri)] := by
  rcases huri with rfl | ⟨s, rfl⟩
  · rfl
  · rfl

theorem builtEnvelope_read (huri : IsUri uri) :
    TaskEnvelope.fromDict (builtEnvelope taskId skill tenantId fields uri).toDict =
      some (builtEnvelope taskId skill tenantId fields uri).read := by
  have hmode : readMode (.str "task") = some (.mode .task) := readMode_value .task
  rw [builtEnvelope_toDict huri]
  rcases huri with rfl | ⟨s, rfl⟩
  · exact congrArg (Option.map _) hmode
  · exact congrArg (Option.map _) hmode

theorem builtEnvelope_decoded (huri : IsUri uri) (hfields : (Json.obj fields).Decoded p) :
    (Json.obj (builtEnvelope taskId skill tenantId fields uri).toDict).Decoded p := by
  have hcontract : (Json.obj [("required_fields", .arr [])]).Decoded p :=
    ⟨List.nodup_singleton _, ⟨trivial, trivial⟩, trivial⟩
  have hcontext : (Json.obj [("effective_scope", .str ""), ("delegation_depth", .int 0), ("deadline_ms", .int 0),
      ("provenance_chain_id", .str "")]).Decoded p := by
    refine ⟨?_, trivial, trivial, trivial, trivial, trivial⟩
    change ["effective_scope", "delegation_depth", "deadline_ms", "provenance_chain_id"].Nodup
    decide
  rw [builtEnvelope_toDict huri]
  rcases huri with rfl | ⟨s, rfl⟩
  · refine ⟨?_, trivial, trivial, trivial, hfields, hcontract, hcontext, trivial, trivial⟩
    change ["task_id", "interaction_mode", "skill", "input", "output_contract", "security_context", "tenant_id"].Nodup
    decide
  · refine ⟨?_, trivial, trivial, trivial, hfields, hcontract, hcontext, trivial, trivial, trivial⟩
    change ["task_id", "interaction_mode", "skill", "input", "output_contract", "security_context", "tenant_id",
      "workspace_uri"].Nodup
    decide

end Built

section Payload

variable (hfloat : ∀ s, Json.IsFloat p (p.floatOf s))
include hfloat

theorem bodyPayload_decoded (body : Option String) : (Json.obj (bodyPayload p body)).Decoded p := by
  have hsingle : ∀ v : Json, v.Decoded p → (Json.obj [("body", v)]).Decoded p :=
    fun v hv => ⟨List.nodup_singleton _, hv, trivial⟩
  unfold bodyPayload
  dsimp only
  split
  · exact ⟨List.nodup_nil, trivial⟩
  · split
    · rename_i fields hloads
      exact Json.loads_decoded hfloat hloads
    · rename_i value _ hloads
      exact hsingle value (Json.loads_decoded hfloat hloads)
    · exact hsingle _ trivial

end Payload

theorem putField_decoded {fields : List (String × Json)} (h : (Json.obj fields).Decoded p) {name : String} {v : Json}
    (hv : v.Decoded p) : (Json.obj (Json.putField fields (name, v))).Decoded p := by
  obtain ⟨hnodup, hfields⟩ := Json.every_obj.mp h
  refine Json.every_obj.mpr ⟨Json.putField_nodup hnodup _, fun f hf => ?_⟩
  rcases Json.putField_mem hf with hold | rfl
  · exact hfields f hold
  · exact hv

theorem mergeExtra_decoded {taskDict payload : List (String × Json)} (hdict : ∀ f ∈ taskDict, f.2.Decoded p)
    (h : (Json.obj payload).Decoded p) : (Json.obj (mergeExtra taskDict payload)).Decoded p := by
  unfold mergeExtra
  generalize extraKeys = keys
  induction keys generalizing payload with
  | nil => exact h
  | cons key keys ih =>
    rw [List.foldl_cons]
    apply ih
    dsimp only
    split
    · rename_i name value hfind
      exact putField_decoded h (hdict _ (List.mem_of_find?_eq_some hfind))
    · exact h

theorem workspaceUri_isUri (tenantId : String) (workspacePath : Option String) :
    IsUri (workspaceUri tenantId workspacePath) := by
  unfold workspaceUri
  split
  · exact Or.inl rfl
  · split
    · exact Or.inl rfl
    · split
      · exact Or.inr ⟨_, rfl⟩
      · exact Or.inr ⟨_, rfl⟩

/-- What is taken from a request has been decoded from JSON. -/
def EnvelopeDelivery.Received (p : Python) : EnvelopeDelivery → Prop
  | .handleDispatch _ _ _ _ sessionId => sessionId.Decoded p
  | _ => True

/-- Whatever a delivery is for, its envelope has the same form, with JSON inside. -/
theorem delivery_built (hfloat : ∀ s, Json.IsFloat p (p.floatOf s)) (delivery : EnvelopeDelivery)
    (hd : delivery.Received p) : ∃ taskId skill tenantId fields uri,
      delivery.envelope p = builtEnvelope taskId skill tenantId fields uri ∧ IsUri uri ∧ (Json.obj fields).Decoded p := by
  have hmerged : ∀ taskDict body, (∀ f ∈ taskDict, f.2.Decoded p) →
      (Json.obj (mergeExtra taskDict (bodyPayload p body))).Decoded p :=
    fun _ body hdict => mergeExtra_decoded hdict (bodyPayload_decoded hfloat body)
  cases delivery with
  | dispatchViaWs task wsPath =>
    refine ⟨_, _, _, _, _, rfl, ?_, hmerged [] task.body (by simp)⟩
    split
    · exact workspaceUri_isUri _ _
    · exact Or.inr ⟨wsPath, rfl⟩
  | handleDispatch taskId agentId tenant query sessionId =>
    refine ⟨_, _, _, _, _, rfl, workspaceUri_isUri _ _, hmerged _ (some query) ?_⟩
    intro f hf
    simp only [List.mem_cons, List.not_mem_nil, or_false] at hf
    rcases hf with rfl | rfl
    · exact trivial
    · exact hd
  | dispatchPending task => exact ⟨_, _, _, _, _, rfl, workspaceUri_isUri _ _, hmerged [] task.body (by simp)⟩

end Delivery

section Fence

variable {guardrail : Guardrail} {input : Json} {mode : Option String} {actor : String}

/-- What a guardrail finds in an input. -/
def Finds (guardrail : Guardrail) (input : Json) : Prop :=
  flattenToText guardrail.toPython 0 input ≠ "" ∧ ∃ pattern ∈ guardrail.injectionPatterns,
    (pattern.search (flattenToText guardrail.toPython 0 input)).isSome = true

theorem checkInbound_allowed : (checkInbound guardrail input mode actor).allowed = true ↔
    ¬ Finds guardrail input ∨ guardrail.effectiveMode mode = "audit" ∨ guardrail.effectiveMode mode = "warn" := by
  unfold checkInbound Finds
  dsimp only
  split
  · rename_i hempty
    simp [hempty]
  · rename_i hne
    split
    · rename_i hnone
      rw [List.findSome?_eq_none_iff] at hnone
      refine iff_of_true rfl (Or.inl ?_)
      rintro ⟨_, pattern, hp, hmatch⟩
      rw [hnone pattern hp] at hmatch
      cases hmatch
    · rename_i found hfound
      have hfinds : ∃ pattern ∈ guardrail.injectionPatterns,
          (pattern.search (flattenToText guardrail.toPython 0 input)).isSome = true :=
        List.findSome?_isSome_iff.mp (Option.isSome_iff_exists.mpr ⟨found, hfound⟩)
      rw [applyMode_allowed]
      exact ⟨Or.inr, fun h => h.resolve_left (fun hnot => hnot ⟨hne, hfinds⟩)⟩

/-- It finds whatever a pattern matches that is not nested too deep. -/
theorem finds_of_holds {pattern : InjectionPattern} (hp : pattern ∈ guardrail.injectionPatterns) {s : String}
    (hs : s ≠ "") (hin : Holds s flattenDepth input) (hmatch : (pattern.search s).isSome = true) :
    Finds guardrail input :=
  ⟨flattenToText_ne hs hin (by simp), pattern, hp, flattenToText_holds pattern.survives hmatch hin (by simp)⟩

end Fence

/-- A delivery is held back exactly where the fence is asked about it and a guardrail that blocks finds something in it.
Otherwise the agent reads the envelope from the text that it is sent. Where the fence has been asked and the guardrail
enforces, no key and no text in its input, at most eight levels deep, matches a pattern. -/
theorem agent_reads_envelope {p : Python} (hfloat : ∀ s, Json.IsFloat p (p.floatOf s)) (guardrail : Option Guardrail)
    {delivery : EnvelopeDelivery} (hd : delivery.Received p) :
    (delivery.frame p guardrail = none ↔ delivery.fenced = true ∧ ∃ engine, guardrail = some engine ∧
      Finds engine (delivery.envelope p).input ∧ engine.mode ≠ "audit" ∧ engine.mode ≠ "warn") ∧
    ∀ text, delivery.frame p guardrail = some text →
      readFrame p text = some (delivery.envelope p).read ∧
      (delivery.fenced = true → ∀ engine, guardrail = some engine → engine.mode = "enforce" →
        ∀ pattern ∈ engine.injectionPatterns, ∀ s, s ≠ "" → Holds s flattenDepth (delivery.envelope p).input →
          (pattern.search s).isSome = false) := by
  have hfence : checkIngressSecurityFence p guardrail (delivery.envelope p) = false ↔ ∃ engine, guardrail = some engine ∧
      Finds engine (delivery.envelope p).input ∧ engine.mode ≠ "audit" ∧ engine.mode ≠ "warn" := by
    cases guardrail with
    | none => simp [checkIngressSecurityFence]
    | some engine =>
      have hmode : engine.effectiveMode none = engine.mode := rfl
      simp only [checkIngressSecurityFence]
      rw [← Bool.not_eq_true, checkInbound_allowed, hmode]
      simp [not_or]
  constructor
  · rw [← hfence, EnvelopeDelivery.frame]
    cases hfenced : delivery.fenced <;> simp
  · intro text hframe
    rw [EnvelopeDelivery.frame] at hframe
    split at hframe
    · cases hframe
    · rename_i hpasses
      cases hframe
      constructor
      · obtain ⟨taskId, skill, tenantId, fields, uri, hbuilt, huri, hfields⟩ := delivery_built hfloat delivery hd
        rw [hbuilt, readFrame, Json.loads_dumps (builtEnvelope_decoded huri hfields)]
        exact builtEnvelope_read huri
      · rintro hfenced engine rfl henforce pattern hp s hs hin
        cases hmatch : (pattern.search s).isSome with
        | false => rfl
        | true =>
          have hfinds := finds_of_holds hp hs hin hmatch
          have hblocks : checkIngressSecurityFence p (some engine) (delivery.envelope p) = false :=
            hfence.mpr ⟨engine, rfl, hfinds, by simp [henforce], by simp [henforce]⟩
          simp [hfenced, hblocks] at hpasses

/-- A Python for texts without floats. -/
def plainPython : Python := ⟨fun _ => "0.0", fun _ => true⟩

/-- A query with nothing in it that the guardrail finds. -/
def queryDelivery : EnvelopeDelivery := .handleDispatch "task-1" "echo" (some "acme") "list the files" (.str "s-1")

theorem query_read : ∃ text, queryDelivery.frame plainPython (some jailbreakGuardrail) = some text ∧
    readFrame plainPython text = some (queryDelivery.envelope plainPython).read := by
  have hzero : Json.scanNumber plainPython "0.0".toList = some (.float "0.0", []) := rfl
  have hfloat : ∀ s, Json.IsFloat plainPython (plainPython.floatOf s) := fun _ => Or.inr hzero
  have hd : queryDelivery.Received plainPython := trivial
  obtain ⟨hheld, hread⟩ := agent_reads_envelope hfloat (some jailbreakGuardrail) hd
  have hclean : ∀ engine, some jailbreakGuardrail = some engine →
      ¬ Finds engine (queryDelivery.envelope plainPython).input := by
    rintro engine ⟨⟩ ⟨_, pattern, hp, hmatch⟩
    cases List.mem_singleton.mp hp
    revert hmatch
    decide +kernel
  cases hframe : queryDelivery.frame plainPython (some jailbreakGuardrail) with
  | none =>
    obtain ⟨_, engine, hengine, hfinds, _⟩ := hheld.mp hframe
    exact absurd hfinds (hclean engine hengine)
  | some text => exact ⟨text, rfl, (hread text hframe).1⟩

end A2ARegistry.Server
