import A2ARegistry.Orchestration.Proofs.Ownership
import A2ARegistry.Orchestration.Proofs.Results
import A2ARegistry.Server.Proofs.SyncCall

namespace A2ARegistry.Orchestration
open Base

/-- The names a contract requires; `none` where its field cannot be read as names. -/
def OutputContract.required (contract : OutputContract) : Option (List String) :=
  contract.requiredFields.iterate.bind Json.texts

/-- The result is an object that has every required field. -/
def OutputContract.Fits (contract : OutputContract) (result : Json) : Prop :=
  ∃ output names, result = .obj output ∧ contract.required = some names ∧
    ∀ name ∈ names, ∃ field ∈ output, field.1 = name

section
variable {contract : OutputContract} {output : List (String × Json)}

/-- The validator passes an object exactly when it fits. -/
theorem validateOutput_passes (h : contract.requiredFields.truthy = true) :
    validateOutput output contract = some none ↔ contract.Fits (.obj output) := by
  unfold validateOutput OutputContract.Fits OutputContract.required
  rw [h]
  cases hnames : contract.requiredFields.iterate.bind Json.texts with
  | none => simp
  | some names =>
    have hmissing : (names.filter (fun f => !output.any (fun field => field.1 == f))).isEmpty = true ↔
        ∀ name ∈ names, ∃ field ∈ output, field.1 = name := by
      rw [List.isEmpty_iff, List.filter_eq_nil_iff]
      simp only [Bool.not_eq_true', Bool.not_eq_false, List.any_eq_true, beq_iff_eq]
    by_cases hall : ∀ name ∈ names, ∃ field ∈ output, field.1 = name
    · have hempty := hmissing.mpr hall
      simp only [Bool.not_true, Bool.false_eq_true, if_false, Option.map_some, hempty, if_true, true_iff]
      exact ⟨output, names, rfl, rfl, hall⟩
    · have hsome := Bool.eq_false_iff.mpr fun he => hall (hmissing.mp he)
      simp only [Bool.not_true, Bool.false_eq_true, if_false, Option.map_some, hsome]
      constructor
      · intro he
        cases he
      · rintro ⟨output', names', hout, hn, hall'⟩
        cases hout
        cases hn
        exact absurd hall' hall

end

/-- The result is no object, and its text is empty, or is read as a value that is no object or fits. -/
def Unchecked (codec : Codec) (contract : OutputContract) (result : Json) : Prop :=
  (∀ output, result ≠ .obj output) ∧ (truthy (resultText codec result) = false ∨
    ∃ value, codec.loads ((resultText codec result).getD "") = some value ∧
      ∀ output, value = .obj output → contract.Fits value)

/-- The task is running and takes an update under this lock. -/
def Completable (db : Db) (taskId : String) (claimLock : Json) : Prop :=
  ∃ t, db.task? taskId = some t ∧ t.status = .running ∧ lockRefused t claimLock = false

/-- The result fits, or the task has failed with the error of the validation, or nothing has happened. -/
def CompletionEnforced (codec : Codec) (contract : OutputContract) (db : Db) (taskId : String)
    (body : CompleteBody) (db' : Db) : Prop :=
  contract.Fits body.result ∨
    (∃ t error, checkContract codec body = some (some error) ∧ db'.task? taskId = some t ∧
      t.status = .failed ∧ t.lastFailureError = some error) ∨
    db' = db

section
variable {codec : Codec} {body : CompleteBody} {data : List (String × Json)}

/-- Of a result that is no object the text is checked, where there is one. -/
theorem checkContract_text (hbody : body.outputContract = .obj data)
    (htruthy : (OutputContract.fromDict data).requiredFields.truthy = true)
    (hne : ∀ output, body.result ≠ .obj output) :
    checkContract codec body = some none ↔ Unchecked codec (OutputContract.fromDict data) body.result := by
  unfold checkContract Unchecked
  rw [hbody]
  dsimp only
  split
  · rename_i hnull
    cases hnull
  · rename_i output hresult _
    exact absurd hresult (hne output)
  · by_cases htext : truthy (resultText codec body.result) = true
    · rw [if_pos htext]
      cases hloads : codec.loads ((resultText codec body.result).getD "") with
      | none => simp [htext]
      | some value =>
        cases value with
        | obj output =>
          simp only [validateOutput_passes htruthy, htext, Bool.true_eq_false, false_or, Option.some.injEq]
          constructor
          · intro hfits
            exact ⟨hne, .obj output, rfl, fun _ _ => hfits⟩
          · rintro ⟨_, value, rfl, hfits⟩
            exact hfits output rfl
        | _ => simp [hne]
    · rw [if_neg htext]
      simp [hne, Bool.eq_false_iff.mpr htext]

/-- What the check of a completion lets through. -/
theorem checkContract_passes (hbody : body.outputContract = .obj data)
    (htruthy : (OutputContract.fromDict data).requiredFields.truthy = true) :
    checkContract codec body = some none ↔
      (OutputContract.fromDict data).Fits body.result ∨ Unchecked codec (OutputContract.fromDict data) body.result := by
  cases hresult : body.result with
  | obj output =>
    have hcheck : checkContract codec body = validateOutput output (OutputContract.fromDict data) := by
      simp only [checkContract, hbody, hresult]
    rw [hcheck, validateOutput_passes htruthy]
    simp [Unchecked]
  | _ =>
    rw [← hresult, checkContract_text hbody htruthy (by simp [hresult])]
    simp [OutputContract.Fits, hresult]

variable {ape : Option Security.Ape} {db : Db} {clock : Clock} {agentId taskId : String}

/-- A completion that broke its contract fails its task, or changes nothing. -/
theorem failOnContract_enforced (headers : List (String × String)) (error : String) :
    (∃ t, (failOnContract codec db clock taskId body headers error).2.task? taskId = some t ∧
      t.status = .failed ∧ t.lastFailureError = some error) ∨
    (failOnContract codec db clock taskId body headers error).2 = db := by
  unfold failOnContract
  cases hup : updateTaskStatus db clock taskId TaskStatus.failed.value (body.failArgs error) with
  | error e =>
    right
    cases e <;> rfl
  | ok r =>
    left
    obtain ⟨view, db'⟩ := r
    obtain ⟨t, new, retryAt, kind, ht, hnew, _, rfl⟩ := updateTaskStatus_ok hup
    have hfailed := TaskStatus.value_injective hnew
    subst hfailed
    have hid := Db.task_id ht
    subst hid
    have hrow := writeStatus_task db clock t .failed (body.failArgs error) retryAt kind ht t.id
    rw [if_pos rfl] at hrow
    exact ⟨_, hrow, rfl, rfl⟩

theorem completeTask_refused (headers : List (String × String)) (h : ¬ Completable db taskId body.claimLock) :
    (completeTask codec db clock taskId body headers).2 = db := by
  unfold completeTask
  cases hup : updateTaskStatus db clock taskId TaskStatus.completed.value (body.args codec) with
  | error e => rfl
  | ok r =>
    obtain ⟨view, db'⟩ := r
    obtain ⟨t, new, retryAt, kind, ht, hnew, ha, _⟩ := updateTaskStatus_ok hup
    have hdone := TaskStatus.value_injective hnew
    subst hdone
    have hedge := ha.edge
    have hrunning : t.status = .running := by cases hs : t.status <;> simp [transitions, hs] at hedge ⊢
    exact absurd ⟨t, ht, hrunning, ha.lock⟩ h

theorem completable_accepts (hallowed : (completeCheckpoint ape db agentId taskId body).allowed = true)
    (hcheck : checkContract codec body = some none) (h : Completable db taskId body.claimLock) :
    Accepts codec db taskId clock ape agentId body := by
  obtain ⟨t, ht, hs, hlock⟩ := h
  have ha : Accepted t clock.now .completed (body.args codec).claimLock none :=
    ⟨by simp [hs, transitions], hlock, by simp [hs], nextRetry_of_ne (by simp)⟩
  obtain ⟨view, kind, hok⟩ := updateTaskStatus_accepted ht ha
  exact ⟨hallowed, hcheck, _, hok⟩

/-- A completion is enforced unless it is allowed, its result is let through unchecked, and the task takes it. -/
theorem completion_enforced_iff (broadcasts : Bool) (hbody : body.outputContract = .obj data)
    (htruthy : (OutputContract.fromDict data).requiredFields.truthy = true) :
    CompletionEnforced codec (OutputContract.fromDict data) db taskId body
        (postComplete codec broadcasts ape db clock agentId taskId body).2 ↔
      (OutputContract.fromDict data).Fits body.result ∨
        ¬ Unchecked codec (OutputContract.fromDict data) body.result ∨
        (completeCheckpoint ape db agentId taskId body).allowed = false ∨
        ¬ Completable db taskId body.claimLock := by
  rw [postComplete_db]
  constructor
  · intro h
    by_contra hn
    obtain ⟨hfits, hunchecked, hallowed, hcompletable⟩ :
        ¬ (OutputContract.fromDict data).Fits body.result ∧
          Unchecked codec (OutputContract.fromDict data) body.result ∧
          (completeCheckpoint ape db agentId taskId body).allowed = true ∧
          Completable db taskId body.claimLock := by
      simpa only [not_or, not_not, Bool.not_eq_false] using hn
    have hcheck := (checkContract_passes hbody htruthy).mpr (Or.inr hunchecked)
    obtain ⟨t, t', ht, hedge, ht', hs', _⟩ :=
      accepted_row (@completable_accepts codec body ape db clock agentId taskId hallowed hcheck hcompletable)
    rcases h with hf | ⟨u, error, _, hu, hsu, _⟩ | hsame
    · exact hfits hf
    · rw [ht'] at hu
      cases hu
      rw [hs'] at hsu
      cases hsu
    · rw [hsame, ht] at ht'
      cases ht'
      rw [hs'] at hedge
      simp [transitions] at hedge
  · intro h
    unfold handleComplete
    by_cases hfits : (OutputContract.fromDict data).Fits body.result
    · exact Or.inl hfits
    · right
      cases hallowed : (completeCheckpoint ape db agentId taskId body).allowed with
      | false =>
        right
        simp only [hallowed, Bool.not_false, if_true]
      | true =>
        simp only [hallowed, Bool.not_true, Bool.false_eq_true, if_false]
        cases hcheck : checkContract codec body with
        | none => exact Or.inr rfl
        | some violation =>
          cases violation with
          | some error =>
            have hfailed := @failOnContract_enforced codec body db clock taskId
              (completeCheckpoint ape db agentId taskId body).responseHeaders error
            rcases hfailed with ⟨t, ht, hs, herr⟩ | hsame
            · exact Or.inl ⟨t, error, rfl, ht, hs, herr⟩
            · exact Or.inr hsame
          | none =>
            have hunchecked := ((checkContract_passes hbody htruthy).mp hcheck).resolve_left hfits
            right
            apply completeTask_refused
            rcases h with hf | hu | ha | hc
            · exact absurd hf hfits
            · exact absurd hunchecked hu
            · rw [hallowed] at ha
              cases ha
            · exact hc

end

end A2ARegistry.Orchestration

namespace A2ARegistry.Server
open Base Orchestration Security

/-- A call gets as far as the wait for its agent: it names an agent and a skill, and the entry barriers let it
through. -/
def Admitted (h : SyncCallHandler) (db : Db) (draw : SyncDraw) (caller : CallerIdentity)
    (body : List (String × Json)) : Prop :=
  ∃ agentId skill, strippedField body "agent_id" = some agentId ∧ agentId ≠ "" ∧
    strippedField body "skill" = some skill ∧ skill ≠ "" ∧
    runEntryBarriers h db draw caller (envelopeOf draw caller body skill) = none

/-- What is not held against the contract is answered with an error all the same: by an exit barrier, or as
the error the agent reports. -/
def AnsweredAsError (h : SyncCallHandler) (answer : Answer) : Prop :=
  match (runExitBarriers h.exitBarriers answer).2 with
  | some response => 400 ≤ response.status
  | none => answer.status.isWord ["error"] = true

/-- The result fits, or the answer is an error. -/
def SyncEnforced (contract : OutputContract) (answer : Answer) (response : Response) : Prop :=
  contract.Fits answer.result ∨ 400 ≤ response.status

section
variable {h : SyncCallHandler} {db : Db} {draw : SyncDraw} {caller : CallerIdentity}
  {body data : List (String × Json)} {answer : Answer} {contract : OutputContract}

theorem validateAnswer_passes (htruthy : contract.requiredFields.truthy = true) (result : Json) :
    validateAnswer contract result = some none ↔ contract.Fits result := by
  cases result with
  | obj output => exact validateOutput_passes htruthy
  | _ => simp [validateAnswer, OutputContract.Fits]

/-- The response to an answer with a contract that requires something. -/
theorem respond_enforced_iff (envelope : TaskEnvelope) (hcontract : envelope.outputContract = some contract)
    (htruthy : contract.requiredFields.truthy = true) :
    SyncEnforced contract answer (respond h draw envelope answer) ↔
      contract.Fits answer.result ∨ (answer.status.isWord ["success"] = true ∧ answer.result ≠ .null) ∨
        AnsweredAsError h answer := by
  have hunchecked : contractViolation envelope answer = some none →
      (400 ≤ (respond h draw envelope answer).status ↔ AnsweredAsError h answer) := by
    intro hpass
    unfold respond AnsweredAsError
    rw [hpass]
    cases (runExitBarriers h.exitBarriers answer).2 with
    | some response => exact Iff.rfl
    | none =>
      by_cases herror : answer.status.isWord ["error"] = true
      · simp [herror, apiError]
      · simp [herror]
  unfold SyncEnforced
  by_cases hchecked : answer.status.isWord ["success"] = true ∧ answer.result ≠ .null
  · obtain ⟨hsuccess, hresult⟩ := hchecked
    have hviolation : contractViolation envelope answer = validateAnswer contract answer.result := by
      unfold contractViolation
      rw [hcontract]
      cases hr : answer.result with
      | null => exact absurd hr hresult
      | _ => simp [hsuccess]
    refine ⟨fun _ => Or.inr (Or.inl ⟨hsuccess, hresult⟩), fun _ => ?_⟩
    by_cases hfits : contract.Fits answer.result
    · exact Or.inl hfits
    · right
      unfold respond
      rw [hviolation]
      cases hv : validateAnswer contract answer.result with
      | none => simp [serverError]
      | some violation =>
        cases violation with
        | none => exact absurd ((validateAnswer_passes htruthy _).mp hv) hfits
        | some verr => simp [apiError]
  · have hpass : contractViolation envelope answer = some none := by
      unfold contractViolation
      rw [hcontract]
      cases hr : answer.result with
      | null => rfl
      | _ =>
        have hstatus : ¬ answer.status.isWord ["success"] = true := fun hs => hchecked ⟨hs, by simp [hr]⟩
        simp [hstatus]
    rw [hunchecked hpass]
    simp [hchecked]

theorem envelopeOf_contract (hbody : Json.field body "output_contract" = .obj data) (skill : String) :
    (envelopeOf draw caller body skill).outputContract = some (OutputContract.fromDict data) := by
  simp only [envelopeOf, hbody]

/-- A call that is not admitted is answered with an error. -/
theorem refused_error (delivery : Delivery) (hrefused : ¬ Admitted h db draw caller body) :
    400 ≤ (handleSyncCall h db draw caller body delivery).1.status := by
  unfold handleSyncCall
  cases hagent : strippedField body "agent_id" with
  | none => simp [serverError]
  | some agentId =>
    by_cases hagentne : agentId = ""
    · simp [hagentne, apiError]
    · simp only [if_neg hagentne]
      cases hskill : strippedField body "skill" with
      | none => simp [serverError]
      | some skill =>
        by_cases hskillne : skill = ""
        · simp [hskillne, apiError]
        · simp only [if_neg hskillne]
          cases hbarrier : runEntryBarriers h db draw caller (envelopeOf draw caller body skill) with
          | none => exact absurd ⟨agentId, skill, hagent, hagentne, hskill, hskillne, hbarrier⟩ hrefused
          | some response =>
            have hstatus := runEntryBarriers_status hbarrier
            simp [hstatus]

/-- A call that its agent does not answer is answered with an error. -/
theorem unanswered_error (delivery : Delivery) (hdelivery : ∀ answer, delivery ≠ .answered answer) :
    400 ≤ (handleSyncCall h db draw caller body delivery).1.status := by
  by_cases hadmitted : Admitted h db draw caller body
  · obtain ⟨agentId, skill, hagent, hagentne, hskill, hskillne, hbarrier⟩ := hadmitted
    unfold handleSyncCall
    simp only [hagent, if_neg hagentne, hskill, if_neg hskillne, hbarrier]
    cases delivery with
    | answered answer => exact absurd rfl (hdelivery answer)
    | _ => simp [apiError, serverError]
  · exact refused_error delivery hadmitted

/-- A call that is admitted is enforced if its result fits, is checked, or is answered as an error. -/
theorem sync_enforced_iff (hbody : Json.field body "output_contract" = .obj data)
    (htruthy : (OutputContract.fromDict data).requiredFields.truthy = true) :
    SyncEnforced (OutputContract.fromDict data) answer (handleSyncCall h db draw caller body (.answered answer)).1 ↔
      (OutputContract.fromDict data).Fits answer.result ∨ ¬ Admitted h db draw caller body ∨
        (answer.status.isWord ["success"] = true ∧ answer.result ≠ .null) ∨ AnsweredAsError h answer := by
  by_cases hadmitted : Admitted h db draw caller body
  · have hrest := hadmitted
    obtain ⟨agentId, skill, hagent, hagentne, hskill, hskillne, hbarrier⟩ := hrest
    have hrespond : (handleSyncCall h db draw caller body (.answered answer)).1 =
        respond h draw (envelopeOf draw caller body skill) answer := by
      unfold handleSyncCall
      simp only [hagent, if_neg hagentne, hskill, if_neg hskillne, hbarrier]
    rw [hrespond, respond_enforced_iff _ (envelopeOf_contract hbody skill) htruthy]
    simp [hadmitted]
  · exact iff_of_true (Or.inr (refused_error _ hadmitted)) (Or.inr (Or.inl hadmitted))

end

/-- A contract that requires something is enforced on a completion unless the result is let through unchecked
and the task takes it, and on a synchronous call unless the call is admitted, the result is null or the status
another word than "success", and neither a barrier nor the status makes the answer an error. -/
theorem contracts_enforced_iff (data : List (String × Json))
    (htruthy : (OutputContract.fromDict data).requiredFields.truthy = true) :
    (∀ codec broadcasts ape db clock agentId taskId body, body.outputContract = .obj data →
      (CompletionEnforced codec (OutputContract.fromDict data) db taskId body
          (postComplete codec broadcasts ape db clock agentId taskId body).2 ↔
        (OutputContract.fromDict data).Fits body.result ∨
          ¬ Unchecked codec (OutputContract.fromDict data) body.result ∨
          (completeCheckpoint ape db agentId taskId body).allowed = false ∨
          ¬ Completable db taskId body.claimLock)) ∧
    (∀ h db draw caller body, Json.field body "output_contract" = .obj data →
      (∀ delivery, (∀ answer, delivery ≠ .answered answer) →
        400 ≤ (handleSyncCall h db draw caller body delivery).1.status) ∧
      ∀ answer, SyncEnforced (OutputContract.fromDict data) answer
          (handleSyncCall h db draw caller body (.answered answer)).1 ↔
        (OutputContract.fromDict data).Fits answer.result ∨ ¬ Admitted h db draw caller body ∨
          (answer.status.isWord ["success"] = true ∧ answer.result ≠ .null) ∨ AnsweredAsError h answer) := by
  constructor
  · intro codec broadcasts ape db clock agentId taskId body hbody
    exact completion_enforced_iff broadcasts hbody htruthy
  · intro h db draw caller body hbody
    exact ⟨unanswered_error, fun answer => sync_enforced_iff hbody htruthy⟩

/-- A contract that asks for a summary. -/
def summaryContract : List (String × Json) := [("required_fields", .arr [.str "summary"])]

/-- A completion without a result, on the task that is held. -/
def emptyCompletion : CompleteBody := { outputContract := .obj summaryContract }

/-- The call of one agent to the other, with the contract. -/
def contractCall : List (String × Json) := sampleCall ++ [("output_contract", .obj summaryContract)]

theorem contracts_sample : (OutputContract.fromDict summaryContract).requiredFields.truthy = true ∧
    (CompletionEnforced nullCodec (OutputContract.fromDict summaryContract) (exec step Db.empty heldTask) "t_a"
        emptyCompletion (postComplete nullCodec false none (exec step Db.empty heldTask) (.fixed 1) "w" "t_a"
          emptyCompletion).2 ↔
      (OutputContract.fromDict summaryContract).Fits emptyCompletion.result ∨
        ¬ Unchecked nullCodec (OutputContract.fromDict summaryContract) emptyCompletion.result ∨
        (completeCheckpoint none (exec step Db.empty heldTask) "w" "t_a" emptyCompletion).allowed = false ∨
        ¬ Completable (exec step Db.empty heldTask) "t_a" emptyCompletion.claimLock) :=
  ⟨rfl, (contracts_enforced_iff summaryContract rfl).1 nullCodec false none (exec step Db.empty heldTask) (.fixed 1)
    "w" "t_a" emptyCompletion rfl⟩

/-- The task completes without a summary, and a call with the status "ok" succeeds without one. -/
theorem contracts_unenforced :
    ¬ CompletionEnforced nullCodec (OutputContract.fromDict summaryContract) (exec step Db.empty heldTask) "t_a"
        emptyCompletion (postComplete nullCodec false none (exec step Db.empty heldTask) (.fixed 1) "w" "t_a"
          emptyCompletion).2 ∧
    ¬ SyncEnforced (OutputContract.fromDict summaryContract) ⟨.str "ok", .obj [], .null⟩
        (handleSyncCall sampleSync Db.empty syncDraw sampleCaller contractCall
          (.answered ⟨.str "ok", .obj [], .null⟩)).1 := by
  constructor
  · rw [completion_enforced_iff false rfl rfl]
    rintro (⟨output, names, hout, _⟩ | hchecked | hdenied | hrefused)
    · cases hout
    · exact hchecked ⟨by simp [emptyCompletion], Or.inl rfl⟩
    · cases hdenied
    · obtain ⟨t, ht, hs, _⟩ := heldTask_row
      exact hrefused ⟨t, ht, hs, by simp [lockRefused, emptyCompletion, Json.truthy]⟩
  · rw [sync_enforced_iff rfl rfl]
    rintro (⟨output, names, hout, hnames, hall⟩ | hrefused | ⟨hsuccess, _⟩ | herror)
    · cases hout
      cases hnames
      obtain ⟨field, hmem, _⟩ := hall "summary" List.mem_cons_self
      cases hmem
    · exact hrefused ⟨"agent-b", "echo", by decide +kernel, by decide, by decide +kernel, by decide, rfl⟩
    · exact absurd hsuccess (by decide)
    · have hword : (Json.str "ok").isWord ["error"] = true := herror
      exact absurd hword (by decide)

end A2ARegistry.Server
