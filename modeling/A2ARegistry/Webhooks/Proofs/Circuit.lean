import A2ARegistry.Webhooks.Delivery

namespace A2ARegistry.Webhooks
open Base

/-- The failed deliveries to a subscription since it was created or enabled, or a delivery to it succeeded. The latest
entry comes first. -/
def failuresSince (id : String) : List Entry → Nat
  | [] => 0
  | .created j :: earlier | .enabled j :: earlier | .succeeded j :: earlier =>
    if j = id then 0 else failuresSince id earlier
  | .failed j :: earlier => (if j = id then 1 else 0) + failuresSince id earlier
  | .autoDisabled _ :: earlier => failuresSince id earlier

/-- Whenever a subscription was disabled automatically, enough deliveries to it had failed. -/
def Justified : List Entry → Prop
  | [] => True
  | .autoDisabled id :: earlier => maxConsecutiveFailures ≤ failuresSince id earlier ∧ Justified earlier
  | _ :: earlier => Justified earlier

/-- The write of the failure counter behind the last attempt does not raise, if the input gets there. -/
def Counted {ι : Type} : Input ι → Prop
  | .answer _ a => a.countFailure.error = none
  | _ => True

/-- How what a row counts stands to the failures that there were: it is the same, or no more. -/
structure Tally (R : Nat → Nat → Prop) : Prop where
  zero : R 0 0
  succ : ∀ {m n}, R m n → R (m + 1) (n + 1)
  le : ∀ {m n}, R m n → m ≤ n

theorem tally_eq : Tally (· = ·) := ⟨rfl, fun h => by rw [h], fun h => h.le⟩

theorem tally_le : Tally (· ≤ ·) := ⟨le_refl 0, Nat.succ_le_succ, id⟩

/-- A row counts the failures as it should, and while it is enabled fewer than the threshold. -/
def RowCounts (R : Nat → Nat → Prop) (history : List Entry) (row : WebhookSubscription) : Prop :=
  R row.consecutiveFailures (failuresSince row.id history) ∧
    (row.enabled = true → row.consecutiveFailures < maxConsecutiveFailures)

/-- The circuit invariant. -/
structure Circuit (R : Nat → Nat → Prop) (store : WebhookStore) (history : List Entry) : Prop where
  rows : ∀ row ∈ store.subscriptions.rows, RowCounts R history row
  justified : Justified history

section Entries

variable {id j : String} {history : List Entry}

/-- An entry about another subscription changes nothing. -/
theorem failuresSince_other {entry : Entry} (hj : j ≠ id)
    (hentry : entry ∈ [.created id, .enabled id, .succeeded id, .failed id]) :
    failuresSince j (entry :: history) = failuresSince j history := by
  simp only [List.mem_cons, List.not_mem_nil, or_false] at hentry
  rcases hentry with rfl | rfl | rfl | rfl
  · rw [failuresSince, if_neg (Ne.symm hj)]
  · rw [failuresSince, if_neg (Ne.symm hj)]
  · rw [failuresSince, if_neg (Ne.symm hj)]
  · rw [failuresSince, if_neg (Ne.symm hj), Nat.zero_add]

theorem failuresSince_failed : failuresSince id (.failed id :: history) = failuresSince id history + 1 := by
  rw [failuresSince, if_pos rfl, Nat.add_comm]

end Entries

namespace Circuit

variable {R : Nat → Nat → Prop} {store : WebhookStore} {history : List Entry}

/-- The log of the deliveries is a table of its own. -/
theorem logged (h : Circuit R store history) {draw : WebhookStore.Draw} {id eventType : String}
    {payload : List (String × Json)} {status : String} {code attempt : Nat} {errorMessage : String}
    {store' : WebhookStore}
    (hlog : store.logDelivery draw id eventType payload status code attempt errorMessage = .ok store') :
    Circuit R store' history := by
  unfold WebhookStore.logDelivery at hlog
  split at hlog
  · cases hlog
  · cases hlog
    exact ⟨h.rows, h.justified⟩

/-- An update of one subscription, and an entry about it. -/
theorem updated (h : Circuit R store history) {id : String} {f : WebhookSubscription → WebhookSubscription}
    {hf : ∀ row, key (f row) = key row} {history' : List Entry}
    (hrow : ∀ row ∈ store.subscriptions.rows, row.id = id → RowCounts R history row → RowCounts R history' (f row))
    (hother : ∀ j, j ≠ id → failuresSince j history' = failuresSince j history) (hjustified : Justified history') :
    Circuit R (store.update id f hf) history' := by
  refine ⟨fun row hrow' => ?_, hjustified⟩
  have hmodified : row ∈ (store.subscriptions.modify (fun row => row.id == id) f hf).rows := hrow'
  obtain ⟨old, hold, rfl⟩ := Table.mem_modify.mp hmodified
  by_cases hid : old.id = id
  · rw [if_pos (by simpa using hid)]
    exact hrow old hold hid (h.rows old hold)
  · rw [if_neg (by simpa using hid)]
    obtain ⟨hcount, henabled⟩ := h.rows old hold
    refine ⟨?_, henabled⟩
    rw [hother old.id hid]
    exact hcount

theorem disabled (h : Circuit R store history) (id : String) : Circuit R (store.disableSubscription id) history :=
  h.updated (fun _ _ _ hrow => ⟨hrow.1, fun he => (nomatch he)⟩) (fun _ _ => rfl) h.justified

theorem enabled (ht : Tally R) (h : Circuit R store history) (id : String) :
    Circuit R (store.enableSubscription id) (.enabled id :: history) := by
  refine h.updated (fun row _ hid _ => ⟨?_, fun _ => Nat.zero_lt_succ 9⟩)
    (fun j hj => failuresSince_other hj (by simp)) h.justified
  have hzero : failuresSince row.id (.enabled id :: history) = 0 := by rw [failuresSince, if_pos hid.symm]
  change R 0 (failuresSince row.id (.enabled id :: history))
  rw [hzero]
  exact ht.zero

theorem deleted (h : Circuit R store history) (id : String) : Circuit R (store.deleteSubscription id) history :=
  ⟨fun row hrow => h.rows row (List.mem_of_mem_filter hrow), h.justified⟩

theorem created (ht : Tally R) (h : Circuit R store history) {now : Rat} {id generated url : String} {events : List String}
    {secret tenant : String} {store' : WebhookStore}
    (hcreate : store.createSubscription now id generated url events secret tenant = some store') :
    Circuit R store' (.created id :: history) := by
  obtain ⟨subscriptions, hinsert, rfl⟩ := Option.map_eq_some_iff.mp hcreate
  obtain ⟨hnew, hrows⟩ := Table.insert_some hinsert
  refine ⟨fun row hrow => ?_, h.justified⟩
  have hmem : row ∈ subscriptions.rows := hrow
  rw [hrows] at hmem
  rcases List.mem_append.mp hmem with hold | hlast
  · have hne : id ≠ row.id := fun he => Table.find_none_iff.mp hnew row hold he.symm
    obtain ⟨hcount, henabled⟩ := h.rows row hold
    refine ⟨?_, henabled⟩
    rw [failuresSince, if_neg hne]
    exact hcount
  · rw [List.mem_singleton.mp hlast]
    refine ⟨?_, fun _ => Nat.zero_lt_succ 9⟩
    rw [failuresSince, if_pos rfl]
    exact ht.zero

theorem forgotten (h : Circuit R store history) (id : String) (hnone : store.getSubscription id = none) {entry : Entry}
    (hentry : entry ∈ [.created id, .enabled id, .succeeded id, .failed id]) (hjustified : Justified (entry :: history)) : Circuit R store (entry :: history) := by
  refine ⟨fun row hrow => ?_, hjustified⟩
  have hne : row.id ≠ id := Table.find_none_iff.mp hnone row hrow
  obtain ⟨hcount, henabled⟩ := h.rows row hrow
  refine ⟨?_, henabled⟩
  rw [failuresSince_other hne hentry]
  exact hcount

/-- A success sets the count back. -/
theorem succeeded (ht : Tally R) (h : Circuit R store history) {draw : WebhookStore.Draw} {id : String} {disabled : Bool}
    {store' : WebhookStore} (hupdate : store.updateConsecutiveFailures draw id true = .ok (disabled, store')) :
    Circuit R store' (.succeeded id :: history) := by
  unfold WebhookStore.updateConsecutiveFailures at hupdate
  split at hupdate
  · cases hupdate
  · split at hupdate
    · rename_i hnone
      cases hupdate
      exact h.forgotten id hnone (by simp) h.justified
    · cases hupdate
      refine h.updated (fun row _ hid _ => ⟨?_, fun _ => Nat.zero_lt_succ 9⟩)
        (fun j hj => failuresSince_other hj (by simp)) h.justified
      have hzero : failuresSince row.id (.succeeded id :: history) = 0 := by rw [failuresSince, if_pos hid.symm]
      change R 0 (failuresSince row.id (.succeeded id :: history))
      rw [hzero]
      exact ht.zero

theorem update_update (store : WebhookStore) (id : String) (f g : WebhookSubscription → WebhookSubscription)
    (hf : ∀ row, (f row).id = row.id) (hg : ∀ row, (g row).id = row.id) :
    (store.update id f hf).update id g hg = store.update id (g ∘ f) (fun row => (hg (f row)).trans (hf row)) := by
  have hrows : ((store.subscriptions.modify (fun row => row.id == id) f hf).modify (fun row => row.id == id) g hg) =
      store.subscriptions.modify (fun row => row.id == id) (g ∘ f) (fun row => (hg (f row)).trans (hf row)) := by
    apply Table.ext_rows
    simp only [Table.modify, List.map_map]
    apply List.map_congr_left
    intro row _
    by_cases hid : row.id = id
    · simp [hid, hf]
    · simp [hid]
  simp only [WebhookStore.update, hrows]

/-- What a failure comes to where there is a row. -/
theorem updateConsecutiveFailures_false {draw : WebhookStore.Draw} {id : String} {row : WebhookSubscription}
    (hrow : store.getSubscription id = some row) (herror : draw.error = none) :
    store.updateConsecutiveFailures draw id false =
      if maxConsecutiveFailures ≤ row.consecutiveFailures + 1 then
        .ok (true, store.update id (.disable ∘ .countFailure draw.now))
      else .ok (false, store.update id (.countFailure draw.now)) := by
  have hkey : row.id = id := Table.find_key hrow
  have hfound : (store.update id (.countFailure draw.now)).getSubscription id = some (row.countFailure draw.now) := by
    have hmodified := Table.find_modify store.subscriptions (fun row => row.id == id)
      (.countFailure draw.now) (fun _ => rfl) id
    have hrow' : store.subscriptions.find? id = some row := hrow
    exact hmodified.trans (by simp [hrow', hkey])
  have hcompose : (store.update id (.countFailure draw.now)).disableSubscription id =
      store.update id (.disable ∘ .countFailure draw.now) :=
    update_update store id (.countFailure draw.now) .disable (fun _ => rfl) (fun _ => rfl)
  simp only [WebhookStore.updateConsecutiveFailures, herror, hrow, hfound, hcompose, Option.any_some,
    decide_eq_true_eq, if_neg Bool.false_ne_true]
  rfl

/-- The counter is written unless the database raises. -/
theorem updateConsecutiveFailures_ok (store : WebhookStore) {draw : WebhookStore.Draw} (id : String) (succeeded : Bool)
    (herror : draw.error = none) : ∃ counted, store.updateConsecutiveFailures draw id succeeded = .ok counted := by
  simp only [WebhookStore.updateConsecutiveFailures, herror]
  repeat' split
  all_goals exact ⟨_, rfl⟩

/-- A failure is counted, and disables the subscription when the threshold is reached. -/
theorem failed (ht : Tally R) (h : Circuit R store history) {draw : WebhookStore.Draw} {id : String} {disabled : Bool}
    {store' : WebhookStore} (hupdate : store.updateConsecutiveFailures draw id false = .ok (disabled, store')) :
    Circuit R store' (if disabled then .autoDisabled id :: .failed id :: history else .failed id :: history) := by
  have hother : ∀ j, j ≠ id → failuresSince j (.failed id :: history) = failuresSince j history :=
    fun j hj => failuresSince_other hj (by simp)
  have hcounted : ∀ row ∈ store.subscriptions.rows, row.id = id →
      R (row.consecutiveFailures + 1) (failuresSince row.id (.failed id :: history)) := by
    rintro row hrow rfl
    rw [failuresSince_failed]
    exact ht.succ (h.rows row hrow).1
  cases herror : draw.error with
  | some e => simp [WebhookStore.updateConsecutiveFailures, herror] at hupdate
  | none =>
    cases hrow : store.getSubscription id with
    | none =>
      simp only [WebhookStore.updateConsecutiveFailures, herror, hrow] at hupdate
      cases hupdate
      exact h.forgotten id hrow (by simp) h.justified
    | some row =>
      obtain ⟨hmem, hid⟩ := Table.find_some_iff.mp hrow
      have hkey : row.id = id := hid
      rw [updateConsecutiveFailures_false hrow herror] at hupdate
      split at hupdate
      · rename_i hreached
        cases hupdate
        have hcount := ht.le (hcounted row hmem hkey)
        rw [hkey] at hcount
        refine h.updated (fun old hold hold_id _ => ⟨hcounted old hold hold_id, fun he => (nomatch he)⟩)
          hother ⟨hreached.trans hcount, h.justified⟩
      · rename_i hbelow
        cases hupdate
        refine h.updated (fun old hold hold_id _ => ⟨hcounted old hold hold_id, fun _ => ?_⟩) hother h.justified
        obtain rfl : old = row := List.inj_on_of_nodup_map store.subscriptions.nodup hold hmem (hold_id.trans hkey.symm)
        exact not_le.mp hbelow

/-- A failure that is not counted. -/
theorem uncounted (h : Circuit R store history) (hmiss : ∀ {m n}, R m n → R m (n + 1)) (id : String) :
    Circuit R store (.failed id :: history) := by
  refine ⟨fun row hrow => ?_, h.justified⟩
  obtain ⟨hcount, henabled⟩ := h.rows row hrow
  refine ⟨?_, henabled⟩
  by_cases hid : row.id = id
  · rw [← hid, failuresSince_failed]
    exact hmiss hcount
  · rw [failuresSince_other hid (by simp)]
    exact hcount

section Attempts

variable (event : Event) (sub : WebhookSubscription) (attempt statusCode : Nat) (a : Attempt)

theorem attemptFailed (h : Circuit R store history) (errorMsg : String) :
    Circuit R (failAttempt event sub store attempt statusCode a errorMsg).2 history ∧
      ∀ code, (failAttempt event sub store attempt statusCode a errorMsg).1 ≠ .succeeded code := by
  unfold failAttempt
  split
  · exact ⟨h, by simp⟩
  · rename_i hlog
    exact ⟨h.logged hlog, by simp⟩

/-- Where an attempt leaves the counts: a success is one, and nothing else has happened yet. -/
theorem attempted (ht : Tally R) (h : Circuit R store history) {ended : Ended} {store' : WebhookStore}
    (hattempt : attemptDelivery event sub store attempt statusCode a = (ended, store')) :
    (∃ code, ended = .succeeded code ∧ Circuit R store' (.succeeded sub.id :: history)) ∨
      (∀ code, ended ≠ .succeeded code) ∧ Circuit R store' history := by
  have hfail : ∀ {start : WebhookStore} {code : Nat} {errorMsg : String}, Circuit R start history →
      failAttempt event sub start attempt code a errorMsg = (ended, store') →
        (∀ code, ended ≠ .succeeded code) ∧ Circuit R store' history := by
    intro start code errorMsg hstart he
    have hkept := attemptFailed event sub attempt code a hstart errorMsg
    rw [he] at hkept
    exact ⟨hkept.2, hkept.1⟩
  unfold attemptDelivery at hattempt
  split at hattempt
  · split at hattempt
    · split at hattempt
      · exact Or.inr (hfail h hattempt)
      · rename_i hlog
        split at hattempt
        · exact Or.inr (hfail (h.logged hlog) hattempt)
        · rename_i hupdate
          cases hattempt
          exact Or.inl ⟨_, rfl, (h.logged hlog).succeeded ht hupdate⟩
    · exact Or.inr (hfail h hattempt)
  · exact Or.inr (hfail h hattempt)
  · exact Or.inr (hfail h hattempt)
  · exact Or.inr (hfail h hattempt)

end Attempts

theorem initially : Circuit R .empty [] := ⟨fun _ h => (nomatch h), trivial⟩

end Circuit

namespace Engine

variable {ι : Type} [DecidableEq ι] {R : Nat → Nat → Prop} {s : Engine ι}

/-- What runs from an answer to the next `await` keeps the circuit. A count that raises is rolled back, and the
delivery has failed all the same. -/
theorem circuit_onAnswer (ht : Tally R) (h : Circuit R s.store s.history) (i : ι) (f : Flight)
    (sub : WebhookSubscription) (rest : List WebhookSubscription) (a : Attempt)
    (hcount : a.countFailure.error = none ∨ ∀ {m n}, R m n → R m (n + 1)) :
    Circuit R (s.onAnswer i f sub rest a).store (s.onAnswer i f sub rest a).history := by
  unfold onAnswer
  split
  · rename_i hattempt
    rcases h.attempted f.event sub f.attempt f.statusCode a ht hattempt with ⟨_, _, hsucceeded⟩ | ⟨hnot, _⟩
    · exact hsucceeded
    · exact absurd rfl (hnot _)
  · rename_i hattempt
    rcases h.attempted f.event sub f.attempt f.statusCode a ht hattempt with ⟨_, he, _⟩ | ⟨_, hkept⟩
    · cases he
    · exact hkept
  · rename_i hattempt
    rcases h.attempted f.event sub f.attempt f.statusCode a ht hattempt with ⟨_, he, _⟩ | ⟨_, hkept⟩
    · cases he
    · split
      · exact hkept
      · split
        · rename_i hraised
          rcases hcount with hdraw | hmiss
          · obtain ⟨counted, hcounted⟩ := Circuit.updateConsecutiveFailures_ok _ sub.id false hdraw
            rw [hcounted] at hraised
            cases hraised
          · exact hkept.uncounted hmiss sub.id
        · rename_i hupdate
          exact hkept.failed ht hupdate
        · rename_i hupdate
          exact hkept.failed ht hupdate

/-- The step lemma. -/
theorem circuit_step (ht : Tally R) (h : Circuit R s.store s.history) (input : Input ι)
    (hcount : Counted input ∨ ∀ {m n}, R m n → R m (n + 1)) :
    Circuit R (s.step input).store (s.step input).history := by
  cases input with
  | create now id generated url events secret tenant =>
    simp only [step]
    split
    · exact h
    · rename_i hcreate
      exact h.created ht hcreate
  | delete id => exact h.deleted id
  | disable id => exact h.disabled id
  | enable id => exact h.enabled ht id
  | deliver i event =>
    simp only [step]
    split
    · exact h
    · exact h
  | answer i a =>
    simp only [step]
    split
    · split
      · exact circuit_onAnswer ht h i _ _ _ a hcount
      · exact h
    · exact h

/-- In every state an enabled subscription has fewer consecutive failures than the threshold, and every automatic
disable came behind as many failed deliveries since the last success, or since it was enabled. The failures that a
row counts are those there were, unless the counter itself could not be written. -/
theorem circuit_invariant (inputs : List (Input ι)) :
    (∀ row ∈ (exec step init inputs).store.subscriptions.rows, row.enabled = true →
        row.consecutiveFailures < maxConsecutiveFailures) ∧
      Justified (exec step (init : Engine ι) inputs).history ∧
      ((∀ input ∈ inputs, Counted input) → ∀ row ∈ (exec step init inputs).store.subscriptions.rows,
        row.consecutiveFailures = failuresSince row.id (exec step (init : Engine ι) inputs).history) := by
  have hcircuit : Circuit (· ≤ ·) (exec step (init : Engine ι) inputs).store (exec step init inputs).history :=
    exec_invariant (I := fun s : Engine ι => Circuit (· ≤ ·) s.store s.history)
      (fun _ input h => circuit_step tally_le h input (.inr Nat.le_succ_of_le)) Circuit.initially inputs
  refine ⟨fun row hrow => (hcircuit.rows row hrow).2, hcircuit.justified, fun hcounted row hrow => ?_⟩
  have hstep : ∀ (s : Engine ι), ∀ input ∈ inputs, Circuit (· = ·) s.store s.history → True →
      Circuit (· = ·) (s.step input).store (s.step input).history :=
    fun s input hmem h _ => circuit_step tally_eq h input (.inl (hcounted input hmem))
  have hexact := EachStep.invariant_of_mem (I := fun s : Engine ι => Circuit (· = ·) s.store s.history) hstep
    (s := init) Circuit.initially (EachStep.of_forall (fun _ _ => trivial) _ inputs)
  exact (hexact.rows row hrow).1

end Engine

end A2ARegistry.Webhooks
