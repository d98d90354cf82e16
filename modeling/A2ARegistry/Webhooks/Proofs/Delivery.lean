import A2ARegistry.Webhooks.Delivery

namespace A2ARegistry.Webhooks
open Base

/-- The endpoint answered 2xx, and nothing that is written then raises. -/
def Attempt.settled (a : Attempt) : Bool :=
  a.answer.succeeded && a.logSuccess.error.isNone && a.resetFailures.error.isNone

/-- It counts as failed, and the log of the failure raises. -/
def Attempt.lost (a : Attempt) : Bool := !a.settled && a.logFailed.error.isSome

namespace Script

variable (script : Script)

/-- Every attempt before this one failed, and was logged as that. -/
def Reached (k : Nat) : Prop :=
  ∀ j, 1 ≤ j → j < k → (script.attempts j).settled = false ∧ (script.attempts j).lost = false

/-- No log of an attempt that failed raises, nor the count of the failure if they all did. -/
def Completes : Prop :=
  (∀ k, 1 ≤ k → k ≤ maxAttempts → script.Reached k → (script.attempts k).lost = false) ∧
    ((∀ k, 1 ≤ k → k ≤ maxAttempts → (script.attempts k).settled = false) →
      (script.attempts maxAttempts).countFailure.error = none)

/-- There is an attempt behind another only if that one was not answered 2xx. -/
def NotRepeated : Prop :=
  ∀ k, 1 ≤ k → k < maxAttempts → script.Reached (k + 1) → (script.attempts k).answer.succeeded = false

/-- The delivery ends with this attempt. -/
def ends (k : Nat) : Bool := (script.attempts k).settled || (script.attempts k).lost

/-- The attempts that are made, of those that are left. -/
def made : List Nat → List Nat
  | [] => []
  | k :: ks => k :: if script.ends k then [] else made ks

/-- The delivery raises. -/
def escapes : List Nat → Bool
  | [] => (script.attempts maxAttempts).countFailure.error.isSome
  | k :: ks => !(script.attempts k).settled && ((script.attempts k).lost || escapes ks)

end Script

section Attempts

variable (event : Event) (sub : WebhookSubscription) (store : WebhookStore) (attempt statusCode : Nat) (a : Attempt)

theorem logDelivery_error {draw : WebhookStore.Draw} {e : String} (h : draw.error = some e)
    (id eventType : String) (payload : List (String × Json)) (status : String) (code k : Nat) (errorMessage : String) :
    store.logDelivery draw id eventType payload status code k errorMessage = .error e := by
  simp [WebhookStore.logDelivery, h]

theorem logDelivery_ok {draw : WebhookStore.Draw} (h : draw.error = none)
    (id eventType : String) (payload : List (String × Json)) (status : String) (code k : Nat) (errorMessage : String) :
    ∃ store', store.logDelivery draw id eventType payload status code k errorMessage = .ok store' := by
  simp [WebhookStore.logDelivery, h]

theorem updateConsecutiveFailures_ok {draw : WebhookStore.Draw} (h : draw.error = none) (id : String)
    (succeeded : Bool) :
    ∃ disabled store', store.updateConsecutiveFailures draw id succeeded = .ok (disabled, store') := by
  simp only [WebhookStore.updateConsecutiveFailures, h]
  repeat' split
  all_goals exact ⟨_, _, rfl⟩

theorem updateConsecutiveFailures_error {draw : WebhookStore.Draw} {e : String} (h : draw.error = some e) (id : String)
    (succeeded : Bool) : store.updateConsecutiveFailures draw id succeeded = .error e := by
  simp [WebhookStore.updateConsecutiveFailures, h]

theorem settled_iff : a.settled = true ↔
    a.answer.succeeded = true ∧ a.logSuccess.error = none ∧ a.resetFailures.error = none := by
  simp [Attempt.settled, and_assoc]

theorem attemptDelivery_settled (h : a.settled = true) :
    ∃ code store', attemptDelivery event sub store attempt statusCode a = (.succeeded code, store') := by
  obtain ⟨hanswer, hlog, hreset⟩ := settled_iff a |>.mp h
  cases hstatus : a.answer with
  | status code =>
    rw [hstatus] at hanswer
    obtain ⟨store', hlogged⟩ := logDelivery_ok store hlog sub.id event.eventType event.payload "success" code attempt ""
    obtain ⟨disabled, store'', hupdate⟩ := updateConsecutiveFailures_ok store' hreset sub.id true
    exact ⟨code, store'', by simp only [attemptDelivery, hstatus, if_pos hanswer, hlogged, hupdate]⟩
  | _ =>
    rw [hstatus] at hanswer
    cases hanswer

/-- An attempt that is not settled goes the way of a failed one. -/
theorem attemptDelivery_unsettled (h : a.settled = false) : ∃ store' code errorMsg,
    attemptDelivery event sub store attempt statusCode a = failAttempt event sub store' attempt code a errorMsg := by
  cases hstatus : a.answer with
  | status code =>
    by_cases hanswer : (Answer.status code).succeeded = true
    · cases hlog : a.logSuccess.error with
      | some e =>
        refine ⟨store, code, s!"unexpected: {e}", ?_⟩
        simp only [attemptDelivery, hstatus, if_pos hanswer, logDelivery_error store hlog]
      | none =>
        cases hreset : a.resetFailures.error with
        | some e =>
          obtain ⟨store', hlogged⟩ :=
            logDelivery_ok store hlog sub.id event.eventType event.payload "success" code attempt ""
          refine ⟨store', code, s!"unexpected: {e}", ?_⟩
          simp only [attemptDelivery, hstatus, if_pos hanswer, hlogged, updateConsecutiveFailures_error store' hreset]
        | none =>
          have hsettled : a.settled = true := settled_iff a |>.mpr ⟨hstatus ▸ hanswer, hlog, hreset⟩
          rw [h] at hsettled
          cases hsettled
    · refine ⟨store, code, s!"HTTP {code}", ?_⟩
      simp only [attemptDelivery, hstatus, if_neg hanswer]
  | timeout => exact ⟨store, statusCode, "timeout", by simp only [attemptDelivery, hstatus]⟩
  | clientError text => exact ⟨store, statusCode, s!"connection_error: {text}", by simp only [attemptDelivery, hstatus]⟩
  | error text => exact ⟨store, statusCode, s!"unexpected: {text}", by simp only [attemptDelivery, hstatus]⟩

/-- How an attempt ends goes by what its bookkeeping raises. -/
theorem attemptDelivery_cases :
    (a.settled = true ∧ ∃ code store',
      attemptDelivery event sub store attempt statusCode a = (.succeeded code, store')) ∨
    (a.lost = true ∧ ∃ e store', attemptDelivery event sub store attempt statusCode a = (.raised e, store')) ∨
    (a.settled = false ∧ a.lost = false ∧ ∃ code errorMsg store',
      attemptDelivery event sub store attempt statusCode a = (.next code errorMsg, store')) := by
  cases hsettled : a.settled with
  | true => exact Or.inl ⟨rfl, attemptDelivery_settled event sub store attempt statusCode a hsettled⟩
  | false =>
    obtain ⟨store', code, errorMsg, hfail⟩ := attemptDelivery_unsettled event sub store attempt statusCode a hsettled
    rw [hfail]
    cases hlog : a.logFailed.error with
    | some e =>
      refine Or.inr (Or.inl ⟨by simp [Attempt.lost, hsettled, hlog], e, store', ?_⟩)
      rw [failAttempt, logDelivery_error store' hlog]
    | none =>
      obtain ⟨store'', hlogged⟩ :=
        logDelivery_ok store' hlog sub.id event.eventType event.payload "failed" code attempt errorMsg
      refine Or.inr (Or.inr ⟨rfl, by simp [Attempt.lost, hlog], code, errorMsg, store'', ?_⟩)
      rw [failAttempt, hlogged]

end Attempts

/-- The POST of an attempt. -/
def postOf (event : Event) (sub : WebhookSubscription) (script : Script) (k : Nat) : Post :=
  ⟨sub.id, sub.url, event, k, (script.attempts k).answer⟩

/-- The run of the loop: the attempts that are made, and whether it raises. -/
theorem deliverAttempts_posts (event : Event) (sub : WebhookSubscription) (script : Script) (ks : List Nat)
    (store : WebhookStore) (statusCode : Nat) (lastError : String) :
    (deliverAttempts event sub script store statusCode lastError ks).2.2 =
        (script.made ks).map (postOf event sub script) ∧
      ((∃ e, (deliverAttempts event sub script store statusCode lastError ks).1 = .error e) ↔
        script.escapes ks = true) := by
  induction ks generalizing store statusCode lastError with
  | nil =>
    unfold deliverAttempts Script.escapes
    cases herror : (script.attempts maxAttempts).countFailure.error with
    | some e => simp [updateConsecutiveFailures_error store herror, Script.made]
    | none =>
      obtain ⟨disabled, store', hok⟩ := updateConsecutiveFailures_ok store herror sub.id false
      simp [hok, Script.made]
  | cons k ks ih =>
    rcases attemptDelivery_cases event sub (script.meanwhile k store) k statusCode (script.attempts k) with
      ⟨hsettled, code, store', hattempt⟩ | ⟨hlost, e, store', hattempt⟩ |
        ⟨hsettled, hlost, code, errorMsg, store', hattempt⟩
    · simp [deliverAttempts, hattempt, Script.made, Script.escapes, Script.ends, hsettled, postOf]
    · have hsettled : (script.attempts k).settled = false := by
        simp only [Attempt.lost, Bool.and_eq_true, Bool.not_eq_true'] at hlost
        exact hlost.1
      simp [deliverAttempts, hattempt, Script.made, Script.escapes, Script.ends, hsettled, hlost, postOf]
    · obtain ⟨hposts, hraises⟩ := ih store' code errorMsg
      simp [deliverAttempts, hattempt, Script.made, Script.escapes, Script.ends, hsettled, hlost, postOf, hposts, hraises]

namespace Script

variable (script : Script)

theorem ends_iff {k : Nat} : script.ends k = false ↔
    (script.attempts k).settled = false ∧ (script.attempts k).lost = false := by
  simp [ends]

theorem unsettled_of_lost {k : Nat} (h : (script.attempts k).lost = true) : (script.attempts k).settled = false := by
  simp only [Attempt.lost, Bool.and_eq_true, Bool.not_eq_true'] at h
  exact h.1

/-- An attempt is made when none before it ended the delivery. -/
theorem mem_made {k m n : Nat} : k ∈ script.made (List.range' m n) ↔
    m ≤ k ∧ k < m + n ∧ ∀ j, m ≤ j → j < k → script.ends j = false := by
  induction n generalizing m with
  | zero =>
    simp only [List.range'_zero, made, List.not_mem_nil, false_iff]
    omega
  | succ n ih =>
    rw [List.range'_succ, made, List.mem_cons]
    constructor
    · rintro (rfl | hk)
      · exact ⟨le_refl _, by omega, fun j h1 h2 => absurd h2 (by omega)⟩
      · split at hk
        · cases hk
        · rename_i hm
          obtain ⟨h1, h2, hbefore⟩ := ih.mp hk
          refine ⟨by omega, by omega, fun j hj hjk => ?_⟩
          by_cases he : j = m
          · rw [he]
            exact Bool.not_eq_true _ |>.mp hm
          · exact hbefore j (by omega) hjk
    · rintro ⟨h1, h2, hbefore⟩
      by_cases he : k = m
      · exact Or.inl he
      · right
        rw [if_neg (by rw [hbefore m (le_refl m) (by omega)]; exact Bool.false_ne_true)]
        exact ih.mpr ⟨by omega, by omega, fun j hj hjk => hbefore j (by omega) hjk⟩

theorem escapes_range {m n : Nat} : script.escapes (List.range' m n) = true ↔
    (∃ k, m ≤ k ∧ k < m + n ∧ (∀ j, m ≤ j → j < k → script.ends j = false) ∧ (script.attempts k).lost = true) ∨
      (∀ k, m ≤ k → k < m + n → script.ends k = false) ∧
        (script.attempts maxAttempts).countFailure.error.isSome = true := by
  induction n generalizing m with
  | zero =>
    simp only [List.range'_zero, escapes]
    constructor
    · exact fun h => Or.inr ⟨fun k h1 h2 => absurd h2 (by omega), h⟩
    · rintro (⟨k, h1, h2, _⟩ | ⟨_, h⟩)
      · omega
      · exact h
  | succ n ih =>
    rw [List.range'_succ, escapes, Bool.and_eq_true, Bool.or_eq_true, Bool.not_eq_true', ih]
    by_cases hlost : (script.attempts m).lost = true
    · refine iff_of_true ⟨script.unsettled_of_lost hlost, Or.inl hlost⟩ (Or.inl ⟨m, le_refl m, by omega, ?_, hlost⟩)
      exact fun j h1 h2 => absurd h2 (by omega)
    · have hkept : (script.attempts m).lost = false := Bool.not_eq_true _ |>.mp hlost
      constructor
      · rintro ⟨hsettled, h | ⟨k, h1, h2, hbefore, hk⟩ | ⟨hall, herror⟩⟩
        · exact absurd h hlost
        · refine Or.inl ⟨k, by omega, by omega, fun j hj hjk => ?_, hk⟩
          by_cases he : j = m
          · exact he ▸ script.ends_iff.mpr ⟨hsettled, hkept⟩
          · exact hbefore j (by omega) hjk
        · refine Or.inr ⟨fun k h1 h2 => ?_, herror⟩
          by_cases he : k = m
          · exact he ▸ script.ends_iff.mpr ⟨hsettled, hkept⟩
          · exact hall k (by omega) (by omega)
      · rintro (⟨k, h1, h2, hbefore, hk⟩ | ⟨hall, herror⟩)
        · have hne : k ≠ m := fun he => hlost (he ▸ hk)
          refine ⟨(script.ends_iff.mp (hbefore m (le_refl m) (by omega))).1, Or.inr (Or.inl ⟨k, by omega, by omega, ?_, hk⟩)⟩
          exact fun j hj hjk => hbefore j (by omega) hjk
        · refine ⟨(script.ends_iff.mp (hall m (le_refl m) (by omega))).1, Or.inr (Or.inr ⟨?_, herror⟩)⟩
          exact fun k h1 h2 => hall k (by omega) (by omega)

/-- Of two attempts that are made the first was not answered 2xx, if none is that another comes directly behind. -/
theorem made_pairwise {f : Nat → Bool} {m n : Nat} : (script.made (List.range' m n)).Pairwise (fun i _ => f i = false) ↔
    ∀ k, m ≤ k → k + 1 < m + n → (∀ j, m ≤ j → j < k + 1 → script.ends j = false) → f k = false := by
  induction n generalizing m with
  | zero =>
    simp only [List.range'_zero, made]
    exact iff_of_true List.Pairwise.nil (fun k h1 h2 => absurd h2 (by omega))
  | succ n ih =>
    rw [List.range'_succ, made, List.pairwise_cons]
    by_cases hends : script.ends m = true
    · rw [if_pos hends]
      refine iff_of_true ⟨fun _ h => (nomatch h), List.Pairwise.nil⟩ (fun k h1 h2 hbefore => ?_)
      rw [hbefore m (le_refl m) (by omega)] at hends
      cases hends
    · have hgoes : script.ends m = false := Bool.not_eq_true _ |>.mp hends
      rw [if_neg hends, ih]
      constructor
      · rintro ⟨hfirst, hrest⟩ k h1 h2 hbefore
        by_cases he : k = m
        · rw [he]
          exact hfirst (m + 1) (script.mem_made.mpr ⟨le_refl _, by omega, fun j hj hjk => absurd hjk (by omega)⟩)
        · exact hrest k (by omega) (by omega) (fun j hj hjk => hbefore j (by omega) hjk)
      · intro h
        constructor
        · intro j hj
          obtain ⟨h1, h2, _⟩ := script.mem_made.mp hj
          refine h m (le_refl m) (by omega) (fun i hi him => ?_)
          obtain rfl : i = m := by omega
          exact hgoes
        · intro k h1 h2 hbefore
          refine h k (by omega) (by omega) (fun j hj hjk => ?_)
          by_cases he : j = m
          · rw [he]
            exact hgoes
          · exact hbefore j (by omega) hjk

theorem reached_iff {k : Nat} : script.Reached k ↔ ∀ j, 1 ≤ j → j < k → script.ends j = false := by
  unfold Reached
  simp only [ends_iff]

/-- The delivery returns exactly when its bookkeeping completes. -/
theorem completes_iff : script.Completes ↔ script.escapes (List.range' 1 maxAttempts) = false := by
  rw [← Bool.not_eq_true, escapes_range, not_or]
  constructor
  · rintro ⟨hlogs, hcount⟩
    constructor
    · rintro ⟨k, h1, h2, hbefore, hlost⟩
      rw [hlogs k h1 (by omega) (script.reached_iff.mpr hbefore)] at hlost
      cases hlost
    · rintro ⟨hall, herror⟩
      rw [hcount (fun k h1 h2 => (script.ends_iff.mp (hall k h1 (by omega))).1)] at herror
      cases herror
  · rintro ⟨hlogs, hcount⟩
    have hkept : ∀ k, 1 ≤ k → k ≤ maxAttempts → script.Reached k → (script.attempts k).lost = false := by
      intro k h1 h2 hreached
      rw [← Bool.not_eq_true]
      exact fun hlost => hlogs ⟨k, h1, by omega, script.reached_iff.mp hreached, hlost⟩
    refine ⟨hkept, fun hsettled => ?_⟩
    -- Each attempt is reached, since none before it is settled and none is lost.
    have hreached : ∀ k, k ≤ maxAttempts + 1 → script.Reached k := by
      intro k
      induction k with
      | zero => exact fun _ j h1 h2 => absurd h2 (by omega)
      | succ k ih =>
        intro hk j h1 h2
        by_cases he : j = k
        · rw [he]
          exact ⟨hsettled k (by omega) (by omega), hkept k (by omega) (by omega) (ih (by omega))⟩
        · exact ih (by omega) j h1 (by omega)
    rw [← Option.not_isSome_iff_eq_none]
    intro herror
    refine hcount ⟨fun k h1 h2 => ?_, herror⟩
    exact script.reached_iff.mp (hreached (k + 1) (by omega)) k h1 (by omega)

theorem notRepeated_iff : script.NotRepeated ↔
    (script.made (List.range' 1 maxAttempts)).Pairwise (fun i _ => (script.attempts i).answer.succeeded = false) := by
  rw [made_pairwise script (f := fun i => (script.attempts i).answer.succeeded)]
  constructor
  · exact fun h k h1 h2 hbefore => h k h1 (by omega) (script.reached_iff.mpr hbefore)
  · exact fun h k h1 h2 hreached => h k h1 (by omega) (script.reached_iff.mp hreached)

end Script

section Deliveries

variable (event : Event) (script : String → Script)

/-- The POSTs of a delivery to one enabled subscription, and whether it raises. -/
theorem deliverToSubscription_posts {sub : WebhookSubscription} (h : sub.enabled = true) (store : WebhookStore) :
    (deliverToSubscription event sub (script sub.id) store).2.2 =
        ((script sub.id).made (List.range' 1 maxAttempts)).map (postOf event sub (script sub.id)) ∧
      ((∃ e, (deliverToSubscription event sub (script sub.id) store).1 = .error e) ↔ ¬ (script sub.id).Completes) := by
  obtain ⟨hposts, hraises⟩ := deliverAttempts_posts event sub (script sub.id) (List.range' 1 maxAttempts) store 0 ""
  simp only [deliverToSubscription, h, Bool.not_true, Bool.false_eq_true, if_false]
  refine ⟨hposts, hraises.trans ?_⟩
  rw [Script.completes_iff, Bool.not_eq_false]

/-- Each of the subscriptions is attempted. -/
def AllAttempted (subs : List WebhookSubscription) (posts : List Post) : Prop :=
  ∀ sub ∈ subs, ∃ post ∈ posts, post.subscriptionId = sub.id

/-- No endpoint of a subscription is posted to again behind a 2xx. -/
def NeverAgain (posts : List Post) : Prop :=
  posts.Pairwise (fun p q => p.answer.succeeded = true → q.subscriptionId ≠ p.subscriptionId)

theorem neverAgain_one (sub : WebhookSubscription) (s : Script) :
    NeverAgain ((s.made (List.range' 1 maxAttempts)).map (postOf event sub s)) ↔ s.NotRepeated := by
  rw [NeverAgain, List.pairwise_map, Script.notRepeated_iff]
  simp [postOf]

/-- The POSTs of a loop over subscriptions: those to the first, and if it returns those to the others. -/
theorem deliverToAll_cons {sub : WebhookSubscription} (h : sub.enabled = true) (subs : List WebhookSubscription)
    (store : WebhookStore) :
    (¬ (script sub.id).Completes ∧ (deliverToAll event script store (sub :: subs)).2.2 =
        ((script sub.id).made (List.range' 1 maxAttempts)).map (postOf event sub (script sub.id))) ∨
      ((script sub.id).Completes ∧ ∃ store', (deliverToAll event script store (sub :: subs)).2.2 =
        ((script sub.id).made (List.range' 1 maxAttempts)).map (postOf event sub (script sub.id)) ++
          (deliverToAll event script store' subs).2.2) := by
  obtain ⟨hposts, hraises⟩ := deliverToSubscription_posts event script h store
  cases hdeliver : deliverToSubscription event sub (script sub.id) store with
  | mk result rest =>
    obtain ⟨store', posts⟩ := rest
    rw [hdeliver] at hposts hraises
    cases result with
    | error e => exact Or.inl ⟨hraises.mp ⟨e, rfl⟩, by simpa [deliverToAll, hdeliver] using hposts⟩
    | ok result =>
      refine Or.inr ⟨?_, store', ?_⟩
      · by_contra hnot
        obtain ⟨e, he⟩ := hraises.mpr hnot
        cases he
      · simp only [deliverToAll, hdeliver]
        rw [← hposts]

theorem mem_firstPosts {sub : WebhookSubscription} {post : Post}
    (h : post ∈ ((script sub.id).made (List.range' 1 maxAttempts)).map (postOf event sub (script sub.id))) :
    post.subscriptionId = sub.id := by
  obtain ⟨k, _, rfl⟩ := List.mem_map.mp h
  rfl

theorem posts_ids {subs : List WebhookSubscription} (henabled : ∀ sub ∈ subs, sub.enabled = true)
    (store : WebhookStore) : ∀ post ∈ (deliverToAll event script store subs).2.2,
      post.subscriptionId ∈ subs.map WebhookSubscription.id := by
  induction subs generalizing store with
  | nil => exact fun _ h => (nomatch h)
  | cons sub subs ih =>
    intro post hpost
    rw [List.map_cons, List.mem_cons]
    rcases deliverToAll_cons event script (henabled sub (List.mem_cons_self ..)) subs store with
      ⟨_, hposts⟩ | ⟨_, store', hposts⟩
    · rw [hposts] at hpost
      exact Or.inl (mem_firstPosts event script hpost)
    · rw [hposts] at hpost
      rcases List.mem_append.mp hpost with hpost | hpost
      · exact Or.inl (mem_firstPosts event script hpost)
      · exact Or.inr (ih (fun s hs => henabled s (List.mem_cons_of_mem sub hs)) store' post hpost)

theorem first_attempted (sub : WebhookSubscription) :
    postOf event sub (script sub.id) 1 ∈
      ((script sub.id).made (List.range' 1 maxAttempts)).map (postOf event sub (script sub.id)) := by
  apply List.mem_map_of_mem
  exact (script sub.id).mem_made.mpr ⟨le_refl 1, by decide, fun j h1 h2 => absurd h2 (by omega)⟩

/-- Every subscription is attempted exactly when the deliveries to all but the last return. -/
theorem allAttempted_iff {subs : List WebhookSubscription} (henabled : ∀ sub ∈ subs, sub.enabled = true)
    (hids : (subs.map WebhookSubscription.id).Nodup) (store : WebhookStore) :
    AllAttempted subs (deliverToAll event script store subs).2.2 ↔
      ∀ sub ∈ subs.dropLast, (script sub.id).Completes := by
  induction subs generalizing store with
  | nil => exact iff_of_true (fun _ h => (nomatch h)) (fun _ h => (nomatch h))
  | cons sub subs ih =>
    obtain ⟨hnew, hids⟩ := List.nodup_cons.mp hids
    have hrest := fun s hs => henabled s (List.mem_cons_of_mem sub hs)
    have hother : ∀ s ∈ subs, s.id ≠ sub.id := fun s hs he => hnew (he ▸ List.mem_map_of_mem hs)
    rcases deliverToAll_cons event script (henabled sub (List.mem_cons_self ..)) subs store with
      ⟨hstops, hposts⟩ | ⟨hreturns, store', hposts⟩
    · rw [hposts]
      cases subs with
      | nil =>
        refine iff_of_true (fun s hs => ?_) (fun _ h => (nomatch h))
        rw [List.mem_singleton.mp hs]
        exact ⟨_, first_attempted event script sub, rfl⟩
      | cons next subs =>
        refine iff_of_false (fun hall => ?_) (fun h => hstops (h sub (List.mem_cons_self ..)))
        obtain ⟨post, hpost, hid⟩ := hall next (List.mem_cons_of_mem sub (List.mem_cons_self ..))
        rw [mem_firstPosts event script hpost] at hid
        exact hother next (List.mem_cons_self ..) hid.symm
    · have htail : AllAttempted (sub :: subs) (deliverToAll event script store (sub :: subs)).2.2 ↔
          AllAttempted subs (deliverToAll event script store' subs).2.2 := by
        rw [hposts]
        constructor
        · intro hall s hs
          obtain ⟨post, hpost, hid⟩ := hall s (List.mem_cons_of_mem sub hs)
          rcases List.mem_append.mp hpost with hpost | hpost
          · rw [mem_firstPosts event script hpost] at hid
            exact absurd hid.symm (hother s hs)
          · exact ⟨post, hpost, hid⟩
        · intro hall s hs
          rcases List.mem_cons.mp hs with rfl | hs
          · exact ⟨_, List.mem_append_left _ (first_attempted event script s), rfl⟩
          · obtain ⟨post, hpost, hid⟩ := hall s hs
            exact ⟨post, List.mem_append_right _ hpost, hid⟩
      rw [htail, ih hrest hids store']
      cases subs with
      | nil => simp
      | cons next subs =>
        rw [List.dropLast_cons_of_ne_nil (List.cons_ne_nil next subs)]
        exact ⟨fun h => List.forall_mem_cons.mpr ⟨hreturns, h⟩, fun h => (List.forall_mem_cons.mp h).2⟩

/-- If all are attempted, no endpoint is posted to again exactly when no script repeats. -/
theorem neverAgain_iff {subs : List WebhookSubscription} (henabled : ∀ sub ∈ subs, sub.enabled = true)
    (hids : (subs.map WebhookSubscription.id).Nodup) (hreturn : ∀ sub ∈ subs.dropLast, (script sub.id).Completes)
    (store : WebhookStore) :
    NeverAgain (deliverToAll event script store subs).2.2 ↔ ∀ sub ∈ subs, (script sub.id).NotRepeated := by
  induction subs generalizing store with
  | nil => exact iff_of_true List.Pairwise.nil (fun _ h => (nomatch h))
  | cons sub subs ih =>
    obtain ⟨hnew, hids⟩ := List.nodup_cons.mp hids
    have hrest := fun s hs => henabled s (List.mem_cons_of_mem sub hs)
    rw [List.forall_mem_cons]
    rcases deliverToAll_cons event script (henabled sub (List.mem_cons_self ..)) subs store with
      ⟨hstops, hposts⟩ | ⟨hreturns, store', hposts⟩
    · cases subs with
      | nil =>
        rw [hposts, neverAgain_one]
        exact ⟨fun h => ⟨h, fun _ h => (nomatch h)⟩, And.left⟩
      | cons next subs => exact absurd (hreturn sub (List.mem_cons_self ..)) hstops
    · have hreturn' : ∀ s ∈ subs.dropLast, (script s.id).Completes := by
        cases subs with
        | nil => exact fun _ h => (nomatch h)
        | cons next subs => exact fun s hs => hreturn s (List.mem_cons_of_mem sub hs)
      have hcross : ∀ p ∈ ((script sub.id).made (List.range' 1 maxAttempts)).map (postOf event sub (script sub.id)),
          ∀ q ∈ (deliverToAll event script store' subs).2.2,
            p.answer.succeeded = true → q.subscriptionId ≠ p.subscriptionId := by
        intro p hp q hq _ he
        rw [mem_firstPosts event script hp] at he
        exact hnew (he ▸ posts_ids event script hrest store' q hq)
      rw [hposts, NeverAgain, List.pairwise_append, ← NeverAgain, ← NeverAgain, neverAgain_one,
        ih hrest hids hreturn' store']
      exact ⟨fun h => ⟨h.1, h.2.1⟩, fun h => ⟨h.1, h.2, hcross⟩⟩

/-- The subscriptions an event goes to are enabled, and there is one row for each. -/
theorem subscriptionsForEvent (store : WebhookStore) (eventType tenant : String) :
    (∀ sub ∈ store.getSubscriptionsForEvent eventType tenant, sub.enabled = true) ∧
      ((store.getSubscriptionsForEvent eventType tenant).map WebhookSubscription.id).Nodup := by
  constructor
  · intro sub hsub
    have hselected := List.mem_insertionSort _ |>.mp (List.mem_filter.mp hsub).1
    have hmatches := (Table.mem_select.mp hselected).2
    simp only [Bool.and_eq_true] at hmatches
    exact hmatches.1
  · have hsorted := (List.perm_insertionSort (fun a b : WebhookSubscription => a.createdAt ≤ b.createdAt)
      (store.subscriptions.select (fun row => row.enabled && (tenant == "" || row.tenant == tenant)))).map
        WebhookSubscription.id
    have hnodup := hsorted.nodup_iff.mpr (Table.select_nodup store.subscriptions _)
    exact List.Nodup.sublist (List.Sublist.map _ List.filter_sublist) hnodup

/-- A delivery attempts every subscription it is for, and posts to none again behind a 2xx, exactly when no
bookkeeping raises where it would stop the loop or have an answered POST repeated. -/
theorem delivery_iff (store : WebhookStore) :
    AllAttempted (store.getSubscriptionsForEvent event.eventType event.tenant) (deliverEvent event script store).2.2 ∧
        NeverAgain (deliverEvent event script store).2.2 ↔
      (∀ sub ∈ (store.getSubscriptionsForEvent event.eventType event.tenant).dropLast, (script sub.id).Completes) ∧
        ∀ sub ∈ store.getSubscriptionsForEvent event.eventType event.tenant, (script sub.id).NotRepeated := by
  obtain ⟨henabled, hids⟩ := subscriptionsForEvent store event.eventType event.tenant
  rw [deliverEvent, allAttempted_iff event script henabled hids store]
  constructor
  · intro ⟨hreturn, hnever⟩
    exact ⟨hreturn, (neverAgain_iff event script henabled hids hreturn store).mp hnever⟩
  · intro ⟨hreturn, hrepeat⟩
    exact ⟨hreturn, (neverAgain_iff event script henabled hids hreturn store).mpr hrepeat⟩

end Deliveries

section Samples

def sampleSubscription (id : String) : WebhookSubscription where
  id := id
  url := "http://localhost/" ++ id
  events := ["task_created"]
  secret := "s"
  createdAt := 0

def sampleStore : WebhookStore := ⟨⟨[sampleSubscription "wh_a", sampleSubscription "wh_b"], by decide⟩, []⟩

def locked : WebhookStore.Draw := { error := some "database is locked" }

/-- Every endpoint answers 200. While the log of the deliveries is locked, the first answer of `wh_a` cannot be logged
as a success, and the second neither as a success nor as a failure. -/
def lockedScript (id : String) : Script where
  attempts k :=
    if id = "wh_a" then
      { answer := .status 200, logSuccess := locked, logFailed := if k = 1 then {} else locked }
    else { answer := .status 200 }
  meanwhile _ store := store

/-- The event goes to `wh_a` twice, and never to `wh_b`. -/
theorem success_repeated :
    ¬ AllAttempted (sampleStore.getSubscriptionsForEvent "task_created" "")
        (deliverEvent ⟨"task_created", [], ""⟩ lockedScript sampleStore).2.2 ∧
      ¬ NeverAgain (deliverEvent ⟨"task_created", [], ""⟩ lockedScript sampleStore).2.2 := by
  unfold AllAttempted NeverAgain
  decide +kernel

end Samples

end A2ARegistry.Webhooks
