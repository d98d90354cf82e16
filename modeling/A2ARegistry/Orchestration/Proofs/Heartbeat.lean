import A2ARegistry.Orchestration.Proofs.Backoff

namespace A2ARegistry.Orchestration
open Base

/-- A heartbeat on the row `t` has its task running under the lock it presents, and leaves status and
lock as they are and the lease no shorter. -/
structure ExtendsLease (db : Db) (clock : Clock) (k : String) (claimLock : Json) (t : Task) : Prop where
  running : t.status = .running
  owned : ∃ lock, t.claimLock = some lock ∧ claimLock = .str lock
  leaves : ∃ t', (heartbeat db clock k claimLock).2.task? k = some t' ∧ t'.status = t.status ∧
    t'.claimLock = t.claimLock ∧ ∀ e, t.claimExpires = some e → ∃ e', t'.claimExpires = some e' ∧ e ≤ e'

/-- The call is no heartbeat, or one that is refused, or one that extends the lease of its task. -/
def BeatLawful (db : Db) : Op → Prop
  | .heartbeat clock k claimLock => (heartbeat db clock k claimLock).1 = true →
    ∃ t, db.task? k = some t ∧ ExtendsLease db clock k claimLock t
  | _ => True

/-- A heartbeat that presents what the column holds finds the task running, and the column not NULL. -/
def BeatsRunning (db : Db) : Op → Prop
  | .heartbeat _ k claimLock => ∀ t, db.task? k = some t → claimLock.eqText t.claimLock = true →
    t.status = .running ∧ t.claimLock ≠ none
  | _ => True

/-- Such a heartbeat finds no lease that goes beyond the default TTL from now. -/
def BeatsInTime (db : Db) : Op → Prop
  | .heartbeat clock k claimLock => ∀ t e, db.task? k = some t → claimLock.eqText t.claimLock = true →
    t.claimExpires = some e → e ≤ clock.now + defaultClaimTtl
  | _ => True

/-- A claim asks for no more than the default TTL. -/
def Op.WithinTtl : Op → Prop
  | .claimTask _ _ _ _ ttl => ttl ≤ defaultClaimTtl
  | _ => True

section
variable {db : Db} {clock : Clock} {k : String} {claimLock : Json} {t : Task}

theorem heartbeat_accepted_iff : (heartbeat db clock k claimLock).1 = true ↔
    ∃ t, db.task? k = some t ∧ claimLock.eqText t.claimLock = true := by
  constructor
  · intro h
    by_contra hn
    have hr : ∀ t, db.task? k = some t → claimLock.eqText t.claimLock = false := by
      intro t ht
      exact Bool.eq_false_iff.mpr fun hl => hn ⟨t, ht, hl⟩
    rw [heartbeat_refused clock hr] at h
    cases h
  · rintro ⟨t, ht, hl⟩
    simp [heartbeat, ht, hl]

/-- The row an accepted heartbeat leaves. -/
theorem heartbeat_row (ht : db.task? k = some t) (hl : claimLock.eqText t.claimLock = true) :
    (heartbeat db clock k claimLock).2.task? k = some (t.beat clock.now) := by
  rw [heartbeat_task clock ht hl, if_pos rfl]

/-- Whatever it finds, an accepted heartbeat changes neither the status nor the lock. -/
theorem heartbeat_keeps_owner (h : (heartbeat db clock k claimLock).1 = true) :
    ∃ t t', db.task? k = some t ∧ (heartbeat db clock k claimLock).2.task? k = some t' ∧
      t'.status = t.status ∧ t'.claimLock = t.claimLock := by
  obtain ⟨t, ht, hl⟩ := heartbeat_accepted_iff.mp h
  exact ⟨t, t.beat clock.now, ht, heartbeat_row ht hl, rfl, rfl⟩

theorem extendsLease_iff (ht : db.task? k = some t) (hl : claimLock.eqText t.claimLock = true) :
    ExtendsLease db clock k claimLock t ↔ (t.status = .running ∧ t.claimLock ≠ none) ∧
      ∀ e, t.claimExpires = some e → e ≤ clock.now + defaultClaimTtl := by
  have hrow : (heartbeat db clock k claimLock).2.task? k = some (t.beat clock.now) := heartbeat_row ht hl
  constructor
  · rintro ⟨hs, ⟨lock, hlock, _⟩, t', ht', _, _, hle⟩
    rw [hrow] at ht'
    cases ht'
    refine ⟨⟨hs, by simp [hlock]⟩, ?_⟩
    intro e he
    obtain ⟨e', he', hee⟩ := hle e he
    cases he'
    exact hee
  · rintro ⟨⟨hs, hlock⟩, hle⟩
    refine ⟨hs, ?_, t.beat clock.now, hrow, rfl, rfl, ?_⟩
    · obtain ⟨lock, hlock⟩ := Option.ne_none_iff_exists'.mp hlock
      rw [Json.eqText_iff, hlock] at hl
      exact ⟨lock, hlock, hl⟩
    · intro e he
      exact ⟨_, rfl, hle e he⟩

end

theorem beatLawful_iff (db : Db) (op : Op) : BeatLawful db op ↔ BeatsRunning db op ∧ BeatsInTime db op := by
  cases op with
  | heartbeat clock k claimLock =>
    simp only [BeatLawful, BeatsRunning, BeatsInTime, heartbeat_accepted_iff]
    constructor
    · intro h
      have hrow : ∀ t, db.task? k = some t → claimLock.eqText t.claimLock = true →
          ExtendsLease db clock k claimLock t := by
        intro t ht hl
        obtain ⟨u, hu, hx⟩ := h ⟨t, ht, hl⟩
        rw [ht] at hu
        cases hu
        exact hx
      constructor
      · intro t ht hl
        exact ((extendsLease_iff ht hl).mp (hrow t ht hl)).1
      · intro t e ht hl
        exact ((extendsLease_iff ht hl).mp (hrow t ht hl)).2 e
    · rintro ⟨hrun, htime⟩ ⟨t, ht, hl⟩
      exact ⟨t, ht, (extendsLease_iff ht hl).mpr ⟨hrun t ht hl, fun e => htime t e ht hl⟩⟩
  | _ => simp [BeatLawful, BeatsRunning, BeatsInTime]

/-- No lease goes beyond the default TTL from `now`. -/
def LeasesWithin (now : Int) (db : Db) : Prop :=
  ∀ k t e, db.task? k = some t → t.claimExpires = some e → e ≤ now + defaultClaimTtl

/-- Where an expiry comes from, if no claim asks for more than the default TTL. -/
theorem step_expiry {db : Db} {op : Op} {k : String} {t' : Task} {e : Int} (hop : op.WithinTtl)
    (ht' : (step db op).task? k = some t') (he : t'.claimExpires = some e) :
    (∃ t, db.task? k = some t ∧ t.claimExpires = some e) ∨
      ∃ now, op.now? = some now ∧ e ≤ now + defaultClaimTtl := by
  rcases step_origin ht' with ⟨clock, hex, args, u, rfl, rfl, rfl, _⟩ | ⟨t, hk, hrow⟩
  · cases he
  · generalize step db op = db' at hrow
    cases hrow with
    | same | edited | placed | manned | moved => exact Or.inl ⟨_, hk, he⟩
    | beat =>
      cases he
      exact Or.inr ⟨_, rfl, Int.le_refl _⟩
    | claimed =>
      cases he
      exact Or.inr ⟨_, rfl, Int.add_le_add_left hop _⟩
    | settled =>
      obtain ⟨status, hsame⟩ := settle_kept db' t
      rw [hsame] at he
      exact Or.inl ⟨t, hk, he⟩
    | released | promoted => cases he

theorem leasesWithin_step {db : Db} {op : Op} {now : Int} (hop : op.WithinTtl) (h : LeasesWithin now db)
    (hnow : ∀ n, op.now? = some n → n ≤ now) : LeasesWithin now (step db op) := by
  intro k t' e ht' he
  rcases step_expiry hop ht' he with ⟨t, ht, hold⟩ | ⟨n, hn, hle⟩
  · exact h k t e ht hold
  · have := hnow n hn
    omega

/-- As long as the clock does not go back, a heartbeat finds the lease within the TTL it sets itself. -/
theorem beatsInTime_of_ttl {db : Db} {ops : List Op} (hops : ∀ op ∈ ops, op.WithinTtl)
    (hclock : (ops.filterMap Op.now?).Pairwise (· ≤ ·))
    (h : ∀ now ∈ ops.filterMap Op.now?, LeasesWithin now db) : EachStep step BeatsInTime db ops := by
  induction ops generalizing db with
  | nil => trivial
  | cons op ops ih =>
    have hop := hops op List.mem_cons_self
    have hrest : ∀ i ∈ ops, i.WithinTtl := fun i hi => hops i (List.mem_cons_of_mem op hi)
    have hwithin : ∀ now, op.now? = some now → LeasesWithin now db := by
      intro now hn
      exact h now (List.mem_filterMap.mpr ⟨op, List.mem_cons_self, hn⟩)
    refine ⟨?_, ih hrest ?_ ?_⟩
    · cases op with
      | heartbeat clock k claimLock =>
        intro t e ht _ he
        exact hwithin clock.now rfl k t e ht he
      | _ => trivial
    · cases hn : op.now? with
      | none => simpa [List.filterMap_cons, hn] using hclock
      | some now =>
        rw [List.filterMap_cons_some hn] at hclock
        exact (List.pairwise_cons.mp hclock).2
    · intro now hmem
      have hlate : ∀ n, op.now? = some n → n ≤ now := by
        intro n hn
        rw [List.filterMap_cons_some hn] at hclock
        exact (List.pairwise_cons.mp hclock).1 now hmem
      obtain ⟨i, hi, hin⟩ := List.mem_filterMap.mp hmem
      exact leasesWithin_step hop
        (h now (List.mem_filterMap.mpr ⟨i, List.mem_cons_of_mem op hi, hin⟩)) hlate

/-- In a run whose clock does not go back every accepted heartbeat extends the lease of a running task
exactly when each that presents what the column holds finds the task running, a lock in the column, and
a lease within the default TTL from now. The last is the case at every heartbeat where no claim asks for
more than that TTL. -/
theorem heartbeat_extends_iff (ops : List Op) (hclock : (ops.filterMap Op.now?).Pairwise (· ≤ ·)) :
    (EachStep step BeatLawful Db.empty ops ↔
      EachStep step (fun db op => BeatsRunning db op ∧ BeatsInTime db op) Db.empty ops) ∧
    ((∀ op ∈ ops, op.WithinTtl) →
      (EachStep step BeatLawful Db.empty ops ↔ EachStep step BeatsRunning Db.empty ops)) := by
  have hall : EachStep step BeatLawful Db.empty ops ↔
      EachStep step (fun db op => BeatsRunning db op ∧ BeatsInTime db op) Db.empty ops :=
    eachStep_congr (I := fun _ => True) (fun _ _ _ => trivial) (fun db op _ => beatLawful_iff db op) trivial ops
  refine ⟨hall, fun hops => ?_⟩
  have htime : EachStep step BeatsInTime Db.empty ops := by
    apply beatsInTime_of_ttl hops hclock
    intro now _ k t e ht
    cases ht
  constructor
  · intro h
    exact (hall.mp h).imp fun _ _ hboth => hboth.1
  · intro h
    rw [eachStep_iff] at h htime
    apply hall.mpr
    rw [eachStep_iff]
    intro pre op post he
    exact ⟨h pre op post he, htime pre op post he⟩

/-- A worker claims a task for an hour and sends a heartbeat after ten seconds. -/
def hourLongClaim : List Op :=
  [.createTask (.fixed 0) "a" { title := "a" },
    .claimTask (.fixed 0) "t_a" "w" 1 3600,
    .heartbeat (.fixed 10) "t_a" (.str "w:1")]

theorem heartbeat_extends_sample : EachStep step BeatLawful Db.empty hourLongClaim ↔
    EachStep step (fun db op => BeatsRunning db op ∧ BeatsInTime db op) Db.empty hourLongClaim :=
  (heartbeat_extends_iff hourLongClaim (by decide)).1

/-- The heartbeat is accepted and takes the rest of the hour away. -/
theorem heartbeat_shortens : (hourLongClaim.filterMap Op.now?).Pairwise (· ≤ ·) ∧
    ¬ EachStep step BeatLawful Db.empty hourLongClaim := by
  refine ⟨by decide, fun h => ?_⟩
  have htime := ((beatLawful_iff _ _).mp h.2.2.1).2
  have hrow : ((exec step Db.empty (hourLongClaim.take 2)).task? "t_a").map
      (fun t => (t.claimLock, t.claimExpires)) = some (some "w:1", some 3600) := by decide
  obtain ⟨t, ht, he⟩ := Option.map_eq_some_iff.mp hrow
  simp only [Prod.mk.injEq] at he
  have hlock : (Json.str "w:1").eqText t.claimLock = true := by rw [he.1]; rfl
  exact absurd (htime t 3600 ht hlock he.2) (by decide)

end A2ARegistry.Orchestration
