import A2ARegistry.Orchestration.Blackboard

namespace A2ARegistry.Orchestration.Blackboard
open Base

/-- A plan that is made for an expected version is one for that version. -/
theorem plan_expected {key : String} {args : WriteArgs} {existing : Option Int} {statement : Statement} {v : Int}
    (h : args.plan key existing = .ok statement) (hv : args.expectedVersion = some v) :
    statement = .insert ∧ v = 0 ∨ statement = .update v := by
  unfold WriteArgs.plan at h
  cases existing with
  | none =>
    simp only [hv] at h
    split at h
    · cases h
    · rename_i hzero
      cases h
      exact Or.inl ⟨rfl, not_not.mp hzero⟩
  | some current =>
    simp only [hv] at h
    split at h
    · cases h
    · rename_i hsame
      cases h
      exact Or.inr (congrArg Statement.update (not_not.mp hsame))

/-- A statement changes the row it was planned for and raises its version by one, or changes nothing. -/
theorem execute_versions {args : WriteArgs} {statement : Statement} {entry after : Option Entry} {rows : Nat}
    (h : statement.execute args entry = .ok (after, rows)) : versionOf after = versionOf entry + rows := by
  unfold Statement.execute at h
  split at h
  · cases h
    rfl
  · cases h
  · cases h
    simp
  · split at h
    · rename_i hversion
      cases h
      simp [versionOf, getVersion, hversion]
    · cases h
      simp

/-- An update changes a row exactly when the row is there with the version it was planned for. -/
theorem update_execute (args : WriteArgs) (current : Int) (entry : Option Entry) :
    ∃ after rows, (Statement.update current).execute args entry = .ok (after, rows) ∧
      (rows ≠ 0 ↔ getVersion entry = some current) := by
  cases entry with
  | none => exact ⟨none, 0, rfl, by simp [getVersion]⟩
  | some e =>
    by_cases hversion : e.version = current
    · refine ⟨_, 1, if_pos hversion, ?_⟩
      simp [getVersion, hversion]
    · refine ⟨some e, 0, if_neg hversion, ?_⟩
      simp [getVersion, hversion]

/-- Only an `INSERT` raises, where the row is there. -/
theorem execute_error {args : WriteArgs} {statement : Statement} {entry : Option Entry} {e : BlackboardError}
    (h : statement.execute args entry = .error e) : statement = .insert ∧ entry ≠ none := by
  cases statement with
  | insert =>
    cases entry with
    | none => cases h
    | some _ => exact ⟨rfl, by simp⟩
  | update current =>
    obtain ⟨after, rows, hok, _⟩ := update_execute args current entry
    rw [hok] at h
    cases h

namespace Board

/-- A write with nothing between its two statements is a call of `write`. -/
theorem write_alone (key : String) (s : Board) (client : Nat) (args : WriteArgs) :
    (step key (step key s (.select client args)) (.execute s.pending.length false)).entry =
      (write key args s.entry).2 := by
  cases hplan : args.plan key (getVersion s.entry) with
  | error e => simp [step, write, hplan]
  | ok statement =>
    cases hexecute : statement.execute args s.entry with
    | error e => simp [step, write, hplan, hexecute]
    | ok result => simp [step, write, hplan, hexecute, finish]

/-- What holds of a read, however the run goes on: a deletion since then is a modification since then, and without
one every modification has raised the version. -/
structure Read.Tracked (s : Board) (r : Read) : Prop where
  deletions : r.deletions ≤ s.deletions
  modifications : r.modifications + (s.deletions - r.deletions) ≤ s.modifications
  version : r.deletions = s.deletions → versionOf s.entry + r.modifications = r.version + s.modifications

/-- The reads are tracked, and a write goes by a read of the version it expects and has planned for. -/
structure Coherent (s : Board) : Prop where
  reads : ∀ r ∈ s.reads, Read.Tracked s r
  basis : ∀ p ∈ s.pending, ∀ r, p.basis = some r → r ∈ s.reads ∧ p.args.expectedVersion = some r.version
  planned : ∀ p ∈ s.pending, ∀ v, p.args.expectedVersion = some v →
    p.statement = .insert ∧ v = 0 ∨ p.statement = .update v

/-- Where the statement of a write will be reported as a success: an update finds the version that the write found,
and the key was not deleted since the read the write goes by. -/
structure Undisturbed (s : Board) (p : Pending) : Prop where
  version : ∀ current, p.statement = .update current → getVersion s.entry = some current
  deletions : (p.statement = .insert → s.entry = none) → ∀ r, p.basis = some r → r.deletions = s.deletions

/-- The second statement of a write with an expected version is undisturbed, if it does not fail. -/
def Sound (s : Board) : BoardEvent → Prop
  | .execute i false => ∀ p, s.pending[i]? = some p → p.args.expectedVersion ≠ none → Undisturbed s p
  | .execute _ true | .read _ | .select .. | .delete => True

variable {key : String} {s : Board}

theorem coherent_empty : Coherent .empty :=
  ⟨fun _ h => (nomatch h), fun _ h => (nomatch h), fun _ h => (nomatch h)⟩

/-- What is tracked of a read goes by the key and its counts. -/
theorem Read.Tracked.same {s' : Board} {r : Read} (h : Read.Tracked s r) (hentry : s'.entry = s.entry)
    (hmodifications : s'.modifications = s.modifications) (hdeletions : s'.deletions = s.deletions) :
    Read.Tracked s' r := by
  constructor
  case deletions =>
    rw [hdeletions]
    exact h.deletions
  case modifications =>
    rw [hdeletions, hmodifications]
    exact h.modifications
  case version =>
    rw [hdeletions, hmodifications, hentry]
    exact h.version

theorem Coherent.rest (hs : Coherent s) (i : Nat) : Coherent { s with pending := s.pending.eraseIdx i } := by
  refine ⟨fun r hr => (hs.reads r hr).same rfl rfl rfl, fun p hp => ?_, fun p hp => ?_⟩
  · exact hs.basis p (List.mem_of_mem_eraseIdx hp)
  · exact hs.planned p (List.mem_of_mem_eraseIdx hp)

/-- The basis of a write is a read of the version it expects. -/
theorem basis_read {client : Nat} {args : WriteArgs} {r : Read} (h : s.basis client args = some r) :
    r ∈ s.reads ∧ args.expectedVersion = some r.version := by
  obtain ⟨expected, hexpected, hfind⟩ := Option.bind_eq_some_iff.mp h
  have hfound := List.find?_some hfind
  simp only [Bool.and_eq_true, beq_iff_eq] at hfound
  exact ⟨List.mem_of_find?_eq_some hfind, by rw [hfound.2]; exact hexpected⟩

theorem Coherent.select (hs : Coherent s) {client : Nat} {args : WriteArgs} {statement : Statement}
    (hplan : args.plan key (getVersion s.entry) = .ok statement) :
    Coherent { s with pending := s.pending ++ [⟨args, s.basis client args, statement⟩] } := by
  refine ⟨fun r hr => (hs.reads r hr).same rfl rfl rfl, fun p hp r hr => ?_, fun p hp v hv => ?_⟩
  · rcases List.mem_append.mp hp with hp | hp
    · exact hs.basis p hp r hr
    · cases List.mem_singleton.mp hp
      exact basis_read hr
  · rcases List.mem_append.mp hp with hp | hp
    · exact hs.planned p hp v hv
    · cases List.mem_singleton.mp hp
      exact plan_expected hplan hv

theorem Coherent.finish (hs : Coherent s) {p : Pending} {entry : Option Entry} {rows : Nat}
    (hversions : versionOf entry = versionOf s.entry + rows) : Coherent (s.finish key p entry rows) := by
  refine ⟨fun r hr => ?_, hs.basis, hs.planned⟩
  obtain ⟨hdeletions, hmodifications, hversion⟩ := hs.reads r hr
  refine ⟨hdeletions, ?_, fun heq => ?_⟩
  · simp only [Board.finish]
    omega
  · have hbefore := hversion heq
    simp only [Board.finish, hversions, Int.natCast_add]
    omega

theorem coherent_step (key : String) (s : Board) (event : BoardEvent) (hs : Coherent s) :
    Coherent (step key s event) := by
  cases event with
  | read client =>
    refine ⟨fun r hr => ?_, fun p hp r hr => ?_, hs.planned⟩
    · rcases List.mem_cons.mp hr with rfl | hr
      · exact ⟨Nat.le_refl _, by simp [step], fun _ => rfl⟩
      · exact (hs.reads r hr).same rfl rfl rfl
    · obtain ⟨hin, hexpected⟩ := hs.basis p hp r hr
      exact ⟨List.mem_cons_of_mem _ hin, hexpected⟩
  | select client args =>
    rw [step]
    split
    · exact hs
    · rename_i hplan
      exact hs.select hplan
  | execute i fails =>
    rw [step]
    split
    · exact hs
    dsimp only
    split
    · exact hs.rest i
    split
    · exact hs.rest i
    · rename_i hexecute
      exact (hs.rest i).finish (execute_versions hexecute)
  | delete =>
    cases hentry : s.entry with
    | none =>
      obtain ⟨entry, _, _, _, _, _⟩ := s
      dsimp only at hentry
      subst hentry
      exact hs
    | some e =>
      refine ⟨fun r hr => ?_, hs.basis, hs.planned⟩
      obtain ⟨hdeletions, hmodifications, _⟩ := hs.reads r hr
      have hd : (step key s .delete).deletions = s.deletions + 1 := by simp [step, Blackboard.delete, hentry]
      have hm : (step key s .delete).modifications = s.modifications + 1 := by
        simp [step, Blackboard.delete, hentry]
      exact ⟨by omega, by omega, fun heq => by omega⟩

/-- A read was made since the last modification exactly when the version it returned is still there and the key was
not deleted since. -/
theorem Read.Tracked.current {r : Read} (h : Read.Tracked s r) (hversion : versionOf s.entry = r.version) :
    r.modifications = s.modifications ↔ r.deletions = s.deletions := by
  obtain ⟨hdeletions, hmodifications, hraised⟩ := h
  constructor
  · intro heq
    omega
  · intro heq
    have hsum := hraised heq
    omega

/-- A statement that ends a write with an expected version keeps the property exactly when it is undisturbed. -/
theorem finish_iff (hs : Coherent s) (hl : NoLostUpdate s) {i : Nat} {p : Pending} (hp : s.pending[i]? = some p)
    (hexpected : p.args.expectedVersion ≠ none) {entry : Option Entry} {rows : Nat}
    (hexecute : p.statement.execute p.args s.entry = .ok (entry, rows)) :
    NoLostUpdate (finish key { s with pending := s.pending.eraseIdx i } p entry rows) ↔ Undisturbed s p := by
  have hin : p ∈ s.pending := List.mem_of_getElem? hp
  obtain ⟨v, hv⟩ := Option.ne_none_iff_exists'.mp hexpected
  have hnew : NoLostUpdate (finish key { s with pending := s.pending.eraseIdx i } p entry rows) ↔
      rows ≠ 0 ∧ ∀ r, p.basis = some r → r.modifications = s.modifications := by
    unfold NoLostUpdate finish
    simp only [hv, Option.isSome_some, if_true, List.forall_mem_cons, bne_iff_ne]
    exact ⟨fun h => h.1, fun h => ⟨h, hl⟩⟩
  have hbasis : versionOf s.entry = v → ∀ r, p.basis = some r →
      (r.modifications = s.modifications ↔ r.deletions = s.deletions) := by
    intro hversion r hr
    obtain ⟨hread, hrv⟩ := hs.basis p hin r hr
    rw [hv] at hrv
    cases hrv
    exact (hs.reads r hread).current hversion
  rw [hnew]
  rcases hs.planned p hin v hv with ⟨hinsert, hzero⟩ | hupdate
  · rw [hinsert] at hexecute
    cases hentry : s.entry with
    | some e =>
      rw [hentry] at hexecute
      cases hexecute
    | none =>
      rw [hentry] at hexecute
      cases hexecute
      have hversion : versionOf s.entry = v := by simp [hentry, hzero, versionOf, getVersion]
      constructor
      · intro ⟨_, hsame⟩
        exact ⟨fun _ hu => (nomatch hinsert.symm.trans hu), fun _ r hr => (hbasis hversion r hr).mp (hsame r hr)⟩
      · intro h
        exact ⟨Nat.one_ne_zero, fun r hr => (hbasis hversion r hr).mpr (h.deletions (fun _ => hentry) r hr)⟩
  · obtain ⟨after, n, hafter, hrows⟩ := update_execute p.args v s.entry
    rw [hupdate, hafter] at hexecute
    cases hexecute
    constructor
    · intro ⟨happlied, hsame⟩
      have hfound := hrows.mp happlied
      have hversion : versionOf s.entry = v := by simp [versionOf, hfound]
      refine ⟨fun current hu => ?_, fun _ r hr => (hbasis hversion r hr).mp (hsame r hr)⟩
      cases hupdate.symm.trans hu
      exact hfound
    · intro h
      have hfound := h.version v hupdate
      have hversion : versionOf s.entry = v := by simp [versionOf, hfound]
      have hno : p.statement = .insert → s.entry = none := fun hi => (nomatch hi.symm.trans hupdate)
      exact ⟨hrows.mpr hfound, fun r hr => (hbasis hversion r hr).mpr (h.deletions hno r hr)⟩

theorem noLostUpdate_step_iff (key : String) (s : Board) (event : BoardEvent) (hs : Coherent s)
    (hl : NoLostUpdate s) : NoLostUpdate (step key s event) ↔ Sound s event := by
  cases event with
  | read | delete => exact ⟨fun _ => trivial, fun _ => hl⟩
  | select client args =>
    refine ⟨fun _ => trivial, fun _ => ?_⟩
    rw [step]
    split <;> exact hl
  | execute i fails =>
    cases fails with
    | true =>
      refine ⟨fun _ => trivial, fun _ => ?_⟩
      rw [step]
      split <;> exact hl
    | false =>
      cases hp : s.pending[i]? with
      | none =>
        have hsame : step key s (.execute i false) = s := by simp [step, hp]
        rw [hsame]
        exact ⟨fun _ p hsome => (nomatch hp.symm.trans hsome), fun _ => hl⟩
      | some p =>
        have hsound : Sound s (.execute i false) ↔ (p.args.expectedVersion ≠ none → Undisturbed s p) := by
          refine ⟨fun h => h p hp, fun h q hq => ?_⟩
          cases hp.symm.trans hq
          exact h
        rw [hsound]
        cases hexecute : p.statement.execute p.args s.entry with
        | error e =>
          have hstep : step key s (.execute i false) = { s with pending := s.pending.eraseIdx i } := by
            simp [step, hp, hexecute]
          rw [hstep]
          refine ⟨fun _ _ => ?_, fun _ => hl⟩
          obtain ⟨hinsert, hthere⟩ := execute_error hexecute
          exact ⟨fun _ hu => (nomatch hinsert.symm.trans hu), fun hnone => absurd (hnone hinsert) hthere⟩
        | ok result =>
          have hstep : step key s (.execute i false) =
              finish key { s with pending := s.pending.eraseIdx i } p result.1 result.2 := by
            simp [step, hp, hexecute]
          rw [hstep]
          by_cases hexpected : p.args.expectedVersion = none
          · refine ⟨fun _ h => absurd hexpected h, fun _ => ?_⟩
            simpa [NoLostUpdate, finish, hexpected] using hl
          · rw [finish_iff hs hl hp hexpected hexecute]
            exact ⟨fun h _ => h, fun h => h hexpected⟩

/-- No update is lost exactly when every write with an expected version ends undisturbed: its `UPDATE` still finds
the version, and the key was not deleted since the version was read. -/
theorem cas_iff (key : String) (events : List BoardEvent) :
    Always (step key) NoLostUpdate .empty events ↔ EachStep (step key) Sound .empty events := by
  have hl : NoLostUpdate .empty := fun _ h => (nomatch h)
  exact always_iff_guarded (fun s event hs _ => coherent_step key s event hs)
    (fun s event hs hnone => noLostUpdate_step_iff key s event hs hnone) coherent_empty hl events

def sampleWrite (value : String) (expected : Option Int) : WriteArgs where
  value := value
  expectedVersion := expected
  now := 0

/-- Two clients read version 1, and both get past the check before one of them updates the row. -/
def twoWriters : List BoardEvent :=
  [.select 0 (sampleWrite "start" none), .execute 0 false, .read 0, .read 1, .select 0 (sampleWrite "a" (some 1)),
    .select 1 (sampleWrite "b" (some 1)), .execute 0 false, .execute 0 false]

/-- Both are told that the row is theirs. -/
theorem both_writers_succeed : ¬ Always (step "k") NoLostUpdate .empty twoWriters := by
  intro h
  have hlost : (⟨⟨"k", 2, 0, 0⟩, false, some ⟨1, 1, 1, 0⟩, 2⟩ : Success) ∈
      (exec (step "k") .empty twoWriters).successes := by decide +kernel
  exact Bool.false_ne_true (h.last _ hlost).1

/-- A key that is deleted and written again has the version 1 that was read before. -/
example : ¬ NoLostUpdate (exec (step "k") .empty
    [.select 0 (sampleWrite "start" none), .execute 0 false, .read 0, .delete,
      .select 1 (sampleWrite "other" none), .execute 0 false, .select 0 (sampleWrite "a" (some 1)),
      .execute 0 false]) := by
  intro h
  have hstale := (h ⟨⟨"k", 2, 0, 0⟩, true, some ⟨0, 1, 1, 0⟩, 3⟩ (by decide +kernel)).2 _ rfl
  cases hstale

end Board

end A2ARegistry.Orchestration.Blackboard
