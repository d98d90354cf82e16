import A2ARegistry.Orchestration.Swarm
import A2ARegistry.Orchestration.Proofs.Drain
import A2ARegistry.Orchestration.Proofs.Gates
import A2ARegistry.Orchestration.Proofs.History

namespace A2ARegistry.Orchestration.Swarm
open Base

section Sessions

variable {α β : Type} {db db' : Db}

/-- A sequence of calls that returns has returned from its first part. -/
theorem bind_ok {x : Session α} {f : α → Session β} {b : β} (h : (x >>= f) db = (.ok b, db')) :
    ∃ a mid, x db = (.ok a, mid) ∧ f a mid = (.ok b, db') := by
  have hbind : (x >>= f) db = match x db with
      | (.ok a, mid) => f a mid
      | (.error e, mid) => (.error e, mid) := by
    change (match x db with | (r, mid) => ExceptT.bindCont f r mid) = _
    rcases x db with ⟨_ | _, mid⟩
    · rfl
    · rfl
  rw [hbind] at h
  rcases hx : x db with ⟨_ | a, mid⟩
  · rw [hx] at h
    cases h
  · rw [hx] at h
    exact ⟨a, mid, rfl, h⟩

theorem call_ok {body : Db → Except StoreError (α × Db)} {a : α} (h : call body db = (.ok a, db')) :
    body db = .ok (a, db') := by
  unfold call at h
  cases hb : body db with
  | error e =>
    rw [hb] at h
    cases h
  | ok r =>
    rw [hb] at h
    cases h
    rfl

theorem setStatus_ok {clock : Clock} {k : String} {new : TaskStatus} {args : StatusArgs} {view : Option TaskView}
    (h : setStatus clock k new args db = (.ok view, db')) :
    db' = step db (.updateTaskStatus clock k new.value args) ∧ InStatus k new db' ∧
      ∃ t, db.task? k = some t ∧ new ∈ transitions t.status := by
  have ok := call_ok h
  have hstep := step_updateTaskStatus ok
  obtain ⟨t, new', retryAt, kind, ht, hs, ha, _⟩ := updateTaskStatus_ok ok
  have hnew := TaskStatus.value_injective hs
  subst hnew
  obtain ⟨_, _, hrow⟩ := step_moved ht ha
  rw [hstep] at hrow
  exact ⟨hstep.symm, inStatus_iff.mpr ⟨_, hrow, rfl⟩, t, ht, ha.edge⟩

end Sessions

/-- Tasks that are gated in the one database are in the other. -/
structure Carried (db db' : Db) : Prop where
  integrity : Integrity db → Integrity db'
  gated : ∀ k parents, Integrity db → Gated k parents db → Gated k parents db'

namespace Carried

variable {a b c : Db}

theorem trans (h : Carried a b) (h' : Carried b c) : Carried a c :=
  ⟨fun hi => h'.integrity (h.integrity hi),
    fun k parents hi hg => h'.gated k parents (h.integrity hi) (h.gated k parents hi hg)⟩

theorem of_step {op : Op} (hw : ∀ ids, OnlyWorked ids a op) : Carried a (step a op) :=
  ⟨step_integrity a op,
    fun k parents hi hg => hg.step hi (hw (k :: parents)) List.mem_cons_self (List.subset_cons_self k parents)⟩

end Carried

/-- The later database has come about by creating tasks. -/
structure Grown (db db' : Db) : Prop extends Carried db db' where
  row : ∀ k t, db.task? k = some t → db'.task? k = some t

namespace Grown

variable {a b c : Db}

theorem refl (a : Db) : Grown a a := ⟨⟨id, fun _ _ _ h => h⟩, fun _ _ h => h⟩

theorem trans (h : Grown a b) (h' : Grown b c) : Grown a c :=
  ⟨h.toCarried.trans h'.toCarried, fun k t ht => h'.row k t (h.row k t ht)⟩

theorem inStatus (h : Grown a b) {k : String} {status : TaskStatus} (hs : InStatus k status a) : InStatus k status b := by
  obtain ⟨t, ht, hst⟩ := inStatus_iff.mp hs
  exact inStatus_iff.mpr ⟨t, h.row k t ht, hst⟩

theorem of_create {clock : Clock} {hex : String} {args : CreateArgs} {t : Task}
    (ok : createTask a clock hex args = .ok (t, b)) : Grown a b := by
  have hstep := step_createTask ok
  have hcarried : Carried a (step a (.createTask clock hex args)) := Carried.of_step fun _ => trivial
  refine ⟨hstep ▸ hcarried, ?_⟩
  intro k u hu
  obtain ⟨_, hfresh, htask, _⟩ := createTask_ok ok
  rw [htask, if_neg, hu]
  intro he
  rw [he, hfresh] at hu
  cases hu

end Grown

section Creation

variable {draws : Draws} {args : SwarmArgs} {db db' : Db} {rootId : String}

theorem created_behind {n : Nat} {cargs : CreateArgs} {t : Task} {parents : List String} (hi : Integrity db)
    (h : createNth draws n cargs db = (.ok t, db')) (hargs : cargs.parents = parents.map .plain)
    {status : TaskStatus} (hs : status ≠ .completed ∧ status ≠ .archived)
    (hparents : ∀ p ∈ parents, InStatus p status db) (hne : parents ≠ []) : Grown db db' ∧ Gated t.id parents db' ∧ InStatus t.id .todo db' := by
  have ok := call_ok h
  refine ⟨Grown.of_create ok, created_gated hi ok hargs ?_ ?_⟩
  · intro p hp
    obtain ⟨u, hu, hst⟩ := inStatus_iff.mp (hparents p hp)
    exact ⟨u, hu, hst ▸ hs.2⟩
  · intro hall
    obtain ⟨p, hp⟩ := List.exists_mem_of_ne_nil _ hne
    have hst := hparents p hp
    rw [InStatus, hall p hp] at hst
    exact hs.1 (Option.some.inj hst).symm

/-- The workers wait for the root. -/
theorem createWorkers_ok {n : Nat} {workers : List SwarmWorkerSpec} {workerIds : List String} (hi : Integrity db)
    (hroot : InStatus rootId .ready db) (h : createWorkers draws args rootId n workers db = (.ok workerIds, db')) :
    Grown db db' ∧ workerIds.length = workers.length ∧
      ∀ w ∈ workerIds, Gated w [rootId] db' ∧ InStatus w .todo db' := by
  induction workers generalizing n db workerIds with
  | nil =>
    cases h
    exact ⟨Grown.refl _, rfl, by simp⟩
  | cons w workers ih =>
    obtain ⟨task, mid, hcreate, h⟩ := bind_ok h
    obtain ⟨rest, last, hrest, h⟩ := bind_ok h
    cases h
    have hparents : ∀ p ∈ [rootId], InStatus p .ready db := by simpa using hroot
    obtain ⟨hgrown, hgated, htodo⟩ := created_behind hi hcreate rfl (by decide) hparents (by simp)
    obtain ⟨hgrown', hlength, hworkers⟩ := ih (hgrown.integrity hi) (hgrown.inStatus hroot) hrest
    refine ⟨hgrown.trans hgrown', by simp [hlength], ?_⟩
    intro k hk
    rcases List.mem_cons.mp hk with rfl | hk
    · exact ⟨hgrown'.gated _ _ (hgrown.integrity hi) hgated, hgrown'.inStatus htodo⟩
    · exact hworkers k hk

/-- The last write of `create_swarm`, on the comments, and the two before it, on the root. -/
theorem setStatus_carried {clock : Clock} {new : TaskStatus} {sargs : StatusArgs} {view : Option TaskView}
    (h : setStatus clock rootId new sargs db = (.ok view, db')) (hnew : new = .running ∨ new = .completed) :
    Carried db db' := by
  rw [(setStatus_ok h).1]
  refine Carried.of_step fun ids _ => ?_
  rcases hnew with rfl | rfl
  · exact Or.inl rfl
  · exact Or.inr (Or.inl rfl)

/-- Completing the root starts what waits for it. -/
theorem started {clock : Clock} {sargs : StatusArgs} {view : Option TaskView} {w : String} (hi : Integrity db)
    (h : setStatus clock rootId .completed sargs db = (.ok view, db')) (hw : Gated w [rootId] db) :
    InStatus w .ready db' := by
  obtain ⟨rfl, hcompleted, t, ht, hedge⟩ := setStatus_ok h
  have hworked : OnlyWorked [w, rootId] db (.updateTaskStatus clock rootId TaskStatus.completed.value sargs) :=
    fun _ => Or.inr (Or.inl rfl)
  apply hw.opened hi hworked List.mem_cons_self (List.subset_cons_self w [rootId])
  · intro hall
    obtain ⟨u, hu, hs⟩ := inStatus_iff.mp (hall rootId List.mem_cons_self)
    rw [ht] at hu
    cases hu
    simp [hs, transitions] at hedge
  · simpa [AllCompleted] using hcompleted

/-- What `create_swarm` leaves behind when it returns. -/
structure Founded (args : SwarmArgs) (created : SwarmCreated) (db : Db) : Prop where
  integrity : Integrity db
  length : created.workerIds.length = args.workers.length
  distinct : created.workerIds.Nodup
  started : ∀ w ∈ created.workerIds, InStatus w .ready db
  verifier : Gated created.verifierId created.workerIds db
  synthesizer : Gated created.synthesizerId [created.verifierId] db

theorem createSwarm_ok {created : SwarmCreated} (hi : Integrity db)
    (h : createSwarm draws args db = (.ok created, db')) : Founded args created db' := by
  unfold createSwarm at h
  cases hrefusal : args.refusal with
  | some message =>
    rw [hrefusal] at h
    cases h
  | none =>
  rw [hrefusal] at h
  have hne : args.workers ≠ [] := by
    intro he
    simp [SwarmArgs.refusal, he] at hrefusal
  obtain ⟨root, db₁, hroot, h⟩ := bind_ok h
  obtain ⟨workerIds, db₂, hworkers, h⟩ := bind_ok h
  obtain ⟨verifier, db₃, hverifier, h⟩ := bind_ok h
  obtain ⟨synthesizer, db₄, hsynthesizer, h⟩ := bind_ok h
  obtain ⟨_, db₅, hrunning, h⟩ := bind_ok h
  obtain ⟨_, db₆, hcompleted, h⟩ := bind_ok h
  obtain ⟨_, db₇, hposted, h⟩ := bind_ok h
  cases h
  have hgrown := Grown.of_create (call_ok hroot)
  have hready : InStatus root.id .ready db₁ := by
    obtain ⟨rfl, _, htask, _⟩ := createTask_ok (call_ok hroot)
    exact inStatus_iff.mpr ⟨_, by rw [htask]; exact if_pos rfl, rfl⟩
  obtain ⟨hgrown₂, hlength, hwaiting⟩ := createWorkers_ok (hgrown.integrity hi) hready hworkers
  have hi₂ := hgrown₂.integrity (hgrown.integrity hi)
  have hids : workerIds ≠ [] := by
    intro he
    rw [he] at hlength
    exact hne (List.length_eq_zero_iff.mp hlength.symm)
  obtain ⟨hgrown₃, hverifier₃, htodo⟩ :=
    created_behind hi₂ hverifier rfl (by decide) (fun w hw => (hwaiting w hw).2) hids
  have hi₃ := hgrown₃.integrity hi₂
  have hparent : ∀ p ∈ [verifier.id], InStatus p .todo db₃ := by simpa using htodo
  obtain ⟨hgrown₄, hsynthesizer₄, _⟩ := created_behind hi₃ hsynthesizer rfl (by decide) hparent (by simp)
  have hcarried₅ := (setStatus_carried hrunning (Or.inl rfl))
  have hcarried₆ := setStatus_carried hcompleted (Or.inr rfl)
  have hposted' : step db₆ (.addComment (draws.clock (args.workers.length + 5)) root.id args.createdBy
      (makeBlackboardBody "topology" (args.topology ⟨root.id, workerIds, verifier.id, synthesizer.id⟩))) = db' :=
    congrArg Prod.snd hposted
  have hcarried₇ : Carried db₆ db' := hposted' ▸ Carried.of_step fun _ => trivial
  have hlater : Carried db₄ db' := hcarried₅.trans (hcarried₆.trans hcarried₇)
  have hi₄ := hgrown₄.integrity hi₃
  refine ⟨hlater.integrity hi₄, hlength, ?_, ?_, ?_, hlater.gated _ _ hi₄ hsynthesizer₄⟩
  · have hdistinct := (createTask_specs (call_ok hverifier)).2
    simpa [CreateArgs.parentSpecs, SwarmArgs.verifierArgs, Function.comp_def, ParentItem.spec] using hdistinct
  · intro w hw
    have hgated := hgrown₃.gated _ _ hi₂ (hwaiting w hw).1
    have hgated₅ := (hgrown₄.toCarried.trans hcarried₅).gated _ _ hi₃ hgated
    have hready₆ := started (hcarried₅.integrity hi₄) hcompleted hgated₅
    have hrows := (addComment_ok (call_ok hposted)).1
    rwa [InStatus, Db.task?, hrows]
  · exact (hgrown₄.toCarried.trans hlater).gated _ _ hi₃ hverifier₃

end Creation

section Returns

variable {draws : Draws} {args : SwarmArgs} {db : Db} {rootId : String}

/-- No two draws from `uuid4` give one id, and none gives an id that is taken. -/
structure FreshDraws (draws : Draws) (db : Db) : Prop where
  distinct : ∀ m n, freshId (draws.hex m) = freshId (draws.hex n) → m = n
  unused : ∀ n, db.task? (freshId (draws.hex n)) = none

theorem bind_returns {α β : Type} {x : Session α} {f : α → Session β} {a : α} {mid : Db} (hx : x db = (.ok a, mid)) :
    (x >>= f) db = f a mid := by
  change (match x db with | (r, mid) => ExceptT.bindCont f r mid) = _
  rw [hx]
  rfl

theorem createNth_returns {n : Nat} {cargs : CreateArgs} {parents : List String} (hi : Integrity db)
    (hfresh : db.task? (freshId (draws.hex n)) = none) (hargs : cargs.parents = parents.map .plain)
    (hparents : ∀ p ∈ parents, p ≠ "" ∧ (db.task? p).isSome) (hn : parents.Nodup) :
    ∃ t db', createNth draws n cargs db = (.ok t, db') ∧ t.id = freshId (draws.hex n) ∧ Integrity db' ∧
      db'.task? t.id = some t ∧ (parents = [] → t.status = .ready) ∧
      ∀ k, k ≠ freshId (draws.hex n) → db'.task? k = db.task? k := by
  have hspecs : cargs.parentSpecs = parents.map (fun p => ⟨p, none⟩) := by
    simp [CreateArgs.parentSpecs, hargs, Function.comp_def, ParentItem.spec]
  have hnodup : (cargs.parentSpecs.map ParentSpec.parentId).Nodup := by
    simpa [hspecs, Function.comp_def] using hn
  have hspec : ∀ spec ∈ cargs.parentSpecs, spec.parentId ≠ "" ∧ (db.task? spec.parentId).isSome := by
    intro spec hs
    rw [hspecs] at hs
    obtain ⟨p, hp, rfl⟩ := List.mem_map.mp hs
    exact hparents p hp
  obtain ⟨t, db', ok⟩ := createTask_accepts hi (draws.clock n) hfresh (fun spec hs => (hspec spec hs).1)
    (fun spec hs => (hspec spec hs).2) hnodup
  have hintegrity := (Grown.of_create ok).integrity hi
  obtain ⟨rfl, _, htask, _⟩ := createTask_ok ok
  have hcall : createNth draws n cargs db = (.ok (cargs.row (draws.clock n).now (draws.hex n)), db') := by
    simp only [createNth, call, ok, Db.tx]
  refine ⟨_, db', hcall, rfl, hintegrity, ?_, ?_, ?_⟩
  · rw [htask]
    exact if_pos rfl
  · intro he
    simp [CreateArgs.row, hargs, he]
  · intro k hk
    rw [htask, if_neg hk]

theorem freshId_ne_empty (hex : String) : freshId hex ≠ "" := by
  intro he
  have := congrArg String.toList he
  simp [freshId] at this

/-- The loop draws the ids of the workers in a row. -/
theorem createWorkers_returns {n : Nat} {workers : List SwarmWorkerSpec} (hi : Integrity db)
    (hroot : (db.task? rootId).isSome) (hid : rootId ≠ "") (hdistinct : ∀ i j, freshId (draws.hex i) = freshId (draws.hex j) → i = j)
    (hunused : ∀ m, n ≤ m → db.task? (freshId (draws.hex m)) = none) :
    ∃ workerIds db', createWorkers draws args rootId n workers db = (.ok workerIds, db') ∧
      workerIds = (List.range' n workers.length).map (fun m => freshId (draws.hex m)) ∧ Integrity db' ∧
      (∀ w ∈ workerIds, (db'.task? w).isSome) ∧ ∀ k, k ∉ workerIds → db'.task? k = db.task? k := by
  induction workers generalizing n db with
  | nil => exact ⟨[], db, rfl, rfl, hi, by simp, fun _ _ => rfl⟩
  | cons w workers ih =>
    have hparents : ∀ p ∈ [rootId], p ≠ "" ∧ (db.task? p).isSome := by
      intro p hp
      rw [List.mem_singleton.mp hp]
      exact ⟨hid, hroot⟩
    have hargs : (args.workerArgs rootId w).parents = [rootId].map .plain := rfl
    obtain ⟨t, mid, hcreate, ht, himid, htask, _, hothers⟩ :=
      createNth_returns hi (hunused n le_rfl) hargs hparents (List.nodup_singleton _)
    have hroot' : (mid.task? rootId).isSome := by
      rw [hothers, Option.isSome_iff_ne_none]
      · exact Option.isSome_iff_ne_none.mp hroot
      · intro he
        rw [he, hunused n le_rfl] at hroot
        cases hroot
    have hunused' : ∀ m, n + 1 ≤ m → mid.task? (freshId (draws.hex m)) = none := by
      intro m hm
      rw [hothers, hunused m (by omega)]
      intro he
      have := hdistinct m n he
      omega
    obtain ⟨workerIds, db', hrest, hids, hi', hsome, hkept⟩ := ih himid hroot' hunused'
    have hnew : t.id ∉ workerIds := by
      intro hm
      rw [hids, ht] at hm
      obtain ⟨m, hm, he⟩ := List.mem_map.mp hm
      have := hdistinct m n he
      have := (List.mem_range'_1.mp hm).1
      omega
    refine ⟨t.id :: workerIds, db', ?_, ?_, hi', ?_, ?_⟩
    · rw [createWorkers, bind_returns hcreate, bind_returns hrest]
      rfl
    · simp [hids, ht, List.range'_succ]
    · intro k hk
      rcases List.mem_cons.mp hk with rfl | hk
      · rw [hkept _ hnew, htask]
        rfl
      · exact hsome k hk
    · intro k hk
      have hne : k ≠ freshId (draws.hex n) := fun he => hk (by simp [he, ht])
      rw [hkept k (fun hm => hk (List.mem_cons_of_mem _ hm)), hothers k hne]

theorem setStatus_returns {clock : Clock} {k : String} {t : Task} {new : TaskStatus} {sargs : StatusArgs}
    {retryAt : Option Int} (ht : db.task? k = some t) (ha : Accepted t clock.now new sargs.claimLock retryAt) :
    ∃ view db', setStatus clock k new sargs db = (.ok view, db') ∧
      db'.task? k = some (t.move clock.now new sargs.result retryAt) := by
  obtain ⟨view, kind, ok⟩ := updateTaskStatus_accepted ht ha
  obtain ⟨_, hstep, hrow⟩ := step_moved ht ha
  refine ⟨view, step db (.updateTaskStatus clock k new.value sargs), ?_, hrow⟩
  simp only [setStatus, call, step, ok, Db.tx]

/-- A task that is ready is taken through `running` to `completed`. -/
theorem root_completes {k : String} {t : Task} (clock clock' : Clock) (sargs : StatusArgs) (ht : db.task? k = some t)
    (hs : t.status = .ready) (hlock : sargs.claimLock = .null) :
    ∃ view mid view' last u, setStatus clock k .running {} db = (.ok view, mid) ∧
      setStatus clock' k .completed sargs mid = (.ok view', last) ∧ last.task? k = some u := by
  have hstart : Accepted t clock.now .running ({} : StatusArgs).claimLock none := by
    apply accepted_of_edge
    · simp [hs, transitions]
    · simp [hs]
    · simp
    · simp
  obtain ⟨view, mid, hrunning, hmid⟩ := setStatus_returns ht hstart
  have hfinish : Accepted (t.move clock.now .running none none) clock'.now .completed sargs.claimLock none :=
    ⟨by simp [Task.move, transitions], by simp [hlock, lockRefused, Json.truthy], by simp, nextRetry_of_ne (by simp)⟩
  obtain ⟨view', last, hcompleted, hlast⟩ := setStatus_returns hmid hfinish
  exact ⟨view, mid, view', last, _, hrunning, hcompleted, hlast⟩

theorem post_returns {k : String} {t : Task} (clock : Clock) (author key : String) (value : Json)
    (ht : db.task? k = some t) :
    ∃ comment db', call (fun db => postBlackboard db clock k author key value) db = (.ok comment, db') := by
  simp only [call, postBlackboard, addComment, ht, Db.tx]
  exact ⟨_, _, rfl⟩

/-- Ids are all that `create_swarm` depends on: where they are new, it returns for every list of workers that it does
not refuse. -/
theorem createSwarm_returns (hi : Integrity db) (hr : args.refusal = none) (hf : FreshDraws draws db) :
    ∃ created db', createSwarm draws args db = (.ok created, db') := by
  have hrootArgs : args.rootArgs.parents = [].map .plain := rfl
  obtain ⟨root, db₁, hroot, hrootId, hi₁, htask, hready, hothers₁⟩ :=
    createNth_returns hi (hf.unused 0) hrootArgs (by simp) List.nodup_nil
  have hunused₁ : ∀ m, 1 ≤ m → db₁.task? (freshId (draws.hex m)) = none := by
    intro m hm
    rw [hothers₁, hf.unused m]
    intro he
    have := hf.distinct m 0 he
    omega
  obtain ⟨workerIds, db₂, hworkers, hids, hi₂, hsome, hothers₂⟩ :
      ∃ workerIds db₂, createWorkers draws args root.id 1 args.workers db₁ = (.ok workerIds, db₂) ∧ _ :=
    createWorkers_returns hi₁ (by rw [htask]; rfl) (hrootId ▸ freshId_ne_empty _) hf.distinct hunused₁
  have hmem : ∀ w ∈ workerIds, ∃ m, 1 ≤ m ∧ m < 1 + args.workers.length ∧ freshId (draws.hex m) = w := by
    intro w hw
    rw [hids] at hw
    obtain ⟨m, hm, rfl⟩ := List.mem_map.mp hw
    exact ⟨m, (List.mem_range'_1.mp hm).1, (List.mem_range'_1.mp hm).2, rfl⟩
  have houtside : ∀ m, m = 0 ∨ args.workers.length + 1 ≤ m → freshId (draws.hex m) ∉ workerIds := by
    intro m hm hw
    obtain ⟨i, _, _, he⟩ := hmem _ hw
    have := hf.distinct i m he
    omega
  have hunused₂ : ∀ m, args.workers.length + 1 ≤ m → db₂.task? (freshId (draws.hex m)) = none := by
    intro m hm
    rw [hothers₂ _ (houtside m (Or.inr hm)), hunused₁ m (by omega)]
  have hnamed : ∀ w ∈ workerIds, w ≠ "" ∧ (db₂.task? w).isSome := by
    intro w hw
    obtain ⟨m, _, _, rfl⟩ := hmem w hw
    exact ⟨freshId_ne_empty _, hsome _ hw⟩
  have hnodup : workerIds.Nodup := by
    rw [hids]
    exact List.Nodup.map (fun i j he => hf.distinct i j he) List.nodup_range'
  obtain ⟨verifier, db₃, hverifier, hverifierId, hi₃, hvtask, _, hothers₃⟩ :
      ∃ verifier db₃, createNth draws (args.workers.length + 1) (args.verifierArgs root.id workerIds) db₂ =
        (.ok verifier, db₃) ∧ _ :=
    createNth_returns hi₂ (hunused₂ _ le_rfl) rfl hnamed hnodup
  have hunused₃ : db₃.task? (freshId (draws.hex (args.workers.length + 2))) = none := by
    rw [hothers₃, hunused₂ _ (by omega)]
    intro he
    have := hf.distinct _ _ he
    omega
  have hvnamed : ∀ p ∈ [verifier.id], p ≠ "" ∧ (db₃.task? p).isSome := by
    intro p hp
    rw [List.mem_singleton.mp hp, hvtask, hverifierId]
    exact ⟨freshId_ne_empty _, rfl⟩
  obtain ⟨synthesizer, db₄, hsynthesizer, _, _, _, _, hothers₄⟩ :
      ∃ synthesizer db₄, createNth draws (args.workers.length + 2) (args.synthesizerArgs root.id verifier.id) db₃ =
        (.ok synthesizer, db₄) ∧ _ :=
    createNth_returns hi₃ hunused₃ rfl hvnamed (List.nodup_singleton _)
  -- The root is still as it was created.
  have hroot₄ : db₄.task? root.id = some root := by
    have hne : ∀ m, m ≠ 0 → root.id ≠ freshId (draws.hex m) := by
      intro m hm he
      rw [hrootId] at he
      exact hm (hf.distinct 0 m he).symm
    rw [hothers₄ _ (hne _ (by omega)), hothers₃ _ (hne _ (by omega)),
      hothers₂ _ (hrootId ▸ houtside 0 (Or.inl rfl)), htask]
  obtain ⟨_, db₅, _, db₆, _, hrunning, hcompleted, hroot₆⟩ :=
    root_completes (draws.clock (args.workers.length + 3)) (draws.clock (args.workers.length + 4))
      { metadata := args.metadata } hroot₄ (hready rfl) rfl
  obtain ⟨_, db₇, hposted⟩ := post_returns (draws.clock (args.workers.length + 5)) args.createdBy "topology"
    (args.topology ⟨root.id, workerIds, verifier.id, synthesizer.id⟩) hroot₆
  refine ⟨⟨root.id, workerIds, verifier.id, synthesizer.id⟩, db₇, ?_⟩
  simp only [createSwarm, hr]
  rw [bind_returns hroot, bind_returns hworkers, bind_returns hverifier, bind_returns hsynthesizer,
    bind_returns hrunning, bind_returns hcompleted, bind_returns hposted]
  rfl

end Returns

/-- No stage of a swarm is ready before the one ahead of it is completed. -/
def InOrder (created : SwarmCreated) (db : Db) : Prop :=
  (InStatus created.verifierId .ready db → AllCompleted created.workerIds db) ∧
    (InStatus created.synthesizerId .ready db → InStatus created.verifierId .completed db)

/-- The call that completes a stage makes the next one ready. -/
def Prompt (created : SwarmCreated) (db : Db) (op : Op) : Prop :=
  (¬ AllCompleted created.workerIds db → AllCompleted created.workerIds (step db op) →
    InStatus created.verifierId .ready (step db op)) ∧
  (¬ InStatus created.verifierId .completed db → InStatus created.verifierId .completed (step db op) →
    InStatus created.synthesizerId .ready (step db op))

section Runs

variable {args : SwarmArgs} {created : SwarmCreated} {db : Db} {op : Op}

/-- What a run of a swarm keeps. -/
def Staged (created : SwarmCreated) (db : Db) : Prop :=
  Integrity db ∧ Gated created.verifierId created.workerIds db ∧ Gated created.synthesizerId [created.verifierId] db

theorem allCompleted_singleton {k : String} : AllCompleted [k] db ↔ InStatus k .completed db := by
  simp [AllCompleted]

theorem Staged.inOrder (h : Staged created db) : InOrder created db :=
  ⟨h.2.1.completed_of_ready, fun hr => allCompleted_singleton.mp (h.2.2.completed_of_ready hr)⟩

section
variable (h : Staged created db) (hw : OnlyWorked created.taskIds db op)
include h hw

theorem Staged.step : Staged created (Orchestration.step db op) := by
  obtain ⟨hi, hverifier, hsynthesizer⟩ := h
  refine ⟨step_integrity db op hi, hverifier.step hi hw ?_ ?_, hsynthesizer.step hi hw ?_ ?_⟩
  · simp [SwarmCreated.taskIds]
  · intro w hm
    simp [SwarmCreated.taskIds, hm]
  · simp [SwarmCreated.taskIds]
  · simp [SwarmCreated.taskIds]

theorem Staged.prompt : Prompt created db op := by
  obtain ⟨hi, hverifier, hsynthesizer⟩ := h
  constructor
  · apply hverifier.opened hi hw
    · simp [SwarmCreated.taskIds]
    · intro w hm
      simp [SwarmCreated.taskIds, hm]
  · rw [← allCompleted_singleton, ← allCompleted_singleton]
    apply hsynthesizer.opened hi hw
    · simp [SwarmCreated.taskIds]
    · simp [SwarmCreated.taskIds]

end

/-- A swarm of any number of workers starts all of them, and runs stage by stage: the verifier is ready neither before
the last worker is completed nor later than with it, and so is the synthesizer after the verifier. -/
theorem swarm_staged {draws : Draws} {ops₀ ops : List Op}
    (hc : createSwarm draws args (exec Orchestration.step Db.empty ops₀) = (.ok created, db))
    (hw : EachStep Orchestration.step (OnlyWorked created.taskIds) db ops) :
    (created.workerIds.length = args.workers.length ∧ created.workerIds.Nodup ∧
      ∀ w ∈ created.workerIds, InStatus w .ready db) ∧
    Always Orchestration.step (InOrder created) db ops ∧ EachStep Orchestration.step (Prompt created) db ops := by
  have hfounded := createSwarm_ok (reachable_integrity ops₀) hc
  have hstaged : Staged created db := ⟨hfounded.integrity, hfounded.verifier, hfounded.synthesizer⟩
  have hstep : ∀ db op, Staged created db → OnlyWorked created.taskIds db op →
      Staged created (Orchestration.step db op) := fun _ _ h hw => h.step hw
  refine ⟨⟨hfounded.length, hfounded.distinct, hfounded.started⟩, ?_, ?_⟩
  · exact (EachStep.always hstep hstaged hw).imp fun _ h => h.inOrder
  · exact EachStep.imp_invariant hstep (fun _ _ h hw => h.prompt hw) hstaged hw

end Runs

/-- Two workers on a goal. -/
def pair : SwarmArgs where
  goal := "g"
  workers := [{ profile := "p", title := "u" }, { profile := "q", title := "v" }]
  verifierProfile := "r"
  synthesizerProfile := "s"

def pairDraws : Draws := ⟨fun _ => .fixed 0, fun n => ["a", "b", "c", "d", "e"].getD n ""⟩

def pairCreated : SwarmCreated := ⟨"t_a", ["t_b", "t_c"], "t_d", "t_e"⟩

/-- The second worker fails and is retried, the first one lets its claim expire, and then both complete. -/
def pairRun : List Op :=
  [.claimTask (.fixed 1) "t_c" "w" 1 900, .updateTaskStatus (.fixed 2) "t_c" "failed" {},
    .claimTask (.fixed 3) "t_b" "w" 1 10, .promoteRetryableTasks (.fixed 4) none,
    .claimTask (.fixed 5) "t_c" "w" 1 900, .updateTaskStatus (.fixed 6) "t_c" "completed" {},
    .releaseExpiredClaims (.fixed 20) none, .promoteRetryableTasks (.fixed 21) none,
    .claimTask (.fixed 22) "t_b" "w" 1 900, .updateTaskStatus (.fixed 23) "t_b" "completed" {},
    .claimTask (.fixed 24) "t_d" "w" 1 900, .updateTaskStatus (.fixed 25) "t_d" "completed" {}]

theorem pair_staged : Always Orchestration.step (InOrder pairCreated) (createSwarm pairDraws pair Db.empty).2 pairRun ∧
    EachStep Orchestration.step (Prompt pairCreated) (createSwarm pairDraws pair Db.empty).2 pairRun := by
  have hc : createSwarm pairDraws pair (exec Orchestration.step Db.empty []) =
      (.ok pairCreated, (createSwarm pairDraws pair Db.empty).2) := Prod.ext rfl rfl
  exact (swarm_staged hc (by decide)).2

section Drain

variable {draws : Draws} {args : SwarmArgs} {db db' : Db} {rootId : String}

/-- Neither a task behind tasks that are open, nor one that waits for nothing, holds the board up. -/
theorem createNth_flows {n : Nat} {cargs : CreateArgs} {t : Task} {parents : List String} (hf : Flowing db)
    (h : createNth draws n cargs db = (.ok t, db')) (hargs : cargs.parents = parents.map .plain)
    (hparents : ∀ p ∈ parents, ∃ row, db.task? p = some row ∧ row.status.done = false) :
    Flowing db' ∧ (db'.task? t.id = some t ∧ t.status.done = false) ∧ Grown db db' ∧
      ∀ l ∈ db'.links.rows, l ∈ db.links.rows ∨ l.condition = none := by
  have ok := call_ok h
  have hspecs : ∀ sp ∈ cargs.parentSpecs, sp.parentId ∈ parents ∧ sp.condition = none := by
    intro sp hsp
    simp only [CreateArgs.parentSpecs, hargs, List.map_map, List.mem_map] at hsp
    obtain ⟨p, hp, rfl⟩ := hsp
    exact ⟨hp, rfl⟩
  refine ⟨createTask_flows hf ok (fun sp hsp => hparents _ (hspecs sp hsp).1) (fun sp hsp => ?_), ⟨?_, ?_⟩,
    Grown.of_create ok, fun l hl => ?_⟩
  · obtain ⟨result, hresult⟩ := hf.fits sp.parentId
    refine ⟨result, fun c hc => ?_, fun l hl hp _ => hresult l hl hp⟩
    rw [(hspecs sp hsp).2] at hc
    cases hc
  · obtain ⟨rfl, _, htask, _⟩ := createTask_ok ok
    exact (htask _).trans (if_pos rfl)
  · obtain ⟨rfl, _⟩ := createTask_ok ok
    cases hp : cargs.parents <;> simp [CreateArgs.row, hp, TaskStatus.done]
  · rcases ((createTask_ok ok).2.2.2.2.2 l).mp hl with hl | ⟨sp, hsp, rfl⟩
    · exact Or.inl hl
    · exact Or.inr (hspecs sp hsp).2

theorem createWorkers_flows {n : Nat} {workers : List SwarmWorkerSpec} {workerIds : List String} (hf : Flowing db)
    (hroot : ∃ row, db.task? rootId = some row ∧ row.status.done = false)
    (h : createWorkers draws args rootId n workers db = (.ok workerIds, db')) :
    Flowing db' ∧ (∀ w ∈ workerIds, ∃ row, db'.task? w = some row ∧ row.status.done = false) ∧ Grown db db' ∧
      ∀ l ∈ db'.links.rows, l ∈ db.links.rows ∨ l.condition = none := by
  induction workers generalizing n db workerIds with
  | nil =>
    cases h
    exact ⟨hf, by simp, Grown.refl _, fun _ hl => Or.inl hl⟩
  | cons w workers ih =>
    obtain ⟨task, mid, hcreate, h⟩ := bind_ok h
    obtain ⟨rest, last, hrest, h⟩ := bind_ok h
    cases h
    have hparents : ∀ p ∈ [rootId], ∃ row, db.task? p = some row ∧ row.status.done = false := by simpa using hroot
    obtain ⟨hmid, ⟨htask, hopen⟩, hgrown, hlinks⟩ := createNth_flows hf hcreate rfl hparents
    obtain ⟨root, hrow, hrootOpen⟩ := hroot
    obtain ⟨hlast, hworkers, hgrown', hlinks'⟩ := ih hmid ⟨root, hgrown.row _ _ hrow, hrootOpen⟩ hrest
    refine ⟨hlast, fun k hk => ?_, hgrown.trans hgrown', fun l hl => (hlinks' l hl).elim (hlinks l) Or.inr⟩
    rcases List.mem_cons.mp hk with rfl | hk
    · exact ⟨task, hgrown'.row _ _ htask, hopen⟩
    · exact hworkers k hk

theorem createSwarm_flows {created : SwarmCreated} (hf : Flowing db)
    (h : createSwarm draws args db = (.ok created, db')) : Flowing db' ∧ InStatus created.rootId .completed db' := by
  unfold createSwarm at h
  cases hrefusal : args.refusal with
  | some message =>
    rw [hrefusal] at h
    cases h
  | none =>
  rw [hrefusal] at h
  obtain ⟨root, db₁, hroot, h⟩ := bind_ok h
  obtain ⟨workerIds, db₂, hworkers, h⟩ := bind_ok h
  obtain ⟨verifier, db₃, hverifier, h⟩ := bind_ok h
  obtain ⟨synthesizer, db₄, hsynthesizer, h⟩ := bind_ok h
  obtain ⟨_, db₅, hrunning, h⟩ := bind_ok h
  obtain ⟨_, db₆, hcompleted, h⟩ := bind_ok h
  obtain ⟨_, db₇, hposted, h⟩ := bind_ok h
  cases h
  have hrootArgs : args.rootArgs.parents = [].map .plain := rfl
  obtain ⟨hf₁, ⟨hrow₁, hopen₁⟩, _, hlinks₁⟩ := createNth_flows hf hroot hrootArgs (by simp)
  obtain ⟨hf₂, hopen₂, _, hlinks₂⟩ := createWorkers_flows hf₁ ⟨root, hrow₁, hopen₁⟩ hworkers
  obtain ⟨hf₃, hrow₃, _, hlinks₃⟩ := createNth_flows hf₂ hverifier rfl hopen₂
  have hparent : ∀ p ∈ [verifier.id], ∃ row, db₃.task? p = some row ∧ row.status.done = false := by
    simpa using ⟨verifier, hrow₃⟩
  obtain ⟨hf₄, _, _, hlinks₄⟩ := createNth_flows hf₃ hsynthesizer rfl hparent
  have hf₅ : Flowing db₅ := by
    rw [(setStatus_ok hrunning).1]
    exact flowing_step hf₄ (Or.inl rfl)
  have hfresh : db.task? root.id = none := by
    rw [(createTask_ok (call_ok hroot)).1]
    exact (createTask_ok (call_ok hroot)).2.1
  have hlinks : ∀ l ∈ db₄.links.rows, l ∈ db.links.rows ∨ l.condition = none := fun l hl =>
    (hlinks₄ l hl).elim (fun hl => (hlinks₃ l hl).elim (fun hl => (hlinks₂ l hl).elim (hlinks₁ l) Or.inr) Or.inr) Or.inr
  -- What waits for the root asks for no result.
  have hplain : ∀ l ∈ db₅.links.rows, l.parentId = root.id → Meets l.condition none := by
    intro l hl hp c hc
    rw [(setStatus_ok hrunning).1, step_updateTaskStatus_links] at hl
    rcases hlinks l hl with hl | hnone
    · have hexists := hf.integrity.parent l hl
      rw [hp, hfresh] at hexists
      cases hexists
    · rw [hnone] at hc
      cases hc
  have hf₆ : Flowing db₆ := by
    rw [(setStatus_ok hcompleted).1]
    exact flowing_step hf₅ (Or.inr (Or.inl ⟨rfl, hplain⟩))
  obtain rfl : step db₆ (.addComment (draws.clock (args.workers.length + 5)) root.id args.createdBy
      (makeBlackboardBody "topology" (args.topology ⟨root.id, workerIds, verifier.id, synthesizer.id⟩))) = db' :=
    congrArg Prod.snd hposted
  refine ⟨flowing_step hf₆ trivial, ?_⟩
  rw [InStatus, step, Db.task?, commented_tasks]
  exact (setStatus_ok hcompleted).2.1

/-- On a board on which work is done in order, a swarm of any size can be completed: its root is
through when it is created, and the workers can complete all of its tasks. -/
theorem swarm_drains {ops : List Op} {created : SwarmCreated} (h : EachStep Orchestration.step Orderly Db.empty ops)
    (hc : createSwarm draws args (exec Orchestration.step Db.empty ops) = (.ok created, db)) :
    InStatus created.rootId .completed db ∧
      ∃ more, EachStep Orchestration.step (fun db op => Orderly db op ∧ Works db op) db more ∧
        ∀ k t, (exec Orchestration.step db more).task? k = some t → t.status.done = true := by
  have hflows := createSwarm_flows (EachStep.invariant (fun _ _ => flowing_step) empty_flowing h) hc
  exact ⟨hflows.2, flowing_drains hflows.1⟩

theorem pair_drains : InStatus "t_a" .completed (createSwarm pairDraws pair (exec Orchestration.step Db.empty reviewed)).2 ∧
    ∃ more, EachStep Orchestration.step (fun db op => Orderly db op ∧ Works db op)
        (createSwarm pairDraws pair (exec Orchestration.step Db.empty reviewed)).2 more ∧
      ∀ k t, (exec Orchestration.step (createSwarm pairDraws pair (exec Orchestration.step Db.empty reviewed)).2 more).task? k =
        some t → t.status.done = true := by
  have hc : createSwarm pairDraws pair (exec Orchestration.step Db.empty reviewed) =
      (.ok pairCreated, (createSwarm pairDraws pair (exec Orchestration.step Db.empty reviewed)).2) := Prod.ext rfl rfl
  exact swarm_drains reviewed_orderly hc

end Drain

end A2ARegistry.Orchestration.Swarm
