import A2ARegistry.Orchestration.Workflow
import A2ARegistry.Orchestration.Proofs.Completeness
import A2ARegistry.Orchestration.Proofs.Drain
import A2ARegistry.Orchestration.Proofs.History

namespace A2ARegistry.Orchestration.Workflow
open Base

section Order

variable {spec : WorkflowSpec} {tasks : List WorkflowTaskSpec} {t : WorkflowTaskSpec}

theorem duplicateIds_nil {seen : List String} (h : duplicateIds seen tasks = []) :
    (tasks.map WorkflowTaskSpec.id).Nodup ∧ ∀ t ∈ tasks, t.id ∉ seen := by
  induction tasks generalizing seen with
  | nil => simp
  | cons t tasks ih =>
    rw [duplicateIds, List.append_eq_nil_iff] at h
    obtain ⟨hnodup, hrest⟩ := ih h.2
    have ht : t.id ∉ seen := by
      intro hin
      simp [hin] at h
    refine ⟨List.nodup_cons.mpr ⟨fun hin => ?_, hnodup⟩, fun u hu => ?_⟩
    · obtain ⟨u, hu, he⟩ := List.mem_map.mp hin
      exact hrest u hu (by simp [he])
    · rcases List.mem_cons.mp hu with rfl | hu
      · exact ht
      · exact fun hin => hrest u hu (List.mem_cons_of_mem _ hin)

theorem idMap_some {id : String} (h : idMap tasks id = some t) : t ∈ tasks ∧ t.id = id :=
  ⟨List.mem_reverse.mp (List.mem_of_find?_eq_some h), by simpa using List.find?_some h⟩

theorem idMap_mem (hnodup : (tasks.map WorkflowTaskSpec.id).Nodup) (ht : t ∈ tasks) : idMap tasks t.id = some t := by
  have hsome : (idMap tasks t.id).isSome := List.find?_isSome.mpr ⟨t, List.mem_reverse.mpr ht, by simp⟩
  obtain ⟨u, hu⟩ := Option.isSome_iff_exists.mp hsome
  obtain ⟨hmem, hid⟩ := idMap_some hu
  rw [hu, List.inj_on_of_nodup_map hnodup hmem ht hid]

theorem keys_declared (tasks : List WorkflowTaskSpec) : Topology.keys (declared tasks) = tasks.map WorkflowTaskSpec.id := by
  simp [Topology.keys, declared]

/-- What is left of a workflow to check when it has been validated. -/
structure Valid (tasks : List WorkflowTaskSpec) : Prop where
  nodup : (tasks.map WorkflowTaskSpec.id).Nodup
  closed : ∀ t ∈ tasks, ∀ dep ∈ t.dependsOn, ∃ p ∈ tasks, p.id = dep.task
  acyclic : Topology.cycles (declared tasks) = []

theorem validate_valid (h : validateWorkflow spec = []) : Valid spec.tasks := by
  unfold validateWorkflow at h
  generalize (if spec.name = "" then ["Workflow name is required"] else []) = unnamed at h
  dsimp only at h
  split at h
  · simp at h
  split at h
  · rename_i herrors
    rw [List.append_eq_nil_iff, List.append_eq_nil_iff] at herrors
    obtain ⟨⟨_, hduplicate⟩, hdangling⟩ := herrors
    refine ⟨(duplicateIds_nil hduplicate).1, fun t ht dep hdep => ?_, List.map_eq_nil_iff.mp h⟩
    have hnone := List.flatMap_eq_nil_iff.mp hdangling t ht
    have hin := List.filter_eq_nil_iff.mp (List.map_eq_nil_iff.mp hnone) dep hdep
    obtain ⟨p, hp⟩ := Option.isSome_iff_exists.mp (by simpa [Option.isSome_iff_ne_none] using hin)
    exact ⟨p, idMap_some hp⟩
  · rename_i herrors
    exact absurd h herrors

theorem wellFormed_of_closed (hnodup : (tasks.map WorkflowTaskSpec.id).Nodup)
    (hclosed : ∀ t ∈ tasks, ∀ dep ∈ t.dependsOn, ∃ p ∈ tasks, p.id = dep.task) :
    Topology.WellFormed (declared tasks) := by
  refine ⟨by rw [keys_declared]; exact hnodup, fun r hr d hd => ?_⟩
  obtain ⟨t, ht, rfl⟩ := List.mem_map.mp hr
  obtain ⟨dep, hdep, rfl⟩ := List.mem_map.mp hd
  obtain ⟨p, hp, hid⟩ := hclosed t ht dep hdep
  rw [keys_declared]
  exact List.mem_map.mpr ⟨p, hp, hid⟩

theorem Valid.wellFormed (h : Valid tasks) : Topology.WellFormed (declared tasks) := wellFormed_of_closed h.nodup h.closed

theorem topologicalSort_ids (h : Valid tasks) :
    (topologicalSort tasks).map WorkflowTaskSpec.id = Topology.sort (declared tasks) := by
  have hin : ∀ id ∈ Topology.sort (declared tasks), ∃ t ∈ tasks, t.id = id := by
    intro id hid
    have hkey := (Topology.sort_ordered h.wellFormed h.acyclic).1.subset hid
    rw [keys_declared] at hkey
    exact List.mem_map.mp hkey
  unfold topologicalSort
  generalize Topology.sort (declared tasks) = ids at hin
  induction ids with
  | nil => rfl
  | cons id ids ih =>
    obtain ⟨t, ht, rfl⟩ := hin id List.mem_cons_self
    rw [List.filterMap_cons_some (idMap_mem h.nodup ht), List.map_cons, ih fun id hid => hin id (List.mem_cons_of_mem _ hid)]

theorem mem_topologicalSort (h : Valid tasks) : t ∈ topologicalSort tasks ↔ t ∈ tasks := by
  constructor
  · intro ht
    obtain ⟨id, _, hid⟩ := List.mem_filterMap.mp ht
    exact (idMap_some hid).1
  · intro ht
    have hkey : t.id ∈ Topology.sort (declared tasks) := by
      apply (Topology.sort_ordered h.wellFormed h.acyclic).1.symm.subset
      rw [keys_declared]
      exact List.mem_map_of_mem ht
    exact List.mem_filterMap.mpr ⟨t.id, hkey, idMap_mem h.nodup ht⟩

theorem topologicalSort_perm (h : Valid tasks) :
    ((topologicalSort tasks).map WorkflowTaskSpec.id).Perm (tasks.map WorkflowTaskSpec.id) := by
  rw [topologicalSort_ids h, ← keys_declared]
  exact (Topology.sort_ordered h.wellFormed h.acyclic).1

/-- In the order of creation the parents of a task come before it. -/
theorem parents_before (h : Valid tasks) {front back : List WorkflowTaskSpec}
    (he : topologicalSort tasks = front ++ t :: back) : ∀ d ∈ t.parentIds, d ∈ front.map WorkflowTaskSpec.id := by
  have ht : t ∈ tasks := (mem_topologicalSort h).mp (by simp [he])
  have hrow : (t.id, t.parentIds) ∈ declared tasks := List.mem_map.mpr ⟨t, ht, rfl⟩
  have hordered := (Topology.sort_ordered h.wellFormed h.acyclic).2
  rw [← topologicalSort_ids h, he] at hordered
  intro d hd
  refine hordered (front.map WorkflowTaskSpec.id) t.id (back.map WorkflowTaskSpec.id) (by simp) d ?_
  rw [Topology.deps_mem h.wellFormed.nodup hrow]
  exact hd

end Order

section Loop

variable {calls : Calls} {spec : WorkflowSpec} {db₀ db : Db} {finished : List WorkflowTaskSpec} {p : Progress}
  {t : WorkflowTaskSpec} {row : Task} {e : StoreError}

/-- The ids `uuid4` yields for the tasks are new, and no two tasks get the same. -/
structure FreshIds (calls : Calls) (tasks : List WorkflowTaskSpec) (db : Db) : Prop where
  unused : ∀ t ∈ tasks, db.task? (freshId (calls.hex t.id)) = none
  distinct : ∀ t ∈ tasks, ∀ u ∈ tasks, freshId (calls.hex t.id) = freshId (calls.hex u.id) → t.id = u.id

/-- A link between two of the tasks that were created, as the one declares it. -/
def Progress.Linked (p : Progress) (tasks : List WorkflowTaskSpec) (l : TaskLink) : Prop :=
  ∃ t ∈ tasks, ∃ dep ∈ t.dependsOn, ∃ tid pid,
    p.idOf t.id = some tid ∧ p.idOf dep.task = some pid ∧ l = ⟨pid, tid, dep.link⟩

/-- What holds when the calls for the tasks in `finished` have been made. -/
structure Built (calls : Calls) (db₀ : Db) (finished : List WorkflowTaskSpec) (p : Progress) : Prop where
  integrity : Integrity p.db
  created : ∀ i tid, p.idOf i = some tid → tid = freshId (calls.hex i) ∧ ∃ t ∈ finished, t.id = i
  made : ∀ t ∈ finished, (p.idOf t.id).isSome ↔
    calls.outage t.id = none ∧ (t.parentIds.filter (fun d => (p.idOf d).isSome)).Nodup
  rows : ∀ t ∈ finished, ∀ tid, p.idOf t.id = some tid →
    ∃ row, p.db.task? tid = some row ∧ (row.status = .ready ↔ ∀ d ∈ t.parentIds, p.idOf d = none)
  others : ∀ k, (∀ i, p.idOf i ≠ some k) → p.db.task? k = db₀.task? k
  links : ∀ l, l ∈ p.db.links.rows ↔ l ∈ db₀.links.rows ∨ p.Linked finished l

theorem built_start (hi : Integrity db₀) : Built calls db₀ [] ⟨db₀, [], []⟩ := by
  refine ⟨hi, fun i tid h => (nomatch h), by simp, by simp, fun k _ => rfl, by simp [Progress.Linked]⟩

theorem parentSpecs_eq (spec : WorkflowSpec) (p : Progress) (t : WorkflowTaskSpec) :
    (spec.args p t).parentSpecs = t.dependsOn.filterMap (fun dep => (p.idOf dep.task).map (fun pid => ⟨pid, dep.link⟩)) := by
  rw [CreateArgs.parentSpecs, WorkflowSpec.args, Progress.parents, List.map_filterMap]
  simp only [Option.map_map]
  rfl

theorem parentSpecs_ids (spec : WorkflowSpec) (p : Progress) (t : WorkflowTaskSpec) :
    (spec.args p t).parentSpecs.map ParentSpec.parentId = t.parentIds.filterMap p.idOf := by
  rw [parentSpecs_eq, List.map_filterMap, WorkflowTaskSpec.parentIds, List.filterMap_map]
  refine congrArg (fun f => t.dependsOn.filterMap f) (funext fun dep => ?_)
  cases h : p.idOf dep.task <;> simp [h]

/-- Where no two have the same image, images repeat only what is repeated. -/
theorem filterMap_nodup {f : String → Option String} (hf : ∀ i j k, f i = some k → f j = some k → i = j)
    (l : List String) : (l.filterMap f).Nodup ↔ (l.filter (fun i => (f i).isSome)).Nodup := by
  induction l with
  | nil => simp
  | cons a l ih =>
    cases ha : f a with
    | none => simpa [ha] using ih
    | some k =>
      have hmem : k ∈ l.filterMap f ↔ a ∈ l.filter (fun i => (f i).isSome) := by
        rw [List.mem_filterMap, List.mem_filter]
        constructor
        · intro h
          obtain ⟨b, hb, hk⟩ := h
          have hab := hf a b k ha hk
          exact ⟨hab ▸ hb, by simp [ha]⟩
        · intro h
          exact ⟨a, h.1, ha⟩
      have hsome : (f a).isSome = true := by rw [ha]; rfl
      rw [List.filterMap_cons_some ha, List.filter_cons, if_pos hsome, List.nodup_cons, List.nodup_cons, ih, hmem]

theorem Built.injective (h : Built calls db₀ finished p) (hfresh : FreshIds calls spec.tasks db₀)
    (hfinished : ∀ u ∈ finished, u ∈ spec.tasks) (i j k : String) (hi : p.idOf i = some k) (hj : p.idOf j = some k) :
    i = j := by
  obtain ⟨hki, t, ht, rfl⟩ := h.created i k hi
  obtain ⟨hkj, u, hu, rfl⟩ := h.created j k hj
  exact hfresh.distinct t (hfinished t ht) u (hfinished u hu) (hki.symm.trans hkj)

/-- The next task has no id yet, nor has another task the one it will get. -/
theorem Built.next_unused (h : Built calls db₀ finished p) (hfresh : FreshIds calls spec.tasks db₀)
    (hfinished : ∀ u ∈ finished, u ∈ spec.tasks) (ht : t ∈ spec.tasks) (hnew : t.id ∉ finished.map WorkflowTaskSpec.id) :
    p.idOf t.id = none ∧ (∀ i, p.idOf i ≠ some (freshId (calls.hex t.id))) ∧
      p.db.task? (freshId (calls.hex t.id)) = none := by
  have hnone : p.idOf t.id = none := by
    refine Option.eq_none_iff_forall_ne_some.mpr fun tid htid => ?_
    obtain ⟨_, u, hu, he⟩ := h.created t.id tid htid
    exact hnew (List.mem_map.mpr ⟨u, hu, he⟩)
  have hother : ∀ i, p.idOf i ≠ some (freshId (calls.hex t.id)) := by
    intro i hi
    obtain ⟨hid, u, hu, rfl⟩ := h.created i _ hi
    have he := hfresh.distinct t ht u (hfinished u hu) hid
    exact hnew (List.mem_map.mpr ⟨u, hu, he.symm⟩)
  exact ⟨hnone, hother, by rw [h.others _ hother]; exact hfresh.unused t ht⟩

/-- When the call for a task goes through. -/
theorem Built.accepts (h : Built calls db₀ finished p) (hfresh : FreshIds calls spec.tasks db₀)
    (hfinished : ∀ u ∈ finished, u ∈ spec.tasks) (ht : t ∈ spec.tasks) (hnew : t.id ∉ finished.map WorkflowTaskSpec.id) :
    (∃ made, createCall calls spec p t = .ok made) ↔
      calls.outage t.id = none ∧ (t.parentIds.filter (fun d => (p.idOf d).isSome)).Nodup := by
  have hids := filterMap_nodup (h.injective hfresh hfinished) t.parentIds
  rw [← parentSpecs_ids spec p t] at hids
  rw [← hids]
  unfold createCall
  cases houtage : calls.outage t.id with
  | some e =>
    constructor
    · intro hok
      obtain ⟨made, hok⟩ := hok
      cases hok
    · intro hok
      cases hok.1
  | none =>
    constructor
    · intro hok
      obtain ⟨⟨row, db⟩, hok⟩ := hok
      exact ⟨rfl, (createTask_specs hok).2⟩
    · intro hok
      have hspec : ∀ sp ∈ (spec.args p t).parentSpecs, ∃ d, p.idOf d = some sp.parentId := by
        intro sp hsp
        rw [parentSpecs_eq] at hsp
        obtain ⟨dep, _, hdep⟩ := List.mem_filterMap.mp hsp
        obtain ⟨pid, hpid, rfl⟩ := Option.map_eq_some_iff.mp hdep
        exact ⟨dep.task, hpid⟩
      obtain ⟨_, _, hid⟩ := h.next_unused hfresh hfinished ht hnew
      have hnamed : ∀ sp ∈ (spec.args p t).parentSpecs, sp.parentId ≠ "" := by
        intro sp hsp he
        obtain ⟨d, hd⟩ := hspec sp hsp
        have hlen := congrArg String.length (((h.created d _ hd).1).symm.trans he)
        simp [freshId] at hlen
      have hexist : ∀ sp ∈ (spec.args p t).parentSpecs, (p.db.task? sp.parentId).isSome := by
        intro sp hsp
        obtain ⟨d, hd⟩ := hspec sp hsp
        obtain ⟨_, u, hu, rfl⟩ := h.created d _ hd
        obtain ⟨row, hrow, _⟩ := h.rows u hu _ hd
        rw [hrow]
        rfl
      obtain ⟨row, db, hcreate⟩ := createTask_accepts h.integrity (calls.clock t.id) hid hnamed hexist hok.2
      exact ⟨(row, db), hcreate⟩

/-- A call that goes through makes one row under the id that was drawn, with the links to the parents that have ids. -/
structure Creates (calls : Calls) (p : Progress) (t : WorkflowTaskSpec) (row : Task) (db : Db) : Prop where
  id : row.id = freshId (calls.hex t.id)
  ready : row.status = .ready ↔ ∀ d ∈ t.parentIds, p.idOf d = none
  task : ∀ k, db.task? k = if k = freshId (calls.hex t.id) then some row else p.db.task? k
  links : ∀ l, l ∈ db.links.rows ↔ l ∈ p.db.links.rows ∨
    ∃ dep ∈ t.dependsOn, ∃ pid, p.idOf dep.task = some pid ∧ l = ⟨pid, freshId (calls.hex t.id), dep.link⟩
  integrity : Integrity p.db → Integrity db

theorem createCall_creates (h : createCall calls spec p t = .ok (row, db)) : Creates calls p t row db := by
  unfold createCall at h
  split at h
  · cases h
  · have hstep := step_createTask h
    obtain ⟨rfl, _, htask, _, _, hlinks⟩ := createTask_ok h
    refine ⟨rfl, ?_, htask, fun l => ?_, fun hi => hstep ▸ step_integrity _ _ hi⟩
    · have hparents : (spec.args p t).parents.isEmpty = true ↔ ∀ d ∈ t.parentIds, p.idOf d = none := by
        simp [WorkflowSpec.args, Progress.parents, WorkflowTaskSpec.parentIds]
      rw [← hparents]
      unfold CreateArgs.row
      split <;> simp_all
    · rw [hlinks l, parentSpecs_eq]
      refine or_congr Iff.rfl ⟨fun hl => ?_, fun hl => ?_⟩
      · obtain ⟨sp, hsp, rfl⟩ := hl
        obtain ⟨dep, hdep, hmade⟩ := List.mem_filterMap.mp hsp
        obtain ⟨pid, hpid, rfl⟩ := Option.map_eq_some_iff.mp hmade
        exact ⟨dep, hdep, pid, hpid, rfl⟩
      · obtain ⟨dep, hdep, pid, hpid, rfl⟩ := hl
        exact ⟨⟨pid, dep.link⟩, List.mem_filterMap.mpr ⟨dep, hdep, by rw [hpid]; rfl⟩, rfl⟩

theorem idOf_snoc (db : Db) (created : List (String × String)) (errors : List String) (i j tid : String) :
    (Progress.mk db (created ++ [(j, tid)]) errors).idOf i =
      ((Progress.mk db created errors).idOf i).or (if i = j then some tid else none) := by
  unfold Progress.idOf
  rw [List.find?_append, Option.map_or]
  by_cases hi : i = j
  · simp [hi]
  · have hne : ¬ j = i := fun he => hi he.symm
    simp [hi, hne]

theorem linked_append {tasks rest : List WorkflowTaskSpec} {l : TaskLink} :
    p.Linked (tasks ++ rest) l ↔ p.Linked tasks l ∨ p.Linked rest l := by
  simp only [Progress.Linked, List.mem_append, or_and_right, exists_or]

theorem linked_congr {p p' : Progress} {tasks : List WorkflowTaskSpec} {l : TaskLink}
    (h : ∀ u ∈ tasks, p'.idOf u.id = p.idOf u.id ∧ ∀ d ∈ u.parentIds, p'.idOf d = p.idOf d) :
    p'.Linked tasks l ↔ p.Linked tasks l := by
  refine exists_congr fun u => and_congr_right fun hu => exists_congr fun dep => and_congr_right fun hdep => ?_
  rw [(h u hu).1, (h u hu).2 dep.task (List.mem_map_of_mem hdep)]

theorem Built.step_ok (h : Built calls db₀ finished p) (hnew : t.id ∉ finished.map WorkflowTaskSpec.id)
    (hunused : p.idOf t.id = none ∧ (∀ i, p.idOf i ≠ some (freshId (calls.hex t.id))) ∧
      p.db.task? (freshId (calls.hex t.id)) = none)
    (hclosed : ∀ u ∈ finished, ∀ d ∈ u.parentIds, d ∈ finished.map WorkflowTaskSpec.id)
    (hparents : ∀ d ∈ t.parentIds, d ∈ finished.map WorkflowTaskSpec.id)
    (haccepts : calls.outage t.id = none ∧ (t.parentIds.filter (fun d => (p.idOf d).isSome)).Nodup)
    (hok : createCall calls spec p t = .ok (row, db)) :
    Built calls db₀ (finished ++ [t]) (materialise calls spec p t) := by
  obtain ⟨hnone, hother, hid⟩ := hunused
  obtain ⟨hrow, hready, htask, hlinks, hintegrity⟩ := createCall_creates hok
  have hidOf : ∀ i, (materialise calls spec p t).idOf i =
      if i = t.id then some (freshId (calls.hex t.id)) else p.idOf i := by
    intro i
    simp only [materialise, hok]
    rw [idOf_snoc, hrow]
    change (p.idOf i).or _ = _
    by_cases hi : i = t.id
    · simp [hi, hnone]
    · simp [hi]
  have hold : ∀ d ∈ finished.map WorkflowTaskSpec.id, (materialise calls spec p t).idOf d = p.idOf d := by
    intro d hd
    rw [hidOf, if_neg]
    exact fun he => hnew (he ▸ hd)
  have hself : (materialise calls spec p t).idOf t.id = some (freshId (calls.hex t.id)) := by
    rw [hidOf, if_pos rfl]
  have hdb : (materialise calls spec p t).db = db := by
    simp only [materialise, hok]
  have hfilter : ∀ ds : List String, (∀ d ∈ ds, d ∈ finished.map WorkflowTaskSpec.id) →
      ds.filter (fun d => ((materialise calls spec p t).idOf d).isSome) = ds.filter (fun d => (p.idOf d).isSome) :=
    fun ds hds => List.filter_congr fun d hd => by rw [hold d (hds d hd)]
  refine ⟨hdb ▸ hintegrity h.integrity, fun i tid hi => ?_, fun u hu => ?_, fun u hu tid htid => ?_, fun k hk => ?_,
    fun l => ?_⟩
  · rw [hidOf] at hi
    split at hi
    · rename_i he
      cases hi
      exact ⟨by rw [he], t, by simp, he.symm⟩
    · obtain ⟨he, u, hu, hid⟩ := h.created i tid hi
      exact ⟨he, u, List.mem_append_left _ hu, hid⟩
  · rcases List.mem_append.mp hu with hu | hu
    · rw [hold u.id (List.mem_map_of_mem hu), hfilter _ (hclosed u hu)]
      exact h.made u hu
    · rw [List.mem_singleton.mp hu, hself, hfilter _ hparents]
      exact ⟨fun _ => haccepts, fun _ => rfl⟩
  · rw [hdb]
    rcases List.mem_append.mp hu with hu | hu
    · rw [hold u.id (List.mem_map_of_mem hu)] at htid
      obtain ⟨r, hr, hstatus⟩ := h.rows u hu tid htid
      refine ⟨r, ?_, hstatus.trans (forall₂_congr fun d hd => by rw [hold d (hclosed u hu d hd)])⟩
      have hne : tid ≠ freshId (calls.hex t.id) := fun he => hother u.id (he ▸ htid)
      rw [htask, if_neg hne]
      exact hr
    · rw [List.mem_singleton.mp hu] at htid ⊢
      rw [hself] at htid
      cases htid
      refine ⟨row, by rw [htask, if_pos rfl], hready.trans (forall₂_congr fun d hd => by rw [hold d (hparents d hd)])⟩
  · have hne : k ≠ freshId (calls.hex t.id) := fun he => hk t.id (he ▸ hself)
    rw [hdb, htask, if_neg hne]
    refine h.others k fun i hi => ?_
    by_cases he : i = t.id
    · rw [he, hnone] at hi
      cases hi
    · exact hk i (by rw [hidOf, if_neg he]; exact hi)
  · rw [hdb, hlinks l, h.links l, or_assoc, linked_append, linked_congr fun u hu =>
      ⟨hold u.id (List.mem_map_of_mem hu), fun d hd => hold d (hclosed u hu d hd)⟩]
    refine or_congr Iff.rfl (or_congr Iff.rfl ⟨fun hl => ?_, fun hl => ?_⟩)
    · obtain ⟨dep, hdep, pid, hpid, he⟩ := hl
      refine ⟨t, List.mem_singleton_self t, dep, hdep, _, pid, hself, ?_, he⟩
      rw [hold dep.task (hparents dep.task (List.mem_map_of_mem hdep))]
      exact hpid
    · obtain ⟨u, hu, dep, hdep, tid, pid, htid, hpid, he⟩ := hl
      rw [List.mem_singleton.mp hu] at htid hdep
      rw [hself] at htid
      cases htid
      rw [hold dep.task (hparents dep.task (List.mem_map_of_mem hdep))] at hpid
      exact ⟨dep, hdep, pid, hpid, he⟩

theorem Built.step_error (h : Built calls db₀ finished p) (hnone : p.idOf t.id = none)
    (hrefuses : ¬ (calls.outage t.id = none ∧ (t.parentIds.filter (fun d => (p.idOf d).isSome)).Nodup))
    (herror : createCall calls spec p t = .error e) :
    Built calls db₀ (finished ++ [t]) (materialise calls spec p t) := by
  have hidOf : ∀ i, (materialise calls spec p t).idOf i = p.idOf i := by
    intro i
    simp only [materialise, herror]
    rfl
  have hdb : (materialise calls spec p t).db = p.db := by
    simp only [materialise, herror]
  have hmem : ∀ u, u ∈ finished ++ [t] → ∀ tid, p.idOf u.id = some tid → u ∈ finished := by
    intro u hu tid htid
    rcases List.mem_append.mp hu with hu | hu
    · exact hu
    · rw [List.mem_singleton.mp hu, hnone] at htid
      cases htid
  refine ⟨hdb ▸ h.integrity, fun i tid hi => ?_, fun u hu => ?_, fun u hu tid htid => ?_, fun k hk => ?_, fun l => ?_⟩
  · rw [hidOf] at hi
    obtain ⟨he, u, hu, hid⟩ := h.created i tid hi
    exact ⟨he, u, List.mem_append_left _ hu, hid⟩
  · simp only [hidOf]
    rcases List.mem_append.mp hu with hu | hu
    · exact h.made u hu
    · rw [List.mem_singleton.mp hu, hnone]
      exact ⟨fun hsome => (nomatch hsome), fun hall => absurd hall hrefuses⟩
  · simp only [hidOf] at htid ⊢
    rw [hdb]
    exact h.rows u (hmem u hu tid htid) tid htid
  · simp only [hidOf] at hk
    rw [hdb]
    exact h.others k hk
  · rw [hdb, h.links l, linked_congr fun u _ => ⟨hidOf u.id, fun d _ => hidOf d⟩, linked_append]
    refine or_congr Iff.rfl (iff_self_or.mpr fun hl => ?_)
    obtain ⟨u, hu, _, _, tid, _, htid, _⟩ := hl
    rw [List.mem_singleton.mp hu, hnone] at htid
    cases htid

theorem Built.step (h : Built calls db₀ finished p) (hfresh : FreshIds calls spec.tasks db₀)
    (hfinished : ∀ u ∈ finished, u ∈ spec.tasks) (ht : t ∈ spec.tasks) (hnew : t.id ∉ finished.map WorkflowTaskSpec.id)
    (hclosed : ∀ u ∈ finished, ∀ d ∈ u.parentIds, d ∈ finished.map WorkflowTaskSpec.id)
    (hparents : ∀ d ∈ t.parentIds, d ∈ finished.map WorkflowTaskSpec.id) :
    Built calls db₀ (finished ++ [t]) (materialise calls spec p t) := by
  have haccepts := h.accepts hfresh hfinished ht hnew
  have hunused := h.next_unused hfresh hfinished ht hnew
  cases hcall : createCall calls spec p t with
  | ok made => exact h.step_ok hnew hunused hclosed hparents (haccepts.mp ⟨made, hcall⟩) hcall
  | error e =>
    refine h.step_error hunused.1 (fun hall => ?_) hcall
    obtain ⟨made, hok⟩ := haccepts.mpr hall
    rw [hcall] at hok
    cases hok

theorem built_run (hvalid : Valid spec.tasks) (hi : Integrity db₀) (hfresh : FreshIds calls spec.tasks db₀)
    {rest : List WorkflowTaskSpec} (he : topologicalSort spec.tasks = finished ++ rest) :
    Built calls db₀ finished (exec (materialise calls spec) ⟨db₀, [], []⟩ finished) := by
  induction finished using List.reverseRecOn generalizing rest with
  | nil => exact built_start hi
  | append_singleton finished t ih =>
    have he' : topologicalSort spec.tasks = finished ++ t :: rest := by simp [he]
    have hnodup : ((finished ++ t :: rest).map WorkflowTaskSpec.id).Nodup := by
      rw [← he']
      exact (topologicalSort_perm hvalid).nodup_iff.mpr hvalid.nodup
    have hnew : t.id ∉ finished.map WorkflowTaskSpec.id := by
      intro hin
      rw [List.map_append, List.map_cons] at hnodup
      exact (List.nodup_append.mp hnodup).2.2 t.id hin t.id List.mem_cons_self rfl
    have hclosed : ∀ u ∈ finished, ∀ d ∈ u.parentIds, d ∈ finished.map WorkflowTaskSpec.id := by
      intro u hu d hd
      obtain ⟨front, back, rfl⟩ := List.append_of_mem hu
      have hsplit : topologicalSort spec.tasks = front ++ u :: (back ++ t :: rest) := by simp [he']
      have hd' := parents_before hvalid hsplit d hd
      rw [List.map_append]
      exact List.mem_append_left _ hd'
    rw [exec_append]
    refine (ih he').step hfresh (fun u hu => ?_) ?_ hnew hclosed (parents_before hvalid he')
    · exact (mem_topologicalSort hvalid).mp (by rw [he']; exact List.mem_append_left _ hu)
    · exact (mem_topologicalSort hvalid).mp (by simp [he'])

/-- Every call of `create_task` goes through. -/
def NoneFails (calls : Calls) (spec : WorkflowSpec) (p : Progress) (order : List WorkflowTaskSpec) : Prop :=
  EachStep (materialise calls spec) (fun p t => (createCall calls spec p t).isOk = true) p order

theorem created_all {order : List WorkflowTaskSpec} (h : NoneFails calls spec p order) :
    (exec (materialise calls spec) p order).created =
      p.created ++ order.map (fun t => (t.id, freshId (calls.hex t.id))) := by
  induction order generalizing p with
  | nil => simp
  | cons t order ih =>
    obtain ⟨hok, hrest⟩ := h
    cases hcall : createCall calls spec p t with
    | error e =>
      rw [hcall] at hok
      cases hok
    | ok made =>
      obtain ⟨row, db⟩ := made
      have hid := (createCall_creates hcall).id
      rw [exec_cons, ih hrest]
      simp [materialise, hcall, hid]

end Loop

/-- `task_ids.get(id)` of a result. -/
def WorkflowResult.idOf (r : WorkflowResult) (id : String) : Option String :=
  (r.taskIds.find? (fun c => c.1 == id)).map Prod.snd

/-- What a workflow is to become of a database. The first two hold it to that where every call goes through, the last
two in any case. -/
structure Materialised (calls : Calls) (spec : WorkflowSpec) (db : Db) : Prop where
  /-- For each declared task there is one new row. -/
  complete : NoneFails calls spec ⟨db, [], []⟩ (topologicalSort spec.tasks) →
    ((applyWorkflow calls false spec db).1.taskIds.map Prod.fst).Perm (spec.tasks.map WorkflowTaskSpec.id) ∧
    ((applyWorkflow calls false spec db).1.taskIds.map Prod.snd).Nodup ∧
    (∀ k ∈ (applyWorkflow calls false spec db).1.taskIds.map Prod.snd,
      db.task? k = none ∧ ((applyWorkflow calls false spec db).2.task? k).isSome) ∧
    ∀ k ∉ (applyWorkflow calls false spec db).1.taskIds.map Prod.snd,
      (applyWorkflow calls false spec db).2.task? k = db.task? k
  /-- The links into it are the declared dependencies. -/
  edges : NoneFails calls spec ⟨db, [], []⟩ (topologicalSort spec.tasks) →
    ∀ t ∈ spec.tasks, ∀ tid, (applyWorkflow calls false spec db).1.idOf t.id = some tid →
      ∀ l, l ∈ (applyWorkflow calls false spec db).2.links.rows ∧ l.childId = tid ↔ ∃ dep ∈ t.dependsOn, ∃ pid,
        (applyWorkflow calls false spec db).1.idOf dep.task = some pid ∧ l = ⟨pid, tid, dep.link⟩
  /-- A task that is created is linked to each of its parents. -/
  linked : ∀ t ∈ spec.tasks, ∀ tid, (applyWorkflow calls false spec db).1.idOf t.id = some tid →
    ∀ dep ∈ t.dependsOn, ∃ pid, (applyWorkflow calls false spec db).1.idOf dep.task = some pid ∧
      ∃ l ∈ (applyWorkflow calls false spec db).2.links.rows, l.parentId = pid ∧ l.childId = tid
  /-- A task with a dependency does not start in `ready`. -/
  waits : ∀ t ∈ spec.tasks, ∀ tid, (applyWorkflow calls false spec db).1.idOf t.id = some tid → t.dependsOn ≠ [] →
    ∀ row, (applyWorkflow calls false spec db).2.task? tid = some row → row.status ≠ .ready

/-- The call for a task goes through if its parents have been created: nothing fails it, and it names no parent twice. -/
def goes (calls : Calls) (tasks : List WorkflowTaskSpec) (id : String) : Bool :=
  tasks.any (fun t => t.id == id && (calls.outage id).isNone && decide t.parentIds.Nodup)

/-- Where the call for a task does not go through, those for the tasks that depend on it fail as well. -/
def FailsChildren (calls : Calls) (tasks : List WorkflowTaskSpec) : Prop :=
  ∀ t ∈ tasks, calls.outage t.id = none → (t.parentIds.filter (goes calls tasks)).Nodup →
    ∀ d ∈ t.parentIds, goes calls tasks d = true

section Result

variable {calls : Calls} {spec : WorkflowSpec} {db : Db} {t : WorkflowTaskSpec} {p : Progress}

theorem applyWorkflow_eq (hvalid : validateWorkflow spec = []) (calls : Calls) (db : Db) :
    applyWorkflow calls false spec db =
      let p := exec (materialise calls spec) ⟨db, [], []⟩ (topologicalSort spec.tasks)
      (⟨spec.name, p.created, p.created.length, p.errors⟩, p.db) := by
  unfold applyWorkflow
  rw [if_pos hvalid]
  rfl

theorem goes_iff (hnodup : (spec.tasks.map WorkflowTaskSpec.id).Nodup) (ht : t ∈ spec.tasks) :
    goes calls spec.tasks t.id = true ↔ calls.outage t.id = none ∧ t.parentIds.Nodup := by
  unfold goes
  rw [List.any_eq_true]
  constructor
  · intro h
    obtain ⟨u, hu, hgoes⟩ := h
    simp only [Bool.and_eq_true, beq_iff_eq, Option.isNone_iff_eq_none, decide_eq_true_eq] at hgoes
    have he := List.inj_on_of_nodup_map hnodup hu ht hgoes.1.1
    rw [← he] at hgoes ⊢
    exact ⟨hgoes.1.2, hgoes.2⟩
  · intro h
    exact ⟨t, ht, by simp [h.1, h.2]⟩

/-- If a task is created only with all of its parents, the calls that go through are those that would. -/
theorem created_iff_goes (hnodup : (spec.tasks.map WorkflowTaskSpec.id).Nodup)
    (h : Built calls db spec.tasks p) (ht : t ∈ spec.tasks)
    (hlinked : (p.idOf t.id).isSome → ∀ d ∈ t.parentIds, (p.idOf d).isSome) :
    (p.idOf t.id).isSome = goes calls spec.tasks t.id := by
  apply Bool.eq_iff_iff.mpr
  rw [goes_iff hnodup ht, h.made t ht]
  constructor
  · intro hmade
    have hall := hlinked ((h.made t ht).mpr hmade)
    rw [List.filter_eq_self.mpr hall] at hmade
    exact hmade
  · intro hgoes
    exact ⟨hgoes.1, hgoes.2.filter _⟩

theorem Built.congr {as bs : List WorkflowTaskSpec} (h : Built calls db as p) (he : ∀ t, t ∈ as ↔ t ∈ bs) :
    Built calls db bs p := by
  refine ⟨h.integrity, fun i tid hi => ?_, fun t ht => h.made t ((he t).mpr ht), fun t ht => h.rows t ((he t).mpr ht),
    h.others, fun l => ?_⟩
  · obtain ⟨hid, t, ht, ht'⟩ := h.created i tid hi
    exact ⟨hid, t, (he t).mp ht, ht'⟩
  · rw [h.links l]
    simp only [Progress.Linked, he]

/-- All the calls of a valid workflow have been made. -/
theorem built_all (hvalid : Valid spec.tasks) (hi : Integrity db) (hfresh : FreshIds calls spec.tasks db) :
    Built calls db spec.tasks (exec (materialise calls spec) ⟨db, [], []⟩ (topologicalSort spec.tasks)) :=
  (built_run hvalid hi hfresh (List.append_nil _).symm).congr fun _ => mem_topologicalSort hvalid

/-- If failures are passed on to the children, the calls that go through are those that would. -/
theorem goes_created (hvalid : Valid spec.tasks) (h : Built calls db spec.tasks p) (hfails : FailsChildren calls spec.tasks) :
    ∀ t ∈ spec.tasks, (p.idOf t.id).isSome = goes calls spec.tasks t.id := by
  have hall : ∀ i ∈ Topology.sort (declared spec.tasks), ∀ t ∈ spec.tasks, t.id = i →
      (p.idOf i).isSome = goes calls spec.tasks i := by
    refine (Topology.sort_ordered hvalid.wellFormed hvalid.acyclic).2.induct
      (S := fun i => ∀ t ∈ spec.tasks, t.id = i → (p.idOf i).isSome = goes calls spec.tasks i) ?_
    intro i _ ih t ht hid
    subst hid
    have hrow : (t.id, t.parentIds) ∈ declared spec.tasks := List.mem_map.mpr ⟨t, ht, rfl⟩
    rw [Topology.deps_mem hvalid.wellFormed.nodup hrow] at ih
    have hfilter : t.parentIds.filter (fun d => (p.idOf d).isSome) = t.parentIds.filter (goes calls spec.tasks) := by
      apply List.filter_congr
      intro d hd
      obtain ⟨dep, hdep, rfl⟩ := List.mem_map.mp hd
      obtain ⟨q, hq, hid⟩ := hvalid.closed t ht dep hdep
      exact ih dep.task hd q hq hid
    apply Bool.eq_iff_iff.mpr
    rw [h.made t ht, goes_iff hvalid.nodup ht, hfilter]
    constructor
    · intro hmade
      have hgoes := hfails t ht hmade.1 hmade.2
      rw [List.filter_eq_self.mpr hgoes] at hmade
      exact hmade
    · intro hgoes
      exact ⟨hgoes.1, hgoes.2.filter _⟩
  intro t ht
  refine hall t.id ?_ t ht rfl
  rw [← topologicalSort_ids hvalid]
  exact List.mem_map_of_mem ((mem_topologicalSort hvalid).mpr ht)

theorem fails_of_linked (hvalid : Valid spec.tasks) (h : Built calls db spec.tasks p)
    (hlinked : ∀ t ∈ spec.tasks, (p.idOf t.id).isSome → ∀ d ∈ t.parentIds, (p.idOf d).isSome) :
    FailsChildren calls spec.tasks := by
  intro t ht houtage hnodup d hd
  have hgoes : ∀ d ∈ t.parentIds, (p.idOf d).isSome = goes calls spec.tasks d := by
    intro d hd
    obtain ⟨dep, hdep, rfl⟩ := List.mem_map.mp hd
    obtain ⟨q, hq, hid⟩ := hvalid.closed t ht dep hdep
    rw [← hid]
    exact created_iff_goes hvalid.nodup h hq (hlinked q hq)
  rw [← List.filter_congr hgoes] at hnodup
  rw [← hgoes d hd]
  exact hlinked t ht ((h.made t ht).mpr ⟨houtage, hnodup⟩) d hd

theorem linked_of_fails (hvalid : Valid spec.tasks) (h : Built calls db spec.tasks p)
    (hfails : FailsChildren calls spec.tasks) (ht : t ∈ spec.tasks) {tid : String} (htid : p.idOf t.id = some tid) :
    ∀ dep ∈ t.dependsOn, ∃ pid, p.idOf dep.task = some pid ∧ ⟨pid, tid, dep.link⟩ ∈ p.db.links.rows := by
  have hgoes := goes_created hvalid h hfails
  have hown := hgoes t ht
  rw [htid] at hown
  obtain ⟨houtage, hnodup⟩ := (goes_iff hvalid.nodup ht).mp hown.symm
  intro dep hdep
  have hparent := hfails t ht houtage (hnodup.filter _) dep.task (List.mem_map_of_mem hdep)
  obtain ⟨q, hq, hid⟩ := hvalid.closed t ht dep hdep
  rw [← hid, ← hgoes q hq, hid] at hparent
  obtain ⟨pid, hpid⟩ := Option.isSome_iff_exists.mp hparent
  exact ⟨pid, hpid, (h.links _).mpr (Or.inr ⟨t, ht, dep, hdep, tid, pid, htid, hpid, rfl⟩)⟩

/-- The links into a created task are to its parents that were created. -/
theorem Built.edges (h : Built calls db spec.tasks p) (hvalid : Valid spec.tasks) (hi : Integrity db)
    (hfresh : FreshIds calls spec.tasks db) (ht : t ∈ spec.tasks) {tid : String} (htid : p.idOf t.id = some tid) (l : TaskLink) :
    l ∈ p.db.links.rows ∧ l.childId = tid ↔
      ∃ dep ∈ t.dependsOn, ∃ pid, p.idOf dep.task = some pid ∧ l = ⟨pid, tid, dep.link⟩ := by
  rw [h.links l]
  constructor
  · intro hl
    obtain ⟨hold | ⟨u, hu, dep, hdep, uid, pid, huid, hpid, rfl⟩, hchild⟩ := hl
    · have hsome := hi.child l hold
      rw [hchild, (h.created t.id tid htid).1, hfresh.unused t ht] at hsome
      cases hsome
    · have hid : uid = tid := hchild
      subst hid
      have hut := List.inj_on_of_nodup_map hvalid.nodup hu ht (h.injective hfresh (fun _ hu => hu) _ _ _ huid htid)
      subst hut
      exact ⟨dep, hdep, pid, hpid, rfl⟩
  · intro hl
    obtain ⟨dep, hdep, pid, hpid, rfl⟩ := hl
    exact ⟨Or.inr ⟨t, ht, dep, hdep, tid, pid, htid, hpid, rfl⟩, rfl⟩

/-- Where every call goes through, each declared task has a row of its own. -/
theorem complete_of_none (hvalid : Valid spec.tasks) (hfresh : FreshIds calls spec.tasks db)
    (hp : exec (materialise calls spec) ⟨db, [], []⟩ (topologicalSort spec.tasks) = p) (h : Built calls db spec.tasks p)
    (hnone : NoneFails calls spec ⟨db, [], []⟩ (topologicalSort spec.tasks)) :
    (p.created.map Prod.fst).Perm (spec.tasks.map WorkflowTaskSpec.id) ∧ (p.created.map Prod.snd).Nodup ∧
    (∀ k ∈ p.created.map Prod.snd, db.task? k = none ∧ (p.db.task? k).isSome) ∧
    ∀ k ∉ p.created.map Prod.snd, p.db.task? k = db.task? k := by
  have hcreated := created_all hnone
  rw [hp, List.nil_append] at hcreated
  have hfst : p.created.map Prod.fst = (topologicalSort spec.tasks).map WorkflowTaskSpec.id := by
    rw [hcreated, List.map_map]
    rfl
  have hmem : ∀ k, k ∈ p.created.map Prod.snd ↔ ∃ t ∈ spec.tasks, freshId (calls.hex t.id) = k := by
    simp [hcreated, mem_topologicalSort hvalid]
  have hperm := topologicalSort_perm hvalid
  refine ⟨hfst ▸ hperm, ?_, fun k hk => ?_, fun k hk => ?_⟩
  · have hnodup := hperm.nodup_iff.mpr hvalid.nodup
    rw [hcreated, List.map_map]
    refine List.Nodup.map_on (fun t ht u hu he => ?_) (List.Nodup.of_map _ hnodup)
    have hid := hfresh.distinct t ((mem_topologicalSort hvalid).mp ht) u ((mem_topologicalSort hvalid).mp hu) he
    exact List.inj_on_of_nodup_map hnodup ht hu hid
  · obtain ⟨t, ht, rfl⟩ := (hmem k).mp hk
    have hin : (t.id, freshId (calls.hex t.id)) ∈ p.created := by
      rw [hcreated]
      exact List.mem_map.mpr ⟨t, (mem_topologicalSort hvalid).mpr ht, rfl⟩
    have hsome : (p.idOf t.id).isSome := by
      rw [Progress.idOf, Option.isSome_map]
      exact List.find?_isSome.mpr ⟨_, hin, by simp⟩
    obtain ⟨tid, htid⟩ := Option.isSome_iff_exists.mp hsome
    obtain ⟨row, hrow, _⟩ := h.rows t ht tid htid
    rw [(h.created t.id tid htid).1] at hrow
    exact ⟨hfresh.unused t ht, by rw [hrow]; rfl⟩
  · refine h.others k fun i hidOf => hk ?_
    obtain ⟨c, hc, rfl⟩ := Option.map_eq_some_iff.mp hidOf
    exact List.mem_map_of_mem (List.mem_of_find?_eq_some hc)

end Result

/-- A validated workflow becomes what it is to become if and only if failures are passed on to the children. -/
theorem materialised_iff (ops : List Op) (calls : Calls) (spec : WorkflowSpec) (hvalid : validateWorkflow spec = [])
    (hfresh : FreshIds calls spec.tasks (exec step Db.empty ops)) :
    Materialised calls spec (exec step Db.empty ops) ↔ FailsChildren calls spec.tasks := by
  have hv := validate_valid hvalid
  have hi := reachable_integrity ops
  generalize exec step Db.empty ops = db at hfresh hi ⊢
  have hbuilt := built_all hv hi hfresh
  have hresult := applyWorkflow_eq hvalid calls db
  generalize hp : exec (materialise calls spec) ⟨db, [], []⟩ (topologicalSort spec.tasks) = p at hbuilt hresult
  have hidOf : (applyWorkflow calls false spec db).1.idOf = p.idOf := by
    rw [hresult]
    rfl
  constructor
  · intro h
    refine fails_of_linked hv hbuilt fun t ht hsome d hd => ?_
    obtain ⟨tid, htid⟩ := Option.isSome_iff_exists.mp hsome
    obtain ⟨dep, hdep, rfl⟩ := List.mem_map.mp hd
    rw [← hidOf] at htid ⊢
    obtain ⟨pid, hpid, _⟩ := h.linked t ht tid htid dep hdep
    rw [hpid]
    rfl
  · intro hfails
    refine ⟨fun hnone => ?_, fun _ t ht tid htid l => ?_, fun t ht tid htid dep hdep => ?_,
      fun t ht tid htid hdeps row hrow hready => ?_⟩
    · rw [hresult]
      exact complete_of_none hv hfresh hp hbuilt hnone
    · rw [hidOf] at htid ⊢
      rw [hresult]
      exact hbuilt.edges hv hi hfresh ht htid l
    · rw [hidOf] at htid ⊢
      rw [hresult]
      obtain ⟨pid, hpid, hl⟩ := linked_of_fails hv hbuilt hfails ht htid dep hdep
      exact ⟨pid, hpid, _, hl, rfl, rfl⟩
    · rw [hidOf] at htid
      rw [hresult] at hrow
      obtain ⟨row', hrow', hstatus⟩ := hbuilt.rows t ht tid htid
      rw [hrow] at hrow'
      cases hrow'
      obtain ⟨dep, hdep⟩ := List.exists_mem_of_ne_nil _ hdeps
      obtain ⟨pid, hpid, _⟩ := linked_of_fails hv hbuilt hfails ht htid dep hdep
      rw [hstatus.mp hready dep.task (List.mem_map_of_mem hdep)] at hpid
      cases hpid

section Sample

/-- `b` waits for `a`, and `a` for `r`, which it names so often. -/
def chain (times : Nat) : WorkflowSpec where
  name := "release"
  tasks := [
    { id := "b", title := "Deploy", dependsOn := [⟨"a", some "success"⟩] },
    { id := "a", title := "Build", dependsOn := List.replicate times ⟨"r", none⟩ },
    { id := "r", title := "Fetch" }]

def quiet : Calls := ⟨fun _ => Clock.fixed 7, fun id => id, fun _ => none, fun _ => "UNIQUE constraint failed"⟩

theorem chain_fresh (times : Nat) : FreshIds quiet (chain times).tasks (exec step Db.empty []) :=
  ⟨fun _ _ => rfl, by simp [chain, quiet, freshId]⟩

/-- A task that names its parent twice is not created, and the task that waits for it starts at once. -/
theorem orphan_starts : validateWorkflow (chain 2) = [] ∧ ¬ Materialised quiet (chain 2) (exec step Db.empty []) := by
  refine ⟨by decide, fun h => ?_⟩
  have hb : (applyWorkflow quiet false (chain 2) (exec step Db.empty [])).1.idOf "b" = some "t_b" := by decide
  obtain ⟨pid, hpid, _⟩ := h.linked { id := "b", title := "Deploy", dependsOn := [⟨"a", some "success"⟩] } (by simp [chain])
    "t_b" hb ⟨"a", some "success"⟩ (by simp)
  have ha : (applyWorkflow quiet false (chain 2) (exec step Db.empty [])).1.idOf "a" = none := by decide
  rw [ha] at hpid
  cases hpid

theorem chain_materialised : Materialised quiet (chain 1) (exec step Db.empty []) :=
  (materialised_iff [] quiet (chain 1) (by decide) (chain_fresh 1)).mpr (by unfold FailsChildren; decide)

end Sample

section Drain

variable {calls : Calls} {spec : WorkflowSpec} {tasks : List WorkflowTaskSpec} {p : Progress} {t : WorkflowTaskSpec}

/-- No two dependencies on a task ask it for different results. -/
def Agreed (tasks : List WorkflowTaskSpec) : Prop :=
  ∀ i, ∃ result, ∀ t ∈ tasks, ∀ dep ∈ t.dependsOn, dep.task = i → Meets dep.link result

/-- The loop of `apply_workflow` under way on a flowing board: no task it has created is through,
and the links out of each are dependencies on it. -/
structure Laid (tasks : List WorkflowTaskSpec) (p : Progress) : Prop where
  flowing : Flowing p.db
  fresh : ∀ i tid, p.idOf i = some tid → ∃ row, p.db.task? tid = some row ∧ row.status.done = false
  distinct : ∀ i j tid, p.idOf i = some tid → p.idOf j = some tid → i = j
  asked : ∀ i tid, p.idOf i = some tid → ∀ l ∈ p.db.links.rows, l.parentId = tid →
    ∃ t ∈ tasks, ∃ dep ∈ t.dependsOn, dep.task = i ∧ l.condition = dep.link

/-- The parents that the call names are tasks of the workflow, each asked for what the others ask. -/
theorem Laid.parent (h : Laid tasks p) (hagreed : Agreed tasks) (ht : t ∈ tasks) {sp : ParentSpec}
    (hsp : sp ∈ (spec.args p t).parentSpecs) (child : String) :
    (∃ row, p.db.task? sp.parentId = some row ∧ row.status.done = false) ∧
      ∃ result, Meets sp.condition result ∧ Fulfils p.db sp.parentId result child := by
  rw [parentSpecs_eq] at hsp
  obtain ⟨dep, hdep, hmade⟩ := List.mem_filterMap.mp hsp
  obtain ⟨pid, hpid, rfl⟩ := Option.map_eq_some_iff.mp hmade
  refine ⟨h.fresh dep.task pid hpid, ?_⟩
  obtain ⟨result, hresult⟩ := hagreed dep.task
  refine ⟨result, hresult t ht dep hdep rfl, fun l hl hp _ => ?_⟩
  obtain ⟨u, hu, other, hother, he, hcond⟩ := h.asked dep.task pid hpid l hl hp
  rw [hcond]
  exact hresult u hu other hother he

theorem Laid.step (h : Laid tasks p) (hagreed : Agreed tasks) (ht : t ∈ tasks) :
    Laid tasks (materialise calls spec p t) := by
  cases hcall : createCall calls spec p t with
  | error e =>
    have hsame : materialise calls spec p t = { p with errors := p.errors ++ p.notCreated t ++ [calls.failure t.id e] } := by
      simp only [materialise, hcall]
    rw [hsame]
    exact ⟨h.flowing, h.fresh, h.distinct, h.asked⟩
  | ok made =>
    obtain ⟨row, db⟩ := made
    obtain ⟨hrow, hready, htask, hlinks, _⟩ := createCall_creates hcall
    have hflows : Flowing db ∧ p.db.task? (freshId (calls.hex t.id)) = none ∧ row.status.done = false := by
      unfold createCall at hcall
      split at hcall
      · cases hcall
      · have hargs : ∀ sp ∈ (spec.args p t).parentSpecs, _ := fun sp hsp =>
          h.parent hagreed ht hsp (freshId (calls.hex t.id))
        refine ⟨createTask_flows h.flowing hcall (fun sp hsp => (hargs sp hsp).1) (fun sp hsp => (hargs sp hsp).2), ?_⟩
        obtain ⟨rfl, hid, _⟩ := createTask_ok hcall
        refine ⟨hid, ?_⟩
        cases hp : (spec.args p t).parents <;> simp [CreateArgs.row, hp, TaskStatus.done]
    obtain ⟨hflowing, hid, hopen⟩ := hflows
    have hne : ∀ i tid, p.idOf i = some tid → tid ≠ freshId (calls.hex t.id) := by
      intro i tid hi he
      obtain ⟨r, hr, _⟩ := h.fresh i tid hi
      rw [he, hid] at hr
      cases hr
    have hidOf : ∀ i tid, (materialise calls spec p t).idOf i = some tid →
        p.idOf i = some tid ∨ i = t.id ∧ tid = freshId (calls.hex t.id) := by
      intro i tid hi
      simp only [materialise, hcall] at hi
      rw [idOf_snoc, hrow, Option.or_eq_some_iff] at hi
      rcases hi with hi | ⟨_, hi⟩
      · exact Or.inl hi
      · split at hi
        · rename_i he
          cases hi
          exact Or.inr ⟨he, rfl⟩
        · cases hi
    have hdb : (materialise calls spec p t).db = db := by
      simp only [materialise, hcall]
    refine ⟨hdb ▸ hflowing, fun i tid hi => ?_, fun i j tid hi hj => ?_, fun i tid hi l hl hp => ?_⟩
    · rw [hdb, htask]
      rcases hidOf i tid hi with hold | ⟨_, rfl⟩
      · rw [if_neg (hne i tid hold)]
        exact h.fresh i tid hold
      · exact ⟨row, if_pos rfl, hopen⟩
    · rcases hidOf i tid hi with hi | ⟨rfl, he⟩ <;> rcases hidOf j tid hj with hj | ⟨rfl, he'⟩
      · exact h.distinct i j tid hi hj
      · exact absurd he' (hne i tid hi)
      · exact absurd he (hne j tid hj)
      · rfl
    · rw [hdb] at hl
      have hparent : ∀ l ∈ p.db.links.rows, l.parentId ≠ freshId (calls.hex t.id) := by
        intro l hl he
        have := h.flowing.integrity.parent l hl
        rw [he, hid] at this
        cases this
      rcases hidOf i tid hi with hold | ⟨rfl, rfl⟩
      · rcases (hlinks l).mp hl with hl | ⟨dep, hdep, pid, hpid, rfl⟩
        · exact h.asked i tid hold l hl hp
        · cases hp
          exact ⟨t, ht, dep, hdep, h.distinct _ _ _ hpid hold, rfl⟩
      · rcases (hlinks l).mp hl with hl | ⟨dep, hdep, pid, hpid, rfl⟩
        · exact absurd hp (hparent l hl)
        · exact absurd hp (hne _ _ hpid)

/-- A workflow that asks no task for two results is laid out so that the board flows on, whatever
ids are drawn and whichever calls fail. -/
theorem applyWorkflow_flows {db : Db} (hf : Flowing db) (hagreed : Agreed spec.tasks) (dryRun : Bool) :
    Flowing (applyWorkflow calls dryRun spec db).2 := by
  by_cases hvalid : validateWorkflow spec = []
  · cases dryRun with
    | true => simpa [applyWorkflow, hvalid] using hf
    | false =>
      have hstart : Laid spec.tasks ⟨db, [], []⟩ :=
        ⟨hf, fun _ _ h => (nomatch h), fun _ _ _ h => (nomatch h), fun _ _ h => (nomatch h)⟩
      have heach : ∀ p, ∀ t ∈ topologicalSort spec.tasks, Laid spec.tasks p → True →
          Laid spec.tasks (materialise calls spec p t) :=
        fun p t ht h _ => h.step hagreed ((mem_topologicalSort (validate_valid hvalid)).mp ht)
      rw [applyWorkflow_eq hvalid]
      exact (EachStep.invariant_of_mem heach hstart (EachStep.of_forall (fun _ _ => trivial) _ _)).flowing
  · simpa [applyWorkflow, hvalid] using hf

/-- On a board on which work is done in order, a workflow that asks no task for two results can
be completed. -/
theorem workflow_drains {ops : List Op} (h : EachStep Orchestration.step Orderly Db.empty ops) (hagreed : Agreed spec.tasks)
    (dryRun : Bool) :
    ∃ more, EachStep Orchestration.step (fun db op => Orderly db op ∧ Works db op)
        (applyWorkflow calls dryRun spec (exec Orchestration.step Db.empty ops)).2 more ∧
      ∀ k t, (exec Orchestration.step (applyWorkflow calls dryRun spec (exec Orchestration.step Db.empty ops)).2 more).task? k =
        some t → t.status.done = true :=
  flowing_drains (applyWorkflow_flows (EachStep.invariant (fun _ _ => flowing_step) empty_flowing h) hagreed dryRun)

theorem chain_agreed (times : Nat) : Agreed (chain times).tasks := by
  refine fun _ => ⟨some "success", fun t ht dep hdep _ c hc _ => ?_⟩
  simp only [chain, List.mem_cons, List.not_mem_nil, or_false] at ht
  rcases ht with rfl | rfl | rfl
  · cases List.mem_singleton.mp hdep
    exact hc
  · cases List.eq_of_mem_replicate hdep
    cases hc
  · cases hdep

theorem chain_drains : validateWorkflow (chain 1) = [] ∧
    ∃ more, EachStep Orchestration.step (fun db op => Orderly db op ∧ Works db op)
        (applyWorkflow quiet false (chain 1) (exec Orchestration.step Db.empty reviewed)).2 more ∧
      ∀ k t, (exec Orchestration.step (applyWorkflow quiet false (chain 1) (exec Orchestration.step Db.empty reviewed)).2
        more).task? k = some t → t.status.done = true :=
  ⟨by decide, workflow_drains reviewed_orderly (chain_agreed 1) false⟩

end Drain

end A2ARegistry.Orchestration.Workflow
