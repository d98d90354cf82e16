import A2ARegistry.Base.CyclePaths
import A2ARegistry.Orchestration.Proofs.WorkflowTasks

namespace A2ARegistry.Orchestration.Workflow
open Base

section Graph

variable {tasks : List WorkflowTaskSpec} {v d : String}

/-- A task with id `v` names `d` among its dependencies. -/
def DependsOn (tasks : List WorkflowTaskSpec) (v d : String) : Prop := ∃ t ∈ tasks, t.id = v ∧ d ∈ t.parentIds

/-- Every dependency names a declared task. -/
def Closed (tasks : List WorkflowTaskSpec) : Prop := ∀ t ∈ tasks, ∀ dep ∈ t.dependsOn, ∃ p ∈ tasks, p.id = dep.task

/-- Of several tasks with one id the search follows the last. -/
theorem depends_dependsOn (h : Topology.Depends (declared tasks) v d) : DependsOn tasks v d := by
  unfold Topology.Depends Topology.deps Topology.lookup at h
  cases hfind : (declared tasks).reverse.find? (fun r => r.1 == v) with
  | none => simp [hfind] at h
  | some r =>
    rw [hfind] at h
    have hkey : r.1 = v := by simpa using List.find?_some hfind
    obtain ⟨t, ht, rfl⟩ := List.mem_map.mp (List.mem_reverse.mp (List.mem_of_find?_eq_some hfind))
    exact ⟨t, ht, hkey, h⟩

theorem depends_iff (hwf : Topology.WellFormed (declared tasks)) :
    Topology.Depends (declared tasks) v d ↔ DependsOn tasks v d := by
  refine ⟨depends_dependsOn, fun h => ?_⟩
  obtain ⟨t, ht, rfl, hd⟩ := h
  have hrow : (t.id, t.parentIds) ∈ declared tasks := List.mem_map.mpr ⟨t, ht, rfl⟩
  rw [Topology.Depends, Topology.deps_mem hwf.nodup hrow]
  exact hd

theorem acyclic_iff (hwf : Topology.WellFormed (declared tasks)) :
    Topology.cycles (declared tasks) = [] ↔ Topology.Acyclic (DependsOn tasks) := by
  have hsame : Topology.Depends (declared tasks) = DependsOn tasks := by
    funext v d
    exact propext (depends_iff hwf)
  rw [Topology.cycles_nil_iff hwf, hsame]

end Graph

section Checks

variable {spec : WorkflowSpec} {tasks : List WorkflowTaskSpec}

theorem duplicateIds_nil_iff {seen : List String} :
    duplicateIds seen tasks = [] ↔ (tasks.map WorkflowTaskSpec.id).Nodup ∧ ∀ t ∈ tasks, t.id ∉ seen := by
  refine ⟨duplicateIds_nil, fun h => ?_⟩
  induction tasks generalizing seen with
  | nil => rfl
  | cons t tasks ih =>
    obtain ⟨hnodup, hseen⟩ := h
    obtain ⟨hfresh, hnodup⟩ := List.nodup_cons.mp hnodup
    rw [duplicateIds, if_neg (hseen t List.mem_cons_self), List.nil_append]
    refine ih ⟨hnodup, fun u hu hin => ?_⟩
    rcases List.mem_cons.mp hin with hid | hin
    · exact hfresh (hid ▸ List.mem_map_of_mem hu)
    · exact hseen u (List.mem_cons_of_mem _ hu) hin

theorem idMap_none {id : String} : idMap tasks id = none ↔ ∀ t ∈ tasks, t.id ≠ id := by
  simp [idMap, List.find?_eq_none]

theorem danglingRefs_nil_iff : danglingRefs tasks = [] ↔ Closed tasks := by
  unfold danglingRefs Closed
  rw [List.flatMap_eq_nil_iff]
  refine forall_congr' fun t => forall_congr' fun _ => ?_
  rw [List.map_eq_nil_iff, List.filter_eq_nil_iff]
  refine forall_congr' fun dep => forall_congr' fun _ => ?_
  rw [Option.isNone_iff_eq_none, idMap_none]
  simp

/-- A message with which a cycle is reported. -/
def ReportsCycle (message : String) : Prop := "Circular dependency detected: ".toList <+: message.toList

/-- The text of a closed walk along the dependencies. -/
def IsCycleText (tasks : List WorkflowTaskSpec) (message : String) : Prop :=
  ∃ path, Topology.ClosedWalk (DependsOn tasks) path ∧
    message = "Circular dependency detected: " ++ " → ".intercalate path

theorem ReportsCycle.head {message : String} (h : ReportsCycle message) : message.toList.head? = some 'C' := by
  obtain ⟨rest, hrest⟩ := h
  rw [← hrest]
  rfl

theorem duplicateIds_head {seen : List String} {message : String} (h : message ∈ duplicateIds seen tasks) :
    message.toList.head? = some 'D' := by
  induction tasks generalizing seen with
  | nil => cases h
  | cons t tasks ih =>
    rcases List.mem_append.mp h with hfirst | hrest
    · split at hfirst
      · rw [List.mem_singleton.mp hfirst]
        simp only [String.toList_append]
        rfl
      · cases hfirst
    · exact ih hrest

theorem danglingRefs_head {message : String} (h : message ∈ danglingRefs tasks) :
    message.toList.head? = some 'T' := by
  obtain ⟨t, _, hmessage⟩ := List.mem_flatMap.mp h
  obtain ⟨dep, _, rfl⟩ := List.mem_map.mp hmessage
  simp only [String.toList_append]
  rfl

theorem cycle_text {message : String} (h : message ∈ detectWorkflowCycles tasks) : IsCycleText tasks message := by
  obtain ⟨path, hpath, rfl⟩ := List.mem_map.mp h
  exact ⟨path, (Topology.cycles_closed _ path hpath).mono fun v d hvd => depends_dependsOn hvd, rfl⟩

/-- The other checks report no cycle, so what reports one comes from the search. -/
theorem mem_detected {spec : WorkflowSpec} {message : String} (h : message ∈ validateWorkflow spec)
    (hcycle : ReportsCycle message) : message ∈ detectWorkflowCycles spec.tasks := by
  have hhead := hcycle.head
  have hother : ∀ errors : List String, (∀ m ∈ errors, m.toList.head? ≠ some 'C') → message ∉ errors :=
    fun errors herrors hmem => herrors message hmem hhead
  have hname : ∀ m ∈ (if spec.name = "" then ["Workflow name is required"] else []), m.toList.head? ≠ some 'C' := by
    intro m hm
    split at hm
    · rw [List.mem_singleton.mp hm]
      decide
    · cases hm
  unfold validateWorkflow at h
  dsimp only at h
  generalize (if spec.name = "" then ["Workflow name is required"] else []) = errors at h hname
  split at h
  · refine absurd h (hother _ fun m hm => ?_)
    rcases List.mem_append.mp hm with hm | hm
    · exact hname m hm
    · rw [List.mem_singleton.mp hm]
      decide
  · split at h
    · exact h
    · refine absurd h (hother _ fun m hm => ?_)
      rcases List.mem_append.mp hm with hm | hm
      · rcases List.mem_append.mp hm with hm | hm
        · exact hname m hm
        · rw [duplicateIds_head hm]
          decide
      · rw [danglingRefs_head hm]
        decide

/-- A workflow is accepted if and only if it has a name and tasks, their ids are unique, every dependency names one of
them and none depends on itself through others, and every cycle that is reported, also among tasks that share an id or
name unknown ones, is a closed walk along the dependencies, which the message shows. -/
theorem validation_exact (spec : WorkflowSpec) :
    (validateWorkflow spec = [] ↔ spec.name ≠ "" ∧ spec.tasks ≠ [] ∧ (spec.tasks.map WorkflowTaskSpec.id).Nodup ∧
      Closed spec.tasks ∧ Topology.Acyclic (DependsOn spec.tasks)) ∧
    (∀ path ∈ Topology.cycles (declared spec.tasks), Topology.ClosedWalk (DependsOn spec.tasks) path) ∧
    (∀ message ∈ detectWorkflowCycles spec.tasks, IsCycleText spec.tasks message) ∧
    ∀ message ∈ validateWorkflow spec, ReportsCycle message → IsCycleText spec.tasks message := by
  refine ⟨⟨fun h => ?_, fun h => ?_⟩, fun path hpath => ?_, fun message => cycle_text,
    fun message hmessage hcycle => cycle_text (mem_detected hmessage hcycle)⟩
  · have hvalid := validate_valid h
    refine ⟨fun hname => ?_, fun htasks => ?_, hvalid.nodup, hvalid.closed,
      (acyclic_iff hvalid.wellFormed).mp hvalid.acyclic⟩
    · unfold validateWorkflow at h
      rw [if_pos hname] at h
      dsimp only at h
      split at h
      · cases h
      · simp at h
    · unfold validateWorkflow at h
      rw [htasks] at h
      simp at h
  · obtain ⟨hname, htasks, hnodup, hclosed, hacyclic⟩ := h
    have hwf := wellFormed_of_closed hnodup hclosed
    have hduplicates : duplicateIds [] spec.tasks = [] := duplicateIds_nil_iff.mpr ⟨hnodup, by simp⟩
    have hcycles : detectWorkflowCycles spec.tasks = [] := List.map_eq_nil_iff.mpr ((acyclic_iff hwf).mpr hacyclic)
    unfold validateWorkflow
    rw [if_neg hname, if_neg htasks, hduplicates, danglingRefs_nil_iff.mpr hclosed]
    exact hcycles
  · exact (Topology.cycles_closed _ path hpath).mono fun v d hvd => depends_dependsOn hvd

end Checks

section Sorting

/-- The loop over the tasks of an accepted workflow comes to the end of its queue, and what it has sorted by then are the
declared tasks, each behind all that it depends on. -/
theorem topologicalSort_ordered (spec : WorkflowSpec) (h : validateWorkflow spec = []) :
    (∃ degree, (Topology.Kahn.iteration (declared spec.tasks))^[spec.tasks.length]
      (Topology.Kahn.start (declared spec.tasks)) =
        (⟨degree, []⟩, (topologicalSort spec.tasks).map WorkflowTaskSpec.id)) ∧
    (topologicalSort spec.tasks).Perm spec.tasks ∧
    ∀ front t back, topologicalSort spec.tasks = front ++ t :: back → ∀ dep ∈ t.dependsOn, ∃ p ∈ front, p.id = dep.task := by
  have hvalid := validate_valid h
  obtain ⟨degree, hend, _⟩ := Topology.sort_terminates hvalid.wellFormed hvalid.acyclic
  have hlen : (declared spec.tasks).length = spec.tasks.length := by rw [declared, List.length_map]
  rw [hlen, ← topologicalSort_ids hvalid] at hend
  have hids : ((topologicalSort spec.tasks).map WorkflowTaskSpec.id).Nodup :=
    (topologicalSort_perm hvalid).nodup_iff.mpr hvalid.nodup
  refine ⟨⟨degree, hend⟩, ?_, fun front t back he dep hdep => ?_⟩
  · apply (List.perm_ext_iff_of_nodup hids.of_map hvalid.nodup.of_map).mpr
    exact fun t => mem_topologicalSort hvalid
  · exact List.mem_map.mp (parents_before hvalid he dep.task (List.mem_map_of_mem hdep))

/-- A task that names its parent twice is sorted as well. -/
theorem chain_sorted : (topologicalSort (chain 2).tasks).Perm (chain 2).tasks :=
  (topologicalSort_ordered (chain 2) (by decide)).2.1

end Sorting

end A2ARegistry.Orchestration.Workflow
