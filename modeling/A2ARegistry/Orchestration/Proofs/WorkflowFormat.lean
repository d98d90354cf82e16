import A2ARegistry.Base.Outcomes
import A2ARegistry.Orchestration.WorkflowFormat

namespace A2ARegistry.Orchestration.Workflow
open Base

section Settled

/-- A dependency with no condition in place of one that is not truthy. -/
def ReadDependency.settled (d : ReadDependency) : ReadDependency :=
  if d.condition.truthy then d else { task := d.task }

def ReadTask.settled (t : ReadTask) : ReadTask := { t with dependsOn := t.dependsOn.map ReadDependency.settled }

def ReadSpec.settled (spec : ReadSpec) : ReadSpec := { spec with tasks := spec.tasks.map ReadTask.settled }

/-- A dependency that is written as its task alone has a text for it. -/
def ReadDependency.Textual (d : ReadDependency) : Prop := d.condition.truthy = false → ∃ s, d.task = .text s

def ReadSpec.Textual (spec : ReadSpec) : Prop := ∀ t ∈ spec.tasks, ∀ d ∈ t.dependsOn, d.Textual

theorem ReadDependency.settled_toYaml (d : ReadDependency) : d.settled.toYaml = d.toYaml := by
  unfold settled
  split
  · rfl
  · rename_i hcondition
    rw [toYaml, toYaml, if_neg hcondition]
    rfl

theorem ReadTask.settled_toYaml (t : ReadTask) : t.settled.toYaml = t.toYaml := by
  have hdeps : t.settled.dependsOn.map ReadDependency.toYaml = t.dependsOn.map ReadDependency.toYaml := by
    rw [settled, List.map_map]
    exact List.map_congr_left fun d _ => d.settled_toYaml
  rw [toYaml, toYaml, hdeps]
  rfl

/-- It is written as before. -/
theorem ReadSpec.settled_toDict (spec : ReadSpec) : spec.settled.toDict = spec.toDict := by
  have htasks : spec.settled.tasks.map ReadTask.toYaml = spec.tasks.map ReadTask.toYaml := by
    rw [settled, List.map_map]
    exact List.map_congr_left fun t _ => t.settled_toYaml
  rw [toDict, toDict, fields, fields, htasks]
  rfl

end Settled

section Sound

/-- What `strip()` yielded is read back as itself. -/
def Stripped.Settled (n : Stripped) : Prop := stripped n.value = .ok n ∧ n.isEmpty = false

structure ReadTask.Sound (t : ReadTask) : Prop where
  id : t.id.Settled
  title : t.title.Settled
  dependsOn : ∀ d ∈ t.dependsOn, d.condition.truthy = true → d.task.Settled

/-- What holds of every spec that was read. -/
structure ReadSpec.Sound (spec : ReadSpec) : Prop where
  name : spec.name.Settled
  nonempty : spec.tasks ≠ []
  tasks : ∀ t ∈ spec.tasks, t.Sound

theorem stripped_settled {v : Yaml} {n : Stripped} (h : stripped v = .ok n) (hne : n.isEmpty = false) : n.Settled := by
  refine ⟨?_, hne⟩
  unfold stripped at h
  split at h
  · split at h
    · rename_i s _
      cases h
      have htruthy : (Yaml.str (strip s)).truthy = true := by simpa [Stripped.isEmpty, Yaml.truthy] using hne
      rw [Stripped.value, stripped, if_pos htruthy, strip_strip]
    · rename_i b _
      cases h
      have htruthy : (Yaml.bytes (stripBytes b)).truthy = true := by simpa [Stripped.isEmpty, Yaml.truthy] using hne
      rw [Stripped.value, stripped, if_pos htruthy, stripBytes_strip]
    · cases h
  · cases h
    cases hne

/-- Everything a loop returns was read from an item. -/
theorem readEach_mem {α : Type} {read : Nat → Yaml → Except ReadError α} {items : List Yaml} {i : Nat} {values : List α}
    (h : readEach read i items = .ok values) : ∀ a ∈ values, ∃ j, ∃ item ∈ items, read j item = .ok a := by
  induction items generalizing i values with
  | nil =>
    cases h
    exact fun a ha => absurd ha List.not_mem_nil
  | cons item items ih =>
    obtain ⟨first, hfirst, h⟩ := Returns.bind_ok_iff.mp h
    obtain ⟨rest, hrest, h⟩ := Returns.bind_ok_iff.mp h
    cases h
    intro a ha
    rcases List.mem_cons.mp ha with rfl | ha
    · exact ⟨i, item, List.mem_cons_self, hfirst⟩
    · obtain ⟨j, item', hitem, hread⟩ := ih hrest a ha
      exact ⟨j, item', List.mem_cons_of_mem _ hitem, hread⟩

/-- A loop that returns has read every item. -/
theorem readEach_returns {α : Type} {read : Nat → Yaml → Except ReadError α} {items : List Yaml} {i : Nat}
    (h : Returns (readEach read i items)) : ∀ item ∈ items, ∃ j, Returns (read j item) := by
  obtain ⟨values, h⟩ := h
  induction items generalizing i values with
  | nil => exact fun item hitem => absurd hitem List.not_mem_nil
  | cons first items ih =>
    obtain ⟨a, hfirst, h⟩ := Returns.bind_ok_iff.mp h
    obtain ⟨rest, hrest, _⟩ := Returns.bind_ok_iff.mp h
    intro item hitem
    rcases List.mem_cons.mp hitem with rfl | hitem
    · exact ⟨i, a, hfirst⟩
    · exact ih rest hrest item hitem

/-- A loop over what was written returns what each item is read as, at whatever index. -/
theorem readEach_map {α : Type} {read : Nat → Yaml → Except ReadError α} {write : α → Yaml} {settle : α → α}
    {values : List α} (h : ∀ a ∈ values, ∀ j, read j (write a) = .ok (settle a)) (i : Nat) :
    readEach read i (values.map write) = .ok (values.map settle) := by
  induction values generalizing i with
  | nil => rfl
  | cons a values ih =>
    obtain ⟨ha, hrest⟩ := List.forall_mem_cons.mp h
    rw [List.map_cons, readEach, ha, ih hrest]
    rfl

theorem readDependency_sound {taskId : Stripped} {j : Nat} {item : Yaml} {d : ReadDependency}
    (h : readDependency taskId j item = .ok d) (hcondition : d.condition.truthy = true) : d.task.Settled := by
  unfold readDependency at h
  split at h
  · cases h
    cases hcondition
  · obtain ⟨depTask, hstripped, h⟩ := Returns.bind_ok_iff.mp h
    split at h
    · cases h
    · rename_i hne
      cases h
      exact stripped_settled hstripped (Bool.eq_false_iff.mpr hne)
  · cases h

theorem readDependsOn_sound {taskId : Stripped} {raw : Yaml} {deps : List ReadDependency}
    (h : readDependsOn taskId raw = .ok deps) : ∀ d ∈ deps, d.condition.truthy = true → d.task.Settled := by
  unfold readDependsOn at h
  split at h
  · split at h
    · intro d hd
      obtain ⟨j, item, _, hread⟩ := readEach_mem h d hd
      exact readDependency_sound hread
    · cases h
  · cases h
    exact fun d hd => absurd hd List.not_mem_nil

theorem readTask_sound {i : Nat} {item : Yaml} {t : ReadTask} (h : readTask i item = .ok t) : t.Sound := by
  unfold readTask at h
  split at h
  · obtain ⟨taskId, hid, h⟩ := Returns.bind_ok_iff.mp h
    split at h
    · cases h
    · rename_i hidne
      obtain ⟨title, htitle, h⟩ := Returns.bind_ok_iff.mp h
      split at h
      · cases h
      · rename_i htitlene
        obtain ⟨deps, hdeps, h⟩ := Returns.bind_ok_iff.mp h
        cases h
        exact ⟨stripped_settled hid (Bool.eq_false_iff.mpr hidne),
          stripped_settled htitle (Bool.eq_false_iff.mpr htitlene), readDependsOn_sound hdeps⟩
  · cases h

theorem readTasks_sound {raw : Yaml} {tasks : List ReadTask} (h : readTasks raw = .ok tasks) :
    tasks ≠ [] ∧ ∀ t ∈ tasks, t.Sound := by
  unfold readTasks at h
  split at h
  · refine ⟨?_, fun t ht => ?_⟩
    · obtain ⟨first, _, h⟩ := Returns.bind_ok_iff.mp h
      obtain ⟨rest, _, h⟩ := Returns.bind_ok_iff.mp h
      cases h
      exact List.cons_ne_nil _ _
    · obtain ⟨j, item, _, hread⟩ := readEach_mem h t ht
      exact readTask_sound hread
  · cases h

theorem fromDict_sound {data : Yaml} {spec : ReadSpec} (h : fromDict data = .ok spec) : spec.Sound := by
  unfold fromDict at h
  split at h
  · unfold readFields at h
    obtain ⟨name, hname, h⟩ := Returns.bind_ok_iff.mp h
    split at h
    · cases h
    · rename_i hne
      obtain ⟨tasks, htasks, h⟩ := Returns.bind_ok_iff.mp h
      cases h
      obtain ⟨hnonempty, hsound⟩ := readTasks_sound htasks
      exact ⟨stripped_settled hname (Bool.eq_false_iff.mpr hne), hnonempty, hsound⟩
  · cases h

end Sound

section RoundTrip

/-- A dependency that was written is read as itself, if it may be written so. -/
theorem readDependency_toYaml {d : ReadDependency} (hsound : d.condition.truthy = true → d.task.Settled)
    (htextual : d.Textual) (taskId : Stripped) (j : Nat) : readDependency taskId j d.toYaml = .ok d.settled := by
  unfold ReadDependency.toYaml ReadDependency.settled
  cases hcondition : d.condition.truthy with
  | true =>
    obtain ⟨hread, hne⟩ := hsound hcondition
    simp [readDependency, hread, hne, ok_bind]
  | false =>
    obtain ⟨s, hs⟩ := htextual hcondition
    simp [hs, Stripped.value, readDependency]

/-- One that is written as bytes is not read. -/
theorem textual_of_returns {d : ReadDependency} {taskId : Stripped} {j : Nat}
    (h : Returns (readDependency taskId j d.toYaml)) : d.Textual := by
  intro hcondition
  rw [ReadDependency.toYaml, if_neg (by simp [hcondition])] at h
  cases htask : d.task with
  | text s => exact ⟨s, rfl⟩
  | bytes b =>
    rw [htask] at h
    exact absurd h (Returns.error _)

theorem readDependsOn_seq (taskId : Stripped) (items : List Yaml) :
    readDependsOn taskId (.seq items) = readEach (readDependency taskId) 0 items := by
  cases items with
  | nil => rfl
  | cons item items => rfl

/-- The dependencies of a task that was written are all that its reading can fail on. -/
theorem readTask_toYaml {t : ReadTask} (h : t.Sound) (i : Nat) :
    readTask i t.toYaml = (readEach (readDependency t.id) 0 (t.dependsOn.map ReadDependency.toYaml)).map
      (fun deps => { t with dependsOn := deps }) := by
  simp only [readTask, ReadTask.toYaml, Yaml.get_record_self, Yaml.get_record_ne, ne_eq, String.reduceEq,
    not_false_eq_true, h.id.1, h.id.2, h.title.1, h.title.2, ok_bind, Bool.false_eq_true, if_false, readDependsOn_seq]
  cases readEach (readDependency t.id) 0 (t.dependsOn.map ReadDependency.toYaml) <;> rfl

/-- The tasks of a spec that was written are all that its reading can fail on. -/
theorem fromDict_written {spec : ReadSpec} (h : spec.Sound) :
    fromDict spec.toDict = (readEach readTask 0 (spec.tasks.map ReadTask.toYaml)).map
      (fun tasks => { spec with tasks := tasks }) := by
  obtain ⟨first, rest, htasks⟩ := List.exists_cons_of_ne_nil h.nonempty
  have hread : readTasks (.seq (spec.tasks.map ReadTask.toYaml)) =
      readEach readTask 0 (spec.tasks.map ReadTask.toYaml) := by
    rw [htasks]
    rfl
  have hfields : fromDict spec.toDict = readFields (Yaml.record spec.fields) := rfl
  rw [hfields]
  simp only [readFields, ReadSpec.fields, Yaml.get_record_self, Yaml.get_record_ne, ne_eq, String.reduceEq,
    not_false_eq_true, h.name.1, h.name.2, ok_bind, Bool.false_eq_true, if_false, hread]
  cases readEach readTask 0 (spec.tasks.map ReadTask.toYaml) <;> rfl

/-- A task is read as itself. -/
theorem readTask_settled {t : ReadTask} (h : t.Sound) (htextual : ∀ d ∈ t.dependsOn, d.Textual) (i : Nat) :
    readTask i t.toYaml = .ok t.settled := by
  have hdeps := readEach_map (fun d hd j => readDependency_toYaml (h.dependsOn d hd) (htextual d hd) t.id j) 0
  rw [readTask_toYaml h, hdeps]
  rfl

theorem task_textual {t : ReadTask} (h : t.Sound) {i : Nat} (hread : Returns (readTask i t.toYaml)) :
    ∀ d ∈ t.dependsOn, d.Textual := by
  rw [readTask_toYaml h, Returns.map_iff] at hread
  intro d hd
  obtain ⟨j, hone⟩ := readEach_returns hread d.toYaml (List.mem_map_of_mem hd)
  exact textual_of_returns hone

/-- A spec that was read is written and read again as itself exactly when each of its dependencies that is written as
its task alone has a text for it, and it is then written as before. -/
theorem read_again_iff {data : Yaml} {spec : ReadSpec} (h : fromDict data = .ok spec) :
    (Returns (fromDict spec.toDict) ↔ spec.Textual) ∧
      ∀ again, fromDict spec.toDict = .ok again → again = spec.settled ∧ again.toDict = spec.toDict := by
  have hsound := fromDict_sound h
  have hread : spec.Textual → fromDict spec.toDict = .ok spec.settled := by
    intro htextual
    have htasks := readEach_map (fun t ht i => readTask_settled (hsound.tasks t ht) (htextual t ht) i) 0
    rw [fromDict_written hsound, htasks]
    rfl
  have htextual : Returns (fromDict spec.toDict) → spec.Textual := by
    intro hagain t ht
    rw [fromDict_written hsound, Returns.map_iff] at hagain
    obtain ⟨i, hone⟩ := readEach_returns hagain t.toYaml (List.mem_map_of_mem ht)
    exact task_textual (hsound.tasks t ht) hone
  refine ⟨⟨htextual, fun ht => ⟨_, hread ht⟩⟩, fun again hagain => ?_⟩
  have hsettled : again = spec.settled := by
    have hboth := hagain.symm.trans (hread (htextual ⟨again, hagain⟩))
    injection hboth
  exact ⟨hsettled, hsettled ▸ spec.settled_toDict⟩

end RoundTrip

/-- A workflow of two tasks, the second of which depends on the first on the condition that is given. -/
def sampleWorkflow (task condition : Yaml) : Yaml :=
  .map (Yaml.record [("name", .str "flow"), ("tasks", .seq [
    .map (Yaml.record [("id", .str " first "), ("title", .str "First")]),
    .map (Yaml.record [("id", .str "second"), ("title", .str "Second"), ("priority", .int 5),
      ("depends_on", .seq [.map (Yaml.record [("task", task), ("condition", condition)])])])])])

/-- What it is read as. -/
def sampleSpec (task : Stripped) (condition : Yaml) : ReadSpec where
  name := .text "flow"
  tasks := [{ id := .text "first", title := .text "First" },
    { id := .text "second", title := .text "Second", priority := .int 5
      dependsOn := [{ task := task, condition := condition }] }]

/-- An empty condition is left out. -/
theorem empty_condition_settled : Returns (fromDict (sampleSpec (.text "first") (.str "")).toDict) ∧
    ∀ again, fromDict (sampleSpec (.text "first") (.str "")).toDict = .ok again →
      again = (sampleSpec (.text "first") (.str "")).settled ∧
        again.toDict = (sampleSpec (.text "first") (.str "")).toDict := by
  have hread : fromDict (sampleWorkflow (.str "first") (.str "")) = .ok (sampleSpec (.text "first") (.str "")) := rfl
  have hagain := read_again_iff hread
  have htextual : (sampleSpec (.text "first") (.str "")).Textual := by
    simp [ReadSpec.Textual, ReadDependency.Textual, sampleSpec]
  exact ⟨hagain.1.mpr htextual, hagain.2⟩

/-- A task that is named by bytes is read, and is not read again once it is written. -/
theorem bytes_unread :
    fromDict (sampleWorkflow (.bytes [0x66]) .null) = .ok (sampleSpec (.bytes [0x66]) .null) ∧
      fromDict (sampleSpec (.bytes [0x66]) .null).toDict =
        .error (.valueError "Task 'second' depends_on[0] must be a string or mapping, got bytes") :=
  ⟨rfl, rfl⟩

end A2ARegistry.Orchestration.Workflow
