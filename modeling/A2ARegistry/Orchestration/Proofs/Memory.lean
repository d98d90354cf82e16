import A2ARegistry.Base.RoundTrip
import A2ARegistry.Orchestration.Memory

namespace A2ARegistry.Orchestration.Memory
open Base

/-- What a set writes of a row. The id and the time of creation are those of the insert. -/
structure Written where
  value : String
  ttl : Int
  updatedAt : Rat

def MemoryRecord.entry (r : MemoryRecord) : Timed.Entry Written Rat := ⟨⟨r.value, r.ttl, r.updatedAt⟩, r.expiresAt⟩

theorem MemoryRecord.entry_alive (r : MemoryRecord) (now : Rat) : r.entry.alive now = r.alive now := rfl

namespace AgentMemoryStore

def SetCall.entry (call : SetCall) : Timed.Entry Written Rat :=
  ⟨⟨Json.dumpsPlain call.value, call.ttl, call.now⟩, call.expiresAt⟩

/-- The timed map a store stands for. -/
def contents (m : AgentMemoryStore) : Timed.TimedMap Slot Written Rat :=
  fun slot => (m.rows.find? slot).map MemoryRecord.entry

/-- What a call is to the map. A set whose ttl does not fit its column raises, and is nothing to it. -/
def Op.event : Op → Option (Timed.Event Slot Written Rat)
  | .set call => if fitsInteger call.ttl then some (.put call.slot call.entry) else none
  | .get .. => none
  | .delete _ key agentId nspace => some (.erase (agentId, key, nspace))
  | .purgeExpired now => some (.purge now)

variable {m : AgentMemoryStore}

theorem get_look (now : Rat) (key agentId nspace : String) :
    (m.get now key agentId nspace).map MemoryRecord.entry = Timed.look m.contents now (agentId, key, nspace) := by
  rw [get, Timed.look, contents]
  cases hrow : m.rows.find? (agentId, key, nspace) with
  | none => rfl
  | some r => cases halive : r.alive now <;> simp [Option.filter, halive, MemoryRecord.entry_alive]

section Steps

theorem write_overflow {call : SetCall} (h : fitsInteger call.ttl = false) : m.write call = .error .overflowError := by
  rw [write, h]
  rfl

/-- A set that is in range goes through, and leaves its entry under its slot. -/
theorem write_contents {call : SetCall} (h : fitsInteger call.ttl = true) :
    ∃ m', m.write call = .ok m' ∧ m'.contents = Function.update m.contents call.slot (some call.entry) := by
  have hkey : ∀ id, key (call.row id) = call.slot := fun _ => rfl
  cases hrow : m.rows.find? call.slot with
  | some r =>
    refine ⟨{ m with rows := m.rows.modify (fun r => key r == call.slot) call.update call.key_update }, ?_, ?_⟩
    · simp [write, h, hrow]
    · funext slot
      rw [contents, Table.find_modify, Function.update_apply]
      split
      · rename_i hslot
        have hr : key r = call.slot := Table.find_key hrow
        rw [hslot, hrow]
        simp only [Option.map_some, hr, beq_self_eq_true, if_true]
        rfl
      · rename_i hslot
        rw [contents]
        cases hother : m.rows.find? slot with
        | none => rfl
        | some x =>
          have hx : ¬ key x = call.slot := fun he => hslot ((Table.find_key hother).symm.trans he)
          simp only [Option.map_some, beq_iff_eq, hx, if_false]
  | none =>
    obtain ⟨rows, hrows⟩ := Option.isSome_iff_exists.mp
      (Table.insert_isSome.mpr ((congrArg m.rows.find? (hkey m.nextId)).trans hrow))
    refine ⟨⟨rows, m.nextId + 1⟩, ?_, ?_⟩
    · simp [write, h, hrow, hrows]
    · funext slot
      rw [contents, Table.find_insert hrows, hkey, Function.update_apply]
      split
      · rfl
      · rw [contents]

theorem delete_contents (key agentId nspace : String) :
    (m.delete key agentId nspace).2.contents = Function.update m.contents (agentId, key, nspace) none := by
  funext slot
  rw [contents, delete, Table.find_delete, Function.update_apply]
  split
  · rename_i hslot
    cases hrow : m.rows.find? slot with
    | none => rfl
    | some r =>
      have hr := Table.find_key hrow
      simp [Option.filter, hr, hslot]
  · rename_i hslot
    rw [contents]
    cases hrow : m.rows.find? slot with
    | none => rfl
    | some r =>
      have hr : (Base.key r == (agentId, key, nspace)) = false :=
        beq_eq_false_iff_ne.mpr fun he => hslot ((Table.find_key hrow).symm.trans he)
      simp only [Option.filter, hr, Bool.not_false, if_true]

theorem purge_contents (now : Rat) :
    (m.purgeExpired now).2.contents = fun slot => (m.contents slot).filter (Timed.Entry.alive now) := by
  funext slot
  rw [contents, purgeExpired, Table.find_delete, contents]
  cases hrow : m.rows.find? slot with
  | none => rfl
  | some r => cases halive : r.alive now <;> simp [Option.filter, halive, MemoryRecord.entry_alive]

/-- A call of the store is an event of the map, or nothing to it. -/
theorem step_contents (m : AgentMemoryStore) (op : Op) :
    (m.step op).contents = (op.event.map (Timed.step m.contents)).getD m.contents := by
  cases op with
  | set call =>
    cases hfits : fitsInteger call.ttl with
    | true =>
      obtain ⟨m', hwrite, hcontents⟩ := write_contents (m := m) hfits
      simp [step, set, hwrite, Except.map, hcontents, Op.event, hfits, Timed.step]
    | false => simp [step, set, write_overflow hfits, Except.map, Op.event, hfits]
  | get now key agentId nspace => rfl
  | delete now key agentId nspace => exact delete_contents key agentId nspace
  | purgeExpired now => exact purge_contents now

theorem exec_contents (m : AgentMemoryStore) (ops : List Op) :
    (exec step m ops).contents = exec Timed.step m.contents (ops.filterMap Op.event) := by
  induction ops generalizing m with
  | nil => rfl
  | cons op ops ih =>
    rw [exec_cons, ih, step_contents]
    cases hevent : op.event with
    | none => rw [List.filterMap_cons_none hevent, Option.map_none, Option.getD_none]
    | some event => rw [List.filterMap_cons_some hevent, Option.map_some, Option.getD_some, exec_cons]

end Steps

section History

/-- A call writes a slot: a set that does not raise, or a delete. -/
def Op.Writes (slot : Slot) : Op → Prop
  | .set call => call.slot = slot ∧ fitsInteger call.ttl = true
  | .delete _ key agentId nspace => (agentId, key, nspace) = slot
  | _ => False

/-- The set of a slot that is the last to have gone through, and that was not deleted since. -/
def LastSet (ops : List Op) (slot : Slot) (call : SetCall) : Prop :=
  ∃ before after, ops = before ++ .set call :: after ∧ call.slot = slot ∧ fitsInteger call.ttl = true ∧
    ∀ op ∈ after, ¬ op.Writes slot

theorem event_writes {op : Op} {slot : Slot} :
    op.Writes slot ↔ ∃ event, op.event = some event ∧ event.Writes slot := by
  cases op with
  | set call => by_cases h : fitsInteger call.ttl = true <;> simp [Op.Writes, Op.event, h, Timed.Event.Writes]
  | get => simp [Op.Writes, Op.event]
  | delete => simp [Op.Writes, Op.event, Timed.Event.Writes]
  | purgeExpired => simp [Op.Writes, Op.event, Timed.Event.Writes]

theorem event_put {op : Op} {slot : Slot} {e : Timed.Entry Written Rat} (h : op.event = some (.put slot e)) :
    ∃ call, op = .set call ∧ call.slot = slot ∧ fitsInteger call.ttl = true ∧ call.entry = e := by
  cases op with
  | set call =>
    simp only [Op.event] at h
    split at h
    · rename_i hfits
      cases h
      exact ⟨call, rfl, rfl, hfits, rfl⟩
    · cases h
  | get => cases h
  | delete => cases h
  | purgeExpired => cases h

/-- What the map's last put is, is the last set. -/
theorem lastPut_iff {ops : List Op} {slot : Slot} {e : Timed.Entry Written Rat} :
    Timed.LastPut (ops.filterMap Op.event) slot e ↔ ∃ call, LastSet ops slot call ∧ call.entry = e := by
  constructor
  · intro ⟨before, after, hsplit, hafter⟩
    obtain ⟨opsBefore, opsRest, rfl, -, hrest⟩ := List.filterMap_eq_append_iff.mp hsplit
    obtain ⟨skipped, op, opsAfter, rfl, -, hevent, rfl⟩ := List.filterMap_eq_cons_iff.mp hrest
    obtain ⟨call, rfl, hslot, hfits, hentry⟩ := event_put hevent
    refine ⟨call, ⟨opsBefore ++ skipped, opsAfter, by simp, hslot, hfits, fun op hop hwrites => ?_⟩, hentry⟩
    obtain ⟨event, hev, hw⟩ := event_writes.mp hwrites
    exact hafter event (List.mem_filterMap.mpr ⟨op, hop, hev⟩) hw
  · intro ⟨call, ⟨before, after, hops, hslot, hfits, hafter⟩, hentry⟩
    subst hops hslot hentry
    refine ⟨before.filterMap Op.event, after.filterMap Op.event, ?_, fun event hevent hwrites => ?_⟩
    · simp [Op.event, hfits]
    · obtain ⟨op, hop, hev⟩ := List.mem_filterMap.mp hevent
      exact hafter op hop (event_writes.mpr ⟨event, hev, hwrites⟩)

/-- The clock does not go back, from the readings of the calls to a later one. -/
def ClockUpTo (ops : List Op) (now : Rat) : Prop := (ops.flatMap Op.readings ++ [now]).Pairwise (· ≤ ·)

theorem ClockUpTo.noLater {ops : List Op} {now : Rat} (h : ClockUpTo ops now) :
    ∀ event ∈ ops.filterMap Op.event, event.NoLater now := by
  intro event hevent
  obtain ⟨op, hop, hev⟩ := List.mem_filterMap.mp hevent
  have hbound : ∀ t ∈ op.readings, t ≤ now := fun t ht =>
    (List.pairwise_append.mp h).2.2 t (List.mem_flatMap.mpr ⟨op, hop, ht⟩) now (List.mem_singleton_self now)
  cases op with
  | set call =>
    simp only [Op.event] at hev
    split at hev
    · cases hev
      trivial
    · cases hev
  | get => cases hev
  | delete =>
    cases hev
    trivial
  | purgeExpired t =>
    cases hev
    exact hbound t (List.mem_singleton_self t)

/-- The entry of a set is there as long as its ttl, which is forever when the ttl is not positive. -/
theorem entry_alive {call : SetCall} {now : Rat} :
    call.entry.alive now = true ↔ call.ttl ≤ 0 ∨ now < call.now + call.ttl := by
  by_cases httl : 0 < call.ttl
  · simp [SetCall.entry, SetCall.expiresAt, Timed.Entry.alive, httl, not_le.mpr httl]
  · simp [SetCall.entry, SetCall.expiresAt, Timed.Entry.alive, httl, not_lt.mp httl]

/-- What a get finds is what the last set wrote, while its ttl lasts. -/
theorem get_entry {ops : List Op} {now : Rat} (hclock : ClockUpTo ops now) (key agentId nspace : String)
    (e : Timed.Entry Written Rat) :
    ((exec step empty ops).get now key agentId nspace).map MemoryRecord.entry = some e ↔
      ∃ call, LastSet ops (agentId, key, nspace) call ∧ (call.ttl ≤ 0 ∨ now < call.now + call.ttl) ∧
        call.entry = e := by
  have hempty : empty.contents = fun _ => none := rfl
  rw [get_look, exec_contents, hempty, Timed.look_exec _ hclock.noLater, lastPut_iff]
  constructor
  · intro ⟨⟨call, hlast, hentry⟩, halive⟩
    subst hentry
    exact ⟨call, hlast, entry_alive.mp halive, rfl⟩
  · intro ⟨call, hlast, halive, hentry⟩
    subst hentry
    exact ⟨⟨call, hlast, rfl⟩, entry_alive.mpr halive⟩

/-- A call that is not a purge is what it is to the map, whatever was purged before. -/
theorem exec_purge {before after : List Op} {time now : Rat}
    (hclock : ClockUpTo (before ++ .purgeExpired time :: after) now) (key agentId nspace : String) :
    ((exec step empty (before ++ .purgeExpired time :: after)).get now key agentId nspace).map MemoryRecord.entry =
      ((exec step empty (before ++ after)).get now key agentId nspace).map MemoryRecord.entry := by
  have hnoLater := hclock.noLater
  rw [List.filterMap_append, List.filterMap_cons] at hnoLater
  have htime : time ≤ now := hnoLater (.purge time) (by simp [Op.event])
  have hafter : ∀ event ∈ after.filterMap Op.event, event.NoLater now := fun event hevent =>
    hnoLater event (List.mem_append_right _ (by simp [Op.event, hevent]))
  have hpurge := Timed.purge_sameFrom (exec step empty before).contents time
  have hsame := (hpurge.mono htime).events (after.filterMap Op.event) hafter now (le_refl now) (agentId, key, nspace)
  rw [get_look, get_look, exec_append, exec_append, exec_cons, exec_contents, exec_contents, step_contents]
  exact hsame

theorem delete_iff (key agentId nspace : String) :
    (m.delete key agentId nspace).1 = true ↔ ∃ r ∈ m.rows.rows, Base.key r = (agentId, key, nspace) := by
  simp only [delete, Bool.not_eq_true', List.isEmpty_eq_false_iff_exists_mem, Table.mem_select, beq_iff_eq]

/-- The value of a row that a set wrote is the value that was set. -/
theorem toDict_value {p : Python} {call : SetCall} (h : call.value.Decoded p) {r : MemoryRecord}
    (hr : r.entry = call.entry) : (r.toDict p).value = call.value := by
  have htext : r.value = Json.dumpsPlain call.value := congrArg (fun e => e.value.value) hr
  rw [MemoryRecord.toDict, htext, Json.loads_dumpsPlain h]
  rfl

/-- Memory is a timed map: a get returns the value of the last set of its slot that went through, unless it was deleted
or its ttl has run out; a delete reports whether there was a row; and no purge is noticed by a get. -/
theorem refines_timed_map (p : Python) (ops : List Op) (now : Rat) (key agentId nspace : String)
    (hclock : ClockUpTo ops now) (hdecoded : ∀ call, .set call ∈ ops → call.value.Decoded p) :
    (∀ v, ((exec step empty ops).get now key agentId nspace).map (fun r => (r.toDict p).value) = some v ↔
      ∃ call, LastSet ops (agentId, key, nspace) call ∧ (call.ttl ≤ 0 ∨ now < call.now + call.ttl) ∧
        call.value = v) ∧
    (((exec step empty ops).delete key agentId nspace).1 = true ↔
      ∃ r ∈ (exec step empty ops).rows.rows, Base.key r = (agentId, key, nspace)) ∧
    ∀ before time after, ops = before ++ .purgeExpired time :: after →
      ((exec step empty ops).get now key agentId nspace).map MemoryRecord.entry =
        ((exec step empty (before ++ after)).get now key agentId nspace).map MemoryRecord.entry := by
  have hlast : ∀ {call}, LastSet ops (agentId, key, nspace) call → call.value.Decoded p := by
    intro call ⟨before, after, hops, _⟩
    exact hdecoded call (by simp [hops])
  refine ⟨fun v => ⟨fun h => ?_, fun ⟨call, hcall, halive, hv⟩ => ?_⟩, delete_iff key agentId nspace, ?_⟩
  · obtain ⟨r, hr, hvalue⟩ := Option.map_eq_some_iff.mp h
    obtain ⟨call, hcall, halive, hentry⟩ :=
      (get_entry hclock key agentId nspace r.entry).mp (congrArg (Option.map MemoryRecord.entry) hr)
    exact ⟨call, hcall, halive, (toDict_value (hlast hcall) hentry.symm).symm.trans hvalue⟩
  · obtain ⟨r, hr, hentry⟩ :=
      Option.map_eq_some_iff.mp ((get_entry hclock key agentId nspace call.entry).mpr ⟨call, hcall, halive, rfl⟩)
    rw [hr, Option.map_some, toDict_value (hlast hcall) hentry, hv]
  · intro before time after hops
    subst hops
    exact exec_purge hclock key agentId nspace

/-- A note that is kept for ten seconds. -/
def noteCall : SetCall where
  now := 0
  later := 1
  key := "note"
  value := .int 7
  agentId := "agent-a"
  ttl := 10

/-- A purge in between leaves it. -/
theorem note_kept : ((exec step empty [.set noteCall, .purgeExpired 5]).get 6 "note" "agent-a" "personal").map
    (fun r => (r.toDict ⟨id, fun _ => true⟩).value) = some (.int 7) := by
  have hclock : ClockUpTo [.set noteCall, .purgeExpired 5] 6 := by
    change ([0, 1, 5, 6] : List Rat).Pairwise (· ≤ ·)
    decide +kernel
  have hdecoded : ∀ call, .set call ∈ [Op.set noteCall, .purgeExpired 5] →
      call.value.Decoded ⟨id, fun _ => true⟩ := by
    intro call hcall
    simp only [List.mem_cons, Op.set.injEq, List.not_mem_nil, reduceCtorEq, or_false] at hcall
    rw [hcall]
    exact (Json.every_leaf rfl).mpr trivial
  have hlast : LastSet [.set noteCall, .purgeExpired 5] ("agent-a", "note", "personal") noteCall :=
    ⟨[], [.purgeExpired 5], rfl, rfl, rfl, by simp [Op.Writes]⟩
  have halive : noteCall.ttl ≤ 0 ∨ 6 < noteCall.now + noteCall.ttl := Or.inr (by decide +kernel)
  exact ((refines_timed_map _ _ 6 "note" "agent-a" "personal" hclock hdecoded).1 _).mpr
    ⟨noteCall, hlast, halive, rfl⟩

end History

end AgentMemoryStore

end A2ARegistry.Orchestration.Memory
