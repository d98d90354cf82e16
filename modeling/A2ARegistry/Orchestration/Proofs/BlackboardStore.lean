import A2ARegistry.Orchestration.Blackboard

namespace A2ARegistry.Orchestration.Blackboard
open Base

section Rows

variable {rows : Table Row} {rootId key : String}

theorem entryOf_setEntry (rows : Table Row) (rootId key : String) (entry : Option Entry) (k : String × String) :
    entryOf (setEntry rows rootId key entry) k.1 k.2 =
      if k = (rootId, key) then entry else entryOf rows k.1 k.2 := by
  cases entry with
  | none =>
    simp only [entryOf, setEntry, Table.find_delete]
    cases hrow : rows.find? (k.1, k.2) with
    | none => simp
    | some r =>
      have hkey : (r.swarmRootId, r.key) = k := Table.find_key hrow
      subst hkey
      by_cases hr : (r.swarmRootId, r.key) = (rootId, key)
      · cases hr
        simp
      · have hout : (r.swarmRootId == rootId && r.key == key) = false := by
          apply Bool.eq_false_iff.mpr
          intro h
          simp only [Bool.and_eq_true, beq_iff_eq] at h
          exact hr (Prod.ext h.1 h.2)
        rw [if_neg hr, Option.filter_some, hout]
        rfl
  | some e =>
    simp only [entryOf, setEntry, Table.find_put]
    by_cases hk : k = (rootId, key)
    · subst hk
      simp [Keyed.key]
    · have hk' : ¬ (k.1, k.2) = Keyed.key (⟨rootId, key, e⟩ : Row) := hk
      rw [if_neg hk, if_neg hk']

theorem mem_selected {rows : Table Row} {r : Row} :
    r ∈ BlackboardStore.selected rows rootId [] ↔ r ∈ rows.rows ∧ r.swarmRootId = rootId := by
  simp [BlackboardStore.selected, Table.mem_select]

/-- The row of a key is found among the rows of its root. -/
theorem find_selected (rows : Table Row) (rootId key : String) :
    ((BlackboardStore.selected rows rootId []).find? (fun r => r.key == key)).map Row.entry =
      entryOf rows rootId key := by
  cases hfind : (BlackboardStore.selected rows rootId []).find? (fun r => r.key == key) with
  | some r =>
    obtain ⟨hr, hroot⟩ := mem_selected.mp (List.mem_of_find?_eq_some hfind)
    have hkey : r.key = key := by simpa using List.find?_some hfind
    have hrow : rows.find? (rootId, key) = some r := Table.find_some_iff.mpr ⟨hr, Prod.ext hroot hkey⟩
    rw [entryOf, hrow]
  | none =>
    have hrow : rows.find? (rootId, key) = none := by
      refine Table.find_none_iff.mpr fun r hr he => ?_
      have hroot : r.swarmRootId = rootId := congrArg Prod.fst he
      have hkey : r.key = key := congrArg Prod.snd he
      have hout := List.find?_eq_none.mp hfind r (mem_selected.mpr ⟨hr, hroot⟩)
      simp [hkey] at hout
    rw [entryOf, hrow]

/-- `fields[key]`. -/
def lookup (fields : List (String × Json)) (key : String) : Option Json :=
  (fields.find? (fun f => f.1 == key)).map Prod.snd

/-- What `read` gives for a key: its row, but for the key under which it puts the authors. -/
theorem lookup_read (p : Python) (rows : Table Row) (rootId key : String) :
    lookup (BlackboardStore.read p rows rootId []) key =
      if key = "_authors" then
        some (.obj ((BlackboardStore.selected rows rootId []).map (fun r => (r.key, .str r.entry.createdBy))))
      else (entryOf rows rootId key).map (BlackboardStore.entryCell p) := by
  rw [lookup, BlackboardStore.read, Json.find_putField, ← find_selected rows rootId key, List.find?_map,
    Option.map_map, Option.map_map]
  rfl

end Rows

/-- A call that changes the table. -/
inductive StoreCall (p : Python)
  | write (rootId key : String) (value : Json) (decoded : value.Decoded p) (createdBy : String)
    (expectedVersion : Option Int) (now : Int) (refused : Bool)
  | delete (rootId key : String)

/-- What the history of a live key comes to: its last write, and the writes since it was created. -/
structure Versioned where
  value : Json
  author : String
  writes : Nat
  createdAt : Int

/-- The table, the versioned map it stands for, and what the last write of each live key returned. -/
structure Ledger where
  rows : Table Row
  history : String × String → Option Versioned
  reported : String × String → Option WriteResult

namespace Ledger

def empty : Ledger := ⟨Table.empty, fun _ => none, fun _ => none⟩

/-- A write of the versioned map. -/
def written (value : Json) (author : String) (now : Int) : Option Versioned → Versioned
  | none => ⟨value, author, 1, now⟩
  | some h => ⟨value, author, h.writes + 1, h.createdAt⟩

def step (p : Python) (s : Ledger) : StoreCall p → Ledger
  | .write rootId key value _ createdBy expectedVersion now refused =>
    match BlackboardStore.write s.rows rootId key ⟨Json.dumpsPlain value, createdBy, expectedVersion, now⟩ refused with
    | (.error _, rows) => { s with rows := rows }
    | (.ok result, rows) =>
      { rows := rows
        history := Function.update s.history (rootId, key) (some (written value createdBy now (s.history (rootId, key))))
        reported := Function.update s.reported (rootId, key) (some result) }
  | .delete rootId key =>
    { rows := (BlackboardStore.delete s.rows rootId key).2
      history := Function.update s.history (rootId, key) none
      reported := Function.update s.reported (rootId, key) none }

/-- What is read is the versioned map, with what the last write of each key returned. -/
def Reads (p : Python) (s : Ledger) : Prop :=
  ∀ rootId key, match s.history (rootId, key) with
    | none => key = "_authors" ∨ lookup (BlackboardStore.read p s.rows rootId []) key = none
    | some h => ∃ result, s.reported (rootId, key) = some result ∧
        lookup (BlackboardStore.read p s.rows rootId []) key =
          some (BlackboardStore.cell h.value h.writes h.author h.createdAt result.updatedAt) ∧
        result.version = h.writes ∧ result.createdAt = h.createdAt

/-- The write goes through: the version it expects is there, and so is the root. -/
def Accepted (s : Ledger) (rootId key : String) (expectedVersion : Option Int) (refused : Bool) : Prop :=
  refused = false ∧ ∀ v, expectedVersion = some v → versionOf (entryOf s.rows rootId key) = v

/-- A write that goes through is not of the key of the authors, and a row that is there was created in this second. -/
def Sound {p : Python} (s : Ledger) : StoreCall p → Prop
  | .write rootId key _ _ _ expectedVersion now refused => s.Accepted rootId key expectedVersion refused →
    key ≠ "_authors" ∧ ∀ e, entryOf s.rows rootId key = some e → e.createdAt = now
  | .delete .. => True

/-- What the row of a key has of its history, and of what its last write returned. -/
structure Stands (p : Python) (h : Versioned) (result : WriteResult) (e : Entry) : Prop where
  value : e.value = Json.dumpsPlain h.value
  decoded : h.value.Decoded p
  version : e.version = h.writes
  author : e.createdBy = h.author
  createdAt : e.createdAt = h.createdAt
  reported : result.version = e.version ∧ result.updatedAt = e.updatedAt

/-- The rows are those of the live keys. -/
def Coherent (p : Python) (s : Ledger) : Prop :=
  ∀ rootId key, match s.history (rootId, key) with
    | none => entryOf s.rows rootId key = none
    | some h => ∃ result e, s.reported (rootId, key) = some result ∧ entryOf s.rows rootId key = some e ∧
        Stands p h result e

variable {p : Python} {s : Ledger} {rootId key : String}

/-- The row that a write leaves. -/
def rewritten (args : WriteArgs) : Option Entry → Entry
  | none => ⟨args.value, 1, args.createdBy, args.now, args.now⟩
  | some e => { e with
      value := args.value, version := e.version + 1, updatedAt := args.now, createdBy := args.createdBy }

theorem write_accepted (key : String) (args : WriteArgs) {entry : Option Entry}
    (h : ∀ v, args.expectedVersion = some v → versionOf entry = v) : Blackboard.write key args entry =
      (.ok ⟨key, versionOf entry + 1, args.now, args.now⟩, some (rewritten args entry)) := by
  cases hexpected : args.expectedVersion with
  | none => cases entry <;> simp [Blackboard.write, WriteArgs.plan, getVersion, hexpected, Statement.execute,
      Statement.answer, versionOf, rewritten]
  | some v =>
    have hv := h v hexpected
    subst hv
    cases entry <;> simp [Blackboard.write, WriteArgs.plan, getVersion, hexpected, Statement.execute,
      Statement.answer, versionOf, rewritten]

theorem write_rejected (key : String) (args : WriteArgs) {entry : Option Entry}
    (h : ¬ ∀ v, args.expectedVersion = some v → versionOf entry = v) :
    ∃ e, Blackboard.write key args entry = (.error e, entry) := by
  obtain ⟨v, hexpected, hv⟩ : ∃ v, args.expectedVersion = some v ∧ versionOf entry ≠ v := by
    simpa only [not_forall, exists_prop] using h
  have hplan : ∃ e, args.plan key (getVersion entry) = .error e := by
    cases entry with
    | none =>
      have hne : v ≠ 0 := fun he => hv he.symm
      simp only [getVersion, Option.map_none, WriteArgs.plan, hexpected, if_pos hne]
      exact ⟨_, rfl⟩
    | some e =>
      have hne : e.version ≠ v := hv
      simp only [getVersion, Option.map_some, WriteArgs.plan, hexpected, if_pos hne]
      exact ⟨_, rfl⟩
  obtain ⟨e, hplan⟩ := hplan
  exact ⟨e, by simp only [Blackboard.write, hplan]⟩

section Steps

variable {value : Json} {decoded : value.Decoded p} {createdBy : String} {expectedVersion : Option Int} {now : Int}
  {refused : Bool}

theorem step_accepted (h : s.Accepted rootId key expectedVersion refused) :
    step p s (.write rootId key value decoded createdBy expectedVersion now refused) =
      { rows := setEntry s.rows rootId key (some (rewritten ⟨Json.dumpsPlain value, createdBy, expectedVersion, now⟩
          (entryOf s.rows rootId key)))
        history := Function.update s.history (rootId, key) (some (written value createdBy now (s.history (rootId, key))))
        reported := Function.update s.reported (rootId, key)
          (some ⟨key, versionOf (entryOf s.rows rootId key) + 1, now, now⟩) } := by
  obtain ⟨hrefused, hversion⟩ := h
  have hwrite := write_accepted key ⟨Json.dumpsPlain value, createdBy, expectedVersion, now⟩ hversion
  simp only [step, BlackboardStore.write, hwrite, hrefused]
  rfl

theorem step_rejected (h : ¬ s.Accepted rootId key expectedVersion refused) :
    step p s (.write rootId key value decoded createdBy expectedVersion now refused) = s := by
  by_cases hversion : ∀ v, expectedVersion = some v → versionOf (entryOf s.rows rootId key) = v
  · have hwrite := write_accepted key ⟨Json.dumpsPlain value, createdBy, expectedVersion, now⟩ hversion
    have hrefused : refused = true := by
      cases refused with
      | true => rfl
      | false => exact absurd ⟨rfl, hversion⟩ h
    simp only [step, BlackboardStore.write, hwrite, hrefused]
    rfl
  · obtain ⟨e, hwrite⟩ := write_rejected key ⟨Json.dumpsPlain value, createdBy, expectedVersion, now⟩
      hversion
    simp only [step, BlackboardStore.write, hwrite]

end Steps

theorem coherent_empty : Coherent p .empty := fun _ _ => rfl

theorem coherent_step (hs : Coherent p s) (call : StoreCall p) : Coherent p (step p s call) := by
  cases call with
  | write rootId key value decoded createdBy expectedVersion now refused =>
    by_cases haccepted : s.Accepted rootId key expectedVersion refused
    · rw [step_accepted haccepted]
      intro r k
      have hrow := entryOf_setEntry s.rows rootId key
        (some (rewritten ⟨Json.dumpsPlain value, createdBy, expectedVersion, now⟩ (entryOf s.rows rootId key))) (r, k)
      dsimp only at hrow ⊢
      rw [hrow]
      by_cases hk : (r, k) = (rootId, key)
      · cases hk
        rw [Function.update_self, Function.update_self, if_pos rfl]
        have hbefore := hs rootId key
        cases hhistory : s.history (rootId, key) with
        | none =>
          rw [hhistory] at hbefore
          rw [hbefore]
          exact ⟨_, _, rfl, rfl, ⟨rfl, decoded, rfl, rfl, rfl, ⟨rfl, rfl⟩⟩⟩
        | some h =>
          rw [hhistory] at hbefore
          obtain ⟨result, e, _, hentry, hstands⟩ := hbefore
          rw [hentry]
          refine ⟨_, _, rfl, rfl, ⟨rfl, decoded, ?_, rfl, hstands.createdAt, ⟨rfl, rfl⟩⟩⟩
          have hversion := hstands.version
          simp only [rewritten, written, hversion, Int.natCast_add, Int.natCast_one]
      · rw [Function.update_of_ne hk, Function.update_of_ne hk, if_neg hk]
        exact hs r k
    · rw [step_rejected haccepted]
      exact hs
  | delete rootId key =>
    intro r k
    have hrow := entryOf_setEntry s.rows rootId key none (r, k)
    have hrows : (step p s (.delete rootId key)).rows = setEntry s.rows rootId key none := rfl
    have hhistory : (step p s (.delete rootId key)).history = Function.update s.history (rootId, key) none := rfl
    have hreported : (step p s (.delete rootId key)).reported = Function.update s.reported (rootId, key) none := rfl
    rw [hrows, hhistory, hreported, hrow]
    by_cases hk : (r, k) = (rootId, key)
    · rw [hk, Function.update_self, if_pos rfl]
    · rw [Function.update_of_ne hk, Function.update_of_ne hk, if_neg hk]
      exact hs r k

/-- No entry looks like the dict of the authors. -/
theorem cell_ne_authors (value : Json) (version : Int) (createdBy : String) (createdAt updatedAt : Int)
    (rows : List Row) : BlackboardStore.cell value version createdBy createdAt updatedAt ≠
      .obj (rows.map (fun r => (r.key, .str r.entry.createdBy))) := by
  intro h
  injection h with hfields
  have hversion : ("version", Json.int version) ∈ rows.map (fun r => (r.key, Json.str r.entry.createdBy)) := by
    rw [← hfields]
    simp
  obtain ⟨r, _, hr⟩ := List.mem_map.mp hversion
  cases congrArg Prod.snd hr

/-- What a key's row makes of the property. -/
theorem reads_iff (hs : Coherent p s) : s.Reads p ↔ ∀ rootId key h result, s.history (rootId, key) = some h →
    s.reported (rootId, key) = some result → key ≠ "_authors" ∧ result.createdAt = h.createdAt := by
  constructor
  · intro hreads rootId key h result hhistory hreported
    have hkey := hreads rootId key
    rw [hhistory] at hkey
    obtain ⟨result', hreported', hlookup, _, hcreated⟩ := hkey
    cases hreported.symm.trans hreported'
    refine ⟨fun hname => ?_, hcreated⟩
    rw [lookup_read, if_pos hname] at hlookup
    exact cell_ne_authors _ _ _ _ _ _ (Option.some.inj hlookup).symm
  · intro h rootId key
    have hrow := hs rootId key
    rw [lookup_read]
    cases hhistory : s.history (rootId, key) with
    | none =>
      rw [hhistory] at hrow
      by_cases hname : key = "_authors"
      · exact Or.inl hname
      · right
        rw [if_neg hname, hrow]
        rfl
    | some v =>
      rw [hhistory] at hrow
      obtain ⟨result, e, hreported, hentry, hstands⟩ := hrow
      obtain ⟨hname, hcreated⟩ := h rootId key v result hhistory hreported
      refine ⟨result, hreported, ?_, hstands.reported.1.trans hstands.version, hcreated⟩
      have hvalue : BlackboardStore.storedValue p e = v.value := by
        rw [BlackboardStore.storedValue, hstands.value, Json.loads_dumpsPlain hstands.decoded, Option.getD_some]
      rw [if_neg hname, hentry, Option.map_some, BlackboardStore.entryCell, hvalue, hstands.version, hstands.author,
        hstands.createdAt, hstands.reported.2]

theorem reads_step_iff (hs : Coherent p s) (hreads : s.Reads p) (call : StoreCall p) :
    (step p s call).Reads p ↔ s.Sound call := by
  rw [reads_iff (coherent_step hs call)]
  rw [reads_iff hs] at hreads
  cases call with
  | delete rootId key =>
    refine ⟨fun _ => trivial, fun _ r k h result hhistory hreported => ?_⟩
    have hne : (r, k) ≠ (rootId, key) := by
      intro hk
      simp [step, hk] at hhistory
    simp only [step, Function.update_of_ne hne] at hhistory hreported
    exact hreads r k h result hhistory hreported
  | write rootId key value decoded createdBy expectedVersion now refused =>
    by_cases haccepted : s.Accepted rootId key expectedVersion refused
    · rw [step_accepted haccepted]
      have hcreated : (written value createdBy now (s.history (rootId, key))).createdAt = now ↔
          ∀ e, entryOf s.rows rootId key = some e → e.createdAt = now := by
        have hrow := hs rootId key
        cases hhistory : s.history (rootId, key) with
        | none =>
          rw [hhistory] at hrow
          rw [hrow]
          exact ⟨fun _ e he => (nomatch he), fun _ => rfl⟩
        | some h =>
          rw [hhistory] at hrow
          obtain ⟨result, e, _, hentry, hstands⟩ := hrow
          rw [hentry, written, ← hstands.createdAt]
          exact ⟨fun h e' he' => by cases he'; exact h, fun h => h e rfl⟩
      constructor
      · intro h _
        obtain ⟨hname, hnow⟩ := h rootId key _ _ (Function.update_self ..) (Function.update_self ..)
        exact ⟨hname, hcreated.mp hnow.symm⟩
      · intro h r k v result hhistory hreported
        obtain ⟨hname, hrow⟩ := h haccepted
        dsimp only at hhistory hreported
        by_cases hk : (r, k) = (rootId, key)
        · cases hk
          rw [Function.update_self] at hhistory hreported
          cases hhistory
          cases hreported
          exact ⟨hname, (hcreated.mpr hrow).symm⟩
        · rw [Function.update_of_ne hk] at hhistory hreported
          exact hreads r k v result hhistory hreported
    · rw [step_rejected haccepted]
      exact ⟨fun _ h => absurd h haccepted, fun _ => hreads⟩

/-- The store is a versioned map exactly when no write goes to the key of the authors, and none to a row of an earlier
second: what `write` returns as the time of creation is the time of the write. -/
theorem versioned_map_iff (calls : List (StoreCall p)) :
    Always (step p) (Reads p) .empty calls ↔ EachStep (step p) Sound .empty calls := by
  have hempty : Reads p .empty := (reads_iff coherent_empty).mpr fun _ _ _ _ h => (nomatch h)
  exact always_iff_guarded (I := Coherent p) (C := Sound) (fun s call hs _ => coherent_step hs call)
    (fun s call hs hreads => reads_step_iff hs hreads call) coherent_empty hempty calls

/-- A key that is written again a second later. -/
def rewriteLater (p : Python) : List (StoreCall p) :=
  [.write "t_a" "k" (.int 1) ((Json.every_leaf rfl).mpr trivial) "w1" none 0 false,
    .write "t_a" "k" (.int 2) ((Json.every_leaf rfl).mpr trivial) "w2" none 1 false]

/-- The second write returns 1 as the time the key was created, which is 0. -/
theorem created_at_differs : ¬ ∀ (p : Python) (calls : List (StoreCall p)), Always (step p) (Reads p) .empty calls := by
  intro h
  let p : Python := ⟨id, fun _ => true⟩
  have hlast := (h p (rewriteLater p)).last "t_a" "k"
  have hhistory : (exec (step p) .empty (rewriteLater p)).history ("t_a", "k") = some ⟨.int 2, "w2", 2, 0⟩ := rfl
  have hreported : (exec (step p) .empty (rewriteLater p)).reported ("t_a", "k") = some ⟨"k", 2, 1, 1⟩ := by
    decide +kernel
  rw [hhistory] at hlast
  obtain ⟨result, hresult, _, _, hcreated⟩ := hlast
  cases hreported.symm.trans hresult
  cases hcreated

end Ledger

end A2ARegistry.Orchestration.Blackboard
