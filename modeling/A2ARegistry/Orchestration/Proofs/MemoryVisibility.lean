import A2ARegistry.Orchestration.Memory

namespace A2ARegistry.Orchestration.Memory
open Base AgentMemoryStore

/-- What an agent can call to read memory, by the store or over HTTP; the entries as they are shown. -/
structure Reader where
  get : String → String → Option MemoryView
  list : String → Option String → Int → Int → List MemoryView
  search : String → Option String → Int → Int → List MemoryView

section Readers

variable (p : Python) (lower : String → String) (m : AgentMemoryStore) (now : Rat)

/-- The calls of the store for an agent. -/
def direct (agentId : String) : Reader where
  get key nspace := (m.get now key agentId nspace).map (MemoryRecord.toDict p)
  list start nspace limit offset := (m.listKeys now agentId start nspace limit offset).map (MemoryRecord.toDict p)
  search query nspace limit offset :=
    (m.search lower now query agentId nspace limit offset).map (MemoryRecord.toDict p)

/-- The entries of a reply. -/
def Reply.views : Reply → List MemoryView
  | .entry view => [view]
  | .entries _ _ _ _ views => views
  | .refused .. => []

/-- The handlers for a caller, on the path of an agent. -/
def overHttp (caller : Caller) (agentId : String) : Reader where
  get key nspace := (handleGet p m now { caller, agentId, key, nspace := some nspace }).views.head?
  list start nspace limit offset :=
    (handleList p m now { caller, agentId, start, nspace, limit := some limit, offset := some offset }).views
  search q nspace limit offset :=
    (handleSearch p m now { caller, agentId, q, nspace, limit := some limit, offset := some offset } lower).views

end Readers

/-- A reader is given an entry: by its key, on some page of its list, and on some page of each search that is made
and that it matches. -/
structure Shows (made : String → Prop) (lower : String → String) (r : Reader) (e : MemoryRecord) (view : MemoryView) :
    Prop where
  got : r.get e.key e.nspace = some view
  listed : ∀ start, hasPrefix start e = true → ∀ limit, ∃ offset, view ∈ r.list start (some e.nspace) limit offset
  found : ∀ query, made query → matchesQuery (lower query) e = true →
    ∀ limit, ∃ offset, view ∈ r.search query (some e.nspace) limit offset

/-- A reader is never given it. -/
structure Hides (r : Reader) (view : MemoryView) : Prop where
  got : ∀ key nspace, r.get key nspace ≠ some view
  listed : ∀ start nspace limit offset, view ∉ r.list start nspace limit offset
  found : ∀ query nspace limit offset, view ∉ r.search query nspace limit offset

/-- A query the handler passes on as it is. -/
def IsQuery (query : String) : Prop := query ≠ "" ∧ strip query = query

/-- The caller does not act for others. -/
def NoAdmin (scopes : String) : Prop := contains scopes "registry:admin" = false

section Visibility

variable (p : Python) (lower : String → String) (m : AgentMemoryStore) (now : Rat) (agentId : String)
  (e : MemoryRecord)

def VisibleTo : Prop :=
  Shows (fun _ => True) lower (direct p lower m now agentId) e (e.toDict p) ∧ ∀ scopes, NoAdmin scopes →
    ∃ path, Shows IsQuery lower (overHttp p lower m now ⟨.str agentId, scopes⟩ path) e (e.toDict p)

def HiddenFrom : Prop :=
  Hides (direct p lower m now agentId) (e.toDict p) ∧ ∀ scopes, NoAdmin scopes →
    ∀ path, Hides (overHttp p lower m now ⟨.str agentId, scopes⟩ path) (e.toDict p)

/-- What the namespaces promise of an entry to an agent. -/
structure Honoured : Prop where
  ofGlobal : e.nspace = namespaceGlobal → VisibleTo p lower m now agentId e
  ofPersonal : e.nspace = namespacePersonal →
    (agentId = e.agentId → VisibleTo p lower m now agentId e) ∧
      (agentId ≠ e.agentId → HiddenFrom p lower m now agentId e)

end Visibility

section Pages

/-- An entry of a list is on some page of it, whatever the limit. -/
theorem mem_page {rows : List MemoryRecord} {e : MemoryRecord} (h : e ∈ rows) (limit : Int) :
    ∃ offset : Int, 0 ≤ offset ∧ e ∈ AgentMemoryStore.page limit offset rows := by
  obtain ⟨i, hi, rfl⟩ := List.getElem_of_mem h
  refine ⟨i, by omega, ?_⟩
  have hlimit : 0 < (min (max limit 1) 1000).toNat := by omega
  have hoffset : (max (i : Int) 0).toNat = i := by omega
  rw [AgentMemoryStore.page, hoffset]
  exact List.mem_take_iff_getElem.mpr ⟨0, by simp; omega, by simp⟩

theorem page_mem {rows : List MemoryRecord} {e : MemoryRecord} {limit offset : Int}
    (h : e ∈ AgentMemoryStore.page limit offset rows) : e ∈ rows := List.mem_of_mem_drop (List.mem_of_mem_take h)

end Pages

variable {p : Python} {lower : String → String} {m : AgentMemoryStore} {now : Rat} {e : MemoryRecord}

theorem mem_listKeys {agentId start : String} {nspace : Option String} {limit offset : Int}
    (h : e ∈ m.listKeys now agentId start nspace limit offset) : e.agentId = agentId := by
  have hrow := (Table.mem_select.mp ((List.mem_insertionSort _).mp (page_mem h))).2
  simp only [Bool.and_eq_true, beq_iff_eq] at hrow
  exact hrow.1.1.1

theorem mem_search {agentId query : String} {nspace : Option String} {limit offset : Int}
    (h : e ∈ m.search lower now query agentId nspace limit offset) : e.agentId = agentId := by
  have hrow := (Table.mem_select.mp ((List.mem_insertionSort _).mp (page_mem h))).2
  simp only [Bool.and_eq_true, beq_iff_eq] at hrow
  exact hrow.1.1.1

theorem get_agent {key agentId nspace : String} (h : m.get now key agentId nspace = some e) : e.agentId = agentId := by
  have hrow := (Option.filter_eq_some_iff.mp h).1
  exact congrArg Prod.fst (Table.find_key hrow)

/-- The store hides an entry from every agent but its own. -/
theorem direct_hides {agentId : String} (hne : agentId ≠ e.agentId) :
    Hides (direct p lower m now agentId) (e.toDict p) := by
  have hother : ∀ {r : MemoryRecord}, r.agentId = agentId → r.toDict p ≠ e.toDict p := fun hr he =>
    hne (hr.symm.trans (congrArg MemoryView.agentId he))
  refine ⟨fun key nspace h => ?_, fun start nspace limit offset h => ?_, fun query nspace limit offset h => ?_⟩
  · obtain ⟨r, hr, he⟩ := Option.map_eq_some_iff.mp h
    exact hother (get_agent hr) he
  · obtain ⟨r, hr, he⟩ := List.mem_map.mp h
    exact hother (mem_listKeys hr) he
  · obtain ⟨r, hr, he⟩ := List.mem_map.mp h
    exact hother (mem_search hr) he

/-- It shows an entry that is not expired to its own agent. -/
theorem direct_shows (hmem : e ∈ m.rows.rows) (halive : e.alive now = true) :
    Shows (fun _ => True) lower (direct p lower m now e.agentId) e (e.toDict p) := by
  have hin : inNamespace (some e.nspace) e = true := by simp [inNamespace]
  refine ⟨?_, fun start hstart limit => ?_, fun query _ hquery limit => ?_⟩
  · have hrow : m.rows.find? (e.agentId, e.key, e.nspace) = some e := Table.find_mem hmem
    have hget : m.get now e.key e.agentId e.nspace = some e := by
      rw [AgentMemoryStore.get, hrow]
      simp [Option.filter, halive]
    exact congrArg (Option.map (MemoryRecord.toDict p)) hget
  · have hselect : e ∈ (m.rows.select (fun r => r.agentId == e.agentId && hasPrefix start r &&
        inNamespace (some e.nspace) r && r.alive now)).insertionSort (fun a b => a.key ≤ b.key) :=
      (List.mem_insertionSort _).mpr (Table.mem_select.mpr ⟨hmem, by simp [hstart, hin, halive]⟩)
    obtain ⟨offset, _, hpage⟩ := mem_page hselect limit
    exact ⟨offset, List.mem_map_of_mem hpage⟩
  · have hselect : e ∈ (m.rows.select (fun r => r.agentId == e.agentId && matchesQuery (lower query) r &&
        inNamespace (some e.nspace) r && r.alive now)).insertionSort (fun a b => b.updatedAt ≤ a.updatedAt) :=
      (List.mem_insertionSort _).mpr (Table.mem_select.mpr ⟨hmem, by simp [hquery, hin, halive]⟩)
    obtain ⟨offset, _, hpage⟩ := mem_page hselect limit
    exact ⟨offset, List.mem_map_of_mem hpage⟩

section Http

variable {scopes agentId : String}

/-- A caller without the admin scope acts for itself only. -/
theorem resolveAgentId_self (hscopes : NoAdmin scopes) (path : String) :
    resolveAgentId ⟨.str agentId, scopes⟩ path = if path = agentId then some agentId else none := by
  rw [NoAdmin] at hscopes
  by_cases hpath : path = agentId
  · simp [resolveAgentId, hscopes, Json.isWord, hpath]
  · simp [resolveAgentId, hscopes, Json.isWord, hpath, Ne.symm hpath]

/-- The handlers clamp a page as the store does. -/
theorem page_clamped (limit offset : Int) (rows : List MemoryRecord) :
    AgentMemoryStore.page (min limit 1000) (max offset 0) rows = AgentMemoryStore.page limit offset rows := by
  have hlimit : min (max (min limit 1000) 1) 1000 = min (max limit 1) 1000 := by omega
  have hoffset : max (max offset 0) 0 = max offset 0 := by omega
  rw [AgentMemoryStore.page, AgentMemoryStore.page, hlimit, hoffset]

/-- On its own path an agent reads what the store gives it, but for searches of blanks. -/
theorem overHttp_self (hscopes : NoAdmin scopes) : overHttp p lower m now ⟨.str agentId, scopes⟩ agentId =
    { direct p lower m now agentId with
      search := fun q nspace limit offset =>
        if strip q = "" then [] else (direct p lower m now agentId).search (strip q) nspace limit offset } := by
  have hself : resolveAgentId ⟨.str agentId, scopes⟩ agentId = some agentId := by
    rw [resolveAgentId_self hscopes, if_pos rfl]
  rw [overHttp, direct]
  congr 1
  · funext key nspace
    simp only [handleGet, hself, Option.getD_some]
    cases m.get now key agentId nspace <;> rfl
  · funext start nspace limit offset
    simp only [handleList, hself, MemoryRequest.reply, Reply.views, MemoryRequest.pageLimit,
      MemoryRequest.pageOffset, Option.getD_some, listKeys, page_clamped]
  · funext q nspace limit offset
    simp only [handleSearch, hself]
    split
    · rfl
    · simp only [MemoryRequest.reply, Reply.views, MemoryRequest.pageLimit, MemoryRequest.pageOffset,
        Option.getD_some, AgentMemoryStore.search, page_clamped]

/-- On the path of another it reads nothing. -/
theorem overHttp_other (hscopes : NoAdmin scopes) {path : String} (hpath : path ≠ agentId) (view : MemoryView) :
    Hides (overHttp p lower m now ⟨.str agentId, scopes⟩ path) view := by
  have hother : resolveAgentId ⟨.str agentId, scopes⟩ path = none := by
    rw [resolveAgentId_self hscopes, if_neg hpath]
  refine ⟨fun key nspace => ?_, fun start nspace limit offset => ?_, fun query nspace limit offset => ?_⟩
  · simp [overHttp, handleGet, hother, forbidden, Reply.views]
  · simp [overHttp, handleList, hother, forbidden, Reply.views]
  · simp [overHttp, handleSearch, hother, forbidden, Reply.views]

end Http

/-- Whatever it is set in, an entry is there for its agent. -/
theorem visible_owner (hmem : e ∈ m.rows.rows) (halive : e.alive now = true) : VisibleTo p lower m now e.agentId e := by
  have hdirect : Shows (fun _ => True) lower (direct p lower m now e.agentId) e (e.toDict p) := direct_shows hmem halive
  refine ⟨hdirect, fun scopes hscopes => ⟨e.agentId, ?_⟩⟩
  rw [overHttp_self hscopes]
  refine ⟨hdirect.got, hdirect.listed, fun query ⟨hne, hstrip⟩ hquery limit => ?_⟩
  obtain ⟨offset, hfound⟩ := hdirect.found query trivial hquery limit
  exact ⟨offset, by simpa [hstrip, hne] using hfound⟩

/-- It is hidden from every other agent. -/
theorem hidden_other {agentId : String} (hne : agentId ≠ e.agentId) : HiddenFrom p lower m now agentId e := by
  have hdirect : Hides (direct p lower m now agentId) (e.toDict p) := direct_hides hne
  refine ⟨hdirect, fun scopes hscopes path => ?_⟩
  by_cases hpath : path = agentId
  · subst hpath
    rw [overHttp_self hscopes]
    refine ⟨hdirect.got, hdirect.listed, fun query nspace limit offset => ?_⟩
    dsimp only
    split
    · exact List.not_mem_nil
    · exact hdirect.found (strip query) nspace limit offset
  · exact overHttp_other hscopes hpath _

theorem visible_iff {agentId : String} (hmem : e ∈ m.rows.rows) (halive : e.alive now = true) :
    VisibleTo p lower m now agentId e ↔ agentId = e.agentId := by
  constructor
  · intro h
    by_contra hne
    exact (hidden_other hne).1.got _ _ h.1.got
  · intro h
    subst h
    exact visible_owner hmem halive

namespace AgentMemoryStore

/-- After any calls, the namespace of an entry that is not expired is honoured towards an agent exactly where it is
not the global one, or the agent set the entry. -/
theorem namespaces_honoured_iff (p : Python) (lower : String → String) (ops : List Op) (now : Rat) (agentId : String)
    (e : MemoryRecord) (hmem : e ∈ (exec step empty ops).rows.rows) (halive : e.alive now = true) :
    Honoured p lower (exec step empty ops) now agentId e ↔ (e.nspace = namespaceGlobal → agentId = e.agentId) := by
  constructor
  · intro h hglobal
    exact (visible_iff hmem halive).mp (h.ofGlobal hglobal)
  · intro h
    exact ⟨fun hglobal => (visible_iff hmem halive).mpr (h hglobal),
      fun _ => ⟨(visible_iff hmem halive).mpr, hidden_other⟩⟩

/-- A fact for every agent. -/
def sharedFact : SetCall where
  now := 0
  later := 0
  key := "motd"
  value := .str "hello"
  agentId := "agent-a"
  nspace := namespaceGlobal

/-- An entry of its own agent is visible to it, in the global namespace too. -/
theorem fact_for_owner :
    Honoured ⟨id, fun _ => true⟩ id (exec step empty [.set sharedFact]) 1 "agent-a" (sharedFact.row 1) :=
  (namespaces_honoured_iff _ _ [.set sharedFact] 1 "agent-a" (sharedFact.row 1) (by decide +kernel)
    (by decide +kernel)).mpr (fun _ => rfl)

/-- Another agent does not get it. -/
theorem fact_not_shared :
    ¬ Honoured ⟨id, fun _ => true⟩ id (exec step empty [.set sharedFact]) 1 "agent-b" (sharedFact.row 1) := by
  intro h
  have hgot := (h.ofGlobal rfl).1.got
  have hnone : (exec step empty [.set sharedFact]).get 1 "motd" "agent-b" "global" = none := by decide +kernel
  have hempty : (direct ⟨id, fun _ => true⟩ id (exec step empty [.set sharedFact]) 1 "agent-b").get "motd" "global" =
      none := congrArg (Option.map (MemoryRecord.toDict ⟨id, fun _ => true⟩)) hnone
  cases hempty.symm.trans hgot

end AgentMemoryStore

section Own

/-- A row without its id. -/
def MemoryRecord.noId (r : MemoryRecord) : MemoryRecord := { r with id := 0 }

@[simp] theorem toDict_noId (p : Python) (r : MemoryRecord) : r.noId.toDict p = r.toDict p := rfl

@[simp] theorem key_noId (r : MemoryRecord) : key r.noId = key r := rfl

/-- What the table has of an agent: its rows in order, without the ids, which all agents draw from one sequence. -/
def ownRows (agent : String) (m : AgentMemoryStore) : List MemoryRecord :=
  (m.rows.select (fun r => r.agentId == agent)).map MemoryRecord.noId

/-- The rows with the row of a write in them, updated or new. -/
def putOwn (call : SetCall) (rows : List MemoryRecord) : List MemoryRecord :=
  if rows.any (fun r => key r == call.slot) then
    rows.map (fun r => if key r == call.slot then call.update r else r)
  else rows ++ [call.row 0]

variable {agent : String} {m : AgentMemoryStore}

theorem mem_ownRows {r : MemoryRecord} :
    r ∈ ownRows agent m ↔ ∃ r' ∈ m.rows.rows, r'.agentId = agent ∧ r'.noId = r := by
  simp only [ownRows, List.mem_map, Table.mem_select, beq_iff_eq, and_assoc]

/-- A query of an agent selects from its own rows. -/
theorem select_own {q : MemoryRecord → Bool} (hq : ∀ r, q r.noId = q r) :
    (m.rows.select (fun r => r.agentId == agent && q r)).map MemoryRecord.noId = (ownRows agent m).filter q := by
  have hcomp : (q ∘ MemoryRecord.noId) = q := funext hq
  rw [ownRows, List.filter_map, hcomp, Table.select, Table.select, List.filter_filter]
  congr 2
  funext r
  exact Bool.and_comm _ _

/-- So it does where the rows are ordered and cut into pages. -/
theorem page_own {q : MemoryRecord → Bool} (hq : ∀ r, q r.noId = q r) {le : MemoryRecord → MemoryRecord → Prop}
    [DecidableRel le] (hle : ∀ a b, le a b ↔ le a.noId b.noId) (limit offset : Int) :
    (AgentMemoryStore.page limit offset
        ((m.rows.select (fun r => r.agentId == agent && q r)).insertionSort le)).map MemoryRecord.noId =
      AgentMemoryStore.page limit offset (((ownRows agent m).filter q).insertionSort le) := by
  rw [AgentMemoryStore.page, AgentMemoryStore.page, List.map_take, List.map_drop, ← select_own hq,
    List.map_insertionSort (r := le) (s := le) MemoryRecord.noId _ (fun a _ b _ => hle a b)]

theorem find_own (k nspace : String) :
    (m.rows.find? (agent, k, nspace)).map MemoryRecord.noId =
      (ownRows agent m).find? (fun r => key r == (agent, k, nspace)) := by
  have hown : (m.rows.find? (agent, k, nspace)).filter (fun r => r.agentId == agent) =
      m.rows.find? (agent, k, nspace) := by
    cases hfind : m.rows.find? (agent, k, nspace) with
    | none => rfl
    | some r =>
      have hagent : r.agentId = agent := congrArg Prod.fst (Table.find_key hfind)
      simp [Option.filter, hagent]
  have hselect := Table.find_select m.rows (fun r => r.agentId == agent) (agent, k, nspace)
  rw [ownRows, List.find?_map, ← hown, ← hselect]
  congr 2
  funext r
  change decide (key r = (agent, k, nspace)) = (key r == (agent, k, nspace))
  rw [Bool.eq_iff_iff, beq_iff_eq, decide_eq_true_iff]

theorem get_own (now : Rat) (k nspace : String) :
    (m.get now k agent nspace).map MemoryRecord.noId =
      ((ownRows agent m).find? (fun r => key r == (agent, k, nspace))).filter (MemoryRecord.alive now) := by
  rw [← find_own, AgentMemoryStore.get]
  cases m.rows.find? (agent, k, nspace) with
  | none => rfl
  | some r =>
    have halive : r.noId.alive now = r.alive now := rfl
    cases hr : r.alive now <;> simp [Option.filter, halive, hr]

/-- Whether an agent has a row is seen in its own rows. -/
theorem any_own (k nspace : String) : m.rows.rows.any (fun r => key r == (agent, k, nspace)) =
    (ownRows agent m).any (fun r => key r == (agent, k, nspace)) := by
  rw [Bool.eq_iff_iff, List.any_eq_true, List.any_eq_true]
  constructor
  · intro ⟨r, hr, hkey⟩
    have hagent : r.agentId = agent := congrArg Prod.fst (beq_iff_eq.mp hkey)
    exact ⟨r.noId, mem_ownRows.mpr ⟨r, hr, hagent, rfl⟩, hkey⟩
  · intro ⟨r, hr, hkey⟩
    obtain ⟨r', hr', -, rfl⟩ := mem_ownRows.mp hr
    exact ⟨r', hr', hkey⟩

theorem key_ne_of_mem_ownRows {r : MemoryRecord} (h : r ∈ ownRows agent m) {slot : Slot} (hslot : slot.1 ≠ agent) :
    key r ≠ slot := by
  obtain ⟨r', -, hagent, rfl⟩ := mem_ownRows.mp h
  intro hkey
  have hfst : r'.agentId = slot.1 := congrArg Prod.fst hkey
  exact hslot (hfst.symm.trans hagent)

theorem ownRows_update {call : SetCall} {m' : AgentMemoryStore}
    (h : m'.rows.rows = m.rows.rows.map (fun r => if key r == call.slot then call.update r else r)) :
    ownRows agent m' = (ownRows agent m).map (fun r => if key r == call.slot then call.update r else r) := by
  have hagent : ∀ r : MemoryRecord, (if key r == call.slot then call.update r else r).agentId = r.agentId := by
    intro r
    split
    · rfl
    · rfl
  have hid : ∀ r : MemoryRecord, (if key r.noId == call.slot then call.update r.noId else r.noId) =
      (if key r == call.slot then call.update r else r).noId := by
    intro r
    rw [key_noId]
    split
    · rfl
    · rfl
  rw [ownRows, ownRows, Table.select, Table.select, h, List.filter_map, List.map_map, List.map_map]
  have hown : ((fun r => r.agentId == agent) ∘ fun r => if key r == call.slot then call.update r else r) =
      fun r : MemoryRecord => r.agentId == agent := by
    funext r
    rw [Function.comp, hagent]
  rw [hown]
  exact List.map_congr_left fun r _ => (hid r).symm

theorem ownRows_snoc {row : MemoryRecord} {m' : AgentMemoryStore} (h : m'.rows.rows = m.rows.rows ++ [row]) :
    ownRows agent m' = if row.agentId = agent then ownRows agent m ++ [row.noId] else ownRows agent m := by
  rw [ownRows, ownRows, Table.select, Table.select, h, List.filter_append, List.map_append]
  split
  · rename_i hagent
    have hrow : [row].filter (fun r => r.agentId == agent) = [row] := by simp [hagent]
    rw [hrow]
    rfl
  · rename_i hagent
    rw [List.filter_cons_of_neg (by simpa using hagent)]
    exact List.append_nil _

/-- A write that fits goes into the rows of the agent that makes it, and no others. -/
theorem write_own {call : SetCall} (hfits : fitsInteger call.ttl = true) : ∃ m', m.write call = .ok m' ∧
    ∀ agent, ownRows agent m' = if call.agentId = agent then putOwn call (ownRows agent m) else ownRows agent m := by
  have hany : m.rows.rows.any (fun r => key r == call.slot) =
      (ownRows call.agentId m).any (fun r => key r == call.slot) := any_own call.key call.nspace
  cases hfind : m.rows.find? call.slot with
  | some r₀ =>
    refine ⟨_, by rw [AgentMemoryStore.write, hfits, hfind]; rfl, fun agent => ?_⟩
    have hrows : ownRows agent { m with rows := m.rows.modify (fun r => key r == call.slot) call.update call.key_update } =
        (ownRows agent m).map (fun r => if key r == call.slot then call.update r else r) := ownRows_update rfl
    refine hrows.trans ?_
    split
    · rename_i hagent
      subst hagent
      obtain ⟨hmem, hslot⟩ := Table.find_some_iff.mp hfind
      have hhas : m.rows.rows.any (fun r => key r == call.slot) = true :=
        List.any_eq_true.mpr ⟨r₀, hmem, beq_iff_eq.mpr hslot⟩
      rw [putOwn, ← hany, hhas, if_pos rfl]
    · rename_i hagent
      have hkept : ∀ r ∈ ownRows agent m, (if key r == call.slot then call.update r else r) = r := by
        intro r hr
        rw [if_neg (by simpa using key_ne_of_mem_ownRows hr hagent)]
      rw [List.map_congr_left hkept, List.map_id']
  | none =>
    have hnew : (m.rows.insert? (call.row m.nextId)).isSome = true := Table.insert_isSome.mpr hfind
    obtain ⟨rows, hrows⟩ := Option.isSome_iff_exists.mp hnew
    refine ⟨⟨rows, m.nextId + 1⟩, by rw [AgentMemoryStore.write, hfits, hfind, hrows]; rfl, fun agent => ?_⟩
    rw [ownRows_snoc (m := m) (Table.insert_some hrows).2]
    split
    · rename_i hagent
      have hown : call.agentId = agent := hagent
      subst hown
      have hhas : m.rows.rows.any (fun r => key r == call.slot) = false := by
        rw [List.any_eq_false]
        intro r hr
        simpa using Table.find_none_iff.mp hfind r hr
      rw [if_pos rfl, putOwn, ← hany, hhas]
      rfl
    · rename_i hagent
      exact (if_neg hagent).symm

theorem ownRows_filter {q : MemoryRecord → Bool} (hq : ∀ r, q r.noId = q r) {m' : AgentMemoryStore}
    (h : m'.rows.rows = m.rows.rows.filter q) : ownRows agent m' = (ownRows agent m).filter q := by
  have hcomp : (q ∘ MemoryRecord.noId) = q := funext hq
  rw [ownRows, ownRows, Table.select, Table.select, h, List.filter_map, hcomp, List.filter_comm]

theorem delete_own (k agentId nspace : String) : ownRows agent (m.delete k agentId nspace).2 =
    (ownRows agent m).filter (fun r => !(key r == (agentId, k, nspace))) :=
  ownRows_filter (fun _ => rfl) rfl

theorem deleted_own (k nspace : String) :
    (m.delete k agent nspace).1 = (ownRows agent m).any (fun r => key r == (agent, k, nspace)) := by
  rw [← any_own, AgentMemoryStore.delete, Bool.eq_iff_iff]
  simp [Table.select]

theorem purge_own (now : Rat) :
    ownRows agent (m.purgeExpired now).2 = (ownRows agent m).filter (MemoryRecord.alive now) := by
  have hown : ownRows agent (m.purgeExpired now).2 = (ownRows agent m).filter (fun r => !!r.alive now) :=
    ownRows_filter (fun _ => rfl) rfl
  simpa using hown

end Own

section Isolation

variable (p : Python) (lib : MemoryLibrary) (agent : String)

/-- An event acts for an agent: a request that its route lets through to the agent's entries, or a purge. -/
def actsFor : MemoryEvent → Bool
  | .request _ _ call => call.scoped && resolveAgentId call.caller call.agentId == some agent
  | .purge _ => true

variable {p lib agent} {m m' : AgentMemoryStore} {now later : Rat}

/-- A caller acts for the agent in the path: for itself, or for any with the admin scope. -/
theorem resolveAgentId_some {caller : Caller} {path effective : String}
    (h : resolveAgentId caller path = some effective) :
    effective = path ∧ (caller.agentId = .str effective ∨ contains caller.tokenScopes "registry:admin" = true) := by
  unfold resolveAgentId at h
  split at h
  · rename_i hadmin
    cases h
    exact ⟨rfl, Or.inr hadmin⟩
  · split at h
    · rename_i hself
      cases h
      obtain ⟨s, hs, hcaller⟩ := Json.isWord_iff.mp hself
      rw [List.mem_singleton.mp hs] at hcaller
      exact ⟨rfl, Or.inl hcaller⟩
    · cases h

theorem readSet_agent {effective : String} {body : List (String × Json)} {call : SetCall}
    (h : readSet p now lib.intOfFloat later effective body = .ok call) : call.agentId = effective := by
  unfold readSet at h
  split at h
  · simp only at h
    split at h
    · cases h
    · split at h
      · cases h
      · cases h
      · cases h
      · cases h
        rfl
  · cases h

/-- The handlers that read answer from the rows of the agent they act for. -/
theorem views_own {rows rows' : List MemoryRecord}
    (h : rows.map MemoryRecord.noId = rows'.map MemoryRecord.noId) :
    rows.map (MemoryRecord.toDict p) = rows'.map (MemoryRecord.toDict p) := by
  have hviews := congrArg (List.map (MemoryRecord.toDict p)) h
  rwa [List.map_map, List.map_map] at hviews

theorem get_same (hsame : ownRows agent m = ownRows agent m') (k nspace : String) :
    (m.get now k agent nspace).map (MemoryRecord.toDict p) =
      (m'.get now k agent nspace).map (MemoryRecord.toDict p) := by
  have hrows : (m.get now k agent nspace).map MemoryRecord.noId = (m'.get now k agent nspace).map MemoryRecord.noId := by
    rw [get_own, get_own, hsame]
  have hviews := congrArg (Option.map (MemoryRecord.toDict p)) hrows
  rwa [Option.map_map, Option.map_map] at hviews

theorem listKeys_same (hsame : ownRows agent m = ownRows agent m') (start : String) (nspace : Option String)
    (limit offset : Int) : (m.listKeys now agent start nspace limit offset).map (MemoryRecord.toDict p) =
      (m'.listKeys now agent start nspace limit offset).map (MemoryRecord.toDict p) := by
  apply views_own
  simp only [AgentMemoryStore.listKeys, Bool.and_assoc]
  rw [page_own (fun _ => rfl) (fun _ _ => Iff.rfl), page_own (fun _ => rfl) (fun _ _ => Iff.rfl), hsame]

theorem search_same (hsame : ownRows agent m = ownRows agent m') (query : String) (nspace : Option String)
    (limit offset : Int) : (m.search lib.lower now query agent nspace limit offset).map (MemoryRecord.toDict p) =
      (m'.search lib.lower now query agent nspace limit offset).map (MemoryRecord.toDict p) := by
  apply views_own
  simp only [AgentMemoryStore.search, Bool.and_assoc]
  rw [page_own (fun _ => rfl) (fun _ _ => Iff.rfl), page_own (fun _ => rfl) (fun _ _ => Iff.rfl), hsame]

/-- A request to set an entry is answered alike, and leaves the agent the same rows. -/
theorem handleSet_same (hsame : ownRows agent m = ownRows agent m') {caller : Caller} {path : String}
    (hresolve : resolveAgentId caller path = some agent) (body : Option Json) :
    (handleSet p m now lib.intOfFloat later caller path body).1 =
        (handleSet p m' now lib.intOfFloat later caller path body).1 ∧
      ownRows agent (handleSet p m now lib.intOfFloat later caller path body).2 =
        ownRows agent (handleSet p m' now lib.intOfFloat later caller path body).2 := by
  cases body with
  | none => simp only [handleSet, hresolve, hsame, and_self]
  | some body =>
    cases body with
    | obj fields =>
      simp only [handleSet, hresolve]
      cases hread : readSet p now lib.intOfFloat later agent fields with
      | error answer => exact ⟨rfl, hsame⟩
      | ok call =>
        have hagent : call.agentId = agent := readSet_agent hread
        subst hagent
        cases hfits : fitsInteger call.ttl with
        | false =>
          have hraises : ∀ m : AgentMemoryStore, m.set call = .error .overflowError := by
            intro m
            rw [AgentMemoryStore.set, AgentMemoryStore.write, hfits]
            rfl
          simp only [hraises]
          exact ⟨trivial, hsame⟩
        | true =>
          obtain ⟨m₁, hwrite, hown⟩ := write_own (m := m) hfits
          obtain ⟨m₂, hwrite', hown'⟩ := write_own (m := m') hfits
          have hnext : ownRows call.agentId m₁ = ownRows call.agentId m₂ := by
            rw [hown, hown', if_pos rfl, if_pos rfl, hsame]
          have hback : (m₁.get call.later call.key call.agentId call.nspace).map (MemoryRecord.toDict p) =
              (m₂.get call.later call.key call.agentId call.nspace).map (MemoryRecord.toDict p) :=
            get_same hnext call.key call.nspace
          simp only [AgentMemoryStore.set, hwrite, hwrite', Except.map]
          cases hget : m₁.get call.later call.key call.agentId call.nspace with
          | none =>
            rw [hget, Option.map_none, eq_comm, Option.map_eq_none_iff] at hback
            rw [hback]
            exact ⟨rfl, hnext⟩
          | some entry =>
            rw [hget, Option.map_some, eq_comm, Option.map_eq_some_iff] at hback
            obtain ⟨entry', hget', hview⟩ := hback
            rw [hget']
            exact ⟨congrArg Answer.created hview.symm, hnext⟩
    | _ =>
      simp only [handleSet, hresolve]
      exact ⟨trivial, hsame⟩

theorem handleDelete_same (hsame : ownRows agent m = ownRows agent m') {r : MemoryRequest}
    (hresolve : resolveAgentId r.caller r.agentId = some agent) :
    (handleDelete m r).1 = (handleDelete m' r).1 ∧
      ownRows agent (handleDelete m r).2 = ownRows agent (handleDelete m' r).2 := by
  simp only [handleDelete, hresolve]
  generalize r.nspace.getD namespacePersonal = nspace
  have hhit : (m.delete r.key agent nspace).1 = (m'.delete r.key agent nspace).1 := by
    rw [deleted_own, deleted_own, hsame]
  have hrows : ownRows agent (m.delete r.key agent nspace).2 = ownRows agent (m'.delete r.key agent nspace).2 := by
    rw [delete_own, delete_own, hsame]
  cases hdelete : m.delete r.key agent nspace with
  | mk hit m₁ =>
    cases hdelete' : m'.delete r.key agent nspace with
    | mk hit' m₂ =>
      rw [hdelete, hdelete'] at hhit hrows
      cases hhit
      cases hit with
      | false => exact ⟨rfl, hrows⟩
      | true => exact ⟨rfl, hrows⟩

/-- A handler that acts for the agent does the same in tables that have the same of it. -/
theorem handle_same (hsame : ownRows agent m = ownRows agent m') {call : MemoryCall}
    (hresolve : resolveAgentId call.caller call.agentId = some agent) :
    (call.handle p m now lib later).1 = (call.handle p m' now lib later).1 ∧
      ownRows agent (call.handle p m now lib later).2 = ownRows agent (call.handle p m' now lib later).2 := by
  cases call with
  | list r =>
    refine ⟨?_, hsame⟩
    have hr : resolveAgentId r.caller r.agentId = some agent := hresolve
    simp only [MemoryCall.handle, handleList, hr, MemoryRequest.reply, listKeys_same hsame]
  | get r =>
    refine ⟨?_, hsame⟩
    have hr : resolveAgentId r.caller r.agentId = some agent := hresolve
    simp only [MemoryCall.handle, handleGet, hr]
    generalize r.nspace.getD namespacePersonal = nspace
    have hget : (m.get now r.key agent nspace).map (MemoryRecord.toDict p) =
        (m'.get now r.key agent nspace).map (MemoryRecord.toDict p) := get_same hsame r.key nspace
    cases hfound : m.get now r.key agent nspace with
    | none =>
      rw [hfound, Option.map_none, eq_comm, Option.map_eq_none_iff] at hget
      rw [hget]
    | some entry =>
      rw [hfound, Option.map_some, eq_comm, Option.map_eq_some_iff] at hget
      obtain ⟨entry', hfound', hview⟩ := hget
      rw [hfound']
      exact congrArg (fun view => Answer.reply (.entry view)) hview.symm
  | search r =>
    refine ⟨?_, hsame⟩
    have hr : resolveAgentId r.caller r.agentId = some agent := hresolve
    simp only [MemoryCall.handle, handleSearch, hr, MemoryRequest.reply, search_same hsame]
  | set caller path body => exact handleSet_same hsame hresolve body
  | delete r => exact handleDelete_same hsame hresolve

theorem handleSet_other {caller : Caller} {path : String} (hother : resolveAgentId caller path ≠ some agent)
    (body : Option Json) :
    ownRows agent (handleSet p m now lib.intOfFloat later caller path body).2 = ownRows agent m := by
  unfold handleSet
  split
  · rfl
  · rfl
  · rename_i effective fields hresolve
    split
    · rfl
    · rename_i call hread
      have hne : call.agentId ≠ agent := by
        rw [readSet_agent hread]
        exact fun he => hother (he ▸ hresolve)
      cases hfits : fitsInteger call.ttl with
      | false =>
        rw [AgentMemoryStore.set, AgentMemoryStore.write, hfits]
        rfl
      | true =>
        obtain ⟨m₁, hwrite, hown⟩ := write_own (m := m) hfits
        have hkept : ownRows agent m₁ = ownRows agent m := by rw [hown, if_neg hne]
        rw [AgentMemoryStore.set, hwrite]
        cases hget : m₁.get call.later call.key call.agentId call.nspace with
        | none => simpa only [Except.map, hget] using hkept
        | some entry => simpa only [Except.map, hget] using hkept
  · rfl

theorem handleDelete_other {r : MemoryRequest} (hother : resolveAgentId r.caller r.agentId ≠ some agent) :
    ownRows agent (handleDelete m r).2 = ownRows agent m := by
  unfold handleDelete
  split
  · rfl
  · rename_i effective hresolve
    have hkept : ∀ nspace, ownRows agent (m.delete r.key effective nspace).2 = ownRows agent m := by
      intro nspace
      rw [delete_own, List.filter_eq_self]
      intro row hrow
      have hkey : key row ≠ (effective, r.key, nspace) :=
        key_ne_of_mem_ownRows hrow fun he => hother (he ▸ hresolve)
      simpa using hkey
    have hnext := hkept (r.nspace.getD namespacePersonal)
    cases hdelete : m.delete r.key effective (r.nspace.getD namespacePersonal) with
    | mk hit m₁ =>
      rw [hdelete] at hnext
      simp only [hdelete]
      cases hit with
      | false => exact hnext
      | true => exact hnext

/-- One that does not act for the agent leaves it the rows it has. -/
theorem handle_other {call : MemoryCall} (hother : resolveAgentId call.caller call.agentId ≠ some agent) :
    ownRows agent (call.handle p m now lib later).2 = ownRows agent m := by
  cases call with
  | list r => rfl
  | get r => rfl
  | search r => rfl
  | set caller path body => exact handleSet_other hother body
  | delete r => exact handleDelete_other hother

theorem step_same (hsame : ownRows agent m = ownRows agent m') {event : MemoryEvent} (hacts : actsFor agent event = true) :
    (memoryStep p m lib event).1 = (memoryStep p m' lib event).1 ∧
      ownRows agent (memoryStep p m lib event).2 = ownRows agent (memoryStep p m' lib event).2 := by
  cases event with
  | request now later call =>
    obtain ⟨hscoped, hresolve⟩ := Bool.and_eq_true_iff.mp hacts
    simp only [memoryStep, MemoryCall.serve, hscoped, if_true]
    obtain ⟨hanswer, hrows⟩ := handle_same hsame (beq_iff_eq.mp hresolve)
    exact ⟨congrArg some hanswer, hrows⟩
  | purge now => exact ⟨rfl, by rw [memoryStep, memoryStep, purge_own, purge_own, hsame]⟩

theorem step_other {event : MemoryEvent} (hacts : actsFor agent event = false) :
    ownRows agent (memoryStep p m lib event).2 = ownRows agent m := by
  cases event with
  | request now later call =>
    simp only [memoryStep, MemoryCall.serve]
    split
    · rename_i hscoped
      apply handle_other
      intro hresolve
      rw [actsFor, hscoped, hresolve] at hacts
      simp at hacts
    · rfl
  | purge now => cases hacts

/-- Agents do not interfere through memory. Whatever requests and purges there are, those that act for an agent are
answered as they are without all the others, from any table that has the same entries of the agent; and only the agent
itself and callers with the admin scope make requests that act for it. -/
theorem memory_isolated (p : Python) (lib : MemoryLibrary) (agent : String) {m m' : AgentMemoryStore}
    (hsame : ownRows agent m = ownRows agent m') (events : List MemoryEvent) :
    answersTo (fun m event => memoryStep p m lib event) (actsFor agent) m events =
        outputs (fun m event => memoryStep p m lib event) m' (events.filter (actsFor agent)) ∧
      ∀ now later call, actsFor agent (.request now later call) = true →
        call.caller.agentId = .str agent ∨ contains call.caller.tokenScopes "registry:admin" = true := by
  constructor
  · apply answers_purged (R := fun m m' => ownRows agent m = ownRows agent m') _ _ hsame
    · intro m m' event hs hacts
      exact step_same hs hacts
    · intro m m' event hs hacts
      exact (step_other hacts).trans hs
  · intro now later call hacts
    exact (resolveAgentId_some (beq_iff_eq.mp (Bool.and_eq_true_iff.mp hacts).2)).2

/-- Requests of two agents, one of which tries to delete an entry of the other. -/
def crossTalk : List MemoryEvent :=
  let writer := fun agentId : String => Caller.mk (.str agentId) "memory:read memory:write"
  [.request 1 1 (.set (writer "agent-b") "agent-b" (some (.obj [("key", .str "note"), ("value", .int 1)]))),
    .request 2 2 (.delete { caller := writer "agent-a", agentId := "agent-b", key := "note" }),
    .request 3 3 (.get { caller := writer "agent-b", agentId := "agent-b", key := "note" })]

/-- A table with a fact of one agent. -/
def factTable : AgentMemoryStore := AgentMemoryStore.step AgentMemoryStore.empty (.set AgentMemoryStore.sharedFact)

/-- They are answered to the other agent as if they were alone. -/
theorem crossTalk_isolated :
    ownRows "agent-b" factTable = ownRows "agent-b" AgentMemoryStore.empty ∧
      answersTo (fun m event => memoryStep ⟨id, fun _ => true⟩ m ⟨id, fun _ => .refused⟩ event) (actsFor "agent-b")
          factTable crossTalk =
        outputs (fun m event => memoryStep ⟨id, fun _ => true⟩ m ⟨id, fun _ => .refused⟩ event) AgentMemoryStore.empty
          (crossTalk.filter (actsFor "agent-b")) :=
  have hsame : ownRows "agent-b" factTable = ownRows "agent-b" AgentMemoryStore.empty := by decide +kernel
  ⟨hsame, (memory_isolated ⟨id, fun _ => true⟩ ⟨id, fun _ => .refused⟩ "agent-b" hsame crossTalk).1⟩

end Isolation

end A2ARegistry.Orchestration.Memory
