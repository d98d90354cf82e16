import Mathlib.Data.List.ReduceOption
import Mathlib.Logic.Function.Basic
import A2ARegistry.Base.Outcomes
import A2ARegistry.Base.Records
import A2ARegistry.Registry.Handlers

namespace A2ARegistry.Registry
open Base

section Definitions

/-- The registry, and the card each agent was registered with, as it was posted. -/
structure Book where
  store : Store
  card : String → List (String × Json)

def Book.start : Book := ⟨⟨Table.empty, AutoTable.empty⟩, fun _ => []⟩

/-- A call of the store that changes its agents. -/
inductive BookCall
  | registerAgent (draw : RegisterDraw) (card : List (String × Json)) (tenant : Json)
  | heartbeat (now : Rat) (agentId tenant : String)
  | unregister (agentId tenant : String)
  | purgeStale (now : Rat)
  | toggleAgent (agentId tenant : String)

def Book.step (env : Env) (b : Book) : BookCall → Book
  | .registerAgent draw card tenant => match registerCard env b.store draw card tenant with
    | some store => ⟨store, Function.update b.card draw.agentId card⟩
    | none => b
  | .heartbeat now agentId tenant => { b with store := b.store.heartbeat now agentId tenant }
  | .unregister agentId tenant => { b with store := b.store.unregister agentId tenant }
  | .purgeStale now => { b with store := b.store.purgeStale now }
  | .toggleAgent agentId tenant => { b with store := b.store.toggleAgent agentId tenant }

variable (card : List (String × Json))

/-- The skills a posted card declares, where v1.0 has them or where v0.x had them. -/
def skillsOf : List Json := (orEmpty (skillsRaw card)).iterate.getD []

/-- One of its skills has the text in its id or its name, where the case does not count. -/
def HasSkill (lower : String → String) (skill : String) : Prop :=
  ∃ fields, Json.obj fields ∈ skillsOf card ∧ ∃ text,
    (Json.field fields "id" = .str text ∨ Json.field fields "name" = .str text) ∧
      contains (lower text) (lower skill) = true

/-- It is posted with the tag. -/
def HasTag (tag : String) : Prop := ∃ items, Json.field card "tags" = .arr items ∧ Json.str tag ∈ items

/-- What an agent is searched by. -/
def Wanted (lower : String → String) (skill tag : Option String) : Prop :=
  (truthy skill = true → HasSkill card lower (skill.getD "")) ∧ (truthy tag = true → HasTag card (tag.getD ""))

/-- The search returns, and lists exactly the agents the tenant sees whose cards are asked for, each once. -/
def SearchExact (env : Env) (b : Book) (now : Rat) (skill tag tenant : Option String) : Prop :=
  ∃ views, b.store.searchAgents now skill tag tenant = some views ∧ (views.map Store.AgentView.id).Nodup ∧
    ∀ id, id ∈ views.map Store.AgentView.id ↔ ∃ row ∈ b.store.agents.rows, row.id = id ∧
      Store.visibleTo tenant row = true ∧ Wanted (b.card id) env.lower skill tag

/-- The name of a skill, or its id where the name is empty: what of it is looked at. -/
def shownText (fields : List (String × Json)) : Json :=
  let name := Json.get fields "name" (.str "")
  if name.truthy then name else orDefault (Json.get fields "id" (.str "")) (.str "")

/-- What is looked at has the text, as it is written. -/
def Hit (skill : String) (s : Json) : Prop := ∃ fields, s = .obj fields ∧ Store.textIn skill (shownText fields) = some true

/-- Up to the first skill that has the text, what is looked at is a text, a list or an object. -/
def Searchable (skill : String) : List Json → Prop
  | [] => True
  | s :: skills => (∀ fields, s = .obj fields → Store.textIn skill (shownText fields) ≠ none) ∧
    (Hit skill s ∨ Searchable skill skills)

/-- The search sees of a card what it is to see. -/
structure Clear (lower : String → String) (skill tag : Option String) : Prop where
  readable : truthy skill = true → Searchable (skill.getD "") (skillsOf card)
  seen : truthy skill = true → truthy tag = false → HasSkill card lower (skill.getD "") →
    ∃ s ∈ skillsOf card, Hit (skill.getD "") s
  meant : truthy skill = true → truthy tag = false → (∃ s ∈ skillsOf card, Hit (skill.getD "") s) →
    HasSkill card lower (skill.getD "")
  untagged : truthy tag = true → HasTag card (tag.getD "") → truthy skill = true ∧ ¬ HasSkill card lower (skill.getD "")

end Definitions

section Cards

variable {card : List (String × Json)} {parsed : AgentCard} {skill : String}

theorem toDict_written (fields : List (String × Json)) : Orchestration.toDict fields = written fields := rfl

theorem skill_stored {s t : Json} (h : dictToSkill s = .ok t) : ∃ fields stored, s = .obj fields ∧ t = .obj stored ∧
    Store.skillText stored = shownText fields := by
  rw [dictToSkill] at h
  obtain ⟨fields, hfields, h⟩ := Returns.bind_ok_iff.mp h
  obtain ⟨requirements, _, h⟩ := Returns.bind_ok_iff.mp h
  cases h
  cases s with
  | obj d =>
    cases hfields
    refine ⟨fields, _, rfl, rfl, ?_⟩
    rw [toDict_written, Store.skillText, shownText]
    rw [get_written_mem (by simp) (by simp : ("name", Json.get fields "name" (.str "")) ∈ _),
      get_written_mem (by simp) (by simp : ("id", Json.get fields "id" (.str "")) ∈ _)]
    generalize Json.get fields "name" (.str "") = name
    cases name with
    | null => rfl
    | _ => rfl
  | _ => cases hfields

theorem fromDict_skills (h : AgentCard.fromDict (.obj card) = .ok parsed) :
    ∃ stored, parsed.skills = .arr stored ∧ (skillsOf card).mapM dictToSkill = .ok stored := by
  rw [AgentCard.fromDict] at h
  obtain ⟨d, hd, h⟩ := Returns.bind_ok_iff.mp h
  cases hd
  obtain ⟨_, -, h⟩ := Returns.bind_ok_iff.mp h
  obtain ⟨skills, hskills, h⟩ := Returns.bind_ok_iff.mp h
  obtain ⟨_, -, h⟩ := Returns.bind_ok_iff.mp h
  obtain ⟨_, -, h⟩ := Returns.bind_ok_iff.mp h
  obtain ⟨_, -, h⟩ := Returns.bind_ok_iff.mp h
  obtain ⟨_, -, h⟩ := Returns.bind_ok_iff.mp h
  obtain ⟨_, -, h⟩ := Returns.bind_ok_iff.mp h
  cases h
  unfold convertEach at hskills
  unfold skillsOf
  split at hskills
  · rename_i items hitems
    rw [hitems]
    obtain ⟨stored, hstored, he⟩ := Returns.bind_ok_iff.mp hskills
    cases he
    exact ⟨stored, rfl, hstored⟩
  · cases hskills

theorem toDict_skills (parsed : AgentCard) {stored : List Json} (h : parsed.skills = .arr stored) :
    Json.get parsed.toDict "skills" (.arr []) = .arr stored := by
  rw [AgentCard.toDict, toDict_written, get_written_mem (by simp) (by simp : ("skills", parsed.skills) ∈ _), h]
  rfl

/-- A card is stored without the tags it is posted with. -/
theorem toDict_tags (parsed : AgentCard) : Json.get parsed.toDict "tags" (.arr []) = .arr [] := by
  rw [AgentCard.toDict, toDict_written]
  exact get_written_not_mem (by simp) _

/-- A loop that goes through, as the pairs of its elements. -/
theorem mapM_ok_forall₂ {ε α β : Type} {f : α → Except ε β} {as : List α} {bs : List β} (h : as.mapM f = .ok bs) :
    List.Forall₂ (fun a b => f a = .ok b) as bs := by
  induction as generalizing bs with
  | nil =>
    cases h
    exact List.Forall₂.nil
  | cons a as ih =>
    rw [List.mapM_cons] at h
    obtain ⟨b, hb, h⟩ := Returns.bind_ok_iff.mp h
    obtain ⟨bs, hbs, h⟩ := Returns.bind_ok_iff.mp h
    cases h
    exact List.Forall₂.cons hb (ih hbs)

/-- The scan of the stored skills, by the skills that were posted. -/
theorem anySkill_spec {skills stored : List Json} (h : List.Forall₂ (fun s t => dictToSkill s = .ok t) skills stored) :
    (Searchable skill skills ↔ Store.anySkill skill stored ≠ none) ∧
      (Searchable skill skills → (Store.anySkill skill stored = some true ↔ ∃ s ∈ skills, Hit skill s)) := by
  induction h with
  | nil => simp [Searchable, Store.anySkill]
  | @cons s t skills stored hst _ ih =>
    obtain ⟨fields, d, rfl, rfl, htext⟩ := skill_stored hst
    have hhit : Hit skill (.obj fields) ↔ Store.textIn skill (shownText fields) = some true := by
      simp [Hit]
    have hread : (∀ fields', Json.obj fields = .obj fields' → Store.textIn skill (shownText fields') ≠ none) ↔
        Store.textIn skill (shownText fields) ≠ none := by
      simp
    rw [Searchable, hread, hhit, Store.anySkill, htext]
    cases hin : Store.textIn skill (shownText fields) with
    | none => simp
    | some found =>
      cases found with
      | true => simp [hhit, hin]
      | false => simpa [hhit, hin] using ih

/-- The test of a stored card, by the card that was posted. -/
theorem fitsSkill_spec (h : AgentCard.fromDict (.obj card) = .ok parsed) (skill : Option String) :
    (Store.fitsSkill skill parsed.toDict ≠ none ↔
      (truthy skill = true → Searchable (skill.getD "") (skillsOf card))) ∧
    ((truthy skill = true → Searchable (skill.getD "") (skillsOf card)) →
      (Store.fitsSkill skill parsed.toDict = some true ↔
        (truthy skill = true → ∃ s ∈ skillsOf card, Hit (skill.getD "") s))) := by
  unfold Store.fitsSkill
  by_cases hskill : truthy skill = true
  · obtain ⟨stored, hskills, hstored⟩ := fromDict_skills h
    obtain ⟨hread, hhit⟩ := @anySkill_spec (skill.getD "") _ _ (mapM_ok_forall₂ hstored)
    rw [if_pos hskill, toDict_skills parsed hskills]
    simp only [hskill, forall_const]
    exact ⟨hread.symm, hhit⟩
  · simp [hskill]

theorem fitsTag_toDict (parsed : AgentCard) (tag : Option String) :
    Store.fitsTag tag parsed.toDict = some (!truthy tag) := by
  unfold Store.fitsTag
  rw [toDict_tags]
  by_cases htag : truthy tag = true
  · simp [htag, Store.textIn]
  · simp [htag]

end Cards

section Rows

variable {env : Env} {b : Book} {row : AgentRow} {card : List (String × Json)} {now : Rat} {skill tag : Option String}

/-- A row that stems from the registration of a card. -/
structure FromCard (card : List (String × Json)) (row : AgentRow) : Prop where
  parsed : ∃ parsed, AgentCard.fromDict (.obj card) = .ok parsed ∧ row.card = .obj parsed.toDict
  heartbeat : ∃ lastHb, row.heartbeatAt = some lastHb

def AllFromCards (b : Book) : Prop := ∀ row ∈ b.store.agents.rows, FromCard (b.card row.id) row

theorem allFromCards_modify (h : AllFromCards b) {p : AgentRow → Bool} {f : AgentRow → AgentRow}
    (hf : ∀ row, key (f row) = key row) (hrow : ∀ card row, FromCard card row → FromCard card (f row)) :
    AllFromCards { b with store := { b.store with agents := b.store.agents.modify p f hf } } := by
  intro row hmem
  have hmodified : row ∈ (b.store.agents.modify p f hf).rows := hmem
  obtain ⟨old, hold, rfl⟩ := Table.mem_modify.mp hmodified
  split
  · have hid : (f old).id = old.id := hf old
    rw [hid]
    exact hrow _ old (h old hold)
  · exact h old hold

theorem allFromCards_delete (h : AllFromCards b) (p : AgentRow → Bool) :
    AllFromCards { b with store := { b.store with agents := b.store.agents.delete p } } :=
  fun row hrow => h row (List.mem_of_mem_filter hrow)

theorem allFromCards_step (call : BookCall) (h : AllFromCards b) : AllFromCards (b.step env call) := by
  cases call with
  | registerAgent draw card tenant =>
    cases hregister : registerCard env b.store draw card tenant with
    | none =>
      simp only [Book.step, hregister]
      exact h
    | some store =>
      simp only [Book.step, hregister]
      obtain ⟨parsed, row, hparsed, hrow⟩ := registerCard_some hregister
      intro r hr
      rw [hrow.rows_eq] at hr
      rcases List.mem_append.mp hr with hr | hr
      · have hne : r.id ≠ draw.agentId := Table.find_none_iff.mp hrow.fresh r hr
        simp only [Function.update_of_ne hne]
        exact h r hr
      · rw [List.mem_singleton.mp hr, hrow.id_eq]
        simp only [Function.update_self]
        exact ⟨⟨parsed, hparsed, hrow.card_eq⟩, ⟨draw.now, hrow.heartbeat_eq⟩⟩
  | heartbeat now agentId tenant => exact allFromCards_modify h _ fun _ _ hrow => ⟨hrow.parsed, now, rfl⟩
  | unregister agentId tenant => exact allFromCards_delete h _
  | purgeStale now => exact allFromCards_delete h _
  | toggleAgent agentId tenant => exact allFromCards_modify h _ fun _ _ hrow => ⟨hrow.parsed, hrow.heartbeat⟩

theorem allFromCards (env : Env) (calls : List BookCall) : AllFromCards (exec (Book.step env) Book.start calls) :=
  exec_invariant (fun _ call h => allFromCards_step call h) (fun _ hrow => absurd hrow List.not_mem_nil) calls

/-- A row in the loop of the search, by the card it was registered with. -/
theorem searchRow_spec (h : FromCard card row) (now : Rat) (skill tag : Option String) :
    (Store.searchRow now skill tag row ≠ none ↔ (truthy skill = true → Searchable (skill.getD "") (skillsOf card))) ∧
    ∀ found, Store.searchRow now skill tag row = some found → (∀ view ∈ found, view.id = row.id) ∧
      (found.isSome = true ↔
        (truthy skill = true → ∃ s ∈ skillsOf card, Hit (skill.getD "") s) ∧ truthy tag = false) := by
  obtain ⟨⟨parsed, hparsed, hcard⟩, lastHb, hheartbeat⟩ := h
  obtain ⟨view, hview⟩ : ∃ view, Store.readAgent now true row = some view := by
    rw [Store.readAgent, hcard, hheartbeat]
    exact ⟨_, rfl⟩
  obtain ⟨hviewCard, hviewId, _, _⟩ := Store.readAgent_some hview
  have hcardEq : view.card = parsed.toDict := by
    rw [hcard] at hviewCard
    exact (Json.obj.inj hviewCard).symm
  obtain ⟨hread, hhit⟩ := fitsSkill_spec hparsed skill
  unfold Store.searchRow
  rw [hview, Option.bind_some, hcardEq, fitsTag_toDict, ← hread]
  cases hfits : Store.fitsSkill skill parsed.toDict with
  | none => simp
  | some bySkill =>
    have hiff := hhit (hread.mp (by simp [hfits]))
    rw [hfits] at hiff
    rw [← hiff]
    cases bySkill with
    | false => simp
    | true => cases truthy tag <;> simp [hviewId]

/-- What a loop keeps are elements in their order, each at most once. -/
theorem reduceOption_sublist {α β γ : Type} {f : α → Option (Option β)} {k : α → γ} {l : β → γ} {as : List α}
    {bs : List (Option β)} (h : as.mapM f = some bs) (hkey : ∀ a ∈ as, ∀ v, f a = some (some v) → l v = k a) :
    (bs.reduceOption.map l).Sublist (as.map k) := by
  induction as generalizing bs with
  | nil =>
    obtain rfl : bs = [] := by simpa using h.symm
    exact List.Sublist.slnil
  | cons a as ih =>
    simp only [List.mapM_cons, Option.bind_eq_bind, Option.bind_eq_some_iff, Option.pure_def, Option.some.injEq] at h
    obtain ⟨kept, ha, rest, hrest, rfl⟩ := h
    have hsub := ih hrest fun u hu => hkey u (List.mem_cons_of_mem _ hu)
    cases kept with
    | none =>
      rw [List.reduceOption_cons_of_none]
      exact hsub.cons (k a)
    | some v =>
      rw [List.reduceOption_cons_of_some, List.map_cons, List.map_cons, hkey a List.mem_cons_self v ha]
      exact hsub.cons_cons (k a)

end Rows

section Exactness

variable {env : Env} {b : Book} {row : AgentRow} {now : Rat} {skill tag tenant : Option String}

/-- What a search finds of the agents that the tenant sees, by the cards they were registered with. -/
def Found (card : List (String × Json)) (skill tag : Option String) : Prop :=
  (truthy skill = true → ∃ s ∈ skillsOf card, Hit (skill.getD "") s) ∧ truthy tag = false

theorem clear_iff {card : List (String × Json)} {lower : String → String} : Clear card lower skill tag ↔
    (truthy skill = true → Searchable (skill.getD "") (skillsOf card)) ∧
      (Found card skill tag ↔ Wanted card lower skill tag) := by
  unfold Found Wanted
  constructor
  · intro h
    refine ⟨h.readable, ?_⟩
    by_cases hskill : truthy skill = true
    · by_cases htag : truthy tag = true
      · have huntagged := h.untagged htag
        simp only [hskill, htag, forall_const, Bool.true_eq_false, and_false, false_iff]
        exact fun hboth => (huntagged hboth.2).2 hboth.1
      · have hnone : truthy tag = false := by simpa using htag
        simp only [hskill, hnone, forall_const, and_true, Bool.false_eq_true, false_implies]
        exact ⟨h.meant hskill hnone, h.seen hskill hnone⟩
    · by_cases htag : truthy tag = true
      · have huntagged := h.untagged htag
        simp only [hskill, htag, forall_const, Bool.true_eq_false, and_false, false_iff]
        exact fun hboth => hskill (huntagged hboth.2).1
      · simp [hskill, htag]
  · intro h
    obtain ⟨hread, hiff⟩ := h
    refine ⟨hread, fun hskill htag hhas => ?_, fun hskill htag hhit => ?_, fun htag hhas => ?_⟩
    · exact (hiff.mpr ⟨fun _ => hhas, fun ht => by simp [htag] at ht⟩).1 hskill
    · exact (hiff.mp ⟨fun _ => hhit, htag⟩).1 hskill
    · by_contra hnot
      have hfound := hiff.mpr ⟨fun hskill => by_contra fun hlacks => hnot ⟨hskill, hlacks⟩, fun _ => hhas⟩
      simp [hfound.2] at htag

/-- A search that returns lists the agents it finds, each once. -/
theorem searchAgents_spec (h : AllFromCards b) {views : List Store.AgentView}
    (hviews : b.store.searchAgents now skill tag tenant = some views) :
    (views.map Store.AgentView.id).Nodup ∧ ∀ id, id ∈ views.map Store.AgentView.id ↔
      ∃ row ∈ b.store.agents.rows, row.id = id ∧ Store.visibleTo tenant row = true ∧ Found (b.card row.id) skill tag := by
  obtain ⟨rows, hrows, rfl⟩ := Option.map_eq_some_iff.mp hviews
  have hspec : ∀ row ∈ b.store.agents.select (Store.visibleTo tenant), ∀ found,
      Store.searchRow now skill tag row = some found →
        (∀ view ∈ found, view.id = row.id) ∧ (found.isSome = true ↔ Found (b.card row.id) skill tag) :=
    fun row hrow => (searchRow_spec (h row (Table.mem_select.mp hrow).1) now skill tag).2
  constructor
  · have hsub := reduceOption_sublist (k := AgentRow.id) (l := Store.AgentView.id) hrows
      fun row hrow view hread => (hspec row hrow _ hread).1 view rfl
    exact (b.store.agents.select_nodup _).sublist hsub
  · intro id
    rw [List.mem_map]
    constructor
    · intro hin
      obtain ⟨view, hview, rfl⟩ := hin
      obtain ⟨row, hrow, hread⟩ := Store.mem_mapM hrows (List.reduceOption_mem_iff.mp hview)
      obtain ⟨hmem, hvisible⟩ := Table.mem_select.mp hrow
      obtain ⟨hid, hfound⟩ := hspec row hrow _ hread
      exact ⟨row, hmem, (hid view rfl).symm, hvisible, hfound.mp rfl⟩
    · intro hin
      obtain ⟨row, hmem, rfl, hvisible, hfound⟩ := hin
      have hrow := Table.mem_select.mpr ⟨hmem, hvisible⟩
      obtain ⟨found, hin, hread⟩ := Store.mapM_mem hrows hrow
      obtain ⟨hid, hiff⟩ := hspec row hrow _ hread
      obtain ⟨view, rfl⟩ := Option.isSome_iff_exists.mp (hiff.mpr hfound)
      exact ⟨view, List.reduceOption_mem_iff.mpr hin, hid view rfl⟩

theorem searchAgents_returns (h : AllFromCards b) : (∃ views, b.store.searchAgents now skill tag tenant = some views) ↔
    ∀ row ∈ b.store.agents.rows, Store.visibleTo tenant row = true → truthy skill = true →
      Searchable (skill.getD "") (skillsOf (b.card row.id)) := by
  constructor
  · intro hreturns row hmem hvisible
    obtain ⟨views, hviews⟩ := hreturns
    obtain ⟨rows, hrows, _⟩ := Option.map_eq_some_iff.mp hviews
    obtain ⟨found, _, hread⟩ := Store.mapM_mem hrows (Table.mem_select.mpr ⟨hmem, hvisible⟩)
    exact (searchRow_spec (h row hmem) now skill tag).1.mp (by simp [hread])
  · intro hreadable
    have hall : ∀ row ∈ b.store.agents.select (Store.visibleTo tenant),
        (Store.searchRow now skill tag row).isSome = true := by
      intro row hrow
      obtain ⟨hmem, hvisible⟩ := Table.mem_select.mp hrow
      exact Option.isSome_iff_ne_none.mpr ((searchRow_spec (h row hmem) now skill tag).1.mpr (hreadable row hmem hvisible))
    obtain ⟨rows, hrows⟩ := Store.mapM_isSome hall
    exact ⟨_, Option.map_eq_some_iff.mpr ⟨rows, hrows, rfl⟩⟩

/-- In every registry that calls lead to a search is exact if and only if it sees of each card that the tenant sees what
it is to see. -/
theorem search_exact_iff (env : Env) (calls : List BookCall) (now : Rat) (skill tag tenant : Option String) :
    SearchExact env (exec (Book.step env) Book.start calls) now skill tag tenant ↔
      ∀ row ∈ (exec (Book.step env) Book.start calls).store.agents.rows, Store.visibleTo tenant row = true →
        Clear ((exec (Book.step env) Book.start calls).card row.id) env.lower skill tag := by
  have h := allFromCards env calls
  generalize exec (Book.step env) Book.start calls = b at h ⊢
  simp only [clear_iff]
  constructor
  · intro hexact row hmem hvisible
    obtain ⟨views, hviews, _, hids⟩ := hexact
    refine ⟨(searchAgents_returns h).mp ⟨views, hviews⟩ row hmem hvisible, ?_⟩
    have hsame : ∀ other ∈ b.store.agents.rows, other.id = row.id → other = row :=
      fun other hother hid => List.inj_on_of_nodup_map b.store.agents.nodup hother hmem hid
    have hlisted := ((searchAgents_spec h hviews).2 row.id).symm.trans (hids row.id)
    constructor
    · intro hfound
      obtain ⟨_, _, _, _, hwanted⟩ := hlisted.mp ⟨row, hmem, rfl, hvisible, hfound⟩
      exact hwanted
    · intro hwanted
      obtain ⟨other, hother, hid, _, hfound⟩ := hlisted.mpr ⟨row, hmem, rfl, hvisible, hwanted⟩
      exact hsame other hother hid ▸ hfound
  · intro hclear
    obtain ⟨views, hviews⟩ := (searchAgents_returns h).mpr fun row hmem hvisible => (hclear row hmem hvisible).1
    obtain ⟨hnodup, hids⟩ := searchAgents_spec h hviews
    refine ⟨views, hviews, hnodup, fun id => (hids id).trans ?_⟩
    constructor
    · intro hin
      obtain ⟨row, hmem, rfl, hvisible, hfound⟩ := hin
      exact ⟨row, hmem, rfl, hvisible, (hclear row hmem hvisible).2.mp hfound⟩
    · intro hin
      obtain ⟨row, hmem, rfl, hvisible, hwanted⟩ := hin
      exact ⟨row, hmem, rfl, hvisible, (hclear row hmem hvisible).2.mpr hwanted⟩

end Exactness

section Sample

def asciiEnv : Env :=
  let p : Python := ⟨id, fun _ => true⟩
  ⟨p, Orchestration.python p some, fun s => String.ofList (s.toList.map Char.toLower), fun _ => "0.0"⟩

def analystSkill : List (String × Json) := [("id", .str "s1"), ("name", .str "Data Analysis")]

def analystCard : List (String × Json) :=
  [("name", .str "Analyst"), ("skills", .arr [.obj analystSkill]), ("tags", .arr [.str "python"])]

/-- A registry with one agent. -/
def oneAnalyst : Book := exec (Book.step asciiEnv) Book.start [.registerAgent ⟨1, "a1", ""⟩ analystCard (.str "")]

theorem analyst_missed {skill tag : Option String} (hwanted : Wanted analystCard asciiEnv.lower skill tag)
    (hnone : ((oneAnalyst.store.searchAgents 2 skill tag none).map (List.map Store.AgentView.id)) = some []) :
    ¬ SearchExact asciiEnv oneAnalyst 2 skill tag none := by
  intro h
  obtain ⟨views, hviews, _, hids⟩ := h
  rw [hviews] at hnone
  obtain ⟨row, hrow, hid⟩ : ∃ row ∈ oneAnalyst.store.agents.rows, row.id = "a1" := by
    have hany : oneAnalyst.store.agents.rows.any (fun row => row.id == "a1") = true := by decide +kernel
    obtain ⟨row, hrow, hid⟩ := List.any_eq_true.mp hany
    exact ⟨row, hrow, by simpa using hid⟩
  have hlisted := (hids "a1").mpr ⟨row, hrow, hid, rfl, hwanted⟩
  rw [Option.some.inj hnone] at hlisted
  cases hlisted

/-- An agent is found neither by the id of a skill with a name, nor by its name in lower case, nor by a tag. -/
theorem filters_miss : ¬ SearchExact asciiEnv oneAnalyst 2 (some "s1") none none ∧
    ¬ SearchExact asciiEnv oneAnalyst 2 (some "data") none none ∧
    ¬ SearchExact asciiEnv oneAnalyst 2 none (some "python") none := by
  have hskill : Json.obj analystSkill ∈ skillsOf analystCard := List.mem_singleton.mpr rfl
  refine ⟨analyst_missed ⟨fun _ => ?_, nofun⟩ (by decide +kernel),
    analyst_missed ⟨fun _ => ?_, nofun⟩ (by decide +kernel), analyst_missed ⟨nofun, fun _ => ?_⟩ (by decide +kernel)⟩
  · exact ⟨analystSkill, hskill, "s1", Or.inl rfl, by decide +kernel⟩
  · exact ⟨analystSkill, hskill, "Data Analysis", Or.inr rfl, by decide +kernel⟩
  · exact ⟨[.str "python"], rfl, List.mem_singleton.mpr rfl⟩

end Sample

end A2ARegistry.Registry
