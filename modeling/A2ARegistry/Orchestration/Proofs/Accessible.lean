import A2ARegistry.Base.Letters
import A2ARegistry.Base.RoundTrip
import A2ARegistry.Orchestration.Proofs.Locks

namespace A2ARegistry.Orchestration.SharedWorkspace
open Base

section Members

variable (p : Python) {agentId : String} {w : Workspace}

/-- The list that is read back from the column contains the agent. -/
def Workspace.HasMember (p : Python) (w : Workspace) (agentId : String) : Prop :=
  ∃ items, Json.loads p w.memberColumn = some (.arr items) ∧ Json.str agentId ∈ items

theorem memberColumn_loads (w : Workspace) :
    Json.loads p w.memberColumn = some (.arr (w.memberAgentIds.map Json.str)) := by
  apply Json.loads_dumps
  rw [Json.Decoded, Json.every_arr]
  refine ⟨trivial, fun v hv => ?_⟩
  obtain ⟨id, _, rfl⟩ := List.mem_map.mp hv
  exact (Json.every_leaf rfl).mpr trivial

theorem hasMember_iff : w.HasMember p agentId ↔ agentId ∈ w.memberAgentIds := by
  unfold Workspace.HasMember
  rw [memberColumn_loads]
  constructor
  · intro h
    obtain ⟨items, he, hin⟩ := h
    cases he
    simpa using hin
  · exact fun h => ⟨_, rfl, List.mem_map_of_mem h⟩

/-- The text of the column contains what the name stands for as a pattern. -/
def Workspace.Shows (w : Workspace) (agentId : String) : Prop :=
  Spells (cText ('%' :: (agentId.toList ++ ['%']))) (cText w.memberColumn.toList)

theorem shows_iff : likeText ("%" ++ agentId ++ "%") w.memberColumn = true ↔ w.Shows agentId := by
  rw [likeText_iff, Workspace.Shows]
  simp

end Members

section Column

variable {agentId : String} {w : Workspace} {c : Char}

theorem memberColumn_chars (w : Workspace) : w.memberColumn.toList =
    '[' :: (Json.renderItems Json.dumpsStyle (w.memberAgentIds.map Json.str) ++ [']']) := by
  rw [Workspace.memberColumn, Json.dumps, String.toList_ofList, Json.render]

theorem renderItems_printable (ids : List String) :
    ∀ d ∈ Json.renderItems Json.dumpsStyle (ids.map Json.str), Json.Printable d := by
  have htext : ∀ (id : String), ∀ d ∈ Json.render Json.dumpsStyle (.str id), Json.Printable d := by
    intro id d hd
    rcases List.mem_cons.mp hd with rfl | hd
    · exact ⟨by decide, by decide⟩
    rcases List.mem_append.mp hd with hd | hd
    · obtain ⟨c, _, hc⟩ := List.mem_flatMap.mp hd
      exact Json.dumpsChar_printable c d hc
    · rw [List.mem_singleton.mp hd]
      exact ⟨by decide, by decide⟩
  induction ids with
  | nil => simp [Json.renderItems]
  | cons id ids ih =>
    cases ids with
    | nil => exact htext id
    | cons other ids =>
      intro d hd
      rcases List.mem_append.mp hd with hd | hd
      · exact htext id d hd
      rcases List.mem_cons.mp hd with rfl | hd
      · exact ⟨by decide, by decide⟩
      rcases List.mem_cons.mp hd with rfl | hd
      · exact ⟨by decide, by decide⟩
      · exact ih d hd

theorem memberColumn_printable (w : Workspace) : ∀ d ∈ w.memberColumn.toList, Json.Printable d := by
  intro d hd
  rw [memberColumn_chars] at hd
  rcases List.mem_cons.mp hd with rfl | hd
  · exact ⟨by decide, by decide⟩
  rcases List.mem_append.mp hd with hd | hd
  · exact renderItems_printable _ d hd
  · rw [List.mem_singleton.mp hd]
    exact ⟨by decide, by decide⟩

theorem cText_column (w : Workspace) : cText w.memberColumn.toList = w.memberColumn.toList :=
  cText_of_fresh fun hnul => absurd (memberColumn_printable w _ hnul).1 (by decide)

/-- A name that `json.dumps` writes as it is finds every workspace of its agent. -/
theorem member_shown (hself : ∀ c ∈ agentId.toList, Json.Printable c ∧ c ≠ '"' ∧ c ≠ '\\')
    (hmember : agentId ∈ w.memberAgentIds) : w.Shows agentId := by
  have hnul : '\x00' ∉ '%' :: (agentId.toList ++ ['%']) := by
    intro hin
    rcases List.mem_cons.mp hin with he | hin
    · exact absurd he (by decide)
    rcases List.mem_append.mp hin with hin | hin
    · exact absurd (hself _ hin).1.1 (by decide)
    · exact absurd (List.mem_singleton.mp hin) (by decide)
  have hwritten : agentId.toList.flatMap Json.dumpsChar = agentId.toList := by
    generalize agentId.toList = chars at hself
    induction chars with
    | nil => rfl
    | cons c chars ih =>
      obtain ⟨hc, hquote, hslash⟩ := hself c List.mem_cons_self
      rw [List.flatMap_cons, Json.dumpsChar_self hc hquote hslash, ih fun d hd => hself d (List.mem_cons_of_mem _ hd)]
      rfl
  obtain ⟨before, after, he⟩ := Json.renderItems_infix Json.dumpsStyle (List.mem_map_of_mem (f := Json.str) hmember)
  have htext : Json.render Json.dumpsStyle (.str agentId) = '"' :: (agentId.toList ++ ['"']) := by
    show '"' :: (agentId.toList.flatMap Json.dumpsChar ++ ['"']) = _
    rw [hwritten]
  have hcolumn : w.memberColumn.toList = ('[' :: before ++ ['"']) ++ agentId.toList ++ ('"' :: after ++ [']']) := by
    rw [memberColumn_chars, he, htext]
    simp
  rw [Workspace.Shows, cText_of_fresh hnul, cText_column, hcolumn]
  exact (Spells.self _).within _ _

theorem printable_of_alpha (h : c.isAlpha = true) : Json.Printable c := by
  simp only [Char.isAlpha, Char.isUpper, Char.isLower, Bool.or_eq_true, Bool.and_eq_true, decide_eq_true_eq] at h
  rcases h with h | h
  · exact ⟨UInt32.le_trans (by decide) h.1, UInt32.le_trans h.2 (by decide)⟩
  · exact ⟨UInt32.le_trans (by decide) h.1, UInt32.le_trans h.2 (by decide)⟩

/-- A name with a character that `json.dumps` escapes by its number finds no workspace. -/
theorem unprintable_hidden (hc : c ∈ cText agentId.toList) (hescaped : ¬ Json.Printable c) : ¬ w.Shows agentId := by
  intro hshows
  have hin : c ∈ cText ('%' :: (agentId.toList ++ ['%'])) := by
    rw [← List.cons_append]
    by_cases hnul : '\x00' ∈ '%' :: agentId.toList
    · rw [cText_cut hnul]
      exact List.mem_cons_of_mem _ hc
    · rw [cText_append hnul]
      exact List.mem_append_left _ (List.mem_cons_of_mem _ ((List.takeWhile_prefix _).subset hc))
  have hwild : c ≠ '%' ∧ c ≠ '_' := by
    refine ⟨fun he => hescaped ?_, fun he => hescaped ?_⟩
    · rw [he]
      exact ⟨by decide, by decide⟩
    · rw [he]
      exact ⟨by decide, by decide⟩
  obtain ⟨d, hd, hsame⟩ := hshows.letter_mem hin hwild.1 hwild.2
  rw [cText_column] at hd
  have hletter : c.isAlpha = false := by
    by_contra halpha
    exact hescaped (printable_of_alpha (by simpa using halpha))
  exact hescaped (sameLetter_other hletter hsame ▸ memberColumn_printable w d hd)

end Column

section Access

variable (p : Python) (lockTtl t₀ : Int) (ops : List (Int × Operation)) (agentId : String) (tenant : Option String)

/-- The workspaces of the tenant, if one is asked for. -/
structure Workspace.InTenant (db : Shared) (tenant : Option String) (w : Workspace) : Prop where
  stored : w ∈ db.workspaces.rows
  inside : ∀ name, tenant = some name → name ≠ "" → w.tenant = name

/-- What an agent is shown are the workspaces whose members it is one of. -/
def Accessible (p : Python) (db : Shared) (agentId : String) (tenant : Option String) : Prop :=
  ∀ w, w ∈ db.listAccessible (some agentId) tenant ↔ w.InTenant db tenant ∧ w.HasMember p agentId

/-- The name is empty, or stands for a part of the text of the column, but not for a member. -/
def Workspace.Mistaken (w : Workspace) (agentId : String) : Prop :=
  (agentId = "" ∨ w.Shows agentId) ∧ agentId ∉ w.memberAgentIds

/-- A member whose name is not empty and stands for no part of the text of the column. -/
def Workspace.Missed (w : Workspace) (agentId : String) : Prop :=
  agentId ∈ w.memberAgentIds ∧ agentId ≠ "" ∧ ¬ w.Shows agentId

theorem mem_listAccessible {db : Shared} {agentId : String} {tenant : Option String} {w : Workspace} :
    w ∈ db.listAccessible (some agentId) tenant ↔ w.InTenant db tenant ∧ (agentId = "" ∨ w.Shows agentId) := by
  have htenant : (!truthy tenant || some w.tenant == tenant) = true ↔
      ∀ name, tenant = some name → name ≠ "" → w.tenant = name := by
    cases tenant with
    | none => simp [truthy]
    | some name =>
      by_cases hname : name = ""
      · simp [truthy, hname]
      · simp [truthy, hname]
  have hagent : (!truthy (some agentId) || likeText ("%" ++ agentId ++ "%") w.memberColumn) = true ↔
      agentId = "" ∨ w.Shows agentId := by
    rw [Bool.or_eq_true, shows_iff]
    simp [truthy]
  rw [Shared.listAccessible, Table.mem_select, Bool.and_eq_true, htenant]
  rw [Option.getD_some, hagent]
  constructor
  · exact fun h => ⟨⟨h.1, h.2.1⟩, h.2.2⟩
  · exact fun h => ⟨h.1.stored, h.1.inside, h.2⟩

/-- In every state that is reached an agent is shown its workspaces and no others if and only if none is mistaken for
one of its own and none of its own is missed. -/
theorem accessible_iff :
    Accessible p (exec (Moment.step lockTtl) ⟨.empty, t₀⟩ ops).db agentId tenant ↔
      ∀ w : Workspace, w.InTenant (exec (Moment.step lockTtl) ⟨.empty, t₀⟩ ops).db tenant →
        ¬ w.Mistaken agentId ∧ ¬ w.Missed agentId := by
  refine forall_congr' fun w => ?_
  rw [mem_listAccessible, hasMember_iff]
  constructor
  · intro h hin
    refine ⟨fun hmistaken => hmistaken.2 (h.mp ⟨hin, hmistaken.1⟩).2, fun hmissed => ?_⟩
    exact (h.mpr ⟨hin, hmissed.1⟩).2.elim hmissed.2.1 hmissed.2.2
  · intro h
    constructor
    · intro hshown
      exact ⟨hshown.1, by_contra fun hnot => (h hshown.1).1 ⟨hshown.2, hnot⟩⟩
    · intro hmember
      refine ⟨hmember.1, by_contra fun hnot => ?_⟩
      obtain ⟨hempty, hhidden⟩ := not_or.mp hnot
      exact (h hmember.1).2 ⟨hmember.2, hempty, hhidden⟩

end Access

section Sample

/-- One agent creates a workspace and another joins it. -/
def aliceAndZoe : List (Int × Operation) :=
  [(0, .create "ws_1" "team" "/w" "" "alice" []), (1, .access (.join "ws_1" "zoé"))]

def aliceSpace : Workspace := ⟨"ws_1", "team", "/w", "", ["alice", "zoé"], "alice", 0⟩

/-- A part of a member's name is shown the workspace, and a member with an accent in its name is not. -/
theorem stranger_shown :
    ¬ Accessible ⟨id, fun _ => true⟩ (exec (Moment.step 300) ⟨.empty, 0⟩ aliceAndZoe).db "ali" none ∧
    ¬ Accessible ⟨id, fun _ => true⟩ (exec (Moment.step 300) ⟨.empty, 0⟩ aliceAndZoe).db "zoé" none := by
  have hrows : (exec (Moment.step 300) ⟨.empty, 0⟩ aliceAndZoe).db.workspaces.rows = [aliceSpace] := by decide
  have hin : aliceSpace.InTenant (exec (Moment.step 300) ⟨.empty, 0⟩ aliceAndZoe).db none :=
    ⟨by rw [hrows]; exact List.mem_cons_self, nofun⟩
  refine ⟨fun h => ?_, fun h => ?_⟩
  · have hshown : aliceSpace.Shows "ali" := shows_iff.mp (by decide)
    have hmember := ((h aliceSpace).mp (mem_listAccessible.mpr ⟨hin, Or.inr hshown⟩)).2
    exact absurd ((hasMember_iff _).mp hmember) (by decide)
  · have hmember : "zoé" ∈ aliceSpace.memberAgentIds := by decide
    have hshown := (mem_listAccessible.mp ((h aliceSpace).mpr ⟨hin, (hasMember_iff _).mpr hmember⟩)).2
    have hhidden : ¬ aliceSpace.Shows "zoé" := unprintable_hidden (c := 'é') (by decide) (fun h => absurd h.2 (by decide))
    exact hshown.elim (by decide) hhidden

end Sample

end A2ARegistry.Orchestration.SharedWorkspace
