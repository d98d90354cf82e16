import A2ARegistry.Base.Letters
import A2ARegistry.Orchestration.Proofs.MemoryVisibility

namespace A2ARegistry.Orchestration.Memory
open Base AgentMemoryStore

section Pages

variable {answers : Int → Int → List MemoryRecord} {wanted : MemoryRecord → Prop} {listing : List MemoryRecord}

/-- The answers are the pages of one list of exactly the entries that are wanted, each once. -/
def Pages (answers : Int → Int → List MemoryRecord) (wanted : MemoryRecord → Prop) : Prop :=
  ∃ listing : List MemoryRecord, listing.Nodup ∧ (∀ e, e ∈ listing ↔ wanted e) ∧
    ∀ limit offset, answers limit offset = AgentMemoryStore.page limit offset listing

theorem page_one (rows : List MemoryRecord) (i : Nat) : (AgentMemoryStore.page 1 i rows).head? = rows[i]? := by
  have hlimit : (min (max (1 : Int) 1) 1000).toNat = 1 := by decide
  have hoffset : (max (i : Int) 0).toNat = i := by omega
  rw [AgentMemoryStore.page, hlimit, hoffset, List.head?_take, if_neg (by decide), List.head?_drop]

/-- The pages of two lists are the same for the same lists only. -/
theorem page_ext {rows rows' : List MemoryRecord}
    (h : ∀ limit offset, AgentMemoryStore.page limit offset rows = AgentMemoryStore.page limit offset rows') :
    rows = rows' := by
  apply List.ext_getElem?
  intro i
  rw [← page_one, ← page_one, h]

theorem pages_iff (hnodup : listing.Nodup) :
    Pages (fun limit offset => AgentMemoryStore.page limit offset listing) wanted ↔ ∀ e, e ∈ listing ↔ wanted e := by
  constructor
  · intro h
    obtain ⟨wantedListing, _, hmem, hpages⟩ := h
    rw [page_ext hpages]
    exact hmem
  · exact fun h => ⟨listing, hnodup, h, fun _ _ => rfl⟩

theorem Pages.of_mem {e : MemoryRecord} {limit offset : Int} (h : Pages answers wanted) (he : e ∈ answers limit offset) :
    wanted e := by
  obtain ⟨listing, _, hmem, hpages⟩ := h
  rw [hpages] at he
  exact (hmem e).mp (page_mem he)

theorem Pages.shown {e : MemoryRecord} (h : Pages answers wanted) (he : wanted e) (limit : Int) :
    ∃ offset, e ∈ answers limit offset := by
  obtain ⟨listing, _, hmem, hpages⟩ := h
  obtain ⟨offset, _, hin⟩ := mem_page ((hmem e).mpr he) limit
  exact ⟨offset, by rw [hpages]; exact hin⟩

/-- What a list asks for of the rows, in some order, is what is wanted if and only if it asks for that of each row. -/
theorem sorted_pages_iff {m : AgentMemoryStore} {asked : MemoryRecord → Bool} {fits : MemoryRecord → Prop}
    (inScope : MemoryRecord → Prop) (r : MemoryRecord → MemoryRecord → Prop) [DecidableRel r]
    (hscope : ∀ e, inScope e → e ∈ m.rows.rows)
    (hasked : ∀ e ∈ m.rows.rows, asked e = true → inScope e) :
    Pages (fun limit offset => AgentMemoryStore.page limit offset ((m.rows.select asked).insertionSort r))
      (fun e => inScope e ∧ fits e) ↔ ∀ e, inScope e → (asked e = true ↔ fits e) := by
  have hnodup : ((m.rows.select asked).insertionSort r).Nodup :=
    (List.perm_insertionSort r _).nodup_iff.mpr (m.rows.select_nodup asked).of_map
  rw [pages_iff hnodup]
  refine forall_congr' fun e => ?_
  rw [List.mem_insertionSort, Table.mem_select]
  constructor
  · intro h hin
    exact ⟨fun ha => (h.mp ⟨hscope e hin, ha⟩).2, fun hfits => (h.mpr ⟨hin, hfits⟩).2⟩
  · intro h
    constructor
    · intro ha
      have hin := hasked e ha.1 ha.2
      exact ⟨hin, (h hin).mp ha.2⟩
    · intro hfits
      exact ⟨hscope e hfits.1, (h hfits.1).mpr hfits.2⟩

end Pages

section Texts

variable {text key query value : String} {lower : String → String}

/-- The unexpired entries of an agent, in the namespace that is asked for. -/
structure InScope (m : AgentMemoryStore) (now : Rat) (agentId : String) (nspace : Option String) (e : MemoryRecord) :
    Prop where
  stored : e ∈ m.rows.rows
  own : e.agentId = agentId
  inside : inNamespace nspace e = true
  alive : e.alive now = true

def StartsWith (key text : String) : Prop := text.toList <+: key.toList

/-- A value contains a query, where the case of ASCII letters does not count. -/
def ContainsFolded (value query : String) : Prop :=
  ∃ before spelled after, value.toList = before ++ spelled ++ after ∧
    List.Forall₂ (fun c d => sameLetter c d = true) query.toList spelled

/-- A key starts with what the prefix stands for as a pattern, but not with the prefix. -/
def MistakenKey (text key : String) : Prop :=
  Spells (cText (text.toList ++ ['%'])) (cText key.toList) ∧ ¬ StartsWith key text

/-- A value contains, in lower case, what the query stands for as a pattern in lower case. -/
def ContainsSpelled (lower : String → String) (value query : String) : Prop :=
  Spells (cText ('%' :: ((lower query).toList ++ ['%']))) (cText (value.toList.map Char.toLower))

def MistakenValue (lower : String → String) (query value : String) : Prop :=
  ContainsSpelled lower value query ∧ ¬ ContainsFolded value query

def MissedValue (lower : String → String) (query value : String) : Prop :=
  ContainsFolded value query ∧ ¬ ContainsSpelled lower value query

/-- A prefix stands for itself, whatever it is made of. -/
theorem startsWith_spelled (h : StartsWith key text) : Spells (cText (text.toList ++ ['%'])) (cText key.toList) := by
  obtain ⟨rest, hkey⟩ := h
  rw [← hkey]
  by_cases hnul : '\x00' ∈ text.toList
  · rw [cText_cut hnul, cText_cut hnul]
    exact Spells.self _
  · rw [cText_append hnul, cText_append hnul]
    exact (Spells.self _).append (Spells.remainder _)

theorem hasPrefix_iff {e : MemoryRecord} : hasPrefix text e = true ↔ StartsWith e.key text ∨ MistakenKey text e.key := by
  unfold hasPrefix
  rw [Bool.or_eq_true, beq_iff_eq, likeText_iff, String.toList_append]
  have hany : ("%" : String).toList = ['%'] := rfl
  rw [hany]
  constructor
  · intro h
    rcases h with h | h
    · subst h
      exact Or.inl (List.nil_prefix)
    · by_cases hstarts : StartsWith e.key text
      · exact Or.inl hstarts
      · exact Or.inr ⟨h, hstarts⟩
  · intro h
    rcases h with h | h
    · exact Or.inr (startsWith_spelled h)
    · exact Or.inr h.1

theorem matchesQuery_iff {e : MemoryRecord} :
    matchesQuery (lower query) e = true ↔ ContainsSpelled lower e.value query := by
  rw [matchesQuery, likeText_iff, ContainsSpelled]
  simp [lowerSql]

end Texts

section Exactness

variable (lower : String → String) (m : AgentMemoryStore) (now : Rat) (agentId text : String) (nspace : Option String)

/-- A list of keys has exactly the entries whose key starts with the prefix if and only if no other key starts with what
the prefix stands for as a pattern, and a search exactly those whose value contains the query if and only if the pattern
finds no other value and misses none of them. -/
theorem key_search_iff :
    (Pages (m.listKeys now agentId text nspace)
      (fun e => InScope m now agentId nspace e ∧ StartsWith e.key text) ↔
        ∀ e, InScope m now agentId nspace e → ¬ MistakenKey text e.key) ∧
    (Pages (m.search lower now text agentId nspace)
      (fun e => InScope m now agentId nspace e ∧ ContainsFolded e.value text) ↔
        ∀ e, InScope m now agentId nspace e → ¬ MistakenValue lower text e.value ∧ ¬ MissedValue lower text e.value) := by
  constructor
  · refine (sorted_pages_iff (InScope m now agentId nspace) (fun a b : MemoryRecord => a.key ≤ b.key)
      (fun e h => h.stored) ?_).trans ?_
    · intro e he hasked
      simp only [Bool.and_eq_true, beq_iff_eq] at hasked
      exact ⟨he, hasked.1.1.1, hasked.1.2, hasked.2⟩
    · refine forall_congr' fun e => forall_congr' fun hin => ?_
      simp only [hin.own, hin.inside, hin.alive, beq_self_eq_true, Bool.true_and, Bool.and_true, hasPrefix_iff]
      constructor
      · exact fun h hmistaken => hmistaken.2 (h.mp (Or.inr hmistaken))
      · exact fun h => ⟨fun hor => hor.resolve_right h, Or.inl⟩
  · refine (sorted_pages_iff (InScope m now agentId nspace) (fun a b : MemoryRecord => b.updatedAt ≤ a.updatedAt)
      (fun e h => h.stored) ?_).trans ?_
    · intro e he hasked
      simp only [Bool.and_eq_true, beq_iff_eq] at hasked
      exact ⟨he, hasked.1.1.1, hasked.1.2, hasked.2⟩
    · refine forall_congr' fun e => forall_congr' fun hin => ?_
      simp only [hin.own, hin.inside, hin.alive, beq_self_eq_true, Bool.true_and, Bool.and_true, matchesQuery_iff]
      constructor
      · exact fun h => ⟨fun hmistaken => hmistaken.2 (h.mp hmistaken.1), fun hmissed => hmissed.2 (h.mpr hmissed.1)⟩
      · intro h
        exact ⟨fun hspelled => by_contra fun hnot => h.1 ⟨hspelled, hnot⟩,
          fun hcontains => by_contra fun hnot => h.2 ⟨hcontains, hnot⟩⟩

end Exactness

section Plain

variable {text query key value : String} {lower : String → String}

/-- A text without wildcards, and without the NUL that would end it. -/
structure Plain (text : String) : Prop where
  any : '%' ∉ text.toList
  one : '_' ∉ text.toList
  nul : '\x00' ∉ text.toList

theorem Plain.lowered (h : Plain text) : Plain (lowerSql text) := by
  have hkeeps : ∀ w : Char, w.isAlpha = false → w ∉ text.toList → w ∉ (lowerSql text).toList := by
    intro w hw hnot hin
    rw [lowerSql, String.toList_ofList] at hin
    obtain ⟨c, hc, he⟩ := List.mem_map.mp hin
    exact hnot (toLower_eq_other hw he ▸ hc)
  exact ⟨hkeeps _ (by decide) h.any, hkeeps _ (by decide) h.one, hkeeps _ (by decide) h.nul⟩

/-- No key is mistaken for one with a prefix that has no wildcards and no letters. -/
theorem plain_key (h : Plain text) (hletters : ∀ c ∈ text.toList, c.isAlpha = false) : ¬ MistakenKey text key := by
  intro hmistaken
  obtain ⟨hspells, hnot⟩ := hmistaken
  rw [cText_append h.nul] at hspells
  obtain ⟨front, back, hkey, hfront, _⟩ := hspells.split
  have hsame := sameLetters_eq (hfront.letters h.any h.one) hletters
  have hshown : text.toList <+: cText key.toList := ⟨back, by rw [hkey, hsame]⟩
  exact hnot (hshown.trans (List.takeWhile_prefix _))

/-- A query without wildcards whose lower case is that of ASCII finds what contains it. -/
theorem plain_query (h : Plain query) (hlower : lower query = lowerSql query) (hvalue : '\x00' ∉ value.toList) :
    ContainsSpelled lower value query ↔ ContainsFolded value query := by
  have hl := h.lowered
  have hpattern : cText ('%' :: ((lowerSql query).toList ++ ['%'])) = '%' :: ((lowerSql query).toList ++ ['%']) :=
    cText_of_fresh (by simp [hl.nul])
  have htext : cText (value.toList.map Char.toLower) = value.toList.map Char.toLower := by
    apply cText_of_fresh
    intro hin
    obtain ⟨c, hc, he⟩ := List.mem_map.mp hin
    exact hvalue (toLower_eq_other (by decide) he ▸ hc)
  rw [ContainsSpelled, hlower, hpattern, htext]
  constructor
  · intro hspells
    obtain ⟨before, spelled, after, he, hspelled⟩ := hspells.contained
    obtain ⟨front, afterText, htext, hfront, _⟩ := List.map_eq_append_iff.mp he
    obtain ⟨beforeText, spelledText, hfrontText, _, hspelledText⟩ := List.map_eq_append_iff.mp hfront
    refine ⟨beforeText, spelledText, afterText, by rw [htext, hfrontText], ?_⟩
    have hletters := hspelled.letters hl.any hl.one
    rw [lowerSql, String.toList_ofList, ← hspelledText, List.forall₂_map_left_iff, List.forall₂_map_right_iff]
      at hletters
    simpa [sameLetter] using hletters
  · intro hcontains
    obtain ⟨before, spelled, after, he, hletters⟩ := hcontains
    rw [he, List.map_append, List.map_append, lowerSql, String.toList_ofList]
    refine Spells.within (spells_letters ?_) _ _
    rw [List.forall₂_map_left_iff, List.forall₂_map_right_iff]
    simpa [sameLetter] using hletters

end Plain

section Sample

def noteAb (value : Json) : SetCall := { now := 0, later := 0, key := "ab", value, agentId := "agent-a" }

/-- A store with one entry. -/
def noted (value : Json) : AgentMemoryStore :=
  exec AgentMemoryStore.step AgentMemoryStore.empty [AgentMemoryStore.Op.set (noteAb value)]

/-- An upper case letter is taken for a lower case one, an underscore for any character, and a letter with an accent is
not found by itself. -/
theorem wildcards_mislead :
    ¬ Pages ((noted (.int 1)).listKeys 0 "agent-a" "A" none)
      (fun e => InScope (noted (.int 1)) 0 "agent-a" none e ∧ StartsWith e.key "A") ∧
    ¬ Pages ((noted (.int 1)).search id 0 "_" "agent-a" none)
      (fun e => InScope (noted (.int 1)) 0 "agent-a" none e ∧ ContainsFolded e.value "_") ∧
    ¬ Pages ((noted (.str "É")).search (fun _ => "é") 0 "É" "agent-a" none)
      (fun e => InScope (noted (.str "É")) 0 "agent-a" none e ∧ ContainsFolded e.value "É") := by
  refine ⟨fun h => ?_, fun h => ?_, fun h => ?_⟩
  · have hlisted : (noteAb (.int 1)).row 1 ∈ (noted (.int 1)).listKeys 0 "agent-a" "A" none 100 0 := by decide
    obtain ⟨rest, hkey⟩ := (h.of_mem hlisted).2
    exact absurd (List.cons.inj hkey).1 (by decide)
  · have hfound : (noteAb (.int 1)).row 1 ∈ (noted (.int 1)).search id 0 "_" "agent-a" none 100 0 := by decide
    obtain ⟨before, spelled, after, hvalue, hletters⟩ := (h.of_mem hfound).2
    obtain ⟨d, _, hd, hnil, rfl⟩ := List.forall₂_cons_left_iff.mp hletters
    have hin : d ∈ ['1'] := by
      have hone : ((noteAb (.int 1)).row 1).value.toList = ['1'] := by decide
      rw [← hone, hvalue]
      simp
    rw [List.mem_singleton.mp hin] at hd
    exact absurd hd (by decide)
  · have hscope : InScope (noted (.str "É")) 0 "agent-a" none ((noteAb (.str "É")).row 1) :=
      ⟨by decide, rfl, rfl, rfl⟩
    have hcontains : ContainsFolded ((noteAb (.str "É")).row 1).value "É" :=
      ⟨['"'], ['É'], ['"'], by decide, List.Forall₂.cons (by decide) List.Forall₂.nil⟩
    obtain ⟨offset, hin⟩ := h.shown ⟨hscope, hcontains⟩ 100
    have hnone : (noted (.str "É")).rows.select (fun r => r.agentId == "agent-a" && matchesQuery "é" r &&
        inNamespace none r && r.alive 0) = [] := by decide
    have hrow := page_mem hin
    rw [List.mem_insertionSort, hnone] at hrow
    cases hrow

end Sample

end A2ARegistry.Orchestration.Memory
