import Mathlib.Data.Option.Basic
import Mathlib.Logic.Function.Basic
import Mathlib.Order.Lattice
import A2ARegistry.Base.Run

namespace A2ARegistry.Base.Timed

/-- A value, and the time from which on it is gone, if there is one. -/
structure Entry (V T : Type) where
  value : V
  expires : Option T

/-- Each key's entry. -/
abbrev TimedMap (K V T : Type) := K → Option (Entry V T)

inductive Event (K V T : Type)
  | put (key : K) (entry : Entry V T)
  | erase (key : K)
  | purge (now : T)

variable {K V T : Type}

/-- An event writes a key. -/
def Event.Writes (k : K) : Event K V T → Prop
  | .put key _ => key = k
  | .erase key => key = k
  | .purge _ => False

/-- The entry of a key that was put last, and was not erased since. -/
def LastPut (events : List (Event K V T)) (k : K) (e : Entry V T) : Prop :=
  ∃ before after, events = before ++ .put k e :: after ∧ ∀ event ∈ after, ¬ event.Writes k

theorem lastPut_concat {events : List (Event K V T)} {event : Event K V T} {k : K} {e : Entry V T} :
    LastPut (events ++ [event]) k e ↔ event = .put k e ∨ LastPut events k e ∧ ¬ event.Writes k := by
  constructor
  · intro ⟨before, after, hsplit, hafter⟩
    rcases List.eq_nil_or_concat after with rfl | ⟨rest, last, rfl⟩
    · obtain ⟨_, hlast⟩ := List.append_inj' hsplit rfl
      exact Or.inl (List.singleton_inj.mp hlast)
    · rw [List.concat_eq_append] at hsplit hafter
      have hassoc : events ++ [event] = (before ++ .put k e :: rest) ++ [last] := by simpa using hsplit
      obtain ⟨rfl, hlast⟩ := List.append_inj' hassoc rfl
      obtain rfl := List.singleton_inj.mp hlast
      exact Or.inr ⟨⟨before, rest, rfl, fun ev hev => hafter ev (by simp [hev])⟩, hafter event (by simp)⟩
  · intro h
    rcases h with rfl | ⟨⟨before, after, rfl, hafter⟩, hevent⟩
    · exact ⟨events, [], rfl, by simp⟩
    · refine ⟨before, after ++ [event], by simp, fun ev hev => ?_⟩
      rcases List.mem_append.mp hev with hev | hev
      · exact hafter ev hev
      · rw [List.mem_singleton.mp hev]
        exact hevent

variable [LinearOrder T]

def Entry.alive (now : T) (e : Entry V T) : Bool := e.expires.all (fun t => decide (now < t))

/-- The entry of a key that is not gone. -/
def look (m : TimedMap K V T) (now : T) (k : K) : Option (Entry V T) := (m k).filter (Entry.alive now)

/-- No key can be told apart in two maps from some time on. -/
def SameFrom (now : T) (m m' : TimedMap K V T) : Prop := ∀ later, now ≤ later → ∀ k, look m later k = look m' later k

/-- The time of an event that has one is no later. -/
def Event.NoLater (now : T) : Event K V T → Prop
  | .purge t => t ≤ now
  | _ => True

/-- What is gone stays gone. -/
theorem Entry.alive_of_le {e : Entry V T} {now later : T} (hle : now ≤ later) (h : e.alive later = true) :
    e.alive now = true := by
  cases he : e.expires with
  | none => simp [alive, he]
  | some t =>
    have hlater : later < t := by simpa [alive, he] using h
    simpa [alive, he] using lt_of_le_of_lt hle hlater

theorem SameFrom.mono {m m' : TimedMap K V T} {now later : T} (h : SameFrom now m m') (hle : now ≤ later) :
    SameFrom later m m' := fun t ht k => h t (le_trans hle ht) k

theorem SameFrom.trans {m m' m'' : TimedMap K V T} {now : T} (h : SameFrom now m m') (h' : SameFrom now m' m'') :
    SameFrom now m m'' := fun t ht k => (h t ht k).trans (h' t ht k)

theorem SameFrom.symm {m m' : TimedMap K V T} {now : T} (h : SameFrom now m m') : SameFrom now m' m :=
  fun t ht k => (h t ht k).symm

variable [DecidableEq K]

def step (m : TimedMap K V T) : Event K V T → TimedMap K V T
  | .put k e => Function.update m k (some e)
  | .erase k => Function.update m k none
  | .purge now => fun k => (m k).filter (Entry.alive now)

/-- Purging is not seen from then on. -/
theorem purge_sameFrom (m : TimedMap K V T) (now : T) : SameFrom now (step m (.purge now)) m := by
  intro later hle k
  have hgone : ∀ o : Option (Entry V T), (o.filter (Entry.alive now)).filter (Entry.alive later) =
      o.filter (Entry.alive later) := by
    intro o
    cases o with
    | none => rfl
    | some e =>
      cases halive : e.alive later with
      | false => cases hnow : e.alive now <;> simp [Option.filter, halive, hnow]
      | true => simp [Option.filter, halive, Entry.alive_of_le hle halive]
  exact hgone (m k)

/-- An event keeps what is the same the same. -/
theorem SameFrom.event {m m' : TimedMap K V T} {now : T} (h : SameFrom now m m') (event : Event K V T)
    (hevent : event.NoLater now) : SameFrom now (step m event) (step m' event) := by
  cases event with
  | put key entry =>
    intro t ht k
    by_cases hk : k = key
    · simp [look, step, hk]
    · simpa [look, step, hk] using h t ht k
  | erase key =>
    intro t ht k
    by_cases hk : k = key
    · simp [look, step, hk]
    · simpa [look, step, hk] using h t ht k
  | purge time =>
    have hgone : ∀ m : TimedMap K V T, SameFrom now (step m (.purge time)) m :=
      fun m => (purge_sameFrom m time).mono hevent
    exact ((hgone m).trans h).trans (hgone m').symm

theorem SameFrom.events {m m' : TimedMap K V T} {now : T} (h : SameFrom now m m') (events : List (Event K V T))
    (hevents : ∀ event ∈ events, event.NoLater now) : SameFrom now (exec step m events) (exec step m' events) := by
  induction events generalizing m m' with
  | nil => exact h
  | cons event events ih =>
    obtain ⟨hfirst, hrest⟩ := List.forall_mem_cons.mp hevents
    exact ih (h.event event hfirst) hrest

/-- After events up to now, a key has the entry that was put last, if it is not gone. -/
theorem look_exec {now : T} (events : List (Event K V T)) (hevents : ∀ event ∈ events, event.NoLater now) (k : K)
    (e : Entry V T) : look (exec step (fun _ => none) events) now k = some e ↔
      LastPut events k e ∧ e.alive now = true := by
  induction events using List.reverseRecOn with
  | nil =>
    refine iff_of_false (by simp [look]) ?_
    rintro ⟨⟨before, after, hsplit, _⟩, _⟩
    simp at hsplit
  | append_singleton events event ih =>
    have hrest : ∀ event ∈ events, event.NoLater now := fun ev hev => hevents ev (by simp [hev])
    have hlast : event.NoLater now := hevents event (by simp)
    rw [exec_append, exec_cons, exec_nil, lastPut_concat]
    cases event with
    | put key entry =>
      by_cases hk : k = key
      · subst hk
        simp only [look, step, Function.update_self, Option.filter_eq_some_iff, Option.some.injEq, Event.put.injEq,
          true_and, Event.Writes, not_true_eq_false, and_false, or_false]
      · have hput : (Event.put key entry : Event K V T) ≠ .put k e := fun he => hk (Event.put.inj he).1.symm
        have hwrites : ¬ (Event.put key entry : Event K V T).Writes k := fun he => hk he.symm
        have hlook : look (step (exec step (fun _ => none) events) (.put key entry)) now k =
            look (exec step (fun _ => none) events) now k := by simp [look, step, hk]
        rw [hlook, ih hrest]
        simp only [hput, hwrites, false_or, not_false_eq_true, and_true]
    | erase key =>
      by_cases hk : k = key
      · subst hk
        simp [look, step, Event.Writes]
      · have hwrites : ¬ (Event.erase key : Event K V T).Writes k := fun he => hk he.symm
        have hlook : look (step (exec step (fun _ => none) events) (.erase key)) now k =
            look (exec step (fun _ => none) events) now k := by simp [look, step, hk]
        rw [hlook, ih hrest]
        simp only [reduceCtorEq, hwrites, false_or, not_false_eq_true, and_true]
    | purge time =>
      have hpurge := (purge_sameFrom (exec step (fun _ => none) events) time).mono hlast
      rw [hpurge now (le_refl now) k, ih hrest]
      simp [Event.Writes]

end A2ARegistry.Base.Timed
