import Mathlib.Data.List.Perm.Basic
import Mathlib.Logic.Function.Basic
import A2ARegistry.Base.Run

namespace A2ARegistry.Base

/-- A call that works on a database by single statements. A transaction is opened by its first write. -/
inductive Program (δ ρ : Type)
  | ret (r : ρ)
  | select (k : δ → Program δ ρ)
  | write (f : δ → δ) (k : Program δ ρ)
  | commit (k : Program δ ρ)

namespace Program

variable {δ ρ : Type}

/-- The call with nothing between its statements. -/
def run : Program δ ρ → δ → ρ × δ
  | .ret r, d => (r, d)
  | .select k, d => (k d).run d
  | .write f k, d => k.run (f d)
  | .commit k, d => k.run d

/-- Reads, and then it returns. -/
def Reading : Program δ ρ → Prop
  | .ret _ => True
  | .select k => ∀ d, (k d).Reading
  | .write .. | .commit _ => False

/-- Writes up to a commit, and reads behind it. -/
def Writing : Program δ ρ → Prop
  | .write _ k => k.Writing
  | .commit k => k.Reading
  | .ret _ | .select _ => False

/-- Reads, and then it returns or writes: the shape of a call. -/
def Deciding : Program δ ρ → Prop
  | .ret _ => True
  | .select k => ∀ d, (k d).Deciding
  | .write _ k => k.Writing
  | .commit _ => False

/-- The call gets to `q` by reads that all see `d`. -/
inductive Reaches (d : δ) : Program δ ρ → Program δ ρ → Prop
  | refl (q : Program δ ρ) : Reaches d q q
  | select (k : δ → Program δ ρ) (q : Program δ ρ) : Reaches d (k d) q → Reaches d (.select k) q

theorem Reaches.run_eq {d : δ} {p q : Program δ ρ} (h : Reaches d p q) : p.run d = q.run d := by
  induction h with
  | refl => rfl
  | select k q _ ih => exact ih

theorem Reading.run_snd {p : Program δ ρ} (h : p.Reading) (d : δ) : (p.run d).2 = d := by
  induction p with
  | ret r => rfl
  | select k ih => exact ih d (h d)
  | write | commit => cases h

end Program

/-- A call that is under way: what is left of it, and what its commit left if there was one. -/
structure Running (κ δ ρ : Type) where
  call : κ
  rest : Program δ ρ
  left : Option δ

/-- Processes that work on one database. The one that writes has the database in its transaction. -/
structure Processes (ι κ δ ρ : Type) where
  committed : δ
  writer : Option (ι × δ)
  running : ι → Option (Running κ δ ρ)
  returned : List (κ × ρ)

/-- A process starts a call, or executes the next statement of its call. -/
inductive Turn (ι κ : Type)
  | start (i : ι) (call : κ)
  | statement (i : ι)

namespace Processes

variable {ι κ δ ρ : Type} [DecidableEq ι]

def begin (d : δ) : Processes ι κ δ ρ := ⟨d, none, fun _ => none, []⟩

/-- What a process sees: its own transaction, or what is committed. -/
def view (s : Processes ι κ δ ρ) (i : ι) : δ :=
  match s.writer with
  | some (j, d) => if j = i then d else s.committed
  | none => s.committed

/-- The process has executed a statement; it returns if nothing is left of its call. -/
def advance (s : Processes ι κ δ ρ) (i : ι) (call : κ) (left : Option δ) : Program δ ρ → Processes ι κ δ ρ
  | .ret r => { s with running := Function.update s.running i none, returned := s.returned ++ [(call, r)] }
  | rest => { s with running := Function.update s.running i (some ⟨call, rest, left⟩) }

/-- The next statement. A write waits while another process is in a transaction. -/
def execute (s : Processes ι κ δ ρ) (i : ι) (r : Running κ δ ρ) : Processes ι κ δ ρ :=
  match r.rest with
  | .ret _ => s
  | .select k => s.advance i r.call r.left (k (s.view i))
  | .write f k => match s.writer with
    | none => { s with writer := some (i, f s.committed) }.advance i r.call r.left k
    | some (j, d) => if j = i then { s with writer := some (i, f d) }.advance i r.call r.left k else s
  | .commit k => match s.writer with
    | none => s.advance i r.call r.left k
    | some (j, d) =>
      if j = i then { s with committed := d, writer := none }.advance i r.call (some d) k
      else s.advance i r.call r.left k

def step (program : κ → Program δ ρ) (s : Processes ι κ δ ρ) : Turn ι κ → Processes ι κ δ ρ
  | .start i call => match s.running i with
    | none => s.advance i call none (program call)
    | some _ => s
  | .statement i => match s.running i with
    | none => s
    | some r => s.execute i r

/-- The calls one after the other, with what they return. -/
def Serial (program : κ → Program δ ρ) : δ → List (κ × ρ) → δ → Prop
  | d, [], d' => d = d'
  | d, (call, r) :: order, d' =>
    ((program call).run d).1 = r ∧ Serial program ((program call).run d).2 order d'

/-- Where no call is under way, what was returned and what can be seen of the database are those of the calls in some
serial order. -/
def Serialisable {ω : Type} (program : κ → Program δ ρ) (seen : δ → ω) (d : δ) (s : Processes ι κ δ ρ) : Prop :=
  (∀ i, s.running i = none) →
    ∃ order d', order.Perm s.returned ∧ Serial program d order d' ∧ seen d' = seen s.committed

/-- Before its commit a call would be at the same statement if it were started now; what it reads behind its commit
is what the commit left. -/
def Fresh (program : κ → Program δ ρ) (s : Processes ι κ δ ρ) : Turn ι κ → Prop
  | .start .. => True
  | .statement i => ∀ r, s.running i = some r → match r.left, r.rest with
    | none, .select k => (program r.call).Reaches (s.view i) (.select k)
    | none, .write f k => s.writer = none → (program r.call).Reaches (s.view i) (.write f k)
    | some d, .select k => k (s.view i) = k d
    | _, _ => True

section Proof

variable {program : κ → Program δ ρ} {d₀ : δ} {s s' : Processes ι κ δ ρ}

theorem Serial.snoc {order : List (κ × ρ)} {d d' d'' : δ} {call : κ} {r : ρ} (h : Serial program d order d')
    (hcall : (program call).run d' = (r, d'')) : Serial program d (order ++ [(call, r)]) d'' := by
  induction order generalizing d with
  | nil =>
    have hd : d = d' := h
    subst hd
    refine ⟨by rw [hcall], ?_⟩
    rw [hcall]
    rfl
  | cons x order ih => exact ⟨h.1, ih h.2⟩

/-- What is left in the end goes by the calls alone. -/
theorem Serial.last {order : List (κ × ρ)} {d d' : δ} (h : Serial program d order d') :
    (order.map Prod.fst).foldl (fun d call => ((program call).run d).2) d = d' := by
  induction order generalizing d with
  | nil => exact h
  | cons x order ih => exact ih h.2

/-- What a call that has committed will return. -/
def due (running : ι → Option (Running κ δ ρ)) (i : ι) : Option (κ × ρ) :=
  (running i).bind (fun r => r.left.map (fun d => (r.call, (r.rest.run d).1)))

/-- How far a call is. Inside its transaction it goes on from there as it would have run from what is committed. -/
def Phase (program : κ → Program δ ρ) (committed : δ) (writer : Option (ι × δ)) (i : ι) (r : Running κ δ ρ) : Prop :=
  match r.left, writer with
  | some _, none => r.rest.Reading
  | some _, some (j, _) => j ≠ i ∧ r.rest.Reading
  | none, none => r.rest.Deciding
  | none, some (j, d) =>
    if j = i then r.rest.Writing ∧ (program r.call).run committed = r.rest.run d else r.rest.Deciding

/-- Every call is in its phase, and the one that writes has not committed. -/
structure Staged (program : κ → Program δ ρ) (s : Processes ι κ δ ρ) : Prop where
  phase : ∀ i r, s.running i = some r → Phase program s.committed s.writer i r
  writer : ∀ i d, s.writer = some (i, d) → ∃ r, s.running i = some r ∧ r.left = none

/-- The calls that returned or committed, in the order in which they did, with those that have committed and will
still return. -/
structure Ordered (program : κ → Program δ ρ) (d₀ : δ) (s : Processes ι κ δ ρ) (order : List (κ × ρ))
    (pending : List ι) : Prop where
  serial : Serial program d₀ order s.committed
  perm : order.Perm (s.returned ++ pending.filterMap (due s.running))
  closing : ∀ i, i ∈ pending ↔ (due s.running i).isSome
  nodup : pending.Nodup
  staged : Staged program s

variable {order : List (κ × ρ)} {pending : List ι} {i : ι} {call : κ} {out : ρ}

/-- Nothing was returned or committed. -/
theorem Ordered.moved (h : Ordered program d₀ s order pending) (hcommitted : s'.committed = s.committed)
    (hreturned : s'.returned = s.returned) (hdue : ∀ j, due s'.running j = due s.running j)
    (hstaged : Staged program s') :
    Ordered program d₀ s' order pending := by
  have hsame : due s'.running = due s.running := funext hdue
  exact ⟨hcommitted ▸ h.serial, by rw [hreturned, hsame]; exact h.perm, by rw [hsame]; exact h.closing, h.nodup,
    hstaged⟩

/-- A call returned that can be put last. -/
theorem Ordered.answered (h : Ordered program d₀ s order pending)
    (hcall : (program call).run s.committed = (out, s'.committed)) (hreturned : s'.returned = s.returned ++ [(call, out)])
    (hdue : ∀ j, due s'.running j = due s.running j)
    (hstaged : Staged program s') :
    Ordered program d₀ s' (order ++ [(call, out)]) pending := by
  have hsame : due s'.running = due s.running := funext hdue
  refine ⟨h.serial.snoc hcall, ?_, by rw [hsame]; exact h.closing, h.nodup, hstaged⟩
  rw [hreturned, hsame, List.append_assoc]
  refine (h.perm.append_right _).trans ?_
  rw [List.append_assoc]
  exact List.Perm.append_left _ List.perm_append_comm

/-- A call committed that can be put last, and has still to return. -/
theorem Ordered.finished (h : Ordered program d₀ s order pending)
    (hcall : (program call).run s.committed = (out, s'.committed)) (hreturned : s'.returned = s.returned)
    (hnone : due s.running i = none) (hnew : due s'.running i = some (call, out))
    (hdue : ∀ j, j ≠ i → due s'.running j = due s.running j)
    (hstaged : Staged program s') :
    Ordered program d₀ s' (order ++ [(call, out)]) (i :: pending) := by
  have hout : i ∉ pending := by
    intro hi
    have hdone := (h.closing i).mp hi
    rw [hnone] at hdone
    cases hdone
  have hothers : pending.filterMap (due s'.running) = pending.filterMap (due s.running) :=
    List.filterMap_congr fun j hj => hdue j fun he => hout (he ▸ hj)
  refine ⟨h.serial.snoc hcall, ?_, fun j => ?_, List.nodup_cons.mpr ⟨hout, h.nodup⟩, hstaged⟩
  · rw [hreturned, List.filterMap_cons_some hnew, hothers]
    refine (h.perm.append_right _).trans (List.Perm.trans ?_ List.perm_middle.symm)
    exact List.perm_append_comm
  · by_cases hj : j = i
    · rw [hj, hnew]
      simp
    · rw [hdue j hj, ← h.closing j]
      simp [hj]

/-- A call returned that had committed before. -/
theorem Ordered.closed (h : Ordered program d₀ s order pending) (hcommitted : s'.committed = s.committed)
    (hreturned : s'.returned = s.returned ++ [(call, out)]) (hold : due s.running i = some (call, out))
    (hnone : due s'.running i = none) (hdue : ∀ j, j ≠ i → due s'.running j = due s.running j)
    (hstaged : Staged program s') :
    Ordered program d₀ s' order (pending.erase i) := by
  have hi : i ∈ pending := (h.closing i).mpr (by rw [hold]; rfl)
  have hothers : (pending.erase i).filterMap (due s'.running) = (pending.erase i).filterMap (due s.running) :=
    List.filterMap_congr fun j hj => hdue j (h.nodup.mem_erase_iff.mp hj).1
  refine ⟨hcommitted ▸ h.serial, ?_, fun j => ?_, h.nodup.erase i, hstaged⟩
  · have hsplit : (pending.filterMap (due s.running)).Perm
        ((call, out) :: (pending.erase i).filterMap (due s.running)) := by
      have hcons := (List.perm_cons_erase hi).filterMap (due s.running)
      rwa [List.filterMap_cons_some hold] at hcons
    rw [hreturned, hothers, List.append_assoc]
    exact h.perm.trans (List.Perm.append_left _ hsplit)
  · by_cases hj : j = i
    · rw [hj, hnone]
      simp [h.nodup.mem_erase_iff]
    · rw [h.nodup.mem_erase_iff, hdue j hj, ← h.closing j]
      simp [hj]

theorem advance_cases (s : Processes ι κ δ ρ) (i : ι) (call : κ) (left : Option δ) (rest : Program δ ρ) :
    (∃ r, rest = .ret r ∧ s.advance i call left rest =
      { s with running := Function.update s.running i none, returned := s.returned ++ [(call, r)] }) ∨
    s.advance i call left rest = { s with running := Function.update s.running i (some ⟨call, rest, left⟩) } := by
  cases rest with
  | ret r => exact Or.inl ⟨r, rfl, rfl⟩
  | select | write | commit => exact Or.inr rfl

theorem due_update (running : ι → Option (Running κ δ ρ)) (i : ι) (x : Option (Running κ δ ρ)) (j : ι) :
    due (Function.update running i x) j =
      if j = i then x.bind (fun r => r.left.map (fun d => (r.call, (r.rest.run d).1))) else due running j := by
  by_cases hj : j = i
  · rw [hj, due, Function.update_self, if_pos rfl]
  · rw [due, Function.update_of_ne hj, if_neg hj, due]

/-- A process that is due what it was before changes nothing. -/
theorem due_keep {running : ι → Option (Running κ δ ρ)} {i : ι} {x : Option (Running κ δ ρ)} {out : Option (κ × ρ)}
    (hdue : due running i = out) (hx : x.bind (fun r => r.left.map (fun d => (r.call, (r.rest.run d).1))) = out) (j : ι) :
    due (Function.update running i x) j = due running j := by
  rw [due_update, hx]
  split
  · rename_i hj
    rw [hj, hdue]
  · rfl

theorem phase_update {running : ι → Option (Running κ δ ρ)} {committed : δ} {writer : Option (ι × δ)} {i : ι}
    {x : Option (Running κ δ ρ)} (hi : ∀ r, x = some r → Phase program committed writer i r)
    (hothers : ∀ j r, j ≠ i → running j = some r → Phase program committed writer j r) (j : ι)
    (r : Running κ δ ρ) (hj : Function.update running i x j = some r) : Phase program committed writer j r := by
  by_cases hij : j = i
  · rw [hij, Function.update_self] at hj
    rw [hij]
    exact hi r hj
  · rw [Function.update_of_ne hij] at hj
    exact hothers j r hij hj

/-- A process that is not in a transaction leaves the one that is as it is. -/
theorem Staged.writer_update (h : Staged program s) {i : ι} (hwriter : ∀ d, s.writer ≠ some (i, d))
    (x : Option (Running κ δ ρ)) (j : ι) (d : δ) (hw : s.writer = some (j, d)) :
    ∃ r, Function.update s.running i x j = some r ∧ r.left = none := by
  have hj : j ≠ i := by
    intro he
    exact hwriter d (he ▸ hw)
  rw [Function.update_of_ne hj]
  exact h.writer j d hw

/-- A call that reads, outside a transaction, goes on or returns. -/
theorem Ordered.reads (h : Ordered program d₀ s order pending) {rest : Program δ ρ}
    (hnone : ∀ r, s.running i = some r → r.left = none) (hwriter : ∀ d, s.writer ≠ some (i, d))
    (hshape : rest.Deciding) (hrun : (program call).run s.committed = rest.run s.committed) :
    ∃ order' pending', Ordered program d₀ (s.advance i call none rest) order' pending' := by
  have hdue : due s.running i = none := by
    cases hr : s.running i with
    | none => simp [due, hr]
    | some r => simp [due, hr, hnone r hr]
  rcases advance_cases s i call none rest with ⟨r, rfl, hstep⟩ | hstep
  · rw [hstep]
    refine ⟨order ++ [(call, r)], pending,
      h.answered hrun rfl (due_keep hdue rfl) ⟨phase_update ?_ ?_, h.staged.writer_update hwriter none⟩⟩
    · intro r' he
      cases he
    · exact fun j r' _ hj => h.staged.phase j r' hj
  · rw [hstep]
    refine ⟨order, pending, h.moved rfl rfl (due_keep hdue rfl) ⟨phase_update ?_ ?_, h.staged.writer_update hwriter _⟩⟩
    · intro r' he
      cases he
      unfold Phase
      dsimp only
      split
      · rename_i hw _
        cases hw
      · rename_i hw _
        cases hw
      · exact hshape
      · rename_i w d _ hw
        rw [if_neg fun he => hwriter d (by rw [hw, he])]
        exact hshape
    · exact fun j r' _ hj => h.staged.phase j r' hj

/-- A call that reads behind its commit goes on or returns what was due. -/
theorem Ordered.closes (h : Ordered program d₀ s order pending) {rest next : Program δ ρ} {d : δ}
    (hrunning : s.running i = some ⟨call, rest, some d⟩) (hshape : next.Reading)
    (hrun : (rest.run d).1 = (next.run d).1) :
    ∃ order' pending', Ordered program d₀ (s.advance i call (some d) next) order' pending' := by
  have hdue : due s.running i = some (call, (next.run d).1) := by simp [due, hrunning, hrun]
  have hwriter : ∀ d', s.writer ≠ some (i, d') := by
    intro d' hw
    obtain ⟨r, hr, hleft⟩ := h.staged.writer i d' hw
    cases hrunning.symm.trans hr
    cases hleft
  rcases advance_cases s i call (some d) next with ⟨r, rfl, hstep⟩ | hstep
  · rw [hstep]
    refine ⟨order, pending.erase i, h.closed rfl rfl hdue ?_ (fun j hj => ?_) ⟨phase_update ?_ ?_, h.staged.writer_update hwriter none⟩⟩
    · rw [due_update, if_pos rfl]
      rfl
    · rw [due_update, if_neg hj]
    · intro r' he
      cases he
    · exact fun j r' _ hj => h.staged.phase j r' hj
  · rw [hstep]
    refine ⟨order, pending, h.moved rfl rfl (due_keep hdue rfl) ⟨phase_update ?_ ?_, h.staged.writer_update hwriter _⟩⟩
    · intro r' he
      cases he
      unfold Phase
      dsimp only
      split
      · exact hshape
      · rename_i w d' _ hw
        exact ⟨fun he => hwriter d' (by rw [hw, he]), hshape⟩
      · rename_i hw _
        cases hw
      · rename_i hw _
        cases hw
    · exact fun j r' _ hj => h.staged.phase j r' hj

/-- A write in a transaction, which it opens if there is none. -/
theorem Ordered.writes (h : Ordered program d₀ s order pending) {r : Running κ δ ρ} {next : Program δ ρ} {d : δ}
    (hrunning : s.running i = some r) (hleft : r.left = none) (hfree : ∀ j d', s.writer = some (j, d') → j = i)
    (hshape : next.Writing) (hrun : (program r.call).run s.committed = next.run d) :
    ∃ order' pending', Ordered program d₀ ({ s with writer := some (i, d) }.advance i r.call none next)
      order' pending' := by
  have hdue : due s.running i = none := by simp [due, hrunning, hleft]
  rcases advance_cases { s with writer := some (i, d) } i r.call none next with ⟨out, rfl, _⟩ | hstep
  · exact absurd hshape id
  rw [hstep]
  refine ⟨order, pending, h.moved rfl rfl (due_keep hdue rfl) ⟨phase_update ?_ ?_, ?_⟩⟩
  · intro r' he
    cases he
    unfold Phase
    dsimp only
    rw [if_pos rfl]
    exact ⟨hshape, hrun⟩
  · -- the others were outside a transaction before
    intro j r' hj hr'
    have hphase := h.staged.phase j r' hr'
    unfold Phase at hphase ⊢
    dsimp only at hphase ⊢
    cases hleft' : r'.left with
    | some d' =>
      refine ⟨Ne.symm hj, ?_⟩
      cases hw : s.writer with
      | none => simpa [hleft', hw] using hphase
      | some w =>
        rw [hleft', hw] at hphase
        exact hphase.2
    | none =>
      dsimp only
      rw [if_neg (Ne.symm hj)]
      cases hw : s.writer with
      | none => simpa [hleft', hw] using hphase
      | some w =>
        have hwi : w.1 = i := hfree w.1 w.2 hw
        simpa [hleft', hw, hwi, Ne.symm hj] using hphase
  · intro j d' hw
    cases hw
    exact ⟨_, Function.update_self .., rfl⟩

/-- A commit: the call takes its place behind those that returned or committed before. -/
theorem Ordered.commits (h : Ordered program d₀ s order pending) {r : Running κ δ ρ} {next : Program δ ρ} {d : δ}
    (hrunning : s.running i = some r) (hleft : r.left = none) (hwriter : s.writer = some (i, d))
    (hshape : next.Reading) (hrun : (program r.call).run s.committed = next.run d) :
    ∃ order' pending', Ordered program d₀
      ({ s with committed := d, writer := none }.advance i r.call (some d) next) order' pending' := by
  have hdue : due s.running i = none := by simp [due, hrunning, hleft]
  have hcall : (program r.call).run s.committed = ((next.run d).1, d) := by
    rw [hrun]
    exact Prod.ext rfl (hshape.run_snd d)
  have hothers : ∀ j r', j ≠ i → s.running j = some r' → Phase program d none j r' := by
    intro j r' hj hr'
    have hphase := h.staged.phase j r' hr'
    unfold Phase at hphase ⊢
    rw [hwriter] at hphase
    cases hleft' : r'.left with
    | some d' =>
      rw [hleft'] at hphase
      exact hphase.2
    | none => simpa [hleft', Ne.symm hj] using hphase
  have hclosed : ∀ (running : ι → Option (Running κ δ ρ)) (j : ι) (d' : δ), (none : Option (ι × δ)) = some (j, d') →
      ∃ r', running j = some r' ∧ r'.left = none := fun _ _ _ he => (nomatch he)
  rcases advance_cases { s with committed := d, writer := none } i r.call (some d) next with ⟨out, rfl, hstep⟩ | hstep
  · rw [hstep]
    refine ⟨order ++ [(r.call, out)], pending,
      h.answered hcall rfl (due_keep hdue rfl) ⟨phase_update ?_ hothers, hclosed _⟩⟩
    · intro r' he
      cases he
  · rw [hstep]
    refine ⟨order ++ [(r.call, (next.run d).1)], i :: pending,
      h.finished hcall rfl hdue ?_ (fun j hj => ?_) ⟨phase_update ?_ hothers, hclosed _⟩⟩
    · rw [due_update, if_pos rfl]
      rfl
    · rw [due_update, if_neg hj]
    · intro r' he
      cases he
      exact hshape

theorem view_outside (hwriter : ∀ d, s.writer ≠ some (i, d)) : s.view i = s.committed := by
  unfold view
  cases hw : s.writer with
  | none => rfl
  | some w => exact if_neg fun he => hwriter w.2 (by rw [hw, ← he])

/-- A statement of a call that is outside a transaction. A write opens one, or waits. -/
theorem Ordered.outside (h : Ordered program d₀ s order pending) {rest : Program δ ρ}
    (hrunning : s.running i = some ⟨call, rest, none⟩) (hwriter : ∀ d, s.writer ≠ some (i, d))
    (hshape : rest.Deciding) (hfresh : Fresh program s (.statement i)) :
    ∃ order' pending', Ordered program d₀ (s.execute i ⟨call, rest, none⟩) order' pending' := by
  have hread := hfresh _ hrunning
  have hview := view_outside hwriter
  cases rest with
  | ret out => exact ⟨order, pending, h⟩
  | select k =>
    have hreach : (program call).Reaches (s.view i) (.select k) := hread
    rw [hview] at hreach
    rw [execute, hview]
    exact h.reads (fun r hr => by cases hrunning.symm.trans hr; rfl) hwriter (hshape _) hreach.run_eq
  | write f k =>
    cases hw : s.writer with
    | none =>
      have hreach : (program call).Reaches (s.view i) (.write f k) := hread hw
      rw [hview] at hreach
      simp only [execute, hw]
      exact h.writes hrunning rfl (by simp [hw]) hshape hreach.run_eq
    | some w =>
      have hj : w.1 ≠ i := fun he => hwriter w.2 (by rw [hw, ← he])
      simp only [execute, hw, if_neg hj]
      exact ⟨order, pending, h⟩
  | commit k => exact absurd hshape id

/-- A statement of the call that is in its transaction. -/
theorem Ordered.inside (h : Ordered program d₀ s order pending) {rest : Program δ ρ} {d : δ}
    (hrunning : s.running i = some ⟨call, rest, none⟩) (hwriter : s.writer = some (i, d))
    (hshape : rest.Writing) (hrun : (program call).run s.committed = rest.run d) :
    ∃ order' pending', Ordered program d₀ (s.execute i ⟨call, rest, none⟩) order' pending' := by
  cases rest with
  | ret | select => exact absurd hshape id
  | write f k =>
    simp only [execute, hwriter, if_pos]
    exact h.writes hrunning rfl (fun j d' he => by cases hwriter.symm.trans he; rfl) hshape hrun
  | commit k =>
    simp only [execute, hwriter, if_pos]
    exact h.commits hrunning rfl hwriter hshape hrun

/-- A statement of a call that has committed. -/
theorem Ordered.behind (h : Ordered program d₀ s order pending) {rest : Program δ ρ} {d : δ}
    (hrunning : s.running i = some ⟨call, rest, some d⟩) (hshape : rest.Reading)
    (hfresh : Fresh program s (.statement i)) :
    ∃ order' pending', Ordered program d₀ (s.execute i ⟨call, rest, some d⟩) order' pending' := by
  have hread := hfresh _ hrunning
  cases rest with
  | ret out => exact ⟨order, pending, h⟩
  | select k =>
    have hsame : k (s.view i) = k d := hread
    exact h.closes hrunning (hshape _) (by rw [hsame]; rfl)
  | write | commit => cases hshape

/-- One turn that finds what its call read before. -/
theorem ordered_step (hprogram : ∀ call, (program call).Deciding) (h : Ordered program d₀ s order pending)
    (turn : Turn ι κ) (hfresh : Fresh program s turn) :
    ∃ order' pending', Ordered program d₀ (step program s turn) order' pending' := by
  cases turn with
  | start i call =>
    cases hrunning : s.running i with
    | some r =>
      simp only [step, hrunning]
      exact ⟨order, pending, h⟩
    | none =>
      simp only [step, hrunning]
      refine h.reads (fun r hr => (nomatch hrunning.symm.trans hr)) (fun d hw => ?_) (hprogram call) rfl
      obtain ⟨r, hr, _⟩ := h.staged.writer i d hw
      cases hrunning.symm.trans hr
  | statement i =>
    cases hrunning : s.running i with
    | none =>
      simp only [step, hrunning]
      exact ⟨order, pending, h⟩
    | some r =>
      have hphase := h.staged.phase i r hrunning
      obtain ⟨call, rest, left⟩ := r
      simp only [step, hrunning]
      cases left with
      | some d =>
        have hreading : rest.Reading := by
          unfold Phase at hphase
          cases hw : s.writer with
          | none => simpa [hw] using hphase
          | some w =>
            rw [hw] at hphase
            exact hphase.2
        exact h.behind hrunning hreading hfresh
      | none =>
        cases hw : s.writer with
        | none => exact h.outside hrunning (by simp [hw]) (by simpa [Phase, hw] using hphase) hfresh
        | some w =>
          obtain ⟨j, d⟩ := w
          by_cases hj : j = i
          · subst hj
            obtain ⟨hwriting, hrun⟩ : rest.Writing ∧ (program call).run s.committed = rest.run d := by
              simpa [Phase, hw] using hphase
            exact h.inside hrunning hw hwriting hrun
          · exact h.outside hrunning (by simp [hw, hj]) (by simpa [Phase, hw, hj] using hphase) hfresh

theorem ordered_begin (program : κ → Program δ ρ) (d : δ) :
    Ordered program d (begin d : Processes ι κ δ ρ) [] [] :=
  ⟨rfl, List.Perm.refl _, fun _ => by simp [begin, due], List.nodup_nil, ⟨fun _ _ h => (nomatch h),
    fun _ _ h => (nomatch h)⟩⟩

theorem Ordered.serialisable {ω : Type} (seen : δ → ω) (h : Ordered program d₀ s order pending) :
    Serialisable program seen d₀ s := by
  intro hidle
  have hnone : pending = [] := by
    apply List.eq_nil_iff_forall_not_mem.mpr
    intro i hi
    have hdue := (h.closing i).mp hi
    simp [due, hidle i] at hdue
  refine ⟨order, s.committed, ?_, h.serial, rfl⟩
  have hperm := h.perm
  rw [hnone, List.filterMap_nil, List.append_nil] at hperm
  exact hperm

/-- Calls whose reads stay fresh up to their commit can be put in the order of their commits. -/
theorem serialisable_of_fresh {ω : Type} (seen : δ → ω) (hprogram : ∀ call, (program call).Deciding) (d : δ)
    {turns : List (Turn ι κ)} (hfresh : EachStep (step program) (Fresh program) (begin d) turns) :
    Always (step program) (Serialisable program seen d) (begin d) turns := by
  have hordered : Always (step program) (fun s : Processes ι κ δ ρ => ∃ order pending, Ordered program d s order pending)
      (begin d) turns := by
    refine hfresh.always (fun s turn ⟨order, pending, h⟩ hturn => ?_) ⟨[], [], ordered_begin program d⟩
    exact ordered_step hprogram h turn hturn
  exact hordered.imp fun s ⟨order, pending, h⟩ => h.serialisable seen

end Proof

end Processes

end A2ARegistry.Base
