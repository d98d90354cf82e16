import Mathlib.Logic.Relation

namespace A2ARegistry.Base

/-- One connection to a database: its committed content, the content inside the open transaction if there is one,
and how often a transaction was rolled back. -/
structure Connection (δ : Type) where
  committed : δ
  working : Option δ
  rollbacks : Nat

namespace Connection

variable {δ : Type}

def start (content : δ) : Connection δ := ⟨content, none, 0⟩

/-- What the connection sees. -/
def content (c : Connection δ) : δ := c.working.getD c.committed

def Closed (c : Connection δ) : Prop := c.working = none

end Connection

/-- What leaves a session: the refusal of a `BEGIN` inside a transaction, or another error. -/
inductive SessionError (ε : Type)
  | nested
  | raised (error : ε)
deriving DecidableEq

/-- Code that runs on a connection. It returns or raises, and leaves the connection in some state either way. -/
def Session (δ ε α : Type) : Type := Connection δ → Except (SessionError ε) α × Connection δ

namespace Session

variable {δ ε α β : Type}

instance : Monad (Session δ ε) where
  pure a := fun c => (.ok a, c)
  bind x f := fun c => match x c with
    | (.ok a, c') => f a c'
    | (.error e, c') => (.error e, c')

def raise (error : ε) : Session δ ε α := fun c => (.error (.raised error), c)

/-- A `SELECT`. Each statement is given the error it fails with, if it fails whatever the content is. -/
def query (fault : Option ε) (f : δ → α) : Session δ ε α := fun c =>
  match fault with
  | some e => (.error (.raised e), c)
  | none => (.ok (f c.content), c)

/-- An `INSERT`, `UPDATE` or `DELETE`. Outside a transaction the driver opens one before the statement runs, and
leaves it open when the statement fails. -/
def execute (fault : Option ε) (f : δ → Except ε (α × δ)) : Session δ ε α := fun c =>
  let opened := { c with working := some c.content }
  match fault with
  | some e => (.error (.raised e), opened)
  | none => match f c.content with
    | .error e => (.error (.raised e), opened)
    | .ok (a, content) => (.ok a, { c with working := some content })

def beginTx (fault : Option ε) : Session δ ε Unit := fun c =>
  match c.working, fault with
  | some _, _ => (.error .nested, c)
  | none, some e => (.error (.raised e), c)
  | none, none => (.ok (), { c with working := some c.committed })

def commit (fault : Option ε) : Session δ ε Unit := fun c =>
  match fault with
  | some e => (.error (.raised e), c)
  | none => (.ok (), { c with committed := c.content, working := none })

def rollback : Session δ ε Unit := fun c => (.ok (), { c with working := none, rollbacks := c.rollbacks + 1 })

/-- The statements between a `BEGIN` and its end. -/
def inside (body : δ → Except ε α × δ) : Session δ ε α := fun c =>
  match body c.content with
  | (.ok a, content) => (.ok a, { c with working := some content })
  | (.error e, content) => (.error (.raised e), { c with working := some content })

/-- Another session after one that raises, and the error again. -/
def onError (x : Session δ ε α) (handler : Session δ ε Unit) : Session δ ε α := fun c =>
  match x c with
  | (.ok a, c') => (.ok a, c')
  | (.error e, c') => (.error e, (handler c').2)

/-- A session whose errors are caught where `caught` says so. -/
def catching (caught : ε → Bool) (x : Session δ ε Unit) : Session δ ε Unit := fun c =>
  match x c with
  | (.error (.raised e), c') => if caught e then (.ok (), c') else (.error (.raised e), c')
  | result => result

/-- `BEGIN`, a body and `COMMIT`; whatever raises after the `BEGIN` is followed by a `ROLLBACK`. -/
def transaction (start finish : Option ε) (body : δ → Except ε α × δ) : Session δ ε α := do
  beginTx start
  onError (do let a ← inside body; commit finish; return a) rollback

/-- A statement outside a transaction, and a `COMMIT` that is left out when the statement raises. -/
def committing (x : Session δ ε α) (finish : Option ε) : Session δ ε α := do
  let a ← x
  commit finish
  return a

section Run

variable (a : α) (e : SessionError ε) (x : Session δ ε α) (f : α → Session δ ε β) (c c' : Connection δ)

@[simp] theorem pure_run : (pure a : Session δ ε α) c = (.ok a, c) := rfl

theorem bind_ok (h : x c = (.ok a, c')) : (x >>= f) c = f a c' := by
  show (match x c with | (.ok a, c') => f a c' | (.error e, c') => (.error e, c')) = _
  rw [h]

theorem bind_error (h : x c = (.error e, c')) : (x >>= f) c = (.error e, c') := by
  show (match x c with | (.ok a, c') => f a c' | (.error e, c') => (.error e, c')) = _
  rw [h]

end Run

/-- From a connection with no open transaction the session leaves none open, however it ends, and no `BEGIN` of it
is refused. -/
def Tidy (x : Session δ ε α) : Prop := ∀ c, c.Closed → (x c).2.Closed ∧ (x c).1 ≠ .error .nested

/-- The session is refused inside a transaction, before it does anything. -/
def Refused (x : Session δ ε α) : Prop := ∀ c, ¬ c.Closed → x c = (.error .nested, c)

/-- The session begins no transaction and rolls none back. -/
def Plain (x : Session δ ε α) : Prop := ∀ c, (x c).1 ≠ .error .nested ∧ (x c).2.rollbacks = c.rollbacks

theorem tidy_pure (a : α) : Tidy (pure a : Session δ ε α) := fun _ hc => ⟨hc, by simp⟩

theorem tidy_raise (e : ε) : Tidy (raise e : Session δ ε α) := fun _ hc => ⟨hc, by simp [raise]⟩

theorem tidy_query (fault : Option ε) (f : δ → α) : Tidy (query fault f) := by
  intro c hc
  cases fault with
  | none => exact ⟨hc, by simp [query]⟩
  | some e => exact ⟨hc, by simp [query]⟩

theorem Tidy.bind {x : Session δ ε α} {f : α → Session δ ε β} (hx : Tidy x) (hf : ∀ a, Tidy (f a)) :
    Tidy (x >>= f) := by
  intro c hc
  obtain ⟨hclosed, hadmitted⟩ := hx c hc
  rcases hrun : x c with ⟨e | a, c'⟩
  · rw [hrun] at hclosed hadmitted
    rw [bind_error e x f c c' hrun]
    refine ⟨hclosed, fun he => hadmitted ?_⟩
    cases he
    rfl
  · rw [hrun] at hclosed
    rw [bind_ok a x f c c' hrun]
    exact hf a c' hclosed

theorem Tidy.catching {caught : ε → Bool} {x : Session δ ε Unit} (hx : Tidy x) : Tidy (x.catching caught) := by
  intro c hc
  obtain ⟨hclosed, hadmitted⟩ := hx c hc
  unfold Session.catching
  split
  · rename_i e c' hrun
    rw [hrun] at hclosed
    split
    · exact ⟨hclosed, by simp⟩
    · exact ⟨hclosed, by simp⟩
  · exact ⟨hclosed, hadmitted⟩

/-- What a transaction does, by what its body and its two ends do. -/
theorem transaction_run (start finish : Option ε) (body : δ → Except ε α × δ) (c : Connection δ) :
    transaction start finish body c = match c.working, start with
      | some _, _ => (.error .nested, c)
      | none, some e => (.error (.raised e), c)
      | none, none => match body c.committed, finish with
        | (.error e, _), _ => (.error (.raised e), { c with working := none, rollbacks := c.rollbacks + 1 })
        | (.ok _, _), some e => (.error (.raised e), { c with working := none, rollbacks := c.rollbacks + 1 })
        | (.ok a, content), none => (.ok a, { c with committed := content, working := none }) := by
  obtain ⟨committed, working, rollbacks⟩ := c
  cases working with
  | some content => rfl
  | none =>
    cases start with
    | some e => rfl
    | none =>
      simp only [transaction, beginTx, onError, inside, commit, rollback, Bind.bind, Pure.pure, Connection.content,
        Option.getD_some]
      rcases body committed with ⟨e | a, content⟩
      · rfl
      · cases finish <;> rfl

theorem tidy_transaction (start finish : Option ε) (body : δ → Except ε α × δ) :
    Tidy (transaction start finish body) := by
  intro c hc
  have hworking : c.working = none := hc
  rw [transaction_run, hworking]
  cases start with
  | some e => exact ⟨hc, by simp⟩
  | none =>
    rcases body c.committed with ⟨e | a, content⟩
    · exact ⟨rfl, by simp⟩
    · cases finish with
      | some e => exact ⟨rfl, by simp⟩
      | none => exact ⟨rfl, by simp⟩

theorem refused_transaction (start finish : Option ε) (body : δ → Except ε α × δ) :
    Refused (transaction start finish body) := by
  intro c hc
  obtain ⟨content, hcontent⟩ := Option.ne_none_iff_exists'.mp hc
  rw [transaction_run, hcontent]

/-- A statement that changes the content leaves a transaction open, whether it fails or not. -/
theorem execute_open (fault : Option ε) (f : δ → Except ε (α × δ)) (c : Connection δ) :
    ¬ (execute fault f c).2.Closed := by
  unfold execute Connection.Closed
  cases fault with
  | some e => simp
  | none =>
    dsimp only
    split <;> simp

/-- A statement returns exactly when it has no fault and the content admits it. -/
theorem execute_returns (fault : Option ε) (f : δ → Except ε (α × δ)) (c : Connection δ) :
    (∃ a, (execute fault f c).1 = .ok a) ↔ fault = none ∧ ∃ r, f c.content = .ok r := by
  unfold execute
  cases fault with
  | some e => simp
  | none =>
    cases hf : f c.content with
    | error e => simp
    | ok r => simp

theorem bind_returns (x : Session δ ε α) (f : α → Session δ ε β) (c : Connection δ) :
    (∃ b, ((x >>= f) c).1 = .ok b) ↔ ∃ a, (x c).1 = .ok a ∧ ∃ b, (f a (x c).2).1 = .ok b := by
  rcases hrun : x c with ⟨e | a, c'⟩
  · rw [bind_error e x f c c' hrun]
    simp
  · rw [bind_ok a x f c c' hrun]
    simp

/-- Two such statements, one after the other, leave a transaction open as well. -/
theorem execute_twice_open (fault fault' : Option ε) (f : δ → Except ε (α × δ)) (g : α → δ → Except ε (β × δ))
    (c : Connection δ) : ¬ ((execute fault f >>= fun a => execute fault' (g a)) c).2.Closed := by
  have hfirst := execute_open fault f c
  rcases hrun : execute fault f c with ⟨e | a, c'⟩
  · rw [hrun] at hfirst
    rw [bind_error e _ _ c c' hrun]
    exact hfirst
  · rw [bind_ok a _ _ c c' hrun]
    exact execute_open fault' (g a) c'

theorem Refused.bind {x : Session δ ε α} (hx : Refused x) (f : α → Session δ ε β) : Refused (x >>= f) :=
  fun c hc => bind_error .nested x f c c (hx c hc)

theorem Refused.catching {caught : ε → Bool} {x : Session δ ε Unit} (hx : Refused x) :
    Refused (x.catching caught) := by
  intro c hc
  rw [Session.catching, hx c hc]

theorem plain_pure (a : α) : Plain (pure a : Session δ ε α) := fun _ => ⟨by simp, rfl⟩

theorem plain_raise (e : ε) : Plain (raise e : Session δ ε α) := fun _ => ⟨by simp [raise], rfl⟩

theorem plain_query (fault : Option ε) (f : δ → α) : Plain (query fault f) := by
  intro c
  cases fault with
  | none => exact ⟨by simp [query], rfl⟩
  | some e => exact ⟨by simp [query], rfl⟩

theorem plain_execute (fault : Option ε) (f : δ → Except ε (α × δ)) : Plain (execute fault f) := by
  intro c
  unfold execute
  cases fault with
  | some e => exact ⟨by simp, rfl⟩
  | none =>
    dsimp only
    split
    · exact ⟨by simp, rfl⟩
    · exact ⟨by simp, rfl⟩

theorem plain_commit (fault : Option ε) : Plain (commit fault : Session δ ε Unit) := by
  intro c
  cases fault with
  | none => exact ⟨by simp [commit], rfl⟩
  | some e => exact ⟨by simp [commit], rfl⟩

theorem Plain.bind {x : Session δ ε α} {f : α → Session δ ε β} (hx : Plain x) (hf : ∀ a, Plain (f a)) :
    Plain (x >>= f) := by
  intro c
  obtain ⟨hadmitted, hsame⟩ := hx c
  rcases hrun : x c with ⟨e | a, c'⟩
  · rw [hrun] at hadmitted hsame
    rw [bind_error e x f c c' hrun]
    refine ⟨fun he => hadmitted ?_, hsame⟩
    cases he
    rfl
  · rw [hrun] at hsame
    rw [bind_ok a x f c c' hrun]
    exact ⟨(hf a c').1, (hf a c').2.trans hsame⟩

theorem Plain.committing {x : Session δ ε α} (hx : Plain x) (finish : Option ε) : Plain (committing x finish) :=
  hx.bind fun a => (plain_commit finish).bind fun _ => plain_pure a

/-- What follows a session and leaves the connection as it is makes no difference to it. -/
theorem bind_conn {x : Session δ ε α} {f : α → Session δ ε β} (hf : ∀ a c, (f a c).2 = c) (c : Connection δ) :
    ((x >>= f) c).2 = (x c).2 := by
  rcases hrun : x c with ⟨e | a, c'⟩
  · rw [bind_error e x f c c' hrun]
  · rw [bind_ok a x f c c' hrun, hf]

theorem query_conn (fault : Option ε) (f : δ → α) (c : Connection δ) : (query fault f c).2 = c := by
  cases fault <;> rfl

/-- A session that may leave a transaction open ends with none exactly when it returns and its `COMMIT` does. -/
theorem committing_closed {x : Session δ ε α} {c : Connection δ} (hx : ¬ (x c).2.Closed) (finish : Option ε) :
    (committing x finish c).2.Closed ↔ (∃ a, (x c).1 = .ok a) ∧ finish = none := by
  rcases hrun : x c with ⟨e | a, c'⟩
  · rw [hrun] at hx
    rw [committing, bind_error e x _ c c' hrun]
    simpa using hx
  · rw [hrun] at hx
    rw [committing, bind_ok a x _ c c' hrun]
    cases finish with
    | none => exact ⟨fun _ => ⟨⟨a, rfl⟩, rfl⟩, fun _ => rfl⟩
    | some e => exact ⟨fun h => absurd h hx, fun h => nomatch h.2⟩

/-- A session that reads first ends with no open transaction if that fails, and otherwise as what follows does. -/
theorem query_bind_closed {fault : Option ε} {f : δ → β} {g : β → Session δ ε α} {c : Connection δ} (hc : c.Closed) :
    ((query fault f >>= g) c).2.Closed ↔ fault ≠ none ∨ (g (f c.content) c).2.Closed := by
  cases fault with
  | some e =>
    rw [bind_error (.raised e) (query (some e) f) g c c rfl]
    exact ⟨fun _ => Or.inl (by simp), fun _ => hc⟩
  | none =>
    rw [bind_ok (f c.content) (query none f) g c c rfl]
    exact ⟨Or.inr, fun h => h.resolve_left (fun hne => hne rfl)⟩

/-- `BEGIN`, a session and `COMMIT`; whatever raises after the `BEGIN` is followed by a `ROLLBACK`. -/
def bracket (start finish : Option ε) (body : Session δ ε α) : Session δ ε α := do
  beginTx start
  onError (do let a ← body; commit finish; return a) rollback

end Session

/-- An error that an attempt at a statement meets. Where the server rolls the transaction back because of it, `aborts`
is what others have committed by the next attempt. -/
structure Fault (δ ε : Type) where
  error : ε
  aborts : Option (δ → δ)

/-- Code that works on a database by single statements, and goes on with what they answer. -/
inductive Script (δ ε ρ α : Type)
  | done (result : Except ε α)
  | statement (f : δ → Except ε (ρ × δ)) (rest : ρ → Script δ ε ρ α)

section Retry

variable {δ ε ρ α : Type}

/-- An attempt at a statement. -/
def Session.attempt (fault : Option (Fault δ ε)) (f : δ → Except ε (ρ × δ)) : Session δ ε ρ := fun c =>
  match fault with
  | none => execute none f c
  | some ⟨e, none⟩ => execute (some e) f c
  | some ⟨e, some others⟩ => (.error (.raised e), { c with committed := others c.committed, working := none })

/-- The attempts at a session from the `n`-th on, where `left` more follow on errors that pass. -/
def Session.retrying (passes : ε → Bool) (x : Nat → Session δ ε α) : Nat → Nat → Session δ ε α
  | 0, n => x n
  | left + 1, n => fun c =>
    match x n c with
    | (.error (.raised e), c') =>
      if passes e then retrying passes x left (n + 1) c' else (.error (.raised e), c')
    | result => result

namespace Script

/-- The script on a content, with no faults. The first error ends it. -/
def apply : Script δ ε ρ α → δ → Except ε α × δ
  | .done result, d => (result, d)
  | .statement f rest, d =>
    match f d with
    | .ok (r, d') => (rest r).apply d'
    | .error e => (.error e, d)

/-- The script from its `i`-th statement on, on a connection that executes statements in its own way. -/
def runWith (execute : Nat → (δ → Except ε (ρ × δ)) → Session δ ε ρ) : Nat → Script δ ε ρ α → Session δ ε α
  | _, .done (.ok a) => pure a
  | _, .done (.error e) => Session.raise e
  | i, .statement f rest => do
    let r ← execute i f
    (rest r).runWith execute (i + 1)

/-- The same with each statement retried; `faults i n` is what the `n`-th attempt at the `i`-th statement meets. -/
def retried (passes : ε → Bool) (retries : Nat) (faults : Nat → Nat → Option (Fault δ ε)) (i : Nat)
    (s : Script δ ε ρ α) : Session δ ε α :=
  s.runWith (fun i f => Session.retrying passes (fun n => Session.attempt (faults i n) f) retries 0) i

/-- The script begins with a statement. -/
def Pending (s : Script δ ε ρ α) : Prop := ∃ f rest, s = .statement f rest

/-- The script goes on as another one, by some answers to its first `k` statements. -/
inductive Leads : Nat → Script δ ε ρ α → Script δ ε ρ α → Prop
  | refl (s : Script δ ε ρ α) : Leads 0 s s
  | statement (f : δ → Except ε (ρ × δ)) {rest : ρ → Script δ ε ρ α} {r : ρ} {s : Script δ ε ρ α} {k : Nat}
      (leads : Leads k (rest r) s) : Leads (k + 1) (.statement f rest) s

end Script

variable {passes : ε → Bool} {retries : Nat} {faults : Nat → Nat → Option (Fault δ ε)}

/-- An attempt at the `i`-th statement has its transaction rolled back by the server, and is retried. -/
def Aborts (passes : ε → Bool) (retries : Nat) (faults : Nat → Nat → Option (Fault δ ε)) (i : Nat) : Prop :=
  ∃ n < retries, ∃ e others, faults i n = some ⟨e, some others⟩ ∧ passes e = true

/-- What others commit at the rollbacks by the server leads from one content to another. -/
def Outside (faults : Nat → Nat → Option (Fault δ ε)) : δ → δ → Prop :=
  Relation.ReflTransGen fun d d' => ∃ i n e others, faults i n = some ⟨e, some others⟩ ∧ d' = others d

/-- Each statement meets errors that pass, none of which rolls its transaction back, and before its attempts are used up
one that meets none. -/
def Passing (passes : ε → Bool) (retries : Nat) (faults : Nat → Nat → Option (Fault δ ε)) : Prop :=
  ∀ i, ∃ n ≤ retries, faults i n = none ∧ ∀ m < n, ∃ e, faults i m = some ⟨e, none⟩ ∧ passes e = true

/-- How the attempts at the `i`-th statement end: with its answer to the content that the connection had, or, once the server has
rolled back, to what has been committed; or with an error. -/
inductive Attempted (passes : ε → Bool) (retries : Nat) (faults : Nat → Nat → Option (Fault δ ε)) (i : Nat)
    (f : δ → Except ε (ρ × δ)) (c : Connection δ) : Except (SessionError ε) ρ × Connection δ → Prop
  | kept (r : ρ) (d : δ) (rollbacks : Nat) (answer : f c.content = .ok (r, d)) :
      Attempted passes retries faults i f c (.ok r, ⟨c.committed, some d, rollbacks⟩)
  | renewed (r : ρ) (d base : δ) (rollbacks : Nat) (aborted : Aborts passes retries faults i)
      (others : Outside faults c.committed base) (answer : f base = .ok (r, d)) :
      Attempted passes retries faults i f c (.ok r, ⟨base, some d, rollbacks⟩)
  | raised (e : ε) (c' : Connection δ) (others : Outside faults c.committed c'.committed) :
      Attempted passes retries faults i f c (.error (.raised e), c')

theorem execute_attempted (fault : Option ε) (f : δ → Except ε (ρ × δ)) (i : Nat) (c : Connection δ) :
    Attempted passes retries faults i f c (Session.execute fault f c) := by
  unfold Session.execute
  cases fault with
  | some e => exact .raised e _ .refl
  | none =>
    dsimp only
    split
    · exact .raised _ _ .refl
    · rename_i r d hf
      exact .kept r d c.rollbacks hf

theorem attempt_attempted (f : δ → Except ε (ρ × δ)) (i n : Nat) (c : Connection δ) :
    Attempted passes retries faults i f c (Session.attempt (faults i n) f c) := by
  cases hfault : faults i n with
  | none => exact execute_attempted none f i c
  | some fault =>
    obtain ⟨e, _ | others⟩ := fault
    · exact execute_attempted (some e) f i c
    · exact .raised e _ (.single ⟨i, n, e, others, hfault, rfl⟩)

/-- After a failed attempt the connection has the content that it had, or that of the committed state. -/
theorem attempt_failed {f : δ → Except ε (ρ × δ)} {i n : Nat} {c c' : Connection δ} {e : SessionError ε}
    (h : Session.attempt (faults i n) f c = (.error e, c')) :
    c'.content = c.content ∧ c'.committed = c.committed ∨
      (∃ error others, e = .raised error ∧ faults i n = some ⟨error, some others⟩) ∧ c'.content = c'.committed ∧
        Outside faults c.committed c'.committed := by
  have hexecute : ∀ fault, Session.execute fault f c = (.error e, c') →
      c'.content = c.content ∧ c'.committed = c.committed := by
    intro fault hrun
    unfold Session.execute at hrun
    split at hrun
    · cases hrun
      exact ⟨rfl, rfl⟩
    · split at hrun
      · cases hrun
        exact ⟨rfl, rfl⟩
      · cases hrun
  cases hfault : faults i n with
  | none =>
    rw [hfault] at h
    exact Or.inl (hexecute none h)
  | some fault =>
    rw [hfault] at h
    obtain ⟨error, _ | others⟩ := fault
    · exact Or.inl (hexecute (some error) h)
    · cases h
      exact Or.inr ⟨⟨error, others, rfl, rfl⟩, rfl, .single ⟨i, n, error, others, hfault, rfl⟩⟩

/-- What follows a failed attempt is as if it had been the first. -/
theorem Attempted.after {f : δ → Except ε (ρ × δ)} {i : Nat} {c c' : Connection δ}
    {r : Except (SessionError ε) ρ × Connection δ} (h : Attempted passes retries faults i f c' r)
    (hfailed : c'.content = c.content ∧ c'.committed = c.committed ∨
      Aborts passes retries faults i ∧ c'.content = c'.committed ∧ Outside faults c.committed c'.committed) :
    Attempted passes retries faults i f c r := by
  rcases hfailed with ⟨hcontent, hcommitted⟩ | ⟨habort, hcontent, hothers⟩
  · cases h with
    | kept r d rollbacks answer =>
      rw [hcommitted]
      exact .kept r d rollbacks (hcontent ▸ answer)
    | renewed r d base rollbacks aborted others answer =>
      exact .renewed r d base rollbacks aborted (hcommitted ▸ others) answer
    | raised e c'' others => exact .raised e c'' (hcommitted ▸ others)
  · cases h with
    | kept r d rollbacks answer => exact .renewed r d _ rollbacks habort hothers (hcontent ▸ answer)
    | renewed r d base rollbacks aborted others answer =>
      exact .renewed r d base rollbacks aborted (hothers.trans others) answer
    | raised e c'' others => exact .raised e c'' (hothers.trans others)

theorem retrying_attempted (f : δ → Except ε (ρ × δ)) (i : Nat) {left n : Nat} (hleft : n + left ≤ retries)
    (c : Connection δ) : Attempted passes retries faults i f c
      (Session.retrying passes (fun n => Session.attempt (faults i n) f) left n c) := by
  induction left generalizing n c with
  | zero => exact attempt_attempted f i n c
  | succ left ih =>
    have hfirst : Attempted passes retries faults i f c (Session.attempt (faults i n) f c) := attempt_attempted f i n c
    unfold Session.retrying
    rcases hrun : Session.attempt (faults i n) f c with ⟨e | r, c'⟩
    · rw [hrun] at hfirst
      cases e with
      | nested => simpa only [hrun] using hfirst
      | raised e =>
        dsimp only
        split
        · rename_i hpasses
          refine (ih (by omega) c').after ((attempt_failed hrun).imp_right fun hrolled => ?_)
          obtain ⟨⟨error, others, he, hfault⟩, hcontent, houtside⟩ := hrolled
          cases he
          exact ⟨⟨n, by omega, e, others, hfault, hpasses⟩, hcontent, houtside⟩
        · exact hfirst
    · rw [hrun] at hfirst
      simpa only [hrun] using hfirst

/-- A script that is at its `i`-th statement, in a transaction on the content `d`, has returned `a` and left the
connection `c'`: it has done all of it, or, from a statement on at which the server has rolled back and which was
retried, the rest of it on what was committed then. -/
def ComesTo (passes : ε → Bool) (retries : Nat) (faults : Nat → Nat → Option (Fault δ ε)) (s : Script δ ε ρ α) (i : Nat)
    (committed d : δ) (a : α) (c' : Connection δ) : Prop :=
  ∃ k rest d', c'.working = some d' ∧ s.Leads k rest ∧ Outside faults committed c'.committed ∧
    (rest = s ∧ c'.committed = committed ∧ s.apply d = (.ok a, d') ∨
      Aborts passes retries faults (i + k) ∧ rest.Pending ∧ rest.apply c'.committed = (.ok a, d'))

/-- What the script comes to after its first statement, whose answer was to the content of the connection, or to what
was committed when the server had rolled it back. -/
theorem ComesTo.statement {f : δ → Except ε (ρ × δ)} {rest : ρ → Script δ ε ρ α} {i : Nat} {r : ρ} {d d₁ base₁ : δ}
    {committed : δ} {a : α} {c' : Connection δ} (h : ComesTo passes retries faults (rest r) (i + 1) base₁ d₁ a c')
    (hfirst : base₁ = committed ∧ f d = .ok (r, d₁) ∨
      Aborts passes retries faults i ∧ Outside faults committed base₁ ∧ f base₁ = .ok (r, d₁)) :
    ComesTo passes retries faults (.statement f rest) i committed d a c' := by
  obtain ⟨k, rest', d', hworking, hleads, hothers, hend⟩ := h
  have houtside : Outside faults committed base₁ := by
    rcases hfirst with ⟨rfl, _⟩ | ⟨_, houtside, _⟩
    · exact .refl
    · exact houtside
  rcases hend with ⟨rfl, hcommitted, happly⟩ | hend
  · refine ⟨0, .statement f rest, d', hworking, .refl _, houtside.trans hothers, ?_⟩
    rcases hfirst with ⟨hbase, answer⟩ | ⟨haborts, _, answer⟩
    · refine Or.inl ⟨rfl, hcommitted.trans hbase, ?_⟩
      rw [Script.apply, answer]
      exact happly
    · refine Or.inr ⟨haborts, ⟨f, rest, rfl⟩, ?_⟩
      rw [hcommitted, Script.apply, answer]
      exact happly
  · rw [show i + 1 + k = i + (k + 1) by omega] at hend
    exact ⟨k + 1, rest', d', hworking, .statement f hleads, houtside.trans hothers, Or.inr hend⟩

/-- How a script in a transaction ends, where its statements are retried. -/
theorem retried_ends (s : Script δ ε ρ α) (i : Nat) {c : Connection δ} {d : δ} (hd : c.working = some d) :
    (∀ e, (s.retried passes retries faults i c).1 = .error e →
      Outside faults c.committed (s.retried passes retries faults i c).2.committed) ∧
    ∀ a, (s.retried passes retries faults i c).1 = .ok a →
      ComesTo passes retries faults s i c.committed d a (s.retried passes retries faults i c).2 := by
  induction s generalizing i c d with
  | done result =>
    cases result with
    | error e => exact ⟨fun _ _ => .refl, fun a ha => by cases ha⟩
    | ok a =>
      refine ⟨fun e he => (by cases he), fun a' ha => ?_⟩
      cases ha
      exact ⟨0, _, d, hd, .refl _, .refl, Or.inl ⟨rfl, rfl, rfl⟩⟩
  | statement f rest ih =>
    have hfirst : Attempted passes retries faults i f c
        (Session.retrying passes (fun n => Session.attempt (faults i n) f) retries 0 c) :=
      retrying_attempted f i (by omega) c
    have hcontent : c.content = d := by rw [Connection.content, hd, Option.getD_some]
    rw [Script.retried, Script.runWith]
    rcases hrun : Session.retrying passes (fun n => Session.attempt (faults i n) f) retries 0 c with ⟨e | r, c'⟩
    · rw [hrun] at hfirst
      rw [Session.bind_error e _ _ c c' hrun]
      refine ⟨fun _ _ => ?_, fun a ha => (by cases ha)⟩
      cases hfirst with
      | raised e c' others => exact others
    · rw [hrun] at hfirst
      rw [Session.bind_ok r _ _ c c' hrun]
      cases hfirst with
      | kept r d₁ rollbacks answer =>
        obtain ⟨herror, hok⟩ := ih r (i + 1) (c := ⟨c.committed, some d₁, rollbacks⟩) rfl
        exact ⟨herror, fun a ha => (hok a ha).statement (Or.inl ⟨rfl, hcontent ▸ answer⟩)⟩
      | renewed r d₁ base₁ rollbacks aborted others answer =>
        obtain ⟨herror, hok⟩ := ih r (i + 1) (c := ⟨base₁, some d₁, rollbacks⟩) rfl
        exact ⟨fun e he => others.trans (herror e he),
          fun a ha => (hok a ha).statement (Or.inr ⟨aborted, others, answer⟩)⟩

/-- Errors that pass make no difference to a statement that an attempt gets through. -/
theorem retrying_passing {f : δ → Except ε (ρ × δ)} {i n : Nat} (hnone : faults i n = none)
    (hpass : ∀ m < n, ∃ e, faults i m = some ⟨e, none⟩ ∧ passes e = true) {c : Connection δ} {d d' : δ} {r : ρ}
    (hd : c.working = some d) (hf : f d = .ok (r, d')) {left m : Nat} (hm : m ≤ n) (hleft : n ≤ m + left) :
    Session.retrying passes (fun n => Session.attempt (faults i n) f) left m c =
      (.ok r, { c with working := some d' }) := by
  have hcontent : c.content = d := by rw [Connection.content, hd, Option.getD_some]
  have hsame : { c with working := some c.content } = c := by
    rw [hcontent, ← hd]
  have hgoes : Session.attempt (faults i n) f c = (.ok r, { c with working := some d' }) := by
    rw [hnone]
    simp only [Session.attempt, Session.execute, hcontent, hf]
  induction left generalizing m with
  | zero =>
    obtain rfl : m = n := by omega
    exact hgoes
  | succ left ih =>
    unfold Session.retrying
    rcases Nat.eq_or_lt_of_le hm with rfl | hlt
    · simp only [hgoes]
    · obtain ⟨e, hfault, hpasses⟩ := hpass m hlt
      have hfails : Session.attempt (faults i m) f c = (.error (.raised e), c) := by
        rw [hfault]
        simp only [Session.attempt, Session.execute, hsame]
      simp only [hfails, hpasses, if_true]
      exact ih hlt (by omega)

theorem retried_passing (hpassing : Passing passes retries faults) (s : Script δ ε ρ α) (i : Nat) {c : Connection δ}
    {d d' : δ} {a : α} (hd : c.working = some d) (hs : s.apply d = (.ok a, d')) :
    s.retried passes retries faults i c = (.ok a, { c with working := some d' }) := by
  induction s generalizing i c d with
  | done result =>
    cases hs
    rw [← hd]
    rfl
  | statement f rest ih =>
    rw [Script.apply] at hs
    cases hf : f d with
    | error e =>
      rw [hf] at hs
      cases hs
    | ok answer =>
      obtain ⟨r, d₁⟩ := answer
      rw [hf] at hs
      obtain ⟨n, hn, hnone, hpass⟩ := hpassing i
      have hfirst := retrying_passing hnone hpass hd hf (Nat.zero_le n) (by omega : n ≤ 0 + retries)
      rw [Script.retried, Script.runWith, Session.bind_ok r _ _ c _ hfirst]
      exact ih r (i + 1) rfl hs

section Bracket

variable {start finish : Option ε} {s : Script δ ε ρ α} {c : Connection δ}

/-- What a bracketed session does on a connection with no open transaction. -/
theorem bracket_run (body : Session δ ε α) (hc : c.Closed) :
    Session.bracket start finish body c = match start with
      | some e => (.error (.raised e), c)
      | none => match body { c with working := some c.committed } with
        | (.error e, c') => (.error e, { c' with working := none, rollbacks := c'.rollbacks + 1 })
        | (.ok a, c') => match finish with
          | some e => (.error (.raised e), { c' with working := none, rollbacks := c'.rollbacks + 1 })
          | none => (.ok a, { c' with committed := c'.content, working := none }) := by
  obtain ⟨committed, working, rollbacks⟩ := c
  obtain rfl : working = none := hc
  cases start with
  | some e => rfl
  | none =>
    simp only [Session.bracket, Session.beginTx, Session.onError, Session.rollback, Bind.bind, Pure.pure]
    rcases body ⟨committed, some committed, rollbacks⟩ with ⟨e | a, c'⟩
    · rfl
    · cases finish <;> rfl

/-- A transaction whose statements are retried leaves none open. Where it raises it has committed nothing. Where it
returns it has committed what the script does, or, if the server has rolled it back on the way, what the rest of it
does from the statement on that was retried then. -/
theorem bracket_retried (hc : c.Closed) {result : Except (SessionError ε) α} {c' : Connection δ}
    (h : Session.bracket start finish (s.retried passes retries faults 0) c = (result, c')) :
    c'.Closed ∧ (∀ e, result = .error e → Outside faults c.committed c'.committed) ∧
    ∀ a, result = .ok a → ∃ k rest base, s.Leads k rest ∧ Outside faults c.committed base ∧
      rest.apply base = (.ok a, c'.committed) ∧
      (rest = s ∧ base = c.committed ∨ Aborts passes retries faults k ∧ rest.Pending) := by
  rw [bracket_run _ hc] at h
  cases start with
  | some e =>
    cases h
    exact ⟨hc, fun _ _ => .refl, fun a ha => (by cases ha)⟩
  | none =>
    obtain ⟨herror, hok⟩ := @retried_ends δ ε ρ α passes retries faults s 0 { c with working := some c.committed } _ rfl
    rcases hrun : s.retried passes retries faults 0 { c with working := some c.committed } with ⟨e | a, c₁⟩
    · rw [hrun] at h herror
      cases h
      exact ⟨rfl, fun _ _ => herror e rfl, fun a ha => (by cases ha)⟩
    · rw [hrun] at h hok
      obtain ⟨k, rest, d', hworking, hleads, hothers, hend⟩ := hok a rfl
      rw [Nat.zero_add] at hend
      have hcontent : c₁.content = d' := by rw [Connection.content, hworking, Option.getD_some]
      cases finish with
      | some e =>
        cases h
        exact ⟨rfl, fun _ _ => hothers, fun a ha => (by cases ha)⟩
      | none =>
        cases h
        refine ⟨rfl, fun e he => (by cases he), fun a' ha => ?_⟩
        cases ha
        refine ⟨k, rest, c₁.committed, hleads, hothers, ?_, ?_⟩
        · dsimp only
          rw [hcontent]
          rcases hend with ⟨rfl, hcommitted, happly⟩ | ⟨_, _, happly⟩
          · rw [hcommitted]
            exact happly
          · exact happly
        · exact hend.imp (fun h => ⟨h.1, h.2.1⟩) (fun h => ⟨h.1, h.2.1⟩)

/-- What a script does without faults it does where each of its statements gets through in the end. -/
theorem bracket_passing (hpassing : Passing passes retries faults) (hc : c.Closed) {a : α} {d : δ}
    (hs : s.apply c.committed = (.ok a, d)) :
    Session.bracket none none (s.retried passes retries faults 0) c =
      (.ok a, { c with committed := d, working := none }) := by
  have hbody := retried_passing hpassing s 0 (c := { c with working := some c.committed }) rfl hs
  rw [bracket_run _ hc]
  dsimp only
  rw [hbody]
  rfl

end Bracket

end Retry

end A2ARegistry.Base
