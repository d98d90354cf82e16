import A2ARegistry.Auth.Store
import A2ARegistry.Base.Transactions

namespace A2ARegistry.Registry
open Base Auth

/-- An exception of the database driver: the name of its type with its module, and its text. -/
structure DbError where
  typeName : String
  message : String
deriving DecidableEq, Repr

/-- `RetryEngine._is_transient`; `lower` is `str.lower`. -/
def isTransient (lower : String → String) (e : DbError) : Bool :=
  ["operationalerror", "databaselocked", "timeout", "lock"].any
    (fun kw => contains (lower e.typeName) kw || contains (lower e.message) kw)

/-- `RetryEngine`. -/
structure RetryEngine where
  maxRetries : Nat := 3
deriving DecidableEq, Repr

section Engine

variable {δ ρ α : Type} (engine : RetryEngine) (lower : String → String)

/-- `RetryEngine.execute`; `faults n` is what the `n`-th attempt meets. -/
def RetryEngine.execute (faults : Nat → Option (Fault δ DbError)) (f : δ → Except DbError (ρ × δ)) : Session δ DbError ρ :=
  Session.retrying (isTransient lower) (fun n => Session.attempt (faults n) f) engine.maxRetries 0

/-- A `with` block of `Store._tx`; `start` and `finish` are the errors of its `BEGIN` and its `COMMIT`, which are not
retried. -/
def RetryEngine.tx (start finish : Option DbError) (faults : Nat → Nat → Option (Fault δ DbError))
    (body : Script δ DbError ρ α) : Session δ DbError α :=
  Session.bracket start finish (body.runWith (fun i f => engine.execute lower (faults i) f) 0)

end Engine

/-- The block of `delete_client`; a statement answers its row count. -/
def deleteClientBody (clientId : String) : Script AuthStore DbError Nat Bool :=
  .statement (fun d => .ok ((d.tokens.rows.filter (fun r => r.clientId == clientId)).length,
      { d with tokens := d.tokens.delete (fun r => r.clientId == clientId) })) fun _ =>
    .statement (fun d => .ok ((d.clients.rows.filter (fun r => r.clientId == clientId)).length,
      { d with clients := d.clients.delete (fun r => r.clientId == clientId) })) fun rowcount =>
      .done (.ok (decide (0 < rowcount)))

section Transactions

variable {δ ρ α : Type} (engine : RetryEngine) (lower : String → String)

/-- A transaction of the store, whatever its statements are and whatever errors they meet, leaves no transaction open.
Where it raises it has committed nothing. Where it returns it has committed what its block does, or what the rest of the
block does from a statement on at which the server has rolled it back, on an error that was retried. Errors that pass
make no difference to it as long as the retries last and the server rolls nothing back. -/
theorem tx_retried (start finish : Option DbError) (faults : Nat → Nat → Option (Fault δ DbError))
    (body : Script δ DbError ρ α) {c c' : Connection δ} (hc : c.Closed) {result : Except (SessionError DbError) α}
    (h : engine.tx lower start finish faults body c = (result, c')) :
    c'.Closed ∧
    (∀ e, result = .error e → Outside faults c.committed c'.committed) ∧
    (∀ a, result = .ok a → ∃ k rest base, body.Leads k rest ∧ Outside faults c.committed base ∧
      rest.apply base = (.ok a, c'.committed) ∧
      (rest = body ∧ base = c.committed ∨ Aborts (isTransient lower) engine.maxRetries faults k ∧ rest.Pending)) ∧
    (start = none → finish = none → Passing (isTransient lower) engine.maxRetries faults →
      ∀ a d, body.apply c.committed = (.ok a, d) → result = .ok a ∧ c'.committed = d) := by
  obtain ⟨hclosed, herror, hok⟩ := bracket_retried hc h
  refine ⟨hclosed, herror, hok, ?_⟩
  rintro rfl rfl hpassing a d hbody
  have hgoes := bracket_passing hpassing hc hbody
  cases h.symm.trans hgoes
  exact ⟨rfl, rfl⟩

/-- Without faults the block does what the method does. -/
theorem deleteClientBody_apply (clientId : String) (store : AuthStore) : (deleteClientBody clientId).apply store =
    (.ok (decide (0 < (store.clients.rows.filter (fun r => r.clientId == clientId)).length)),
      deleteClient store clientId) := rfl

/-- Where `delete_client` returns, the client is gone. Its tokens are gone as well, or the server has rolled back their
deletion at that of the client, which was retried. -/
theorem deleteClient_retried (start finish : Option DbError) (faults : Nat → Nat → Option (Fault AuthStore DbError))
    (clientId : String) {c c' : Connection AuthStore} (hc : c.Closed) {found : Bool}
    (h : engine.tx lower start finish faults (deleteClientBody clientId) c = (.ok found, c')) :
    c'.committed = deleteClient c.committed clientId ∨ ∃ base, Outside faults c.committed base ∧
      (Aborts (isTransient lower) engine.maxRetries faults 0 ∧ c'.committed = deleteClient base clientId ∨
        Aborts (isTransient lower) engine.maxRetries faults 1 ∧
          c'.committed = { base with clients := base.clients.delete (fun r => r.clientId == clientId) }) := by
  obtain ⟨_, _, hok⟩ := bracket_retried hc h
  obtain ⟨k, rest, base, hleads, hothers, happly, hend⟩ := hok found rfl
  rcases hend with ⟨rfl, rfl⟩ | ⟨habort, hpending⟩
  · left
    rw [deleteClientBody_apply] at happly
    exact (congrArg Prod.snd happly).symm
  · refine Or.inr ⟨base, hothers, ?_⟩
    obtain ⟨f, next, hrest⟩ := hpending
    cases hleads with
    | refl =>
      rw [deleteClientBody_apply] at happly
      exact Or.inl ⟨habort, (congrArg Prod.snd happly).symm⟩
    | statement _ hleads =>
      cases hleads with
      | refl => exact Or.inr ⟨habort, (congrArg Prod.snd happly).symm⟩
      | statement _ hleads =>
        cases hleads with
        | refl => cases hrest

end Transactions

section Sample

/-- What SQLAlchemy raises when another process has the database locked. -/
def databaseLocked : DbError where
  typeName := "sqlalchemy.exc.OperationalError"
  message := "(sqlite3.OperationalError) database is locked"

/-- The lower case of its texts. -/
def sampleLower (s : String) : String :=
  if s = databaseLocked.typeName then "sqlalchemy.exc.operationalerror"
  else if s = databaseLocked.message then "(sqlite3.operationalerror) database is locked"
  else s

/-- The second statement finds the database locked, once. -/
def lockedOnce (i n : Nat) : Option (Fault AuthStore DbError) :=
  if i = 1 ∧ n = 0 then some ⟨databaseLocked, none⟩ else none

/-- A client with a token. -/
def clientStore : AuthStore where
  clients := Table.empty.put ⟨"client-a", "", "", "", 0, "", ""⟩
  tokens := Table.empty.put ⟨"jti-1", "client-a", "", 0⟩
  codes := Table.empty

theorem lockedOnce_passing : Passing (isTransient sampleLower) 3 lockedOnce := by
  intro i
  by_cases hi : i = 1
  · refine ⟨1, by decide, by simp [lockedOnce], fun m hm => ⟨databaseLocked, ?_, by decide⟩⟩
    simp [lockedOnce, hi, Nat.lt_one_iff.mp hm]
  · exact ⟨0, by decide, by simp [lockedOnce, hi], fun m hm => absurd hm (Nat.not_lt_zero m)⟩

/-- The client is deleted with its token all the same. -/
theorem locked_once_deletes :
    (RetryEngine.tx {} sampleLower none none lockedOnce (deleteClientBody "client-a") (.start clientStore)).1 = .ok true ∧
    (RetryEngine.tx {} sampleLower none none lockedOnce (deleteClientBody "client-a") (.start clientStore)).2.committed =
      deleteClient clientStore "client-a" := by
  have hbody : (deleteClientBody "client-a").apply clientStore = (.ok true, deleteClient clientStore "client-a") := rfl
  exact (tx_retried {} sampleLower none none lockedOnce (deleteClientBody "client-a") (c := .start clientStore) rfl
    rfl).2.2.2 rfl rfl lockedOnce_passing true _ hbody

end Sample

end A2ARegistry.Registry
