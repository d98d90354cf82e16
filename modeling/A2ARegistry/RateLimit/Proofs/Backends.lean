import Mathlib.Data.List.Permutation
import Mathlib.Algebra.Order.Ring.Rat
import A2ARegistry.RateLimit.Buckets

namespace A2ARegistry.RateLimit
open Base

/-- One token is asked for, with a rate and a burst there can be. -/
def OneToken (c : Call) : Prop := c.tokens = 1 ∧ 1 ≤ c.rate ∧ 1 ≤ c.burst

/-- Under every key the table has what the maps have. -/
def Mirrors (m : MemoryTokenBucket) (table : Table BucketRow) : Prop :=
  ∀ key, m.buckets key = (table.find? key).map BucketRow.tokens ∧
    m.lastRefill key = (table.find? key).map BucketRow.lastRefill

namespace MySQLTokenBucket

/-- What is written to a row is found there. -/
theorem find_update (table : Table BucketRow) (key : String) (tokens now : Rat) (k : String) :
    (table.modify (fun row => row.bucketKey == key)
      (fun row => { row with tokens := tokens, lastRefill := now, updatedAt := now })).find? k =
      if k = key then (table.find? k).map (fun row => { row with tokens := tokens, lastRefill := now, updatedAt := now })
      else table.find? k := by
  rw [Table.find_modify]
  cases hrow : table.find? k with
  | none => simp
  | some row =>
    have hkey : row.bucketKey = k := Table.find_key hrow
    by_cases hk : k = key
    · simp [hkey, hk]
    · simp [hkey, hk]

/-- A write of a call leaves the rows of the other keys as they are. -/
theorem execute_other {table table' : Table BucketRow} {row : Option BucketRow} {c : Call}
    (h : execute table c.key (decideCall row c).1 = some table') {k : String} (hk : k ≠ c.key) :
    table'.find? k = table.find? k := by
  cases row with
  | none =>
    rw [Table.find_insert h, if_neg]
    exact hk
  | some row =>
    cases h
    rw [find_update, if_neg hk]

end MySQLTokenBucket

theorem truncate_intCast (n : Int) : truncate (n : Rat) = n := by
  simp [truncate]

/-- The first request: a full bucket, less a token. -/
theorem consume_first {m : MemoryTokenBucket} {table : Table BucketRow} (h : Mirrors m table) {c : Call}
    (hc : OneToken c) (hrow : table.find? c.key = none) :
    (MySQLTokenBucket.consume table c).1 = some (m.consume c).1 ∧
      Mirrors (m.step c) (MySQLTokenBucket.consume table c).2 := by
  obtain ⟨hone, _, hburst⟩ := hc
  obtain ⟨hbuckets, hlast⟩ := h c.key
  rw [hrow] at hbuckets hlast
  have hrefilled : m.refilled c = c.burst := by simp [MemoryTokenBucket.refilled, hbuckets]
  have hallowed : (1 : Rat) ≤ c.burst := by exact_mod_cast hburst
  have hleft : truncate ((c.burst : Rat) - 1) = c.burst - 1 := by
    rw [← Int.cast_one, ← Int.cast_sub, truncate_intCast]
  obtain ⟨table', hinsert⟩ := Option.isSome_iff_exists.mp
    (Table.insert_isSome (r := (⟨c.key, c.burst - 1, c.rate, c.burst, c.now, c.now⟩ : BucketRow)) |>.mpr hrow)
  constructor
  · simp only [MySQLTokenBucket.consume, hrow, MySQLTokenBucket.decideCall, MySQLTokenBucket.execute, hone,
      Int.cast_one, hinsert, MemoryTokenBucket.consume, hrefilled, hallowed, hburst, hleft]
    simp [hburst, hleft]
  · intro key
    have hfind : table'.find? key = if key = c.key then some ⟨c.key, c.burst - 1, c.rate, c.burst, c.now, c.now⟩
        else table.find? key := Table.find_insert hinsert key
    simp only [MySQLTokenBucket.consume, hrow, MySQLTokenBucket.decideCall, MySQLTokenBucket.execute, hone,
      Int.cast_one, hinsert, MemoryTokenBucket.step, MemoryTokenBucket.consume, hrefilled, hallowed]
    rw [hfind]
    by_cases hk : key = c.key
    · simp [hk]
    · rw [if_neg hk, Function.update_of_ne hk, Function.update_of_ne hk]
      exact h key

theorem consume_later {m : MemoryTokenBucket} {table : Table BucketRow} (h : Mirrors m table) {c : Call}
    (hc : OneToken c) {row : BucketRow} (hrow : table.find? c.key = some row) :
    (MySQLTokenBucket.consume table c).1 = some (m.consume c).1 ∧
      Mirrors (m.step c) (MySQLTokenBucket.consume table c).2 := by
  obtain ⟨hone, hrate, hburst⟩ := hc
  obtain ⟨hbuckets, hlast⟩ := h c.key
  rw [hrow] at hbuckets hlast
  have hrate' : 0 < c.rate := by omega
  have hburst' : 0 < c.burst := by omega
  have hrefilled : m.refilled c = min (row.tokens + (c.now - row.lastRefill) * (c.rate / 60)) c.burst := by
    simp [MemoryTokenBucket.refilled, hbuckets, hlast]
  constructor
  · simp only [MySQLTokenBucket.consume, hrow, MySQLTokenBucket.decideCall, if_pos hrate', if_pos hburst',
      MySQLTokenBucket.execute, MemoryTokenBucket.consume, hrefilled]
  · intro key
    simp only [MySQLTokenBucket.consume, hrow, MySQLTokenBucket.decideCall, if_pos hrate', if_pos hburst',
      MySQLTokenBucket.execute, MemoryTokenBucket.step, MemoryTokenBucket.consume, hrefilled,
      MySQLTokenBucket.find_update]
    by_cases hk : key = c.key
    · simp [hk, hrow]
    · simp only [if_neg hk, Function.update_of_ne hk]
      exact h key

theorem consume_mirrors {m : MemoryTokenBucket} {table : Table BucketRow} (h : Mirrors m table) {c : Call}
    (hc : OneToken c) : (MySQLTokenBucket.consume table c).1 = some (m.consume c).1 ∧
      Mirrors (m.step c) (MySQLTokenBucket.consume table c).2 := by
  cases hrow : table.find? c.key with
  | none => exact consume_first h hc hrow
  | some row => exact consume_later h hc hrow

theorem mirrors_init : Mirrors MemoryTokenBucket.init Table.empty := fun _ => ⟨rfl, rfl⟩

/-- What the calls are answered with, one after the other. -/
def memoryAnswers (calls : List Call) : List Answer := outputs MemoryTokenBucket.consume MemoryTokenBucket.init calls

def mysqlAnswers (calls : List Call) : List (Option Answer) := outputs MySQLTokenBucket.consume Table.empty calls

theorem outputs_mirror {m : MemoryTokenBucket} {table : Table BucketRow} (h : Mirrors m table) {calls : List Call}
    (hcalls : ∀ c ∈ calls, OneToken c) :
    outputs MySQLTokenBucket.consume table calls = (outputs MemoryTokenBucket.consume m calls).map some := by
  induction calls generalizing m table with
  | nil => rfl
  | cons c calls ih =>
    obtain ⟨hanswer, hmirrors⟩ := consume_mirrors h (hcalls c (List.mem_cons_self ..))
    have hrest := ih hmirrors (fun d hd => hcalls d (List.mem_cons_of_mem c hd))
    rw [outputs, outputs, hanswer, hrest]
    rfl

theorem serial_agree {calls : List Call} (hcalls : ∀ c ∈ calls, OneToken c) :
    mysqlAnswers calls = (memoryAnswers calls).map some :=
  outputs_mirror mirrors_init hcalls

namespace Threads

variable {ι : Type} [DecidableEq ι]

/-- An update finds the row that its call has read. -/
def Fresh (s : Threads ι) : Turn ι → Bool
  | .start .. => true
  | .statement i => match s.running i with
    | some ⟨call, .selected (some row)⟩ =>
      (s.locks call.key).isSome || decide (s.committed.find? call.key = some row)
    | _ => true

/-- The calls that are started ask for one token. -/
def Asks : Turn ι → Prop
  | .start _ call => OneToken call
  | .statement _ => True

def admits (answer : Option Answer) : Bool := (answer.map Answer.allowed).getD false

/-- There is an order of the calls in which `MemoryTokenBucket` admits as many of them, or more. -/
def AdmitsNoMore (s : Threads ι) : Prop :=
  ∃ order, order.Perm (s.returned.map Prod.fst) ∧
    s.returned.countP (fun r => admits r.2) ≤ (memoryAnswers order).countP Answer.allowed

/-- The calls that have committed, in that order, with their answers, and the calls that raised. -/
structure Ordered (s : Threads ι) (done : List (Call × Answer)) (failed : List Call) : Prop where
  answers : mysqlAnswers (done.map Prod.fst) = done.map (fun d => some d.2)
  table : exec (fun t c => (MySQLTokenBucket.consume t c).2) Table.empty (done.map Prod.fst) = s.committed
  returned : s.returned.Perm (done.map (fun d => (d.1, some d.2)) ++ failed.map (fun c => (c, none)))
  written : ∀ i r write answer, s.running i = some r → r.phase = .written write answer →
    s.locks r.call.key = some i ∧ MySQLTokenBucket.decideCall (s.committed.find? r.call.key) r.call = (write, answer)
  asks : (∀ i r, s.running i = some r → OneToken r.call) ∧ ∀ r ∈ s.returned, OneToken r.1

omit [DecidableEq ι] in
theorem Ordered.admitsNoMore {s : Threads ι} {done : List (Call × Answer)} {failed : List Call}
    (h : Ordered s done failed) : s.AdmitsNoMore := by
  have hfst : (s.returned.map Prod.fst).Perm (done.map Prod.fst ++ failed) := by
    have hmap := h.returned.map Prod.fst
    simpa [Function.comp_def] using hmap
  have hasks : ∀ c ∈ done.map Prod.fst, OneToken c := by
    intro c hc
    obtain ⟨r, hr, rfl⟩ := List.mem_map.mp (hfst.mem_iff.mpr (List.mem_append_left _ hc))
    exact h.asks.2 r hr
  refine ⟨done.map Prod.fst ++ failed, hfst.symm, ?_⟩
  have hdone : memoryAnswers (done.map Prod.fst) = done.map Prod.snd := by
    have hserial := serial_agree hasks
    rw [h.answers] at hserial
    have hsome : (done.map Prod.snd).map some = done.map (fun d => some d.2) := by simp [Function.comp_def]
    exact (List.map_injective_iff.mpr (Option.some_injective _) (hsome.trans hserial)).symm
  have hcount : s.returned.countP (fun r => admits r.2) = done.countP (fun d => d.2.allowed) := by
    rw [h.returned.countP_eq, List.countP_append, List.countP_map, List.countP_map]
    simp [Function.comp_def, admits]
  rw [hcount, memoryAnswers, outputs_append, List.countP_append, ← memoryAnswers, hdone, List.countP_map]
  exact Nat.le_add_right ..

variable {s : Threads ι} {done : List (Call × Answer)} {failed : List Call} {i : ι} {call : Call}

theorem running_update {running : ι → Option Running} {i j : ι} {x : Option Running} {r : Running}
    (h : Function.update running i x j = some r) : (j = i ∧ x = some r) ∨ (j ≠ i ∧ running j = some r) := by
  by_cases hj : j = i
  · subst hj
    rw [Function.update_self] at h
    exact Or.inl ⟨rfl, h⟩
  · rw [Function.update_of_ne hj] at h
    exact Or.inr ⟨hj, h⟩

/-- A call goes on to a phase in which it has not written. -/
theorem Ordered.puts (h : Ordered s done failed) (hcall : OneToken call) {phase : Phase}
    (hphase : ∀ write answer, phase ≠ .written write answer) : Ordered (s.put i call phase) done failed := by
  refine ⟨h.answers, h.table, h.returned, ?_, ?_, h.asks.2⟩
  · intro j r write answer hr hw
    rcases running_update hr with ⟨_, he⟩ | ⟨_, hr⟩
    · cases he
      exact absurd hw (hphase write answer)
    · exact h.written j r write answer hr hw
  · intro j r hr
    rcases running_update hr with ⟨_, he⟩ | ⟨_, hr⟩
    · cases he
      exact hcall
    · exact h.asks.1 j r hr

/-- A call whose insert is refused raises. -/
theorem Ordered.fails (h : Ordered s done failed) (hcall : OneToken call) :
    Ordered (s.finish i call none) done (failed ++ [call]) := by
  refine ⟨h.answers, h.table, ?_, ?_, ?_, ?_⟩
  · rw [List.map_append, ← List.append_assoc]
    exact h.returned.append_right _
  · intro j r write answer hr hw
    rcases running_update hr with ⟨_, he⟩ | ⟨_, hr⟩
    · cases he
    · exact h.written j r write answer hr hw
  · intro j r hr
    rcases running_update hr with ⟨_, he⟩ | ⟨_, hr⟩
    · cases he
    · exact h.asks.1 j r hr
  · intro r hr
    rcases List.mem_append.mp hr with hr | hr
    · exact h.asks.2 r hr
    · rw [List.mem_singleton.mp hr]
      exact hcall

/-- A call writes its row, which was free, as it would if it read it now. -/
theorem Ordered.writes (h : Ordered s done failed) (hcall : OneToken call) (hfree : s.locks call.key = none)
    {write : Write} {answer : Answer}
    (hdecide : MySQLTokenBucket.decideCall (s.committed.find? call.key) call = (write, answer)) :
    Ordered ({ s with locks := Function.update s.locks call.key (some i) }.put i call (.written write answer))
      done failed := by
  refine ⟨h.answers, h.table, h.returned, ?_, ?_, h.asks.2⟩
  · intro j r write' answer' hr hw
    change Function.update s.locks call.key (some i) r.call.key = some j ∧ _
    rcases running_update hr with ⟨rfl, he⟩ | ⟨_, hr⟩
    · cases he
      cases hw
      exact ⟨Function.update_self .., hdecide⟩
    · obtain ⟨hlock, hold⟩ := h.written j r write' answer' hr hw
      have hkey : r.call.key ≠ call.key := by
        intro he
        rw [he, hfree] at hlock
        cases hlock
      rw [Function.update_of_ne hkey]
      exact ⟨hlock, hold⟩
  · intro j r hr
    rcases running_update hr with ⟨_, he⟩ | ⟨_, hr⟩
    · cases he
      exact hcall
    · exact h.asks.1 j r hr

/-- A call commits: it comes behind those that committed before. -/
theorem Ordered.commits (h : Ordered s done failed) {write : Write} {answer : Answer}
    (hrunning : s.running i = some ⟨call, .written write answer⟩) {table : Table BucketRow}
    (hexecute : MySQLTokenBucket.execute s.committed call.key write = some table) :
    Ordered ({ s with committed := table, locks := Function.update s.locks call.key none }.finish i call (some answer))
      (done ++ [(call, answer)]) failed := by
  obtain ⟨hlock, hdecide⟩ := h.written i _ write answer hrunning rfl
  have hcall : OneToken call := h.asks.1 i _ hrunning
  have hconsume : MySQLTokenBucket.consume s.committed call = (some answer, table) := by
    simp only [MySQLTokenBucket.consume, hdecide, hexecute]
  refine ⟨?_, ?_, ?_, ?_, ?_, ?_⟩
  · rw [List.map_append, List.map_append, mysqlAnswers, outputs_append, ← mysqlAnswers, h.answers, h.table]
    simp [outputs, hconsume]
  · rw [List.map_append, exec_append, h.table]
    simp [hconsume, finish]
  · rw [List.map_append, List.append_assoc]
    refine (h.returned.append_right _).trans ?_
    rw [List.append_assoc]
    exact List.Perm.append_left _ List.perm_append_comm
  · intro j r write' answer' hr hw
    change Function.update s.locks call.key none r.call.key = some j ∧
      MySQLTokenBucket.decideCall (table.find? r.call.key) r.call = (write', answer')
    rcases running_update hr with ⟨_, he⟩ | ⟨hj, hr⟩
    · cases he
    · obtain ⟨hlock', hold⟩ := h.written j r write' answer' hr hw
      have hkey : r.call.key ≠ call.key := by
        intro he
        rw [he, hlock] at hlock'
        exact hj (Option.some.inj hlock').symm
      have hwrite : (MySQLTokenBucket.decideCall (s.committed.find? call.key) call).1 = write := by rw [hdecide]
      rw [Function.update_of_ne hkey, MySQLTokenBucket.execute_other (hwrite ▸ hexecute) hkey]
      exact ⟨hlock', hold⟩
  · intro j r hr
    rcases running_update hr with ⟨_, he⟩ | ⟨_, hr⟩
    · cases he
    · exact h.asks.1 j r hr
  · intro r hr
    rcases List.mem_append.mp hr with hr | hr
    · exact h.asks.2 r hr
    · rw [List.mem_singleton.mp hr]
      exact hcall

omit [DecidableEq ι] in
/-- What a fresh call has read decides as the row there is now, or its insert is refused. -/
theorem fresh_decides {row : Option BucketRow} (hfresh : Fresh s (.statement i) = true)
    (hrunning : s.running i = some ⟨call, .selected row⟩) (hfree : s.locks call.key = none) {table : Table BucketRow}
    (hexecute : MySQLTokenBucket.execute s.committed call.key (MySQLTokenBucket.decideCall row call).1 = some table) :
    s.committed.find? call.key = row := by
  cases row with
  | none => exact (Table.insert_some hexecute).1
  | some row => simpa [Fresh, hrunning, hfree] using hfresh

/-- The step lemma. -/
theorem ordered_step (h : Ordered s done failed) (turn : Turn ι) (hasks : Asks turn) (hfresh : Fresh s turn = true) :
    ∃ done' failed', Ordered (step s turn) done' failed' := by
  cases turn with
  | start i call =>
    cases hrunning : s.running i with
    | some r =>
      simp only [step, hrunning]
      exact ⟨done, failed, h⟩
    | none =>
      simp only [step, hrunning]
      exact ⟨done, failed, h.puts hasks (by simp)⟩
  | statement i =>
    cases hrunning : s.running i with
    | none =>
      simp only [step, hrunning]
      exact ⟨done, failed, h⟩
    | some r =>
      obtain ⟨call, phase⟩ := r
      have hcall : OneToken call := h.asks.1 i _ hrunning
      simp only [step, hrunning, execute]
      cases phase with
      | started => exact ⟨done, failed, h.puts hcall (by simp)⟩
      | selected row =>
        cases hlock : s.locks call.key with
        | some j => exact ⟨done, failed, by simpa using h⟩
        | none =>
          cases hexecute : MySQLTokenBucket.execute s.committed call.key (MySQLTokenBucket.decideCall row call).1 with
          | none => exact ⟨done, failed ++ [call], by simpa [hexecute] using h.fails hcall⟩
          | some table =>
            have hrow := fresh_decides hfresh hrunning hlock hexecute
            have hdecide : MySQLTokenBucket.decideCall (s.committed.find? call.key) call =
                ((MySQLTokenBucket.decideCall row call).1, (MySQLTokenBucket.decideCall row call).2) := by rw [hrow]
            exact ⟨done, failed, by simpa [hexecute] using h.writes hcall hlock hdecide⟩
      | written write answer =>
        cases hexecute : MySQLTokenBucket.execute s.committed call.key write with
        | none => exact ⟨done, failed ++ [call], by simpa [hexecute] using h.fails hcall⟩
        | some table =>
          exact ⟨done ++ [(call, answer)], failed, by simpa [hexecute] using h.commits hrunning hexecute⟩

omit [DecidableEq ι] in
theorem ordered_begin : Ordered (begin : Threads ι) [] [] :=
  ⟨rfl, rfl, List.Perm.refl _, fun _ _ _ _ h => (nomatch h), fun _ _ h => (nomatch h), fun _ h => (nomatch h)⟩

/-- Threads whose updates all find the row they have read admit no more than some serial order. -/
theorem admitsNoMore_of_fresh {turns : List (Turn ι)} (hasks : ∀ turn ∈ turns, Asks turn)
    (hfresh : EachStep step (fun s turn => Fresh s turn = true) begin turns) : (exec step (begin : Threads ι) turns).AdmitsNoMore := by
  have hstep : ∀ s, ∀ turn ∈ turns, (∃ done failed, Ordered s done failed) → Fresh s turn = true →
      ∃ done failed, Ordered (step s turn) done failed :=
    fun s turn hturn ⟨_, _, h⟩ hturnFresh => ordered_step h turn (hasks turn hturn) hturnFresh
  have hbegin : ∃ done failed, Ordered (begin : Threads ι) done failed := ⟨[], [], ordered_begin⟩
  obtain ⟨done, failed, h⟩ := hfresh.invariant_of_mem hstep hbegin
  exact h.admitsNoMore

/-- One after the other the calls are answered by the table as they are in memory. In threads, if every update finds
the row its call has read, no more of them are admitted than in memory in some order. -/
theorem backends_agree (ι : Type) [DecidableEq ι] :
    (∀ calls : List Call, (∀ c ∈ calls, OneToken c) → mysqlAnswers calls = (memoryAnswers calls).map some) ∧
      ∀ turns : List (Turn ι), (∀ turn ∈ turns, Asks turn) →
        EachStep step (fun s turn => Fresh s turn = true) begin turns → (exec step begin turns).AdmitsNoMore :=
  ⟨fun _ hcalls => serial_agree hcalls, fun _ hasks hfresh => admitsNoMore_of_fresh hasks hfresh⟩

section Samples

/-- A request on a bucket of one token, which takes a minute to come back. -/
def sampleCall (now : Rat) : Call := ⟨"ip:10.0.0.1", 1, 1, 1, now⟩

/-- The first request; a minute later two more, which both read the row before either of them writes it. -/
def racing : List (Turn Nat) :=
  [.start 0 (sampleCall 0), .statement 0, .statement 0, .statement 0,
    .start 1 (sampleCall 60), .start 2 (sampleCall 60), .statement 1, .statement 2,
    .statement 1, .statement 1, .statement 2, .statement 2]

/-- All three are admitted, and in memory only two of them are, whatever the order. -/
theorem decrement_lost : (∀ turn ∈ racing, Asks turn) ∧ ¬ (exec step begin racing).AdmitsNoMore := by
  have hasks : ∀ turn ∈ racing, Asks turn := by
    simp [racing, Asks, OneToken, sampleCall]
  refine ⟨hasks, ?_⟩
  rintro ⟨order, hperm, hle⟩
  have hreturned : (exec step begin racing).returned.map Prod.fst = [sampleCall 0, sampleCall 60, sampleCall 60] := by
    decide +kernel
  have hthree : (exec step begin racing).returned.countP (fun r => admits r.2) = 3 := by decide +kernel
  have htwo : ∀ order ∈ [sampleCall 0, sampleCall 60, sampleCall 60].permutations',
      (memoryAnswers order).countP Answer.allowed ≤ 2 := by
    decide +kernel
  rw [hreturned] at hperm
  have hbound := htwo order (List.mem_permutations'.mpr hperm)
  omega

/-- The second reads behind the commit of the first. -/
def queued : List (Turn Nat) :=
  [.start 1 (sampleCall 0), .start 2 (sampleCall 60), .statement 1, .statement 1, .statement 1, .statement 2,
    .statement 2, .statement 2]

theorem queued_agree : mysqlAnswers [sampleCall 0, sampleCall 60] =
      (memoryAnswers [sampleCall 0, sampleCall 60]).map some ∧ (exec step begin queued).AdmitsNoMore := by
  obtain ⟨hserial, hturns⟩ := backends_agree Nat
  constructor
  · apply hserial
    simp [OneToken, sampleCall]
  · apply hturns
    · simp [queued, Asks, OneToken, sampleCall]
    · decide +kernel

end Samples

end Threads

end A2ARegistry.RateLimit
