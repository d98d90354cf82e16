import A2ARegistry.Server.Connections
import A2ARegistry.Server.Proofs.Terminal

namespace A2ARegistry.Server
open Base Orchestration

/-- The connection of a tear-down that is not the registered one: it was not when its loop ended, or
another one is by now. -/
def HubEvent.superseded (h : Hub) : HubEvent → Prop
  | .finishes c _ => ∃ conn, h.connections c = some conn ∧ conn.phase = .serving ∧
      h.registered conn.agentId ≠ some c
  | .leaves c _ => ∃ conn wasRegistered, h.connections c = some conn ∧ conn.phase = .leaving wasRegistered ∧
      (wasRegistered = false ∨ h.registered conn.agentId ≠ none)
  | _ => False

/-- A tear-down of such a connection leaves the tasks of the agent, their timers and the kanban board
alone, and removes no other connection. -/
def LeavesAlone (e : Engine) (h : Hub) (ev : HubEvent) : Prop :=
  ev.superseded h → (ev.step e h).toRegistryHandler = h.toRegistryHandler ∧
    (ev.step e h).registered = h.registered

/-- The agent whose tasks a tear-down takes for orphaned. -/
def HubEvent.dangles (h : Hub) : HubEvent → Option String
  | .finishes c _ => (h.connections c).bind fun conn =>
      if conn.phase = .serving ∧ conn.closed.isSome then some conn.agentId else none
  | .leaves c _ => (h.connections c).bind fun conn =>
      match conn.phase with
      | .leaving _ => some conn.agentId
      | _ => none
  | _ => none

/-- When the handler of such a connection ends, its agent has no active task. -/
def Calm (h : Hub) (ev : HubEvent) : Prop :=
  ev.superseded h → ∀ agentId, ev.dangles h = some agentId →
    ∀ k t, h.record? k = some t → t.active agentId = false

/-- Every connect of the agent has registered. -/
def Settled (h : Hub) (agentId : String) : Prop :=
  ∀ c conn, h.connections c = some conn → conn.agentId = agentId → conn.phase.waits = false

/-- Once every connect has registered, an open connection is the registered one; and there is one,
unless a connection was ended by its own side. -/
def SoleConnection (h : Hub) : Prop :=
  ∀ agentId, Settled h agentId →
    (∀ c conn, h.connections c = some conn → conn.agentId = agentId → conn.closed = none →
      h.registered agentId = some c) ∧
    ((∃ c conn, h.connections c = some conn ∧ conn.agentId = agentId) →
      (∃ c, h.registered agentId = some c ∧ h.isOpen c = true) ∨
      ∃ c conn, h.connections c = some conn ∧ conn.agentId = agentId ∧ conn.closed = some .own)

/-- A connection registers when no open one is registered; and if the old connection could not be
told, it is closed anyway. -/
def Orderly (h : Hub) : HubEvent → Prop
  | .greeted c false => ∀ conn old, h.connections c = some conn → conn.phase = .greeting old →
      h.isOpen old = false ∧ ∀ r, h.registered conn.agentId = some r → h.isOpen r = false
  | .closedOld c => ∀ conn old, h.connections c = some conn → conn.phase = .closing old →
      ∀ r, h.registered conn.agentId = some r → h.isOpen r = false
  | _ => True

/-- What holds of the connections throughout such runs. -/
structure Wired (h : Hub) : Prop where
  fresh : ∀ c conn, h.connections c = some conn → c < h.next
  registered : ∀ a c, h.registered a = some c → ∃ conn, h.connections c = some conn ∧ conn.agentId = a ∧
    conn.phase = .serving ∧ conn.closed ≠ some .replacement
  waiting : ∀ c conn, h.connections c = some conn → conn.phase.waits = true → conn.closed = none
  left : ∀ c conn, h.connections c = some conn → conn.closed = none → conn.phase.waits = false →
    conn.phase = .serving
  greeting : ∀ c conn old, h.connections c = some conn → conn.phase = .greeting old →
    ∃ oldConn, h.connections old = some oldConn ∧ oldConn.phase.waits = false ∧
      oldConn.agentId = conn.agentId ∧ h.registered conn.agentId ≠ some old
  served : ∀ c conn, h.connections c = some conn → conn.closed = none → conn.phase = .serving →
    h.registered conn.agentId = some c ∨ ∃ n newer, h.connections n = some newer ∧
      newer.agentId = conn.agentId ∧ newer.phase = .greeting c
  kept : ∀ c conn, h.connections c = some conn →
    (∃ r rconn, h.registered conn.agentId = some r ∧ h.connections r = some rconn ∧ rconn.closed = none) ∨
    (∃ n newer, h.connections n = some newer ∧ newer.agentId = conn.agentId ∧ newer.phase.waits = true) ∨
    ∃ c' conn', h.connections c' = some conn' ∧ conn'.agentId = conn.agentId ∧ conn'.closed = some .own

section
variable {h : Hub} {c : Nat} {conn : Connection}

theorem isOpen_iff : h.isOpen c = true ↔ ∃ conn, h.connections c = some conn ∧ conn.closed = none := by
  simp only [Hub.isOpen, Option.any_eq_true, Option.isNone_iff_eq_none]

theorem isOpen_false_iff : h.isOpen c = false ↔
    ∀ conn, h.connections c = some conn → conn.closed ≠ none := by
  rw [← Bool.not_eq_true, isOpen_iff]
  simp

variable (h c conn)

theorem connections_set (k : Nat) :
    (h.set c conn).connections k = if k = c then some conn else h.connections k := by
  simp only [Hub.set, Function.update_apply]

theorem connections_register (k : Nat) : (h.register c conn).connections k =
    if k = c then some { conn with phase := .serving } else h.connections k :=
  connections_set h c _ k

theorem registered_register (a : String) : (h.register c conn).registered a =
    if a = conn.agentId then some c else h.registered a := by
  simp only [Hub.register, Function.update_apply]

variable {h c conn}

theorem Wired.sole (hw : Wired h) : SoleConnection h := by
  intro a hs
  constructor
  · intro c conn hc ha hopen
    have hserving := hw.left c conn hc hopen (hs c conn hc ha)
    rcases hw.served c conn hc hopen hserving with hr | ⟨n, newer, hn, hna, hp⟩
    · rw [ha] at hr
      exact hr
    · have hwait := hs n newer hn (hna.trans ha)
      rw [hp] at hwait
      cases hwait
  · rintro ⟨c, conn, hc, rfl⟩
    rcases hw.kept c conn hc with ⟨r, rconn, hr, hrc, hopen⟩ | ⟨n, newer, hn, hna, hwait⟩ | hown
    · exact Or.inl ⟨r, hr, isOpen_iff.mpr ⟨rconn, hrc, hopen⟩⟩
    · rw [hs n newer hn hna] at hwait
      cases hwait
    · exact Or.inr hown

theorem waits_ne {k : Nat} {kconn : Connection} (hc : h.connections c = some conn)
    (hk : h.connections k = some kconn) (hwaits : kconn.phase.waits ≠ conn.phase.waits) : k ≠ c := by
  rintro rfl
  rw [hc] at hk
  cases hk
  exact hwaits rfl

section Replaced

variable {h' : Hub} {conn' : Connection}
  (hconns : ∀ k, h'.connections k = if k = c then some conn' else h.connections k)

include hconns

theorem replaced_self : h'.connections c = some conn' := by rw [hconns, if_pos rfl]

theorem replaced_other {k : Nat} {kconn : Connection} (hk : h.connections k = some kconn) (hne : k ≠ c) :
    h'.connections k = some kconn := by
  rw [hconns, if_neg hne, hk]

/-- What holds of every connection and of the one that is put in still holds of every one. -/
theorem replaced_all {P : Connection → Prop} (hall : ∀ k kconn, h.connections k = some kconn → P kconn)
    (hput : P conn') (k : Nat) (kconn : Connection) (hk : h'.connections k = some kconn) : P kconn := by
  rw [hconns] at hk
  split at hk
  · cases hk
    exact hput
  · exact hall k kconn hk

/-- Whatever connection is there was there before, with its agent. -/
theorem replaced_agent (hc : h.connections c = some conn) (hagent : conn'.agentId = conn.agentId) {k : Nat}
    {kconn : Connection} (hk : h'.connections k = some kconn) :
    ∃ kconn', h.connections k = some kconn' ∧ kconn'.agentId = kconn.agentId := by
  rw [hconns] at hk
  split at hk
  · rename_i he
    subst he
    cases hk
    exact ⟨conn, hc, hagent.symm⟩
  · exact ⟨kconn, hk, rfl⟩

theorem Wired.replaced_fresh (hw : Wired h) (hc : h.connections c = some conn) (hagent : conn'.agentId = conn.agentId)
    (hnext : h'.next = h.next) (k : Nat) (kconn : Connection) (hk : h'.connections k = some kconn) : k < h'.next := by
  obtain ⟨kconn', hk', _⟩ := replaced_agent hconns hc hagent hk
  rw [hnext]
  exact hw.fresh k kconn' hk'

end Replaced

/-- A connection is served and is the registered one of its agent, where no open one was. -/
theorem Wired.registers {h' : Hub} {conn' : Connection} (hw : Wired h)
    (hconns : ∀ k, h'.connections k = if k = c then some conn' else h.connections k)
    (hregs : ∀ a, h'.registered a = if a = conn'.agentId then some c else h.registered a)
    (hnext : h.next ≤ h'.next) (hlt : c < h'.next) (hserving : conn'.phase = .serving) (hopen : conn'.closed = none)
    (hwas : ∀ conn, h.connections c = some conn → conn.agentId = conn'.agentId ∧ conn.phase.waits = true ∧
      ∀ old, conn.phase = .greeting old → h.isOpen old = false)
    (hold : ∀ r, h.registered conn'.agentId = some r → h.isOpen r = false) : Wired h' := by
  have hself := replaced_self hconns
  have hreg : h'.registered conn'.agentId = some c := by rw [hregs, if_pos rfl]
  have hserves : ∀ {k kconn}, h.connections k = some kconn → kconn.phase.waits = false → k ≠ c := by
    intro k kconn hk hserved he
    subst he
    exact absurd (hserved.symm.trans (hwas kconn hk).2.1) Bool.false_ne_true
  constructor
  case fresh =>
    intro k kconn hk
    rw [hconns] at hk
    split at hk
    · rename_i he
      rw [he]
      exact hlt
    · exact Nat.lt_of_lt_of_le (hw.fresh k kconn hk) hnext
  case registered =>
    intro a r hr
    rw [hregs] at hr
    split at hr
    · rename_i ha
      cases hr
      exact ⟨conn', hself, ha.symm, hserving, by simp [hopen]⟩
    · obtain ⟨rconn, hrc, ha, hs, hcl⟩ := hw.registered a r hr
      exact ⟨rconn, replaced_other hconns hrc (hserves hrc (by rw [hs]; rfl)), ha, hs, hcl⟩
  case waiting => exact replaced_all hconns hw.waiting fun _ => hopen
  case left => exact replaced_all hconns hw.left fun _ _ => hserving
  case greeting =>
    intro k kconn old hk hp
    rw [hconns] at hk
    split at hk
    · cases hk
      rw [hserving] at hp
      cases hp
    · obtain ⟨oldConn, ho, how, hoa, hor⟩ := hw.greeting k kconn old hk hp
      have hne := hserves ho how
      refine ⟨oldConn, replaced_other hconns ho hne, how, hoa, ?_⟩
      rw [hregs]
      split
      · intro he
        exact hne (Option.some.inj he).symm
      · exact hor
  case served =>
    intro k kconn hk hclosed hp
    rw [hconns] at hk
    split at hk
    · rename_i he
      cases hk
      exact Or.inl (he ▸ hreg)
    · rcases hw.served k kconn hk hclosed hp with hr | ⟨n, newer, hn, hna, hg⟩
      · -- the one that was registered for the agent is closed
        by_cases ha : kconn.agentId = conn'.agentId
        · rw [ha] at hr
          exact absurd hclosed (isOpen_false_iff.mp (hold k hr) kconn hk)
        · exact Or.inl (by rw [hregs, if_neg ha, hr])
      · -- and so is the one that was to be told
        by_cases he : n = c
        · subst he
          exact absurd hclosed (isOpen_false_iff.mp ((hwas newer hn).2.2 k hg) kconn hk)
        · exact Or.inr ⟨n, newer, replaced_other hconns hn he, hna, hg⟩
  case kept =>
    intro k kconn hk
    by_cases ha : kconn.agentId = conn'.agentId
    · exact Or.inl ⟨c, conn', by rw [ha, hreg], hself, hopen⟩
    · have hother : ∀ {n newer}, h.connections n = some newer → newer.agentId = kconn.agentId → n ≠ c := by
        intro n newer hn hna he
        subst he
        exact ha (hna.symm.trans (hwas newer hn).1)
      rw [hconns] at hk
      split at hk
      · cases hk
        exact absurd rfl ha
      · rcases hw.kept k kconn hk with ⟨r, rconn, hr, hrc, hrcl⟩ | ⟨n, newer, hn, hna, hwait⟩ |
          ⟨c', closed, hc', hca, hcl⟩
        · obtain ⟨rconn', hrc', hra, _⟩ := hw.registered _ r hr
          exact Or.inl ⟨r, rconn, by rw [hregs, if_neg ha, hr], replaced_other hconns hrc (hother hrc' hra), hrcl⟩
        · exact Or.inr (Or.inl ⟨n, newer, replaced_other hconns hn (hother hn hna), hna, hwait⟩)
        · exact Or.inr (Or.inr ⟨c', closed, replaced_other hconns hc' (hother hc' hca), hca, hcl⟩)

/-- A connection registers. -/
theorem Wired.register (hw : Wired h) (hc : h.connections c = some conn) (hwait : conn.phase.waits = true)
    (hold : ∀ r, h.registered conn.agentId = some r → h.isOpen r = false)
    (hgreet : ∀ old, conn.phase = .greeting old → h.isOpen old = false) : Wired (h.register c conn) := by
  refine hw.registers (connections_register h c conn) (registered_register h c conn) (Nat.le_refl _)
    (hw.fresh c conn hc) rfl (hw.waiting c conn hc hwait) (fun conn' hc' => ?_) hold
  rw [hc] at hc'
  cases hc'
  exact ⟨rfl, hwait, hgreet⟩

theorem Wired.unused (hw : Wired h) : h.connections h.next = none := by
  cases hn : h.connections h.next with
  | none => rfl
  | some conn => exact absurd (hw.fresh _ _ hn) (Nat.lt_irrefl _)

/-- A new connection registers at once, when no open one is. -/
theorem Wired.opens {h' : Hub} (hw : Wired h) {agentId : String}
    (hold : ∀ r, h.registered agentId = some r → h.isOpen r = false) (hnext : h'.next = h.next + 1)
    (hconns : ∀ k, h'.connections k =
      if k = h.next then some ⟨agentId, .serving, none⟩ else h.connections k)
    (hregs : ∀ a, h'.registered a = if a = agentId then some h.next else h.registered a) : Wired h' := by
  refine hw.registers hconns hregs (by omega) (by omega) rfl rfl (fun conn hc => ?_) hold
  rw [hw.unused] at hc
  cases hc

/-- A new connection takes the old one out of the map, and tells it. -/
theorem Wired.greets {h' : Hub} (hw : Wired h) {agentId : String} {old : Nat}
    (hold : h.registered agentId = some old) (hnext : h'.next = h.next + 1)
    (hconns : ∀ k, h'.connections k =
      if k = h.next then some ⟨agentId, .greeting old, none⟩ else h.connections k)
    (hregs : ∀ a, h'.registered a = if a = agentId then none else h.registered a) : Wired h' := by
  have hself := replaced_self hconns
  have hstays : ∀ {k conn}, h.connections k = some conn → h'.connections k = some conn := by
    intro k conn hk
    refine replaced_other hconns hk fun he => ?_
    rw [he, hw.unused] at hk
    cases hk
  constructor
  case fresh =>
    intro k kconn hk
    rw [hconns] at hk
    split at hk
    · omega
    · have hlt := hw.fresh k kconn hk
      omega
  case registered =>
    intro a r hr
    rw [hregs] at hr
    split at hr
    · cases hr
    · obtain ⟨rconn, hrc, hrest⟩ := hw.registered a r hr
      exact ⟨rconn, hstays hrc, hrest⟩
  case waiting => exact replaced_all hconns hw.waiting fun _ => rfl
  case left =>
    refine replaced_all hconns hw.left fun _ hserved => ?_
    cases hserved
  case greeting =>
    intro c conn k hc hp
    rw [hconns] at hc
    split at hc
    · cases hc
      cases hp
      obtain ⟨rconn, hrc, ha, hs, _⟩ := hw.registered agentId old hold
      exact ⟨rconn, hstays hrc, by rw [hs]; rfl, ha, by simp [hregs]⟩
    · obtain ⟨kconn, hk, hserved, ha, hr⟩ := hw.greeting c conn k hc hp
      refine ⟨kconn, hstays hk, hserved, ha, ?_⟩
      rw [hregs]
      split
      · intro he
        cases he
      · exact hr
  case served =>
    intro k kconn hk hclosed hp
    rw [hconns] at hk
    split at hk
    · cases hk
      cases hp
    · rcases hw.served k kconn hk hclosed hp with hr | ⟨n, newer, hn, hna, hg⟩
      · by_cases ha : kconn.agentId = agentId
        · rw [ha, hold] at hr
          cases hr
          exact Or.inr ⟨h.next, _, hself, ha.symm, rfl⟩
        · exact Or.inl (by rw [hregs, if_neg ha, hr])
      · exact Or.inr ⟨n, newer, hstays hn, hna, hg⟩
  case kept =>
    intro k kconn hk
    by_cases ha : kconn.agentId = agentId
    · exact Or.inr (Or.inl ⟨h.next, _, hself, ha.symm, rfl⟩)
    · rw [hconns] at hk
      split at hk
      · cases hk
        exact absurd rfl ha
      · rcases hw.kept k kconn hk with ⟨r, rconn, hr, hrc, hopen⟩ | ⟨n, newer, hn, hna, hwait⟩ |
          ⟨c', closed, hc', hca, hcl⟩
        · exact Or.inl ⟨r, rconn, by rw [hregs, if_neg ha, hr], hstays hrc, hopen⟩
        · exact Or.inr (Or.inl ⟨n, newer, hstays hn, hna, hwait⟩)
        · exact Or.inr (Or.inr ⟨c', closed, hstays hc', hca, hcl⟩)

theorem Wired.connect (hw : Wired h) (agentId : String) : Wired (h.connect agentId) := by
  have hregs : ∀ (popped : Hub) (a : String),
      popped.registered = Function.update h.registered agentId none →
      (popped.register h.next ⟨agentId, .serving, none⟩).registered a =
        if a = agentId then some h.next else h.registered a := by
    intro popped a hp
    rw [registered_register, hp, Function.update_apply]
    split <;> rfl
  unfold Hub.connect
  cases hr : h.registered agentId with
  | none =>
    refine hw.opens (fun r h' => ?_) rfl (connections_register _ _ _ ·) (hregs _ · rfl)
    rw [hr] at h'
    cases h'
  | some old =>
    dsimp only
    cases ho : h.isOpen old with
    | true => exact hw.greets hr rfl (connections_set _ _ _ ·) (Function.update_apply h.registered agentId none ·)
    | false =>
      refine hw.opens (fun r h' => ?_) rfl (connections_register _ _ _ ·) (hregs _ · rfl)
      rw [hr] at h'
      cases h'
      exact ho

/-- A connection that does not wait is closed, and may be taken out of the map. Its own side closes it
while it is registered; a newer connection, after it was taken out. -/
theorem Wired.shut {h' : Hub} {conn' : Connection} (hw : Wired h) (hc : h.connections c = some conn)
    (hserved : conn.phase.waits = false) (hnext : h'.next = h.next)
    (hconns : ∀ k, h'.connections k = if k = c then some conn' else h.connections k)
    (hregs : ∀ a, h'.registered a = h.registered a ∨ h.registered a = some c ∧ h'.registered a = none)
    (hagent : conn'.agentId = conn.agentId) (hphase : conn'.phase.waits = false)
    (hclosed : conn'.closed ≠ none)
    (hreg : ∀ a, h.registered a = some c → conn'.closed = some .own ∧
      (h'.registered a = some c → conn'.phase = .serving))
    (hown : conn.closed = some .own → conn'.closed = some .own) : Wired h' := by
  have hself := replaced_self hconns
  have hserves : ∀ {n newer}, h.connections n = some newer → newer.phase.waits = true → n ≠ c := by
    intro n newer hn hwait
    exact waits_ne hc hn (by simp [hwait, hserved])
  have hwas : ∀ {a r}, h'.registered a = some r → h.registered a = some r := by
    intro a r hr
    rcases hregs a with he | ⟨_, he⟩
    · exact he.symm.trans hr
    · rw [he] at hr
      cases hr
  have hstays : ∀ {a r}, h.registered a = some r → r ≠ c → h'.registered a = some r := by
    intro a r hr hne
    rcases hregs a with he | ⟨he, _⟩
    · exact he.trans hr
    · rw [he] at hr
      cases hr
      exact absurd rfl hne
  constructor
  case fresh => exact hw.replaced_fresh hconns hc hagent hnext
  case registered =>
    intro a r hr
    obtain ⟨rconn, hrc, rfl, hp, hcl⟩ := hw.registered a r (hwas hr)
    by_cases he : r = c
    · subst he
      rw [hc] at hrc
      cases hrc
      obtain ⟨hcl', hp'⟩ := hreg _ (hwas hr)
      exact ⟨conn', hself, hagent, hp' hr, by simp [hcl']⟩
    · exact ⟨rconn, replaced_other hconns hrc he, rfl, hp, hcl⟩
  case waiting =>
    refine replaced_all hconns hw.waiting fun hwait => ?_
    exact absurd (hphase.symm.trans hwait) Bool.false_ne_true
  case left => exact replaced_all hconns hw.left fun hopen => absurd hopen hclosed
  case greeting =>
    intro k kconn old hk hp
    rw [hconns] at hk
    split at hk
    · cases hk
      rw [hp] at hphase
      cases hphase
    · obtain ⟨oldConn, ho, how, hoa, hor⟩ := hw.greeting k kconn old hk hp
      have hor' : h'.registered kconn.agentId ≠ some old := fun hr => hor (hwas hr)
      by_cases he : old = c
      · subst he
        rw [hc] at ho
        cases ho
        exact ⟨conn', hself, hphase, hagent.trans hoa, hor'⟩
      · exact ⟨oldConn, replaced_other hconns ho he, how, hoa, hor'⟩
  case served =>
    intro k kconn hk hopen hp
    rw [hconns] at hk
    split at hk
    · cases hk
      exact absurd hopen hclosed
    · rename_i hne
      rcases hw.served k kconn hk hopen hp with hr | ⟨n, newer, hn, hna, hg⟩
      · exact Or.inl (hstays hr hne)
      · have hn' := hserves hn (by rw [hg]; rfl)
        exact Or.inr ⟨n, newer, replaced_other hconns hn hn', hna, hg⟩
  case kept =>
    intro k kconn hk
    obtain ⟨kconn', hk', ha⟩ := replaced_agent hconns hc hagent hk
    rw [← ha]
    rcases hw.kept k kconn' hk' with ⟨r, rconn, hr, hrc, hopen⟩ | ⟨n, newer, hn, hna, hwait⟩ |
      ⟨c', closed, hc', hca, hcl⟩
    · by_cases he : r = c
      · subst he
        obtain ⟨rconn', hrc', hra, _⟩ := hw.registered _ r hr
        rw [hc] at hrc'
        cases hrc'
        exact Or.inr (Or.inr ⟨r, conn', hself, hagent.trans hra, (hreg _ hr).1⟩)
      · exact Or.inl ⟨r, rconn, hstays hr he, replaced_other hconns hrc he, hopen⟩
    · exact Or.inr (Or.inl ⟨n, newer, replaced_other hconns hn (hserves hn hwait), hna, hwait⟩)
    · by_cases he : c' = c
      · subst he
        rw [hc] at hc'
        cases hc'
        exact Or.inr (Or.inr ⟨c', conn', hself, hagent.trans hca, hown hcl⟩)
      · exact Or.inr (Or.inr ⟨c', closed, replaced_other hconns hc' he, hca, hcl⟩)

/-- A connect waits for the end of the old connection, which is closed by now. -/
theorem Wired.awaits {old : Nat} (hw : Wired h) (hc : h.connections c = some conn)
    (hp : conn.phase = .greeting old) (hshut : h.isOpen old = false) :
    Wired (h.set c { conn with phase := .closing old }) := by
  have hwait : conn.phase.waits = true := by rw [hp]; rfl
  have hopen := hw.waiting c conn hc hwait
  have hconns := connections_set h c { conn with phase := .closing old }
  have hself := replaced_self hconns
  have hserves : ∀ {k kconn}, h.connections k = some kconn → kconn.phase.waits = false → k ≠ c := by
    intro k kconn hk hserved
    exact waits_ne hc hk (by simp [hwait, hserved])
  constructor
  case fresh => exact hw.replaced_fresh hconns hc rfl rfl
  case registered =>
    intro a r hr
    obtain ⟨rconn, hrc, rfl, hserving, hcl⟩ := hw.registered a r hr
    exact ⟨rconn, replaced_other hconns hrc (hserves hrc (by rw [hserving]; rfl)), rfl, hserving, hcl⟩
  case waiting => exact replaced_all hconns hw.waiting fun _ => hopen
  case left =>
    refine replaced_all hconns hw.left fun _ hserved => ?_
    cases hserved
  case greeting =>
    intro k kconn old' hk hg
    rw [connections_set] at hk
    split at hk
    · cases hk
      cases hg
    · obtain ⟨oldConn, ho, how, hoa, hor⟩ := hw.greeting k kconn old' hk hg
      exact ⟨oldConn, replaced_other hconns ho (hserves ho how), how, hoa, hor⟩
  case served =>
    intro k kconn hk hko hserving
    rw [connections_set] at hk
    split at hk
    · cases hk
      cases hserving
    · rcases hw.served k kconn hk hko hserving with hr | ⟨n, newer, hn, hna, hg⟩
      · exact Or.inl hr
      · have hne : n ≠ c := by
          rintro rfl
          rw [hc] at hn
          cases hn
          rw [hp] at hg
          cases hg
          exact isOpen_false_iff.mp hshut kconn hk hko
        exact Or.inr ⟨n, newer, replaced_other hconns hn hne, hna, hg⟩
  case kept =>
    intro k kconn hk
    obtain ⟨kconn', hk', ha⟩ := replaced_agent hconns hc rfl hk
    rw [← ha]
    have hwaits : ∀ {n newer}, h.connections n = some newer → newer.agentId = kconn'.agentId →
        newer.phase.waits = true → ∃ n newer, (h.set c { conn with phase := .closing old }).connections n =
          some newer ∧ newer.agentId = kconn'.agentId ∧ newer.phase.waits = true := by
      intro n newer hn hna hnw
      by_cases hne : n = c
      · subst hne
        rw [hc] at hn
        cases hn
        exact ⟨n, _, hself, hna, rfl⟩
      · exact ⟨n, newer, replaced_other hconns hn hne, hna, hnw⟩
    rcases hw.kept k kconn' hk' with ⟨r, rconn, hr, hrc, hro⟩ | ⟨n, newer, hn, hna, hnw⟩ |
      ⟨c', closed, hc', hca, hcl⟩
    · obtain ⟨_, hrc', _, hserving, _⟩ := hw.registered _ r hr
      rw [hrc] at hrc'
      cases hrc'
      exact Or.inl ⟨r, rconn, hr, replaced_other hconns hrc (hserves hrc (by rw [hserving]; rfl)), hro⟩
    · exact Or.inr (Or.inl (hwaits hn hna hnw))
    · have hne : c' ≠ c := by
        rintro rfl
        rw [hc] at hc'
        cases hc'
        rw [hopen] at hcl
        cases hcl
      exact Or.inr (Or.inr ⟨c', closed, replaced_other hconns hc' hne, hca, hcl⟩)

theorem connections_depart (conn : Connection) (e : Engine) (clocks : String → Clock) (k : Nat) :
    (h.depart c conn e clocks).connections k = if k = c then some { conn with phase := .gone }
      else h.connections k :=
  connections_set h c _ k

/-- What is registered was closed by nobody else. -/
theorem Wired.own (hw : Wired h) (hc : h.connections c = some conn) {a : String}
    (hr : h.registered a = some c) : conn.agentId = a ∧ conn.phase = .serving ∧
      (conn.closed = none ∨ conn.closed = some .own) := by
  obtain ⟨rconn, hrc, ha, hp, hcl⟩ := hw.registered a c hr
  rw [hc] at hrc
  cases hrc
  refine ⟨ha, hp, ?_⟩
  cases hcc : conn.closed with
  | none => exact Or.inl rfl
  | some closer =>
    cases closer with
    | own => exact Or.inr rfl
    | replacement => exact absurd hcc hcl

theorem Wired.greeted {sent : Bool} (hw : Wired h) (ho : Orderly h (.greeted c sent)) :
    Wired (h.greeted c sent) := by
  unfold Hub.greeted
  cases hc : h.connections c with
  | none => exact hw
  | some conn =>
    dsimp only
    split
    · rename_i old hp
      have hwait : conn.phase.waits = true := by rw [hp]; rfl
      cases sent with
      | false =>
        obtain ⟨hclosed, hold⟩ := ho conn old hc hp
        refine hw.register hc hwait hold fun old' hp' => ?_
        rw [hp] at hp'
        cases hp'
        exact hclosed
      | true =>
        obtain ⟨oldConn, hoc, how, hoa, hor⟩ := hw.greeting c conn old hc hp
        have hne : c ≠ old := waits_ne hoc hc (by simp [hwait, how])
        have hclose : h.close old .replacement =
            h.set old { oldConn with closed := oldConn.closed.or (some .replacement) } := by
          simp only [Hub.close, hoc]
        have hshut : Wired (h.close old .replacement) := by
          rw [hclose]
          refine hw.shut hoc how rfl (connections_set _ _ _ ·) (fun _ => Or.inl rfl) rfl how (by simp)
            (fun a hr => ?_) (fun he => by rw [he]; rfl)
          obtain ⟨ha, _, _⟩ := hw.own hoc hr
          rw [← ha, hoa] at hr
          exact absurd hr hor
        have hcl : (h.close old .replacement).connections c = some conn := by
          rw [hclose, connections_set, if_neg hne, hc]
        refine hshut.awaits hcl hp (isOpen_false_iff.mpr fun conn' hconn' => ?_)
        rw [hclose, connections_set, if_pos rfl] at hconn'
        cases hconn'
        simp
    · exact hw

theorem Wired.closedOld (hw : Wired h) (ho : Orderly h (.closedOld c)) : Wired (h.closedOld c) := by
  unfold Hub.closedOld
  cases hc : h.connections c with
  | none => exact hw
  | some conn =>
    dsimp only
    split
    · rename_i old hp
      refine hw.register hc (by rw [hp]; rfl) (ho conn old hc hp) fun old' hp' => ?_
      rw [hp] at hp'
      cases hp'
    · exact hw

theorem Wired.lost (hw : Wired h) : Wired (h.lost c) := by
  unfold Hub.lost
  cases hc : h.connections c with
  | none => exact hw
  | some conn =>
    dsimp only
    split
    · rename_i hp
      have hclose : h.close c .own = h.set c { conn with closed := conn.closed.or (some .own) } := by
        simp only [Hub.close, hc]
      rw [hclose]
      refine hw.shut hc (by rw [hp]; rfl) rfl (connections_set _ _ _ ·) (fun _ => Or.inl rfl) rfl
        (by dsimp only; rw [hp]; rfl) (by simp) (fun a hr => ⟨?_, fun _ => hp⟩) (fun he => by rw [he]; rfl)
      obtain ⟨_, _, hcl | hcl⟩ := hw.own hc hr <;> rw [hcl] <;> rfl
    · exact hw

theorem unregister_other (h : Hub) (c : Nat) (conn : Connection) : (h.unregister c conn).connections = h.connections ∧
    (h.unregister c conn).next = h.next ∧
    (h.unregister c conn).toRegistryHandler = h.toRegistryHandler := by
  unfold Hub.unregister
  split <;> exact ⟨rfl, rfl, rfl⟩

theorem Wired.unregister (hw : Wired h) (hc : h.connections c = some conn) (a : String) :
    (h.unregister c conn).registered a = if h.registered a = some c then none else h.registered a := by
  unfold Hub.unregister
  by_cases hr : h.registered conn.agentId = some c
  · simp only [if_pos hr, Function.update_apply]
    by_cases ha : a = conn.agentId
    · rw [if_pos ha, ha, if_pos hr]
    · rw [if_neg ha, if_neg fun hra => ha (hw.own hc hra).1.symm]
  · rw [if_neg hr, if_neg fun hra => hr ((hw.own hc hra).1 ▸ hra)]

theorem Wired.finish {e : Engine} {clocks : String → Clock} (hw : Wired h) : Wired (h.finish c e clocks) := by
  unfold Hub.finish
  cases hc : h.connections c with
  | none => exact hw
  | some conn =>
    dsimp only
    split
    · rename_i hp
      have hserved : conn.phase.waits = false := by rw [hp]; rfl
      obtain ⟨hconns, hnext, _⟩ := unregister_other h c conn
      have hregs : ∀ a, (h.unregister c conn).registered a = h.registered a ∨
          h.registered a = some c ∧ (h.unregister c conn).registered a = none := by
        intro a
        rw [hw.unregister hc]
        split
        · exact Or.inr ⟨‹_›, rfl⟩
        · exact Or.inl rfl
      have hpopped : ∀ a, (h.unregister c conn).registered a ≠ some c := by
        intro a
        rw [hw.unregister hc]
        split
        · simp
        · assumption
      split
      · have hset := connections_set (h.unregister c conn) c { conn with
          phase := .leaving (h.registered conn.agentId = some c), closed := some .own }
        simp only [hconns] at hset
        exact hw.shut hc hserved hnext hset hregs rfl rfl (by simp)
          (fun a hr => ⟨rfl, fun h' => absurd h' (hpopped a)⟩) (fun _ => rfl)
      · rename_i hclosed
        have hset := connections_depart (h := h.unregister c conn) (c := c) conn e clocks
        simp only [hconns] at hset
        refine hw.shut hc hserved hnext hset hregs rfl rfl (fun h' => hclosed (Option.isNone_iff_eq_none.mpr h'))
          (fun a hr => ⟨?_, fun h' => absurd h' (hpopped a)⟩) id
        obtain ⟨_, _, hcl | hcl⟩ := hw.own hc hr
        · exact absurd (by simp [hcl]) hclosed
        · exact hcl
    · exact hw

theorem Wired.leave {e : Engine} {clocks : String → Clock} (hw : Wired h) : Wired (h.leave c e clocks) := by
  unfold Hub.leave
  cases hc : h.connections c with
  | none => exact hw
  | some conn =>
    dsimp only
    split
    · rename_i wasRegistered hp
      have hserved : conn.phase.waits = false := by rw [hp]; rfl
      refine hw.shut hc hserved rfl (connections_depart conn e clocks ·) (fun _ => Or.inl rfl) rfl rfl
        (fun hopen => ?_) (fun a hr => ?_) id
      · have hserving := hw.left c conn hc hopen hserved
        rw [hp] at hserving
        cases hserving
      · obtain ⟨_, hserving, _⟩ := hw.own hc hr
        rw [hp] at hserving
        cases hserving
    · exact hw

/-- Every orderly step keeps the connections wired. -/
theorem step_wired {e : Engine} {ev : HubEvent} (hw : Wired h) (ho : Orderly h ev) :
    Wired (ev.step e h) := by
  cases ev with
  | server ev =>
    simp only [HubEvent.step]
    split
    · exact hw
    · exact ⟨hw.fresh, hw.registered, hw.waiting, hw.left, hw.greeting, hw.served, hw.kept⟩
  | connects agentId => exact hw.connect agentId
  | greeted c sent => exact hw.greeted ho
  | closedOld c => exact hw.closedOld ho
  | lost c => exact hw.lost
  | finishes c clocks => exact hw.finish
  | leaves c clocks => exact hw.leave

/-- A disconnect is nothing exactly when the agent has no active task. -/
theorem dangle_same_iff (e : Engine) (s : RegistryHandler) (agentId : String) (clocks : String → Clock) :
    dangleAgentTasks e s agentId clocks = s ↔
      ∀ k t, s.record? k = some t → t.active agentId = false := by
  constructor
  · intro hsame k t ht
    have hwrites := (dangle_writes e s agentId clocks).entry k t ht
    rw [hsame, ht] at hwrites
    by_contra hactive
    rw [Bool.not_eq_false] at hactive
    rw [if_pos hactive, Record.after_some] at hwrites
    have hstate : t.state = .str "dangling" := congrArg Record.state (Option.some.inj hwrites)
    simp [Record.active, hstate, Json.isWord, settledWords] at hactive
  · exact dangle_idle e s clocks

/-- The tear-down of a superseded connection is harmless exactly when it is calm. -/
theorem leavesAlone_iff (e : Engine) (ev : HubEvent) : LeavesAlone e h ev ↔ Calm h ev := by
  refine forall_congr' fun hsup => ?_
  have hdepart : ∀ {h' : Hub} {c : Nat} {conn : Connection} (clocks : String → Clock),
      h'.toRegistryHandler = h.toRegistryHandler → h'.registered = h.registered →
      ev.dangles h = some conn.agentId → ((h'.depart c conn e clocks).toRegistryHandler =
        h.toRegistryHandler ∧ (h'.depart c conn e clocks).registered = h.registered ↔
        ∀ agentId, ev.dangles h = some agentId →
          ∀ k t, h.record? k = some t → t.active agentId = false) := by
    intro h' c conn clocks hh hr hd
    have hiff := dangle_same_iff e h.toRegistryHandler conn.agentId clocks
    rw [hd]
    simp only [Hub.depart, hh, Option.some.injEq, forall_eq', hiff]
    exact and_iff_left hr
  cases ev with
  | server | connects | greeted | closedOld | lost => exact absurd hsup id
  | finishes c clocks =>
    obtain ⟨conn, hc, hp, hr⟩ := hsup
    have hun : h.unregister c conn = h := if_neg hr
    simp only [HubEvent.step, Hub.finish, hc, if_pos hp, hun]
    split
    · rename_i hopen
      refine iff_of_true ⟨rfl, rfl⟩ fun agentId hd => ?_
      simp [HubEvent.dangles, hc, Option.isNone_iff_eq_none.mp hopen] at hd
    · rename_i hclosed
      refine hdepart clocks rfl rfl ?_
      simp only [HubEvent.dangles, hc, Option.bind_some, hp, true_and]
      exact if_pos (by cases hcl : conn.closed <;> simp_all)
  | leaves c clocks =>
    obtain ⟨conn, wasRegistered, hc, hp, _⟩ := hsup
    simp only [HubEvent.step, Hub.leave, hc, hp]
    refine hdepart clocks rfl rfl ?_
    simp only [HubEvent.dangles, hc, Option.bind_some, hp]

end

/-- Over every interleaving of the connects and tear-downs of an agent's connections: no tear-down of a
superseded connection harms the agent exactly when the agent has no active task at each of them; and
when each connect registers over no open connection, the open connection that remains is the registered
one. -/
theorem reconnect_safe_when (e : Engine) (handler : RegistryHandler) (events : List HubEvent) :
    (EachStep (HubEvent.step e) (LeavesAlone e) (.start handler) events ↔
      EachStep (HubEvent.step e) Calm (.start handler) events) ∧
    (EachStep (HubEvent.step e) Orderly (.start handler) events →
      Always (HubEvent.step e) SoleConnection (.start handler) events) := by
  constructor
  · simp only [eachStep_iff, leavesAlone_iff]
  · intro ho
    have hstart : Wired (.start handler) :=
      ⟨nofun, nofun, nofun, nofun, nofun, nofun, nofun⟩
    exact (ho.always (fun _ _ hw hstep => step_wired hw hstep) hstart).imp fun _ hw => hw.sole

/-- Agent `a` connects, takes up a task, and connects again: the new connection waits for the old one,
whose handler comes to its end. -/
def replaced : List HubEvent :=
  [.connects "a", .server (tells "a" "task_ack" [("id", .str "v")]), .connects "a", .greeted 1 true,
    .finishes 0 (fun _ => .fixed 0)]

/-- Three connections of agent `a`: the third registers while the second waits for the first. -/
def raced : List HubEvent := [.connects "a", .connects "a", .connects "a", .greeted 1 true, .closedOld 1]

/-- The tear-down of the replaced connection marks the task as dangling. After the race two connections
are open, and the one that is not registered is no longer known to anybody. -/
theorem reconnect_races :
    ¬ EachStep (HubEvent.step idleEngine) (LeavesAlone idleEngine) (.start (.start Db.empty false)) replaced ∧
    ¬ Always (HubEvent.step idleEngine) SoleConnection (.start (.start Db.empty false)) raced := by
  constructor
  · intro h
    have hcalm := (leavesAlone_iff idleEngine _).mp h.2.2.2.2.1
    have hidle := hcalm ⟨⟨"a", .serving, some .replacement⟩, rfl, rfl, by decide⟩ "a" rfl "v"
      ⟨"v", "a", .str "accepted", .null, .null, none⟩ rfl
    exact absurd hidle (by decide)
  · intro h
    have hsettled : Settled (exec (HubEvent.step idleEngine) (.start (.start Db.empty false)) raced) "a" := by
      intro c conn hc _
      match c, hc with
      | 0, hc | 1, hc | 2, hc =>
        cases hc
        rfl
    have hregistered := (h.last "a" hsettled).1 2 ⟨"a", .serving, none⟩ rfl rfl rfl
    exact absurd hregistered (by decide)

/-- With one connect after the other the new connection is the only one. -/
theorem reconnect_in_turn : Always (HubEvent.step idleEngine) SoleConnection (.start (.start Db.empty false))
    [.connects "a", .connects "a", .greeted 1 true, .closedOld 1, .finishes 0 (fun _ => .fixed 0)] := by
  refine (reconnect_safe_when idleEngine (.start Db.empty false) _).2
    ⟨trivial, trivial, trivial, ?_, trivial, trivial⟩
  intro conn old hc _ r hr
  cases hc
  cases hr

end A2ARegistry.Server
