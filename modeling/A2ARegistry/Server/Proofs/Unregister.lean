import A2ARegistry.Server.Proofs.Connections
import A2ARegistry.Server.Connections

namespace A2ARegistry.Server
open Base Orchestration

/-- The agents, their tasks, their credentials and their live connections are as they were, and what was open is. -/
structure Site.Untouched (before after : Site) : Prop where
  agents : after.store = before.store
  tasks : after.hub.toRegistryHandler = before.hub.toRegistryHandler
  credentials : after.auth = before.auth
  live : ∀ agentId, after.hub.live agentId = before.hub.live agentId
  opened : ∀ c, after.hub.isOpen c = before.hub.isOpen c

/-- An unregistration that is refused has no effect. -/
def RefusedUntouched (site : Site) (agentId : String) (authTenant queryTenant : Option String) (sent : Bool) : Prop :=
  ((handleUnregister site agentId authTenant queryTenant sent).1.status = 404 ∨
    (handleUnregister site agentId authTenant queryTenant sent).1.status = 403) →
    site.Untouched (handleUnregister site agentId authTenant queryTenant sent).2

section Drop

variable (h : Hub) (agentId : String) (sent : Bool)

@[simp] theorem close_toRegistryHandler (c : Nat) (closer : Closer) :
    (h.close c closer).toRegistryHandler = h.toRegistryHandler := by
  unfold Hub.close
  split <;> rfl

@[simp] theorem close_registered (c : Nat) (closer : Closer) : (h.close c closer).registered = h.registered := by
  unfold Hub.close
  split <;> rfl

/-- The tasks are not looked at. -/
@[simp] theorem drop_toRegistryHandler : (h.drop agentId sent).toRegistryHandler = h.toRegistryHandler := by
  unfold Hub.drop
  cases h.live agentId with
  | none => rfl
  | some c => cases sent <;> simp

@[simp] theorem drop_registered :
    (h.drop agentId sent).registered = Function.update h.registered agentId none := by
  unfold Hub.drop
  cases h.live agentId with
  | none => rfl
  | some c => cases sent <;> simp

/-- Whatever was registered, no message reaches the agent any more. -/
theorem live_drop_self : (h.drop agentId sent).live agentId = none := by
  simp [Hub.live]

variable {h agentId}

/-- Without a live connection only an entry that nothing reaches is taken out. -/
theorem drop_connections (hnone : h.live agentId = none) : (h.drop agentId sent).connections = h.connections := by
  unfold Hub.drop
  rw [hnone]

theorem isOpen_drop (hnone : h.live agentId = none) (c : Nat) : (h.drop agentId sent).isOpen c = h.isOpen c := by
  unfold Hub.isOpen
  rw [drop_connections sent hnone]

theorem live_drop (hnone : h.live agentId = none) (other : String) :
    (h.drop agentId sent).live other = h.live other := by
  by_cases hother : other = agentId
  · subst hother
    rw [live_drop_self, hnone]
  · have hopen : (h.drop agentId sent).isOpen = h.isOpen := funext (isOpen_drop sent hnone)
    unfold Hub.live
    rw [drop_registered, Function.update_of_ne hother, hopen]

end Drop

section Refused

variable {site : Site} {agentId : String} {authTenant queryTenant : Option String}

/-- It is refused where the tenant has no such agent, as one that is not found, and is never forbidden. -/
theorem unregister_refused (store : Registry.Store) (agentId tenant : String) :
    ((Registry.handleUnregister store agentId tenant).1.status = 404 ∨
      (Registry.handleUnregister store agentId tenant).1.status = 403) ↔
      store.agents.rows.any (Registry.Store.ofTenant agentId tenant) = false := by
  unfold Registry.handleUnregister
  split
  · rename_i hfound
    simp [hfound]
  · rename_i hmissing
    simp [jsonError, hmissing]

theorem unregister_missing {store : Registry.Store} {tenant : String}
    (h : store.agents.rows.any (Registry.Store.ofTenant agentId tenant) = false) :
    (Registry.handleUnregister store agentId tenant).2 = store := by
  unfold Registry.handleUnregister
  rw [if_neg (by simp [h])]

/-- A refusal is without effect exactly where there is none, or where the agent had no live connection: the connection
is dropped before anyone looks whether the caller's tenant has the agent. -/
theorem refused_untouched_iff (site : Site) (agentId : String) (authTenant queryTenant : Option String) (sent : Bool) :
    RefusedUntouched site agentId authTenant queryTenant sent ↔
      site.store.agents.rows.any
        (Registry.Store.ofTenant agentId (unregisterTenant authTenant queryTenant)) = true ∨
      site.hub.live agentId = none := by
  have hstatus := unregister_refused site.store agentId (unregisterTenant authTenant queryTenant)
  constructor
  · intro h
    by_cases hfound : site.store.agents.rows.any
        (Registry.Store.ofTenant agentId (unregisterTenant authTenant queryTenant)) = true
    · exact Or.inl hfound
    · have huntouched := h (hstatus.mpr (by simpa using hfound))
      right
      rw [← huntouched.live agentId]
      exact live_drop_self site.hub agentId sent
  · intro hcases hrefused
    have hmissing := hstatus.mp hrefused
    have hnone : site.hub.live agentId = none := by
      rcases hcases with hfound | hnone
      · rw [hmissing] at hfound
        cases hfound
      · exact hnone
    exact {
      agents := unregister_missing hmissing
      tasks := drop_toRegistryHandler site.hub agentId sent
      credentials := rfl
      live := live_drop sent hnone
      opened := isOpen_drop sent hnone }

end Refused

section Sample

/-- A worker of the tenant `acme`, registered and connected. -/
def connectedWorker : Site where
  store := ⟨⟨[{ id := "a1", card := .obj [("name", .str "worker")], heartbeatAt := some 0, tenantId := "acme" }],
    List.nodup_singleton _⟩, AutoTable.empty⟩
  hub := (Hub.start (RegistryHandler.start Db.empty true)).connect "a1"
  auth := Auth.AuthStore.empty

/-- A caller of another tenant is told that there is no such agent, and has cut its connection. -/
theorem stranger_disconnects : ¬ RefusedUntouched connectedWorker "a1" (some "globex") none true := by
  intro h
  have hlive := (h (Or.inl (by decide))).live "a1"
  exact absurd hlive (by decide)

end Sample

end A2ARegistry.Server
