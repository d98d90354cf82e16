import A2ARegistry.Users.Store

namespace A2ARegistry.Users
open Base Orchestration

/-- Somebody has the admin role. -/
def HasAdmin (store : UserStore) : Prop := ∃ user ∈ store.rows, user.role = "admin"

/-- Nobody but `username` has it. -/
def OnlyAdmin (store : UserStore) (username : String) : Prop :=
  ∀ user ∈ store.rows, user.role = "admin" → user.username = username

/-- An update to another role than admin, with a password that is not refused if there is one. -/
def Demotes (draw : Draw) (password role : Json) : Prop :=
  (∃ text, role = .str text ∧ lower text ∈ ["operator", "viewer"]) ∧
    (password.truthy = true → ∃ text pwHash, password = .str text ∧ draw.bcrypt text = .ok pwHash)

/-- Requests that leave a user who is there without the admin role. -/
def TakesRole (session : Session) (username : String) : UserRequest → Prop
  | .update draw targetUsername (some (.obj body)) =>
    targetUsername = username ∧ Demotes draw (Json.field body "password") (Json.field body "role")
  | .delete targetUsername => targetUsername = username ∧ username ≠ "admin" ∧ username ≠ session.sub
  | _ => False

/-- A request of an admin session takes the role from nobody who is the only one to have it. -/
def SparesLastAdmin (store : UserStore) (request : Option Session × UserRequest) : Prop :=
  ∀ session username, request.1 = some session → session.role = "admin" →
    TakesRole session username request.2 → ¬ OnlyAdmin store username

theorem not_onlyAdmin {store : UserStore} {username : String} :
    ¬ OnlyAdmin store username ↔ ∃ user ∈ store.rows, user.role = "admin" ∧ user.username ≠ username := by
  simp [OnlyAdmin]

theorem onlyAdmin_found {store : UserStore} {username : String} (h : HasAdmin store)
    (honly : OnlyAdmin store username) : ∃ existing, store.find? username = some existing := by
  obtain ⟨user, hmem, hrole⟩ := h
  exact ⟨user, Table.find_some_iff.mpr ⟨hmem, honly user hmem hrole⟩⟩

theorem hasAdmin_delete {store : UserStore} {username : String} :
    HasAdmin (store.deleteUser username).2 ↔ ¬ OnlyAdmin store username := by
  rw [not_onlyAdmin]
  constructor
  · rintro ⟨user, hmem, hrole⟩
    obtain ⟨hmem, hne⟩ := List.mem_filter.mp hmem
    exact ⟨user, hmem, hrole, by simpa using hne⟩
  · rintro ⟨user, hmem, hrole, hne⟩
    exact ⟨user, List.mem_filter.mpr ⟨hmem, by simpa using hne⟩, hrole⟩

/-- A role that is written is the target's, and no one else's. -/
theorem hasAdmin_write {store : UserStore} {username pwHash newRole : String} {now : Rat} :
    HasAdmin (store.write username pwHash newRole now) ↔
      ¬ OnlyAdmin store username ∨ (newRole = "admin" ∧ ∃ existing, store.find? username = some existing) := by
  rw [not_onlyAdmin]
  constructor
  · rintro ⟨user, hmem, hrole⟩
    obtain ⟨old, hold, rfl⟩ := List.mem_map.mp hmem
    by_cases he : old.username = username
    · rw [if_pos (by simpa using he)] at hrole
      exact Or.inr ⟨hrole, old, Table.find_some_iff.mpr ⟨hold, he⟩⟩
    · rw [if_neg (by simpa using he)] at hrole
      exact Or.inl ⟨old, hold, hrole, he⟩
  · rintro (⟨user, hmem, hrole, hne⟩ | ⟨rfl, existing, hfind⟩)
    · refine ⟨user, List.mem_map.mpr ⟨user, hmem, ?_⟩, hrole⟩
      rw [if_neg (by simpa using hne)]
    · obtain ⟨hmem, hkey⟩ := Table.find_some_iff.mp hfind
      refine ⟨_, List.mem_map.mpr ⟨existing, hmem, rfl⟩, ?_⟩
      have hname : existing.username = username := hkey
      simp [hname]

theorem Demotes.role_truthy {draw : Draw} {password role : Json} (h : Demotes draw password role) :
    role.truthy = true := by
  obtain ⟨⟨text, rfl, hlower⟩, _⟩ := h
  have hne : text ≠ "" := by
    rintro rfl
    exact absurd hlower (by decide)
  simpa [Json.truthy] using hne

/-- The password a demotion comes with is hashed, if there is one. -/
theorem Demotes.hashes {draw : Draw} {password role : Json} (h : Demotes draw password role)
    (ht : password.truthy = true) : ∃ pwHash, hashPassword draw password = .ok pwHash := by
  obtain ⟨text, pwHash, rfl, hok⟩ := h.2 ht
  exact ⟨pwHash, by simp [hashPassword, hok, Except.mapError]⟩

theorem hashPassword_ok {draw : Draw} {password : Json} {pwHash : String}
    (h : hashPassword draw password = .ok pwHash) :
    ∃ text, password = .str text ∧ draw.bcrypt text = .ok pwHash := by
  cases password with
  | str text =>
    cases hb : draw.bcrypt text with
    | error e => simp [hashPassword, hb, Except.mapError] at h
    | ok found => exact ⟨text, rfl, by simpa [hashPassword, hb, Except.mapError] using h⟩
  | _ => cases h

theorem lowerRole_ok {role : Json} {newRole : String} (h : lowerRole role = .ok newRole) :
    ∃ text, role = .str text ∧ lower text = newRole := by
  cases role with
  | str text =>
    cases h
    exact ⟨text, rfl, rfl⟩
  | _ => cases h

/-- What an update of a user who is there comes to: an error, or a row that is written. The role it writes is the
one the user has or the admin role, unless the update is a demotion. -/
theorem updateUser_cases {store : UserStore} {username : String} {existing : UserRecord}
    (hfind : store.find? username = some existing) (draw : Draw) (password role : Json) :
    (¬ Demotes draw password role ∧ ∃ e, store.updateUser draw username password role = .error e) ∨
      ∃ pwHash newRole, store.updateUser draw username password role =
          .ok (true, store.write username pwHash newRole draw.now) ∧
        (Demotes draw password role ∧ newRole ≠ "admin" ∨
          ¬ Demotes draw password role ∧ (newRole = existing.role ∨ newRole = "admin")) := by
  by_cases hd : Demotes draw password role
  · right
    obtain ⟨pwHash, hhash⟩ : ∃ pwHash, (if password.truthy then hashPassword draw password
        else .ok existing.passwordHash) = .ok pwHash := by
      by_cases ht : password.truthy = true
      · obtain ⟨pwHash, hok⟩ := hd.hashes ht
        exact ⟨pwHash, by rw [if_pos ht, hok]⟩
      · exact ⟨existing.passwordHash, if_neg ht⟩
    have ht := hd.role_truthy
    obtain ⟨⟨text, rfl, hlower⟩, _⟩ := id hd
    have hroles : lower text ∈ roles := List.mem_cons_of_mem _ hlower
    refine ⟨pwHash, lower text, ?_, Or.inl ⟨hd, ?_⟩⟩
    · simp [UserStore.updateUser, hfind, hhash, ht, lowerRole, hroles]
    · intro he
      rw [he] at hlower
      exact absurd hlower (by decide)
  · cases hhash : if password.truthy then hashPassword draw password else .ok existing.passwordHash with
    | error e => exact Or.inl ⟨hd, e, by simp [UserStore.updateUser, hfind, hhash]⟩
    | ok pwHash =>
      cases hrole : if role.truthy then lowerRole role else .ok existing.role with
      | error e => exact Or.inl ⟨hd, e, by simp [UserStore.updateUser, hfind, hhash, hrole]⟩
      | ok newRole =>
        by_cases hvalid : newRole ∈ roles
        · refine Or.inr ⟨pwHash, newRole, by simp [UserStore.updateUser, hfind, hhash, hrole, hvalid], Or.inr ⟨hd, ?_⟩⟩
          by_cases ht : role.truthy = true
          · rw [if_pos ht] at hrole
            right
            by_contra hne
            -- A role that is valid and is not the admin role would make it a demotion.
            obtain ⟨text, rfl, rfl⟩ := lowerRole_ok hrole
            have hother : lower text ∈ ["operator", "viewer"] := (List.mem_cons.mp hvalid).resolve_left hne
            apply hd
            refine ⟨⟨text, rfl, hother⟩, fun hp => ?_⟩
            rw [if_pos hp] at hhash
            obtain ⟨given, hgiven, hok⟩ := hashPassword_ok hhash
            exact ⟨given, pwHash, hgiven, hok⟩
          · rw [if_neg ht] at hrole
            cases hrole
            exact Or.inl rfl
        · left
          refine ⟨hd, .valueError s!"Invalid role '{newRole}'", ?_⟩
          simp [UserStore.updateUser, hfind, hhash, hrole, hvalid]

/-- Unless the request is one for which nobody else is an admin, an admin remains, and only then. -/
theorem hasAdmin_update {store : UserStore} (h : HasAdmin store) (draw : Draw) (targetUsername : String)
    (body : List (String × Json)) :
    HasAdmin (handleUpdateUser store draw targetUsername (some (.obj body))).2 ↔
      (Demotes draw (Json.field body "password") (Json.field body "role") → ¬ OnlyAdmin store targetUsername) := by
  simp only [handleUpdateUser]
  split
  · rename_i hnone
    have hrole : (Json.field body "role").truthy = false := by
      simp only [Bool.and_eq_true, Bool.not_eq_true'] at hnone
      exact hnone.2
    refine iff_of_true h (fun hd => ?_)
    rw [hd.role_truthy] at hrole
    cases hrole
  · cases hfind : store.find? targetUsername with
    | none =>
      have hstore : store.updateUser draw targetUsername (Json.field body "password") (Json.field body "role") =
          .ok (false, store) := by simp [UserStore.updateUser, hfind]
      rw [hstore]
      refine iff_of_true h (fun _ honly => ?_)
      obtain ⟨existing, hfound⟩ := onlyAdmin_found h honly
      rw [hfind] at hfound
      cases hfound
    | some existing =>
      rcases updateUser_cases hfind draw (Json.field body "password") (Json.field body "role") with
        ⟨hd, e, he⟩ | ⟨pwHash, newRole, he, hcase⟩
      · rw [he]
        exact iff_of_true h (fun hdemotes => absurd hdemotes hd)
      · rw [he]
        refine hasAdmin_write.trans ?_
        rcases hcase with ⟨hd, hne⟩ | ⟨hd, hrole⟩
        · simp [hd, hne]
        · refine iff_of_true ?_ (fun hdemotes => absurd hdemotes hd)
          rcases hrole with rfl | rfl
          · -- The user's own role is written back: if nobody else is an admin, it is the admin role.
            by_cases honly : OnlyAdmin store targetUsername
            · obtain ⟨user, hmem, hadmin⟩ := h
              have hfound := Table.find_some_iff.mpr ⟨hmem, honly user hmem hadmin⟩
              rw [hfind] at hfound
              cases hfound
              exact Or.inr ⟨hadmin, existing, hfind⟩
            · exact Or.inl honly
          · exact Or.inr ⟨rfl, existing, hfind⟩

/-- A user who is created comes after those who are there. -/
theorem createUser_ok {store store' : UserStore} {draw : Draw} {username role : String} {password : Json}
    {user : UserRecord} (h : store.createUser draw username password role = .ok (user, store')) :
    store'.rows = store.rows ++ [user] := by
  simp only [UserStore.createUser] at h
  split at h
  · cases h
  · split at h
    · cases h
    · split at h
      · cases h
      · split at h
        · cases h
        · rename_i hinsert
          cases h
          exact (Table.insert_some hinsert).2

theorem handleCreate_rows (store : UserStore) (draw : Draw) (body : Option Json) :
    ∃ created, (handleCreateUser store draw body).2.rows = store.rows ++ created := by
  have hsame : ∃ created, store.rows = store.rows ++ created := ⟨[], (List.append_nil _).symm⟩
  rcases body with - | (- | - | - | - | - | - | body)
  all_goals try exact hsame
  simp only [handleCreateUser]
  split
  · split
    · exact hsame
    · split
      · exact hsame
      · split
        · exact hsame
        · split
          · exact hsame
          · rename_i user store' hcreate
            exact ⟨[user], createUser_ok hcreate⟩
  · exact hsame

theorem hasAdmin_create {store : UserStore} (h : HasAdmin store) (draw : Draw) (body : Option Json) :
    HasAdmin (handleCreateUser store draw body).2 := by
  obtain ⟨user, hmem, hrole⟩ := h
  obtain ⟨created, hrows⟩ := handleCreate_rows store draw body
  exact ⟨user, hrows ▸ List.mem_append_left created hmem, hrole⟩

theorem handleDelete_cases (store : UserStore) (targetUsername currentUser : String) :
    (handleDeleteUser store targetUsername currentUser).2 =
      if targetUsername = "admin" ∨ targetUsername = currentUser then store
      else (store.deleteUser targetUsername).2 := by
  unfold handleDeleteUser
  by_cases hadmin : targetUsername = "admin"
  · simp [hadmin]
  · by_cases hself : targetUsername = currentUser
    · rw [if_neg hadmin, if_pos hself, if_pos (Or.inr hself)]
    · rw [if_neg hadmin, if_neg hself, if_neg (by simp [hadmin, hself])]
      split
      · rename_i hdelete
        rw [hdelete]
      · rename_i hdelete
        rw [hdelete]

theorem roleGe_admin {role : String} : roleGe role "admin" = true ↔ role = "admin" := by
  constructor
  · intro h
    by_contra hne
    have hlevel : 100 ≤ roleLevel role := by simpa [roleGe, roleLevel] using h
    by_cases hoperator : role = "operator"
    · subst hoperator
      exact absurd hlevel (by decide)
    · by_cases hviewer : role = "viewer"
      · subst hviewer
        exact absurd hlevel (by decide)
      · have hnone : roleLevel role = 0 := by
          simp [roleLevel, List.lookup_cons, beq_eq_false_iff_ne.mpr hne, beq_eq_false_iff_ne.mpr hoperator,
            beq_eq_false_iff_ne.mpr hviewer]
        omega
  · rintro rfl
    decide

/-- Only requests of an admin session reach a handler. -/
theorem step_cases (store : UserStore) (session : Option Session) (request : UserRequest) :
    (∃ s, session = some s ∧ s.role = "admin" ∧ step store (session, request) = (handle store s request).2) ∨
      step store (session, request) = store ∧ ∀ s, session = some s → s.role ≠ "admin" := by
  cases session with
  | none => exact Or.inr ⟨rfl, by simp⟩
  | some s =>
    by_cases hrole : s.role = "admin"
    · left
      refine ⟨s, rfl, hrole, ?_⟩
      simp [step, respond, requireRole, roleGe_admin.mpr hrole]
    · right
      have hge : roleGe s.role "admin" = false := by
        rw [← Bool.not_eq_true]
        exact fun h => hrole (roleGe_admin.mp h)
      refine ⟨by simp [step, respond, requireRole, hge], ?_⟩
      intro s' hs
      cases hs
      exact hrole

/-- The step lemma: from a table with an admin, one remains exactly when the request spares the last. -/
theorem hasAdmin_step {store : UserStore} (h : HasAdmin store) (request : Option Session × UserRequest) :
    HasAdmin (step store request) ↔ SparesLastAdmin store request := by
  obtain ⟨session, request⟩ := request
  rcases step_cases store session request with ⟨s, rfl, hrole, hstep⟩ | ⟨hstep, hrole⟩
  · rw [hstep]
    cases request with
    | create draw body => exact iff_of_true (hasAdmin_create h draw body) (fun _ _ _ _ htakes => htakes.elim)
    | update draw targetUsername body =>
      cases body with
      | none => exact iff_of_true h (fun _ _ _ _ htakes => htakes.elim)
      | some body =>
        cases body with
        | obj body =>
          refine (hasAdmin_update h draw targetUsername body).trans ⟨?_, ?_⟩
          · rintro hspares s' username ⟨⟩ - ⟨rfl, hd⟩
            exact hspares hd
          · intro hspares hd
            exact hspares s targetUsername rfl hrole ⟨rfl, hd⟩
        | _ => exact iff_of_true h (fun _ _ _ _ htakes => htakes.elim)
    | delete targetUsername =>
      simp only [handle, handleDelete_cases]
      by_cases hprotected : targetUsername = "admin" ∨ targetUsername = s.sub
      · rw [if_pos hprotected]
        refine iff_of_true h ?_
        rintro s' username ⟨⟩ - ⟨rfl, hadmin, hself⟩
        exact absurd hprotected (not_or.mpr ⟨hadmin, hself⟩)
      · rw [if_neg hprotected, hasAdmin_delete]
        obtain ⟨hadmin, hself⟩ := not_or.mp hprotected
        constructor
        · rintro hspares s' username ⟨⟩ - ⟨rfl, -, -⟩
          exact hspares
        · intro hspares
          exact hspares s targetUsername rfl hrole ⟨rfl, hadmin, hself⟩
  · rw [hstep]
    exact iff_of_true h (fun s _ hs hadmin _ => absurd hadmin (hrole s hs))

/-- A run keeps an admin in every state exactly when each of its requests spares the last one. -/
theorem admin_remains_iff (store : UserStore) (h : HasAdmin store)
    (requests : List (Option Session × UserRequest)) :
    Always step HasAdmin store requests ↔ EachStep step SparesLastAdmin store requests := by
  have hstep : ∀ store request, True → HasAdmin store →
      (HasAdmin (step store request) ↔ SparesLastAdmin store request) :=
    fun _ request _ hadmin => hasAdmin_step hadmin request
  exact always_iff_guarded (fun _ _ _ _ => trivial) hstep trivial h requests

section Samples

def sampleDraw : Draw := ⟨0, fun password => .ok password⟩

/-- What `bootstrap_admin` leaves. -/
def bootstrapped : UserStore := ⟨[⟨"admin", "", "admin", 0, 0⟩], by simp⟩

def adminSession : Session := ⟨"admin", "admin"⟩

def setRole (username role : String) : Option Session × UserRequest :=
  (some adminSession, .update sampleDraw username (some (.obj [("role", .str role)])))

/-- The administrator may take the role from itself, and nobody has it then. -/
theorem last_admin_demoted : HasAdmin bootstrapped ∧ ¬ HasAdmin (step bootstrapped (setRole "admin" "viewer")) := by
  refine ⟨⟨_, List.mem_singleton_self _, rfl⟩, ?_⟩
  rintro ⟨user, hmem, hrole⟩
  have hrows : (step bootstrapped (setRole "admin" "viewer")).rows = [⟨"admin", "", "viewer", 0, 0⟩] := by rfl
  rw [hrows] at hmem
  rw [List.mem_singleton.mp hmem] at hrole
  exact absurd hrole (by decide)

def twoAdmins : UserStore := ⟨[⟨"admin", "", "admin", 0, 0⟩, ⟨"bob", "", "admin", 0, 0⟩], by decide⟩

/-- With another admin there, the administrator may step down. -/
theorem another_admin_remains : Always step HasAdmin twoAdmins [setRole "admin" "viewer"] := by
  have hadmin : HasAdmin twoAdmins := ⟨_, List.mem_cons_self .., rfl⟩
  apply (admin_remains_iff twoAdmins hadmin _).mpr
  refine ⟨?_, trivial⟩
  rintro session username - - ⟨rfl, -⟩ honly
  have hbob := honly ⟨"bob", "", "admin", 0, 0⟩ (List.mem_cons_of_mem _ (List.mem_singleton_self _)) rfl
  exact absurd hbob (by decide)

end Samples

end A2ARegistry.Users
