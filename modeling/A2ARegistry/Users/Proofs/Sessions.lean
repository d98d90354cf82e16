import Mathlib.Data.Rat.Floor
import A2ARegistry.Auth.Proofs.Steps
import A2ARegistry.Users.Sessions
import A2ARegistry.Users.Proofs.Admins

namespace A2ARegistry.Users
open Base Orchestration Auth

/-- What `secrets.token_hex(32)` yields. -/
def IsHex (secret : String) : Prop := secret.length = 64 ∧ ∀ c ∈ secret.toList, c ∈ "0123456789abcdef".toList

instance (secret : String) : Decidable (IsHex secret) := inferInstanceAs (Decidable (_ ∧ _))

/-- What is known of PyJWT: under the secret it was encoded with, and no other that is drawn, a session is decoded as
what it is, from its `iat` on and until its `exp`. -/
structure Honest (lib : Libraries) : Prop where
  admits : ∀ secret username role start jti now, (truncate start : Rat) ≤ now →
    now < ((truncate start + sessionExpirySeconds : Int) : Rat) →
    lib.jwtDecode secret now (lib.jwtEncode secret (SessionManager.payload username role start jti)) =
      some (SessionManager.payload username role start jti)
  genuine : ∀ secret username role start jti now decoded,
    lib.jwtDecode secret now (lib.jwtEncode secret (SessionManager.payload username role start jti)) = some decoded →
    decoded = SessionManager.payload username role start jti ∧
      now < ((truncate start + sessionExpirySeconds : Int) : Rat)
  keyed : ∀ secret other username role start jti now, IsHex secret → IsHex other →
    (lib.jwtDecode other now (lib.jwtEncode secret (SessionManager.payload username role start jti))).isSome →
      other = secret
  named : ∀ secret payload, lib.jwtEncode secret payload ≠ ""

/-- The login succeeds for this user, with this token in its cookie. -/
def LogsIn (h : UserHandler) (dashboard : Dashboard) (draw : LoginDraw) (body : Option Json) (user : UserRecord)
    (token : String) : Prop :=
  (∃ password, dashboard.store.find? user.username = some user ∧
    verifyPassword h.lib password user.passwordHash = true) ∧
  (h.handleLogin dashboard.store dashboard.secret draw body).2 = some { value := token } ∧
  token = SessionManager.createSession ⟨h.lib, dashboard.secret⟩ user.username user.role draw.now draw.jti

/-- In the run a login has set the token for the user in a cookie, in the second given, and under the secret
that is still in force. -/
def Issued (h : UserHandler) (dashboard : Dashboard) (events : List UserEvent) (token : String) (user : UserRecord)
    (second : Int) : Prop :=
  ∃ pre draw body post, events = pre ++ .login draw body :: post ∧ truncate draw.now = second ∧
    LogsIn h (exec (Dashboard.step h) dashboard pre) draw body user token ∧
    (exec (Dashboard.step h) dashboard pre).secret = (exec (Dashboard.step h) dashboard events).secret

/-- A login of the run has set the cookie. -/
def SetByLogin (h : UserHandler) (dashboard : Dashboard) (events : List UserEvent) (token : String) : Prop :=
  ∃ pre draw body post cookie, events = pre ++ .login draw body :: post ∧
    (h.handleLogin (exec (Dashboard.step h) dashboard pre).store (exec (Dashboard.step h) dashboard pre).secret draw
      body).2 = some cookie ∧ cookie.value = token

/-- The secrets that the starts of a run have drawn. -/
def secretsOf (events : List UserEvent) : List String :=
  events.filterMap (fun e => match e with | .restart _ secret _ _ => some secret | _ => none)

section Login

variable {h : UserHandler} {dashboard : Dashboard} {draw : LoginDraw} {body : Option Json}

theorem authenticate_some {lib : Libraries} {store : UserStore} {username : String} {password : Json}
    {user : UserRecord}
    (ha : store.authenticate lib username password = some user) :
    store.find? user.username = some user ∧ verifyPassword lib password user.passwordHash = true := by
  unfold UserStore.authenticate at ha
  split at ha
  · cases ha
  · rename_i found hfound
    split at ha
    · rename_i hverified
      cases ha
      have hkey : user.username = username := Table.find_key hfound
      subst hkey
      exact ⟨hfound, hverified⟩
    · cases ha

/-- A cookie is set for a user whose password the request knows, with the token of a new session. -/
theorem login_sets {cookie : SessionCookie}
    (hc : (h.handleLogin dashboard.store dashboard.secret draw body).2 = some cookie) :
    ∃ user, LogsIn h dashboard draw body user cookie.value := by
  have hset := hc
  unfold UserHandler.handleLogin at hc
  split at hc
  · cases hc
  · dsimp only at hc
    split at hc
    · cases hc
    · split at hc
      · cases hc
      · split at hc
        · cases hc
        · rename_i user huser
          cases hc
          obtain ⟨hfound, hverified⟩ := authenticate_some huser
          exact ⟨user, ⟨_, hfound, hverified⟩, hset, rfl⟩
  · cases hc

theorem step_secret (h : UserHandler) (dashboard : Dashboard) (event : UserEvent) :
    (dashboard.step h event).secret ∈ dashboard.secret :: secretsOf [event] := by
  cases event with
  | login | logout => exact List.mem_cons_self
  | manage now cookie request =>
    unfold Dashboard.step
    dsimp only
    split <;> exact List.mem_cons_self
  | restart draw secret adminPassword generated =>
    refine List.mem_cons_of_mem _ (List.mem_singleton.mpr ?_)
    unfold Dashboard.step
    dsimp only
    split <;> rfl

/-- The secret in force is the first one, or one that was drawn. -/
theorem exec_secret (h : UserHandler) (dashboard : Dashboard) (events : List UserEvent) :
    (exec (Dashboard.step h) dashboard events).secret ∈ dashboard.secret :: secretsOf events := by
  induction events generalizing dashboard with
  | nil => exact List.mem_cons_self
  | cons event events ih =>
    rw [exec_cons, show event :: events = [event] ++ events from rfl, secretsOf, List.filterMap_append]
    rcases List.mem_cons.mp (ih (dashboard.step h event)) with hold | hdrawn
    · rw [hold]
      exact List.cons_subset_cons _ (List.subset_append_left _ _) (step_secret h dashboard event)
    · exact List.mem_cons_of_mem _ (List.mem_append_right _ hdrawn)

/-- The cookie that a login has set, where it is decoded, is one of a user whose password the login knew, and its secret
is still in force. -/
theorem SetByLogin.issued {events : List UserEvent} {token : String} {now : Rat} (honest : Honest h.lib)
    (hdrawn : ∀ secret ∈ dashboard.secret :: secretsOf events, IsHex secret)
    (hset : SetByLogin h dashboard events token)
    (hdecoded : (h.lib.jwtDecode (exec (Dashboard.step h) dashboard events).secret now token).isSome) :
    ∃ user second, Issued h dashboard events token user second := by
  obtain ⟨pre, draw, body, post, cookie, rfl, hcookie, rfl⟩ := hset
  obtain ⟨user, hlogs⟩ := login_sets hcookie
  have hsecrets : dashboard.secret :: secretsOf pre ⊆
      dashboard.secret :: secretsOf (pre ++ .login draw body :: post) := by
    rw [secretsOf, secretsOf, List.filterMap_append]
    exact List.cons_subset_cons _ (List.subset_append_left _ _)
  have hthen := hdrawn _ (hsecrets (exec_secret h dashboard pre))
  have hnow := hdrawn _ (exec_secret h dashboard (pre ++ .login draw body :: post))
  rw [hlogs.2.2] at hdecoded
  exact ⟨user, truncate draw.now, pre, draw, body, post, rfl, rfl, hlogs,
    (honest.keyed _ _ _ _ _ _ _ hthen hnow hdecoded).symm⟩

end Login

section Gate

variable {h : UserHandler} {now : Rat} {path cookie requiredRole : String}

@[simp] theorem type_payload (username role : String) (start : Rat) (jti : String) :
    (Json.field (SessionManager.payload username role start jti) "type").isWord ["user_session"] = true := rfl

@[simp] theorem ofPayload_payload (username role : String) (start : Rat) (jti : String) :
    Session.ofPayload (SessionManager.payload username role start jti) = ⟨username, role⟩ := rfl

/-- Behind a path that is not public, a request is let through under a session of a sufficient role. -/
theorem guarded_iff {manager : SessionManager} (hpath : isPublicPath path = false) {session : Session} :
    guarded manager true requiredRole now path cookie = .ok session ↔
      ∃ payload, manager.getSession now cookie = some payload ∧ Session.ofPayload payload = session ∧
        roleGe session.role requiredRole = true := by
  unfold guarded sessionMiddleware
  simp only [Bool.not_true, Bool.false_eq_true, if_false, hpath]
  cases hsession : manager.getSession now cookie with
  | none =>
    cases hapi : startsWith path "/api/" || startsWith path "/admin" <;> simp
  | some payload =>
    dsimp only [Option.map_some, requireRole]
    cases hrole : roleGe (Session.ofPayload payload).role requiredRole with
    | true =>
      simp only [if_true]
      constructor
      · intro hok
        cases hok
        exact ⟨payload, rfl, rfl, hrole⟩
      · rintro ⟨_, hp, rfl, _⟩
        cases hp
        rfl
    | false =>
      simp only [Bool.false_eq_true, if_false]
      constructor
      · intro hok
        cases hok
      · rintro ⟨_, hp, rfl, hge⟩
        cases hp
        rw [hrole] at hge
        cases hge

/-- What is let through has a cookie that is decoded. -/
theorem guarded_decodes {manager : SessionManager} (hpath : isPublicPath path = false) {session : Session}
    (hok : guarded manager true requiredRole now path cookie = .ok session) :
    (manager.lib.jwtDecode manager.secret now cookie).isSome := by
  obtain ⟨payload, hp, _⟩ := (guarded_iff hpath).mp hok
  simp only [SessionManager.getSession, SessionManager.verifySession] at hp
  split at hp
  · cases hp
  · split at hp
    · cases hp
    · rename_i hsome
      rw [hsome]
      rfl

/-- The answer of the gate to a token that a login has made. -/
theorem createSession_guarded (honest : Honest h.lib) (hpath : isPublicPath path = false) {dashboard : Dashboard}
    {draw : LoginDraw} {user : UserRecord} (hclock : (truncate draw.now : Rat) ≤ now) {session : Session} :
    guarded ⟨h.lib, dashboard.secret⟩ true requiredRole now path
      (SessionManager.createSession ⟨h.lib, dashboard.secret⟩ user.username user.role draw.now draw.jti) = .ok session ↔
      session = ⟨user.username, user.role⟩ ∧ now < ((truncate draw.now + sessionExpirySeconds : Int) : Rat) ∧
        roleGe user.role requiredRole = true := by
  have htype := type_payload user.username user.role draw.now draw.jti
  have hget : ∀ payload, SessionManager.getSession ⟨h.lib, dashboard.secret⟩ now
      (SessionManager.createSession ⟨h.lib, dashboard.secret⟩ user.username user.role draw.now draw.jti) =
        some payload ↔
      payload = SessionManager.payload user.username user.role draw.now draw.jti ∧
        now < ((truncate draw.now + sessionExpirySeconds : Int) : Rat) := by
    intro payload
    have hnamed : SessionManager.createSession ⟨h.lib, dashboard.secret⟩ user.username user.role draw.now draw.jti ≠
        "" := honest.named _ _
    rw [SessionManager.getSession, if_neg hnamed, SessionManager.verifySession, SessionManager.createSession]
    constructor
    · intro hsome
      split at hsome
      · cases hsome
      · rename_i decoded hdecode
        obtain ⟨rfl, hlt⟩ := honest.genuine _ _ _ _ _ _ _ hdecode
        rw [if_pos htype] at hsome
        cases hsome
        exact ⟨rfl, hlt⟩
    · rintro ⟨rfl, hlt⟩
      rw [honest.admits _ _ _ _ _ _ hclock hlt]
      exact if_pos htype
  rw [guarded_iff hpath]
  constructor
  · rintro ⟨payload, hp, rfl, hrole⟩
    obtain ⟨rfl, hlt⟩ := (hget payload).mp hp
    rw [ofPayload_payload] at hrole ⊢
    exact ⟨rfl, hlt, hrole⟩
  · rintro ⟨rfl, hlt, hrole⟩
    exact ⟨_, (hget _).mpr ⟨rfl, hlt⟩, ofPayload_payload _ _ _ _, hrole⟩

end Gate

/-- The clock readings of the logins of a run. -/
def loginTimes (events : List UserEvent) : List Rat :=
  events.filterMap (fun e => match e with | .login draw _ => some draw.now | _ => none)

theorem truncate_le {now : Rat} (h : 0 ≤ now) : (truncate now : Rat) ≤ now := by
  have hfloor : truncate now = ⌊now⌋ := by
    rw [truncate, Rat.floor_def', Int.tdiv_eq_ediv_of_nonneg (Rat.num_nonneg.mpr h)]
  rw [hfloor]
  exact Int.floor_le now

/-- The answer of the gate to a token that a login of the run has made. -/
theorem Issued.guarded_iff {h : UserHandler} (honest : Honest h.lib) {dashboard : Dashboard} {events : List UserEvent}
    {now : Rat} {path cookie requiredRole : String} (hpath : isPublicPath path = false)
    (hclock : ∀ t ∈ loginTimes events, 0 ≤ t ∧ t ≤ now) {user : UserRecord} {second : Int}
    (hi : Issued h dashboard events cookie user second) {session : Session} :
    guarded ⟨h.lib, (exec (Dashboard.step h) dashboard events).secret⟩ true requiredRole now path cookie =
      .ok session ↔ session = ⟨user.username, user.role⟩ ∧
        now < ((second + sessionExpirySeconds : Int) : Rat) ∧ roleGe user.role requiredRole = true := by
  obtain ⟨pre, draw, body, post, rfl, rfl, ⟨_, _, rfl⟩, hsecret⟩ := hi
  have htime : draw.now ∈ loginTimes (pre ++ .login draw body :: post) := by
    simp [loginTimes]
  obtain ⟨hnonneg, hle⟩ := hclock _ htime
  rw [← hsecret]
  exact createSession_guarded honest hpath (le_trans (truncate_le hnonneg) hle)

/-- A request gets past the gate to a handler behind a role exactly where its cookie has been set at a login of somebody
who had a sufficient role then, under the secret of the last start, and the hour from the second of the login is not
over. It is handled in that user's name. -/
theorem session_gate {h : UserHandler} (honest : Honest h.lib) (dashboard : Dashboard) (events : List UserEvent)
    {now : Rat} {path cookie requiredRole : String} (hpath : isPublicPath path = false)
    (hclock : ∀ t ∈ loginTimes events, 0 ≤ t ∧ t ≤ now)
    (hdrawn : ∀ secret ∈ dashboard.secret :: secretsOf events, IsHex secret)
    (hunforged : (h.lib.jwtDecode (exec (Dashboard.step h) dashboard events).secret now cookie).isSome →
      SetByLogin h dashboard events cookie) (session : Session) :
    guarded ⟨h.lib, (exec (Dashboard.step h) dashboard events).secret⟩ true requiredRole now path cookie =
      .ok session ↔
    ∃ user second, Issued h dashboard events cookie user second ∧ session = ⟨user.username, user.role⟩ ∧
      now < ((second + sessionExpirySeconds : Int) : Rat) ∧ roleGe user.role requiredRole = true := by
  constructor
  · intro hok
    have hdecoded := guarded_decodes hpath hok
    obtain ⟨user, second, hi⟩ := (hunforged hdecoded).issued honest hdrawn hdecoded
    exact ⟨user, second, hi, (hi.guarded_iff honest hpath hclock).mp hok⟩
  · rintro ⟨user, second, hi, hgate⟩
    exact (hi.guarded_iff honest hpath hclock).mpr hgate

section Samples

/-- A token that carries its secret in the clear. -/
def sampleToken (secret : String) (payload : Payload) : Json := .arr [.str secret, .obj payload]

def readSampleToken (secret : String) (now : Rat) : Json → Option Payload
  | .arr [.str used, .obj payload] =>
    match Json.field payload "iat", Json.field payload "exp" with
    | .int iat, .int exp => if used = secret ∧ (iat : Rat) ≤ now ∧ now < (exp : Rat) then some payload else none
    | _, _ => none
  | _ => none

/-- A password is its own hash. -/
def sampleLibraries : Libraries where
  jwtEncode secret payload := Json.dumps (sampleToken secret payload)
  jwtDecode secret now token := (Json.loads sampleCrypto.toPython token).bind (readSampleToken secret now)
  checkpw password passwordHash := some (password == passwordHash)

theorem payload_decoded (p : Python) (username role : String) (start : Rat) (jti : String) :
    (Json.obj (SessionManager.payload username role start jti)).Decoded p := by
  refine Json.every_obj.mpr ⟨?_, fun f hf => ?_⟩
  · change ((SessionManager.payload username role start jti).map Prod.fst).Nodup
    simp [SessionManager.payload]
  · simp only [SessionManager.payload, List.mem_cons, List.not_mem_nil, or_false] at hf
    rcases hf with rfl | rfl | rfl | rfl | rfl | rfl <;> simp [Json.Every, Json.decodedNode]

theorem sampleLibraries_decode (secret other username role : String) (start : Rat) (jti : String) (now : Rat) :
    sampleLibraries.jwtDecode other now
        (sampleLibraries.jwtEncode secret (SessionManager.payload username role start jti)) =
      if secret = other ∧ (truncate start : Rat) ≤ now ∧ now < ((truncate start + sessionExpirySeconds : Int) : Rat) then
        some (SessionManager.payload username role start jti) else none := by
  have hdecoded : (sampleToken secret (SessionManager.payload username role start jti)).Decoded
      sampleCrypto.toPython := by
    refine Json.every_arr.mpr ⟨trivial, fun v hv => ?_⟩
    simp only [List.mem_cons, List.not_mem_nil, or_false] at hv
    rcases hv with rfl | rfl
    · exact decoded_str _ _
    · exact payload_decoded _ _ _ _ _
  simp only [sampleLibraries, Json.loads_dumps hdecoded, Option.bind_some]
  have hiat : Json.field (SessionManager.payload username role start jti) "iat" = .int (truncate start) := rfl
  have hexp : Json.field (SessionManager.payload username role start jti) "exp" =
      .int (truncate start + sessionExpirySeconds) := rfl
  simp only [sampleToken, readSampleToken, hiat, hexp]

theorem sampleLibraries_honest : Honest sampleLibraries where
  admits secret username role start jti now hle hlt := by
    rw [sampleLibraries_decode, if_pos ⟨rfl, hle, hlt⟩]
  genuine secret username role start jti now decoded hdecode := by
    rw [sampleLibraries_decode] at hdecode
    split at hdecode
    · rename_i hwithin
      cases hdecode
      exact ⟨rfl, hwithin.2.2⟩
    · cases hdecode
  keyed secret other username role start jti now _ _ hdecode := by
    rw [sampleLibraries_decode] at hdecode
    split at hdecode
    · rename_i hwithin
      exact hwithin.1.symm
    · cases hdecode
  named secret payload := by
    intro hempty
    have hchars := congrArg String.toList hempty
    simp [sampleLibraries, sampleToken, Json.dumps, Json.render] at hchars

/-- The dashboard of an administrator, without bearer tokens. -/
def sampleHandler : UserHandler := ⟨sampleLibraries, sampleCrypto, none⟩

def sampleAdmin : UserRecord := ⟨"admin", "secret", "admin", 0, 0⟩

/-- A secret as it is drawn. -/
def sampleSecret : String := String.ofList (List.replicate 64 'a')

def sampleDashboard : Dashboard := ⟨⟨[sampleAdmin], by simp⟩, sampleSecret⟩

def signIn : UserEvent :=
  .login ⟨10, "s1", "b1"⟩ (some (.obj [("username", .str "admin"), ("password", .str "secret")]))

def sampleCookie : String := SessionManager.createSession ⟨sampleLibraries, sampleSecret⟩ "admin" "admin" 10 "s1"

theorem signIn_issued : Issued sampleHandler sampleDashboard [signIn] sampleCookie sampleAdmin 10 :=
  ⟨[], _, _, [], rfl, by decide, ⟨⟨.str "secret", rfl, rfl⟩, rfl, rfl⟩, rfl⟩

theorem signIn_drawn : ∀ secret ∈ sampleDashboard.secret :: secretsOf [signIn], IsHex secret := by
  intro secret hsecret
  obtain rfl := List.mem_singleton.mp hsecret
  refine ⟨String.length_ofList.trans List.length_replicate, fun c hc => ?_⟩
  change c ∈ (String.ofList (List.replicate 64 'a')).toList at hc
  rw [String.toList_ofList] at hc
  obtain rfl := List.eq_of_mem_replicate hc
  decide

theorem signIn_set : SetByLogin sampleHandler sampleDashboard [signIn] sampleCookie :=
  ⟨[], _, _, [], _, rfl, rfl, rfl⟩

theorem signIn_clock {now : Rat} (h : 10 ≤ now) : ∀ t ∈ loginTimes [signIn], 0 ≤ t ∧ t ≤ now := by
  intro t ht
  obtain rfl : t = 10 := by simpa [loginTimes, signIn] using ht
  exact ⟨by norm_num, h⟩

/-- Ten seconds after the login the administrator is let through. -/
theorem signIn_admitted : guarded ⟨sampleLibraries, sampleSecret⟩ true "admin" 20 "/admin/users" sampleCookie =
    .ok adminSession :=
  (session_gate sampleLibraries_honest sampleDashboard [signIn] (by decide) (signIn_clock (by norm_num)) signIn_drawn
    (fun _ => signIn_set) adminSession).mpr
    ⟨sampleAdmin, 10, signIn_issued, rfl, by norm_num [sessionExpirySeconds], by decide⟩

end Samples

section Users

theorem isPublicPath_admin {path : String} (h : startsWith path "/admin" = true) : isPublicPath path = false := by
  have hprefix : "/admin".toList <+: path.toList := List.isPrefixOf_iff_prefix.mp h
  rw [isPublicPath, Bool.or_eq_false_iff]
  constructor
  · have hnone : ∀ p ∈ publicPaths, startsWith p "/admin" = false := by decide
    by_contra hpublic
    rw [Bool.not_eq_false, List.contains_iff_mem] at hpublic
    rw [hnone path hpublic] at h
    cases h
  · rw [List.any_eq_false]
    intro p hp hstart
    -- Of two starts of one path the shorter is a start of the other.
    have hapart : ∀ p ∈ ["/health", "/.well-known/", "/auth/", "/assets/", "/v1/", "/v2/"],
        ¬ p.toList <+: "/admin".toList ∧ ¬ "/admin".toList <+: p.toList := by decide
    rcases List.prefix_or_prefix_of_prefix (List.isPrefixOf_iff_prefix.mp hstart) hprefix with hpre | hpre
    · exact (hapart p hp).1 hpre
    · exact (hapart p hp).2 hpre

theorem UserRequest.path_admin (request : UserRequest) : startsWith request.path "/admin" = true := by
  cases request with
  | create _ _ =>
    have hstart : startsWith "/admin/users" "/admin" = true := by decide
    exact hstart
  | update _ targetUsername _ | delete targetUsername =>
    rw [startsWith, UserRequest.path, String.toList_append, List.isPrefixOf_iff_prefix]
    exact ⟨"/users/".toList ++ targetUsername.toList, by simp⟩

theorem step_manage {h : UserHandler} {dashboard : Dashboard} {now : Rat} {cookie : String} {request : UserRequest}
    {session : Session}
    (hok : guarded ⟨h.lib, dashboard.secret⟩ true "admin" now request.path cookie = .ok session) :
    dashboard.step h (.manage now cookie request) =
      { dashboard with store := (handle dashboard.store session request).2 } := by
  rw [Dashboard.step, hok]

/-- What changes the users in a run is a start of the server, or a request under the cookie that a login of somebody who
was an admin then has set, under the secret of the last start, while the hour from the second of the login is not over;
it is handled in that user's name. -/
theorem users_guarded {h : UserHandler} (honest : Honest h.lib) (dashboard : Dashboard) (events : List UserEvent)
    (event : UserEvent) (hdrawn : ∀ secret ∈ dashboard.secret :: secretsOf events, IsHex secret)
    (hunforged : ∀ now cookie request, event = .manage now cookie request →
      (∀ t ∈ loginTimes events, 0 ≤ t ∧ t ≤ now) ∧
      ((h.lib.jwtDecode (exec (Dashboard.step h) dashboard events).secret now cookie).isSome →
        SetByLogin h dashboard events cookie))
    (hchanged : (exec (Dashboard.step h) dashboard (events ++ [event])).store ≠
      (exec (Dashboard.step h) dashboard events).store) :
    (∃ draw secret adminPassword generated, event = .restart draw secret adminPassword generated) ∨
      ∃ now cookie request user second, event = .manage now cookie request ∧
        Issued h dashboard events cookie user second ∧ user.role = "admin" ∧
        now < ((second + sessionExpirySeconds : Int) : Rat) ∧
        (exec (Dashboard.step h) dashboard (events ++ [event])).store =
          (handle (exec (Dashboard.step h) dashboard events).store ⟨user.username, "admin"⟩ request).2 := by
  rw [exec_append] at hchanged ⊢
  cases event with
  | login _ _ => exact absurd rfl hchanged
  | logout => exact absurd rfl hchanged
  | restart draw secret adminPassword generated => exact Or.inl ⟨draw, secret, adminPassword, generated, rfl⟩
  | manage now cookie request =>
    right
    obtain ⟨hclock, hforged⟩ := hunforged now cookie request rfl
    have hpath := isPublicPath_admin request.path_admin
    rw [exec_cons, exec_nil, Dashboard.step] at hchanged ⊢
    cases hgate : guarded ⟨h.lib, (exec (Dashboard.step h) dashboard events).secret⟩ true "admin" now request.path
        cookie with
    | error response =>
      rw [hgate] at hchanged
      exact absurd rfl hchanged
    | ok session =>
      have hdecoded := guarded_decodes hpath hgate
      obtain ⟨user, second, hi⟩ := (hforged hdecoded).issued honest hdrawn hdecoded
      obtain ⟨rfl, hlt, hrole⟩ := (hi.guarded_iff honest hpath hclock).mp hgate
      have hadmin := roleGe_admin.mp hrole
      rw [hadmin]
      exact ⟨now, cookie, request, user, second, rfl, hi, hadmin, hlt, rfl⟩

def addBob : UserRequest :=
  .create sampleDraw (some (.obj [("username", .str "bob"), ("password", .str "secret2"), ("role", .str "viewer")]))

theorem addBob_changes : (exec (Dashboard.step sampleHandler) sampleDashboard
    ([signIn] ++ [.manage 20 sampleCookie addBob])).store ≠
      (exec (Dashboard.step sampleHandler) sampleDashboard [signIn]).store := by
  have hgate : guarded ⟨sampleHandler.lib, (exec (Dashboard.step sampleHandler) sampleDashboard [signIn]).secret⟩ true
      "admin" 20 addBob.path sampleCookie = .ok adminSession :=
    (signIn_issued.guarded_iff sampleLibraries_honest (by decide) (signIn_clock (by norm_num))).mpr
      ⟨rfl, by norm_num [sessionExpirySeconds], by decide⟩
  rw [exec_append, exec_cons, exec_nil, step_manage hgate]
  intro hsame
  have hrows : (handle sampleDashboard.store adminSession addBob).2.rows =
      [sampleAdmin, ⟨"bob", "secret2", "viewer", 0, 0⟩] := by rfl
  have hlength := congrArg List.length (hrows.symm.trans (congrArg Table.rows hsame))
  cases hlength

/-- An administrator that has signed in adds a user. -/
theorem addBob_guarded : ∃ user second, Issued sampleHandler sampleDashboard [signIn] sampleCookie user second ∧
    user.role = "admin" := by
  rcases users_guarded sampleLibraries_honest sampleDashboard [signIn] (.manage 20 sampleCookie addBob) signIn_drawn (by
      rintro _ _ _ ⟨⟩
      exact ⟨signIn_clock (by norm_num), fun _ => signIn_set⟩) addBob_changes with
    ⟨_, _, _, _, hrestart⟩ | ⟨_, _, _, user, second, hevent, hi, hrole, _⟩
  · cases hrestart
  · cases hevent
    exact ⟨user, second, hi, hrole⟩

end Users

end A2ARegistry.Users
