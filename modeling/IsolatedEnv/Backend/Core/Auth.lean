import IsolatedEnv.Backend.Core.Dependencies

/-!
# `get_current_user` and the chain behind it

A bearer token is looked up in the JWKS and decoded, its subject resolved to a
record.  Each collaborator answers or fails in its own way; an exception that no
clause catches is answered with 500.
-/

namespace IsolatedEnv.Backend

open IsolatedEnv.Foundation

/--
`other` are the exceptions of PyJWT that are no `InvalidTokenError`, such as the
`PyJWKClientError` of a missing key or of a JWKS that cannot be fetched.
-/
inductive JwtError where
  | expiredSignature
  | invalidToken
  | other
  deriving DecidableEq, Repr

/-- A request with a bearer token, and what its collaborators make of it. -/
structure Authentication where
  token : String
  signingKey : Except JwtError Unit
  decoded : Except JwtError JsonObject
  userinfo : Reply
  database : Option DatabaseFailure

namespace Authentication

def validateJwt (call : Authentication) : Except JwtError JsonObject := do
  call.signingKey
  call.decoded

def getCurrentUser (call : Authentication) : Except Exc JsonObject :=
  match call.validateJwt with
  | .ok payload => .ok (JsonObject.set payload "_raw_token" (.str call.token))
  | .error .expiredSignature => .error (.http 401 "Token has expired")
  | .error .invalidToken => .error (.http 401 "Invalid or expired token")
  | .error .other => .error .pyjwt

/-- The `try` block of `get_current_db_user`, with a database that may fail. -/
def lookup (call : Authentication) (env : Env) (req : AuthRequest) (tick : Tick)
    (t : UsersTable) : Except Exc (User × UsersTable) := do
  let profile ← req.profile env
  match call.database with
  | some failure => .error failure.val
  | none => resolveUser env t (req.providerId env) profile tick

def getCurrentDbUser (call : Authentication) (env : Env) (req : AuthRequest)
    (tick : Tick) (t : UsersTable) : Except Exc (User × UsersTable) := do
  let (user, t') ← databaseUnavailable (call.lookup env req tick t)
  if user.isActive then .ok (user, t') else .error accountBlocked

/-- `get_current_user`, and `get_current_db_user` on what it returns. -/
def authenticate (call : Authentication) (env : Env) (tick : Tick) (t : UsersTable) :
    Except Exc (User × UsersTable) := do
  let payload ← call.getCurrentUser
  call.getCurrentDbUser env ⟨payload, call.userinfo⟩ tick t

/-- With a healthy database it is the dependency of the requests. -/
theorem getCurrentDbUser_healthy {call : Authentication} (h : call.database = none)
    (env : Env) (req : AuthRequest) (tick : Tick) (t : UsersTable) :
    call.getCurrentDbUser env req tick t =
      IsolatedEnv.Backend.getCurrentDbUser env req tick t := by
  simp only [getCurrentDbUser, lookup, h]
  rfl

end Authentication

/-! ## Where each exception comes from -/

namespace UsersTable

variable {env : Env} {t : UsersTable} {user : User} {tick : Tick} {e : Exc}

theorem write_error {rows : List User} (h : write rows = .error e) : e = .sqlalchemy := by
  unfold write at h
  split at h <;> cases h
  rfl

theorem save_error (h : t.save user tick = .error e) : e = .sqlalchemy := by
  have hflush := map_eq_error.mp h
  unfold flush at hflush
  split at hflush
  · exact write_error hflush
  · cases hflush
    rfl

theorem syncFromJwt_error {email name : String} {role : UserRole}
    (h : t.syncFromJwt user email name role tick = .error e) : e = .sqlalchemy := by
  unfold syncFromJwt at h
  dsimp only at h
  split at h
  · exact save_error h
  · cases h

theorem upsertFromProvider_error {providerId email name : String}
    {groups : Option (List Json)}
    (h : t.upsertFromProvider env providerId email name groups tick = .error e) :
    e = .sqlalchemy := by
  unfold upsertFromProvider at h
  dsimp only at h
  split at h
  · exact save_error h
  · exact write_error (map_eq_error.mp h)

end UsersTable

section Exceptions

variable {env : Env} {t : UsersTable} {tick : Tick} {e : Exc} {req : AuthRequest}
  {reply : Reply}

theorem resolveUser_error {providerId : String} {profile : Profile}
    (h : resolveUser env t providerId profile tick = .error e) : e = .sqlalchemy := by
  unfold resolveUser at h
  dsimp only at h
  split at h
  · exact UsersTable.syncFromJwt_error h
  · split at h
    · split at h
      · exact UsersTable.save_error h
      · exact UsersTable.upsertFromProvider_error h
    · exact UsersTable.upsertFromProvider_error h

/-- An answer, with a JSON body where its status is 200. -/
def Reply.usable : Reply → Bool
  | .response r => r.statusCode ≠ 200 || r.body.isSome
  | .networkError => false

/-- Nothing that has claims. -/
def Reply.fails : Reply → Bool
  | .response ⟨200, some (.obj _)⟩ => false
  | _ => true

theorem fetchUserinfo_usable (h : reply.usable = true) :
    ∃ data, fetchUserinfo reply = .ok data := by
  rcases reply with ⟨statusCode, body⟩ | _
  · simp only [fetchUserinfo, Reply.await, bind, Except.bind]
    split
    · rename_i hok
      cases body with
      | none => simp [Reply.usable, hok] at h
      | some json => cases json <;> exact ⟨_, rfl⟩
    · exact ⟨_, rfl⟩
  · cases h

theorem fetchUserinfo_unusable (h : reply.usable = false) :
    fetchUserinfo reply = .error .httpx ∨ fetchUserinfo reply = .error .value := by
  rcases reply with ⟨statusCode, body⟩ | _
  · simp only [Reply.usable, Bool.or_eq_false_iff, decide_eq_false_iff_not, ne_eq,
      not_not, Option.isSome_eq_false_iff, Option.isNone_iff_eq_none] at h
    obtain ⟨rfl, rfl⟩ := h
    exact .inr rfl
  · exact .inl rfl

theorem fetchUserinfo_fails (husable : reply.usable = true) (h : reply.fails = true) :
    fetchUserinfo reply = .ok [] := by
  rcases reply with ⟨statusCode, body⟩ | _
  · simp only [fetchUserinfo, Reply.await, bind, Except.bind]
    split
    · rename_i hok
      subst hok
      cases body with
      | none => simp [Reply.usable] at husable
      | some json => cases json <;> first | rfl | cases h
    · rfl
  · cases husable

theorem profile_of_email (hemail : req.tokenEmail env ≠ "") (reply : Reply) :
    req.profile env = AuthRequest.profile env ⟨req.payload, reply⟩ ∧
      ∃ profile, req.profile env = .ok profile := by
  unfold AuthRequest.profile
  have hsame : AuthRequest.tokenEmail env ⟨req.payload, reply⟩ = req.tokenEmail env := rfl
  rw [hsame, if_neg hemail, if_neg hemail]
  exact ⟨rfl, _, rfl⟩

theorem profile_of_userinfo (hemail : req.tokenEmail env = "") {data : JsonObject}
    (h : fetchUserinfo req.userinfo = .ok data) :
    req.profile env = .ok {
      email := textClaim env.python data "email" ""
      name := textClaim env.python data "name" (textClaim env.python req.payload "name" "")
      groups := (groupsClaim data).or (groupsClaim req.payload) } := by
  simp [AuthRequest.profile, hemail, h, bind, Except.bind]

theorem profile_error (hemail : req.tokenEmail env = "")
    (h : fetchUserinfo req.userinfo = .error e) : req.profile env = .error e := by
  simp [AuthRequest.profile, hemail, h, bind, Except.bind]

end Exceptions

/-! ## Failing closed -/

/-- An active user, or one of the three answers. -/
def Clean : Except Exc (User × UsersTable) → Prop
  | .ok (user, _) => user.isActive = true
  | .error e => ∃ status detail, e = .http status detail ∧
      (status = 401 ∨ status = 403 ∨ status = 503)

namespace Authentication

/-- The call with a userinfo endpoint that answers and has no claims. -/
def withoutClaims (call : Authentication) : Authentication :=
  { call with userinfo := .response ⟨200, some (.obj [])⟩ }

/--
A subject with a record that is resolved without claims from userinfo is resolved
when userinfo fails.
-/
def ToleratesUserinfo (call : Authentication) (env : Env) (tick : Tick) (t : UsersTable) :
    Prop :=
  ∀ payload user, call.getCurrentUser = .ok payload →
    t.getByProviderId (AuthRequest.providerId env ⟨payload, call.userinfo⟩) = some user →
    call.userinfo.fails = true → (∃ p, call.withoutClaims.authenticate env tick t = .ok p) →
      ∃ p, call.authenticate env tick t = .ok p

/--
PyJWT raises nothing but an `InvalidTokenError`, and userinfo, if it is asked, answers
with JSON.
-/
def Served (call : Authentication) (env : Env) : Prop :=
  call.validateJwt ≠ .error .other ∧
    ∀ payload, call.validateJwt = .ok payload →
      textClaim env.python payload "email" "" = "" → call.userinfo.usable = true

variable {call : Authentication} {env : Env} {tick : Tick} {t : UsersTable}
  {req : AuthRequest}

theorem getCurrentDbUser_clean (h : ∃ profile, req.profile env = .ok profile) :
    Clean (call.getCurrentDbUser env req tick t) := by
  obtain ⟨profile, hprofile⟩ := h
  have hdatabase : ∀ e, call.lookup env req tick t = .error e → e.isDatabase = true := by
    intro e he
    simp only [lookup, hprofile, bind, Except.bind] at he
    cases hfailure : call.database with
    | some failure =>
        rw [hfailure] at he
        cases he
        exact failure.property
    | none =>
        rw [hfailure] at he
        rw [resolveUser_error he]
        rfl
  unfold getCurrentDbUser
  cases hlookup : call.lookup env req tick t with
  | error e =>
      simp only [databaseUnavailable, hdatabase e hlookup, if_true, bind, Except.bind]
      exact ⟨503, _, rfl, .inr (.inr rfl)⟩
  | ok p =>
      obtain ⟨user, t'⟩ := p
      simp only [databaseUnavailable, bind, Except.bind]
      cases hactive : user.isActive with
      | true => exact hactive
      | false => exact ⟨403, _, rfl, .inr (.inl rfl)⟩

theorem getCurrentDbUser_congr {other : AuthRequest}
    (hprofile : req.profile env = other.profile env) (hpayload : req.payload = other.payload) :
    call.getCurrentDbUser env req tick t = call.getCurrentDbUser env other tick t := by
  have hproviderId : req.providerId env = other.providerId env := by
    simp only [AuthRequest.providerId, hpayload]
  simp only [getCurrentDbUser, lookup, hprofile, hproviderId]

theorem getCurrentDbUser_profile_error {e : Exc} (h : req.profile env = .error e)
    (he : e.isDatabase = false) : call.getCurrentDbUser env req tick t = .error e := by
  simp [getCurrentDbUser, lookup, h, databaseUnavailable, he, bind, Except.bind]

theorem getCurrentDbUser_clean_iff :
    Clean (call.getCurrentDbUser env req tick t) ↔
      (req.tokenEmail env = "" → req.userinfo.usable = true) := by
  constructor
  · intro hclean hemail
    by_contra hunusable
    have hunusable : req.userinfo.usable = false := eq_false_of_ne_true hunusable
    rcases fetchUserinfo_unusable hunusable with h | h
    · rw [getCurrentDbUser_profile_error (profile_error hemail h) rfl] at hclean
      obtain ⟨_, _, he, -⟩ := hclean
      cases he
    · rw [getCurrentDbUser_profile_error (profile_error hemail h) rfl] at hclean
      obtain ⟨_, _, he, -⟩ := hclean
      cases he
  · intro husable
    apply getCurrentDbUser_clean
    by_cases hemail : req.tokenEmail env = ""
    · obtain ⟨data, hdata⟩ := fetchUserinfo_usable (husable hemail)
      exact ⟨_, profile_of_userinfo hemail hdata⟩
    · exact (profile_of_email hemail req.userinfo).2

/-- A userinfo that fails is as good as one without claims. -/
theorem getCurrentDbUser_fails (husable : req.tokenEmail env = "" → req.userinfo.usable = true)
    (hfails : req.userinfo.fails = true) :
    call.getCurrentDbUser env req tick t =
      call.getCurrentDbUser env ⟨req.payload, .response ⟨200, some (.obj [])⟩⟩ tick t := by
  refine getCurrentDbUser_congr ?_ rfl
  by_cases hemail : req.tokenEmail env = ""
  · have hempty : AuthRequest.tokenEmail env
        ⟨req.payload, .response ⟨200, some (.obj [])⟩⟩ = "" := hemail
    rw [profile_of_userinfo hemail (fetchUserinfo_fails (husable hemail) hfails),
      profile_of_userinfo hempty rfl]
  · exact (profile_of_email hemail _).1

theorem tokenEmail_set {payload : JsonObject} {token : String} {reply : Reply} :
    AuthRequest.tokenEmail env ⟨JsonObject.set payload "_raw_token" (.str token), reply⟩ =
      textClaim env.python payload "email" "" := by
  simp only [AuthRequest.tokenEmail, textClaim]
  rw [JsonObject.get?_set_of_ne (by decide)]

/--
The chain answers with a user or one of three statuses, and bears a userinfo that
fails, exactly when nothing escapes from PyJWT or from reading userinfo.
-/
theorem fails_closed_iff (call : Authentication) (env : Env) (tick : Tick)
    (t : UsersTable) :
    Clean (call.authenticate env tick t) ∧ call.ToleratesUserinfo env tick t ↔
      call.Served env := by
  unfold ToleratesUserinfo Served authenticate getCurrentUser
  have hother : call.withoutClaims.validateJwt = call.validateJwt := rfl
  simp only [hother]
  cases hvalid : call.validateJwt with
  | error e =>
      cases e with
      | other =>
          simp only [bind, Except.bind, ne_eq, not_true_eq_false, false_and, iff_false]
          rintro ⟨⟨status, detail, he, -⟩, -⟩
          cases he
      | expiredSignature =>
          refine iff_of_true ⟨⟨401, _, rfl, .inl rfl⟩, ?_⟩ ⟨nofun, nofun⟩
          rintro payload user hpayload
          cases hpayload
      | invalidToken =>
          refine iff_of_true ⟨⟨401, _, rfl, .inl rfl⟩, ?_⟩ ⟨nofun, nofun⟩
          rintro payload user hpayload
          cases hpayload
  | ok payload =>
      constructor
      · rintro ⟨hclean, -⟩
        refine ⟨nofun, ?_⟩
        rintro _ ⟨⟩ hemail
        exact getCurrentDbUser_clean_iff.mp hclean (tokenEmail_set.trans hemail)
      · rintro ⟨-, husable⟩
        have husable' : AuthRequest.tokenEmail env
            ⟨JsonObject.set payload "_raw_token" (.str call.token), call.userinfo⟩ = "" →
              call.userinfo.usable = true :=
          fun hemail => husable payload rfl (tokenEmail_set.symm.trans hemail)
        refine ⟨getCurrentDbUser_clean_iff.mpr husable', ?_⟩
        rintro _ user - - hfails ⟨p, hp⟩
        exact ⟨p, (getCurrentDbUser_fails husable' hfails).trans hp⟩

/-! ## A key that the JWKS does not have, and a userinfo that cannot be reached -/

def unknownKey : Authentication where
  token := "token"
  signingKey := .error .other
  decoded := .ok []
  userinfo := .networkError
  database := none

/-- Carol has a record, and her token has no email. -/
def unreachableUserinfo : Authentication where
  token := "token"
  signingKey := .ok ()
  decoded := .ok [("sub", .str "carol")]
  userinfo := .networkError
  database := none

def carolsRecord : UsersTable := ⟨[exampleUser 3 "carol" .free], by decide⟩

theorem exceptions_escape :
    unknownKey.authenticate exampleEnv (exampleTick 2) carolsRecord = .error .pyjwt ∧
      unreachableUserinfo.authenticate exampleEnv (exampleTick 2) carolsRecord =
        .error .httpx ∧
      ¬Clean (unknownKey.authenticate exampleEnv (exampleTick 2) carolsRecord) ∧
      ¬unreachableUserinfo.ToleratesUserinfo exampleEnv (exampleTick 2) carolsRecord := by
  have hkey : unknownKey.authenticate exampleEnv (exampleTick 2) carolsRecord =
      .error .pyjwt := rfl
  have huserinfo : unreachableUserinfo.authenticate exampleEnv (exampleTick 2)
      carolsRecord = .error .httpx := by
    decide +kernel
  refine ⟨hkey, huserinfo, ?_, ?_⟩
  · rw [hkey]
    rintro ⟨_, _, he, -⟩
    cases he
  · intro h
    have hresolved : ∃ p, unreachableUserinfo.withoutClaims.authenticate exampleEnv
        (exampleTick 2) carolsRecord = .ok p :=
      isOk_iff.mp (by decide +kernel)
    obtain ⟨p, hp⟩ := h _ (exampleUser 3 "carol" .free) rfl (by decide +kernel)
      (by decide +kernel) hresolved
    rw [huserinfo] at hp
    cases hp

end Authentication

end IsolatedEnv.Backend
