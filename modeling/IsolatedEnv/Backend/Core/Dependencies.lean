import IsolatedEnv.Backend.Users.Repository

/-!
# `get_current_db_user` and `require_role`

An authenticated request is the decoded payload of its token together with
what the userinfo endpoint answers if it is asked.  The dependency runs inside
the request's transaction: its result carries the table to be committed, and
an exception carries none, so whatever was flushed before it is rolled back.
-/

namespace IsolatedEnv.Backend

open IsolatedEnv.Foundation

structure AuthRequest where
  payload : JsonObject
  userinfo : Reply

def fetchUserinfo (reply : Reply) : Except Exc JsonObject := do
  let r ← reply.await
  if r.statusCode = 200 then
    match ← r.json with
    | .obj data => .ok data
    | _ => .ok []
  else .ok []

/-- `list(raw_groups) if isinstance(raw_groups, list) else None`. -/
def groupsClaim (members : JsonObject) : Option (List Json) :=
  (JsonObject.get? members "groups").bind Json.elements?

/-- The claims the rest of the dependency works with. -/
structure Profile where
  email : String
  name : String
  groups : Option (List Json)

def AuthRequest.providerId (env : Env) (req : AuthRequest) : String :=
  textClaim env.python req.payload "sub" ""

def AuthRequest.tokenEmail (env : Env) (req : AuthRequest) : String :=
  textClaim env.python req.payload "email" ""

def AuthRequest.profile (env : Env) (req : AuthRequest) : Except Exc Profile :=
  let email := req.tokenEmail env
  let name := textClaim env.python req.payload "name" ""
  let groups := groupsClaim req.payload
  if email = "" then do
    let userinfo ← fetchUserinfo req.userinfo
    .ok {
      email := textClaim env.python userinfo "email" ""
      name := textClaim env.python userinfo "name" name
      groups := (groupsClaim userinfo).or groups }
  else .ok ⟨email, name, groups⟩

/-- The link of an existing record to a subject by its email. -/
def linkUser (t : UsersTable) (user : User) (providerId name : String)
    (jwtRole : Option UserRole) (tick : Tick) :
    Except Exc (User × UsersTable) :=
  t.save { user with
    providerId := providerId
    name := if name ≠ "" then name else user.name
    role := jwtRole.getD user.role } tick

/-- The record of a subject, found, linked or created. -/
def resolveUser (env : Env) (t : UsersTable) (providerId : String)
    (profile : Profile) (tick : Tick) : Except Exc (User × UsersTable) :=
  let jwtRole := profile.groups.map fun groups =>
    resolveRole env profile.email (some groups)
  match t.getByProviderId providerId with
  | some user =>
      t.syncFromJwt user profile.email profile.name (jwtRole.getD user.role) tick
  | none =>
      if profile.email ≠ "" then
        match t.getByEmail profile.email with
        | some user => linkUser t user providerId profile.name jwtRole tick
        | none =>
            t.upsertFromProvider env providerId profile.email profile.name
              profile.groups tick
      else
        t.upsertFromProvider env providerId profile.email profile.name
          profile.groups tick

/-- The `try` block. -/
def lookupUser (env : Env) (req : AuthRequest) (tick : Tick) (t : UsersTable) :
    Except Exc (User × UsersTable) := do
  let profile ← req.profile env
  resolveUser env t (req.providerId env) profile tick

def serviceUnavailable : Exc := .http 503 "User service temporarily unavailable"

def accountBlocked : Exc := .http 403 "Account is blocked"

/-- `except (sqlalchemy.exc.SQLAlchemyError, OSError)`. -/
def databaseUnavailable {α : Type} : Except Exc α → Except Exc α
  | .error e => .error (if e.isDatabase then serviceUnavailable else e)
  | .ok a => .ok a

def getCurrentDbUser (env : Env) (req : AuthRequest) (tick : Tick)
    (t : UsersTable) : Except Exc (User × UsersTable) := do
  let (user, t') ← databaseUnavailable (lookupUser env req tick t)
  if user.isActive then .ok (user, t') else .error accountBlocked

def insufficientPermissions : Exc := .http 403 "Insufficient permissions"

/-- `set(roles) | {UserRole.ADMIN}`. -/
def allowedRole (roles : List UserRole) (role : UserRole) : Bool :=
  role ∈ roles || role = .admin

/-- `require_role(*roles)`, with the dependency it rests on. -/
def requireRole (env : Env) (roles : List UserRole) (req : AuthRequest)
    (tick : Tick) (t : UsersTable) : Except Exc (User × UsersTable) := do
  let (user, t') ← getCurrentDbUser env req tick t
  if allowedRole roles user.role then .ok (user, t')
  else .error insufficientPermissions

/-! ## What the dependency can do -/

variable {env : Env} {req : AuthRequest} {tick : Tick} {t t' : UsersTable}
  {user : User}

theorem databaseUnavailable_eq_ok {α : Type} {x : Except Exc α} {a : α} :
    databaseUnavailable x = .ok a ↔ x = .ok a := by
  cases x <;> simp [databaseUnavailable]

theorem getCurrentDbUser_eq_ok :
    getCurrentDbUser env req tick t = .ok (user, t') ↔
      lookupUser env req tick t = .ok (user, t') ∧ user.isActive = true := by
  unfold getCurrentDbUser
  rw [bind_eq_ok]
  constructor
  · rintro ⟨⟨user', t''⟩, hlookup, hactive⟩
    rw [databaseUnavailable_eq_ok] at hlookup
    dsimp only at hactive
    split at hactive
    · rename_i hyes
      cases hactive
      exact ⟨hlookup, hyes⟩
    · cases hactive
  · rintro ⟨hlookup, hactive⟩
    exact ⟨(user, t'), databaseUnavailable_eq_ok.mpr hlookup, if_pos hactive⟩

theorem requireRole_eq_ok {roles : List UserRole} :
    requireRole env roles req tick t = .ok (user, t') ↔
      getCurrentDbUser env req tick t = .ok (user, t') ∧
        allowedRole roles user.role = true := by
  unfold requireRole
  rw [bind_eq_ok]
  constructor
  · rintro ⟨⟨user', t''⟩, hcurrent, hrole⟩
    dsimp only at hrole
    split at hrole
    · rename_i hyes
      cases hrole
      exact ⟨hcurrent, hyes⟩
    · cases hrole
  · rintro ⟨hcurrent, hrole⟩
    exact ⟨(user, t'), hcurrent, if_pos hrole⟩

/-- The three ways to resolve a subject to a record. -/
inductive Resolution (env : Env) (t : UsersTable) (providerId : String)
    (profile : Profile) (tick : Tick) (row : User) (t' : UsersTable) : Prop
  | known (user : User)
      (found : t.getByProviderId providerId = some user)
      (synced : t.syncFromJwt user profile.email profile.name
        ((profile.groups.map fun groups =>
          resolveRole env profile.email (some groups)).getD user.role) tick =
        .ok (row, t'))
  | linked (user : User)
      (unknown : t.getByProviderId providerId = none)
      (hasEmail : profile.email ≠ "")
      (found : t.getByEmail profile.email = some user)
      (saved : linkUser t user providerId profile.name
        (profile.groups.map fun groups =>
          resolveRole env profile.email (some groups)) tick = .ok (row, t'))
  | created
      (unknown : t.getByProviderId providerId = none)
      (unlinked : profile.email = "" ∨ t.getByEmail profile.email = none)
      (isNew : row = UsersTable.newUser providerId profile.email profile.name
        (resolveRole env profile.email profile.groups) tick)
      (inserted : t.insert row = .ok t')

theorem resolution_of_upsert {providerId : String} {profile : Profile}
    {row : User} (hunknown : t.getByProviderId providerId = none)
    (hunlinked : profile.email = "" ∨ t.getByEmail profile.email = none)
    (h : t.upsertFromProvider env providerId profile.email profile.name
      profile.groups tick = .ok (row, t')) :
    Resolution env t providerId profile tick row t' := by
  rcases UsersTable.upsertFromProvider_cases h with
    ⟨found, hfound, -⟩ | ⟨-, hnew, hinsert⟩
  · rw [hunknown] at hfound
    cases hfound
  · exact .created hunknown hunlinked hnew hinsert

theorem resolveUser_cases {providerId : String} {profile : Profile}
    {row : User}
    (h : resolveUser env t providerId profile tick = .ok (row, t')) :
    Resolution env t providerId profile tick row t' := by
  unfold resolveUser at h
  cases hfind : t.getByProviderId providerId with
  | some user =>
      simp only [hfind] at h
      exact .known user hfind h
  | none =>
      simp only [hfind] at h
      split at h
      · rename_i hemail
        cases hlink : t.getByEmail profile.email with
        | some user =>
            simp only [hlink] at h
            exact .linked user hfind hemail hlink h
        | none =>
            simp only [hlink] at h
            exact resolution_of_upsert hfind (.inr hlink) h
      · rename_i hemail
        exact resolution_of_upsert hfind (.inl (not_not.mp hemail)) h

/-- Everything a successful request has done to the table. -/
theorem getCurrentDbUser_cases
    (h : getCurrentDbUser env req tick t = .ok (user, t')) :
    user.isActive = true ∧ ∃ profile, req.profile env = .ok profile ∧
      Resolution env t (req.providerId env) profile tick user t' := by
  obtain ⟨hlookup, hactive⟩ := getCurrentDbUser_eq_ok.mp h
  obtain ⟨profile, hprofile, hresolve⟩ := bind_eq_ok.mp hlookup
  exact ⟨hactive, profile, hprofile, resolveUser_cases hresolve⟩

/-! ## What holds of the record resolved, whichever way it was -/

namespace Resolution

variable {providerId : String} {profile : Profile} {row : User}

theorem providerId_eq
    (h : Resolution env t providerId profile tick row t') :
    row.providerId = providerId := by
  cases h with
  | known user found synced =>
      have huser := (UsersTable.getByProviderId_eq_some.mp found).2
      rcases UsersTable.syncFromJwt_cases synced with ⟨rfl, -, -⟩ | hsave
      · exact huser
      · rw [(UsersTable.save_ok hsave).1]
        exact huser
  | linked user unknown hasEmail found saved =>
      rw [(UsersTable.save_ok saved).1]
  | created unknown unlinked isNew inserted => rw [isNew]; rfl

theorem role_eq {groups : List Json} (hgroups : profile.groups = some groups)
    (h : Resolution env t providerId profile tick row t') :
    row.role = resolveRole env profile.email (some groups) := by
  cases h with
  | known user found synced =>
      rw [UsersTable.syncFromJwt_role synced]
      simp [hgroups]
  | linked user unknown hasEmail found saved =>
      rw [(UsersTable.save_ok saved).1]
      simp [hgroups]
  | created unknown unlinked isNew inserted =>
      rw [isNew]
      simp [UsersTable.newUser, hgroups]

/-- Where the record comes from. -/
inductive Origin (t : UsersTable) (providerId email : String) (newId : Uuid) :
    Uuid → Prop
  | known (user : User) (mem : user ∈ t.rows) (owned : user.providerId = providerId) :
      Origin t providerId email newId user.id
  | linked (user : User) (unknown : t.getByProviderId providerId = none)
      (hasEmail : email ≠ "") (found : t.getByEmail email = some user) :
      Origin t providerId email newId user.id
  | created (fresh : ∀ user ∈ t.rows, user.id ≠ newId) :
      Origin t providerId email newId newId

theorem origin (h : Resolution env t providerId profile tick row t') :
    Origin t providerId profile.email tick.newId row.id := by
  cases h with
  | known user found synced =>
      obtain ⟨hmem, howned⟩ := UsersTable.getByProviderId_eq_some.mp found
      have hid : row.id = user.id := by
        rcases UsersTable.syncFromJwt_cases synced with ⟨rfl, -, -⟩ | hsave
        · rfl
        · rw [(UsersTable.save_ok hsave).1]
      rw [hid]
      exact .known user hmem howned
  | linked user unknown hasEmail found saved =>
      have hid : row.id = user.id := by rw [(UsersTable.save_ok saved).1]
      rw [hid]
      exact .linked user unknown hasEmail found
  | created unknown unlinked isNew inserted =>
      have hid : row.id = tick.newId := by rw [isNew, UsersTable.newUser]
      have hfresh := UsersTable.insert_fresh inserted
      rw [hid] at hfresh
      rw [hid]
      exact .created hfresh

/-- The record is in the table, and every other record is as it was. -/
theorem mem_iff (h : Resolution env t providerId profile tick row t')
    {v : User} : v ∈ t'.rows ↔ v ∈ t.rows ∧ v.id ≠ row.id ∨ v = row := by
  cases h with
  | known user found synced =>
      rcases UsersTable.syncFromJwt_cases synced with ⟨rfl, -, rfl⟩ | hsave
      · have hrow := (UsersTable.getByProviderId_eq_some.mp found).1
        constructor
        · intro hv
          by_cases hid : v.id = row.id
          · exact .inr (t'.admissible.uniqueId.eq hv hrow hid)
          · exact .inl ⟨hv, hid⟩
        · rintro (⟨hv, -⟩ | rfl)
          · exact hv
          · exact hrow
      · rw [UsersTable.mem_save hsave, (UsersTable.save_ok hsave).1]
  | linked user unknown hasEmail found saved =>
      rw [UsersTable.mem_save saved, (UsersTable.save_ok saved).1]
  | created unknown unlinked isNew inserted =>
      rw [UsersTable.mem_insert inserted]
      constructor
      · rintro (hv | hv)
        · exact .inl ⟨hv, UsersTable.insert_fresh inserted v hv⟩
        · exact .inr hv
      · rintro (⟨hv, -⟩ | hv)
        · exact .inl hv
        · exact .inr hv

end Resolution

theorem getCurrentDbUser_mem
    (h : getCurrentDbUser env req tick t = .ok (user, t')) : user ∈ t'.rows := by
  obtain ⟨-, profile, -, hresolution⟩ := getCurrentDbUser_cases h
  exact hresolution.mem_iff.mpr (.inr rfl)

/-! ## A small installation, for concrete requests -/

def exampleEnv : Env :=
  ⟨⟨"", "api-token"⟩, ⟨fun _ => "", String.toLower, fun _ => false⟩,
    String.toLower, fun text => text.toList.all fun c => 32 ≤ c.toNat ∧ c.toNat ≠ 127⟩

def exampleTime : Timestamp :=
  ⟨2025, 1, 1, 0, 0, 0, 0, by decide⟩

def exampleTick (newId : Uuid) : Tick :=
  ⟨exampleTime, newId⟩

/-- The stored record of a subject whose claims are `exampleRequest`'s. -/
def exampleUser (id : Uuid) (name : String) (role : UserRole) : User where
  id := id
  providerId := name
  email := name ++ "@example.com"
  name := name
  role := role
  isActive := true
  roleChangedAt := none
  roleChangedBy := none
  createdAt := exampleTime
  updatedAt := exampleTime

def exampleRequest (name : String) (groups : List String) : AuthRequest where
  payload := [("sub", .str name), ("email", .str (name ++ "@example.com")),
    ("name", .str name), ("groups", .arr (groups.map .str))]
  userinfo := .networkError

end IsolatedEnv.Backend
