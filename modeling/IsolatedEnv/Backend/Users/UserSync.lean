import IsolatedEnv.Backend.Users.Provisioning

/-!
# What resolving a user leaves in the table

The dependency alone in its transaction: when it raises, the session rolls
back what was flushed before.
-/

namespace IsolatedEnv.Backend

open IsolatedEnv.Foundation

/-- The record that the lookups of a request find. -/
def storedUser (t : UsersTable) (providerId email : String) : Option User :=
  (t.getByProviderId providerId).or
    (if email = "" then none else t.getByEmail email)

variable {env : Env} {req : AuthRequest} {tick tick' : Tick} {t t' : UsersTable}
  {user : User} {providerId : String} {profile : Profile} {row : User}

namespace Resolution

/-- A resolution writes the record found, or else inserts a new one. -/
theorem stored_or_new (h : Resolution env t providerId profile tick row t') :
    (∃ old, storedUser t providerId profile.email = some old ∧ old ∈ t.rows ∧
        row.id = old.id ∧ row.isActive = old.isActive ∧ row.createdAt = old.createdAt ∧
        row.roleChangedAt = old.roleChangedAt ∧ row.roleChangedBy = old.roleChangedBy ∧
        t'.rows = Rows.replace User.id row t.rows) ∨
      (storedUser t providerId profile.email = none ∧ row.isActive = true ∧
        (∀ v ∈ t.rows, v.id ≠ row.id) ∧ t'.rows = t.rows ++ [row]) := by
  cases h with
  | known user found synced =>
      have hmem := (UsersTable.getByProviderId_eq_some.mp found).1
      refine .inl ⟨user, by simp [storedUser, found], hmem, ?_⟩
      rcases UsersTable.syncFromJwt_cases synced with ⟨rfl, -, rfl⟩ | hsave
      · exact ⟨rfl, rfl, rfl, rfl, rfl, (Rows.replace_self t'.admissible.uniqueId hmem).symm⟩
      · obtain ⟨hrow, hflush⟩ := UsersTable.save_ok hsave
        have hrows := (UsersTable.flush_ok hflush).2
        rw [hrow] at hrows ⊢
        exact ⟨rfl, rfl, rfl, rfl, rfl, hrows⟩
  | linked user unknown hasEmail found saved =>
      have hmem := (UsersTable.getByEmail_eq_some.mp found).1
      obtain ⟨hrow, hflush⟩ := UsersTable.save_ok saved
      have hrows := (UsersTable.flush_ok hflush).2
      refine .inl ⟨user, by simp [storedUser, unknown, hasEmail, found], hmem, ?_⟩
      rw [hrow] at hrows ⊢
      exact ⟨rfl, rfl, rfl, rfl, rfl, hrows⟩
  | created unknown unlinked isNew inserted =>
      have hnone : storedUser t providerId profile.email = none := by
        rcases unlinked with hempty | hunlinked
        · simp [storedUser, unknown, hempty]
        · simp [storedUser, unknown, hunlinked]
      exact .inr ⟨hnone, by rw [isNew]; rfl, UsersTable.insert_fresh inserted,
        UsersTable.insert_rows inserted⟩

end Resolution

/-! ## The effect of a resolution -/

namespace Resolution

/-- The stored email is the request's, unless the request has none. -/
theorem email_eq (h : Resolution env t providerId profile tick row t')
    (hemail : profile.email ≠ "" ∨ t.getByProviderId providerId = none) :
    row.email = profile.email := by
  cases h with
  | known user found synced =>
      have hne : profile.email ≠ "" := by
        rcases hemail with hne | hnone
        · exact hne
        · rw [found] at hnone
          cases hnone
      exact UsersTable.syncFromJwt_email synced hne
  | linked user unknown hasEmail found saved =>
      rw [(UsersTable.save_ok saved).1]
      exact (UsersTable.getByEmail_eq_some.mp found).2
  | created unknown unlinked isNew inserted => rw [isNew]; rfl

theorem email_kept (h : Resolution env t providerId profile tick row t')
    (hfound : t.getByProviderId providerId = some user) (hempty : profile.email = "") :
    row.email = user.email := by
  cases h with
  | known found hfound' synced =>
      rw [hfound] at hfound'
      cases hfound'
      rcases UsersTable.syncFromJwt_cases synced with ⟨rfl, -, -⟩ | hsave
      · rfl
      · rw [(UsersTable.save_ok hsave).1]
        simp [UsersTable.differs, hempty]
  | linked found unknown =>
      rw [hfound] at unknown
      cases unknown
  | created unknown =>
      rw [hfound] at unknown
      cases unknown

end Resolution

theorem resolveRole_eq_iff (env : Env) (email email' : String) (groups : List Json) :
    resolveRole env email (some groups) = resolveRole env email' (some groups) ↔
      inGroups "admins" groups = true ∨ inGroups "paid" groups = true ∨
        isAdminEmail env email = isAdminEmail env email' := by
  unfold resolveRole
  cases hadmins : inGroups "admins" groups <;> cases hpaid : inGroups "paid" groups <;>
    cases isAdminEmail env email <;> cases isAdminEmail env email' <;> simp [hadmins, hpaid]

/--
The stored role is that of the stored email and the groups, unless the request has
no email, the groups name no role, and the record of the subject has the administrator's
address.
-/
theorem role_matches_identity_iff {groups : List Json}
    (hcurrent : getCurrentDbUser env req tick t = .ok (user, t'))
    (hprofile : req.profile env = .ok profile) (hgroups : profile.groups = some groups) :
    user.role = resolveRole env user.email (some groups) ↔
      profile.email = "" → ∀ old, t.getByProviderId (req.providerId env) = some old →
        inGroups "admins" groups = true ∨ inGroups "paid" groups = true ∨
          isAdminEmail env "" = isAdminEmail env old.email := by
  obtain ⟨-, profile', hprofile', hresolution⟩ := getCurrentDbUser_cases hcurrent
  rw [hprofile] at hprofile'
  cases hprofile'
  rw [hresolution.role_eq hgroups]
  by_cases hempty : profile.email = ""
  · cases hfind : t.getByProviderId (req.providerId env) with
    | none => simp [hresolution.email_eq (.inr hfind)]
    | some old =>
        rw [hresolution.email_kept hfind hempty, hempty, resolveRole_eq_iff]
        simp
  · simp [hresolution.email_eq (.inl hempty), hempty]

theorem alices_role_matches :
    getCurrentDbUser exampleEnv (exampleRequest "alice" ["paid"]) (exampleTick 1) .empty =
        .ok (exampleUser 1 "alice" .paid, ⟨[exampleUser 1 "alice" .paid], by decide⟩) ∧
      (exampleUser 1 "alice" .paid).role =
        resolveRole exampleEnv (exampleUser 1 "alice" .paid).email (some [.str "paid"]) := by
  have hcurrent : getCurrentDbUser exampleEnv (exampleRequest "alice" ["paid"])
      (exampleTick 1) .empty =
        .ok (exampleUser 1 "alice" .paid, ⟨[exampleUser 1 "alice" .paid], by decide⟩) := rfl
  refine ⟨hcurrent, (role_matches_identity_iff hcurrent rfl rfl).mpr fun h => ?_⟩
  exact absurd h (by decide)

def rootEnv : Env :=
  { exampleEnv with settings := ⟨"root@example.com", "api-token"⟩ }

def rootsTable : UsersTable := ⟨[exampleUser 1 "root" .admin], by decide⟩

/-- A token with groups and without an email, while userinfo answers 500. -/
def rootWithoutEmail : AuthRequest where
  payload := [("sub", .str "root"), ("name", .str "root"), ("groups", .arr [.str "users"])]
  userinfo := .response ⟨500, none⟩

theorem failed_userinfo_demotes_admin :
    getCurrentDbUser rootEnv rootWithoutEmail (exampleTick 2) rootsTable =
        .ok (exampleUser 1 "root" .free, ⟨[exampleUser 1 "root" .free], by decide⟩) ∧
      rootWithoutEmail.profile rootEnv = .ok ⟨"", "root", some [.str "users"]⟩ ∧
      isAdminEmail rootEnv (exampleUser 1 "root" .free).email = true ∧
      resolveRole rootEnv (exampleUser 1 "root" .free).email (some [.str "users"]) ≠ .free := by
  refine ⟨?_, rfl, ?_, ?_⟩ <;> decide +kernel

/-! ## The same request again -/

/-- The claims of the request are what the record of its subject holds. -/
structure Current (env : Env) (t : UsersTable) (providerId : String) (profile : Profile)
    (user : User) : Prop where
  found : t.getByProviderId providerId = some user
  unchanged : UsersTable.syncChanges user profile.email profile.name
    ((profile.groups.map fun groups =>
      resolveRole env profile.email (some groups)).getD user.role) = false

namespace Current

theorem resolveUser (h : Current env t providerId profile user) (tick : Tick) :
    resolveUser env t providerId profile tick = .ok (user, t) := by
  simp only [Backend.resolveUser, h.found]
  exact UsersTable.syncFromJwt_unchanged h.unchanged

theorem getCurrentDbUser (h : Current env t (req.providerId env) profile user)
    (hprofile : req.profile env = .ok profile) (hactive : user.isActive = true) (tick : Tick) :
    getCurrentDbUser env req tick t = .ok (user, t) :=
  getCurrentDbUser_eq_ok.mpr ⟨bind_eq_ok.mpr ⟨profile, hprofile, h.resolveUser tick⟩, hactive⟩

end Current

/-- Each of the three ways leaves a record that the claims are current for. -/
theorem Resolution.current (h : Resolution env t providerId profile tick row t') :
    Current env t' providerId profile row := by
  refine ⟨UsersTable.getByProviderId_eq_some.mpr
    ⟨h.mem_iff.mpr (.inr rfl), h.providerId_eq⟩, ?_⟩
  cases h with
  | known user found synced =>
      have hrole := UsersTable.syncFromJwt_role synced
      have hcurrent := UsersTable.syncFromJwt_current synced
      rw [← hrole] at hcurrent
      cases hgroups : profile.groups with
      | none => simpa using hcurrent
      | some groups => simpa [hrole, hgroups] using hcurrent
  | linked user unknown hasEmail found saved =>
      have hemail := (UsersTable.getByEmail_eq_some.mp found).2
      rw [(UsersTable.save_ok saved).1]
      have hname : UsersTable.differs profile.name
          (if profile.name ≠ "" then profile.name else user.name) = false := by
        by_cases hempty : profile.name = "" <;> simp [UsersTable.differs, hempty]
      simp only [UsersTable.syncChanges, hname]
      cases profile.groups <;> simp [UsersTable.differs, hemail]
  | created unknown unlinked isNew inserted =>
      rw [isNew]
      cases profile.groups <;>
        simp [UsersTable.syncChanges, UsersTable.differs, UsersTable.newUser]

end IsolatedEnv.Backend
