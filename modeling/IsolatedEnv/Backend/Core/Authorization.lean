import IsolatedEnv.Backend.Core.Dependencies

/-!
# Access follows the groups, not the cached role

A request that carries a groups list has its role computed from that list on
each of the three ways its record is resolved, and it is the role just written
that `require_role` reads.  The role a table held before is therefore of no
consequence: two tables that agree up to roles grant the same requests.
-/

namespace IsolatedEnv.Backend

open IsolatedEnv.Foundation

/-- The row apart from its role and the `updated_at` a role write leaves. -/
def User.withoutRole (u : User) : User :=
  { u with role := .free, updatedAt := u.createdAt }

def SameButRoles (t₁ t₂ : UsersTable) : Prop :=
  t₁.rows.map User.withoutRole = t₂.rows.map User.withoutRole

/-- The token has a groups list, or it has no email and the userinfo has one. -/
def CarriesGroups (env : Env) (req : AuthRequest) : Prop :=
  (groupsClaim req.payload).isSome ∨
    req.tokenEmail env = "" ∧ ∃ data, fetchUserinfo req.userinfo = .ok data ∧
      (groupsClaim data).isSome

def Granted (env : Env) (roles : List UserRole) (req : AuthRequest)
    (tick : Tick) (t : UsersTable) : Prop :=
  ∃ user t', requireRole env roles req tick t = .ok (user, t')

variable {env : Env} {req : AuthRequest} {tick : Tick} {t t₁ t₂ : UsersTable}
  {roles : List UserRole}

theorem CarriesGroups.profile (h : CarriesGroups env req) {profile : Profile}
    (hprofile : req.profile env = .ok profile) :
    ∃ groups, profile.groups = some groups := by
  unfold AuthRequest.profile at hprofile
  dsimp only at hprofile
  split at hprofile
  · obtain ⟨userinfo, hfetch, hok⟩ := bind_eq_ok.mp hprofile
    obtain rfl := Except.ok.inj hok
    apply Option.isSome_iff_exists.mp
    rcases h with htoken | ⟨-, data, hdata, hsome⟩
    · simp [Option.isSome_or, htoken]
    · obtain rfl := Except.ok.inj (hfetch.symm.trans hdata)
      simp [Option.isSome_or, hsome]
  · rename_i hemail
    obtain rfl := Except.ok.inj hprofile
    rcases h with htoken | ⟨hnone, -⟩
    · exact Option.isSome_iff_exists.mp htoken
    · exact absurd hnone hemail

theorem granted_iff (hgroups : CarriesGroups env req) :
    Granted env roles req tick t ↔
      ∃ profile groups user t', req.profile env = .ok profile ∧
        profile.groups = some groups ∧
        resolveUser env t (req.providerId env) profile tick = .ok (user, t') ∧
        user.isActive = true ∧
        allowedRole roles (resolveRole env profile.email (some groups)) = true := by
  constructor
  · rintro ⟨user, t', h⟩
    obtain ⟨hcurrent, hrole⟩ := requireRole_eq_ok.mp h
    obtain ⟨hlookup, hactive⟩ := getCurrentDbUser_eq_ok.mp hcurrent
    obtain ⟨profile, hprofile, hresolve⟩ := bind_eq_ok.mp hlookup
    obtain ⟨groups, hsome⟩ := hgroups.profile hprofile
    have hrole_eq := (resolveUser_cases hresolve).role_eq hsome
    rw [hrole_eq] at hrole
    exact ⟨profile, groups, user, t', hprofile, hsome, hresolve, hactive, hrole⟩
  · rintro ⟨profile, groups, user, t', hprofile, hsome, hresolve, hactive, hrole⟩
    have hlookup : lookupUser env req tick t = .ok (user, t') :=
      bind_eq_ok.mpr ⟨profile, hprofile, hresolve⟩
    have hcurrent := getCurrentDbUser_eq_ok.mpr ⟨hlookup, hactive⟩
    rw [← (resolveUser_cases hresolve).role_eq hsome] at hrole
    exact ⟨user, t', requireRole_eq_ok.mpr ⟨hcurrent, hrole⟩⟩

/-! ## Resolving a record succeeds or fails without regard to roles -/

theorem Admissible.of_withoutRole {rows rows' : List User}
    (hrows : rows.map User.withoutRole = rows'.map User.withoutRole)
    (h : Admissible rows) : Admissible rows' := by
  have hkeys {α : Type} (key : User → α)
      (hkey : ∀ u : User, key u.withoutRole = key u) :
      rows'.map key = rows.map key := by
    have hmap (l : List User) : l.map key = (l.map User.withoutRole).map key := by
      rw [List.map_map]
      exact List.map_congr_left fun u _ => (hkey u).symm
    rw [hmap rows', ← hrows, ← hmap rows]
  constructor
  · intro u hu
    have hmem : u.withoutRole ∈ rows.map User.withoutRole :=
      hrows ▸ List.mem_map_of_mem hu
    obtain ⟨v, hv, hvu⟩ := List.mem_map.mp hmem
    have hfits : v.withoutRole.Fits := h.fits v hv
    rw [hvu] at hfits
    exact hfits
  · unfold Rows.UniqueKey
    rw [hkeys User.id fun _ => rfl]
    exact h.uniqueId
  · unfold Rows.UniqueKey
    rw [hkeys User.providerId fun _ => rfl]
    exact h.uniqueProviderId
  · unfold Rows.UniqueKey
    rw [hkeys User.email fun _ => rfl]
    exact h.uniqueEmail

theorem SameButRoles.symm (h : SameButRoles t₁ t₂) : SameButRoles t₂ t₁ :=
  Eq.symm h

theorem SameButRoles.find (h : SameButRoles t₁ t₂) {κ : Type} [DecidableEq κ]
    (key : User → κ) (hkey : ∀ u : User, key u.withoutRole = key u) (k : κ) :
    (Rows.find key k t₁.rows).map User.withoutRole =
      (Rows.find key k t₂.rows).map User.withoutRole := by
  have hmap := Rows.find_map hkey k
  rw [← hmap t₁.rows, ← hmap t₂.rows, h]

theorem SameButRoles.find_some (h : SameButRoles t₁ t₂) {κ : Type}
    [DecidableEq κ] (key : User → κ)
    (hkey : ∀ u : User, key u.withoutRole = key u) {k : κ} {u : User}
    (hfind : Rows.find key k t₁.rows = some u) :
    ∃ v, Rows.find key k t₂.rows = some v ∧ v.withoutRole = u.withoutRole := by
  have hsame := h.find key hkey k
  rw [hfind, Option.map_some] at hsame
  exact Option.map_eq_some_iff.mp hsame.symm

theorem SameButRoles.find_none (h : SameButRoles t₁ t₂) {κ : Type}
    [DecidableEq κ] (key : User → κ)
    (hkey : ∀ u : User, key u.withoutRole = key u) {k : κ}
    (hfind : Rows.find key k t₁.rows = none) :
    Rows.find key k t₂.rows = none := by
  have hsame := h.find key hkey k
  rw [hfind, Option.map_none] at hsame
  exact Option.map_eq_none_iff.mp hsame.symm

theorem map_withoutRole_replace (u : User) (rows : List User) :
    (Rows.replace User.id u rows).map User.withoutRole =
      Rows.replace User.id u.withoutRole (rows.map User.withoutRole) := by
  have hid (v : User) : v.withoutRole.id = v.id := rfl
  exact Rows.map_replace hid u rows

theorem SameButRoles.replace (h : SameButRoles t₁ t₂) {u v : User}
    (huv : u.withoutRole = v.withoutRole)
    (hadmissible : Admissible (Rows.replace User.id u t₁.rows)) :
    Admissible (Rows.replace User.id v t₂.rows) := by
  apply Admissible.of_withoutRole _ hadmissible
  rw [map_withoutRole_replace, map_withoutRole_replace, huv, h]

/-- A sync fails only on a constraint, whether or not it has to write. -/
theorem syncFromJwt_succeeds {user : User} (hmem : user ∈ t.rows)
    (email name : String) (role : UserRole) :
    (∃ p, t.syncFromJwt user email name role tick = .ok p) ↔
      Admissible (Rows.replace User.id
        { user with
          email := if UsersTable.differs email user.email then email else user.email
          name := if UsersTable.differs name user.name then name else user.name
          role := role
          updatedAt := tick.now } t.rows) := by
  have hsome : (t.getById user.id).isSome :=
    Option.isSome_iff_exists.mpr ⟨user, UsersTable.getById_eq_some.mpr ⟨hmem, rfl⟩⟩
  unfold UsersTable.syncFromJwt
  dsimp only
  split
  · exact UsersTable.save_succeeds _ hsome
  · rename_i hsame
    simp only [Bool.or_eq_true, not_or] at hsame
    constructor
    · intro _
      -- Nothing to write: the row in the table already is the synced one.
      apply t.admissible.of_withoutRole
      rw [map_withoutRole_replace]
      have huser : ({ user with
          email := if UsersTable.differs email user.email then email else user.email
          name := if UsersTable.differs name user.name then name else user.name
          role := role
          updatedAt := tick.now } : User).withoutRole = user.withoutRole := by
        simp [User.withoutRole, hsame.1.1, hsame.1.2]
      rw [huser, Rows.replace, List.map_map]
      apply List.map_congr_left
      intro u hu
      simp only [Function.comp_apply]
      split
      · rename_i hid
        rw [t.admissible.uniqueId.eq hu hmem hid]
      · rfl
    · intro _
      exact ⟨_, rfl⟩

theorem syncFromJwt_isActive {user row : User} {t' : UsersTable}
    {email name : String} {role : UserRole}
    (h : t.syncFromJwt user email name role tick = .ok (row, t')) :
    row.isActive = user.isActive := by
  rcases UsersTable.syncFromJwt_cases h with ⟨rfl, -, -⟩ | hsave
  · rfl
  · rw [(UsersTable.save_ok hsave).1]

theorem SameButRoles.resolveUser (h : SameButRoles t₁ t₂) {providerId : String}
    {profile : Profile} {user : User} {t' : UsersTable}
    (hresolve : resolveUser env t₁ providerId profile tick = .ok (user, t')) :
    ∃ user' t'', resolveUser env t₂ providerId profile tick = .ok (user', t'') ∧
      user'.isActive = user.isActive := by
  cases resolveUser_cases hresolve with
  | known u found synced =>
      obtain ⟨v, hv, huv⟩ := h.find_some User.providerId (fun _ => rfl) found
      have hmem := (UsersTable.getByProviderId_eq_some.mp found).1
      have hmem' := (UsersTable.getByProviderId_eq_some.mp hv).1
      have hok := (syncFromJwt_succeeds hmem _ _ _).mp ⟨_, synced⟩
      simp only [User.withoutRole, User.mk.injEq] at huv
      obtain ⟨hid, hprovider, hemail, hname, -, hactive, hchanged, hby, hcreated, -⟩ := huv
      obtain ⟨⟨user', t''⟩, hsync⟩ := (syncFromJwt_succeeds hmem' profile.email profile.name
        ((profile.groups.map fun groups =>
          resolveRole env profile.email (some groups)).getD v.role)).mpr
        (h.replace (by simp [User.withoutRole, hid, hprovider, hemail, hname, hactive,
          hchanged, hby, hcreated]) hok)
      refine ⟨user', t'', ?_, ?_⟩
      · unfold IsolatedEnv.Backend.resolveUser
        simp only [UsersTable.getByProviderId, hv]
        exact hsync
      · rw [syncFromJwt_isActive hsync, syncFromJwt_isActive synced, hactive]
  | linked u unknown hasEmail found saved =>
      obtain ⟨v, hv, huv⟩ := h.find_some User.email (fun _ => rfl) found
      have hnone := h.find_none User.providerId (fun _ => rfl) unknown
      have hsome : (t₁.getById u.id).isSome := Option.isSome_iff_exists.mpr
        ⟨u, UsersTable.getById_eq_some.mpr
          ⟨(UsersTable.getByEmail_eq_some.mp found).1, rfl⟩⟩
      have hsome' : (t₂.getById v.id).isSome := Option.isSome_iff_exists.mpr
        ⟨v, UsersTable.getById_eq_some.mpr
          ⟨(UsersTable.getByEmail_eq_some.mp hv).1, rfl⟩⟩
      have hok := (UsersTable.save_succeeds { u with
          providerId := providerId
          name := if profile.name ≠ "" then profile.name else u.name
          role := (profile.groups.map fun groups =>
            resolveRole env profile.email (some groups)).getD u.role }
        hsome).mp ⟨_, saved⟩
      simp only [User.withoutRole, User.mk.injEq] at huv
      obtain ⟨hid, hprovider, hemail, hname, -, hactive, hchanged, hby, hcreated, -⟩ := huv
      obtain ⟨⟨user', t''⟩, hsave⟩ := (UsersTable.save_succeeds { v with
          providerId := providerId
          name := if profile.name ≠ "" then profile.name else v.name
          role := (profile.groups.map fun groups =>
            resolveRole env profile.email (some groups)).getD v.role } hsome').mpr
        (h.replace (by simp [User.withoutRole, hid, hemail, hname, hactive,
          hchanged, hby, hcreated]) hok)
      refine ⟨user', t'', ?_, ?_⟩
      · unfold IsolatedEnv.Backend.resolveUser
        simp only [UsersTable.getByProviderId, hnone, if_pos hasEmail,
          UsersTable.getByEmail, hv]
        exact hsave
      · rw [(UsersTable.save_ok hsave).1, (UsersTable.save_ok saved).1]
        exact hactive
  | created unknown unlinked isNew inserted =>
      have hnone := h.find_none User.providerId (fun _ => rfl) unknown
      have hnew := UsersTable.insert_rows inserted
      obtain ⟨t'', hinsert⟩ : ∃ t'', t₂.insert user = .ok t'' := by
        have hadmissible : Admissible (t₂.rows ++ [user]) := by
          apply t'.admissible.of_withoutRole
          rw [hnew, List.map_append, List.map_append, h]
        exact ⟨⟨_, hadmissible⟩, dif_pos hadmissible⟩
      have hupsert : t₂.upsertFromProvider env providerId profile.email
          profile.name profile.groups tick = .ok (user, t'') := by
        unfold UsersTable.upsertFromProvider
        simp only [UsersTable.getByProviderId, hnone, ← isNew, hinsert]
        rfl
      refine ⟨user, t'', ?_, rfl⟩
      unfold IsolatedEnv.Backend.resolveUser
      simp only [UsersTable.getByProviderId, hnone]
      rcases unlinked with hempty | hother
      · rw [if_neg (not_not.mpr hempty)]
        exact hupsert
      · have hother' := h.find_none User.email (fun _ => rfl) hother
        split
        · simp only [UsersTable.getByEmail, hother']
          exact hupsert
        · exact hupsert

/-! ## The two-table statement -/

/--
Whoever has a groups list is let in according to it: the roles stored before
make no difference, and the role that counts is the one the groups resolve to.
-/
theorem access_follows_groups (hgroups : CarriesGroups env req) :
    (∀ t₁ t₂, SameButRoles t₁ t₂ →
      (Granted env roles req tick t₁ ↔ Granted env roles req tick t₂)) ∧
    ∀ t, Granted env roles req tick t ↔
      ∃ profile groups user t', req.profile env = .ok profile ∧
        profile.groups = some groups ∧
        resolveUser env t (req.providerId env) profile tick = .ok (user, t') ∧
        user.isActive = true ∧
        allowedRole roles (resolveRole env profile.email (some groups)) = true := by
  have hgranted (t₁ t₂ : UsersTable) (hsame : SameButRoles t₁ t₂)
      (h : Granted env roles req tick t₁) : Granted env roles req tick t₂ := by
    obtain ⟨profile, groups, user, t', hprofile, hsome, hresolve, hactive, hrole⟩ :=
      (granted_iff hgroups).mp h
    obtain ⟨user', t'', hresolve', hactive'⟩ := hsame.resolveUser hresolve
    exact (granted_iff hgroups).mpr ⟨profile, groups, user', t'', hprofile, hsome,
      hresolve', hactive'.trans hactive, hrole⟩
  constructor
  · intro t₁ t₂ hsame
    exact ⟨hgranted t₁ t₂ hsame, hgranted t₂ t₁ hsame.symm⟩
  · intro t
    exact granted_iff hgroups

/-- Alice's token names the group `admins`; the tables hold two other roles. -/
theorem access_follows_groups_alice :
    Granted exampleEnv [.admin] (exampleRequest "alice" ["admins"]) (exampleTick 2)
        ⟨[exampleUser 1 "alice" .free], by decide +kernel⟩ ∧
      Granted exampleEnv [.admin] (exampleRequest "alice" ["admins"])
        (exampleTick 2) ⟨[exampleUser 1 "alice" .paid], by decide +kernel⟩ := by
  have hgroups : CarriesGroups exampleEnv (exampleRequest "alice" ["admins"]) :=
    .inl (by decide +kernel)
  obtain ⟨hsame, hiff⟩ := @access_follows_groups exampleEnv _ (exampleTick 2)
    [.admin] hgroups
  have hfree : Granted exampleEnv [.admin] (exampleRequest "alice" ["admins"])
      (exampleTick 2) ⟨[exampleUser 1 "alice" .free], by decide +kernel⟩ :=
    (hiff _).mpr ⟨⟨"alice@example.com", "alice", some [.str "admins"]⟩, _,
      exampleUser 1 "alice" .admin,
      ⟨[exampleUser 1 "alice" .admin], by decide +kernel⟩,
      rfl, rfl, by decide +kernel, rfl, by decide +kernel⟩
  exact ⟨hfree, (hsame _ _ rfl).mp hfree⟩

end IsolatedEnv.Backend
