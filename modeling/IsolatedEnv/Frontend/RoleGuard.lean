import IsolatedEnv.Backend.Footprint
import IsolatedEnv.Backend.Refusals
import IsolatedEnv.Backend.Users.UserSync

/-!
# What the pages show and what the API grants

The pages decide by the role that `/api/v1/user/me` answered, some time ago, and the API by
the role that the record has when it is asked.
-/

namespace IsolatedEnv.Frontend

open IsolatedEnv.Foundation IsolatedEnv.Backend

/-! ## `rbac.ts` and the hooks -/

def roleHierarchy : UserRole → Nat
  | .free => 1
  | .paid => 2
  | .admin => 3

def hasRole (userRole requiredRole : UserRole) : Bool :=
  roleHierarchy requiredRole ≤ roleHierarchy userRole

/-- `useRole`; without a user the role is `free`. -/
def useRole (user : Option UserResponse) : UserRole := (user.map UserResponse.role).getD .free

/-- The children of a `RoleGuard`, or an entry of the sidebar, once the user is loaded. -/
def roleGuardAllows (roles : List UserRole) (user : Option UserResponse) : Bool :=
  roles.any fun role => hasRole (useRole user) role

/-- `useSession`, by the groups of the token. -/
def deriveRole : Option (List String) → UserRole
  | none => .free
  | some groups =>
      if "admins" ∈ groups then .admin else if "paid" ∈ groups then .paid else .free

/-! ## The two orders of roles -/

theorem allowedRole_eq_hasRole {role : UserRole} (hrole : role ≠ .free) (userRole : UserRole) :
    allowedRole [role] userRole = hasRole userRole role := by
  cases role with
  | free => exact absurd rfl hrole
  | paid | admin => cases userRole <;> decide

theorem gate_ne_free {route : UserRoute} {role : UserRole} (h : route.gate = some role) :
    role ≠ .free := by
  rintro rfl
  cases route <;> cases h

/-- The role of the token is that of the record, but for the email of the first admin. -/
theorem deriveRole_resolveRole (env : Env) (email : String) (groups : List String) :
    resolveRole env email (some (groups.map .str)) =
      if deriveRole (some groups) = .free ∧ isAdminEmail env email = true then .admin
      else deriveRole (some groups) := by
  have hin (name : String) : inGroups name (groups.map .str) = true ↔ name ∈ groups := by
    rw [inGroups_eq_true]
    simp
  unfold resolveRole deriveRole
  simp only [Option.getD_some, hin]
  by_cases hadmins : "admins" ∈ groups
  · simp [hadmins]
  · by_cases hpaid : "paid" ∈ groups
    · simp [hadmins, hpaid]
    · simp [hadmins, hpaid]

/-! ## While the account is left alone -/

/--
A request of the same credentials that does not delete the account, or one that does not
concern the account.
-/
def LeavesRole (env : Env) (auth : AuthRequest) (id : Uuid) (app : App) : App.Event → Prop
  | .request request (.user route) =>
      request.auth = auth ∧ route ≠ .deleteSelf ∨
        ¬app.Concerns env id (.request request (.user route))
  | _ => True

variable {env : Env} {app app' : App} {auth : AuthRequest} {profile : Profile} {user : User}
  {request : Request} {route : UserRoute}

/-- The credentials of a user whose record they are current for. -/
structure SignedIn (env : Env) (app : App) (auth : AuthRequest) (user : User) : Prop where
  active : user.isActive = true
  stored : app.db.users.getById user.id = some user
  current : ∃ profile, auth.profile env = .ok profile ∧
    Current env app.db.users (auth.providerId env) profile user

theorem SignedIn.getCurrentDbUser (h : SignedIn env app auth user) (tick : Tick) :
    getCurrentDbUser env auth tick app.db.users = .ok (user, app.db.users) := by
  obtain ⟨profile, hprofile, hcurrent⟩ := h.current
  exact hcurrent.getCurrentDbUser hprofile h.active tick

theorem SignedIn.of_getById (h : SignedIn env app auth user)
    (hstored : app'.db.users.getById user.id = app.db.users.getById user.id) :
    SignedIn env app' auth user := by
  obtain ⟨profile, hprofile, hcurrent⟩ := h.current
  have hstored' : app'.db.users.getById user.id = some user := hstored.trans h.stored
  refine ⟨h.active, hstored', profile, hprofile, ?_, hcurrent.unchanged⟩
  exact UsersTable.getByProviderId_eq_some.mpr
    ⟨(UsersTable.getById_eq_some.mp hstored').1,
      (UsersTable.getByProviderId_eq_some.mp hcurrent.found).2⟩

theorem SignedIn.serve (h : SignedIn env app request.auth user) (hself : route ≠ .deleteSelf) :
    SignedIn env (app.serve env request (.user route)).2 request.auth user := by
  refine h.of_getById ?_
  cases app.served env request route with
  | nothing same => rw [same]
  | done acting users current gate effect =>
      cases current.symm.trans (h.getCurrentDbUser request.tick)
      exact effect.getById_self hself

theorem SignedIn.step {event : App.Event} (h : SignedIn env app auth user)
    (hleaves : LeavesRole env auth user.id app event) (hstep : app.step env event = some app') :
    SignedIn env app' auth user := by
  cases event with
  | expire key =>
      cases hstep
      exact h.of_getById rfl
  | request request route =>
      cases route with
      | item route =>
          cases hstep
          refine h.of_getById ?_
          rw [(serve_item_same route).1]
      | user route =>
          rcases hleaves with ⟨rfl, hself⟩ | hother
          · cases hstep
            exact h.serve hself
          · exact h.of_getById (congrArg Account.record (step_account hother hstep))

/-! ## What the API answers -/

theorem serve_getMe {info : UserResponse}
    (h : (app.serve env request (.user .getMe)).1 = .ok (.me info)) :
    ∃ user, info = user.response ∧
      SignedIn env (app.serve env request (.user .getMe)).2 request.auth user := by
  obtain ⟨finished, hfinished, hvalue⟩ := exists_ok
    (show ((UserRoute.getMe.serve env request app.db app.members).1.map Finished.value) =
      .ok (.me info) from h)
  obtain ⟨user, users, endpoint, hcurrent, -, hendpoint, hend⟩ := UserRoute.serve_ok hfinished
  cases hendpoint
  cases hend
  cases hvalue
  obtain ⟨hactive, profile, hprofile, hresolution⟩ := getCurrentDbUser_cases hcurrent
  have husers : (app.serve env request (.user .getMe)).2.db.users = users := by
    simp [App.serve, hfinished, settle]
  refine ⟨user, rfl, hactive, ?_, profile, hprofile, ?_⟩
  · rw [husers]
    exact UsersTable.getById_eq_some.mpr ⟨hresolution.mem_iff.mpr (.inr rfl), rfl⟩
  · rw [husers]
    exact hresolution.current

theorem SignedIn.serve_iff (h : SignedIn env app request.auth user) {role : UserRole}
    (hgate : route.gate = some role) :
    (roleGuardAllows [role] (some user.response) = true →
        NotRefused (app.serve env request (.user route)).1) ∧
      (roleGuardAllows [role] (some user.response) = false →
        (app.serve env request (.user route)).1 = .error insufficientPermissions) := by
  have hcurrent := h.getCurrentDbUser request.tick
  have hguard : roleGuardAllows [role] (some user.response) = allowedRole [role] user.role := by
    rw [allowedRole_eq_hasRole (gate_ne_free hgate)]
    simp [roleGuardAllows, useRole, User.response]
  rw [hguard]
  constructor
  · intro hallowed
    exact serve_granted_notRefused hgate (requireRole_eq_ok.mpr ⟨hcurrent, hallowed⟩)
  · intro hdenied
    have hrequire : requireRole env [role] request.auth request.tick app.db.users =
        .error insufficientPermissions := by
      rw [requireRole, hcurrent]
      exact if_neg (by simp [hdenied])
    have hserve : route.serve env request app.db app.members =
        (.error insufficientPermissions, app.members) := by
      simp [UserRoute.serve, hgate, asRole, guarded, hrequire]
    simp [App.serve, hserve, Except.map]

/--
After `/api/v1/user/me` has answered, and for as long as nothing but further requests of the same
credentials concerns the account, a guard shows its children exactly when the API does not refuse
the routes behind that role.
-/
theorem guards_agree_with_api (env : Env) (app app' : App) (visit later : Request)
    (info : UserResponse) (events : List App.Event)
    (hme : (app.serve env visit (.user .getMe)).1 = .ok (.me info))
    (hrun : run (App.step env) (app.serve env visit (.user .getMe)).2 events = some app')
    (hleaves : Along (App.step env) (LeavesRole env visit.auth info.id)
      (app.serve env visit (.user .getMe)).2 events)
    (hauth : later.auth = visit.auth) (route : UserRoute) (role : UserRole)
    (hgate : route.gate = some role) :
    (roleGuardAllows [role] (some info) = true →
        NotRefused (app'.serve env later (.user route)).1) ∧
      (roleGuardAllows [role] (some info) = false →
        (app'.serve env later (.user route)).1 = .error insufficientPermissions) := by
  obtain ⟨user, rfl, hsigned⟩ := serve_getMe hme
  have hstep (s : App) (e : App.Event) (s' : App) (hs : SignedIn env s visit.auth user)
      (he : LeavesRole env visit.auth user.id s e) (hstep : s.step env e = some s') :
      SignedIn env s' visit.auth user := hs.step he hstep
  have hsigned' : SignedIn env app' visit.auth user :=
    run_invariant_along hstep hsigned hleaves hrun
  rw [← hauth] at hsigned'
  exact hsigned'.serve_iff hgate

/-! ## Bob, who has paid, while Alice is there too -/

def bobLoadsPage : Request := exampleVisit bobsSub ["paid"] 2

/-- The application after Bob's page has asked for the user. -/
def pageLoaded : App := (App.start.serve exampleEnv bobLoadsPage (.user .getMe)).2

def aliceVisits : Request := exampleVisit "alice" ["admins"] 1

def meanwhile : List App.Event :=
  [.request (exampleVisit bobsSub ["paid"] 3) (.user .freeContent),
    .request aliceVisits (.user .getMe)]

def afterwards : App := (run (App.step exampleEnv) pageLoaded meanwhile).getD pageLoaded

def bobsInfo : UserResponse :=
  (UsersTable.newUser bobsSub (bobsSub ++ "@example.com") bobsSub .paid (exampleTick 2)).response

theorem bobs_page_agrees :
    (∀ e, (afterwards.serve exampleEnv bobLoadsPage (.user .paidContent)).1 = .error e →
        ¬e.Refuses) ∧
      (afterwards.serve exampleEnv bobLoadsPage (.user (.listUsers none))).1 =
        .error insufficientPermissions := by
  have hme : (App.start.serve exampleEnv bobLoadsPage (.user .getMe)).1 = .ok (.me bobsInfo) := rfl
  have hother : ¬App.Concerns exampleEnv 2
      (pageLoaded.serve exampleEnv (exampleVisit bobsSub ["paid"] 3) (.user .freeContent)).2
      (.request aliceVisits (.user .getMe)) := by
    rintro ⟨-, acting, users, hcurrent, hconcerns⟩
    have halice : (getCurrentDbUser exampleEnv aliceVisits.auth aliceVisits.tick
        (pageLoaded.serve exampleEnv (exampleVisit bobsSub ["paid"] 3)
          (.user .freeContent)).2.db.users).map (fun p => p.1.id) = .ok 1 := by
      decide +kernel
    rw [hcurrent] at halice
    have hacting : acting.id = 2 := hconcerns.elim id fun h => nomatch h.2
    cases hacting.symm.trans (Except.ok.inj halice)
  have hleaves : Along (App.step exampleEnv) (LeavesRole exampleEnv bobLoadsPage.auth 2)
      pageLoaded meanwhile :=
    along_cons_of (.inl ⟨rfl, nofun⟩) rfl (along_cons_of (.inr hother) rfl trivial)
  have hagrees {route : UserRoute} {role : UserRole} (hgate : route.gate = some role) :=
    guards_agree_with_api exampleEnv .start afterwards bobLoadsPage bobLoadsPage bobsInfo
      meanwhile hme rfl hleaves rfl route role hgate
  exact ⟨(hagrees rfl).1 (by decide), (hagrees rfl).2 (by decide)⟩

end IsolatedEnv.Frontend
