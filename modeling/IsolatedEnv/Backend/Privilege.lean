import IsolatedEnv.Backend.Effects
import IsolatedEnv.Backend.Unblocking

/-!
# Where privileges come from

A role enters the records through a token that presents it, or by the hand of an admin
who is there already.  So below the admin role nothing grows from within.
-/

namespace IsolatedEnv.Backend

open IsolatedEnv.Foundation

def User.UpTo (bound : UserRole) (u : User) : Prop := u.role.privilege ≤ bound.privilege

def UsersTable.UpTo (bound : UserRole) (t : UsersTable) : Prop := ∀ u ∈ t.rows, u.UpTo bound

instance (bound : UserRole) (t : UsersTable) : Decidable (t.UpTo bound) :=
  inferInstanceAs (Decidable (∀ u ∈ t.rows, u.role.privilege ≤ bound.privilege))

/-- The role that the token, with what userinfo adds to it, stands for. -/
def AuthRequest.presented (env : Env) (req : AuthRequest) : Option UserRole :=
  (req.profile env).toOption.map fun profile => resolveRole env profile.email profile.groups

/-- No request to a route behind a record presents more than the bound. -/
def App.PresentsUpTo (env : Env) (bound : UserRole) : App.Event → Prop
  | .request request (.user _) =>
      ∀ role, request.auth.presented env = some role → role.privilege ≤ bound.privilege
  | _ => True

/-- A route that asks for more than the bound refuses, and Authentik hears nothing. -/
def App.RefusesAbove (env : Env) (bound : UserRole) (app : App) : App.Event → Prop
  | .request request (.user route) => ∀ role, route.gate = some role →
      bound.privilege < role.privilege → app.Refused env request (.user route) ∧
        (app.serve env request (.user route)).2.members = app.members
  | _ => True

variable {env : Env} {request : Request} {req : AuthRequest} {tick : Tick} {app app' : App}
  {db db' : Database} {t t' : UsersTable} {acting : User} {bound : UserRole}
  {route : UserRoute}

/-! ## The resolution -/

theorem Resolution.role_origin {providerId : String} {profile : Profile} {row : User}
    (h : Resolution env t providerId profile tick row t') :
    row.role = resolveRole env profile.email profile.groups ∨
      ∃ user ∈ t.rows, row.role = user.role := by
  cases hgroups : profile.groups with
  | some groups => exact .inl (h.role_eq hgroups)
  | none =>
      cases h with
      | known user found synced =>
          refine .inr ⟨user, (UsersTable.getByProviderId_eq_some.mp found).1, ?_⟩
          rw [UsersTable.syncFromJwt_role synced, hgroups]
          rfl
      | linked user unknown hasEmail found saved =>
          refine .inr ⟨user, (UsersTable.getByEmail_eq_some.mp found).1, ?_⟩
          rw [(UsersTable.save_ok saved).1, hgroups]
          rfl
      | created unknown unlinked isNew inserted =>
          rw [isNew, ← hgroups]
          exact .inl rfl

theorem getCurrentDbUser_upTo
    (hpresented : ∀ role, req.presented env = some role → role.privilege ≤ bound.privilege)
    (hbefore : t.UpTo bound) (h : getCurrentDbUser env req tick t = .ok (acting, t')) :
    t'.UpTo bound := by
  obtain ⟨-, profile, hprofile, hresolution⟩ := getCurrentDbUser_cases h
  intro v hv
  rcases hresolution.mem_iff.mp hv with ⟨hmem, -⟩ | rfl
  · exact hbefore v hmem
  · unfold User.UpTo
    rcases hresolution.role_origin with hrole | ⟨user, hmem, hrole⟩
    · rw [hrole]
      refine hpresented _ ?_
      simp [AuthRequest.presented, hprofile, Except.toOption]
    · rw [hrole]
      exact hbefore user hmem

/-! ## The gates -/

theorem allowedRole_reaches {role held : UserRole} (h : allowedRole [role] held = true) :
    role.privilege ≤ held.privilege := by
  cases role <;> cases held <;> first | decide | simp [allowedRole] at h

/-- Nobody in a table up to the bound passes a gate above it. -/
theorem requireRole_above {role : UserRole} (tick : Tick)
    (hpresented : ∀ role, req.presented env = some role → role.privilege ≤ bound.privilege)
    (hbefore : t.UpTo bound) (habove : bound.privilege < role.privilege) :
    ∃ e, requireRole env [role] req tick t = .error e := by
  cases hrequire : requireRole env [role] req tick t with
  | error e => exact ⟨e, rfl⟩
  | ok p =>
      obtain ⟨hcurrent, hallowed⟩ := requireRole_eq_ok.mp hrequire
      have hheld := getCurrentDbUser_upTo hpresented hbefore hcurrent _
        (getCurrentDbUser_mem hcurrent)
      exact absurd (Nat.lt_of_lt_of_le habove (allowedRole_reaches hallowed))
        (Nat.not_lt.mpr hheld)

theorem refusesAbove (event : App.Event) (hbefore : app.db.users.UpTo bound)
    (hpresented : App.PresentsUpTo env bound event) : app.RefusesAbove env bound event := by
  cases event with
  | expire key => trivial
  | request request route =>
      cases route with
      | item route => trivial
      | user route =>
          intro role hgate habove
          obtain ⟨e, he⟩ := requireRole_above request.tick hpresented hbefore habove
          have hserve : route.serve env request app.db app.members = (.error e, app.members) := by
            simp [UserRoute.serve, hgate, asRole, guarded, he]
          simp [App.Refused, App.serve, hserve, Except.map]

/-! ## Runs -/

/-- The only change that asks for no role is the deletion of one's own record. -/
theorem Change.gate_or_self (h : Change t acting tick route t') :
    route.gate = some .admin ∨ t' = t.delete acting.id := by
  cases h with
  | deleteSelf => exact .inr rfl
  | _ => exact .inl rfl

theorem Effect.upTo (h : Effect env request acting db route db')
    (hgate : route.gate ≠ some .admin) (hbefore : db.users.UpTo bound) :
    db'.users.UpTo bound := by
  cases h with
  | read unaudited => exact hbefore
  | wrote entry change due users_eq items_eq log_eq =>
      rw [users_eq, change.gate_or_self.resolve_left hgate]
      exact fun u hu => hbefore u (UsersTable.mem_delete.mp hu).1

theorem step_upTo {event : App.Event} (hbound : bound.privilege < UserRole.admin.privilege)
    (hbefore : app.db.users.UpTo bound) (hpresented : App.PresentsUpTo env bound event)
    (hstep : app.step env event = some app') : app'.db.users.UpTo bound := by
  cases event with
  | expire key =>
      cases hstep
      exact hbefore
  | request request route =>
      cases hstep
      cases route with
      | item route =>
          rw [serve_item_users route]
          exact hbefore
      | user route =>
          cases app.served env request route with
          | nothing same => exact same ▸ hbefore
          | done acting users current gate effect =>
              refine effect.upTo (fun hgate => ?_)
                (getCurrentDbUser_upTo hpresented hbefore current)
              obtain ⟨e, he⟩ := requireRole_above request.tick hpresented hbefore hbound
              cases he.symm.trans (gate .admin hgate)

/--
As long as no token presents more than a bound below the admin role, no record holds more,
and every route that asks for more refuses.
-/
theorem privilege_comes_from_tokens (env : Env) (bound : UserRole)
    (hbound : bound.privilege < UserRole.admin.privilege) (app : App) (events : List App.Event)
    (hstart : app.db.users.UpTo bound)
    (hpresented : ∀ event ∈ events, App.PresentsUpTo env bound event) :
    Along (App.step env) (fun app event => app.db.users.UpTo bound ∧
        app.RefusesAbove env bound event) app events ∧
      ∀ app', run (App.step env) app events = some app' → app'.db.users.UpTo bound := by
  have hstep (s : App) (e : App.Event) (s' : App) (hs : s.db.users.UpTo bound)
      (he : App.PresentsUpTo env bound e) (hrun : s.step env e = some s') :
      s'.db.users.UpTo bound := step_upTo hbound hs he hrun
  have halong := along_of_forall (App.step env) hpresented app
  refine ⟨along_of_invariant hstep (fun s e hs he => ⟨hs, refusesAbove e hs he⟩) hstart halong,
    fun app' hrun => run_invariant_along hstep hstart halong hrun⟩

/-! ## Bob, who has paid, makes himself an admin -/

def bobPromotesHimself : List App.Event :=
  [.request (exampleVisit bobsSub ["paid"] 2) (.user .getMe),
    .request (exampleVisit bobsSub ["paid"] 3) (.user (.changeRole (some (2, .admin)))),
    .request (exampleVisit bobsSub [] 4) (.user .paidContent)]

theorem bob_stays_below :
    Along (App.step exampleEnv) (fun app event => app.db.users.UpTo .paid ∧
        app.RefusesAbove exampleEnv .paid event) App.start bobPromotesHimself ∧
      ∀ app', run (App.step exampleEnv) App.start bobPromotesHimself = some app' →
        app'.db.users.UpTo .paid := by
  have hpresents {request : Request} {route : UserRoute}
      (h : (request.auth.presented exampleEnv).all
        (fun role => role.privilege ≤ UserRole.paid.privilege) = true) :
      App.PresentsUpTo exampleEnv .paid (.request request (.user route)) :=
    fun role hrole => of_decide_eq_true ((hrole ▸ h :))
  refine privilege_comes_from_tokens exampleEnv .paid (by decide) _ _ (by decide) ?_
  simp only [bobPromotesHimself, List.forall_mem_cons]
  exact ⟨hpresents (by decide +kernel), hpresents (by decide +kernel),
    hpresents (by decide +kernel), List.forall_mem_nil _⟩

end IsolatedEnv.Backend
