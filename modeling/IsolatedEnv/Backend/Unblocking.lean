import IsolatedEnv.Backend.Blocking

/-!
# Who lifts a block

What every write to the records does to one that is not active: the resolution of
a subject never activates it, and of the routes only the unblocking by another
admin does.
-/

namespace IsolatedEnv.Backend

open IsolatedEnv.Foundation

/-! ## Writes to the table -/

namespace UsersTable

/-- The record is there and not active. -/
def Inactive (t : UsersTable) (id : Uuid) : Prop :=
  ∃ u ∈ t.rows, u.id = id ∧ u.isActive = false

variable {env : Env} {t t' : UsersTable} {id : Uuid} {user new row : User} {tick : Tick}

instance Inactive.decidable : Decidable (t.Inactive id) :=
  inferInstanceAs (Decidable (∃ _ ∈ _, _ ∧ _))

theorem Inactive.eq (h : t.Inactive id) (hmem : user ∈ t.rows) (hid : user.id = id) :
    user.isActive = false := by
  obtain ⟨u, hu, huid, hinactive⟩ := h
  rw [t.admissible.uniqueId.eq hmem hu (hid.trans huid.symm)]
  exact hinactive

theorem save_inactive (h : t.save new tick = .ok (row, t')) (hinactive : t.Inactive id)
    (hnew : new.id = id → new.isActive = false) : t'.Inactive id := by
  by_cases hid : new.id = id
  · have hrow : row = { new with updatedAt := tick.now } := (save_ok h).1
    refine ⟨row, (mem_save h).mpr (.inr rfl), ?_, ?_⟩
    · rw [hrow]
      exact hid
    · rw [hrow]
      exact hnew hid
  · obtain ⟨u, hu, rfl, hactive⟩ := hinactive
    exact ⟨u, (mem_save h).mpr (.inl ⟨hu, Ne.symm hid⟩), rfl, hactive⟩

theorem save_others_inactive (h : t.save new tick = .ok (row, t'))
    (hinactive : t.Inactive id) (hmem : user ∈ t.rows) (hid : new.id = user.id)
    (hactive : new.isActive = user.isActive) : t'.Inactive id :=
  save_inactive h hinactive fun hnew =>
    hactive.trans (hinactive.eq hmem (hid.symm.trans hnew))

theorem syncFromJwt_inactive {email name : String} {role : UserRole}
    (hinactive : t.Inactive id) (hmem : user ∈ t.rows)
    (h : t.syncFromJwt user email name role tick = .ok (row, t')) : t'.Inactive id := by
  rcases syncFromJwt_cases h with ⟨-, -, rfl⟩ | hsave
  · exact hinactive
  · exact save_others_inactive hsave hinactive hmem rfl rfl

theorem upsertFromProvider_inactive {providerId email name : String}
    {groups : Option (List Json)} (hinactive : t.Inactive id)
    (h : t.upsertFromProvider env providerId email name groups tick = .ok (row, t')) :
    t'.Inactive id := by
  rcases upsertFromProvider_cases h with ⟨found, hfound, hsave⟩ | ⟨-, -, hinsert⟩
  · have hmem := (getByProviderId_eq_some.mp hfound).1
    exact save_others_inactive hsave hinactive hmem rfl rfl
  · obtain ⟨u, hu, hid, hactive⟩ := hinactive
    exact ⟨u, (mem_insert hinsert).mpr (.inl hu), hid, hactive⟩

theorem updateRole_inactive {newRole : UserRole} {changedBy : String}
    (hinactive : t.Inactive id) (hmem : user ∈ t.rows)
    (h : t.updateRole user newRole changedBy tick = .ok (row, t')) : t'.Inactive id :=
  save_others_inactive h hinactive hmem rfl rfl

theorem setActive_inactive {isActive : Bool} {changedBy : String}
    (hinactive : t.Inactive id) (hother : user.id = id → isActive = false)
    (h : t.setActive user isActive changedBy tick = .ok (row, t')) : t'.Inactive id :=
  save_inactive h hinactive hother

theorem delete_inactive (hinactive : t.Inactive id) {other : Uuid} (hother : other ≠ id) :
    (t.delete other).Inactive id := by
  obtain ⟨u, hu, rfl, hactive⟩ := hinactive
  exact ⟨u, mem_delete.mpr ⟨hu, hother.symm⟩, rfl, hactive⟩

end UsersTable

/-! ## The resolution of a subject -/

section Resolve

variable {env : Env} {req : AuthRequest} {tick : Tick} {t t' : UsersTable} {id : Uuid}
  {user row r : User}

theorem resolveUser_inactive {providerId : String} {profile : Profile}
    (hinactive : t.Inactive id)
    (h : resolveUser env t providerId profile tick = .ok (row, t')) : t'.Inactive id := by
  unfold resolveUser at h
  cases hfind : t.getByProviderId providerId with
  | some user =>
      simp only [hfind] at h
      exact UsersTable.syncFromJwt_inactive hinactive
        (UsersTable.getByProviderId_eq_some.mp hfind).1 h
  | none =>
      simp only [hfind] at h
      split at h
      · cases hlink : t.getByEmail profile.email with
        | some user =>
            simp only [hlink] at h
            have hmem := (UsersTable.getByEmail_eq_some.mp hlink).1
            exact UsersTable.save_others_inactive h hinactive hmem rfl rfl
        | none =>
            simp only [hlink] at h
            exact UsersTable.upsertFromProvider_inactive hinactive h
      · exact UsersTable.upsertFromProvider_inactive hinactive h

/-- A record that is not active is given to nobody and stays as it is. -/
theorem getCurrentDbUser_spares (hr : r ∈ t.rows) (hinactive : r.isActive = false)
    (h : getCurrentDbUser env req tick t = .ok (user, t')) :
    user.id ≠ r.id ∧ r ∈ t'.rows := by
  obtain ⟨hlookup, hactive⟩ := getCurrentDbUser_eq_ok.mp h
  obtain ⟨profile, -, hresolve⟩ := bind_eq_ok.mp hlookup
  have hother : user.id ≠ r.id := by
    intro hid
    have hkept := resolveUser_inactive ⟨r, hr, rfl, hinactive⟩ hresolve
    rw [hkept.eq (getCurrentDbUser_mem h) hid] at hactive
    cases hactive
  exact ⟨hother, (resolveUser_cases hresolve).mem_iff.mpr (.inl ⟨hr, hother.symm⟩)⟩

end Resolve

/-! ## The routes -/

variable {env : Env} {request : Request} {app app' : App} {id : Uuid}

section Endpoint

variable {members : Memberships} {user : User} {db db' : Database}

/-- An endpoint leaves the block, deletes the record, or is told to unblock it. -/
theorem UserRoute.endpoint_inactive {route : UserRoute}
    {endpoint : User → Database → Outcome Answer} {finished : Finished Answer}
    (hinactive : db.users.Inactive id) (huser : user.id ≠ id)
    (hendpoint : route.endpoint env request members = some endpoint)
    (h : (endpoint user db).1 = .ok finished) (htables : finished.tables = some db') :
    db'.users.Inactive id ∨ db'.users.getById id = none ∨
      route = .blockUser (some (id, true)) := by
  cases route with
  | getMe | getRole | freeContent | paidContent =>
      cases hendpoint
      cases h
      cases htables
      exact .inl hinactive
  | deleteSelf =>
      cases hendpoint
      obtain ⟨inner, hinner, rfl⟩ := exists_ok h
      obtain ⟨users, husers, hfinished⟩ := bind_eq_ok.mp hinner
      obtain ⟨-, -, husers⟩ := bind_eq_ok.mp husers
      cases husers
      cases hfinished
      rw [record_users htables]
      exact .inl (UsersTable.delete_inactive hinactive huser)
  | listUsers params | listAuditLog params | listUsersV2 params =>
      obtain ⟨p, -, rfl⟩ := Option.map_eq_some_iff.mp hendpoint
      obtain ⟨page, -, rfl⟩ := exists_ok h
      cases htables
      exact .inl hinactive
  | changeRole params =>
      obtain ⟨p, -, rfl⟩ := Option.map_eq_some_iff.mp hendpoint
      obtain ⟨inner, hinner, rfl⟩ := exists_ok h
      obtain ⟨target, hfind, hstore⟩ := AdminRouter.changeRole_finished hinner
      obtain ⟨-, row, hupdate⟩ := AdminRouter.storeRole_saved hstore htables
      exact .inl (UsersTable.updateRole_inactive hinactive
        (UsersTable.getById_eq_some.mp hfind).1 hupdate)
  | blockUser params =>
      obtain ⟨⟨userId, isActive⟩, rfl, rfl⟩ := Option.map_eq_some_iff.mp hendpoint
      obtain ⟨inner, hinner, rfl⟩ := exists_ok h
      obtain ⟨target, row, hfind, -, hset⟩ := AdminRouter.blockUser_saved hinner htables
      have htarget := (UsersTable.getById_eq_some.mp hfind).2
      by_cases hlift : userId = id ∧ isActive = true
      · obtain ⟨rfl, rfl⟩ := hlift
        exact .inr (.inr rfl)
      · refine .inl (UsersTable.setActive_inactive hinactive (fun hid => ?_) hset)
        exact eq_false_of_ne_true fun hactive => hlift ⟨htarget.symm.trans hid, hactive⟩
  | resetPassword params =>
      obtain ⟨userId, -, rfl⟩ := Option.map_eq_some_iff.mp hendpoint
      obtain ⟨inner, hinner, rfl⟩ := exists_ok h
      obtain ⟨target, -, hinner⟩ := bind_eq_ok.mp hinner
      obtain ⟨-, -, hinner⟩ := bind_eq_ok.mp hinner
      cases hinner
      rw [record_users htables]
      exact .inl hinactive
  | deleteUser params =>
      obtain ⟨userId, -, rfl⟩ := Option.map_eq_some_iff.mp hendpoint
      obtain ⟨inner, hinner, rfl⟩ := exists_ok h
      obtain ⟨target, -, -, hdelete⟩ := AdminRouter.deleteUser_deleted hinner htables
      rw [hdelete]
      by_cases hid : target.id = id
      · refine .inr (.inl (Rows.find_eq_none.mpr fun u hu => ?_))
        exact hid ▸ (UsersTable.mem_delete.mp hu).2
      · exact .inl (UsersTable.delete_inactive hinactive hid)

end Endpoint

/-- An active admin other than the record's user has unblocked it. -/
def App.Reactivated (env : Env) (id : Uuid) (app : App) : App.Event → Prop
  | .request request route =>
      route = .user (.blockUser (some (id, true))) ∧
        (∃ answer, (app.serve env request route).1 = .ok answer) ∧
        ∃ admin users, requireRole env [.admin] request.auth request.tick app.db.users =
          .ok (admin, users) ∧ admin.isActive = true ∧ admin.role = .admin ∧ admin.id ≠ id
  | .expire _ => False

/-- The event unblocks the record or deletes it. -/
def App.Lifted (env : Env) (id : Uuid) (app : App) (event : App.Event) : Prop :=
  app.Reactivated env id event ∨
    ∃ app', app.step env event = some app' ∧ app'.db.users.getById id = none

/--
The record is given to nobody and not touched by the resolution of a request, and
the request of its own subject is refused.
-/
def App.KeptOut (env : Env) (id : Uuid) (app : App) : App.Event → Prop
  | .request request route => ∀ r ∈ app.db.users.rows, r.id = id →
      (∀ user users, getCurrentDbUser env request.auth request.tick app.db.users =
        .ok (user, users) → user.id ≠ id ∧ r ∈ users.rows) ∧
      (∀ e, getCurrentDbUser env request.auth request.tick app.db.users = .error e →
        ∀ userRoute, route = .user userRoute →
          (∃ e', (app.serve env request route).1 = .error e') ∧
            (app.serve env request route).2.db = app.db) ∧
      (request.auth.providerId env = r.providerId →
        ∃ e, getCurrentDbUser env request.auth request.tick app.db.users = .error e)
  | .expire _ => True

theorem keptOut (hinactive : app.db.users.Inactive id) (event : App.Event) :
    app.KeptOut env id event := by
  cases event with
  | expire key => trivial
  | request request route =>
      rintro r hr rfl
      have hblocked := hinactive.eq hr rfl
      refine ⟨fun user users h => getCurrentDbUser_spares hr hblocked h, ?_, ?_⟩
      · rintro e he userRoute rfl
        obtain ⟨e', he'⟩ : ∃ e', userRoute.serve env request app.db app.members =
            (.error e', app.members) := serve_user_unresolved userRoute ⟨e, he⟩
        have herror : (app.serve env request (.user userRoute)).1 = .error e' := by
          simp [App.serve, he', Except.map]
        exact ⟨⟨e', herror⟩, serve_error_db herror⟩
      · intro hsubject
        have hfind := UsersTable.getByProviderId_eq_some.mpr ⟨hr, hsubject.symm⟩
        exact getCurrentDbUser_blocked request.tick hfind hblocked

theorem allowedRole_admin {role : UserRole} (h : allowedRole [.admin] role = true) :
    role = .admin := by
  simpa [allowedRole] using h

theorem serve_inactive {route : UserRoute} (hinactive : app.db.users.Inactive id) :
    (app.serve env request (.user route)).2.db.users.Inactive id ∨
      app.Lifted env id (.request request (.user route)) := by
  cases hresult : (route.serve env request app.db app.members).1 with
  | error e =>
      left
      simpa [App.serve, hresult] using hinactive
  | ok finished =>
      have hdb : (app.serve env request (.user route)).2.db =
          finished.tables.getD app.db := by
        simp [App.serve, hresult, settle]
      cases htables : finished.tables with
      | none =>
          left
          rw [hdb, htables]
          exact hinactive
      | some db' =>
          obtain ⟨user, users, endpoint, hcurrent, hrole, hendpoint, hend⟩ :=
            UserRoute.serve_ok hresult
          obtain ⟨r, hr, rfl, hblocked⟩ := hinactive
          obtain ⟨hother, hkept⟩ := getCurrentDbUser_spares hr hblocked hcurrent
          have husers : (app.db.setUsers users).users.Inactive r.id :=
            ⟨r, hkept, rfl, hblocked⟩
          rw [hdb, htables]
          rcases UserRoute.endpoint_inactive husers hother hendpoint hend htables with
            h | h | rfl
          · exact .inl h
          · refine .inr (.inr ⟨_, rfl, ?_⟩)
            rw [hdb, htables]
            exact h
          · have hrequire := hrole .admin rfl
            refine .inr (.inl ⟨rfl, ⟨finished.value, by simp [App.serve, hresult, Except.map]⟩,
              user, users, hrequire, (getCurrentDbUser_eq_ok.mp hcurrent).2, ?_, hother⟩)
            exact allowedRole_admin (requireRole_eq_ok.mp hrequire).2

theorem step_inactive {event : App.Event} (hinactive : app.db.users.Inactive id)
    (hnot : ¬app.Lifted env id event) (hstep : app.step env event = some app') :
    app'.db.users.Inactive id := by
  cases event with
  | expire key =>
      cases hstep
      exact hinactive
  | request request route =>
      cases hstep
      cases route with
      | user route => exact (serve_inactive hinactive).resolve_right hnot
      | item route =>
          rw [serve_item_users route]
          exact hinactive

/-- A block stands, and keeps the record out of reach, until an admin lifts it. -/
theorem block_stands {events : List App.Event} (hinactive : app.db.users.Inactive id)
    (hnot : Along (App.step env) (fun app e => ¬app.Lifted env id e) app events) :
    Along (App.step env) (fun app e => app.db.users.Inactive id ∧ app.KeptOut env id e)
        app events ∧
      ∀ app', run (App.step env) app events = some app' → app'.db.users.Inactive id := by
  have hstep (s : App) (e : App.Event) (s' : App) (hs : s.db.users.Inactive id)
      (hnot : ¬s.Lifted env id e) (hrun : s.step env e = some s') :
      s'.db.users.Inactive id := step_inactive hs hnot hrun
  refine ⟨along_of_invariant hstep (fun s e hs _ => ⟨hs, keptOut hs e⟩) hinactive hnot, ?_⟩
  exact fun app' hrun => run_invariant_along hstep hinactive hnot hrun

/-! ## Bob comes back after the block -/

def bobBlocked : App := (run (App.step exampleEnv) App.start bobIsBlocked).getD .start

def bobReturns : App.Event := .request (exampleVisit bobsSub ["admins"] 4) (.user .getMe)

theorem bob_stays_blocked :
    Along (App.step exampleEnv)
        (fun app e => app.db.users.Inactive 2 ∧ app.KeptOut exampleEnv 2 e)
        bobBlocked [bobReturns] ∧
      ∀ app', run (App.step exampleEnv) bobBlocked [bobReturns] = some app' →
        app'.db.users.Inactive 2 := by
  have hthere : (bobBlocked.step exampleEnv bobReturns).all
      (fun app => (app.db.users.getById 2).isSome) = true := by
    decide +kernel
  refine block_stands (by decide +kernel) (along_cons_of ?_ rfl trivial)
  rintro (⟨hroute, -⟩ | ⟨app', hstep, hgone⟩)
  · cases hroute
  · rw [hstep] at hthere
    simp [hgone] at hthere

end IsolatedEnv.Backend
