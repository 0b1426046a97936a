import IsolatedEnv.Backend.Audit.Trail

/-!
# What one request does to the tables

Said once for all routes: a request that is answered with a success reads, or it writes
one record together with one audit entry.
-/

namespace IsolatedEnv.Backend

open IsolatedEnv.Foundation

namespace Database

variable {db db' : Database}

theorem setUsers_self (db : Database) : db.setUsers db.users = db := by
  have hitems : (db.items.filter fun i => Owned db.users i) = db.items :=
    List.filter_eq_self.mpr fun i hi => decide_eq_true (db.consistent.itemOwned i hi)
  cases db
  simp only [setUsers, mk.injEq, true_and, and_true]
  exact hitems

theorem insertAudit_items {entry : AuditLog} (h : db.insertAudit entry = .ok db') :
    db'.items = db.items := by
  unfold insertAudit at h
  split at h
  · cases h
    rfl
  · cases h

end Database

theorem record_ok {db db' : Database} {failure : Option DatabaseFailure} {entry : AuditLog}
    (h : record db failure entry = some db') :
    db'.users = db.users ∧ db'.items = db.items ∧ db'.auditLog = db.auditLog ++ [entry] := by
  have hinsert := (record_eq_some.mp h).2
  obtain ⟨husers, hlog⟩ := Database.insertAudit_ok hinsert
  exact ⟨husers, Database.insertAudit_items hinsert, hlog⟩

/-- The records before and after an audited route of the acting user. -/
inductive Change (t : UsersTable) (acting : User) (tick : Tick) :
    UserRoute → UsersTable → Prop
  | role (target row : User) (newRole : UserRole) (t' : UsersTable)
      (mem : target ∈ t.rows) (other : acting.id ≠ target.id)
      (saved : t.updateRole target newRole acting.providerId tick = .ok (row, t')) :
      Change t acting tick (.changeRole (some (target.id, newRole))) t'
  | active (target row : User) (isActive : Bool) (t' : UsersTable)
      (mem : target ∈ t.rows) (other : acting.id ≠ target.id)
      (saved : t.setActive target isActive acting.providerId tick = .ok (row, t')) :
      Change t acting tick (.blockUser (some (target.id, isActive))) t'
  | password (target : User) (mem : target ∈ t.rows) :
      Change t acting tick (.resetPassword (some target.id)) t
  | delete (target : User) (mem : target ∈ t.rows) (other : acting.id ≠ target.id) :
      Change t acting tick (.deleteUser (some target.id)) (t.delete target.id)
  | deleteSelf : Change t acting tick .deleteSelf (t.delete acting.id)

/-- The tables before and after an endpoint that succeeds. -/
inductive Effect (env : Env) (request : Request) (acting : User) (db : Database) :
    UserRoute → Database → Prop
  | read {route : UserRoute} (unaudited : route.audited = false) :
      Effect env request acting db route db
  | wrote {route : UserRoute} {users : UsersTable} {db' : Database} (entry : AuditLog)
      (change : Change db.users acting request.tick route users)
      (due : route.fact db.users acting = some entry.fact)
      (users_eq : db'.users = users) (items_eq : db'.items = (db.setUsers users).items)
      (log_eq : db'.auditLog = db.auditLog ++ [entry]) :
      Effect env request acting db route db'

variable {env : Env} {request : Request} {db db' : Database} {members : Memberships}
  {acting : User} {users : UsersTable} {entry : AuditLog}

theorem Mutation.perform_change {m : Mutation}
    (h : m.perform env request db.users acting = .ok (users, entry)) :
    Change db.users acting request.tick m.route users := by
  cases m with
  | changeRole userId newRole =>
      obtain ⟨target, hget, h⟩ := bind_eq_ok.mp h
      obtain ⟨⟨row, users'⟩, hchange, h⟩ := bind_eq_ok.mp h
      cases h
      obtain ⟨hmem, rfl⟩ := UsersTable.getById_eq_some.mp
        (UserService.getUserById_eq_ok.mp hget)
      unfold UserService.changeRole at hchange
      split at hchange
      · cases hchange
      · rename_i hother
        exact .role target row newRole _ hmem hother hchange
  | blockUser userId isActive =>
      obtain ⟨⟨row, users'⟩, hset, h⟩ := bind_eq_ok.mp h
      cases h
      unfold UserService.setActive at hset
      split at hset
      · cases hset
      · rename_i hother
        obtain ⟨target, hget, hsave⟩ := bind_eq_ok.mp hset
        obtain ⟨hmem, rfl⟩ := UsersTable.getById_eq_some.mp
          (UserService.getUserById_eq_ok.mp hget)
        exact .active target row isActive _ hmem hother hsave
  | deleteUser userId =>
      obtain ⟨target, hget, h⟩ := bind_eq_ok.mp h
      obtain ⟨users', hdelete, h⟩ := bind_eq_ok.mp h
      cases h
      obtain ⟨hmem, rfl⟩ := UsersTable.getById_eq_some.mp
        (UserService.getUserById_eq_ok.mp hget)
      unfold UserService.deleteUser at hdelete
      split at hdelete
      · cases hdelete
      · rename_i hother
        obtain ⟨found, hfound, hdelete⟩ := bind_eq_ok.mp hdelete
        cases hdelete
        rw [hget] at hfound
        cases hfound
        exact .delete target hmem hother
  | deleteSelf =>
      cases h
      exact .deleteSelf

theorem Mutation.effect {m : Mutation}
    (hperform : m.perform env request db.users acting = .ok (users, entry))
    (hrecord : record (db.setUsers users) request.auditFailure entry = some db') :
    Effect env request acting db m.route db' := by
  obtain ⟨husers, hitems, hlog⟩ := record_ok hrecord
  exact .wrote entry (m.perform_change hperform) (m.perform_fact hperform).1 husers hitems hlog

theorem resetPassword_effect {userId : Uuid} {finished : Finished Unit}
    (h : (AdminRouter.resetPassword env request userId members acting db).1 = .ok finished)
    (htables : finished.tables = some db') :
    Effect env request acting db (.resetPassword (some userId)) db' := by
  obtain ⟨target, hget, h⟩ := bind_eq_ok.mp h
  obtain ⟨-, -, h⟩ := bind_eq_ok.mp h
  cases h
  have hfind := UserService.getUserById_eq_ok.mp hget
  obtain ⟨hmem, rfl⟩ := UsersTable.getById_eq_some.mp hfind
  obtain ⟨husers, hitems, hlog⟩ := record_ok htables
  refine .wrote _ (.password target hmem) ?_ husers ?_ hlog
  · simp [UserRoute.fact, AuditLog.fact, Request.auditEntry, hfind]
  · rw [hitems, db.setUsers_self]

theorem UserRoute.endpoint_effect {route : UserRoute}
    {endpoint : User → Database → Outcome Answer} {finished : Finished Answer}
    (hendpoint : route.endpoint env request members = some endpoint)
    (h : (endpoint acting db).1 = .ok finished) (htables : finished.tables = some db') :
    Effect env request acting db route db' := by
  cases route with
  | getMe | getRole | freeContent | paidContent =>
      cases hendpoint
      cases h
      cases htables
      exact .read rfl
  | listUsers params | listAuditLog params | listUsersV2 params =>
      obtain ⟨p, -, rfl⟩ := Option.map_eq_some_iff.mp hendpoint
      obtain ⟨page, -, rfl⟩ := exists_ok h
      cases htables
      exact .read rfl
  | deleteSelf =>
      cases hendpoint
      obtain ⟨inner, hinner, rfl⟩ := exists_ok h
      obtain ⟨users', entry, hperform, hrecord⟩ := Mutation.deleteSelf_performs hinner
      exact Mutation.effect hperform (hrecord.symm.trans htables)
  | changeRole params =>
      obtain ⟨⟨userId, newRole⟩, rfl, rfl⟩ := Option.map_eq_some_iff.mp hendpoint
      obtain ⟨inner, hinner, rfl⟩ := exists_ok h
      obtain ⟨users', entry, hperform, hrecord⟩ := Mutation.changeRole_performs hinner
      exact Mutation.effect hperform (hrecord.symm.trans htables)
  | blockUser params =>
      obtain ⟨⟨userId, isActive⟩, rfl, rfl⟩ := Option.map_eq_some_iff.mp hendpoint
      obtain ⟨inner, hinner, rfl⟩ := exists_ok h
      obtain ⟨users', entry, hperform, hrecord⟩ := Mutation.blockUser_performs hinner
      exact Mutation.effect hperform (hrecord.symm.trans htables)
  | resetPassword params =>
      obtain ⟨userId, rfl, rfl⟩ := Option.map_eq_some_iff.mp hendpoint
      obtain ⟨inner, hinner, rfl⟩ := exists_ok h
      exact resetPassword_effect hinner htables
  | deleteUser params =>
      obtain ⟨userId, rfl, rfl⟩ := Option.map_eq_some_iff.mp hendpoint
      obtain ⟨inner, hinner, rfl⟩ := exists_ok h
      obtain ⟨users', entry, hperform, hrecord⟩ := Mutation.deleteUser_performs hinner
      exact Mutation.effect hperform (hrecord.symm.trans htables)

/-- A request to a route behind a record: nothing, or the resolution and the effect. -/
inductive Served (env : Env) (request : Request) (route : UserRoute) (db db' : Database) : Prop
  | nothing (same : db' = db)
  | done (acting : User) (users : UsersTable)
      (current : getCurrentDbUser env request.auth request.tick db.users = .ok (acting, users))
      (gate : ∀ role, route.gate = some role →
        requireRole env [role] request.auth request.tick db.users = .ok (acting, users))
      (effect : Effect env request acting (db.setUsers users) route db')

theorem App.served (env : Env) (request : Request) (route : UserRoute) (app : App) :
    Served env request route app.db (app.serve env request (.user route)).2.db := by
  cases hresult : (route.serve env request app.db app.members).1 with
  | error e => exact .nothing (by simp [App.serve, hresult])
  | ok finished =>
      have hdb : (app.serve env request (.user route)).2.db =
          finished.tables.getD app.db := by
        simp [App.serve, hresult, settle]
      cases htables : finished.tables with
      | none => exact .nothing (by rw [hdb, htables, Option.getD_none])
      | some tables =>
          obtain ⟨acting, users, endpoint, hcurrent, hgate, hendpoint, hend⟩ :=
            UserRoute.serve_ok hresult
          rw [hdb, htables, Option.getD_some]
          exact .done acting users hcurrent hgate
            (UserRoute.endpoint_effect hendpoint hend htables)

/-! ## What a change leaves alone -/

/-- The account whose record the route writes. -/
def UserRoute.target (acting : User) : UserRoute → Option Uuid
  | changeRole (some (userId, _)) | blockUser (some (userId, _))
  | deleteUser (some userId) => some userId
  | deleteSelf => some acting.id
  | _ => none

section Frame

variable {t t' : UsersTable} {tick : Tick} {route : UserRoute} {v : User}

theorem Change.mem_other (h : Change t acting tick route t')
    (hother : route.target acting ≠ some v.id) : v ∈ t'.rows ↔ v ∈ t.rows := by
  cases h with
  | role target row newRole _ mem other saved =>
      have hid : v.id ≠ target.id := fun heq => hother (congrArg some heq.symm)
      have hrow : row.id = target.id := by rw [(UsersTable.save_ok saved).1]
      rw [UsersTable.mem_save saved]
      exact ⟨fun h => h.elim And.left fun h => absurd (h ▸ hrow) hid, fun h => .inl ⟨h, hid⟩⟩
  | active target row isActive _ mem other saved =>
      have hid : v.id ≠ target.id := fun heq => hother (congrArg some heq.symm)
      have hrow : row.id = target.id := by rw [(UsersTable.save_ok saved).1]
      rw [UsersTable.mem_save saved]
      exact ⟨fun h => h.elim And.left fun h => absurd (h ▸ hrow) hid, fun h => .inl ⟨h, hid⟩⟩
  | password target mem => rfl
  | delete target mem other =>
      rw [UsersTable.mem_delete]
      exact and_iff_left fun heq => hother (congrArg some heq.symm)
  | deleteSelf =>
      rw [UsersTable.mem_delete]
      exact and_iff_left fun heq => hother (congrArg some heq.symm)

/-- Tables with the same records under an identifier find the same. -/
theorem UsersTable.getById_congr {id : Uuid}
    (h : ∀ v : User, v.id = id → (v ∈ t'.rows ↔ v ∈ t.rows)) :
    t'.getById id = t.getById id := by
  refine Option.ext fun v => ?_
  rw [getById_eq_some, getById_eq_some]
  exact ⟨fun ⟨hv, hid⟩ => ⟨(h v hid).mp hv, hid⟩, fun ⟨hv, hid⟩ => ⟨(h v hid).mpr hv, hid⟩⟩

theorem Change.getById_other {id : Uuid} (h : Change t acting tick route t')
    (hother : route.target acting ≠ some id) : t'.getById id = t.getById id :=
  UsersTable.getById_congr fun _ hid => h.mem_other (hid.symm ▸ hother)

/-- An admin's route is never about the admin, and no other one but `deleteSelf` writes. -/
theorem Effect.getById_self (h : Effect env request acting db route db')
    (hself : route ≠ .deleteSelf) : db'.users.getById acting.id = db.users.getById acting.id := by
  cases h with
  | read unaudited => rfl
  | wrote entry change due users_eq items_eq log_eq =>
      rw [users_eq]
      refine change.getById_other ?_
      cases change with
      | role target row newRole _ mem other saved | active target row isActive _ mem other saved
      | delete target mem other => exact fun h => other (Option.some.inj h).symm
      | password target mem => exact nofun
      | deleteSelf => exact absurd rfl hself

theorem getCurrentDbUser_getById {req : AuthRequest} {id : Uuid}
    (h : getCurrentDbUser env req tick t = .ok (acting, t')) (hother : acting.id ≠ id) :
    t'.getById id = t.getById id := by
  obtain ⟨-, profile, -, hresolution⟩ := getCurrentDbUser_cases h
  refine UsersTable.getById_congr fun v hid => ?_
  rw [hresolution.mem_iff]
  constructor
  · rintro (⟨hv, -⟩ | rfl)
    · exact hv
    · exact absurd hid hother
  · exact fun hv => .inl ⟨hv, hid ▸ hother.symm⟩

end Frame

end IsolatedEnv.Backend
