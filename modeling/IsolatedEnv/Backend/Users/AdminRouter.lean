import IsolatedEnv.Backend.Audit.Service
import IsolatedEnv.Backend.Core.Endpoint
import IsolatedEnv.Backend.Users.Service

/-!
# The admin routes

Each endpoint works on the tables as the resolution of its admin left them.
-/

namespace IsolatedEnv.Backend

open IsolatedEnv.Foundation

namespace Request

def clientAddress (request : Request) : String :=
  request.clientHost.getD "unknown"

/-- `forwarded.split(",")[-1].strip()`. -/
def lastForwarded (forwarded : String) : String :=
  String.ofList (stripChars isSpace ((forwarded.toList.splitOn ',').getLastD []))

def getClientIp (py : Python) (request : Request) : String :=
  match request.forwardedFor with
  | some forwarded =>
      if forwarded ≠ "" ∧ py.isIpAddress (lastForwarded forwarded) = true then
        lastForwarded forwarded
      else request.clientAddress
  | none => request.clientAddress

def auditEntry (request : Request) (acting : User) (action : AuditAction)
    (targetId : Uuid) (targetEmail : String) (details : Option Json)
    (ipAddress : String) : AuditLog where
  id := request.auditId
  adminUserId := acting.id
  adminEmail := acting.email
  action := action.value
  targetUserId := targetId
  targetUserEmail := targetEmail
  details := details
  ipAddress := some ipAddress
  createdAt := request.tick.now

end Request

namespace AdminRouter

/-- What `change_role` does once Authentik has been changed. -/
def storeRole (env : Env) (request : Request) (target : User)
    (newRole : UserRole) (admin : User) (db : Database) :
    Except Exc (Finished UserResponse) := do
  let (row, users) ←
    UserService.changeRole db.users target newRole admin request.tick
  .ok ⟨row.response, record (db.setUsers users) request.auditFailure
    (request.auditEntry admin .changeRole target.id row.email
      (some (.obj [("old_role", .str target.role.value),
        ("new_role", .str newRole.value), ("authentik_synced", .bool true)]))
      (request.getClientIp env.python))⟩

def changeRole (env : Env) (request : Request) (userId : Uuid)
    (newRole : UserRole) (members : Memberships) (admin : User)
    (db : Database) : Outcome UserResponse :=
  match UserService.getUserById db.users userId with
  | .error e => (.error e, members)
  | .ok target =>
      match authentikChangeGroup env target.providerId target.role newRole
          request.authentik members with
      | (.error e, members') => (.error e, members')
      | (.ok (), members') =>
          (storeRole env request target newRole admin db, members')

def blockUser (env : Env) (request : Request) (userId : Uuid) (isActive : Bool)
    (members : Memberships) (admin : User) (db : Database) :
    Outcome UserResponse :=
  (do
    let (row, users) ←
      UserService.setActive db.users userId isActive admin request.tick
    .ok ⟨row.response, record (db.setUsers users) request.auditFailure
      (request.auditEntry admin (if isActive then .unblockUser else .blockUser)
        userId row.email none (request.getClientIp env.python))⟩, members)

def resetPassword (env : Env) (request : Request) (userId : Uuid)
    (members : Memberships) (admin : User) (db : Database) : Outcome Unit :=
  (do
    let target ← UserService.getUserById db.users userId
    authentikSetPassword env target.providerId request.authentik
    .ok ⟨(), record db request.auditFailure (request.auditEntry admin .resetPassword
      target.id target.email none (request.getClientIp env.python))⟩, members)

def deleteUser (env : Env) (request : Request) (userId : Uuid)
    (members : Memberships) (admin : User) (db : Database) : Outcome Unit :=
  (do
    let target ← UserService.getUserById db.users userId
    let users ← UserService.deleteUser db.users target.id admin
    let tables := record (db.setUsers users) request.auditFailure
      (request.auditEntry admin .deleteUser target.id target.email none
        (request.getClientIp env.python))
    -- Whatever the call to Authentik raises is logged and dropped.
    match authentikDeleteUser env target.providerId request.authentik with
    | .ok () | .error _ => .ok ⟨(), tables⟩, members)

/-- `PATCH /{user_id}/role`. -/
def changeRoleRoute (env : Env) (request : Request) (userId : Uuid)
    (newRole : UserRole) (db : Database) (members : Memberships) :
    Outcome UserResponse :=
  asRole env .admin request db members
    (changeRole env request userId newRole members)

variable {env : Env} {request : Request} {userId : Uuid} {newRole : UserRole}
  {members : Memberships} {admin target : User} {db db' : Database}
  {finished : Finished UserResponse}

theorem changeRole_finished
    (h : (changeRole env request userId newRole members admin db).1 = .ok finished) :
    ∃ target, db.users.getById userId = some target ∧
      storeRole env request target newRole admin db = .ok finished := by
  unfold changeRole at h
  cases hget : UserService.getUserById db.users userId with
  | error e => simp [hget] at h
  | ok target =>
      simp only [hget] at h
      split at h
      · cases h
      · exact ⟨target, UserService.getUserById_eq_ok.mp hget, h⟩

theorem storeRole_stored
    (h : storeRole env request target newRole admin db = .ok finished) :
    admin.id ≠ target.id ∧ ∃ row users,
      db.users.updateRole target newRole admin.providerId request.tick =
        .ok (row, users) ∧
      (∀ db', finished.tables = some db' → db'.users = users) := by
  obtain ⟨⟨row, users⟩, hchange, hfinished⟩ := bind_eq_ok.mp h
  cases hfinished
  unfold UserService.changeRole at hchange
  split at hchange
  · cases hchange
  · rename_i hother
    refine ⟨hother, row, users, hchange, fun db' htables => ?_⟩
    rw [record_users htables, Database.setUsers_users]

theorem storeRole_saved
    (h : storeRole env request target newRole admin db = .ok finished)
    (htables : finished.tables = some db') :
    admin.id ≠ target.id ∧ ∃ row, db.users.updateRole target newRole
      admin.providerId request.tick = .ok (row, db'.users) := by
  obtain ⟨hother, row, users, hupdate, husers⟩ := storeRole_stored h
  exact ⟨hother, row, husers db' htables ▸ hupdate⟩

theorem blockUser_saved {isActive : Bool}
    (h : (blockUser env request userId isActive members admin db).1 = .ok finished)
    (htables : finished.tables = some db') :
    ∃ target row, db.users.getById userId = some target ∧ admin.id ≠ target.id ∧
      db.users.setActive target isActive admin.providerId request.tick =
        .ok (row, db'.users) := by
  obtain ⟨⟨row, users⟩, hset, hfinished⟩ := bind_eq_ok.mp h
  cases hfinished
  unfold UserService.setActive at hset
  split at hset
  · cases hset
  · rename_i hother
    obtain ⟨target, hget, hsave⟩ := bind_eq_ok.mp hset
    have hfind := UserService.getUserById_eq_ok.mp hget
    have hid := (UsersTable.getById_eq_some.mp hfind).2
    refine ⟨target, row, hfind, hid ▸ hother, ?_⟩
    rw [record_users htables, Database.setUsers_users]
    exact hsave

theorem deleteUser_deleted {finished : Finished Unit}
    (h : (deleteUser env request userId members admin db).1 = .ok finished)
    (htables : finished.tables = some db') :
    ∃ target, db.users.getById userId = some target ∧ admin.id ≠ target.id ∧
      db'.users = db.users.delete target.id := by
  obtain ⟨target, hget, h⟩ := bind_eq_ok.mp h
  obtain ⟨users, hdelete, h⟩ := bind_eq_ok.mp h
  have hrecord : finished.tables = record (db.setUsers users) request.auditFailure
      (request.auditEntry admin .deleteUser target.id target.email none
        (request.getClientIp env.python)) := by
    split at h <;> cases h <;> rfl
  have hfind := UserService.getUserById_eq_ok.mp hget
  unfold UserService.deleteUser at hdelete
  split at hdelete
  · cases hdelete
  · rename_i hother
    obtain ⟨target', hget', husers⟩ := bind_eq_ok.mp hdelete
    cases husers
    have hid := (UsersTable.getById_eq_some.mp
      (UserService.getUserById_eq_ok.mp hget')).2
    refine ⟨target, hfind, hother, ?_⟩
    rw [record_users (hrecord.symm.trans htables), Database.setUsers_users,
      UsersTable.deleteUser, hid]

end AdminRouter

end IsolatedEnv.Backend
