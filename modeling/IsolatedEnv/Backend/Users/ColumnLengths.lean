import IsolatedEnv.Backend.Users.AuditedMutation

/-!
# Whether what the admin routes write fits its columns

`role_changed_by` takes the admin's `provider_id` and is the shorter column;
`ip_address` takes what a client put into a header, as long as it is an
address.  The rows that each of the four routes writes are given with the
lengths of their columns, and what becomes of the request when they do not fit.
-/

namespace IsolatedEnv.Backend

open IsolatedEnv.Foundation

/-- The requests of an admin that write to the tables. -/
inductive AdminWrite where
  | changeRole (newRole : UserRole)
  | blockUser (isActive : Bool)
  | resetPassword
  | deleteUser
  deriving DecidableEq, Repr

namespace AdminWrite

def action : AdminWrite → AuditAction
  | changeRole _ => .changeRole
  | blockUser isActive => if isActive then .unblockUser else .blockUser
  | resetPassword => .resetPassword
  | deleteUser => .deleteUser

def details (target : User) : AdminWrite → Option Json
  | changeRole newRole => some (.obj [("old_role", .str target.role.value),
      ("new_role", .str newRole.value), ("authentik_synced", .bool true)])
  | _ => none

/-- The row of `users` that the route updates. -/
def row (admin target : User) (tick : Tick) : AdminWrite → Option User
  | changeRole newRole => some { target with
      role := newRole
      roleChangedAt := some tick.now
      roleChangedBy := some admin.providerId
      updatedAt := tick.now }
  | blockUser isActive => some { target with
      isActive := isActive
      roleChangedAt := some tick.now
      roleChangedBy := some admin.providerId
      updatedAt := tick.now }
  | resetPassword | deleteUser => none

/-- The row of `audit_log` that it adds. -/
def entry (py : Python) (request : Request) (admin target : User) (w : AdminWrite) :
    AuditLog :=
  request.auditEntry admin w.action target.id target.email (w.details target)
    (request.getClientIp py)

/-- What the route makes of the tables; `none` is a change that the commit will lose. -/
def handle (env : Env) (request : Request) (members : Memberships) (admin target : User)
    (db : Database) : AdminWrite → Except Exc (Option Database)
  | changeRole newRole =>
      (AdminRouter.changeRole env request target.id newRole members admin db).1.map
        Finished.tables
  | blockUser isActive =>
      (AdminRouter.blockUser env request target.id isActive members admin db).1.map
        Finished.tables
  | resetPassword =>
      (AdminRouter.resetPassword env request target.id members admin db).1.map
        Finished.tables
  | deleteUser =>
      (AdminRouter.deleteUser env request target.id members admin db).1.map Finished.tables

/-- The calls to Authentik that come before the writes. -/
def calls (env : Env) (request : Request) (members : Memberships) (target : User) :
    AdminWrite → Except Exc Unit
  | changeRole newRole =>
      (authentikChangeGroup env target.providerId target.role newRole request.authentik
        members).1
  | resetPassword => authentikSetPassword env target.providerId request.authentik
  | blockUser _ | deleteUser => .ok ()

variable {env : Env} {request : Request} {members : Memberships} {admin target : User}
  {db : Database} {w : AdminWrite}

def alice : User := exampleUser 1 "alice" .admin

def bob : User := exampleUser 2 "bob" .free

end AdminWrite

end IsolatedEnv.Backend
