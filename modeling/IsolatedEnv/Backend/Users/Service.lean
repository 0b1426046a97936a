import IsolatedEnv.Backend.Core.Database
import IsolatedEnv.Backend.Users.Authentik

/-!
# `UserService`

The operations on one record.
-/

namespace IsolatedEnv.Backend

open IsolatedEnv.Foundation

namespace UserService

def getUserById (t : UsersTable) (userId : Uuid) : Except Exc User :=
  match t.getById userId with
  | some user => .ok user
  | none => .error (.notFoundError ("User " ++ userId.str ++ " not found"))

def changeRole (t : UsersTable) (target : User) (newRole : UserRole)
    (admin : User) (tick : Tick) : Except Exc (User × UsersTable) :=
  if admin.id = target.id then
    .error (.businessRuleError "Cannot change your own role")
  else t.updateRole target newRole admin.providerId tick

def setActive (t : UsersTable) (userId : Uuid) (isActive : Bool) (admin : User)
    (tick : Tick) : Except Exc (User × UsersTable) :=
  if admin.id = userId then .error (.businessRuleError "Cannot block yourself")
  else do
    let target ← getUserById t userId
    t.setActive target isActive admin.providerId tick

def deleteUser (t : UsersTable) (userId : Uuid) (admin : User) :
    Except Exc UsersTable :=
  if admin.id = userId then .error (.businessRuleError "Cannot delete yourself")
  else do
    let target ← getUserById t userId
    .ok (t.deleteUser target)

/-- The look-up inside `delete_self`: the primary key, if a user matches. -/
def findOwnPk (py : Python) (providerId : String) (userSearch : Reply) :
    Except Exc (Option Json) := do
  let results ← searchResults userSearch
  match ← findByUid py providerId (← pyIter results) with
  | none => .ok none
  | some akUser => (pyItem akUser "pk").map some

/-- `except (httpx.HTTPError, KeyError)`. -/
def tolerateRemote : Except Exc Unit → Except Exc Unit
  | .error .httpx | .error .key => .ok ()
  | outcome => outcome

/-- The `try` block of `delete_self`. -/
def deleteOwnAccount (env : Env) (providerId : String) (replies : AuthentikReplies) :
    Except Exc Unit := do
  match ← findOwnPk env.python providerId replies.userSearch with
  | none => .ok ()
  | some akPk => (callAccount env akPk replies.deleteUser).map fun _ => ()

def deleteSelf (env : Env) (t : UsersTable) (user : User)
    (replies : AuthentikReplies) : Except Exc UsersTable := do
  tolerateRemote (deleteOwnAccount env user.providerId replies)
  .ok (t.deleteUser user)

end UserService

/-! ## When the service refuses -/

namespace UserService

variable {t : UsersTable} {userId : Uuid} {target admin : User}
  {newRole : UserRole} {tick : Tick}

theorem getUserById_eq_ok :
    getUserById t userId = .ok target ↔ t.getById userId = some target := by
  unfold getUserById
  cases t.getById userId <;> simp

theorem changeRole_succeeds (hmem : target ∈ t.rows) (hadmin : admin ∈ t.rows) :
    (∃ p, changeRole t target newRole admin tick = .ok p) ↔
      admin.id ≠ target.id ∧ admin.providerId.length ≤ 36 := by
  have hstorable := (t.admissible.fits admin hadmin).1.2
  unfold changeRole
  split
  · rename_i hself
    simp [hself]
  · rename_i hother
    rw [UsersTable.updateRole_succeeds hmem]
    simp [hother, FitsColumn, hstorable]

end UserService

end IsolatedEnv.Backend
