import IsolatedEnv.Backend.Users.AdminRouter

/-!
# What a refused role change leaves behind

`change_role` calls Authentik before the service has checked the request and
before the row is written, and nothing takes the calls back.  The tables of a
refused request are rolled back; the memberships stay as the calls left them.
A refusal is therefore clean exactly when the calls carried out until then
change nothing on balance.
-/

namespace IsolatedEnv.Backend.AdminRouter

open IsolatedEnv.Foundation

/-- A request that ends in an error has changed neither store. -/
def AllOrNothing (out : Outcome UserResponse) (db : Database)
    (members : Memberships) : Prop :=
  (∃ e, out.1 = .error e) → settle out.1 db = db ∧ out.2 = members

/-- The calls carried out, the removal and then the addition, cancel out. -/
def NoNetChange (env : Env) (replies : AuthentikReplies) (move : GroupMove)
    (members : Memberships) : Prop :=
  (replies.removeUser.CarriedOut env move.oldGroup →
    (move.oldGroup, move.account) ∈ members →
    replies.addUser.CarriedOut env move.newGroup ∧ move.oldGroup = move.newGroup) ∧
  (replies.addUser.CarriedOut env move.newGroup → (move.newGroup, move.account) ∈ members)

/-- What is only found out after both calls. -/
def RefusedAfterCalls (admin target : User) : Prop :=
  admin.id = target.id ∨ 36 < admin.providerId.length

/-- Every way in which the request can be refused after the first call is clean. -/
def RefusalsAreClean (env : Env) (replies : AuthentikReplies) (admin target : User)
    (move : GroupMove) (members : Memberships) : Prop :=
  (removeUserStatus env move.oldGroup replies.removeUser.reply ≠ .ok () →
    replies.removeUser.CarriedOut env move.oldGroup →
    (move.oldGroup, move.account) ∉ members) ∧
  (removeUserStatus env move.oldGroup replies.removeUser.reply = .ok () →
    addUserStatus env move.newGroup replies.addUser.reply ≠ .ok () ∨
      RefusedAfterCalls admin target →
    NoNetChange env replies move members)

variable {env : Env} {request : Request} {userId : Uuid} {newRole : UserRole}
  {db : Database} {members : Memberships} {admin target : User}
  {move : GroupMove}

theorem allOrNothing_iff {result : Except Exc (Finished UserResponse)}
    {members' : Memberships} :
    AllOrNothing (result, members') db members ↔
      ((∃ e, result = .error e) → members' = members) := by
  unfold AllOrNothing
  constructor
  · intro h herror
    exact (h herror).2
  · rintro h ⟨e, rfl⟩
    exact ⟨rfl, h ⟨e, rfl⟩⟩

/-! ## The memberships after the calls -/

theorem removeUser_eq_self_iff {call : MembershipCall} {member : String × String} :
    call.removeUser env member members = members ↔
      (call.CarriedOut env member.1 → member ∉ members) := by
  unfold MembershipCall.removeUser
  by_cases hcarried : call.CarriedOut env member.1 <;> simp [hcarried]

theorem noNetChange_iff {replies : AuthentikReplies} :
    replies.addUser.addUser env (move.newGroup, move.account)
        (replies.removeUser.removeUser env (move.oldGroup, move.account) members) =
      members ↔ NoNetChange env replies move members := by
  unfold MembershipCall.addUser MembershipCall.removeUser NoNetChange
  by_cases hremoved : replies.removeUser.CarriedOut env move.oldGroup
  · by_cases hadded : replies.addUser.CarriedOut env move.newGroup
    · simp only [hremoved, hadded, if_true, forall_const, true_and]
      constructor
      · intro h
        constructor
        · intro hold
          by_contra hne
          rw [← h] at hold
          simp [hne] at hold
        · rw [← h]
          simp
      · rintro ⟨hsame, hnew⟩
        by_cases hold : (move.oldGroup, move.account) ∈ members
        · rw [hsame hold, Finset.insert_erase hnew]
        · rw [Finset.erase_eq_of_notMem hold, Finset.insert_eq_of_mem hnew]
    · simp [hremoved, hadded]
  · by_cases hadded : replies.addUser.CarriedOut env move.newGroup <;>
      simp [hremoved, hadded]

/-! ## The stages of a request -/

theorem storeRole_fails_iff (hmem : target ∈ db.users.rows)
    (hadmin : admin ∈ db.users.rows) :
    (∃ e, storeRole env request target newRole admin db = .error e) ↔
      RefusedAfterCalls admin target := by
  have hsucceeds := @UserService.changeRole_succeeds db.users target admin newRole
    request.tick hmem hadmin
  have hrefused : RefusedAfterCalls admin target ↔
      ¬ (admin.id ≠ target.id ∧ admin.providerId.length ≤ 36) := by
    unfold RefusedAfterCalls
    rw [not_and_or, not_not, not_le]
  rw [hrefused, ← hsucceeds]
  unfold storeRole
  cases UserService.changeRole db.users target newRole admin request.tick with
  | error e => simp [bind, Except.bind]
  | ok p => simp [bind, Except.bind]

/-- Past the look-ups, what counts is how the two calls and the checks went. -/
theorem changeRole_allOrNothing_iff (hadmin : admin ∈ db.users.rows)
    (hfind : db.users.getById userId = some target)
    (hmove : groupMove env target.providerId target.role newRole
      request.authentik = .ok move) {db₀ : Database} :
    AllOrNothing (changeRole env request userId newRole members admin db) db₀
        members ↔
      RefusalsAreClean env request.authentik admin target move members := by
  have hmem := (UsersTable.getById_eq_some.mp hfind).1
  unfold changeRole authentikChangeGroup RefusalsAreClean
  simp only [UserService.getUserById_eq_ok.mpr hfind, hmove]
  cases hremove : removeUserStatus env move.oldGroup request.authentik.removeUser.reply with
  | error e =>
      simp only [allOrNothing_iff]
      simp [removeUser_eq_self_iff]
  | ok removed =>
      cases hadd : addUserStatus env move.newGroup request.authentik.addUser.reply with
      | error e =>
          simp only [allOrNothing_iff, noNetChange_iff]
          simp
      | ok added =>
          simp only [allOrNothing_iff, noNetChange_iff, storeRole_fails_iff hmem hadmin]
          simp

/--
A refused role change leaves both stores alone if and only if, whenever it gets
past the look-ups, every refusal still possible is clean.
-/
theorem changeRoleRoute_allOrNothing_iff :
    AllOrNothing (changeRoleRoute env request userId newRole db members) db
        members ↔
      ∀ admin users target move,
        requireRole env [.admin] request.auth request.tick db.users =
          .ok (admin, users) →
        request.limited = false →
        users.getById userId = some target →
        groupMove env target.providerId target.role newRole request.authentik =
          .ok move →
        RefusalsAreClean env request.authentik admin target move members := by
  unfold changeRoleRoute asRole guarded
  cases hrequire : requireRole env [.admin] request.auth request.tick db.users with
  | error e => simp [allOrNothing_iff]
  | ok p =>
      obtain ⟨admin, users⟩ := p
      have hadmin := getCurrentDbUser_mem (requireRole_eq_ok.mp hrequire).1
      cases request.limited with
      | true => simp [allOrNothing_iff]
      | false =>
          simp only [Bool.false_eq_true, if_false, Except.ok.injEq, Prod.mk.injEq]
          constructor
          · rintro h _ _ target move ⟨rfl, rfl⟩ - hfind hmove
            exact (changeRole_allOrNothing_iff hadmin hfind hmove).mp h
          · intro h
            cases hfind : users.getById userId with
            | none =>
                simp [changeRole, UserService.getUserById, hfind, allOrNothing_iff]
            | some target =>
                cases hmove : groupMove env target.providerId target.role newRole
                    request.authentik with
                | error e =>
                    simp [changeRole, UserService.getUserById, hfind,
                      authentikChangeGroup, hmove, allOrNothing_iff]
                | ok move =>
                    exact (changeRole_allOrNothing_iff hadmin hfind hmove).mpr
                      (h admin users target move ⟨rfl, rfl⟩ trivial hfind hmove)

/-! ## An administrator who asks to become `free` -/

def foundOne (members : JsonObject) : Reply :=
  .response ⟨200, some (.obj [("results", .arr [.obj members])])⟩

def carriedOut : MembershipCall := ⟨.response ⟨204, none⟩, true⟩

/-- Authentik knows the user and the groups and carries out both calls. -/
def exampleReplies (uid : String) (pk : Int) (oldRole newRole : UserRole) :
    AuthentikReplies where
  userSearch := foundOne [("uid", .str uid), ("pk", .int pk)]
  oldGroup := foundOne [("name", .str oldRole.group), ("pk", .str oldRole.group)]
  newGroup := foundOne [("name", .str newRole.group), ("pk", .str newRole.group)]
  removeUser := carriedOut
  addUser := carriedOut
  setPassword := .networkError
  deleteUser := .networkError

def exampleDatabase (users : UsersTable) : Database :=
  ⟨users, [], [], ⟨by simp, by simp [Rows.UniqueKey], by simp, by simp,
    by simp [Rows.UniqueKey]⟩⟩

def onlyAlice : UsersTable := ⟨[exampleUser 1 "alice" .admin], by decide +kernel⟩

def ownRoleChange : Outcome UserResponse :=
  changeRoleRoute exampleEnv
    (exampleCall (exampleRequest "alice" ["admins"])
      (exampleReplies "alice" 1 .admin .free))
    1 .free (exampleDatabase onlyAlice) {("admins", "1")}

/-- The request is refused, and she has been moved from `admins` to `free`. -/
theorem own_role_change_not_clean :
    ownRoleChange.1 = .error (.businessRuleError "Cannot change your own role") ∧
      ownRoleChange.2 = {("free", "1")} ∧
      ¬ AllOrNothing ownRoleChange (exampleDatabase onlyAlice)
        {("admins", "1")} := by
  have hrefused : ownRoleChange.1 =
      .error (.businessRuleError "Cannot change your own role") :=
    map_eq_error.mp (by decide +kernel :
      ownRoleChange.1.map (fun _ => ()) = .error _)
  have hmoved : ownRoleChange.2 = {("free", "1")} := by decide +kernel
  refine ⟨hrefused, hmoved, fun hclean => ?_⟩
  have hkept := (hclean ⟨_, hrefused⟩).2
  rw [hmoved] at hkept
  revert hkept
  decide

end IsolatedEnv.Backend.AdminRouter
