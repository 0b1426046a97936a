import IsolatedEnv.Backend.Users.RoleChange

/-!
# Whether a role change takes effect at its source

A successful `change_role` takes the target out of the group of the role that
the database has stored and puts it into the group of the new role.  The next
request of the target computes its role from all of its groups, in order of
priority and with `ADMIN_EMAIL` as the last resort.  The two agree exactly when
no group of higher priority and no email is left over.
-/

namespace IsolatedEnv.Backend.AdminRouter

open IsolatedEnv.Foundation

/-- The look-ups name the right keys, and the calls do what they say. -/
structure Faithful (env : Env) (replies : AuthentikReplies) (target : User)
    (newRole : UserRole) (account : String) (groupPk : String → String)
    (members : Memberships) : Prop where
  distinct : Function.Injective groupPk
  lookups : ∀ move,
    groupMove env target.providerId target.role newRole replies = .ok move →
    move = ⟨account, groupPk target.role.group, groupPk newRole.group⟩
  removed : removeUserStatus env (groupPk target.role.group) replies.removeUser.reply =
      .ok () →
    replies.removeUser.applied = true ∨
      (groupPk target.role.group, account) ∉ members
  added : addUserStatus env (groupPk newRole.group) replies.addUser.reply = .ok () →
    replies.addUser.applied = true

/--
No group of a higher priority than the new role's remains once the stored
role's group is left, and `ADMIN_EMAIL` does not step in.
-/
def TakesEffect (env : Env) (email : String) (storedRole newRole : UserRole)
    (isMember : UserRole → Prop) : Prop :=
  match newRole with
  | .admin => True
  | .paid => isMember .admin → storedRole = .admin
  | .free =>
      (isMember .admin → storedRole = .admin) ∧
        (isMember .paid → storedRole = .paid) ∧ isAdminEmail env email = false

variable {env : Env} {request : Request} {userId : Uuid} {newRole : UserRole}
  {db : Database} {members members' : Memberships} {admin target : User}
  {finished : Finished UserResponse} {account : String}
  {groupPk : String → String}

/-! ## What a success has done -/

structure Succeeded (env : Env) (request : Request) (target : User)
    (newRole : UserRole) (admin : User) (members members' : Memberships)
    (move : GroupMove) : Prop where
  moved : groupMove env target.providerId target.role newRole
    request.authentik = .ok move
  removed : removeUserStatus env move.oldGroup request.authentik.removeUser.reply = .ok ()
  added : addUserStatus env move.newGroup request.authentik.addUser.reply = .ok ()
  members_eq : members' = request.authentik.addUser.addUser env
    (move.newGroup, move.account)
    (request.authentik.removeUser.removeUser env (move.oldGroup, move.account) members)
  other : admin.id ≠ target.id

theorem urlText_of_status {text : String} {reply : Reply}
    {check : Response → Except Exc Unit}
    (h : (callUnder env text reply >>= check) = .ok ()) : env.urlText text = true := by
  by_contra hurl
  simp [callUnder, hurl, bind, Except.bind] at h

theorem changeRole_ok
    (hdone : changeRole env request userId newRole members admin db =
      (.ok finished, members')) :
    ∃ target move, db.users.getById userId = some target ∧
      Succeeded env request target newRole admin members members' move := by
  unfold changeRole at hdone
  cases hget : UserService.getUserById db.users userId with
  | error e => simp [hget] at hdone
  | ok target =>
      have hfind := UserService.getUserById_eq_ok.mp hget
      simp only [hget, authentikChangeGroup] at hdone
      cases hmove : groupMove env target.providerId target.role newRole
          request.authentik with
      | error e => simp [hmove] at hdone
      | ok move =>
          simp only [hmove] at hdone
          cases hremove : removeUserStatus env move.oldGroup
              request.authentik.removeUser.reply with
          | error e => simp [hremove] at hdone
          | ok removed =>
              cases hadd : addUserStatus env move.newGroup
                  request.authentik.addUser.reply with
              | error e => simp [hremove, hadd] at hdone
              | ok added =>
                  simp only [hremove, hadd, Prod.mk.injEq] at hdone
                  obtain ⟨hstore, hmembers⟩ := hdone
                  exact ⟨target, move, hfind, hmove, hremove, hadd,
                    hmembers.symm, (storeRole_stored hstore).1⟩

/-- The target is out of the stored role's group and in the new role's. -/
theorem Succeeded.mem_iff {move : GroupMove}
    (h : Succeeded env request target newRole admin members members' move)
    (hfaithful : Faithful env request.authentik target newRole account groupPk
      members) {role : UserRole} :
    (groupPk role.group, account) ∈ members' ↔
      role = newRole ∨
        (groupPk role.group, account) ∈ members ∧ role ≠ target.role := by
  have hgroup (r s : UserRole) : groupPk r.group = groupPk s.group ↔ r = s :=
    ⟨fun heq => UserRole.group_injective (hfaithful.distinct heq),
      fun heq => heq ▸ rfl⟩
  obtain rfl := hfaithful.lookups move h.moved
  have hadded : request.authentik.addUser.CarriedOut env (groupPk newRole.group) :=
    ⟨urlText_of_status h.added, hfaithful.added h.added⟩
  rw [h.members_eq]
  unfold MembershipCall.addUser MembershipCall.removeUser
  rw [if_pos hadded]
  rcases hfaithful.removed h.removed with happlied | hnotMember
  · rw [if_pos ⟨urlText_of_status h.removed, happlied⟩]
    simp [hgroup, and_comm]
  · rw [Finset.erase_eq_of_notMem hnotMember, ite_self]
    simp only [Finset.mem_insert, Prod.mk.injEq, and_true, hgroup]
    constructor
    · rintro (hrole | hmember)
      · exact .inl hrole
      · exact .inr ⟨hmember, fun heq => hnotMember (heq ▸ hmember)⟩
    · rintro (hrole | ⟨hmember, -⟩)
      · exact .inl hrole
      · exact .inr hmember

theorem getById_of_requireRole {roles : List UserRole} {users t : UsersTable}
    {auth : AuthRequest} {tick : Tick}
    (h : requireRole env roles auth tick t = .ok (admin, users))
    (hother : admin.id ≠ userId) : users.getById userId = t.getById userId := by
  obtain ⟨-, profile, -, hresolution⟩ :=
    getCurrentDbUser_cases (requireRole_eq_ok.mp h).1
  apply Option.ext
  intro u
  rw [UsersTable.getById_eq_some, UsersTable.getById_eq_some,
    hresolution.mem_iff]
  constructor
  · rintro ⟨⟨hu, -⟩ | rfl, hid⟩
    · exact ⟨hu, hid⟩
    · exact absurd hid hother
  · rintro ⟨hu, rfl⟩
    exact ⟨.inl ⟨hu, hother.symm⟩, rfl⟩

theorem resolveRole_eq_iff {email : String} {storedRole : UserRole}
    {groups : List Json} {isMember : UserRole → Prop}
    (hgroups : ∀ role : UserRole, inGroups role.group groups = true ↔
      role = newRole ∨ isMember role ∧ role ≠ storedRole) :
    resolveRole env email (some groups) = newRole ↔
      TakesEffect env email storedRole newRole isMember := by
  have hadmin : inGroups "admins" groups = true ↔
      .admin = newRole ∨ isMember .admin ∧ .admin ≠ storedRole := hgroups .admin
  have hpaid : inGroups "paid" groups = true ↔
      .paid = newRole ∨ isMember .paid ∧ .paid ≠ storedRole := hgroups .paid
  have hleft (role : UserRole) :
      ¬ (isMember role ∧ role ≠ storedRole) ↔ (isMember role → storedRole = role) := by
    rw [not_and, ne_eq, not_not]
    exact forall_congr' fun _ => eq_comm
  unfold TakesEffect
  cases newRole with
  | admin => simp [resolveRole_of_admins (hadmin.mpr (.inl rfl))]
  | paid =>
      rw [resolveRole_eq_paid, hadmin, hpaid]
      simpa using hleft .admin
  | free =>
      rw [resolveRole_eq_free, hadmin, hpaid, ← hleft, ← hleft]
      simp

/-! ## The later request -/

/--
A later request of the target that carries the groups it was left in stores
the new role if and only if the role change takes effect.
-/
theorem later_request_stores_new_role
    (hfind : db.users.getById userId = some target)
    (hfaithful : Faithful env request.authentik target newRole account groupPk
      members)
    (hdone : changeRoleRoute env request userId newRole db members =
      (.ok finished, members'))
    {later : AuthRequest} {tick : Tick} {t t' : UsersTable} {row : User}
    {profile : Profile} {groups : List Json}
    (hsubject : later.providerId env = target.providerId)
    (hprofile : later.profile env = .ok profile)
    (hgroups : profile.groups = some groups)
    (hcurrent : ∀ role : UserRole, inGroups role.group groups = true ↔
      (groupPk role.group, account) ∈ members')
    (hlater : getCurrentDbUser env later tick t = .ok (row, t')) :
    row.providerId = target.providerId ∧
      (row.role = newRole ↔ TakesEffect env profile.email target.role newRole
        fun role => (groupPk role.group, account) ∈ members) := by
  obtain ⟨-, profile', hprofile', hresolution⟩ := getCurrentDbUser_cases hlater
  obtain rfl := Except.ok.inj (hprofile.symm.trans hprofile')
  refine ⟨hresolution.providerId_eq.trans hsubject, ?_⟩
  rw [hresolution.role_eq hgroups]
  apply resolveRole_eq_iff
  intro role
  rw [hcurrent]
  obtain ⟨admin, users, hrequire, hendpoint⟩ := guarded_ok (congrArg Prod.fst hdone)
  obtain ⟨target', move, hfind', hsucceeded⟩ := changeRole_ok (hendpoint.trans hdone)
  have hid := (UsersTable.getById_eq_some.mp hfind').2
  have hsame : target' = target := by
    rw [Database.setUsers_users, getById_of_requireRole hrequire
      (hid ▸ hsucceeded.other), hfind] at hfind'
    exact (Option.some.inj hfind').symm
  rw [hsame] at hsucceeded
  exact hsucceeded.mem_iff hfaithful

/-! ## Two role changes that Alice makes -/

def aliceAndBob (role : UserRole) : UsersTable :=
  ⟨[exampleUser 1 "alice" .admin, exampleUser 2 "bob" role], by
    cases role <;> decide +kernel⟩

def bobsRoleChange (oldRole newRole : UserRole) (members : Memberships) :
    Outcome UserResponse :=
  changeRoleRoute exampleEnv
    (exampleCall (exampleRequest "alice" ["admins"])
      (exampleReplies "bob" 2 oldRole newRole))
    2 newRole (exampleDatabase (aliceAndBob oldRole)) members

def bobsNextRequest (oldRole newRole : UserRole) (members : Memberships)
    (groups : List String) : Except Exc (User × UsersTable) :=
  getCurrentDbUser exampleEnv (exampleRequest "bob" groups) (exampleTick 200)
    (settle (bobsRoleChange oldRole newRole members).1
      (exampleDatabase (aliceAndBob oldRole))).users

theorem later_request_stores_paid :
    ∃ row t', bobsNextRequest .free .paid {("free", "2")} ["paid"] =
      .ok (row, t') ∧ row.providerId = "bob" ∧ row.role = .paid := by
  obtain ⟨finished, hfinished, -⟩ := exists_ok (by decide +kernel :
    (bobsRoleChange .free .paid {("free", "2")}).1.map (fun _ => ()) = .ok ())
  have hmembers : (bobsRoleChange .free .paid {("free", "2")}).2 =
      {("paid", "2")} := by decide +kernel
  obtain ⟨⟨row, t'⟩, hlater, -⟩ := exists_ok (by decide +kernel :
    (bobsNextRequest .free .paid {("free", "2")} ["paid"]).map (fun _ => ()) =
      .ok ())
  have hfaithful : Faithful exampleEnv (exampleReplies "bob" 2 .free .paid)
      (exampleUser 2 "bob" .free) .paid "2" id {("free", "2")} :=
    { distinct := Function.injective_id
      lookups := by
        intro move hmove
        have hmoved : groupMove exampleEnv "bob" .free .paid
            (exampleReplies "bob" 2 .free .paid) = .ok ⟨"2", "free", "paid"⟩ := by
          decide +kernel
        exact Except.ok.inj (hmove.symm.trans hmoved)
      removed := fun _ => .inl rfl
      added := fun _ => rfl }
  obtain ⟨hrow, hrole⟩ := later_request_stores_new_role
    (by decide +kernel : (exampleDatabase (aliceAndBob .free)).users.getById 2 =
      some (exampleUser 2 "bob" .free))
    hfaithful (Prod.ext hfinished hmembers) rfl rfl rfl
    (by intro role; cases role <;> decide +kernel) hlater
  exact ⟨row, t', hlater, hrow, hrole.mpr (by simp [TakesEffect, UserRole.group])⟩

/--
Bob is in `admins` and in `paid` and has `admin` stored.  Alice's change to
`free` succeeds, and his next request with the groups he is then in makes him
`paid`.
-/
theorem member_of_two_groups_not_demoted :
    (∃ finished, (bobsRoleChange .admin .free {("admins", "2"), ("paid", "2")}).1 =
      .ok finished) ∧
    (∀ role : UserRole,
      inGroups role.group [.str "paid", .str "free"] = true ↔
        (role.group, "2") ∈
          (bobsRoleChange .admin .free {("admins", "2"), ("paid", "2")}).2) ∧
    ∃ row t', bobsNextRequest .admin .free {("admins", "2"), ("paid", "2")}
      ["paid", "free"] = .ok (row, t') ∧ row.role ≠ .free := by
  refine ⟨?_, ?_, ?_⟩
  · obtain ⟨finished, hfinished, -⟩ := exists_ok (by decide +kernel :
      (bobsRoleChange .admin .free {("admins", "2"), ("paid", "2")}).1.map
        (fun _ => ()) = .ok ())
    exact ⟨finished, hfinished⟩
  · intro role
    cases role <;> decide +kernel
  · obtain ⟨⟨row, t'⟩, hlater, hrole⟩ := exists_ok (by decide +kernel :
      (bobsNextRequest .admin .free {("admins", "2"), ("paid", "2")}
        ["paid", "free"]).map (fun p => p.1.role) = .ok .paid)
    exact ⟨row, t', hlater, fun hfree => by cases hrole.symm.trans hfree⟩

end IsolatedEnv.Backend.AdminRouter
