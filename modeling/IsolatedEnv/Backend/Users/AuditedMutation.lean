import IsolatedEnv.Backend.Users.Deletion
import IsolatedEnv.Backend.Users.RoleEffect

/-!
# Mutations whose audit entry cannot be written

The mutation and its audit entry share a session and a transaction.  `record`
swallows what the insert raises, so the endpoint answers as if nothing had
happened; the failed statement has ended the transaction all the same.
-/

namespace IsolatedEnv.Backend

open IsolatedEnv.Foundation

/-- The requests that change a record and are audited. -/
inductive Mutation where
  | changeRole (userId : Uuid) (newRole : UserRole)
  | blockUser (userId : Uuid) (isActive : Bool)
  | deleteUser (userId : Uuid)
  | deleteSelf

namespace Mutation

def route : Mutation → UserRoute
  | changeRole userId newRole => .changeRole (some (userId, newRole))
  | blockUser userId isActive => .blockUser (some (userId, isActive))
  | deleteUser userId => .deleteUser (some userId)
  | deleteSelf => .deleteSelf

/-- The records as the mutation leaves them, and the entry that is to be written. -/
def perform (env : Env) (request : Request) (users : UsersTable) (acting : User) :
    Mutation → Except Exc (UsersTable × AuditLog)
  | changeRole userId newRole => do
      let target ← UserService.getUserById users userId
      let (row, users') ←
        UserService.changeRole users target newRole acting request.tick
      .ok (users', request.auditEntry acting .changeRole target.id row.email
        (some (.obj [("old_role", .str target.role.value),
          ("new_role", .str newRole.value), ("authentik_synced", .bool true)]))
        (request.getClientIp env.python))
  | blockUser userId isActive => do
      let (row, users') ←
        UserService.setActive users userId isActive acting request.tick
      .ok (users', request.auditEntry acting
        (if isActive then .unblockUser else .blockUser) userId row.email none
        (request.getClientIp env.python))
  | deleteUser userId => do
      let target ← UserService.getUserById users userId
      let users' ← UserService.deleteUser users target.id acting
      .ok (users', request.auditEntry acting .deleteUser target.id target.email none
        (request.getClientIp env.python))
  | deleteSelf => .ok (users.deleteUser acting,
      request.auditEntry acting .deleteSelf acting.id acting.email none
        request.clientAddress)

variable {env : Env} {request : Request} {db : Database} {members : Memberships}
  {acting : User} {m : Mutation}

theorem changeRole_performs {userId : Uuid} {newRole : UserRole}
    {finished : Finished UserResponse}
    (h : (AdminRouter.changeRole env request userId newRole members acting db).1 =
      .ok finished) :
    ∃ users' entry, (changeRole userId newRole).perform env request db.users acting =
        .ok (users', entry) ∧
      finished.tables = record (db.setUsers users') request.auditFailure entry := by
  obtain ⟨target, hfind, hstore⟩ := AdminRouter.changeRole_finished h
  obtain ⟨⟨row, users'⟩, hchange, hfinished⟩ := bind_eq_ok.mp hstore
  cases hfinished
  refine ⟨users', _, ?_, rfl⟩
  simp only [perform, UserService.getUserById_eq_ok.mpr hfind, hchange, bind, Except.bind]

theorem blockUser_performs {userId : Uuid} {isActive : Bool}
    {finished : Finished UserResponse}
    (h : (AdminRouter.blockUser env request userId isActive members acting db).1 =
      .ok finished) :
    ∃ users' entry, (blockUser userId isActive).perform env request db.users acting =
        .ok (users', entry) ∧
      finished.tables = record (db.setUsers users') request.auditFailure entry := by
  obtain ⟨⟨row, users'⟩, hset, hfinished⟩ := bind_eq_ok.mp h
  cases hfinished
  refine ⟨users', _, ?_, rfl⟩
  simp only [perform, hset, bind, Except.bind]

theorem deleteUser_performs {userId : Uuid} {finished : Finished Unit}
    (h : (AdminRouter.deleteUser env request userId members acting db).1 =
      .ok finished) :
    ∃ users' entry, (deleteUser userId).perform env request db.users acting =
        .ok (users', entry) ∧
      finished.tables = record (db.setUsers users') request.auditFailure entry := by
  obtain ⟨target, hget, h⟩ := bind_eq_ok.mp h
  obtain ⟨users', hdelete, h⟩ := bind_eq_ok.mp h
  refine ⟨users', request.auditEntry acting .deleteUser target.id target.email none
    (request.getClientIp env.python), ?_, ?_⟩
  · simp only [perform, hget, hdelete, bind, Except.bind]
  · split at h <;> cases h <;> rfl

theorem deleteSelf_performs {finished : Finished Unit}
    (h : (UserRouter.deleteSelf env request members acting db).1 = .ok finished) :
    ∃ users' entry, deleteSelf.perform env request db.users acting = .ok (users', entry) ∧
      finished.tables = record (db.setUsers users') request.auditFailure entry := by
  obtain ⟨users', hdelete, hfinished⟩ := bind_eq_ok.mp h
  obtain ⟨-, rfl⟩ := UserService.deleteSelf_ok_iff.mp hdelete
  cases hfinished
  exact ⟨_, _, rfl, rfl⟩

/-- A success comes from a mutation that was performed, with its entry recorded. -/
theorem serve_performs {finished : Finished Answer}
    (h : (m.route.serve env request db members).1 = .ok finished) :
    ∃ acting users users' entry,
      getCurrentDbUser env request.auth request.tick db.users = .ok (acting, users) ∧
      m.perform env request users acting = .ok (users', entry) ∧
      finished.tables = record ((db.setUsers users).setUsers users')
        request.auditFailure entry := by
  obtain ⟨acting, users, endpoint, hcurrent, -, hendpoint, hresult⟩ :=
    UserRoute.serve_ok h
  refine ⟨acting, users, ?_⟩
  cases m with
  | changeRole userId newRole =>
      cases hendpoint
      obtain ⟨inner, hinner, rfl⟩ := exists_ok hresult
      obtain ⟨users', entry, hperform, htables⟩ := changeRole_performs hinner
      exact ⟨users', entry, hcurrent, hperform, htables⟩
  | blockUser userId isActive =>
      cases hendpoint
      obtain ⟨inner, hinner, rfl⟩ := exists_ok hresult
      obtain ⟨users', entry, hperform, htables⟩ := blockUser_performs hinner
      exact ⟨users', entry, hcurrent, hperform, htables⟩
  | deleteUser userId =>
      cases hendpoint
      obtain ⟨inner, hinner, rfl⟩ := exists_ok hresult
      obtain ⟨users', entry, hperform, htables⟩ := deleteUser_performs hinner
      exact ⟨users', entry, hcurrent, hperform, htables⟩
  | deleteSelf =>
      cases hendpoint
      obtain ⟨inner, hinner, rfl⟩ := exists_ok hresult
      obtain ⟨users', entry, hperform, htables⟩ := deleteSelf_performs hinner
      exact ⟨users', entry, hcurrent, hperform, htables⟩

/-! ## The answer does not tell -/

section Answer

variable (failure : Option DatabaseFailure)

theorem changeRole_answer (userId : Uuid) (newRole : UserRole) :
    (AdminRouter.changeRole env { request with auditFailure := failure } userId newRole
        members acting db).1.map Finished.value =
      (AdminRouter.changeRole env request userId newRole members acting db).1.map
        Finished.value := by
  unfold AdminRouter.changeRole
  cases UserService.getUserById db.users userId with
  | error e => rfl
  | ok target =>
      dsimp only
      rcases authentikChangeGroup env target.providerId target.role newRole
        request.authentik members with ⟨_ | _, members'⟩
      · rfl
      · dsimp only [AdminRouter.storeRole]
        cases UserService.changeRole db.users target newRole acting request.tick <;> rfl

theorem blockUser_answer (userId : Uuid) (isActive : Bool) :
    (AdminRouter.blockUser env { request with auditFailure := failure } userId isActive
        members acting db).1.map Finished.value =
      (AdminRouter.blockUser env request userId isActive members acting db).1.map
        Finished.value := by
  unfold AdminRouter.blockUser
  cases UserService.setActive db.users userId isActive acting request.tick <;>
    simp [bind, Except.bind, Except.map]

theorem deleteUser_answer (userId : Uuid) :
    (AdminRouter.deleteUser env { request with auditFailure := failure } userId members
        acting db).1.map Finished.value =
      (AdminRouter.deleteUser env request userId members acting db).1.map
        Finished.value := by
  unfold AdminRouter.deleteUser
  cases UserService.getUserById db.users userId with
  | error e => rfl
  | ok target =>
      simp only [bind, Except.bind]
      cases UserService.deleteUser db.users target.id acting with
      | error e => rfl
      | ok users' =>
          cases authentikDeleteUser env target.providerId request.authentik <;> rfl

theorem deleteSelf_answer :
    (UserRouter.deleteSelf env { request with auditFailure := failure } members acting
        db).1.map Finished.value =
      (UserRouter.deleteSelf env request members acting db).1.map Finished.value := by
  unfold UserRouter.deleteSelf
  cases UserService.deleteSelf env db.users acting request.authentik <;>
    simp [bind, Except.bind, Except.map]

theorem answer_congr {α : Type} {outcome outcome' : Outcome α} (f : α → Answer)
    (h : outcome.1.map Finished.value = outcome'.1.map Finished.value) :
    (outcome.answer f).1.map Finished.value =
      (outcome'.answer f).1.map Finished.value := by
  have hanswer (o : Outcome α) :
      (o.answer f).1.map Finished.value = (o.1.map Finished.value).map f := by
    unfold Outcome.answer
    cases o.1 <;> rfl
  rw [hanswer, hanswer, h]

theorem guarded_value {dependency : Except Exc (User × UsersTable)} {request' : Request}
    {endpoint endpoint' : User → Database → Outcome Answer}
    (hlimited : request.limited = request'.limited)
    (h : ∀ acting db, (endpoint acting db).1.map Finished.value =
      (endpoint' acting db).1.map Finished.value) :
    (guarded dependency request db members endpoint).1.map Finished.value =
      (guarded dependency request' db members endpoint').1.map Finished.value := by
  unfold guarded
  rw [hlimited]
  rcases dependency with e | ⟨acting, users⟩
  · rfl
  · cases request'.limited with
    | true => rfl
    | false => exact h acting (db.setUsers users)

/-- Whatever the audit insert raises, the request is answered the same. -/
theorem serve_answer (m : Mutation) :
    (m.route.serve env { request with auditFailure := failure } db members).1.map
        Finished.value =
      (m.route.serve env request db members).1.map Finished.value := by
  cases m with
  | changeRole userId newRole =>
      exact guarded_value rfl fun acting db =>
        answer_congr _ (changeRole_answer failure userId newRole)
  | blockUser userId isActive =>
      exact guarded_value rfl fun acting db =>
        answer_congr _ (blockUser_answer failure userId isActive)
  | deleteUser userId =>
      exact guarded_value rfl fun acting db =>
        answer_congr (fun _ => .noContent) (deleteUser_answer failure userId)
  | deleteSelf =>
      exact guarded_value rfl fun acting db =>
        answer_congr (fun _ => .noContent) (deleteSelf_answer failure)

end Answer

/-! ## The commit does -/

theorem committed_of_tables {finished : Finished Answer} {tables : Database}
    {entry : AuditLog}
    (h : finished.tables = record tables request.auditFailure entry) :
    (settle (.ok finished) db).users = tables.users ↔
      (∃ db', createEntry tables request.auditFailure entry = .ok db') ∨
        tables.users = db.users := by
  have hcreated : (∃ db', createEntry tables request.auditFailure entry = .ok db') ↔
      ∃ db', record tables request.auditFailure entry = some db' := by
    unfold record
    cases createEntry tables request.auditFailure entry <;> simp
  rw [hcreated]
  unfold settle
  cases hrecord : record tables request.auditFailure entry with
  | none =>
      rw [hrecord] at h
      simp [h, eq_comm]
  | some db' =>
      rw [hrecord] at h
      simp [h, record_users hrecord]

/--
A mutation that is answered with a success is answered so whatever the audit
insert raises; it is committed if and only if the insert raises nothing, or the
mutation leaves the records as they were.
-/
theorem committed_iff {finished : Finished Answer}
    (h : (m.route.serve env request db members).1 = .ok finished) :
    (∀ failure, (m.route.serve env { request with auditFailure := failure } db
        members).1.map Finished.value = .ok finished.value) ∧
    ∃ acting users users' entry,
      getCurrentDbUser env request.auth request.tick db.users = .ok (acting, users) ∧
      m.perform env request users acting = .ok (users', entry) ∧
      ((settle (m.route.serve env request db members).1 db).users = users' ↔
        (∃ db', createEntry ((db.setUsers users).setUsers users') request.auditFailure
          entry = .ok db') ∨ users' = db.users) := by
  obtain ⟨acting, users, users', entry, hcurrent, hperform, htables⟩ := serve_performs h
  refine ⟨fun failure => ?_, acting, users, users', entry, hcurrent, hperform, ?_⟩
  · rw [serve_answer failure m, h]
    rfl
  · rw [h]
    exact committed_of_tables htables

/-! ## Alice blocks Bob -/

def aliceAndBob : Database := AdminRouter.exampleDatabase (AdminRouter.aliceAndBob .free)

def alicesBlock (failure : Option DatabaseFailure) : Request :=
  { exampleVisit "alice" ["admins"] 100 with auditFailure := failure }

theorem audited_block_committed :
    ∃ acting users users' entry,
      getCurrentDbUser exampleEnv (alicesBlock none).auth (alicesBlock none).tick
        aliceAndBob.users = .ok (acting, users) ∧
      (blockUser 2 false).perform exampleEnv (alicesBlock none) users acting =
        .ok (users', entry) ∧
      ((settle ((blockUser 2 false).route.serve exampleEnv (alicesBlock none) aliceAndBob
          ∅).1 aliceAndBob).users = users' ↔
        (∃ db', createEntry ((aliceAndBob.setUsers users).setUsers users') none entry =
          .ok db') ∨ users' = aliceAndBob.users) := by
  have hanswered : ((blockUser 2 false).route.serve exampleEnv (alicesBlock none)
      aliceAndBob ∅).1.map (fun _ => ()) = .ok () := by decide +kernel
  obtain ⟨finished, hserve, -⟩ := exists_ok hanswered
  exact (committed_iff hserve).2

theorem block_lost_with_its_entry :
    ∃ finished users' entry,
      (settle (.ok finished) aliceAndBob).users ≠ users' ∧
      (blockUser 2 false).perform exampleEnv (alicesBlock (some ⟨.sqlalchemy, rfl⟩))
        aliceAndBob.users (exampleUser 1 "alice" .admin) = .ok (users', entry) ∧
      ((blockUser 2 false).route.serve exampleEnv
        (alicesBlock (some ⟨.sqlalchemy, rfl⟩)) aliceAndBob ∅).1 = .ok finished := by
  have hanswered : ((blockUser 2 false).route.serve exampleEnv
      (alicesBlock (some ⟨.sqlalchemy, rfl⟩)) aliceAndBob ∅).1.map
        (fun finished => finished.tables.isNone) = .ok true := by decide +kernel
  have hperformed : ((blockUser 2 false).perform exampleEnv
      (alicesBlock (some ⟨.sqlalchemy, rfl⟩)) aliceAndBob.users
        (exampleUser 1 "alice" .admin)).map
          (fun p => decide (aliceAndBob.users = p.1)) = .ok false := by decide +kernel
  obtain ⟨finished, hserve, hnone⟩ := exists_ok hanswered
  obtain ⟨⟨users', entry⟩, hperform, hchanged⟩ := exists_ok hperformed
  refine ⟨finished, users', entry, ?_, hperform, hserve⟩
  rw [settle, Option.isNone_iff_eq_none.mp hnone]
  exact of_decide_eq_false hchanged

end Mutation

end IsolatedEnv.Backend
