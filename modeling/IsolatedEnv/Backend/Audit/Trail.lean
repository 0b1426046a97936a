import IsolatedEnv.Backend.Users.AuditedMutation

/-!
# The trail of audit entries

Six requests are audited: the five of the admin router that act on one account,
and the deletion of one's own.  Their handlers mutate, call Authentik and record in
different orders; what a success leaves in the log is the same for all of them.
-/

namespace IsolatedEnv.Backend

open IsolatedEnv.Foundation

/-- Who did what to whom. -/
structure AuditFact where
  adminUserId : Uuid
  action : String
  targetUserId : Uuid
  targetUserEmail : String
  deriving DecidableEq

def AuditLog.fact (e : AuditLog) : AuditFact :=
  ⟨e.adminUserId, e.action, e.targetUserId, e.targetUserEmail⟩

namespace UserRoute

def audited : UserRoute → Bool
  | changeRole _ | blockUser _ | resetPassword _ | deleteUser _ | deleteSelf => true
  | _ => false

/-- What a success of the route is to be recorded as, from the records that it saw. -/
def fact (users : UsersTable) (acting : User) : UserRoute → Option AuditFact
  | changeRole (some (userId, _)) => (users.getById userId).map fun target =>
      ⟨acting.id, AuditAction.changeRole.value, target.id, target.email⟩
  | blockUser (some (userId, isActive)) => (users.getById userId).map fun target =>
      ⟨acting.id, (if isActive then AuditAction.unblockUser else .blockUser).value, target.id,
        target.email⟩
  | resetPassword (some userId) => (users.getById userId).map fun target =>
      ⟨acting.id, AuditAction.resetPassword.value, target.id, target.email⟩
  | deleteUser (some userId) => (users.getById userId).map fun target =>
      ⟨acting.id, AuditAction.deleteUser.value, target.id, target.email⟩
  | deleteSelf => some ⟨acting.id, AuditAction.deleteSelf.value, acting.id, acting.email⟩
  | _ => none

/-- The address that the route's handler records. -/
def recordedAddress (env : Env) (request : Request) : UserRoute → String
  | deleteSelf => request.clientAddress
  | _ => request.getClientIp env.python

end UserRoute

/-! ## One request -/

variable {env : Env} {request : Request} {db db' : Database} {members : Memberships}
  {acting : User} {users : UsersTable}

/-- The log as a success of the route leaves it. -/
inductive Recorded (env : Env) (request : Request) (route : UserRoute) (users : UsersTable)
    (acting : User) (log log' : List AuditLog) : Prop
  | nothing (unaudited : route.audited = false) (noFact : route.fact users acting = none)
      (same : log' = log)
  | entry (e : AuditLog) (audited : route.audited = true)
      (due : route.fact users acting = some e.fact)
      (address : e.ipAddress = some (route.recordedAddress env request))
      (appended : log' = log ++ [e])

theorem Mutation.perform_fact {m : Mutation} {users' : UsersTable} {entry : AuditLog}
    (h : m.perform env request users acting = .ok (users', entry)) :
    m.route.fact users acting = some entry.fact ∧
      entry.ipAddress = some (m.route.recordedAddress env request) := by
  cases m with
  | changeRole userId newRole =>
      obtain ⟨target, hget, h⟩ := bind_eq_ok.mp h
      obtain ⟨⟨row, users''⟩, hchange, h⟩ := bind_eq_ok.mp h
      cases h
      have hfind := UserService.getUserById_eq_ok.mp hget
      have hrow : row.email = target.email := by
        unfold UserService.changeRole at hchange
        split at hchange
        · cases hchange
        · rw [(UsersTable.save_ok hchange).1]
      refine ⟨?_, rfl⟩
      simp [Mutation.route, UserRoute.fact, AuditLog.fact, Request.auditEntry, hfind, hrow]
  | blockUser userId isActive =>
      obtain ⟨⟨row, users''⟩, hset, h⟩ := bind_eq_ok.mp h
      cases h
      unfold UserService.setActive at hset
      split at hset
      · cases hset
      · obtain ⟨target, hget, hsave⟩ := bind_eq_ok.mp hset
        have hfind := UserService.getUserById_eq_ok.mp hget
        have hid := (UsersTable.getById_eq_some.mp hfind).2
        have hrow : row.email = target.email := by rw [(UsersTable.save_ok hsave).1]
        refine ⟨?_, rfl⟩
        simp [Mutation.route, UserRoute.fact, AuditLog.fact, Request.auditEntry, hfind, hid,
          hrow]
  | deleteUser userId =>
      obtain ⟨target, hget, h⟩ := bind_eq_ok.mp h
      obtain ⟨users'', -, h⟩ := bind_eq_ok.mp h
      cases h
      have hfind := UserService.getUserById_eq_ok.mp hget
      refine ⟨?_, rfl⟩
      simp [Mutation.route, UserRoute.fact, AuditLog.fact, Request.auditEntry, hfind]
  | deleteSelf =>
      cases h
      exact ⟨rfl, rfl⟩

theorem Mutation.recorded {m : Mutation} {users' : UsersTable} {entry : AuditLog}
    (hperform : m.perform env request db.users acting = .ok (users', entry))
    (hrecord : record (db.setUsers users') request.auditFailure entry = some db') :
    Recorded env request m.route db.users acting db.auditLog db'.auditLog := by
  obtain ⟨hdue, haddress⟩ := m.perform_fact hperform
  have haudited : m.route.audited = true := by cases m <;> rfl
  have hlog := record_auditLog hrecord
  exact .entry entry haudited hdue haddress hlog

theorem resetPassword_recorded {userId : Uuid} {finished : Finished Unit}
    (h : (AdminRouter.resetPassword env request userId members acting db).1 = .ok finished)
    (htables : finished.tables = some db') :
    Recorded env request (.resetPassword (some userId)) db.users acting db.auditLog
      db'.auditLog := by
  obtain ⟨target, hget, h⟩ := bind_eq_ok.mp h
  obtain ⟨-, -, h⟩ := bind_eq_ok.mp h
  cases h
  have hfind := UserService.getUserById_eq_ok.mp hget
  refine .entry _ rfl ?_ rfl (record_auditLog htables)
  simp [UserRoute.fact, AuditLog.fact, Request.auditEntry, hfind]

theorem endpoint_recorded {route : UserRoute} {endpoint : User → Database → Outcome Answer}
    {finished : Finished Answer}
    (hendpoint : route.endpoint env request members = some endpoint)
    (h : (endpoint acting db).1 = .ok finished) (htables : finished.tables = some db') :
    Recorded env request route db.users acting db.auditLog db'.auditLog := by
  cases route with
  | getMe | getRole | freeContent | paidContent =>
      cases hendpoint
      cases h
      cases htables
      exact .nothing rfl rfl rfl
  | listUsers params | listAuditLog params | listUsersV2 params =>
      obtain ⟨p, -, rfl⟩ := Option.map_eq_some_iff.mp hendpoint
      obtain ⟨page, -, rfl⟩ := exists_ok h
      cases htables
      exact .nothing rfl rfl rfl
  | deleteSelf =>
      cases hendpoint
      obtain ⟨inner, hinner, rfl⟩ := exists_ok h
      obtain ⟨users', entry, hperform, hrecord⟩ := Mutation.deleteSelf_performs hinner
      exact Mutation.recorded hperform (hrecord.symm.trans htables)
  | changeRole params =>
      obtain ⟨⟨userId, newRole⟩, rfl, rfl⟩ := Option.map_eq_some_iff.mp hendpoint
      obtain ⟨inner, hinner, rfl⟩ := exists_ok h
      obtain ⟨users', entry, hperform, hrecord⟩ := Mutation.changeRole_performs hinner
      exact Mutation.recorded hperform (hrecord.symm.trans htables)
  | blockUser params =>
      obtain ⟨⟨userId, isActive⟩, rfl, rfl⟩ := Option.map_eq_some_iff.mp hendpoint
      obtain ⟨inner, hinner, rfl⟩ := exists_ok h
      obtain ⟨users', entry, hperform, hrecord⟩ := Mutation.blockUser_performs hinner
      exact Mutation.recorded hperform (hrecord.symm.trans htables)
  | resetPassword params =>
      obtain ⟨userId, rfl, rfl⟩ := Option.map_eq_some_iff.mp hendpoint
      obtain ⟨inner, hinner, rfl⟩ := exists_ok h
      exact resetPassword_recorded hinner htables
  | deleteUser params =>
      obtain ⟨userId, rfl, rfl⟩ := Option.map_eq_some_iff.mp hendpoint
      obtain ⟨inner, hinner, rfl⟩ := exists_ok h
      obtain ⟨users', entry, hperform, hrecord⟩ := Mutation.deleteUser_performs hinner
      exact Mutation.recorded hperform (hrecord.symm.trans htables)

theorem serve_recorded {route : UserRoute} {finished : Finished Answer}
    (h : (route.serve env request db members).1 = .ok finished)
    (htables : finished.tables = some db') :
    ∃ acting users,
      getCurrentDbUser env request.auth request.tick db.users = .ok (acting, users) ∧
      Recorded env request route users acting db.auditLog db'.auditLog := by
  obtain ⟨acting, users, endpoint, hcurrent, -, hendpoint, hresult⟩ := UserRoute.serve_ok h
  exact ⟨acting, users, hcurrent, endpoint_recorded hendpoint hresult htables⟩

/-! ## Runs -/

namespace App

/-- What the log owes to an event: a fact for each success of an audited route. -/
def auditDue (env : Env) (app : App) : Event → List AuditFact
  | .request request (.user route) =>
      match (app.serve env request (.user route)).1,
          getCurrentDbUser env request.auth request.tick app.db.users with
      | .ok _, .ok (acting, users) => (route.fact users acting).toList
      | _, _ => []
  | _ => []

/-- The event is a request to an audited route, and answered with a success. -/
def answersAudited (env : Env) (app : App) : Event → Bool
  | .request request (.user route) =>
      route.audited && (app.serve env request (.user route)).1.isOk
  | _ => false

/-- No failed statement leaves a request that is answered with a success without its session. -/
def StatementsSucceed (env : Env) (app : App) : Event → Prop
  | .request request (.user route) =>
      ∀ finished, (route.serve env request app.db app.members).1 = .ok finished →
        finished.tables.isSome = true
  | _ => True

variable {app app' : App} {event : Event}

/-- What a request adds is what it owes, and it owes a fact exactly when it is audited. -/
theorem serve_appends {route : UserRoute}
    (hsucceed : StatementsSucceed env app (.request request (.user route))) :
    ∃ entries,
      (app.serve env request (.user route)).2.db.auditLog = app.db.auditLog ++ entries ∧
      entries.map AuditLog.fact = auditDue env app (.request request (.user route)) ∧
      entries.length =
        if answersAudited env app (.request request (.user route)) then 1 else 0 := by
  cases hresult : (route.serve env request app.db app.members).1 with
  | error e =>
      have hanswer : (app.serve env request (.user route)).1 = .error e := by
        simp [App.serve, hresult, Except.map]
      refine ⟨[], ?_, ?_, ?_⟩
      · rw [serve_error_db hanswer, List.append_nil]
      · simp [auditDue, hanswer]
      · simp [answersAudited, hanswer, Except.isOk, Except.toBool]
  | ok finished =>
      obtain ⟨tables, htables⟩ := Option.isSome_iff_exists.mp (hsucceed finished hresult)
      obtain ⟨acting, users, hcurrent, hrecorded⟩ := serve_recorded hresult htables
      have hanswer : (app.serve env request (.user route)).1 = .ok finished.value := by
        simp [App.serve, hresult, Except.map]
      have hdb : (app.serve env request (.user route)).2.db = tables := by
        simp [App.serve, hresult, settle, htables]
      rw [hdb]
      simp only [auditDue, answersAudited, hanswer, hcurrent, Except.isOk, Except.toBool,
        Bool.and_true]
      cases hrecorded with
      | nothing unaudited noFact same =>
          exact ⟨[], by simp [same], by simp [noFact], by simp [unaudited]⟩
      | entry e audited due address appended =>
          exact ⟨[e], appended, by simp [due], by simp [audited]⟩

theorem step_appends (hsucceed : StatementsSucceed env app event)
    (hstep : step env app event = some app') :
    ∃ entries, app'.db.auditLog = app.db.auditLog ++ entries ∧
      entries.map AuditLog.fact = auditDue env app event ∧
      entries.length = if answersAudited env app event then 1 else 0 := by
  cases event with
  | expire key =>
      cases hstep
      exact ⟨[], by simp, rfl, rfl⟩
  | request incoming route =>
      cases hstep
      cases route with
      | user route => exact serve_appends hsucceed
      | item route => exact ⟨[], by simp [(serve_item_same route).2], rfl, rfl⟩

/--
In a run in which no statement fails, entries are only appended, and they are the facts
owed, one for each success of an audited route and none for any other event.
-/
theorem audit_trail_complete (env : Env) (app app' : App) (events : List Event)
    (hsucceed : Along (step env) (StatementsSucceed env) app events)
    (hrun : run (step env) app events = some app') :
    app.db.auditLog <+: app'.db.auditLog ∧
      app'.db.auditLog.map AuditLog.fact = app.db.auditLog.map AuditLog.fact ++
        contributions (step env) (auditDue env) app events ∧
      Along (step env) (fun app event => (auditDue env app event).length =
        if answersAudited env app event then 1 else 0) app events := by
  refine ⟨?_, ?_, ?_⟩
  · refine run_prefix (fun current : App => current.db.auditLog)
      (fun s event s' hok hstep => ?_) hsucceed hrun
    obtain ⟨entries, happended, -⟩ := step_appends hok hstep
    rw [happended]
    exact List.prefix_append _ _
  · refine run_appends (fun current : App => current.db.auditLog.map AuditLog.fact)
      (fun s event s' hok hstep => ?_) hsucceed hrun
    obtain ⟨entries, happended, hfacts, -⟩ := step_appends hok hstep
    rw [happended, List.map_append, hfacts]
  · refine hsucceed.mono fun s event hok => ?_
    cases hstep : step env s event with
    | none => cases event <;> simp [step] at hstep
    | some s' =>
        obtain ⟨entries, -, hfacts, hlength⟩ := step_appends hok hstep
        rw [← hfacts, List.length_map, hlength]

/-! ## Alice blocks Bob, and then tries to block herself -/

def beforeBlock : App := ⟨Mutation.aliceAndBob, ∅, .empty⟩

def blocks (userId : Uuid) : Event :=
  .request (Mutation.alicesBlock none) (.user (.blockUser (some (userId, false))))

theorem alices_blocks_recorded :
    ∃ app', run (step exampleEnv) beforeBlock [blocks 2, blocks 1] = some app' ∧
      beforeBlock.db.auditLog <+: app'.db.auditLog ∧
      app'.db.auditLog.map AuditLog.fact = beforeBlock.db.auditLog.map AuditLog.fact ++
        contributions (step exampleEnv) (auditDue exampleEnv) beforeBlock
          [blocks 2, blocks 1] ∧
      Along (step exampleEnv) (fun app event => (auditDue exampleEnv app event).length =
        if answersAudited exampleEnv app event then 1 else 0) beforeBlock
          [blocks 2, blocks 1] := by
  have hsucceed {app : App} {userId : Uuid}
      (h : ((UserRoute.blockUser (some (userId, false))).serve exampleEnv
          (Mutation.alicesBlock none) app.db app.members).1.map
            (fun finished => finished.tables.isSome) ≠ .ok false) :
      StatementsSucceed exampleEnv app (blocks userId) := by
    intro finished hfinished
    rw [hfinished] at h
    simpa [Except.map, Option.isSome_iff_ne_none] using h
  refine ⟨_, rfl, audit_trail_complete exampleEnv beforeBlock _ [blocks 2, blocks 1] ?_ rfl⟩
  refine along_cons_of (hsucceed (by decide +kernel)) rfl ?_
  exact along_cons_of (hsucceed (by decide +kernel)) rfl trivial

end App

end IsolatedEnv.Backend
