import IsolatedEnv.Backend.App
import IsolatedEnv.Backend.Core.Auth
import IsolatedEnv.Foundation.Exceptions

/-!
# Where a refusal comes from

A request is refused with 401 or 403 by the dependencies alone.  No endpoint raises such an
answer, whatever Authentik says to it, its own refusals included.
-/

namespace IsolatedEnv.Backend

open IsolatedEnv.Foundation

/-- The status an exception is answered with. -/
def Exc.statusCode : Exc → Nat
  | .http statusCode _ | .app statusCode _ => statusCode
  | _ => 500

def Exc.Refuses (e : Exc) : Prop := e.statusCode = 401 ∨ e.statusCode = 403

instance (e : Exc) : Decidable e.Refuses := inferInstanceAs (Decidable (_ ∨ _))

/-- Nothing it raises is a refusal. -/
abbrev NotRefused {α : Type} (x : Except Exc α) : Prop := Raises (fun e => ¬e.Refuses) x

section Exceptions

theorem businessRuleError_answers (detail : String) :
    ¬(Exc.businessRuleError detail).Refuses :=
  show ¬(400 = 401 ∨ 400 = 403) by decide

theorem notFoundError_answers (detail : String) : ¬(Exc.notFoundError detail).Refuses :=
  show ¬(404 = 401 ∨ 404 = 403) by decide

variable {α : Type} {x : Except Exc α}

theorem isDatabase_notRefused {e : Exc} (h : e.isDatabase = true) : ¬e.Refuses := by
  cases e <;> first | decide | cases h

theorem notRefused_of_sqlalchemy (h : ∀ e, x = .error e → e = .sqlalchemy) : NotRefused x :=
  fun e he => h e he ▸ by decide

end Exceptions

/-! ## Authentik -/

section Authentik

variable {env : Env} {providerId : String} {reply : Reply} {replies : AuthentikReplies}

theorem await_notRefused : NotRefused reply.await := by
  cases reply with
  | response r => exact .ok r
  | networkError => exact .error (by decide)

theorem raiseForStatus_notRefused (r : Response) : NotRefused r.raiseForStatus :=
  .ite (fun _ => .ok ()) fun _ => .error (by decide)

theorem json_notRefused (r : Response) : NotRefused r.json := by
  unfold Response.json
  split
  · exact .ok _
  · exact .error (by decide)

theorem pyGet_notRefused (value : Json) (name : String) (default : Json) :
    NotRefused (pyGet value name default) := by
  unfold pyGet
  split
  · exact .ok _
  · exact .error (by decide)

theorem pyItem_notRefused (value : Json) (name : String) : NotRefused (pyItem value name) := by
  unfold pyItem
  split
  · split
    · exact .ok _
    · exact .error (by decide)
  · exact .error (by decide)

theorem pyIter_notRefused (value : Json) : NotRefused (pyIter value) := by
  unfold pyIter
  split
  · exact .ok _
  · exact .ok _
  · exact .ok _
  · exact .error (by decide)

theorem authentikHeaders_notRefused : NotRefused (authentikHeaders env) :=
  .ite (fun _ => .error (businessRuleError_answers _)) fun _ => .ok ()

theorem searchResults_notRefused : NotRefused (searchResults reply) :=
  .bind await_notRefused fun resp _ => .bind (raiseForStatus_notRefused resp) fun _ _ =>
    .bind (json_notRefused resp) fun value _ => pyGet_notRefused value _ _

theorem findByUid_notRefused (py : Python) (users : List Json) :
    NotRefused (findByUid py providerId users) := by
  induction users with
  | nil => exact .ok none
  | cons user rest ih =>
      exact .bind (pyGet_notRefused user _ _) fun uid _ => .ite (fun _ => .ok _) fun _ => ih

theorem findByName_notRefused (groupName : String) (groups : List Json) :
    NotRefused (findByName groupName groups) := by
  induction groups with
  | nil => exact .ok none
  | cons g rest ih =>
      exact .bind (pyGet_notRefused g _ _) fun name _ => .ite (fun _ => .ok _) fun _ => ih

theorem authentikGetUserPk_notRefused : NotRefused (authentikGetUserPk env providerId reply) := by
  refine .bind authentikHeaders_notRefused fun _ _ => .bind searchResults_notRefused
    fun results _ => .ite (fun _ => ?_) fun _ => .error (businessRuleError_answers _)
  refine .bind (pyIter_notRefused results) fun users _ =>
    .bind (findByUid_notRefused env.python users) fun found _ => ?_
  cases found with
  | none => exact .error (businessRuleError_answers _)
  | some user => exact pyItem_notRefused user "pk"

theorem authentikGetGroupPk_notRefused (groupName : String) :
    NotRefused (authentikGetGroupPk env groupName reply) := by
  refine .bind authentikHeaders_notRefused fun _ _ => .bind searchResults_notRefused
    fun results _ => .bind (pyIter_notRefused results) fun groups _ =>
      .bind (findByName_notRefused groupName groups) fun found _ => ?_
  cases found with
  | none => exact .error (businessRuleError_answers _)
  | some g => exact pyItem_notRefused g "pk"

theorem groupMove_notRefused (oldRole newRole : UserRole) :
    NotRefused (groupMove env providerId oldRole newRole replies) :=
  .bind authentikGetUserPk_notRefused fun _ _ => .bind (authentikGetGroupPk_notRefused _)
    fun _ _ => .bind (authentikGetGroupPk_notRefused _) fun _ _ => .ok _

theorem callUnder_notRefused (text : String) : NotRefused (callUnder env text reply) :=
  .ite (fun _ => await_notRefused) fun _ => .error (by decide)

theorem removeUserStatus_notRefused (group : String) :
    NotRefused (removeUserStatus env group reply) :=
  .bind (callUnder_notRefused group) fun resp _ =>
    .ite (fun _ => .ok ()) fun _ => raiseForStatus_notRefused resp

theorem addUserStatus_notRefused (group : String) :
    NotRefused (addUserStatus env group reply) :=
  .bind (callUnder_notRefused group) fun resp _ => raiseForStatus_notRefused resp

theorem authentikChangeGroup_notRefused (oldRole newRole : UserRole) (members : Memberships) :
    NotRefused (authentikChangeGroup env providerId oldRole newRole replies members).1 := by
  unfold authentikChangeGroup
  split
  · rename_i e hmove
    exact .error (groupMove_notRefused oldRole newRole e hmove)
  · dsimp only
    split
    · rename_i e hremove
      exact .error (removeUserStatus_notRefused _ e hremove)
    · exact addUserStatus_notRefused _

theorem callAccount_notRefused (pk : Json) : NotRefused (callAccount env pk reply) :=
  callUnder_notRefused _

theorem authentikSetPassword_notRefused :
    NotRefused (authentikSetPassword env providerId replies) :=
  .bind authentikGetUserPk_notRefused fun pk _ => .bind (callAccount_notRefused pk)
    fun resp _ => raiseForStatus_notRefused resp

end Authentik

/-! ## The services -/

section Services

variable {env : Env} {t : UsersTable} {userId : Uuid} {admin target : User} {tick : Tick}
  {newRole : UserRole} {isActive : Bool} {request : Request} {db : Database}
  {members : Memberships}

theorem getUserById_notRefused : NotRefused (UserService.getUserById t userId) := by
  unfold UserService.getUserById
  split
  · exact .ok _
  · exact .error (notFoundError_answers _)

theorem save_notRefused (user : User) : NotRefused (t.save user tick) :=
  notRefused_of_sqlalchemy fun _ => UsersTable.save_error

theorem changeRole_notRefused : NotRefused (UserService.changeRole t target newRole admin tick) :=
  .ite (fun _ => .error (businessRuleError_answers _)) fun _ => save_notRefused _

theorem setActive_notRefused : NotRefused (UserService.setActive t userId isActive admin tick) :=
  .ite (fun _ => .error (businessRuleError_answers _)) fun _ =>
    .bind getUserById_notRefused fun _ _ => save_notRefused _

theorem deleteUser_notRefused : NotRefused (UserService.deleteUser t userId admin) :=
  .ite (fun _ => .error (businessRuleError_answers _)) fun _ =>
    .bind getUserById_notRefused fun _ _ => .ok _

theorem deleteOwnAccount_notRefused {providerId : String} {replies : AuthentikReplies} :
    NotRefused (UserService.deleteOwnAccount env providerId replies) := by
  have hfind : NotRefused (UserService.findOwnPk env.python providerId replies.userSearch) := by
    refine .bind searchResults_notRefused fun results _ => .bind (pyIter_notRefused results)
      fun users _ => .bind (findByUid_notRefused env.python users) fun found _ => ?_
    cases found with
    | none => exact .ok none
    | some user => exact .map (pyItem_notRefused user "pk")
  refine .bind hfind fun pk _ => ?_
  cases pk with
  | none => exact .ok ()
  | some pk => exact .map (callAccount_notRefused pk)

theorem deleteSelf_notRefused {user : User} {replies : AuthentikReplies} :
    NotRefused (UserService.deleteSelf env t user replies) := by
  refine .bind (fun e he => ?_) fun _ _ => .ok _
  unfold UserService.tolerateRemote at he
  split at he
  · cases he
  · cases he
  · exact deleteOwnAccount_notRefused e he

theorem adminChangeRole_notRefused :
    NotRefused (AdminRouter.changeRole env request userId newRole members admin db).1 := by
  unfold AdminRouter.changeRole
  split
  · rename_i e hget
    exact .error (getUserById_notRefused e hget)
  · rename_i target hget
    split
    · rename_i e members' hchange
      exact .error (authentikChangeGroup_notRefused _ _ _ e (congrArg Prod.fst hchange))
    · exact .bind changeRole_notRefused fun _ _ => .ok _

theorem adminBlockUser_notRefused :
    NotRefused (AdminRouter.blockUser env request userId isActive members admin db).1 :=
  .bind setActive_notRefused fun _ _ => .ok _

theorem adminResetPassword_notRefused :
    NotRefused (AdminRouter.resetPassword env request userId members admin db).1 :=
  .bind getUserById_notRefused fun _ _ => .bind authentikSetPassword_notRefused fun _ _ => .ok _

theorem adminDeleteUser_notRefused :
    NotRefused (AdminRouter.deleteUser env request userId members admin db).1 := by
  refine .bind getUserById_notRefused fun target _ => .bind deleteUser_notRefused fun users _ => ?_
  dsimp only
  split <;> exact .ok _

end Services

/-! ## Listings -/

section Listings

variable {env : Env} {t : UsersTable}

theorem decodePayload_notRefused (cursor : String) : NotRefused (decodePayload cursor) := by
  unfold decodePayload
  split
  · exact .ok _
  · exact .error (by decide)

theorem decodeCreatedAt_notRefused (decoded : Json) : NotRefused (decodeCreatedAt decoded) := by
  refine .bind (pyItem_notRefused decoded "c") fun value _ => ?_
  split
  · split
    · exact .ok _
    · exact .error (by decide)
  · exact .error (by decide)

theorem decodeId_notRefused (decoded : Json) : NotRefused (decodeId decoded) := by
  refine .bind (pyItem_notRefused decoded "i") fun value _ => ?_
  split
  · split
    · exact .ok _
    · exact .error (by decide)
  · exact .error (by decide)
  · exact .error (by decide)

theorem readCursor_notRefused (cursor : String) : NotRefused (readCursor cursor) := by
  have hcreatedAt : NotRefused (decodePayload cursor >>= decodeCreatedAt) :=
    .bind (decodePayload_notRefused cursor) fun decoded _ => decodeCreatedAt_notRefused decoded
  have hid : NotRefused (decodePayload cursor >>= decodeId) :=
    .bind (decodePayload_notRefused cursor) fun decoded _ => decodeId_notRefused decoded
  intro e he
  unfold readCursor at he
  dsimp only at he
  split at he <;> cases he
  · exact hid e ‹_›
  · exact hcreatedAt e ‹_›

theorem select_notRefused {α : Type} (texts : List String) (numbers : List Nat) (rows : α) :
    NotRefused (select texts numbers rows) :=
  .ite (fun _ => .ok _) fun _ => .error (by decide)

theorem listUsers_notRefused (filter : UserFilter) (offset limit : Nat) (rank : Uuid → Nat) :
    NotRefused (UserService.listUsers env t filter offset limit rank) :=
  .bind (select_notRefused _ _ _) fun _ _ => .bind (select_notRefused _ _ _) fun _ _ => .ok _

theorem listEntries_notRefused {db : Database} (filter : AuditFilter) (offset limit : Nat)
    (rank : Uuid → Nat) : NotRefused (listEntries env db filter offset limit rank) :=
  .bind (select_notRefused _ _ _) fun _ _ => .bind (select_notRefused _ _ _) fun _ _ => .ok _

theorem listUsersCursor_notRefused (filter : UserFilter) (cursor : Option String) (limit : Nat) :
    NotRefused (UserService.listUsersCursor env t filter cursor limit) := by
  have harguments : NotRefused (cursorArguments cursor) := by
    cases cursor with
    | none => exact .ok _
    | some cursor => exact .ite (fun _ => .ok _) fun _ => readCursor_notRefused cursor
  refine .bind harguments fun arguments _ => .bind ?_ fun users _ => .ok _
  refine .bind ?_ fun after _ => select_notRefused _ _ _
  unfold sendPosition
  split
  · refine .map ?_
    unfold sendTime
    split
    · exact .error (by decide)
    · exact .ite (fun _ => .ok _) fun _ => .error (by decide)
  · exact .ok _

end Listings

/-! ## Items -/

section Items

variable {db : Database} {itemId owner : Uuid}

theorem setItems_notRefused (items : List Item) : NotRefused (db.setItems items) := by
  unfold Database.setItems
  split
  · exact .ok _
  · exact .error (by decide)

theorem findItem_notRefused : NotRefused (ItemService.findItem db itemId owner) := by
  unfold ItemService.findItem
  split
  · exact .ok _
  · exact .error (notFoundError_answers _)

theorem update_notRefused (item : Item) (data : ItemUpdate) (now : Timestamp) :
    NotRefused (ItemRepository.update db item data now) := by
  unfold ItemRepository.update
  split
  · exact .error (by decide)
  · exact .ite (fun _ => .ok _) fun _ => .map (setItems_notRefused _)

theorem written_notRefused {α : Type} {request : Request} {cache : ItemCache}
    {result : Except Exc (α × Database)} (h : NotRefused result) :
    NotRefused (ItemService.written owner request cache result).1 := by
  cases result with
  | ok p => exact .ok p
  | error e => exact h

theorem listItems_notRefused (offset limit : Nat) (request : Request) (cache : ItemCache) :
    NotRefused (ItemService.listItems db owner offset limit request cache).1 :=
  .map fun _ he => nomatch Cache.cached_error he

theorem ItemRoute.endpoint_notRefused {route : ItemRoute} {request : Request}
    {cache : ItemCache} {endpoint : Uuid → ItemOutcome Answer}
    (h : route.endpoint request db cache = some endpoint) (owner : Uuid) :
    NotRefused (endpoint owner).1 := by
  cases route with
  | listItems params =>
      obtain ⟨⟨offset, limit⟩, -, rfl⟩ := Option.map_eq_some_iff.mp h
      exact .map (listItems_notRefused offset limit request cache)
  | getItem params =>
      obtain ⟨itemId, -, rfl⟩ := Option.map_eq_some_iff.mp h
      exact .map (.map findItem_notRefused)
  | createItem params =>
      obtain ⟨data, -, rfl⟩ := Option.map_eq_some_iff.mp h
      exact .map (written_notRefused (.bind (.map (setItems_notRefused _)) fun _ _ => .ok _))
  | updateItem params =>
      obtain ⟨⟨itemId, data⟩, -, rfl⟩ := Option.map_eq_some_iff.mp h
      exact .map (written_notRefused (.bind findItem_notRefused fun item _ =>
        .bind (update_notRefused item data _) fun _ _ => .ok _))
  | deleteItem params =>
      obtain ⟨itemId, -, rfl⟩ := Option.map_eq_some_iff.mp h
      exact .map (written_notRefused (.bind findItem_notRefused fun _ _ =>
        .bind (setItems_notRefused _) fun _ _ => .ok _))

end Items

/-! ## The routes -/

variable {env : Env} {request : Request} {db : Database} {members : Memberships}

theorem UserRoute.endpoint_notRefused {route : UserRoute}
    {endpoint : User → Database → Outcome Answer}
    (h : route.endpoint env request members = some endpoint) (user : User) (db : Database) :
    NotRefused (endpoint user db).1 := by
  cases route with
  | getMe | getRole | freeContent | paidContent =>
      cases h
      exact .ok _
  | deleteSelf =>
      cases h
      exact .map (.bind deleteSelf_notRefused fun _ _ => .ok _)
  | listUsers params =>
      obtain ⟨p, -, rfl⟩ := Option.map_eq_some_iff.mp h
      exact .map (listUsers_notRefused _ _ _ _)
  | listAuditLog params =>
      obtain ⟨p, -, rfl⟩ := Option.map_eq_some_iff.mp h
      exact .map (listEntries_notRefused _ _ _ _)
  | listUsersV2 params =>
      obtain ⟨p, -, rfl⟩ := Option.map_eq_some_iff.mp h
      exact .map (listUsersCursor_notRefused _ _ _)
  | changeRole params =>
      obtain ⟨p, -, rfl⟩ := Option.map_eq_some_iff.mp h
      exact .map adminChangeRole_notRefused
  | blockUser params =>
      obtain ⟨p, -, rfl⟩ := Option.map_eq_some_iff.mp h
      exact .map adminBlockUser_notRefused
  | resetPassword params =>
      obtain ⟨p, -, rfl⟩ := Option.map_eq_some_iff.mp h
      exact .map adminResetPassword_notRefused
  | deleteUser params =>
      obtain ⟨p, -, rfl⟩ := Option.map_eq_some_iff.mp h
      exact .map adminDeleteUser_notRefused

/-- The request's record, looked up or brought up to date, is blocked. -/
def App.FindsBlocked (env : Env) (request : Request) (app : App) : Prop :=
  ∃ user users, lookupUser env request.auth request.tick app.db.users = .ok (user, users) ∧
    user.isActive = false

theorem profile_notRefused (req : AuthRequest) : NotRefused (req.profile env) := by
  have huserinfo : NotRefused (fetchUserinfo req.userinfo) := by
    refine .bind await_notRefused fun r _ => .ite (fun _ => ?_) fun _ => .ok _
    refine .bind (json_notRefused r) fun value _ => ?_
    split <;> exact .ok _
  exact .ite (fun _ => .bind huserinfo fun _ _ => .ok _) fun _ => .ok _

theorem lookupUser_notRefused (req : AuthRequest) (tick : Tick) (t : UsersTable) :
    NotRefused (lookupUser env req tick t) :=
  .bind (profile_notRefused req) fun _ _ => notRefused_of_sqlalchemy fun _ => resolveUser_error

/-- A database that fails the look-up refuses nobody, and answers for nobody. -/
theorem getCurrentDbUser_failing {call : Authentication} {failure : DatabaseFailure}
    (hfailure : call.database = some failure) (env : Env) (req : AuthRequest) (tick : Tick)
    (t : UsersTable) :
    ∃ e, call.getCurrentDbUser env req tick t = .error e ∧ ¬e.Refuses := by
  have hlookup : ∃ e, call.lookup env req tick t = .error e ∧ ¬e.Refuses := by
    unfold Authentication.lookup
    rw [hfailure]
    cases hprofile : req.profile env with
    | error e => exact ⟨e, rfl, profile_notRefused req e hprofile⟩
    | ok profile => exact ⟨failure.val, rfl, isDatabase_notRefused failure.property⟩
  obtain ⟨e, hlookup, hanswers⟩ := hlookup
  rw [Authentication.getCurrentDbUser, hlookup]
  refine ⟨_, rfl, ?_⟩
  split
  · decide
  · exact hanswers

theorem getCurrentDbUser_error {req : AuthRequest} {tick : Tick} {t : UsersTable} {e : Exc}
    (h : getCurrentDbUser env req tick t = .error e) (he : e.Refuses) :
    e = accountBlocked ∧ ∃ user users, lookupUser env req tick t = .ok (user, users) ∧
      user.isActive = false := by
  unfold getCurrentDbUser at h
  cases hlookup : lookupUser env req tick t with
  | error failure =>
      rw [hlookup] at h
      obtain rfl := Except.error.inj h
      by_cases hdatabase : failure.isDatabase
      · rw [if_pos hdatabase] at he
        exact absurd he (by decide)
      · rw [if_neg hdatabase] at he
        exact absurd he (lookupUser_notRefused req tick t failure hlookup)
  | ok p =>
      rw [hlookup] at h
      change (if p.1.isActive then _ else _) = _ at h
      split at h
      · cases h
      · rename_i hblocked
        exact ⟨(Except.error.inj h).symm, p.1, p.2, rfl, eq_false_of_ne_true hblocked⟩

theorem guarded_error {dependency : Except Exc (User × UsersTable)}
    {endpoint : User → Database → Outcome Answer} {e : Exc}
    (hendpoint : ∀ user db, NotRefused (endpoint user db).1)
    (h : (guarded dependency request db members endpoint).1 = .error e) (he : e.Refuses) :
    dependency = .error e := by
  cases dependency with
  | error failure =>
      cases h
      rfl
  | ok p =>
      unfold guarded at h
      dsimp only at h
      split at h
      · cases h
        exact absurd he (by decide)
      · exact absurd he (hendpoint p.1 _ e h)

variable {app : App} {e : Exc}

/-- The endpoint, or the refusal of its parameters. -/
theorem UserRoute.checked_notRefused (route : UserRoute) (user : User) (db : Database) :
    NotRefused ((route.endpoint env request members).getD
      (fun _ _ => (.error unprocessable, members)) user db).1 := by
  cases hfound : route.endpoint env request members with
  | none => exact .error (by decide)
  | some endpoint => exact UserRoute.endpoint_notRefused hfound user db

theorem serve_granted_notRefused {route : UserRoute} {role : UserRole} {p : User × UsersTable}
    (hgate : route.gate = some role)
    (hrequire : requireRole env [role] request.auth request.tick app.db.users = .ok p) :
    NotRefused (app.serve env request (.user route)).1 := by
  intro e h he
  have hresult : (route.serve env request app.db app.members).1 = .error e := map_eq_error.mp h
  unfold UserRoute.serve at hresult
  dsimp only at hresult
  rw [hgate] at hresult
  cases hrequire.symm.trans (guarded_error route.checked_notRefused hresult he)

/-- A route behind a record refuses a blocked record, and one without the role. -/
theorem serve_user_refuses {route : UserRoute}
    (h : (app.serve env request (.user route)).1 = .error e) (he : e.Refuses) :
    (e = accountBlocked ∧ app.FindsBlocked env request) ∨ e = insufficientPermissions := by
  have hresult : (route.serve env request app.db app.members).1 = .error e := map_eq_error.mp h
  unfold UserRoute.serve at hresult
  dsimp only at hresult
  cases hgate : route.gate with
  | none =>
      rw [hgate] at hresult
      exact .inl (getCurrentDbUser_error (guarded_error route.checked_notRefused hresult he) he)
  | some role =>
      rw [hgate] at hresult
      have hrequire := guarded_error route.checked_notRefused hresult he
      dsimp only at hrequire
      unfold requireRole at hrequire
      cases hcurrent : getCurrentDbUser env request.auth request.tick app.db.users with
      | error failure =>
          rw [hcurrent] at hrequire
          cases hrequire
          exact .inl (getCurrentDbUser_error hcurrent he)
      | ok p =>
          rw [hcurrent] at hrequire
          change (if allowedRole [role] p.1.role then _ else _) = _ at hrequire
          split at hrequire
          · cases hrequire
          · exact .inr (Except.error.inj hrequire).symm

/-- No route behind a record gets past a look-up that ends in an error. -/
theorem serve_user_of_error (route : UserRoute)
    (h : getCurrentDbUser env request.auth request.tick app.db.users = .error e) :
    (app.serve env request (.user route)).1 = .error e := by
  have hserve : route.serve env request app.db app.members = (.error e, app.members) := by
    unfold UserRoute.serve
    dsimp only
    cases route.gate with
    | none => simp [asUser, guarded, h]
    | some role =>
        have hrequire : requireRole env [role] request.auth request.tick app.db.users =
            .error e := by
          rw [requireRole, h]
          rfl
        simp [asRole, guarded, hrequire]
  simp [App.serve, hserve, Except.map]

theorem getCurrentDbUser_finds_blocked (h : app.FindsBlocked env request) :
    getCurrentDbUser env request.auth request.tick app.db.users = .error accountBlocked := by
  obtain ⟨user, users, hlookup, hinactive⟩ := h
  rw [getCurrentDbUser, hlookup]
  change (if user.isActive then _ else _) = _
  rw [hinactive]
  rfl

/-- The routes behind an owner ask neither for an account nor for a role. -/
theorem serve_item_notRefused (route : ItemRoute) :
    NotRefused (app.serve env request (.item route)).1 := by
  suffices hserve : NotRefused (route.serve env request app.db app.cache).1 from .map hserve
  unfold ItemRoute.serve asOwner
  dsimp only
  split
  · rename_i e howner
    unfold ownerId at howner
    split at howner
    · cases howner
      exact .error (by decide)
    · split at howner <;> cases howner
      exact .error (by decide)
  · split
    · exact .error (by decide)
    · cases hfound : route.endpoint request app.db app.cache with
      | none => exact .error (by decide)
      | some endpoint => exact ItemRoute.endpoint_notRefused hfound _

end IsolatedEnv.Backend
