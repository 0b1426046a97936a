import IsolatedEnv.Backend.FeatureExample.Items
import IsolatedEnv.Backend.Users.AdminRouter
import IsolatedEnv.Backend.Users.Listing
import IsolatedEnv.Foundation.Run

/-!
# The application

Every authenticated route of the five routers, for requests handled one after
another.  `none` in place of parameters stands for ones that fail their
validation, which comes after the dependencies and before the rate limiter.
-/

namespace IsolatedEnv.Backend

open IsolatedEnv.Foundation

/-! ## Routes and answers -/

inductive UserRoute where
  | getMe
  | getRole
  | deleteSelf
  | listUsers (params : Option (UserFilter × Nat × Nat))
  | listUsersV2 (params : Option (UserFilter × Option String × Nat))
  | changeRole (params : Option (Uuid × UserRole))
  | blockUser (params : Option (Uuid × Bool))
  | resetPassword (params : Option Uuid)
  | deleteUser (params : Option Uuid)
  | listAuditLog (params : Option (AuditFilter × Nat × Nat))
  | freeContent
  | paidContent

inductive ItemRoute where
  | listItems (params : Option (Nat × Nat))
  | getItem (params : Option Uuid)
  | createItem (params : Option ItemCreate)
  | updateItem (params : Option (Uuid × ItemUpdate))
  | deleteItem (params : Option Uuid)

inductive Route where
  | user (route : UserRoute)
  | item (route : ItemRoute)

inductive Answer where
  | me (user : UserResponse)
  | role (role : UserRole)
  | noContent
  | users (listing : UserListResponse)
  | usersPage (items : List UserResponse) (nextCursor : Option String)
  | user (user : UserResponse)
  | temporaryPassword
  | auditLog (listing : AuditLogListResponse)
  | content (title body : String) (userRole : UserRole)
  | items (items : List ItemResponse)
  | item (item : ItemResponse)

/-- `RequestValidationError`. -/
def unprocessable : Exc := .http 422 "Unprocessable Content"

def Outcome.answer {α : Type} (outcome : Outcome α) (f : α → Answer) :
    Outcome Answer :=
  (outcome.1.map fun finished => ⟨f finished.value, finished.tables⟩, outcome.2)

def ItemOutcome.answer {α : Type} (outcome : ItemOutcome α) (f : α → Answer) :
    ItemOutcome Answer :=
  (outcome.1.map fun p => (f p.1, p.2), outcome.2)

/-! ## Routes behind a record -/

def UserRouter.deleteSelf (env : Env) (request : Request) (members : Memberships)
    (user : User) (db : Database) : Outcome Unit :=
  (do
    let users ← UserService.deleteSelf env db.users user request.authentik
    .ok ⟨(), record (db.setUsers users) request.auditFailure
      (request.auditEntry user .deleteSelf user.id user.email none
        request.clientAddress)⟩, members)

namespace UserRoute

/-- The role `require_role` asks for; `none` is `CurrentUser`. -/
def gate : UserRoute → Option UserRole
  | getMe | getRole | deleteSelf | freeContent => none
  | paidContent => some .paid
  | listUsers _ | listUsersV2 _ | changeRole _ | blockUser _ | resetPassword _
  | deleteUser _ | listAuditLog _ => some .admin

def endpoint (env : Env) (request : Request) (members : Memberships) :
    UserRoute → Option (User → Database → Outcome Answer)
  | getMe => some fun user db => (.ok ⟨.me user.response, some db⟩, members)
  | getRole => some fun user db => (.ok ⟨.role user.role, some db⟩, members)
  | deleteSelf => some fun user db =>
      (UserRouter.deleteSelf env request members user db).answer fun _ => .noContent
  | listUsers params => params.map fun (filter, offset, limit) _ db =>
      ((UserService.listUsers env db.users filter offset limit request.rank).map
        fun listing => ⟨.users listing, some db⟩, members)
  | listUsersV2 params => params.map fun (filter, cursor, limit) _ db =>
      ((UserService.listUsersCursor env db.users filter cursor limit).map fun page =>
        ⟨.usersPage (page.1.map User.response) page.2, some db⟩, members)
  | changeRole params => params.map fun (userId, newRole) user db =>
      (AdminRouter.changeRole env request userId newRole members user db).answer .user
  | blockUser params => params.map fun (userId, isActive) user db =>
      (AdminRouter.blockUser env request userId isActive members user db).answer .user
  | resetPassword params => params.map fun userId user db =>
      (AdminRouter.resetPassword env request userId members user db).answer
        fun _ => .temporaryPassword
  | deleteUser params => params.map fun userId user db =>
      (AdminRouter.deleteUser env request userId members user db).answer
        fun _ => .noContent
  | listAuditLog params => params.map fun (filter, offset, limit) _ db =>
      ((listEntries env db filter offset limit request.rank).map
        fun listing => ⟨.auditLog listing, some db⟩, members)
  | freeContent => some fun user db =>
      (.ok ⟨.content "Free Content"
        "This content is available to all authenticated users." user.role,
        some db⟩, members)
  | paidContent => some fun user db =>
      (.ok ⟨.content "Paid Content"
        "This premium content is available to paid and admin users." user.role,
        some db⟩, members)

def serve (env : Env) (request : Request) (db : Database) (members : Memberships)
    (route : UserRoute) : Outcome Answer :=
  let found := route.endpoint env request members
  let endpoint := found.getD fun _ _ => (.error unprocessable, members)
  let request := { request with limited := request.limited && found.isSome }
  match route.gate with
  | none => asUser env request db members endpoint
  | some role => asRole env role request db members endpoint

end UserRoute

/-! ## Routes behind an owner -/

namespace ItemRoute

def endpoint (request : Request) (db : Database) (cache : ItemCache) :
    ItemRoute → Option (Uuid → ItemOutcome Answer)
  | listItems params => params.map fun (offset, limit) owner =>
      (ItemService.listItems db owner offset limit request cache).answer .items
  | getItem params => params.map fun itemId owner =>
      (ItemService.getItem db itemId owner cache).answer .item
  | createItem params => params.map fun data owner =>
      (ItemService.createItem db data owner request cache).answer .item
  | updateItem params => params.map fun (itemId, data) owner =>
      (ItemService.updateItem db itemId data owner request cache).answer .item
  | deleteItem params => params.map fun itemId owner =>
      (ItemService.deleteItem db itemId owner request cache).answer fun _ => .noContent

def serve (env : Env) (request : Request) (db : Database) (cache : ItemCache)
    (route : ItemRoute) : ItemOutcome Answer :=
  let found := route.endpoint request db cache
  asOwner env { request with limited := request.limited && found.isSome } cache
    (found.getD fun _ => (.error unprocessable, cache))

end ItemRoute

/-! ## Runs -/

structure App where
  db : Database
  members : Memberships
  cache : ItemCache

namespace App

def start : App := ⟨.empty, ∅, .empty⟩

def serve (env : Env) (request : Request) (app : App) :
    Route → Except Exc Answer × App
  | .user route =>
      let (result, members) := route.serve env request app.db app.members
      (result.map Finished.value,
        { app with db := settle result app.db, members := members })
  | .item route =>
      let (result, cache) := route.serve env request app.db app.cache
      (result.map Prod.fst,
        { app with db := (result.map Prod.snd).toOption.getD app.db, cache := cache })

/-- A request, or a cache entry or lock that goes. -/
inductive Event where
  | request (request : Request) (route : Route)
  | expire (key : String)

def step (env : Env) (app : App) : Event → Option App
  | .request request route => some (app.serve env request route).2
  | .expire key => some { app with cache := app.cache.expire key }

end App

/-! ## A request that is refused changes nothing in the database -/

variable {env : Env} {request : Request} {app : App}

theorem serve_changeRole (userId : Uuid) (newRole : UserRole) (db : Database)
    (members : Memberships) :
    UserRoute.serve env request db members (.changeRole (some (userId, newRole))) =
      (AdminRouter.changeRoleRoute env request userId newRole db members).answer
        .user := by
  unfold AdminRouter.changeRoleRoute UserRoute.serve asRole guarded
  dsimp only [UserRoute.gate, UserRoute.endpoint]
  cases requireRole env [.admin] request.auth request.tick db.users with
  | error e => rfl
  | ok p =>
      cases request.limited <;> rfl

theorem serve_error_db {route : Route} {e : Exc}
    (h : (app.serve env request route).1 = .error e) :
    (app.serve env request route).2.db = app.db := by
  cases route with
  | user route =>
      have hresult : (route.serve env request app.db app.members).1 = .error e :=
        map_eq_error.mp h
      simp [App.serve, hresult]
  | item route =>
      have hresult : (route.serve env request app.db app.cache).1 = .error e :=
        map_eq_error.mp h
      simp [App.serve, hresult, Except.map, Except.toOption]

/-! ## What a request does to the records -/

theorem written_same {α : Type} {db db' : Database} {owner : Uuid} {cache : ItemCache}
    {result : Except Exc (α × Database)} {a : α}
    (hresult : ∀ p, result = .ok p → db.SameRecords p.2)
    (h : (ItemService.written owner request cache result).1 = .ok (a, db')) :
    db.SameRecords db' := by
  cases result with
  | error e => cases h
  | ok p =>
      cases h
      exact hresult _ rfl

theorem ItemRoute.endpoint_same {route : ItemRoute} {db db' : Database}
    {cache : ItemCache} {owner : Uuid} {answer : Answer}
    {endpoint : Uuid → ItemOutcome Answer}
    (hendpoint : route.endpoint request db cache = some endpoint)
    (h : (endpoint owner).1 = .ok (answer, db')) : db.SameRecords db' := by
  cases route with
  | listItems params =>
      obtain ⟨⟨offset, limit⟩, -, rfl⟩ := Option.map_eq_some_iff.mp hendpoint
      obtain ⟨p, hp, hanswer⟩ := exists_ok h
      obtain ⟨items, -, rfl⟩ := exists_ok hp
      cases hanswer
      exact ⟨rfl, rfl⟩
  | getItem params =>
      obtain ⟨itemId, -, rfl⟩ := Option.map_eq_some_iff.mp hendpoint
      obtain ⟨p, hp, hanswer⟩ := exists_ok h
      obtain ⟨item, -, rfl⟩ := exists_ok hp
      cases hanswer
      exact ⟨rfl, rfl⟩
  | createItem params =>
      obtain ⟨data, -, rfl⟩ := Option.map_eq_some_iff.mp hendpoint
      obtain ⟨p, hp, hanswer⟩ := exists_ok h
      cases hanswer
      refine written_same (fun q hq => ?_) hp
      obtain ⟨created, hcreate, hq⟩ := bind_eq_ok.mp hq
      cases hq
      exact ItemRepository.create_same hcreate
  | updateItem params =>
      obtain ⟨⟨itemId, data⟩, -, rfl⟩ := Option.map_eq_some_iff.mp hendpoint
      obtain ⟨p, hp, hanswer⟩ := exists_ok h
      cases hanswer
      refine written_same (fun q hq => ?_) hp
      obtain ⟨item, -, hq⟩ := bind_eq_ok.mp hq
      obtain ⟨updated, hupdate, hq⟩ := bind_eq_ok.mp hq
      cases hq
      exact ItemRepository.update_same hupdate
  | deleteItem params =>
      obtain ⟨itemId, -, rfl⟩ := Option.map_eq_some_iff.mp hendpoint
      obtain ⟨p, hp, hanswer⟩ := exists_ok h
      cases hanswer
      refine written_same (fun q hq => ?_) hp
      obtain ⟨item, -, hq⟩ := bind_eq_ok.mp hq
      obtain ⟨deleted, hdelete, hq⟩ := bind_eq_ok.mp hq
      cases hq
      exact Database.setItems_same hdelete

theorem serve_item_same (route : ItemRoute) :
    app.db.SameRecords (app.serve env request (.item route)).2.db := by
  have hserve : ∀ answer db',
      (route.serve env request app.db app.cache).1 = .ok (answer, db') →
        app.db.SameRecords db' := by
    intro answer db' h
    unfold ItemRoute.serve asOwner at h
    dsimp only at h
    cases howner : ownerId env request.auth with
    | error e => simp [howner] at h
    | ok owner =>
        simp only [howner] at h
        split at h
        · cases h
        · cases hendpoint : route.endpoint request app.db app.cache with
          | none =>
              rw [hendpoint] at h
              cases h
          | some endpoint =>
              rw [hendpoint] at h
              exact ItemRoute.endpoint_same hendpoint h
  unfold App.serve
  dsimp only
  cases hresult : (route.serve env request app.db app.cache).1 with
  | error e => exact ⟨rfl, rfl⟩
  | ok p => exact hserve p.1 p.2 hresult

theorem serve_item_users (route : ItemRoute) :
    (app.serve env request (.item route)).2.db.users = app.db.users :=
  (serve_item_same route).1

/--
What an endpoint leaves of the records: it creates none, and the ones that
remain keep their identity.
-/
def Keeps (t t' : UsersTable) : Prop :=
  ∀ v ∈ t'.rows, ∃ u ∈ t.rows, u.id = v.id ∧ u.providerId = v.providerId ∧
    u.email = v.email

theorem Keeps.refl (t : UsersTable) : Keeps t t :=
  fun v hv => ⟨v, hv, rfl, rfl, rfl⟩

theorem keeps_save {t t' : UsersTable} {target new row : User} {tick : Tick}
    (hmem : target ∈ t.rows) (hid : new.id = target.id)
    (hproviderId : new.providerId = target.providerId) (hemail : new.email = target.email)
    (h : t.save new tick = .ok (row, t')) : Keeps t t' := by
  intro v hv
  rcases (UsersTable.mem_save h).mp hv with ⟨hv, -⟩ | rfl
  · exact ⟨v, hv, rfl, rfl, rfl⟩
  · rw [(UsersTable.save_ok h).1]
    exact ⟨target, hmem, hid.symm, hproviderId.symm, hemail.symm⟩

theorem updateRole_keeps {t t' : UsersTable} {target row : User} {newRole : UserRole}
    {changedBy : String} {tick : Tick} (hmem : target ∈ t.rows)
    (h : t.updateRole target newRole changedBy tick = .ok (row, t')) : Keeps t t' := by
  apply keeps_save hmem _ _ _ h <;> rfl

theorem setActive_keeps {t t' : UsersTable} {target row : User} {isActive : Bool}
    {changedBy : String} {tick : Tick} (hmem : target ∈ t.rows)
    (h : t.setActive target isActive changedBy tick = .ok (row, t')) : Keeps t t' := by
  apply keeps_save hmem _ _ _ h <;> rfl

theorem keeps_delete (t : UsersTable) (id : Uuid) : Keeps t (t.delete id) :=
  fun v hv => ⟨v, (UsersTable.mem_delete.mp hv).1, rfl, rfl, rfl⟩

section Endpoint

variable {members : Memberships} {user : User} {db db' : Database}

theorem UserRoute.serve_ok {route : UserRoute} {finished : Finished Answer}
    (h : (route.serve env request db members).1 = .ok finished) :
    ∃ user users endpoint,
      getCurrentDbUser env request.auth request.tick db.users = .ok (user, users) ∧
      (∀ role, route.gate = some role →
        requireRole env [role] request.auth request.tick db.users = .ok (user, users)) ∧
      route.endpoint env request members = some endpoint ∧
      (endpoint user (db.setUsers users)).1 = .ok finished := by
  have hfound (user : User) (users : UsersTable)
      (hresult : ((route.endpoint env request members).getD
        (fun _ _ => (.error unprocessable, members)) user (db.setUsers users)).1 =
          .ok finished) :
      ∃ endpoint, route.endpoint env request members = some endpoint ∧
        (endpoint user (db.setUsers users)).1 = .ok finished := by
    cases hendpoint : route.endpoint env request members with
    | none =>
        rw [hendpoint] at hresult
        cases hresult
    | some endpoint =>
        rw [hendpoint] at hresult
        exact ⟨endpoint, rfl, hresult⟩
  unfold UserRoute.serve asUser asRole at h
  dsimp only at h
  cases hgate : route.gate with
  | none =>
      simp only [hgate] at h
      obtain ⟨user, users, hcurrent, hguarded⟩ := guarded_ok h
      obtain ⟨endpoint, hendpoint, hresult⟩ :=
        hfound user users ((congrArg Prod.fst hguarded).trans h)
      refine ⟨user, users, endpoint, hcurrent, ?_, hendpoint, hresult⟩
      intro role hrole
      cases hrole
  | some role =>
      simp only [hgate] at h
      obtain ⟨user, users, hrequire, hguarded⟩ := guarded_ok h
      obtain ⟨endpoint, hendpoint, hresult⟩ :=
        hfound user users ((congrArg Prod.fst hguarded).trans h)
      refine ⟨user, users, endpoint, (requireRole_eq_ok.mp hrequire).1, ?_,
        hendpoint, hresult⟩
      intro role' hrole
      exact Option.some.inj hrole ▸ hrequire

end Endpoint

end IsolatedEnv.Backend
