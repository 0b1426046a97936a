import IsolatedEnv.Backend.App

/-!
# What a blocked subject can still do

A route behind a record refuses a subject whose record is blocked, and the
rollback undoes the sync.  The item routes do not look at the record: they
refuse such a request only where they would refuse any other.
-/

namespace IsolatedEnv.Backend

open IsolatedEnv.Foundation

variable {env : Env} {request : Request} {app : App}

/-- The subject of the request has a record that is not active. -/
def App.Blocked (env : Env) (request : Request) (app : App) : Prop :=
  ∃ user, app.db.users.getByProviderId (request.auth.providerId env) = some user ∧
    user.isActive = false

instance : Decidable (app.Blocked env request) :=
  decidable_of_iff
    ((app.db.users.getByProviderId (request.auth.providerId env)).any
      fun user => !user.isActive) (by simp [App.Blocked, Option.any_eq_true])

/-- The request is answered with an error and changes no table and no cache entry. -/
def App.Refused (env : Env) (request : Request) (app : App) (route : Route) : Prop :=
  (∃ e, (app.serve env request route).1 = .error e) ∧
    (app.serve env request route).2.db = app.db ∧
    (app.serve env request route).2.cache = app.cache

/-! ## Routes behind a record -/

theorem lookupUser_blocked {req : AuthRequest} {tick : Tick} {t t' : UsersTable}
    {user row : User} (hfind : t.getByProviderId (req.providerId env) = some user)
    (h : lookupUser env req tick t = .ok (row, t')) : row.isActive = user.isActive := by
  obtain ⟨profile, -, hresolve⟩ := bind_eq_ok.mp h
  cases resolveUser_cases hresolve with
  | known user' found synced =>
      have huser : user' = user := Option.some.inj (found.symm.trans hfind)
      rw [← huser]
      rcases UsersTable.syncFromJwt_cases synced with ⟨rfl, -, -⟩ | hsave
      · rfl
      · rw [(UsersTable.save_ok hsave).1]
  | linked user' unknown hasEmail found saved =>
      rw [unknown] at hfind
      cases hfind
  | created unknown unlinked isNew inserted =>
      rw [unknown] at hfind
      cases hfind

theorem getCurrentDbUser_blocked {req : AuthRequest} (tick : Tick) {t : UsersTable}
    {user : User} (hfind : t.getByProviderId (req.providerId env) = some user)
    (hblocked : user.isActive = false) :
    ∃ e, getCurrentDbUser env req tick t = .error e := by
  cases h : getCurrentDbUser env req tick t with
  | error e => exact ⟨e, rfl⟩
  | ok p =>
      obtain ⟨row, t'⟩ := p
      obtain ⟨hlookup, hactive⟩ := getCurrentDbUser_eq_ok.mp h
      rw [lookupUser_blocked hfind hlookup, hblocked] at hactive
      cases hactive

theorem requireRole_blocked {req : AuthRequest} {tick : Tick} {t : UsersTable}
    (roles : List UserRole) (h : ∃ e, getCurrentDbUser env req tick t = .error e) :
    ∃ e, requireRole env roles req tick t = .error e := by
  obtain ⟨e, he⟩ := h
  exact ⟨e, by rw [requireRole, he]; rfl⟩

theorem serve_user_unresolved (route : UserRoute)
    (h : ∃ e, getCurrentDbUser env request.auth request.tick app.db.users = .error e) :
    ∃ e, route.serve env request app.db app.members = (.error e, app.members) := by
  unfold UserRoute.serve
  dsimp only
  cases route.gate with
  | none =>
      obtain ⟨e, he⟩ := h
      exact ⟨e, by simp [asUser, guarded, he]⟩
  | some role =>
      obtain ⟨e, he⟩ := requireRole_blocked [role] h
      exact ⟨e, by simp [asRole, guarded, he]⟩

theorem serve_user_blocked (route : UserRoute) (hblocked : app.Blocked env request) :
    ∃ e, route.serve env request app.db app.members = (.error e, app.members) := by
  obtain ⟨user, hfind, hinactive⟩ := hblocked
  exact serve_user_unresolved route (getCurrentDbUser_blocked request.tick hfind hinactive)

theorem refused_user (route : UserRoute) (hblocked : app.Blocked env request) :
    app.Refused env request (.user route) := by
  obtain ⟨e, he⟩ := serve_user_blocked route hblocked
  unfold App.Refused App.serve
  simp [he, Except.map]

/-! ## Item routes -/

/-- What makes an item request fail for an owner, blocked or not. -/
def ItemRoute.Fails (db : Database) (request : Request) (owner : Uuid) :
    ItemRoute → Prop
  | .listItems params => params = none
  | .getItem params | .deleteItem params =>
      ∀ itemId ∈ params, ItemRepository.getById db itemId owner = none
  | .createItem params => ∀ data ∈ params,
      db.users.getById owner = none ∨ (∃ i ∈ db.items, i.id = request.itemId) ∨
        storable data.title = false ∨ storable (data.description.getD "") = false
  | .updateItem params => ∀ p ∈ params,
      ItemRepository.getById db p.1 owner = none ∨ ¬ItemRepository.Applies p.2

/-- A request that a blocked subject is refused. -/
def App.Stopped (env : Env) (request : Request) (app : App) : Route → Prop
  | .user _ => True
  | .item route => ∀ owner, ownerId env request.auth = .ok owner →
      request.limited = true ∨ route.Fails app.db request owner

section Item

variable {db : Database} {cache : ItemCache} {owner : Uuid} {route : ItemRoute}

theorem findItem_succeeds (itemId : Uuid) :
    (∃ item, ItemService.findItem db itemId owner = .ok item) ↔
      ItemRepository.getById db itemId owner ≠ none := by
  unfold ItemService.findItem
  cases ItemRepository.getById db itemId owner <;> simp

theorem written_error {α : Type} {result : Except Exc (α × Database)} {e : Exc}
    (h : (ItemService.written owner request cache result).1 = .error e) :
    (ItemService.written owner request cache result).2 = cache := by
  cases result with
  | error e' => rfl
  | ok p => cases h

theorem written_succeeds {α : Type} {result : Except Exc (α × Database)} :
    (∃ p, (ItemService.written owner request cache result).1 = .ok p) ↔
      ∃ p, result = .ok p := by
  cases result <;> simp [ItemService.written]

theorem createItem_succeeds (data : ItemCreate) :
    (∃ p, (ItemService.createItem db data owner request cache).1 = .ok p) ↔
      ∃ p, ItemRepository.create db data owner request.itemId request.tick.now =
        .ok p := by
  unfold ItemService.createItem
  rw [written_succeeds]
  cases ItemRepository.create db data owner request.itemId request.tick.now <;>
    simp [bind, Except.bind]

theorem updateItem_succeeds (itemId : Uuid) (data : ItemUpdate) :
    (∃ p, (ItemService.updateItem db itemId data owner request cache).1 = .ok p) ↔
      ItemRepository.getById db itemId owner ≠ none ∧ ItemRepository.Applies data := by
  unfold ItemService.updateItem ItemService.findItem
  rw [written_succeeds]
  cases hfind : ItemRepository.getById db itemId owner with
  | none => simp [bind, Except.bind]
  | some item =>
      rw [← ItemRepository.update_succeeds data request.tick.now
        (ItemRepository.getById_eq_some hfind).1]
      cases hupdate : ItemRepository.update db item data request.tick.now <;>
        simp [bind, Except.bind, hupdate]

theorem deleteItem_succeeds (itemId : Uuid) :
    (∃ p, (ItemService.deleteItem db itemId owner request cache).1 = .ok p) ↔
      ItemRepository.getById db itemId owner ≠ none := by
  unfold ItemService.deleteItem ItemService.findItem
  rw [written_succeeds]
  cases hfind : ItemRepository.getById db itemId owner with
  | none => simp [bind, Except.bind]
  | some item =>
      obtain ⟨db', hdelete⟩ := ItemRepository.delete_succeeds db item
      simp [bind, Except.bind, hdelete]

theorem listItems_succeeds (db : Database) (owner : Uuid) (offset limit : Nat)
    (request : Request) (cache : ItemCache) :
    ∃ p, (ItemService.listItems db owner offset limit request cache).1 = .ok p := by
  unfold ItemService.listItems
  dsimp only
  rw [exists_map_ok]
  by_contra h
  obtain ⟨e, he⟩ := exists_error_iff.mpr h
  cases Cache.cached_error he

theorem answer_succeeds {α : Type} {outcome : ItemOutcome α} {f : α → Answer} :
    (∃ p, (outcome.answer f).1 = .ok p) ↔ ∃ p, outcome.1 = .ok p :=
  exists_map_ok

/-- An endpoint answers with an error exactly where it fails for its owner. -/
theorem endpoint_error_iff (owner : Uuid) {endpoint : Uuid → ItemOutcome Answer}
    (h : route.endpoint request db cache = some endpoint) :
    (∃ e, (endpoint owner).1 = .error e) ↔ route.Fails db request owner := by
  rw [exists_error_iff]
  cases route with
  | listItems params =>
      obtain ⟨⟨offset, limit⟩, rfl, rfl⟩ := Option.map_eq_some_iff.mp h
      dsimp only
      rw [answer_succeeds]
      have hsucceeds := listItems_succeeds db owner offset limit request cache
      simp only [hsucceeds, not_true_eq_false, false_iff]
      exact Option.some_ne_none _
  | getItem params =>
      obtain ⟨itemId, rfl, rfl⟩ := Option.map_eq_some_iff.mp h
      rw [answer_succeeds, ItemService.getItem, exists_map_ok, findItem_succeeds]
      simp [ItemRoute.Fails]
  | createItem params =>
      obtain ⟨data, rfl, rfl⟩ := Option.map_eq_some_iff.mp h
      rw [answer_succeeds, createItem_succeeds, ItemRepository.create_succeeds,
        not_and_or, not_and_or, not_and_or]
      simp [ItemRoute.Fails]
  | updateItem params =>
      obtain ⟨⟨itemId, data⟩, rfl, rfl⟩ := Option.map_eq_some_iff.mp h
      dsimp only
      rw [answer_succeeds, updateItem_succeeds, not_and_or, not_not]
      simp [ItemRoute.Fails]
  | deleteItem params =>
      obtain ⟨itemId, rfl, rfl⟩ := Option.map_eq_some_iff.mp h
      rw [answer_succeeds, deleteItem_succeeds]
      simp [ItemRoute.Fails]

theorem endpoint_error_cache {endpoint : Uuid → ItemOutcome Answer} {e : Exc}
    (h : route.endpoint request db cache = some endpoint)
    (herror : (endpoint owner).1 = .error e) : (endpoint owner).2 = cache := by
  cases route with
  | listItems params =>
      obtain ⟨⟨offset, limit⟩, rfl, rfl⟩ := Option.map_eq_some_iff.mp h
      have hsucceeds := listItems_succeeds db owner offset limit request cache
      exact absurd hsucceeds (exists_error_iff.mp ⟨e, map_eq_error.mp herror⟩)
  | getItem params =>
      obtain ⟨itemId, rfl, rfl⟩ := Option.map_eq_some_iff.mp h
      rfl
  | createItem params =>
      obtain ⟨data, rfl, rfl⟩ := Option.map_eq_some_iff.mp h
      exact written_error (map_eq_error.mp herror)
  | updateItem params =>
      obtain ⟨⟨itemId, data⟩, rfl, rfl⟩ := Option.map_eq_some_iff.mp h
      exact written_error (map_eq_error.mp herror)
  | deleteItem params =>
      obtain ⟨itemId, rfl, rfl⟩ := Option.map_eq_some_iff.mp h
      exact written_error (map_eq_error.mp herror)

theorem serve_item_error_iff :
    (∃ e, (route.serve env request db cache).1 = .error e) ↔
      ∀ owner, ownerId env request.auth = .ok owner →
        request.limited = true ∨ route.Fails db request owner := by
  unfold ItemRoute.serve asOwner
  dsimp only
  cases ownerId env request.auth with
  | error e => simp
  | ok owner =>
      cases hendpoint : route.endpoint request db cache with
      | none =>
          have hfails : route.Fails db request owner := by
            cases route <;>
              simp only [ItemRoute.endpoint, Option.map_eq_none_iff] at hendpoint <;>
              simp [ItemRoute.Fails, hendpoint]
          simp [hfails]
      | some endpoint =>
          have hiff := endpoint_error_iff owner hendpoint
          cases request.limited with
          | true => simp
          | false => simpa using hiff

theorem serve_item_error_cache {e : Exc}
    (h : (route.serve env request db cache).1 = .error e) :
    (route.serve env request db cache).2 = cache := by
  unfold ItemRoute.serve asOwner at h ⊢
  dsimp only at h ⊢
  cases howner : ownerId env request.auth with
  | error e => rfl
  | ok owner =>
      simp only [howner] at h ⊢
      split at h
      · rename_i hlimited
        simp [hlimited]
      · rename_i hlimited
        simp only [hlimited]
        cases hendpoint : route.endpoint request db cache with
        | none => rfl
        | some endpoint =>
            rw [hendpoint] at h
            exact endpoint_error_cache hendpoint h

end Item

theorem refused_item_iff (route : ItemRoute) :
    app.Refused env request (.item route) ↔ app.Stopped env request (.item route) := by
  have hresult (e : Exc) : (app.serve env request (.item route)).1 = .error e ↔
      (route.serve env request app.db app.cache).1 = .error e := map_eq_error
  have hstopped : app.Stopped env request (.item route) ↔
      ∃ e, (route.serve env request app.db app.cache).1 = .error e :=
    serve_item_error_iff.symm
  unfold App.Refused
  rw [hstopped]
  simp only [hresult]
  constructor
  · rintro ⟨herror, -, -⟩
    exact herror
  · rintro ⟨e, he⟩
    exact ⟨⟨e, he⟩, serve_error_db ((hresult e).mpr he), serve_item_error_cache he⟩

/-! ## Runs -/

/-- A request of a blocked subject is refused and changes nothing. -/
def App.BlockedRefused (env : Env) (app : App) : App.Event → Prop
  | .request request route => app.Blocked env request → app.Refused env request route
  | .expire _ => True

def App.BlockedStopped (env : Env) (app : App) : App.Event → Prop
  | .request request route => app.Blocked env request → app.Stopped env request route
  | .expire _ => True

theorem blockedRefused_iff (event : App.Event) :
    app.BlockedRefused env event ↔ app.BlockedStopped env event := by
  cases event with
  | expire key => rfl
  | request request route =>
      cases route with
      | user route =>
          constructor
          · exact fun _ _ => trivial
          · exact fun _ hblocked => refused_user route hblocked
      | item route => exact imp_congr_right fun _ => refused_item_iff route

/-- In every run, blocking takes effect exactly on the requests it can stop. -/
theorem blocked_requests_refused_iff (env : Env) (app : App)
    (events : List App.Event) :
    Along (App.step env) (App.BlockedRefused env) app events ↔
      Along (App.step env) (App.BlockedStopped env) app events :=
  along_congr (fun _ _ => blockedRefused_iff _) app events

/-! ## Bob, whom Alice blocks, lists his items -/

def bobsSub : String := "00000000-0000-0000-0000-000000000002"

def bobIsBlocked : List App.Event :=
  [.request (exampleVisit "alice" ["admins"] 1) (.user .getMe),
    .request (exampleVisit bobsSub [] 2) (.user .getMe),
    .request (exampleVisit "alice" ["admins"] 3) (.user (.blockUser (some (2, false))))]

theorem blocked_user_lists_items :
    ¬Along (App.step exampleEnv) (App.BlockedRefused exampleEnv) App.start
      (bobIsBlocked ++ [.request (exampleVisit bobsSub [] 4)
        (.item (.listItems (some (0, 20))))]) := by
  intro h
  have hlast := (along_cons ((along_cons ((along_cons ((along_cons h).2 _ rfl)).2 _
    rfl)).2 _ rfl)).1
  obtain ⟨⟨e, he⟩, -, -⟩ := hlast (by decide +kernel)
  have hnotOk : Except.isOk _ = false := congrArg Except.isOk he
  revert hnotOk
  decide +kernel

end IsolatedEnv.Backend
