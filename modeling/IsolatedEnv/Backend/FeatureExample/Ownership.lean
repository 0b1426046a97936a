import IsolatedEnv.Backend.App

/-!
# Items and the records of their owners

The routes take the owner of an item from the `sub` of the token, read as a UUID;
`items.owner_id` refers to `users.id`, which `uuid4` gives a record when it is
created.
-/

namespace IsolatedEnv.Backend

open IsolatedEnv.Foundation

/-! ## Reading past the cache -/

namespace Cache

variable {α : Type} {faults : RedisFaults} {fetch : Except Exc α} {c : Cache α}
  {key start : String}

theorem cached_of_miss (h : c.get key = none) : (cached faults key fetch c).1 = fetch := by
  unfold cached
  simp only [h, ite_self]
  split
  · rfl
  · cases fetch <;> rfl

theorem get_invalidate (hstart : start.toList.isPrefixOf key.toList = true)
    (hdeleted : key ∉ faults.notDeleted) : (c.invalidate faults start).get key = none := by
  rw [get, Option.map_eq_none_iff]
  refine Rows.find_eq_none.mpr fun e he hkey => ?_
  have hkept := (List.mem_filter.mp he).2
  rw [hkey] at hkept
  simp [hstart, hdeleted] at hkept

end Cache

theorem mem_page {α : Type} {l : List α} {a : α} {place offset limit : Nat}
    (h : l[place]? = some a) (hoffset : offset ≤ place) (hlimit : place < offset + limit) :
    a ∈ (l.drop offset).take limit := by
  apply List.mem_of_getElem? (i := place - offset)
  rw [List.getElem?_take_of_lt (by omega), List.getElem?_drop, Nat.add_sub_cancel' hoffset]
  exact h

/-! ## What follows a creation -/

variable {env : Env} {request : Request} {app : App} {owner : Uuid} {data : ItemCreate}

/--
The owner's next request for the item gets it, and its next listing has it on the
page that covers its place.
-/
structure App.Finds (env : Env) (app : App) (owner : Uuid) (item : ItemResponse) : Prop where
  got : ∀ follow : Request, ownerId env follow.auth = .ok owner → follow.limited = false →
    (app.serve env follow (.item (.getItem (some item.id)))).1 = .ok (.item item)
  listed : ∀ follow : Request, ownerId env follow.auth = .ok owner → follow.limited = false →
    ∃ place, ∀ offset limit, offset ≤ place → place < offset + limit →
      ∃ items, (app.serve env follow (.item (.listItems (some (offset, limit))))).1 =
        .ok (.items items) ∧ item ∈ items

/-- `POST /api/v1/items` commits an item that is found afterwards. -/
def App.CreatesItem (env : Env) (request : Request) (app : App) (data : ItemCreate)
    (owner : Uuid) : Prop :=
  ∃ item, (app.serve env request (.item (.createItem (some data)))).1 =
      .ok (.item item) ∧
    (app.serve env request (.item (.createItem (some data)))).2.Finds env owner item

theorem serve_owner {route : ItemRoute} {endpoint : Uuid → ItemOutcome Answer}
    (howner : ownerId env request.auth = .ok owner) (hlimited : request.limited = false)
    (hendpoint : route.endpoint request app.db app.cache = some endpoint) :
    app.serve env request (.item route) =
      ((endpoint owner).1.map Prod.fst, { app with
        db := ((endpoint owner).1.map Prod.snd).toOption.getD app.db
        cache := (endpoint owner).2 }) := by
  simp [App.serve, ItemRoute.serve, asOwner, howner, hlimited, hendpoint]

theorem created_found {db : Database} {item : Item}
    (hcreate : ItemRepository.create app.db data owner request.itemId request.tick.now =
      .ok (item, db))
    (hfresh : ∀ i ∈ app.db.items, i.id ≠ request.itemId)
    (hredis : request.redis.notDeleted = []) :
    App.Finds env
      { app with
        db := db
        cache := app.cache.invalidate request.redis (ItemService.listKeys owner) }
      owner item.response := by
  obtain ⟨db', hset, hpair⟩ := exists_ok hcreate
  cases hpair
  have hitems := (Database.setItems_ok hset).2.1
  constructor
  · intro follow howner hlimited
    have hnone : (app.db.items.find? fun i =>
        i.id = request.itemId && i.ownerId = owner) = none := by
      rw [List.find?_eq_none]
      intro i hi
      simp [hfresh i hi]
    have hfind : ItemService.findItem db request.itemId owner =
        .ok ⟨request.itemId, data.title, data.description, owner, request.tick.now,
          request.tick.now⟩ := by
      simp [ItemService.findItem, ItemRepository.getById, hitems, List.find?_append, hnone]
    refine (congrArg Prod.fst (serve_owner howner hlimited rfl)).trans ?_
    simp [ItemService.getItem, Item.response, hfind, Except.map, ItemOutcome.answer]
  · intro follow howner hlimited
    have hmem : ⟨request.itemId, data.title, data.description, owner, request.tick.now,
        request.tick.now⟩ ∈ newestFirst Item.createdAt (fun i => follow.rank i.id)
          (db.items.filter fun i => i.ownerId = owner) := by
      simp [newestFirst, hitems]
    obtain ⟨place, hplace⟩ := List.mem_iff_getElem?.mp hmem
    refine ⟨place, fun offset limit hoffset hlimit =>
      ⟨_, ?_, List.mem_map_of_mem (mem_page hplace hoffset hlimit)⟩⟩
    have hmiss : (app.cache.invalidate request.redis (ItemService.listKeys owner)).get
        (ItemService.listKey owner offset limit) = none :=
      Cache.get_invalidate (ItemService.listKeys_isPrefixOf.mpr rfl) (by simp [hredis])
    refine (congrArg Prod.fst (serve_owner howner hlimited rfl)).trans ?_
    simp [ItemService.listItems, Cache.cached_of_miss hmiss, Except.map,
      ItemOutcome.answer, ItemRepository.getList]

/--
A subject's item is committed, and found afterwards, exactly when the table has a
record whose identifier is the subject itself (and the texts can be stored).
-/
theorem createsItem_iff (howner : ownerId env request.auth = .ok owner)
    (hlimited : request.limited = false)
    (hfresh : ∀ i ∈ app.db.items, i.id ≠ request.itemId)
    (hredis : request.redis.notDeleted = []) :
    app.CreatesItem env request data owner ↔
      (app.db.users.getById owner).isSome ∧ storable data.title = true ∧
        storable (data.description.getD "") = true := by
  have hsucceeds : (∃ p, ItemRepository.create app.db data owner request.itemId
      request.tick.now = .ok p) ↔ _ :=
    ItemRepository.create_succeeds data request.itemId request.tick.now
  simp only [eq_true hfresh, true_and] at hsucceeds
  rw [← hsucceeds]
  have hserve : app.serve env request (.item (.createItem (some data))) = _ :=
    serve_owner howner hlimited rfl
  cases hcreate : ItemRepository.create app.db data owner request.itemId request.tick.now with
  | error e =>
      have herror : (app.serve env request (.item (.createItem (some data)))).1 =
          .error e := by
        simp [hserve, ItemOutcome.answer, ItemService.createItem, hcreate,
          ItemService.written, bind, Except.bind, Except.map]
      simp [App.CreatesItem, herror]
  | ok p =>
      obtain ⟨item, db⟩ := p
      have hok : app.serve env request (.item (.createItem (some data))) =
          (.ok (.item item.response), { app with
            db := db
            cache := app.cache.invalidate request.redis (ItemService.listKeys owner) }) := by
        simp [hserve, ItemOutcome.answer, ItemService.createItem, hcreate,
          ItemService.written, bind, Except.bind, Except.map, Except.toOption]
      refine iff_of_true ⟨item.response, ?_, ?_⟩ ⟨_, rfl⟩
      · rw [hok]
      · rw [hok]
        exact created_found hcreate hfresh hredis

/-! ## A subject that has logged in -/

def tea : ItemCreate := ⟨"Tea", none, by decide⟩

/-- The subject 2 has logged in, and its record has been given an identifier. -/
def loggedIn (recordId : Uuid) : App :=
  (App.start.serve exampleEnv
    (exampleVisit "00000000-0000-0000-0000-000000000002" [] recordId) (.user .getMe)).2

def subjectTwo : Request := exampleVisit "00000000-0000-0000-0000-000000000002" [] 9

theorem logged_in_subject_creates_nothing :
    ((loggedIn 5).db.users.getByProviderId
        (subjectTwo.auth.providerId exampleEnv)).isSome = true ∧
      ownerId exampleEnv subjectTwo.auth = .ok 2 ∧
      ¬(loggedIn 5).CreatesItem exampleEnv subjectTwo tea 2 := by
  refine ⟨by decide +kernel, by decide +kernel, ?_⟩
  rintro ⟨item, hcreated, -⟩
  have hrefused : ((loggedIn 5).serve exampleEnv subjectTwo
      (.item (.createItem (some tea)))).1.isOk = false := by
    decide +kernel
  rw [hcreated] at hrefused
  cases hrefused

theorem item_of_its_own_record : (loggedIn 2).CreatesItem exampleEnv subjectTwo tea 2 :=
  (createsItem_iff (by decide +kernel) (by decide +kernel) (by decide +kernel)
    (by decide +kernel)).mpr (by decide +kernel)

end IsolatedEnv.Backend
