import IsolatedEnv.Backend.Core.Endpoint

/-!
# Items: schemas, repository, service and routes

The routes resolve no record: the owner is the `sub` of the token read as a
UUID.  `ItemCreate` and `ItemUpdate` are bodies that have passed their
validation; a field of an update is absent, null or a value.
-/

namespace IsolatedEnv.Backend

open IsolatedEnv.Foundation

structure ItemCreate where
  title : String
  description : Option String
  valid : 1 ≤ title.length ∧ title.length ≤ 255 ∧
    (description.getD "").length ≤ 10000

structure ItemUpdate where
  title : Option (Option String)
  description : Option (Option String)
  titleValid : ∀ text ∈ title.join, 1 ≤ text.length ∧ text.length ≤ 255
  descriptionValid : ∀ text ∈ description.join, text.length ≤ 10000
  notEmpty : title.join ≠ none ∨ description.join ≠ none

structure ItemResponse where
  id : Uuid
  title : String
  description : Option String
  ownerId : Uuid
  createdAt : Timestamp
  updatedAt : Timestamp
  deriving DecidableEq

def Item.response (i : Item) : ItemResponse where
  id := i.id
  title := i.title
  description := i.description
  ownerId := i.ownerId
  createdAt := i.createdAt
  updatedAt := i.updatedAt

namespace ItemRepository

def getById (db : Database) (itemId ownerId : Uuid) : Option Item :=
  db.items.find? fun i => i.id = itemId && i.ownerId = ownerId

def getList (db : Database) (ownerId : Uuid) (offset limit : Nat)
    (rank : Uuid → Nat) : List Item :=
  ((newestFirst Item.createdAt (fun i => rank i.id)
    (db.items.filter fun i => i.ownerId = ownerId)).drop offset).take limit

/-- The statement of `get_list` with the numbers that it is sent with. -/
def executeList (db : Database) (ownerId : Uuid) (offset limit : Nat)
    (rank : Uuid → Nat) : Except Exc (List Item) :=
  select [] [offset, limit] (getList db ownerId offset limit rank)

def create (db : Database) (data : ItemCreate) (ownerId newId : Uuid)
    (now : Timestamp) : Except Exc (Item × Database) :=
  let item : Item := ⟨newId, data.title, data.description, ownerId, now, now⟩
  (db.setItems (db.items ++ [item])).map fun db' => (item, db')

/-- Null in the title violates its constraint; no change issues no statement. -/
def update (db : Database) (item : Item) (data : ItemUpdate) (now : Timestamp) :
    Except Exc (Item × Database) :=
  match data.title.getD (some item.title) with
  | none => .error .sqlalchemy
  | some title =>
      let changed := { item with
        title := title
        description := data.description.getD item.description }
      if changed = item then .ok (item, db)
      else
        let row := { changed with updatedAt := now }
        (db.setItems (Rows.replace Item.id row db.items)).map fun db' => (row, db')

def delete (db : Database) (item : Item) : Except Exc Database :=
  db.setItems (db.items.filter fun i => i.id ≠ item.id)

end ItemRepository

abbrev ItemCache := Cache (List ItemResponse)

/-- The answer with the tables to be committed, and the cache, never rolled back. -/
abbrev ItemOutcome (α : Type) := Except Exc (α × Database) × ItemCache

namespace ItemService

def findItem (db : Database) (itemId ownerId : Uuid) : Except Exc Item :=
  match ItemRepository.getById db itemId ownerId with
  | some item => .ok item
  | none => .error (.notFoundError ("Item " ++ itemId.str ++ " not found"))

def listKeys (ownerId : Uuid) : String := "items:" ++ ownerId.str ++ ":"

def listKey (ownerId : Uuid) (offset limit : Nat) : String :=
  listKeys ownerId ++ toString offset ++ ":" ++ toString limit

def listItems (db : Database) (ownerId : Uuid) (offset limit : Nat)
    (request : Request) (cache : ItemCache) : ItemOutcome (List ItemResponse) :=
  let (result, cache) := cache.cached request.redis (listKey ownerId offset limit)
    (.ok ((ItemRepository.getList db ownerId offset limit request.rank).map
      Item.response))
  (result.map fun items => (items, db), cache)

/-- A write, and the invalidation that follows it. -/
def written {α : Type} (ownerId : Uuid) (request : Request) (cache : ItemCache)
    (result : Except Exc (α × Database)) : ItemOutcome α :=
  match result with
  | .ok p => (.ok p, cache.invalidate request.redis (listKeys ownerId))
  | .error e => (.error e, cache)

def getItem (db : Database) (itemId ownerId : Uuid) (cache : ItemCache) :
    ItemOutcome ItemResponse :=
  ((findItem db itemId ownerId).map fun item => (item.response, db), cache)

def createItem (db : Database) (data : ItemCreate) (ownerId : Uuid)
    (request : Request) (cache : ItemCache) : ItemOutcome ItemResponse :=
  written ownerId request cache do
    let (item, db) ←
      ItemRepository.create db data ownerId request.itemId request.tick.now
    .ok (item.response, db)

def updateItem (db : Database) (itemId : Uuid) (data : ItemUpdate) (ownerId : Uuid)
    (request : Request) (cache : ItemCache) : ItemOutcome ItemResponse :=
  written ownerId request cache do
    let item ← findItem db itemId ownerId
    let (updated, db) ← ItemRepository.update db item data request.tick.now
    .ok (updated.response, db)

def deleteItem (db : Database) (itemId ownerId : Uuid) (request : Request)
    (cache : ItemCache) : ItemOutcome Unit :=
  written ownerId request cache do
    let item ← findItem db itemId ownerId
    let db ← ItemRepository.delete db item
    .ok ((), db)

end ItemService

/-! ## The routes' owner -/

def ownerId (env : Env) (auth : AuthRequest) : Except Exc Uuid :=
  match JsonObject.get? auth.payload "sub" with
  | none => .error .key
  | some sub =>
      match Uuid.parse (env.python.str sub).toList with
      | some id => .ok id
      | none => .error .value

/-- The endpoints of the router, behind `_owner_id` and the limiter. -/
def asOwner {α : Type} (env : Env) (request : Request) (cache : ItemCache)
    (endpoint : Uuid → ItemOutcome α) : ItemOutcome α :=
  match ownerId env request.auth with
  | .error e => (.error e, cache)
  | .ok owner =>
      if request.limited then (.error rateLimitExceeded, cache) else endpoint owner

/-! ## When a write succeeds -/

namespace ItemRepository

variable {db : Database} {item : Item} {itemId owner : Uuid}

theorem setItems_succeeds {items : List Item} :
    (∃ db', db.setItems items = .ok db') ↔ Consistent db.users items db.auditLog := by
  unfold Database.setItems
  split <;> simp_all

theorem getById_eq_some (h : getById db itemId owner = some item) :
    item ∈ db.items ∧ item.id = itemId ∧ item.ownerId = owner := by
  have hfound := List.find?_some h
  simp only [Bool.and_eq_true, decide_eq_true_eq] at hfound
  exact ⟨List.mem_of_find?_eq_some h, hfound⟩

theorem create_same {data : ItemCreate} {newId : Uuid} {now : Timestamp}
    {p : Item × Database} (h : create db data owner newId now = .ok p) :
    db.SameRecords p.2 := by
  obtain ⟨db', hset, rfl⟩ := exists_ok h
  exact Database.setItems_same hset

theorem update_same {data : ItemUpdate} {now : Timestamp} {p : Item × Database}
    (h : update db item data now = .ok p) : db.SameRecords p.2 := by
  unfold update at h
  split at h
  · cases h
  · dsimp only at h
    split at h
    · cases h
      exact ⟨rfl, rfl⟩
    · obtain ⟨db', hset, rfl⟩ := exists_ok h
      exact Database.setItems_same hset

theorem create_succeeds (data : ItemCreate) (newId : Uuid) (now : Timestamp) :
    (∃ p, create db data owner newId now = .ok p) ↔
      (db.users.getById owner).isSome ∧ (∀ i ∈ db.items, i.id ≠ newId) ∧
        storable data.title = true ∧ storable (data.description.getD "") = true := by
  unfold create
  rw [exists_map_ok, setItems_succeeds, Consistent.append_iff]
  constructor
  · rintro ⟨-, hfits, howned, hfresh⟩
    exact ⟨howned, hfresh, hfits.2⟩
  · rintro ⟨howned, hfresh, hstorable⟩
    exact ⟨db.consistent, ⟨data.valid.2.1, hstorable⟩, howned, hfresh⟩

theorem delete_succeeds (db : Database) (item : Item) :
    ∃ db', delete db item = .ok db' :=
  setItems_succeeds.mpr (db.consistent.filter _)

theorem replace_succeeds {row : Item} (hmem : item ∈ db.items) (hid : row.id = item.id)
    (howner : row.ownerId = item.ownerId) :
    (∃ db', db.setItems (Rows.replace Item.id row db.items) = .ok db') ↔ row.Fits := by
  have hconsistent := db.consistent
  rw [setItems_succeeds]
  constructor
  · intro h
    exact h.itemFits row (Rows.mem_replace.mpr (.inr ⟨rfl, item, hmem, hid.symm⟩))
  · intro hfits
    refine ⟨?_, ?_, ?_, hconsistent.auditFits, hconsistent.auditId⟩
    · intro i hi
      rcases Rows.mem_replace.mp hi with ⟨hi, -⟩ | ⟨rfl, -⟩
      · exact hconsistent.itemFits i hi
      · exact hfits
    · have hids : (Rows.replace Item.id row db.items).map Item.id =
          db.items.map Item.id := Rows.map_replace_of_agree fun i _ h => h
      rw [Rows.UniqueKey, hids]
      exact hconsistent.itemId
    · intro i hi
      rcases Rows.mem_replace.mp hi with ⟨hi, -⟩ | ⟨rfl, -⟩
      · exact hconsistent.itemOwned i hi
      · rw [Owned, howner]
        exact hconsistent.itemOwned item hmem

/-- The values an update brings are storable, and it does not clear the title. -/
def Applies (data : ItemUpdate) : Prop :=
  data.title ≠ some none ∧ (∀ text ∈ data.title.join, storable text = true) ∧
    ∀ text ∈ data.description.join, storable text = true

theorem update_succeeds_iff_fits {data : ItemUpdate} (title : String)
    (htitle : data.title.getD (some item.title) = some title) (now : Timestamp)
    (hmem : item ∈ db.items) :
    (∃ p, update db item data now = .ok p) ↔
      Item.Fits { item with
        title := title
        description := data.description.getD item.description } := by
  unfold update
  rw [htitle]
  dsimp only
  split
  · rename_i hunchanged
    rw [hunchanged]
    simp [db.consistent.itemFits item hmem]
  · rw [exists_map_ok]
    exact replace_succeeds hmem rfl rfl

theorem update_succeeds (data : ItemUpdate) (now : Timestamp)
    (hmem : item ∈ db.items) :
    (∃ p, update db item data now = .ok p) ↔ Applies data := by
  obtain ⟨hlength, htitle, hdescription⟩ := db.consistent.itemFits item hmem
  have hdescriptions : storable ((data.description.getD item.description).getD "") =
      true ↔ ∀ text ∈ data.description.join, storable text = true := by
    rcases data.description with _ | (_ | text)
    · simpa using hdescription
    · simp [storable]
    · simp
  rcases htitles : data.title with _ | (_ | text)
  · rw [update_succeeds_iff_fits item.title (by rw [htitles]; rfl) now hmem]
    simp [Item.Fits, Applies, hlength, htitle, htitles, hdescriptions]
  · simp [update, Applies, htitles]
  · have hvalid := data.titleValid text (by simp [htitles])
    rw [update_succeeds_iff_fits text (by rw [htitles]; rfl) now hmem]
    simp [Item.Fits, Applies, hvalid.2, htitles, hdescriptions]

end ItemRepository

/-! ## Keys of the cache -/

namespace ItemService

variable {owner owner' : Uuid} {offset offset' limit limit' : Nat}

theorem colon_notMem_toString (n : Nat) : ':' ∉ (toString n).toList := by
  intro h
  rw [Nat.toString_eq_ofList_toDigits, String.toList_ofList] at h
  exact absurd (Nat.isDigit_of_mem_toDigits (by decide) (by decide) h) (by decide)

theorem toString_toList_injective : Function.Injective fun n : Nat => (toString n).toList := by
  intro m n h
  simp only [Nat.toString_eq_ofList_toDigits, String.toList_ofList] at h
  rw [← Nat.ofDigitChars_ten_toDigits (n := m), h, Nat.ofDigitChars_ten_toDigits]

theorem listKeys_toList :
    (listKeys owner).toList = "items:".toList ++ (owner.text ++ [':']) := by
  simp [listKeys, Uuid.str]

theorem listKey_toList :
    (listKey owner offset limit).toList = (listKeys owner).toList ++
      ((toString offset).toList ++ ':' :: (toString limit).toList) := by
  simp [listKey]

theorem owner_eq_of_matches {key : List Char} (h : (listKeys owner).toList <+: key)
    (h' : (listKeys owner').toList <+: key) : owner = owner' := by
  have hlength : (listKeys owner).toList.length = (listKeys owner').toList.length := by
    simp [listKeys_toList, Uuid.text_length]
  have heq := (List.prefix_of_prefix_length_le h h' hlength.le).eq_of_length hlength
  simp only [listKeys_toList, List.append_cancel_left_eq, List.append_cancel_right_eq] at heq
  exact Uuid.text_injective heq

theorem listKeys_isPrefixOf :
    (listKeys owner).toList.isPrefixOf (listKey owner' offset limit).toList = true ↔
      owner = owner' := by
  rw [List.isPrefixOf_iff_prefix, listKey_toList]
  constructor
  · intro h
    exact owner_eq_of_matches h (List.prefix_append _ _)
  · rintro rfl
    exact List.prefix_append _ _

theorem listKey_inj (h : listKey owner offset limit = listKey owner' offset' limit') :
    owner = owner' ∧ offset = offset' ∧ limit = limit' := by
  have howner : owner = owner' := listKeys_isPrefixOf.mp (h ▸ listKeys_isPrefixOf.mpr rfl)
  subst howner
  have hlist := congrArg String.toList h
  rw [listKey_toList, listKey_toList, List.append_cancel_left_eq,
    List.append_cons_inj_of_notMem (colon_notMem_toString _) (colon_notMem_toString _)]
    at hlist
  obtain ⟨hoffset, -, hlimit⟩ := hlist
  exact ⟨rfl, toString_toList_injective hoffset, toString_toList_injective hlimit⟩

end ItemService
end IsolatedEnv.Backend
