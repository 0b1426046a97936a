import IsolatedEnv.Backend.FeatureExample.Coherence

/-!
# An owner's part of the tables and of Redis

The owner's items, its listings and the locks on them.  What is read or written for
the owner is read or written in this part; what is written for another owner leaves
it alone.
-/

namespace IsolatedEnv.Backend

open IsolatedEnv.Foundation

/-! ## Redis -/

/-- The keys that match the pattern of the owner's listings. -/
def ItemService.ownKey (owner : Uuid) (key : String) : Bool :=
  (listKeys owner).toList.isPrefixOf key.toList

theorem ItemService.ownKey_listKey {owner owner' : Uuid} {offset limit : Nat} :
    ownKey owner (listKey owner' offset limit) = true ↔ owner = owner' :=
  listKeys_isPrefixOf

theorem ItemService.ownKey_other {owner owner' : Uuid} {key : String}
    (h : ownKey owner' key = true) (hother : owner' ≠ owner) : ownKey owner key = false := by
  rw [Bool.eq_false_iff]
  intro hown
  unfold ownKey at h hown
  exact hother (owner_eq_of_matches (List.isPrefixOf_iff_prefix.mp h)
    (List.isPrefixOf_iff_prefix.mp hown))

/-- A lock is stored under a key that no pattern matches. -/
theorem ItemService.ownKey_lock (owner : Uuid) (key : String) :
    ownKey owner ("lock:" ++ key) = false := by
  simp [ownKey, listKeys, List.isPrefixOf]

namespace Redis

variable {α : Type} {own : String → Bool} {redis : Redis α} {call : CallResult}
  {key : String} {number ttl : Nat}

def only (own : String → Bool) (redis : Redis α) : Redis α where
  now := redis.now
  values := redis.values.only own
  locks := redis.locks.only own

theorem get_only (h : own key = true) : (redis.only own).get call key = redis.get call key := by
  unfold get
  rw [show (redis.only own).values.live (redis.only own).now key =
    redis.values.live redis.now key from Expiring.live_only h]

theorem lock_only (h : own key = true) :
    (redis.only own).lock call key number =
      ((redis.lock call key number).1, (redis.lock call key number).2.only own) := by
  have hlive : (redis.only own).locks.live (redis.only own).now key =
      redis.locks.live redis.now key := Expiring.live_only h
  unfold lock
  rw [hlive]
  split
  · rfl
  · simp only [only, Expiring.set_only h]

theorem lock_only_other (h : own key = false) :
    (redis.lock call key number).2.only own = redis.only own := by
  unfold lock
  split
  · rfl
  · simp only [only, Expiring.set_only_other h]

theorem store_only (h : own key = true) (value : α) :
    (redis.only own).store call key value ttl = (redis.store call key value ttl).only own := by
  unfold store
  split
  · rfl
  · simp only [only, Expiring.set_only h]

theorem store_only_other (h : own key = false) (value : α) :
    (redis.store call key value ttl).only own = redis.only own := by
  unfold store
  split
  · rfl
  · simp only [only, Expiring.set_only_other h]

theorem unlock_only : (redis.only own).unlock call key = (redis.unlock call key).only own := by
  unfold unlock
  split
  · rfl
  · simp only [only, Expiring.erase_only]

theorem unlock_only_other (h : own key = false) :
    (redis.unlock call key).only own = redis.only own := by
  unfold unlock
  split
  · rfl
  · simp only [only, Expiring.erase_only_other h]

end Redis

namespace Phase

variable {ε α : Type} {own : String → Bool} {redis redis' : Redis α} {call : CallResult}
  {key : String} {number ttl : Nat} {fetched : Except ε α} {phase phase' : Phase ε α}

theorem advance_only (h : own key = true) :
    phase.advance number key ttl call fetched (redis.only own) =
      (phase.advance number key ttl call fetched redis).map fun p => (p.1, p.2.only own) := by
  cases phase with
  | reading =>
      simp only [advance, Redis.get_only h]
      cases redis.get call key <;> rfl
  | locking =>
      simp only [advance, Redis.lock_only h]
      split <;> rfl
  | fetching lockExpires => cases fetched <;> rfl
  | storing value lockExpires =>
      simp only [advance, Redis.store_only h]
      rfl
  | releasing result lockExpires =>
      simp only [advance, Redis.unlock_only]
      rfl
  | waiting left wakes =>
      simp only [advance, Redis.get_only h]
      change (if redis.now < wakes then none else _) = _
      split
      · rfl
      · cases redis.get call key <;> cases left <;> rfl
  | fallback => rfl
  | returned result => rfl

theorem advance_only_other (h : own key = false)
    (hadvance : phase.advance number key ttl call fetched redis = some (phase', redis')) :
    redis'.only own = redis.only own := by
  cases phase with
  | reading =>
      simp only [advance] at hadvance
      split at hadvance <;> cases hadvance <;> rfl
  | locking =>
      simp only [advance] at hadvance
      split at hadvance <;> cases hadvance <;> exact Redis.lock_only_other h
  | fetching lockExpires => cases fetched <;> cases hadvance <;> rfl
  | storing value lockExpires =>
      cases hadvance
      exact Redis.store_only_other h value
  | releasing result lockExpires =>
      cases hadvance
      exact Redis.unlock_only_other h
  | waiting left wakes =>
      simp only [advance] at hadvance
      split at hadvance
      · cases hadvance
      · split at hadvance <;> cases hadvance <;> rfl
  | fallback =>
      cases hadvance
      rfl
  | returned result => cases hadvance

end Phase

/-! ## The tables -/

namespace Database

variable {db db' : Database} {owner : Uuid} {items part : List Item}

theorem eq_of_tables (husers : db.users = db'.users) (hitems : db.items = db'.items)
    (hauditLog : db.auditLog = db'.auditLog) : db = db' := by
  cases db
  cases db'
  cases husers
  cases hitems
  cases hauditLog
  rfl

def ofOwner (db : Database) (owner : Uuid) : Database where
  users := db.users
  items := db.items.filter fun i => i.ownerId = owner
  auditLog := db.auditLog
  consistent := db.consistent.filter _

theorem mem_ofOwner {i : Item} :
    i ∈ (db.ofOwner owner).items ↔ i ∈ db.items ∧ i.ownerId = owner := by
  simp [ofOwner]

theorem setItems_ofOwner (hpart : (items.filter fun i => i.ownerId = owner) = part)
    (hiff : Consistent db.users part db.auditLog → Consistent db.users items db.auditLog) :
    (db.ofOwner owner).setItems part = (db.setItems items).map (ofOwner · owner) := by
  subst hpart
  unfold setItems
  by_cases h : Consistent db.users items db.auditLog
  · have hpart : Consistent (db.ofOwner owner).users (items.filter fun i => i.ownerId = owner)
        (db.ofOwner owner).auditLog := h.filter _
    rw [dif_pos h, dif_pos hpart]
    rfl
  · have hpart : ¬Consistent (db.ofOwner owner).users
        (items.filter fun i => i.ownerId = owner) (db.ofOwner owner).auditLog := mt hiff h
    rw [dif_neg h, dif_neg hpart]
    rfl

theorem setItems_ofOwner_eq (h : db.setItems items = .ok db')
    (hsame : (items.filter fun i => i.ownerId = owner) =
      db.items.filter fun i => i.ownerId = owner) : db'.ofOwner owner = db.ofOwner owner := by
  obtain ⟨husers, hitems, hauditLog⟩ := setItems_ok h
  exact eq_of_tables husers (by simp only [ofOwner, hitems, hsame]) hauditLog

end Database

theorem ItemRepository.getById_ofOwner {db : Database} {itemId owner : Uuid} :
    getById (db.ofOwner owner) itemId owner = getById db itemId owner := by
  unfold getById Database.ofOwner
  rw [List.find?_filter]
  congr 1
  funext i
  by_cases hi : i.ownerId = owner <;> simp [hi]

theorem ItemService.findItem_ofOwner {db : Database} {itemId owner : Uuid} :
    findItem (db.ofOwner owner) itemId owner = findItem db itemId owner := by
  unfold findItem
  rw [ItemRepository.getById_ofOwner]

theorem ItemRepository.getList_ofOwner {db : Database} {owner : Uuid} {offset limit : Nat}
    {rank : Uuid → Nat} :
    getList (db.ofOwner owner) owner offset limit rank = getList db owner offset limit rank := by
  simp only [getList, Database.ofOwner, List.filter_filter, Bool.and_self]

/-! ## Statements -/

/-- To whom each identifier of an item has been given. -/
abbrev Issued := Uuid → Option Uuid

/-- The statement writes a row of the owner. -/
structure Statement.Writes (issued : Issued) (owner : Uuid) (statement : Statement) :
    Prop where
  issued : issued statement.rowId = some owner
  owned : ∀ row, statement = .insert row → row.ownerId = owner

namespace Database

variable {db db' : Database} {issued : Issued} {owner other : Uuid}
  {statement : Option Statement} {i : Item}

/-- Every item has the owner to whom its identifier was given. -/
def Issues (issued : Issued) (items : List Item) : Prop :=
  ∀ i ∈ items, issued i.id = some i.ownerId

/-- A row that is there after the statement was there before, or is the writer's. -/
theorem mem_execute (hissued : Issues issued db.items)
    (hwrites : ∀ s ∈ statement, s.Writes issued owner)
    (hi : i ∈ Statement.execute statement db.items) :
    i ∈ db.items ∧ i.ownerId ≠ owner ∨ issued i.id = some owner ∧ i.ownerId = owner := by
  have hold (j : Item) (hj : j ∈ db.items) :
      j ∈ db.items ∧ j.ownerId ≠ owner ∨ issued j.id = some owner ∧ j.ownerId = owner := by
    by_cases howner : j.ownerId = owner
    · exact .inr ⟨howner ▸ hissued j hj, howner⟩
    · exact .inl ⟨hj, howner⟩
  rcases statement with _ | (row | ⟨id, title, description, updatedAt⟩ | id)
  · exact hold i hi
  · rcases List.mem_append.mp hi with hi | hi
    · exact hold i hi
    · obtain rfl := List.mem_singleton.mp hi
      have hrow := hwrites _ rfl
      exact .inr ⟨hrow.issued, hrow.owned i rfl⟩
  · obtain ⟨j, hj, rfl⟩ := List.mem_map.mp hi
    split
    · rename_i hid
      have hjOwner := hissued j hj
      have hwritten : issued id = some owner := (hwrites _ rfl).issued
      rw [hid, hwritten] at hjOwner
      refine .inr ⟨by rw [hid, hwritten], ?_⟩
      exact (Option.some.inj hjOwner).symm
    · exact hold j hj
  · exact hold i (List.mem_of_mem_filter hi)

theorem issues_execute (hissued : Issues issued db.items)
    (hwrites : ∀ s ∈ statement, s.Writes issued owner) :
    Issues issued (Statement.execute statement db.items) := by
  intro i hi
  rcases mem_execute hissued hwrites hi with ⟨hi, -⟩ | ⟨hid, howner⟩
  · exact hissued i hi
  · rw [hid, howner]

theorem execute_ofOwner (hwrites : ∀ s ∈ statement, s.Writes issued owner) :
    ((Statement.execute statement db.items).filter fun i => i.ownerId = owner) =
      Statement.execute statement (db.ofOwner owner).items := by
  rcases statement with _ | (row | ⟨id, title, description, updatedAt⟩ | id)
  · rfl
  · have hrow : row.ownerId = owner := (hwrites _ rfl).owned row rfl
    simp [Statement.execute, ofOwner, hrow]
  · unfold Statement.execute ofOwner
    dsimp only
    rw [List.filter_map]
    congr 2
    funext i
    by_cases hid : i.id = id <;> simp [hid]
  · simp only [Statement.execute, ofOwner, List.filter_filter, Bool.and_comm]

theorem execute_other (hissued : Issues issued db.items)
    (hwrites : ∀ s ∈ statement, s.Writes issued other) (hother : other ≠ owner) :
    ((Statement.execute statement db.items).filter fun i => i.ownerId = owner) =
      db.items.filter fun i => i.ownerId = owner := by
  have hid (s : Statement) (hs : s ∈ statement) (i : Item) (hi : i ∈ db.items)
      (howner : i.ownerId = owner) : i.id ≠ s.rowId := by
    intro hid
    have hissuedRow := (hwrites s hs).issued
    rw [← hid, hissued i hi, howner] at hissuedRow
    exact hother (Option.some.inj hissuedRow).symm
  rcases statement with _ | (row | ⟨id, title, description, updatedAt⟩ | id)
  · rfl
  · have hrow : row.ownerId = other := (hwrites _ rfl).owned row rfl
    simp [Statement.execute, hrow, hother]
  · unfold Statement.execute
    dsimp only
    rw [List.filter_map]
    have hown : ((fun i : Item => decide (i.ownerId = owner)) ∘ fun i : Item =>
        if i.id = id then
          { i with
            title := title.getD i.title
            description := description.getD i.description
            updatedAt := updatedAt }
        else i) = fun i => decide (i.ownerId = owner) := by
      funext i
      by_cases hid : i.id = id <;> simp [hid]
    rw [hown]
    conv_rhs => rw [← List.map_id (db.items.filter _)]
    refine List.map_congr_left fun i hi => if_neg ?_
    obtain ⟨hmem, howner⟩ := mem_ofOwner.mp hi
    exact hid _ rfl i hmem howner
  · unfold Statement.execute
    dsimp only
    rw [List.filter_filter]
    refine List.filter_congr fun i hi => ?_
    by_cases howner : i.ownerId = owner
    · have hne : i.id ≠ id := hid _ rfl i hi howner
      simp [howner, hne]
    · simp [howner]

/-- The constraints hold of the whole table if they hold of the part that is written. -/
theorem consistent_execute (hissued : Issues issued db.items)
    (hwrites : ∀ s ∈ statement, s.Writes issued owner)
    (h : Consistent db.users (Statement.execute statement (db.ofOwner owner).items)
      db.auditLog) :
    Consistent db.users (Statement.execute statement db.items) db.auditLog := by
  have hmem (i : Item) (hi : i ∈ Statement.execute statement db.items) :
      i ∈ db.items ∨ i ∈ Statement.execute statement (db.ofOwner owner).items := by
    rcases mem_execute hissued hwrites hi with ⟨hold, -⟩ | ⟨-, howner⟩
    · exact .inl hold
    · rw [← execute_ofOwner hwrites]
      exact .inr (List.mem_filter.mpr ⟨hi, by simpa using howner⟩)
  refine ⟨fun i hi => ?_, ?_, fun i hi => ?_, h.auditFits, h.auditId⟩
  · exact (hmem i hi).elim (db.consistent.itemFits i) (h.itemFits i)
  · have hunique := h.itemId
    have hwhole := db.consistent.itemId
    rcases statement with _ | (row | ⟨id, title, description, updatedAt⟩ | id)
    · exact hwhole
    · refine Rows.uniqueKey_append_singleton.mpr ⟨hwhole, fun i hi hid => ?_⟩
      have hissuedRow := (hwrites _ rfl).issued
      change issued row.id = some owner at hissuedRow
      rw [← hid, hissued i hi] at hissuedRow
      have howner := Option.some.inj hissuedRow
      exact (Rows.uniqueKey_append_singleton.mp hunique).2 i
        (mem_ofOwner.mpr ⟨hi, howner⟩) hid
    · have hids : (Statement.execute (some (.update id title description updatedAt))
          db.items).map Item.id = db.items.map Item.id := by
        unfold Statement.execute
        rw [List.map_map]
        refine List.map_congr_left fun i _ => ?_
        by_cases hid : i.id = id <;> simp [hid]
      rw [Rows.UniqueKey, hids]
      exact hwhole
    · exact hwhole.sublist (List.filter_sublist.map _)
  · exact (hmem i hi).elim (db.consistent.itemOwned i) (h.itemOwned i)

theorem setItems_execute_ofOwner (hissued : Issues issued db.items)
    (hwrites : ∀ s ∈ statement, s.Writes issued owner) :
    (db.ofOwner owner).setItems (Statement.execute statement (db.ofOwner owner).items) =
      (db.setItems (Statement.execute statement db.items)).map (ofOwner · owner) :=
  setItems_ofOwner (execute_ofOwner hwrites) (consistent_execute hissued hwrites)

theorem setItems_execute_other (hissued : Issues issued db.items)
    (hwrites : ∀ s ∈ statement, s.Writes issued other) (hother : other ≠ owner)
    (h : db.setItems (Statement.execute statement db.items) = .ok db') :
    db'.ofOwner owner = db.ofOwner owner :=
  setItems_ofOwner_eq h (execute_other hissued hwrites hother)

end Database

end IsolatedEnv.Backend
