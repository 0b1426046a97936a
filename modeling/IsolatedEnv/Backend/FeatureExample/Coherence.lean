import IsolatedEnv.Backend.Core.CacheCalls
import IsolatedEnv.Backend.FeatureExample.Items
import IsolatedEnv.Backend.Users.RoleChange

/-!
# Coherence of the cached listings

One owner's requests in any interleaving, each in a transaction of its own.  A
statement reads what is committed; a row that a transaction has written is locked
until the request's session is unwound, which comes after the invalidation.
-/

namespace IsolatedEnv.Backend

open IsolatedEnv.Foundation

/-! ## Statements -/

/-- What a flush sends; a column that has not changed is not in it. -/
inductive Statement where
  | insert (row : Item)
  | update (id : Uuid) (title : Option String) (description : Option (Option String))
      (updatedAt : Timestamp)
  | delete (id : Uuid)

namespace Statement

def rowId : Statement → Uuid
  | insert row => row.id
  | update id _ _ _ => id
  | delete id => id

def execute : Option Statement → List Item → List Item
  | none, items => items
  | some (insert row), items => items ++ [row]
  | some (update id title description updatedAt), items =>
      items.map fun i => if i.id = id then
        { i with
          title := title.getD i.title
          description := description.getD i.description
          updatedAt := updatedAt }
      else i
  | some (delete id), items => items.filter fun i => i.id ≠ id

end Statement

/--
The flush of `ItemRepository.update` for an item read earlier.  The row may be gone
by now, which the flush or the refresh after it turns into an exception.
-/
def ItemRepository.updateStatement (items : List Item) (item : Item) (data : ItemUpdate)
    (now : Timestamp) : Except Exc (Option Statement) :=
  match data.title.getD (some item.title) with
  | none => .error .sqlalchemy
  | some title =>
      let description := data.description.getD item.description
      if items.all fun i => i.id ≠ item.id then .error .sqlalchemy
      else if title = item.title ∧ description = item.description then .ok none
      else
        .ok (some (.update item.id (changed item.title title)
          (changed item.description description) now))

theorem setItems_same (db : Database) : db.setItems db.items = .ok db := by
  simp [Database.setItems, db.consistent]

/-- In a transaction that runs alone, the flush writes what the repository's update does. -/
theorem updateStatement_alone {db : Database} {item : Item} (hmem : item ∈ db.items)
    (data : ItemUpdate) (now : Timestamp) :
    (do let statement ← ItemRepository.updateStatement db.items item data now
        db.setItems (Statement.execute statement db.items)) =
      (ItemRepository.update db item data now).map Prod.snd := by
  unfold ItemRepository.updateStatement ItemRepository.update
  cases data.title.getD (some item.title) with
  | none => rfl
  | some title =>
      have hthere : (db.items.all fun i => i.id ≠ item.id) = false := by
        simpa using ⟨item, hmem, rfl⟩
      generalize hdescription : data.description.getD item.description = description
      simp only [hthere, Bool.false_eq_true, if_false]
      by_cases hsame : title = item.title ∧ description = item.description
      · obtain ⟨rfl, rfl⟩ := hsame
        rw [if_pos ⟨rfl, rfl⟩, if_pos rfl]
        exact setItems_same db
      · have hchanged : ({ item with title := title, description := description } : Item) ≠
            item := fun h =>
          hsame ⟨congrArg Item.title h, congrArg Item.description h⟩
        rw [if_neg hsame, if_neg hchanged]
        have hrows : Statement.execute (some (.update item.id (changed item.title title)
            (changed item.description description) now)) db.items =
              Rows.replace Item.id { item with
                title := title
                description := description
                updatedAt := now } db.items := by
          refine List.map_congr_left fun i hi => ?_
          by_cases hid : i.id = item.id
          · have hitem : i = item := db.consistent.itemId.eq hi hmem hid
            subst hitem
            simp [getD_changed]
          · simp [hid]
        change db.setItems _ = Except.map Prod.snd (Except.map _ _)
        rw [hrows]
        cases db.setItems _ <;> rfl

/-! ## Requests in flight -/

/-- A listing, and the number of commits it was read after. -/
structure Listing where
  items : List ItemResponse
  version : Nat
  deriving DecidableEq

structure ListRequest where
  offset : Nat
  limit : Nat
  started : Nat
  phase : Phase Exc Listing
  deriving DecidableEq

inductive ItemWrite where
  | create (data : ItemCreate) (newId : Uuid)
  | update (itemId : Uuid) (data : ItemUpdate)
  | delete (itemId : Uuid)

/--
`due` are the keys that a scan has still to return: the ones that were there when it
began and have not been stored anew.
-/
inductive WritePhase where
  | begun
  | found (item : Item)
  | flushed (statement : Option Statement)
  | scanning (statement : Option Statement) (due : List String)
  | unlinking (statement : Option Statement) (keys : List String)
  | finished (result : Except Exc Unit)

namespace WritePhase

def statement : WritePhase → Option Statement
  | flushed statement => statement
  | scanning statement _ => statement
  | unlinking statement _ => statement
  | _ => none

/-- The keys an invalidation under way is still to remove. -/
def pending : WritePhase → Option (List String)
  | scanning _ due => some due
  | unlinking _ keys => some keys
  | _ => none

def stored (key : String) : WritePhase → WritePhase
  | scanning statement due => scanning statement (due.filter fun k => k ≠ key)
  | phase => phase

end WritePhase

/-- `now` is the time of the request's transaction. -/
structure WriteRequest where
  write : ItemWrite
  now : Timestamp
  phase : WritePhase

/-- The committed tables, with those before each commit. -/
structure ItemTraffic where
  past : List Database
  db : Database
  redis : Redis Listing
  lists : List ListRequest
  writes : List WriteRequest

namespace ItemTraffic

def start (db : Database) : ItemTraffic := ⟨[], db, .start, [], []⟩

/-- `rank` is the order that PostgreSQL gives to rows created at the same time. -/
inductive Event where
  | list (offset limit : Nat)
  | write (write : ItemWrite) (now : Timestamp)
  | read (i : Nat) (rank : Uuid → Nat)
  | work (i : Nat) (scanned : List String)
  | wait (milliseconds : Nat)
  | evict (key : String)
  | evictLock (key : String)

variable (owner : Uuid)

def listing (s : ItemTraffic) (offset limit : Nat) (rank : Uuid → Nat) : Listing where
  items := (ItemRepository.getList s.db owner offset limit rank).map Item.response
  version := s.past.length

/-- The next step of `list_items`. -/
def read (s : ItemTraffic) (i : Nat) (rank : Uuid → Nat) : Option ItemTraffic := do
  let r ← s.lists[i]?
  let key := ItemService.listKey owner r.offset r.limit
  let (phase, redis) ← r.phase.advance i key 300 .done
    (.ok (s.listing owner r.offset r.limit rank)) s.redis
  some { s with
    redis := redis
    lists := s.lists.set i { r with phase := phase }
    writes := if r.phase.stores.isSome then
        s.writes.map fun w => { w with phase := w.phase.stored key }
      else s.writes }

/-- Another transaction has written the row and is not over. -/
def rowLocked (s : ItemTraffic) (id : Uuid) : Bool :=
  s.writes.any fun w => w.phase.statement.any fun statement => statement.rowId = id

def flush (s : ItemTraffic) :
    Except Exc (Option Statement) → Option (WritePhase × ItemTraffic)
  | .error e => some (.finished (.error e), s)
  | .ok none => some (.flushed none, s)
  | .ok (some statement) =>
      if s.rowLocked statement.rowId then none
      else
        match s.db.setItems (Statement.execute (some statement) s.db.items) with
        | .ok _ => some (.flushed (some statement), s)
        | .error e => some (.finished (.error e), s)

/-- The unwinding of `get_db`. -/
def commit (s : ItemTraffic) (statement : Option Statement) : WritePhase × ItemTraffic :=
  match s.db.setItems (Statement.execute statement s.db.items) with
  | .ok db => (.finished (.ok ()), { s with past := s.past ++ [s.db], db := db })
  | .error e => (.finished (.error e), s)

def ownKeys (s : ItemTraffic) : List String :=
  (s.redis.values.liveKeys s.redis.now).filter fun key =>
    (ItemService.listKeys owner).toList.isPrefixOf key.toList

/-- The next step of a mutating request; `scanned` are the keys its scan has returned. -/
def advance (s : ItemTraffic) (w : WriteRequest) (scanned : List String) :
    Option (WritePhase × ItemTraffic) :=
  match w.phase with
  | .begun =>
      match w.write with
      | .create data newId =>
          s.flush (.ok (some (.insert
            ⟨newId, data.title, data.description, owner, w.now, w.now⟩)))
      | .update itemId _ | .delete itemId =>
          match ItemService.findItem s.db itemId owner with
          | .ok item => some (.found item, s)
          | .error e => some (.finished (.error e), s)
  | .found item =>
      match w.write with
      | .create _ _ => none
      | .update _ data =>
          s.flush (ItemRepository.updateStatement s.db.items item data w.now)
      | .delete _ => s.flush (.ok (some (.delete item.id)))
  | .flushed statement => some (.scanning statement (s.ownKeys owner), s)
  | .scanning statement due =>
      if due.all fun key => (s.redis.values.live s.redis.now key).isNone ||
          scanned.contains key then
        some (.unlinking statement scanned, s)
      else none
  | .unlinking statement [] => some (s.commit statement)
  | .unlinking statement keys =>
      some (.unlinking statement (keys.drop 1000), { s with
        redis := { s.redis with values := s.redis.values.eraseAll (keys.take 1000) } })
  | .finished _ => none

def work (s : ItemTraffic) (i : Nat) (scanned : List String) : Option ItemTraffic := do
  let w ← s.writes[i]?
  let (phase, s') ← s.advance owner w scanned
  some { s' with writes := s.writes.set i { w with phase := phase } }

def step (s : ItemTraffic) : Event → Option ItemTraffic
  | .list offset limit =>
      some { s with lists := s.lists ++ [⟨offset, limit, s.past.length, .reading⟩] }
  | .write write now => some { s with writes := s.writes ++ [⟨write, now, .begun⟩] }
  | .read i rank => s.read owner i rank
  | .work i scanned => s.work owner i scanned
  | .wait milliseconds =>
      some { s with redis := { s.redis with now := s.redis.now + milliseconds } }
  | .evict key =>
      some { s with redis := { s.redis with values := s.redis.values.erase key } }
  | .evictLock key =>
      some { s with redis := { s.redis with locks := s.redis.locks.erase key } }

/-! ## Coherence -/

/-- The items are what the tables showed after `version` commits. -/
def Shows (s : ItemTraffic) (offset limit version : Nat) (items : List ItemResponse) :
    Prop :=
  ∃ db rank, (s.past ++ [s.db])[version]? = some db ∧
    items = (ItemRepository.getList db owner offset limit rank).map Item.response

/-- A listing in which every mutation committed before the request began is seen. -/
def Reflects (s : ItemTraffic) (r : ListRequest) (result : Except Exc Listing) : Prop :=
  ∃ listing version, result = .ok listing ∧ r.started ≤ version ∧
    s.Shows owner r.offset r.limit version listing.items

def Coherent (s : ItemTraffic) : Prop :=
  ∀ r ∈ s.lists, ∀ result, r.phase = .returned result → s.Reflects owner r result

/--
A listing is stored only while it is up to date and no mutating request is between
the beginning of its invalidation and its commit.
-/
def StoresInTime (s : ItemTraffic) : Event → Prop
  | .read i _ => ∀ r ∈ s.lists[i]?, ∀ listing ∈ r.phase.stores,
      listing.version = s.past.length ∧ ∀ w ∈ s.writes, w.phase.pending = none
  | _ => True

instance StoresInTime.decidable (s : ItemTraffic) : (e : Event) → Decidable (s.StoresInTime e)
  | .read _ _ => inferInstanceAs (Decidable (∀ _ ∈ _, ∀ _ ∈ _, _ ∧ _))
  | .list _ _ | .write _ _ | .work _ _ | .wait _ | .evict _ | .evictLock _ => isTrue trivial

/-! ### The invariant -/

/-- As `Reflects`, by the number of commits that the listing carries. -/
def ReflectsAsDated (s : ItemTraffic) (r : ListRequest) (result : Except Exc Listing) :
    Prop :=
  ∃ listing, result = .ok listing ∧ r.started ≤ listing.version ∧
    s.Shows owner r.offset r.limit listing.version listing.items

structure Invariant (s : ItemTraffic) : Prop where
  started : ∀ r ∈ s.lists, r.started ≤ s.past.length
  outcomes : ∀ r ∈ s.lists, ∀ result, r.phase.outcome = some result →
    s.ReflectsAsDated owner r result
  entries : ∀ key listing, s.redis.values.live s.redis.now key = some listing →
    listing.version = s.past.length ∧ ∃ offset limit,
      key = ItemService.listKey owner offset limit ∧
        s.Shows owner offset limit listing.version listing.items
  invalidated : ∀ w ∈ s.writes, ∀ keys, w.phase.pending = some keys →
    ∀ key listing, s.redis.values.live s.redis.now key = some listing → key ∈ keys

variable {owner} {s s' : ItemTraffic} {i : Nat} {statement : Option Statement}

theorem Invariant.coherent (h : s.Invariant owner) : s.Coherent owner := by
  intro r hr result hreturned
  obtain ⟨listing, hlisting, hstarted, hshows⟩ :=
    h.outcomes r hr result (by rw [hreturned]; rfl)
  exact ⟨listing, _, hlisting, hstarted, hshows⟩

theorem start_invariant (db : Database) : (start db).Invariant owner where
  started := by simp [start]
  outcomes := by simp [start]
  entries := by
    intro key listing hlive
    cases hlive
  invalidated := by simp [start]

/-- Entries that go leave everything else as it is. -/
theorem Invariant.fewer (h : s.Invariant owner) (redis : Redis Listing)
    (hlive : ∀ key listing, redis.values.live redis.now key = some listing →
      s.redis.values.live s.redis.now key = some listing) :
    ({ s with redis := redis } : ItemTraffic).Invariant owner where
  started := h.started
  outcomes := h.outcomes
  entries key listing hkey := h.entries key listing (hlive key listing hkey)
  invalidated w hw keys hkeys key listing hkey :=
    h.invalidated w hw keys hkeys key listing (hlive key listing hkey)

/-- A write that has something to remove must have removed all but `pending`. -/
theorem Invariant.setWrite (h : s.Invariant owner) {w : WriteRequest}
    (hpending : ∀ keys, w.phase.pending = some keys → ∀ key listing,
      s.redis.values.live s.redis.now key = some listing → key ∈ keys) :
    ({ s with writes := s.writes.set i w } : ItemTraffic).Invariant owner where
  started := h.started
  outcomes := h.outcomes
  entries := h.entries
  invalidated w' hw' := by
    rcases List.mem_or_eq_of_mem_set hw' with hw' | rfl
    · exact h.invalidated w' hw'
    · exact hpending

/-! ### Reading -/

theorem read_eq_some {rank : Uuid → Nat} (h : s.read owner i rank = some s') :
    ∃ r phase redis, s.lists[i]? = some r ∧
      r.phase.advance i (ItemService.listKey owner r.offset r.limit) 300 .done
        (.ok (s.listing owner r.offset r.limit rank)) s.redis = some (phase, redis) ∧
      s' = { s with
        redis := redis
        lists := s.lists.set i { r with phase := phase }
        writes := if r.phase.stores.isSome then
            s.writes.map fun w => { w with
              phase := w.phase.stored (ItemService.listKey owner r.offset r.limit) }
          else s.writes } := by
  obtain ⟨r, hr, h⟩ := Option.bind_eq_some_iff.mp h
  obtain ⟨⟨phase, redis⟩, hphase, h⟩ := Option.bind_eq_some_iff.mp h
  cases h
  exact ⟨r, phase, redis, hr, hphase, rfl⟩

theorem listing_shows (s : ItemTraffic) (offset limit : Nat) (rank : Uuid → Nat) :
    s.Shows owner offset limit s.past.length (s.listing owner offset limit rank).items :=
  ⟨s.db, rank, by simp, rfl⟩

/-- What a reader has after a step reflects what was committed when it began. -/
theorem Invariant.read_outcome (h : s.Invariant owner) {r : ListRequest}
    (hr : r ∈ s.lists) {rank : Uuid → Nat} {phase : Phase Exc Listing}
    {redis : Redis Listing} {result : Except Exc Listing}
    (hphase : r.phase.advance i (ItemService.listKey owner r.offset r.limit) 300 .done
      (.ok (s.listing owner r.offset r.limit rank)) s.redis = some (phase, redis))
    (hresult : phase.outcome = some result) : s.ReflectsAsDated owner r result := by
  rcases Phase.advance_outcome hphase hresult with hold | rfl | ⟨value, hlive, rfl⟩
  · exact h.outcomes r hr result hold
  · exact ⟨_, rfl, h.started r hr, listing_shows s _ _ rank⟩
  · obtain ⟨hversion, offset, limit, hkey, hshows⟩ := h.entries _ _ hlive
    obtain ⟨-, rfl, rfl⟩ := ItemService.listKey_inj hkey
    exact ⟨value, rfl, hversion ▸ h.started r hr, hshows⟩

theorem stored_pending {phase : WritePhase} {key : String} (h : phase.pending = none) :
    (phase.stored key).pending = none := by
  cases phase <;> first | exact h | cases h

theorem read_invariant {rank : Uuid → Nat} (h : s.Invariant owner)
    (hguard : s.StoresInTime (.read i rank)) (hstep : s.read owner i rank = some s') :
    s'.Invariant owner := by
  obtain ⟨r, phase, redis, hr, hphase, rfl⟩ := read_eq_some hstep
  have hmem := List.mem_of_getElem? hr
  have hnow := (Phase.advance_locks hphase).1
  have hlists : ∀ r' ∈ s.lists.set i { r with phase := phase },
      r' ∈ s.lists ∨ r' = { r with phase := phase } :=
    fun r' => List.mem_or_eq_of_mem_set
  refine ⟨fun r' hr' => ?_, fun r' hr' result hresult => ?_, ?_, ?_⟩
  · rcases hlists r' hr' with hr' | rfl
    · exact h.started r' hr'
    · exact h.started r hmem
  · rcases hlists r' hr' with hr' | rfl
    · exact h.outcomes r' hr' result hresult
    · exact h.read_outcome hmem hphase hresult
  · intro key listing hlive
    dsimp only at hlive
    rw [hnow] at hlive
    rcases Phase.advance_values hphase with hvalues | ⟨value, hvalue, hvalues⟩
    · exact h.entries key listing (hvalues ▸ hlive)
    · rw [hvalues] at hlive
      rcases Expiring.live_set hlive with ⟨rfl, rfl⟩ | hlive
      · have houtcome : r.phase.outcome = some (.ok listing) := Phase.stores_outcome hvalue
        obtain ⟨_, hok, -, hshows⟩ := h.outcomes r hmem _ houtcome
        cases hok
        exact ⟨(hguard r hr listing hvalue).1, r.offset, r.limit, rfl, hshows⟩
      · exact h.entries key listing hlive
  · intro w hw keys hkeys key listing hlive
    dsimp only at hw hlive
    rw [hnow] at hlive
    cases hstores : r.phase.stores with
    | none =>
        simp only [hstores, Option.isSome_none, Bool.false_eq_true, if_false] at hw
        rcases Phase.advance_values hphase with hvalues | ⟨value, hvalue, -⟩
        · exact h.invalidated w hw keys hkeys key listing (hvalues ▸ hlive)
        · rw [hstores] at hvalue
          cases hvalue
    | some value =>
        simp only [hstores, Option.isSome_some, if_true] at hw
        obtain ⟨w', hw', rfl⟩ := List.mem_map.mp hw
        rw [stored_pending ((hguard r hr value hstores).2 w' hw')] at hkeys
        cases hkeys

/-! ### Writing -/

theorem flush_eq_some {flushed : Except Exc (Option Statement)} {phase : WritePhase}
    (h : s.flush flushed = some (phase, s')) : s' = s ∧ phase.pending = none := by
  rcases flushed with e | (_ | statement)
  · cases h
    exact ⟨rfl, rfl⟩
  · cases h
    exact ⟨rfl, rfl⟩
  · simp only [flush] at h
    split at h
    · cases h
    · split at h <;> cases h <;> exact ⟨rfl, rfl⟩

/-- A step goes on, removes a batch of keys, or commits when no key is left. -/
theorem advance_cases {w : WriteRequest} {scanned : List String} {phase : WritePhase}
    (h : s.advance owner w scanned = some (phase, s')) :
    (s' = s ∧ (phase.pending = none ∨ phase.pending = some (s.ownKeys owner) ∨
      ∃ due, w.phase.pending = some due ∧ phase.pending = some scanned ∧
        ∀ key ∈ due, s.redis.values.live s.redis.now key ≠ none → key ∈ scanned)) ∨
    (∃ keys, w.phase.pending = some keys ∧ phase.pending = some (keys.drop 1000) ∧
      s' = { s with redis := { s.redis with
        values := s.redis.values.eraseAll (keys.take 1000) } }) ∨
    (w.phase.pending = some [] ∧ phase.pending = none ∧
      ∃ db, s' = { s with past := s.past ++ [s.db], db := db }) := by
  unfold advance at h
  cases hphase : w.phase with
  | begun =>
      simp only [hphase] at h
      left
      cases hwrite : w.write with
      | create data newId =>
          rw [hwrite] at h
          exact ⟨(flush_eq_some h).1, .inl (flush_eq_some h).2⟩
      | update itemId data =>
          simp only [hwrite] at h
          split at h <;> cases h <;> exact ⟨rfl, .inl rfl⟩
      | delete itemId =>
          simp only [hwrite] at h
          split at h <;> cases h <;> exact ⟨rfl, .inl rfl⟩
  | found item =>
      simp only [hphase] at h
      left
      cases hwrite : w.write with
      | create data newId =>
          rw [hwrite] at h
          cases h
      | update itemId data =>
          rw [hwrite] at h
          exact ⟨(flush_eq_some h).1, .inl (flush_eq_some h).2⟩
      | delete itemId =>
          rw [hwrite] at h
          exact ⟨(flush_eq_some h).1, .inl (flush_eq_some h).2⟩
  | flushed statement =>
      simp only [hphase] at h
      cases h
      exact .inl ⟨rfl, .inr (.inl rfl)⟩
  | scanning statement due =>
      simp only [hphase] at h
      split at h
      · rename_i hscanned
        cases h
        refine .inl ⟨rfl, .inr (.inr ⟨due, rfl, rfl, fun key hkey hlive => ?_⟩)⟩
        simpa [hlive] using List.all_eq_true.mp hscanned key hkey
      · cases h
  | unlinking statement keys =>
      simp only [hphase] at h
      cases keys with
      | nil =>
          simp only [commit] at h
          split at h <;> cases h
          · exact .inr (.inr ⟨rfl, rfl, _, rfl⟩)
          · exact .inl ⟨rfl, .inl rfl⟩
      | cons key keys =>
          cases h
          exact .inr (.inl ⟨key :: keys, rfl, rfl, rfl⟩)
  | finished result =>
      rw [hphase] at h
      cases h

theorem Shows.commit {offset limit version : Nat} {items : List ItemResponse}
    (h : s.Shows owner offset limit version items) (db : Database) :
    ({ s with past := s.past ++ [s.db], db := db } : ItemTraffic).Shows owner offset limit
      version items := by
  obtain ⟨before, rank, hbefore, hitems⟩ := h
  refine ⟨before, rank, ?_, hitems⟩
  rw [List.getElem?_append_left (List.getElem?_eq_some_iff.mp hbefore).1]
  exact hbefore

/-- When the cache is empty a commit makes nothing stale. -/
theorem Invariant.commit (h : s.Invariant owner) (db : Database)
    (hempty : ∀ key, s.redis.values.live s.redis.now key = none) :
    ({ s with past := s.past ++ [s.db], db := db } : ItemTraffic).Invariant owner where
  started r hr := (h.started r hr).trans (by simp)
  outcomes r hr result hresult := by
    obtain ⟨listing, rfl, hstarted, hshows⟩ := h.outcomes r hr result hresult
    exact ⟨listing, rfl, hstarted, Shows.commit hshows db⟩
  entries key listing hlive := by
    rw [hempty key] at hlive
    cases hlive
  invalidated w hw keys hkeys key listing hlive := by
    rw [hempty key] at hlive
    cases hlive

theorem work_invariant {scanned : List String} (h : s.Invariant owner)
    (hstep : s.work owner i scanned = some s') : s'.Invariant owner := by
  obtain ⟨w, hw, hstep⟩ := Option.bind_eq_some_iff.mp hstep
  obtain ⟨⟨phase, t⟩, hadvance, hstep⟩ := Option.bind_eq_some_iff.mp hstep
  cases hstep
  have hinvalidated := h.invalidated w (List.mem_of_getElem? hw)
  rcases advance_cases hadvance with ⟨rfl, hphase⟩ | ⟨keys, hkeys, hphase, rfl⟩ |
    ⟨hkeys, hphase, db, rfl⟩
  · apply h.setWrite
    intro pending hpending key listing hlive
    rcases hphase with hnone | hown | ⟨due, hdue, hscanned, hall⟩
    · rw [hnone] at hpending
      cases hpending
    · rw [hown] at hpending
      cases hpending
      obtain ⟨-, offset, limit, rfl, -⟩ := h.entries key listing hlive
      exact List.mem_filter.mpr ⟨Expiring.mem_liveKeys hlive,
        ItemService.listKeys_isPrefixOf.mpr rfl⟩
    · rw [hscanned] at hpending
      cases hpending
      exact hall key (hinvalidated due hdue key listing hlive) (by simp [hlive])
  · refine (h.fewer { s.redis with
      values := s.redis.values.eraseAll (keys.take 1000) } fun key listing hlive =>
        (Expiring.live_eraseAll hlive).2).setWrite ?_
    intro pending hpending key listing hlive
    rw [hphase] at hpending
    cases hpending
    obtain ⟨hkept, hlive⟩ := Expiring.live_eraseAll hlive
    have hmem := hinvalidated keys hkeys key listing hlive
    rw [← List.take_append_drop 1000 keys] at hmem
    exact (List.mem_append.mp hmem).resolve_left hkept
  · have hempty : ∀ key, s.redis.values.live s.redis.now key = none := by
      intro key
      cases hlive : s.redis.values.live s.redis.now key with
      | none => rfl
      | some listing => cases hinvalidated [] hkeys key listing hlive
    apply (h.commit db hempty).setWrite
    intro pending hpending
    rw [hphase] at hpending
    cases hpending

/-! ### Runs -/

theorem step_invariant {e : Event} (h : s.Invariant owner) (hguard : s.StoresInTime e)
    (hstep : s.step owner e = some s') : s'.Invariant owner := by
  cases e with
  | list offset limit =>
      cases hstep
      refine ⟨fun r hr => ?_, fun r hr result hresult => ?_, h.entries, h.invalidated⟩
      · rcases List.mem_append.mp hr with hr | hr
        · exact h.started r hr
        · rw [List.mem_singleton.mp hr]
      · rcases List.mem_append.mp hr with hr | hr
        · exact h.outcomes r hr result hresult
        · rw [List.mem_singleton.mp hr] at hresult
          cases hresult
  | write write now =>
      cases hstep
      refine ⟨h.started, h.outcomes, h.entries, fun w hw keys hkeys => ?_⟩
      rcases List.mem_append.mp hw with hw | hw
      · exact h.invalidated w hw keys hkeys
      · rw [List.mem_singleton.mp hw] at hkeys
        cases hkeys
  | read i rank => exact read_invariant h hguard hstep
  | work i scanned => exact work_invariant h hstep
  | wait milliseconds =>
      cases hstep
      exact h.fewer _ fun key listing => Expiring.live_earlier (Nat.le_add_right _ _)
  | evict key =>
      cases hstep
      exact h.fewer _ fun key listing hlive => (Expiring.live_eraseAll hlive).2
  | evictLock key =>
      cases hstep
      exact h.fewer _ fun key listing hlive => hlive

/--
Every listing that is returned reflects the mutations committed before its request
began, as long as no listing is stored after its time.
-/
theorem listings_coherent {db : Database} {es : List Event}
    (hguard : Along (step owner) StoresInTime (start db) es)
    (hrun : run (step owner) (start db) es = some s) : s.Coherent owner :=
  (run_invariant_along (fun _ _ _ hs hg hstep => step_invariant hs hg hstep)
    (start_invariant db) hguard hrun).coherent

/-! ### A listing stored too late -/

def alicesTables : Database := AdminRouter.exampleDatabase AdminRouter.onlyAlice

def writeMilk : Event := .write (.create ⟨"Milk", none, by decide⟩ 7) (exampleTick 0).now

def readNext (i : Nat) : Event := .read i fun _ => 0

/-- The first request stores what it read before the item was committed. -/
def staleListing : List Event :=
  [.list 0 20, readNext 0, readNext 0, readNext 0, writeMilk, .work 0 [],
    .work 0 [], .work 0 [], .work 0 [], readNext 0, readNext 0, .list 0 20, readNext 1]

theorem stale_listing_returned :
    ∃ s ∈ run (step 1) (start alicesTables) staleListing, ¬s.Coherent 1 := by
  have hrun : ∃ s ∈ run (step 1) (start alicesTables) staleListing,
      s.past.length = 1 ∧
        s.db.items = [⟨7, "Milk", none, 1, (exampleTick 0).now, (exampleTick 0).now⟩] ∧
        (⟨0, 20, 1, .returned (.ok ⟨[], 0⟩)⟩ : ListRequest) ∈ s.lists := by
    decide +kernel
  obtain ⟨s, hs, hpast, hdb, hlist⟩ := hrun
  refine ⟨s, hs, fun hcoherent => ?_⟩
  obtain ⟨listing, version, hlisting, hstarted, db, rank, hversion, hitems⟩ :=
    hcoherent _ hlist _ rfl
  cases hlisting
  have hlt := (List.getElem?_eq_some_iff.mp hversion).1
  have hone : version = s.past.length := by
    simp only [List.length_append, List.length_singleton] at hlt
    have hstarted : 1 ≤ version := hstarted
    omega
  rw [hone, List.getElem?_concat_length] at hversion
  cases hversion
  simp [ItemRepository.getList, hdb, newestFirst] at hitems

/-- The item is committed before its listing is read and stored. -/
def listingInTime : List Event :=
  [writeMilk, .work 0 [], .work 0 [], .work 0 [], .work 0 [], .list 0 20, readNext 0,
    readNext 0, readNext 0, readNext 0, readNext 0, .list 0 20, readNext 1]

theorem listing_after_commit :
    ∃ s ∈ run (step 1) (start alicesTables) listingInTime, s.Coherent 1 := by
  have hrun : (run (step 1) (start alicesTables) listingInTime).isSome = true := by
    decide +kernel
  exact ⟨_, Option.get_mem hrun, listings_coherent (by decide +kernel)
    (Option.some_get hrun).symm⟩

end ItemTraffic

end IsolatedEnv.Backend
