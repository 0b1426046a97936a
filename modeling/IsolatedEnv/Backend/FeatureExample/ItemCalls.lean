import IsolatedEnv.Backend.App
import IsolatedEnv.Backend.FeatureExample.OwnerPart

/-!
# The steps of an item request

Each statement of a request, each of its calls to Redis and its commit are steps of
their own.  A step works on what it finds of the tables and of Redis, and is the same
whether it finds all of it or the part of its owner.
-/

namespace IsolatedEnv.Backend

open IsolatedEnv.Foundation

/-! ## Requests in flight -/

/-- What a request does next; `keys` are those that its invalidation is to remove. -/
inductive ItemPhase where
  | listing (offset limit : Nat) (phase : Phase Exc (List ItemResponse))
  | getting (itemId : Uuid)
  | creating (data : ItemCreate)
  | updating (itemId : Uuid) (data : ItemUpdate)
  | updatingFound (item : Item) (data : ItemUpdate)
  | deleting (itemId : Uuid)
  | deletingFound (item : Item)
  | flushed (statement : Option Statement) (answer : Answer)
  | unlinking (statement : Option Statement) (answer : Answer) (keys : List String)
  | answered (result : Except Exc Answer)

namespace ItemPhase

def answer : ItemPhase → Option (Except Exc Answer)
  | listing _ _ (.returned result) => some (result.map .items)
  | answered result => some result
  | _ => none

def statement : ItemPhase → Option Statement
  | flushed statement _ => statement
  | unlinking statement _ _ => statement
  | _ => none

end ItemPhase

namespace ItemRoute

/-- Where the endpoint begins; `none` for parameters that fail their validation. -/
def first : ItemRoute → Option ItemPhase
  | listItems params => params.map fun (offset, limit) => .listing offset limit .reading
  | getItem params => params.map .getting
  | createItem params => params.map .creating
  | updateItem params => params.map fun (itemId, data) => .updating itemId data
  | deleteItem params => params.map .deleting

def perMinute : ItemRoute → Nat
  | listItems _ | getItem _ => 100
  | createItem _ | updateItem _ | deleteItem _ => 30

end ItemRoute

/-- `number` counts the requests of the owner; `now` is the time of the transaction. -/
structure ItemCall where
  owner : Uuid
  number : Nat
  newId : Uuid
  now : Timestamp
  phase : ItemPhase

namespace ItemCall

def key (c : ItemCall) : Uuid × Nat := (c.owner, c.number)

/-- The identifier that `uuid4` gives in the next step. -/
def drawn (c : ItemCall) : Option Uuid :=
  match c.phase with
  | .creating _ => some c.newId
  | _ => none

/--
What happens around a step: how the call to Redis ends, PostgreSQL's order of rows
created at the same time, and the keys that a scan has returned.
-/
structure Surroundings where
  call : CallResult
  rank : Uuid → Nat
  scanned : List String

/-- A row that another transaction has written is locked until that is over. -/
def flush (db : Database) (locked : Uuid → Bool) (statement : Option Statement)
    (answer : List Item → Except Exc Answer) : Option ItemPhase :=
  if statement.any fun s => locked s.rowId then none
  else
    some (match (do
        let db ← db.setItems (Statement.execute statement db.items)
        answer db.items) with
      | .ok answer => .flushed statement answer
      | .error e => .answered (.error e))

/-- `session.refresh(item)` -/
def refreshed (id : Uuid) (items : List Item) : Except Exc Answer :=
  match Rows.find Item.id id items with
  | some row => .ok (.item row.response)
  | none => .error .sqlalchemy

/-- The steps that send a statement. -/
def query (db : Database) (locked : Uuid → Bool) (c : ItemCall) : Option ItemPhase :=
  match c.phase with
  | .getting itemId =>
      some (.answered ((ItemService.findItem db itemId c.owner).map fun item =>
        .item item.response))
  | .creating data =>
      let row : Item := ⟨c.newId, data.title, data.description, c.owner, c.now, c.now⟩
      flush db locked (some (.insert row)) fun _ => .ok (.item row.response)
  | .updating itemId data =>
      some (match ItemService.findItem db itemId c.owner with
        | .ok item => .updatingFound item data
        | .error e => .answered (.error e))
  | .updatingFound item data =>
      match ItemRepository.updateStatement db.items item data c.now with
      | .ok statement => flush db locked statement (refreshed item.id)
      | .error e => some (.answered (.error e))
  | .deleting itemId =>
      some (match ItemService.findItem db itemId c.owner with
        | .ok item => .deletingFound item
        | .error e => .answered (.error e))
  | .deletingFound item =>
      flush db locked (some (.delete item.id)) fun _ => .ok .noContent
  | _ => none

/-- The unwinding of `get_db`. -/
def commit (db : Database) (statement : Option Statement) (answer : Answer) :
    ItemPhase × Database :=
  match db.setItems (Statement.execute statement db.items) with
  | .ok db => (.answered (.ok answer), db)
  | .error e => (.answered (.error e), db)

/-- `invalidate` removes the keys in batches, and gives up when a call fails. -/
def unlink (redis : Redis (List ItemResponse)) (call : CallResult) (keys : List String) :
    List String × Redis (List ItemResponse) :=
  (if call = .done then keys.drop 1000 else [],
    if call = .failed then redis
    else { redis with values := redis.values.eraseAll (keys.take 1000) })

def advance (db : Database) (redis : Redis (List ItemResponse)) (locked : Uuid → Bool)
    (c : ItemCall) (around : Surroundings) :
    Option (ItemPhase × Database × Redis (List ItemResponse)) :=
  match c.phase with
  | .listing offset limit phase =>
      (phase.advance c.number (ItemService.listKey c.owner offset limit) 300 around.call
        (.ok ((ItemRepository.getList db c.owner offset limit around.rank).map
          Item.response)) redis).map fun p => (.listing offset limit p.1, db, p.2)
  | .flushed statement answer =>
      if around.scanned.all (ItemService.ownKey c.owner) then
        some (.unlinking statement answer around.scanned, db, redis)
      else none
  | .unlinking statement answer [] =>
      let (phase, db) := commit db statement answer
      some (phase, db, redis)
  | .unlinking statement answer keys =>
      let (left, redis) := unlink redis around.call keys
      some (.unlinking statement answer left, db, redis)
  | _ => (query db locked c).map fun phase => (phase, db, redis)

end ItemCall

/-! ## A request alone -/

theorem ItemRepository.update_mem {db db' : Database} {item row : Item} {data : ItemUpdate}
    {now : Timestamp} (hmem : item ∈ db.items)
    (h : update db item data now = .ok (row, db')) : row ∈ db'.items ∧ row.id = item.id := by
  unfold update at h
  split at h
  · cases h
  · dsimp only at h
    split at h
    · cases h
      exact ⟨hmem, rfl⟩
    · obtain ⟨db'', hset, heq⟩ := exists_ok h
      cases heq
      rw [(Database.setItems_ok hset).2.1]
      exact ⟨Rows.mem_replace.mpr (.inr ⟨rfl, item, hmem, rfl⟩), rfl⟩

namespace ItemCall

variable {db : Database} {c : ItemCall} {item : Item}

/-- The request goes on to answer with the result, or has failed with it. -/
def Results (db : Database) (phase : Option ItemPhase) :
    Except Exc (Answer × Database) → Prop
  | .ok (answer, db') => ∃ statement, phase = some (.flushed statement answer) ∧
      commit db statement answer = (.answered (.ok answer), db')
  | .error e => phase = some (.answered (.error e))

theorem flush_alone {statement : Option Statement} {answer : List Item → Except Exc Answer}
    {result : Except Exc (Answer × Database)}
    (hresult : result = do
      let db' ← db.setItems (Statement.execute statement db.items)
      let answer ← answer db'.items
      .ok (answer, db')) :
    Results db (flush db (fun _ => false) statement answer) result := by
  have hunlocked : (statement.any fun _ => false) = false := by cases statement <;> rfl
  subst hresult
  unfold flush
  rw [hunlocked]
  cases hset : db.setItems (Statement.execute statement db.items) with
  | error e => rfl
  | ok db' =>
      cases hanswer : answer db'.items with
      | error e => simp [Results, bind, Except.bind, hanswer]
      | ok a =>
          simp only [bind, Except.bind, hanswer]
          exact ⟨statement, rfl, by simp only [commit, hset]⟩

/-- The writes are the repository's where no other transaction is under way. -/
theorem creating_alone {data : ItemCreate} (hphase : c.phase = .creating data) :
    Results db (query db (fun _ => false) c)
      ((ItemRepository.create db data c.owner c.newId c.now).map fun p =>
        (.item p.1.response, p.2)) := by
  unfold query ItemRepository.create
  rw [hphase]
  refine flush_alone ?_
  dsimp only [Statement.execute]
  cases db.setItems _ <;> rfl

theorem deleting_alone (hphase : c.phase = .deletingFound item) :
    Results db (query db (fun _ => false) c)
      ((ItemRepository.delete db item).map fun db => (.noContent, db)) := by
  unfold query ItemRepository.delete
  rw [hphase]
  refine flush_alone ?_
  dsimp only [Statement.execute]
  cases db.setItems _ <;> rfl

theorem updating_alone {data : ItemUpdate} (hphase : c.phase = .updatingFound item data)
    (hmem : item ∈ db.items) :
    Results db (query db (fun _ => false) c)
      ((ItemRepository.update db item data c.now).map fun p =>
        (.item p.1.response, p.2)) := by
  have halone := updateStatement_alone hmem data c.now
  unfold query
  rw [hphase]
  dsimp only
  cases hstatement : ItemRepository.updateStatement db.items item data c.now with
  | error e =>
      rw [hstatement] at halone
      cases hupdate : ItemRepository.update db item data c.now with
      | error e' =>
          rw [hupdate] at halone
          cases halone
          rfl
      | ok p =>
          rw [hupdate] at halone
          cases halone
  | ok statement =>
      refine flush_alone ?_
      rw [hstatement] at halone
      change db.setItems (Statement.execute statement db.items) = _ at halone
      rw [halone]
      cases hupdate : ItemRepository.update db item data c.now with
      | error e => rfl
      | ok p =>
          obtain ⟨hrow, hid⟩ := ItemRepository.update_mem hmem hupdate
          have hfind : Rows.find Item.id item.id p.2.items = some p.1 :=
            (Rows.find_eq_some p.2.consistent.itemId).mpr ⟨hrow, hid⟩
          simp [Except.map, bind, Except.bind, refreshed, hfind]

end ItemCall

/-! ## What a step does -/

namespace ItemPhase

/-- What the request works on is of its owner. -/
def Fits (issued : Issued) (owner : Uuid) : ItemPhase → Prop
  | updatingFound item _ | deletingFound item => issued item.id = some owner
  | flushed statement _ => ∀ s ∈ statement, s.Writes issued owner
  | unlinking statement _ keys =>
      (∀ s ∈ statement, s.Writes issued owner) ∧
        ∀ key ∈ keys, ItemService.ownKey owner key = true
  | _ => True

variable {issued issued' : Issued} {owner : Uuid} {phase : ItemPhase}

theorem Fits.mono (h : phase.Fits issued owner)
    (hissued : ∀ id owner, issued id = some owner → issued' id = some owner) :
    phase.Fits issued' owner := by
  have hwrites (statement : Option Statement)
      (h : ∀ s ∈ statement, s.Writes issued owner) : ∀ s ∈ statement, s.Writes issued' owner :=
    fun s hs => ⟨hissued _ _ (h s hs).issued, (h s hs).owned⟩
  cases phase with
  | updatingFound item data => exact hissued _ _ h
  | deletingFound item => exact hissued _ _ h
  | flushed statement answer => exact hwrites statement h
  | unlinking statement answer keys => exact ⟨hwrites statement h.1, h.2⟩
  | _ => trivial

theorem Fits.statement (h : phase.Fits issued owner) :
    ∀ s ∈ phase.statement, s.Writes issued owner := by
  cases phase with
  | flushed statement answer => exact h
  | unlinking statement answer keys => exact h.1
  | _ => simp [ItemPhase.statement]

end ItemPhase

theorem ItemRepository.updateStatement_writes {issued : Issued} {items : List Item}
    {item : Item} {data : ItemUpdate} {now : Timestamp} {statement : Option Statement}
    {owner : Uuid} (hitem : issued item.id = some owner)
    (h : updateStatement items item data now = .ok statement) :
    ∀ s ∈ statement, s.Writes issued owner := by
  unfold updateStatement at h
  split at h
  · cases h
  · dsimp only at h
    split at h
    · cases h
    · split at h <;> cases h
      · simp
      · rintro s hs
        cases hs
        exact ⟨hitem, fun row hrow => by cases hrow⟩

theorem ItemRepository.updateStatement_ofOwner {db : Database} {item : Item}
    {data : ItemUpdate} {now : Timestamp} {owner : Uuid}
    (hown : ∀ i ∈ db.items, i.id = item.id → i.ownerId = owner) :
    updateStatement (db.ofOwner owner).items item data now =
      updateStatement db.items item data now := by
  have hall : ((db.ofOwner owner).items.all fun i => i.id ≠ item.id) =
      db.items.all fun i => i.id ≠ item.id := by
    rw [Bool.eq_iff_iff]
    simp only [List.all_eq_true, Database.mem_ofOwner, decide_eq_true_eq]
    constructor
    · intro h i hi hid
      exact h i ⟨hi, hown i hi hid⟩ hid
    · rintro h i ⟨hi, -⟩
      exact h i hi
  unfold updateStatement
  rw [hall]

namespace ItemCall

variable {issued : Issued} {db db' : Database} {redis redis' : Redis (List ItemResponse)}
  {locked locked' : Uuid → Bool} {statement : Option Statement} {owner : Uuid}
  {answer : List Item → Except Exc Answer} {phase : ItemPhase} {c : ItemCall}
  {around : Surroundings}

theorem flush_fits (hwrites : ∀ s ∈ statement, s.Writes issued owner)
    (h : flush db locked statement answer = some phase) : phase.Fits issued owner := by
  unfold flush at h
  split at h
  · cases h
  · split at h <;> cases h
    · exact hwrites
    · trivial

theorem flush_ofOwner (hissued : Database.Issues issued db.items)
    (hwrites : ∀ s ∈ statement, s.Writes issued owner)
    (hlocked : ∀ id, issued id = some owner → locked' id = locked id)
    (hanswer : ∀ db' : Database, Database.Issues issued db'.items →
      answer (db'.ofOwner owner).items = answer db'.items) :
    flush (db.ofOwner owner) locked' statement answer = flush db locked statement answer := by
  have hany : (statement.any fun s => locked' s.rowId) = statement.any fun s => locked s.rowId := by
    cases statement with
    | none => rfl
    | some s => exact hlocked _ (hwrites s rfl).issued
  unfold flush
  rw [hany, Database.setItems_execute_ofOwner hissued hwrites]
  cases hset : db.setItems (Statement.execute statement db.items) with
  | error e => rfl
  | ok db' =>
      have hitems : Database.Issues issued db'.items := by
        rw [(Database.setItems_ok hset).2.1]
        exact Database.issues_execute hissued hwrites
      simp only [Except.map, bind, Except.bind, hanswer db' hitems]

theorem refreshed_ofOwner {id : Uuid} (hid : issued id = some owner)
    (hissued : Database.Issues issued db.items) :
    refreshed id (db.ofOwner owner).items = refreshed id db.items := by
  unfold refreshed Database.ofOwner
  rw [Rows.find_filter]
  intro i hi heq
  have howner := hissued i hi
  rw [heq, hid] at howner
  simpa using (Option.some.inj howner).symm

theorem creating_writes {data : ItemCreate} (hphase : c.phase = .creating data)
    (hdrawn : ∀ id ∈ c.drawn, issued id = some c.owner) :
    ∀ s ∈ some (Statement.insert
      ⟨c.newId, data.title, data.description, c.owner, c.now, c.now⟩),
        s.Writes issued c.owner := by
  rintro s hs
  cases hs
  refine ⟨hdrawn c.newId (by simp [drawn, hphase]), fun row hrow => ?_⟩
  cases hrow
  rfl

theorem delete_writes {id : Uuid} (hid : issued id = some owner) :
    ∀ s ∈ some (Statement.delete id), s.Writes issued owner := by
  rintro s hs
  cases hs
  exact ⟨hid, fun row hrow => by cases hrow⟩

theorem findItem_issued {itemId : Uuid} {item : Item}
    (hissued : Database.Issues issued db.items)
    (h : ItemService.findItem db itemId owner = .ok item) : issued item.id = some owner := by
  unfold ItemService.findItem at h
  split at h <;> cases h
  rename_i hfind
  obtain ⟨hmem, -, howner⟩ := ItemRepository.getById_eq_some hfind
  exact howner ▸ hissued item hmem

theorem found_fits {itemId : Uuid} {next : Item → ItemPhase}
    (hissued : Database.Issues issued db.items)
    (hnext : ∀ item : Item, issued item.id = some owner → (next item).Fits issued owner) :
    (match ItemService.findItem db itemId owner with
      | .ok item => next item
      | .error e => .answered (.error e)).Fits issued owner := by
  cases hfind : ItemService.findItem db itemId owner with
  | ok item => exact hnext item (findItem_issued hissued hfind)
  | error e => trivial

theorem query_fits (hissued : Database.Issues issued db.items)
    (hfits : c.phase.Fits issued c.owner)
    (hdrawn : ∀ id ∈ c.drawn, issued id = some c.owner)
    (h : query db locked c = some phase) : phase.Fits issued c.owner := by
  unfold query at h
  cases hphase : c.phase with
  | getting itemId =>
      simp only [hphase] at h
      cases h
      trivial
  | creating data =>
      simp only [hphase] at h
      exact flush_fits (creating_writes hphase hdrawn) h
  | updating itemId data =>
      simp only [hphase] at h
      cases h
      exact found_fits hissued fun item hitem => hitem
  | updatingFound item data =>
      rw [hphase] at hfits
      simp only [hphase] at h
      split at h
      · rename_i hstatement
        exact flush_fits (ItemRepository.updateStatement_writes hfits hstatement) h
      · cases h
        trivial
  | deleting itemId =>
      simp only [hphase] at h
      cases h
      exact found_fits hissued fun item hitem => hitem
  | deletingFound item =>
      rw [hphase] at hfits
      simp only [hphase] at h
      exact flush_fits (delete_writes hfits) h
  | _ =>
      rw [hphase] at h
      cases h

theorem query_ofOwner (hissued : Database.Issues issued db.items)
    (hfits : c.phase.Fits issued c.owner)
    (hdrawn : ∀ id ∈ c.drawn, issued id = some c.owner)
    (hlocked : ∀ id, issued id = some c.owner → locked' id = locked id) :
    query (db.ofOwner c.owner) locked' c = query db locked c := by
  unfold query
  cases hphase : c.phase with
  | getting itemId => simp only [ItemService.findItem_ofOwner]
  | creating data =>
      exact flush_ofOwner hissued (creating_writes hphase hdrawn) hlocked fun _ _ => rfl
  | updating itemId data => simp only [ItemService.findItem_ofOwner]
  | updatingFound item data =>
      rw [hphase] at hfits
      have hown : ∀ i ∈ db.items, i.id = item.id → i.ownerId = c.owner := by
        intro i hi hid
        have howner := hissued i hi
        rw [hid, show issued item.id = some c.owner from hfits] at howner
        exact (Option.some.inj howner).symm
      dsimp only
      rw [ItemRepository.updateStatement_ofOwner hown]
      cases hstatement : ItemRepository.updateStatement db.items item data c.now with
      | error e => rfl
      | ok statement =>
          exact flush_ofOwner hissued
            (ItemRepository.updateStatement_writes hfits hstatement) hlocked
            fun _ h => refreshed_ofOwner hfits h
  | deleting itemId => simp only [ItemService.findItem_ofOwner]
  | deletingFound item =>
      rw [hphase] at hfits
      exact flush_ofOwner hissued (delete_writes hfits) hlocked fun _ _ => rfl
  | _ => rfl

theorem commit_ofOwner {answer : Answer} (hissued : Database.Issues issued db.items)
    (hwrites : ∀ s ∈ statement, s.Writes issued owner) :
    commit (db.ofOwner owner) statement answer =
      ((commit db statement answer).1, (commit db statement answer).2.ofOwner owner) := by
  unfold commit
  rw [Database.setItems_execute_ofOwner hissued hwrites]
  cases db.setItems (Statement.execute statement db.items) <;> rfl

theorem commit_other {answer : Answer} (hissued : Database.Issues issued db.items)
    (hwrites : ∀ s ∈ statement, s.Writes issued c.owner) (hother : c.owner ≠ owner) :
    (commit db statement answer).2.ofOwner owner = db.ofOwner owner := by
  unfold commit
  cases hset : db.setItems (Statement.execute statement db.items) with
  | ok db' => exact Database.setItems_execute_other hissued hwrites hother hset
  | error e => rfl

theorem commit_issues {answer : Answer} (hissued : Database.Issues issued db.items)
    (hwrites : ∀ s ∈ statement, s.Writes issued owner) :
    Database.Issues issued (commit db statement answer).2.items := by
  unfold commit
  cases hset : db.setItems (Statement.execute statement db.items) with
  | ok db' =>
      dsimp only
      rw [(Database.setItems_ok hset).2.1]
      exact Database.issues_execute hissued hwrites
  | error e => exact hissued

theorem commit_fits (answer : Answer) : (commit db statement answer).1.Fits issued owner := by
  unfold commit
  split <;> trivial

theorem unlink_ofOwner {own : String → Bool} {call : CallResult} {keys : List String} :
    unlink (redis.only own) call keys =
      ((unlink redis call keys).1, (unlink redis call keys).2.only own) := by
  unfold unlink
  cases call <;> simp [Redis.only, Expiring.eraseAll_only]

theorem unlink_other {own : String → Bool} {call : CallResult} {keys : List String}
    (hkeys : ∀ key ∈ keys, own key = false) :
    (unlink redis call keys).2.only own = redis.only own := by
  unfold unlink
  cases call
  case failed => rfl
  all_goals
    simp only [reduceCtorEq, if_false, Redis.only]
    rw [Expiring.eraseAll_only_other fun key hkey => hkeys key (List.mem_of_mem_take hkey)]

theorem mem_unlink {call : CallResult} {keys : List String} {key : String}
    (h : key ∈ (unlink redis call keys).1) : key ∈ keys := by
  unfold unlink at h
  dsimp only at h
  split at h
  · exact List.mem_of_mem_drop h
  · cases h

/-- The next step of an owner's request is taken in its part. -/
theorem advance_ofOwner (redis : Redis (List ItemResponse)) (around : Surroundings)
    (hissued : Database.Issues issued db.items)
    (hfits : c.phase.Fits issued c.owner)
    (hdrawn : ∀ id ∈ c.drawn, issued id = some c.owner)
    (hlocked : ∀ id, issued id = some c.owner → locked' id = locked id) :
    advance (db.ofOwner c.owner) (redis.only (ItemService.ownKey c.owner)) locked' c around =
      (advance db redis locked c around).map fun p =>
        (p.1, p.2.1.ofOwner c.owner, p.2.2.only (ItemService.ownKey c.owner)) := by
  have hquery := query_ofOwner hissued hfits hdrawn hlocked
  unfold advance
  cases hphase : c.phase with
  | listing offset limit phase =>
      simp only [ItemRepository.getList_ofOwner,
        Phase.advance_only (ItemService.ownKey_listKey.mpr rfl), Option.map_map]
      rfl
  | flushed statement answer =>
      dsimp only
      split <;> rfl
  | unlinking statement answer keys =>
      rw [hphase] at hfits
      cases keys with
      | nil => simp only [commit_ofOwner hissued hfits.1, Option.map_some]
      | cons key keys => simp only [unlink_ofOwner, Option.map_some]
  | _ =>
      simp only [hquery, Option.map_map]
      rfl

/-- The next step of an owner's request does not reach another owner's part. -/
theorem advance_other (hissued : Database.Issues issued db.items)
    (hfits : c.phase.Fits issued c.owner) (hother : c.owner ≠ owner)
    (h : advance db redis locked c around = some (phase, db', redis')) :
    db'.ofOwner owner = db.ofOwner owner ∧
      redis'.only (ItemService.ownKey owner) = redis.only (ItemService.ownKey owner) := by
  unfold advance at h
  cases hphase : c.phase with
  | listing offset limit inner =>
      simp only [hphase] at h
      obtain ⟨p, hp, heq⟩ := Option.map_eq_some_iff.mp h
      cases heq
      have hkey : ItemService.ownKey owner (ItemService.listKey c.owner offset limit) = false :=
        ItemService.ownKey_other (ItemService.ownKey_listKey.mpr rfl) hother
      exact ⟨rfl, Phase.advance_only_other hkey hp⟩
  | flushed statement answer =>
      simp only [hphase] at h
      split at h <;> cases h
      exact ⟨rfl, rfl⟩
  | unlinking statement answer keys =>
      rw [hphase] at hfits
      cases keys with
      | nil =>
          simp only [hphase] at h
          cases h
          exact ⟨commit_other hissued hfits.1 hother, rfl⟩
      | cons key keys =>
          simp only [hphase] at h
          cases h
          exact ⟨rfl, unlink_other fun key hkey =>
            ItemService.ownKey_other (hfits.2 key hkey) hother⟩
  | _ =>
      simp only [hphase] at h
      obtain ⟨phase', -, heq⟩ := Option.map_eq_some_iff.mp h
      cases heq
      exact ⟨rfl, rfl⟩

theorem advance_keeps (hissued : Database.Issues issued db.items)
    (hfits : c.phase.Fits issued c.owner)
    (hdrawn : ∀ id ∈ c.drawn, issued id = some c.owner)
    (h : advance db redis locked c around = some (phase, db', redis')) :
    Database.Issues issued db'.items ∧ phase.Fits issued c.owner := by
  unfold advance at h
  cases hphase : c.phase with
  | listing offset limit inner =>
      simp only [hphase] at h
      obtain ⟨p, -, heq⟩ := Option.map_eq_some_iff.mp h
      cases heq
      exact ⟨hissued, trivial⟩
  | flushed statement answer =>
      rw [hphase] at hfits
      simp only [hphase] at h
      split at h <;> cases h
      rename_i hscanned
      exact ⟨hissued, hfits, List.all_eq_true.mp hscanned⟩
  | unlinking statement answer keys =>
      rw [hphase] at hfits
      cases keys with
      | nil =>
          simp only [hphase] at h
          cases h
          exact ⟨commit_issues hissued hfits.1, commit_fits answer⟩
      | cons key keys =>
          simp only [hphase] at h
          cases h
          exact ⟨hissued, hfits.1, fun key hkey => hfits.2 key (mem_unlink hkey)⟩
  | _ =>
      simp only [hphase] at h
      obtain ⟨phase', hquery, heq⟩ := Option.map_eq_some_iff.mp h
      cases heq
      exact ⟨hissued, query_fits hissued hfits hdrawn hquery⟩

end ItemCall

end IsolatedEnv.Backend
