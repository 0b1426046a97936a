import IsolatedEnv.Backend.Users.Models

/-!
# The database and its transactions

The three tables with the constraints that PostgreSQL enforces on them.  An
item refers to its owner's record, and a record that is deleted takes its
items with it.  A request works on the tables its transaction sees; what it
leaves is committed unless it ends in an exception or a failed statement has
deactivated the session, and then the tables are what they were.
-/

namespace IsolatedEnv.Backend

open IsolatedEnv.Foundation

structure Item where
  id : Uuid
  title : String
  description : Option String
  ownerId : Uuid
  createdAt : Timestamp
  updatedAt : Timestamp
  deriving DecidableEq

def Item.Fits (i : Item) : Prop :=
  i.title.length ≤ 255 ∧ storable i.title = true ∧
    storable (i.description.getD "") = true

instance (i : Item) : Decidable i.Fits :=
  inferInstanceAs (Decidable (_ ∧ _))

inductive AuditAction where
  | changeRole
  | blockUser
  | unblockUser
  | deleteUser
  | resetPassword
  | deleteSelf
  deriving DecidableEq, Repr

def AuditAction.value : AuditAction → String
  | .changeRole => "change_role"
  | .blockUser => "block_user"
  | .unblockUser => "unblock_user"
  | .deleteUser => "delete_user"
  | .resetPassword => "reset_password"
  | .deleteSelf => "delete_self"

structure AuditLog where
  id : Uuid
  adminUserId : Uuid
  adminEmail : String
  action : String
  targetUserId : Uuid
  targetUserEmail : String
  details : Option Json
  ipAddress : Option String
  createdAt : Timestamp

/-- The declared column lengths. -/
def AuditLog.Fits (e : AuditLog) : Prop :=
  e.adminEmail.length ≤ 320 ∧ e.action.length ≤ 20 ∧
    e.targetUserEmail.length ≤ 320 ∧ (e.ipAddress.getD "").length ≤ 45

instance (e : AuditLog) : Decidable e.Fits :=
  inferInstanceAs (Decidable (_ ∧ _))

def Owned (users : UsersTable) (i : Item) : Prop :=
  (users.getById i.ownerId).isSome

instance (users : UsersTable) (i : Item) : Decidable (Owned users i) :=
  inferInstanceAs (Decidable (_ = true))

structure Consistent (users : UsersTable) (items : List Item)
    (auditLog : List AuditLog) : Prop where
  itemFits : ∀ i ∈ items, i.Fits
  itemId : Rows.UniqueKey Item.id items
  itemOwned : ∀ i ∈ items, Owned users i
  auditFits : ∀ e ∈ auditLog, e.Fits
  auditId : Rows.UniqueKey AuditLog.id auditLog

theorem consistent_iff {users : UsersTable} {items : List Item}
    {auditLog : List AuditLog} :
    Consistent users items auditLog ↔
      (∀ i ∈ items, i.Fits) ∧ Rows.UniqueKey Item.id items ∧
        (∀ i ∈ items, Owned users i) ∧ (∀ e ∈ auditLog, e.Fits) ∧
        Rows.UniqueKey AuditLog.id auditLog :=
  ⟨fun h => ⟨h.1, h.2, h.3, h.4, h.5⟩,
    fun h => ⟨h.1, h.2.1, h.2.2.1, h.2.2.2.1, h.2.2.2.2⟩⟩

instance (users : UsersTable) (items : List Item) (auditLog : List AuditLog) :
    Decidable (Consistent users items auditLog) :=
  decidable_of_iff _ consistent_iff.symm

namespace Consistent

variable {users : UsersTable} {items : List Item} {auditLog : List AuditLog}

theorem filter (h : Consistent users items auditLog) (p : Item → Bool) :
    Consistent users (items.filter p) auditLog :=
  ⟨fun i hi => h.itemFits i (List.mem_of_mem_filter hi),
    h.itemId.sublist (List.filter_sublist.map _),
    fun i hi => h.itemOwned i (List.mem_of_mem_filter hi), h.auditFits, h.auditId⟩

theorem append_iff {row : Item} :
    Consistent users (items ++ [row]) auditLog ↔
      Consistent users items auditLog ∧ row.Fits ∧ Owned users row ∧
        ∀ i ∈ items, i.id ≠ row.id := by
  simp only [consistent_iff, Rows.uniqueKey_append_singleton, List.forall_mem_append,
    List.forall_mem_singleton]
  tauto

end Consistent

structure Database where
  users : UsersTable
  items : List Item
  auditLog : List AuditLog
  consistent : Consistent users items auditLog

namespace Database

def empty : Database := ⟨.empty, [], [], by decide⟩

/-- New rows of `users`, with `ON DELETE CASCADE` on `items.owner_id`. -/
def setUsers (db : Database) (users : UsersTable) : Database where
  users := users
  items := db.items.filter fun i => Owned users i
  auditLog := db.auditLog
  consistent :=
    ⟨fun i hi => db.consistent.itemFits i (List.mem_of_mem_filter hi),
      db.consistent.itemId.sublist (List.filter_sublist.map _),
      fun i hi => by simpa using (List.mem_filter.mp hi).2,
      db.consistent.auditFits, db.consistent.auditId⟩

def setItems (db : Database) (items : List Item) : Except Exc Database :=
  if h : Consistent db.users items db.auditLog then
    .ok ⟨db.users, items, db.auditLog, h⟩
  else .error .sqlalchemy

def insertAudit (db : Database) (entry : AuditLog) : Except Exc Database :=
  if h : Consistent db.users db.items (db.auditLog ++ [entry]) then
    .ok ⟨db.users, db.items, db.auditLog ++ [entry], h⟩
  else .error .sqlalchemy

@[simp] theorem setUsers_users (db : Database) (users : UsersTable) :
    (db.setUsers users).users = users := rfl

variable {db db' : Database}

theorem setItems_ok {items : List Item} (h : db.setItems items = .ok db') :
    db'.users = db.users ∧ db'.items = items ∧ db'.auditLog = db.auditLog := by
  unfold setItems at h
  split at h
  · cases h
    exact ⟨rfl, rfl, rfl⟩
  · cases h

/-- The two differ in their items at most. -/
def SameRecords (db db' : Database) : Prop :=
  db'.users = db.users ∧ db'.auditLog = db.auditLog

theorem setItems_same {items : List Item} (h : db.setItems items = .ok db') :
    db.SameRecords db' :=
  ⟨(setItems_ok h).1, (setItems_ok h).2.2⟩

theorem insertAudit_ok {entry : AuditLog} (h : db.insertAudit entry = .ok db') :
    db'.users = db.users ∧ db'.auditLog = db.auditLog ++ [entry] := by
  unfold insertAudit at h
  split at h
  · cases h
    exact ⟨rfl, rfl⟩
  · cases h

end Database

/-!
## The end of a request

`none` in place of the tables is a session that a failed statement has
deactivated: the response is sent, and then the commit fails.
-/

structure Finished (α : Type) where
  value : α
  tables : Option Database

/-- The tables after the request's session is closed. -/
def settle {α : Type} (result : Except Exc (Finished α)) (db : Database) :
    Database :=
  match result with
  | .ok finished => finished.tables.getD db
  | .error _ => db

@[simp] theorem settle_error {α : Type} (e : Exc) (db : Database) :
    settle (.error e : Except Exc (Finished α)) db = db := rfl

end IsolatedEnv.Backend
