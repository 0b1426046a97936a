import IsolatedEnv.Backend.Users.Roles
import IsolatedEnv.Foundation.DateTime
import IsolatedEnv.Foundation.Rows
import IsolatedEnv.Foundation.Uuid
import Mathlib.Data.List.Sort

/-!
# The users table

A table carries what PostgreSQL enforces: the unique columns and the lengths
of the text columns.  A statement that would break a constraint raises, so a
table that breaks one does not exist.
-/

namespace IsolatedEnv.Backend

open IsolatedEnv.Foundation

/--
`ORDER BY created_at DESC`; among rows of one moment the database chooses, and
`rank` is its choice.
-/
def newestFirst {ρ : Type} (createdAt : ρ → Timestamp) (rank : ρ → Nat)
    (rows : List ρ) : List ρ :=
  rows.insertionSort fun r s =>
    (createdAt s).microseconds < (createdAt r).microseconds ∨
      createdAt r = createdAt s ∧ rank r ≤ rank s

structure User where
  id : Uuid
  providerId : String
  email : String
  name : String
  role : UserRole
  isActive : Bool
  roleChangedAt : Option Timestamp
  roleChangedBy : Option String
  createdAt : Timestamp
  updatedAt : Timestamp
  deriving DecidableEq

structure UserResponse where
  id : Uuid
  email : String
  name : String
  role : UserRole
  isActive : Bool
  createdAt : Timestamp
  updatedAt : Timestamp
  deriving DecidableEq

/-- `UserResponse.model_validate(user)`. -/
def User.response (u : User) : UserResponse where
  id := u.id
  email := u.email
  name := u.name
  role := u.role
  isActive := u.isActive
  createdAt := u.createdAt
  updatedAt := u.updatedAt

/-- No text column takes a zero character. -/
def storable (text : String) : Bool := !text.toList.contains '\x00'

/-- Whether a number can be sent for a `LIMIT` or an `OFFSET`. -/
def isBigint (n : Nat) : Bool := n < 2 ^ 63

/-- The database takes the parameters of a query. -/
def Takes (texts : List String) (numbers : List Nat) : Prop :=
  (∀ text ∈ texts, storable text = true) ∧ ∀ n ∈ numbers, isBigint n = true

instance Takes.decidable (texts : List String) (numbers : List Nat) :
    Decidable (Takes texts numbers) :=
  inferInstanceAs (Decidable (_ ∧ _))

/-- `session.execute(stmt)` of a `SELECT`, with the parameters that are sent along. -/
def select {α : Type} (texts : List String) (numbers : List Nat) (rows : α) : Except Exc α :=
  if Takes texts numbers then .ok rows else .error .sqlalchemy

section Select

variable {α : Type} {texts : List String} {numbers : List Nat} {rows found : α}

theorem select_of_takes (h : Takes texts numbers) : select texts numbers rows = .ok rows :=
  if_pos h

theorem select_of_not_takes (h : ¬Takes texts numbers) :
    select texts numbers rows = .error .sqlalchemy :=
  if_neg h

theorem select_eq_ok :
    select texts numbers rows = .ok found ↔ Takes texts numbers ∧ rows = found := by
  unfold select
  split
  · rename_i htakes
    simp [htakes]
  · rename_i hrefused
    simp [hrefused]

end Select

/-- The text fits a column of the given length. -/
def FitsColumn (length : Nat) (text : String) : Prop :=
  text.length ≤ length ∧ storable text = true

instance FitsColumn.decidable (length : Nat) (text : String) :
    Decidable (FitsColumn length text) :=
  inferInstanceAs (Decidable (_ ∧ _))

def User.Fits (u : User) : Prop :=
  FitsColumn 128 u.providerId ∧ FitsColumn 320 u.email ∧ FitsColumn 255 u.name ∧
    FitsColumn 36 (u.roleChangedBy.getD "")

instance (u : User) : Decidable u.Fits :=
  inferInstanceAs (Decidable (_ ∧ _))

structure Admissible (rows : List User) : Prop where
  fits : ∀ u ∈ rows, u.Fits
  uniqueId : Rows.UniqueKey User.id rows
  uniqueProviderId : Rows.UniqueKey User.providerId rows
  uniqueEmail : Rows.UniqueKey User.email rows

theorem admissible_iff {rows : List User} :
    Admissible rows ↔ (∀ u ∈ rows, u.Fits) ∧
      Rows.UniqueKey User.id rows ∧ Rows.UniqueKey User.providerId rows ∧
      Rows.UniqueKey User.email rows :=
  ⟨fun h => ⟨h.1, h.2, h.3, h.4⟩, fun h => ⟨h.1, h.2.1, h.2.2.1, h.2.2.2⟩⟩

instance (rows : List User) : Decidable (Admissible rows) :=
  decidable_of_iff _ admissible_iff.symm

structure UsersTable where
  rows : List User
  admissible : Admissible rows
  deriving DecidableEq

namespace UsersTable

def empty : UsersTable := ⟨[], by decide⟩

/-- The table after a statement, unless a constraint is violated. -/
def write (rows : List User) : Except Exc UsersTable :=
  if h : Admissible rows then .ok ⟨rows, h⟩ else .error .sqlalchemy

def getById (t : UsersTable) (id : Uuid) : Option User :=
  Rows.find User.id id t.rows

def getByProviderId (t : UsersTable) (providerId : String) : Option User :=
  Rows.find User.providerId providerId t.rows

def getByEmail (t : UsersTable) (email : String) : Option User :=
  Rows.find User.email email t.rows

def insert (t : UsersTable) (u : User) : Except Exc UsersTable :=
  write (t.rows ++ [u])

/--
`session.flush()` of a changed object: its row is updated; when there is no
such row any more the ORM raises `StaleDataError`.
-/
def flush (t : UsersTable) (u : User) : Except Exc UsersTable :=
  if (t.getById u.id).isSome then write (Rows.replace User.id u t.rows)
  else .error .sqlalchemy

def delete (t : UsersTable) (id : Uuid) : UsersTable where
  rows := t.rows.filter fun u => u.id ≠ id
  admissible :=
    ⟨fun u hu => t.admissible.fits u (List.mem_of_mem_filter hu),
      t.admissible.uniqueId.sublist (List.filter_sublist.map _),
      t.admissible.uniqueProviderId.sublist (List.filter_sublist.map _),
      t.admissible.uniqueEmail.sublist (List.filter_sublist.map _)⟩

variable {t t' : UsersTable} {u v : User}

theorem write_ok {rows : List User} (h : write rows = .ok t) :
    t.rows = rows := by
  unfold write at h
  split at h
  · cases h
    rfl
  · cases h

theorem getById_eq_some {id : Uuid} :
    t.getById id = some u ↔ u ∈ t.rows ∧ u.id = id :=
  Rows.find_eq_some t.admissible.uniqueId

theorem getByProviderId_eq_some {providerId : String} :
    t.getByProviderId providerId = some u ↔
      u ∈ t.rows ∧ u.providerId = providerId :=
  Rows.find_eq_some t.admissible.uniqueProviderId

theorem getByEmail_eq_some {email : String} :
    t.getByEmail email = some u ↔ u ∈ t.rows ∧ u.email = email :=
  Rows.find_eq_some t.admissible.uniqueEmail

theorem insert_rows (h : t.insert u = .ok t') : t'.rows = t.rows ++ [u] :=
  write_ok h

theorem mem_insert (h : t.insert u = .ok t') :
    v ∈ t'.rows ↔ v ∈ t.rows ∨ v = u := by
  rw [insert_rows h]
  simp

theorem insert_fresh (h : t.insert u = .ok t') : ∀ v ∈ t.rows, v.id ≠ u.id := by
  intro v hv heq
  have hunique := t'.admissible.uniqueId
  rw [Rows.UniqueKey, insert_rows h, List.map_append,
    List.nodup_append] at hunique
  exact hunique.2.2 v.id (List.mem_map_of_mem hv) u.id (by simp) heq

theorem flush_ok (h : t.flush u = .ok t') :
    (∃ old, t.getById u.id = some old) ∧
      t'.rows = Rows.replace User.id u t.rows := by
  unfold flush at h
  split at h
  · rename_i hsome
    exact ⟨Option.isSome_iff_exists.mp hsome, write_ok h⟩
  · cases h

theorem mem_flush (h : t.flush u = .ok t') :
    v ∈ t'.rows ↔ v ∈ t.rows ∧ v.id ≠ u.id ∨ v = u := by
  obtain ⟨⟨old, hold⟩, hrows⟩ := flush_ok h
  rw [hrows, Rows.mem_replace]
  have hmem := getById_eq_some.mp hold
  constructor
  · rintro (hv | ⟨rfl, -⟩)
    · exact .inl hv
    · exact .inr rfl
  · rintro (hv | rfl)
    · exact .inl hv
    · exact .inr ⟨rfl, old, hmem.1, hmem.2⟩

theorem admissible_replace (hmem : u ∈ t.rows) (hid : v.id = u.id)
    (hproviderId : v.providerId = u.providerId) (hemail : v.email = u.email) :
    Admissible (Rows.replace User.id v t.rows) ↔ v.Fits := by
  have hagree {α : Type} (column : User → α) (hcolumn : column v = column u) :
      (Rows.replace User.id v t.rows).map column = t.rows.map column := by
    apply Rows.map_replace_of_agree
    intro r hr hrv
    rw [t.admissible.uniqueId.eq hr hmem (hrv.trans hid), hcolumn]
  constructor
  · intro h
    exact h.fits v (Rows.mem_replace.mpr (.inr ⟨rfl, u, hmem, hid.symm⟩))
  · intro hfits
    constructor
    · intro w hw
      rcases Rows.mem_replace.mp hw with ⟨hw, -⟩ | ⟨rfl, -⟩
      · exact t.admissible.fits w hw
      · exact hfits
    · unfold Rows.UniqueKey
      rw [hagree User.id hid]
      exact t.admissible.uniqueId
    · unfold Rows.UniqueKey
      rw [hagree User.providerId hproviderId]
      exact t.admissible.uniqueProviderId
    · unfold Rows.UniqueKey
      rw [hagree User.email hemail]
      exact t.admissible.uniqueEmail

theorem mem_delete {id : Uuid} :
    v ∈ (t.delete id).rows ↔ v ∈ t.rows ∧ v.id ≠ id := by
  simp [delete]

end UsersTable

end IsolatedEnv.Backend
