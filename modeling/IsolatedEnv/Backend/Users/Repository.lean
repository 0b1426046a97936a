import IsolatedEnv.Backend.Users.Models

/-!
# `UserRepository`

Each operation takes the table its session sees and returns the table its
flush leaves, or the exception it raises.  `now` is the start time of the
transaction, which the defaults and the `updated_at` trigger read, and `newId`
is the identifier `uuid.uuid4` would give a new record.  The record returned
is the row as flushed.
-/

namespace IsolatedEnv.Backend

open IsolatedEnv.Foundation

/-- What a transaction takes from outside: its start time and a new `uuid4`. -/
structure Tick where
  now : Timestamp
  newId : Uuid
  deriving DecidableEq

/-- A column that a flush sends, if it has changed. -/
def changed {α : Type} [DecidableEq α] (old new : α) : Option α :=
  if new = old then none else some new

theorem getD_changed {α : Type} [DecidableEq α] (old new : α) :
    (changed old new).getD old = new := by
  unfold changed
  split
  · rename_i h
    exact h.symm
  · rfl

namespace UsersTable

/-- A flush of a changed object; the trigger sets `updated_at`. -/
def save (t : UsersTable) (user : User) (tick : Tick) :
    Except Exc (User × UsersTable) :=
  let row := { user with updatedAt := tick.now }
  (t.flush row).map fun t' => (row, t')

def newUser (providerId email name : String) (role : UserRole) (tick : Tick) :
    User where
  id := tick.newId
  providerId := providerId
  email := email
  name := name
  role := role
  isActive := true
  roleChangedAt := none
  roleChangedBy := none
  createdAt := tick.now
  updatedAt := tick.now

def upsertFromProvider (env : Env) (t : UsersTable)
    (providerId email name : String) (groups : Option (List Json))
    (tick : Tick) : Except Exc (User × UsersTable) :=
  let role := resolveRole env email groups
  match t.getByProviderId providerId with
  | some user => t.save { user with email := email, name := name, role := role } tick
  | none =>
      let user := newUser providerId email name role tick
      (t.insert user).map fun t' => (user, t')

/-- `if value and field != value`. -/
def differs (value field : String) : Bool :=
  value ≠ "" && field ≠ value

def syncFromJwt (t : UsersTable) (user : User) (email name : String)
    (role : UserRole) (tick : Tick) : Except Exc (User × UsersTable) :=
  let changed :=
    differs email user.email || differs name user.name || user.role ≠ role
  let synced := { user with
    email := if differs email user.email then email else user.email
    name := if differs name user.name then name else user.name
    role := role }
  if changed then t.save synced tick else .ok (user, t)

/-- `changed`, as `sync_from_jwt` leaves it. -/
def syncChanges (user : User) (email name : String) (role : UserRole) : Bool :=
  differs email user.email || differs name user.name || user.role ≠ role

def updateRole (t : UsersTable) (user : User) (newRole : UserRole)
    (changedBy : String) (tick : Tick) : Except Exc (User × UsersTable) :=
  t.save { user with
    role := newRole
    roleChangedAt := some tick.now
    roleChangedBy := some changedBy } tick

def setActive (t : UsersTable) (user : User) (isActive : Bool)
    (changedBy : String) (tick : Tick) : Except Exc (User × UsersTable) :=
  t.save { user with
    isActive := isActive
    roleChangedAt := some tick.now
    roleChangedBy := some changedBy } tick

def deleteUser (t : UsersTable) (user : User) : UsersTable :=
  t.delete user.id

/-! ## What each operation can do -/

variable {env : Env} {t t' : UsersTable} {user row v : User} {tick : Tick}

theorem save_ok (h : t.save user tick = .ok (row, t')) :
    row = { user with updatedAt := tick.now } ∧ t.flush row = .ok t' := by
  unfold save at h
  cases hflush : t.flush { user with updatedAt := tick.now } with
  | error e => simp [hflush, Except.map] at h
  | ok t₁ =>
      simp only [hflush, Except.map, Except.ok.injEq, Prod.mk.injEq] at h
      obtain ⟨rfl, rfl⟩ := h
      exact ⟨rfl, hflush⟩

theorem save_succeeds (user : User) (hmem : (t.getById user.id).isSome) :
    (∃ p, t.save user tick = .ok p) ↔
      Admissible (Rows.replace User.id
        { user with updatedAt := tick.now } t.rows) := by
  unfold save flush write
  by_cases hadmissible : Admissible (Rows.replace User.id
      { user with updatedAt := tick.now } t.rows)
  · simp [hmem, hadmissible, Except.map]
  · simp [hmem, hadmissible, Except.map]

theorem isSome_getById (hmem : user ∈ t.rows) : (t.getById user.id).isSome :=
  Option.isSome_iff_exists.mpr ⟨user, getById_eq_some.mpr ⟨hmem, rfl⟩⟩

theorem mem_save (h : t.save user tick = .ok (row, t')) :
    v ∈ t'.rows ↔ v ∈ t.rows ∧ v.id ≠ user.id ∨ v = row := by
  obtain ⟨rfl, hflush⟩ := save_ok h
  exact mem_flush hflush

/-- A save that leaves the unique columns alone can only fail on a length. -/
theorem save_succeeds_iff_fits (new : User) (hmem : user ∈ t.rows)
    (hid : new.id = user.id) (hproviderId : new.providerId = user.providerId)
    (hemail : new.email = user.email) :
    (∃ p, t.save new tick = .ok p) ↔ new.Fits := by
  have hsome := isSome_getById hmem
  rw [← hid] at hsome
  exact (save_succeeds new hsome).trans
    (admissible_replace hmem hid hproviderId hemail)

theorem updateRole_succeeds (hmem : user ∈ t.rows) {newRole : UserRole}
    {changedBy : String} :
    (∃ p, t.updateRole user newRole changedBy tick = .ok p) ↔
      FitsColumn 36 changedBy := by
  have hfits := t.admissible.fits user hmem
  refine (save_succeeds_iff_fits { user with
    role := newRole
    roleChangedAt := some tick.now
    roleChangedBy := some changedBy } hmem rfl rfl rfl).trans ?_
  simp only [User.Fits] at hfits ⊢
  simp [hfits]

theorem upsertFromProvider_cases {providerId email name : String}
    {groups : Option (List Json)}
    (h : upsertFromProvider env t providerId email name groups tick =
      .ok (row, t')) :
    (∃ user, t.getByProviderId providerId = some user ∧
      t.save { user with
        email := email, name := name, role := resolveRole env email groups }
        tick = .ok (row, t')) ∨
    (t.getByProviderId providerId = none ∧
      row = newUser providerId email name (resolveRole env email groups) tick ∧
      t.insert row = .ok t') := by
  unfold upsertFromProvider at h
  cases hfind : t.getByProviderId providerId with
  | some user =>
      simp only [hfind] at h
      exact .inl ⟨user, rfl, h⟩
  | none =>
      simp only [hfind] at h
      cases hinsert : t.insert (newUser providerId email name
          (resolveRole env email groups) tick) with
      | error e => simp [hinsert, Except.map] at h
      | ok t₁ =>
          simp only [hinsert, Except.map, Except.ok.injEq, Prod.mk.injEq] at h
          obtain ⟨rfl, rfl⟩ := h
          exact .inr ⟨rfl, rfl, hinsert⟩

theorem syncFromJwt_cases {email name : String} {role : UserRole}
    (h : t.syncFromJwt user email name role tick = .ok (row, t')) :
    (row = user ∧ user.role = role ∧ t' = t) ∨
      t.save { user with
        email := if differs email user.email then email else user.email
        name := if differs name user.name then name else user.name
        role := role } tick = .ok (row, t') := by
  unfold syncFromJwt at h
  dsimp only at h
  split at h
  · exact .inr h
  · rename_i hchanged
    simp only [Except.ok.injEq, Prod.mk.injEq] at h
    obtain ⟨rfl, rfl⟩ := h
    simp only [Bool.or_eq_true, decide_eq_true_eq, not_or, ne_eq,
      not_not] at hchanged
    exact .inl ⟨rfl, hchanged.2, rfl⟩

theorem syncFromJwt_role {email name : String} {role : UserRole}
    (h : t.syncFromJwt user email name role tick = .ok (row, t')) :
    row.role = role := by
  rcases syncFromJwt_cases h with ⟨rfl, hrole, -⟩ | hsave
  · exact hrole
  · rw [(save_ok hsave).1]

theorem syncFromJwt_unchanged {email name : String} {role : UserRole}
    (h : syncChanges user email name role = false) :
    t.syncFromJwt user email name role tick = .ok (user, t) :=
  if_neg (by simpa [syncChanges] using h)

/-- What a synchronisation stores is current for the same claims. -/
theorem syncFromJwt_current {email name : String} {role : UserRole}
    (h : t.syncFromJwt user email name role tick = .ok (row, t')) :
    syncChanges row email name role = false := by
  unfold syncFromJwt at h
  dsimp only at h
  split at h
  · rw [(save_ok h).1]
    simp only [syncChanges, differs]
    grind
  · rename_i hchanged
    cases h
    simpa [syncChanges] using hchanged

theorem syncFromJwt_email {email name : String} {role : UserRole}
    (h : t.syncFromJwt user email name role tick = .ok (row, t')) (hne : email ≠ "") :
    row.email = email := by
  have hcurrent := syncFromJwt_current h
  simp only [syncChanges, differs, Bool.or_eq_false_iff, Bool.and_eq_false_iff] at hcurrent
  simpa [hne] using hcurrent.1.1

end UsersTable

end IsolatedEnv.Backend
