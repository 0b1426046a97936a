import IsolatedEnv.Backend.Core.Dependencies
import IsolatedEnv.Foundation.Run

/-!
# One subject's requests at the same time

Each request reads, writes and commits in a transaction of its own, at READ COMMITTED: a
statement sees what is committed when it is sent.  A write of any of them leaves its row
with the subject's `provider_id`, so a second write waits until the first transaction is
over.
-/

namespace IsolatedEnv.Backend

open IsolatedEnv.Foundation

/-! ## What a flush sends -/

/-- The columns of an UPDATE. -/
structure Columns where
  providerId : Option String
  email : Option String
  name : Option String
  role : Option UserRole
  deriving DecidableEq

namespace Columns

def unchanged : Columns := ⟨none, none, none, none⟩

def apply (columns : Columns) (row : User) : User :=
  { row with
    providerId := columns.providerId.getD row.providerId
    email := columns.email.getD row.email
    name := columns.name.getD row.name
    role := columns.role.getD row.role }

end Columns

/-- The flush of an object that was read earlier; its row may have changed since. -/
def UsersTable.update (t : UsersTable) (user : User) (columns : Columns) (tick : Tick) :
    Except Exc (User × UsersTable) :=
  if columns = .unchanged then .ok (user, t)
  else
    match t.getById user.id with
    | none => .error .sqlalchemy
    | some row => t.save (columns.apply row) tick

def Profile.jwtRole (env : Env) (profile : Profile) : Option UserRole :=
  profile.groups.map fun groups => resolveRole env profile.email (some groups)

/-- The attributes that `sync_from_jwt` sets. -/
def syncColumns (env : Env) (profile : Profile) (user : User) : Columns where
  providerId := none
  email := if UsersTable.differs profile.email user.email then some profile.email else none
  name := if UsersTable.differs profile.name user.name then some profile.name else none
  role := changed user.role ((profile.jwtRole env).getD user.role)

/-- The attributes that the link by email sets. -/
def linkColumns (env : Env) (providerId : String) (profile : Profile) (user : User) :
    Columns where
  providerId := changed user.providerId providerId
  email := none
  name := changed user.name (if profile.name ≠ "" then profile.name else user.name)
  role := changed user.role ((profile.jwtRole env).getD user.role)

/-- What a request's SELECTs have found. -/
inductive Way where
  | known (user : User)
  | linked (user : User)
  | missing

namespace Way

variable (env : Env) (providerId : String)

/-- The second SELECT, which a request without an email does not send. -/
def byEmail (t : UsersTable) (email : String) : Way :=
  if email ≠ "" then
    match t.getByEmail email with
    | some user => .linked user
    | none => .missing
  else .missing

def write (profile : Profile) (tick : Tick) (t : UsersTable) :
    Way → Except Exc (User × UsersTable)
  | known user => t.update user (syncColumns env profile user) tick
  | linked user => t.update user (linkColumns env providerId profile user) tick
  | missing =>
      t.upsertFromProvider env providerId profile.email profile.name profile.groups tick

def writes (profile : Profile) : Way → Bool
  | known user => syncColumns env profile user ≠ .unchanged
  | linked user => linkColumns env providerId profile user ≠ .unchanged
  | missing => true

end Way

/-! ### In a transaction that runs alone -/

section Alone

variable {env : Env} {t : UsersTable} {user : User} {providerId : String} {profile : Profile}
  {tick : Tick}

theorem getD_if_some {α : Type} (c : Bool) (new old : α) :
    (if c then some new else none).getD old = if c then new else old := by
  cases c <;> rfl

theorem changed_eq_none {α : Type} [DecidableEq α] {old new : α} :
    changed old new = none ↔ new = old := by
  simp [changed]

theorem update_of_mem (hmem : user ∈ t.rows) (columns : Columns) :
    t.update user columns tick =
      if columns = .unchanged then .ok (user, t) else t.save (columns.apply user) tick := by
  have hrow : t.getById user.id = some user := UsersTable.getById_eq_some.mpr ⟨hmem, rfl⟩
  simp [UsersTable.update, hrow]

theorem syncColumns_apply :
    (syncColumns env profile user).apply user = { user with
      email := if UsersTable.differs profile.email user.email then profile.email else user.email
      name := if UsersTable.differs profile.name user.name then profile.name else user.name
      role := (profile.jwtRole env).getD user.role } := by
  simp [Columns.apply, syncColumns, getD_changed, getD_if_some]

theorem syncColumns_unchanged :
    syncColumns env profile user = .unchanged ↔
      UsersTable.syncChanges user profile.email profile.name
        ((profile.jwtRole env).getD user.role) = false := by
  simp [syncColumns, Columns.unchanged, UsersTable.syncChanges, changed_eq_none, and_assoc,
    @eq_comm _ user.role]

theorem write_known_alone (hmem : user ∈ t.rows) :
    (Way.known user).write env providerId profile tick t =
      t.syncFromJwt user profile.email profile.name
        ((profile.jwtRole env).getD user.role) tick := by
  change t.update user (syncColumns env profile user) tick = _
  rw [update_of_mem hmem, syncColumns_apply]
  cases hchanges : UsersTable.syncChanges user profile.email profile.name
      ((profile.jwtRole env).getD user.role) with
  | false =>
      rw [if_pos (syncColumns_unchanged.mpr hchanges),
        UsersTable.syncFromJwt_unchanged hchanges]
  | true =>
      have hnot : ¬ syncColumns env profile user = .unchanged := fun h => by
        rw [syncColumns_unchanged.mp h] at hchanges
        cases hchanges
      rw [if_neg hnot]
      unfold UsersTable.syncFromJwt
      unfold UsersTable.syncChanges at hchanges
      exact (if_pos hchanges).symm

theorem write_linked_alone (hmem : user ∈ t.rows)
    (hunknown : t.getByProviderId providerId = none) :
    (Way.linked user).write env providerId profile tick t =
      linkUser t user providerId profile.name (profile.jwtRole env) tick := by
  have hother : user.providerId ≠ providerId := fun h => by
    rw [UsersTable.getByProviderId_eq_some.mpr ⟨hmem, h⟩] at hunknown
    cases hunknown
  have hchanged : ¬ linkColumns env providerId profile user = .unchanged := fun h =>
    hother (changed_eq_none.mp (congrArg Columns.providerId h)).symm
  change t.update user (linkColumns env providerId profile user) tick = _
  rw [update_of_mem hmem, if_neg hchanged]
  simp [linkUser, Columns.apply, linkColumns, getD_changed]

/-- Reads and the write that see one table resolve the subject as the code does. -/
theorem write_alone :
    (match t.getByProviderId providerId with
      | some user => Way.known user
      | none => Way.byEmail t profile.email).write env providerId profile tick t =
      resolveUser env t providerId profile tick := by
  unfold resolveUser
  cases hfind : t.getByProviderId providerId with
  | some user => exact write_known_alone (UsersTable.getByProviderId_eq_some.mp hfind).1
  | none =>
      dsimp only
      unfold Way.byEmail
      by_cases hemail : profile.email = ""
      · simp [hemail, Way.write]
      · rw [if_pos hemail, if_pos hemail]
        cases hlink : t.getByEmail profile.email with
        | some user =>
            exact write_linked_alone (UsersTable.getByEmail_eq_some.mp hlink).1 hfind
        | none => rfl

end Alone

/-! ## Requests in flight -/

inductive LoginPhase where
  | begun
  | unknown (profile : Profile)
  | resolved (profile : Profile) (way : Way)
  | flushed (profile : Profile) (way : Way)
  | finished (result : Except Exc Unit)

namespace LoginPhase

def resolution : LoginPhase → Option (Profile × Way)
  | resolved profile way | flushed profile way => some (profile, way)
  | _ => none

def profile : LoginPhase → Option Profile
  | unknown profile | resolved profile _ | flushed profile _ => some profile
  | _ => none

def isFinished : LoginPhase → Bool
  | finished _ => true
  | _ => false

/-- A flushed write locks the subject's row until its transaction is over. -/
def locks (env : Env) (providerId : String) : LoginPhase → Bool
  | flushed profile way => way.writes env providerId profile
  | _ => false

/-- The profile of a flushed upsert. -/
def upserting : LoginPhase → Option Profile
  | flushed profile .missing => some profile
  | _ => none

end LoginPhase

structure LoginRequest where
  req : AuthRequest
  tick : Tick
  phase : LoginPhase

/-- No `groups` list in what the request resolves its subject with. -/
def AuthRequest.WithoutGroups (env : Env) (req : AuthRequest) : Prop :=
  ∀ profile, req.profile env = .ok profile → profile.groups = none

/-- The committed table, and the requests in the order in which they came. -/
structure SubjectTraffic where
  table : UsersTable
  requests : List LoginRequest

namespace SubjectTraffic

def start (table : UsersTable) : SubjectTraffic := ⟨table, []⟩

/-- `fail` is an exception at any point: a lost connection, a timeout, the route's own. -/
inductive Event where
  | request (req : AuthRequest) (tick : Tick)
  | work (i : Nat)
  | commit (i : Nat)
  | fail (i : Nat) (e : Exc)

variable (env : Env) (providerId : String)

def locked (s : SubjectTraffic) : Bool :=
  s.requests.any fun r => r.phase.locks env providerId

/-- The next statement of `get_current_db_user`. -/
def advance (s : SubjectTraffic) (r : LoginRequest) : Option LoginPhase :=
  match r.phase with
  | .begun =>
      match databaseUnavailable (r.req.profile env) with
      | .error e => some (.finished (.error e))
      | .ok profile =>
          match s.table.getByProviderId providerId with
          | some user => some (.resolved profile (.known user))
          | none => some (.unknown profile)
  | .unknown profile => some (.resolved profile (.byEmail s.table profile.email))
  | .resolved profile way =>
      if way.writes env providerId profile && s.locked env providerId then none
      else
        match databaseUnavailable (way.write env providerId profile r.tick s.table) with
        | .error e => some (.finished (.error e))
        | .ok _ => some (.flushed profile way)
  | .flushed _ _ | .finished _ => none

/-- The rest of the request, once its route returns. -/
def unwind (s : SubjectTraffic) (r : LoginRequest) : Option (LoginPhase × UsersTable) :=
  match r.phase with
  | .flushed profile way =>
      match way.write env providerId profile r.tick s.table with
      | .error e => some (.finished (.error e), s.table)
      | .ok (user, table) =>
          if user.isActive then some (.finished (.ok ()), table)
          else some (.finished (.error accountBlocked), s.table)
  | _ => none

def step (s : SubjectTraffic) : Event → Option SubjectTraffic
  | .request req tick =>
      if req.providerId env = providerId then
        some { s with requests := s.requests ++ [⟨req, tick, .begun⟩] }
      else none
  | .work i => do
      let r ← s.requests[i]?
      let phase ← s.advance env providerId r
      some { s with requests := s.requests.set i { r with phase := phase } }
  | .commit i => do
      let r ← s.requests[i]?
      let (phase, table) ← s.unwind env providerId r
      some ⟨table, s.requests.set i { r with phase := phase }⟩
  | .fail i e => do
      let r ← s.requests[i]?
      if r.phase.isFinished then none
      else some { s with requests := s.requests.set i { r with phase := .finished (.error e) } }

end SubjectTraffic

/-! ## What the records keep -/

/-- Every record is still there, as it was in what `same` compares. -/
def Kept (same : User → User → Prop) (t t' : UsersTable) : Prop :=
  ∀ user ∈ t.rows, ∃ row ∈ t'.rows, row.id = user.id ∧ same user row

def RolesKept : UsersTable → UsersTable → Prop :=
  Kept fun user row => row.role = user.role

section Kept

variable {env : Env} {providerId : String} {profile : Profile} {tick : Tick}
  {t t' : UsersTable} {user row stored new : User} {same : User → User → Prop}

theorem Kept.refl (hrefl : ∀ user, same user user) (t : UsersTable) : Kept same t t :=
  fun user huser => ⟨user, huser, rfl, hrefl user⟩

theorem RolesKept.refl (t : UsersTable) : RolesKept t t :=
  fun user huser => ⟨user, huser, rfl, rfl⟩

theorem save_kept_iff (hrefl : ∀ user, same user user) (hmem : stored ∈ t.rows)
    (h : t.save new tick = .ok (row, t')) (hid : new.id = stored.id) :
    Kept same t t' ↔ same stored row := by
  have hrowId : row.id = stored.id := by
    rw [(UsersTable.save_ok h).1]
    exact hid
  have hrow : row ∈ t'.rows := (UsersTable.mem_save h).mpr (.inr rfl)
  constructor
  · intro hkept
    obtain ⟨row', hmem', hid', hsame⟩ := hkept stored hmem
    rwa [t'.admissible.uniqueId.eq hmem' hrow (hid'.trans hrowId.symm)] at hsame
  · intro hsame user huser
    by_cases hother : user.id = stored.id
    · rw [t.admissible.uniqueId.eq huser hmem hother]
      exact ⟨row, hrow, hrowId, hsame⟩
    · refine ⟨user, (UsersTable.mem_save h).mpr (.inl ⟨huser, ?_⟩), rfl, hrefl user⟩
      rw [hid]
      exact hother

theorem insert_kept (hrefl : ∀ user, same user user) (h : t.insert new = .ok t') :
    Kept same t t' :=
  fun user huser => ⟨user, (UsersTable.mem_insert h).mpr (.inl huser), rfl, hrefl user⟩

theorem update_cases {columns : Columns} (h : t.update user columns tick = .ok (row, t')) :
    (columns = .unchanged ∧ row = user ∧ t' = t) ∨
      ∃ stored ∈ t.rows, stored.id = user.id ∧
        t.save (columns.apply stored) tick = .ok (row, t') := by
  unfold UsersTable.update at h
  split at h
  · rename_i hunchanged
    cases h
    exact .inl ⟨hunchanged, rfl, rfl⟩
  · cases hstored : t.getById user.id with
    | none =>
        rw [hstored] at h
        cases h
    | some stored =>
        rw [hstored] at h
        obtain ⟨hmem, hid⟩ := UsersTable.getById_eq_some.mp hstored
        exact .inr ⟨stored, hmem, hid, h⟩

/-- What an update keeps is what its columns keep, whichever row they are applied to. -/
theorem update_kept (hrefl : ∀ user, same user user) {columns : Columns}
    (hsame : ∀ (stored : User) now, same stored { columns.apply stored with updatedAt := now })
    (h : t.update user columns tick = .ok (row, t')) : Kept same t t' := by
  rcases update_cases h with ⟨-, -, rfl⟩ | ⟨stored, hmem, -, hsave⟩
  · exact Kept.refl hrefl t'
  · refine (save_kept_iff hrefl hmem hsave rfl).mpr ?_
    rw [(UsersTable.save_ok hsave).1]
    exact hsame stored tick.now

theorem changed_same {α : Type} [DecidableEq α] (old : α) : changed old old = none :=
  changed_eq_none.mpr rfl

/-- A request without groups that has found a record does not send a role. -/
theorem write_rolesKept {way : Way} (hmissing : way ≠ .missing) (hgroups : profile.groups = none)
    (h : way.write env providerId profile tick t = .ok (row, t')) : RolesKept t t' := by
  have hrole : profile.jwtRole env = none := by
    rw [Profile.jwtRole, hgroups]
    rfl
  cases way with
  | known user =>
      refine update_kept (fun _ => rfl) (fun stored now => ?_) h
      simp [Columns.apply, syncColumns, hrole, changed_same]
  | linked user =>
      refine update_kept (fun _ => rfl) (fun stored now => ?_) h
      simp [Columns.apply, linkColumns, hrole, changed_same]
  | missing => exact absurd rfl hmissing

/-- An upsert keeps the roles just if it writes the one that the subject's record has. -/
theorem upsert_rolesKept_iff
    (h : Way.missing.write env providerId profile tick t = .ok (row, t')) :
    RolesKept t t' ↔ ∀ user ∈ t.getByProviderId providerId,
      user.role = resolveRole env profile.email profile.groups := by
  rcases UsersTable.upsertFromProvider_cases h with ⟨user, hfind, hsave⟩ | ⟨hnone, -, hinsert⟩
  · have hmem := (UsersTable.getByProviderId_eq_some.mp hfind).1
    have hkept : RolesKept t t' ↔ row.role = user.role :=
      save_kept_iff (fun _ => rfl) hmem hsave rfl
    rw [hkept, (UsersTable.save_ok hsave).1]
    simp [hfind, eq_comm]
  · have hkept : RolesKept t t' := insert_kept (fun _ => rfl) hinsert
    simp [hnone, hkept]

/-! ### The record of the subject -/

/-- The subject's record has this identifier. -/
def Owns (providerId : String) (t : UsersTable) (id : Uuid) : Prop :=
  ∃ row ∈ t.rows, row.id = id ∧ row.providerId = providerId

theorem Owns.kept {id : Uuid} (h : Owns providerId t id)
    (hkept : Kept (fun user row => user.providerId = providerId → row.providerId = providerId)
      t t') : Owns providerId t' id := by
  obtain ⟨user, huser, rfl, howned⟩ := h
  obtain ⟨row, hrow, hid, hsame⟩ := hkept user huser
  exact ⟨row, hrow, hid, hsame howned⟩

/-- A record that was found is still the subject's, if it was when it was read. -/
def Way.Owned (providerId : String) (t : UsersTable) : Way → Prop
  | .known user => Owns providerId t user.id
  | .linked user => user.providerId = providerId → Owns providerId t user.id
  | .missing => True

theorem Way.Owned.kept {way : Way} (h : way.Owned providerId t)
    (hkept : Kept (fun user row => user.providerId = providerId → row.providerId = providerId)
      t t') : way.Owned providerId t' := by
  cases way with
  | known user => exact Owns.kept h hkept
  | linked user => exact fun howned => (h howned).kept hkept
  | missing => trivial

theorem byEmail_owned (t : UsersTable) (email : String) :
    (Way.byEmail t email).Owned providerId t := by
  unfold Way.byEmail
  split
  · cases hfind : t.getByEmail email with
    | none => trivial
    | some user =>
        exact fun howned =>
          ⟨user, (UsersTable.getByEmail_eq_some.mp hfind).1, rfl, howned⟩
  · trivial

theorem write_keepsOwner {way : Way}
    (h : way.write env providerId profile tick t = .ok (row, t')) :
    Kept (fun user row => user.providerId = providerId → row.providerId = providerId) t t' := by
  cases way with
  | known user => exact update_kept (fun _ => id) (fun stored now => id) h
  | linked user =>
      refine update_kept (fun _ => id) (fun stored now howned => ?_) h
      simp only [Columns.apply, linkColumns, changed]
      split
      · exact howned
      · rfl
  | missing =>
      rcases UsersTable.upsertFromProvider_cases h with ⟨user, hfind, hsave⟩ | ⟨-, -, hinsert⟩
      · obtain ⟨hmem, howned⟩ := UsersTable.getByProviderId_eq_some.mp hfind
        refine (save_kept_iff (fun _ => id) hmem hsave rfl).mpr fun _ => ?_
        rw [(UsersTable.save_ok hsave).1]
        exact howned
      · exact insert_kept (fun _ => id) hinsert

theorem write_stores {way : Way} (howned : way.Owned providerId t)
    (h : way.write env providerId profile tick t = .ok (row, t')) :
    ∃ user ∈ t'.rows, user.providerId = providerId := by
  have hkept := write_keepsOwner h
  cases way with
  | known user =>
      obtain ⟨row', hrow, -, hprovider⟩ := Owns.kept howned hkept
      exact ⟨row', hrow, hprovider⟩
  | linked user =>
      by_cases hsame : user.providerId = providerId
      · obtain ⟨row', hrow, -, hprovider⟩ := (howned hsame).kept hkept
        exact ⟨row', hrow, hprovider⟩
      · have hcolumn : (linkColumns env providerId profile user).providerId = some providerId :=
          if_neg (Ne.symm hsame)
        rcases update_cases h with ⟨hunchanged, -, -⟩ | ⟨stored, -, -, hsave⟩
        · rw [hunchanged] at hcolumn
          cases hcolumn
        · refine ⟨row, (UsersTable.mem_save hsave).mpr (.inr rfl), ?_⟩
          rw [(UsersTable.save_ok hsave).1]
          simp [Columns.apply, hcolumn]
  | missing =>
      rcases UsersTable.upsertFromProvider_cases h with ⟨user, hfind, hsave⟩ | ⟨-, rfl, hinsert⟩
      · refine ⟨row, (UsersTable.mem_save hsave).mpr (.inr rfl), ?_⟩
        rw [(UsersTable.save_ok hsave).1]
        exact (UsersTable.getByProviderId_eq_some.mp hfind).2
      · exact ⟨_, (UsersTable.mem_insert hinsert).mpr (.inr rfl), rfl⟩

/-- A request that sends nothing takes no lock and leaves the table. -/
theorem write_unchanged {way : Way} (hwrites : way.writes env providerId profile = false)
    (tick : Tick) (t : UsersTable) :
    ∃ user, way.write env providerId profile tick t = .ok (user, t) := by
  cases way with
  | known user =>
      exact ⟨user, if_pos (by simpa [Way.writes] using hwrites)⟩
  | linked user =>
      exact ⟨user, if_pos (by simpa [Way.writes] using hwrites)⟩
  | missing => cases hwrites

theorem upsert_isActive
    (h : Way.missing.write env providerId profile tick t = .ok (row, t'))
    (hfind : t.getByProviderId providerId = some user) : row.isActive = user.isActive := by
  rcases UsersTable.upsertFromProvider_cases h with ⟨found, hfound, hsave⟩ | ⟨hnone, -, -⟩
  · rw [hfind] at hfound
    cases hfound
    rw [(UsersTable.save_ok hsave).1]
  · rw [hfind] at hnone
    cases hnone

end Kept

namespace SubjectTraffic

variable (env : Env) (providerId : String)

/-- A request without groups commits no change of a role. -/
def KeepsRoles (s : SubjectTraffic) : Event → Prop
  | .commit i => ∀ r ∈ s.requests[i]?, r.req.WithoutGroups env →
      ∀ s', s.step env providerId (.commit i) = some s' → RolesKept s.table s'.table
  | _ => True

/--
An upsert without groups finds no record of the subject when it commits, or one that is
blocked, or one whose role is the one that it writes.
-/
def UpsertsInitially (s : SubjectTraffic) : Event → Prop
  | .commit i => ∀ r ∈ s.requests[i]?, ∀ profile ∈ r.phase.upserting, profile.groups = none →
      ∀ user ∈ s.table.getByProviderId providerId, user.isActive = true →
        user.role = resolveRole env profile.email none
  | _ => True

instance upsertsInitially_decidable (s : SubjectTraffic) :
    DecidablePred (UpsertsInitially env providerId s)
  | .commit i =>
      inferInstanceAs (Decidable (∀ r ∈ s.requests[i]?, ∀ profile ∈ r.phase.upserting,
        profile.groups = none → ∀ user ∈ s.table.getByProviderId providerId,
          user.isActive = true → user.role = resolveRole env profile.email none))
  | .request _ _ | .work _ | .fail _ _ => isTrue trivial

/-- One record for the subject, if it had one or a request of it has succeeded. -/
def OneRecord (before : UsersTable) (s : SubjectTraffic) : Prop :=
  ((∃ user ∈ before.rows, user.providerId = providerId) ∨
      ∃ r ∈ s.requests, r.phase = .finished (.ok ())) →
    ∃! user, user ∈ s.table.rows ∧ user.providerId = providerId

/-! ## What a step does -/

variable {env : Env} {providerId : String} {s s' : SubjectTraffic} {r : LoginRequest}

/-- The next phase of a request, and the table that it leaves. -/
inductive Moves (env : Env) (providerId : String) (s : SubjectTraffic) (r : LoginRequest) :
    LoginPhase → UsersTable → Prop
  | failed (e : Exc) : Moves env providerId s r (.finished (.error e)) s.table
  | unknown (profile : Profile) (read : r.req.profile env = .ok profile) :
      Moves env providerId s r (.unknown profile) s.table
  | known (profile : Profile) (user : User) (read : r.req.profile env = .ok profile)
      (found : s.table.getByProviderId providerId = some user) :
      Moves env providerId s r (.resolved profile (.known user)) s.table
  | unlinked (profile : Profile) (phase : r.phase = .unknown profile) :
      Moves env providerId s r (.resolved profile (.byEmail s.table profile.email)) s.table
  | flushed (profile : Profile) (way : Way) (row : User) (t : UsersTable)
      (phase : r.phase = .resolved profile way)
      (free : way.writes env providerId profile = true → s.locked env providerId = false)
      (written : way.write env providerId profile r.tick s.table = .ok (row, t)) :
      Moves env providerId s r (.flushed profile way) s.table
  | committed (profile : Profile) (way : Way) (row : User) (t : UsersTable)
      (phase : r.phase = .flushed profile way)
      (written : way.write env providerId profile r.tick s.table = .ok (row, t))
      (active : row.isActive = true) :
      Moves env providerId s r (.finished (.ok ())) t

theorem moves_of_advance {phase : LoginPhase} (h : s.advance env providerId r = some phase) :
    Moves env providerId s r phase s.table := by
  unfold advance at h
  split at h
  · split at h
    · cases h
      exact .failed _
    · rename_i profile hprofile
      have hread := databaseUnavailable_eq_ok.mp hprofile
      split at h
      · rename_i user hfind
        cases h
        exact .known profile user hread hfind
      · cases h
        exact .unknown profile hread
  · rename_i profile hphase
    cases h
    exact .unlinked profile hphase
  · rename_i profile way hphase
    split at h
    · cases h
    · rename_i hfree
      have hunlocked : way.writes env providerId profile = true →
          s.locked env providerId = false := by
        intro hwrites
        simpa [hwrites] using hfree
      split at h
      · cases h
        exact .failed _
      · rename_i written hwritten
        cases h
        exact .flushed profile way written.1 written.2 hphase hunlocked
          (databaseUnavailable_eq_ok.mp hwritten)
  · cases h
  · cases h

theorem moves_of_unwind {phase : LoginPhase} {t : UsersTable}
    (h : s.unwind env providerId r = some (phase, t)) : Moves env providerId s r phase t := by
  unfold unwind at h
  split at h
  · rename_i profile way hphase
    split at h
    · cases h
      exact .failed _
    · rename_i row table hwritten
      split at h
      · rename_i hactive
        cases h
        exact .committed profile way row _ hphase hwritten hactive
      · cases h
        exact .failed _
  · cases h

/-- A step brings a new request, or moves one that is not over yet. -/
theorem step_cases {e : Event} (h : s.step env providerId e = some s') :
    (∃ req tick, s' = { s with requests := s.requests ++ [⟨req, tick, .begun⟩] }) ∨
      ∃ i r phase t, s.requests[i]? = some r ∧ r.phase.isFinished = false ∧
        Moves env providerId s r phase t ∧
        s' = ⟨t, s.requests.set i { r with phase := phase }⟩ := by
  cases e with
  | request req tick =>
      simp only [step] at h
      split at h
      · cases h
        exact .inl ⟨req, tick, rfl⟩
      · cases h
  | work i =>
      obtain ⟨r, hr, hrest⟩ := Option.bind_eq_some_iff.mp h
      obtain ⟨phase, hphase, hs⟩ := Option.bind_eq_some_iff.mp hrest
      cases hs
      have hunfinished : r.phase.isFinished = false := by
        unfold advance at hphase
        split at hphase
        case h_5 => cases hphase
        all_goals simp [LoginPhase.isFinished, *]
      exact .inr ⟨i, r, phase, s.table, hr, hunfinished, moves_of_advance hphase, rfl⟩
  | commit i =>
      obtain ⟨r, hr, hrest⟩ := Option.bind_eq_some_iff.mp h
      obtain ⟨⟨phase, t⟩, hphase, hs⟩ := Option.bind_eq_some_iff.mp hrest
      cases hs
      have hunfinished : r.phase.isFinished = false := by
        unfold unwind at hphase
        split at hphase
        · simp [LoginPhase.isFinished, *]
        · cases hphase
      exact .inr ⟨i, r, phase, t, hr, hunfinished, moves_of_unwind hphase, rfl⟩
  | fail i e =>
      obtain ⟨r, hr, hrest⟩ := Option.bind_eq_some_iff.mp h
      split at hrest
      · cases hrest
      · rename_i hunfinished
        cases hrest
        exact .inr ⟨i, r, _, s.table, hr, by simpa using hunfinished, .failed e, rfl⟩

/-! ## The invariant -/

/-- What the phase of a request says about its profile and about the committed table. -/
structure RequestSound (env : Env) (providerId : String) (t : UsersTable)
    (r : LoginRequest) : Prop where
  read : ∀ profile, r.phase.profile = some profile → r.req.profile env = .ok profile
  owned : ∀ profile way, r.phase.resolution = some (profile, way) → way.Owned providerId t
  written : ∀ profile way, r.phase = .flushed profile way →
    ∃ row t', way.write env providerId profile r.tick t = .ok (row, t')

structure Sound (env : Env) (providerId : String) (before : UsersTable)
    (s : SubjectTraffic) : Prop where
  requests : ∀ r ∈ s.requests, RequestSound env providerId s.table r
  alone : ∀ (i j : Nat) (r r' : LoginRequest), s.requests[i]? = some r →
    s.requests[j]? = some r' → r.phase.locks env providerId = true →
    r'.phase.locks env providerId = true → i = j
  stored : ((∃ user ∈ before.rows, user.providerId = providerId) ∨
      ∃ r ∈ s.requests, r.phase = .finished (.ok ())) →
    ∃ user ∈ s.table.rows, user.providerId = providerId

section Preservation

variable {phase : LoginPhase} {t : UsersTable}

theorem requestSound_finished (req : AuthRequest) (tick : Tick) (result : Except Exc Unit)
    (t : UsersTable) : RequestSound env providerId t ⟨req, tick, .finished result⟩ :=
  ⟨fun _ h => (nomatch h), fun _ _ h => (nomatch h), fun _ _ h => (nomatch h)⟩

theorem Moves.sound (h : Moves env providerId s r phase t)
    (hr : RequestSound env providerId s.table r) :
    RequestSound env providerId t { r with phase := phase } := by
  cases h with
  | failed e => exact requestSound_finished r.req r.tick (.error e) s.table
  | unknown profile read =>
      constructor
      · rintro _ ⟨⟩
        exact read
      · rintro _ _ ⟨⟩
      · rintro _ _ ⟨⟩
  | known profile user read found =>
      constructor
      · rintro _ ⟨⟩
        exact read
      · rintro _ _ ⟨⟩
        obtain ⟨hmem, howned⟩ := UsersTable.getByProviderId_eq_some.mp found
        exact ⟨user, hmem, rfl, howned⟩
      · rintro _ _ ⟨⟩
  | unlinked profile hphase =>
      constructor
      · rintro _ ⟨⟩
        exact hr.read profile (by rw [hphase]; rfl)
      · rintro _ _ ⟨⟩
        exact byEmail_owned s.table profile.email
      · rintro _ _ ⟨⟩
  | flushed profile way row t hphase free written =>
      constructor
      · rintro _ ⟨⟩
        exact hr.read profile (by rw [hphase]; rfl)
      · rintro _ _ ⟨⟩
        exact hr.owned profile way (by rw [hphase]; rfl)
      · rintro _ _ ⟨⟩
        exact ⟨row, t, written⟩
  | committed => exact requestSound_finished r.req r.tick (.ok ()) t

/-- Only a request that holds the lock changes the table. -/
theorem Moves.table (h : Moves env providerId s r phase t) :
    t = s.table ∨ r.phase.locks env providerId = true := by
  cases h with
  | committed profile way row t hphase written =>
      cases hwrites : way.writes env providerId profile with
      | true =>
          right
          rw [hphase]
          exact hwrites
      | false =>
          left
          obtain ⟨user, hsame⟩ := write_unchanged hwrites r.tick s.table
          rw [hsame] at written
          cases written
          rfl
  | failed | unknown | known | unlinked | flushed => exact .inl rfl

theorem Moves.keepsOwner (h : Moves env providerId s r phase t) :
    Kept (fun user row => user.providerId = providerId → row.providerId = providerId)
      s.table t := by
  cases h with
  | committed profile way row t hphase written => exact write_keepsOwner written
  | failed | unknown | known | unlinked | flushed => exact Kept.refl (fun _ => id) s.table

/-- A request is locked out while another one's lock is held. -/
theorem Moves.locks (h : Moves env providerId s r phase t)
    (hlocks : phase.locks env providerId = true) : s.locked env providerId = false := by
  cases h with
  | flushed profile way row t hphase free written => exact free hlocks
  | failed | unknown | known | unlinked | committed => cases hlocks

theorem RequestSound.kept {r' : LoginRequest} (h : RequestSound env providerId s.table r')
    (htable : t = s.table ∨ r'.phase.locks env providerId = false)
    (hkept : Kept (fun user row => user.providerId = providerId →
      row.providerId = providerId) s.table t) : RequestSound env providerId t r' := by
  refine ⟨h.read, fun profile way hway => (h.owned profile way hway).kept hkept, ?_⟩
  intro profile way hphase
  rcases htable with rfl | hunlocked
  · exact h.written profile way hphase
  · rw [hphase] at hunlocked
    obtain ⟨user, hsame⟩ := write_unchanged hunlocked r'.tick t
    exact ⟨user, t, hsame⟩

theorem not_locked {j : Nat} {r' : LoginRequest} (h : s.locked env providerId = false)
    (hj : s.requests[j]? = some r') : r'.phase.locks env providerId = false := by
  unfold locked at h
  rw [List.any_eq_false] at h
  simpa using h r' (List.mem_of_getElem? hj)

variable {before : UsersTable}

theorem Sound.brought (h : Sound env providerId before s) (req : AuthRequest) (tick : Tick) :
    Sound env providerId before { s with requests := s.requests ++ [⟨req, tick, .begun⟩] } := by
  constructor
  · intro r hr
    rcases List.mem_append.mp hr with hold | hnew
    · exact h.requests r hold
    · rw [List.mem_singleton.mp hnew]
      exact ⟨fun _ h => (nomatch h), fun _ _ h => (nomatch h), fun _ _ h => (nomatch h)⟩
  · intro i j r r' hi hj hlocks hlocks'
    rcases getElem?_append_new hi with hold | ⟨-, rfl⟩
    · rcases getElem?_append_new hj with hold' | ⟨-, rfl⟩
      · exact h.alone i j r r' hold hold' hlocks hlocks'
      · cases hlocks'
    · cases hlocks
  · rintro (hbefore | ⟨r, hr, hphase⟩)
    · exact h.stored (.inl hbefore)
    · rcases List.mem_append.mp hr with hold | hnew
      · exact h.stored (.inr ⟨r, hold, hphase⟩)
      · rw [List.mem_singleton.mp hnew] at hphase
        cases hphase

theorem Sound.moved (h : Sound env providerId before s) {i : Nat}
    (hi : s.requests[i]? = some r) (hmoves : Moves env providerId s r phase t) :
    Sound env providerId before ⟨t, s.requests.set i { r with phase := phase }⟩ := by
  have hr := h.requests r (List.mem_of_getElem? hi)
  constructor
  · intro r' hr'
    obtain ⟨j, hj⟩ := List.getElem?_of_mem hr'
    rcases getElem?_set_new hj with ⟨-, rfl⟩ | ⟨hji, hold⟩
    · exact hmoves.sound hr
    · refine (h.requests r' (List.mem_of_getElem? hold)).kept ?_ hmoves.keepsOwner
      rcases hmoves.table with hsame | hlocks
      · exact .inl hsame
      · right
        cases hlocks' : r'.phase.locks env providerId with
        | false => rfl
        | true => exact absurd (h.alone j i r' r hold hi hlocks' hlocks) hji
  · intro j k r₁ r₂ hj hk hlocks₁ hlocks₂
    rcases getElem?_set_new hj with ⟨rfl, rfl⟩ | ⟨-, hold₁⟩
    · rcases getElem?_set_new hk with ⟨rfl, -⟩ | ⟨-, hold₂⟩
      · rfl
      · rw [not_locked (hmoves.locks hlocks₁) hold₂] at hlocks₂
        cases hlocks₂
    · rcases getElem?_set_new hk with ⟨rfl, rfl⟩ | ⟨-, hold₂⟩
      · rw [not_locked (hmoves.locks hlocks₂) hold₁] at hlocks₁
        cases hlocks₁
      · exact h.alone j k r₁ r₂ hold₁ hold₂ hlocks₁ hlocks₂
  · intro hsome
    by_cases hcommitted : phase = .finished (.ok ())
    · cases hmoves with
      | committed profile way row t hphase written =>
          exact write_stores (hr.owned profile way (by rw [hphase]; rfl)) written
      | failed | unknown | known | unlinked | flushed => cases hcommitted
    · have hstored : ∃ user ∈ s.table.rows, user.providerId = providerId := by
        refine h.stored (hsome.imp_right ?_)
        rintro ⟨r', hr', hphase⟩
        obtain ⟨j, hj⟩ := List.getElem?_of_mem hr'
        rcases getElem?_set_new hj with ⟨-, rfl⟩ | ⟨-, hold⟩
        · exact absurd hphase hcommitted
        · exact ⟨r', List.mem_of_getElem? hold, hphase⟩
      obtain ⟨user, huser, howned⟩ := hstored
      obtain ⟨row, hrow, -, hsame⟩ := hmoves.keepsOwner user huser
      exact ⟨row, hrow, hsame howned⟩

theorem Sound.step (h : Sound env providerId before s) {e : Event}
    (hstep : s.step env providerId e = some s') : Sound env providerId before s' := by
  rcases step_cases hstep with ⟨req, tick, rfl⟩ | ⟨i, r, phase, t, hi, -, hmoves, rfl⟩
  · exact h.brought req tick
  · exact h.moved hi hmoves

theorem sound_start (t : UsersTable) : Sound env providerId t (start t) where
  requests := fun _ hr => nomatch hr
  alone := fun _ _ _ _ hi => nomatch hi
  stored := by
    rintro (hbefore | ⟨r, hr, -⟩)
    · exact hbefore
    · cases hr

theorem Sound.oneRecord (h : Sound env providerId before s) :
    OneRecord providerId before s := by
  intro hsome
  obtain ⟨user, huser, howned⟩ := h.stored hsome
  refine ⟨user, ⟨huser, howned⟩, ?_⟩
  rintro other ⟨hother, hsame⟩
  exact s.table.admissible.uniqueProviderId.eq hother huser (hsame.trans howned.symm)

end Preservation

/-! ## Roles along a run -/

variable {before : UsersTable}

theorem Sound.withoutGroups (h : Sound env providerId before s) {profile : Profile} {i : Nat}
    (hi : s.requests[i]? = some r) (hprofile : r.phase.profile = some profile) :
    r.req.WithoutGroups env ↔ profile.groups = none := by
  have hread := (h.requests r (List.mem_of_getElem? hi)).read profile hprofile
  constructor
  · exact fun hnone => hnone profile hread
  · intro hnone profile' hread'
    rw [hread] at hread'
    cases hread'
    exact hnone

theorem upserting_eq_some {phase : LoginPhase} {profile : Profile}
    (h : phase.upserting = some profile) : phase = .flushed profile .missing := by
  unfold LoginPhase.upserting at h
  split at h
  · cases h
    rfl
  · cases h

theorem Sound.keepsRoles_iff (h : Sound env providerId before s) (e : Event) :
    KeepsRoles env providerId s e ↔ UpsertsInitially env providerId s e := by
  cases e with
  | request | work | fail => exact Iff.rfl
  | commit i =>
      constructor
      · intro hkeeps r hi profile hupserting hgroups user hfind hactive
        have hphase := upserting_eq_some hupserting
        have hsound := h.requests r (List.mem_of_getElem? hi)
        obtain ⟨row, t, hwritten⟩ := hsound.written profile .missing hphase
        have hrow : row.isActive = true := (upsert_isActive hwritten hfind).trans hactive
        have hunwind : s.unwind env providerId r = some (.finished (.ok ()), t) := by
          simp [unwind, hphase, hwritten, hrow]
        have hstep : s.step env providerId (.commit i) =
            some ⟨t, s.requests.set i { r with phase := .finished (.ok ()) }⟩ := by
          have hr : s.requests[i]? = some r := hi
          simp [SubjectTraffic.step, hr, hunwind]
        have hwithout := (h.withoutGroups hi (by rw [hphase]; rfl)).mpr hgroups
        have hkept := hkeeps r hi hwithout _ hstep
        have hrole := (upsert_rolesKept_iff hwritten).mp hkept user hfind
        rwa [hgroups] at hrole
      · intro hupserts r hi hwithout s' hstep
        obtain ⟨r', hr', hrest⟩ := Option.bind_eq_some_iff.mp hstep
        obtain ⟨⟨phase, t⟩, hunwind, hs⟩ := Option.bind_eq_some_iff.mp hrest
        cases hs
        obtain rfl : r' = r := Option.some.inj (hr'.symm.trans hi)
        cases moves_of_unwind hunwind with
        | committed profile way row _ hphase hwritten hactive =>
            have hgroups := (h.withoutGroups hi (by rw [hphase]; rfl)).mp hwithout
            by_cases hmissing : way = .missing
            · subst hmissing
              refine (upsert_rolesKept_iff hwritten).mpr fun user hfind => ?_
              rw [hgroups]
              refine hupserts r' hi profile (by rw [hphase]; rfl) hgroups user hfind ?_
              rw [← upsert_isActive hwritten hfind]
              exact hactive
            · exact write_rolesKept hmissing hgroups hwritten
        | failed | unknown | known | unlinked | flushed =>
            exact RolesKept.refl s.table

theorem keepsRoles_along_iff (t : UsersTable) (events : List Event) :
    Along (step env providerId) (KeepsRoles env providerId) (start t) events ↔
      Along (step env providerId) (UpsertsInitially env providerId) (start t) events := by
  have hstep {guard : SubjectTraffic → Event → Prop} : ∀ s e s',
      Sound env providerId t s → guard s e → s.step env providerId e = some s' →
        Sound env providerId t s' := fun _ _ _ hs _ hs' => hs.step hs'
  constructor
  · exact along_of_invariant hstep (fun s e hs => (hs.keepsRoles_iff e).mp) (sound_start t)
  · exact along_of_invariant hstep (fun s e hs => (hs.keepsRoles_iff e).mpr) (sound_start t)

theorem run_oneRecord {t : UsersTable} {events : List Event}
    (hrun : run (step env providerId) (start t) events = some s) :
    OneRecord providerId t s :=
  (run_invariant (fun _ _ _ hs hs' => hs.step hs') (sound_start t) hrun).oneRecord

/--
In a run of a subject's requests none without groups changes a role, and one record is
left, if and only if no upsert without groups commits on an active record of the subject
whose role is another.
-/
theorem missing_groups_keep_roles_iff {t : UsersTable} {events : List Event}
    (hrun : run (step env providerId) (start t) events = some s) :
    Along (step env providerId) (KeepsRoles env providerId) (start t) events ∧
        OneRecord providerId t s ↔
      Along (step env providerId) (UpsertsInitially env providerId) (start t) events := by
  rw [keepsRoles_along_iff]
  exact and_iff_left (run_oneRecord hrun)

/-- Alice's claims from a token that lists no groups. -/
def requestWithoutGroups : AuthRequest where
  payload := [("sub", .str "alice"), ("email", .str "alice@example.com"),
    ("name", .str "alice")]
  userinfo := .networkError

/-- The request without groups comes once the first one has committed. -/
def loginsInTurn : List Event :=
  [.request (exampleRequest "alice" ["admins"]) (exampleTick 1),
   .request requestWithoutGroups (exampleTick 2),
   .work 0, .work 0, .work 0, .commit 0, .work 1, .work 1, .commit 1]

/-- Both have found no record before the first one commits. -/
def loginsAtOnce : List Event :=
  [.request (exampleRequest "alice" ["admins"]) (exampleTick 1),
   .request requestWithoutGroups (exampleTick 2),
   .work 0, .work 1, .work 0, .work 1, .work 0, .commit 0, .work 1, .commit 1]

theorem logins_in_turn_keep_roles :
    ∃ s, run (step exampleEnv "alice") (start .empty) loginsInTurn = some s ∧
      Along (step exampleEnv "alice") (KeepsRoles exampleEnv "alice") (start .empty)
        loginsInTurn ∧ OneRecord "alice" .empty s := by
  obtain ⟨s, hrun⟩ : ∃ s, run (step exampleEnv "alice") (start .empty) loginsInTurn = some s :=
    Option.isSome_iff_exists.mp (by decide +kernel)
  exact ⟨s, hrun, (missing_groups_keep_roles_iff hrun).mpr (by decide +kernel)⟩

theorem logins_at_once_lose_role :
    requestWithoutGroups.WithoutGroups exampleEnv ∧
      (run (step exampleEnv "alice") (start .empty) (loginsAtOnce.take 8)).map
        (fun s => s.table.rows.map User.role) = some [.admin] ∧
      (run (step exampleEnv "alice") (start .empty) loginsAtOnce).map
        (fun s => s.table.rows.map User.role) = some [.free] ∧
      ¬ Along (step exampleEnv "alice") (KeepsRoles exampleEnv "alice") (start .empty)
        loginsAtOnce := by
  refine ⟨?_, by decide +kernel, by decide +kernel, ?_⟩
  · intro profile hprofile
    cases hprofile
    rfl
  · rw [keepsRoles_along_iff]
    decide +kernel

end SubjectTraffic

end IsolatedEnv.Backend
