import IsolatedEnv.Backend.App
import IsolatedEnv.Backend.Users.RoleEffect

/-!
# Admin requests handled at once

Every request has a session of its own, at PostgreSQL's READ COMMITTED.  It
authenticates its admin on the rows committed by then, loads its target later,
and writes and commits later still.  An UPDATE carries the columns in which an
object differs from the row it was loaded as; the other columns are those of
the row as committed in the meantime.  The row it has locked stays as it is
until the commit, so that a write and its commit are one event.  Otherwise row
locks only take schedules away, and they are left out.
-/

namespace IsolatedEnv.Backend

open IsolatedEnv.Foundation

/-! ## What a session sends to the database -/

/-- The row after an UPDATE for an object loaded as `old` and now `new`. -/
def User.merge (old new current : User) : User :=
  let column {α : Type} [DecidableEq α] (f : User → α) : α :=
    if f new = f old then f current else f new
  { id := current.id
    providerId := column User.providerId
    email := column User.email
    name := column User.name
    role := column User.role
    isActive := column User.isActive
    roleChangedAt := column User.roleChangedAt
    roleChangedBy := column User.roleChangedBy
    createdAt := column User.createdAt
    updatedAt := new.updatedAt }

inductive RowChange where
  | update (old new : User)
  | insert (row : User)
  | delete (id : Uuid)

namespace RowChange

def id : RowChange → Uuid
  | update old _ => old.id
  | insert row => row.id
  | delete id => id

/-- A DELETE of a row that is gone only warns. -/
def apply : RowChange → UsersTable → Except Exc UsersTable
  | update old new, t =>
      match t.getById old.id with
      | some current => t.flush (old.merge new current)
      | none => .error .sqlalchemy
  | insert row, t => t.insert row
  | delete id, t => .ok (t.delete id)

def applyAll : List RowChange → UsersTable → Except Exc UsersTable
  | [], t => .ok t
  | change :: changes, t => do applyAll changes (← change.apply t)

/-- How the record resolved differs from the committed rows. -/
def resolving (t : UsersTable) (row : User) : List RowChange :=
  match t.getById row.id with
  | some old => if old = row then [] else [update old row]
  | none => [insert row]

end RowChange

/-! ## Sessions -/

inductive AdminAction where
  | changeRole (newRole : UserRole)
  | block (isActive : Bool)
  | delete

namespace AdminAction

def refusal : AdminAction → String
  | changeRole _ => "Cannot change your own role"
  | block _ => "Cannot block yourself"
  | delete => "Cannot delete yourself"

def route (userId : Uuid) : AdminAction → UserRoute
  | changeRole newRole => .changeRole (some (userId, newRole))
  | block isActive => .blockUser (some (userId, isActive))
  | delete => .deleteUser (some userId)

def change (admin target : User) (tick : Tick) : AdminAction → RowChange
  | changeRole newRole => .update target { target with
      role := newRole
      roleChangedAt := some tick.now
      roleChangedBy := some admin.providerId
      updatedAt := tick.now }
  | block isActive => .update target { target with
      isActive := isActive
      roleChangedAt := some tick.now
      roleChangedBy := some admin.providerId
      updatedAt := tick.now }
  | delete => .delete target.id

end AdminAction

/-- `own` is what the resolution of the admin has to write. -/
structure Session where
  admin : User
  own : List RowChange
  tick : Tick
  action : AdminAction
  userId : Uuid
  target : Option User

namespace Session

def load (session : Session) (t : UsersTable) : Except Exc Session :=
  if session.admin.id = session.userId then
    .error (.businessRuleError session.action.refusal)
  else (UserService.getUserById t session.userId).map fun target =>
    { session with target := some target }

def write (session : Session) (target : User) (t : UsersTable) :
    Except Exc UsersTable := do
  let t' ← RowChange.applyAll session.own t
  (session.action.change session.admin target session.tick).apply t'

/-- With its own changes the acting admin is an active administrator. -/
def stands (session : Session) (t : UsersTable) : Bool :=
  match RowChange.applyAll session.own t with
  | .ok t' => (t'.getById session.admin.id).any fun u => u.isActive && u.role = .admin
  | .error _ => true

end Session

/-- The committed rows, and the sessions in the order of their requests. -/
structure AdminSessions where
  users : UsersTable
  sessions : List (Option Session)

namespace AdminSessions

inductive Event where
  | authenticate (auth : AuthRequest) (tick : Tick) (action : AdminAction)
      (userId : Uuid)
  | load (i : Nat)
  | commit (i : Nat)
  | rollback (i : Nat)

def start (users : UsersTable) : AdminSessions := ⟨users, []⟩

def put (s : AdminSessions) (i : Nat) (session : Option Session) : AdminSessions :=
  { s with sessions := s.sessions.set i session }

def step (env : Env) (s : AdminSessions) : Event → Option AdminSessions
  | .authenticate auth tick action userId =>
      match requireRole env [.admin] auth tick s.users with
      | .ok (admin, _) => some { s with
          sessions := s.sessions ++
            [some ⟨admin, RowChange.resolving s.users admin, tick, action, userId,
              none⟩] }
      | .error _ => some s
  | .load i =>
      match s.sessions[i]? with
      | some (some session) =>
          if session.target.isNone then
            some (s.put i (session.load s.users).toOption)
          else none
      | _ => none
  | .commit i =>
      match s.sessions[i]? with
      | some (some session) => session.target.map fun target =>
          match session.write target s.users with
          | .ok users => { s.put i none with users := users }
          | .error _ => s.put i none
      | _ => none
  | .rollback i =>
      match s.sessions[i]? with
      | some (some _) => some (s.put i none)
      | _ => none

def HasActiveAdmin (users : UsersTable) : Prop :=
  ∃ u ∈ users.rows, u.isActive = true ∧ u.role = .admin

instance (users : UsersTable) : Decidable (HasActiveAdmin users) :=
  inferInstanceAs (Decidable (∃ u ∈ users.rows, _))

/-- Nobody has meanwhile taken the acting admin's role, activity or record. -/
def adminStands (s : AdminSessions) : Event → Bool
  | .commit i => s.sessions[i]?.all fun open? =>
      open?.all fun session => session.stands s.users
  | _ => true

/-- A request begins when no other is under way. -/
def oneAtATime (s : AdminSessions) : Event → Bool
  | .authenticate .. => s.sessions.all Option.isNone
  | _ => true

end AdminSessions

/-! ## What a change leaves alone -/

theorem User.merge_self {old new : User} (hid : new.id = old.id) :
    old.merge new old = new := by
  have hcolumn {α : Type} [DecidableEq α] (f : User → α) :
      (if f new = f old then f old else f new) = f new := by
    split
    · rename_i hsame
      exact hsame.symm
    · rfl
  simp only [User.merge, hcolumn, ← hid]

namespace RowChange

variable {change : RowChange} {t t' : UsersTable} {u row : User}

theorem mem_of_apply (h : change.apply t = .ok t') (hu : u ∈ t.rows)
    (hother : u.id ≠ change.id) : u ∈ t'.rows := by
  cases change with
  | update old new =>
      cases hcurrent : t.getById old.id with
      | none => simp [apply, hcurrent] at h
      | some current =>
          simp only [apply, hcurrent] at h
          have hid : (old.merge new current).id = old.id :=
            (UsersTable.getById_eq_some.mp hcurrent).2
          exact (UsersTable.mem_flush h).mpr (.inl ⟨hu, hid ▸ hother⟩)
  | insert row => exact (UsersTable.mem_insert h).mpr (.inl hu)
  | delete id =>
      cases h
      exact UsersTable.mem_delete.mpr ⟨hu, hother⟩

theorem apply_update {old new : User} (hold : t.getById old.id = some old)
    (hid : new.id = old.id) : (update old new).apply t = t.flush new := by
  simp only [apply, hold, User.merge_self hid]

theorem apply_save {old new : User} {tick : Tick} (hold : t.getById old.id = some old)
    (h : t.save new tick = .ok (row, t')) (hid : new.id = old.id) :
    (update old { new with updatedAt := tick.now }).apply t = .ok t' := by
  obtain ⟨rfl, hflush⟩ := UsersTable.save_ok h
  rw [apply_update hold]
  · exact hflush
  · exact hid

@[simp] theorem applyAll_nil : applyAll [] t = .ok t := rfl

@[simp] theorem applyAll_singleton : applyAll [change] t = change.apply t := by
  unfold applyAll
  cases change.apply t <;> rfl

/-! ## The admin's own changes -/

theorem flush_self (hmem : row ∈ t.rows) : t.flush row = .ok t := by
  have hrows : Rows.replace User.id row t.rows = t.rows := by
    unfold Rows.replace
    conv_rhs => rw [← List.map_id t.rows]
    apply List.map_congr_left
    intro u hu
    split
    · rename_i hid
      exact (t.admissible.uniqueId.eq hu hmem hid).symm
    · rfl
  unfold UsersTable.flush UsersTable.write
  rw [if_pos (UsersTable.isSome_getById hmem), hrows, dif_pos t.admissible]

theorem applyAll_resolving_save {user new : User} {tick : Tick} (hmem : user ∈ t.rows)
    (hid : new.id = user.id) (h : t.save new tick = .ok (row, t')) :
    applyAll (resolving t row) t = .ok t' := by
  obtain ⟨hrow, hflush⟩ := UsersTable.save_ok h
  have hrowId : row.id = user.id := by
    rw [hrow]
    exact hid
  have hfind : t.getById user.id = some user :=
    UsersTable.getById_eq_some.mpr ⟨hmem, rfl⟩
  unfold resolving
  rw [hrowId, hfind]
  dsimp only
  split
  · rename_i hsame
    rw [← hsame, flush_self hmem] at hflush
    exact hflush
  · rw [applyAll_singleton, apply_update hfind hrowId]
    exact hflush

/-- What the dependency has to write turns the rows into those it returned. -/
theorem applyAll_resolving {env : Env} {providerId : String} {profile : Profile}
    {tick : Tick} (h : Resolution env t providerId profile tick row t') :
    applyAll (resolving t row) t = .ok t' := by
  cases h with
  | known user found synced =>
      have hmem := (UsersTable.getByProviderId_eq_some.mp found).1
      rcases UsersTable.syncFromJwt_cases synced with ⟨rfl, -, rfl⟩ | hsave
      · have hfind : t'.getById row.id = some row :=
          UsersTable.getById_eq_some.mpr ⟨hmem, rfl⟩
        simp [resolving, hfind]
      · refine applyAll_resolving_save hmem ?_ hsave
        rfl
  | linked user unknown hasEmail found saved =>
      refine applyAll_resolving_save (UsersTable.getByEmail_eq_some.mp found).1 ?_ saved
      rfl
  | created unknown unlinked isNew inserted =>
      have hnone : t.getById row.id = none := by
        rw [UsersTable.getById, Rows.find_eq_none]
        exact UsersTable.insert_fresh inserted
      simp only [resolving, hnone, applyAll_singleton]
      exact inserted

end RowChange

/-! ## What each event can do -/

variable {env : Env} {t t' : UsersTable}

namespace Session

variable {session session' : Session} {target : User}

theorem load_ok (h : session.load t = .ok session') :
    ∃ target, t.getById session.userId = some target ∧
      target.id ≠ session.admin.id ∧ session' = { session with target := some target } := by
  unfold load at h
  split at h
  · cases h
  · rename_i hother
    obtain ⟨target, hget, rfl⟩ := exists_ok h
    have hfind := UserService.getUserById_eq_ok.mp hget
    have hid := (UsersTable.getById_eq_some.mp hfind).2
    exact ⟨target, hfind, fun hsame => hother (hsame.symm.trans hid), rfl⟩

theorem change_id (action : AdminAction) (admin : User) (tick : Tick) :
    (action.change admin target tick).id = target.id := by
  cases action <;> rfl

theorem write_keeps_admin (hstands : session.stands t = true)
    (hother : target.id ≠ session.admin.id) (h : session.write target t = .ok t') :
    AdminSessions.HasActiveAdmin t' := by
  obtain ⟨t₁, hown, happly⟩ := bind_eq_ok.mp h
  simp only [stands, hown, Option.any_eq_true, Bool.and_eq_true,
    decide_eq_true_eq] at hstands
  obtain ⟨u, hfind, hactive, hrole⟩ := hstands
  obtain ⟨hmem, hid⟩ := UsersTable.getById_eq_some.mp hfind
  refine ⟨u, RowChange.mem_of_apply happly hmem ?_, hactive, hrole⟩
  rw [change_id, hid]
  exact hother.symm

/-- The session was opened on these very rows. -/
def Fresh (env : Env) (session : Session) (t : UsersTable) : Prop :=
  ∃ auth users,
    requireRole env [.admin] auth session.tick t = .ok (session.admin, users) ∧
      session.own = RowChange.resolving t session.admin

theorem Fresh.stands (h : session.Fresh env t) : session.stands t = true := by
  obtain ⟨auth, users, hrequire, hown⟩ := h
  obtain ⟨hcurrent, hrole⟩ := requireRole_eq_ok.mp hrequire
  obtain ⟨hactive, profile, -, hresolution⟩ := getCurrentDbUser_cases hcurrent
  have hfind : users.getById session.admin.id = some session.admin :=
    UsersTable.getById_eq_some.mpr ⟨hresolution.mem_iff.mpr (.inr rfl), rfl⟩
  have hadmin : session.admin.role = .admin := by simpa [allowedRole] using hrole
  unfold Session.stands
  rw [hown, RowChange.applyAll_resolving hresolution]
  simp [hfind, hactive, hadmin]

end Session

namespace AdminSessions

variable {s s' : AdminSessions} {e : Event}

inductive Stepped (env : Env) (s : AdminSessions) : Event → AdminSessions → Prop
  | admitted (auth : AuthRequest) (tick : Tick) (action : AdminAction) (userId : Uuid)
      (admin : User) (users : UsersTable)
      (admits : requireRole env [.admin] auth tick s.users = .ok (admin, users)) :
      Stepped env s (.authenticate auth tick action userId) { s with
        sessions := s.sessions ++
          [some ⟨admin, RowChange.resolving s.users admin, tick, action, userId, none⟩] }
  | refused (e : Event) : Stepped env s e s
  | loaded (i : Nat) (session session' : Session)
      (isOpen : s.sessions[i]? = some (some session))
      (loads : session.load s.users = .ok session') :
      Stepped env s (.load i) (s.put i (some session'))
  | closed (e : Event) (i : Nat) : Stepped env s e (s.put i none)
  | committed (i : Nat) (session : Session) (target : User) (users : UsersTable)
      (isOpen : s.sessions[i]? = some (some session))
      (aimed : session.target = some target)
      (writes : session.write target s.users = .ok users) :
      Stepped env s (.commit i) { s.put i none with users := users }

theorem step_cases (h : s.step env e = some s') : Stepped env s e s' := by
  cases e with
  | authenticate auth tick action userId =>
      cases hrequire : requireRole env [.admin] auth tick s.users with
      | error e =>
          simp only [step, hrequire, Option.some.injEq] at h
          exact h ▸ .refused _
      | ok p =>
          simp only [step, hrequire, Option.some.injEq] at h
          exact h ▸ .admitted auth tick action userId p.1 p.2 hrequire
  | load i =>
      simp only [step] at h
      split at h
      · rename_i session hopen
        rw [Option.ite_none_right_eq_some, Option.some.injEq] at h
        obtain ⟨-, rfl⟩ := h
        cases hload : session.load s.users with
        | error e => exact .closed _ i
        | ok session' => exact .loaded i session session' hopen hload
      · cases h
  | commit i =>
      simp only [step] at h
      split at h
      · rename_i session hopen
        obtain ⟨target, htarget, rfl⟩ := Option.map_eq_some_iff.mp h
        cases hwrite : session.write target s.users with
        | error e => exact .closed _ i
        | ok users => exact .committed i session target users hopen htarget hwrite
      · cases h
  | rollback i =>
      simp only [step] at h
      split at h
      · cases h
        exact .closed _ i
      · cases h

/-! ## A request handled alone -/

theorem route_done {request : Request} {members : Memberships} {action : AdminAction}
    {userId : Uuid} {db db' : Database} {finished : Finished Answer}
    (h : ((action.route userId).serve env request db members).1 = .ok finished)
    (htables : finished.tables = some db') :
    ∃ admin users target,
      requireRole env [.admin] request.auth request.tick db.users = .ok (admin, users) ∧
      users.getById userId = some target ∧ admin.id ≠ target.id ∧
      (action.change admin target request.tick).apply users = .ok db'.users := by
  obtain ⟨admin, users, endpoint, -, hrequire, hendpoint, hresult⟩ :=
    UserRoute.serve_ok h
  have hgate : (action.route userId).gate = some .admin := by cases action <;> rfl
  refine ⟨admin, users, ?_⟩
  cases action with
  | changeRole newRole =>
      cases hendpoint
      obtain ⟨inner, hinner, rfl⟩ := exists_ok hresult
      obtain ⟨target, hfind, hstore⟩ := AdminRouter.changeRole_finished hinner
      obtain ⟨hother, row, hupdate⟩ := AdminRouter.storeRole_saved hstore htables
      have hid := (UsersTable.getById_eq_some.mp hfind).2
      exact ⟨target, hrequire _ hgate, hfind, hother,
        RowChange.apply_save (hid ▸ hfind) hupdate rfl⟩
  | block isActive =>
      cases hendpoint
      obtain ⟨inner, hinner, rfl⟩ := exists_ok hresult
      obtain ⟨target, row, hfind, hother, hset⟩ :=
        AdminRouter.blockUser_saved hinner htables
      have hid := (UsersTable.getById_eq_some.mp hfind).2
      exact ⟨target, hrequire _ hgate, hfind, hother,
        RowChange.apply_save (hid ▸ hfind) hset rfl⟩
  | delete =>
      cases hendpoint
      obtain ⟨inner, hinner, rfl⟩ := exists_ok hresult
      obtain ⟨target, hfind, hother, hdelete⟩ :=
        AdminRouter.deleteUser_deleted hinner htables
      exact ⟨target, hrequire _ hgate, hfind, hother, congrArg _ hdelete.symm⟩

theorem handled_alone {request : Request} {members : Memberships}
    {action : AdminAction} {userId : Uuid} {db db' : Database}
    {finished : Finished Answer}
    (h : ((action.route userId).serve env request db members).1 = .ok finished)
    (htables : finished.tables = some db') :
    run (step env) (start db.users)
        [.authenticate request.auth request.tick action userId, .load 0, .commit 0] =
      some ⟨db'.users, [none]⟩ := by
  obtain ⟨admin, users, target, hrequire, hfind, hother, happly⟩ := route_done h htables
  have hid := (UsersTable.getById_eq_some.mp hfind).2
  have hloaded : db.users.getById userId = some target := by
    rw [← AdminRouter.getById_of_requireRole hrequire (hid ▸ hother)]
    exact hfind
  obtain ⟨-, profile, -, hresolution⟩ :=
    getCurrentDbUser_cases (requireRole_eq_ok.mp hrequire).1
  have hown := RowChange.applyAll_resolving hresolution
  have hload : Session.load ⟨admin, RowChange.resolving db.users admin, request.tick,
      action, userId, none⟩ db.users = .ok ⟨admin, RowChange.resolving db.users admin,
        request.tick, action, userId, some target⟩ := by
    rw [Session.load, if_neg (hid ▸ hother), UserService.getUserById_eq_ok.mpr hloaded]
    rfl
  have hwrite : Session.write ⟨admin, RowChange.resolving db.users admin, request.tick,
      action, userId, some target⟩ target db.users = .ok db'.users :=
    bind_eq_ok.mpr ⟨users, hown, happly⟩
  simp [run, step, start, put, hrequire, hload, hwrite, Except.toOption]

/-! ## Which sessions are open -/

def IsOpen (s : AdminSessions) (i : Nat) (session : Session) : Prop :=
  s.sessions[i]? = some (some session)

variable {i k : Nat} {session new : Session}

theorem isOpen_closed (h : (s.put i none).IsOpen k session) :
    k ≠ i ∧ s.IsOpen k session := by
  unfold IsOpen put at h
  dsimp only at h
  rcases getElem?_set_new h with ⟨-, hnone⟩ | hother
  · cases hnone
  · exact hother

theorem isOpen_put (h : (s.put i (some new)).IsOpen k session) :
    k = i ∧ session = new ∨ s.IsOpen k session := by
  unfold IsOpen put at h
  dsimp only at h
  rcases getElem?_set_new h with ⟨hsame, hnew⟩ | ⟨-, hold⟩
  · exact .inl ⟨hsame, Option.some.inj hnew⟩
  · exact .inr hold

theorem isOpen_append
    (h : IsOpen { s with sessions := s.sessions ++ [some new] } k session) :
    k = s.sessions.length ∧ session = new ∨ s.IsOpen k session := by
  unfold IsOpen at h
  dsimp only at h
  rcases getElem?_append_new h with hold | ⟨hlast, hnew⟩
  · exact .inr hold
  · exact .inl ⟨hlast, Option.some.inj hnew⟩

theorem adminStands_commit :
    s.adminStands (.commit i) = true ↔
      ∀ session, s.IsOpen i session → session.stands s.users = true := by
  unfold IsOpen
  simp only [adminStands]
  cases s.sessions[i]? with
  | none => simp
  | some open? => cases open? <;> simp

/-! ## The invariants -/

/-- No session is about to write to its own admin's record. -/
def Aimed (s : AdminSessions) : Prop :=
  ∀ i session target, s.IsOpen i session → session.target = some target →
    target.id ≠ session.admin.id

theorem Aimed.step (h : s.Aimed) (hstep : s.step env e = some s') : s'.Aimed := by
  intro k session target hopen htarget
  cases step_cases hstep with
  | admitted auth tick action userId admin users admits =>
      rcases isOpen_append hopen with ⟨-, rfl⟩ | hopen
      · cases htarget
      · exact h k session target hopen htarget
  | refused => exact h k session target hopen htarget
  | loaded i opened _ isOpen loads =>
      rcases isOpen_put hopen with ⟨-, rfl⟩ | hopen
      · obtain ⟨loaded, -, hother, rfl⟩ := Session.load_ok loads
        obtain rfl := Option.some.inj htarget
        exact hother
      · exact h k session target hopen htarget
  | closed e i => exact h k session target (isOpen_closed hopen).2 htarget
  | committed i opened aimed users isOpen =>
      exact h k session target (isOpen_closed hopen).2 htarget

theorem HasActiveAdmin.step (hadmin : HasActiveAdmin s.users) (haimed : s.Aimed)
    (hstands : s.adminStands e = true) (hstep : s.step env e = some s') :
    HasActiveAdmin s'.users := by
  cases step_cases hstep with
  | admitted | refused | loaded | closed => exact hadmin
  | committed i session target users isOpen aimed writes =>
      exact Session.write_keeps_admin (adminStands_commit.mp hstands session isOpen)
        (haimed i session target isOpen aimed) writes

/-- At most one session is open, and the rows are those it was opened on. -/
structure Serial (env : Env) (s : AdminSessions) : Prop where
  fresh : ∀ i session, s.IsOpen i session → session.Fresh env s.users
  single : ∀ i k session other, s.IsOpen i session → s.IsOpen k other → k = i

theorem Serial.stands (h : Serial env s) (e : Event) : s.adminStands e = true := by
  cases e with
  | commit i =>
      exact adminStands_commit.mpr fun session hopen => (h.fresh i session hopen).stands
  | authenticate | load | rollback => rfl

theorem Serial.step (h : Serial env s) (halone : s.oneAtATime e = true)
    (hstep : s.step env e = some s') : Serial env s' := by
  cases step_cases hstep with
  | admitted auth tick action userId admin users admits =>
      have hnone (k : Nat) (session : Session) : ¬ s.IsOpen k session := by
        intro hopen
        have hclosed := List.all_eq_true.mp halone _ (List.mem_of_getElem? hopen)
        simp at hclosed
      constructor
      · intro k session hopen
        rcases isOpen_append hopen with ⟨-, rfl⟩ | hopen
        · exact ⟨auth, users, admits, rfl⟩
        · exact absurd hopen (hnone k session)
      · intro i k session other hi hk
        rcases isOpen_append hi with ⟨hi, -⟩ | hi
        · rcases isOpen_append hk with ⟨hk, -⟩ | hk
          · rw [hi, hk]
          · exact absurd hk (hnone k other)
        · exact absurd hi (hnone i session)
  | refused => exact h
  | loaded j opened new isOpen loads =>
      have hfresh := h.fresh j opened isOpen
      obtain ⟨target, -, -, rfl⟩ := Session.load_ok loads
      have hwas (k : Nat) (session : Session)
          (hopen : (s.put j (some { opened with target := some target })).IsOpen k
            session) : ∃ before, s.IsOpen k before := by
        rcases isOpen_put hopen with ⟨rfl, -⟩ | hopen
        · exact ⟨opened, isOpen⟩
        · exact ⟨session, hopen⟩
      constructor
      · intro k session hopen
        rcases isOpen_put hopen with ⟨-, rfl⟩ | hopen
        · exact hfresh
        · exact h.fresh k session hopen
      · intro i k session other hi hk
        obtain ⟨before, hi⟩ := hwas i session hi
        obtain ⟨before', hk⟩ := hwas k other hk
        exact h.single i k before before' hi hk
  | closed e j =>
      constructor
      · intro k session hopen
        exact h.fresh k session (isOpen_closed hopen).2
      · intro i k session other hi hk
        exact h.single i k session other (isOpen_closed hi).2 (isOpen_closed hk).2
  | committed j opened target users isOpen aimed writes =>
      -- The session that commits was the only one open, so no stale one is left.
      have hnone (k : Nat) (session : Session) : ¬ (s.put j none).IsOpen k session := by
        intro hopen
        obtain ⟨hother, hopen⟩ := isOpen_closed hopen
        exact hother (h.single j k opened session isOpen hopen)
      exact ⟨fun k session hopen => absurd hopen (hnone k session),
        fun i k session other hi => absurd hi (hnone i session)⟩

/--
An active administrator remains as long as every commit finds the acting admin
still one, and so in particular when requests are handled one at a time.
-/
theorem active_admin_remains {users : UsersTable} {events : List Event}
    (hadmin : HasActiveAdmin users)
    (hrun : run (step env) (start users) events = some s) :
    (Along (step env) (fun s e => s.adminStands e = true) (start users) events →
      HasActiveAdmin s.users) ∧
    (Along (step env) (fun s e => s.oneAtATime e = true) (start users) events →
      HasActiveAdmin s.users) := by
  have haimed : (start users).Aimed := fun i session target hopen => by
    simp [IsOpen, start] at hopen
  constructor
  · intro hstands
    have hstep (s : AdminSessions) (e : Event) (s' : AdminSessions)
        (h : HasActiveAdmin s.users ∧ s.Aimed) (hguard : s.adminStands e = true)
        (hs : s.step env e = some s') : HasActiveAdmin s'.users ∧ s'.Aimed :=
      ⟨h.1.step h.2 hguard hs, h.2.step hs⟩
    exact (run_invariant_along hstep ⟨hadmin, haimed⟩ hstands hrun).1
  · intro halone
    have hstep (s : AdminSessions) (e : Event) (s' : AdminSessions)
        (h : (HasActiveAdmin s.users ∧ s.Aimed) ∧ Serial env s)
        (hguard : s.oneAtATime e = true) (hs : s.step env e = some s') :
        (HasActiveAdmin s'.users ∧ s'.Aimed) ∧ Serial env s' :=
      ⟨⟨h.1.1.step h.1.2 (h.2.stands e) hs, h.1.2.step hs⟩, h.2.step hguard hs⟩
    have hserial : Serial env (start users) :=
      ⟨fun i session hopen => by simp [IsOpen, start] at hopen,
        fun i k session other hopen => by simp [IsOpen, start] at hopen⟩
    exact (run_invariant_along hstep ⟨⟨hadmin, haimed⟩, hserial⟩ halone hrun).1.1

/-! ## Alice and Bob block each other -/

def blockEachOther : List Event :=
  [.authenticate (exampleRequest "alice" ["admins"]) (exampleTick 100) (.block false) 2,
    .authenticate (exampleRequest "bob" ["admins"]) (exampleTick 101) (.block false) 1,
    .load 0, .load 1, .commit 0]

theorem alice_remains :
    ∃ s, run (step exampleEnv) (start (AdminRouter.aliceAndBob .admin))
        (blockEachOther ++ [.rollback 1]) = some s ∧ HasActiveAdmin s.users := by
  obtain ⟨s, hrun, -⟩ := Option.map_eq_some_iff.mp (by decide +kernel :
    (run (step exampleEnv) (start (AdminRouter.aliceAndBob .admin))
      (blockEachOther ++ [.rollback 1])).map (fun _ => ()) = some ())
  exact ⟨s, hrun, (active_admin_remains (by decide +kernel) hrun).1
    (by decide +kernel)⟩

theorem both_admins_blocked :
    HasActiveAdmin (start (AdminRouter.aliceAndBob .admin)).users ∧
      ∃ s, run (step exampleEnv) (start (AdminRouter.aliceAndBob .admin))
        (blockEachOther ++ [.commit 1]) = some s ∧ ¬ HasActiveAdmin s.users := by
  refine ⟨by decide +kernel, ?_⟩
  obtain ⟨s, hrun, hnone⟩ := Option.map_eq_some_iff.mp (by decide +kernel :
    (run (step exampleEnv) (start (AdminRouter.aliceAndBob .admin))
      (blockEachOther ++ [.commit 1])).map (fun s => decide (HasActiveAdmin s.users)) =
      some false)
  exact ⟨s, hrun, of_decide_eq_false hnone⟩

end AdminSessions

end IsolatedEnv.Backend
