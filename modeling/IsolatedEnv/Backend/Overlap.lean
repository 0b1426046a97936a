import IsolatedEnv.Backend.AdminSessions
import IsolatedEnv.Backend.Effects
import IsolatedEnv.Backend.Users.FirstLogin

/-!
# Requests of all subjects at once

Every request has a session of its own, at READ COMMITTED, from the first SELECT of
`get_current_db_user` to its commit.  What it has read may be out of date when it writes; its
UPDATEs carry the columns in which an object has changed since it was loaded.  A row it has
written stays locked until the commit, so that a write and its commit are one event; otherwise
locks only take schedules away, and they are left out.
-/

namespace IsolatedEnv.Backend

open IsolatedEnv.Foundation

/-! ## What a route does with the records -/

inductive Purpose where
  | reads
  | deletesSelf
  | changes (action : AdminAction) (userId : Uuid)

/-- `none` when the parameters fail their validation. -/
def UserRoute.purpose : UserRoute → Option Purpose
  | getMe | getRole | freeContent | paidContent => some .reads
  | deleteSelf => some .deletesSelf
  | listUsers params => params.map fun _ => .reads
  | listUsersV2 params => params.map fun _ => .reads
  | listAuditLog params => params.map fun _ => .reads
  | resetPassword params => params.map fun _ => .reads
  | changeRole params => params.map fun (userId, newRole) => .changes (.changeRole newRole) userId
  | blockUser params => params.map fun (userId, isActive) => .changes (.block isActive) userId
  | deleteUser params => params.map fun userId => .changes .delete userId

/-- The purpose with the object it is about. -/
inductive Intent where
  | reads
  | deletesSelf
  | changes (action : AdminAction) (target : User)

def Purpose.load (acting : User) (t : UsersTable) : Purpose → Except Exc Intent
  | reads => .ok .reads
  | deletesSelf => .ok .deletesSelf
  | changes action userId =>
      if acting.id = userId then .error (.businessRuleError action.refusal)
      else (UserService.getUserById t userId).map (.changes action)

def Intent.rowChanges (acting : User) (tick : Tick) : Intent → List RowChange
  | reads => []
  | deletesSelf => [.delete acting.id]
  | changes action target => [action.change acting target tick]

/-- The object that the dependency returns: only an upsert refreshes it. -/
def Way.object (env : Env) (providerId : String) (profile : Profile) (row : User) : Way → User
  | known user => (syncColumns env profile user).apply user
  | linked user => (linkColumns env providerId profile user).apply user
  | missing => row

/-! ## Requests under way -/

inductive RequestPhase where
  | begun
  | unknown (profile : Profile)
  | found (profile : Profile) (way : Way)
  | entered (profile : Profile) (way : Way) (acting : User) (intent : Intent)
  | closed

structure OpenRequest where
  auth : AuthRequest
  tick : Tick
  route : UserRoute
  phase : RequestPhase

namespace OpenRequest

/-- The rest of the dependencies, the rate limiter apart, and what the route loads. -/
def enter (env : Env) (t : UsersTable) (r : OpenRequest) (profile : Profile) (way : Way) :
    Except Exc RequestPhase := do
  let (row, _) ← databaseUnavailable
    (way.write env (r.auth.providerId env) profile r.tick t)
  let acting := way.object env (r.auth.providerId env) profile row
  if !acting.isActive then .error accountBlocked
  else if !(r.route.gate.all fun role => allowedRole [role] acting.role) then
    .error insufficientPermissions
  else
    match r.route.purpose with
    | none => .error unprocessable
    | some purpose => (purpose.load acting t).map (.entered profile way acting)

/-- The next statements. -/
def advance (env : Env) (t : UsersTable) (r : OpenRequest) : Option RequestPhase :=
  match r.phase with
  | .begun =>
      match r.auth.profile env with
      | .error _ => some .closed
      | .ok profile =>
          match t.getByProviderId (r.auth.providerId env) with
          | some user => some (.found profile (.known user))
          | none => some (.unknown profile)
  | .unknown profile => some (.found profile (.byEmail t profile.email))
  | .found profile way => some ((r.enter env t profile way).toOption.getD .closed)
  | .entered .. | .closed => none

/-- All that the request writes. -/
def write (env : Env) (t : UsersTable) (r : OpenRequest) (profile : Profile) (way : Way)
    (acting : User) (intent : Intent) : Except Exc UsersTable := do
  let (_, t') ← way.write env (r.auth.providerId env) profile r.tick t
  RowChange.applyAll (intent.rowChanges acting r.tick) t'

/-- The table after the commit. -/
def settle (env : Env) (t : UsersTable) (r : OpenRequest) : Option UsersTable :=
  match r.phase with
  | .entered profile way acting intent =>
      some ((r.write env t profile way acting intent).toOption.getD t)
  | _ => none

def isClosed (r : OpenRequest) : Bool :=
  match r.phase with
  | .closed => true
  | _ => false

end OpenRequest

/-- The committed records, and the requests in the order in which they came. -/
structure Overlap where
  users : UsersTable
  requests : List OpenRequest

namespace Overlap

/-- `fail` is an exception at any point. -/
inductive Event where
  | arrive (auth : AuthRequest) (tick : Tick) (route : UserRoute)
  | work (i : Nat)
  | commit (i : Nat)
  | fail (i : Nat)

def start (users : UsersTable) : Overlap := ⟨users, []⟩

def setPhase (s : Overlap) (i : Nat) (r : OpenRequest) (phase : RequestPhase) : Overlap :=
  { s with requests := s.requests.set i { r with phase := phase } }

def step (env : Env) (s : Overlap) : Event → Option Overlap
  | .arrive auth tick route =>
      some { s with requests := s.requests ++ [⟨auth, tick, route, .begun⟩] }
  | .work i => do
      let r ← s.requests[i]?
      let phase ← r.advance env s.users
      some (s.setPhase i r phase)
  | .commit i => do
      let r ← s.requests[i]?
      let users ← r.settle env s.users
      some { s.setPhase i r .closed with users := users }
  | .fail i => do
      let r ← s.requests[i]?
      if r.isClosed then none else some (s.setPhase i r .closed)

end Overlap

/-! ## Who may write what -/

inductive UserColumn where
  | providerId
  | email
  | name
  | role
  | isActive
  | roleChangedAt
  | roleChangedBy
  | createdAt

def UserColumn.Same (u v : User) : UserColumn → Prop
  | providerId => v.providerId = u.providerId
  | email => v.email = u.email
  | name => v.name = u.name
  | role => v.role = u.role
  | isActive => v.isActive = u.isActive
  | roleChangedAt => v.roleChangedAt = u.roleChangedAt
  | roleChangedBy => v.roleChangedBy = u.roleChangedBy
  | createdAt => v.createdAt = u.createdAt

/-- The record that the resolution of the subject writes. -/
def Way.writesTo (providerId : String) (t : UsersTable) : Way → Option Uuid
  | known user | linked user => some user.id
  | missing => (t.getByProviderId providerId).map User.id

/--
Only a link by email writes `provider_id`.  An empty claim writes nothing, and the role is
written for a request with groups; the upsert writes the profile in any case.
-/
def Way.mayWrite (profile : Profile) : Way → UserColumn → Bool
  | linked _, .providerId => true
  | known _, .email => profile.email ≠ ""
  | known _, .name | linked _, .name => profile.name ≠ ""
  | known _, .role | linked _, .role => profile.groups.isSome
  | missing, .email | missing, .name | missing, .role => true
  | _, _ => false

def AdminAction.mayWrite : AdminAction → UserColumn → Bool
  | changeRole _, .role => true
  | block _, .isActive => true
  | changeRole _, .roleChangedAt | changeRole _, .roleChangedBy => true
  | block _, .roleChangedAt | block _, .roleChangedBy => true
  | _, _ => false

/-- What the route itself does to the record. -/
def Intent.actionOn (id : Uuid) : Intent → Option AdminAction
  | changes action target => if target.id = id then some action else none
  | _ => none

def Intent.deletes (id : Uuid) (acting : User) : Intent → Bool
  | reads => false
  | deletesSelf => acting.id = id
  | changes .delete target => target.id = id
  | changes _ _ => false

/-- The commit of the request leaves the record there, and its column to others. -/
def OpenRequest.spares (env : Env) (t : UsersTable) (id : Uuid) (c : UserColumn)
    (r : OpenRequest) : Bool :=
  match r.phase with
  | .entered profile way acting intent =>
      !(way.writesTo (r.auth.providerId env) t = some id && way.mayWrite profile c) &&
        !(intent.actionOn id).any (·.mayWrite c) && !intent.deletes id acting
  | _ => true

/-- Every commit is of a request of that kind. -/
def Overlap.Commits (kind : UsersTable → OpenRequest → Bool) (s : Overlap) :
    Overlap.Event → Prop
  | .commit i => ∀ r ∈ s.requests[i]?, kind s.users r = true
  | _ => True

instance (kind : UsersTable → OpenRequest → Bool) (s : Overlap) :
    (e : Overlap.Event) → Decidable (s.Commits kind e)
  | .commit _ => inferInstanceAs (Decidable (∀ _ ∈ _, _))
  | .arrive .. | .work _ | .fail _ => isTrue trivial

/-! ## What one write leaves -/

section Writes

variable {env : Env} {t t' : UsersTable} {id : Uuid} {u user row old new : User} {tick : Tick}
  {providerId : String} {profile : Profile} {way : Way} {acting target : User} {c : UserColumn}

namespace UsersTable

theorem getById_flush (h : t.flush new = .ok t') :
    t'.getById id = if id = new.id then some new else t.getById id := by
  by_cases hid : id = new.id
  · rw [if_pos hid, getById_eq_some, mem_flush h]
    exact ⟨.inr rfl, hid.symm⟩
  · rw [if_neg hid]
    refine getById_congr fun v hv => ?_
    rw [mem_flush h]
    constructor
    · rintro (⟨hmem, -⟩ | rfl)
      · exact hmem
      · exact absurd hv.symm hid
    · exact fun hmem => .inl ⟨hmem, fun heq => hid (hv.symm.trans heq)⟩

theorem getById_save (h : t.save new tick = .ok (row, t')) :
    t'.getById id = if id = new.id then some { new with updatedAt := tick.now }
      else t.getById id := by
  obtain ⟨rfl, hflush⟩ := save_ok h
  exact getById_flush hflush

theorem getById_delete (t : UsersTable) (other : Uuid) (hid : other ≠ id) :
    (t.delete other).getById id = t.getById id := by
  refine getById_congr fun v hv => ?_
  rw [mem_delete]
  exact ⟨And.left, fun hmem => ⟨hmem, fun heq => hid (heq.symm.trans hv)⟩⟩

/-- An insert brings a new identifier. -/
theorem getById_insert (h : t.insert new = .ok t') (hu : t.getById id = some u) :
    t'.getById id = some u := by
  obtain ⟨hmem, hid⟩ := getById_eq_some.mp hu
  exact getById_eq_some.mpr ⟨(mem_insert h).mpr (.inl hmem), hid⟩

theorem update_cases {columns : Columns} (h : t.update user columns tick = .ok (row, t')) :
    t' = t ∨ ∃ current, t.getById user.id = some current ∧
      t.save (columns.apply current) tick = .ok (row, t') := by
  unfold update at h
  split at h
  · cases h
    exact .inl rfl
  · split at h
    · cases h
    · rename_i current hcurrent
      exact .inr ⟨current, hcurrent, h⟩

end UsersTable

theorem UserColumn.Same.refl (c : UserColumn) (u : User) : c.Same u u := by
  cases c <;> rfl

theorem UserColumn.Same.trans {u v w : User} (h : c.Same u v) (h' : c.Same v w) :
    c.Same u w := by
  cases c <;> exact Eq.trans h' h

/-- The trigger's column is none of these. -/
theorem UserColumn.Same.updated (h : c.Same u new) :
    c.Same u { new with updatedAt := tick.now } := by
  cases c <;> exact h

/-- The record is still there, with that column. -/
def StaysAs (id : Uuid) (c : UserColumn) (u : User) (t : UsersTable) : Prop :=
  ∃ v, t.getById id = some v ∧ c.Same u v

theorem staysAs_save (h : t.save new tick = .ok (row, t')) (hu : t.getById id = some u)
    (hsame : id = new.id → c.Same u new) : StaysAs id c u t' := by
  unfold StaysAs
  rw [UsersTable.getById_save h]
  by_cases hid : id = new.id
  · rw [if_pos hid]
    exact ⟨_, rfl, (hsame hid).updated⟩
  · rw [if_neg hid]
    exact ⟨u, hu, .refl c u⟩

/-- An object's UPDATE leaves the columns it does not send. -/
theorem staysAs_update {columns : Columns} (h : t.update user columns tick = .ok (row, t'))
    (hu : t.getById id = some u) (hsame : user.id = id → c.Same u (columns.apply u)) :
    StaysAs id c u t' := by
  rcases UsersTable.update_cases h with rfl | ⟨current, hcurrent, hsave⟩
  · exact ⟨u, hu, .refl c u⟩
  · have hid : current.id = user.id := (UsersTable.getById_eq_some.mp hcurrent).2
    refine staysAs_save hsave hu fun hnew => ?_
    have huser : user.id = id := hid.symm.trans hnew.symm
    rw [huser, hu] at hcurrent
    cases hcurrent
    exact hsame huser

theorem syncColumns_same (h : (Way.known user).mayWrite profile c = false) :
    c.Same u ((syncColumns env profile user).apply u) := by
  cases c with
  | providerId | isActive | roleChangedAt | roleChangedBy | createdAt => rfl
  | email =>
      have hempty : profile.email = "" := by simpa [Way.mayWrite] using h
      simp [UserColumn.Same, Columns.apply, syncColumns, UsersTable.differs, hempty]
  | name =>
      have hempty : profile.name = "" := by simpa [Way.mayWrite] using h
      simp [UserColumn.Same, Columns.apply, syncColumns, UsersTable.differs, hempty]
  | role =>
      have hnone : profile.groups = none := by simpa [Way.mayWrite] using h
      simp [UserColumn.Same, Columns.apply, syncColumns, Profile.jwtRole, hnone, changed]

theorem linkColumns_same (h : (Way.linked user).mayWrite profile c = false) :
    c.Same u ((linkColumns env providerId profile user).apply u) := by
  cases c with
  | providerId => cases h
  | email | isActive | roleChangedAt | roleChangedBy | createdAt => rfl
  | name =>
      have hempty : profile.name = "" := by simpa [Way.mayWrite] using h
      simp [UserColumn.Same, Columns.apply, linkColumns, hempty, changed]
  | role =>
      have hnone : profile.groups = none := by simpa [Way.mayWrite] using h
      simp [UserColumn.Same, Columns.apply, linkColumns, Profile.jwtRole, hnone, changed]

theorem Way.write_staysAs (h : way.write env providerId profile tick t = .ok (row, t'))
    (hu : t.getById id = some u)
    (hspared : way.writesTo providerId t = some id → way.mayWrite profile c = false) :
    StaysAs id c u t' := by
  cases way with
  | known user =>
      exact staysAs_update h hu fun hid => syncColumns_same (hspared (congrArg some hid))
  | linked user =>
      exact staysAs_update h hu fun hid => linkColumns_same (hspared (congrArg some hid))
  | missing =>
      rcases UsersTable.upsertFromProvider_cases h with
        ⟨found, hfound, hsave⟩ | ⟨-, -, hinsert⟩
      · refine staysAs_save hsave hu fun hid => ?_
        have hu' : found = u := by
          rw [hid, UsersTable.getById_eq_some.mpr
            ⟨(UsersTable.getByProviderId_eq_some.mp hfound).1, rfl⟩] at hu
          exact Option.some.inj hu
        have hwrites : Way.missing.mayWrite profile c = false :=
          hspared (by simp [Way.writesTo, hfound, hid])
        rw [← hu']
        cases c with
        | email | name | role => cases hwrites
        | providerId | isActive | roleChangedAt | roleChangedBy | createdAt => rfl
      · exact ⟨u, UsersTable.getById_insert hinsert hu, .refl c u⟩

/-- The columns that an action leaves in its own object are those of the row. -/
theorem merge_same (h : c.Same old new) : c.Same u (old.merge new u) := by
  cases c <;> exact if_pos h

theorem AdminAction.change_same {action : AdminAction} (h : action.mayWrite c = false)
    (hchange : action.change acting target tick = .update target new) : c.Same target new := by
  cases action with
  | changeRole newRole =>
      cases hchange
      cases c with
      | role | roleChangedAt | roleChangedBy => cases h
      | providerId | email | name | isActive | createdAt => rfl
  | block isActive =>
      cases hchange
      cases c with
      | isActive | roleChangedAt | roleChangedBy => cases h
      | providerId | email | name | role | createdAt => rfl
  | delete => cases hchange

/-- What the change of an object does to its row, whatever the row is by now. -/
theorem RowChange.getById_apply_update (h : (update old new).apply t = .ok t')
    (hu : t.getById id = some u) :
    t'.getById id = if old.id = id then some (old.merge new u) else some u := by
  unfold apply at h
  cases hcurrent : t.getById old.id with
  | none => simp [hcurrent] at h
  | some current =>
      simp only [hcurrent] at h
      have hid : (old.merge new current).id = old.id :=
        (UsersTable.getById_eq_some.mp hcurrent).2
      rw [UsersTable.getById_flush h, hid]
      by_cases hold : old.id = id
      · rw [hold, hu] at hcurrent
        cases hcurrent
        rw [if_pos hold.symm, if_pos hold]
      · rw [if_neg (Ne.symm hold), if_neg hold, hu]

theorem AdminAction.change_cases (action : AdminAction) (acting target : User) (tick : Tick) :
    (∃ new, action.change acting target tick = .update target new) ∨
      action = .delete ∧ action.change acting target tick = .delete target.id := by
  cases action with
  | changeRole newRole | block isActive => exact .inl ⟨_, rfl⟩
  | delete => exact .inr ⟨rfl, rfl⟩

theorem Intent.staysAs {intent : Intent}
    (h : RowChange.applyAll (intent.rowChanges acting tick) t = .ok t')
    (hu : t.getById id = some u)
    (haction : ∀ action, intent.actionOn id = some action → action.mayWrite c = false)
    (hdelete : intent.deletes id acting = false) : StaysAs id c u t' := by
  cases intent with
  | reads =>
      cases h
      exact ⟨u, hu, .refl c u⟩
  | deletesSelf =>
      rw [rowChanges, RowChange.applyAll_singleton] at h
      cases h
      exact ⟨u, (t.getById_delete acting.id (of_decide_eq_false hdelete)).trans hu, .refl c u⟩
  | changes action target =>
      rw [rowChanges, RowChange.applyAll_singleton] at h
      rcases action.change_cases acting target tick with ⟨new, hchange⟩ | ⟨rfl, hchange⟩
      · rw [hchange] at h
        have hfind := RowChange.getById_apply_update h hu
        by_cases hid : target.id = id
        · rw [if_pos hid] at hfind
          have hspared : action.mayWrite c = false := haction action (if_pos hid)
          exact ⟨_, hfind, merge_same (AdminAction.change_same hspared hchange)⟩
        · rw [if_neg hid] at hfind
          exact ⟨u, hfind, .refl c u⟩
      · rw [hchange] at h
        cases h
        exact ⟨u, (t.getById_delete target.id (of_decide_eq_false hdelete)).trans hu, .refl c u⟩

end Writes

/-! ## What one event does -/

section Events

variable {env : Env} {s s' : Overlap} {e : Overlap.Event} {r : OpenRequest} {t t' : UsersTable}
  {id : Uuid} {c : UserColumn} {u : User}

theorem OpenRequest.settle_eq_some (h : r.settle env t = some t') :
    ∃ profile way acting intent, r.phase = .entered profile way acting intent ∧
      (t' = t ∨ ∃ row t₁,
        way.write env (r.auth.providerId env) profile r.tick t = .ok (row, t₁) ∧
          RowChange.applyAll (intent.rowChanges acting r.tick) t₁ = .ok t') := by
  unfold settle at h
  split at h
  · rename_i profile way acting intent hphase
    refine ⟨profile, way, acting, intent, hphase, ?_⟩
    cases hwrite : r.write env t profile way acting intent with
    | error e =>
        rw [hwrite] at h
        exact .inl (Option.some.inj h).symm
    | ok written =>
        rw [hwrite] at h
        obtain rfl := Option.some.inj h
        obtain ⟨⟨row, t₁⟩, hown, happly⟩ := bind_eq_ok.mp hwrite
        exact .inr ⟨row, t₁, hown, happly⟩
  · cases h

theorem OpenRequest.settle_staysAs (h : r.settle env t = some t')
    (hu : t.getById id = some u) (hspared : r.spares env t id c = true) :
    StaysAs id c u t' := by
  obtain ⟨profile, way, acting, intent, hphase, rfl | ⟨row, t₁, hown, happly⟩⟩ :=
    settle_eq_some h
  · exact ⟨u, hu, .refl c u⟩
  · simp only [spares, hphase, Bool.and_eq_true, Bool.not_eq_true'] at hspared
    obtain ⟨⟨hwrites, haction⟩, hdelete⟩ := hspared
    obtain ⟨v, hv, hsame⟩ : StaysAs id c u t₁ := by
      refine way.write_staysAs hown hu fun hid => ?_
      simpa [hid] using hwrites
    obtain ⟨w, hw, hsame'⟩ : StaysAs id c v t' := by
      refine Intent.staysAs happly hv (fun action hon => ?_) hdelete
      simpa [hon] using haction
    exact ⟨w, hw, hsame.trans hsame'⟩

namespace Overlap

/-- What an event can do. -/
inductive Stepped (env : Env) (s : Overlap) : Event → Overlap → Prop
  | arrived (auth : AuthRequest) (tick : Tick) (route : UserRoute) :
      Stepped env s (.arrive auth tick route)
        { s with requests := s.requests ++ [⟨auth, tick, route, .begun⟩] }
  | moved (e : Event) (i : Nat) (r : OpenRequest) (phase : RequestPhase)
      (isOpen : s.requests[i]? = some r)
      (next : r.advance env s.users = some phase ∨ phase = .closed) :
      Stepped env s e (s.setPhase i r phase)
  | committed (i : Nat) (r : OpenRequest) (users : UsersTable)
      (isOpen : s.requests[i]? = some r) (settles : r.settle env s.users = some users) :
      Stepped env s (.commit i) { s.setPhase i r .closed with users := users }

theorem step_cases (h : s.step env e = some s') : Stepped env s e s' := by
  cases e with
  | arrive auth tick route =>
      cases h
      exact .arrived auth tick route
  | work i =>
      obtain ⟨r, hopen, h⟩ := Option.bind_eq_some_iff.mp h
      obtain ⟨phase, hnext, h⟩ := Option.bind_eq_some_iff.mp h
      cases h
      exact .moved _ i r phase hopen (.inl hnext)
  | commit i =>
      obtain ⟨r, hopen, h⟩ := Option.bind_eq_some_iff.mp h
      obtain ⟨users, hsettles, h⟩ := Option.bind_eq_some_iff.mp h
      cases h
      exact .committed i r users hopen hsettles
  | fail i =>
      obtain ⟨r, hopen, h⟩ := Option.bind_eq_some_iff.mp h
      split at h
      · cases h
      · cases h
        exact .moved _ i r .closed hopen (.inr rfl)

theorem step_staysAs (h : StaysAs id c u s.users)
    (hspared : s.Commits (fun t r => r.spares env t id c) e) (hstep : s.step env e = some s') :
    StaysAs id c u s'.users := by
  cases step_cases hstep with
  | arrived | moved => exact h
  | committed i r users isOpen settles =>
      obtain ⟨v, hv, hsame⟩ := h
      obtain ⟨w, hw, hsame'⟩ := r.settle_staysAs settles hv (hspared r isOpen)
      exact ⟨w, hw, hsame.trans hsame'⟩

end Overlap

end Events

/--
No update is lost across columns: whatever requests overlap, and however stale the rows are
that they have read, a column of a record stays as it is until a request commits whose own part
is to write that column of that record, or to delete it.
-/
theorem columns_keep_to_their_writers (env : Env) {s s' : Overlap} {events : List Overlap.Event}
    {id : Uuid} {u : User} (c : UserColumn) (hrecord : s.users.getById id = some u)
    (hspared : Along (Overlap.step env) (Overlap.Commits fun t r => r.spares env t id c) s events)
    (hrun : run (Overlap.step env) s events = some s') : StaysAs id c u s'.users :=
  run_invariant_along (fun _ _ _ h hguard hstep => Overlap.step_staysAs h hguard hstep)
    ⟨u, hrecord, .refl c u⟩ hspared hrun

/-! ## A role change overlaps with a block -/

/-- The role change of Bob's record has been loaded while he was active, the block commits. -/
def roleChangeOverlapsBlock : List Overlap.Event :=
  [.arrive (exampleRequest "alice" ["admins"]) (exampleTick 100) (.changeRole (some (2, .paid))),
    .work 0, .work 0,
    .arrive (exampleRequest "alice" ["admins"]) (exampleTick 101) (.blockUser (some (2, false))),
    .work 1, .work 1, .commit 1]

def afterBlock : Overlap :=
  (run (Overlap.step exampleEnv) (Overlap.start (AdminRouter.aliceAndBob .free))
    roleChangeOverlapsBlock).getD (Overlap.start .empty)

theorem role_change_keeps_bob_blocked : ∃ bob s, bob.isActive = false ∧
    afterBlock.users.getById 2 = some bob ∧
    run (Overlap.step exampleEnv) afterBlock [.commit 0] = some s ∧
    StaysAs 2 .isActive bob s.users := by
  obtain ⟨bob, hbob, hinactive⟩ := Option.map_eq_some_iff.mp (by decide +kernel :
    (afterBlock.users.getById 2).map User.isActive = some false)
  obtain ⟨s, hrun, -⟩ := Option.map_eq_some_iff.mp (by decide +kernel :
    (run (Overlap.step exampleEnv) afterBlock [.commit 0]).map (fun _ => ()) = some ())
  exact ⟨bob, s, hinactive, hbob, hrun,
    columns_keep_to_their_writers exampleEnv .isActive hbob (by decide +kernel) hrun⟩

/-! ## A request handled alone -/

section Alone

variable {env : Env} {t t' : UsersTable} {user row acting : User} {tick : Tick}
  {providerId : String} {profile : Profile} {way : Way} {route : UserRoute}

/-- The object is the row as flushed, but for the trigger's column. -/
theorem Way.object_eq
    (hway : ∀ user, way = .known user ∨ way = .linked user → user ∈ t.rows)
    (h : way.write env providerId profile tick t = .ok (row, t')) :
    ∃ moment, row = { way.object env providerId profile row with updatedAt := moment } := by
  have hupdate {columns : Columns} {user : User} (hmem : user ∈ t.rows)
      (h : t.update user columns tick = .ok (row, t')) :
      ∃ moment, row = { columns.apply user with updatedAt := moment } := by
    rw [update_of_mem hmem] at h
    split at h
    · rename_i hunchanged
      cases h
      exact ⟨row.updatedAt, by rw [hunchanged]; rfl⟩
    · exact ⟨tick.now, (UsersTable.save_ok h).1⟩
  cases way with
  | known user => exact hupdate (hway user (.inl rfl)) h
  | linked user => exact hupdate (hway user (.inr rfl)) h
  | missing => exact ⟨row.updatedAt, rfl⟩

theorem Way.byEmail_cases (t : UsersTable) (email : String) : Way.byEmail t email = .missing ∨
    ∃ user, t.getByEmail email = some user ∧ Way.byEmail t email = .linked user := by
  unfold byEmail
  split
  · cases hfound : t.getByEmail email with
    | none => exact .inl rfl
    | some user => exact .inr ⟨user, rfl, rfl⟩
  · exact .inl rfl

/-- The way that a request takes when it runs alone. -/
def Way.alone (t : UsersTable) (providerId email : String) : Way :=
  match t.getByProviderId providerId with
  | some user => .known user
  | none => .byEmail t email

theorem Way.alone_mem {email : String}
    (h : Way.alone t providerId email = .known user ∨
      Way.alone t providerId email = .linked user) : user ∈ t.rows := by
  unfold alone at h
  split at h
  · rename_i found hfound
    obtain rfl : found = user := by simpa using h
    exact (UsersTable.getByProviderId_eq_some.mp hfound).1
  · rcases byEmail_cases t email with hway | ⟨found, hfound, hway⟩
    · simp [hway] at h
    · rw [hway] at h
      obtain rfl : found = user := by simpa using h
      exact (UsersTable.getByEmail_eq_some.mp hfound).1

/-- What the route writes, for an object that has the identity of the acting user. -/
theorem Effect.intent {request : Request} {members : Memberships} {db db' : Database}
    {endpoint : User → Database → Outcome Answer} (h : Effect env request acting db route db')
    (object : User) (t : UsersTable)
    (hendpoint : route.endpoint env request members = some endpoint)
    (hid : object.id = acting.id) (hproviderId : object.providerId = acting.providerId)
    (hothers : ∀ id, id ≠ acting.id → t.getById id = db.users.getById id) :
    ∃ purpose intent, route.purpose = some purpose ∧ purpose.load object t = .ok intent ∧
      RowChange.applyAll (intent.rowChanges object request.tick) db.users = .ok db'.users := by
  have hloads {target : User} (action : AdminAction) (hmem : target ∈ db.users.rows)
      (hother : acting.id ≠ target.id) : Purpose.load object t (.changes action target.id) =
        .ok (.changes action target) := by
    have hfind : t.getById target.id = some target := by
      rw [hothers target.id (Ne.symm hother)]
      exact UsersTable.getById_eq_some.mpr ⟨hmem, rfl⟩
    rw [Purpose.load, if_neg (hid ▸ hother), UserService.getUserById_eq_ok.mpr hfind]
    rfl
  cases h with
  | read unaudited =>
      refine ⟨.reads, .reads, ?_, rfl, rfl⟩
      cases route with
      | getMe | getRole | freeContent | paidContent => rfl
      | listUsers params | listUsersV2 params | listAuditLog params =>
          obtain ⟨p, rfl, -⟩ := Option.map_eq_some_iff.mp hendpoint
          rfl
      | deleteSelf => cases unaudited
      | changeRole params | blockUser params | resetPassword params | deleteUser params =>
          cases unaudited
  | wrote entry change due users_eq items_eq log_eq =>
      rw [users_eq]
      cases change with
      | role target row newRole _ mem other saved =>
          refine ⟨_, _, rfl, hloads (.changeRole newRole) mem other, ?_⟩
          rw [Intent.rowChanges, RowChange.applyAll_singleton, AdminAction.change, hproviderId]
          exact RowChange.apply_save (UsersTable.getById_eq_some.mpr ⟨mem, rfl⟩) saved rfl
      | active target row isActive _ mem other saved =>
          refine ⟨_, _, rfl, hloads (.block isActive) mem other, ?_⟩
          rw [Intent.rowChanges, RowChange.applyAll_singleton, AdminAction.change, hproviderId]
          exact RowChange.apply_save (UsersTable.getById_eq_some.mpr ⟨mem, rfl⟩) saved rfl
      | password target mem => exact ⟨.reads, .reads, rfl, rfl, rfl⟩
      | delete target mem other =>
          refine ⟨_, _, rfl, hloads .delete mem other, ?_⟩
          rw [Intent.rowChanges, RowChange.applyAll_singleton]
          rfl
      | deleteSelf =>
          refine ⟨.deletesSelf, .deletesSelf, rfl, rfl, ?_⟩
          rw [Intent.rowChanges, RowChange.applyAll_singleton, hid]
          rfl

theorem OpenRequest.enter_alone {r : OpenRequest} {intent : Intent} {purpose : Purpose}
    (hway : ∀ user, way = .known user ∨ way = .linked user → user ∈ t.rows)
    (hwrite : way.write env (r.auth.providerId env) profile r.tick t = .ok (row, t'))
    (hactive : row.isActive = true)
    (hgate : ∀ role, r.route.gate = some role → allowedRole [role] row.role = true)
    (hpurpose : r.route.purpose = some purpose)
    (hload : purpose.load (way.object env (r.auth.providerId env) profile row) t = .ok intent) :
    r.enter env t profile way =
      .ok (.entered profile way (way.object env (r.auth.providerId env) profile row) intent) := by
  obtain ⟨moment, hrow⟩ := Way.object_eq hway hwrite
  have hisActive : (way.object env (r.auth.providerId env) profile row).isActive = true := by
    rw [hrow] at hactive
    exact hactive
  have hrole : (r.route.gate.all fun role => allowedRole [role]
      (way.object env (r.auth.providerId env) profile row).role) = true := by
    cases hrequired : r.route.gate with
    | none => rfl
    | some role =>
        have hallowed := hgate role hrequired
        rw [hrow] at hallowed
        exact hallowed
  unfold enter
  rw [hwrite]
  change (if !(way.object env (r.auth.providerId env) profile row).isActive then _ else _) = _
  rw [hisActive, Bool.not_true, if_neg Bool.false_ne_true, hrole, Bool.not_true,
    if_neg Bool.false_ne_true, hpurpose]
  dsimp only
  rw [hload]
  rfl

theorem OpenRequest.advance_found {r : OpenRequest} {phase : RequestPhase}
    (hphase : r.phase = .found profile way) (h : r.enter env t profile way = .ok phase) :
    r.advance env t = some phase := by
  simp only [advance, hphase, h]
  rfl

theorem OpenRequest.settle_entered {r : OpenRequest} {intent : Intent}
    (hphase : r.phase = .entered profile way acting intent)
    (h : r.write env t profile way acting intent = .ok t') : r.settle env t = some t' := by
  simp only [settle, hphase, h]
  rfl

namespace Overlap

def alone (t : UsersTable) (r : OpenRequest) : Overlap := ⟨t, [r]⟩

theorem step_work_alone {r : OpenRequest} {phase : RequestPhase}
    (h : r.advance env t = some phase) :
    (alone t r).step env (.work 0) = some (alone t { r with phase := phase }) := by
  simp [step, alone, setPhase, h]

theorem step_commit_alone {r : OpenRequest} (h : r.settle env t = some t') :
    (alone t r).step env (.commit 0) = some (alone t' { r with phase := .closed }) := by
  simp [step, alone, setPhase, h]

/-- The SELECTs of a request that runs alone. -/
theorem run_selects_alone {r : OpenRequest} (hbegun : r.phase = .begun)
    (hprofile : r.auth.profile env = .ok profile) :
    ∃ events, run (step env) (alone t r) events = some (alone t { r with
      phase := .found profile (.alone t (r.auth.providerId env) profile.email) }) := by
  cases hfound : t.getByProviderId (r.auth.providerId env) with
  | some user =>
      have hnext : r.advance env t = some (.found profile (.known user)) := by
        simp [OpenRequest.advance, hbegun, hprofile, hfound]
      refine ⟨[.work 0], run_cons_eq_some.mpr ⟨_, step_work_alone hnext, ?_⟩⟩
      simp [Way.alone, hfound]
  | none =>
      have hnext : r.advance env t = some (.unknown profile) := by
        simp [OpenRequest.advance, hbegun, hprofile, hfound]
      refine ⟨[.work 0, .work 0], run_cons_eq_some.mpr ⟨_, step_work_alone hnext,
        run_cons_eq_some.mpr ⟨_, step_work_alone rfl, ?_⟩⟩⟩
      simp [Way.alone, hfound]

/-- With no other request under way, the records end as the route leaves them. -/
theorem handled_alone {request : Request} {members : Memberships} {db db' : Database}
    {finished : Finished Answer} (h : (route.serve env request db members).1 = .ok finished)
    (htables : finished.tables = some db') :
    ∃ events s, run (step env) (start db.users)
      (.arrive request.auth request.tick route :: events) = some s ∧ s.users = db'.users := by
  obtain ⟨acting, users, endpoint, hcurrent, hgate, hendpoint, hend⟩ := route.serve_ok h
  have heffect := UserRoute.endpoint_effect hendpoint hend htables
  obtain ⟨hlookup, hactive⟩ := getCurrentDbUser_eq_ok.mp hcurrent
  obtain ⟨profile, hprofile, hresolve⟩ := bind_eq_ok.mp hlookup
  obtain ⟨way, hway⟩ : ∃ way, way =
      Way.alone db.users (request.auth.providerId env) profile.email := ⟨_, rfl⟩
  have hmem (user : User) (hfound : way = .known user ∨ way = .linked user) :
      user ∈ db.users.rows := Way.alone_mem (hway ▸ hfound)
  have hwrite : way.write env (request.auth.providerId env) profile request.tick db.users =
      .ok (acting, users) := by
    rw [hway]
    exact write_alone.trans hresolve
  obtain ⟨moment, hrow⟩ := Way.object_eq hmem hwrite
  obtain ⟨purpose, intent, hpurpose, hload, happly⟩ := heffect.intent
    (way.object env (request.auth.providerId env) profile acting) db.users hendpoint
    (congrArg User.id hrow).symm (congrArg User.providerId hrow).symm
    fun id hid => (getCurrentDbUser_getById hcurrent (Ne.symm hid)).symm
  obtain ⟨events, hselects⟩ := run_selects_alone (t := db.users)
    (r := ⟨request.auth, request.tick, route, .begun⟩) rfl hprofile
  rw [← hway] at hselects
  have henter := OpenRequest.enter_alone
    (r := ⟨request.auth, request.tick, route, .found profile way⟩) hmem hwrite hactive
    (fun role hrole => (requireRole_eq_ok.mp (hgate role hrole)).2) hpurpose hload
  have hnext := OpenRequest.advance_found rfl henter
  have hsettle := OpenRequest.settle_entered
    (r := ⟨request.auth, request.tick, route, .entered profile way
      (way.object env (request.auth.providerId env) profile acting) intent⟩) rfl
    (bind_eq_ok.mpr ⟨(acting, users), hwrite, happly⟩)
  have hrun : run (step env) (alone db.users ⟨request.auth, request.tick, route, .begun⟩)
      (events ++ [.work 0, .commit 0]) =
        some (alone db'.users ⟨request.auth, request.tick, route, .closed⟩) :=
    run_append_eq_some.mpr ⟨_, hselects, run_cons_eq_some.mpr ⟨_, step_work_alone hnext,
      run_cons_eq_some.mpr ⟨_, step_commit_alone hsettle, rfl⟩⟩⟩
  exact ⟨_, _, run_cons_eq_some.mpr ⟨_, rfl, hrun⟩, rfl⟩

end Overlap

end Alone

end IsolatedEnv.Backend
