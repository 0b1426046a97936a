import IsolatedEnv.Backend.Users.RoleEffect
import IsolatedEnv.Foundation.Run

/-!
# The stored role over a history of group changes

A token keeps the groups that its holder was in when it was issued, and a
request stores the role of the groups it presents.  Nothing compares their age.
Group states are numbered here in the order in which they come about, and with
each write of the stored role goes the number of the state it was made from.
-/

namespace IsolatedEnv.Backend

open IsolatedEnv.Foundation

/-! ## The target and its groups -/

/-- The target of the role changes, in the database and in Authentik. -/
structure TargetAccount where
  providerId : String
  account : String
  groupPk : String → String

namespace TargetAccount

variable (target : TargetAccount)

def isIn (members : Memberships) (role : UserRole) : Bool :=
  (target.groupPk role.group, target.account) ∈ members

def groupsIn (members : Memberships) : List Json :=
  ([.free, .paid, .admin].filter (target.isIn members)).map fun role =>
    .str role.group

/-- A groups list that names the role groups the target is in, and no other. -/
def presents (groups : List Json) (members : Memberships) : Bool :=
  [UserRole.free, .paid, .admin].all fun role =>
    inGroups role.group groups == target.isIn members role

/-- The role of the groups in `members`. -/
def roleIn (env : Env) (email : String) (members : Memberships) : UserRole :=
  resolveRole env email (some (target.groupsIn members))

variable {target}

theorem inGroups_groupsIn (members : Memberships) (role : UserRole) :
    inGroups role.group (target.groupsIn members) = target.isIn members role := by
  rw [Bool.eq_iff_iff, inGroups_eq_true, groupsIn, List.mem_map]
  constructor
  · rintro ⟨role', hrole', hgroup⟩
    obtain rfl := UserRole.group_injective (Json.str.inj hgroup)
    exact (List.mem_filter.mp hrole').2
  · intro hisIn
    refine ⟨role, List.mem_filter.mpr ⟨?_, hisIn⟩, rfl⟩
    cases role <;> simp

theorem resolveRole_of_presents {env : Env} {groups : List Json}
    {members : Memberships} (h : target.presents groups members = true)
    (email : String) :
    resolveRole env email (some groups) = target.roleIn env email members := by
  have hgroups (role : UserRole) :
      inGroups role.group groups =
        inGroups role.group (target.groupsIn members) := by
    rw [inGroups_groupsIn]
    have hrole := List.all_eq_true.mp h role (by cases role <;> simp)
    exact eq_of_beq hrole
  exact resolveRole_congr env email (hgroups .admin) (hgroups .paid)

end TargetAccount

/-! ## Histories -/

structure IssuedToken where
  payload : JsonObject
  version : Nat

/-- `email` is the one a request came with; a role change has none. -/
structure RoleWrite where
  version : Nat
  role : UserRole
  email : Option String
  deriving DecidableEq

structure RoleHistory where
  db : Database
  earlier : List Memberships
  members : Memberships
  tokens : List IssuedToken
  expired : List Nat
  writes : List RoleWrite

/--
`commits` is whether a request that is let in reaches the commit of its
transaction.
-/
inductive RoleEvent where
  | regroup (members : Memberships)
  | issue (payload : JsonObject)
  | expire (token : Nat)
  | visit (token : Nat) (userinfo : Reply) (tick : Tick) (commits : Bool)
  | changeRole (request : Request) (userId : Uuid) (newRole : UserRole)

/-- A request writes the role of the groups in the state recorded. -/
def RoleWrite.FromGroups (env : Env) (target : TargetAccount)
    (states : List Memberships) (w : RoleWrite) : Prop :=
  ∃ members, states[w.version]? = some members ∧
    ∀ email, w.email = some email → w.role = target.roleIn env email members

def userinfoGroups (userinfo : Reply) : Option (List Json) :=
  (fetchUserinfo userinfo).toOption.bind groupsClaim

def committed {α : Type} : Except Exc (Finished α) → Bool
  | .ok finished => finished.tables.isSome
  | .error _ => false

namespace RoleHistory

def start (db : Database) (members : Memberships) : RoleHistory :=
  ⟨db, [], members, [], [], []⟩

def states (s : RoleHistory) : List Memberships := s.earlier ++ [s.members]

def version (s : RoleHistory) : Nat := s.earlier.length

def storedRole (s : RoleHistory) (target : TargetAccount) : Option UserRole :=
  (s.db.users.getByProviderId target.providerId).map User.role

def regroup (s : RoleHistory) (members : Memberships) : RoleHistory :=
  { s with earlier := s.earlier ++ [s.members], members := members }

/-- The userinfo knows the present groups, the token those at its issue. -/
def presentedVersion (s : RoleHistory) (env : Env) (issued : IssuedToken)
    (userinfo : Reply) : Nat :=
  if AuthRequest.tokenEmail env ⟨issued.payload, userinfo⟩ = "" ∧
      (userinfoGroups userinfo).isSome then s.version
  else issued.version

def visit (s : RoleHistory) (env : Env) (issued : IssuedToken) (userinfo : Reply)
    (tick : Tick) (commits : Bool) : RoleHistory :=
  match AuthRequest.profile env ⟨issued.payload, userinfo⟩,
    getCurrentDbUser env ⟨issued.payload, userinfo⟩ tick s.db.users with
  | .ok profile, .ok (user, users) =>
      if commits then
        { s with
          db := s.db.setUsers users
          writes := s.writes ++
            [⟨s.presentedVersion env issued userinfo, user.role,
              some profile.email⟩] }
      else s
  | _, _ => s

def changeRole (s : RoleHistory) (env : Env) (request : Request) (userId : Uuid)
    (newRole : UserRole) : RoleHistory :=
  let outcome := AdminRouter.changeRoleRoute env request userId newRole s.db s.members
  { s.regroup outcome.2 with
    db := settle outcome.1 s.db
    writes := s.writes ++
      if committed outcome.1 then [⟨s.version + 1, newRole, none⟩] else [] }

def step (env : Env) (target : TargetAccount) (s : RoleHistory) :
    RoleEvent → Option RoleHistory
  | .regroup members => some (s.regroup members)
  | .issue payload =>
      if textClaim env.python payload "sub" "" = target.providerId ∧
          (groupsClaim payload).any (target.presents · s.members) = true then
        some { s with tokens := s.tokens ++ [⟨payload, s.version⟩] }
      else none
  | .expire token => some { s with expired := token :: s.expired }
  | .visit token userinfo tick commits =>
      match s.tokens[token]? with
      | none => none
      | some issued =>
          if token ∉ s.expired ∧
              (userinfoGroups userinfo).all (target.presents · s.members) = true then
            some (s.visit env issued userinfo tick commits)
          else none
  | .changeRole request userId newRole =>
      if (s.db.users.getById userId).map User.providerId = some target.providerId then
        some (s.changeRole env request userId newRole)
      else none

/-- The event presents groups from before a state that has been written from. -/
def presentsOlder (env : Env) (s : RoleHistory) : RoleEvent → Bool
  | .visit token userinfo _ _ =>
      s.tokens[token]?.any fun issued => s.writes.any fun w =>
        decide (s.presentedVersion env issued userinfo < w.version)
  | _ => false

/-- The stored role changes at an event that presents older groups. -/
def Undoes (env : Env) (target : TargetAccount) (s : RoleHistory)
    (e : RoleEvent) : Prop :=
  s.presentsOlder env e = true ∧ ∃ s', step env target s e = some s' ∧
    s'.storedRole target ≠ s.storedRole target

/-- The event is a request that goes through, with groups that give `role`. -/
def Stores (env : Env) (target : TargetAccount) (s : RoleHistory) (e : RoleEvent)
    (role : UserRole) : Prop :=
  ∃ token userinfo tick issued profile admitted members,
    e = .visit token userinfo tick true ∧ s.tokens[token]? = some issued ∧
    token ∉ s.expired ∧
    (userinfoGroups userinfo).all (target.presents · s.members) = true ∧
    AuthRequest.profile env ⟨issued.payload, userinfo⟩ = .ok profile ∧
    getCurrentDbUser env ⟨issued.payload, userinfo⟩ tick s.db.users = .ok admitted ∧
    s.states[s.presentedVersion env issued userinfo]? = some members ∧
    role = target.roleIn env profile.email members

/-! ## What each event does to the stored role -/

variable {env : Env} {target : TargetAccount} {s s' : RoleHistory}
  {issued : IssuedToken} {userinfo : Reply} {tick : Tick} {commits : Bool}

/-- Everything an event can do. -/
inductive Stepped (env : Env) (target : TargetAccount) (s : RoleHistory) :
    RoleEvent → RoleHistory → Prop
  | regroup (members : Memberships) :
      Stepped env target s (.regroup members) (s.regroup members)
  | issue (payload : JsonObject)
      (subject : textClaim env.python payload "sub" "" = target.providerId)
      (groups : (groupsClaim payload).any (target.presents · s.members) = true) :
      Stepped env target s (.issue payload)
        { s with tokens := s.tokens ++ [⟨payload, s.version⟩] }
  | expire (token : Nat) :
      Stepped env target s (.expire token) { s with expired := token :: s.expired }
  | visit (token : Nat) (userinfo : Reply) (tick : Tick) (commits : Bool)
      (issued : IssuedToken) (found : s.tokens[token]? = some issued)
      (valid : token ∉ s.expired)
      (current : (userinfoGroups userinfo).all (target.presents · s.members) = true) :
      Stepped env target s (.visit token userinfo tick commits)
        (s.visit env issued userinfo tick commits)
  | changeRole (request : Request) (userId : Uuid) (newRole : UserRole)
      (named : (s.db.users.getById userId).map User.providerId =
        some target.providerId) :
      Stepped env target s (.changeRole request userId newRole)
        (s.changeRole env request userId newRole)

theorem step_cases {e : RoleEvent} (h : s.step env target e = some s') :
    Stepped env target s e s' := by
  cases e with
  | regroup members =>
      cases h
      exact .regroup members
  | issue payload =>
      simp only [step, Option.ite_none_right_eq_some, Option.some.injEq] at h
      obtain ⟨⟨hsubject, hgroups⟩, rfl⟩ := h
      exact .issue payload hsubject hgroups
  | expire token =>
      cases h
      exact .expire token
  | visit token userinfo tick commits =>
      cases hfound : s.tokens[token]? with
      | none => simp [step, hfound] at h
      | some issued =>
          simp only [step, hfound, Option.ite_none_right_eq_some,
            Option.some.injEq] at h
          obtain ⟨⟨hvalid, hcurrent⟩, rfl⟩ := h
          exact .visit token userinfo tick commits issued hfound hvalid hcurrent
  | changeRole request userId newRole =>
      simp only [step, Option.ite_none_right_eq_some, Option.some.injEq] at h
      obtain ⟨hnamed, rfl⟩ := h
      exact .changeRole request userId newRole hnamed

theorem states_version : s.states[s.version]? = some s.members := by
  simp [version, states]

/-- The token was issued to the target, in one of the group states. -/
structure IsOf (env : Env) (target : TargetAccount) (states : List Memberships)
    (issued : IssuedToken) : Prop where
  subject : textClaim env.python issued.payload "sub" "" = target.providerId
  groups : ∃ members groups, states[issued.version]? = some members ∧
    groupsClaim issued.payload = some groups ∧ target.presents groups members = true

/-- What a request presents are the groups of the state it is recorded with. -/
theorem IsOf.presented (h : IsOf env target s.states issued)
    (huserinfo : (userinfoGroups userinfo).all (target.presents · s.members) = true)
    {profile : Profile}
    (hprofile : AuthRequest.profile env ⟨issued.payload, userinfo⟩ = .ok profile) :
    ∃ members groups, profile.groups = some groups ∧
      s.states[s.presentedVersion env issued userinfo]? = some members ∧
      target.presents groups members = true := by
  obtain ⟨members, groups, hstate, hclaim, hpresents⟩ := h.groups
  unfold AuthRequest.profile at hprofile
  dsimp only at hprofile
  split at hprofile
  · rename_i hemail
    obtain ⟨data, hfetch, hok⟩ := bind_eq_ok.mp hprofile
    obtain rfl := Except.ok.inj hok
    have hasked : userinfoGroups userinfo = groupsClaim data := by
      simp [userinfoGroups, hfetch, Except.toOption]
    cases hdata : groupsClaim data with
    | none =>
        refine ⟨members, groups, by simp [hclaim], ?_, hpresents⟩
        rw [presentedVersion, if_neg (by simp [hasked, hdata])]
        exact hstate
    | some current =>
        refine ⟨s.members, current, by simp, ?_, ?_⟩
        · rw [presentedVersion, if_pos ⟨hemail, by simp [hasked, hdata]⟩]
          exact states_version
        · rw [hasked, hdata] at huserinfo
          exact huserinfo
  · rename_i hemail
    obtain rfl := Except.ok.inj hprofile
    refine ⟨members, groups, hclaim, ?_, hpresents⟩
    rw [presentedVersion, if_neg fun h => hemail h.1]
    exact hstate

theorem IsOf.resolved (h : IsOf env target s.states issued)
    (huserinfo : (userinfoGroups userinfo).all (target.presents · s.members) = true)
    {profile : Profile} {user : User} {users : UsersTable}
    (hprofile : AuthRequest.profile env ⟨issued.payload, userinfo⟩ = .ok profile)
    (hcurrent : getCurrentDbUser env ⟨issued.payload, userinfo⟩ tick s.db.users =
      .ok (user, users)) :
    users.getByProviderId target.providerId = some user ∧
      ∃ members, s.states[s.presentedVersion env issued userinfo]? = some members ∧
        user.role = target.roleIn env profile.email members := by
  obtain ⟨-, profile', hprofile', hresolution⟩ := getCurrentDbUser_cases hcurrent
  obtain rfl := Except.ok.inj (hprofile.symm.trans hprofile')
  obtain ⟨members, groups, hgroups, hstate, hpresents⟩ :=
    h.presented huserinfo hprofile
  constructor
  · rw [UsersTable.getByProviderId_eq_some, hresolution.mem_iff]
    exact ⟨.inr rfl, hresolution.providerId_eq.trans h.subject⟩
  · refine ⟨members, hstate, ?_⟩
    rw [hresolution.role_eq hgroups]
    exact TargetAccount.resolveRole_of_presents hpresents profile.email

theorem visit_cases (env : Env) (s : RoleHistory) (issued : IssuedToken)
    (userinfo : Reply) (tick : Tick) (commits : Bool) :
    s.visit env issued userinfo tick commits = s ∨
      commits = true ∧ ∃ profile user users,
        AuthRequest.profile env ⟨issued.payload, userinfo⟩ = .ok profile ∧
        getCurrentDbUser env ⟨issued.payload, userinfo⟩ tick s.db.users =
          .ok (user, users) ∧
        s.visit env issued userinfo tick commits = { s with
          db := s.db.setUsers users
          writes := s.writes ++ [⟨s.presentedVersion env issued userinfo, user.role,
            some profile.email⟩] } := by
  unfold visit
  cases hprofile : AuthRequest.profile env ⟨issued.payload, userinfo⟩ with
  | error e => exact .inl rfl
  | ok profile =>
      cases hcurrent : getCurrentDbUser env ⟨issued.payload, userinfo⟩ tick
          s.db.users with
      | error e => exact .inl rfl
      | ok p =>
          cases commits with
          | false => exact .inl rfl
          | true => exact .inr ⟨rfl, profile, p.1, p.2, rfl, rfl, rfl⟩

theorem changeRoleRoute_stores {request : Request} {userId : Uuid}
    {newRole : UserRole} {db db' : Database} {members : Memberships}
    {finished : Finished UserResponse} {providerId : String}
    (htarget : (db.users.getById userId).map User.providerId = some providerId)
    (hdone : (AdminRouter.changeRoleRoute env request userId newRole db members).1 =
      .ok finished) (htables : finished.tables = some db') :
    (db'.users.getByProviderId providerId).map User.role = some newRole := by
  obtain ⟨admin, users, hrequire, hendpoint⟩ := guarded_ok hdone
  obtain ⟨user, hfind, hstore⟩ := AdminRouter.changeRole_finished
    ((congrArg Prod.fst hendpoint).trans hdone)
  obtain ⟨hother, row, hupdate⟩ := AdminRouter.storeRole_saved hstore htables
  have hid := (UsersTable.getById_eq_some.mp hfind).2
  rw [Database.setUsers_users,
    AdminRouter.getById_of_requireRole hrequire (hid ▸ hother)] at hfind
  rw [hfind, Option.map_some, Option.some.injEq] at htarget
  have hrow := (UsersTable.save_ok hupdate).1
  have hstored : db'.users.getByProviderId providerId = some row := by
    rw [UsersTable.getByProviderId_eq_some, UsersTable.mem_save hupdate]
    refine ⟨.inr rfl, ?_⟩
    rw [hrow]
    exact htarget
  rw [hstored, Option.map_some, hrow]

theorem changeRole_storedRole {request : Request} {userId : Uuid}
    {newRole : UserRole}
    (htarget : (s.db.users.getById userId).map User.providerId =
      some target.providerId) :
    (s.changeRole env request userId newRole).storedRole target =
      if committed (AdminRouter.changeRoleRoute env request userId newRole s.db
        s.members).1 then some newRole else s.storedRole target := by
  unfold changeRole storedRole
  dsimp only
  cases hdone : (AdminRouter.changeRoleRoute env request userId newRole s.db
      s.members).1 with
  | error e => rfl
  | ok finished =>
      cases htables : finished.tables with
      | none => simp [settle, committed, htables]
      | some db' =>
          simp only [settle, committed, htables, Option.getD_some, Option.isSome_some,
            if_true]
          exact changeRoleRoute_stores htarget hdone htables

/-! ## Whole histories -/

structure Recorded (env : Env) (target : TargetAccount) (before : Option UserRole)
    (s : RoleHistory) : Prop where
  tokens : ∀ issued ∈ s.tokens, IsOf env target s.states issued
  writes : ∀ w ∈ s.writes, w.FromGroups env target s.states
  stored : s.storedRole target = (s.writes.getLast?.map RoleWrite.role).or before

namespace Recorded

variable {before : Option UserRole}

theorem start (db : Database) (members : Memberships) :
    Recorded env target ((db.users.getByProviderId target.providerId).map User.role)
      (RoleHistory.start db members) :=
  ⟨by simp [RoleHistory.start], by simp [RoleHistory.start], rfl⟩

theorem regroup (h : Recorded env target before s) (members : Memberships) :
    Recorded env target before (s.regroup members) := by
  -- A new state goes to the end, so the numbers of the earlier ones stay.
  have hkept {version : Nat} {m : Memberships} (hm : s.states[version]? = some m) :
      (s.states ++ [members])[version]? = some m := by
    rw [List.getElem?_append_left (List.getElem?_eq_some_iff.mp hm).1]
    exact hm
  refine ⟨fun issued hissued => ?_, fun w hw => ?_, h.stored⟩
  · obtain ⟨m, groups, hstate, hclaim, hpresents⟩ := (h.tokens issued hissued).groups
    exact ⟨(h.tokens issued hissued).subject, m, groups, hkept hstate, hclaim,
      hpresents⟩
  · obtain ⟨m, hstate, hrole⟩ := h.writes w hw
    exact ⟨m, hkept hstate, hrole⟩

theorem issue (h : Recorded env target before s) {payload : JsonObject}
    (hsubject : textClaim env.python payload "sub" "" = target.providerId)
    (hgroups : (groupsClaim payload).any (target.presents · s.members) = true) :
    Recorded env target before
      { s with tokens := s.tokens ++ [⟨payload, s.version⟩] } := by
  refine ⟨fun issued hissued => ?_, h.writes, h.stored⟩
  rcases List.mem_append.mp hissued with hold | hnew
  · exact h.tokens issued hold
  · obtain rfl := List.mem_singleton.mp hnew
    obtain ⟨groups, hclaim, hpresents⟩ := (Option.any_eq_true _ _).mp hgroups
    exact ⟨hsubject, s.members, groups, states_version, hclaim, hpresents⟩

theorem visit (h : Recorded env target before s) (hissued : issued ∈ s.tokens)
    (huserinfo : (userinfoGroups userinfo).all (target.presents · s.members) = true) :
    Recorded env target before (s.visit env issued userinfo tick commits) := by
  rcases visit_cases env s issued userinfo tick commits with
    hsame | ⟨-, profile, user, users, hprofile, hcurrent, hvisit⟩
  · rw [hsame]
    exact h
  · obtain ⟨hstored, members, hstate, hrole⟩ :=
      (h.tokens issued hissued).resolved huserinfo hprofile hcurrent
    rw [hvisit]
    refine ⟨h.tokens, fun w hw => ?_, ?_⟩
    · rcases List.mem_append.mp hw with hold | hnew
      · exact h.writes w hold
      · obtain rfl := List.mem_singleton.mp hnew
        exact ⟨members, hstate, fun email hemail => Option.some.inj hemail ▸ hrole⟩
    · simp [storedRole, hstored]

theorem changeRole (h : Recorded env target before s) {request : Request}
    {userId : Uuid} {newRole : UserRole}
    (htarget : (s.db.users.getById userId).map User.providerId =
      some target.providerId) :
    Recorded env target before (s.changeRole env request userId newRole) := by
  have hregroup := h.regroup (AdminRouter.changeRoleRoute env request userId newRole
    s.db s.members).2
  refine ⟨hregroup.tokens, fun w hw => ?_, ?_⟩
  · rcases List.mem_append.mp hw with hold | hnew
    · exact hregroup.writes w hold
    · split at hnew
      · obtain rfl := List.mem_singleton.mp hnew
        have hversion : (s.changeRole env request userId newRole).version =
            s.version + 1 := by simp [RoleHistory.changeRole, RoleHistory.regroup, version]
        refine ⟨(s.changeRole env request userId newRole).members, ?_, by simp⟩
        rw [← hversion]
        exact states_version
      · cases hnew
  · rw [changeRole_storedRole htarget]
    unfold RoleHistory.changeRole
    dsimp only
    split
    · simp
    · simpa using h.stored

theorem step {e : RoleEvent} (h : Recorded env target before s)
    (hstep : s.step env target e = some s') : Recorded env target before s' := by
  cases step_cases hstep with
  | regroup members => exact h.regroup members
  | issue payload subject groups => exact h.issue subject groups
  | expire token => exact ⟨h.tokens, h.writes, h.stored⟩
  | visit token userinfo tick commits issued found valid current =>
      exact h.visit (List.mem_of_getElem? found) current
  | changeRole request userId newRole named => exact h.changeRole named

end Recorded

/-- The writes made so far come from states in the order of their numbers. -/
def InOrder (s : RoleHistory) : Prop :=
  s.writes.Pairwise fun w w' => w.version ≤ w'.version

theorem InOrder.append (h : s.InOrder) {new : List RoleWrite}
    (hnew : new.Pairwise fun w w' => w.version ≤ w'.version)
    (hlast : ∀ w ∈ s.writes, ∀ w' ∈ new, w.version ≤ w'.version) :
    (s.writes ++ new).Pairwise fun w w' => w.version ≤ w'.version :=
  List.pairwise_append.mpr ⟨h, hnew, hlast⟩

theorem InOrder.step {before : Option UserRole} {e : RoleEvent}
    (hrecorded : Recorded env target before s) (h : s.InOrder)
    (hcurrent : s.presentsOlder env e = false)
    (hstep : s.step env target e = some s') : s'.InOrder := by
  cases step_cases hstep with
  | regroup members => exact h
  | issue payload subject groups => exact h
  | expire token => exact h
  | visit token userinfo tick commits issued found valid current =>
      rcases visit_cases env s issued userinfo tick commits with
        hsame | ⟨-, profile, user, users, -, -, hvisit⟩
      · rw [hsame]
        exact h
      · rw [hvisit]
        apply h.append (List.pairwise_singleton _ _)
        intro w hw w' hw'
        obtain rfl := List.mem_singleton.mp hw'
        simp only [presentsOlder, found, Option.any_some, List.any_eq_false,
          decide_eq_true_eq, not_lt] at hcurrent
        exact hcurrent w hw
  | changeRole request userId newRole named =>
      -- The state that a role change leaves has a number of its own, the next one.
      unfold InOrder RoleHistory.changeRole
      apply h.append
      · split <;> simp
      · intro w hw w' hw'
        obtain ⟨members, hstate, -⟩ := hrecorded.writes w hw
        have hlength := (List.getElem?_eq_some_iff.mp hstate).1
        split at hw'
        · obtain rfl := List.mem_singleton.mp hw'
          simp only [states, version, List.length_append, List.length_singleton]
            at hlength ⊢
          omega
        · cases hw'

theorem undoes_iff {before : Option UserRole} (h : Recorded env target before s)
    (e : RoleEvent) :
    Undoes env target s e ↔ s.presentsOlder env e = true ∧
      ∃ role, Stores env target s e role ∧ s.storedRole target ≠ some role := by
  unfold Undoes
  refine and_congr_right fun holder => ?_
  constructor
  · rintro ⟨s', hstep, hchanged⟩
    cases step_cases hstep with
    | visit token userinfo tick commits issued found valid current =>
        rcases visit_cases env s issued userinfo tick commits with
          hsame | ⟨rfl, profile, user, users, hprofile, hlet, hvisit⟩
        · rw [hsame] at hchanged
          exact absurd rfl hchanged
        · obtain ⟨hstored, members, hstate, hrole⟩ :=
            (h.tokens issued (List.mem_of_getElem? found)).resolved current hprofile hlet
          refine ⟨user.role, ⟨token, userinfo, tick, issued, profile, (user, users),
            members, rfl, found, valid, current, hprofile, hlet, hstate, hrole⟩, ?_⟩
          rw [hvisit] at hchanged
          simpa [storedRole, hstored] using hchanged.symm
    | regroup | issue | expire | changeRole => simp [presentsOlder] at holder
  · rintro ⟨role, ⟨token, userinfo, tick, issued, profile, ⟨user, users⟩, members, rfl,
      found, valid, current, hprofile, hlet, hstate, rfl⟩, hother⟩
    refine ⟨s.visit env issued userinfo tick true, ?_, ?_⟩
    · simp only [RoleHistory.step, found]
      exact if_pos ⟨valid, current⟩
    · obtain ⟨hstored, members', hstate', hrole⟩ :=
        (h.tokens issued (List.mem_of_getElem? found)).resolved current hprofile hlet
      obtain rfl := Option.some.inj (hstate.symm.trans hstate')
      simp only [visit, hprofile, hlet, if_true]
      rw [← hrole] at hother
      simpa [storedRole, hstored] using hother.symm

/--
The stored role is that of the last write, whatever the age of the groups it
came from.  An event undoes a newer write exactly if it stores another role;
in a history without requests that present older groups, the writes follow the
order of the group states.
-/
theorem stored_role_is_last_presented {db : Database} {members : Memberships}
    {events : List RoleEvent}
    (hrun : run (step env target) (RoleHistory.start db members) events = some s) :
    s.storedRole target = (s.writes.getLast?.map RoleWrite.role).or
        ((db.users.getByProviderId target.providerId).map User.role) ∧
      (∀ w ∈ s.writes, w.FromGroups env target s.states) ∧
      (∀ e, Undoes env target s e ↔ s.presentsOlder env e = true ∧
        ∃ role, Stores env target s e role ∧ s.storedRole target ≠ some role) ∧
      (Along (step env target) (fun s e => s.presentsOlder env e = false)
        (RoleHistory.start db members) events → s.InOrder) := by
  have hstart : Recorded env target
      ((db.users.getByProviderId target.providerId).map User.role)
      (RoleHistory.start db members) := Recorded.start db members
  have hrecorded := run_invariant (fun _ _ _ h hs => Recorded.step h hs) hstart hrun
  refine ⟨hrecorded.stored, hrecorded.writes, undoes_iff hrecorded, fun hcurrent => ?_⟩
  have hstep (s : RoleHistory) (e : RoleEvent) (s' : RoleHistory)
      (h : Recorded env target
        ((db.users.getByProviderId target.providerId).map User.role) s ∧ s.InOrder)
      (hguard : s.presentsOlder env e = false) (hs : s.step env target e = some s') :
      Recorded env target
        ((db.users.getByProviderId target.providerId).map User.role) s' ∧ s'.InOrder :=
    ⟨Recorded.step h.1 hs, InOrder.step h.1 h.2 hguard hs⟩
  exact (run_invariant_along hstep ⟨hstart, List.Pairwise.nil⟩ hcurrent hrun).2

/-! ## Bob keeps the token that he was given as an administrator -/

def bobsAccount : TargetAccount := ⟨"bob", "2", id⟩

def bobsStart : RoleHistory :=
  start (AdminRouter.exampleDatabase (AdminRouter.aliceAndBob .admin))
    {("admins", "2")}

def bobsToken (role : UserRole) : RoleEvent :=
  .issue (exampleRequest "bob" [role.group]).payload

def bobsVisit (token : Nat) : RoleEvent :=
  .visit token .networkError (exampleTick 200) true

/-- Alice's call of `change_role`. -/
def bobsDemotion : RoleEvent :=
  .changeRole (exampleCall (exampleRequest "alice" ["admins"])
    (AdminRouter.exampleReplies "bob" 2 .admin .free)) 2 .free

def bobsNewTokenHistory : List RoleEvent :=
  [bobsToken .admin, bobsVisit 0, bobsDemotion, bobsToken .free, bobsVisit 1]

theorem new_token_keeps_demotion :
    ∃ s, run (step exampleEnv bobsAccount) bobsStart bobsNewTokenHistory = some s ∧
      s.InOrder ∧ s.storedRole bobsAccount = some .free := by
  obtain ⟨s, hrun, hwrites⟩ := Option.map_eq_some_iff.mp (by decide +kernel :
    (run (step exampleEnv bobsAccount) bobsStart bobsNewTokenHistory).map writes =
      some [⟨0, .admin, some "bob@example.com"⟩, ⟨1, .free, none⟩,
        ⟨1, .free, some "bob@example.com"⟩])
  obtain ⟨hstored, -, -, horder⟩ := stored_role_is_last_presented hrun
  refine ⟨s, hrun, horder (by decide +kernel), ?_⟩
  rw [hstored, hwrites]
  rfl

/-- The token from before his demotion makes him an administrator again. -/
theorem old_token_undoes_demotion :
    ∃ s t, run (step exampleEnv bobsAccount) bobsStart
        [bobsToken .admin, bobsVisit 0, bobsDemotion] = some s ∧
      s.storedRole bobsAccount = some .free ∧
      s.step exampleEnv bobsAccount (bobsVisit 0) = some t ∧
      t.storedRole bobsAccount = some .admin ∧
      Undoes exampleEnv bobsAccount s (bobsVisit 0) := by
  obtain ⟨s, hrun, hafter⟩ := Option.map_eq_some_iff.mp (by decide +kernel :
    (run (step exampleEnv bobsAccount) bobsStart
        [bobsToken .admin, bobsVisit 0, bobsDemotion]).map (fun s =>
          (s.storedRole bobsAccount, s.presentsOlder exampleEnv (bobsVisit 0),
            (s.step exampleEnv bobsAccount (bobsVisit 0)).map
              (storedRole · bobsAccount))) =
      some (some .free, true, some (some .admin)))
  simp only [Prod.mk.injEq] at hafter
  obtain ⟨hfree, holder, hvisit⟩ := hafter
  obtain ⟨t, hstep, hadmin⟩ := Option.map_eq_some_iff.mp hvisit
  refine ⟨s, t, hrun, hfree, hstep, hadmin, holder, t, hstep, ?_⟩
  rw [hadmin, hfree]
  decide

end RoleHistory

end IsolatedEnv.Backend
