import IsolatedEnv.Backend.Users.Deletion

/-!
# When a deletion is committed

`get_db` commits where the request's dependencies are unwound, after the
endpoint and with it the calls to Authentik.  A deletion runs here stage by
stage, with every point at which the database can fail it.
-/

namespace IsolatedEnv.Backend

open IsolatedEnv.Foundation

/-- A deletion that has reached its endpoint, and how the database treats it. -/
structure Deletion where
  env : Env
  request : Request
  db : Database
  path : DeletionPath
  acting : User
  target : User
  users : UsersTable
  admitted : path.Admits env request db acting target users
  flushFailure : Option DatabaseFailure
  commitFailure : Option DatabaseFailure
  /-- Authentik deletes the account if the call for it comes. -/
  carriedOut : Bool

/-- What a deletion does, one after the other; `close` is the end of `get_db`. -/
inductive Stage where
  | flush
  | audit
  | remote
  | close
  deriving DecidableEq

def DeletionPath.stages : DeletionPath → List Stage
  | self => [.flush, .remote, .audit, .close]
  | byAdmin _ => [.flush, .audit, .remote, .close]

/--
`db` is what has been committed.  `session` is an exception on its way out of
`get_db`, or the tables of the transaction; `none` is a deactivated session.
-/
structure DeletionState where
  db : Database
  session : Except Exc (Option Database)
  committed : Bool
  accountGone : Bool

namespace Deletion

def start (d : Deletion) : DeletionState :=
  ⟨d.db, .ok (some (d.db.setUsers d.users)), false, false⟩

/-- What the search for the account gives, if the path looks it up without an exception. -/
def lookup (d : Deletion) : Except Exc (Option Json) :=
  match d.path with
  | .self =>
      UserService.findOwnPk d.env.python d.target.providerId d.request.authentik.userSearch
  | .byAdmin _ =>
      (authentikGetUserPk d.env d.target.providerId
        d.request.authentik.userSearch).map some

/-- Whether the remote stage sends the call that deletes the account. -/
def sendsDelete (d : Deletion) : Bool :=
  match d.lookup with
  | .ok (some pk) => d.env.urlText (d.env.python.str pk)
  | _ => false

/-- What the remote stage raises past its own `except` clause. -/
def remoteOutcome (d : Deletion) : Except Exc Unit :=
  match d.path with
  | .self => UserService.tolerateRemote
      (UserService.deleteOwnAccount d.env d.target.providerId d.request.authentik)
  | .byAdmin _ => .ok ()

def advance (d : Deletion) (s : DeletionState) : Stage → DeletionState
  | .flush => { s with
      session := match d.flushFailure with
        | some e => .error e
        | none => s.session.map fun tables => tables.map fun db =>
            db.setUsers (db.users.delete d.target.id) }
  | .audit => { s with
      session := s.session.map fun tables => tables.bind fun db =>
        record db d.request.auditFailure
          (d.path.auditEntry d.env d.request d.acting d.target) }
  | .remote =>
      match s.session with
      | .error _ => s
      | .ok tables => { s with
          session := d.remoteOutcome.map fun _ => tables
          accountGone := s.accountGone || (d.sendsDelete && d.carriedOut) }
  | .close =>
      match s.session, d.commitFailure with
      | .ok (some db), none => { s with db := db, committed := true }
      | _, _ => s

def step (d : Deletion) (s : DeletionState) (stage : Stage) : Option DeletionState :=
  some (d.advance s stage)

/-- The stage sends the call that deletes the account. -/
def Sends (d : Deletion) (s : DeletionState) (stage : Stage) : Prop :=
  stage = .remote ∧ (∃ tables, s.session = .ok tables) ∧ d.sendsDelete = true

/--
The call is sent only after the commit, and no state is reached in which the
account is gone and the record is not.
-/
def PostgresFirst (d : Deletion) : Prop :=
  Along d.step (fun s stage => d.Sends s stage → s.committed = true) d.start
    d.path.stages ∧
  ∀ n s, run d.step d.start (d.path.stages.take n) = some s → s.accountGone = true →
    s.db.users.getById d.target.id = none

/-- Authentik lists the account, under a key that makes a URL. -/
def FindsAccount (d : Deletion) : Prop :=
  (d.path = .self ∨ d.env.settings.authentikApiToken ≠ "") ∧
    ∃ pk, d.request.authentik.userSearch.FindsPk d.env.python d.target.providerId pk ∧
      d.env.urlText (d.env.python.str pk) = true

variable {d : Deletion} {s s' : DeletionState} {stage : Stage}

theorem lookup_eq_some {pk : Json} :
    d.lookup = .ok (some pk) ↔
      (d.path = .self ∨ d.env.settings.authentikApiToken ≠ "") ∧
        d.request.authentik.userSearch.FindsPk d.env.python d.target.providerId pk := by
  unfold lookup
  cases d.path with
  | self => simp [UserService.findOwnPk_eq_some]
  | byAdmin userId =>
      have hmap : (authentikGetUserPk d.env d.target.providerId
          d.request.authentik.userSearch).map some = .ok (some pk) ↔
          authentikGetUserPk d.env d.target.providerId
            d.request.authentik.userSearch = .ok pk := by
        cases authentikGetUserPk d.env d.target.providerId
          d.request.authentik.userSearch <;> simp [Except.map]
      simp [hmap, UserService.authentikGetUserPk_eq_ok]

theorem sendsDelete_iff : d.sendsDelete = true ↔ d.FindsAccount := by
  have hsends : d.sendsDelete = true ↔
      ∃ pk, d.lookup = .ok (some pk) ∧ d.env.urlText (d.env.python.str pk) = true := by
    unfold sendsDelete
    split
    · rename_i pk hlookup
      simp [hlookup]
    · rename_i hnone
      simp only [Bool.false_eq_true, false_iff, not_exists, not_and]
      exact fun pk hlookup => absurd hlookup (hnone pk)
  rw [hsends]
  simp only [lookup_eq_some, and_assoc, exists_and_left, FindsAccount]

theorem flushed_session :
    (∃ tables, (d.advance d.start .flush).session = .ok tables) ↔ d.flushFailure = none := by
  cases hflush : d.flushFailure <;> simp [advance, start, hflush, Except.map]

theorem audited_session :
    (∃ tables, (d.advance s .audit).session = .ok tables) ↔
      ∃ tables, s.session = .ok tables := by
  cases hsession : s.session <;> simp [advance, hsession, Except.map]

/-- The remote stage comes while nothing is committed. -/
theorem along_sends_iff {allowed : DeletionState → Prop}
    (hallowed : ∀ s : DeletionState, allowed s → s.committed = true) :
    Along d.step (fun s stage => d.Sends s stage → allowed s) d.start d.path.stages ↔
      d.flushFailure ≠ none ∨ ¬d.FindsAccount := by
  have hremote (s : DeletionState) (hcommitted : s.committed = false)
      (hsession : (∃ tables, s.session = .ok tables) ↔ d.flushFailure = none) :
      (d.Sends s .remote → allowed s) ↔ d.flushFailure ≠ none ∨ ¬d.FindsAccount := by
    have hnot : ¬allowed s := fun h => by simp [hallowed s h] at hcommitted
    rw [Sends, hsession, sendsDelete_iff]
    simp only [true_and, hnot, imp_false, not_and_or, ne_eq]
  have hother (s : DeletionState) (stage : Stage) (h : stage ≠ .remote) :
      d.Sends s stage → allowed s := fun hsends => absurd hsends.1 h
  cases d.path with
  | self =>
      have hguard := hremote (d.advance d.start .flush) rfl flushed_session
      constructor
      · rintro ⟨-, hsent, -⟩
        exact hguard.mp hsent
      · intro h
        exact ⟨hother _ .flush (by decide), hguard.mpr h, hother _ .audit (by decide),
          hother _ .close (by decide), trivial⟩
  | byAdmin userId =>
      have hguard := hremote (d.advance (d.advance d.start .flush) .audit) rfl
        (audited_session.trans flushed_session)
      constructor
      · rintro ⟨-, -, hsent, -⟩
        exact hguard.mp hsent
      · intro h
        exact ⟨hother _ .flush (by decide), hother _ .audit (by decide), hguard.mpr h,
          hother _ .close (by decide), trivial⟩

theorem accountGone_advance (hnot : ¬d.Sends s stage) (h : s.accountGone = false) :
    (d.advance s stage).accountGone = false := by
  cases stage with
  | flush | audit => exact h
  | remote =>
      unfold advance
      dsimp only
      split
      · exact h
      · rename_i tables hsession
        have hsends : d.sendsDelete = false := by
          by_contra hsends
          exact hnot ⟨rfl, ⟨tables, hsession⟩, by simpa using hsends⟩
        simp [h, hsends]
  | close =>
      unfold advance
      dsimp only
      split <;> exact h

/--
PostgreSQL comes first exactly in a deletion whose flush fails or for which
Authentik lists no account to delete.
-/
theorem postgresFirst_iff (d : Deletion) :
    d.PostgresFirst ↔ d.flushFailure ≠ none ∨ ¬d.FindsAccount := by
  constructor
  · rintro ⟨halong, -⟩
    exact (along_sends_iff fun _ h => h).mp halong
  · intro h
    refine ⟨(along_sends_iff fun _ h => h).mpr h, fun n s hrun hgone => ?_⟩
    have hnever : Along d.step (fun s stage => d.Sends s stage → False) d.start
        d.path.stages := (along_sends_iff fun _ h => h.elim).mpr h
    have hstep (s : DeletionState) (stage : Stage) (s' : DeletionState)
        (hkept : s.accountGone = false) (hguard : d.Sends s stage → False)
        (hadvanced : d.step s stage = some s') : s'.accountGone = false := by
      cases hadvanced
      exact accountGone_advance hguard hkept
    have hkept : s.accountGone = false :=
      run_invariant_along hstep rfl (hnever.take n) hrun
    rw [hkept] at hgone
    cases hgone

theorem advance_flush (hflush : d.flushFailure = none) :
    d.advance d.start .flush =
      ⟨d.db, .ok (some (DeletionPath.deleted d.db d.users d.target)), false, false⟩ := by
  simp [advance, start, hflush, Except.map, DeletionPath.deleted]

theorem advance_close (hcommit : d.commitFailure = none) :
    (d.advance s .close).db =
      match s.session with
      | .ok tables => tables.getD s.db
      | .error _ => s.db := by
  unfold advance
  rw [hcommit]
  rcases s.session with e | (_ | db) <;> rfl

/-- Where neither the flush nor the commit fails, the run leaves what the route does. -/
theorem run_settles (d : Deletion) (members : Memberships) (hflush : d.flushFailure = none)
    (hcommit : d.commitFailure = none) :
    (run d.step d.start d.path.stages).map DeletionState.db =
      some (settle (d.path.route.serve d.env d.request d.db members).1 d.db) := by
  have hadmitted := d.admitted
  cases hpath : d.path with
  | self =>
      rw [hpath] at hadmitted
      have hrun : run d.step d.start (DeletionPath.stages .self) =
          some (d.advance (d.advance (d.advance (d.advance d.start .flush) .remote) .audit)
            .close) := rfl
      rw [DeletionPath.route, DeletionPath.serve_self hadmitted, hrun, Option.map_some,
        advance_close hcommit, advance_flush hflush]
      unfold UserService.deleteSelf
      cases hremote : UserService.tolerateRemote (UserService.deleteOwnAccount d.env
          d.target.providerId d.request.authentik) <;>
        simp [advance, remoteOutcome, hpath, hremote, bind, Except.bind, Except.map, settle,
          DeletionPath.deleted, UsersTable.deleteUser]
  | byAdmin userId =>
      rw [hpath] at hadmitted
      have hrun : run d.step d.start (DeletionPath.stages (.byAdmin userId)) =
          some (d.advance (d.advance (d.advance (d.advance d.start .flush) .audit) .remote)
            .close) := rfl
      rw [DeletionPath.route, DeletionPath.serve_byAdmin hadmitted, hrun, Option.map_some,
        advance_close hcommit, advance_flush hflush]
      simp [advance, remoteOutcome, hpath, Except.map, settle]

/-! ## Alice deletes her account and the connection to the database breaks -/

def alicesAccount : Reply :=
  AdminRouter.foundOne [("uid", .str "alice"), ("pk", .int 7)]

def cutOffDeletion : Deletion where
  env := exampleEnv
  request := DeletionPath.alicesRequest alicesAccount
  db := DeletionPath.onlyAlicesRecord
  path := .self
  acting := DeletionPath.alice
  target := DeletionPath.alice
  users := AdminRouter.onlyAlice
  admitted := DeletionPath.alice_admitted _
  flushFailure := none
  commitFailure := some ⟨.os, rfl⟩
  carriedOut := true

theorem record_outlives_account :
    (∃ s, run cutOffDeletion.step cutOffDeletion.start cutOffDeletion.path.stages = some s ∧
      s.accountGone = true ∧ s.db.users.getById 1 = some DeletionPath.alice) ∧
    ¬cutOffDeletion.PostgresFirst := by
  have hend : (run cutOffDeletion.step cutOffDeletion.start
      cutOffDeletion.path.stages).map (fun s => (s.accountGone, s.db.users.getById 1)) =
        some (true, some DeletionPath.alice) := by decide +kernel
  obtain ⟨s, hrun, hs⟩ := Option.map_eq_some_iff.mp hend
  obtain ⟨hgone, hrecord⟩ := Prod.mk.inj hs
  refine ⟨⟨s, hrun, hgone, hrecord⟩, fun hfirst => ?_⟩
  have hnone := hfirst.2 4 s hrun hgone
  rw [show cutOffDeletion.target.id = 1 from rfl, hrecord] at hnone
  cases hnone

end Deletion

end IsolatedEnv.Backend
