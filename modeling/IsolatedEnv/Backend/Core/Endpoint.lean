import IsolatedEnv.Backend.Core.Cache
import IsolatedEnv.Backend.Core.Database
import IsolatedEnv.Backend.Core.Dependencies
import IsolatedEnv.Backend.Users.Authentik

/-!
# Endpoints behind a user dependency

FastAPI resolves the user first; the rate limiter runs in the endpoint's
wrapper, before its body.  An endpoint works in the transaction in which its
user was resolved, so that what the user dependency wrote is undone with it.
-/

namespace IsolatedEnv.Backend

open IsolatedEnv.Foundation

/-- A request: its token, what `uuid4` will give, and what others answer it. -/
structure Request where
  auth : AuthRequest
  tick : Tick
  auditId : Uuid
  auditFailure : Option DatabaseFailure
  itemId : Uuid
  forwardedFor : Option String
  clientHost : Option String
  limited : Bool
  authentik : AuthentikReplies
  rank : Uuid → Nat
  redis : RedisFaults

def rateLimitExceeded : Exc := .http 429 "Rate limit exceeded"

/-- An endpoint's outcome, and the memberships its calls to Authentik leave. -/
abbrev Outcome (α : Type) := Except Exc (Finished α) × Memberships

def guarded {α : Type} (dependency : Except Exc (User × UsersTable))
    (request : Request) (db : Database) (members : Memberships)
    (endpoint : User → Database → Outcome α) : Outcome α :=
  match dependency with
  | .error e => (.error e, members)
  | .ok (user, users) =>
      if request.limited then (.error rateLimitExceeded, members)
      else endpoint user (db.setUsers users)

theorem guarded_ok {α : Type} {dependency : Except Exc (User × UsersTable)}
    {request : Request} {db : Database} {members : Memberships}
    {endpoint : User → Database → Outcome α} {finished : Finished α}
    (h : (guarded dependency request db members endpoint).1 = .ok finished) :
    ∃ user users, dependency = .ok (user, users) ∧
      endpoint user (db.setUsers users) =
        guarded dependency request db members endpoint := by
  unfold guarded at h ⊢
  cases dependency with
  | error e => cases h
  | ok p =>
      cases hlimited : request.limited with
      | true => simp [hlimited] at h
      | false => exact ⟨p.1, p.2, rfl, rfl⟩

/-- `CurrentUser`. -/
def asUser {α : Type} (env : Env) (request : Request) (db : Database)
    (members : Memberships) (endpoint : User → Database → Outcome α) :
    Outcome α :=
  guarded (getCurrentDbUser env request.auth request.tick db.users) request db
    members endpoint

/-- `AdminUser` and `PaidUser`. -/
def asRole {α : Type} (env : Env) (role : UserRole) (request : Request)
    (db : Database) (members : Memberships)
    (endpoint : User → Database → Outcome α) : Outcome α :=
  guarded (requireRole env [role] request.auth request.tick db.users) request db
    members endpoint

/-! ## Requests of the small installation -/

def exampleCall (auth : AuthRequest) (authentik : AuthentikReplies) : Request where
  auth := auth
  tick := exampleTick 100
  auditId := 101
  auditFailure := none
  itemId := 102
  forwardedFor := none
  clientHost := some "10.0.0.1"
  limited := false
  authentik := authentik
  rank := fun _ => 0
  redis := .working

def unreachable : AuthentikReplies where
  userSearch := .networkError
  oldGroup := .networkError
  newGroup := .networkError
  removeUser := ⟨.networkError, false⟩
  addUser := ⟨.networkError, false⟩
  setPassword := .networkError
  deleteUser := .networkError

def exampleVisit (name : String) (groups : List String) (newId : Uuid) : Request :=
  { exampleCall (exampleRequest name groups) unreachable with
    tick := exampleTick newId }

end IsolatedEnv.Backend
