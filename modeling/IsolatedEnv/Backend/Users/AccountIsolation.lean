import IsolatedEnv.Backend.App

/-!
# Which subjects a record is given to

A subject is the `sub` claim as the token has it, absent, null or any other
value; a record keeps only its text.  `Access` extends the state of the
application by what no table keeps: the records given out so far, with the
subjects they were given to, and the identifiers used so far, none of which
`uuid4` gives again.

A record found by `provider_id` was given to subjects of that text only.  A
record found by email stays with the subjects it was given to before, unless
there were none and the link is committed.
-/

namespace IsolatedEnv.Backend

open IsolatedEnv.Foundation

abbrev Subject := Option Json

/-- `str(jwt_payload.get("sub", ""))`. -/
def Subject.text (env : Env) : Subject → String
  | some sub => env.python.str sub
  | none => ""

def Request.subject (request : Request) : Subject :=
  JsonObject.get? request.auth.payload "sub"

structure Access where
  app : App
  issued : List Uuid
  grants : List (Uuid × Subject)

namespace Access

def start (app : App) : Access :=
  ⟨app, app.db.users.rows.map User.id, []⟩

/-- The record `get_current_db_user` returns to a request, with its subject. -/
def grant (env : Env) (app : App) (request : Request) : Route → List (Uuid × Subject)
  | .user _ =>
      match getCurrentDbUser env request.auth request.tick app.db.users with
      | .ok (user, _) => [(user.id, request.subject)]
      | .error _ => []
  | .item _ => []

def after (env : Env) (s : Access) (request : Request) (route : Route) : Access where
  app := (s.app.serve env request route).2
  issued := request.tick.newId :: s.issued
  grants := s.grants ++ grant env s.app request route

def step (env : Env) (s : Access) : App.Event → Option Access
  | .request request route =>
      if request.tick.newId ∈ s.issued then none
      else some (s.after env request route)
  | .expire key => (s.app.step env (.expire key)).map fun app => { s with app := app }

/-- The request's transaction ends in a commit. -/
def Commits (env : Env) (app : App) (request : Request) (route : UserRoute) : Prop :=
  ∃ finished, (route.serve env request app.db app.members).1 = .ok finished ∧
    finished.tables ≠ none

variable {env : Env} {s s' : Access} {request : Request} {route : UserRoute}

section Granted

variable {profile : Profile} {row : User} {t' : UsersTable}

end Granted

def aliceVisits : Request := exampleVisit "alice" [] 1

end Access

end IsolatedEnv.Backend
