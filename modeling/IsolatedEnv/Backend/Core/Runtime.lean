import IsolatedEnv.Foundation.Json
import IsolatedEnv.Foundation.Like

/-!
# Exceptions, Python values and settings

A fallible function of the backend returns `Except Exc`.  `Exc` keeps what an
`except` clause or the application's exception handlers can tell apart: an
`HTTPException` and an `AppError` carry the answer they turn into, all other
exceptions are answered with 500.
-/

namespace IsolatedEnv.Backend

open IsolatedEnv.Foundation

inductive Exc where
  | http (statusCode : Nat) (detail : String)
  | app (statusCode : Nat) (detail : String)
  | sqlalchemy
  | os
  | httpx
  | invalidUrl
  | value
  | key
  | type
  | pyjwt
  | attribute
  deriving DecidableEq, Repr

namespace Exc

def businessRuleError (detail : String) : Exc := .app 400 detail

def notFoundError (detail : String) : Exc := .app 404 detail

/-- Caught by `except (sqlalchemy.exc.SQLAlchemyError, OSError)`. -/
def isDatabase : Exc → Bool
  | .sqlalchemy | .os => true
  | _ => false

end Exc

/-- What a statement may raise when the database or the way to it fails. -/
abbrev DatabaseFailure := {e : Exc // e.isDatabase = true}

theorem bind_eq_ok {α β : Type} {x : Except Exc α} {f : α → Except Exc β}
    {b : β} : (x >>= f) = .ok b ↔ ∃ a, x = .ok a ∧ f a = .ok b := by
  cases x with
  | error e => simp [bind, Except.bind]
  | ok a => simp [bind, Except.bind]

theorem exists_ok {α β : Type} {x : Except Exc α} {f : α → β} {b : β}
    (h : x.map f = .ok b) : ∃ a, x = .ok a ∧ f a = b := by
  cases x with
  | error e => simp [Except.map] at h
  | ok a => exact ⟨a, rfl, by simpa [Except.map] using h⟩

theorem exists_map_ok {α β : Type} {x : Except Exc α} {f : α → β} :
    (∃ b, x.map f = .ok b) ↔ ∃ a, x = .ok a := by
  cases x <;> simp [Except.map]

theorem exists_error_iff {α : Type} {x : Except Exc α} :
    (∃ e, x = .error e) ↔ ¬∃ a, x = .ok a := by
  cases x <;> simp

theorem isOk_iff {α : Type} {x : Except Exc α} : x.isOk = true ↔ ∃ a, x = .ok a := by
  cases x <;> simp [Except.isOk, Except.toBool]

theorem map_eq_error {α β : Type} {x : Except Exc α} {f : α → β} {e : Exc} :
    x.map f = .error e ↔ x = .error e := by
  cases x <;> simp [Except.map]

/-!
## Python values

`repr` is Python's rendering of floats, lists and dicts, `lower` is `str.lower`
and `isIpAddress` tells the texts that `ipaddress.ip_address` accepts; they are
total functions of the language that no result here depends on further.
-/

structure Python where
  repr : Json → String
  lower : String → String
  isIpAddress : String → Bool

def Python.str (py : Python) : Json → String
  | .null => "None"
  | .bool true => "True"
  | .bool false => "False"
  | .int n => toString n
  | .str s => s
  | v => py.repr v

/-- `value.get(name, default)`. -/
def pyGet (value : Json) (name : String) (default : Json) : Except Exc Json :=
  match value with
  | .obj members => .ok ((JsonObject.get? members name).getD default)
  | _ => .error .attribute

/-- `value[name]`. -/
def pyItem (value : Json) (name : String) : Except Exc Json :=
  match value with
  | .obj members =>
      match JsonObject.get? members name with
      | some member => .ok member
      | none => .error .key
  | _ => .error .type

/-- The elements a `for` loop goes through. -/
def pyIter : Json → Except Exc (List Json)
  | .arr elements => .ok elements
  | .obj members => .ok (members.map fun m => .str m.1)
  | .str s => .ok (s.toList.map fun c => .str (String.ofList [c]))
  | _ => .error .type

/-- `str(members.get(name, default))` for a text default. -/
def textClaim (py : Python) (members : JsonObject) (name default : String) :
    String :=
  match JsonObject.get? members name with
  | some value => py.str value
  | none => default

/-- Whether an `if` takes the value as true. -/
def pyTruthy : Json → Bool
  | .null => false
  | .bool b => b
  | .int n => n ≠ 0
  | .float q => q ≠ 0
  | .str s => s ≠ ""
  | .arr elements => !elements.isEmpty
  | .obj members => !members.isEmpty

structure Settings where
  adminEmail : String
  authentikApiToken : String
  deriving DecidableEq, Repr

/--
`databaseLower` is `lower` under the collation of the database; `urlText` tells the
texts that httpx takes inside a URL.
-/
structure Env where
  settings : Settings
  python : Python
  databaseLower : String → String
  urlText : String → Bool

def ilike (env : Env) (text pattern : String) : Bool :=
  like (env.databaseLower pattern).toList (env.databaseLower text).toList

def searchPattern (search : String) : String :=
  String.ofList ('%' :: (escapeLike search.toList ++ ['%']))

/-!
## HTTP calls

What an awaited `httpx` call gives: an answer, or an exception of the network.
A body of `none` is one that is not JSON.
-/

structure Response where
  statusCode : Nat
  body : Option Json

inductive Reply where
  | response (r : Response)
  | networkError

def Reply.await : Reply → Except Exc Response
  | .response r => .ok r
  | .networkError => .error .httpx

namespace Response

def raiseForStatus (r : Response) : Except Exc Unit :=
  if 200 ≤ r.statusCode ∧ r.statusCode < 300 then .ok () else .error .httpx

def json (r : Response) : Except Exc Json :=
  match r.body with
  | some body => .ok body
  | none => .error .value

end Response

end IsolatedEnv.Backend
