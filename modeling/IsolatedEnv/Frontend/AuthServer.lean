import IsolatedEnv.Foundation.Json
import IsolatedEnv.Foundation.SingleFlight

/-!
# The session code of the Next.js server

`getSession` reads the session cookies of its request and, when the access
token is not usable, refreshes it through a promise that one module-level
variable shares between all requests of the process.  A state of the model is
the process with every `getSession` call it has received; an event is what
happens between two `await` points.  Token, discovery and cookie outcomes are
chosen by the environment.
-/

namespace IsolatedEnv.Frontend

open IsolatedEnv.Foundation

structure SessionUser where
  sub : String
  email : String
  name : String
  preferredUsername : String
  groups : List String
  exp : Rat
  deriving DecidableEq, Repr

structure SessionData where
  accessToken : String
  user : SessionUser
  deriving DecidableEq, Repr

/-!
## JWT decode

A decoder returns `none` where the source throws.  `parse` stands for
`JSON.parse(Buffer.from(part, "base64url").toString("utf-8"))`; nothing
depends on which texts it rejects.
-/

def zString (member : Option Json) : Option String :=
  member.bind Json.text?

def zDefault {β : Type} (schema : Option Json → Option β) (value : β)
    (member : Option Json) : Option β :=
  match member with
  | none => some value
  | some json => schema (some json)

def zStrings (member : Option Json) : Option (List String) :=
  (member.bind Json.elements?).bind fun elements => elements.mapM Json.text?

def jwtPayloadSchema : Json → Option SessionUser
  | .obj members => do
      let sub ← zString (JsonObject.get? members "sub")
      let email ← zString (JsonObject.get? members "email")
      let name ← zDefault zString "" (JsonObject.get? members "name")
      let preferredUsername ←
        zDefault zString "" (JsonObject.get? members "preferred_username")
      let groups ← zDefault zStrings [] (JsonObject.get? members "groups")
      let exp ← (JsonObject.get? members "exp").bind Json.number?
      some ⟨sub, email, name, preferredUsername, groups, exp⟩
  | _ => none

abbrev ParsePart := String → Option Json

def decodeJwtPayload (parse : ParsePart) (token : String) :
    Option SessionUser :=
  match token.toList.splitOn '.' with
  | [_, payload, _] => (parse (String.ofList payload)).bind jwtPayloadSchema
  | _ => none

/-!
## Cookies and tokens

`truthy` is the `if (value)` of the source: an absent and an empty string are
the same.
-/

structure Cookies where
  session : Option String
  refreshToken : Option String
  idToken : Option String
  deriving DecidableEq, Repr

structure TokenEndpointResponse where
  accessToken : String
  refreshToken : Option String
  idToken : Option String
  expiresIn : Option Nat
  deriving DecidableEq, Repr

inductive CookieWrite where
  | set (name value : String) (maxAge : Nat)
  | delete (name : String)
  deriving DecidableEq, Repr

def truthy (value : Option String) : Option String :=
  value.filter fun text => text ≠ ""

def setIfIssued (name : String) (maxAge : Nat) (token : Option String) :
    List CookieWrite :=
  (truthy token).toList.map fun value => .set name value maxAge

def setSessionCookies (tokens : TokenEndpointResponse) : List CookieWrite :=
  let expiresIn := tokens.expiresIn.getD 3600
  setIfIssued "session" expiresIn (some tokens.accessToken) ++
    setIfIssued "refresh_token" (30 * 24 * 60 * 60) tokens.refreshToken ++
    setIfIssued "id_token" expiresIn tokens.idToken

def clearSessionCookies : List CookieWrite :=
  [.delete "session", .delete "refresh_token", .delete "id_token"]

/--
The first half of `getSession`: the session of the request's own access
token, when it decodes and has more than 30 seconds left at second `now`.
-/
def ownSession (parse : ParsePart) (cookies : Cookies) (now : Int) :
    Option SessionData := do
  let accessToken ← truthy cookies.session
  let user ← decodeJwtPayload parse accessToken
  if user.exp > now + 30 then some ⟨accessToken, user⟩ else none

/-!
## `doRefreshSession`

It is suspended in `getAuthServer`, at the token endpoint, in
`setSessionCookies` or, from the `catch` clause, in `clearSessionCookies`.
Its arguments are the refresh token and the call whose request owns the
cookie store.
-/

structure RefreshArg where
  refreshToken : String
  call : Nat
  deriving DecidableEq, Repr

inductive RefreshWork where
  | discovering
  | requesting
  | storing (tokens : TokenEndpointResponse)
  | clearing
  deriving DecidableEq, Repr

inductive Settled where
  | value (session : Option SessionData)
  | rejected
  deriving DecidableEq, Repr

abbrev RefreshStep := RefreshArg → RefreshWork → Option (RefreshWork ⊕ Settled)

def afterDiscovery (ok : Bool) : RefreshStep
  | _, .discovering => some (.inl (if ok then .requesting else .clearing))
  | _, _ => none

def afterReply (reply : Option TokenEndpointResponse) : RefreshStep
  | _, .requesting =>
      match reply with
      | some tokens => some (.inl (.storing tokens))
      | none => some (.inl .clearing)
  | _, _ => none

/--
After `await cookies()`.  A store that may not be written (a page that is
being rendered) makes the write throw: in the `try` block this leads to the
`catch` clause, in the `catch` clause it rejects the promise.
-/
def afterCookies (parse : ParsePart) (writable : Bool) : RefreshStep
  | _, .storing tokens =>
      if writable then
        match decodeJwtPayload parse tokens.accessToken with
        | some user => some (.inr (.value (some ⟨tokens.accessToken, user⟩)))
        | none => some (.inl .clearing)
      else some (.inl .clearing)
  | _, .clearing =>
      if writable then some (.inr (.value none)) else some (.inr .rejected)
  | _, _ => none

def cookieWrites : RefreshWork → List CookieWrite
  | .storing tokens => setSessionCookies tokens
  | .clearing => clearSessionCookies
  | _ => []

/-!
## The process

`flight` is `_refreshSessionPromise` with the promises it has held.  `grants`
are the refresh grants the token endpoint has received and `answers` its
successful replies, each with the promise it belongs to.  A call keeps the
cookies of its request, the second at which it looked at them and what has
been written to its cookie store.
-/

inductive CallStatus where
  | reading
  | awaiting (promise : Nat)
  | done (outcome : Settled)
  deriving DecidableEq, Repr

structure Call where
  cookies : Cookies
  checkedAt : Option Int
  status : CallStatus
  writes : List CookieWrite
  deriving DecidableEq, Repr

structure Process where
  flight : Flight RefreshArg RefreshWork Settled
  calls : List Call
  grants : List (Nat × String)
  answers : List (Nat × TokenEndpointResponse)
  deriving DecidableEq, Repr

namespace Process

def start : Process := ⟨.empty, [], [], []⟩

end Process

inductive Event where
  | call (cookies : Cookies)
  | resume (call : Nat) (now : Int)
  | discovered (promise : Nat) (ok : Bool)
  | replied (promise : Nat) (reply : Option TokenEndpointResponse)
  | cookieStore (promise : Nat) (writable : Bool)
  | released (promise : Nat)
  | settle (call : Nat)
  deriving DecidableEq, Repr

def resumeCall (parse : ParsePart) (p : Process) (i : Nat) (c : Call)
    (now : Int) : Process :=
  match ownSession parse c.cookies now with
  | some session =>
      { p with
        calls := p.calls.set i
          { c with
            checkedAt := some now, status := .done (.value (some session)) } }
  | none =>
      match truthy c.cookies.refreshToken with
      | some refreshToken =>
          let entered := p.flight.enter .discovering ⟨refreshToken, i⟩
          { p with
            flight := entered.1
            calls := p.calls.set i
              { c with
                checkedAt := some now, status := .awaiting entered.2 } }
      | none =>
          { p with
            calls := p.calls.set i
              { c with checkedAt := some now, status := .done (.value none) } }

def writeCookies (calls : List Call) (i : Nat) (writes : List CookieWrite) :
    List Call :=
  calls.modify i fun c => { c with writes := c.writes ++ writes }

def Process.underWay (p : Process) (promise : Nat) :
    Option (RefreshArg × RefreshWork) :=
  match p.flight.tasks[promise]? with
  | some ⟨arg, .running work⟩ => some (arg, work)
  | _ => none

def step (parse : ParsePart) (p : Process) : Event → Option Process
  | .call cookies =>
      some { p with calls := p.calls ++ [⟨cookies, none, .reading, []⟩] }
  | .resume i now =>
      match p.calls[i]? with
      | some c =>
          if c.status = .reading then some (resumeCall parse p i c now)
          else none
      | none => none
  | .discovered promise ok => do
      let (arg, _) ← p.underWay promise
      let flight ← p.flight.advance promise (afterDiscovery ok)
      some { p with
        flight := flight
        grants :=
          if ok then p.grants ++ [(promise, arg.refreshToken)] else p.grants }
  | .replied promise reply => do
      let flight ← p.flight.advance promise (afterReply reply)
      some { p with
        flight := flight
        answers :=
          p.answers ++ (reply.toList.map fun tokens => (promise, tokens)) }
  | .cookieStore promise writable => do
      let (arg, work) ← p.underWay promise
      let flight ← p.flight.advance promise (afterCookies parse writable)
      some { p with
        flight := flight
        calls :=
          if writable then writeCookies p.calls arg.call (cookieWrites work)
          else p.calls }
  | .released promise => do
      let flight ← p.flight.release promise
      some { p with flight := flight }
  | .settle i =>
      match p.calls[i]? with
      | some c =>
          match c.status with
          | .awaiting promise => do
              let outcome ← p.flight.resolved promise
              some { p with
                calls := p.calls.set i { c with status := .done outcome } }
          | _ => none
      | none => none

/-! ## `GET /api/auth/session` -/

inductive SessionReply where
  | unauthenticated
  | authenticated (user : SessionUser)
  deriving DecidableEq, Repr

def sessionRoute : Option SessionData → SessionReply
  | none => .unauthenticated
  | some session => .authenticated session.user

end IsolatedEnv.Frontend
