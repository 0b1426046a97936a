import IsolatedEnv.Backend.Core.Dependencies
import Mathlib.Data.Finset.Basic
import Mathlib.Data.Finset.Insert

/-!
# The helpers of the Authentik admin API

Group memberships are pairs of a group and an account, each by the text its
primary key has in the calls.  What Authentik answers to each call of a request
is given from outside, and so is whether it carried a membership change out: an
error status or a lost connection says nothing certain about that.
-/

namespace IsolatedEnv.Backend

open IsolatedEnv.Foundation

abbrev Memberships := Finset (String × String)

/-- A call under a URL that carries the text; where it makes no URL, nothing is sent. -/
def callUnder (env : Env) (text : String) (reply : Reply) : Except Exc Response :=
  if env.urlText text then reply.await else .error .invalidUrl

/-- The answer to a membership change, and whether Authentik carries it out once sent. -/
structure MembershipCall where
  reply : Reply
  applied : Bool

namespace MembershipCall

def CarriedOut (call : MembershipCall) (env : Env) (group : String) : Prop :=
  env.urlText group = true ∧ call.applied = true

instance (call : MembershipCall) (env : Env) (group : String) :
    Decidable (call.CarriedOut env group) :=
  inferInstanceAs (Decidable (_ ∧ _))

def removeUser (call : MembershipCall) (env : Env) (member : String × String)
    (m : Memberships) : Memberships :=
  if call.CarriedOut env member.1 then m.erase member else m

def addUser (call : MembershipCall) (env : Env) (member : String × String)
    (m : Memberships) : Memberships :=
  if call.CarriedOut env member.1 then insert member m else m

end MembershipCall

/-- What Authentik answers to the calls a request can make. -/
structure AuthentikReplies where
  userSearch : Reply
  oldGroup : Reply
  newGroup : Reply
  removeUser : MembershipCall
  addUser : MembershipCall
  setPassword : Reply
  deleteUser : Reply

def authentikHeaders (env : Env) : Except Exc Unit :=
  if env.settings.authentikApiToken = "" then
    .error (.businessRuleError
      ("AUTHENTIK_API_TOKEN is not configured. " ++
        "Set it in .env or as an environment variable."))
  else .ok ()

/-- `resp.json().get("results", [])` of an answer that is a success. -/
def searchResults (reply : Reply) : Except Exc Json := do
  let resp ← reply.await
  resp.raiseForStatus
  pyGet (← resp.json) "results" (.arr [])

/-- The first user whose `uid` has the given text. -/
def findByUid (py : Python) (providerId : String) :
    List Json → Except Exc (Option Json)
  | [] => .ok none
  | user :: rest => do
      let uid ← pyGet user "uid" (.str "")
      if py.str uid = providerId then .ok (some user)
      else findByUid py providerId rest

def authentikGetUserPk (env : Env) (providerId : String) (userSearch : Reply) :
    Except Exc Json := do
  authentikHeaders env
  let results ← searchResults userSearch
  if pyTruthy results then
    match ← findByUid env.python providerId (← pyIter results) with
    | some user => pyItem user "pk"
    | none => .error (.businessRuleError
        s!"User with provider_id {providerId} not found in Authentik (no exact uid match)")
  else
    .error (.businessRuleError
      s!"User with provider_id {providerId} not found in Authentik")

def findByName (groupName : String) : List Json → Except Exc (Option Json)
  | [] => .ok none
  | g :: rest => do
      let name ← pyGet g "name" .null
      if name.text? = some groupName then .ok (some g)
      else findByName groupName rest

def authentikGetGroupPk (env : Env) (groupName : String) (groupSearch : Reply) :
    Except Exc Json := do
  authentikHeaders env
  let results ← searchResults groupSearch
  match ← findByName groupName (← pyIter results) with
  | some g => pyItem g "pk"
  | none => .error (.businessRuleError
      s!"Group '{groupName}' not found in Authentik")

/-- The account and the two groups of a role change. -/
structure GroupMove where
  account : String
  oldGroup : String
  newGroup : String
  deriving DecidableEq

def groupMove (env : Env) (providerId : String) (oldRole newRole : UserRole)
    (replies : AuthentikReplies) : Except Exc GroupMove := do
  let userPk ← authentikGetUserPk env providerId replies.userSearch
  let oldGroupPk ← authentikGetGroupPk env oldRole.group replies.oldGroup
  let newGroupPk ← authentikGetGroupPk env newRole.group replies.newGroup
  .ok ⟨env.python.str userPk, env.python.str oldGroupPk, env.python.str newGroupPk⟩

/-- 204 is a success, 404 means that the user was not in the group. -/
def removeUserStatus (env : Env) (groupPk : String) (reply : Reply) :
    Except Exc Unit := do
  let resp ← callUnder env groupPk reply
  if resp.statusCode = 200 ∨ resp.statusCode = 204 ∨ resp.statusCode = 404 then
    .ok ()
  else resp.raiseForStatus

def addUserStatus (env : Env) (groupPk : String) (reply : Reply) :
    Except Exc Unit := do
  let resp ← callUnder env groupPk reply
  resp.raiseForStatus

/--
`_authentik_change_group`: its result and the memberships its calls leave,
which stay when the result is an exception.
-/
def authentikChangeGroup (env : Env) (providerId : String)
    (oldRole newRole : UserRole) (replies : AuthentikReplies)
    (members : Memberships) : Except Exc Unit × Memberships :=
  match groupMove env providerId oldRole newRole replies with
  | .error e => (.error e, members)
  | .ok move =>
      let removed :=
        replies.removeUser.removeUser env (move.oldGroup, move.account) members
      match removeUserStatus env move.oldGroup replies.removeUser.reply with
      | .error e => (.error e, removed)
      | .ok () =>
          (addUserStatus env move.newGroup replies.addUser.reply,
            replies.addUser.addUser env (move.newGroup, move.account) removed)

/-- A call under the URL of an account, which carries the key that was answered. -/
def callAccount (env : Env) (pk : Json) (reply : Reply) : Except Exc Response :=
  callUnder env (env.python.str pk) reply

def authentikSetPassword (env : Env) (providerId : String)
    (replies : AuthentikReplies) : Except Exc Unit := do
  let userPk ← authentikGetUserPk env providerId replies.userSearch
  let resp ← callAccount env userPk replies.setPassword
  resp.raiseForStatus

def authentikDeleteUser (env : Env) (providerId : String)
    (replies : AuthentikReplies) : Except Exc Unit := do
  let userPk ← authentikGetUserPk env providerId replies.userSearch
  let resp ← callAccount env userPk replies.deleteUser
  resp.raiseForStatus

end IsolatedEnv.Backend
