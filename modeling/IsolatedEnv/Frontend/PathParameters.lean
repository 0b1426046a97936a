import IsolatedEnv.Backend.Core.Routing
import IsolatedEnv.Foundation.UrlPath
import IsolatedEnv.Frontend.Actions

/-!
# Identifiers in paths

The data-access layer writes an identifier into a path with `encodeURIComponent`.  The URL
parser of `fetch` and the percent-decoding of the server come before the router sees it.
-/

namespace IsolatedEnv.Frontend

open IsolatedEnv.Foundation IsolatedEnv.Backend
open FormUrlencoded (unquote unreserved)

/-- The characters that `encodeURIComponent` leaves; 39 is the apostrophe. -/
def uriUnescaped (c : Char) : Bool :=
  c.isAlphanum || c ∈ ['-', '_', '.', '!', '~', '*', '(', ')'] || c.toNat = 39

/-- A lone surrogate makes it throw a `URIError`. -/
def encodeURIComponent (s : JsString) : Option (List Char) :=
  if WellFormed s then some (UrlPath.encode uriUnescaped (usvText s)) else none

/-! ## The calls -/

/-- The functions of the data-access layer that take an identifier. -/
inductive IdCall where
  | getItem | updateItem | deleteItem
  | changeUserRole | changeUserStatus | resetUserPassword | deleteUser
  deriving DecidableEq, Repr

namespace IdCall

def method : IdCall → String
  | getItem => "GET"
  | updateItem | changeUserRole | changeUserStatus => "PATCH"
  | deleteItem | deleteUser => "DELETE"
  | resetUserPassword => "POST"

def before : IdCall → String
  | getItem | updateItem | deleteItem => "/api/v1/items/"
  | changeUserRole | changeUserStatus | resetUserPassword | deleteUser => "/api/v1/admin/users/"

def after : IdCall → String
  | changeUserRole => "/role"
  | changeUserStatus => "/block"
  | resetUserPassword => "/reset-password"
  | getItem | updateItem | deleteItem | deleteUser => ""

/-- The endpoint that is meant. -/
def endpoint : IdCall → Endpoint
  | getItem => .getItem
  | updateItem => .updateItem
  | deleteItem => .deleteItem
  | changeUserRole => .changeRole
  | changeUserStatus => .blockUser
  | resetUserPassword => .resetPassword
  | deleteUser => .deleteUser

/-- The path that `fetch` asks for. -/
def target (call : IdCall) (id : JsString) : Option (List Char) :=
  (encodeURIComponent id).map fun text =>
    UrlPath.pathname (call.before.toList ++ (text ++ call.after.toList))

/-- The route that is found for it. -/
def routed (lossy : List UInt8 → String) (call : IdCall) (id : JsString) : Option Routed :=
  (call.target id).map fun path => findRoute call.method (unquote lossy path)

end IdCall

variable {call : IdCall} {text : String} {lossy : List UInt8 → String}

/-- The parts of the path around the identifier. -/
def IdCall.leading : IdCall → List (List Char)
  | getItem | updateItem | deleteItem => ["api", "v1", "items"].map String.toList
  | changeUserRole | changeUserStatus | resetUserPassword | deleteUser =>
      ["api", "v1", "admin", "users"].map String.toList

def IdCall.trailing : IdCall → List (List Char)
  | changeUserRole => ["role".toList]
  | changeUserStatus => ["block".toList]
  | resetUserPassword => ["reset-password".toList]
  | getItem | updateItem | deleteItem | deleteUser => []

/-- The path that the router sees. -/
def IdCall.seen (call : IdCall) (text : String) : String :=
  String.ofList (call.before.toList ++ (text.toList ++ call.after.toList))

theorem IdCall.splitOn_after (call : IdCall) (cs : List Char) :
    (cs ++ call.after.toList).splitOn '/' = cs.splitOn '/' ++ call.trailing := by
  have hcases : call.after.toList = [] ∧ call.trailing = [] ∨
      ∃ t, call.after.toList = '/' :: t ∧ call.trailing = t.splitOn '/' := by
    cases call with
    | getItem | updateItem | deleteItem | deleteUser => exact .inl ⟨rfl, rfl⟩
    | changeUserRole => exact .inr ⟨"role".toList, by decide⟩
    | changeUserStatus => exact .inr ⟨"block".toList, by decide⟩
    | resetUserPassword => exact .inr ⟨"reset-password".toList, by decide⟩
  rcases hcases with ⟨hafter, htrailing⟩ | ⟨t, hafter, htrailing⟩
  · rw [hafter, htrailing, List.append_nil, List.append_nil]
  · rw [hafter, htrailing, List.splitOn_append_cons_self]

theorem IdCall.pathSegments_seen (call : IdCall) (text : String) :
    pathSegments (call.seen text) = some (call.leading.map String.ofList ++
      ((text.toList.splitOn '/').map String.ofList ++ call.trailing.map String.ofList)) := by
  have hbefore : call.before.toList = '/' :: (['/'].intercalate call.leading ++ ['/']) := by
    cases call <;> decide
  have hleading : (['/'].intercalate call.leading).splitOn '/' = call.leading := by
    cases call <;> decide
  have hseen : (call.seen text).toList = '/' :: (['/'].intercalate call.leading ++
      '/' :: (text.toList ++ call.after.toList)) := by
    rw [IdCall.seen, String.toList_ofList, hbefore]
    simp
  rw [pathSegments, hseen]
  change some (List.map String.ofList (List.splitOn '/' _)) = _
  rw [List.splitOn_append_cons_self, hleading, call.splitOn_after]
  simp

/-- The route of the call takes one segment, and no other route of its method does. -/
theorem fullMatch_single (call : IdCall) {segment : String} (hne : segment ≠ "")
    {path : String} (hpath : pathSegments path = some (call.leading.map String.ofList ++
      segment :: call.trailing.map String.ofList)) :
    fullMatch call.method path = some (call.endpoint, [segment]) := by
  cases call <;> simp [fullMatch, PathRoute.all, matchesPath, hpath, matchParts, IdCall.method,
    IdCall.leading, IdCall.trailing, IdCall.endpoint, PathRoute.items, PathRoute.users,
    PathRoute.user, PathRoute.api, hne]

/-- More segments than one, or an empty one, match no route of the method. -/
theorem fullMatch_other (call : IdCall) {segments : List String} (hne : segments ≠ [])
    (hsegments : ∀ segment, segments = [segment] → segment = "") {path : String}
    (hpath : pathSegments path = some (call.leading.map String.ofList ++
      (segments ++ call.trailing.map String.ofList))) :
    fullMatch call.method path = none := by
  match segments with
  | [] => exact absurd rfl hne
  | [segment] =>
      obtain rfl := hsegments segment rfl
      cases call <;> simp [fullMatch, PathRoute.all, matchesPath, hpath, matchParts,
        IdCall.method, IdCall.leading, IdCall.trailing, PathRoute.items, PathRoute.users,
        PathRoute.user, PathRoute.api]
  | first :: second :: rest =>
      cases call <;> simp [fullMatch, PathRoute.all, matchesPath, hpath, matchParts,
        matchParts_literal, IdCall.method, IdCall.leading, IdCall.trailing, PathRoute.items,
        PathRoute.users, PathRoute.user, PathRoute.api]

theorem IdCall.fullMatch_seen (call : IdCall) (text : String) :
    fullMatch call.method (call.seen text) =
      if text ≠ "" ∧ '/' ∉ text.toList then some (call.endpoint, [text]) else none := by
  have hsegments := call.pathSegments_seen text
  by_cases hslash : '/' ∈ text.toList
  · rw [if_neg fun h => h.2 hslash]
    refine fullMatch_other call (by simp [List.splitOn_ne_nil]) (fun segment heq => ?_) hsegments
    obtain ⟨cs, cs', hcs⟩ := List.append_of_mem hslash
    have hlength := congrArg List.length heq
    rw [hcs, List.splitOn_append_cons_self, List.length_map, List.length_append,
      List.length_singleton] at hlength
    have hpositive (l : List Char) : 0 < (l.splitOn '/').length :=
      List.length_pos_of_ne_nil (List.splitOn_ne_nil '/' l)
    have hfirst := hpositive cs
    have hsecond := hpositive cs'
    omega
  · rw [List.splitOn_eq_singleton hslash, List.map_singleton, String.ofList_toList] at hsegments
    by_cases hempty : text = ""
    · rw [if_neg fun h => h.1 hempty]
      refine fullMatch_other call (List.cons_ne_nil _ _) (fun segment heq => ?_) hsegments
      rw [← List.singleton_inj.mp heq, hempty]
    · rw [if_pos ⟨hempty, hslash⟩]
      exact fullMatch_single call hempty hsegments

/-! ## Dot segments -/

end IsolatedEnv.Frontend
