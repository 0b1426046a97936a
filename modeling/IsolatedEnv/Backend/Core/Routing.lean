import Mathlib.Data.List.Basic

/-!
# Routes

The table of the application, and how Starlette finds the route of a request in it.  The
pages of the documentation, which are there in debug mode only, are left out.
-/

namespace IsolatedEnv.Backend

/-- `parameter` stands for `[^/]+`. -/
inductive PathPart where
  | literal (text : String)
  | parameter
  deriving DecidableEq, Repr

inductive Endpoint where
  | listItems | getItem | createItem | updateItem | deleteItem
  | getMe | getRole | deleteSelf
  | listUsers | listUsersV2 | changeRole | blockUser | resetPassword | deleteUser
  | listAuditLog
  | freeContent | paidContent
  | metrics | healthLive | healthReady | health | healthInfo | healthCelery
  deriving DecidableEq, Repr

structure PathRoute where
  endpoint : Endpoint
  method : String
  parts : List PathPart

namespace PathRoute

def api (resource : List String) (rest : List PathPart) : List PathPart :=
  .literal "api" :: .literal "v1" :: (resource.map .literal ++ rest)

def items : List PathPart → List PathPart := api ["items"]

def user (name : String) : List PathPart := api ["user", name] []

def users : List PathPart → List PathPart := api ["admin", "users"]

def all : List PathRoute := [
  ⟨.listItems, "GET", items []⟩,
  ⟨.getItem, "GET", items [.parameter]⟩,
  ⟨.createItem, "POST", items []⟩,
  ⟨.updateItem, "PATCH", items [.parameter]⟩,
  ⟨.deleteItem, "DELETE", items [.parameter]⟩,
  ⟨.getMe, "GET", user "me"⟩,
  ⟨.getRole, "GET", user "role"⟩,
  ⟨.deleteSelf, "DELETE", user "me"⟩,
  ⟨.listUsers, "GET", users []⟩,
  ⟨.listUsersV2, "GET", users [.literal "v2"]⟩,
  ⟨.changeRole, "PATCH", users [.parameter, .literal "role"]⟩,
  ⟨.blockUser, "PATCH", users [.parameter, .literal "block"]⟩,
  ⟨.resetPassword, "POST", users [.parameter, .literal "reset-password"]⟩,
  ⟨.deleteUser, "DELETE", users [.parameter]⟩,
  ⟨.listAuditLog, "GET", api ["admin", "audit-log"] []⟩,
  ⟨.freeContent, "GET", api ["content", "free"] []⟩,
  ⟨.paidContent, "GET", api ["content", "paid"] []⟩,
  ⟨.metrics, "GET", [.literal "metrics"]⟩,
  ⟨.healthLive, "GET", [.literal "health", .literal "live"]⟩,
  ⟨.healthReady, "GET", [.literal "health", .literal "ready"]⟩,
  ⟨.health, "GET", [.literal "health"]⟩,
  ⟨.healthInfo, "GET", [.literal "health", .literal "info"]⟩,
  ⟨.healthCelery, "GET", [.literal "health", .literal "celery"]⟩]

end PathRoute

/--
The parameters of a path that matches.  The `$` at the end of the expression also stands before
a final line feed.
-/
def matchParts : List PathPart → List String → Option (List String)
  | [], [] => some []
  | [.literal text], [segment] => if segment = text ∨ segment = text ++ "\n" then some [] else none
  | .literal text :: parts, segment :: rest =>
      if segment = text then matchParts parts rest else none
  | .parameter :: parts, segment :: rest =>
      if segment = "" then none else (matchParts parts rest).map (segment :: ·)
  | _, _ => none

/-- The segments of a path that begins with a slash. -/
def pathSegments (path : String) : Option (List String) :=
  match path.toList with
  | '/' :: cs => some ((cs.splitOn '/').map String.ofList)
  | _ => none

def matchesPath (path : String) (route : PathRoute) : Option (List String) :=
  (pathSegments path).bind (matchParts route.parts)

inductive Routed where
  | endpoint (endpoint : Endpoint) (parameters : List String)
  | methodNotAllowed
  | redirect (path : String)
  | notFound
  deriving DecidableEq, Repr

/-- The path that `redirect_slashes` tries. -/
def otherSlash (path : String) : String :=
  if path.toList.getLast? = some '/' then
    String.ofList (path.toList.reverse.dropWhile (· = '/')).reverse
  else path ++ "/"

def fullMatch (method path : String) : Option (Endpoint × List String) :=
  PathRoute.all.findSome? fun route =>
    if route.method = method then (matchesPath path route).map fun parameters =>
      (route.endpoint, parameters)
    else none

/-- The router: a full match, a match but for the method, or the path with another slash. -/
def findRoute (method path : String) : Routed :=
  match fullMatch method path with
  | some (endpoint, parameters) => .endpoint endpoint parameters
  | none =>
      if PathRoute.all.any fun route => (matchesPath path route).isSome then .methodNotAllowed
      else if path ≠ "/" ∧ PathRoute.all.any fun route =>
          (matchesPath (otherSlash path) route).isSome then .redirect (otherSlash path)
      else .notFound

theorem matchParts_nil {segments : List String} (h : segments ≠ []) :
    matchParts [] segments = none := by
  cases segments with
  | nil => exact absurd rfl h
  | cons segment rest => rfl

theorem matchParts_literal {literal segment : String} {rest : List String} (h : rest ≠ []) :
    matchParts [.literal literal] (segment :: rest) = none := by
  rw [matchParts]
  · rw [matchParts_nil h, ite_self]
  · intro _ hrest
    exact h hrest

/-- A path without parameters matches itself, and itself with a final line feed. -/
theorem matchParts_literals {texts segments parameters : List String}
    (h : matchParts (texts.map .literal) segments = some parameters) :
    ['/'].intercalate (segments.map String.toList) ∈
      [['/'].intercalate (texts.map String.toList),
        ['/'].intercalate (texts.map String.toList) ++ ['\n']] := by
  induction texts generalizing segments with
  | nil =>
      by_cases hsegments : segments = []
      · simp [hsegments]
      · rw [List.map_nil, matchParts_nil hsegments] at h
        cases h
  | cons text texts ih =>
      match texts, segments with
      | _, [] => simp [matchParts] at h
      | [], [segment] =>
          simp only [List.map_cons, List.map_nil, matchParts] at h
          split at h
          · rename_i hsegment
            rcases hsegment with rfl | rfl <;> simp
          · cases h
      | [], segment :: next :: rest =>
          rw [List.map_cons, List.map_nil, matchParts_literal (List.cons_ne_nil _ _)] at h
          cases h
      | next :: texts, segment :: rest =>
          simp only [List.map_cons, matchParts] at h
          split at h
          · rename_i hsegment
            subst hsegment
            have hrest : rest ≠ [] := by
              rintro rfl
              simp [matchParts] at h
            obtain ⟨first, others, rfl⟩ := List.exists_cons_of_ne_nil hrest
            simpa [List.intercalate_cons_cons] using ih h
          · cases h

theorem matchesPath_literals {path : String} {texts parameters : List String}
    {endpoint : Endpoint} {method : String}
    (h : matchesPath path ⟨endpoint, method, texts.map .literal⟩ = some parameters) :
    path.toList ∈ ['/' :: ['/'].intercalate (texts.map String.toList),
      '/' :: ['/'].intercalate (texts.map String.toList) ++ ['\n']] := by
  obtain ⟨segments, hsegments, hmatch⟩ := Option.bind_eq_some_iff.mp h
  unfold pathSegments at hsegments
  split at hsegments
  · rename_i cs hpath
    obtain rfl := Option.some.inj hsegments
    have hcs := matchParts_literals hmatch
    simp only [List.map_map, Function.comp_def, String.toList_ofList, List.map_id',
      List.intercalate_splitOn] at hcs
    rw [hpath]
    simpa using hcs
  · cases hsegments

theorem findRoute_eq_endpoint {method path : String} {endpoint : Endpoint}
    {parameters : List String} : findRoute method path = .endpoint endpoint parameters ↔
      fullMatch method path = some (endpoint, parameters) := by
  unfold findRoute
  split
  · rename_i found parameters' hfound
    rw [hfound]
    simp
  · rename_i hnone
    rw [hnone]
    split
    · simp
    · split <;> simp

/-- The part of a route stands for the segment, wherever it is. -/
def PathPart.Covers (segment : String) (part : PathPart) : Prop :=
  part = .parameter ∨ part = .literal segment

instance decidableCovers (segment : String) (part : PathPart) :
    Decidable (part.Covers segment) :=
  inferInstanceAs (Decidable (_ ∨ _))

theorem matchParts_append {front rest : List String} {parts : List PathPart} (hrest : rest ≠ [])
    (h : (matchParts parts (front ++ rest)).isSome) :
    List.Forall₂ PathPart.Covers front (parts.take front.length) ∧
      (matchParts (parts.drop front.length) rest).isSome := by
  induction front generalizing parts with
  | nil => exact ⟨.nil, h⟩
  | cons segment front ih =>
      have hne : front ++ rest ≠ [] := List.append_ne_nil_of_right_ne_nil front hrest
      cases parts with
      | nil =>
          rw [List.cons_append, matchParts_nil (List.cons_ne_nil _ _)] at h
          cases h
      | cons part parts =>
          cases part with
          | parameter =>
              simp only [List.cons_append, matchParts] at h
              split at h
              · cases h
              · obtain ⟨hcovers, hmatch⟩ := ih (Option.isSome_map.symm.trans h)
                exact ⟨.cons (.inl rfl) hcovers, hmatch⟩
          | literal text =>
              cases parts with
              | nil =>
                  rw [List.cons_append, matchParts_literal hne] at h
                  cases h
              | cons next parts =>
                  simp only [List.cons_append, matchParts] at h
                  split at h
                  · rename_i hsegment
                    obtain ⟨hcovers, hmatch⟩ := ih h
                    exact ⟨.cons (.inr (by rw [hsegment])) hcovers, hmatch⟩
                  · cases h

/-- No route ends with a slash. -/
theorem matchParts_slash {parts : List PathPart} (h : .literal "" ∉ parts)
    (segments : List String) : matchParts parts (segments ++ [""]) = none := by
  induction parts generalizing segments with
  | nil => exact matchParts_nil (by simp)
  | cons part parts ih =>
      obtain ⟨hpart, hparts⟩ := not_or.mp fun hor => h (List.mem_cons.mpr hor)
      cases segments with
      | nil =>
          cases part with
          | parameter => simp [matchParts]
          | literal text =>
              have htext : ¬"" = text := fun heq => hpart (by rw [heq])
              have hfeed : ¬"" = text ++ "\n" := fun heq => by
                have hlist := congrArg String.toList heq
                simp at hlist
              cases parts <;> simp [matchParts, htext, hfeed]
      | cons segment segments =>
          have htail := ih hparts segments
          cases part with
          | parameter => simp [matchParts, htail]
          | literal text =>
              cases parts with
              | nil => exact matchParts_literal (by simp)
              | cons next parts => simp [matchParts, htail]

theorem matchesPath_slash {route : PathRoute} (h : route ∈ PathRoute.all) (path : String) :
    matchesPath (path ++ "/") route = none := by
  have hliteral : ∀ route ∈ PathRoute.all, .literal "" ∉ route.parts := by decide
  have hsegments : ∀ segments, pathSegments (path ++ "/") = some segments →
      ∃ front, segments = front ++ [""] := by
    intro segments hsegments
    rw [pathSegments, String.toList_append] at hsegments
    cases hpath : path.toList with
    | nil =>
        rw [hpath] at hsegments
        exact ⟨[], (Option.some.inj hsegments).symm⟩
    | cons c cs =>
        rw [hpath] at hsegments
        split at hsegments
        · rename_i rest hcons
          obtain ⟨-, rfl⟩ := List.cons.inj hcons
          refine ⟨(cs.splitOn '/').map String.ofList, (Option.some.inj hsegments).symm.trans ?_⟩
          change ((cs ++ '/' :: []).splitOn '/').map String.ofList = _
          rw [List.splitOn_append_cons_self]
          simp
        · cases hsegments
  rw [matchesPath]
  cases hfound : pathSegments (path ++ "/") with
  | none => rfl
  | some segments =>
      obtain ⟨front, rfl⟩ := hsegments segments hfound
      exact matchParts_slash (hliteral route h) front

/-- A path without a slash at the end is not redirected. -/
theorem findRoute_eq_notFound {path : String}
    (h : ∀ route ∈ PathRoute.all, matchesPath path route = none)
    (hother : path.toList.getLast? = some '/' →
      ∀ route ∈ PathRoute.all, matchesPath (otherSlash path) route = none)
    (method : String) : findRoute method path = .notFound := by
  have hfull : fullMatch method path = none := by
    refine List.findSome?_eq_none_iff.mpr fun route hroute => ?_
    simp [h route hroute]
  have hpath : PathRoute.all.any (fun route => (matchesPath path route).isSome) = false :=
    List.any_eq_false.mpr fun route hroute => by simp [h route hroute]
  have hslash : ∀ route ∈ PathRoute.all, matchesPath (otherSlash path) route = none := by
    intro route hroute
    by_cases hlast : path.toList.getLast? = some '/'
    · exact hother hlast route hroute
    · rw [otherSlash, if_neg hlast, matchesPath_slash hroute]
  have hnone : PathRoute.all.any
      (fun route => (matchesPath (otherSlash path) route).isSome) = false :=
    List.any_eq_false.mpr fun route hroute => by simp [hslash route hroute]
  rw [findRoute, hfull, hpath, hnone]
  simp

/-- Only slashes at the end are redirected, and only to where a route is. -/
theorem findRoute_eq_redirect {method path location : String}
    (h : findRoute method path = .redirect location) :
    path.toList.getLast? = some '/' ∧
      location = String.ofList (path.toList.reverse.dropWhile (· = '/')).reverse ∧
        ∃ route ∈ PathRoute.all, (matchesPath location route).isSome := by
  unfold findRoute at h
  split at h
  · cases h
  · split at h
    · cases h
    · split at h
      · rename_i hother
        obtain rfl := Routed.redirect.inj h
        obtain ⟨route, hroute, hmatch⟩ := List.any_eq_true.mp hother.2
        unfold otherSlash at hmatch ⊢
        split at hmatch
        · rename_i hlast
          rw [if_pos hlast]
          exact ⟨hlast, rfl, route, hroute, hmatch⟩
        · rw [matchesPath_slash hroute] at hmatch
          cases hmatch
      · cases h

end IsolatedEnv.Backend
