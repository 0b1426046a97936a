import IsolatedEnv.Frontend.PathParameters

/-!
# Identifiers and redirects

A path that ends with a slash, as one does for an identifier that is empty or a dot, is
redirected to the path without it, and `fetch` follows with the same method.  What the
location says is parsed and decoded once more.
-/

namespace IsolatedEnv.Frontend

open IsolatedEnv.Foundation IsolatedEnv.Backend
open FormUrlencoded (unquote isAscii KeepsAscii)

/-- The characters that `RedirectResponse` leaves in a location; 39 is the apostrophe. -/
def locationUnescaped (c : Char) : Bool :=
  c.isAlphanum || c ∈ "_.-~:/%#?=@[]!$&()*+,;".toList || c.toNat = 39

/-- The path that the server sees after a redirect. -/
def nextPath (lossy : List UInt8 → String) (location : String) : String :=
  unquote lossy (UrlPath.pathname (UrlPath.encode locationUnescaped location))

/-- What becomes of a request that `fetch` sends up to so many times. -/
def follow (lossy : List UInt8 → String) (method : String) : Nat → String → Option Routed
  | 0, _ => none
  | requests + 1, path =>
      match findRoute method path with
      | .redirect location => follow lossy method requests (nextPath lossy location)
      | routed => some routed

variable {lossy : List UInt8 → String} {call : IdCall}

/-! ## Where redirects lead -/

/-- The paths of all items and of all users, by their segments. -/
def collections : List (List (List Char)) := [IdCall.getItem.leading, IdCall.deleteUser.leading]

theorem IdCall.leading_mem (call : IdCall) : call.leading ∈ collections := by
  cases call <;> simp [collections, IdCall.leading]

theorem collections_chars : ∀ leading ∈ collections, ∀ s ∈ leading, ∀ c ∈ s,
    (isAscii c = true ∧ c ≠ '%') ∧ c ∉ ['/', '\\', '?', '#'] := by
  have hall : (collections.all fun leading => leading.all fun s => s.all fun c =>
      (isAscii c && c ≠ '%') && !decide (c ∈ ['/', '\\', '?', '#'])) = true := by
    decide
  intro leading hleading s hs c hc
  have hsegments := List.all_eq_true.mp hall leading hleading
  have hchar := List.all_eq_true.mp (List.all_eq_true.mp hsegments s hs) c hc
  simpa only [Bool.and_eq_true, Bool.not_eq_true', decide_eq_true_eq, decide_eq_false_iff_not]
    using hchar

theorem collections_encoded : ∀ leading ∈ collections,
    (∀ s ∈ leading, UrlPath.isDoubleDot s = false ∧ UrlPath.isSingleDot s = false) ∧
      UrlPath.encode locationUnescaped (String.ofList (UrlPath.joinSegments leading)) =
        UrlPath.joinSegments leading := by
  decide +kernel

theorem IdCall.plain_joined (call : IdCall) {segments : List (List Char)}
    (h : ∀ s ∈ segments, s ∈ call.leading) :
    ∀ c ∈ UrlPath.joinSegments segments ++ ['/'], isAscii c = true ∧ c ≠ '%' := by
  intro c hc
  simp only [UrlPath.joinSegments, List.mem_append, List.mem_flatMap, List.mem_cons,
    List.not_mem_nil, or_false] at hc
  rcases hc with ⟨s, hs, rfl | hc⟩ | rfl
  · exact ⟨rfl, by decide⟩
  · exact (collections_chars call.leading call.leading_mem s (h s hs) c hc).1
  · exact ⟨rfl, by decide⟩

/-- The path of all items, or of all users. -/
def IdCall.collection (call : IdCall) : String :=
  String.ofList (UrlPath.joinSegments call.leading)

theorem IdCall.collection_last (call : IdCall) :
    call.collection.toList.getLast? ≠ some '/' := by
  cases call <;> decide

/-- The path above it, with its slash. -/
def IdCall.above (call : IdCall) : List Char :=
  UrlPath.joinSegments call.leading.dropLast ++ ['/']

def actions : List String := ["role", "block", "reset-password"]

/-- The segments that a route for one user may end with. -/
def actionSegments : List String := actions ++ actions.map (· ++ "\n")

/-- The paths that a call and its redirects come to. -/
inductive IdCall.Near (call : IdCall) : String → Prop
  | below (text : String) : call.Near (call.seen text)
  | collection : call.Near call.collection
  | above (segment : String) (h : segment ∈ "" :: actionSegments) :
      call.Near (String.ofList (call.above ++ segment.toList))

theorem IdCall.findRoute_collection (call : IdCall) : findRoute call.method call.collection =
    if call = .getItem then .endpoint .listItems [] else .methodNotAllowed := by
  cases call <;> decide +kernel

theorem IdCall.findRoute_above (call : IdCall) {segment : String}
    (h : segment ∈ "" :: actionSegments) :
    findRoute call.method (String.ofList (call.above ++ segment.toList)) = .notFound := by
  have hall : ∀ leading ∈ collections, ∀ segment ∈ "" :: actionSegments,
      (∀ route ∈ PathRoute.all, matchesPath (String.ofList
        (UrlPath.joinSegments leading.dropLast ++ ['/'] ++ segment.toList)) route = none) ∧
      ((String.ofList (UrlPath.joinSegments leading.dropLast ++ ['/'] ++
          segment.toList)).toList.getLast? = some '/' →
        ∀ route ∈ PathRoute.all, matchesPath (otherSlash (String.ofList
          (UrlPath.joinSegments leading.dropLast ++ ['/'] ++ segment.toList))) route = none) := by
    decide +kernel
  obtain ⟨hpath, hother⟩ := hall call.leading call.leading_mem segment h
  exact findRoute_eq_notFound hpath hother call.method

theorem IdCall.Near.endpoint {path : String} (h : call.Near path) {endpoint : Endpoint}
    {parameters : List String}
    (hroute : findRoute call.method path = .endpoint endpoint parameters) :
    endpoint = call.endpoint ∨ call = .getItem ∧ endpoint = .listItems := by
  cases h with
  | below text =>
      have hmatch := findRoute_eq_endpoint.mp hroute
      rw [call.fullMatch_seen] at hmatch
      split at hmatch
      · cases hmatch
        exact .inl rfl
      · cases hmatch
  | collection =>
      rw [call.findRoute_collection] at hroute
      split at hroute
      · rename_i hcall
        exact .inr ⟨hcall, (Routed.endpoint.inj hroute).1.symm⟩
      · cases hroute
  | above segment hsegment =>
      rw [call.findRoute_above hsegment] at hroute
      cases hroute

/-! ## What is redirected -/

theorem matchParts_action {text x y : String} {rest : List String}
    (h : (matchParts [.parameter, .literal text] (x :: y :: rest)).isSome) :
    rest = [] ∧ (y = text ∨ y = text ++ "\n") := by
  have htail : (matchParts [.literal text] (y :: rest)).isSome := by
    rw [matchParts] at h
    split at h
    · cases h
    · rwa [Option.isSome_map] at h
  cases rest with
  | nil =>
      rw [matchParts] at htail
      split at htail
      · rename_i hy
        exact ⟨rfl, hy⟩
      · cases htail
  | cons z rest =>
      rw [matchParts_literal (List.cons_ne_nil z rest)] at htail
      cases htail

/-- What the routes of a collection have behind its path. -/
def routeEnds : List (List PathPart) :=
  [] :: [.parameter] :: [.literal "v2"] :: actions.map fun text => [.parameter, .literal text]

theorem matchParts_routeEnds {parts : List PathPart} (hparts : parts ∈ routeEnds)
    {x y : String} {rest : List String} (h : (matchParts parts (x :: y :: rest)).isSome) :
    rest = [] ∧ y ∈ actionSegments := by
  rcases List.mem_cons.mp hparts with rfl | hparts
  · cases h
  rcases List.mem_cons.mp hparts with rfl | hparts
  · simp [matchParts] at h
  rcases List.mem_cons.mp hparts with rfl | hparts
  · rw [matchParts_literal (List.cons_ne_nil _ _)] at h
    cases h
  obtain ⟨text, htext, rfl⟩ := List.mem_map.mp hparts
  obtain ⟨hrest, hy⟩ := matchParts_action h
  have hall : ∀ text ∈ actions, text ∈ actionSegments ∧ text ++ "\n" ∈ actionSegments := by
    decide
  exact ⟨hrest, hy.elim (fun hy => hy ▸ (hall text htext).1) fun hy => hy ▸ (hall text htext).2⟩

theorem IdCall.drop_mem_routeEnds (call : IdCall) {route : PathRoute}
    (hroute : route ∈ PathRoute.all)
    (h : List.Forall₂ PathPart.Covers (call.leading.map String.ofList)
      (route.parts.take (call.leading.map String.ofList).length)) :
    route.parts.drop (call.leading.map String.ofList).length ∈ routeEnds := by
  have hall : ∀ leading ∈ collections, ∀ route ∈ PathRoute.all,
      List.Forall₂ PathPart.Covers (leading.map String.ofList)
          (route.parts.take (leading.map String.ofList).length) →
        route.parts.drop (leading.map String.ofList).length ∈ routeEnds := by
    decide +kernel
  exact hall call.leading call.leading_mem route hroute h

/-- A route below the collection takes one segment, or one and an action. -/
theorem IdCall.seen_of_route (hafter : call.after = "") {text : String} {route : PathRoute}
    (hroute : route ∈ PathRoute.all) (h : (matchesPath (call.seen text) route).isSome) :
    '/' ∉ text.toList ∨ ∃ segment : List Char, '/' ∉ segment ∧ ∃ literal ∈ actionSegments,
      text.toList = segment ++ '/' :: literal.toList := by
  have htrailing : call.trailing = [] := by
    revert hafter
    cases call <;> decide
  by_cases hslash : '/' ∈ text.toList
  · obtain ⟨segment, rest, hcs, hsegment⟩ := List.eq_append_cons_of_mem hslash
    obtain ⟨next, others, hrest⟩ := List.exists_cons_of_ne_nil (List.splitOn_ne_nil '/' rest)
    rw [matchesPath, call.pathSegments_seen, htrailing, hcs,
      List.splitOn_append_cons_self_of_not_mem hsegment, hrest, Option.bind_some] at h
    obtain ⟨hcovers, hmatch⟩ := matchParts_append (by simp) h
    have hends := call.drop_mem_routeEnds hroute hcovers
    simp only [List.map_cons, List.map_nil, List.append_nil] at hmatch
    obtain ⟨hothers, haction⟩ := matchParts_routeEnds hends hmatch
    have hnext : rest = next := by
      have hjoin : ['/'].intercalate (rest.splitOn '/') = rest := List.intercalate_splitOn '/'
      rw [hrest, List.map_eq_nil_iff.mp hothers, List.intercalate_singleton] at hjoin
      exact hjoin.symm
    refine .inr ⟨segment, hsegment, String.ofList next, haction, ?_⟩
    rw [hcs, hnext, String.toList_ofList]
  · exact .inl hslash

theorem IdCall.location_near (hafter : call.after = "") {text location : String}
    (h : findRoute call.method (call.seen text) = .redirect location) :
    location = call.collection ∨ ∃ text, location = call.seen text := by
  obtain ⟨-, rfl, -⟩ := findRoute_eq_redirect h
  have hbefore : (call.before.toList.reverse.dropWhile (· = '/')).reverse =
      call.collection.toList := by
    cases call <;> decide
  have hseen : (call.seen text).toList.reverse =
      text.toList.reverse ++ call.before.toList.reverse := by
    rw [IdCall.seen, hafter]
    simp
  rw [hseen, List.dropWhile_append]
  split
  · exact .inl (by rw [hbefore, String.ofList_toList])
  · refine .inr ⟨String.ofList (text.toList.reverse.dropWhile (· = '/')).reverse, ?_⟩
    rw [IdCall.seen, hafter]
    simp

/-! ## Where the locations lead -/

theorem encode_isAscii {keep : Char → Bool} {text : String} :
    ∀ c ∈ UrlPath.encode keep text, isAscii c = true :=
  fun _ hc => (UrlPath.encode_mem hc).1

theorem IdCall.before_eq (call : IdCall) :
    call.before.toList = UrlPath.joinSegments call.leading ++ ['/'] := by
  cases call <;> decide

theorem IdCall.nextPath_seen (hafter : call.after = "") (text : String) :
    nextPath lossy (call.seen text) = unquote lossy (UrlPath.joinSegments
      (UrlPath.resolveDots call.leading.reverse
        ((UrlPath.beforeQuery (UrlPath.encode locationUnescaped text)).splitOn '/'))) := by
  have hchars := collections_chars call.leading call.leading_mem
  obtain ⟨hdots, hkept⟩ := collections_encoded call.leading call.leading_mem
  have hbackslash : '\\' ∉ UrlPath.encode locationUnescaped text := by
    intro h
    exact UrlPath.encode_ne h rfl (by decide) rfl rfl
  have hencode : UrlPath.encode locationUnescaped (call.seen text) =
      UrlPath.joinSegments call.leading ++ '/' :: UrlPath.encode locationUnescaped text := by
    have hslash : UrlPath.encode locationUnescaped (String.ofList ['/']) = ['/'] := rfl
    rw [IdCall.seen, hafter, String.toList_empty, List.append_nil, UrlPath.encode_append,
      call.before_eq, UrlPath.encode_append, hkept, hslash, String.ofList_toList]
    simp
  rw [nextPath, hencode,
    UrlPath.pathname_behind (fun s hs c hc => (hchars s hs c hc).2) hdots hbackslash]

theorem IdCall.near_below (hlossy : KeepsAscii lossy) (hafter : call.after = "")
    {rest : List Char} (hrest : ∀ c ∈ rest, isAscii c = true) :
    call.Near (unquote lossy (UrlPath.joinSegments call.leading ++ '/' :: rest)) := by
  have hplain : ∀ c ∈ call.before.toList, isAscii c = true ∧ c ≠ '%' := by
    rw [call.before_eq]
    exact call.plain_joined fun _ hs => hs
  have hbefore : UrlPath.joinSegments call.leading ++ '/' :: rest =
      call.before.toList ++ rest := by
    rw [call.before_eq]
    simp
  rw [hbefore, UrlPath.unquote_literal hlossy hplain hrest]
  have hseen : call.seen (unquote lossy rest) =
      String.ofList (call.before.toList ++ (unquote lossy rest).toList) := by
    rw [IdCall.seen, hafter]
    simp
  exact hseen ▸ .below _

theorem encode_action : ∀ action ∈ "" :: actionSegments,
    FormUrlencoded.percentDecode (UrlPath.encode locationUnescaped action) =
        FormUrlencoded.octets action ∧
      (UrlPath.isDoubleDot (UrlPath.encode locationUnescaped action) = false ∧
        UrlPath.isSingleDot (UrlPath.encode locationUnescaped action) = false) ∧
      '/' ∉ UrlPath.encode locationUnescaped action ∧
      UrlPath.beforeQuery (UrlPath.encode locationUnescaped
        (String.ofList ('/' :: action.toList))) =
          '/' :: UrlPath.encode locationUnescaped action := by
  decide +kernel

theorem unquote_action {segment : String} (h : segment ∈ "" :: actionSegments) :
    unquote lossy (UrlPath.encode locationUnescaped segment) = segment := by
  rw [FormUrlencoded.unquote_ascii lossy encode_isAscii, (encode_action segment h).1,
    FormUrlencoded.decodeUtf8_octets]

theorem IdCall.near_above (hlossy : KeepsAscii lossy) {segment : String}
    (h : segment ∈ "" :: actionSegments) :
    call.Near (unquote lossy (UrlPath.joinSegments (call.leading.dropLast ++
      [UrlPath.encode locationUnescaped segment]))) := by
  have hplain : ∀ c ∈ call.above, isAscii c = true ∧ c ≠ '%' :=
    call.plain_joined fun _ => List.mem_of_mem_dropLast
  have hjoin : UrlPath.joinSegments (call.leading.dropLast ++
      [UrlPath.encode locationUnescaped segment]) =
        call.above ++ UrlPath.encode locationUnescaped segment := by
    simp [UrlPath.joinSegments, IdCall.above]
  rw [hjoin, UrlPath.unquote_literal hlossy hplain encode_isAscii, unquote_action h]
  exact .above segment h

theorem IdCall.near_segments (hlossy : KeepsAscii lossy) (hafter : call.after = "")
    {segment : List Char} {rest : List (List Char)}
    (h : ∀ s ∈ segment :: rest, ∀ c ∈ s, isAscii c = true) :
    call.Near (unquote lossy (UrlPath.joinSegments (call.leading ++ segment :: rest))) := by
  have hjoin : UrlPath.joinSegments (call.leading ++ segment :: rest) =
      UrlPath.joinSegments call.leading ++ '/' :: (segment ++ UrlPath.joinSegments rest) := by
    simp [UrlPath.joinSegments]
  rw [hjoin]
  refine call.near_below hlossy hafter fun c hc => ?_
  rcases List.mem_append.mp hc with hc | hc
  · exact h segment List.mem_cons_self c hc
  · obtain ⟨s, hs, hc⟩ := List.mem_flatMap.mp hc
    rcases List.mem_cons.mp hc with rfl | hc
    · rfl
    · exact h s (List.mem_cons_of_mem _ hs) c hc

/-- Dots go up to the path above the collection at most. -/
theorem IdCall.near_resolved (hlossy : KeepsAscii lossy) (hafter : call.after = "")
    {segment : List Char} (hsegment : ∀ c ∈ segment, isAscii c = true) {rest : List (List Char)}
    (hrest : rest = [] ∨ ∃ action ∈ actionSegments,
      rest = [UrlPath.encode locationUnescaped action]) :
    call.Near (unquote lossy (UrlPath.joinSegments
      (UrlPath.resolveDots call.leading.reverse (segment :: rest)))) := by
  have hlast : ∃ action ∈ "" :: actionSegments,
      rest.headD [] = UrlPath.encode locationUnescaped action := by
    rcases hrest with rfl | ⟨action, haction, rfl⟩
    · exact ⟨"", List.mem_cons_self, rfl⟩
    · exact ⟨action, List.mem_cons_of_mem _ haction, rfl⟩
  have hascii : ∀ s ∈ rest, ∀ c ∈ s, isAscii c = true := by
    rcases hrest with rfl | ⟨action, haction, rfl⟩
    · simp
    · exact List.forall_mem_singleton.mpr encode_isAscii
  have hdots : ∀ s ∈ rest, UrlPath.isDoubleDot s = false ∧ UrlPath.isSingleDot s = false := by
    rcases hrest with rfl | ⟨action, haction, rfl⟩
    · simp
    · exact List.forall_mem_singleton.mpr
        (encode_action action (List.mem_cons_of_mem _ haction)).2.1
  have hlength : rest.length ≤ 1 := by
    rcases hrest with rfl | ⟨action, haction, rfl⟩ <;> simp
  obtain ⟨action, haction, hhead⟩ := hlast
  have hresolved :
      UrlPath.resolveDots call.leading.reverse (segment :: rest) =
          call.leading.reverse.tail.reverse ++ [rest.headD []] ∨
        UrlPath.resolveDots call.leading.reverse (segment :: rest) =
            call.leading.reverse.reverse ++ [rest.headD []] ∨
          UrlPath.resolveDots call.leading.reverse (segment :: rest) =
            call.leading.reverse.reverse ++ segment :: rest :=
    UrlPath.resolveDots_cons hdots hlength
  rw [hhead, List.tail_reverse, List.reverse_reverse, List.reverse_reverse] at hresolved
  rcases hresolved with hup | hhere | hbelow
  · rw [hup]
    exact call.near_above hlossy haction
  · rw [hhere]
    exact call.near_segments hlossy hafter (List.forall_mem_singleton.mpr encode_isAscii)
  · rw [hbelow]
    exact call.near_segments hlossy hafter (List.forall_mem_cons.mpr ⟨hsegment, hascii⟩)

theorem beforeQuery_isAscii {text : String} :
    ∀ c ∈ UrlPath.beforeQuery (UrlPath.encode locationUnescaped text), isAscii c = true :=
  fun c hc => encode_isAscii c ((List.takeWhile_sublist _).subset hc)

theorem slash_notMem_beforeQuery {cs : List Char} (h : '/' ∉ cs) :
    '/' ∉ UrlPath.beforeQuery (UrlPath.encode locationUnescaped (String.ofList cs)) := by
  have hencode : '/' ∉ UrlPath.encode locationUnescaped (String.ofList cs) :=
    UrlPath.notMem_encode (by rwa [String.toList_ofList]) (by decide) rfl
  exact fun hc => hencode ((List.takeWhile_sublist _).subset hc)

/-- A query in the segment hides the action behind it. -/
theorem beforeQuery_action (segment : List Char) {action : String}
    (h : action ∈ actionSegments) :
    UrlPath.beforeQuery (UrlPath.encode locationUnescaped
        (String.ofList (segment ++ '/' :: action.toList))) =
      UrlPath.beforeQuery (UrlPath.encode locationUnescaped (String.ofList segment)) ∨
    UrlPath.beforeQuery (UrlPath.encode locationUnescaped
        (String.ofList (segment ++ '/' :: action.toList))) =
      UrlPath.beforeQuery (UrlPath.encode locationUnescaped (String.ofList segment)) ++
        '/' :: UrlPath.encode locationUnescaped action := by
  have hquery := (encode_action action (List.mem_cons_of_mem _ h)).2.2.2
  rw [UrlPath.encode_append, UrlPath.beforeQuery, List.takeWhile_append]
  split
  · rename_i hwhole
    refine .inr ?_
    rw [UrlPath.beforeQuery] at hquery
    rw [hquery, UrlPath.beforeQuery,
      (List.takeWhile_prefix _).eq_of_length hwhole]
  · exact .inl rfl

theorem IdCall.nextPath_near (hlossy : KeepsAscii lossy) (hafter : call.after = "")
    {text : String} {route : PathRoute} (hroute : route ∈ PathRoute.all)
    (h : (matchesPath (call.seen text) route).isSome) :
    call.Near (nextPath lossy (call.seen text)) := by
  rw [call.nextPath_seen hafter]
  rcases call.seen_of_route hafter hroute h with
    hslash | ⟨segment, hsegment, action, haction, htext⟩
  · have hquery := slash_notMem_beforeQuery hslash
    rw [String.ofList_toList] at hquery
    rw [List.splitOn_eq_singleton hquery]
    exact call.near_resolved hlossy hafter beforeQuery_isAscii (.inl rfl)
  · have hquery := slash_notMem_beforeQuery hsegment
    have hplain := (encode_action action (List.mem_cons_of_mem _ haction)).2.2.1
    have hofList : text = String.ofList (segment ++ '/' :: action.toList) := by
      rw [← htext, String.ofList_toList]
    rw [hofList]
    rcases beforeQuery_action segment haction with hcut | hwhole
    · rw [hcut, List.splitOn_eq_singleton hquery]
      exact call.near_resolved hlossy hafter beforeQuery_isAscii (.inl rfl)
    · rw [hwhole, List.splitOn_append_cons_self_of_not_mem hquery, List.splitOn_eq_singleton hplain]
      exact call.near_resolved hlossy hafter beforeQuery_isAscii (.inr ⟨action, haction, rfl⟩)

theorem IdCall.nextPath_collection (hlossy : KeepsAscii lossy) :
    nextPath lossy call.collection = call.collection := by
  have hchars := collections_chars call.leading call.leading_mem
  obtain ⟨hdots, hencode⟩ := collections_encoded call.leading call.leading_mem
  have hplain : ∀ c ∈ UrlPath.joinSegments call.leading, isAscii c = true ∧ c ≠ '%' :=
    fun c hc => call.plain_joined (fun _ hs => hs) c (List.mem_append_left _ hc)
  have hne : call.leading ≠ [] := by cases call <;> decide
  have hempty : unquote lossy [] = "" := rfl
  have hunquote : unquote lossy (UrlPath.joinSegments call.leading ++ []) = String.ofList
      (UrlPath.joinSegments call.leading ++ (unquote lossy []).toList) :=
    UrlPath.unquote_literal hlossy hplain (by simp)
  rw [nextPath, IdCall.collection, hencode,
    UrlPath.pathname_joinSegments hne (fun s hs c hc => (hchars s hs c hc).2) hdots]
  simpa [IdCall.collection, hempty] using hunquote

/-! ## Requests that are redirected -/

theorem IdCall.Near.redirect (hlossy : KeepsAscii lossy) (hafter : call.after = "")
    {path location : String} (h : call.Near path)
    (hredirect : findRoute call.method path = .redirect location) :
    call.Near (nextPath lossy location) := by
  cases h with
  | below text =>
      obtain ⟨-, -, route, hroute, hmatch⟩ := findRoute_eq_redirect hredirect
      rcases call.location_near hafter hredirect with rfl | ⟨text', rfl⟩
      · rw [call.nextPath_collection hlossy]
        exact .collection
      · exact call.nextPath_near hlossy hafter hroute hmatch
  | collection =>
      exact absurd (findRoute_eq_redirect hredirect).1 call.collection_last
  | above segment hsegment =>
      rw [call.findRoute_above hsegment] at hredirect
      cases hredirect

theorem IdCall.Near.follow (hlossy : KeepsAscii lossy) (hafter : call.after = "")
    {requests : Nat} {path : String} (h : call.Near path) {endpoint : Endpoint}
    {parameters : List String}
    (hfollow : follow lossy call.method requests path = some (.endpoint endpoint parameters)) :
    endpoint = call.endpoint ∨ call = .getItem ∧ endpoint = .listItems := by
  induction requests generalizing path with
  | zero => cases hfollow
  | succ requests ih =>
      rw [Frontend.follow] at hfollow
      split at hfollow
      · rename_i location hredirect
        exact ih (h.redirect hlossy hafter hredirect) hfollow
      · exact h.endpoint (Option.some.inj hfollow)

end IsolatedEnv.Frontend
