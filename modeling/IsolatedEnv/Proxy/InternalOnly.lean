import IsolatedEnv.Backend.Core.Middleware
import IsolatedEnv.Backend.Core.Routing
import IsolatedEnv.Proxy.Nginx

/-!
# Internal endpoints behind the proxy

`_require_internal` looks at the peer of the connection, which behind nginx is nginx.
What keeps clients from outside away from an endpoint is then nginx alone.
-/

namespace IsolatedEnv.Proxy

open IsolatedEnv.Foundation IsolatedEnv.Backend

/-! ## The guard -/

def internalNetworks : List IpNetwork :=
  [.v4 0x7f000000 8, .v4 0x0a000000 8, .v4 0xac100000 12, .v4 0xc0a80000 16, .v6 1 128]

def isInternal (address : IpAddress) : Bool :=
  internalNetworks.any fun network => network.contains address

def isInternalIp (host : String) : Bool :=
  match IpAddress.parse host.toList with
  | some address => isInternal address
  | none => false

/-- `_require_internal`, on `request.client.host`. -/
def requireInternal (host : Option String) : Except Raised Unit :=
  if isInternalIp (host.getD "unknown") then .ok ()
  else .error (.http 403 (.str "Endpoint restricted to internal networks") [])

/-! ## The endpoints -/

/-- What the endpoints report; their failures are caught and reported as well. -/
structure Report where
  metrics : Json
  systemInfo : Json
  celeryStatus : Json

/-- The endpoints that `_require_internal` guards. -/
def internalEndpoints : List Endpoint := [.metrics, .healthInfo, .healthCelery]

def Report.ofEndpoint (report : Report) : Endpoint → Json
  | .metrics => report.metrics
  | .healthInfo => report.systemInfo
  | _ => report.celeryStatus

/--
`urllib.parse.unquote`, by which uvicorn makes the path of a request.  An escape past ASCII,
which no guarded path has, is left at its octets.
-/
def unquote : List Char → List Char
  | [] => []
  | '%' :: a :: b :: cs =>
      match escaped a b with
      | some c => c :: unquote cs
      | none => '%' :: unquote (a :: b :: cs)
  | c :: cs => c :: unquote cs

/-- The guarded endpoint that serves the request. -/
def guarded (method : String) (path : List Char) : Option Endpoint :=
  match findRoute method (String.ofList path) with
  | .endpoint endpoint _ => if endpoint ∈ internalEndpoints then some endpoint else none
  | _ => none

/-- The routes for a path and a peer; `others` is the rest of the application. -/
def mainRoutes (others : Routes) (report : Report) (host : Option String)
    (path : List Char) : Routes where
  handle request :=
    match guarded request.method path with
    | some endpoint => (requireInternal host).map fun _ => ⟨200, [], report.ofEndpoint endpoint⟩
    | none => others.handle request
  ok_plain request r h := by
    split at h
    · rename_i endpoint _
      obtain ⟨_, -, rfl⟩ : ∃ u, requireInternal host = .ok u ∧
          (⟨200, [], report.ofEndpoint endpoint⟩ : HttpResponse) = r := by
        cases hguard : requireInternal host with
        | ok u => exact ⟨u, rfl, by rw [hguard] at h; exact Except.ok.inj h⟩
        | error e => rw [hguard] at h; cases h
      exact fun _ _ => rfl
    · exact others.ok_plain request r h
  http_plain request statusCode detail headers h := by
    split at h
    · unfold requireInternal at h
      split at h
      · cases h
      · cases h
        exact fun _ _ => rfl
    · exact others.http_plain request statusCode detail headers h

def serving (site : Site) (report : Report) (host : Option String) (path : List Char) : Site :=
  { site with routes := mainRoutes site.routes report host path }

/-! ## The paths of the endpoints -/

/-- The paths that nginx hands on to the backend whoever asks for them. -/
def openPaths : List (List Char) :=
  ["/health/info", "/health/info\n", "/health/celery", "/health/celery\n"].map String.toList

def metricsPaths : List (List Char) := ["/metrics", "/metrics\n"].map String.toList

theorem mem_internalPaths {route : PathRoute} {path : String} {parameters : List String}
    (hroute : route ∈ PathRoute.all) (hinternal : route.endpoint ∈ internalEndpoints)
    (h : matchesPath path route = some parameters) :
    route.method = "GET" ∧ path.toList ∈ openPaths ++ metricsPaths := by
  have hliterals : ∀ route ∈ PathRoute.all, route.endpoint ∈ internalEndpoints →
      route = ⟨.metrics, "GET", ["metrics"].map .literal⟩ ∨
        route = ⟨.healthInfo, "GET", ["health", "info"].map .literal⟩ ∨
          route = ⟨.healthCelery, "GET", ["health", "celery"].map .literal⟩ := by
    simp [PathRoute.all, internalEndpoints]
  rcases hliterals route hroute hinternal with rfl | rfl | rfl
  all_goals
    have hpath := matchesPath_literals h
    simp only [List.mem_cons, List.not_mem_nil, or_false] at hpath
    rcases hpath with hpath | hpath <;> (rw [hpath]; exact ⟨rfl, by decide⟩)

theorem guarded_eq_some {method : String} {path : List Char} {endpoint : Endpoint}
    (h : guarded method path = some endpoint) :
    method = "GET" ∧ path ∈ openPaths ++ metricsPaths := by
  unfold guarded at h
  split at h
  · rename_i found parameters hfound
    split at h
    · rename_i hinternal
      obtain ⟨route, hroute, hmatch⟩ :=
        List.exists_of_findSome?_eq_some (findRoute_eq_endpoint.mp hfound)
      split at hmatch
      · rename_i hmethod
        obtain ⟨parameters', hparameters, heq⟩ := Option.map_eq_some_iff.mp hmatch
        cases heq
        have hpath := mem_internalPaths hroute hinternal hparameters
        rw [String.toList_ofList] at hpath
        exact ⟨hmethod ▸ hpath.1, hpath.2⟩
      · cases hmatch
    · cases h
  · cases h

theorem guarded_openPaths {path : List Char} (h : path ∈ openPaths) :
    ∃ endpoint, guarded "GET" path = some endpoint := by
  have hall : ∀ path ∈ openPaths, (guarded "GET" path).isSome := by decide +kernel
  exact Option.isSome_iff_exists.mp (hall path h)

/-! ## What nginx keeps away -/

/-- Where nginx reads a path, the backend reads the same one. -/
theorem unquote_of_decodePath {target uri : List Char} (h : decodePath target = some uri) :
    unquote target = uri := by
  induction target using decodePath.induct generalizing uri with
  | case1 => exact Option.some.inj h
  | case2 a b cs ih =>
      rw [decodePath] at h
      obtain ⟨c, hescaped, hrest⟩ := Option.bind_eq_some_iff.mp h
      split at hrest
      · cases hrest
      · obtain ⟨tail, htail, rfl⟩ := Option.map_eq_some_iff.mp hrest
        rw [unquote, hescaped, ih htail]
  | case3 cs hshort =>
      rw [decodePath.eq_3 cs hshort] at h
      cases h
  | case4 c cs hlong hpercent hcontrol =>
      rw [decodePath.eq_4 c cs hlong hpercent, if_pos hcontrol] at h
      cases h
  | case5 c cs hlong hpercent hplain ih =>
      rw [decodePath.eq_4 c cs hlong hpercent, if_neg hplain] at h
      obtain ⟨tail, htail, rfl⟩ := Option.map_eq_some_iff.mp h
      rw [unquote.eq_3 c cs hlong, ih htail]

theorem isInternal_of_metricsNetworks {client : IpAddress}
    (h : (metricsNetworks.any fun network => network.contains client) = true) :
    isInternal client = true := by
  have hcovered : ∀ network ∈ metricsNetworks,
      ∃ wide ∈ internalNetworks, wide.covers network = true := by decide
  obtain ⟨network, hnetwork, hclient⟩ := List.any_eq_true.mp h
  obtain ⟨wide, hwide, hcovers⟩ := hcovered network hnetwork
  exact List.any_eq_true.mpr ⟨wide, hwide, IpNetwork.contains_of_covers hcovers hclient⟩

theorem forward_metrics {client : IpAddress} {target uri : List Char} {bodyLength : Nat}
    (hdecode : decodePath target = some uri) (huri : uri ∈ metricsPaths)
    (hclient : isInternal client = false) : forward client target bodyLength = none := by
  have hnormal : ∀ path ∈ metricsPaths, normalizeUri path = some path ∧
      (locations.any fun location => location.pattern = path ++ ['/']) = false ∧
      findLocation path =
        some ⟨"/metrics".toList, metricsNetworks.map .allow ++ [.denyAll], .backend⟩ := by
    decide
  obtain ⟨hpath, hredirect, hlocation⟩ := hnormal _ huri
  have hdenied : allowed client (metricsNetworks.map .allow ++ [.denyAll]) = false := by
    rw [allowed_denyAll, Bool.eq_false_iff]
    exact fun h => absurd (isInternal_of_metricsNetworks h) (by simp [hclient])
  rw [forward_of_normal hdecode hpath hredirect hlocation, hdenied, Bool.false_and,
    if_neg Bool.false_ne_true]

theorem forward_open {target uri : List Char} (hdecode : decodePath target = some uri)
    (huri : uri ∈ openPaths) (client : IpAddress) (bodyLength : Nat) :
    forward client target bodyLength =
      if bodyLength ≤ clientMaxBodySize then some .backend else none := by
  have hnormal : ∀ path ∈ openPaths, normalizeUri path = some path ∧
      (locations.any fun location => location.pattern = path ++ ['/']) = false ∧
      findLocation path = some ⟨"/health/".toList, [], .backend⟩ := by decide
  obtain ⟨hpath, hredirect, hlocation⟩ := hnormal _ huri
  rw [forward_of_normal hdecode hpath hredirect hlocation]
  simp [allowed]

/-! ## What the backend answers -/

/-- No layer of the application turns the answer to a `GET` into a refusal. -/
theorem respond_statusCode_ne {site : Site} {request : HttpRequest} {r : HttpResponse}
    (hmethod : request.method = "GET") (hcors : site.cors.answer request = none)
    (hhandle : site.routes.handle request = .ok r) (hr : r.statusCode ≠ 403) :
    (respond site request).statusCode ≠ 403 := by
  have hcsrf : csrfRefuses request = .ok false := by
    rw [csrfRefuses, hmethod]
    simp [safeMethods]
  have hinner : ∃ r', csrfMiddleware site (exceptionMiddleware site site.routes.handle)
      request = .ok r' ∧ r'.statusCode = r.statusCode := by
    rw [csrfMiddleware, hcsrf, exceptionMiddleware, hhandle]
    dsimp only
    split
    · exact ⟨r, rfl, rfl⟩
    · exact ⟨_, rfl, rfl⟩
  obtain ⟨r', hr', hstatus⟩ := hinner
  rw [respond, requestIdMiddleware, securityHeadersMiddleware, limitedApp,
    contentSizeLimitMiddleware]
  cases contentLength request with
  | none => exact (by decide : (500 : Nat) ≠ 403)
  | some length =>
      by_cases hlarge : maxContentSize < length
      · simp only [hlarge, if_true]
        exact (by decide : (413 : Nat) ≠ 403)
      · simp only [hlarge, if_false, corsMiddleware, hcors, hr']
        exact hstatus ▸ hr

/--
The address that the guard sees is that of nginx, so that it lets every request through:
what nginx forwards is answered, and only `/metrics` is kept from clients outside.  The
request is what nginx hands on, with headers of any kind.
-/
theorem internal_only_iff (site : Site) (report : Report)
    (hcors : ∀ request : HttpRequest, request.method ≠ "OPTIONS" →
      site.cors.answer request = none)
    {peer : String} (hpeer : isInternalIp peer = true) {client : IpAddress}
    (hclient : isInternal client = false) (target : List Char) (bodyLength : Nat)
    (request : HttpRequest) :
    (forward client target bodyLength = some .backend →
      (guarded request.method (unquote target)).isSome →
        (respond (serving site report (some peer) (unquote target)) request).statusCode =
          403) ↔
      ¬(request.method = "GET" ∧ (∃ uri ∈ openPaths, decodePath target = some uri) ∧
        bodyLength ≤ clientMaxBodySize) := by
  constructor
  · rintro hkept ⟨hmethod, ⟨uri, hopen, hdecode⟩, hbody⟩
    rw [unquote_of_decodePath hdecode] at hkept
    obtain ⟨endpoint, hguarded⟩ := guarded_openPaths hopen
    rw [← hmethod] at hguarded
    have hforward : forward client target bodyLength = some .backend := by
      rw [forward_open hdecode hopen, if_pos hbody]
    have hhandle : (serving site report (some peer) uri).routes.handle request =
        .ok ⟨200, [], report.ofEndpoint endpoint⟩ := by
      simp only [serving, mainRoutes, hguarded, requireInternal, Option.getD_some, hpeer,
        if_true]
      rfl
    have hcors' : (serving site report (some peer) uri).cors.answer request = none :=
      hcors request (by simp [hmethod])
    exact respond_statusCode_ne hmethod hcors' hhandle (by decide : (200 : Nat) ≠ 403)
      (hkept hforward (Option.isSome_of_eq_some hguarded))
  · rintro hnot hforward hguarded
    obtain ⟨endpoint, hendpoint⟩ := Option.isSome_iff_exists.mp hguarded
    obtain ⟨hmethod, hpath⟩ := guarded_eq_some hendpoint
    obtain ⟨uri, hread, -⟩ := Option.bind_eq_some_iff.mp hforward
    obtain ⟨decoded, hdecode, -⟩ := Option.bind_eq_some_iff.mp hread
    rw [unquote_of_decodePath hdecode] at hpath
    rcases List.mem_append.mp hpath with hopen | hmetrics
    · rw [forward_open hdecode hopen] at hforward
      have hbody : bodyLength ≤ clientMaxBodySize := by
        by_contra hlarge
        rw [if_neg hlarge] at hforward
        cases hforward
      exact absurd ⟨hmethod, ⟨decoded, hopen, hdecode⟩, hbody⟩ hnot
    · rw [forward_metrics hdecode hmetrics hclient] at hforward
      cases hforward

/-! ## A client from outside -/

def outsider : IpAddress := .v4 0xcb007107

def version : Report := ⟨.null, .obj [("postgresql_version", .str "16.4")], .null⟩

theorem metrics_stay_internal :
    ¬(forward outsider "/%6Detrics".toList 0 = some .backend ∧
      (guarded getItem.method (unquote "/%6Detrics".toList)).isSome ∧
      (respond (serving faultySite version (some "172.18.0.5")
        (unquote "/%6Detrics".toList)) getItem).statusCode ≠ 403) := by
  rintro ⟨hforward, hguarded, hstatus⟩
  have hkept := (internal_only_iff faultySite version (fun _ _ => rfl)
    (show isInternalIp "172.18.0.5" = true by decide)
    (show isInternal outsider = false by decide) "/%6Detrics".toList 0 getItem).mpr
    (by decide +kernel)
  exact hstatus (hkept hforward hguarded)

/-- nginx forwards the request of an outsider, and the backend tells its versions. -/
theorem health_info_answers_outsiders :
    isInternalIp "172.18.0.5" = true ∧ isInternal outsider = false ∧
      forward outsider "/health/info".toList 0 = some .backend ∧
      guarded getItem.method (unquote "/health/info".toList) = some .healthInfo ∧
      (respond (serving faultySite version (some "172.18.0.5")
        (unquote "/health/info".toList)) getItem).statusCode = 200 ∧
      forward outsider "/health/celery%0A".toList 0 = some .backend ∧
      guarded getItem.method (unquote "/health/celery%0A".toList) = some .healthCelery ∧
      (respond (serving faultySite version (some "172.18.0.5")
        (unquote "/health/celery%0A".toList)) getItem).statusCode = 200 := by
  decide +kernel

end IsolatedEnv.Proxy
