import IsolatedEnv.Backend.Core.Runtime
import IsolatedEnv.Foundation.Uuid

/-!
# The middlewares and the exception handlers

An application sends a response or raises before it has sent one; what it raises
afterwards no longer reaches the client.  Starlette runs the handler of `Exception`
around all middlewares and the other handlers inside them.
-/

namespace IsolatedEnv.Backend

open IsolatedEnv.Foundation

abbrev Headers := List (String × String)

namespace Headers

/-- The values that a header is sent with. -/
def values (headers : Headers) (name : String) : List String :=
  (headers.filter fun h => h.1 = name).map Prod.snd

/-- `headers.get(name)`. -/
def get? (headers : Headers) (name : String) : Option String :=
  (headers.find? fun h => h.1 = name).map Prod.snd

end Headers

/--
The names of headers are in lower case.  `cookies` is what Starlette reads from the
`cookie` header; `hex` and `urlsafe` are what `uuid4` and `token_urlsafe` will give.
-/
structure HttpRequest where
  method : String
  headers : Headers
  cookies : List (String × String)
  hex : String
  urlsafe : String

structure HttpResponse where
  statusCode : Nat
  headers : Headers
  content : Json

/-- `http` stands for an `HTTPException` and for a request that fails its validation. -/
inductive Raised where
  | http (statusCode : Nat) (detail : Json) (headers : Headers)
  | app (statusCode : Nat) (detail : String)
  | rateLimitExceeded
  | other

abbrev AsgiApp := HttpRequest → Except Raised HttpResponse

/-! ## Header tables -/

def SecurityHeadersMiddleware.securityHeaders : Headers := [
  ("x-content-type-options", "nosniff"),
  ("x-frame-options", "DENY"),
  ("referrer-policy", "strict-origin-when-cross-origin"),
  ("permissions-policy", "camera=(), microphone=(), geolocation=()"),
  ("strict-transport-security", "max-age=31536000; includeSubDomains"),
  ("content-security-policy", "default-src 'none'")]

/-- `SECURITY_HEADERS` of `main.py`. -/
def securityHeaders : Headers := [
  ("x-content-type-options", "nosniff"),
  ("x-frame-options", "DENY"),
  ("referrer-policy", "strict-origin-when-cross-origin"),
  ("strict-transport-security", "max-age=31536000; includeSubDomains")]

def uniformNames : List String :=
  "x-request-id" :: SecurityHeadersMiddleware.securityHeaders.map Prod.fst

/-- None of the headers that the middlewares add is there. -/
def Plain (headers : Headers) : Prop := ∀ name ∈ uniformNames, headers.values name = []

/-! ## What the application is built from -/

/-- `CORSMiddleware`: it answers preflights, and adds headers of its own. -/
structure Cors where
  answer : HttpRequest → Option HttpResponse
  onSend : HttpRequest → Headers → Headers
  answer_plain : ∀ request r, answer request = some r → Plain r.headers
  onSend_values : ∀ request headers, ∀ name ∈ uniformNames,
    (onSend request headers).values name = headers.values name

/-- The router; neither routes nor `HTTPException`s bring any of the headers. -/
structure Routes where
  handle : AsgiApp
  ok_plain : ∀ request r, handle request = .ok r → Plain r.headers
  http_plain : ∀ request statusCode detail headers,
    handle request = .error (.http statusCode detail headers) → Plain headers

/-- `length` is the length of a content as `JSONResponse` renders it. -/
structure Site where
  debug : Bool
  length : Json → String
  cors : Cors
  routes : Routes

def jsonResponse (site : Site) (statusCode : Nat) (detail : Json) (headers : Headers) :
    HttpResponse where
  statusCode := statusCode
  headers := headers ++ [("content-length", site.length (.obj [("detail", detail)])),
    ("content-type", "application/json")]
  content := .obj [("detail", detail)]

/-! ## Exception handlers -/

def rateLimitExceededHandler (site : Site) : HttpResponse :=
  jsonResponse site 429 (.str "Rate limit exceeded") securityHeaders

def appErrorHandler (site : Site) (statusCode : Nat) (detail : String) : HttpResponse :=
  jsonResponse site statusCode (.str detail) securityHeaders

def unhandledExceptionHandler (site : Site) : HttpResponse :=
  jsonResponse site 500 (.str "Internal server error") securityHeaders

def exceptionMiddleware (site : Site) (app : AsgiApp) : AsgiApp := fun request =>
  match app request with
  | .error (.http statusCode detail headers) =>
      .ok (jsonResponse site statusCode detail headers)
  | .error (.app statusCode detail) => .ok (appErrorHandler site statusCode detail)
  | .error .rateLimitExceeded => .ok (rateLimitExceededHandler site)
  | .error .other => .error .other
  | .ok r => .ok r

/-! ## Middlewares -/

def HttpResponse.addHeaders (r : HttpResponse) (headers : Headers) : HttpResponse :=
  { r with headers := r.headers ++ headers }

def safeMethods : List String := ["GET", "HEAD", "OPTIONS"]

def isBearer (request : HttpRequest) : Bool :=
  "Bearer ".toList.isPrefixOf ((request.headers.get? "authorization").getD "").toList

/-- `secrets.compare_digest`; a text that is not ASCII is a `TypeError`. -/
def compareDigest (a b : String) : Except Raised Bool :=
  if a.toList.all (fun c => c.toNat < 128) && b.toList.all (fun c => c.toNat < 128) then
    .ok (a = b)
  else .error .other

/-- Whether the double submit fails. -/
def csrfRefuses (request : HttpRequest) : Except Raised Bool :=
  if isBearer request || request.method ∈ safeMethods then .ok false
  else
    let cookieToken := (request.cookies.lookup "csrf_token").getD ""
    let headerToken := (request.headers.get? "x-csrf-token").getD ""
    if cookieToken = "" || headerToken = "" then .ok true
    else (compareDigest cookieToken headerToken).map not

def csrfCookie (site : Site) (request : HttpRequest) : String :=
  let token := match request.cookies.lookup "csrf_token" with
    | some token => if token ≠ "" then token else request.urlsafe
    | none => request.urlsafe
  "csrf_token=" ++ token ++ "; Path=/; SameSite=Strict; HttpOnly=false" ++
    (if site.debug then "" else "; Secure")

def csrfMiddleware (site : Site) (app : AsgiApp) : AsgiApp := fun request =>
  match csrfRefuses request with
  | .error e => .error e
  | .ok true => .ok (jsonResponse site 403 (.str "CSRF token missing or invalid") [])
  | .ok false =>
      if isBearer request then app request
      else (app request).map fun r =>
        r.addHeaders [("set-cookie", csrfCookie site request)]

def corsMiddleware (cors : Cors) (app : AsgiApp) : AsgiApp := fun request =>
  match cors.answer request with
  | some r => .ok r
  | none => (app request).map fun r => { r with headers := cors.onSend request r.headers }

def maxContentSize : Int := 10485760

def readDecimal : List Char → Option Nat
  | [] => none
  | c :: cs =>
      -- no more digits than `sys.get_int_max_str_digits()`
      if 4300 < ((c :: cs).filter (· ≠ '_')).length then none
      else (readDigit 10 c).bind fun d => readUnderscored 10 d cs

/-- `int` of a header's bytes; `none` when it raises `ValueError`. -/
def readInt (text : String) : Option Int :=
  match stripChars (fun c => c = ' ' || (9 ≤ c.toNat && c.toNat ≤ 13)) text.toList with
  | '-' :: cs => (readDecimal cs).map fun n => -n
  | '+' :: cs => (readDecimal cs).map fun n => n
  | cs => (readDecimal cs).map fun n => n

def contentLength (request : HttpRequest) : Option Int :=
  match request.headers.get? "content-length" with
  | some value => readInt value
  | none => some 0

def contentSizeLimitMiddleware (site : Site) (app : AsgiApp) : AsgiApp := fun request =>
  match contentLength request with
  | none => .error .other
  | some length =>
      if maxContentSize < length then
        .ok (jsonResponse site 413 (.str "Request body too large") securityHeaders)
      else app request

def securityHeadersMiddleware (app : AsgiApp) : AsgiApp := fun request =>
  (app request).map fun r => r.addHeaders SecurityHeadersMiddleware.securityHeaders

/-- `_VALID_REQUEST_ID_RE.match`; `$` also matches before a final line feed. -/
def validRequestId (candidate : List Char) : Bool :=
  let valid (cs : List Char) := 1 ≤ cs.length && cs.length ≤ 64 &&
    cs.all fun c => c.isAlphanum || c = '.' || c = '_' || c = '-'
  valid candidate || (candidate.getLast? = some '\n' && valid candidate.dropLast)

def requestId (request : HttpRequest) : String :=
  match request.headers.get? "x-request-id" with
  | some candidate => if validRequestId candidate.toList then candidate else request.hex
  | none => request.hex

def requestIdMiddleware (app : AsgiApp) : AsgiApp := fun request =>
  (app request).map fun r => r.addHeaders [("x-request-id", requestId request)]

/-- The application inside the two middlewares that add headers. -/
def limitedApp (site : Site) : AsgiApp :=
  contentSizeLimitMiddleware site (corsMiddleware site.cors
    (csrfMiddleware site (exceptionMiddleware site site.routes.handle)))

/-- The response to a request. -/
def respond (site : Site) (request : HttpRequest) : HttpResponse :=
  match requestIdMiddleware (securityHeadersMiddleware (limitedApp site)) request with
  | .ok r => r
  | .error _ => unhandledExceptionHandler site

/-- Each header of `SecurityHeadersMiddleware` and `x-request-id`, exactly once. -/
def Uniform (headers : Headers) : Prop :=
  (∀ h ∈ SecurityHeadersMiddleware.securityHeaders, headers.values h.1 = [h.2]) ∧
    ∃ id, headers.values "x-request-id" = [id]

/-! ## Where a response comes from -/

/-- The route answers itself, or with an exception that no handler of `main.py` takes. -/
def answersPlainly : Except Raised HttpResponse → Bool
  | .ok _ => true
  | .error (.http _ _ _) => true
  | .error _ => false

/--
A request that is not too large, and that is answered by `CORSMiddleware`, refused by
`CSRFMiddleware`, or answered plainly by its route.
-/
def AnsweredInside (site : Site) (request : HttpRequest) : Prop :=
  ∃ length, contentLength request = some length ∧ length ≤ maxContentSize ∧
    ((site.cors.answer request).isSome = true ∨ csrfRefuses request = .ok true ∨
      csrfRefuses request = .ok false ∧
        answersPlainly (site.routes.handle request) = true)

variable {site : Site} {request : HttpRequest} {app : AsgiApp}

theorem Headers.values_append (h h' : Headers) (name : String) :
    (h ++ h').values name = h.values name ++ h'.values name := by
  simp [Headers.values]

theorem plain_append {h h' : Headers} : Plain (h ++ h') ↔ Plain h ∧ Plain h' := by
  simp only [Plain, Headers.values_append, List.append_eq_nil_iff, forall_and]

theorem plain_of_notMem {headers : Headers} (h : ∀ p ∈ headers, p.1 ∉ uniformNames) :
    Plain headers := by
  intro name hname
  simp only [Headers.values, List.map_eq_nil_iff, List.filter_eq_nil_iff, decide_eq_true_eq]
  rintro p hp rfl
  exact h p hp hname

/-- What the two outermost middlewares add is there once if it was not there before. -/
theorem uniform_added {h : Headers} {id : String} :
    Uniform (h ++ SecurityHeadersMiddleware.securityHeaders ++ [("x-request-id", id)]) ↔
      Plain h := by
  have hsecurity : ∀ added ∈ SecurityHeadersMiddleware.securityHeaders,
      (SecurityHeadersMiddleware.securityHeaders ++ [("x-request-id", id)] : Headers).values
        added.1 = [added.2] := by
    intro added hadded
    simp only [SecurityHeadersMiddleware.securityHeaders, List.mem_cons, List.not_mem_nil,
      or_false] at hadded
    rcases hadded with rfl | rfl | rfl | rfl | rfl | rfl <;> rfl
  have hid : (SecurityHeadersMiddleware.securityHeaders ++ [("x-request-id", id)] :
      Headers).values "x-request-id" = [id] := rfl
  have honce {l : List String} {value : String} : l ++ [value] = [value] ↔ l = [] := by simp
  have hexists {l : List String} : (∃ other, l ++ [id] = [other]) ↔ l = [] := by
    cases l <;> simp
  rw [List.append_assoc]
  unfold Uniform Plain uniformNames
  simp only [List.forall_mem_cons, List.forall_mem_map]
  rw [Headers.values_append, hid, hexists, and_comm]
  refine and_congr_right fun _ => forall₂_congr fun added hadded => ?_
  rw [Headers.values_append, hsecurity added hadded, honce]

/-- A response with none of the headers that are still to be added. -/
def SendsPlain : Except Raised HttpResponse → Prop
  | .ok r => Plain r.headers
  | .error _ => False

theorem plain_jsonResponse {statusCode : Nat} {detail : Json} {headers : Headers} :
    Plain (jsonResponse site statusCode detail headers).headers ↔ Plain headers := by
  have hcontent : Plain [("content-length", site.length (.obj [("detail", detail)])),
      ("content-type", "application/json")] := by
    apply plain_of_notMem
    simp [uniformNames, SecurityHeadersMiddleware.securityHeaders]
  simp [jsonResponse, plain_append, hcontent]

theorem not_plain_securityHeaders : ¬Plain securityHeaders := by
  intro h
  exact absurd (h "x-frame-options" (by decide)) (by decide)

/-! ## One layer after the other -/

theorem sendsPlain_exceptionMiddleware (routes : Routes) :
    SendsPlain (exceptionMiddleware site routes.handle request) ↔
      answersPlainly (routes.handle request) = true := by
  unfold exceptionMiddleware
  cases hhandle : routes.handle request with
  | ok r => simp [SendsPlain, answersPlainly, routes.ok_plain request r hhandle]
  | error e =>
      cases e with
      | http statusCode detail headers =>
          simp [SendsPlain, answersPlainly, plain_jsonResponse,
            routes.http_plain request statusCode detail headers hhandle]
      | app statusCode detail =>
          simp [SendsPlain, answersPlainly, appErrorHandler, plain_jsonResponse,
            not_plain_securityHeaders]
      | rateLimitExceeded =>
          simp [SendsPlain, answersPlainly, rateLimitExceededHandler, plain_jsonResponse,
            not_plain_securityHeaders]
      | other => simp [SendsPlain, answersPlainly]

theorem sendsPlain_csrfMiddleware :
    SendsPlain (csrfMiddleware site app request) ↔
      csrfRefuses request = .ok true ∨
        csrfRefuses request = .ok false ∧ SendsPlain (app request) := by
  unfold csrfMiddleware
  cases hrefuses : csrfRefuses request with
  | error e => simp [SendsPlain]
  | ok refused =>
      cases refused with
      | true =>
          have hempty : Plain [] := fun name _ => rfl
          simp [SendsPlain, plain_jsonResponse, hempty]
      | false =>
          have hcookie : Plain [("set-cookie", csrfCookie site request)] := by
            apply plain_of_notMem
            simp [uniformNames, SecurityHeadersMiddleware.securityHeaders]
          cases hbearer : isBearer request with
          | true => simp
          | false =>
              cases app request with
              | error e => simp [SendsPlain, Except.map]
              | ok r =>
                  simp [SendsPlain, Except.map, HttpResponse.addHeaders, plain_append, hcookie]

theorem sendsPlain_corsMiddleware (cors : Cors) :
    SendsPlain (corsMiddleware cors app request) ↔
      (cors.answer request).isSome = true ∨ SendsPlain (app request) := by
  unfold corsMiddleware
  cases hanswer : cors.answer request with
  | some r => simp [SendsPlain, cors.answer_plain request r hanswer]
  | none =>
      cases app request with
      | error e => simp [SendsPlain, Except.map]
      | ok r =>
          simp only [SendsPlain, Except.map, Plain, Option.isSome_none, Bool.false_eq_true,
            false_or]
          exact forall₂_congr fun name hname => by
            rw [cors.onSend_values request r.headers name hname]

theorem sendsPlain_contentSizeLimitMiddleware :
    SendsPlain (contentSizeLimitMiddleware site app request) ↔
      ∃ length, contentLength request = some length ∧ length ≤ maxContentSize ∧
        SendsPlain (app request) := by
  unfold contentSizeLimitMiddleware
  cases hlength : contentLength request with
  | none => simp [SendsPlain]
  | some length =>
      by_cases hlarge : maxContentSize < length
      · simp [hlarge, SendsPlain, plain_jsonResponse, not_plain_securityHeaders]
      · simp [hlarge]
        omega

theorem uniform_respond : Uniform (respond site request).headers ↔
    SendsPlain (limitedApp site request) := by
  unfold respond requestIdMiddleware securityHeadersMiddleware
  cases limitedApp site request with
  | error e =>
      have hmissing : ¬Uniform (unhandledExceptionHandler site).headers := by
        rintro ⟨-, id, hid⟩
        exact absurd hid nofun
      simpa [Except.map, SendsPlain] using hmissing
  | ok r => exact uniform_added

/-- The headers are uniform exactly for the responses that no handler of `main.py` made. -/
theorem uniform_iff (site : Site) (request : HttpRequest) :
    Uniform (respond site request).headers ↔ AnsweredInside site request := by
  rw [uniform_respond, limitedApp, sendsPlain_contentSizeLimitMiddleware, AnsweredInside]
  simp only [sendsPlain_corsMiddleware, sendsPlain_csrfMiddleware, sendsPlain_exceptionMiddleware]

/-! ## An item that is not found, and an exception that nothing handles -/

def noCors : Cors where
  answer _ := none
  onSend _ headers := headers
  answer_plain _ _ := nofun
  onSend_values _ _ _ _ := rfl

def raising (e : Raised) (h : ∀ statusCode detail headers, e ≠ .http statusCode detail headers) :
    Site where
  debug := false
  length _ := "0"
  cors := noCors
  routes := {
    handle := fun _ => .error e
    ok_plain := fun _ _ => nofun
    http_plain := fun _ statusCode detail headers heq =>
      absurd (Except.error.inj heq) (h statusCode detail headers) }

/-- Its only route raises what nothing handles. -/
def faultySite : Site := raising .other (by intro statusCode detail headers h; cases h)

def getItem : HttpRequest where
  method := "GET"
  headers := [("authorization", "Bearer token")]
  cookies := []
  hex := "0123456789abcdef0123456789abcdef"
  urlsafe := "csrf"

theorem error_responses_not_uniform :
    (respond (raising (.app 404 "Item not found") nofun) getItem).headers.values
        "x-frame-options" = ["DENY", "DENY"] ∧
      (respond (raising .other nofun) getItem).headers.values "x-request-id" = [] ∧
      ¬Uniform (respond (raising (.app 404 "Item not found") nofun) getItem).headers ∧
      ¬Uniform (respond (raising .other nofun) getItem).headers := by
  have hdoubled : (respond (raising (.app 404 "Item not found") nofun) getItem).headers.values
      "x-frame-options" = ["DENY", "DENY"] := by decide
  have hmissing : (respond (raising .other nofun) getItem).headers.values
      "x-request-id" = [] := by decide
  refine ⟨hdoubled, hmissing, fun h => ?_, fun h => ?_⟩
  · have honce := h.1 ("x-frame-options", "DENY") (by decide)
    rw [hdoubled] at honce
    cases honce
  · obtain ⟨id, hid⟩ := h.2
    rw [hmissing] at hid
    cases hid

end IsolatedEnv.Backend
