import IsolatedEnv.Backend.Core.Middleware
import IsolatedEnv.Foundation.Calls

/-!
# The gate of the double submit

`CSRFMiddleware.__call__` as what it awaits: the application inside it and the
messages it sends.  Each of them may raise, and what it raises goes through.  The
middleware itself raises where `secrets.compare_digest` does.
-/

namespace IsolatedEnv.Backend

open IsolatedEnv.Foundation

inductive Message where
  | start (statusCode : Nat) (headers : Headers)
  | body (content : Json)

/-- `addsCookie` tells `send_with_csrf` from the `send` of the scope. -/
inductive AsgiCall where
  | app (addsCookie : Bool)
  | send (message : Message)

abbrev AsgiScript (α : Type) := Script (fun _ : AsgiCall => Unit) Raised α

abbrev AsgiEvent := Script.Event (fun _ : AsgiCall => Unit) Raised

/-- `await response(scope, receive, send)`. -/
def sendResponse (r : HttpResponse) : AsgiScript (Except Raised Unit) := do
  let sent ← Script.request (AsgiCall.send (.start r.statusCode r.headers))
  match sent with
  | .error e => pure (.error e)
  | .ok () => Script.request (AsgiCall.send (.body r.content))

def csrfCalls (site : Site) (request : HttpRequest) : AsgiScript (Except Raised Unit) :=
  match csrfRefuses request with
  | .error e => pure (.error e)
  | .ok true =>
      sendResponse (jsonResponse site 403 (.str "CSRF token missing or invalid") [])
  | .ok false => Script.request (AsgiCall.app (!isBearer request))

/-! ## What the gate is for -/

def cookieToken (request : HttpRequest) : String :=
  (request.cookies.lookup "csrf_token").getD ""

def headerToken (request : HttpRequest) : String :=
  (request.headers.get? "x-csrf-token").getD ""

def Admitted (request : HttpRequest) : Prop :=
  isBearer request = true ∨ request.method ∈ safeMethods ∨
    cookieToken request ≠ "" ∧ headerToken request ≠ "" ∧
      cookieToken request = headerToken request

/-- The application is called once; its end is the end. -/
def Passed (history : List AsgiEvent) (outcome : Except Raised Unit) : Prop :=
  ∃ addsCookie, history = [⟨.app addsCookie, outcome⟩]

/-- One response with status 403, unless sending it fails. -/
def Refused (history : List AsgiEvent) (outcome : Except Raised Unit) : Prop :=
  ∃ headers, (∃ content, history =
      [⟨.send (.start 403 headers), .ok ()⟩, ⟨.send (.body content), outcome⟩]) ∨
    ∃ e, history = [⟨.send (.start 403 headers), .error e⟩] ∧ outcome = .error e

structure Gated (site : Site) (request : HttpRequest) : Prop where
  admitted : Admitted request → ∀ history outcome,
    (csrfCalls site request).Runs history outcome → Passed history outcome
  refused : ¬Admitted request → ∀ history outcome,
    (csrfCalls site request).Runs history outcome → Refused history outcome

def IsAscii (text : String) : Prop := ∀ c ∈ text.toList, c.toNat < 128

/-- What `compare_digest` is called with, if it is called, are two ASCII texts. -/
def Comparable (request : HttpRequest) : Prop :=
  isBearer request = true ∨ request.method ∈ safeMethods ∨
    cookieToken request = "" ∨ headerToken request = "" ∨
      IsAscii (cookieToken request) ∧ IsAscii (headerToken request)

/-! ## The decision -/

section Decision

variable {site : Site} {request : HttpRequest}

theorem compareDigest_ascii {a b : String} (ha : IsAscii a) (hb : IsAscii b) :
    compareDigest a b = .ok (a = b) := by
  refine if_pos ?_
  simpa [List.all_eq_true] using ⟨ha, hb⟩

theorem compareDigest_other {a b : String} (h : ¬(IsAscii a ∧ IsAscii b)) :
    compareDigest a b = .error .other := by
  refine if_neg fun hall => h ?_
  simpa [IsAscii, List.all_eq_true] using hall

theorem csrfRefuses_exempt
    (h : isBearer request = true ∨ request.method ∈ safeMethods) :
    csrfRefuses request = .ok false := by
  refine if_pos ?_
  simpa using h

theorem csrfRefuses_missing (hexempt : ¬(isBearer request = true ∨
      request.method ∈ safeMethods))
    (h : cookieToken request = "" ∨ headerToken request = "") :
    csrfRefuses request = .ok true := by
  unfold csrfRefuses
  rw [if_neg (by simpa using hexempt)]
  exact if_pos (by simpa [cookieToken, headerToken] using h)

theorem csrfRefuses_compared (hexempt : ¬(isBearer request = true ∨
      request.method ∈ safeMethods))
    (h : ¬(cookieToken request = "" ∨ headerToken request = "")) :
    csrfRefuses request =
      (compareDigest (cookieToken request) (headerToken request)).map not := by
  unfold csrfRefuses
  rw [if_neg (by simpa using hexempt)]
  exact if_neg (by simpa [cookieToken, headerToken] using h)

theorem csrfRefuses_admitted (h : Comparable request) (hadmitted : Admitted request) :
    csrfRefuses request = .ok false := by
  by_cases hexempt : isBearer request = true ∨ request.method ∈ safeMethods
  · exact csrfRefuses_exempt hexempt
  · rw [not_or] at hexempt
    rcases hadmitted with hbearer | hmethod | ⟨hcookie, hheader, heq⟩
    · exact absurd hbearer hexempt.1
    · exact absurd hmethod hexempt.2
    · rcases h with hbearer | hmethod | hempty | hempty | ⟨hascii, hascii'⟩
      · exact absurd hbearer hexempt.1
      · exact absurd hmethod hexempt.2
      · exact absurd hempty hcookie
      · exact absurd hempty hheader
      · rw [csrfRefuses_compared (not_or.mpr hexempt) (not_or.mpr ⟨hcookie, hheader⟩),
          compareDigest_ascii hascii hascii', heq]
        simp [Except.map]

theorem csrfRefuses_not_admitted (h : Comparable request)
    (hadmitted : ¬Admitted request) : csrfRefuses request = .ok true := by
  have hexempt : ¬(isBearer request = true ∨ request.method ∈ safeMethods) :=
    fun hexempt => hadmitted (hexempt.elim .inl fun hmethod => .inr (.inl hmethod))
  by_cases hempty : cookieToken request = "" ∨ headerToken request = ""
  · exact csrfRefuses_missing hexempt hempty
  · have hne : cookieToken request ≠ headerToken request := fun heq =>
      hadmitted (.inr (.inr ⟨(not_or.mp hempty).1, (not_or.mp hempty).2, heq⟩))
    rcases h with hbearer | hmethod | hcookie | hheader | ⟨hascii, hascii'⟩
    · exact absurd (.inl hbearer) hexempt
    · exact absurd (.inr hmethod) hexempt
    · exact absurd (.inl hcookie) hempty
    · exact absurd (.inr hheader) hempty
    · rw [csrfRefuses_compared hexempt hempty, compareDigest_ascii hascii hascii']
      simp [Except.map, hne]

theorem csrfRefuses_not_comparable (h : ¬Comparable request) :
    csrfRefuses request = .error .other := by
  simp only [Comparable, not_or] at h
  obtain ⟨hbearer, hmethod, hcookie, hheader, hascii⟩ := h
  rw [csrfRefuses_compared (not_or.mpr ⟨hbearer, hmethod⟩)
    (not_or.mpr ⟨hcookie, hheader⟩), compareDigest_other hascii]
  rfl

theorem sendResponse_refused {detail : Json} {history : List AsgiEvent}
    {outcome : Except Raised Unit}
    (h : (sendResponse (jsonResponse site 403 detail [])).Runs history outcome) :
    Refused history outcome := by
  obtain ⟨reply, later, rfl, hlater⟩ := Script.runs_request_bind_iff.mp h
  cases reply with
  | error e =>
      obtain ⟨rfl, rfl⟩ := Script.runs_pure_iff.mp hlater
      exact ⟨_, .inr ⟨e, rfl, rfl⟩⟩
  | ok sent =>
      have hbody := Script.runs_request_iff.mp hlater
      subst hbody
      exact ⟨_, .inl ⟨_, rfl⟩⟩

end Decision

/-- The gate works unless a token that is not ASCII is to be compared. -/
theorem csrf_gate_iff (site : Site) (request : HttpRequest) :
    Gated site request ↔ Comparable request := by
  constructor
  · intro hgated
    by_contra hcomparable
    have hrefuses := csrfRefuses_not_comparable hcomparable
    have hraises : (csrfCalls site request).Runs [] (.error .other) := by
      rw [csrfCalls, hrefuses]
      exact .done _
    by_cases hadmitted : Admitted request
    · obtain ⟨addsCookie, hhistory⟩ := hgated.admitted hadmitted _ _ hraises
      cases hhistory
    · obtain ⟨headers, ⟨content, hhistory⟩ | ⟨e, hhistory, -⟩⟩ :=
        hgated.refused hadmitted _ _ hraises
      · cases hhistory
      · cases hhistory
  · intro hcomparable
    constructor
    · intro hadmitted history outcome hruns
      rw [csrfCalls, csrfRefuses_admitted hcomparable hadmitted] at hruns
      exact ⟨_, Script.runs_request_iff.mp hruns⟩
    · intro hadmitted history outcome hruns
      rw [csrfCalls, csrfRefuses_not_admitted hcomparable hadmitted] at hruns
      exact sendResponse_refused hruns

/-- Two equal tokens of one octet that is not ASCII. -/
def accentedTokens : HttpRequest where
  method := "POST"
  headers := [("cookie", "csrf_token=é"), ("x-csrf-token", "é")]
  cookies := [("csrf_token", "é")]
  hex := "0123456789abcdef0123456789abcdef"
  urlsafe := "csrf"

theorem accented_tokens_not_gated :
    ¬∀ request, Gated faultySite request := by
  intro hall
  have hadmitted : Admitted accentedTokens := .inr (.inr (by decide))
  have hraises : (csrfCalls faultySite accentedTokens).Runs []
      (.error .other) := .done _
  obtain ⟨addsCookie, hhistory⟩ := (hall accentedTokens).admitted hadmitted _ _ hraises
  cases hhistory

/-! ## The responses that come of it -/

/-- The application and the client: what was sent so far. -/
def asgiService (site : Site) (app : AsgiApp) (request : HttpRequest) :
    (c : AsgiCall) → List Message → Except Raised Unit × List Message
  | .send message, sent => (.ok (), sent ++ [message])
  | .app addsCookie, sent =>
      match app request with
      | .error e => (.error e, sent)
      | .ok r =>
          let added := if addsCookie then [("set-cookie", csrfCookie site request)] else []
          (.ok (), sent ++ [.start r.statusCode (r.headers ++ added), .body r.content])

/-- The calls, made to the application, come to `csrfMiddleware`. -/
theorem csrfCalls_run (site : Site) (app : AsgiApp) (request : HttpRequest) :
    (csrfCalls site request).run (asgiService site app request) [] =
      match csrfMiddleware site app request with
      | .error e => (.error e, [])
      | .ok r => (.ok (), [.start r.statusCode r.headers, .body r.content]) := by
  unfold csrfCalls csrfMiddleware
  cases csrfRefuses request with
  | error e => rfl
  | ok refused =>
      cases refused with
      | true => rfl
      | false =>
          dsimp only
          rw [Script.run_request]
          cases happ : app request <;> cases hbearer : isBearer request <;>
            simp [asgiService, happ, Except.map, HttpResponse.addHeaders]

end IsolatedEnv.Backend
