import IsolatedEnv.Foundation.JsonTree
import IsolatedEnv.Frontend.AuthServer

/-!
# Errors of the API client

`request` turns a response of error status into an `ApiError`, whose message
it takes from the body; `withAuth` tells the session errors apart by the
status.  Both are followed for every body the backend or a proxy before it
may send.
-/

namespace IsolatedEnv.Frontend

open IsolatedEnv.Foundation

/--
What the code uses of JavaScript: the UTF-8 decoder, `JSON.parse` (`none` is a
`SyntaxError`), `JSON.stringify`, the text of a number and `toLowerCase`.
-/
structure JavaScript where
  decode : List Byte → String
  parse : String → Option Json
  stringify : Json → String
  numberText : Rat → String
  toLowerCase : String → String
  parse_empty : parse "" = none

inductive JsError where
  | api (status : Nat) (message : String)
  | error (message : String)
  | typeError
  | syntaxError
  | aborted
  deriving DecidableEq, Repr

/-!
## Reading a body

A response has no body at all (`304`), a body that breaks off, or the bytes
of its body.  A body that has been read once cannot be read again, whatever
came of the first reading.
-/

inductive Body where
  | absent
  | broken
  | bytes (content : List Byte)
  deriving DecidableEq, Repr

structure Response where
  status : Nat
  body : Body
  deriving DecidableEq, Repr

namespace Response

def ok (res : Response) : Bool := 200 ≤ res.status && res.status ≤ 299

/-- The text of the body and whether the body is used up afterwards. -/
def text (js : JavaScript) (res : Response) (bodyUsed : Bool) :
    Except JsError String × Bool :=
  match res.body with
  | .absent => (.ok "", bodyUsed)
  | .broken => if bodyUsed then (.error .typeError, true) else (.error .aborted, true)
  | .bytes content =>
      if bodyUsed then (.error .typeError, true) else (.ok (js.decode content), true)

def json (js : JavaScript) (res : Response) (bodyUsed : Bool) :
    Except JsError Json × Bool :=
  match res.text js bodyUsed with
  | (.error e, used) => (.error e, used)
  | (.ok text, used) =>
      match js.parse text with
      | some value => (.ok value, used)
      | none => (.error .syntaxError, used)

end Response

/-!
## Members and texts of a parsed value

`member` is `body.name` on a value other than `null`: only objects have own
members, and `undefined` and `null` are the same to `??`.  `toText` is the
conversion that `super(message)` makes; it throws at an object with a member
`toString`, which hides the method of that name and cannot be called.
-/

def member (body : Json) (name : String) : Option Json :=
  match body with
  | .obj members =>
      match JsonObject.get? members name with
      | some .null => none
      | value => value
  | _ => none

def joinTexts : List String → String
  | [] => ""
  | [text] => text
  | text :: texts => text ++ "," ++ joinTexts texts

mutual

def toText (js : JavaScript) : Json → Option String
  | .null => some "null"
  | .bool value => some (if value then "true" else "false")
  | .int value => some (js.numberText value)
  | .float value => some (js.numberText value)
  | .str value => some value
  | .arr elements => (elementTexts js elements).map joinTexts
  | .obj members =>
      if (JsonObject.get? members "toString").isSome then none
      else some "[object Object]"

def elementTexts (js : JavaScript) : List Json → Option (List String)
  | [] => some []
  | .null :: elements => (elementTexts js elements).map ("" :: ·)
  | element :: elements => do
      let text ← toText js element
      let texts ← elementTexts js elements
      some (text :: texts)

end

/-! ## `request` -/

/--
The argument of `new ApiError`: what `body.detail ?? body.message ??
JSON.stringify(body)` evaluates to, or the text of the response.
-/
def errorMessage (js : JavaScript) (res : Response) : Except JsError Json :=
  match res.json js false with
  | (.ok .null, used) => ((res.text js used).1).map .str
  | (.ok body, _) =>
      .ok (((member body "detail").orElse fun _ => member body "message").getD
        (.str (js.stringify body)))
  | (.error _, used) => ((res.text js used).1).map .str

def newApiError (js : JavaScript) (status : Nat) (message : Json) : JsError :=
  match toText js message with
  | some text => .api status text
  | none => .typeError

/-- From the response on; `none` is `undefined`. -/
def received (js : JavaScript) (res : Response) : Except JsError (Option Json) :=
  if res.ok then
    if res.status = 204 then .ok none else (res.json js false).1.map some
  else
    match errorMessage js res with
    | .ok message => .error (newApiError js res.status message)
    | .error e => .error e

structure ApiRequestInit where
  method : Option String
  headers : List (String × String)
  body : Option String
  noCache : Bool
  deriving DecidableEq, Repr

structure FetchInit where
  method : Option String
  headers : List (String × String)
  body : Option String
  noStore : Bool
  timeout : Nat
  deriving DecidableEq, Repr

abbrev Fetch := String → FetchInit → Except JsError Response

/-- `{ ...headers, ...others }`. -/
def spread (headers others : List (String × String)) : List (String × String) :=
  (headers.filter fun h => ∀ other ∈ others, other.1 ≠ h.1) ++ others

def getAuthHeaders (cookies : Cookies) : List (String × String) :=
  (truthy cookies.session).toList.map fun token =>
    ("Authorization", "Bearer " ++ token)

def fetchInit (cookies : Cookies) (options : ApiRequestInit) : FetchInit where
  method := options.method
  headers :=
    spread (spread [("Content-Type", "application/json")] (getAuthHeaders cookies))
      options.headers
  body := options.body
  noStore := options.noCache
  timeout := 10000

def request (js : JavaScript) (fetch : Fetch) (apiUrl : String) (cookies : Cookies)
    (path : String) (options : ApiRequestInit) : Except JsError (Option Json) :=
  (fetch (apiUrl ++ path) (fetchInit cookies options)).bind (received js)

namespace ApiClient

def get : ApiRequestInit := ⟨none, [], none, false⟩

/-- `body ? JSON.stringify(body) : undefined`. -/
def bodyText (js : JavaScript) : Option Json → Option String
  | none | some .null | some (.bool false) | some (.int 0) | some (.str "") => none
  | some (.float value) => if value = 0 then none else some (js.stringify (.float value))
  | some body => some (js.stringify body)

def post (js : JavaScript) (body : Option Json) : ApiRequestInit :=
  ⟨some "POST", [], bodyText js body, true⟩

def patch (js : JavaScript) (body : Option Json) : ApiRequestInit :=
  ⟨some "PATCH", [], bodyText js body, true⟩

def delete : ApiRequestInit := ⟨some "DELETE", [], none, true⟩

end ApiClient

/-! ## `withAuth` -/

def includes (text part : String) : Bool :=
  text.toList.tails.any fun rest => part.toList.isPrefixOf rest

/-- What it does to the cookies of the server action and how it settles. -/
def withAuth {α : Type} (js : JavaScript) (outcome : Except JsError α) :
    List CookieWrite × Except JsError α :=
  match outcome with
  | .ok value => ([], .ok value)
  | .error (.api status message) =>
      if status = 401 then (clearSessionCookies, .error (.error "UNAUTHORIZED"))
      else if status = 403 then
        if includes (js.toLowerCase message) "blocked" then
          (clearSessionCookies, .error (.error "BLOCKED"))
        else ([], .error (.error "FORBIDDEN"))
      else ([], .error (.api status message))
  | .error e => ([], .error e)

/-!
## When the status is kept

`Within part value` says that converting `value` to a text comes across
`part`: the value itself, or what lies inside its arrays.
-/

inductive Within (part : Json) : Json → Prop
  | self : Within part part
  | element {elements : List Json} {element : Json} :
      element ∈ elements → Within part element → Within part (.arr elements)

def Convertible (value : Json) : Prop :=
  ∀ members, Within (.obj members) value →
    JsonObject.get? members "toString" = none

theorem convertible_arr (elements : List Json) :
    Convertible (.arr elements) ↔ ∀ element ∈ elements, Convertible element := by
  constructor
  · intro h element helement members hwithin
    exact h members (.element helement hwithin)
  · intro h members hwithin
    cases hwithin with
    | element helement hinner => exact h _ helement members hinner

theorem convertible_obj (members : JsonObject) :
    Convertible (.obj members) ↔ JsonObject.get? members "toString" = none := by
  constructor
  · intro h
    exact h members .self
  · intro h others hwithin
    cases hwithin
    exact h

theorem convertible_scalar {value : Json} (harr : ∀ elements, value ≠ .arr elements)
    (hobj : ∀ members, value ≠ .obj members) : Convertible value := by
  intro members hwithin
  cases hwithin with
  | self => exact absurd rfl (hobj members)
  | element helement hinner => exact absurd rfl (harr _)

mutual

theorem toText_isSome (js : JavaScript) :
    (value : Json) → ((toText js value).isSome ↔ Convertible value)
  | .null | .bool _ | .int _ | .float _ | .str _ =>
      iff_of_true rfl (convertible_scalar (by simp) (by simp))
  | .arr elements => by
      rw [convertible_arr, toText, Option.isSome_map]
      exact elementTexts_isSome js elements
  | .obj members => by
      rw [convertible_obj, toText]
      cases JsonObject.get? members "toString" <;> simp

theorem elementTexts_isSome (js : JavaScript) :
    (elements : List Json) →
      ((elementTexts js elements).isSome ↔ ∀ element ∈ elements, Convertible element)
  | [] => by simp [elementTexts]
  | element :: elements => by
      have hhead := toText_isSome js element
      have htail := elementTexts_isSome js elements
      rw [List.forall_mem_cons, ← htail, ← hhead]
      cases element with
      | null => simp [elementTexts, toText]
      | _ =>
          simp only [elementTexts, Option.bind_eq_bind]
          cases toText js _ <;> cases elementTexts js elements <;> simp

end

/-- The member of the body that becomes the message. -/
def shownMember (body : Json) : Option Json :=
  (member body "detail").orElse fun _ => member body "message"

def ReadableBody (body : Json) : Prop :=
  body ≠ .null ∧ ∀ value ∈ shownMember body, Convertible value

def Readable (js : JavaScript) (res : Response) : Prop :=
  match res.body with
  | .absent => True
  | .broken => False
  | .bytes content => ∃ body ∈ js.parse (js.decode content), ReadableBody body

structure StatusKept (js : JavaScript) (status : Nat)
    (outcome : Except JsError (Option Json)) : Prop where
  rejects : ∃ message, outcome = .error (.api status message)
  unauthorized :
    status = 401 → withAuth js outcome = (clearSessionCookies, .error (.error "UNAUTHORIZED"))
  forbidden :
    status = 403 →
      withAuth js outcome = (clearSessionCookies, .error (.error "BLOCKED")) ∨
        withAuth js outcome = ([], .error (.error "FORBIDDEN"))

theorem errorMessage_absent (js : JavaScript) (status : Nat) :
    errorMessage js ⟨status, .absent⟩ = .ok (.str "") := by
  simp [errorMessage, Response.json, Response.text, js.parse_empty, Except.map]

theorem errorMessage_broken (js : JavaScript) (status : Nat) :
    errorMessage js ⟨status, .broken⟩ = .error .typeError := by
  simp [errorMessage, Response.json, Response.text, Except.map]

theorem errorMessage_unparsed {js : JavaScript} {content : List Byte} (status : Nat)
    (h : js.parse (js.decode content) = none) :
    errorMessage js ⟨status, .bytes content⟩ = .error .typeError := by
  simp [errorMessage, Response.json, Response.text, h, Except.map]

theorem errorMessage_null {js : JavaScript} {content : List Byte} (status : Nat)
    (h : js.parse (js.decode content) = some .null) :
    errorMessage js ⟨status, .bytes content⟩ = .error .typeError := by
  simp [errorMessage, Response.json, Response.text, h, Except.map]

theorem errorMessage_parsed {js : JavaScript} {content : List Byte} {body : Json}
    (status : Nat) (h : js.parse (js.decode content) = some body) (hbody : body ≠ .null) :
    errorMessage js ⟨status, .bytes content⟩ =
      .ok ((shownMember body).getD (.str (js.stringify body))) := by
  have hjson :
      Response.json js ⟨status, .bytes content⟩ false = (.ok body, true) := by
    simp [Response.json, Response.text, h]
  rw [errorMessage, hjson]
  cases body with
  | null => exact absurd rfl hbody
  | _ => rfl

/-- A text that stands in for the members is always converted. -/
theorem toText_getD (js : JavaScript) (value : Option Json) (text : String) :
    (toText js (value.getD (.str text))).isSome ↔ ∀ v ∈ value, Convertible v := by
  cases value with
  | none => simp [toText]
  | some v => simpa using toText_isSome js v

/-- A second reading of the body fails; a first one that works decides by the message. -/
theorem errorMessage_cases (js : JavaScript) (res : Response) :
    (errorMessage js res = .error .typeError ∧ ¬Readable js res) ∨
      ∃ message, errorMessage js res = .ok message ∧
        ((toText js message).isSome ↔ Readable js res) := by
  obtain ⟨status, body⟩ := res
  cases body with
  | absent => exact .inr ⟨.str "", errorMessage_absent js status, by simp [Readable, toText]⟩
  | broken => exact .inl ⟨errorMessage_broken js status, by simp [Readable]⟩
  | bytes content =>
      cases hparse : js.parse (js.decode content) with
      | none => exact .inl ⟨errorMessage_unparsed status hparse, by simp [Readable, hparse]⟩
      | some value =>
          by_cases hnull : value = .null
          · subst hnull
            exact .inl ⟨errorMessage_null status hparse,
              by simp [Readable, ReadableBody, hparse]⟩
          · refine .inr ⟨_, errorMessage_parsed status hparse hnull, ?_⟩
            rw [toText_getD]
            simp [Readable, ReadableBody, hparse, hnull]

theorem received_rejects_iff (js : JavaScript) {res : Response} (h : res.ok = false) :
    (∃ message, received js res = .error (.api res.status message)) ↔ Readable js res := by
  rw [received, if_neg (by simp [h])]
  rcases errorMessage_cases js res with ⟨hmessage, hreadable⟩ | ⟨message, hmessage, hreadable⟩
  · simp [hmessage, hreadable]
  · rw [← hreadable, hmessage]
    cases htext : toText js message <;> simp [newApiError, htext]

/-- The status alone decides what `withAuth` does, up to the text of a `403`. -/
theorem statusKept_iff (js : JavaScript) (status : Nat)
    (outcome : Except JsError (Option Json)) :
    StatusKept js status outcome ↔ ∃ message, outcome = .error (.api status message) := by
  refine ⟨StatusKept.rejects, fun ⟨message, h⟩ => ⟨⟨message, h⟩, ?_, ?_⟩⟩
  · intro hstatus
    simp [h, hstatus, withAuth]
  · intro hstatus
    simp only [h, hstatus, withAuth]
    by_cases hblocked : includes (js.toLowerCase message) "blocked" <;> simp [hblocked]

/--
A response of error status is reported under its status exactly when its body
is absent, or arrives, is JSON other than `null`, and the member that becomes
the message can be converted to a text.
-/
theorem request_keeps_status_iff (js : JavaScript) (fetch : Fetch) (apiUrl : String)
    (cookies : Cookies) (path : String) (options : ApiRequestInit) {res : Response}
    (hfetch : fetch (apiUrl ++ path) (fetchInit cookies options) = .ok res)
    (hbad : res.ok = false) :
    StatusKept js res.status (request js fetch apiUrl cookies path options) ↔
      Readable js res := by
  rw [statusKept_iff, request, hfetch]
  exact received_rejects_iff js hbad

/-- As far as ASCII bodies with a `detail` member need it. -/
def asciiJavaScript : JavaScript where
  decode content := String.ofList (content.map fun b => Char.ofNat b.val)
  parse text := JsonText.parse text.toList
  stringify _ := ""
  numberText _ := ""
  toLowerCase text := text.toLower
  parse_empty := by decide +kernel

def blockedReply : Response where
  status := 403
  body := .bytes (asciiBytes (JsonText.dumps [("detail", "Account is blocked")]))

theorem blocked_reply_keeps_status :
    StatusKept asciiJavaScript 403
      (request asciiJavaScript (fun _ _ => .ok blockedReply) "http://backend:8000"
        ⟨some "token", none, none⟩ "/api/v1/users/me" ApiClient.get) := by
  refine (request_keeps_status_iff asciiJavaScript (fun _ _ => .ok blockedReply)
    "http://backend:8000" ⟨some "token", none, none⟩ "/api/v1/users/me" ApiClient.get
    rfl (by decide)).mpr ?_
  have hdecode : asciiJavaScript.decode (asciiBytes (JsonText.dumps
      [("detail", "Account is blocked")])) =
      String.ofList (JsonText.dumps [("detail", "Account is blocked")]) := by
    decide +kernel
  have hparse : JsonText.parse (JsonText.dumps [("detail", "Account is blocked")]) =
      some (.obj [("detail", .str "Account is blocked")]) :=
    JsonText.parse_dumps _
  refine ⟨.obj [("detail", .str "Account is blocked")], ?_, by simp, ?_⟩
  · rw [hdecode]
    simpa [asciiJavaScript] using hparse
  · intro value hvalue
    cases hvalue
    exact convertible_scalar (by simp) (by simp)

/-- A `401` without a JSON body, as a proxy sends it. -/
theorem empty_401_keeps_session :
    let outcome :=
      request asciiJavaScript (fun _ _ => .ok ⟨401, .bytes []⟩) "http://backend:8000"
        ⟨some "token", none, none⟩ "/api/v1/users/me" ApiClient.get
    outcome = .error .typeError ∧ ¬ StatusKept asciiJavaScript 401 outcome ∧
      withAuth asciiJavaScript outcome = ([], .error .typeError) := by
  have houtcome :
      received asciiJavaScript ⟨401, .bytes []⟩ = .error .typeError := by
    have hempty : asciiJavaScript.parse (asciiJavaScript.decode []) = none :=
      asciiJavaScript.parse_empty
    simp [received, Response.ok, errorMessage_unparsed 401 hempty]
  refine ⟨houtcome, fun h => ?_, ?_⟩
  · obtain ⟨message, hrejects⟩ := h.rejects
    cases houtcome.symm.trans hrejects
  · exact congrArg (withAuth asciiJavaScript) houtcome

end IsolatedEnv.Frontend
