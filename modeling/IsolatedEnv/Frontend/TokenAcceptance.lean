import IsolatedEnv.Backend.Core.Auth
import IsolatedEnv.Frontend.SessionIsolation
import Mathlib.Tactic.Linarith

/-!
# The access tokens that front end and back end take

`proxy.ts`, the schema in `getSession` and the backend read the payload of one token
independently of each other.  The backend asks the userinfo endpoint for an email that
the token lacks; the schema wants it in the token.
-/

namespace IsolatedEnv.Frontend

open IsolatedEnv.Foundation

/-! ## `proxy.ts` -/

def jsTruthy : Json → Bool
  | .null => false
  | .bool b => b
  | .int n => n ≠ 0
  | .float q => q ≠ 0
  | .str s => s ≠ ""
  | .arr _ | .obj _ => true

/-- `toNumber` converts a value that is no number; `none` is `NaN`. -/
def jsLess (toNumber : Json → Option Rat) (value : Json) (now : Int) : Bool :=
  match value.number?.or (toNumber value) with
  | some number => number < now
  | none => false

/-- Whether `proxy` lets a request with the session cookie through to the dashboard. -/
def proxyAdmits (parse : ParsePart) (toNumber : Json → Option Rat)
    (session : Option String) (now : Int) : Bool :=
  match truthy session with
  | none => false
  | some token =>
      match token.toList.splitOn '.' with
      | _ :: b64 :: _ =>
          match parse (String.ofList b64) with
          | some (.obj members) =>
              match JsonObject.get? members "exp" with
              | some exp => jsTruthy exp && !jsLess toNumber exp now
              | none => false
          -- `payload.exp` is undefined, or throws if the payload is `null`
          | _ => false
      | _ => false

/-! ## Unexpired tokens -/

/-- A JWT of three parts with a subject and more than 30 seconds left at second `now`. -/
structure AccessToken (parse : ParsePart) (now : Int) where
  header : String
  payload : String
  signature : String
  members : JsonObject
  sub : String
  exp : Json
  expiry : Rat
  noDots : ∀ part ∈ [header, payload, signature], ∀ c ∈ part.toList, (c == '.') = false
  parsed : parse payload = some (.obj members)
  sub_eq : JsonObject.get? members "sub" = some (.str sub)
  exp_eq : JsonObject.get? members "exp" = some exp
  number : exp.number? = some expiry
  future : expiry > now + 30

namespace AccessToken

variable {parse : ParsePart} {now : Int}

def text (token : AccessToken parse now) : String :=
  token.header ++ "." ++ token.payload ++ "." ++ token.signature

/-- What the schema asks of the profile claims. -/
structure ProfileClaims (token : AccessToken parse now) : Prop where
  email : ∃ email, JsonObject.get? token.members "email" = some (.str email)
  name : ∀ json, JsonObject.get? token.members "name" = some json →
    ∃ text, json = .str text
  preferredUsername : ∀ json,
    JsonObject.get? token.members "preferred_username" = some json →
      ∃ text, json = .str text
  groups : ∀ json, JsonObject.get? token.members "groups" = some json →
    ∃ names : List String, json = .arr (names.map .str)

theorem splitOn_text (token : AccessToken parse now) :
    token.text.toList.splitOn '.' =
      [token.header.toList, token.payload.toList, token.signature.toList] := by
  have hlist : token.text.toList = token.header.toList ++ '.' ::
      (token.payload.toList ++ '.' :: token.signature.toList) := by
    simp [text]
  have hheader := token.noDots token.header (by simp)
  have hpayload := token.noDots token.payload (by simp)
  have hsignature := token.noDots token.signature (by simp)
  rw [hlist, List.splitOn_eq_splitOnP,
    List.splitOnP_append_cons_of_forall_mem hheader '.' rfl,
    List.splitOnP_append_cons_of_forall_mem hpayload '.' rfl,
    List.splitOnP_eq_singleton hsignature]

theorem truthy_text (token : AccessToken parse now) :
    truthy (some token.text) = some token.text := by
  have hne : token.text ≠ "" := by
    intro h
    have hlength := congrArg (fun text => text.toList.length) h
    simp [text] at hlength
  simp [truthy, hne]

theorem decode_text (token : AccessToken parse now) :
    decodeJwtPayload parse token.text = jwtPayloadSchema (.obj token.members) := by
  simp [decodeJwtPayload, token.splitOn_text, token.parsed]

theorem admitted (token : AccessToken parse now) (toNumber : Json → Option Rat)
    (hnow : 0 ≤ now) : proxyAdmits parse toNumber (some token.text) now = true := by
  have hfuture := token.future
  have hnow' : (0 : Rat) ≤ now := by exact_mod_cast hnow
  have hpositive : token.expiry ≠ 0 := by
    intro h
    rw [h] at hfuture
    linarith
  have htruthy : jsTruthy token.exp = true := by
    have hnumber := token.number
    cases hexp : token.exp with
    | int n =>
        rw [hexp] at hnumber
        have hn : (n : Rat) ≠ 0 := Option.some.inj hnumber ▸ hpositive
        simpa [jsTruthy] using hn
    | float q =>
        rw [hexp] at hnumber
        have hq : q ≠ 0 := Option.some.inj hnumber ▸ hpositive
        simpa [jsTruthy] using hq
    | null | bool | str | arr | obj => simp [hexp, Json.number?] at hnumber
  have hless : jsLess toNumber token.exp now = false := by
    simp only [jsLess, token.number, Option.some_or, decide_eq_false_iff_not]
    linarith
  simp [proxyAdmits, token.truthy_text, token.splitOn_text, token.parsed, token.exp_eq,
    htruthy, hless]

end AccessToken

/-! ## What the schema takes -/

section Schema

variable {member : Option Json}

theorem zString_eq_some {text : String} : zString member = some text ↔ member = some (.str text) := by
  unfold zString
  cases member with
  | none => simp
  | some json => cases json <;> simp [Json.text?]

theorem zDefault_isSome {β : Type} {schema : Option Json → Option β} {value : β} :
    (∃ b, zDefault schema value member = some b) ↔
      ∀ json, member = some json → ∃ b, schema (some json) = some b := by
  cases member <;> simp [zDefault]

theorem mapM_text {elements : List Json} {names : List String} :
    elements.mapM Json.text? = some names ↔ elements = names.map .str := by
  induction elements generalizing names with
  | nil => cases names <;> simp
  | cons json elements ih =>
      rw [List.mapM_cons]
      cases json with
      | str text =>
          cases names with
          | nil => simp [Json.text?, Option.bind_eq_some_iff]
          | cons name names => simp [Json.text?, ih, Option.bind_eq_some_iff, and_comm]
      | null | bool | int | float | arr | obj => cases names <;> simp [Json.text?]

theorem zStrings_eq_some {names : List String} :
    zStrings member = some names ↔ member = some (.arr (names.map .str)) := by
  unfold zStrings
  cases member with
  | none => simp
  | some json => cases json <;> simp [Json.elements?, mapM_text]

end Schema

namespace AccessToken

variable {parse : ParsePart} {now : Int}

theorem decode_isSome (token : AccessToken parse now) :
    (∃ user, decodeJwtPayload parse token.text = some user) ↔ token.ProfileClaims := by
  rw [token.decode_text]
  constructor
  · rintro ⟨user, hdecoded⟩
    simp only [jwtPayloadSchema, Option.bind_eq_bind, Option.bind_eq_some_iff] at hdecoded
    obtain ⟨sub, -, email, hemail, name, hname, preferred, hpreferred, groups, hgroups, -⟩ :=
      hdecoded
    refine ⟨⟨email, zString_eq_some.mp hemail⟩, fun json hjson => ?_, fun json hjson => ?_,
      fun json hjson => ?_⟩
    · obtain ⟨text, htext⟩ := zDefault_isSome.mp ⟨name, hname⟩ json hjson
      exact ⟨text, Option.some.inj (zString_eq_some.mp htext)⟩
    · obtain ⟨text, htext⟩ := zDefault_isSome.mp ⟨preferred, hpreferred⟩ json hjson
      exact ⟨text, Option.some.inj (zString_eq_some.mp htext)⟩
    · obtain ⟨names, hnames⟩ := zDefault_isSome.mp ⟨groups, hgroups⟩ json hjson
      exact ⟨names, Option.some.inj (zStrings_eq_some.mp hnames)⟩
  · rintro ⟨⟨email, hemail⟩, hname, hpreferred, hgroups⟩
    obtain ⟨name, hname⟩ : ∃ name,
        zDefault zString "" (JsonObject.get? token.members "name") = some name := by
      refine zDefault_isSome.mpr fun json hjson => ?_
      obtain ⟨text, rfl⟩ := hname json hjson
      exact ⟨text, rfl⟩
    obtain ⟨preferred, hpreferred⟩ : ∃ preferred, zDefault zString ""
        (JsonObject.get? token.members "preferred_username") = some preferred := by
      refine zDefault_isSome.mpr fun json hjson => ?_
      obtain ⟨text, rfl⟩ := hpreferred json hjson
      exact ⟨text, rfl⟩
    obtain ⟨groups, hgroups⟩ : ∃ groups,
        zDefault zStrings [] (JsonObject.get? token.members "groups") = some groups := by
      refine zDefault_isSome.mpr fun json hjson => ?_
      obtain ⟨names, rfl⟩ := hgroups json hjson
      exact ⟨names, zStrings_eq_some.mpr rfl⟩
    exact ⟨⟨token.sub, email, name, preferred, groups, token.expiry⟩, by
      simp [jwtPayloadSchema, zString, token.sub_eq, hemail, hname, hpreferred, hgroups,
        token.exp_eq, token.number, Json.text?]⟩

theorem decode_exp (token : AccessToken parse now) {user : SessionUser}
    (h : decodeJwtPayload parse token.text = some user) : user.exp = token.expiry := by
  rw [token.decode_text] at h
  simp only [jwtPayloadSchema, Option.bind_eq_bind, Option.bind_eq_some_iff, token.exp_eq,
    Option.bind_some, token.number, Option.some.injEq] at h
  obtain ⟨sub, -, email, -, name, -, preferred, -, groups, -, exp, rfl, rfl⟩ := h
  rfl

/-- With enough time left, a token that decodes is a session of its own. -/
theorem ownSession_eq (token : AccessToken parse now) {cookies : Cookies}
    (hsession : cookies.session = some token.text) :
    ownSession parse cookies now =
      (decodeJwtPayload parse token.text).map fun user => ⟨token.text, user⟩ := by
  have hfuture := token.future
  simp only [ownSession, hsession, token.truthy_text, Option.bind_eq_bind, Option.bind_some]
  cases hdecode : decodeJwtPayload parse token.text with
  | none => rfl
  | some user => simp [token.decode_exp hdecode, hfuture]

end AccessToken

/-! ## What `getSession` does with them -/

/--
The call ends with the session of the token.  No promise is created, the token endpoint
is sent nothing, and no cookie is written.
-/
def Keeps (parse : ParsePart) (p : Process) (i : Nat) (now : Int) (token : String) : Prop :=
  ∃ q user c, step parse p (.resume i now) = some q ∧ p.calls[i]? = some c ∧
    q.flight = p.flight ∧ q.grants = p.grants ∧
    q.calls = p.calls.set i
      { c with checkedAt := some now, status := .done (.value (some ⟨token, user⟩)) }

/-- The refresh settles with the session of the token, and clears no cookie. -/
def RefreshKeeps (parse : ParsePart) (p : Process) (promise : Nat) (writable : Bool)
    (token : String) : Prop :=
  ∃ q user arg writes, step parse p (.cookieStore promise writable) = some q ∧
    q.flight.tasks[promise]? = some ⟨arg, .settled (.value (some ⟨token, user⟩))⟩ ∧
    q.grants = p.grants ∧ q.calls = writeCookies p.calls arg.call writes ∧
    ∀ name, CookieWrite.delete name ∉ writes

variable {parse : ParsePart} {now : Int} {p : Process}

theorem keeps_iff (token : AccessToken parse now) {i : Nat} {c : Call}
    (hcall : p.calls[i]? = some c) (hstatus : c.status = .reading)
    (hsession : c.cookies.session = some token.text) :
    Keeps parse p i now token.text ↔ token.ProfileClaims := by
  have hlt := (List.getElem?_eq_some_iff.mp hcall).1
  rw [← token.decode_isSome]
  have hstep : step parse p (.resume i now) = some (resumeCall parse p i c now) := by
    simp [step, hcall, hstatus]
  have hown := token.ownSession_eq hsession
  constructor
  · rintro ⟨q, user, c', hq, hcall', -, -, hcalls⟩
    rw [hstep] at hq
    cases hq
    cases hdecode : decodeJwtPayload parse token.text with
    | some user => exact ⟨user, rfl⟩
    | none =>
        rw [hdecode, Option.map_none] at hown
        have hstatus' : ((resumeCall parse p i c now).calls[i]?).map Call.status =
            some (.done (.value (some ⟨token.text, user⟩))) := by
          rw [hcalls, List.getElem?_set_self hlt]
          rfl
        unfold resumeCall at hstatus'
        rw [hown] at hstatus'
        dsimp only at hstatus'
        split at hstatus' <;> simp [List.getElem?_set_self hlt] at hstatus'
  · rintro ⟨user, hdecode⟩
    rw [hdecode, Option.map_some] at hown
    refine ⟨_, user, c, hstep, hcall, ?_, ?_, ?_⟩ <;> simp only [resumeCall, hown]

theorem setSessionCookies_no_delete (tokens : TokenEndpointResponse) (name : String) :
    CookieWrite.delete name ∉ setSessionCookies tokens := by
  simp [setSessionCookies, setIfIssued]

/-- Where `doRefreshSession` is once it has had the cookie store for its tokens. -/
def stored (parse : ParsePart) (tokens : TokenEndpointResponse) (writable : Bool) :
    Progress RefreshWork Settled :=
  match writable, decodeJwtPayload parse tokens.accessToken with
  | true, some user => .settled (.value (some ⟨tokens.accessToken, user⟩))
  | _, _ => .running .clearing

theorem step_storing {promise : Nat} {arg : RefreshArg} {tokens : TokenEndpointResponse}
    {writable : Bool} (htask : p.flight.tasks[promise]? = some ⟨arg, .running (.storing tokens)⟩) :
    step parse p (.cookieStore promise writable) = some { p with
      flight := { p.flight with
        tasks := p.flight.tasks.set promise ⟨arg, stored parse tokens writable⟩ }
      calls := if writable then writeCookies p.calls arg.call (setSessionCookies tokens)
        else p.calls } := by
  cases writable with
  | false => simp [step, Process.underWay, Flight.advance, htask, afterCookies, stored]
  | true =>
      cases hdecode : decodeJwtPayload parse tokens.accessToken <;>
        simp [step, Process.underWay, Flight.advance, htask, afterCookies, stored, hdecode,
          cookieWrites]

theorem refreshKeeps_iff (token : AccessToken parse now) {promise : Nat} {arg : RefreshArg}
    {tokens : TokenEndpointResponse} {writable : Bool}
    (htask : p.flight.tasks[promise]? = some ⟨arg, .running (.storing tokens)⟩)
    (htoken : tokens.accessToken = token.text) :
    RefreshKeeps parse p promise writable token.text ↔
      writable = true ∧ token.ProfileClaims := by
  have hlt := (List.getElem?_eq_some_iff.mp htask).1
  have hstep := @step_storing parse p promise arg tokens writable htask
  rw [← token.decode_isSome]
  constructor
  · rintro ⟨q, user, arg', writes, hq, hsettled, -⟩
    rw [hstep] at hq
    cases hq
    rw [List.getElem?_set_self hlt] at hsettled
    unfold stored at hsettled
    split at hsettled
    · rename_i decoded hdecode
      exact ⟨rfl, decoded, htoken ▸ hdecode⟩
    · cases hsettled
  · rintro ⟨rfl, user, hdecode⟩
    refine ⟨_, user, arg, setSessionCookies tokens, hstep, ?_, rfl, rfl,
      setSessionCookies_no_delete tokens⟩
    rw [List.getElem?_set_self hlt]
    simp [stored, htoken, hdecode]

/--
The proxy admits every unexpired token; `getSession` keeps it, and what a refresh
returned, exactly when the profile claims are as the schema wants them.
-/
theorem token_kept_iff (token : AccessToken parse now) (p : Process) :
    (∀ toNumber, 0 ≤ now → proxyAdmits parse toNumber (some token.text) now = true) ∧
    (∀ (i : Nat) c, p.calls[i]? = some c → c.status = .reading →
      c.cookies.session = some token.text →
        (Keeps parse p i now token.text ↔ token.ProfileClaims)) ∧
    ∀ (promise : Nat) arg tokens writable,
      p.flight.tasks[promise]? = some ⟨arg, .running (.storing tokens)⟩ →
        tokens.accessToken = token.text →
          (RefreshKeeps parse p promise writable token.text ↔
            writable = true ∧ token.ProfileClaims) :=
  ⟨fun toNumber => token.admitted toNumber,
    fun _ _ hcall hstatus hsession => keeps_iff token hcall hstatus hsession,
    fun _ _ _ _ htask htoken => refreshKeeps_iff token htask htoken⟩

/-! ## Alice with and without an email in her token -/

def alicesToken : AccessToken browserParse 1000 where
  header := "header"
  payload := "alice"
  signature := "signature"
  members := [("sub", .str "alice"), ("email", .str ("alice" ++ "@example.com")),
    ("exp", .int 5000)]
  sub := "alice"
  exp := .int 5000
  expiry := 5000
  noDots := by simp
  parsed := rfl
  sub_eq := rfl
  exp_eq := rfl
  number := rfl
  future := by norm_num

def alicesVisit : Process :=
  { Process.start with calls := [⟨⟨some alicesToken.text, none, none⟩, none, .reading, []⟩] }

theorem alices_token_kept : Keeps browserParse alicesVisit 0 1000 alicesToken.text := by
  refine ((token_kept_iff alicesToken alicesVisit).2.1 0 _ rfl rfl rfl).mpr
    ⟨⟨_, rfl⟩, nofun, nofun, nofun⟩

def withoutEmail : JsonObject := [("sub", .str "alice"), ("exp", .int 5000)]

def parseWithoutEmail : ParsePart := fun part =>
  if part = "alice" then some (.obj withoutEmail) else none

/-- The backend's side of the token: its payload, and the email from userinfo. -/
def alicesAuthentication : Backend.Authentication where
  token := "header.alice.signature"
  signingKey := .ok ()
  decoded := .ok withoutEmail
  userinfo := .response ⟨200, some (.obj [("email", .str "alice@example.com")])⟩
  database := none

/-- Her call refreshes, and the endpoint returns a token like the one she has. -/
def alicesLogout : List Event :=
  [.call ⟨some "header.alice.signature", some "refresh-alice", none⟩,
   .resume 0 1000, .discovered 0 true, .replied 0 (some (browserTokens "alice")),
   .cookieStore 0 true, .cookieStore 0 true, .released 0, .settle 0]

theorem token_without_email_logs_out :
    proxyAdmits parseWithoutEmail (fun _ => none) (some "header.alice.signature") 1000 =
        true ∧
      (alicesAuthentication.authenticate Backend.exampleEnv (Backend.exampleTick 1)
        .empty).isOk = true ∧
      ((run (step parseWithoutEmail) .start alicesLogout).bind fun p => p.calls[0]?).map
          (fun c => (c.status, clearSessionCookies.all fun write => write ∈ c.writes)) =
        some (.done (.value none), true) := by
  refine ⟨?_, ?_, ?_⟩ <;> decide +kernel

end IsolatedEnv.Frontend
