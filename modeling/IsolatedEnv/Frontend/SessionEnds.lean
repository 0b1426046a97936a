import IsolatedEnv.Backend.Blocking
import IsolatedEnv.Backend.Refusals
import IsolatedEnv.Frontend.ApiClient

/-!
# When an action ends the session

An error of the application travels to a server action as a response, which `request` turns
into an `ApiError` and `withAuth` into what becomes of the session.
-/

namespace IsolatedEnv.Frontend

open IsolatedEnv.Foundation IsolatedEnv.Backend

/-- The application behind the check of the token. -/
def answerTo (env : Env) (app : App) (call : Authentication) (request : Request)
    (route : Route) : Except Exc Answer := do
  let payload ← call.getCurrentUser
  let request := { request with auth := ⟨payload, call.userinfo⟩ }
  match route with
  | .item _ => (app.serve env request route).1
  | .user _ =>
      -- `serve` repeats a look-up that the database has answered.
      let _ ← call.getCurrentDbUser env request.auth request.tick app.db.users
      (app.serve env request route).1

/--
The exception handlers.  `render` writes the `JSONResponse` with a `detail`, and `invalid` is
the body for a request that fails its validation.
-/
def errorResponse (render : String → List Byte) (invalid : List Byte) (e : Exc) : Response :=
  if e = unprocessable then ⟨422, .bytes invalid⟩
  else
    match e with
    | .http statusCode detail | .app statusCode detail => ⟨statusCode, .bytes (render detail)⟩
    | _ => ⟨500, .bytes (render "Internal server error")⟩

/-- For plain texts, a response is read as it was written and lower case is that of ASCII. -/
structure Reads (js : JavaScript) (render : String → List Byte) : Prop where
  detail : ∀ text, JsonText.Plain text →
    js.parse (js.decode (render text)) = some (.obj [("detail", .str text)])
  lower : ∀ text, JsonText.Plain text → js.toLowerCase text = text.toLower

variable {js : JavaScript} {render : String → List Byte} {invalid : List Byte}
  {env : Env} {app : App} {call : Authentication} {request : Request} {route : Route} {e : Exc}

theorem errorResponse_status (e : Exc) :
    (errorResponse render invalid e).status = e.statusCode := by
  unfold errorResponse
  split
  · rename_i h
    rw [h]
    rfl
  · cases e <;> rfl

theorem plain_of_all {text : String} (h : text.toList.all JsonText.isPlain = true) :
    JsonText.Plain text :=
  List.all_eq_true.mp h

/-- No `ApiError` is raised. -/
abbrev NotApi {α : Type} (x : Except JsError α) : Prop :=
  Raises (fun e => ∀ status message, e ≠ .api status message) x

theorem text_notApi (res : Response) (bodyUsed : Bool) : NotApi (res.text js bodyUsed).1 := by
  unfold Response.text
  split
  · exact .ok ""
  · split <;> exact .error nofun
  · split
    · exact .error nofun
    · exact .ok _

theorem json_notApi (res : Response) (bodyUsed : Bool) : NotApi (res.json js bodyUsed).1 := by
  have htext : NotApi (res.text js bodyUsed).1 := text_notApi res bodyUsed
  unfold Response.json
  split
  · rename_i e used hfailed
    rw [hfailed] at htext
    exact .error (htext e rfl)
  · split
    · exact .ok _
    · exact .error nofun

theorem errorMessage_notApi (res : Response) : NotApi (errorMessage js res) := by
  unfold errorMessage
  split
  · exact .map (text_notApi res _)
  · exact .ok _
  · exact .map (text_notApi res _)

theorem received_api (res : Response) :
    Raises (fun e => ∀ status message, e = .api status message → status = res.status)
      (received js res) := by
  unfold received
  refine .ite (fun _ => .ite (fun _ => .ok none) fun _ => ?_) fun _ => ?_
  · exact .map (.imp (fun e he status message heq => absurd heq (he status message))
      (json_notApi res false))
  · cases hmessage : errorMessage js res with
    | error e =>
        exact .error fun status message heq =>
          absurd heq (errorMessage_notApi res e hmessage status message)
    | ok message =>
        refine .error fun status text heq => ?_
        unfold newApiError at heq
        split at heq <;> cases heq
        rfl

/-- Any other status leaves the session. -/
theorem withAuth_other {res : Response} (h401 : res.status ≠ 401) (h403 : res.status ≠ 403) :
    (withAuth js (received js res)).1 = [] := by
  cases hreceived : received js res with
  | ok value => rfl
  | error failure =>
      cases failure with
      | api status message =>
          rw [received_api res _ hreceived status message rfl]
          simp [withAuth, h401, h403]
      | error _ | typeError | syntaxError | aborted => rfl

theorem received_detail (hreads : Reads js render) (status : Nat) {detail : String}
    (hplain : JsonText.Plain detail)
    (hbad : Response.ok ⟨status, .bytes (render detail)⟩ = false) :
    received js ⟨status, .bytes (render detail)⟩ = .error (.api status detail) := by
  rw [received, if_neg (by simp [hbad]),
    errorMessage_parsed status (hreads.detail detail hplain) (by simp)]
  rfl

theorem refusal_received (hreads : Reads js render) {status : Nat} {detail : String}
    (hplain : JsonText.Plain detail) (hstatus : status = 401 ∨ status = 403) :
    received js (errorResponse render invalid (.http status detail)) =
      .error (.api status detail) := by
  have hother : Exc.http status detail ≠ unprocessable := by
    rintro h
    cases h
    omega
  unfold errorResponse
  rw [if_neg hother]
  refine received_detail hreads status hplain ?_
  rcases hstatus with rfl | rfl <;> rfl

theorem accountBlocked_ends (hreads : Reads js render) :
    (withAuth js (received js (errorResponse render invalid accountBlocked))).1 =
      clearSessionCookies := by
  have hplain : JsonText.Plain "Account is blocked" := plain_of_all (by decide)
  rw [accountBlocked, refusal_received hreads hplain (.inr rfl)]
  have hincludes : includes (js.toLowerCase "Account is blocked") "blocked" = true := by
    rw [hreads.lower _ hplain]
    decide +kernel
  simp [withAuth, hincludes]

theorem insufficientPermissions_keeps (hreads : Reads js render) :
    (withAuth js (received js (errorResponse render invalid insufficientPermissions))).1 =
      [] := by
  have hplain : JsonText.Plain "Insufficient permissions" := plain_of_all (by decide)
  rw [insufficientPermissions, refusal_received hreads hplain (.inr rfl)]
  have hincludes : includes (js.toLowerCase "Insufficient permissions") "blocked" = false := by
    rw [hreads.lower _ hplain]
    decide +kernel
  simp [withAuth, hincludes]

theorem unauthorized_ends (hreads : Reads js render) {detail : String}
    (hplain : JsonText.Plain detail) :
    (withAuth js (received js (errorResponse render invalid (.http 401 detail)))).1 =
      clearSessionCookies := by
  rw [refusal_received hreads hplain (.inl rfl)]
  simp [withAuth]

/-- The token is refused, or the check of it fails. -/
theorem getCurrentUser_error (h : call.getCurrentUser = .error e) :
    (∃ detail, JsonText.Plain detail ∧ e = .http 401 detail) ∨ e = .pyjwt := by
  unfold Authentication.getCurrentUser at h
  split at h <;> cases h
  · exact .inl ⟨_, plain_of_all (by decide), rfl⟩
  · exact .inl ⟨_, plain_of_all (by decide), rfl⟩
  · exact .inr rfl

/--
The token is refused, or the route asks for a record and the database answers with a blocked
one.
-/
def EndsSession (env : Env) (app : App) (call : Authentication) (request : Request)
    (route : Route) : Prop :=
  (∃ detail, call.getCurrentUser = .error (.http 401 detail)) ∨
    ∃ payload r, call.getCurrentUser = .ok payload ∧ route = .user r ∧
      call.database = none ∧
      app.FindsBlocked env { request with auth := ⟨payload, call.userinfo⟩ }

/-- What a route behind a record answers once the token is good. -/
theorem answerTo_user {call : Authentication} {payload : JsonObject} (r : UserRoute)
    (hcurrent : call.getCurrentUser = .ok payload) :
    (call.database = none ∧ answerTo env app call request (.user r) =
      (app.serve env { request with auth := ⟨payload, call.userinfo⟩ } (.user r)).1) ∨
    call.database ≠ none ∧ ∃ e, answerTo env app call request (.user r) = .error e ∧
      ¬e.Refuses := by
  unfold answerTo
  simp only [hcurrent, bind, Except.bind]
  cases hdatabase : call.database with
  | none =>
      refine .inl ⟨rfl, ?_⟩
      rw [Authentication.getCurrentDbUser_healthy hdatabase]
      split
      · rename_i e hfailed
        exact (serve_user_of_error r hfailed).symm
      · rfl
  | some failure =>
      obtain ⟨e, hfailed, hanswers⟩ := getCurrentDbUser_failing hdatabase env
        ⟨payload, call.userinfo⟩ request.tick app.db.users
      rw [hfailed]
      exact .inr ⟨by simp, e, rfl, hanswers⟩

/-- An answer that refuses nobody leaves the session. -/
theorem unrefused_keeps (h : ¬e.Refuses) :
    (withAuth js (received js (errorResponse render invalid e))).1 = [] := by
  refine withAuth_other ?_ ?_ <;> rw [errorResponse_status] <;> intro hstatus
  · exact h (.inl hstatus)
  · exact h (.inr hstatus)

theorem served_user_ends (hreads : Reads js render) {r : UserRoute}
    (h : (app.serve env request (.user r)).1 = .error e) :
    (app.FindsBlocked env request →
      (withAuth js (received js (errorResponse render invalid e))).1 = clearSessionCookies) ∧
    (¬app.FindsBlocked env request →
      (withAuth js (received js (errorResponse render invalid e))).1 = []) := by
  constructor
  · intro hblocked
    cases h.symm.trans (serve_user_of_error r (getCurrentDbUser_finds_blocked hblocked))
    exact accountBlocked_ends hreads
  · intro hnot
    by_cases hrefuses : e.Refuses
    · rcases serve_user_refuses h hrefuses with ⟨-, hblocked⟩ | rfl
      · exact absurd hblocked hnot
      · exact insufficientPermissions_keeps hreads
    · exact unrefused_keeps hrefuses

/--
An action that fails ends the session if the token is refused or the account is blocked, and
in no other case, whatever role it asks for and whatever Authentik answers on the way.
-/
theorem failed_action_ends_session (js : JavaScript) (render : String → List Byte)
    (invalid : List Byte) (hreads : Reads js render) (env : Env) (app : App)
    (call : Authentication) (request : Request) (route : Route) (e : Exc)
    (h : answerTo env app call request route = .error e) :
    (EndsSession env app call request route →
      (withAuth js (received js (errorResponse render invalid e))).1 = clearSessionCookies) ∧
    (¬EndsSession env app call request route →
      (withAuth js (received js (errorResponse render invalid e))).1 = []) := by
  cases hcurrent : call.getCurrentUser with
  | error failure =>
      simp only [answerTo, hcurrent, bind, Except.bind] at h
      cases h
      rcases getCurrentUser_error hcurrent with ⟨detail, hplain, rfl⟩ | rfl
      · exact ⟨fun _ => unauthorized_ends hreads hplain,
          fun hnot => absurd (.inl ⟨detail, hcurrent⟩) hnot⟩
      · refine ⟨fun hends => ?_, fun _ => unrefused_keeps (by decide)⟩
        rcases hends with ⟨detail, hdetail⟩ | ⟨payload, r, hok, -⟩
        · cases hdetail.symm.trans hcurrent
        · cases hok.symm.trans hcurrent
  | ok payload =>
      have hends : EndsSession env app call request route ↔ ∃ r, route = .user r ∧
          call.database = none ∧
          app.FindsBlocked env { request with auth := ⟨payload, call.userinfo⟩ } := by
        simp [EndsSession, hcurrent]
      rw [hends]
      cases route with
      | item route =>
          simp only [answerTo, hcurrent, bind, Except.bind] at h
          refine ⟨fun ⟨r, heq, _⟩ => (by cases heq), fun _ => ?_⟩
          exact unrefused_keeps (serve_item_notRefused route e h)
      | user route =>
          rcases answerTo_user route hcurrent with
            ⟨hdatabase, hanswer⟩ | ⟨hdatabase, failure, hanswer, hanswers⟩
          · rw [hanswer] at h
            obtain ⟨hclears, hkeeps⟩ := served_user_ends hreads h
            exact ⟨fun ⟨_, _, _, hblocked⟩ => hclears hblocked,
              fun hnot => hkeeps fun hblocked => hnot ⟨route, rfl, hdatabase, hblocked⟩⟩
          · cases h.symm.trans hanswer
            exact ⟨fun ⟨_, _, hhealthy, _⟩ => absurd hhealthy hdatabase,
              fun _ => unrefused_keeps hanswers⟩

/-- As far as plain details need it. -/
def plainResponse (detail : String) : List Byte :=
  asciiBytes ('\x7b' :: (JsonText.dumpsText "detail" ++
    ':' :: (JsonText.dumpsText detail ++ ['\x7d'])))

theorem parse_plainResponse (detail : String) :
    JsonText.parse ('\x7b' :: (JsonText.dumpsText "detail" ++
      ':' :: (JsonText.dumpsText detail ++ ['\x7d']))) =
      some (.obj [("detail", .str detail)]) := by
  have hvalue (fuel : Nat) : JsonText.readValue .plain (fuel + 1)
      (JsonText.skipSpaces (JsonText.dumpsText detail ++ ['\x7d'])) =
        some (.str detail, ['\x7d']) := by
    rw [JsonText.dumpsText_append, JsonText.skipSpaces_cons (by decide), JsonText.readValue,
      JsonText.readText_dumpsText JsonText.plain_reads]
    rfl
  have hmembers (fuel : Nat) : JsonText.readMembers .plain (fuel + 2)
      (JsonText.dumpsText "detail" ++ ':' :: (JsonText.dumpsText detail ++ ['\x7d'])) =
        some ([("detail", .str detail)], []) := by
    rw [JsonTree.readMembers_cons JsonText.plain_reads (hvalue fuel),
      JsonText.skipSpaces_cons (by decide)]
    rfl
  have hread (fuel : Nat) : JsonText.readValue .plain (fuel + 3)
      ('\x7b' :: (JsonText.dumpsText "detail" ++
        ':' :: (JsonText.dumpsText detail ++ ['\x7d']))) =
        some (.obj [("detail", .str detail)], []) := by
    have hmembers := hmembers fuel
    rw [JsonText.dumpsText_append] at hmembers ⊢
    rw [JsonTree.readValue_obj, hmembers]
    rfl
  rw [JsonText.parse, JsonText.parseWith, JsonText.skipSpaces_cons (by decide),
    List.length_cons, Nat.mul_succ,
    List.length_append, List.length_cons]
  simp only [Nat.mul_add, Nat.mul_succ, ← Nat.add_assoc]
  rw [hread]
  rfl

theorem decode_asciiBytes {cs : List Char} (h : ∀ c ∈ cs, c.toNat < 127) :
    asciiJavaScript.decode (asciiBytes cs) = String.ofList cs := by
  have hchar : ∀ c ∈ cs, Char.ofNat (Fin.ofNat 256 c.toNat).val = c := by
    intro c hc
    have hlow := h c hc
    rw [show (Fin.ofNat 256 c.toNat).val = c.toNat from Nat.mod_eq_of_lt (by omega)]
    exact Char.ofNat_toNat c
  refine congrArg String.ofList ?_
  rw [asciiBytes, List.map_map]
  exact (List.map_congr_left hchar).trans (List.map_id cs)

theorem asciiJavaScript_reads : Reads asciiJavaScript plainResponse where
  detail text hplain := by
    have hascii : ∀ c ∈ '\x7b' :: (JsonText.dumpsText "detail" ++
        ':' :: (JsonText.dumpsText text ++ ['\x7d'])), c.toNat < 127 := by
      intro c hc
      simp only [List.mem_cons, List.mem_append, List.not_mem_nil, or_false] at hc
      rcases hc with rfl | hc | rfl | hc | rfl
      · decide
      · exact (JsonText.mem_dumpsText (plain_of_all (by decide)) hc).2
      · decide
      · exact (JsonText.mem_dumpsText hplain hc).2
      · decide
    rw [plainResponse, decode_asciiBytes hascii]
    simpa [asciiJavaScript] using parse_plainResponse text
  lower text _ := rfl

/-- Bob's token is still good. -/
def bobsCall : Authentication where
  token := "token"
  signingKey := .ok ()
  decoded := .ok (exampleRequest bobsSub []).payload
  userinfo := .networkError
  database := none

theorem block_ends_bobs_session :
    answerTo exampleEnv ((run (App.step exampleEnv) App.start bobIsBlocked).getD App.start)
        bobsCall (exampleVisit bobsSub [] 4) (.user .getMe) = .error accountBlocked ∧
      (withAuth asciiJavaScript (received asciiJavaScript
        (errorResponse plainResponse [] accountBlocked))).1 = clearSessionCookies := by
  have hblocked : ((run (App.step exampleEnv) App.start bobIsBlocked).getD
      App.start).FindsBlocked exampleEnv { exampleVisit bobsSub [] 4 with
        auth := ⟨JsonObject.set (exampleRequest bobsSub []).payload "_raw_token"
          (.str "token"), .networkError⟩ } := by
    refine (getCurrentDbUser_error (e := accountBlocked) ?_ (by decide)).2
    decide +kernel
  have hanswer : answerTo exampleEnv
      ((run (App.step exampleEnv) App.start bobIsBlocked).getD App.start) bobsCall
      (exampleVisit bobsSub [] 4) (.user .getMe) = .error accountBlocked := by
    have hcurrent : bobsCall.getCurrentUser = .ok (JsonObject.set
        (exampleRequest bobsSub []).payload "_raw_token" (.str "token")) := rfl
    rcases answerTo_user .getMe hcurrent with ⟨-, hserved⟩ | ⟨hdatabase, -⟩
    · exact hserved.trans (serve_user_of_error .getMe (getCurrentDbUser_finds_blocked hblocked))
    · exact absurd rfl hdatabase
  exact ⟨hanswer, (failed_action_ends_session asciiJavaScript plainResponse []
    asciiJavaScript_reads _ _ bobsCall _ _ _ hanswer).1 (.inr ⟨_, _, rfl, rfl, rfl, hblocked⟩)⟩

end IsolatedEnv.Frontend
