import IsolatedEnv.Foundation.FormUrlencoded
import IsolatedEnv.Frontend.AuthServer

/-!
# The login routes

`GET /api/auth/authorize`, `GET /api/auth/callback` and `POST /api/auth/logout`, each as
the answer it gives: where the browser is sent and what is written to its cookies.  The
callback is suspended twice, in `getAuthServer` and at the token endpoint.
-/

namespace IsolatedEnv.Frontend

open IsolatedEnv.Foundation

/-- The names of the cookies that hold tokens. -/
def tokenCookies : List String := ["session", "refresh_token", "id_token"]

/-- A browser's cookies for the site, by name. -/
abbrev Jar := String → Option String

/-- The cookies as `getSession` finds them. -/
def Jar.cookies (jar : Jar) : Cookies :=
  ⟨jar "session", jar "refresh_token", jar "id_token"⟩

/-- A `Set-Cookie` line; one with a zero `Max-Age` takes the cookie away. -/
def Jar.write (jar : Jar) : CookieWrite → Jar
  | .set name value maxAge => fun other =>
      if other = name then (if maxAge = 0 then none else some value) else jar other
  | .delete name => fun other => if other = name then none else jar other

/-! ## What the routes rest on -/

/-- `computeCodeChallenge` and `oauth.validateAuthResponse` with the code it leads to. -/
structure OAuth where
  challenge : String → String
  validate : FormUrlencoded.Pairs → String → Option String
  validate_ok : ∀ {params state code}, validate params state = some code →
    params.lookup "state" = some state ∧ params.lookup "code" = some code

/-- The environment variables of the process. -/
structure LoginEnv where
  origin : String
  authentikUrl : Option String
  externalUrl : Option String
  clientId : String

/-- Where a route redirects to, or what else it answers. -/
inductive Reply where
  | authentik (params : FormUrlencoded.Pairs)
  | authError (reason : String)
  | dashboard
  | loggedOut (logoutUrl : String)
  | page
  deriving DecidableEq

structure RouteAnswer where
  reply : Reply
  cookies : List CookieWrite
  deriving DecidableEq

/-! ## The routes -/

def loginCookies (state codeVerifier : String) : List CookieWrite :=
  [.set "oauth_state" state 300, .set "code_verifier" codeVerifier 300]

def redirectUri (env : LoginEnv) : String := env.origin ++ "/api/auth/callback"

def authorize (oauth : OAuth) (env : LoginEnv) (state codeVerifier : String) : RouteAnswer where
  reply := .authentik
    [("response_type", "code"), ("client_id", env.clientId),
      ("redirect_uri", redirectUri env), ("scope", "openid email profile groups"),
      ("state", state), ("code_challenge", oauth.challenge codeVerifier),
      ("code_challenge_method", "S256")]
  cookies := loginCookies state codeVerifier

def authErrorAnswer (reason : String) : RouteAnswer := ⟨.authError reason, []⟩

/-- The callback up to `exchangeCodeForTokens`. -/
inductive CallbackStart where
  | answer (answer : RouteAnswer)
  | exchange (params : FormUrlencoded.Pairs) (savedState codeVerifier : String)

def startCallback (lossy : List UInt8 → String) (query : List Char) (jar : Jar) :
    CallbackStart :=
  let searchParams := FormUrlencoded.parse lossy query
  match truthy (searchParams.lookup "error") with
  | some error => .answer (authErrorAnswer error)
  | none =>
      match truthy (jar "oauth_state"), truthy (jar "code_verifier") with
      | some savedState, some codeVerifier => .exchange searchParams savedState codeVerifier
      | _, _ => .answer (authErrorAnswer "missing_state")

/-- The code to exchange, from the URL that is put together anew. -/
def validatedCode (oauth : OAuth) (lossy : List UInt8 → String)
    (searchParams : FormUrlencoded.Pairs) (savedState : String) : Option String :=
  oauth.validate (FormUrlencoded.parse lossy (FormUrlencoded.serialize searchParams)) savedState

/-- The end of the callback, by the reply of the token endpoint. -/
def finishCallback : Option TokenEndpointResponse → RouteAnswer
  | some tokens => ⟨.dashboard,
      setSessionCookies tokens ++ [.delete "oauth_state", .delete "code_verifier"]⟩
  | none => authErrorAnswer "token_exchange"

/-- `endSessionEndpoint.replace(internalUrl, externalUrl)`, for one that starts with it. -/
def externalEndpoint (env : LoginEnv) (endpoint : String) : String :=
  match truthy env.externalUrl, truthy env.authentikUrl with
  | some externalUrl, some internalUrl =>
      if internalUrl.toList.isPrefixOf endpoint.toList then
        externalUrl ++ String.ofList (endpoint.toList.drop internalUrl.toList.length)
      else endpoint
  | _, _ => endpoint

/-- `endpoint` is what discovery knows, `none` if it fails or knows none. -/
def getLogoutUrl (env : LoginEnv) (endpoint : Option String) (idToken : Option String)
    (postLogoutRedirectUri : String) : String :=
  match truthy endpoint with
  | none => postLogoutRedirectUri
  | some endpoint => externalEndpoint env endpoint ++ "?" ++ String.ofList
      (FormUrlencoded.serialize (("post_logout_redirect_uri", postLogoutRedirectUri) ::
        (truthy idToken).toList.map fun token => ("id_token_hint", token)))

def logout (env : LoginEnv) (endpoint : Option String) (jar : Jar) : RouteAnswer :=
  ⟨.loggedOut (getLogoutUrl env endpoint (jar "id_token") (env.origin ++ "/")),
    clearSessionCookies⟩

theorem validatedCode_ok {oauth : OAuth} {lossy : List UInt8 → String}
    {searchParams : FormUrlencoded.Pairs} {savedState code : String}
    (h : validatedCode oauth lossy searchParams savedState = some code) :
    searchParams.lookup "state" = some savedState ∧
      searchParams.lookup "code" = some code := by
  unfold validatedCode at h
  rw [FormUrlencoded.parse_serialize] at h
  exact oauth.validate_ok h

theorem startCallback_answer {lossy : List UInt8 → String} {query : List Char} {jar : Jar}
    {answer : RouteAnswer} (h : startCallback lossy query jar = .answer answer) :
    answer.cookies = [] := by
  unfold startCallback at h
  dsimp only at h
  split at h
  · cases h
    rfl
  · split at h
    · cases h
    · cases h
      rfl

theorem startCallback_exchange {lossy : List UInt8 → String} {query : List Char} {jar : Jar}
    {params : FormUrlencoded.Pairs} {savedState codeVerifier : String}
    (h : startCallback lossy query jar = .exchange params savedState codeVerifier) :
    params = FormUrlencoded.parse lossy query ∧ jar "oauth_state" = some savedState ∧
      jar "code_verifier" = some codeVerifier := by
  unfold startCallback at h
  dsimp only at h
  split at h
  · cases h
  · split at h
    · rename_i hstate hverifier
      cases h
      exact ⟨rfl, (Option.filter_eq_some_iff.mp hstate).1,
        (Option.filter_eq_some_iff.mp hverifier).1⟩
    · cases h

end IsolatedEnv.Frontend
