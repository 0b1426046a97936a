import IsolatedEnv.Frontend.Lineage

/-!
# Browsers and the server between them

Any number of browsers send requests to the login routes and pages, and the answers reach
them in any order.  A state has the process of `getSession`, with the browser each of its
calls comes from, the callbacks under way, the answers that have not arrived, and every
browser's cookies.  What is random or comes from outside, the environment chooses.
-/

namespace IsolatedEnv.Frontend

open IsolatedEnv.Foundation

/-- A pair of values that `authorize` has generated for a browser. -/
structure Attempt where
  browser : Nat
  state : String
  verifier : String
  deriving DecidableEq

inductive CallbackStatus where
  | discovering
  | exchanging (code : String)
  | done
  deriving DecidableEq

structure Callback where
  browser : Nat
  params : FormUrlencoded.Pairs
  savedState : String
  codeVerifier : String
  status : CallbackStatus
  deriving DecidableEq

/-- A request to the token endpoint with an authorization code. -/
structure CodeGrant where
  browser : Nat
  params : FormUrlencoded.Pairs
  code : String
  codeVerifier : String
  deriving DecidableEq

/-- A request that has called `getSession`. -/
structure Visit where
  browser : Nat
  answered : Bool
  deriving DecidableEq

structure Site where
  process : Process
  visits : List Visit
  attempts : List Attempt
  callbacks : List Callback
  codeGrants : List CodeGrant
  answers : List (Nat × RouteAnswer)
  jars : Nat → Jar

inductive SiteEvent where
  | authorize (browser : Nat) (state codeVerifier : String)
  | callback (browser : Nat) (query : List Char)
  | callbackDiscovered (callback : Nat) (ok : Bool)
  | exchanged (callback : Nat) (reply : Option TokenEndpointResponse)
  | logout (browser : Nat) (endpoint : Option String)
  | visit (browser : Nat)
  | process (event : Event)
  | respond (visit : Nat)
  | arrive (answer : Nat)
  | expire (browser : Nat) (name : String)

namespace Site

def start : Site := ⟨.start, [], [], [], [], [], fun _ _ => none⟩

def answer (s : Site) (browser : Nat) (answer : RouteAnswer) : Site :=
  { s with answers := s.answers ++ [(browser, answer)] }

def setJar (s : Site) (browser : Nat) (jar : Jar) : Site :=
  { s with jars := fun other => if other = browser then jar else s.jars other }

def setCallback (s : Site) (i : Nat) (c : Callback) : Site :=
  { s with callbacks := s.callbacks.set i c }

variable (oauth : OAuth) (env : LoginEnv) (lossy : List UInt8 → String) (parse : ParsePart)

def callback (s : Site) (browser : Nat) (query : List Char) : Site :=
  match startCallback lossy query (s.jars browser) with
  | .answer answer => s.answer browser answer
  | .exchange params savedState codeVerifier =>
      { s with callbacks := s.callbacks ++
          [⟨browser, params, savedState, codeVerifier, .discovering⟩] }

def callbackDiscovered (s : Site) (i : Nat) (c : Callback) (ok : Bool) : Site :=
  match (if ok then validatedCode oauth lossy c.params c.savedState else none) with
  | some code => { s.setCallback i { c with status := .exchanging code } with
      codeGrants := s.codeGrants ++ [⟨c.browser, c.params, code, c.codeVerifier⟩] }
  | none => (s.setCallback i { c with status := .done }).answer c.browser (finishCallback none)

def step (s : Site) : SiteEvent → Option Site
  | .authorize browser state codeVerifier =>
      some { s.answer browser (authorize oauth env state codeVerifier) with
        attempts := s.attempts ++ [⟨browser, state, codeVerifier⟩] }
  | .callback browser query => some (s.callback lossy browser query)
  | .callbackDiscovered i ok => do
      let c ← s.callbacks[i]?
      if c.status = .discovering then some (s.callbackDiscovered oauth lossy i c ok) else none
  | .exchanged i reply => do
      let c ← s.callbacks[i]?
      match c.status with
      | .exchanging _ => some ((s.setCallback i { c with status := .done }).answer c.browser
          (finishCallback reply))
      | _ => none
  | .logout browser endpoint =>
      some (s.answer browser (logout env endpoint (s.jars browser)))
  | .visit browser => do
      let process ← IsolatedEnv.Frontend.step parse s.process (.call (s.jars browser).cookies)
      some { s with process := process, visits := s.visits ++ [⟨browser, false⟩] }
  | .process (.call _) => none
  | .process event => do
      let process ← IsolatedEnv.Frontend.step parse s.process event
      some { s with process := process }
  | .respond i => do
      let visit ← s.visits[i]?
      let call ← s.process.calls[i]?
      match visit.answered, call.status with
      | false, .done _ => some { s.answer visit.browser ⟨.page, call.writes⟩ with
          visits := s.visits.set i { visit with answered := true } }
      | _, _ => none
  | .arrive i => do
      let (browser, answer) ← s.answers[i]?
      some { s.setJar browser (answer.cookies.foldl Jar.write (s.jars browser)) with
        answers := s.answers.eraseIdx i }
  | .expire browser name => some (s.setJar browser ((s.jars browser).write (.delete name)))

end Site

/-! ## What a browser is given is its own -/

section Sound

variable (oauth : OAuth) (loginOf : String → String)

/-- The login is one that the site has begun for the browser. -/
def Began (attempts : List Attempt) (browser : Nat) (login : String) : Prop :=
  ∃ a ∈ attempts, a.browser = browser ∧ login = oauth.challenge a.verifier

structure JarSound (attempts : List Attempt) (browser : Nat) (jar : Jar) : Prop where
  tokens : ∀ name ∈ tokenCookies, ∀ token, jar name = some token →
    Began oauth attempts browser (loginOf token)
  login : ∀ state verifier, jar "oauth_state" = some state →
    jar "code_verifier" = some verifier → ⟨browser, state, verifier⟩ ∈ attempts

/-- A state and a verifier come together, and a token from a login of the browser. -/
inductive AnswerSound (attempts : List Attempt) (browser : Nat) : List CookieWrite → Prop
  | login (state verifier : String) (begun : ⟨browser, state, verifier⟩ ∈ attempts) :
      AnswerSound attempts browser (loginCookies state verifier)
  | tokens (writes : List CookieWrite)
      (own : ∀ w ∈ writes, w.Of loginOf (Began oauth attempts browser)) :
      AnswerSound attempts browser writes

/-- The code was brought back with the state of an attempt of the same browser. -/
def GrantSound (attempts : List Attempt) (g : CodeGrant) : Prop :=
  ∃ a ∈ attempts, a.browser = g.browser ∧ a.verifier = g.codeVerifier ∧
    g.params.lookup "state" = some a.state ∧ g.params.lookup "code" = some g.code

structure Site.Sound (s : Site) : Prop where
  lineage : s.process.Lineage loginOf
  aligned : s.visits.length = s.process.calls.length
  visits : ∀ (i : Nat) v c, s.visits[i]? = some v → s.process.calls[i]? = some c →
    ∀ refreshToken, c.Carries refreshToken → Began oauth s.attempts v.browser (loginOf refreshToken)
  callbacks : ∀ c ∈ s.callbacks, ⟨c.browser, c.savedState, c.codeVerifier⟩ ∈ s.attempts
  grants : ∀ g ∈ s.codeGrants, GrantSound s.attempts g
  answers : ∀ a ∈ s.answers, AnswerSound oauth loginOf s.attempts a.1 a.2.cookies
  jars : ∀ browser, JarSound oauth loginOf s.attempts browser (s.jars browser)

/-- What the provider answers descends from the login that it was asked for. -/
def Site.Honest (s : Site) : SiteEvent → Prop
  | .process event => HonestRefresh loginOf s.process event
  | .exchanged i (some tokens) => ∀ c ∈ s.callbacks[i]?,
      tokens.Of loginOf (oauth.challenge c.codeVerifier)
  | _ => True

variable {oauth loginOf} {s t : Site} {attempts attempts' : List Attempt}

/-! ### More attempts -/

theorem Began.mono (hsub : attempts ⊆ attempts') {browser : Nat} {login : String}
    (h : Began oauth attempts browser login) : Began oauth attempts' browser login := by
  obtain ⟨a, ha, hrest⟩ := h
  exact ⟨a, hsub ha, hrest⟩

theorem CookieWrite.Of.mono {login login' : String → Prop} (hlogin : ∀ l, login l → login' l)
    {w : CookieWrite} (h : w.Of loginOf login) : w.Of loginOf login' := by
  cases w with
  | set name value maxAge => exact h.imp_right (hlogin _)
  | delete name => trivial

theorem JarSound.mono (hsub : attempts ⊆ attempts') {browser : Nat} {jar : Jar}
    (h : JarSound oauth loginOf attempts browser jar) :
    JarSound oauth loginOf attempts' browser jar :=
  ⟨fun name hname token htoken => (h.tokens name hname token htoken).mono hsub,
    fun state verifier hstate hverifier => hsub (h.login state verifier hstate hverifier)⟩

theorem AnswerSound.mono (hsub : attempts ⊆ attempts') {browser : Nat}
    {writes : List CookieWrite} (h : AnswerSound oauth loginOf attempts browser writes) :
    AnswerSound oauth loginOf attempts' browser writes := by
  cases h with
  | login state verifier begun => exact .login state verifier (hsub begun)
  | tokens _ own => exact .tokens _ fun w hw => (own w hw).mono fun l hl => hl.mono hsub

theorem GrantSound.mono (hsub : attempts ⊆ attempts') {g : CodeGrant} (h : GrantSound attempts g) :
    GrantSound attempts' g := by
  obtain ⟨a, ha, hrest⟩ := h
  exact ⟨a, hsub ha, hrest⟩

/-! ### Cookies -/

theorem JarSound.write {browser : Nat} {jar : Jar} (h : JarSound oauth loginOf attempts browser jar)
    {w : CookieWrite} (hw : w.Of loginOf (Began oauth attempts browser)) :
    JarSound oauth loginOf attempts browser (jar.write w) := by
  cases w with
  | set name value maxAge =>
      obtain ⟨hname, hbegan⟩ := hw
      have hother (other : String) (hother : other ∉ tokenCookies) :
          jar.write (.set name value maxAge) other = jar other :=
        if_neg fun heq : other = name => hother (heq ▸ hname)
      refine ⟨fun other hmem token htoken => ?_, fun state verifier hstate hverifier => ?_⟩
      · unfold Jar.write at htoken
        dsimp only at htoken
        split at htoken
        · split at htoken
          · cases htoken
          · cases htoken
            exact hbegan
        · exact h.tokens other hmem token htoken
      · rw [hother _ (by decide)] at hstate hverifier
        exact h.login state verifier hstate hverifier
  | delete name =>
      have hkept {other value : String} (hvalue : jar.write (.delete name) other = some value) :
          jar other = some value := by
        unfold Jar.write at hvalue
        dsimp only at hvalue
        split at hvalue
        · cases hvalue
        · exact hvalue
      exact ⟨fun other hmem token htoken => h.tokens other hmem token (hkept htoken),
        fun state verifier hstate hverifier =>
          h.login state verifier (hkept hstate) (hkept hverifier)⟩

theorem JarSound.writes {browser : Nat} {jar : Jar}
    (h : JarSound oauth loginOf attempts browser jar) {writes : List CookieWrite}
    (hwrites : ∀ w ∈ writes, w.Of loginOf (Began oauth attempts browser)) :
    JarSound oauth loginOf attempts browser (writes.foldl Jar.write jar) := by
  induction writes generalizing jar with
  | nil => exact h
  | cons w writes ih =>
      obtain ⟨hw, hrest⟩ := List.forall_mem_cons.mp hwrites
      exact ih (h.write hw) hrest

theorem loginCookies_other (jar : Jar) (state verifier : String) {name : String}
    (h : name ∈ tokenCookies) : (loginCookies state verifier).foldl Jar.write jar name =
      jar name := by
  simp only [tokenCookies, List.mem_cons, List.not_mem_nil, or_false] at h
  rcases h with rfl | rfl | rfl <;> rfl

theorem JarSound.answer {browser : Nat} {jar : Jar}
    (h : JarSound oauth loginOf attempts browser jar) {writes : List CookieWrite}
    (hwrites : AnswerSound oauth loginOf attempts browser writes) :
    JarSound oauth loginOf attempts browser (writes.foldl Jar.write jar) := by
  cases hwrites with
  | tokens _ own => exact h.writes own
  | login state verifier begun =>
      refine ⟨fun name hname token htoken => ?_, fun state' verifier' hstate hverifier => ?_⟩
      · rw [loginCookies_other jar state verifier hname] at htoken
        exact h.tokens name hname token htoken
      · cases hstate
        cases hverifier
        exact begun

/-! ### Steps -/

namespace Site.Sound

theorem answer (h : s.Sound oauth loginOf) {browser : Nat} {a : RouteAnswer}
    (ha : AnswerSound oauth loginOf s.attempts browser a.cookies) :
    (s.answer browser a).Sound oauth loginOf where
  lineage := h.lineage
  aligned := h.aligned
  visits := h.visits
  callbacks := h.callbacks
  grants := h.grants
  answers := List.forall_mem_append.mpr ⟨h.answers, List.forall_mem_singleton.mpr ha⟩
  jars := h.jars

theorem setJar (h : s.Sound oauth loginOf) {browser : Nat} {jar : Jar}
    (hjar : JarSound oauth loginOf s.attempts browser jar) :
    (s.setJar browser jar).Sound oauth loginOf where
  lineage := h.lineage
  aligned := h.aligned
  visits := h.visits
  callbacks := h.callbacks
  grants := h.grants
  answers := h.answers
  jars := fun other => by
    unfold Site.setJar
    dsimp only
    split
    · rename_i heq
      subst heq
      exact hjar
    · exact h.jars other

theorem setCallback (h : s.Sound oauth loginOf) {i : Nat} {c : Callback}
    (hc : s.callbacks[i]? = some c) (status : CallbackStatus) :
    (s.setCallback i { c with status := status }).Sound oauth loginOf where
  lineage := h.lineage
  aligned := h.aligned
  visits := h.visits
  callbacks := fun c' hc' => by
    rcases List.mem_or_eq_of_mem_set hc' with hold | rfl
    · exact h.callbacks c' hold
    · exact h.callbacks c (List.mem_of_getElem? hc)
  grants := h.grants
  answers := h.answers
  jars := h.jars

/-- A new attempt takes nothing away. -/
theorem attempt (h : s.Sound oauth loginOf) (a : Attempt) :
    { s with attempts := s.attempts ++ [a] }.Sound oauth loginOf := by
  have hsub : s.attempts ⊆ s.attempts ++ [a] := List.subset_append_left _ _
  exact {
    lineage := h.lineage
    aligned := h.aligned
    visits := fun i v c hv hc rt hrt => (h.visits i v c hv hc rt hrt).mono hsub
    callbacks := fun c hc => hsub (h.callbacks c hc)
    grants := fun g hg => (h.grants g hg).mono hsub
    answers := fun a ha => (h.answers a ha).mono hsub
    jars := fun browser => (h.jars browser).mono hsub }

theorem exchange (h : s.Sound oauth loginOf) {i : Nat} {c : Callback} {code : String}
    (hc : s.callbacks[i]? = some c) {lossy : List UInt8 → String}
    (hcode : validatedCode oauth lossy c.params c.savedState = some code) :
    GrantSound s.attempts ⟨c.browser, c.params, code, c.codeVerifier⟩ :=
  ⟨_, h.callbacks c (List.mem_of_getElem? hc), rfl, rfl, validatedCode_ok hcode⟩

theorem finish (h : s.Sound oauth loginOf) {i : Nat} {c : Callback}
    (hc : s.callbacks[i]? = some c) {reply : Option TokenEndpointResponse}
    (hreply : ∀ tokens ∈ reply, tokens.Of loginOf (oauth.challenge c.codeVerifier)) :
    AnswerSound oauth loginOf s.attempts c.browser (finishCallback reply).cookies := by
  refine .tokens _ fun w hw => ?_
  cases reply with
  | none => cases hw
  | some tokens =>
      have hbegan : Began oauth s.attempts c.browser (oauth.challenge c.codeVerifier) :=
        ⟨_, h.callbacks c (List.mem_of_getElem? hc), rfl, rfl⟩
      rcases List.mem_append.mp hw with hw | hw
      · exact setSessionCookies_of (hreply tokens rfl) hbegan w hw
      · simp only [List.mem_cons, List.not_mem_nil, or_false] at hw
        rcases hw with rfl | rfl <;> trivial

/-- A call's own cookies came from the jar of its browser. -/
theorem respond (h : s.Sound oauth loginOf) {i : Nat} {v : Visit} {c : Call}
    (hv : s.visits[i]? = some v) (hc : s.process.calls[i]? = some c) :
    AnswerSound oauth loginOf s.attempts v.browser c.writes := by
  refine .tokens _ fun w hw => (h.lineage.calls i c hc w hw).mono fun login hlogin => ?_
  obtain ⟨refreshToken, hcarries, rfl⟩ := hlogin
  exact h.visits i v c hv hc refreshToken hcarries

theorem callback {lossy : List UInt8 → String} (h : s.Sound oauth loginOf) (browser : Nat)
    (query : List Char) : (s.callback lossy browser query).Sound oauth loginOf := by
  unfold Site.callback
  split
  · rename_i answer hstart
    refine h.answer (.tokens _ ?_)
    rw [startCallback_answer hstart]
    exact List.forall_mem_nil _
  · rename_i params savedState codeVerifier hstart
    obtain ⟨-, hstate, hverifier⟩ := startCallback_exchange hstart
    exact {
      lineage := h.lineage
      aligned := h.aligned
      visits := h.visits
      callbacks := List.forall_mem_append.mpr ⟨h.callbacks, List.forall_mem_singleton.mpr
        ((h.jars browser).login savedState codeVerifier hstate hverifier)⟩
      grants := h.grants
      answers := h.answers
      jars := h.jars }

theorem visit {parse : ParsePart} {p : Process} (h : s.Sound oauth loginOf) (browser : Nat)
    (hp : IsolatedEnv.Frontend.step parse s.process (.call (s.jars browser).cookies) = some p) :
    { s with process := p, visits := s.visits ++ [(⟨browser, false⟩ : Visit)] }.Sound oauth
      loginOf := by
  have hhonest : HonestRefresh loginOf s.process (.call (s.jars browser).cookies) := trivial
  have hlineage := h.lineage.step hhonest hp
  cases hp
  refine ⟨hlineage, by simp [h.aligned], fun i v c hv hc rt hrt => ?_, h.callbacks, h.grants,
    h.answers, h.jars⟩
  rcases getElem?_append_new hv with hv | ⟨hi, rfl⟩ <;>
    rcases getElem?_append_new hc with hc | ⟨hi', rfl⟩
  · exact h.visits i v c hv hc rt hrt
  · have hlt := (List.getElem?_eq_some_iff.mp hv).1
    rw [h.aligned] at hlt
    omega
  · have hlt := (List.getElem?_eq_some_iff.mp hc).1
    rw [← h.aligned] at hlt
    omega
  · have hjar : s.jars browser "refresh_token" = some rt :=
      (Option.filter_eq_some_iff.mp hrt).1
    exact (h.jars browser).tokens "refresh_token" (by decide) rt hjar

theorem process {parse : ParsePart} {p : Process} {event : Event} (h : s.Sound oauth loginOf)
    (hevent : ∀ cookies, event ≠ .call cookies)
    (hp : IsolatedEnv.Frontend.step parse s.process event = some p)
    (hhonest : HonestRefresh loginOf s.process event) :
    { s with process := p }.Sound oauth loginOf := by
  obtain ⟨hlength, hcalls⟩ := calls_before hevent hp
  refine ⟨h.lineage.step hhonest hp, h.aligned.trans hlength.symm, fun i v c hv hc rt hrt => ?_,
    h.callbacks, h.grants, h.answers, h.jars⟩
  obtain ⟨c', hc', hcookies⟩ := hcalls i c hc
  refine h.visits i v c' hv hc' rt ?_
  unfold Call.Carries at hrt ⊢
  rw [← hcookies]
  exact hrt

theorem step {env : LoginEnv} {lossy : List UInt8 → String} {parse : ParsePart} {e : SiteEvent}
    (h : s.Sound oauth loginOf) (hhonest : s.Honest oauth loginOf e)
    (hstep : s.step oauth env lossy parse e = some t) : t.Sound oauth loginOf := by
  cases e with
  | authorize browser state codeVerifier =>
      cases hstep
      refine (h.attempt ⟨browser, state, codeVerifier⟩).answer (.login state codeVerifier ?_)
      exact List.mem_append_right _ (List.mem_singleton_self _)
  | callback browser query =>
      cases hstep
      exact h.callback browser query
  | callbackDiscovered i ok =>
      simp only [Site.step, Option.bind_eq_bind, Option.bind_eq_some_iff] at hstep
      obtain ⟨c, hc, hstep⟩ := hstep
      split at hstep
      · cases hstep
        unfold Site.callbackDiscovered
        split
        · rename_i code hcode
          have hvalid : validatedCode oauth lossy c.params c.savedState = some code := by
            split at hcode
            · exact hcode
            · cases hcode
          have hset := h.setCallback hc (.exchanging code)
          exact {
            lineage := hset.lineage
            aligned := hset.aligned
            visits := hset.visits
            callbacks := hset.callbacks
            grants := List.forall_mem_append.mpr ⟨h.grants, List.forall_mem_singleton.mpr
              (h.exchange hc hvalid)⟩
            answers := hset.answers
            jars := hset.jars }
        · exact (h.setCallback hc .done).answer (h.finish hc fun tokens ht => nomatch ht)
      · cases hstep
  | exchanged i reply =>
      simp only [Site.step, Option.bind_eq_bind, Option.bind_eq_some_iff] at hstep
      obtain ⟨c, hc, hstep⟩ := hstep
      split at hstep
      · cases hstep
        refine (h.setCallback hc .done).answer (h.finish hc fun tokens ht => ?_)
        cases ht
        exact hhonest c hc
      · cases hstep
  | logout browser endpoint =>
      cases hstep
      exact h.answer (.tokens _ clearSessionCookies_of)
  | visit browser =>
      simp only [Site.step, Option.bind_eq_bind, Option.bind_eq_some_iff] at hstep
      obtain ⟨p, hp, hs⟩ := hstep
      cases hs
      exact h.visit browser hp
  | process event =>
      cases event with
      | call cookies => cases hstep
      | resume _ _ | discovered _ _ | replied _ _ | cookieStore _ _ | released _ | settle _ =>
          simp only [Site.step, Option.bind_eq_bind, Option.bind_eq_some_iff] at hstep
          obtain ⟨p, hp, hs⟩ := hstep
          cases hs
          exact h.process (fun _ heq => by cases heq) hp hhonest
  | respond i =>
      simp only [Site.step, Option.bind_eq_bind, Option.bind_eq_some_iff] at hstep
      obtain ⟨v, hv, c, hc, hstep⟩ := hstep
      split at hstep
      · cases hstep
        have hanswered := h.answer (a := ⟨.page, c.writes⟩) (h.respond hv hc)
        exact {
          lineage := hanswered.lineage
          aligned := List.length_set.trans h.aligned
          visits := fun j v' c' hv' hc' => by
            rcases getElem?_set_new hv' with ⟨rfl, rfl⟩ | ⟨-, hold⟩
            · exact h.visits j v c' hv hc'
            · exact h.visits j v' c' hold hc'
          callbacks := hanswered.callbacks
          grants := hanswered.grants
          answers := hanswered.answers
          jars := hanswered.jars }
      · cases hstep
  | arrive i =>
      simp only [Site.step, Option.bind_eq_bind, Option.bind_eq_some_iff] at hstep
      obtain ⟨⟨browser, answer⟩, ha, hstep⟩ := hstep
      cases hstep
      have harrived := h.setJar
        ((h.jars browser).answer (h.answers (browser, answer) (List.mem_of_getElem? ha)))
      exact {
        lineage := harrived.lineage
        aligned := harrived.aligned
        visits := harrived.visits
        callbacks := harrived.callbacks
        grants := harrived.grants
        answers := fun a ha => h.answers a (List.mem_of_mem_eraseIdx ha)
        jars := harrived.jars }
  | expire browser name =>
      cases hstep
      exact h.setJar ((h.jars browser).write trivial)

end Site.Sound

theorem Site.sound_start : Site.start.Sound oauth loginOf where
  lineage := ⟨by simp [start, Process.start, Flight.empty], by simp [start, Process.start]⟩
  aligned := rfl
  visits := by simp [start]
  callbacks := List.forall_mem_nil _
  grants := List.forall_mem_nil _
  answers := List.forall_mem_nil _
  jars := fun _ => ⟨fun _ _ _ h => (by cases h), fun _ _ h => (by cases h)⟩

/--
In every run, whatever calls share a refresh: each token in a browser's cookies descends from
a login that was begun for that browser, and each code at the token endpoint was brought back
with the state of an attempt of the browser whose verifier goes with it.
-/
theorem tokens_stay_with_their_login (oauth : OAuth) (env : LoginEnv)
    (lossy : List UInt8 → String) (parse : ParsePart) (loginOf : String → String)
    (events : List SiteEvent) (s : Site)
    (hhonest : Along (Site.step oauth env lossy parse) (Site.Honest oauth loginOf) .start events)
    (hrun : run (Site.step oauth env lossy parse) .start events = some s) :
    (∀ browser, ∀ name ∈ tokenCookies, ∀ token, s.jars browser name = some token →
        ∃ a ∈ s.attempts, a.browser = browser ∧ loginOf token = oauth.challenge a.verifier) ∧
      ∀ g ∈ s.codeGrants, ∃ a ∈ s.attempts, a.browser = g.browser ∧
        a.verifier = g.codeVerifier ∧ g.params.lookup "state" = some a.state ∧
          g.params.lookup "code" = some g.code := by
  have hsound : s.Sound oauth loginOf :=
    run_invariant_along (fun _ _ _ hs he hstep => hs.step he hstep) Site.sound_start hhonest hrun
  exact ⟨fun browser => (hsound.jars browser).tokens, hsound.grants⟩

end Sound

/-! ## A login -/

def plainOAuth : OAuth where
  challenge verifier := verifier ++ ".S256"
  validate params state :=
    if params.lookup "state" = some state then params.lookup "code" else none
  validate_ok h := by
    split at h
    · rename_i hstate
      exact ⟨hstate, h⟩
    · cases h

def plainEnv : LoginEnv := ⟨"https://app.test", none, none, "app"⟩

def replacement (_ : List UInt8) : String := "\uFFFD"

def siteStep : Site → SiteEvent → Option Site :=
  Site.step plainOAuth plainEnv replacement browserParse

/-- The answer of the provider to the browser that has the state. -/
def broughtBack (state : String) : List Char :=
  FormUrlencoded.serialize [("code", "c0"), ("state", state)]

def firstTokens : TokenEndpointResponse := ⟨"t0", some "r0", some "i0", none⟩

def logsIn : List SiteEvent :=
  [.authorize 0 "s0" "v0", .arrive 0, .callback 0 (broughtBack "s0"),
    .callbackDiscovered 0 true, .exchanged 0 (some firstTokens), .arrive 0]

/-- The browser has gone to the provider, and what it brings back is under way. -/
def begun (callbacks : List Callback) (codeGrants : List CodeGrant) : Site :=
  { Site.start with
    attempts := [⟨0, "s0", "v0"⟩]
    callbacks := callbacks
    codeGrants := codeGrants
    jars := (Site.start.setJar 0 ((loginCookies "s0" "v0").foldl Jar.write fun _ => none)).jars }

def back (status : CallbackStatus) : Callback :=
  ⟨0, [("code", "c0"), ("state", "s0")], "s0", "v0", status⟩

def granted : Site :=
  begun [back (.exchanging "c0")] [⟨0, [("code", "c0"), ("state", "s0")], "c0", "v0"⟩]

theorem comes_back : siteStep (begun [] []) (.callback 0 (broughtBack "s0")) =
    some (begun [back .discovering] []) := by
  have hstart : startCallback replacement (broughtBack "s0") ((begun [] []).jars 0) =
      .exchange [("code", "c0"), ("state", "s0")] "s0" "v0" := by
    unfold startCallback broughtBack
    rw [FormUrlencoded.parse_serialize]
    rfl
  have hcallback : (begun [] []).callback replacement 0 (broughtBack "s0") =
      begun [back .discovering] [] := by
    unfold Site.callback
    rw [hstart]
    rfl
  exact congrArg some hcallback

theorem brings_code : siteStep (begun [back .discovering] []) (.callbackDiscovered 0 true) =
    some granted := by
  have hcode : validatedCode plainOAuth replacement [("code", "c0"), ("state", "s0")] "s0" =
      some "c0" := by
    unfold validatedCode
    rw [FormUrlencoded.parse_serialize]
    rfl
  have hdiscovered : (begun [back .discovering] []).callbackDiscovered plainOAuth replacement 0
      (back .discovering) true = granted := by
    unfold Site.callbackDiscovered
    rw [if_pos rfl, show (back .discovering).params = [("code", "c0"), ("state", "s0")] from rfl,
      show (back .discovering).savedState = "s0" from rfl, hcode]
    rfl
  exact congrArg some hdiscovered

/-- The cookies that the end of the callback sets have arrived. -/
def signedIn : Site :=
  (granted.setCallback 0 (back .done)).setJar 0
    ((finishCallback (some firstTokens)).cookies.foldl Jar.write (granted.jars 0))

theorem logs_in : run siteStep .start logsIn = some signedIn :=
  run_cons_eq_some.mpr ⟨_, rfl, run_cons_eq_some.mpr ⟨begun [] [], rfl,
    run_cons_eq_some.mpr ⟨_, comes_back, run_cons_eq_some.mpr ⟨_, brings_code, rfl⟩⟩⟩⟩

theorem logsIn_honest :
    Along siteStep (Site.Honest plainOAuth fun _ => "v0.S256") .start logsIn := by
  refine along_cons_of trivial rfl ?_
  refine along_cons_of trivial (show _ = some (begun [] []) from rfl) ?_
  refine along_cons_of trivial comes_back ?_
  refine along_cons_of trivial brings_code ?_
  refine along_cons_of ?_ rfl ⟨trivial, trivial⟩
  rintro c ⟨⟩
  exact fun _ _ => rfl

theorem login_keeps_tokens :
    ∃ s, run siteStep .start logsIn = some s ∧ s.jars 0 "session" = some "t0" ∧
      ∃ a ∈ s.attempts, a.browser = 0 ∧ "v0.S256" = plainOAuth.challenge a.verifier :=
  ⟨signedIn, logs_in, rfl, (tokens_stay_with_their_login plainOAuth plainEnv replacement
    browserParse (fun _ => "v0.S256") logsIn signedIn logsIn_honest logs_in).1 0 "session"
      (by decide) "t0" rfl⟩

end IsolatedEnv.Frontend
