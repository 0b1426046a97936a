import IsolatedEnv.Frontend.Browsers

/-!
# After a logout

A browser that has logged out while nothing else was under way for it stays without tokens
until a callback of its own gets some, whatever the other browsers do in the same process.
-/

namespace IsolatedEnv.Frontend

open IsolatedEnv.Foundation

def noCookies : Cookies := ⟨none, none, none⟩

def CookieWrite.SetsToken : CookieWrite → Prop
  | .set name _ _ => name ∈ tokenCookies
  | .delete _ => False

/-! ## Calls without cookies -/

/-- A call without cookies waits for no refresh and ends without a session. -/
def Process.Alone (p : Process) : Prop :=
  ∀ (i : Nat) c, p.calls[i]? = some c → c.cookies = noCookies →
    c.status = .reading ∨ c.status = .done (.value none)

variable {p q : Process} {parse : ParsePart}

theorem Process.Alone.set (h : p.Alone) {i : Nat} {new : Call}
    (hq : q.calls = p.calls.set i new)
    (hnew : new.cookies = noCookies →
      new.status = .reading ∨ new.status = .done (.value none)) : q.Alone := by
  intro j c hj hcookies
  rw [hq] at hj
  rcases getElem?_set_new hj with ⟨-, rfl⟩ | ⟨-, hold⟩
  · exact hnew hcookies
  · exact h j c hold hcookies

theorem Process.Alone.resume (h : p.Alone) (parse : ParsePart) (i : Nat) (c : Call) (now : Int) :
    (resumeCall parse p i c now).Alone := by
  unfold resumeCall
  cases hown : ownSession parse c.cookies now with
  | some session =>
      refine h.set rfl fun hcookies => ?_
      rw [show c.cookies = noCookies from hcookies] at hown
      cases hown
  | none =>
      dsimp only
      cases hcarries : truthy c.cookies.refreshToken with
      | some refreshToken =>
          refine h.set rfl fun hcookies => ?_
          rw [show c.cookies = noCookies from hcookies] at hcarries
          cases hcarries
      | none => exact h.set rfl fun _ => .inr rfl

theorem Process.Alone.step {e : Event} (h : p.Alone)
    (hstep : IsolatedEnv.Frontend.step parse p e = some q) : q.Alone := by
  cases stepped hstep with
  | call cookies =>
      intro i c hc hcookies
      rcases getElem?_append_new hc with hold | ⟨-, rfl⟩
      · exact h i c hold hcookies
      · exact .inl rfl
  | resume now mem reading => exact h.resume parse _ _ now
  | discovered task advanced | replied advanced | released released => exact h
  | cookieStore task advanced =>
      intro i c hc hcookies
      dsimp only at hc
      split at hc
      · obtain ⟨c', writes, hc', rfl⟩ := calls_writeCookies i c hc
        exact h i c' hc' hcookies
      · exact h i c hc hcookies
  | settle mem awaiting resolved =>
      refine h.set rfl fun hcookies => ?_
      rcases h _ _ mem hcookies with hreading | hdone
      · cases awaiting.symm.trans hreading
      · cases awaiting.symm.trans hdone

/-! ## What every run of a site keeps -/

structure Site.Kept (s : Site) : Prop where
  aligned : s.visits.length = s.process.calls.length
  lineage : s.process.Lineage fun _ => ""
  alone : s.process.Alone

variable {oauth : OAuth} {env : LoginEnv} {lossy : List UInt8 → String} {s t : Site}

theorem honestRefresh_same (p : Process) (e : Event) : HonestRefresh (fun _ => "") p e := by
  cases e with
  | replied promise reply =>
      cases reply with
      | none => trivial
      | some tokens => exact fun _ _ _ _ => rfl
  | _ => trivial

/-- What a step does to the process and the visits. -/
theorem Site.step_process {e : SiteEvent} (h : s.step oauth env lossy parse e = some t) :
    (t.process = s.process ∧ t.visits.length = s.visits.length) ∨
      (∃ browser,
        IsolatedEnv.Frontend.step parse s.process (.call (s.jars browser).cookies) =
          some t.process ∧ t.visits.length = s.visits.length + 1) ∨
      ∃ event, (∀ cookies, event ≠ .call cookies) ∧
        IsolatedEnv.Frontend.step parse s.process event = some t.process ∧
          t.visits.length = s.visits.length := by
  cases e with
  | authorize _ _ _ | logout _ _ | expire _ _ =>
      cases h
      exact .inl ⟨rfl, rfl⟩
  | callback browser query =>
      cases h
      unfold Site.callback
      split <;> exact .inl ⟨rfl, rfl⟩
  | callbackDiscovered i ok =>
      simp only [step, Option.bind_eq_bind, Option.bind_eq_some_iff] at h
      obtain ⟨c, -, h⟩ := h
      split at h
      · cases h
        unfold Site.callbackDiscovered
        split <;> exact .inl ⟨rfl, rfl⟩
      · cases h
  | exchanged i reply =>
      simp only [step, Option.bind_eq_bind, Option.bind_eq_some_iff] at h
      obtain ⟨c, -, h⟩ := h
      split at h
      · cases h
        exact .inl ⟨rfl, rfl⟩
      · cases h
  | visit browser =>
      simp only [step, Option.bind_eq_bind, Option.bind_eq_some_iff] at h
      obtain ⟨process, hprocess, h⟩ := h
      cases h
      exact .inr (.inl ⟨browser, hprocess, List.length_append⟩)
  | process event =>
      cases event with
      | call cookies => cases h
      | resume _ _ | discovered _ _ | replied _ _ | cookieStore _ _ | released _ | settle _ =>
          simp only [step, Option.bind_eq_bind, Option.bind_eq_some_iff] at h
          obtain ⟨process, hprocess, h⟩ := h
          cases h
          exact .inr (.inr ⟨_, (fun _ heq => by cases heq), hprocess, rfl⟩)
  | respond i =>
      simp only [step, Option.bind_eq_bind, Option.bind_eq_some_iff] at h
      obtain ⟨v, -, c, -, h⟩ := h
      split at h
      · cases h
        exact .inl ⟨rfl, List.length_set⟩
      · cases h
  | arrive i =>
      simp only [step, Option.bind_eq_bind, Option.bind_eq_some_iff] at h
      obtain ⟨⟨browser, answer⟩, -, h⟩ := h
      cases h
      exact .inl ⟨rfl, rfl⟩

theorem Site.kept_start : Site.start.Kept where
  aligned := rfl
  lineage := ⟨by simp [start, Process.start, Flight.empty], by simp [start, Process.start]⟩
  alone := by simp [Process.Alone, start, Process.start]

theorem Site.Kept.step {e : SiteEvent} (h : s.Kept)
    (hstep : s.step oauth env lossy parse e = some t) : t.Kept := by
  rcases Site.step_process hstep with ⟨hprocess, hvisits⟩ | ⟨browser, hprocess, hvisits⟩ |
    ⟨event, hevent, hprocess, hvisits⟩
  · refine ⟨?_, hprocess ▸ h.lineage, hprocess ▸ h.alone⟩
    rw [hvisits, hprocess]
    exact h.aligned
  · refine ⟨?_, h.lineage.step (honestRefresh_same _ _) hprocess, h.alone.step hprocess⟩
    have hcalls : t.process.calls.length = s.process.calls.length + 1 := by
      rw [← Option.some.inj hprocess]
      exact List.length_append
    rw [hvisits, hcalls, h.aligned]
  · refine ⟨?_, h.lineage.step (honestRefresh_same _ _) hprocess, h.alone.step hprocess⟩
    rw [hvisits, h.aligned, (calls_before hevent hprocess).1]

/-! ## A browser that is signed out -/

section SignedOut

variable {browser before : Nat}

/-- `before` is the number of visits before the logout. -/
structure Site.SignedOut (browser before : Nat) (s : Site) : Prop where
  jar : ∀ name ∈ tokenCookies, s.jars browser name = none
  answers : ∀ a ∈ s.answers, a.1 = browser → ∀ w ∈ a.2.cookies, ¬w.SetsToken
  unanswered : ∀ (i : Nat) v c, s.visits[i]? = some v → s.process.calls[i]? = some c →
    v.browser = browser → v.answered = false → ∀ refreshToken, ¬c.Carries refreshToken
  later : ∀ (i : Nat) v c, before ≤ i → s.visits[i]? = some v → s.process.calls[i]? = some c →
    v.browser = browser → c.cookies = noCookies

/-- No callback of the browser gets tokens. -/
def Site.GetsNoTokens (browser : Nat) (s : Site) : SiteEvent → Prop
  | .exchanged i (some _) => ∀ c ∈ s.callbacks[i]?, c.browser ≠ browser
  | _ => True

theorem write_none {jar : Jar} {w : CookieWrite} {name : String} (hname : name ∈ tokenCookies)
    (hw : ¬w.SetsToken) (h : jar name = none) : jar.write w name = none := by
  cases w with
  | set other value maxAge =>
      unfold Jar.write
      dsimp only
      rw [if_neg fun heq : name = other => hw (heq ▸ hname)]
      exact h
  | delete other =>
      unfold Jar.write
      dsimp only
      split
      · rfl
      · exact h

theorem writes_none {jar : Jar} {writes : List CookieWrite} {name : String}
    (hname : name ∈ tokenCookies) (hwrites : ∀ w ∈ writes, ¬w.SetsToken)
    (h : jar name = none) : writes.foldl Jar.write jar name = none := by
  induction writes generalizing jar with
  | nil => exact h
  | cons w writes ih =>
      obtain ⟨hw, hrest⟩ := List.forall_mem_cons.mp hwrites
      exact ih hrest (write_none hname hw h)

theorem clearSessionCookies_none : ∀ w ∈ clearSessionCookies, ¬w.SetsToken := by
  intro w hw
  simp only [clearSessionCookies, List.mem_cons, List.not_mem_nil, or_false] at hw
  rcases hw with rfl | rfl | rfl <;> exact id

theorem loginCookies_none (state codeVerifier : String) :
    ∀ w ∈ loginCookies state codeVerifier, ¬w.SetsToken := by
  intro w hw
  simp only [loginCookies, List.mem_cons, List.not_mem_nil, or_false] at hw
  rcases hw with rfl | rfl <;> simp [CookieWrite.SetsToken, tokenCookies]

/-- A call that carries no refresh token stores no token. -/
theorem Site.Kept.writes_none (h : s.Kept) {i : Nat} {c : Call}
    (hc : s.process.calls[i]? = some c) (hnone : ∀ refreshToken, ¬c.Carries refreshToken) :
    ∀ w ∈ c.writes, ¬w.SetsToken := by
  intro w hw hsets
  have hof := h.lineage.calls i c hc w hw
  cases w with
  | set name value maxAge =>
      obtain ⟨-, refreshToken, hcarries, -⟩ := hof
      exact hnone refreshToken hcarries
  | delete name => exact hsets

theorem Jar.cookies_none {jar : Jar} (h : ∀ name ∈ tokenCookies, jar name = none) :
    jar.cookies = noCookies := by
  unfold cookies noCookies
  rw [h "session" (by decide), h "refresh_token" (by decide), h "id_token" (by decide)]

namespace Site.SignedOut

theorem answer (h : s.SignedOut browser before) (other : Nat) (a : RouteAnswer)
    (ha : other = browser → ∀ w ∈ a.cookies, ¬w.SetsToken) :
    (s.answer other a).SignedOut browser before where
  jar := h.jar
  answers := List.forall_mem_append.mpr ⟨h.answers, List.forall_mem_singleton.mpr ha⟩
  unanswered := h.unanswered
  later := h.later

theorem setJar (h : s.SignedOut browser before) (other : Nat) (jar : Jar)
    (hjar : other = browser → ∀ name ∈ tokenCookies, jar name = none) :
    (s.setJar other jar).SignedOut browser before where
  jar := fun name hname => by
    unfold Site.setJar
    dsimp only
    split
    · rename_i heq
      exact hjar heq.symm name hname
    · exact h.jar name hname
  answers := h.answers
  unanswered := h.unanswered
  later := h.later

theorem setCallback (h : s.SignedOut browser before) (i : Nat) (c : Callback) :
    (s.setCallback i c).SignedOut browser before :=
  ⟨h.jar, h.answers, h.unanswered, h.later⟩

theorem callback (h : s.SignedOut browser before) (other : Nat) (query : List Char) :
    (s.callback lossy other query).SignedOut browser before := by
  unfold Site.callback
  split
  · rename_i answer hstart
    refine h.answer other answer fun _ => ?_
    rw [startCallback_answer hstart]
    exact List.forall_mem_nil _
  · exact ⟨h.jar, h.answers, h.unanswered, h.later⟩

theorem visit {p : Process} (h : s.SignedOut browser before) (hkept : s.Kept) (other : Nat)
    (hp : IsolatedEnv.Frontend.step parse s.process (.call (s.jars other).cookies) = some p) :
    { s with process := p, visits := s.visits ++ [(⟨other, false⟩ : Visit)] }.SignedOut browser
      before := by
  have hcookies : other = browser → (s.jars other).cookies = noCookies := by
    rintro rfl
    exact Jar.cookies_none h.jar
  -- A visit and its call are both old or both the new ones.
  have hpair (i : Nat) (v : Visit) (c : Call)
      (hv : (s.visits ++ [(⟨other, false⟩ : Visit)])[i]? = some v)
      (hc : p.calls[i]? = some c) :
      (s.visits[i]? = some v ∧ s.process.calls[i]? = some c) ∨
        (v.browser = other ∧ c.cookies = (s.jars other).cookies) := by
    rw [← Option.some.inj hp] at hc
    rcases getElem?_append_new hv with hv | ⟨hi, rfl⟩ <;>
      rcases getElem?_append_new hc with hc | ⟨hi', rfl⟩
    · exact .inl ⟨hv, hc⟩
    · have hlt := (List.getElem?_eq_some_iff.mp hv).1
      rw [hkept.aligned] at hlt
      omega
    · have hlt := (List.getElem?_eq_some_iff.mp hc).1
      rw [← hkept.aligned] at hlt
      omega
    · exact .inr ⟨rfl, rfl⟩
  refine ⟨h.jar, h.answers, fun i v c hv hc hb hopen refreshToken hcarries => ?_,
    fun i v c hi hv hc hb => ?_⟩
  · rcases hpair i v c hv hc with ⟨hv, hc⟩ | ⟨hother, hnew⟩
    · exact h.unanswered i v c hv hc hb hopen refreshToken hcarries
    · unfold Call.Carries at hcarries
      rw [hnew, hcookies (hother.symm.trans hb)] at hcarries
      cases hcarries
  · rcases hpair i v c hv hc with ⟨hv, hc⟩ | ⟨hother, hnew⟩
    · exact h.later i v c hi hv hc hb
    · exact hnew.trans (hcookies (hother.symm.trans hb))

theorem process {p : Process} {event : Event} (h : s.SignedOut browser before)
    (hevent : ∀ cookies, event ≠ .call cookies)
    (hp : IsolatedEnv.Frontend.step parse s.process event = some p) :
    { s with process := p }.SignedOut browser before := by
  obtain ⟨-, hcalls⟩ := calls_before hevent hp
  refine ⟨h.jar, h.answers, fun i v c hv hc hb hopen refreshToken hcarries => ?_,
    fun i v c hi hv hc hb => ?_⟩
  · obtain ⟨c', hc', hcookies⟩ := hcalls i c hc
    refine h.unanswered i v c' hv hc' hb hopen refreshToken ?_
    unfold Call.Carries at hcarries ⊢
    rw [← hcookies]
    exact hcarries
  · obtain ⟨c', hc', hcookies⟩ := hcalls i c hc
    exact hcookies.trans (h.later i v c' hi hv hc' hb)

theorem step {e : SiteEvent} (h : s.SignedOut browser before) (hkept : s.Kept)
    (hguard : s.GetsNoTokens browser e)
    (hstep : s.step oauth env lossy parse e = some t) : t.SignedOut browser before := by
  cases e with
  | authorize other state codeVerifier =>
      cases hstep
      have hanswered := h.answer other (Frontend.authorize oauth env state codeVerifier) fun _ =>
        loginCookies_none state codeVerifier
      exact ⟨hanswered.jar, hanswered.answers, hanswered.unanswered, hanswered.later⟩
  | callback other query =>
      cases hstep
      exact h.callback other query
  | callbackDiscovered i ok =>
      simp only [Site.step, Option.bind_eq_bind, Option.bind_eq_some_iff] at hstep
      obtain ⟨c, hc, hstep⟩ := hstep
      split at hstep
      · cases hstep
        unfold Site.callbackDiscovered
        split
        · exact ⟨h.jar, h.answers, h.unanswered, h.later⟩
        · exact (h.setCallback i _).answer c.browser _ fun _ => List.forall_mem_nil _
      · cases hstep
  | exchanged i reply =>
      simp only [Site.step, Option.bind_eq_bind, Option.bind_eq_some_iff] at hstep
      obtain ⟨c, hc, hstep⟩ := hstep
      split at hstep
      · cases hstep
        refine (h.setCallback i _).answer c.browser _ fun hb => ?_
        cases reply with
        | none => exact List.forall_mem_nil _
        | some tokens => exact absurd hb (hguard c hc)
      · cases hstep
  | logout other endpoint =>
      cases hstep
      exact h.answer other _ fun _ => clearSessionCookies_none
  | visit other =>
      simp only [Site.step, Option.bind_eq_bind, Option.bind_eq_some_iff] at hstep
      obtain ⟨p, hp, hs⟩ := hstep
      cases hs
      exact h.visit hkept other hp
  | process event =>
      cases event with
      | call cookies => cases hstep
      | resume _ _ | discovered _ _ | replied _ _ | cookieStore _ _ | released _ | settle _ =>
          simp only [Site.step, Option.bind_eq_bind, Option.bind_eq_some_iff] at hstep
          obtain ⟨p, hp, hs⟩ := hstep
          cases hs
          exact h.process (fun _ heq => by cases heq) hp
  | respond i =>
      simp only [Site.step, Option.bind_eq_bind, Option.bind_eq_some_iff] at hstep
      obtain ⟨v, hv, c, hc, hstep⟩ := hstep
      split at hstep
      · rename_i hopen hdone
        cases hstep
        have hanswered := h.answer v.browser ⟨.page, c.writes⟩ fun hb =>
          hkept.writes_none hc (h.unanswered i v c hv hc hb hopen)
        refine ⟨hanswered.jar, hanswered.answers, fun j v' c' hv' hc' hb hopen' => ?_,
          fun j v' c' hj hv' hc' hb => ?_⟩
        · rcases getElem?_set_new hv' with ⟨-, rfl⟩ | ⟨-, hold⟩
          · cases hopen'
          · exact h.unanswered j v' c' hold hc' hb hopen'
        · rcases getElem?_set_new hv' with ⟨rfl, rfl⟩ | ⟨-, hold⟩
          · exact h.later j v c' hj hv hc' hb
          · exact h.later j v' c' hj hold hc' hb
      · cases hstep
  | arrive i =>
      simp only [Site.step, Option.bind_eq_bind, Option.bind_eq_some_iff] at hstep
      obtain ⟨⟨other, answer⟩, ha, hstep⟩ := hstep
      cases hstep
      have harrived := h.setJar other (answer.cookies.foldl Jar.write (s.jars other))
        fun hb name hname => by
        subst hb
        exact writes_none hname (h.answers _ (List.mem_of_getElem? ha) rfl) (h.jar name hname)
      exact ⟨harrived.jar, fun a ha => h.answers a (List.mem_of_mem_eraseIdx ha),
        harrived.unanswered, harrived.later⟩
  | expire other name =>
      cases hstep
      refine h.setJar other _ fun hb token htoken => ?_
      subst hb
      exact write_none htoken id (h.jar token htoken)

end Site.SignedOut

/-- No answer is on its way to the browser, and no page for it may still refresh. -/
structure Site.NothingUnderWay (browser : Nat) (s : Site) : Prop where
  answers : ∀ a ∈ s.answers, a.1 ≠ browser
  unanswered : ∀ (i : Nat) v c, s.visits[i]? = some v → s.process.calls[i]? = some c →
    v.browser = browser → v.answered = false → ∀ refreshToken, ¬c.Carries refreshToken

theorem clears_tokens (jar : Jar) {name : String} (hname : name ∈ tokenCookies) :
    clearSessionCookies.foldl Jar.write jar name = none := by
  simp only [tokenCookies, List.mem_cons, List.not_mem_nil, or_false] at hname
  rcases hname with rfl | rfl | rfl <;> rfl

/-- The answer to the logout arrives. -/
theorem Site.NothingUnderWay.logged_out {sent out : Site} {endpoint : Option String}
    (h : s.NothingUnderWay browser)
    (hsent : s.step oauth env lossy parse (.logout browser endpoint) = some sent)
    (hout : sent.step oauth env lossy parse (.arrive s.answers.length) = some out) :
    out.SignedOut browser s.visits.length := by
  cases hsent
  simp only [Site.step, Site.answer, List.getElem?_concat_length, Option.bind_eq_bind,
    Option.bind_some] at hout
  obtain rfl := Option.some.inj hout
  have hanswers :
      (s.answers ++ [(browser, logout env endpoint (s.jars browser))]).eraseIdx
        s.answers.length = s.answers := by
    rw [List.eraseIdx_append_of_length_le (Nat.le_refl _), Nat.sub_self]
    exact List.append_nil _
  exact {
    jar := fun name hname =>
      (congrFun (if_pos rfl) name).trans (clears_tokens (s.jars browser) hname)
    answers := fun a ha hb => absurd hb (h.answers a (hanswers ▸ ha))
    unanswered := h.unanswered
    later := fun i v c hi hv =>
      absurd hi (Nat.not_le.mpr (List.getElem?_eq_some_iff.mp hv).1) }

/--
Until a callback of its own gets tokens, a browser that has logged out has none, and what it
asks for comes without any and ends without a session.
-/
theorem logged_out_stays_out (oauth : OAuth) (env : LoginEnv) (lossy : List UInt8 → String)
    (parse : ParsePart) (browser : Nat) (endpoint : Option String)
    (before after : List SiteEvent) (s t : Site)
    (hbefore : run (Site.step oauth env lossy parse) .start before = some s)
    (hquiet : s.NothingUnderWay browser)
    (hown : Along (Site.step oauth env lossy parse) (Site.GetsNoTokens browser) s
      (.logout browser endpoint :: .arrive s.answers.length :: after))
    (hrun : run (Site.step oauth env lossy parse) s
      (.logout browser endpoint :: .arrive s.answers.length :: after) = some t) :
    (∀ name ∈ tokenCookies, t.jars browser name = none) ∧
      ∀ (i : Nat) v c, s.visits.length ≤ i → t.visits[i]? = some v →
        t.process.calls[i]? = some c → v.browser = browser →
          c.cookies = noCookies ∧
            ∀ outcome, c.status = .done outcome → outcome = .value none := by
  have hkept : s.Kept :=
    run_invariant (fun _ _ _ h hstep => h.step hstep) Site.kept_start hbefore
  obtain ⟨sent, hsent, hrest⟩ := run_cons_eq_some.mp hrun
  obtain ⟨out, hout, hafter⟩ := run_cons_eq_some.mp hrest
  have hown' := (along_cons ((along_cons hown).2 sent hsent)).2 out hout
  have hstep (u : Site) (e : SiteEvent) (u' : Site)
      (h : u.Kept ∧ u.SignedOut browser s.visits.length) (hguard : u.GetsNoTokens browser e)
      (hu : u.step oauth env lossy parse e = some u') :
      u'.Kept ∧ u'.SignedOut browser s.visits.length :=
    ⟨h.1.step hu, h.2.step h.1 hguard hu⟩
  obtain ⟨hkept', hsigned⟩ := run_invariant_along hstep
    ⟨(hkept.step hsent).step hout, hquiet.logged_out hsent hout⟩ hown' hafter
  refine ⟨hsigned.jar, fun i v c hi hv hc hb => ?_⟩
  have hnone := hsigned.later i v c hi hv hc hb
  refine ⟨hnone, fun outcome hdone => ?_⟩
  rcases hkept'.alone i c hc hnone with hreading | hended
  · cases hreading.symm.trans hdone
  · cases hended.symm.trans hdone
    rfl

end SignedOut

/-! ## A logout -/

def endSession : Option String := some "https://auth.test/end"

def logsOut : List SiteEvent :=
  [.logout 0 endSession, .arrive 0, .visit 0, .process (.resume 0 0)]

def signedOut : Site :=
  ((run siteStep signedIn logsOut).getD .start)

theorem logout_ends_session :
    ∃ t, run siteStep signedIn logsOut = some t ∧ signedIn.jars 0 "session" = some "t0" ∧
      t.jars 0 "session" = none ∧
      (t.process.calls.map Call.status) = [.done (.value none)] := by
  have h := logged_out_stays_out plainOAuth plainEnv replacement browserParse 0 endSession logsIn
    [.visit 0, .process (.resume 0 0)] signedIn signedOut logs_in
    ⟨fun a ha => (by cases ha), fun i v c hv => (by cases hv)⟩
    (along_cons_of trivial rfl (along_cons_of trivial rfl (along_cons_of trivial rfl
      (along_cons_of trivial rfl trivial)))) rfl
  exact ⟨signedOut, rfl, rfl, h.1 "session" (by decide), rfl⟩

end IsolatedEnv.Frontend
