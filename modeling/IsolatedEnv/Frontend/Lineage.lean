import IsolatedEnv.Frontend.Login
import IsolatedEnv.Frontend.SessionIsolation

/-!
# The lineage of tokens

A token descends from the login at which its first ancestor was issued.  A refresh writes
to the cookies of the call that started it, whichever calls share its promise, and what it
writes descends from the same login as that call's refresh token.
-/

namespace IsolatedEnv.Frontend

open IsolatedEnv.Foundation

-- `loginOf` is the challenge of the login that a token descends from.
variable (loginOf : String → String)

def TokenEndpointResponse.texts (tokens : TokenEndpointResponse) : List String :=
  tokens.accessToken :: (tokens.refreshToken.toList ++ tokens.idToken.toList)

def TokenEndpointResponse.Of (tokens : TokenEndpointResponse) (login : String) : Prop :=
  ∀ token ∈ tokens.texts, loginOf token = login

/-- The write takes a cookie away, or sets one that holds tokens to a token of the login. -/
def CookieWrite.Of (login : String → Prop) : CookieWrite → Prop
  | .set name value _ => name ∈ tokenCookies ∧ login (loginOf value)
  | .delete _ => True

variable {loginOf}

theorem setSessionCookies_of {tokens : TokenEndpointResponse} {login : String → Prop}
    {challenge : String} (h : tokens.Of loginOf challenge) (hlogin : login challenge) :
    ∀ w ∈ setSessionCookies tokens, w.Of loginOf login := by
  have hissued (name : String) (maxAge : Nat) (token : Option String)
      (hname : name ∈ tokenCookies) (htoken : ∀ t ∈ token, t ∈ tokens.texts) :
      ∀ w ∈ setIfIssued name maxAge token, w.Of loginOf login := by
    intro w hw
    obtain ⟨value, hvalue, rfl⟩ := List.mem_map.mp hw
    have hmem := (Option.filter_eq_some_iff.mp (Option.mem_toList.mp hvalue)).1
    exact ⟨hname, h value (htoken value hmem) ▸ hlogin⟩
  intro w hw
  simp only [setSessionCookies, List.mem_append] at hw
  rcases hw with (hw | hw) | hw
  · exact hissued _ _ _ (by decide) (by simp [TokenEndpointResponse.texts]) w hw
  · refine hissued _ _ _ (by decide) (fun t ht => ?_) w hw
    simp [TokenEndpointResponse.texts, Option.mem_def.mp ht]
  · refine hissued _ _ _ (by decide) (fun t ht => ?_) w hw
    simp [TokenEndpointResponse.texts, Option.mem_def.mp ht]

theorem clearSessionCookies_of {login : String → Prop} :
    ∀ w ∈ clearSessionCookies, w.Of loginOf login := by
  simp [clearSessionCookies, CookieWrite.Of]

/-! ## The process writes tokens of the call's own login -/

variable (loginOf)

/-- The call carries the refresh token. -/
def Call.Carries (c : Call) (refreshToken : String) : Prop :=
  truthy c.cookies.refreshToken = some refreshToken

/-- The tokens that a suspended refresh is about to store. -/
def RefreshWork.Of (login : String) : RefreshWork → Prop
  | .storing tokens => tokens.Of loginOf login
  | _ => True

def TaskOf (p : Process) (task : Task RefreshArg RefreshWork Settled) : Prop :=
  (∃ c, p.calls[task.arg.call]? = some c ∧ c.Carries task.arg.refreshToken) ∧
    ∀ work, task.progress = .running work → work.Of loginOf (loginOf task.arg.refreshToken)

def Call.Of (c : Call) : Prop :=
  ∀ w ∈ c.writes, w.Of loginOf fun login => ∃ rt, c.Carries rt ∧ login = loginOf rt

structure Process.Lineage (p : Process) : Prop where
  tasks : ∀ (i : Nat) task, p.flight.tasks[i]? = some task → TaskOf loginOf p task
  calls : ∀ (i : Nat) c, p.calls[i]? = some c → c.Of loginOf

variable {loginOf} {p q : Process}

theorem cookieWrites_of {work : RefreshWork} {login : String → Prop} {challenge : String}
    (h : work.Of loginOf challenge) (hlogin : login challenge) :
    ∀ w ∈ cookieWrites work, w.Of loginOf login := by
  cases work with
  | storing tokens => exact setSessionCookies_of h hlogin
  | clearing => exact clearSessionCookies_of
  | discovering | requesting => exact List.forall_mem_nil _

/-- The calls of a process after an event: those before it, and perhaps a new one. -/
def CallsKept (p q : Process) : Prop :=
  ∀ (i : Nat) c, p.calls[i]? = some c → ∃ c', q.calls[i]? = some c' ∧ c'.cookies = c.cookies

theorem TaskOf.mono (hcalls : CallsKept p q) {task : Task RefreshArg RefreshWork Settled}
    (h : TaskOf loginOf p task) : TaskOf loginOf q task := by
  obtain ⟨⟨c, hc, hcarries⟩, hwork⟩ := h
  obtain ⟨c', hc', hcookies⟩ := hcalls _ _ hc
  refine ⟨⟨c', hc', ?_⟩, hwork⟩
  unfold Call.Carries
  rw [hcookies]
  exact hcarries

/-- The token endpoint answers a refresh with tokens of the same login. -/
def HonestRefresh (loginOf : String → String) (p : Process) : Event → Prop
  | .replied promise (some tokens) => ∀ task ∈ p.underWay promise,
      tokens.Of loginOf (loginOf task.1.refreshToken)
  | _ => True

theorem callsKept_refl : CallsKept p p := fun _ c hc => ⟨c, hc, rfl⟩

theorem callsKept_set {i : Nat} {c new : Call} (hc : p.calls[i]? = some c)
    (hq : q.calls = p.calls.set i new) (hnew : new.cookies = c.cookies) : CallsKept p q := by
  intro j d hd
  rw [hq]
  by_cases hji : j = i
  · subst hji
    rw [hc] at hd
    cases hd
    exact ⟨new, List.getElem?_set_self (List.getElem?_eq_some_iff.mp hc).1, hnew⟩
  · exact ⟨d, by rw [List.getElem?_set_ne (Ne.symm hji)]; exact hd, rfl⟩

theorem callsKept_writeCookies {i : Nat} {writes : List CookieWrite} {writable : Bool}
    (hq : q.calls = if writable then writeCookies p.calls i writes else p.calls) :
    CallsKept p q := by
  intro j c hc
  rw [hq]
  split
  · unfold writeCookies
    rw [List.getElem?_modify, hc]
    exact ⟨_, rfl, by split <;> rfl⟩
  · exact ⟨c, hc, rfl⟩

namespace Process.Lineage

/-- A step of one promise. -/
theorem advance (h : p.Lineage loginOf) {i : Nat} {advanced : RefreshStep}
    (hflight : p.flight.advance i advanced = some q.flight) (hcalls : CallsKept p q)
    (hwrites : ∀ (j : Nat) c, q.calls[j]? = some c → c.Of loginOf)
    (hwork : ∀ arg work work', p.flight.tasks[i]? = some ⟨arg, .running work⟩ →
      advanced arg work = some (.inl work') → work'.Of loginOf (loginOf arg.refreshToken)) :
    q.Lineage loginOf := by
  refine ⟨fun j task hj => ?_, hwrites⟩
  obtain ⟨arg, work, ht, hcase⟩ := Flight.advance_cases hflight
  obtain ⟨hcall, -⟩ := (h.tasks i _ ht).mono hcalls
  rcases hcase with ⟨work', hnext, heq⟩ | ⟨outcome, -, heq⟩
  · rw [heq] at hj
    rcases getElem?_set_new hj with ⟨rfl, rfl⟩ | ⟨-, hold⟩
    · refine ⟨hcall, fun w hw => ?_⟩
      cases hw
      exact hwork arg work work' ht hnext
    · exact (h.tasks j task hold).mono hcalls
  · rw [heq] at hj
    rcases getElem?_set_new hj with ⟨rfl, rfl⟩ | ⟨-, hold⟩
    · exact ⟨hcall, fun w hw => nomatch hw⟩
    · exact (h.tasks j task hold).mono hcalls

theorem same_tasks (h : p.Lineage loginOf) (hflight : q.flight.tasks = p.flight.tasks)
    (hcalls : CallsKept p q) (hwrites : ∀ (j : Nat) c, q.calls[j]? = some c → c.Of loginOf) :
    q.Lineage loginOf :=
  ⟨fun j task hj => (h.tasks j task (hflight ▸ hj)).mono hcalls, hwrites⟩

/-- A call that goes on without writing a cookie. -/
theorem set_call (h : p.Lineage loginOf) {i : Nat} {c new : Call} (hc : p.calls[i]? = some c)
    (hq : q.calls = p.calls.set i new) (hcookies : new.cookies = c.cookies)
    (hwrites : new.writes = c.writes) (j : Nat) (d : Call) (hd : q.calls[j]? = some d) :
    d.Of loginOf := by
  rw [hq] at hd
  rcases getElem?_set_new hd with ⟨-, rfl⟩ | ⟨-, hold⟩
  · unfold Call.Of Call.Carries
    rw [hcookies, hwrites]
    exact h.calls i c hc
  · exact h.calls j d hold

theorem resume (h : p.Lineage loginOf) {i : Nat} {c : Call} (hc : p.calls[i]? = some c)
    (parse : ParsePart) (now : Int) : (resumeCall parse p i c now).Lineage loginOf := by
  unfold resumeCall
  cases hown : ownSession parse c.cookies now with
  | some session =>
      exact h.same_tasks rfl (callsKept_set hc rfl rfl) (h.set_call hc rfl rfl rfl)
  | none =>
      dsimp only
      cases hcarries : truthy c.cookies.refreshToken with
      | none =>
          exact h.same_tasks rfl (callsKept_set hc rfl rfl) (h.set_call hc rfl rfl rfl)
      | some refreshToken =>
          refine ⟨fun j task hj => ?_, h.set_call hc rfl rfl rfl⟩
          have hkept : CallsKept p { p with
              flight := (p.flight.enter .discovering ⟨refreshToken, i⟩).1
              calls := p.calls.set i { c with
                checkedAt := some now
                status := .awaiting (p.flight.enter .discovering ⟨refreshToken, i⟩).2 } } :=
            callsKept_set hc rfl rfl
          cases hslot : p.flight.slot with
          | some k =>
              simp only [Flight.enter_of_slot hslot] at hj
              exact (h.tasks j task hj).mono hkept
          | none =>
              simp only [Flight.enter_of_free hslot] at hj
              rcases getElem?_append_new hj with hold | ⟨-, rfl⟩
              · exact (h.tasks j task hold).mono hkept
              · obtain ⟨c', hc', hcookies⟩ := hkept i c hc
                refine ⟨⟨c', hc', ?_⟩, fun work hwork => ?_⟩
                · unfold Call.Carries
                  rw [hcookies]
                  exact hcarries
                · cases hwork
                  trivial

/-- A promise writes to the cookie store of the call that started it. -/
theorem store (h : p.Lineage loginOf) {i : Nat} {arg : RefreshArg} {work : RefreshWork}
    (ht : p.flight.tasks[i]? = some ⟨arg, .running work⟩) {j : Nat} {d : Call}
    (hd : (writeCookies p.calls arg.call (cookieWrites work))[j]? = some d) :
    d.Of loginOf := by
  unfold writeCookies at hd
  rw [List.getElem?_modify] at hd
  obtain ⟨c, hc, rfl⟩ := Option.map_eq_some_iff.mp hd
  split
  · rename_i hj
    subst hj
    obtain ⟨⟨c', hc', hcarries⟩, hwork⟩ := h.tasks i _ ht
    rw [hc] at hc'
    cases hc'
    intro w hw
    rcases List.mem_append.mp hw with hw | hw
    · exact h.calls _ c hc w hw
    · exact cookieWrites_of (hwork work rfl) ⟨_, hcarries, rfl⟩ w hw
  · exact h.calls j c hc

theorem step {parse : ParsePart} {e : Event} (h : p.Lineage loginOf)
    (hhonest : HonestRefresh loginOf p e)
    (hstep : IsolatedEnv.Frontend.step parse p e = some q) : q.Lineage loginOf := by
  cases stepped hstep with
  | call cookies =>
      refine h.same_tasks rfl (fun j c hc => ⟨c, ?_, rfl⟩) fun j c hc => ?_
      · rw [List.getElem?_append_left (List.getElem?_eq_some_iff.mp hc).1]
        exact hc
      · rcases getElem?_append_new hc with hold | ⟨-, rfl⟩
        · exact h.calls j c hold
        · exact List.forall_mem_nil _
  | resume now mem reading => exact h.resume mem parse now
  | discovered task advanced =>
      refine h.advance advanced callsKept_refl h.calls fun arg work work' _ hnext => ?_
      cases work <;> cases hnext
      split <;> trivial
  | replied advanced =>
      rename_i promise reply flight
      refine h.advance advanced callsKept_refl h.calls fun arg work work' ht hnext => ?_
      cases work with
      | requesting =>
          cases reply with
          | none =>
              cases hnext
              trivial
          | some tokens =>
              cases hnext
              exact hhonest (arg, .requesting) (underWay_of_task ht)
      | discovering | storing | clearing => cases hnext
  | cookieStore task advanced =>
      rename_i promise writable arg work flight
      refine h.advance advanced (callsKept_writeCookies rfl) (fun j d hd => ?_)
        fun arg work work' _ hnext => ?_
      · dsimp only at hd
        split at hd
        · exact h.store task hd
        · exact h.calls j d hd
      · rw [afterCookies_work hnext]
        trivial
  | released released =>
      obtain ⟨arg, outcome, ht, rfl⟩ := Flight.release_cases released
      refine ⟨fun j task hj => ?_, h.calls⟩
      rcases getElem?_set_new hj with ⟨rfl, rfl⟩ | ⟨-, hold⟩
      · exact ⟨(h.tasks _ _ ht).1, fun w hw => nomatch hw⟩
      · exact h.tasks j task hold
  | settle mem awaiting resolved =>
      exact h.same_tasks rfl (callsKept_set mem rfl rfl) (h.set_call mem rfl rfl rfl)

end Process.Lineage

/-- An event other than a new call leaves the calls, up to how far they are. -/
theorem calls_before {parse : ParsePart} {e : Event} (he : ∀ cookies, e ≠ .call cookies)
    (hstep : step parse p e = some q) :
    q.calls.length = p.calls.length ∧ ∀ (i : Nat) c, q.calls[i]? = some c →
      ∃ c', p.calls[i]? = some c' ∧ c.cookies = c'.cookies := by
  have hset {i : Nat} {c new : Call} (hc : p.calls[i]? = some c)
      {calls : List Call} (hcalls : calls = p.calls.set i new) (hnew : new.cookies = c.cookies) :
      calls.length = p.calls.length ∧ ∀ (j : Nat) d, calls[j]? = some d →
        ∃ d', p.calls[j]? = some d' ∧ d.cookies = d'.cookies := by
    subst hcalls
    refine ⟨List.length_set, fun j d hd => ?_⟩
    rcases getElem?_set_new hd with ⟨rfl, rfl⟩ | ⟨-, hold⟩
    · exact ⟨c, hc, hnew⟩
    · exact ⟨d, hold, rfl⟩
  cases stepped hstep with
  | call cookies => exact absurd rfl (he cookies)
  | resume now mem reading =>
      unfold resumeCall
      split
      · exact hset mem rfl rfl
      · split <;> exact hset mem rfl rfl
  | discovered task advanced => exact ⟨rfl, fun i c hc => ⟨c, hc, rfl⟩⟩
  | replied advanced => exact ⟨rfl, fun i c hc => ⟨c, hc, rfl⟩⟩
  | cookieStore task advanced =>
      dsimp only
      split
      · refine ⟨List.length_modify .., fun i c hc => ?_⟩
        obtain ⟨c', writes, hc', rfl⟩ := calls_writeCookies i c hc
        exact ⟨c', hc', rfl⟩
      · exact ⟨rfl, fun i c hc => ⟨c, hc, rfl⟩⟩
  | released released => exact ⟨rfl, fun i c hc => ⟨c, hc, rfl⟩⟩
  | settle mem awaiting resolved => exact hset mem rfl rfl

end IsolatedEnv.Frontend
