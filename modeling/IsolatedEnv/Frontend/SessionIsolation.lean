import IsolatedEnv.Frontend.AuthServer

/-!
# Whose session a `getSession` call returns

Every session that a refresh produces is the token endpoint's answer to the
grant for the refresh token the promise was created with.  A call that shares
a promise therefore gets its own session exactly when the promise was created
for its own refresh token; the variable that holds the promise is one for the
whole process, so nothing in the code sees to that.
-/

namespace IsolatedEnv.Frontend

open IsolatedEnv.Foundation

variable (parse : ParsePart) (ownerOf : String → String)

/-- The session is the answer to the refresh grant of this promise. -/
def Granted (p : Process) (promise : Nat) (refreshToken : String)
    (session : SessionData) : Prop :=
  ∃ tokens, (promise, refreshToken) ∈ p.grants ∧ (promise, tokens) ∈ p.answers ∧
    session.accessToken = tokens.accessToken ∧
    decodeJwtPayload parse tokens.accessToken = some session.user ∧
    session.user.sub = ownerOf refreshToken

/--
A call with a usable access token returns that token's session; any other
session returned answers the refresh grant for the call's own refresh token.
-/
def CallIsolated (p : Process) (c : Call) (now : Int)
    (session : SessionData) : Prop :=
  match ownSession parse c.cookies now with
  | some own => session = own
  | none => ∃ refreshToken promise,
      truthy c.cookies.refreshToken = some refreshToken ∧
      Granted parse ownerOf p promise refreshToken session

def SessionsIsolated (p : Process) : Prop :=
  ∀ (i : Nat) c session, p.calls[i]? = some c →
    c.status = .done (.value (some session)) →
    ∃ now, c.checkedAt = some now ∧ CallIsolated parse ownerOf p c now session

/-! ## Assumption on the token endpoint, and the condition on the calls -/

/-- The endpoint answers a grant with tokens of the refresh token's subject. -/
def HonestReply (p : Process) : Event → Prop
  | .replied promise (some tokens) =>
      ∀ task ∈ p.underWay promise,
        ∀ user ∈ decodeJwtPayload parse tokens.accessToken,
          user.sub = ownerOf task.1.refreshToken
  | _ => True

/--
A call that has to refresh while a refresh is in flight carries the refresh
token which that refresh was started with.
-/
def SharesOwnRefresh (p : Process) : Event → Prop
  | .resume i now =>
      ∀ c ∈ p.calls[i]?, ownSession parse c.cookies now = none →
        ∀ refreshToken ∈ truthy c.cookies.refreshToken,
          ∀ promise ∈ p.flight.slot, ∀ task ∈ p.flight.tasks[promise]?,
            task.arg.refreshToken = refreshToken
  | _ => True

instance (p : Process) : DecidablePred (HonestReply parse ownerOf p)
  | .replied promise (some tokens) =>
      inferInstanceAs (Decidable (∀ task ∈ p.underWay promise,
        ∀ user ∈ decodeJwtPayload parse tokens.accessToken,
          user.sub = ownerOf task.1.refreshToken))
  | .replied _ none | .call _ | .resume _ _ | .discovered _ _
  | .cookieStore _ _ | .released _ | .settle _ => isTrue trivial

instance (p : Process) : DecidablePred (SharesOwnRefresh parse p)
  | .resume i now =>
      inferInstanceAs (Decidable (∀ c ∈ p.calls[i]?,
        ownSession parse c.cookies now = none →
          ∀ refreshToken ∈ truthy c.cookies.refreshToken,
            ∀ promise ∈ p.flight.slot, ∀ task ∈ p.flight.tasks[promise]?,
              task.arg.refreshToken = refreshToken))
  | .replied _ _ | .call _ | .discovered _ _ | .cookieStore _ _
  | .released _ | .settle _ => isTrue trivial

/-! ## The invariant -/

def ProgressSound (p : Process) (promise : Nat) (refreshToken : String) :
    Progress RefreshWork Settled → Prop
  | .running .discovering => True
  | .running .requesting => (promise, refreshToken) ∈ p.grants
  | .running (.storing tokens) =>
      (promise, refreshToken) ∈ p.grants ∧ (promise, tokens) ∈ p.answers ∧
        ∀ user, decodeJwtPayload parse tokens.accessToken = some user →
          user.sub = ownerOf refreshToken
  | .running .clearing => True
  | .settled outcome | .released outcome =>
      ∀ session, outcome = .value (some session) →
        Granted parse ownerOf p promise refreshToken session

def CallSound (p : Process) (c : Call) : Prop :=
  match c.status with
  | .reading => True
  | .awaiting promise => ∃ now refreshToken task,
      c.checkedAt = some now ∧ ownSession parse c.cookies now = none ∧
      truthy c.cookies.refreshToken = some refreshToken ∧
      p.flight.tasks[promise]? = some task ∧
      task.arg.refreshToken = refreshToken
  | .done outcome => ∀ session, outcome = .value (some session) →
      ∃ now, c.checkedAt = some now ∧ CallIsolated parse ownerOf p c now session

structure ProcessSound (p : Process) : Prop where
  exclusive : p.flight.Exclusive
  tasks : ∀ (i : Nat) arg progress, p.flight.tasks[i]? = some ⟨arg, progress⟩ →
    ProgressSound parse ownerOf p i arg.refreshToken progress
  calls : ∀ (i : Nat) c, p.calls[i]? = some c → CallSound parse ownerOf p c

theorem processSound_start : ProcessSound parse ownerOf .start where
  exclusive := Flight.exclusive_empty
  tasks := by simp [Process.start, Flight.empty]
  calls := by simp [Process.start]

variable {parse ownerOf}

/-! ## Logs only grow -/

structure Grows (p q : Process) : Prop where
  flight : p.flight.Extends q.flight
  grants : p.grants ⊆ q.grants
  answers : p.answers ⊆ q.answers

theorem Granted.mono {p q : Process} (h : Grows p q) {promise : Nat}
    {refreshToken : String} {session : SessionData}
    (hg : Granted parse ownerOf p promise refreshToken session) :
    Granted parse ownerOf q promise refreshToken session := by
  obtain ⟨tokens, hgrant, hanswer, hrest⟩ := hg
  exact ⟨tokens, h.grants hgrant, h.answers hanswer, hrest⟩

theorem ProgressSound.mono {p q : Process} (h : Grows p q) {promise : Nat}
    {refreshToken : String} {progress : Progress RefreshWork Settled}
    (hs : ProgressSound parse ownerOf p promise refreshToken progress) :
    ProgressSound parse ownerOf q promise refreshToken progress := by
  match progress, hs with
  | .running .discovering, _ => trivial
  | .running .requesting, hs => exact h.grants hs
  | .running (.storing _), ⟨hgrant, hanswer, huser⟩ =>
      exact ⟨h.grants hgrant, h.answers hanswer, huser⟩
  | .running .clearing, _ => trivial
  | .settled _, hs => exact fun session heq => (hs session heq).mono h
  | .released _, hs => exact fun session heq => (hs session heq).mono h

theorem CallIsolated.mono {p q : Process} (h : Grows p q) {c : Call}
    {now : Int} {session : SessionData}
    (hc : CallIsolated parse ownerOf p c now session) :
    CallIsolated parse ownerOf q c now session := by
  unfold CallIsolated at hc ⊢
  cases hown : ownSession parse c.cookies now with
  | some own => simpa [hown] using hc
  | none =>
      simp only [hown] at hc ⊢
      obtain ⟨refreshToken, promise, hr, hg⟩ := hc
      exact ⟨refreshToken, promise, hr, hg.mono h⟩

theorem CallSound.mono {p q : Process} (h : Grows p q) {c : Call}
    (hc : CallSound parse ownerOf p c) : CallSound parse ownerOf q c := by
  unfold CallSound at hc ⊢
  cases hstatus : c.status with
  | reading => trivial
  | awaiting promise =>
      simp only [hstatus] at hc ⊢
      obtain ⟨now, refreshToken, task, hnow, hown, hr, htask, harg⟩ := hc
      obtain ⟨task', htask', harg'⟩ := h.flight promise task htask
      exact ⟨now, refreshToken, task', hnow, hown, hr, htask', by
        rw [harg', harg]⟩
  | done outcome =>
      simp only [hstatus] at hc ⊢
      intro session heq
      obtain ⟨now, hnow, hisolated⟩ := hc session heq
      exact ⟨now, hnow, hisolated.mono h⟩

theorem CallSound.of_writes {p : Process} {c : Call}
    (hc : CallSound parse ownerOf p c) (writes : List CookieWrite) :
    CallSound parse ownerOf p { c with writes := writes } := hc

/-! ## One step -/

theorem underWay_eq_some {p : Process} {promise : Nat} {arg : RefreshArg}
    {work : RefreshWork} (h : p.underWay promise = some (arg, work)) :
    p.flight.tasks[promise]? = some ⟨arg, .running work⟩ := by
  unfold Process.underWay at h
  split at h
  · rename_i a w ht
    obtain ⟨rfl, rfl⟩ : a = arg ∧ w = work := by simpa using h
    exact ht
  · cases h

theorem underWay_of_task {p : Process} {promise : Nat} {arg : RefreshArg}
    {work : RefreshWork}
    (h : p.flight.tasks[promise]? = some ⟨arg, .running work⟩) :
    p.underWay promise = some (arg, work) := by
  simp [Process.underWay, h]

/-- A refresh whose cookies are not stored goes on to clear them. -/
theorem afterCookies_work {writable : Bool} {arg : RefreshArg} {work work' : RefreshWork}
    (h : afterCookies parse writable arg work = some (.inl work')) : work' = .clearing := by
  cases work with
  | storing tokens =>
      simp only [afterCookies] at h
      split at h
      · split at h
        · cases h
        · exact (Sum.inl.inj (Option.some.inj h)).symm
      · exact (Sum.inl.inj (Option.some.inj h)).symm
  | clearing =>
      simp only [afterCookies] at h
      split at h <;> cases h
  | discovering | requesting => cases h

/-- What an event needs, and what it does. -/
inductive Stepped (parse : ParsePart) (p : Process) : Event → Process → Prop
  | call (cookies : Cookies) :
      Stepped parse p (.call cookies)
        { p with calls := p.calls ++ [⟨cookies, none, .reading, []⟩] }
  | resume {i : Nat} {c : Call} (now : Int) (mem : p.calls[i]? = some c)
      (reading : c.status = .reading) :
      Stepped parse p (.resume i now) (resumeCall parse p i c now)
  | discovered {promise : Nat} {ok : Bool} {arg : RefreshArg} {work : RefreshWork}
      {flight : Flight RefreshArg RefreshWork Settled}
      (task : p.flight.tasks[promise]? = some ⟨arg, .running work⟩)
      (advanced : p.flight.advance promise (afterDiscovery ok) = some flight) :
      Stepped parse p (.discovered promise ok)
        { p with
          flight := flight
          grants := if ok then p.grants ++ [(promise, arg.refreshToken)] else p.grants }
  | replied {promise : Nat} {reply : Option TokenEndpointResponse}
      {flight : Flight RefreshArg RefreshWork Settled}
      (advanced : p.flight.advance promise (afterReply reply) = some flight) :
      Stepped parse p (.replied promise reply)
        { p with
          flight := flight
          answers := p.answers ++ (reply.toList.map fun tokens => (promise, tokens)) }
  | cookieStore {promise : Nat} {writable : Bool} {arg : RefreshArg} {work : RefreshWork}
      {flight : Flight RefreshArg RefreshWork Settled}
      (task : p.flight.tasks[promise]? = some ⟨arg, .running work⟩)
      (advanced : p.flight.advance promise (afterCookies parse writable) = some flight) :
      Stepped parse p (.cookieStore promise writable)
        { p with
          flight := flight
          calls := if writable then writeCookies p.calls arg.call (cookieWrites work)
            else p.calls }
  | released {promise : Nat} {flight : Flight RefreshArg RefreshWork Settled}
      (released : p.flight.release promise = some flight) :
      Stepped parse p (.released promise) { p with flight := flight }
  | settle {i promise : Nat} {c : Call} {outcome : Settled} (mem : p.calls[i]? = some c)
      (awaiting : c.status = .awaiting promise)
      (resolved : p.flight.resolved promise = some outcome) :
      Stepped parse p (.settle i)
        { p with calls := p.calls.set i { c with status := .done outcome } }

theorem stepped {p q : Process} {e : Event} (hq : step parse p e = some q) :
    Stepped parse p e q := by
  cases e with
  | call cookies =>
      simp only [step, Option.some.injEq] at hq
      subst hq
      exact .call cookies
  | resume i now =>
      simp only [step] at hq
      cases hc : p.calls[i]? with
      | none => simp [hc] at hq
      | some c =>
          simp only [hc] at hq
          split at hq
          · rename_i hreading
            obtain rfl := Option.some.inj hq
            exact .resume now hc hreading
          · cases hq
  | discovered promise ok =>
      simp only [step, Option.bind_eq_bind, Option.bind_eq_some_iff,
        Option.some.injEq] at hq
      obtain ⟨⟨arg, work⟩, hunder, flight, hflight, rfl⟩ := hq
      exact .discovered (underWay_eq_some hunder) hflight
  | replied promise reply =>
      simp only [step, Option.bind_eq_bind, Option.bind_eq_some_iff,
        Option.some.injEq] at hq
      obtain ⟨flight, hflight, rfl⟩ := hq
      exact .replied hflight
  | cookieStore promise writable =>
      simp only [step, Option.bind_eq_bind, Option.bind_eq_some_iff,
        Option.some.injEq] at hq
      obtain ⟨⟨arg, work⟩, hunder, flight, hflight, rfl⟩ := hq
      exact .cookieStore (underWay_eq_some hunder) hflight
  | released promise =>
      simp only [step, Option.bind_eq_bind, Option.bind_eq_some_iff,
        Option.some.injEq] at hq
      obtain ⟨flight, hflight, rfl⟩ := hq
      exact .released hflight
  | settle i =>
      simp only [step] at hq
      cases hc : p.calls[i]? with
      | none => simp [hc] at hq
      | some c =>
          simp only [hc] at hq
          cases hstatus : c.status with
          | reading => simp [hstatus] at hq
          | done outcome => simp [hstatus] at hq
          | awaiting promise =>
              simp only [hstatus, Option.bind_eq_bind, Option.bind_eq_some_iff,
                Option.some.injEq] at hq
              obtain ⟨outcome, hresolved, rfl⟩ := hq
              exact .settle hc hstatus hresolved

/--
A step of one promise keeps the invariant when the logs grow, the calls stay
what they are up to their cookie stores, and the new progress is sound.
-/
theorem ProcessSound.of_advance {p q : Process} (h : ProcessSound parse ownerOf p)
    {i : Nat} {advanced : RefreshStep}
    (hflight : p.flight.advance i advanced = some q.flight)
    (hgrants : p.grants ⊆ q.grants) (hanswers : p.answers ⊆ q.answers)
    (hcalls : ∀ (j : Nat) (c : Call), q.calls[j]? = some c →
      ∃ (c' : Call) (writes : List CookieWrite),
        p.calls[j]? = some c' ∧ c = { c' with writes := writes })
    (hwork : ∀ arg work work', p.flight.tasks[i]? = some ⟨arg, .running work⟩ →
      advanced arg work = some (.inl work') →
      ProgressSound parse ownerOf q i arg.refreshToken (.running work'))
    (hsettle : ∀ arg work outcome,
      p.flight.tasks[i]? = some ⟨arg, .running work⟩ →
      advanced arg work = some (.inr outcome) →
      ProgressSound parse ownerOf q i arg.refreshToken (.settled outcome)) :
    ProcessSound parse ownerOf q := by
  have hgrows : Grows p q := ⟨Flight.advance_extends hflight, hgrants, hanswers⟩
  refine ⟨Flight.advance_exclusive h.exclusive hflight, ?_, ?_⟩
  · intro j arg progress hj
    obtain ⟨a, w, ht, ⟨w', hw, heq⟩ | ⟨r, hr, heq⟩⟩ :=
      Flight.advance_cases hflight
    · rw [heq] at hj
      rcases getElem?_set_new hj with ⟨rfl, hnew⟩ | ⟨-, hold⟩
      · cases hnew
        exact hwork arg w w' ht hw
      · exact (h.tasks j arg progress hold).mono hgrows
    · rw [heq] at hj
      rcases getElem?_set_new hj with ⟨rfl, hnew⟩ | ⟨-, hold⟩
      · cases hnew
        exact hsettle arg w r ht hr
      · exact (h.tasks j arg progress hold).mono hgrows
  · intro j c hj
    obtain ⟨c', writes, hc', rfl⟩ := hcalls j c hj
    exact ((h.calls j c' hc').mono hgrows).of_writes writes

theorem calls_unchanged {p : Process} (j : Nat) (c : Call)
    (hj : p.calls[j]? = some c) :
    ∃ (c' : Call) (writes : List CookieWrite),
      p.calls[j]? = some c' ∧ c = { c' with writes := writes } :=
  ⟨c, c.writes, hj, rfl⟩

theorem calls_writeCookies {calls : List Call} {i : Nat}
    {writes : List CookieWrite} (j : Nat) (c : Call)
    (hj : (writeCookies calls i writes)[j]? = some c) :
    ∃ (c' : Call) (writes' : List CookieWrite),
      calls[j]? = some c' ∧ c = { c' with writes := writes' } := by
  unfold writeCookies at hj
  rw [List.getElem?_modify] at hj
  cases hc : calls[j]? with
  | none => simp [hc] at hj
  | some c' =>
      rw [hc] at hj
      refine ⟨c', c.writes, rfl, ?_⟩
      have heq : (if i = j then { c' with writes := c'.writes ++ writes } else c') = c := by
        simpa using hj
      rw [← heq]
      split <;> rfl

theorem ProcessSound.of_call {p q : Process} (h : ProcessSound parse ownerOf p)
    (hgrows : Grows p q) (hexclusive : q.flight.Exclusive)
    (htasks : ∀ (j : Nat) arg progress,
      q.flight.tasks[j]? = some ⟨arg, progress⟩ →
      ProgressSound parse ownerOf q j arg.refreshToken progress)
    {i : Nat} {c : Call} (hcalls : q.calls = p.calls.set i c)
    (hc : CallSound parse ownerOf q c) : ProcessSound parse ownerOf q := by
  refine ⟨hexclusive, htasks, fun j d hj => ?_⟩
  rw [hcalls] at hj
  rcases getElem?_set_new hj with ⟨-, rfl⟩ | ⟨-, hold⟩
  · exact hc
  · exact (h.calls j d hold).mono hgrows

theorem grows_of_flight_eq {p q : Process} (hflight : q.flight = p.flight)
    (hgrants : q.grants = p.grants) (hanswers : q.answers = p.answers) :
    Grows p q := by
  refine ⟨?_, ?_, ?_⟩
  · rw [hflight]
    exact Flight.Extends.refl _
  · rw [hgrants]
    exact fun _ hx => hx
  · rw [hanswers]
    exact fun _ hx => hx

/-- `getSession` after `await cookies()`: the three ways it can go on. -/
theorem resumeCall_sound {p : Process} (h : ProcessSound parse ownerOf p)
    {i : Nat} {c : Call} {now : Int} (hc : p.calls[i]? = some c)
    (hshare : SharesOwnRefresh parse p (.resume i now)) :
    ProcessSound parse ownerOf (resumeCall parse p i c now) := by
  unfold resumeCall
  cases hown : ownSession parse c.cookies now with
  | some session =>
      simp only
      refine h.of_call (grows_of_flight_eq rfl rfl rfl) h.exclusive ?_ rfl ?_
      · intro j arg progress hj
        exact (h.tasks j arg progress hj).mono (grows_of_flight_eq rfl rfl rfl)
      · simp only [CallSound, Settled.value.injEq, Option.some.injEq]
        rintro _ rfl
        exact ⟨now, rfl, by simp [CallIsolated, hown]⟩
  | none =>
      simp only
      cases hr : truthy c.cookies.refreshToken with
      | none =>
          simp only
          refine h.of_call (grows_of_flight_eq rfl rfl rfl) h.exclusive ?_ rfl ?_
          · intro j arg progress hj
            exact (h.tasks j arg progress hj).mono
              (grows_of_flight_eq rfl rfl rfl)
          · simp [CallSound]
      | some refreshToken =>
          simp only
          have hgrows : Grows p
              { p with
                flight := (p.flight.enter .discovering ⟨refreshToken, i⟩).1
                calls := p.calls.set i { c with
                  checkedAt := some now
                  status := .awaiting
                    (p.flight.enter .discovering ⟨refreshToken, i⟩).2 } } :=
            ⟨Flight.enter_extends _ _ _, fun _ hx => hx, fun _ hx => hx⟩
          refine h.of_call hgrows (Flight.enter_exclusive h.exclusive _ _) ?_
            rfl ?_
          · intro j arg progress hj
            cases hslot : p.flight.slot with
            | some k =>
                simp only [Flight.enter_of_slot hslot] at hj
                exact (h.tasks j arg progress hj).mono hgrows
            | none =>
                simp only [Flight.enter_of_free hslot] at hj
                rcases getElem?_append_new hj with hold | ⟨-, hnew⟩
                · exact (h.tasks j arg progress hold).mono hgrows
                · cases hnew
                  trivial
          · obtain ⟨task, htask, harg⟩ :=
              Flight.enter_arg (a := (⟨refreshToken, i⟩ : RefreshArg))
                (P := fun arg => arg.refreshToken = refreshToken)
                h.exclusive .discovering rfl
                (fun k t hslot ht =>
                  hshare c hc hown refreshToken hr k hslot t ht)
            exact ⟨now, refreshToken, task, rfl, hown, hr, htask, harg⟩

theorem step_sound {p q : Process} {e : Event}
    (h : ProcessSound parse ownerOf p) (hhonest : HonestReply parse ownerOf p e)
    (hshare : SharesOwnRefresh parse p e) (hq : step parse p e = some q) :
    ProcessSound parse ownerOf q := by
  cases stepped hq with
  | call cookies =>
      refine ⟨h.exclusive, h.tasks, fun j c hj => ?_⟩
      rcases getElem?_append_new hj with hold | ⟨-, rfl⟩
      · exact h.calls j c hold
      · trivial
  | resume now hc hreading => exact resumeCall_sound h hc hshare
  | @discovered promise ok arg work flight htask hflight =>
      refine h.of_advance hflight ?_ (fun _ hx => hx) calls_unchanged ?_ ?_
      · intro x hx
        cases ok
        · exact hx
        · exact List.mem_append_left _ hx
      · intro arg' work' next htask' hnext
        rw [htask] at htask'
        cases htask'
        cases work <;> simp only [afterDiscovery, reduceCtorEq,
          Option.some.injEq, Sum.inl.injEq] at hnext
        subst hnext
        cases ok
        · trivial
        · simp [ProgressSound]
      · intro arg' work' outcome _ hnext
        cases work' <;> simp [afterDiscovery] at hnext
  | @replied promise reply flight hflight =>
      refine h.of_advance hflight (fun _ hx => hx)
        (fun _ hx => List.mem_append_left _ hx) calls_unchanged ?_ ?_
      · intro arg work next htask hnext
        cases work <;> simp only [afterReply, reduceCtorEq] at hnext
        cases reply with
        | none =>
            obtain rfl := Sum.inl.inj (Option.some.inj hnext)
            trivial
        | some tokens =>
            obtain rfl := Sum.inl.inj (Option.some.inj hnext)
            refine ⟨h.tasks promise arg _ htask, by simp, fun user huser => ?_⟩
            exact hhonest _ (underWay_of_task htask) user huser
      · intro arg work outcome _ hnext
        cases work <;> cases reply <;> simp [afterReply] at hnext
  | @cookieStore promise writable arg work flight htask hflight =>
      refine h.of_advance hflight (fun _ hx => hx) (fun _ hx => hx) ?_ ?_ ?_
      · intro j c hj
        cases writable
        · exact calls_unchanged j c hj
        · exact calls_writeCookies j c hj
      · intro arg' work' next _ hnext
        rw [afterCookies_work hnext]
        trivial
      · intro arg' work' outcome htask hnext
        cases work' with
        | discovering | requesting => simp [afterCookies] at hnext
        | clearing =>
            cases writable <;>
              simp only [afterCookies, Bool.false_eq_true, if_true, if_false,
                Option.some.injEq, Sum.inr.injEq] at hnext <;>
              subst hnext <;> simp [ProgressSound]
        | storing tokens =>
            simp only [afterCookies] at hnext
            split at hnext
            · split at hnext
              · rename_i user huser
                obtain rfl := Sum.inr.inj (Option.some.inj hnext)
                obtain ⟨hgrant, hanswer, howner⟩ := h.tasks promise arg' _ htask
                intro session heq
                simp only [Settled.value.injEq, Option.some.injEq] at heq
                subst heq
                exact ⟨tokens, hgrant, hanswer, rfl, huser, howner user huser⟩
              · simp at hnext
            · simp at hnext
  | released hflight =>
      have hgrows : Grows p { p with flight := _ } :=
        ⟨Flight.release_extends hflight, fun _ hx => hx, fun _ hx => hx⟩
      refine ⟨Flight.release_exclusive h.exclusive hflight, ?_, fun j c hj =>
        (h.calls j c hj).mono hgrows⟩
      intro j arg progress hj
      obtain ⟨a, outcome, ht, rfl⟩ := Flight.release_cases hflight
      rcases getElem?_set_new hj with ⟨rfl, hnew⟩ | ⟨-, hold⟩
      · cases hnew
        have hsettled := h.tasks j arg _ ht
        exact fun session heq => (hsettled session heq).mono hgrows
      · exact (h.tasks j arg progress hold).mono hgrows
  | @settle i promise c outcome hc hstatus hresolved =>
      have hsound := h.calls i c hc
      refine h.of_call (grows_of_flight_eq rfl rfl rfl) h.exclusive ?_ rfl ?_
      · intro j arg progress hj
        exact (h.tasks j arg progress hj).mono (grows_of_flight_eq rfl rfl rfl)
      · simp only [CallSound, hstatus] at hsound
        obtain ⟨now, refreshToken, task, hnow, hown, hr, htask, harg⟩ := hsound
        obtain ⟨arg, hreleased⟩ := Flight.resolved_eq_some.mp hresolved
        rw [htask] at hreleased
        obtain rfl := Option.some.inj hreleased
        rintro session rfl
        refine ⟨now, hnow, ?_⟩
        have hgranted := h.tasks promise arg _ htask session rfl
        simp only [CallIsolated, hown]
        exact ⟨refreshToken, promise, hr, by rw [← harg]; exact hgranted⟩

theorem ProcessSound.isolated {p : Process} (h : ProcessSound parse ownerOf p) :
    SessionsIsolated parse ownerOf p := by
  intro i c session hc hstatus
  have hsound := h.calls i c hc
  simp only [CallSound, hstatus] at hsound
  exact hsound session rfl

theorem sessions_isolated {es : List Event} {p : Process}
    (hrun : run (step parse) .start es = some p)
    (hhonest : Along (step parse) (HonestReply parse ownerOf) .start es)
    (hshare : Along (step parse) (SharesOwnRefresh parse) .start es) :
    SessionsIsolated parse ownerOf p := by
  have hsound : ProcessSound parse ownerOf p :=
    run_invariant_along
      (fun _ _ _ hp hguard hq => step_sound hp hguard.1 hguard.2 hq)
      (processSound_start parse ownerOf) (hhonest.and hshare) hrun
  exact hsound.isolated

/-! ## Two browsers -/

def browserToken (name : String) (exp : Int) : Json :=
  .obj [("sub", .str name), ("email", .str (name ++ "@example.com")),
    ("exp", .int exp)]

def browserParse : ParsePart := fun part =>
  if part = "alice" then some (browserToken "alice" 5000)
  else if part = "bob" then some (browserToken "bob" 5000)
  else none

def browserOwner (refreshToken : String) : String :=
  if refreshToken = "refresh-alice" then "alice" else "bob"

def browserCookies (name : String) : Cookies :=
  ⟨none, some ("refresh-" ++ name), none⟩

def browserTokens (name : String) : TokenEndpointResponse :=
  ⟨"header." ++ name ++ ".signature", some ("refresh-" ++ name), none, none⟩

/-- Bob's call resumes while the refresh for Alice is in flight. -/
def overlappingRefresh : List Event :=
  [.call (browserCookies "alice"), .call (browserCookies "bob"),
   .resume 0 1000, .discovered 0 true, .resume 1 1000,
   .replied 0 (some (browserTokens "alice")), .cookieStore 0 true,
   .released 0, .settle 0, .settle 1]

/-- Bob's call resumes after it. -/
def separateRefreshes : List Event :=
  [.call (browserCookies "alice"), .call (browserCookies "bob"),
   .resume 0 1000, .discovered 0 true,
   .replied 0 (some (browserTokens "alice")), .cookieStore 0 true,
   .released 0, .settle 0, .resume 1 1000, .discovered 1 true,
   .replied 1 (some (browserTokens "bob")), .cookieStore 1 true,
   .released 1, .settle 1]

theorem sessions_isolated_separate :
    ∃ p, run (step browserParse) .start separateRefreshes = some p ∧
      p.calls.length = 2 ∧ SessionsIsolated browserParse browserOwner p := by
  obtain ⟨p, hrun⟩ : ∃ p,
      run (step browserParse) .start separateRefreshes = some p :=
    Option.isSome_iff_exists.mp (by decide +kernel)
  have hlength : (run (step browserParse) .start separateRefreshes).map
      (fun p => p.calls.length) = some 2 := by decide +kernel
  rw [hrun] at hlength
  exact ⟨p, hrun, Option.some.inj hlength,
    sessions_isolated hrun (by decide +kernel) (by decide +kernel)⟩

theorem overlapping_refresh_not_isolated :
    Along (step browserParse) (HonestReply browserParse browserOwner) .start
        overlappingRefresh ∧
      ∃ p, run (step browserParse) .start overlappingRefresh = some p ∧
        ¬ SessionsIsolated browserParse browserOwner p := by
  refine ⟨by decide +kernel, ?_⟩
  obtain ⟨p, hrun⟩ : ∃ p,
      run (step browserParse) .start overlappingRefresh = some p :=
    Option.isSome_iff_exists.mp (by decide +kernel)
  refine ⟨p, hrun, fun hisolated => ?_⟩
  have hgrants : (run (step browserParse) .start overlappingRefresh).map
      Process.grants = some [(0, "refresh-alice")] := by decide +kernel
  have hcall : (run (step browserParse) .start overlappingRefresh).map
      (fun p => p.calls[1]?) = some (some ⟨browserCookies "bob", some 1000,
        .done (.value (some ⟨"header.alice.signature",
          ⟨"alice", "alice@example.com", "", "", [], 5000⟩⟩)), []⟩) := by
    decide +kernel
  simp only [hrun, Option.map_some, Option.some.injEq] at hgrants hcall
  obtain ⟨now, hnow, hbob⟩ := hisolated 1 _ _ hcall rfl
  obtain rfl := Option.some.inj hnow
  have hown : ownSession browserParse (browserCookies "bob") 1000 = none := by
    decide +kernel
  have hrefresh : truthy (browserCookies "bob").refreshToken =
      some "refresh-bob" := by decide +kernel
  simp only [CallIsolated, hown, hrefresh, Option.some.injEq] at hbob
  obtain ⟨refreshToken, promise, rfl, tokens, hgrant, -⟩ := hbob
  rw [hgrants] at hgrant
  simp at hgrant

end IsolatedEnv.Frontend
