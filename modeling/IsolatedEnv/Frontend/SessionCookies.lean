import IsolatedEnv.Frontend.Login
import IsolatedEnv.Frontend.SessionIsolation

/-!
# Session and cookies of a call that runs alone

A refresh stores its tokens before it looks at them and clears the cookies
again when it cannot use them.  The model's process is followed through one
`getSession` call while no other is in flight, for every outcome of discovery
and of the grant.
-/

namespace IsolatedEnv.Frontend

open IsolatedEnv.Foundation

/-! ## The cookies after a response -/

/-- What a cookie that lives as long as the tokens holds: nothing, where that is no time. -/
def TokenEndpointResponse.held (tokens : TokenEndpointResponse) (value : String) :
    Option String :=
  if tokens.expiresIn = some 0 then none else some value

/-- The cookies once the tokens are stored. -/
def TokenEndpointResponse.stored (tokens : TokenEndpointResponse) (cookies : Cookies) :
    Cookies where
  session := tokens.held tokens.accessToken
  refreshToken := (truthy tokens.refreshToken).or cookies.refreshToken
  idToken := (truthy tokens.idToken).elim cookies.idToken tokens.held

theorem clearSessionCookies_cookies (jar : Jar) (writes : List CookieWrite) :
    ((writes ++ clearSessionCookies).foldl Jar.write jar).cookies = ⟨none, none, none⟩ := by
  rw [List.foldl_append]
  rfl

theorem truthy_of_ne {text : String} (h : text ≠ "") : truthy (some text) = some text := by
  simp [truthy, Option.filter, h]

theorem held_eq (tokens : TokenEndpointResponse) (value : String) :
    (if tokens.expiresIn.getD 3600 = 0 then none else some value) = tokens.held value := by
  cases h : tokens.expiresIn <;> simp [TokenEndpointResponse.held, h]

theorem setIfIssued_write (jar : Jar) (name other : String) (maxAge : Nat)
    (token : Option String) :
    (setIfIssued name maxAge token).foldl Jar.write jar other =
      if other = name then
        (truthy token).elim (jar name) fun value => if maxAge = 0 then none else some value
      else jar other := by
  cases h : truthy token <;> by_cases hname : other = name <;>
    simp [setIfIssued, h, hname, Jar.write]

theorem setSessionCookies_cookies (jar : Jar) {tokens : TokenEndpointResponse}
    (h : tokens.accessToken ≠ "") :
    ((setSessionCookies tokens).foldl Jar.write jar).cookies = tokens.stored jar.cookies := by
  cases hrefresh : truthy tokens.refreshToken <;>
    simp [Jar.cookies, setSessionCookies, TokenEndpointResponse.stored, setIfIssued_write,
      truthy_of_ne h, hrefresh, held_eq]

/-! ## `getSession` without the process around it -/

variable (parse : ParsePart)

/-- From the reply to the grant on; `none` is a discovery or a grant that failed. -/
def doRefreshSession (reply : Option TokenEndpointResponse) :
    Option SessionData × List CookieWrite :=
  match reply with
  | none => (none, clearSessionCookies)
  | some tokens =>
      match decodeJwtPayload parse tokens.accessToken with
      | some user => (some ⟨tokens.accessToken, user⟩, setSessionCookies tokens)
      | none => (none, setSessionCookies tokens ++ clearSessionCookies)

/--
The three ways a call may end, by what it returns and writes, `null` with and
without a refresh token apart; `issued` are the tokens the endpoint has issued
in the meantime.
-/
inductive Ending (jar : Jar) (now : Int) (issued : List TokenEndpointResponse) :
    Settled → List CookieWrite → Prop
  | own (session : SessionData) (cookie : jar.cookies.session = some session.accessToken)
      (decodes : decodeJwtPayload parse session.accessToken = some session.user)
      (valid : session.user.exp > now + 30) :
      Ending jar now issued (.value (some session)) []
  | renewed (tokens : TokenEndpointResponse) (user : SessionUser)
      (unusable : ownSession parse jar.cookies now = none) (new : tokens ∈ issued)
      (decodes : decodeJwtPayload parse tokens.accessToken = some user)
      (stored : ((setSessionCookies tokens).foldl Jar.write jar).cookies =
        tokens.stored jar.cookies) :
      Ending jar now issued (.value (some ⟨tokens.accessToken, user⟩))
        (setSessionCookies tokens)
  | cleared (writes : List CookieWrite) (unusable : ownSession parse jar.cookies now = none)
      (token : (truthy jar.cookies.refreshToken).isSome)
      (empty : (writes.foldl Jar.write jar).cookies = ⟨none, none, none⟩) :
      Ending jar now issued (.value none) writes
  | absent (unusable : ownSession parse jar.cookies now = none)
      (token : truthy jar.cookies.refreshToken = none) :
      Ending jar now issued (.value none) []

variable {parse}

theorem ownSession_eq_some {cookies : Cookies} {now : Int} {session : SessionData}
    (h : ownSession parse cookies now = some session) :
    cookies.session = some session.accessToken ∧
      decodeJwtPayload parse session.accessToken = some session.user ∧
        session.user.exp > now + 30 := by
  simp only [ownSession, Option.bind_eq_bind, Option.bind_eq_some_iff] at h
  obtain ⟨accessToken, htoken, user, huser, hvalid⟩ := h
  split at hvalid
  · rename_i hexp
    obtain rfl := Option.some.inj hvalid
    exact ⟨(Option.filter_eq_some_iff.mp htoken).1, huser, hexp⟩
  · cases hvalid

theorem decodeJwtPayload_empty : decodeJwtPayload parse "" = none := by
  simp [decodeJwtPayload, List.splitOn_nil]

theorem doRefreshSession_ending {jar : Jar} {now : Int}
    {issued : List TokenEndpointResponse} {reply : Option TokenEndpointResponse}
    (hunusable : ownSession parse jar.cookies now = none)
    (hrefresh : (truthy jar.cookies.refreshToken).isSome)
    (hissued : ∀ tokens ∈ reply, tokens ∈ issued) :
    Ending parse jar now issued (.value (doRefreshSession parse reply).1)
      (doRefreshSession parse reply).2 := by
  cases reply with
  | none => exact .cleared _ hunusable hrefresh (clearSessionCookies_cookies jar [])
  | some tokens =>
      cases hdecode : decodeJwtPayload parse tokens.accessToken with
      | none =>
          simp only [doRefreshSession, hdecode]
          exact .cleared _ hunusable hrefresh (clearSessionCookies_cookies jar _)
      | some user =>
          have hne : tokens.accessToken ≠ "" := by
            intro hempty
            rw [hempty, decodeJwtPayload_empty] at hdecode
            cases hdecode
          simp only [doRefreshSession, hdecode]
          exact .renewed tokens user hunusable (hissued tokens rfl) hdecode
            (setSessionCookies_cookies jar hne)

/-! ## The process during the call -/

/-- No refresh and no call is under way. -/
structure Process.Quiet (p : Process) : Prop where
  tasks : ∀ t ∈ p.flight.tasks, t.progress.isReleased = true
  slot : p.flight.slot = none
  calls : ∀ c ∈ p.calls, ∃ outcome, c.status = .done outcome

/-- Events of a process that gets no other call and may write its cookies. -/
def Undisturbed : Event → Prop
  | .call _ => False
  | .cookieStore _ writable => writable = true
  | _ => True

/-- What the call has written when the refresh has come this far. -/
def Refreshing (parse : ParsePart) (issued : List TokenEndpointResponse)
    (writes : List CookieWrite) : Progress RefreshWork Settled → Prop
  | .running .discovering | .running .requesting => writes = []
  | .running (.storing tokens) => writes = [] ∧ tokens ∈ issued
  | .running .clearing => ∃ reply : Option TokenEndpointResponse,
      (∀ tokens ∈ reply, tokens ∈ issued) ∧
        doRefreshSession parse reply = (none, writes ++ clearSessionCookies)
  | .settled outcome | .released outcome => ∃ reply : Option TokenEndpointResponse,
      (∀ tokens ∈ reply, tokens ∈ issued) ∧
        outcome = .value (doRefreshSession parse reply).1 ∧
          writes = (doRefreshSession parse reply).2

/-- The process `q` is the process `p` with one more call, which has started one more refresh. -/
structure Refreshes (parse : ParsePart) (p : Process) (jar : Jar) (q : Process)
    (now : Int) (refreshToken : String) (progress : Progress RefreshWork Settled)
    (status : CallStatus) (writes : List CookieWrite)
    (issued : List TokenEndpointResponse) : Prop where
  unusable : ownSession parse jar.cookies now = none
  token : truthy jar.cookies.refreshToken = some refreshToken
  tasks : q.flight.tasks = p.flight.tasks ++ [⟨⟨refreshToken, p.calls.length⟩, progress⟩]
  calls : q.calls = p.calls ++ [⟨jar.cookies, some now, status, writes⟩]
  answers : q.answers = p.answers ++ issued.map (Prod.mk p.flight.tasks.length)
  progressed : Refreshing parse issued writes progress

inductive Lone (parse : ParsePart) (p : Process) (jar : Jar) (q : Process) : Prop
  | reading (flight : q.flight = p.flight) (answers : q.answers = p.answers)
      (calls : q.calls = p.calls ++ [⟨jar.cookies, none, .reading, []⟩])
  | returned (now : Int) (outcome : Settled) (flight : q.flight = p.flight)
      (answers : q.answers = p.answers)
      (calls : q.calls = p.calls ++ [⟨jar.cookies, some now, .done outcome, []⟩])
      (ending : Ending parse jar now [] outcome [])
  | waiting (now : Int) (refreshToken : String) (progress : Progress RefreshWork Settled)
      (writes : List CookieWrite) (issued : List TokenEndpointResponse)
      (refreshes : Refreshes parse p jar q now refreshToken progress
        (.awaiting p.flight.tasks.length) writes issued)
  | refreshed (now : Int) (refreshToken : String) (outcome : Settled)
      (writes : List CookieWrite) (issued : List TokenEndpointResponse)
      (refreshes : Refreshes parse p jar q now refreshToken (.released outcome)
        (.done outcome) writes issued)

section Steps

variable {p q q' : Process} {jar : Jar}

theorem Process.Quiet.task (hquiet : p.Quiet) {k : Nat}
    {t u : Task RefreshArg RefreshWork Settled}
    (hu : (p.flight.tasks ++ [t])[k]? = some u) (hunreleased : u.progress.isReleased = false) :
    k = p.flight.tasks.length ∧ u = t := by
  rcases getElem?_append_new hu with hold | hnew
  · have hreleased := hquiet.tasks u (List.mem_of_getElem? hold)
    rw [hunreleased] at hreleased
    cases hreleased
  · exact hnew

theorem Process.Quiet.call (hquiet : p.Quiet) {k : Nat} {c d : Call}
    (hd : (p.calls ++ [c])[k]? = some d) (hopen : ∀ outcome, d.status ≠ .done outcome) :
    k = p.calls.length ∧ d = c := by
  rcases getElem?_append_new hd with hold | hnew
  · obtain ⟨outcome, hdone⟩ := hquiet.calls d (List.mem_of_getElem? hold)
    exact absurd hdone (hopen outcome)
  · exact hnew

/-- The refresh that is under way is the call's own. -/
theorem Lone.waiting_of_task (h : Lone parse p jar q) (hquiet : p.Quiet) {k : Nat}
    {u : Task RefreshArg RefreshWork Settled} (hu : q.flight.tasks[k]? = some u)
    (hunreleased : u.progress.isReleased = false) :
    ∃ now refreshToken progress writes issued,
      Refreshes parse p jar q now refreshToken progress
        (.awaiting p.flight.tasks.length) writes issued ∧
        k = p.flight.tasks.length ∧ u = ⟨⟨refreshToken, p.calls.length⟩, progress⟩ := by
  cases h with
  | reading flight answers calls | returned now outcome flight answers calls ending =>
      rw [flight] at hu
      have hreleased := hquiet.tasks u (List.mem_of_getElem? hu)
      rw [hunreleased] at hreleased
      cases hreleased
  | waiting now refreshToken progress writes issued refreshes =>
      rw [refreshes.tasks] at hu
      exact ⟨now, refreshToken, progress, writes, issued, refreshes,
        hquiet.task hu hunreleased⟩
  | refreshed now refreshToken outcome writes issued refreshes =>
      rw [refreshes.tasks] at hu
      obtain ⟨-, rfl⟩ := hquiet.task hu hunreleased
      cases hunreleased

theorem writeCookies_last (calls : List Call) (c : Call) (writes : List CookieWrite) :
    writeCookies (calls ++ [c]) calls.length writes =
      calls ++ [{ c with writes := c.writes ++ writes }] := by
  rw [writeCookies, List.modify_eq_take_drop]
  simp

theorem Refreshes.set_task {now : Int} {refreshToken : String}
    {progress : Progress RefreshWork Settled} {status : CallStatus}
    {writes : List CookieWrite} {issued : List TokenEndpointResponse}
    (h : Refreshes parse p jar q now refreshToken progress status writes issued)
    (new : Task RefreshArg RefreshWork Settled) :
    q.flight.tasks.set p.flight.tasks.length new = p.flight.tasks ++ [new] := by
  rw [h.tasks]
  simp

theorem resumeCall_lone (hquiet : p.Quiet) (hflight : q.flight = p.flight)
    (hanswers : q.answers = p.answers)
    (hcalls : q.calls = p.calls ++ [⟨jar.cookies, none, .reading, []⟩]) (now : Int) :
    Lone parse p jar
      (resumeCall parse q p.calls.length ⟨jar.cookies, none, .reading, []⟩ now) := by
  have hset : ∀ c : Call, q.calls.set p.calls.length c = p.calls ++ [c] := by
    intro c
    rw [hcalls]
    simp
  unfold resumeCall
  cases hown : ownSession parse jar.cookies now with
  | some session =>
      obtain ⟨hcookie, hdecodes, hvalid⟩ := ownSession_eq_some hown
      exact .returned now _ hflight hanswers (hset _) (.own session hcookie hdecodes hvalid)
  | none =>
      dsimp only
      cases htoken : truthy jar.cookies.refreshToken with
      | none =>
          exact .returned now _ hflight hanswers (hset _) (.absent hown htoken)
      | some refreshToken =>
          have hslot : q.flight.slot = none := by rw [hflight, hquiet.slot]
          refine .waiting now refreshToken (.running .discovering) [] [] ?_
          dsimp only
          rw [Flight.enter_of_free hslot, hflight]
          exact ⟨hown, htoken, rfl, hset _, by simpa using hanswers, rfl⟩

/-- A call that is not done is the last one, before or during its refresh. -/
theorem Lone.open_call (h : Lone parse p jar q) (hquiet : p.Quiet) {k : Nat} {c : Call}
    (hc : q.calls[k]? = some c) (hopen : ∀ outcome, c.status ≠ .done outcome) :
    k = p.calls.length ∧
      ((c = ⟨jar.cookies, none, .reading, []⟩ ∧ q.flight = p.flight ∧ q.answers = p.answers ∧
          q.calls = p.calls ++ [c]) ∨
        ∃ now refreshToken progress writes issued,
          c = ⟨jar.cookies, some now, .awaiting p.flight.tasks.length, writes⟩ ∧
            Refreshes parse p jar q now refreshToken progress
              (.awaiting p.flight.tasks.length) writes issued) := by
  cases h with
  | reading flight answers calls =>
      rw [calls] at hc
      obtain ⟨rfl, rfl⟩ := hquiet.call hc hopen
      exact ⟨rfl, .inl ⟨rfl, flight, answers, calls⟩⟩
  | waiting now refreshToken progress writes issued refreshes =>
      rw [refreshes.calls] at hc
      obtain ⟨rfl, rfl⟩ := hquiet.call hc hopen
      exact ⟨rfl, .inr ⟨now, refreshToken, progress, writes, issued, rfl, refreshes⟩⟩
  | returned now outcome flight answers calls ending =>
      rw [calls] at hc
      obtain ⟨-, rfl⟩ := hquiet.call hc hopen
      exact absurd rfl (hopen outcome)
  | refreshed now refreshToken outcome writes issued refreshes =>
      rw [refreshes.calls] at hc
      obtain ⟨-, rfl⟩ := hquiet.call hc hopen
      exact absurd rfl (hopen outcome)

theorem Lone.resume (h : Lone parse p jar q) (hquiet : p.Quiet) {i : Nat} {now : Int}
    (hs : step parse q (.resume i now) = some q') : Lone parse p jar q' := by
  cases stepped hs with
  | @resume _ c _ hmem hreading =>
      obtain ⟨rfl, ⟨rfl, hflight, hanswers, hcalls⟩ | ⟨_, _, _, _, _, rfl, -⟩⟩ :=
        h.open_call hquiet hmem (by simp [hreading])
      · exact resumeCall_lone hquiet hflight hanswers hcalls now
      · cases hreading

theorem Refreshes.move {now : Int} {refreshToken : String}
    {old new : Progress RefreshWork Settled} {status : CallStatus}
    {writes : List CookieWrite} {issued later : List TokenEndpointResponse}
    (h : Refreshes parse p jar q now refreshToken old status writes issued)
    (htasks : q'.flight.tasks = q.flight.tasks.set p.flight.tasks.length
      ⟨⟨refreshToken, p.calls.length⟩, new⟩)
    (hcalls : q'.calls = q.calls)
    (hanswers : q'.answers = q.answers ++ later.map (Prod.mk p.flight.tasks.length))
    (hprogressed : Refreshing parse (issued ++ later) writes new) :
    Refreshes parse p jar q' now refreshToken new status writes (issued ++ later) where
  unusable := h.unusable
  token := h.token
  tasks := by rw [htasks, h.set_task]
  calls := by rw [hcalls, h.calls]
  answers := by rw [hanswers, h.answers, List.map_append, List.append_assoc]
  progressed := hprogressed

theorem Lone.discovered (h : Lone parse p jar q) (hquiet : p.Quiet) {promise : Nat}
    {ok : Bool} (hs : step parse q (.discovered promise ok) = some q') :
    Lone parse p jar q' := by
  cases stepped hs with
  | @discovered _ _ arg work flight htask hadvanced =>
      obtain ⟨now, refreshToken, progress, writes, issued, hrefreshes, rfl, heq⟩ :=
        h.waiting_of_task hquiet htask rfl
      cases heq
      obtain ⟨arg', work', htask', ⟨next, hnext, rfl⟩ | ⟨outcome, hnext, rfl⟩⟩ :=
        Flight.advance_cases hadvanced
      all_goals
        rw [htask] at htask'
        cases htask'
        cases work <;> cases hnext
      have hwrites : writes = [] := hrefreshes.progressed
      subst hwrites
      refine .waiting now refreshToken _ [] (issued ++ []) (hrefreshes.move rfl rfl (by simp) ?_)
      cases ok with
      | true => rfl
      | false => exact ⟨none, by simp, rfl⟩

theorem Lone.replied (h : Lone parse p jar q) (hquiet : p.Quiet) {promise : Nat}
    {reply : Option TokenEndpointResponse}
    (hs : step parse q (.replied promise reply) = some q') : Lone parse p jar q' := by
  cases stepped hs with
  | @replied _ _ flight hadvanced =>
      obtain ⟨arg, work, htask, hmoved⟩ := Flight.advance_cases hadvanced
      obtain ⟨now, refreshToken, progress, writes, issued, hrefreshes, rfl, heq⟩ :=
        h.waiting_of_task hquiet htask rfl
      cases heq
      obtain ⟨next, hnext, rfl⟩ | ⟨outcome, hnext, rfl⟩ := hmoved
      · cases work with
        | requesting =>
            have hwrites : writes = [] := hrefreshes.progressed
            subst hwrites
            refine .waiting now refreshToken (.running next) [] (issued ++ reply.toList)
              (hrefreshes.move rfl rfl rfl ?_)
            cases reply with
            | none =>
                cases hnext
                exact ⟨none, by simp, rfl⟩
            | some tokens =>
                cases hnext
                exact ⟨rfl, by simp⟩
        | discovering | storing | clearing => cases hnext
      · cases work with
        | requesting => cases reply <;> cases hnext
        | discovering | storing | clearing => cases hnext

/-- The cookies are written, and the refresh ends or turns to clearing them. -/
theorem Lone.cookieStore (h : Lone parse p jar q) (hquiet : p.Quiet) {promise : Nat}
    (hs : step parse q (.cookieStore promise true) = some q') : Lone parse p jar q' := by
  cases stepped hs with
  | @cookieStore _ _ arg work flight htask hadvanced =>
      obtain ⟨now, refreshToken, progress, writes, issued, hrefreshes, rfl, heq⟩ :=
        h.waiting_of_task hquiet htask rfl
      cases heq
      have hcalls : writeCookies q.calls p.calls.length (cookieWrites work) =
          p.calls ++ [⟨jar.cookies, some now, .awaiting p.flight.tasks.length,
            writes ++ cookieWrites work⟩] := by
        rw [hrefreshes.calls, writeCookies_last]
      obtain ⟨arg', work', htask', hmoved⟩ := Flight.advance_cases hadvanced
      rw [htask] at htask'
      cases htask'
      have hprogressed := hrefreshes.progressed
      obtain ⟨next, hnext, rfl⟩ | ⟨outcome, hnext, rfl⟩ := hmoved
      · refine .waiting now refreshToken (.running next) (writes ++ cookieWrites work) issued
          ⟨hrefreshes.unusable, hrefreshes.token, hrefreshes.set_task _, hcalls,
            hrefreshes.answers, ?_⟩
        cases work with
        | storing tokens =>
            obtain ⟨rfl, hissued⟩ := hprogressed
            cases hdecode : decodeJwtPayload parse tokens.accessToken with
            | some user => simp [afterCookies, hdecode] at hnext
            | none =>
                simp only [afterCookies, hdecode] at hnext
                cases hnext
                exact ⟨some tokens, by simpa using hissued,
                  by simp [doRefreshSession, hdecode, cookieWrites]⟩
        | clearing | discovering | requesting => cases hnext
      · refine .waiting now refreshToken (.settled outcome) (writes ++ cookieWrites work) issued
          ⟨hrefreshes.unusable, hrefreshes.token, hrefreshes.set_task _, hcalls,
            hrefreshes.answers, ?_⟩
        cases work with
        | storing tokens =>
            obtain ⟨rfl, hissued⟩ := hprogressed
            cases hdecode : decodeJwtPayload parse tokens.accessToken with
            | none => simp [afterCookies, hdecode] at hnext
            | some user =>
                simp only [afterCookies, hdecode] at hnext
                cases hnext
                exact ⟨some tokens, by simpa using hissued,
                  by simp [doRefreshSession, hdecode, cookieWrites]⟩
        | clearing =>
            cases hnext
            obtain ⟨reply, hissued, hreply⟩ := hprogressed
            exact ⟨reply, hissued, by simp [hreply, cookieWrites]⟩
        | discovering | requesting => cases hnext

theorem Lone.released (h : Lone parse p jar q) (hquiet : p.Quiet) {promise : Nat}
    (hs : step parse q (.released promise) = some q') : Lone parse p jar q' := by
  cases stepped hs with
  | @released _ flight hreleased =>
      obtain ⟨arg, outcome, htask, rfl⟩ := Flight.release_cases hreleased
      obtain ⟨now, refreshToken, progress, writes, issued, hrefreshes, rfl, heq⟩ :=
        h.waiting_of_task hquiet htask rfl
      cases heq
      have hprogressed : Refreshing parse (issued ++ []) writes (.released outcome) := by
        rw [List.append_nil]
        exact hrefreshes.progressed
      exact .waiting now refreshToken (.released outcome) writes (issued ++ [])
        (hrefreshes.move rfl rfl (by simp) hprogressed)

theorem Lone.settle (h : Lone parse p jar q) (hquiet : p.Quiet) {i : Nat}
    (hs : step parse q (.settle i) = some q') : Lone parse p jar q' := by
  cases stepped hs with
  | @settle _ promise c outcome hmem hawaiting hresolved =>
      obtain ⟨rfl, ⟨rfl, -⟩ | ⟨now, refreshToken, progress, writes, issued, rfl, hrefreshes⟩⟩ :=
        h.open_call hquiet hmem (by simp [hawaiting])
      · cases hawaiting
      · cases hawaiting
        obtain ⟨arg, htask⟩ := Flight.resolved_eq_some.mp hresolved
        rw [hrefreshes.tasks] at htask
        simp only [List.getElem?_concat_length, Option.some.injEq] at htask
        cases htask
        refine .refreshed now refreshToken outcome writes issued
          ⟨hrefreshes.unusable, hrefreshes.token, hrefreshes.tasks, ?_, hrefreshes.answers,
            hrefreshes.progressed⟩
        rw [hrefreshes.calls]
        simp

theorem lone_step {e : Event} (hquiet : p.Quiet) (h : Lone parse p jar q)
    (he : Undisturbed e) (hs : step parse q e = some q') : Lone parse p jar q' := by
  cases e with
  | call others => cases he
  | resume i now => exact h.resume hquiet hs
  | discovered promise ok => exact h.discovered hquiet hs
  | replied promise reply => exact h.replied hquiet hs
  | cookieStore promise writable =>
      obtain rfl : writable = true := he
      exact h.cookieStore hquiet hs
  | released promise => exact h.released hquiet hs
  | settle i => exact h.settle hquiet hs

theorem lone_run {es : List Event} (hquiet : p.Quiet) (hes : ∀ e ∈ es, Undisturbed e)
    (hrun : run (step parse) p (.call jar.cookies :: es) = some q) : Lone parse p jar q := by
  obtain ⟨s, hs, hrest⟩ := run_cons_eq_some.mp hrun
  cases stepped hs
  refine run_invariant_along (fun _ _ _ h he hs => lone_step hquiet h he hs) ?_
    (along_of_forall (step parse) hes _) hrest
  exact .reading rfl rfl rfl

/-! ## The call comes to an end -/

def Finishes (parse : ParsePart) (i : Nat) (q : Process) : Prop :=
  ∃ later q' c outcome, (∀ e ∈ later, Undisturbed e) ∧
    run (step parse) q later = some q' ∧ q'.calls[i]? = some c ∧ c.status = .done outcome

theorem finishes_of_step {i : Nat} {e : Event} (he : Undisturbed e)
    (hs : step parse q e = some q') (h : Finishes parse i q') : Finishes parse i q := by
  obtain ⟨later, r, c, outcome, hlater, hrun, hc, hdone⟩ := h
  exact ⟨e :: later, r, c, outcome, List.forall_mem_cons.mpr ⟨he, hlater⟩,
    run_cons_eq_some.mpr ⟨q', hs, hrun⟩, hc, hdone⟩

/-- The last call waits for the last promise, which has been started for it. -/
structure Awaits (p q : Process) (arg : RefreshArg)
    (progress : Progress RefreshWork Settled) : Prop where
  tasks : q.flight.tasks = p.flight.tasks ++ [⟨arg, progress⟩]
  calls : ∃ c, q.calls = p.calls ++ [c] ∧ c.status = .awaiting p.flight.tasks.length
  own : arg.call = p.calls.length

variable {arg : RefreshArg}

theorem Awaits.task {progress : Progress RefreshWork Settled} (h : Awaits p q arg progress) :
    q.flight.tasks[p.flight.tasks.length]? = some ⟨arg, progress⟩ := by
  simp [h.tasks]

theorem Awaits.set_task {progress : Progress RefreshWork Settled}
    (h : Awaits p q arg progress) (new : Task RefreshArg RefreshWork Settled) :
    q.flight.tasks.set p.flight.tasks.length new = p.flight.tasks ++ [new] := by
  simp [h.tasks]

theorem Awaits.finishes_released {outcome : Settled} (h : Awaits p q arg (.released outcome)) :
    Finishes parse p.calls.length q := by
  obtain ⟨c, hcalls, hstatus⟩ := h.calls
  let done : Process :=
    { q with calls := q.calls.set p.calls.length { c with status := .done outcome } }
  have hs : step parse q (.settle p.calls.length) = some done := by
    simp [step, hcalls, hstatus, Flight.resolved, h.task, done]
  exact ⟨[.settle p.calls.length], done, _, outcome, by simp [Undisturbed],
    run_cons_eq_some.mpr ⟨done, hs, rfl⟩, by simp [done, hcalls]; rfl, rfl⟩

theorem Awaits.finishes_settled {outcome : Settled} (h : Awaits p q arg (.settled outcome)) :
    Finishes parse p.calls.length q := by
  have hs : step parse q (.released p.flight.tasks.length) =
      some { q with flight := ⟨q.flight.tasks.set p.flight.tasks.length
        ⟨arg, .released outcome⟩, none⟩ } := by
    simp [step, Flight.release, h.task]
  have he : Undisturbed (.released p.flight.tasks.length) := trivial
  have hreleased : Awaits p
      { q with flight := ⟨q.flight.tasks.set p.flight.tasks.length
        ⟨arg, .released outcome⟩, none⟩ } arg (.released outcome) :=
    ⟨h.set_task _, h.calls, h.own⟩
  exact finishes_of_step he hs hreleased.finishes_released

theorem Awaits.write {work : RefreshWork} (h : Awaits p q arg (.running work))
    (new : Progress RefreshWork Settled) :
    Awaits p
      { q with
        flight := { q.flight with tasks := q.flight.tasks.set p.flight.tasks.length ⟨arg, new⟩ }
        calls := writeCookies q.calls arg.call (cookieWrites work) } arg new := by
  obtain ⟨c, hcalls, hstatus⟩ := h.calls
  refine ⟨h.set_task _, ⟨{ c with writes := c.writes ++ cookieWrites work }, ?_, hstatus⟩, h.own⟩
  dsimp only
  rw [hcalls, h.own, writeCookies_last]

theorem Awaits.finishes_clearing (h : Awaits p q arg (.running .clearing)) :
    Finishes parse p.calls.length q := by
  have he : Undisturbed (.cookieStore p.flight.tasks.length true) := rfl
  refine finishes_of_step he ?_ (h.write (.settled (.value none))).finishes_settled
  simp [step, Process.underWay, Flight.advance, h.task, afterCookies]

theorem Awaits.finishes {progress : Progress RefreshWork Settled}
    (h : Awaits p q arg progress) : Finishes parse p.calls.length q := by
  cases progress with
  | released outcome => exact h.finishes_released
  | settled outcome => exact h.finishes_settled
  | running work =>
      have hmoved : Awaits p
          { q with
            flight := { q.flight with
              tasks := q.flight.tasks.set p.flight.tasks.length ⟨arg, .running .clearing⟩ } }
          arg (.running .clearing) := ⟨h.set_task _, h.calls, h.own⟩
      cases work with
      | clearing => exact h.finishes_clearing
      | discovering =>
          have he : Undisturbed (.discovered p.flight.tasks.length false) := trivial
          refine finishes_of_step he ?_ hmoved.finishes_clearing
          simp [step, Process.underWay, Flight.advance, h.task, afterDiscovery]
      | requesting =>
          have he : Undisturbed (.replied p.flight.tasks.length none) := trivial
          refine finishes_of_step he ?_ hmoved.finishes_clearing
          simp [step, Flight.advance, h.task, afterReply]
      | storing tokens =>
          have he : Undisturbed (.cookieStore p.flight.tasks.length true) := rfl
          cases hdecode : decodeJwtPayload parse tokens.accessToken with
          | none =>
              refine finishes_of_step he ?_ (h.write (.running .clearing)).finishes_clearing
              simp [step, Process.underWay, Flight.advance, h.task, afterCookies, hdecode]
          | some user =>
              refine finishes_of_step he ?_
                (h.write (.settled (.value (some ⟨tokens.accessToken, user⟩)))).finishes_settled
              simp [step, Process.underWay, Flight.advance, h.task, afterCookies, hdecode]

theorem resumeCall_checked (parse : ParsePart) (q : Process) (i : Nat) (c : Call) (now : Int) :
    ∃ status, (resumeCall parse q i c now).calls =
      q.calls.set i { c with checkedAt := some now, status := status } := by
  unfold resumeCall
  split
  · exact ⟨_, rfl⟩
  · split <;> exact ⟨_, rfl⟩

theorem Lone.finishes (h : Lone parse p jar q) (hquiet : p.Quiet) :
    Finishes parse p.calls.length q := by
  have hdone : ∀ {r : Process} {c : Call} {outcome : Settled}, r.calls = p.calls ++ [c] →
      c.status = .done outcome → Finishes parse p.calls.length r := by
    intro r c outcome hcalls hstatus
    exact ⟨[], r, c, outcome, by simp, rfl, by simp [hcalls], hstatus⟩
  have hwaiting : ∀ {r : Process} {now refreshToken progress writes issued},
      Refreshes parse p jar r now refreshToken progress
        (.awaiting p.flight.tasks.length) writes issued → Finishes parse p.calls.length r := by
    intro r now refreshToken progress writes issued hrefreshes
    exact Awaits.finishes ⟨hrefreshes.tasks, ⟨_, hrefreshes.calls, rfl⟩, rfl⟩
  cases h with
  | returned now outcome flight answers calls ending => exact hdone calls rfl
  | refreshed now refreshToken outcome writes issued refreshes => exact hdone refreshes.calls rfl
  | waiting now refreshToken progress writes issued refreshes => exact hwaiting refreshes
  | reading flight answers calls =>
      have hs : step parse q (.resume p.calls.length 0) =
          some (resumeCall parse q p.calls.length ⟨jar.cookies, none, .reading, []⟩ 0) := by
        simp [step, calls]
      have he : Undisturbed (.resume p.calls.length 0) := trivial
      refine finishes_of_step he hs ?_
      have hresumed : Lone parse p jar
          (resumeCall parse q p.calls.length ⟨jar.cookies, none, .reading, []⟩ 0) :=
        resumeCall_lone hquiet flight answers calls 0
      cases hresumed with
      | returned now outcome flight answers calls ending => exact hdone calls rfl
      | refreshed now refreshToken outcome writes issued refreshes =>
          exact hdone refreshes.calls rfl
      | waiting now refreshToken progress writes issued refreshes => exact hwaiting refreshes
      | reading _ _ unchecked =>
          obtain ⟨status, hchecked⟩ :=
            resumeCall_checked parse q p.calls.length ⟨jar.cookies, none, .reading, []⟩ 0
          rw [hchecked, calls] at unchecked
          simp at unchecked

theorem Lone.ending (h : Lone parse p jar q) :
    ∃ c issued, q.calls[p.calls.length]? = some c ∧
      q.answers = p.answers ++ issued.map (Prod.mk p.flight.tasks.length) ∧
        ∀ outcome, c.status = .done outcome → ∃ now, c.checkedAt = some now ∧
          Ending parse jar now issued outcome c.writes := by
  cases h with
  | reading flight answers calls =>
      refine ⟨⟨jar.cookies, none, .reading, []⟩, [], by simp [calls], by simp [answers],
        fun outcome hdone => ?_⟩
      cases hdone
  | returned now result flight answers calls ending =>
      refine ⟨_, [], by simp [calls]; rfl, by simp [answers], fun outcome hdone => ?_⟩
      cases hdone
      exact ⟨now, rfl, ending⟩
  | waiting now refreshToken progress writes issued refreshes =>
      exact ⟨_, issued, by simp [refreshes.calls]; rfl, refreshes.answers, by simp⟩
  | refreshed now refreshToken result writes issued refreshes =>
      refine ⟨_, issued, by simp [refreshes.calls]; rfl, refreshes.answers,
        fun outcome hdone => ?_⟩
      cases hdone
      obtain ⟨reply, hissued, rfl, rfl⟩ := refreshes.progressed
      exact ⟨now, rfl, doRefreshSession_ending refreshes.unusable (by simp [refreshes.token])
        hissued⟩

/--
A call that runs alone ends in one of the ways above, whatever the provider
does, and it does end.
-/
theorem getSession_endings (parse : ParsePart) {p q : Process} (hquiet : p.Quiet)
    (jar : Jar) {es : List Event} (hes : ∀ e ∈ es, Undisturbed e)
    (hrun : run (step parse) p (.call jar.cookies :: es) = some q) :
    (∃ c issued, q.calls[p.calls.length]? = some c ∧
      q.answers = p.answers ++ issued.map (Prod.mk p.flight.tasks.length) ∧
        ∀ outcome, c.status = .done outcome → ∃ now, c.checkedAt = some now ∧
          Ending parse jar now issued outcome c.writes) ∧
      Finishes parse p.calls.length q := by
  have hlone := lone_run hquiet hes hrun
  exact ⟨hlone.ending, hlone.finishes hquiet⟩

end Steps

/-- Alice's browser once the session cookie has run out. -/
def aliceJar : Jar := fun name => if name = "refresh_token" then some "refresh-alice" else none

/-- The new access token is stored before it turns out to be no JWT. -/
def opaqueRefresh : List Event :=
  [.resume 0 1000, .discovered 0 true,
   .replied 0 (some ⟨"opaque", some "refresh-next", none, none⟩), .cookieStore 0 true,
   .cookieStore 0 true, .released 0, .settle 0]

theorem getSession_endings_opaque :
    ∃ q c issued, run (step browserParse) .start (.call aliceJar.cookies :: opaqueRefresh) =
        some q ∧
      q.calls[0]? = some c ∧ c.status = .done (.value none) ∧
        Ending browserParse aliceJar 1000 issued (.value none) c.writes := by
  obtain ⟨q, hrun⟩ : ∃ q, run (step browserParse) .start
      (.call aliceJar.cookies :: opaqueRefresh) = some q :=
    Option.isSome_iff_exists.mp (by decide +kernel)
  have hquiet : Process.start.Quiet := ⟨by simp [Process.start, Flight.empty], rfl,
    by simp [Process.start]⟩
  obtain ⟨⟨c, issued, hc, -, hending⟩, -⟩ :=
    getSession_endings browserParse hquiet aliceJar (by simp [opaqueRefresh, Undisturbed]) hrun
  have hcall : (run (step browserParse) .start
      (.call aliceJar.cookies :: opaqueRefresh)).map
      (fun q => q.calls[0]?.map fun c => (c.status, c.checkedAt)) =
      some (some (.done (.value none), some 1000)) := by decide +kernel
  have hc' : q.calls[0]? = some c := hc
  rw [hrun, Option.map_some, hc'] at hcall
  simp only [Option.map_some, Option.some.injEq, Prod.mk.injEq] at hcall
  obtain ⟨hstatus, hchecked⟩ := hcall
  obtain ⟨now, hnow, hended⟩ := hending _ hstatus
  rw [hchecked] at hnow
  cases hnow
  exact ⟨q, c, issued, hrun, hc', hstatus, hended⟩

/-- The grant's tokens are for no time at all. -/
def momentaryRefresh : List Event :=
  [.resume 0 1000, .discovered 0 true,
   .replied 0 (some ⟨"header.alice.signature", some "refresh-next", none, some 0⟩),
   .cookieStore 0 true, .released 0, .settle 0]

/-- A `Max-Age` of zero takes the cookie away that the call has set. -/
theorem momentary_session_not_stored :
    ∃ q c session, run (step browserParse) .start
        (.call aliceJar.cookies :: momentaryRefresh) = some q ∧
      q.calls[0]? = some c ∧ c.status = .done (.value (some session)) ∧ c.writes ≠ [] ∧
        (c.writes.foldl Jar.write aliceJar).cookies = ⟨none, some "refresh-next", none⟩ := by
  obtain ⟨q, hrun⟩ : ∃ q, run (step browserParse) .start
      (.call aliceJar.cookies :: momentaryRefresh) = some q :=
    Option.isSome_iff_exists.mp (by decide +kernel)
  have hcall : (run (step browserParse) .start
      (.call aliceJar.cookies :: momentaryRefresh)).map (fun q => q.calls[0]?) =
      some (some ⟨aliceJar.cookies, some 1000,
        .done (.value (some ⟨"header.alice.signature",
          ⟨"alice", "alice@example.com", "", "", [], 5000⟩⟩)),
        [.set "session" "header.alice.signature" 0,
          .set "refresh_token" "refresh-next" 2592000]⟩) := by
    decide +kernel
  rw [hrun, Option.map_some, Option.some.injEq] at hcall
  exact ⟨q, _, _, hrun, hcall, rfl, by simp, by decide⟩

end IsolatedEnv.Frontend
