import IsolatedEnv.Frontend.SessionIsolation

/-!
# How often a refresh token is granted

The shared promise is forgotten as soon as it has settled.  A call that comes later with
the same cookie starts a refresh of its own, and an endpoint that rotates its tokens
refuses it.
-/

namespace IsolatedEnv.Frontend

open IsolatedEnv.Foundation

/-- A refresh that has sent its grant and has not failed since. -/
def Granting : Progress RefreshWork Settled → Bool
  | .running .requesting | .running (.storing _) => true
  | .settled (.value (some _)) | .released (.value (some _)) => true
  | _ => false

/-- A call that starts a refresh has a token for which no grant was sent. -/
def StartsFresh (parse : ParsePart) (p : Process) : Event → Prop
  | .resume i now =>
      p.flight.slot = none → ∀ c ∈ p.calls[i]?, ownSession parse c.cookies now = none →
        ∀ refreshToken ∈ truthy c.cookies.refreshToken,
          refreshToken ∉ p.grants.map Prod.snd
  | _ => True

instance startsFresh_decidable (parse : ParsePart) (p : Process) :
    DecidablePred (StartsFresh parse p)
  | .resume i now =>
      inferInstanceAs (Decidable (p.flight.slot = none → ∀ c ∈ p.calls[i]?,
        ownSession parse c.cookies now = none →
          ∀ refreshToken ∈ truthy c.cookies.refreshToken,
            refreshToken ∉ p.grants.map Prod.snd))
  | .call _ | .discovered _ _ | .replied _ _ | .cookieStore _ _ | .released _
  | .settle _ => isTrue trivial

/-- The endpoint was sent at most one grant for each refresh token. -/
def GrantedOnce (p : Process) : Prop := (p.grants.map Prod.snd).Nodup

/-- A refresh with the token has given a session. -/
def Refreshed (p : Process) (refreshToken : String) : Prop :=
  ∃ (i : Nat) (arg : RefreshArg) (session : SessionData),
    arg.refreshToken = refreshToken ∧
      (p.flight.tasks[i]? = some ⟨arg, .settled (.value (some session))⟩ ∨
        p.flight.tasks[i]? = some ⟨arg, .released (.value (some session))⟩)

/-- A call that clears the cookies does not do so after a refresh with its token. -/
def ClearsUnrefreshed (p : Process) : Event → Prop
  | .cookieStore promise true => ∀ arg, p.underWay promise = some (arg, .clearing) →
      ¬Refreshed p arg.refreshToken
  | _ => True

/-! ## What a step does to the promises and the grants -/

inductive FlightStep (p q : Process) : Prop
  | same (flight : q.flight = p.flight) (grants : q.grants = p.grants)
  | entered (arg : RefreshArg) (free : p.flight.slot = none)
      (unused : arg.refreshToken ∉ p.grants.map Prod.snd)
      (flight : q.flight = (p.flight.enter .discovering arg).1) (grants : q.grants = p.grants)
  | granted (i : Nat) (arg : RefreshArg)
      (task : p.flight.tasks[i]? = some ⟨arg, .running .discovering⟩)
      (flight : q.flight =
        { p.flight with tasks := p.flight.tasks.set i ⟨arg, .running .requesting⟩ })
      (grants : q.grants = p.grants ++ [(i, arg.refreshToken)])
  | moved (i : Nat) (arg : RefreshArg) (old new : Progress RefreshWork Settled)
      (task : p.flight.tasks[i]? = some ⟨arg, old⟩)
      (exclusive : p.flight.Exclusive → q.flight.Exclusive)
      (tasks : q.flight.tasks = p.flight.tasks.set i ⟨arg, new⟩)
      (grants : q.grants = p.grants) (later : new ≠ .running .discovering)
      (unreleased : new.isReleased = false → old.isReleased = false)
      (granting : Granting new = true → Granting old = true)

variable {parse : ParsePart} {p q : Process}

theorem resumeCall_flightStep {i : Nat} {c : Call} {now : Int} (hc : p.calls[i]? = some c)
    (hfresh : StartsFresh parse p (.resume i now)) :
    FlightStep p (resumeCall parse p i c now) := by
  unfold resumeCall
  cases hown : ownSession parse c.cookies now with
  | some session => exact .same rfl rfl
  | none =>
      dsimp only
      cases hr : truthy c.cookies.refreshToken with
      | none => exact .same rfl rfl
      | some refreshToken =>
          cases hslot : p.flight.slot with
          | some k => exact .same (by simp [Flight.enter_of_slot hslot]) rfl
          | none =>
              exact .entered ⟨refreshToken, i⟩ hslot
                (hfresh hslot c hc hown refreshToken hr) rfl rfl

theorem granting_released (outcome : Settled) :
    Granting (.released outcome) = Granting (.settled outcome) := by
  rcases outcome with (_ | session) | _ <;> rfl

section AfterCookies

variable {writable : Bool} {arg : RefreshArg} {work : RefreshWork}

theorem afterCookies_settled {outcome : Settled}
    (h : afterCookies parse writable arg work = some (.inr outcome))
    (hgranting : Granting (.settled outcome) = true) : Granting (.running work) = true := by
  cases work with
  | storing tokens => rfl
  | clearing =>
      simp only [afterCookies] at h
      split at h <;> cases h <;> cases hgranting
  | discovering | requesting => cases h

end AfterCookies

/-- A stage that ends with its work neither sends a grant nor goes back. -/
theorem flightStep_of_advance {i : Nat} {advanced : RefreshStep}
    (hflight : p.flight.advance i advanced = some q.flight) (hgrants : q.grants = p.grants)
    (hwork : ∀ arg work work', advanced arg work = some (.inl work') →
      work' ≠ .discovering ∧
        (Granting (.running work') = true → Granting (.running work) = true))
    (hsettle : ∀ arg work outcome, advanced arg work = some (.inr outcome) →
      Granting (.settled outcome) = true → Granting (.running work) = true) :
    FlightStep p q := by
  have hexclusive : p.flight.Exclusive → q.flight.Exclusive := fun h =>
    Flight.advance_exclusive h hflight
  obtain ⟨arg, work, htask, ⟨work', hadvanced, heq⟩ | ⟨outcome, hadvanced, heq⟩⟩ :=
    Flight.advance_cases hflight
  · obtain ⟨hlater, hgranting⟩ := hwork arg work work' hadvanced
    exact .moved i arg (.running work) (.running work') htask hexclusive
      (congrArg Flight.tasks heq) hgrants (by simpa using hlater) (fun _ => rfl) hgranting
  · exact .moved i arg (.running work) (.settled outcome) htask hexclusive
      (congrArg Flight.tasks heq) hgrants nofun (fun _ => rfl)
      (hsettle arg work outcome hadvanced)

theorem step_flightStep {e : Event} (hfresh : StartsFresh parse p e)
    (hq : step parse p e = some q) : FlightStep p q := by
  cases stepped hq with
  | call cookies => exact .same rfl rfl
  | resume now hc hreading => exact resumeCall_flightStep hc hfresh
  | @discovered promise ok arg work flight htask hflight =>
      cases ok with
      | false =>
          refine flightStep_of_advance hflight rfl ?_ ?_
          · rintro arg' work' next hnext
            cases work' <;> simp [afterDiscovery] at hnext
            subst hnext
            simp [Granting]
          · rintro arg' work' outcome hnext
            cases work' <;> simp [afterDiscovery] at hnext
      | true =>
          obtain ⟨arg', work', htask', ⟨next, hnext, heq⟩ | ⟨outcome, hnext, -⟩⟩ :=
            Flight.advance_cases hflight
          · rw [htask] at htask'
            cases htask'
            cases work <;> simp [afterDiscovery] at hnext
            subst hnext
            exact .granted promise arg htask heq rfl
          · cases work' <;> simp [afterDiscovery] at hnext
  | @replied promise reply flight hflight =>
      refine flightStep_of_advance hflight rfl ?_ ?_
      · rintro arg work next hnext
        cases work <;> cases reply <;> simp [afterReply] at hnext
        all_goals
          subst hnext
          simp [Granting]
      · rintro arg work outcome hnext
        cases work <;> cases reply <;> simp [afterReply] at hnext
  | cookieStore htask hflight =>
      refine flightStep_of_advance hflight rfl ?_ ?_
      · rintro arg work next hnext
        rw [afterCookies_work hnext]
        simp [Granting]
      · exact fun arg work outcome hnext => afterCookies_settled hnext
  | @released promise flight hflight =>
      obtain ⟨arg, outcome, htask, heq⟩ := Flight.release_cases hflight
      exact .moved promise arg (.settled outcome) (.released outcome) htask
        (fun h => Flight.release_exclusive h hflight) (congrArg Flight.tasks heq) rfl
        (by intro h; cases h) (by intro h; cases h)
        (fun h => (granting_released outcome).symm.trans h)
  | settle hc hstatus hresolved => exact .same rfl rfl

/-! ## The invariant -/

structure GrantsSound (p : Process) : Prop where
  exclusive : p.flight.Exclusive
  once : GrantedOnce p
  bound : ∀ grant ∈ p.grants, grant.1 < p.flight.tasks.length
  unsent : ∀ (i : Nat) arg, p.flight.tasks[i]? = some ⟨arg, .running .discovering⟩ →
    ∀ refreshToken, (i, refreshToken) ∉ p.grants
  own : ∀ (i : Nat) arg progress, p.flight.tasks[i]? = some ⟨arg, progress⟩ →
    progress.isReleased = false → ∀ j, (j, arg.refreshToken) ∈ p.grants → j = i
  sent : ∀ (i : Nat) arg progress, p.flight.tasks[i]? = some ⟨arg, progress⟩ →
    Granting progress = true → (i, arg.refreshToken) ∈ p.grants

theorem grantsSound_start : GrantsSound .start where
  exclusive := Flight.exclusive_empty
  once := List.nodup_nil
  bound := by simp [Process.start]
  unsent := by simp [Process.start]
  own := by simp [Process.start, Flight.empty]
  sent := by simp [Process.start, Flight.empty]

namespace GrantsSound

theorem entered (h : GrantsSound p) {arg : RefreshArg} (hfree : p.flight.slot = none)
    (hunused : arg.refreshToken ∉ p.grants.map Prod.snd)
    (hflight : q.flight = (p.flight.enter .discovering arg).1) (hgrants : q.grants = p.grants) :
    GrantsSound q := by
  have hexclusive := Flight.enter_exclusive h.exclusive .discovering arg
  rw [← hflight] at hexclusive
  rw [Flight.enter_of_free hfree] at hflight
  have htask {i : Nat} {a : RefreshArg} {progress : Progress RefreshWork Settled}
      (hi : q.flight.tasks[i]? = some ⟨a, progress⟩) :
      p.flight.tasks[i]? = some ⟨a, progress⟩ ∨
        i = p.flight.tasks.length ∧ a = arg ∧ progress = .running .discovering := by
    rw [hflight] at hi
    rcases getElem?_append_new hi with hold | ⟨rfl, hnew⟩
    · exact .inl hold
    · cases hnew
      exact .inr ⟨rfl, rfl, rfl⟩
  refine ⟨hexclusive, ?_, ?_, ?_, ?_, ?_⟩
  · unfold GrantedOnce
    rw [hgrants]
    exact h.once
  · intro grant hgrant
    rw [hgrants] at hgrant
    have hlt := h.bound grant hgrant
    rw [hflight, List.length_append]
    omega
  · intro i a hi refreshToken hgrant
    rw [hgrants] at hgrant
    rcases htask hi with hold | ⟨rfl, -, -⟩
    · exact h.unsent i a hold refreshToken hgrant
    · exact absurd (h.bound _ hgrant) (Nat.lt_irrefl _)
  · intro i a progress hi hunreleased j hgrant
    rw [hgrants] at hgrant
    rcases htask hi with hold | ⟨-, rfl, -⟩
    · exact h.own i a progress hold hunreleased j hgrant
    · exact absurd (List.mem_map_of_mem hgrant) hunused
  · intro i a progress hi hgranting
    rw [hgrants]
    rcases htask hi with hold | ⟨-, -, rfl⟩
    · exact h.sent i a progress hold hgranting
    · cases hgranting

theorem granted (h : GrantsSound p) {i : Nat} {arg : RefreshArg}
    (htask : p.flight.tasks[i]? = some ⟨arg, .running .discovering⟩)
    (hflight : q.flight =
      { p.flight with tasks := p.flight.tasks.set i ⟨arg, .running .requesting⟩ })
    (hgrants : q.grants = p.grants ++ [(i, arg.refreshToken)]) : GrantsSound q := by
  have hnew : arg.refreshToken ∉ p.grants.map Prod.snd := by
    intro hmem
    obtain ⟨⟨j, refreshToken⟩, hgrant, rfl⟩ := List.mem_map.mp hmem
    have hown := h.own i arg _ htask rfl j hgrant
    exact h.unsent i arg htask _ (hown ▸ hgrant)
  have hexclusive : q.flight.Exclusive := by
    rw [hflight]
    exact Flight.exclusive_set h.exclusive htask rfl
  -- two promises that are not released are the one in the slot
  have hslot {k : Nat} {a : RefreshArg} {progress : Progress RefreshWork Settled}
      (hk : p.flight.tasks[k]? = some ⟨a, progress⟩) (hunreleased : progress.isReleased = false) :
      k = i := by
    have hki := (h.exclusive.1 k _ hk).mp hunreleased
    rw [(h.exclusive.1 i _ htask).mp rfl] at hki
    exact (Option.some.inj hki).symm
  have hcases {k : Nat} {a : RefreshArg} {progress : Progress RefreshWork Settled}
      (hk : q.flight.tasks[k]? = some ⟨a, progress⟩) :
      k = i ∧ a = arg ∧ progress = .running .requesting ∨
        k ≠ i ∧ p.flight.tasks[k]? = some ⟨a, progress⟩ := by
    rw [hflight] at hk
    rcases getElem?_set_new hk with ⟨rfl, hsame⟩ | hother
    · cases hsame
      exact .inl ⟨rfl, rfl, rfl⟩
    · exact .inr hother
  refine ⟨hexclusive, ?_, ?_, ?_, ?_, ?_⟩
  · unfold GrantedOnce
    rw [hgrants, List.map_append, List.nodup_append]
    refine ⟨h.once, by simp, ?_⟩
    rintro refreshToken hmem _ hlast rfl
    rw [List.map_singleton, List.mem_singleton] at hlast
    have hsame : refreshToken = arg.refreshToken := hlast
    rw [hsame] at hmem
    exact hnew hmem
  · intro grant hgrant
    have hlt := (List.getElem?_eq_some_iff.mp htask).1
    rw [hflight, List.length_set]
    rw [hgrants] at hgrant
    rcases List.mem_append.mp hgrant with hold | hlast
    · exact h.bound grant hold
    · rw [List.mem_singleton.mp hlast]
      exact hlt
  · intro k a hk refreshToken hgrant
    rcases hcases hk with ⟨-, -, hprogress⟩ | ⟨hki, hold⟩
    · cases hprogress
    · exact hki (hslot hold rfl)
  · intro k a progress hk hunreleased j hgrant
    rw [hgrants] at hgrant
    have hki : k = i ∧ a = arg := by
      rcases hcases hk with ⟨rfl, rfl, -⟩ | ⟨hki, hold⟩
      · exact ⟨rfl, rfl⟩
      · exact absurd (hslot hold hunreleased) hki
    obtain ⟨rfl, rfl⟩ := hki
    rcases List.mem_append.mp hgrant with hold | hlast
    · exact absurd (List.mem_map_of_mem hold) hnew
    · exact congrArg Prod.fst (List.mem_singleton.mp hlast)
  · intro k a progress hk hgranting
    rw [hgrants]
    rcases hcases hk with ⟨rfl, rfl, -⟩ | ⟨-, hold⟩
    · simp
    · exact List.mem_append_left _ (h.sent k a progress hold hgranting)

theorem moved (h : GrantsSound p) {i : Nat} {arg : RefreshArg}
    {old new : Progress RefreshWork Settled}
    (htask : p.flight.tasks[i]? = some ⟨arg, old⟩)
    (hexclusive : p.flight.Exclusive → q.flight.Exclusive)
    (htasks : q.flight.tasks = p.flight.tasks.set i ⟨arg, new⟩)
    (hgrants : q.grants = p.grants) (hlater : new ≠ .running .discovering)
    (hunreleased : new.isReleased = false → old.isReleased = false)
    (hgranting : Granting new = true → Granting old = true) : GrantsSound q := by
  have hcases {k : Nat} {a : RefreshArg} {progress : Progress RefreshWork Settled}
      (hk : q.flight.tasks[k]? = some ⟨a, progress⟩) :
      k = i ∧ a = arg ∧ progress = new ∨ p.flight.tasks[k]? = some ⟨a, progress⟩ := by
    rw [htasks] at hk
    rcases getElem?_set_new hk with ⟨rfl, hsame⟩ | ⟨-, hold⟩
    · cases hsame
      exact .inl ⟨rfl, rfl, rfl⟩
    · exact .inr hold
  refine ⟨hexclusive h.exclusive, ?_, ?_, ?_, ?_, ?_⟩
  · unfold GrantedOnce
    rw [hgrants]
    exact h.once
  · intro grant hgrant
    rw [hgrants] at hgrant
    rw [htasks, List.length_set]
    exact h.bound grant hgrant
  · intro k a hk refreshToken hgrant
    rw [hgrants] at hgrant
    rcases hcases hk with ⟨-, -, hprogress⟩ | hold
    · exact hlater hprogress.symm
    · exact h.unsent k a hold refreshToken hgrant
  · intro k a progress hk hreleased j hgrant
    rw [hgrants] at hgrant
    rcases hcases hk with ⟨rfl, rfl, rfl⟩ | hold
    · exact h.own k a old htask (hunreleased hreleased) j hgrant
    · exact h.own k a progress hold hreleased j hgrant
  · intro k a progress hk hsent
    rw [hgrants]
    rcases hcases hk with ⟨rfl, rfl, rfl⟩ | hold
    · exact h.sent k a old htask (hgranting hsent)
    · exact h.sent k a progress hold hsent

theorem step (h : GrantsSound p) (hstep : FlightStep p q) : GrantsSound q := by
  cases hstep with
  | same flight grants =>
      obtain ⟨hexclusive, honce, hbound, hunsent, hown, hsent⟩ := h
      unfold GrantedOnce at honce
      rw [← grants] at honce hbound hunsent hown hsent
      rw [← flight] at hexclusive hbound hunsent hown hsent
      exact ⟨hexclusive, honce, hbound, hunsent, hown, hsent⟩
  | entered arg free unused flight grants => exact h.entered free unused flight grants
  | granted i arg task flight grants => exact h.granted task flight grants
  | moved i arg old new task exclusive tasks grants later unreleased granting =>
      exact h.moved task exclusive tasks grants later unreleased granting

/-- A refresh that clears the cookies and one that gave a session have different tokens. -/
theorem clearsUnrefreshed (h : GrantsSound p) (e : Event) : ClearsUnrefreshed p e := by
  cases e with
  | cookieStore promise writable =>
      cases writable with
      | false => trivial
      | true =>
          rintro arg hunder ⟨i, arg', session, hsame, hrefreshed⟩
          have htask := underWay_eq_some hunder
          have hsent : (i, arg'.refreshToken) ∈ p.grants := by
            rcases hrefreshed with hi | hi
            · exact h.sent i arg' _ hi rfl
            · exact h.sent i arg' _ hi rfl
          rw [hsame] at hsent
          have hi := h.own promise arg _ htask rfl i hsent
          rw [hi, htask] at hrefreshed
          rcases hrefreshed with heq | heq <;> cases heq
  | call | resume | discovered | replied | released | settle => trivial

end GrantsSound

/--
In every run in which no call starts a refresh with a token that was granted before, each
token is granted at most once, and no call clears its cookies after a refresh with its
token has given a session.
-/
theorem refresh_tokens_used_once {events : List Event} {p : Process}
    (hrun : run (step parse) .start events = some p)
    (hfresh : Along (step parse) (StartsFresh parse) .start events) :
    GrantedOnce p ∧ Along (step parse) ClearsUnrefreshed .start events := by
  have hstep : ∀ s e s', GrantsSound s → StartsFresh parse s e → step parse s e = some s' →
      GrantsSound s' := fun _ _ _ hs hguard hs' => hs.step (step_flightStep hguard hs')
  exact ⟨(run_invariant_along hstep grantsSound_start hfresh hrun).once,
    along_of_invariant hstep (fun _ e hs _ => hs.clearsUnrefreshed e) grantsSound_start hfresh⟩

/-- Two renders of one page: the second joins the refresh that the first has started. -/
def parallelRenders : List Event :=
  [.call (browserCookies "alice"), .call (browserCookies "alice"),
   .resume 0 1000, .discovered 0 true, .resume 1 1000,
   .replied 0 (some (browserTokens "alice")), .cookieStore 0 true,
   .released 0, .settle 0, .settle 1]

/-- The second call resumes once the first is done, with the cookies that the browser had. -/
def lateRender : List Event :=
  [.call (browserCookies "alice"), .call (browserCookies "alice"),
   .resume 0 1000, .discovered 0 true,
   .replied 0 (some (browserTokens "alice")), .cookieStore 0 true,
   .released 0, .settle 0, .resume 1 1000, .discovered 1 true,
   .replied 1 none, .cookieStore 1 true, .released 1, .settle 1]

theorem parallel_renders_grant_once :
    ∃ p, run (step browserParse) .start parallelRenders = some p ∧
      p.grants.length = 1 ∧ GrantedOnce p ∧
      Along (step browserParse) ClearsUnrefreshed .start parallelRenders := by
  obtain ⟨p, hrun⟩ : ∃ p, run (step browserParse) .start parallelRenders = some p :=
    Option.isSome_iff_exists.mp (by decide +kernel)
  have hlength : (run (step browserParse) .start parallelRenders).map
      (fun p => p.grants.length) = some 1 := by decide +kernel
  rw [hrun] at hlength
  exact ⟨p, hrun, Option.some.inj hlength, refresh_tokens_used_once hrun (by decide +kernel)⟩

theorem late_render_clears_cookies :
    ∃ p, run (step browserParse) .start lateRender = some p ∧ ¬ GrantedOnce p ∧
      Refreshed p "refresh-alice" ∧
      p.calls[1]?.map (fun c => (c.status, c.writes)) =
        some (CallStatus.done (.value none), clearSessionCookies) := by
  obtain ⟨p, hrun⟩ : ∃ p, run (step browserParse) .start lateRender = some p :=
    Option.isSome_iff_exists.mp (by decide +kernel)
  have hgrants : (run (step browserParse) .start lateRender).map Process.grants =
      some [(0, "refresh-alice"), (1, "refresh-alice")] := by decide +kernel
  have htask : (run (step browserParse) .start lateRender).map
      (fun p => p.flight.tasks[0]?) = some (some ⟨⟨"refresh-alice", 0⟩,
        .released (.value (some ⟨"header.alice.signature",
          ⟨"alice", "alice@example.com", "", "", [], 5000⟩⟩))⟩) := by
    decide +kernel
  have hcall : (run (step browserParse) .start lateRender).map
      (fun p => p.calls[1]?.map (fun c => (c.status, c.writes))) =
        some (some (CallStatus.done (.value none), clearSessionCookies)) := by
    decide +kernel
  simp only [hrun, Option.map_some, Option.some.injEq] at hgrants htask hcall
  refine ⟨p, hrun, ?_, ⟨0, _, _, rfl, .inr htask⟩, hcall⟩
  intro honce
  rw [GrantedOnce, hgrants] at honce
  exact absurd honce (by decide)

end IsolatedEnv.Frontend
