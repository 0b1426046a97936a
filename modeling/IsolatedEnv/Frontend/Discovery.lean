import IsolatedEnv.Frontend.AuthServer

/-!
# The discovery document and its single request

`getAuthServer` keeps the provider's metadata for an hour and lets all callers
share one discovery request; when the request fails it falls back to what it
has.  A state of the model is the three module variables with the clock and
every call made so far, and an event is what happens between two `await`
points.  A response arrives in a task of its own, so nothing that a settled
promise has set in motion is left to do by then; everything else may happen at
any moment.
-/

namespace IsolatedEnv.Frontend

open IsolatedEnv.Foundation

/-- `doDiscovery` is suspended in `discoveryRequest` or `processDiscoveryResponse`. -/
inductive DiscoveryWork where
  | requesting
  | processing
  deriving DecidableEq, Repr

inductive Discovered (α : Type) where
  | metadata (server : α)
  | rejected
  deriving DecidableEq, Repr

inductive DiscoveryCall (α : Type) where
  | awaiting (promise : Nat)
  | done (outcome : Discovered α)
  deriving DecidableEq, Repr

/--
`as`, `asTimestamp` and `refreshPromise` are `_as`, `_asTimestamp` and
`_asRefreshPromise` with the promises it has held; each promise is one
request.  `successes` are the discoveries that have succeeded, with the
millisecond of each.
-/
structure Discovery (α : Type) where
  as : Option α
  asTimestamp : Int
  refreshPromise : Flight Unit DiscoveryWork (Discovered α)
  now : Int
  calls : List (DiscoveryCall α)
  successes : List (Int × α)
  deriving DecidableEq, Repr

inductive DiscoveryEvent (α : Type) where
  | call
  | responded (promise : Nat)
  | succeeded (promise : Nat) (server : α)
  | failed (promise : Nat)
  | released (promise : Nat)
  | settle (call : Nat)
  | tick (milliseconds : Nat)
  deriving DecidableEq, Repr

def asTtlMs : Int := 3600000

namespace Discovery

variable {α : Type}

def start (now : Int) : Discovery α := ⟨none, 0, .empty, now, [], []⟩

def getAuthServer (s : Discovery α) : Discovery α :=
  match s.as.filter fun _ => s.now - s.asTimestamp < asTtlMs with
  | some server => { s with calls := s.calls ++ [.done (.metadata server)] }
  | none =>
      let entered := s.refreshPromise.enter .requesting ()
      { s with
        refreshPromise := entered.1
        calls := s.calls ++ [.awaiting entered.2] }

/-- The `catch` clause: the cached value if there is one. -/
def staleOrRejected : Option α → Discovered α
  | some server => .metadata server
  | none => .rejected

abbrev DiscoveryStep (α : Type) :=
  Unit → DiscoveryWork → Option (DiscoveryWork ⊕ Discovered α)

def afterResponse : DiscoveryStep α
  | _, .requesting => some (.inl .processing)
  | _, .processing => none

def afterProcessing (server : α) : DiscoveryStep α
  | _, .processing => some (.inr (.metadata server))
  | _, .requesting => none

def afterFailure (as : Option α) : DiscoveryStep α
  | _, _ => some (.inr (staleOrRejected as))

def running (s : Discovery α) (promise : Nat) : Bool :=
  match s.refreshPromise.tasks[promise]? with
  | some ⟨_, .running _⟩ => true
  | _ => false

/-- No call waits for a promise that has settled. -/
def queueEmpty (s : Discovery α) : Bool :=
  s.calls.all fun
    | .awaiting promise => s.running promise
    | .done _ => true

def step (s : Discovery α) : DiscoveryEvent α → Option (Discovery α)
  | .call => some s.getAuthServer
  | .responded promise =>
      if s.queueEmpty then do
        let refreshPromise ← s.refreshPromise.advance promise afterResponse
        some { s with refreshPromise := refreshPromise }
      else none
  | .succeeded promise server => do
      let refreshPromise ← s.refreshPromise.advance promise (afterProcessing server)
      some { s with
        as := some server
        asTimestamp := s.now
        refreshPromise := refreshPromise
        successes := s.successes ++ [(s.now, server)] }
  | .failed promise => do
      let refreshPromise ← s.refreshPromise.advance promise (afterFailure s.as)
      some { s with refreshPromise := refreshPromise }
  | .released promise => do
      let refreshPromise ← s.refreshPromise.release promise
      some { s with refreshPromise := refreshPromise }
  | .settle i =>
      match s.calls[i]? with
      | some (.awaiting promise) => do
          let outcome ← s.refreshPromise.resolved promise
          some { s with calls := s.calls.set i (.done outcome) }
      | _ => none
  | .tick milliseconds => some { s with now := s.now + milliseconds }

/-! ## What is to hold -/

def latest (s : Discovery α) : Option α := s.successes.getLast?.map Prod.snd

def InFlight (s : Discovery α) (promise : Nat) : Prop :=
  ∃ work, s.refreshPromise.tasks[promise]? = some ⟨(), .running work⟩

def requests (s : Discovery α) : Nat := s.refreshPromise.tasks.length

/-- Call `i` settles in the step from `s` to `s'`. -/
def Settles (s s' : Discovery α) (i : Nat) (outcome : Discovered α) : Prop :=
  s'.calls[i]? = some (.done outcome) ∧ ∀ other, s.calls[i]? ≠ some (.done other)

def WithinHour (s : Discovery α) : Prop :=
  ∃ success ∈ s.successes, s.now - success.1 < asTtlMs

/-! ## The invariant -/

/--
A promise that has settled without its callback having run, and one that a
call still waits for, hold what a failing request would give now.  While a
response is processed all waiting calls wait for it.
-/
structure Inv (s : Discovery α) : Prop where
  exclusive : s.refreshPromise.Exclusive
  latest : s.as = s.latest
  stamped : ∀ success ∈ s.successes, success.1 ≤ s.asTimestamp
  elapsed : ∀ success ∈ s.successes, success.1 ≤ s.now
  settled : ∀ (i : Nat) t outcome, s.refreshPromise.tasks[i]? = some t →
    t.progress = .settled outcome → outcome = staleOrRejected s.as
  waits : ∀ i promise : Nat, s.calls[i]? = some (.awaiting promise) →
    ∃ t, s.refreshPromise.tasks[promise]? = some t ∧
      ∀ outcome, t.progress = .released outcome → outcome = staleOrRejected s.as
  processing : ∀ (promise : Nat) t, s.refreshPromise.tasks[promise]? = some t →
    t.progress = .running .processing →
      ∀ i other : Nat, s.calls[i]? = some (.awaiting other) → other = promise

theorem inv_start (now : Int) : (start now : Discovery α).Inv where
  exclusive := Flight.exclusive_empty
  latest := rfl
  stamped := by simp [start]
  elapsed := by simp [start]
  settled := by simp [start, Flight.empty]
  waits := by simp [start]
  processing := by simp [start]

variable {s s' : Discovery α}

/-- A call that ends at once, or one that joins the promise in the slot. -/
theorem Inv.addCall (h : s.Inv) {c : DiscoveryCall α}
    (hc : ∀ promise, c = .awaiting promise → s.refreshPromise.slot = some promise) :
    Inv { s with calls := s.calls ++ [c] } where
  exclusive := h.exclusive
  latest := h.latest
  stamped := h.stamped
  elapsed := h.elapsed
  settled := h.settled
  waits i promise hi := by
    rcases getElem?_append_new hi with hold | ⟨-, hnew⟩
    · exact h.waits i promise hold
    · have hslot := hc promise hnew.symm
      have hlt := h.exclusive.2 promise hslot
      have ht : s.refreshPromise.tasks[promise]? = some s.refreshPromise.tasks[promise] :=
        List.getElem?_eq_getElem hlt
      refine ⟨_, ht, fun outcome hreleased => ?_⟩
      have hunreleased := (h.exclusive.1 promise _ ht).mpr hslot
      rw [hreleased] at hunreleased
      cases hunreleased
  processing promise t ht hprocessing i other hi := by
    rcases getElem?_append_new hi with hold | ⟨-, hnew⟩
    · exact h.processing promise t ht hprocessing i other hold
    · have hslot := (h.exclusive.1 promise t ht).mp (by simp [hprocessing, Progress.isReleased])
      rw [hc other hnew.symm] at hslot
      exact Option.some.inj hslot

theorem Inv.newRequest (h : s.Inv) (hslot : s.refreshPromise.slot = none) :
    Inv { s with refreshPromise := (s.refreshPromise.enter .requesting ()).1 } := by
  have hexclusive := Flight.enter_exclusive h.exclusive .requesting ()
  rw [Flight.enter_of_free hslot] at hexclusive ⊢
  refine ⟨hexclusive, h.latest, h.stamped, h.elapsed, ?_, ?_, ?_⟩
  · intro i t outcome ht hsettled
    rcases getElem?_append_new ht with hold | ⟨-, rfl⟩
    · exact h.settled i t outcome hold hsettled
    · cases hsettled
  · intro i promise hi
    obtain ⟨t, ht, hreleased⟩ := h.waits i promise hi
    have hlt := (List.getElem?_eq_some_iff.mp ht).1
    exact ⟨t, by rw [List.getElem?_append_left hlt]; exact ht, hreleased⟩
  · intro promise t ht hprocessing
    rcases getElem?_append_new ht with hold | ⟨-, rfl⟩
    · exact h.processing promise t hold hprocessing
    · cases hprocessing

theorem getAuthServer_inv (h : s.Inv) : s.getAuthServer.Inv := by
  unfold getAuthServer
  split
  · exact h.addCall (fun promise hc => by cases hc)
  · cases hslot : s.refreshPromise.slot with
    | some i =>
        rw [Flight.enter_of_slot hslot]
        exact h.addCall (fun promise hc => by cases hc; exact hslot)
    | none =>
        refine (h.newRequest hslot).addCall (fun promise hc => ?_)
        rw [Flight.enter_of_free hslot] at hc ⊢
        cases hc
        rfl

/-- The task of one promise moves on while the cached value stays. -/
theorem Inv.setTask (h : s.Inv) {i : Nat} {new : Task Unit DiscoveryWork (Discovered α)}
    {slot : Option Nat}
    (hexclusive : (⟨s.refreshPromise.tasks.set i new, slot⟩ : Flight _ _ _).Exclusive)
    (hsettled : ∀ outcome, new.progress = .settled outcome ∨ new.progress = .released outcome →
      outcome = staleOrRejected s.as)
    (hprocessing : new.progress = .running .processing →
      ∀ j other : Nat, s.calls[j]? = some (.awaiting other) → other = i) :
    Inv { s with refreshPromise := ⟨s.refreshPromise.tasks.set i new, slot⟩ } where
  exclusive := hexclusive
  latest := h.latest
  stamped := h.stamped
  elapsed := h.elapsed
  settled j t outcome ht hprogress := by
    rcases getElem?_set_new ht with ⟨-, rfl⟩ | ⟨-, ht⟩
    · exact hsettled outcome (.inl hprogress)
    · exact h.settled j t outcome ht hprogress
  waits j promise hj := by
    obtain ⟨t, ht, hreleased⟩ := h.waits j promise hj
    by_cases hi : promise = i
    · subst hi
      have hlt := (List.getElem?_eq_some_iff.mp ht).1
      exact ⟨new, List.getElem?_set_self hlt,
        fun outcome hprogress => hsettled outcome (.inr hprogress)⟩
    · exact ⟨t, by rw [List.getElem?_set_ne (Ne.symm hi)]; exact ht, hreleased⟩
  processing promise t ht hprogress j other hj := by
    rcases getElem?_set_new ht with ⟨rfl, rfl⟩ | ⟨-, ht⟩
    · exact hprocessing hprogress j other hj
    · exact h.processing promise t ht hprogress j other hj

theorem running_of_queueEmpty (h : s.queueEmpty = true) {i promise : Nat}
    (hi : s.calls[i]? = some (.awaiting promise)) :
    ∃ work, s.refreshPromise.tasks[promise]? = some ⟨(), .running work⟩ := by
  have hrunning : s.running promise = true :=
    List.all_eq_true.mp h _ (List.mem_of_getElem? hi)
  unfold running at hrunning
  split at hrunning
  · rename_i arg work ht
    exact ⟨work, ht⟩
  · cases hrunning

def moveTask (s : Discovery α) (promise : Nat)
    (progress : Progress DiscoveryWork (Discovered α)) : Discovery α :=
  { s with
    refreshPromise :=
      { s.refreshPromise with tasks := s.refreshPromise.tasks.set promise ⟨(), progress⟩ } }

/-- What an event needs, and what it does. -/
inductive Stepped (s : Discovery α) : DiscoveryEvent α → Discovery α → Prop
  | call : Stepped s .call s.getAuthServer
  | responded {promise : Nat} (empty : s.queueEmpty = true)
      (task : s.refreshPromise.tasks[promise]? = some ⟨(), .running .requesting⟩) :
      Stepped s (.responded promise) (s.moveTask promise (.running .processing))
  | succeeded {promise : Nat} {server : α}
      (task : s.refreshPromise.tasks[promise]? = some ⟨(), .running .processing⟩) :
      Stepped s (.succeeded promise server)
        { s.moveTask promise (.settled (.metadata server)) with
          as := some server
          asTimestamp := s.now
          successes := s.successes ++ [(s.now, server)] }
  | failed {promise : Nat} {work : DiscoveryWork}
      (task : s.refreshPromise.tasks[promise]? = some ⟨(), .running work⟩) :
      Stepped s (.failed promise) (s.moveTask promise (.settled (staleOrRejected s.as)))
  | released {promise : Nat} {flight : Flight Unit DiscoveryWork (Discovered α)}
      (released : s.refreshPromise.release promise = some flight) :
      Stepped s (.released promise) { s with refreshPromise := flight }
  | settle {i promise : Nat} {outcome : Discovered α}
      (call : s.calls[i]? = some (.awaiting promise))
      (resolved : s.refreshPromise.resolved promise = some outcome) :
      Stepped s (.settle i) { s with calls := s.calls.set i (.done outcome) }
  | tick (milliseconds : Nat) :
      Stepped s (.tick milliseconds) { s with now := s.now + milliseconds }

theorem advance_work {promise : Nat} {work : DiscoveryStep α}
    {f : Flight Unit DiscoveryWork (Discovered α)}
    (h : s.refreshPromise.advance promise work = some f) :
    ∃ old next, s.refreshPromise.tasks[promise]? = some ⟨(), .running old⟩ ∧
      work () old = some next ∧
        { s with refreshPromise := f } =
          s.moveTask promise (next.elim .running .settled) := by
  obtain ⟨arg, old, ht, ⟨work', hwork, rfl⟩ | ⟨outcome, hwork, rfl⟩⟩ := Flight.advance_cases h
  · exact ⟨old, .inl work', ht, hwork, rfl⟩
  · exact ⟨old, .inr outcome, ht, hwork, rfl⟩

theorem stepped {e : DiscoveryEvent α} (hs : s.step e = some s') : Stepped s e s' := by
  cases e with
  | call => exact (Option.some.inj hs) ▸ .call
  | tick milliseconds => exact (Option.some.inj hs) ▸ .tick milliseconds
  | responded promise =>
      simp only [step, Option.bind_eq_bind] at hs
      split at hs
      case isFalse => cases hs
      case isTrue hempty =>
        obtain ⟨f, hf, heq⟩ := Option.bind_eq_some_iff.mp hs
        obtain ⟨old, next, ht, hwork, hmoved⟩ := advance_work hf
        cases old <;> cases hwork
        rw [← Option.some.inj heq, hmoved]
        exact .responded hempty ht
  | succeeded promise server =>
      obtain ⟨f, hf, heq⟩ := Option.bind_eq_some_iff.mp hs
      obtain ⟨old, next, ht, hwork, hmoved⟩ := advance_work hf
      cases old <;> cases hwork
      have hflight := congrArg refreshPromise hmoved
      dsimp only at hflight
      rw [← Option.some.inj heq, hflight]
      exact .succeeded ht
  | failed promise =>
      obtain ⟨f, hf, heq⟩ := Option.bind_eq_some_iff.mp hs
      obtain ⟨old, next, ht, hwork, hmoved⟩ := advance_work hf
      cases hwork
      rw [← Option.some.inj heq, hmoved]
      exact .failed ht
  | released promise =>
      obtain ⟨f, hf, heq⟩ := Option.bind_eq_some_iff.mp hs
      exact (Option.some.inj heq) ▸ .released hf
  | settle i =>
      simp only [step, Option.bind_eq_bind] at hs
      split at hs
      · rename_i promise hcall
        obtain ⟨outcome, houtcome, heq⟩ := Option.bind_eq_some_iff.mp hs
        exact (Option.some.inj heq) ▸ .settle hcall houtcome
      · cases hs

theorem Inv.responded (h : s.Inv) {promise : Nat} (hempty : s.queueEmpty = true)
    (ht : s.refreshPromise.tasks[promise]? = some ⟨(), .running .requesting⟩) :
    (s.moveTask promise (.running .processing)).Inv := by
  refine h.setTask (Flight.exclusive_set h.exclusive ht rfl) (by simp)
    (fun _ j other hj => ?_)
  obtain ⟨work, hother⟩ := running_of_queueEmpty hempty hj
  exact h.exclusive.eq_of_unreleased hother ht rfl rfl

theorem Inv.released (h : s.Inv) {promise : Nat}
    {f : Flight Unit DiscoveryWork (Discovered α)}
    (hf : s.refreshPromise.release promise = some f) :
    Inv { s with refreshPromise := f } := by
  have hexclusive := Flight.release_exclusive h.exclusive hf
  obtain ⟨arg, outcome, ht, rfl⟩ := Flight.release_cases hf
  have hfresh := h.settled promise _ outcome ht rfl
  exact h.setTask hexclusive (by simpa using hfresh) (by simp)

/-- Everyone who waits then waits for the promise of this discovery. -/
theorem Inv.succeeded (h : s.Inv) {promise : Nat} (server : α)
    (ht : s.refreshPromise.tasks[promise]? = some ⟨(), .running .processing⟩) :
    Inv { s.moveTask promise (.settled (.metadata server)) with
      as := some server
      asTimestamp := s.now
      successes := s.successes ++ [(s.now, server)] } := by
  have hlt := (List.getElem?_eq_some_iff.mp ht).1
  have hearlier : ∀ success ∈ s.successes ++ [(s.now, server)], success.1 ≤ s.now := by
    intro success hsuccess
    rcases List.mem_append.mp hsuccess with hold | hnew
    · exact h.elapsed success hold
    · simp [List.mem_singleton.mp hnew]
  refine ⟨Flight.exclusive_set h.exclusive ht rfl, by simp [Discovery.latest], hearlier, hearlier,
    ?_, ?_, ?_⟩
  · intro j t outcome htj hprogress
    rcases getElem?_set_new htj with ⟨-, rfl⟩ | ⟨hne, htj⟩
    · cases hprogress
      rfl
    · exact absurd (h.exclusive.eq_of_unreleased htj ht
        (by simp [hprogress, Progress.isReleased]) rfl) hne
  · intro j other hj
    obtain rfl := h.processing promise _ ht rfl j other hj
    exact ⟨_, List.getElem?_set_self hlt, by simp⟩
  · intro j t htj hprogress
    rcases getElem?_set_new htj with ⟨-, rfl⟩ | ⟨hne, htj⟩
    · cases hprogress
    · exact absurd (h.exclusive.eq_of_unreleased htj ht
        (by simp [hprogress, Progress.isReleased]) rfl) hne

theorem Inv.settle (h : s.Inv) (i : Nat) (outcome : Discovered α) :
    Inv { s with calls := s.calls.set i (.done outcome) } := by
  have hstill : ∀ j other : Nat,
      (s.calls.set i (.done outcome))[j]? = some (.awaiting other) →
        s.calls[j]? = some (.awaiting other) := by
    intro j other hj
    rcases getElem?_set_new hj with ⟨-, hnew⟩ | ⟨-, hold⟩
    · cases hnew
    · exact hold
  exact ⟨h.exclusive, h.latest, h.stamped, h.elapsed, h.settled,
    fun j other hj => h.waits j other (hstill j other hj),
    fun j t ht hprogress k other hk => h.processing j t ht hprogress k other (hstill k other hk)⟩

theorem Inv.tick (h : s.Inv) (milliseconds : Nat) :
    Inv { s with now := s.now + milliseconds } := by
  refine ⟨h.exclusive, h.latest, h.stamped, fun success hsuccess => ?_, h.settled, h.waits,
    h.processing⟩
  have hbefore := h.elapsed success hsuccess
  show success.1 ≤ s.now + milliseconds
  omega

theorem step_inv {e : DiscoveryEvent α} (h : s.Inv) (hs : s.step e = some s') : s'.Inv := by
  cases stepped hs with
  | call => exact getAuthServer_inv h
  | responded empty task => exact h.responded empty task
  | succeeded task => exact h.succeeded _ task
  | failed task =>
      exact h.setTask (Flight.exclusive_set h.exclusive task rfl) (by simp [eq_comm]) (by simp)
  | released released => exact h.released released
  | settle call resolved => exact h.settle _ _
  | tick milliseconds => exact h.tick milliseconds

theorem run_inv {now : Int} {es : List (DiscoveryEvent α)}
    (h : run step (start now) es = some s) : s.Inv :=
  run_invariant (fun _ _ _ => step_inv) (inv_start now) h

/-! ## What the calls get -/

theorem getAuthServer_as (s : Discovery α) : s.getAuthServer.as = s.as := by
  unfold getAuthServer
  split <;> rfl

theorem getAuthServer_done {i : Nat} {outcome : Discovered α}
    (hi : s.getAuthServer.calls[i]? = some (.done outcome)) :
    s.calls[i]? = some (.done outcome) ∨ outcome = staleOrRejected s.as := by
  unfold getAuthServer at hi
  split at hi
  · rename_i server hfilter
    have has : s.as = some server := (Option.filter_eq_some_iff.mp hfilter).1
    rcases getElem?_append_new hi with hold | ⟨-, hnew⟩
    · exact .inl hold
    · cases hnew
      exact .inr (by rw [has]; rfl)
  · rcases getElem?_append_new hi with hold | ⟨-, hnew⟩
    · exact .inl hold
    · cases hnew

/-- A call that settles gets what a failing request would give at that moment. -/
theorem done_cases {e : DiscoveryEvent α} (h : s.Inv) (hs : s.step e = some s') {i : Nat}
    {outcome : Discovered α} (hi : s'.calls[i]? = some (.done outcome)) :
    s.calls[i]? = some (.done outcome) ∨
      s'.as = s.as ∧ outcome = staleOrRejected s.as := by
  cases stepped hs with
  | call => exact (getAuthServer_done hi).imp id fun hnew => ⟨getAuthServer_as s, hnew⟩
  | settle call resolved =>
      rcases getElem?_set_new hi with ⟨-, hnew⟩ | ⟨-, hold⟩
      · cases hnew
        obtain ⟨arg, hreleased⟩ := Flight.resolved_eq_some.mp resolved
        obtain ⟨t, ht, hfresh⟩ := h.waits _ _ call
        rw [hreleased] at ht
        obtain rfl := Option.some.inj ht
        exact .inr ⟨rfl, hfresh _ rfl⟩
      · exact .inl hold
  | responded | succeeded | failed | released | tick => exact .inl hi

theorem settles_latest {e : DiscoveryEvent α} (h : s.Inv) (hs : s.step e = some s') {i : Nat}
    {server : α} (hi : Settles s s' i (.metadata server)) : s'.latest = some server := by
  rw [← (step_inv h hs).latest]
  rcases done_cases h hs hi.1 with hold | ⟨has, hfresh⟩
  · exact absurd hold (hi.2 _)
  · rw [has]
    cases hcached : s.as with
    | none => rw [hcached] at hfresh; cases hfresh
    | some cached => rw [hcached] at hfresh; cases hfresh; rfl

/-- The cached value is replaced but never dropped. -/
theorem as_isSome_step {e : DiscoveryEvent α} (hs : s.step e = some s')
    (has : s.as.isSome) : s'.as.isSome := by
  cases stepped hs with
  | call =>
      rw [getAuthServer_as]
      exact has
  | succeeded => rfl
  | responded | failed | released | settle | tick => exact has

theorem served_step {e : DiscoveryEvent α} (h : s.Inv) (has : s.as.isSome) {n : Nat}
    (hserved : ∀ i ≥ n, s.calls[i]? ≠ some (.done .rejected)) (hs : s.step e = some s') :
    ∀ i ≥ n, s'.calls[i]? ≠ some (.done .rejected) := by
  intro i hi hrejected
  rcases done_cases h hs hrejected with hold | ⟨-, hfresh⟩
  · exact hserved i hi hold
  · obtain ⟨cached, hcached⟩ := Option.isSome_iff_exists.mp has
    rw [hcached] at hfresh
    cases hfresh

theorem served_run {later : List (DiscoveryEvent α)} (h : s.Inv) (has : s.as.isSome)
    (hrun : run step s later = some s') :
    ∀ i ≥ s.calls.length, s'.calls[i]? ≠ some (.done .rejected) := by
  have hnone : ∀ i ≥ s.calls.length, s.calls[i]? ≠ some (.done .rejected) := by
    intro i hi
    simp [List.getElem?_eq_none hi]
  let inv (t : Discovery α) : Prop :=
    t.Inv ∧ t.as.isSome ∧ ∀ i ≥ s.calls.length, t.calls[i]? ≠ some (.done .rejected)
  have hstep : ∀ t e t', inv t → step t e = some t' → inv t' :=
    fun t e t' ht hs =>
      ⟨step_inv ht.1 hs, as_isSome_step hs ht.2.1, served_step ht.1 ht.2.1 ht.2.2 hs⟩
  exact (run_invariant hstep (s := s) ⟨h, has, hnone⟩ hrun).2.2

theorem requests_withinHour (h : s.Inv) (hhour : s.WithinHour) :
    s.getAuthServer.requests = s.requests := by
  obtain ⟨success, hsuccess, hage⟩ := hhour
  have hstamped := h.stamped success hsuccess
  have hfresh : s.now - s.asTimestamp < asTtlMs := by omega
  have has : s.as.isSome := by
    rw [h.latest, latest, Option.isSome_map, List.getLast?_isSome]
    exact List.ne_nil_of_mem hsuccess
  obtain ⟨cached, hcached⟩ := Option.isSome_iff_exists.mp has
  simp [getAuthServer, requests, hcached, hfresh, Option.filter]

theorem released_call_settles {i promise : Nat} {outcome : Discovered α}
    (hi : s.calls[i]? = some (.awaiting promise))
    (ht : s.refreshPromise.tasks[promise]? = some ⟨(), .released outcome⟩) :
    ∃ s', run step s [.settle i] = some s' ∧ s'.calls[i]? = some (.done outcome) := by
  have hlt := (List.getElem?_eq_some_iff.mp hi).1
  refine ⟨{ s with calls := s.calls.set i (.done outcome) }, ?_, List.getElem?_set_self hlt⟩
  simp [run, step, hi, Flight.resolved, ht]

theorem settled_call_settles {i promise : Nat} {outcome : Discovered α}
    (hi : s.calls[i]? = some (.awaiting promise))
    (ht : s.refreshPromise.tasks[promise]? = some ⟨(), .settled outcome⟩) :
    ∃ s', run step s [.released promise, .settle i] = some s' ∧
      s'.calls[i]? = some (.done outcome) := by
  have hlt := (List.getElem?_eq_some_iff.mp ht).1
  let tasks := s.refreshPromise.tasks.set promise ⟨(), .released outcome⟩
  obtain ⟨s', hrun, hdone⟩ :=
    released_call_settles (s := { s with refreshPromise := ⟨tasks, none⟩ }) hi
      (List.getElem?_set_self hlt)
  refine ⟨s', ?_, hdone⟩
  simpa [run, step, Flight.release, ht] using hrun

/-- Even when its request gets no answer but fails, a call is told. -/
theorem waiting_call_settles (h : s.Inv) {i promise : Nat}
    (hi : s.calls[i]? = some (.awaiting promise)) :
    ∃ later s' outcome, run step s later = some s' ∧
      s'.calls[i]? = some (.done outcome) := by
  obtain ⟨⟨arg, progress⟩, ht, -⟩ := h.waits i promise hi
  cases progress with
  | released outcome =>
      obtain ⟨s', hrun, hdone⟩ := released_call_settles hi ht
      exact ⟨_, s', outcome, hrun, hdone⟩
  | settled outcome =>
      obtain ⟨s', hrun, hdone⟩ := settled_call_settles hi ht
      exact ⟨_, s', outcome, hrun, hdone⟩
  | running work =>
      have hlt := (List.getElem?_eq_some_iff.mp ht).1
      let outcome := staleOrRejected s.as
      let tasks := s.refreshPromise.tasks.set promise ⟨(), .settled outcome⟩
      let failed : Discovery α :=
        { s with refreshPromise := { s.refreshPromise with tasks := tasks } }
      have hsettled : failed.refreshPromise.tasks[promise]? = some ⟨(), .settled outcome⟩ :=
        List.getElem?_set_self hlt
      have hfailed : step s (.failed promise) = some failed := by
        simp [step, Flight.advance, ht, afterFailure, failed, tasks, outcome]
      have hwaiting : failed.calls[i]? = some (.awaiting promise) := hi
      obtain ⟨s', hrun, hdone⟩ := settled_call_settles hwaiting hsettled
      exact ⟨_, s', outcome, run_cons_eq_some.mpr ⟨failed, hfailed, hrun⟩, hdone⟩

/--
Over every run: one request at a time, no rejection after a success, the
latest metadata for every call that returns, no request within an hour of a
success; and a call that waits is always on the way to settling.
-/
theorem getAuthServer_single_flight {now : Int} {es : List (DiscoveryEvent α)}
    (h : run step (start now) es = some s) :
    (∀ i j, s.InFlight i → s.InFlight j → i = j) ∧
      (s.successes ≠ [] → ∀ later s', run step s later = some s' →
        ∀ i ≥ s.calls.length, s'.calls[i]? ≠ some (.done .rejected)) ∧
      (∀ e s', s.step e = some s' → ∀ i server, Settles s s' i (.metadata server) →
        s'.latest = some server) ∧
      (s.WithinHour → ∀ s', s.step .call = some s' → s'.requests = s.requests) ∧
      ∀ i promise : Nat, s.calls[i]? = some (.awaiting promise) →
        ∃ later s' outcome, run step s later = some s' ∧
          s'.calls[i]? = some (.done outcome) := by
  have hinv := run_inv h
  refine ⟨?_, ?_, ?_, ?_, ?_⟩
  · rintro i j ⟨work, hi⟩ ⟨other, hj⟩
    exact hinv.exclusive.eq_of_unreleased hi hj rfl rfl
  · intro hsuccess later s' hrun
    refine served_run hinv ?_ hrun
    simpa [hinv.latest, latest] using hsuccess
  · intro e s' hs i server hi
    exact settles_latest hinv hs hi
  · intro hhour s' hs
    exact (Option.some.inj hs) ▸ requests_withinHour hinv hhour
  · intro i promise hi
    exact waiting_call_settles hinv hi

/-- A first discovery for two calls, and an hour later one that fails. -/
def renewal : List (DiscoveryEvent String) :=
  [.call, .call, .responded 0, .succeeded 0 "metadata", .released 0, .settle 0,
    .settle 1, .tick 3600000, .call, .failed 1, .released 1, .settle 2]

theorem getAuthServer_single_flight_renewal :
    ∃ s, run step (start 0) renewal = some s ∧ s.latest = some "metadata" ∧
      ∀ later s', run step s later = some s' →
        ∀ i ≥ 3, s'.calls[i]? ≠ some (.done .rejected) := by
  obtain ⟨s, hrun⟩ : ∃ s, run step (start 0) renewal = some s :=
    Option.isSome_iff_exists.mp (by decide)
  have hstate : (run step (start 0) renewal).map
      (fun s => (s.successes, s.latest, s.calls.length)) =
        some ([(0, "metadata")], some "metadata", 3) := by decide
  rw [hrun] at hstate
  simp only [Option.map_some, Option.some.injEq, Prod.mk.injEq] at hstate
  obtain ⟨hsuccesses, hlatest, hcalls⟩ := hstate
  have hserved := (getAuthServer_single_flight hrun).2.1 (by simp [hsuccesses])
  rw [hcalls] at hserved
  exact ⟨s, hrun, hlatest, hserved⟩

end Discovery

end IsolatedEnv.Frontend
