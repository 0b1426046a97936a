import IsolatedEnv.Foundation.Expiring
import IsolatedEnv.Foundation.Run

/-!
# Concurrent calls of `cached`

Each call to Redis and each fetch is a step of its own, so that the callers
interleave in any way and a fetch takes as long as it takes.  Time is counted in
milliseconds.  A lock is kept with the caller that set it, which the value `"1"`
of the source does not tell; `invalidate` never reaches a lock, whose key starts
with `lock:`.
-/

namespace IsolatedEnv.Backend

open IsolatedEnv.Foundation

/-! ## Redis -/

/-- A call that is lost takes effect, but its caller gets an exception. -/
inductive CallResult where
  | done
  | failed
  | lost
  deriving DecidableEq, Repr

structure Redis (α : Type) where
  now : Nat
  values : Expiring String α
  locks : Expiring String Nat

namespace Redis

variable {α : Type}

def start : Redis α := ⟨0, .empty, .empty⟩

def get (redis : Redis α) (call : CallResult) (key : String) : Option α :=
  if call = .done then redis.values.live redis.now key else none

/-- `ex=10` of the lock. -/
def lockTime : Nat := 10000

/-- `set(lock_key, "1", nx=True, ex=10)`, and what its caller is told. -/
def lock (redis : Redis α) (call : CallResult) (key : String) (owner : Nat) :
    Bool × Redis α :=
  if call = .failed ∨ (redis.locks.live redis.now key).isSome then (false, redis)
  else
    (call = .done,
      { redis with locks := redis.locks.set key owner (redis.now + lockTime) })

def store (redis : Redis α) (call : CallResult) (key : String) (value : α)
    (ttl : Nat) : Redis α :=
  if call = .failed then redis
  else { redis with values := redis.values.set key value (redis.now + 1000 * ttl) }

/-- `delete(lock_key)`, whoever has set it. -/
def unlock (redis : Redis α) (call : CallResult) (key : String) : Redis α :=
  if call = .failed then redis else { redis with locks := redis.locks.erase key }

end Redis

/-! ## One caller -/

/-- `lockExpires` is the moment at which the lock that this caller set expires. -/
inductive Phase (ε α : Type) where
  | reading
  | locking
  | fetching (lockExpires : Nat)
  | storing (value : α) (lockExpires : Nat)
  | releasing (result : Except ε α) (lockExpires : Nat)
  | waiting (left wakes : Nat)
  | fallback
  | returned (result : Except ε α)
  deriving DecidableEq

namespace Phase

variable {ε α : Type}

/-- `asyncio.sleep(0.3)`. -/
def pause : Nat := 300

/-- The next step; `fetched` is what `fetch_fn` gives if it is what the caller awaits. -/
def advance (owner : Nat) (key : String) (ttl : Nat) (call : CallResult)
    (fetched : Except ε α) (redis : Redis α) : Phase ε α → Option (Phase ε α × Redis α)
  | reading =>
      match redis.get call key with
      | some value => some (returned (.ok value), redis)
      | none => some (locking, redis)
  | locking =>
      let (acquired, redis') := redis.lock call key owner
      if acquired then some (fetching (redis.now + Redis.lockTime), redis')
      else some (waiting 4 (redis.now + pause), redis')
  | fetching lockExpires =>
      match fetched with
      | .ok value => some (storing value lockExpires, redis)
      | .error e => some (releasing (.error e) lockExpires, redis)
  | storing value lockExpires =>
      some (releasing (.ok value) lockExpires, redis.store call key value ttl)
  | releasing result _ => some (returned result, redis.unlock call key)
  | waiting left wakes =>
      if redis.now < wakes then none
      else
        match redis.get call key, left with
        | some value, _ => some (returned (.ok value), redis)
        | none, 0 => some (fallback, redis)
        | none, left + 1 => some (waiting left (redis.now + pause), redis)
  | fallback => some (returned fetched, redis)
  | returned _ => none

/-- The caller is in the section that it entered with the lock. -/
def lockExpires : Phase ε α → Option Nat
  | fetching lockExpires => some lockExpires
  | storing _ lockExpires => some lockExpires
  | releasing _ lockExpires => some lockExpires
  | _ => none

/-- What the caller is going to store. -/
def stores : Phase ε α → Option α
  | storing value _ => some value
  | _ => none

/-- What the caller has, to be returned once its section is over. -/
def outcome : Phase ε α → Option (Except ε α)
  | storing value _ => some (.ok value)
  | releasing result _ => some result
  | returned result => some result
  | _ => none

def isLocking : Phase ε α → Bool
  | locking => true
  | _ => false

def isReleasing : Phase ε α → Bool
  | releasing _ _ => true
  | _ => false

variable {owner ttl : Nat} {key : String} {call : CallResult} {fetched : Except ε α}
  {redis redis' : Redis α} {phase phase' : Phase ε α}

/-- A step leaves the locks, tries to set the caller's, or ends the section. -/
theorem advance_locks
    (h : phase.advance owner key ttl call fetched redis = some (phase', redis')) :
    redis'.now = redis.now ∧
      (phase'.lockExpires = phase.lockExpires ∧ redis'.locks = redis.locks ∨
        phase.isLocking = true ∧ redis.locks.live redis.now key = none ∧
          redis'.locks = redis.locks.set key owner (redis.now + Redis.lockTime) ∧
          (∀ expires ∈ phase'.lockExpires, expires = redis.now + Redis.lockTime) ∨
        phase.isReleasing = true ∧ phase'.lockExpires = none ∧
          (redis'.locks = redis.locks ∨ redis'.locks = redis.locks.erase key)) := by
  cases phase with
  | reading =>
      simp only [advance] at h
      split at h <;> cases h <;> exact ⟨rfl, .inl ⟨rfl, rfl⟩⟩
  | locking =>
      simp only [advance, Redis.lock] at h
      by_cases hfree : call = .failed ∨ (redis.locks.live redis.now key).isSome
      · simp only [hfree, if_true, Bool.false_eq_true, if_false] at h
        cases h
        exact ⟨rfl, .inl ⟨rfl, rfl⟩⟩
      · simp only [hfree, if_false] at h
        have hlive : redis.locks.live redis.now key = none := by
          simpa using (not_or.mp hfree).2
        split at h <;> cases h
        · exact ⟨rfl, .inr (.inl ⟨rfl, hlive, rfl, by simp [lockExpires]⟩)⟩
        · exact ⟨rfl, .inr (.inl ⟨rfl, hlive, rfl, by simp [lockExpires]⟩)⟩
  | fetching expires =>
      cases fetched <;> cases h <;> exact ⟨rfl, .inl ⟨rfl, rfl⟩⟩
  | storing value expires =>
      cases h
      unfold Redis.store
      split <;> exact ⟨rfl, .inl ⟨rfl, rfl⟩⟩
  | releasing result expires =>
      cases h
      unfold Redis.unlock
      split
      · exact ⟨rfl, .inr (.inr ⟨rfl, rfl, .inl rfl⟩)⟩
      · exact ⟨rfl, .inr (.inr ⟨rfl, rfl, .inr rfl⟩)⟩
  | waiting left wakes =>
      simp only [advance] at h
      split at h
      · cases h
      · split at h <;> cases h <;> exact ⟨rfl, .inl ⟨rfl, rfl⟩⟩
  | fallback =>
      cases h
      exact ⟨rfl, .inl ⟨rfl, rfl⟩⟩
  | returned result => cases h

theorem advance_values
    (h : phase.advance owner key ttl call fetched redis = some (phase', redis')) :
    redis'.values = redis.values ∨ ∃ value ∈ phase.stores,
      redis'.values = redis.values.set key value (redis.now + 1000 * ttl) := by
  cases phase with
  | reading =>
      simp only [advance] at h
      split at h <;> cases h <;> exact .inl rfl
  | locking =>
      simp only [advance, Redis.lock] at h
      split at h <;> split at h <;> cases h <;> exact .inl rfl
  | fetching lockExpires =>
      cases fetched <;> cases h <;> exact .inl rfl
  | storing value lockExpires =>
      cases h
      unfold Redis.store
      split
      · exact .inl rfl
      · exact .inr ⟨value, rfl, rfl⟩
  | releasing result lockExpires =>
      cases h
      unfold Redis.unlock
      split <;> exact .inl rfl
  | waiting left wakes =>
      simp only [advance] at h
      split at h
      · cases h
      · split at h <;> cases h <;> exact .inl rfl
  | fallback =>
      cases h
      exact .inl rfl
  | returned result => cases h

theorem stores_outcome {value : α} (h : phase.stores = some value) :
    phase.outcome = some (.ok value) := by
  cases phase with
  | storing value' lockExpires =>
      cases h
      rfl
  | _ => cases h

theorem get_eq_some {value : α} (h : redis.get call key = some value) :
    redis.values.live redis.now key = some value := by
  unfold Redis.get at h
  split at h
  · exact h
  · cases h

/-- A result comes from the cache or from the caller's own fetch. -/
theorem advance_outcome {result : Except ε α}
    (h : phase.advance owner key ttl call fetched redis = some (phase', redis'))
    (hresult : phase'.outcome = some result) :
    phase.outcome = some result ∨ result = fetched ∨
      ∃ value, redis.values.live redis.now key = some value ∧ result = .ok value := by
  cases phase with
  | reading =>
      simp only [advance] at h
      split at h <;> cases h <;> cases hresult
      rename_i value hget
      exact .inr (.inr ⟨value, get_eq_some hget, rfl⟩)
  | locking =>
      simp only [advance] at h
      split at h <;> cases h <;> cases hresult
  | fetching lockExpires =>
      cases fetched <;> cases h <;> cases hresult <;> exact .inr (.inl rfl)
  | storing value lockExpires =>
      cases h
      exact .inl hresult
  | releasing result' lockExpires =>
      cases h
      exact .inl hresult
  | waiting left wakes =>
      simp only [advance] at h
      split at h
      · cases h
      · split at h <;> cases h <;> cases hresult
        rename_i value hget
        exact .inr (.inr ⟨value, get_eq_some hget, rfl⟩)
  | fallback =>
      cases h
      cases hresult
      exact .inr (.inl rfl)
  | returned result' => cases h

/-- A caller which is not asleep can go on, and returns after finitely many steps. -/
def remaining : Phase ε α → Nat
  | reading => 9
  | locking => 8
  | fetching _ => 3
  | storing _ _ => 2
  | releasing _ _ => 1
  | waiting left _ => left + 2
  | fallback => 1
  | returned _ => 0

def awake (now : Nat) : Phase ε α → Prop
  | waiting _ wakes => wakes ≤ now
  | _ => True

theorem advance_remaining (hawake : phase.awake redis.now) (h : 0 < phase.remaining) :
    ∃ phase' redis', phase.advance owner key ttl call fetched redis =
      some (phase', redis') ∧ phase'.remaining < phase.remaining := by
  cases phase with
  | reading =>
      cases hget : redis.get call key <;> simp [advance, hget, remaining]
  | locking =>
      cases hlock : (redis.lock call key owner).1 <;> simp [advance, hlock, remaining]
  | fetching lockExpires => cases fetched <;> simp [advance, remaining]
  | storing value lockExpires => simp [advance, remaining]
  | releasing result lockExpires => simp [advance, remaining]
  | waiting left wakes =>
      have hwakes : ¬redis.now < wakes := Nat.not_lt.mpr hawake
      cases hget : redis.get call key <;> cases left <;>
        simp [advance, hget, hwakes, remaining]
  | fallback => simp [advance, remaining]
  | returned result => simp [remaining] at h

theorem isReleasing_lockExpires (h : phase.isReleasing = true) :
    ∃ expires, phase.lockExpires = some expires := by
  cases phase with
  | releasing result expires => exact ⟨expires, rfl⟩
  | _ => cases h

end Phase

/-! ## All callers -/

structure Caller (ε α : Type) where
  key : String
  ttl : Nat
  phase : Phase ε α

structure Callers (ε α : Type) where
  redis : Redis α
  callers : List (Caller ε α)

namespace Callers

variable {ε α : Type}

def start : Callers ε α := ⟨.start, []⟩

/-- Callers are numbered in the order of their calls. -/
inductive Event (ε α : Type) where
  | call (key : String) (ttl : Nat)
  | advance (i : Nat) (call : CallResult) (fetched : Except ε α)
  | wait (milliseconds : Nat)
  | evict (key : String)
  | evictLock (key : String)

def advance (s : Callers ε α) (i : Nat) (call : CallResult) (fetched : Except ε α) :
    Option (Callers ε α) := do
  let c ← s.callers[i]?
  let (phase, redis) ← c.phase.advance i c.key c.ttl call fetched s.redis
  some ⟨redis, s.callers.set i { c with phase := phase }⟩

def step (s : Callers ε α) : Event ε α → Option (Callers ε α)
  | .call key ttl => some { s with callers := s.callers ++ [⟨key, ttl, .reading⟩] }
  | .advance i call fetched => s.advance i call fetched
  | .wait milliseconds =>
      some { s with redis := { s.redis with now := s.redis.now + milliseconds } }
  | .evict key =>
      some { s with redis := { s.redis with values := s.redis.values.erase key } }
  | .evictLock key =>
      some { s with redis := { s.redis with locks := s.redis.locks.erase key } }

/-! ### What the lock is for, and when it is kept -/

/-- The lock that the release of caller `i` removes, if there is one, is its own. -/
def FreesOwn (s : Callers ε α) (i : Nat) (c : Caller ε α) : Prop :=
  ∀ owner ∈ s.redis.locks.live s.redis.now c.key, owner = i

/-- No caller whose lock has not expired is in the section for this key. -/
def EntersAlone (s : Callers ε α) (c : Caller ε α) : Prop :=
  ∀ other ∈ s.callers, other.key = c.key →
    ∀ expires ∈ other.phase.lockExpires, expires ≤ s.redis.now

def Owns (s : Callers ε α) : Event ε α → Prop
  | .advance i call _ => ∀ c ∈ s.callers[i]?,
      (c.phase.isReleasing = true → call ≠ .failed → s.FreesOwn i c) ∧
      (c.phase.isLocking = true → (s.redis.lock call c.key i).1 = true →
        s.EntersAlone c)
  | _ => True

/-- No lock expires or is evicted while the caller that set it is in the section. -/
def InTime (s : Callers ε α) : Event ε α → Prop
  | .wait milliseconds => ∀ c ∈ s.callers,
      ∀ expires ∈ c.phase.lockExpires, s.redis.now + milliseconds < expires
  | .evictLock key => ∀ c ∈ s.callers, c.key = key → c.phase.lockExpires = none
  | _ => True

instance FreesOwn.decidable (s : Callers ε α) (i : Nat) (c : Caller ε α) :
    Decidable (s.FreesOwn i c) :=
  inferInstanceAs (Decidable (∀ _ ∈ _, _))

instance EntersAlone.decidable (s : Callers ε α) (c : Caller ε α) :
    Decidable (s.EntersAlone c) :=
  inferInstanceAs (Decidable (∀ _ ∈ _, _ → _))

instance Owns.decidable (s : Callers ε α) : (e : Event ε α) → Decidable (s.Owns e)
  | .advance _ _ _ => inferInstanceAs (Decidable (∀ _ ∈ _, _ ∧ _))
  | .call _ _ | .wait _ | .evict _ | .evictLock _ => isTrue trivial

instance InTime.decidable (s : Callers ε α) : (e : Event ε α) → Decidable (s.InTime e)
  | .wait _ => inferInstanceAs (Decidable (∀ _ ∈ _, ∀ _ ∈ _, _))
  | .evictLock _ => inferInstanceAs (Decidable (∀ _ ∈ _, _ → _))
  | .call _ _ | .advance _ _ _ | .evict _ => isTrue trivial

/-! ### The invariant -/

/-- A caller in the section has its lock. -/
def Held (s : Callers ε α) : Prop :=
  ∀ (i : Nat) (c : Caller ε α), s.callers[i]? = some c →
    ∀ expires ∈ c.phase.lockExpires,
      s.redis.locks.entry c.key = some ⟨c.key, i, expires⟩ ∧ s.redis.now < expires

variable {s s' : Callers ε α} {i : Nat} {c : Caller ε α}

theorem Held.live (h : s.Held) (hc : s.callers[i]? = some c) {expires : Nat}
    (hexpires : c.phase.lockExpires = some expires) :
    s.redis.locks.live s.redis.now c.key = some i := by
  obtain ⟨hentry, hnow⟩ := h i c hc expires hexpires
  exact Expiring.live_eq_some.mpr ⟨expires, hentry, hnow⟩

theorem start_held : (start : Callers ε α).Held := by
  intro i c hc
  simp [start] at hc

theorem advance_eq_some {call : CallResult} {fetched : Except ε α}
    (h : s.advance i call fetched = some s') :
    ∃ c phase redis, s.callers[i]? = some c ∧
      c.phase.advance i c.key c.ttl call fetched s.redis = some (phase, redis) ∧
      s' = ⟨redis, s.callers.set i { c with phase := phase }⟩ := by
  obtain ⟨c, hc, h⟩ := Option.bind_eq_some_iff.mp h
  obtain ⟨⟨phase, redis⟩, hphase, h⟩ := Option.bind_eq_some_iff.mp h
  cases h
  exact ⟨c, phase, redis, hc, hphase, rfl⟩

theorem advance_held {call : CallResult} {fetched : Except ε α} (h : s.Held)
    (hstep : s.advance i call fetched = some s') : s'.Held := by
  obtain ⟨c, phase, redis, hc, hphase, rfl⟩ := advance_eq_some hstep
  obtain ⟨hnow, hlocks⟩ := Phase.advance_locks hphase
  intro j d hd expires hexpires
  dsimp only at hd ⊢
  rw [hnow]
  rcases getElem?_set_new hd with ⟨rfl, rfl⟩ | ⟨hji, hd⟩
  · dsimp only at hexpires ⊢
    rcases hlocks with ⟨hphase', hlocks⟩ | ⟨-, -, hlocks, hset⟩ | ⟨-, hnone, -⟩
    · rw [hlocks]
      exact h j c hc expires (hphase' ▸ hexpires)
    · rw [hlocks, hset expires hexpires]
      exact ⟨Expiring.entry_set_self, Nat.lt_add_of_pos_right (by decide)⟩
    · rw [hnone] at hexpires
      cases hexpires
  · obtain ⟨hentry, hlive⟩ := h j d hd expires hexpires
    refine ⟨?_, hlive⟩
    rcases hlocks with ⟨-, hlocks⟩ | ⟨-, hfree, hlocks, -⟩ | ⟨hreleasing, -, hlocks⟩
    · rw [hlocks, hentry]
    · have hkey : d.key ≠ c.key := by
        intro hkey
        rw [← hkey, h.live hd hexpires] at hfree
        cases hfree
      rw [hlocks, Expiring.entry_set_of_ne hkey, hentry]
    · obtain ⟨own, hown⟩ := Phase.isReleasing_lockExpires hreleasing
      have hkey : d.key ≠ c.key := by
        intro hkey
        rw [hkey, (h i c hc own hown).1] at hentry
        cases hentry
        exact hji rfl
      rcases hlocks with hlocks | hlocks
      · rw [hlocks, hentry]
      · rw [hlocks, Expiring.entry_erase_of_ne hkey, hentry]

theorem step_held {e : Event ε α} (h : s.Held) (hguard : s.InTime e)
    (hstep : s.step e = some s') : s'.Held := by
  cases e with
  | call key ttl =>
      cases hstep
      intro j d hd expires hexpires
      rcases getElem?_append_new hd with hd | ⟨-, rfl⟩
      · exact h j d hd expires hexpires
      · cases hexpires
  | advance i call fetched => exact advance_held h hstep
  | wait milliseconds =>
      cases hstep
      intro j d hd expires hexpires
      exact ⟨(h j d hd expires hexpires).1,
        hguard d (List.mem_of_getElem? hd) expires hexpires⟩
  | evict key =>
      cases hstep
      exact h
  | evictLock key =>
      cases hstep
      intro j d hd expires hexpires
      obtain ⟨hentry, hlive⟩ := h j d hd expires hexpires
      have hkey : d.key ≠ key := by
        intro hkey
        rw [hguard d (List.mem_of_getElem? hd) hkey] at hexpires
        cases hexpires
      exact ⟨(Expiring.entry_erase_of_ne hkey).trans hentry, hlive⟩

theorem held_owns (h : s.Held) (e : Event ε α) : s.Owns e := by
  cases e with
  | advance i call fetched =>
      intro c hc
      refine ⟨fun hreleasing _ owner howner => ?_, fun _ hacquired other hother hkey => ?_⟩
      · obtain ⟨expires, hexpires⟩ := Phase.isReleasing_lockExpires hreleasing
        rw [h.live hc hexpires] at howner
        exact (Option.some.inj howner).symm
      · intro expires hexpires
        obtain ⟨j, hj⟩ := List.mem_iff_getElem?.mp hother
        have hlive := h.live hj hexpires
        rw [hkey] at hlive
        simp [Redis.lock, hlive] at hacquired
  | _ => trivial

/--
As long as no lock expires or is evicted under the caller that set it, a release
removes no other caller's lock, and the section is entered by one caller at a time.
-/
theorem locks_owned {es : List (Event ε α)} (h : Along step InTime start es) :
    Along step Owns (start : Callers ε α) es :=
  along_of_invariant (fun _ _ _ hs hg hstep => step_held hs hg hstep)
    (fun _ e hs _ => held_owns hs e) start_held h

def next (i : Nat) : Event String Nat := .advance i .done (.ok i)

/-- A fetch that outlasts its lock, and two more callers. -/
def overrun : List (Event String Nat) :=
  [.call "items" 300, next 0, next 0, .wait 10000, .call "items" 300, next 1, next 1,
    .call "items" 300, next 2, next 0, next 0]

theorem slow_caller_frees_the_next_lock :
    (∃ s ∈ run step start overrun, ¬s.Owns (next 0)) ∧
      ∃ s ∈ run step start (overrun ++ [next 0]), ¬s.Owns (next 2) := by
  decide +kernel

/-- Two callers one after the other, the second waiting for the first. -/
theorem locks_owned_in_turn :
    Along step Owns start [.call "items" 300, next 0, next 0, .call "items" 300, next 1,
      next 1, .wait 9999, next 0, next 0, next 0, next 1] :=
  locks_owned (by decide +kernel)

end Callers

end IsolatedEnv.Backend
