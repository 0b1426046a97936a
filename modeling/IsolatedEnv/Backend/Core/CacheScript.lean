import IsolatedEnv.Backend.Core.Cache
import IsolatedEnv.Foundation.Calls

/-!
# What `cached` asks of Redis

`cached` as the calls it makes, each chosen from the answers before.  Redis may
answer anything or raise; so may `fetch_fn`.  The pauses between the reads are
left out, as nothing comes back from them.  Against the cache of requests
handled one after another, the calls come to `Cache.cached`.
-/

namespace IsolatedEnv.Backend

open IsolatedEnv.Foundation

inductive CacheCall where
  | get (key : String)
  | set (key value : String) (nx : Bool) (ex : Nat)
  | delete (key : String)
  | fetch
  deriving DecidableEq

/-- Of `set` only the truth of its result counts, and of `delete` nothing. -/
@[reducible] def CacheCall.result (α : Type) : CacheCall → Type
  | get _ => Option String
  | set .. => Bool
  | delete _ => Unit
  | fetch => α

/-- `json.loads` and `json.dumps(_, default=str)`; `none` where they raise. -/
structure JsonModule (α : Type) where
  loads : String → Option α
  dumps : α → Option String

abbrev CacheScript (ε α β : Type) := Script (CacheCall.result α) ε β

abbrev CacheEvent (ε α : Type) := Script.Event (CacheCall.result α) ε

def lockKey (key : String) : String := "lock:" ++ key

section Source

variable {ε α : Type} (json : JsonModule α) (key : String) (ttl : Nat)

/-- The body of a `try` around a read: a value, unless something raises. -/
def readHit (raw : Except ε (Option String)) : Option α :=
  match raw with
  | .ok (some text) => json.loads text
  | _ => none

def storeResult (fetched : Except ε α) : CacheScript ε α Unit :=
  match fetched with
  | .error _ => pure ()
  | .ok value =>
      match json.dumps value with
      | none => pure ()
      | some text => do
          let _ ← Script.request (CacheCall.set key text false ttl)
          pure ()

/-- With the lock, which the `finally` clause gives back. -/
def computeLocked : CacheScript ε α (Except ε α) := do
  let fetched ← Script.request CacheCall.fetch
  storeResult json key ttl fetched
  let _ ← Script.request (CacheCall.delete (lockKey key))
  pure fetched

def retryReads : Nat → CacheScript ε α (Except ε α)
  | 0 => Script.request CacheCall.fetch
  | n + 1 => do
      let raw ← Script.request (CacheCall.get key)
      match readHit json raw with
      | some value => pure (.ok value)
      | none => retryReads n

def cached : CacheScript ε α (Except ε α) := do
  let raw ← Script.request (CacheCall.get key)
  match readHit json raw with
  | some value => pure (.ok value)
  | none =>
      let acquired ← Script.request (CacheCall.set (lockKey key) "1" true 10)
      match acquired with
      | .ok true => computeLocked json key ttl
      | _ => retryReads json key 5

end Source

/-! ## Runs -/

section Runs

variable {ε α : Type} {json : JsonModule α} {key : String} {ttl : Nat}
  {history : List (CacheEvent ε α)} {outcome : Except ε α}

theorem storeResult_runs {fetched : Except ε α} {u : Unit}
    (h : (storeResult json key ttl fetched).Runs history u) :
    history = [] ∨ ∃ value text reply, fetched = .ok value ∧
      json.dumps value = some text ∧
      history = [⟨CacheCall.set key text false ttl, reply⟩] := by
  unfold storeResult at h
  split at h
  · exact .inl (Script.runs_pure_iff.mp h).1
  · rename_i value
    split at h
    · exact .inl (Script.runs_pure_iff.mp h).1
    · rename_i text hdumps
      obtain ⟨reply, after, rfl, hafter⟩ := Script.runs_request_bind_iff.mp h
      rw [(Script.runs_pure_iff.mp hafter).1]
      exact .inr ⟨value, text, reply, rfl, hdumps, rfl⟩

theorem computeLocked_runs (h : (computeLocked json key ttl).Runs history outcome) :
    ∃ stores released, history = ⟨CacheCall.fetch, outcome⟩ :: (stores ++
        [⟨CacheCall.delete (lockKey key), released⟩]) ∧
      (stores = [] ∨ ∃ value text reply, outcome = .ok value ∧
        json.dumps value = some text ∧
        stores = [⟨CacheCall.set key text false ttl, reply⟩]) := by
  obtain ⟨fetched, later, rfl, hlater⟩ := Script.runs_request_bind_iff.mp h
  obtain ⟨stores, u, rest, rfl, hstore, hrest⟩ := Script.runs_bind_iff.mp hlater
  obtain ⟨released, nothing, rfl, hend⟩ := Script.runs_request_bind_iff.mp hrest
  obtain ⟨rfl, rfl⟩ := Script.runs_pure_iff.mp hend
  exact ⟨stores, released, rfl, storeResult_runs hstore⟩

theorem readHit_eq_some {raw : Except ε (Option String)} {value : α}
    (h : readHit json raw = some value) :
    ∃ text, raw = .ok (some text) ∧ json.loads text = some value := by
  unfold readHit at h
  split at h
  · exact ⟨_, rfl, h⟩
  · cases h

/-- Reads alone, one of them a hit, or reads and the fetch after them. -/
theorem retryReads_runs {n : Nat} (h : (retryReads json key n).Runs history outcome) :
    ∃ reads rest, history = reads ++ rest ∧
      (∀ e ∈ reads, e.1 = CacheCall.get key) ∧
      (rest = [] ∧ (∃ text value, ⟨CacheCall.get key, .ok (some text)⟩ ∈ reads ∧
          json.loads text = some value ∧ outcome = .ok value) ∨
        rest = [⟨CacheCall.fetch, outcome⟩]) := by
  induction n generalizing history with
  | zero => exact ⟨[], history, rfl, by simp, .inr (Script.runs_request_iff.mp h)⟩
  | succ n ih =>
      obtain ⟨raw, later, rfl, hlater⟩ := Script.runs_request_bind_iff.mp h
      cases hhit : readHit json raw with
      | some value =>
          rw [hhit] at hlater
          obtain ⟨rfl, rfl⟩ := Script.runs_pure_iff.mp hlater
          obtain ⟨text, rfl, hloads⟩ := readHit_eq_some hhit
          exact ⟨[_], [], rfl, by simp,
            .inl ⟨rfl, text, value, List.mem_singleton_self _, hloads, rfl⟩⟩
      | none =>
          rw [hhit] at hlater
          obtain ⟨reads, rest, rfl, hreads, hrest⟩ := ih hlater
          refine ⟨⟨CacheCall.get key, raw⟩ :: reads, rest, rfl, ?_, ?_⟩
          · simpa using hreads
          · rcases hrest with ⟨hnil, text, value, hmem, hvalue⟩ | hfetch
            · exact .inl ⟨hnil, text, value, List.mem_cons_of_mem _ hmem, hvalue⟩
            · exact .inr hfetch

/-- The three ways a call of `cached` can go. -/
theorem cached_runs (h : (cached json key ttl).Runs history outcome) :
    ∃ raw : Except ε (Option String), ∃ later,
      history = ⟨CacheCall.get key, raw⟩ :: later ∧
      ((later = [] ∧ ∃ value, readHit json raw = some value ∧ outcome = .ok value) ∨
        ∃ acquired rest,
          later = ⟨CacheCall.set (lockKey key) "1" true 10, acquired⟩ :: rest ∧
          (acquired = .ok true ∧ (computeLocked json key ttl).Runs rest outcome ∨
            acquired ≠ .ok true ∧ (retryReads json key 5).Runs rest outcome)) := by
  obtain ⟨raw, later, rfl, hlater⟩ := Script.runs_request_bind_iff.mp h
  refine ⟨raw, later, rfl, ?_⟩
  cases hhit : readHit json raw with
  | some value =>
      rw [hhit] at hlater
      obtain ⟨rfl, rfl⟩ := Script.runs_pure_iff.mp hlater
      exact .inl ⟨rfl, value, rfl, rfl⟩
  | none =>
      rw [hhit] at hlater
      obtain ⟨acquired, rest, rfl, hrest⟩ := Script.runs_request_bind_iff.mp hlater
      refine .inr ⟨acquired, rest, rfl, ?_⟩
      by_cases hacquired : acquired = .ok true
      · subst hacquired
        exact .inl ⟨rfl, hrest⟩
      · refine .inr ⟨hacquired, ?_⟩
        split at hrest
        · exact absurd rfl hacquired
        · exact hrest

end Runs

/-! ## What every run keeps -/

/-- The lock was set for this caller. -/
def Acquired {ε α : Type} (key : String) (history : List (CacheEvent ε α)) : Prop :=
  ⟨CacheCall.set (lockKey key) "1" true 10, .ok true⟩ ∈ history

structure CacheContract {ε α : Type} (json : JsonModule α) (key : String)
    (history : List (CacheEvent ε α)) (outcome : Except ε α) : Prop where
  fetchedOnce : history.countP (fun e => e.1 = .fetch) ≤ 1
  returned : ∀ value, outcome = .ok value →
    ⟨CacheCall.fetch, .ok value⟩ ∈ history ∨
      ∃ text, ⟨CacheCall.get key, .ok (some text)⟩ ∈ history ∧
        json.loads text = some value
  raised : ∀ e, outcome = .error e → ⟨CacheCall.fetch, .error e⟩ ∈ history
  stored : ∀ i text nx ex reply,
    history[i]? = some ⟨CacheCall.set key text nx ex, reply⟩ →
    Acquired key (history.take i) ∧ ∃ value, json.dumps value = some text ∧
      ⟨CacheCall.fetch, .ok value⟩ ∈ history.take i
  released : Acquired key history →
    history.countP (fun e => e.1 = .delete (lockKey key)) = 1
  untouched : ¬Acquired key history →
    history.countP (fun e => e.1 = .delete (lockKey key)) = 0

section Contract

variable {ε α : Type} {json : JsonModule α} {key : String} {ttl : Nat}
  {history : List (CacheEvent ε α)} {outcome : Except ε α}

theorem lockKey_ne (key : String) : lockKey key ≠ key := by
  intro h
  have hlength := congrArg String.length h
  simp [lockKey] at hlength

theorem countP_call {c : CacheCall} (h : ∀ e ∈ history, e.1 ≠ c) :
    history.countP (fun e => e.1 = c) = 0 := by
  simpa [List.countP_eq_zero] using h

theorem not_acquired (h : ∀ e ∈ history, e.1 ≠ .set (lockKey key) "1" true 10) :
    ¬Acquired key history := fun hacquired => h _ hacquired rfl

theorem contract_hit {raw : Except ε (Option String)} {value : α}
    (h : readHit json raw = some value) :
    CacheContract json key [⟨CacheCall.get key, raw⟩] (.ok value : Except ε α) := by
  obtain ⟨text, rfl, hloads⟩ := readHit_eq_some h
  constructor
  · simp
  · intro value' hvalue
    cases hvalue
    exact .inr ⟨text, List.mem_singleton_self _, hloads⟩
  · intro e he
    cases he
  · intro i text nx ex reply hi
    rcases i with _ | i <;> cases hi
  · intro hacquired
    exact absurd hacquired (not_acquired (by simp))
  · intro _
    simp

theorem contract_computed {raw : Except ε (Option String)}
    (h : (computeLocked json key ttl).Runs history outcome) :
    CacheContract json key (⟨CacheCall.get key, raw⟩ ::
      ⟨CacheCall.set (lockKey key) "1" true 10, .ok true⟩ :: history) outcome := by
  obtain ⟨stores, released, rfl, hstores⟩ := computeLocked_runs h
  have hset : ∀ e ∈ stores, ∃ text, e.1 = CacheCall.set key text false ttl := by
    intro e he
    rcases hstores with rfl | ⟨value, text, reply, -, -, rfl⟩
    · cases he
    · rw [List.mem_singleton.mp he]
      exact ⟨text, rfl⟩
  have hfetches : stores.countP (fun e => e.1 = .fetch) = 0 := by
    refine countP_call fun e he => ?_
    obtain ⟨text, htext⟩ := hset e he
    simp [htext]
  have hdeletes : stores.countP (fun e => e.1 = .delete (lockKey key)) = 0 := by
    refine countP_call fun e he => ?_
    obtain ⟨text, htext⟩ := hset e he
    simp [htext]
  constructor
  · simp [List.countP_append, hfetches]
  · rintro value rfl
    exact .inl (by simp)
  · rintro e rfl
    simp
  · intro i text nx ex reply hi
    rcases i with _ | _ | _ | i
    · cases hi
    · simp only [List.getElem?_cons_succ, List.getElem?_cons_zero, Option.some.injEq,
        Sigma.mk.injEq, CacheCall.set.injEq] at hi
      exact absurd hi.1.1 (lockKey_ne key)
    · cases hi
    · simp only [List.getElem?_cons_succ] at hi
      refine ⟨by simp [Acquired], ?_⟩
      rcases hstores with rfl | ⟨value, text', reply', rfl, hdumps, rfl⟩
      · rcases i with _ | i <;> cases hi
      · rcases i with _ | _ | i
        · cases hi
          exact ⟨value, hdumps, by simp⟩
        · cases hi
        · cases hi
  · intro _
    simp [List.countP_append, hdeletes]
  · intro hacquired
    exact absurd (by simp [Acquired]) hacquired

theorem contract_waited {raw : Except ε (Option String)} {acquired : Except ε Bool}
    {n : Nat} (hacquired : acquired ≠ .ok true)
    (h : (retryReads json key n).Runs history outcome) :
    CacheContract json key (⟨CacheCall.get key, raw⟩ ::
      ⟨CacheCall.set (lockKey key) "1" true 10, acquired⟩ :: history) outcome := by
  obtain ⟨reads, rest, rfl, hreads, hrest⟩ := retryReads_runs h
  have hcalls : ∀ e ∈ reads ++ rest, e.1 = CacheCall.get key ∨ e.1 = .fetch := by
    intro e he
    rcases List.mem_append.mp he with he | he
    · exact .inl (hreads e he)
    · rcases hrest with ⟨rfl, -⟩ | rfl
      · cases he
      · rw [List.mem_singleton.mp he]
        exact .inr rfl
  have hfetches : reads.countP (fun e => e.1 = .fetch) = 0 :=
    countP_call fun e he => by simp [hreads e he]
  have hdeletes : (reads ++ rest).countP (fun e => e.1 = .delete (lockKey key)) = 0 :=
    countP_call fun e he => by rcases hcalls e he with hcall | hcall <;> simp [hcall]
  have hfree : ¬Acquired key (reads ++ rest) :=
    not_acquired fun e he => by rcases hcalls e he with hcall | hcall <;> simp [hcall]
  constructor
  · rcases hrest with ⟨rfl, -⟩ | rfl <;>
      simp [List.countP_append, hfetches]
  · rintro value rfl
    rcases hrest with ⟨rfl, text, value', hmem, hloads, hvalue⟩ | rfl
    · cases hvalue
      exact .inr ⟨text, by simp [hmem], hloads⟩
    · exact .inl (by simp)
  · rintro e rfl
    rcases hrest with ⟨rfl, text, value', hmem, hloads, hvalue⟩ | rfl
    · cases hvalue
    · simp
  · intro i text nx ex reply hi
    rcases i with _ | _ | i
    · cases hi
    · simp only [List.getElem?_cons_succ, List.getElem?_cons_zero, Option.some.injEq,
        Sigma.mk.injEq, CacheCall.set.injEq] at hi
      exact absurd hi.1.1 (lockKey_ne key)
    · simp only [List.getElem?_cons_succ] at hi
      rcases hcalls _ (List.mem_of_getElem? hi) with hcall | hcall <;> cases hcall
  · intro h
    unfold Acquired at h hfree
    simp [hacquired.symm, hfree] at h
  · intro _
    simpa [List.countP_cons] using hdeletes

end Contract

/-- Whatever Redis answers and `fetch_fn` does. -/
theorem cached_tolerates {ε α : Type} (json : JsonModule α) (key : String) (ttl : Nat)
    (answer : List (CacheEvent ε α) → (c : CacheCall) → Except ε (c.result α)) :
    CacheContract json key ((cached json key ttl).record answer []).1
      ((cached json key ttl).record answer []).2 := by
  obtain ⟨history, hseen, hruns⟩ := Script.record_runs answer (cached json key ttl) []
  rw [hseen, List.nil_append]
  obtain ⟨raw, later, rfl, ⟨rfl, value, hhit, houtcome⟩ | hlater⟩ := cached_runs hruns
  · rw [houtcome]
    exact contract_hit hhit
  · obtain ⟨acquired, rest, rfl, ⟨rfl, hrest⟩ | ⟨hacquired, hrest⟩⟩ := hlater
    · exact contract_computed hrest
    · exact contract_waited hacquired hrest

/-! ## One request after another -/

section OneByOne

variable {α : Type} (json : JsonModule α) (faults : RedisFaults)
  (failure : Exc) (fetch : Except Exc α)

/-- Whether the read fails, the first one or one of the retries. -/
def RedisFaults.read : Nat → Bool
  | 0 => faults.get
  | n + 1 => if h : n < 5 then faults.retries ⟨n, h⟩ else false

/-- The cache as the service of the calls, with the number of reads so far. -/
def cacheService : (c : CacheCall) → Cache α × Nat →
    Except Exc (c.result α) × Cache α × Nat
  | .get key, (cache, reads) =>
      (if faults.read reads then .error failure
        else .ok ((cache.get key).bind json.dumps), cache, reads + 1)
  | .set key text nx _, (cache, reads) =>
      if nx then
        if faults.lock then (.error failure, cache, reads)
        else if cache.locks.contains key then (.ok false, cache, reads)
        else (.ok true, { cache with locks := key :: cache.locks }, reads)
      else if faults.set then (.error failure, cache, reads)
      else
        (.ok true, match json.loads text with
          | some value => cache.set key value
          | none => cache, reads)
  | .delete key, (cache, reads) =>
      if faults.unlock then (.error failure, cache, reads)
      else (.ok (), { cache with locks := cache.locks.erase key }, reads)
  | .fetch, s => (fetch, s)

variable {json}

theorem readHit_service (hjson : ∀ v, (json.dumps v).bind json.loads = some v)
    (key : String) (cache : Cache α) (reads : Nat) :
    readHit json (cacheService json faults failure fetch (.get key) (cache, reads)).1 =
      if faults.read reads then none else cache.get key := by
  unfold cacheService
  dsimp only
  split
  · rfl
  · cases hget : cache.get key with
    | none => rfl
    | some value =>
        have hvalue := hjson value
        cases hdumps : json.dumps value with
        | none => simp [hdumps] at hvalue
        | some text => simpa [readHit, hdumps] using hvalue

/-- The retries find what the cache has unless all of them fail. -/
theorem retryReads_run (hjson : ∀ v, (json.dumps v).bind json.loads = some v)
    (key : String) (cache : Cache α) (n reads : Nat) :
    ∃ reads', (retryReads json key n).run (cacheService json faults failure fetch)
        (cache, reads) =
      (match if ∀ i < n, faults.read (reads + i) = true then none else cache.get key with
        | some value => .ok value
        | none => fetch, cache, reads') := by
  induction n generalizing reads with
  | zero => exact ⟨reads, by simp [retryReads, Script.run_request, cacheService]⟩
  | succ n ih =>
      rw [retryReads, Script.run_bind, Script.run_request]
      have hhit := readHit_service faults failure fetch hjson key cache reads
      obtain ⟨reads', hlater⟩ := ih (reads + 1)
      have hall : (∀ i < n + 1, faults.read (reads + i) = true) ↔
          faults.read reads = true ∧ ∀ i < n, faults.read (reads + 1 + i) = true := by
        rw [Nat.forall_lt_succ_left']
        simp only [Nat.add_zero, Nat.add_assoc, Nat.add_comm 1]
      simp only [hall]
      by_cases hfail : faults.read reads = true
      · rw [if_pos hfail] at hhit
        simp only [hhit, hfail, true_and]
        exact ⟨reads', hlater⟩
      · rw [if_neg hfail] at hhit
        simp only [hhit, hfail, Bool.false_eq_true, false_and, if_false]
        cases hget : cache.get key with
        | some value => exact ⟨reads + 1, rfl⟩
        | none =>
            refine ⟨reads', ?_⟩
            rw [hget, ite_self] at hlater
            exact hlater

theorem retries_all :
    (List.ofFn faults.retries).all id = true ↔
      ∀ i < 5, faults.read (1 + i) = true := by
  rw [List.all_eq_true]
  simp only [List.mem_ofFn, forall_exists_index, forall_apply_eq_imp_iff, id_eq]
  constructor
  · intro h i hi
    rw [Nat.add_comm, RedisFaults.read, dif_pos hi]
    exact h _
  · rintro h ⟨i, hi⟩
    have hread := h i hi
    rwa [Nat.add_comm, RedisFaults.read, dif_pos hi] at hread

theorem computeLocked_run (hjson : ∀ v, (json.dumps v).bind json.loads = some v)
    (key : String) (ttl : Nat) (cache : Cache α) (locks : List String) (reads : Nat) :
    (computeLocked json key ttl).run (cacheService json faults failure fetch)
        ({ cache with locks := lockKey key :: locks }, reads) =
      (fetch,
        let stored := match fetch with
          | .ok value => if faults.set then cache else cache.set key value
          | .error _ => cache
        { stored with locks := if faults.unlock then lockKey key :: locks else locks },
        reads) := by
  cases fetch with
  | error e =>
      cases hunlock : faults.unlock <;>
        simp [computeLocked, storeResult, Script.run_bind, Script.run_request,
          Script.run_pure, cacheService, hunlock]
  | ok value =>
      have hvalue := hjson value
      cases hdumps : json.dumps value with
      | none => simp [hdumps] at hvalue
      | some text =>
          rw [hdumps, Option.bind_some] at hvalue
          cases hset : faults.set <;> cases hunlock : faults.unlock <;>
            simp [computeLocked, storeResult, Script.run_bind, Script.run_request,
              Script.run_pure, cacheService, hset, hunlock, hdumps, hvalue, Cache.set]

/-- The calls, answered by one cache alone, come to `Cache.cached`. -/
theorem cached_run (hjson : ∀ v, (json.dumps v).bind json.loads = some v)
    (key : String) (ttl : Nat) (cache : Cache α) :
    ∃ reads, (cached json key ttl).run (cacheService json faults failure fetch)
        (cache, 0) =
      ((cache.cached faults key fetch).1, (cache.cached faults key fetch).2, reads) := by
  rw [cached, Script.run_bind, Script.run_request]
  have hhit := readHit_service faults failure fetch hjson key cache 0
  rw [RedisFaults.read] at hhit
  unfold Cache.cached
  simp only [hhit]
  cases hfirst : if faults.get then none else cache.get key with
  | some value => exact ⟨1, rfl⟩
  | none =>
      obtain ⟨reads, hretry⟩ := retryReads_run faults failure fetch hjson key cache 5 1
      simp only [← retries_all faults] at hretry
      simp only [Script.run_bind, Script.run_request]
      by_cases hlock : faults.lock = true ∨ cache.locks.contains ("lock:" ++ key) = true
      · have hbusy : (faults.lock || cache.locks.contains ("lock:" ++ key)) = true := by
          simpa using hlock
        obtain ⟨reply, hreply, hcall⟩ : ∃ reply : Except Exc Bool, reply ≠ .ok true ∧
            cacheService json faults failure fetch
              (.set (lockKey key) "1" true 10) (cache, 1) = (reply, cache, 1) := by
          cases hfails : faults.lock with
          | true => exact ⟨.error failure, by simp, by simp [cacheService, hfails]⟩
          | false =>
              have hheld : cache.locks.contains (lockKey key) = true := by
                simpa [hfails, lockKey] using hlock
              refine ⟨.ok false, by simp, ?_⟩
              simp only [cacheService, hfails, hheld, if_true, Bool.false_eq_true, if_false]
        have hread : (cacheService json faults failure fetch (.get key) (cache, 0)).2 =
            (cache, 1) := rfl
        rw [if_pos hbusy, hread, hcall]
        refine ⟨reads, ?_⟩
        dsimp only
        split
        · exact absurd rfl hreply
        · rw [hretry]
          cases if (List.ofFn faults.retries).all id = true then none
            else cache.get key <;> rfl
      · rw [not_or] at hlock
        obtain ⟨hworks, hfree⟩ := hlock
        have hfree' : ¬cache.locks.contains (lockKey key) = true := hfree
        have hcall : cacheService json faults failure fetch
            (.set (lockKey key) "1" true 10)
            (cacheService json faults failure fetch (.get key) (cache, 0)).2 =
            (.ok true, { cache with locks := lockKey key :: cache.locks }, 1) := by
          simp only [cacheService, hworks, hfree', if_true, Bool.false_eq_true, if_false]
        refine ⟨1, ?_⟩
        rw [hcall]
        dsimp only
        have hidle : ¬(faults.lock || cache.locks.contains ("lock:" ++ key)) = true := by
          simpa [hworks] using hfree
        rw [computeLocked_run faults failure fetch hjson, if_neg hidle]
        cases fetch <;> cases faults.unlock <;> cases faults.set <;> rfl

end OneByOne

end IsolatedEnv.Backend
