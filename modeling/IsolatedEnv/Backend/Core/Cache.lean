import IsolatedEnv.Backend.Core.Runtime
import IsolatedEnv.Foundation.Rows

/-!
# The item cache

`cached` and `invalidate` for requests handled one after another.  A value is
kept as what its JSON text decodes to.  Every call to Redis may fail; a lock
whose deletion failed stays until it expires.
-/

namespace IsolatedEnv.Backend

open IsolatedEnv.Foundation

structure Cache (α : Type) where
  entries : List (String × α)
  locks : List String

/-- The calls that fail, and the keys an invalidation does not get to. -/
structure RedisFaults where
  get : Bool
  lock : Bool
  set : Bool
  unlock : Bool
  retries : Fin 5 → Bool
  notDeleted : List String

def RedisFaults.working : RedisFaults where
  get := false
  lock := false
  set := false
  unlock := false
  retries := fun _ => false
  notDeleted := []

namespace Cache

variable {α : Type}

def empty : Cache α := ⟨[], []⟩

def get (c : Cache α) (key : String) : Option α :=
  (Rows.find Prod.fst key c.entries).map Prod.snd

def set (c : Cache α) (key : String) (value : α) : Cache α where
  entries := (key, value) :: c.entries.filter fun e => e.1 ≠ key
  locks := c.locks

/-- A key whose time to live has passed, or that Redis has evicted. -/
def expire (c : Cache α) (key : String) : Cache α where
  entries := c.entries.filter fun e => e.1 ≠ key
  locks := c.locks.filter fun lock => lock ≠ key

def cached (faults : RedisFaults) (key : String) (fetch : Except Exc α)
    (c : Cache α) : Except Exc α × Cache α :=
  match if faults.get then none else c.get key with
  | some value => (.ok value, c)
  | none =>
      if faults.lock || c.locks.contains ("lock:" ++ key) then
        match if (List.ofFn faults.retries).all id then none else c.get key with
        | some value => (.ok value, c)
        | none => (fetch, c)
      else
        let release (c : Cache α) : Cache α :=
          if faults.unlock then { c with locks := ("lock:" ++ key) :: c.locks } else c
        match fetch with
        | .ok value => (.ok value, release (if faults.set then c else c.set key value))
        | .error e => (.error e, release c)

def invalidate (faults : RedisFaults) (start : String) (c : Cache α) : Cache α where
  entries := c.entries.filter fun e =>
    !start.toList.isPrefixOf e.1.toList || faults.notDeleted.contains e.1
  locks := c.locks

theorem cached_error {faults : RedisFaults} {key : String} {fetch : Except Exc α}
    {c : Cache α} {e : Exc} (h : (cached faults key fetch c).1 = .error e) :
    fetch = .error e := by
  unfold cached at h
  dsimp only at h
  split at h
  · cases h
  · split at h
    · split at h
      · cases h
      · exact h
    · cases fetch with
      | ok value => cases h
      | error e' => exact h

end Cache

end IsolatedEnv.Backend
