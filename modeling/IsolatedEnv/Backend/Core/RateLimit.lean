import IsolatedEnv.Backend.Users.AdminRouter
import IsolatedEnv.Foundation.Expiring

/-!
# The rate limiter

slowapi counts the requests of one address to one path against each limit.  What it
keeps for an address is nobody else's business: a hit reads and changes the counts of
its own address only.
-/

namespace IsolatedEnv.Backend

open IsolatedEnv.Foundation

/-- `get_remote_address(request)`. -/
def Request.remoteAddress (request : Request) : String :=
  request.clientHost.getD "127.0.0.1"

/-- `_get_real_ip`. -/
def Request.realIp (request : Request) : String :=
  match request.forwardedFor with
  | some forwarded =>
      if forwarded ≠ "" then Request.lastForwarded forwarded else request.remoteAddress
  | none => request.remoteAddress

/-- `hit` tells whether the request is let through, at its time and for its path. -/
structure RateLimiter where
  Store : Type
  Counts : Type
  counts : Store → String → Counts
  hit : Store → Timestamp → String → String → Nat → Bool × Store
  hit_other : ∀ store now address path amount other, other ≠ address →
    counts (hit store now address path amount).2 other = counts store other
  hit_same : ∀ store store' now address path amount,
    counts store address = counts store' address →
      (hit store now address path amount).1 = (hit store' now address path amount).1 ∧
        counts (hit store now address path amount).2 address =
          counts (hit store' now address path amount).2 address

/-! ## Fixed windows -/

namespace FixedWindow

/-- The requests counted in each window, which is over a minute after it began. -/
abbrev Store := Expiring (String × String × Nat) Nat

def minute : Nat := 60000000

def used (store : Store) (now : Nat) (key : String × String × Nat) : Nat :=
  (store.live now key).getD 0

def ends (store : Store) (now : Nat) (key : String × String × Nat) : Nat :=
  match store.entry key with
  | some window => if now < window.expires then window.expires else now + minute
  | none => now + minute

def hit (store : Store) (now : Timestamp) (address path : String) (amount : Nat) :
    Bool × Store :=
  let now := now.microseconds
  let key := (address, path, amount)
  (used store now key < amount, store.set key (used store now key + 1) (ends store now key))

end FixedWindow

/-- The windows of an address, by path and limit. -/
def fixedWindow : RateLimiter where
  Store := FixedWindow.Store
  Counts := String × Nat → Option (Timed (String × String × Nat) Nat)
  counts store address := fun (path, amount) => store.entry (address, path, amount)
  hit := FixedWindow.hit
  hit_other store now address path amount other hother := by
    funext p
    exact Expiring.entry_set_of_ne (by simp [hother])
  hit_same store store' now address path amount hsame := by
    have hentry : store.entry (address, path, amount) =
        store'.entry (address, path, amount) := congrFun hsame (path, amount)
    have hused : FixedWindow.used store now.microseconds (address, path, amount) =
        FixedWindow.used store' now.microseconds (address, path, amount) := by
      simp only [FixedWindow.used, Expiring.live, hentry]
    have hends : FixedWindow.ends store now.microseconds (address, path, amount) =
        FixedWindow.ends store' now.microseconds (address, path, amount) := by
      simp only [FixedWindow.ends, hentry]
    refine ⟨by simp only [FixedWindow.hit, hused], ?_⟩
    funext p
    simp only [FixedWindow.hit, hused, hends]
    by_cases hp : (address, p.1, p.2) = (address, path, amount)
    · rw [hp, Expiring.entry_set_self, Expiring.entry_set_self]
    · rw [Expiring.entry_set_of_ne hp, Expiring.entry_set_of_ne hp]
      exact congrFun hsame p

end IsolatedEnv.Backend
