import IsolatedEnv.Foundation.Rollback
import IsolatedEnv.Backend.Users.Roles
import Mathlib.Data.List.Nodup

/-!
# Optimistic changes of the admin user list

The three mutation hooks of `use-admin-users.ts` that write to the cached pages of the
user list before the server answers.  All of them snapshot every page and, when their
request fails, put every page of the snapshot back.
-/

namespace IsolatedEnv.Frontend

open IsolatedEnv.Foundation IsolatedEnv.Backend

/-! ## The query cache -/

structure AdminUser where
  id : String
  email : String
  name : String
  role : UserRole
  isActive : Bool
  createdAt : String
  providerId : String
  updatedAt : String
  deriving DecidableEq, Repr

structure AdminUsersResponse where
  users : List AdminUser
  total : Int
  offset : Int
  limit : Int
  deriving DecidableEq, Repr

/-- What follows the `"adminUsers"` of a query key. -/
structure AdminUsersKey where
  offset : Int
  limit : Int
  search : Option String
  deriving DecidableEq, Repr

/-- The queries under `"adminUsers"`; one that has not been answered yet has no data. -/
@[ext] structure QueryCache where
  keys : List AdminUsersKey
  data : AdminUsersKey → Option AdminUsersResponse

abbrev QueriesData := List (AdminUsersKey × Option AdminUsersResponse)

namespace QueryCache

def getQueriesData (cache : QueryCache) : QueriesData :=
  cache.keys.map fun key => (key, cache.data key)

/-- An updater that returns `undefined` leaves the query alone. -/
def setQueriesData (cache : QueryCache)
    (updater : Option AdminUsersResponse → Option AdminUsersResponse) : QueryCache where
  keys := cache.keys
  data key := if key ∈ cache.keys then (updater (cache.data key)).or (cache.data key)
    else cache.data key

def setQueryData (cache : QueryCache) (key : AdminUsersKey) :
    Option AdminUsersResponse → QueryCache
  | none => cache
  | some page =>
      { keys := if key ∈ cache.keys then cache.keys else cache.keys ++ [key]
        data := fun other => if other = key then some page else cache.data other }

end QueryCache

/-! ## The hooks -/

inductive AdminMutation where
  | changeUserRole (userId : String) (role : UserRole)
  | changeUserStatus (userId : String) (isActive : Bool)
  | deleteUser (userId : String)
  deriving DecidableEq, Repr

namespace AdminMutation

def userId : AdminMutation → String
  | .changeUserRole userId _ => userId
  | .changeUserStatus userId _ => userId
  | .deleteUser userId => userId

/-- The update that a hook makes to a page; `total` is lowered on every page alike. -/
def update : AdminMutation → AdminUsersResponse → AdminUsersResponse
  | .changeUserRole userId role, old =>
      { old with users := old.users.map fun u =>
          if u.id = userId then { u with role := role } else u }
  | .changeUserStatus userId isActive, old =>
      { old with users := old.users.map fun u =>
          if u.id = userId then { u with isActive := isActive } else u }
  | .deleteUser userId, old =>
      { old with
        total := old.total - 1
        users := old.users.filter fun u => u.id ≠ userId }

def updater (m : AdminMutation) : Option AdminUsersResponse → Option AdminUsersResponse
  | none => none
  | some old => some (m.update old)

/-- The changed cache, and the context with the pages as they were. -/
def onMutate (m : AdminMutation) (cache : QueryCache) : QueryCache × QueriesData :=
  let previous := cache.getQueriesData
  (cache.setQueriesData m.updater, previous)

def onError (previous : QueriesData) (cache : QueryCache) : QueryCache :=
  previous.foldl (fun current entry => current.setQueryData entry.1 entry.2) cache

/-! ## Changes of different users -/

/-- What becomes of one user of a page. -/
def onUser : AdminMutation → AdminUser → Option AdminUser
  | .changeUserRole userId role, u =>
      some (if u.id = userId then { u with role := role } else u)
  | .changeUserStatus userId isActive, u =>
      some (if u.id = userId then { u with isActive := isActive } else u)
  | .deleteUser userId, u => if u.id = userId then none else some u

def removed : AdminMutation → Int
  | .deleteUser _ => 1
  | _ => 0

theorem update_eq (m : AdminMutation) (page : AdminUsersResponse) :
    m.update page =
      { page with total := page.total - m.removed, users := page.users.filterMap m.onUser } := by
  cases m with
  | changeUserRole userId role =>
      simp only [update, removed, Int.sub_zero, ← List.filterMap_eq_map]
      rfl
  | changeUserStatus userId isActive =>
      simp only [update, removed, Int.sub_zero, ← List.filterMap_eq_map]
      rfl
  | deleteUser userId =>
      simp only [update, removed, ← List.filterMap_eq_filter]
      congr 2
      funext u
      by_cases h : u.id = userId <;> simp [onUser, Option.guard, h]

theorem onUser_of_ne {m : AdminMutation} {u : AdminUser} (h : u.id ≠ m.userId) :
    m.onUser u = some u := by
  cases m <;> simp_all [onUser, userId]

theorem onUser_id {m : AdminMutation} {u u' : AdminUser} (h : m.onUser u = some u') :
    u'.id = u.id := by
  cases m <;> simp only [onUser] at h <;> split at h <;> simp_all <;> simp [← h]

theorem onUser_comm {m m' : AdminMutation} (hne : m.userId ≠ m'.userId) (u : AdminUser) :
    (m'.onUser u).bind m.onUser = (m.onUser u).bind m'.onUser := by
  by_cases h : u.id = m.userId
  · have h' : u.id ≠ m'.userId := h ▸ hne
    rw [onUser_of_ne h', Option.bind_some]
    cases hu : m.onUser u with
    | none => rfl
    | some u' => rw [Option.bind_some, onUser_of_ne ((onUser_id hu).symm ▸ h')]
  · rw [onUser_of_ne h, Option.bind_some]
    cases hu : m'.onUser u with
    | none => rfl
    | some u' => rw [Option.bind_some, onUser_of_ne ((onUser_id hu).symm ▸ h)]

theorem update_comm {m m' : AdminMutation} (hne : m.userId ≠ m'.userId)
    (page : AdminUsersResponse) : m.update (m'.update page) = m'.update (m.update page) := by
  have htotal : page.total - m'.removed - m.removed = page.total - m.removed - m'.removed := by
    omega
  simp only [update_eq, List.filterMap_filterMap, onUser_comm hne, htotal]

theorem onMutate_data (m : AdminMutation) (cache : QueryCache) (key : AdminUsersKey) :
    (m.onMutate cache).1.data key =
      if key ∈ cache.keys then (cache.data key).map m.update else cache.data key := by
  simp only [onMutate, QueryCache.setQueriesData]
  split
  · cases cache.data key <;> rfl
  · rfl

theorem onMutate_commute {m m' : AdminMutation} (h : m = m' ∨ m.userId ≠ m'.userId) :
    Optimistic.Commute onMutate m m' := by
  intro cache
  rcases h with rfl | hne
  · rfl
  · refine QueryCache.ext rfl (funext fun key => ?_)
    rw [onMutate_data, onMutate_data, onMutate_data, onMutate_data]
    have hkeys (m : AdminMutation) : (m.onMutate cache).1.keys = cache.keys := rfl
    rw [hkeys, hkeys]
    split
    · rw [Option.map_map, Option.map_map]
      exact congrArg (fun f => (cache.data key).map f) (funext (update_comm hne))
    · rfl

/-! ## Putting the snapshot back -/

theorem applyAll_onMutate (ms : List AdminMutation) (base : QueryCache) :
    Optimistic.applyAll onMutate ms base =
      { keys := base.keys
        data := fun key => if key ∈ base.keys
          then (base.data key).map fun page => ms.foldl (fun page m => m.update page) page
          else base.data key } := by
  induction ms generalizing base with
  | nil => refine QueryCache.ext rfl (funext fun key => ?_); simp [Optimistic.applyAll]
  | cons m ms ih =>
      refine (ih (m.onMutate base).1).trans (QueryCache.ext rfl (funext fun key => ?_))
      have hkeys : (m.onMutate base).1.keys = base.keys := rfl
      simp only [hkeys, onMutate_data]
      split
      · rw [Option.map_map]
        rfl
      · rfl

theorem onError_snapshot {keys : List AdminUsersKey}
    {found : AdminUsersKey → Option AdminUsersResponse} {cache : QueryCache}
    (hkeys : ∀ key ∈ keys, key ∈ cache.keys) :
    onError (keys.map fun key => (key, found key)) cache =
      { keys := cache.keys
        data := fun key => if key ∈ keys then (found key).or (cache.data key)
          else cache.data key } := by
  induction keys generalizing cache with
  | nil => refine QueryCache.ext rfl (funext fun key => ?_); simp [onError]
  | cons first keys ih =>
      obtain ⟨hfirst, hrest⟩ := List.forall_mem_cons.mp hkeys
      have hset : (cache.setQueryData first (found first)).keys = cache.keys := by
        cases found first <;> simp [QueryCache.setQueryData, hfirst]
      have hrest' : ∀ key ∈ keys, key ∈ (cache.setQueryData first (found first)).keys :=
        fun key hkey => hset.symm ▸ hrest key hkey
      refine (ih hrest').trans (QueryCache.ext hset (funext fun key => ?_))
      cases hfound : found first with
      | none => by_cases h : key = first <;> simp_all [QueryCache.setQueryData]
      | some page => by_cases h : key = first <;> simp_all [QueryCache.setQueryData]

/-- A page is never without data before and with data after, or the other way round. -/
theorem onError_onMutate (base : QueryCache) (m : AdminMutation)
    (ms ms' : List AdminMutation) :
    onError (m.onMutate (Optimistic.applyAll onMutate ms base)).2
        (Optimistic.applyAll onMutate ms' base) =
      Optimistic.applyAll onMutate ms base := by
  simp only [applyAll_onMutate, onMutate, QueryCache.getQueriesData]
  refine (onError_snapshot fun key hkey => hkey).trans
    (QueryCache.ext rfl (funext fun key => ?_))
  by_cases h : key ∈ base.keys
  · cases hdata : base.data key <;> simp [h, hdata]
  · simp [h]

/-! ## Interleavings -/

abbrev AdminUsersRun := Optimistic AdminMutation QueryCache QueriesData

def callback : AdminUsersRun → Callback AdminMutation → Option AdminUsersRun :=
  Optimistic.step onMutate onError

/-- The cached pages are those of the server with these mutations' updates. -/
def ExactlyUpdated (base cache : QueryCache) (ms : List AdminMutation) : Prop :=
  cache.keys = base.keys ∧ ∀ key ∈ base.keys,
    cache.data key =
      (base.data key).map fun page => ms.foldl (fun page m => m.update page) page

open Callback in
/--
As long as every failing mutation finds standing what stood when it started, mutations
that change no cached page apart, a rollback undoes its own change only.
-/
theorem rollbacks_undo_only_their_own_change {base : QueryCache}
    {callbacks reached : List (Callback AdminMutation)} {s : AdminUsersRun}
    (husers : ((started callbacks).map userId).Nodup)
    (hlast : Optimistic.RollsBackLast onMutate base callbacks)
    (hreached : reached <+: callbacks)
    (hrun : run callback ⟨base, []⟩ reached = some s) :
    ExactlyUpdated base s.value (standing reached) := by
  obtain ⟨rest, rfl⟩ := hreached
  have hsub : (started reached).Sublist (started (reached ++ rest)) := by
    rw [started, started, List.filterMap_append]
    exact List.sublist_append_left _ _
  have husers' : ((started reached).map userId).Nodup := (hsub.map userId).nodup husers
  have hcommute : ∀ x ∈ started reached, ∀ y ∈ started reached,
      Optimistic.Commute onMutate x y := fun x hx y hy => onMutate_commute <| by
    by_cases hxy : x = y
    · exact .inl hxy
    · exact .inr fun h => hxy (List.inj_on_of_nodup_map husers' hx hy h)
  have hfollows := Optimistic.follows_of_run (onError_onMutate base) hcommute
    (List.Nodup.of_map userId husers') hlast.left hrun
  rw [hfollows.value, applyAll_onMutate]
  refine ⟨rfl, fun key hkey => ?_⟩
  simp [hkey]

/-! ## Overlapping failures -/

def listed (id : String) (role : UserRole) (isActive : Bool) : AdminUser where
  id := id
  email := id ++ "@test.com"
  name := id
  role := role
  isActive := isActive
  createdAt := "2026-01-01T00:00:00Z"
  providerId := id
  updatedAt := "2026-01-01T00:00:00Z"

def firstKey : AdminUsersKey := ⟨0, 20, none⟩

def listing (users : List AdminUser) : AdminUsersResponse := ⟨users, 2, 0, 20⟩

def receivedCache : QueryCache where
  keys := [firstKey]
  data key := if key = firstKey then
    some (listing [listed "alice" .free true, listed "bob" .free true]) else none

def payAlice : AdminMutation := .changeUserRole "alice" .paid

def blockBob : AdminMutation := .changeUserStatus "bob" false

def pageAfter (callbacks : List (Callback AdminMutation)) : Option AdminUsersResponse :=
  (run callback ⟨receivedCache, []⟩ callbacks).bind fun s => s.value.data firstKey

def nested : List (Callback AdminMutation) :=
  [.onMutate payAlice, .onMutate blockBob, .onError blockBob]

/-- The mutation that started last fails first. -/
theorem nested_failure_undoes_only_blockBob :
    ∃ s, run callback ⟨receivedCache, []⟩ nested = some s ∧
      ExactlyUpdated receivedCache s.value [payAlice] := by
  have husers : ((Callback.started nested).map userId).Nodup := by decide
  have hlast : Optimistic.RollsBackLast onMutate receivedCache nested :=
    Optimistic.rollsBackLast_of_take receivedCache (by decide)
  exact ⟨_, rfl, rollbacks_undo_only_their_own_change husers hlast List.prefix_rfl rfl⟩

/--
Bob's block is on its way when Alice's new role is refused: the list shows Bob active.
When Bob's block is refused as well, it shows the role that Alice was refused.
-/
theorem overlapping_failures_restore_too_much :
    pageAfter [.onMutate payAlice, .onMutate blockBob, .onError payAlice] =
        some (listing [listed "alice" .free true, listed "bob" .free true]) ∧
      pageAfter [.onMutate payAlice, .onMutate blockBob, .onError payAlice,
          .onError blockBob] =
        some (listing [listed "alice" .paid true, listed "bob" .free true]) ∧
      ¬ ∀ (base : QueryCache) (callbacks : List (Callback AdminMutation))
          (s : AdminUsersRun), ((Callback.started callbacks).map userId).Nodup →
        run callback ⟨base, []⟩ callbacks = some s →
          ExactlyUpdated base s.value (Callback.standing callbacks) := by
  refine ⟨by decide, by decide, fun h => ?_⟩
  have hexact := (h receivedCache
    [.onMutate payAlice, .onMutate blockBob, .onError payAlice] _ (by decide) rfl).2
    firstKey (by decide)
  revert hexact
  decide

end AdminMutation

end IsolatedEnv.Frontend
