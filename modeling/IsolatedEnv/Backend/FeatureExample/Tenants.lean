import IsolatedEnv.Backend.Core.RateLimit
import IsolatedEnv.Backend.FeatureExample.ItemCalls
import IsolatedEnv.Foundation.Noninterference

/-!
# Owners beside each other

The items API for all owners at once.  A request is admitted by the limiter when it
comes; then its steps interleave with those of the others in any way.  An owner sees
its own part of the tables and of Redis; only the limiter counts requests without
asking whose they are.
-/

namespace IsolatedEnv.Backend

open IsolatedEnv.Foundation

structure Tenants (limiter : RateLimiter) where
  db : Database
  redis : Redis (List ItemResponse)
  hits : limiter.Store
  issued : Issued
  calls : List ItemCall

namespace Tenants

variable {limiter : RateLimiter}

def start (db : Database) (hits : limiter.Store) : Tenants limiter where
  db := db
  redis := .start
  hits := hits
  issued := fun id => (Rows.find Item.id id db.items).map Item.ownerId
  calls := []

/-- `path` is the one in the request, as its sender has written it. -/
inductive Event where
  | request (request : Request) (path : String) (route : ItemRoute)
  | work (owner : Uuid) (number : Nat) (around : ItemCall.Surroundings)
  | wait (milliseconds : Nat)
  | evict (key : String)
  | evictLock (key : String)

def callsOf (s : Tenants limiter) (owner : Uuid) : List ItemCall :=
  s.calls.filter fun c => c.owner = owner

/-- The responses to the owner's requests, as far as they are there. -/
def answers (s : Tenants limiter) (owner : Uuid) : List (Option (Except Exc Answer)) :=
  (s.callsOf owner).map fun c => c.phase.answer

def rowLocked (s : Tenants limiter) (id : Uuid) : Bool :=
  s.calls.any fun c => c.phase.statement.any fun statement => statement.rowId = id

def add (s : Tenants limiter) (owner : Uuid) (request : Request) (phase : ItemPhase) :
    Tenants limiter :=
  { s with calls := s.calls ++
      [⟨owner, (s.callsOf owner).length, request.itemId, request.tick.now, phase⟩] }

/-- The owner is a dependency, which comes before the validation and the limiter. -/
def request (env : Env) (s : Tenants limiter) (request : Request) (path : String)
    (route : ItemRoute) : Tenants limiter :=
  match ownerId env request.auth with
  | .error _ => s
  | .ok owner =>
      match route.first with
      | none => s.add owner request (.answered (.error unprocessable))
      | some phase =>
          let (allowed, hits) :=
            limiter.hit s.hits request.tick.now request.realIp path route.perMinute
          { s with hits := hits }.add owner request
            (if allowed then phase else .answered (.error rateLimitExceeded))

/-- `uuid4` gives no identifier a second time; an answered request does nothing more. -/
def work (s : Tenants limiter) (owner : Uuid) (number : Nat)
    (around : ItemCall.Surroundings) : Option (Tenants limiter) := do
  let c ← Rows.find ItemCall.key (owner, number) s.calls
  if c.phase.answer.isSome then some s
  else if c.drawn.any fun id => (s.issued id).isSome then none
  else
    let (phase, db, redis) ← c.advance s.db s.redis s.rowLocked around
    some { s with
      db := db
      redis := redis
      issued := fun id => if c.drawn = some id then some c.owner else s.issued id
      calls := Rows.replace ItemCall.key { c with phase := phase } s.calls }

def step (env : Env) (s : Tenants limiter) : Event → Option (Tenants limiter)
  | .request request path route => some (s.request env request path route)
  | .work owner number around => s.work owner number around
  | .wait milliseconds =>
      some { s with redis := { s.redis with now := s.redis.now + milliseconds } }
  | .evict key =>
      some { s with redis := { s.redis with values := s.redis.values.erase key } }
  | .evictLock key =>
      some { s with redis := { s.redis with locks := s.redis.locks.erase key } }

/-! ## What an owner sees -/

namespace Event

variable (env : Env) (owner : Uuid)

def sentBy : Event → Bool
  | .request incoming _ _ =>
      match ownerId env incoming.auth with
      | .ok sender => sender = owner
      | .error _ => false
  | .work sender _ _ => sender = owner
  | .wait _ | .evict _ | .evictLock _ => false

/-- The owner's own steps, the time, and what happens to its keys. -/
def visible : Event → Bool
  | .wait _ => true
  | .evict key | .evictLock key => ItemService.ownKey owner key
  | e => e.sentBy env owner

/-- The owner's requests come from these addresses, and nobody else's do. -/
def Apart (addresses : Set String) : Event → Prop
  | .request incoming _ _ => ∀ sender, ownerId env incoming.auth = .ok sender →
      (incoming.realIp ∈ addresses ↔ sender = owner)
  | _ => True

end Event

structure View (limiter : RateLimiter) (addresses : Set String) where
  db : Database
  redis : Redis (List ItemResponse)
  counts : addresses → limiter.Counts
  calls : List ItemCall

def view (owner : Uuid) (addresses : Set String) (s : Tenants limiter) :
    View limiter addresses where
  db := s.db.ofOwner owner
  redis := s.redis.only (ItemService.ownKey owner)
  counts := fun address => limiter.counts s.hits address
  calls := s.callsOf owner

/-- Every identifier is of the owner to whom it was given. -/
structure Invariant (s : Tenants limiter) : Prop where
  items : Database.Issues s.issued s.db.items
  calls : ∀ c ∈ s.calls, c.phase.Fits s.issued c.owner

variable {env : Env} {owner sender : Uuid} {addresses : Set String}
  {s s' t t' : Tenants limiter} {c : ItemCall} {number : Nat}
  {around : ItemCall.Surroundings}

theorem start_invariant (db : Database) (hits : limiter.Store) : (start db hits).Invariant where
  items i hi := by
    have hfind : Rows.find Item.id i.id db.items = some i :=
      (Rows.find_eq_some db.consistent.itemId).mpr ⟨hi, rfl⟩
    simp [start, hfind]
  calls c hc := by cases hc

theorem view_eq_iff :
    s.view owner addresses = t.view owner addresses ↔
      s.db.ofOwner owner = t.db.ofOwner owner ∧
        s.redis.only (ItemService.ownKey owner) = t.redis.only (ItemService.ownKey owner) ∧
        (∀ address ∈ addresses, limiter.counts s.hits address =
          limiter.counts t.hits address) ∧
        s.callsOf owner = t.callsOf owner := by
  simp only [view, View.mk.injEq, funext_iff, Subtype.forall]

/-! ### Requests that come -/

theorem callsOf_add_other {request : Request} {phase : ItemPhase} (h : sender ≠ owner) :
    (s.add sender request phase).callsOf owner = s.callsOf owner := by
  simp [callsOf, add, h]

theorem callsOf_add_self {request : Request} {phase : ItemPhase} :
    (s.add owner request phase).callsOf owner = s.callsOf owner ++
      [⟨owner, (s.callsOf owner).length, request.itemId, request.tick.now, phase⟩] := by
  simp [callsOf, add]

theorem request_invariant {request : Request} {path : String} {route : ItemRoute}
    (h : s.Invariant) : (s.request env request path route).Invariant := by
  have hadd (hits : limiter.Store) (owner : Uuid) (phase : ItemPhase)
      (hphase : phase.Fits s.issued owner) :
      ({ s with hits := hits }.add owner request phase : Tenants limiter).Invariant := by
    refine ⟨h.items, fun c hc => ?_⟩
    rcases List.mem_append.mp hc with hc | hc
    · exact h.calls c hc
    · rw [List.mem_singleton.mp hc]
      exact hphase
  unfold Tenants.request
  split
  · exact h
  · split
    · exact hadd s.hits _ _ trivial
    · rename_i phase hfirst
      refine hadd _ _ _ ?_
      split
      · cases route <;> obtain ⟨p, -, rfl⟩ := Option.map_eq_some_iff.mp hfirst <;> trivial
      · trivial

theorem request_db (s : Tenants limiter) (request : Request) (path : String)
    (route : ItemRoute) : (s.request env request path route).db = s.db := by
  unfold Tenants.request
  split
  · rfl
  · split <;> rfl

theorem request_other {request : Request} {path : String} {route : ItemRoute}
    (hsender : ∀ sender, ownerId env request.auth = .ok sender →
      sender ≠ owner ∧ request.realIp ∉ addresses) :
    (s.request env request path route).view owner addresses = s.view owner addresses := by
  unfold Tenants.request
  split
  · rfl
  · rename_i sender howner
    obtain ⟨hother, haddress⟩ := hsender sender howner
    split
    · exact view_eq_iff.mpr ⟨rfl, rfl, fun _ _ => rfl, callsOf_add_other hother⟩
    · refine view_eq_iff.mpr ⟨rfl, rfl, fun address hmem => ?_, callsOf_add_other hother⟩
      exact limiter.hit_other _ _ _ _ _ _ fun h => haddress (h ▸ hmem)

theorem request_own {request : Request} {path : String} {route : ItemRoute}
    (howner : ownerId env request.auth = .ok owner) (haddress : request.realIp ∈ addresses)
    (hview : s.view owner addresses = t.view owner addresses) :
    (s.request env request path route).view owner addresses =
      (t.request env request path route).view owner addresses := by
  obtain ⟨hdb, hredis, hcounts, hcalls⟩ := view_eq_iff.mp hview
  unfold Tenants.request
  simp only [howner]
  cases route.first with
  | none =>
      refine view_eq_iff.mpr ⟨hdb, hredis, hcounts, ?_⟩
      rw [callsOf_add_self, callsOf_add_self, hcalls]
  | some phase =>
      obtain ⟨hallowed, hsame⟩ := limiter.hit_same s.hits t.hits request.tick.now
        request.realIp path route.perMinute (hcounts _ haddress)
      refine view_eq_iff.mpr ⟨hdb, hredis, fun address hmem => ?_, ?_⟩
      · by_cases h : address = request.realIp
        · rw [h]
          exact hsame
        · exact (limiter.hit_other _ _ _ _ _ _ h).trans
            ((hcounts address hmem).trans (limiter.hit_other _ _ _ _ _ _ h).symm)
      · have hcalls (hits hits' : limiter.Store) :
            ({ s with hits := hits } : Tenants limiter).callsOf owner =
              ({ t with hits := hits' } : Tenants limiter).callsOf owner := hcalls
        rw [callsOf_add_self, callsOf_add_self, hallowed, hcalls]

/-! ### Steps of a request -/

/-- The identifiers given once the step is taken. -/
def issuedWith (s : Tenants limiter) (c : ItemCall) : Issued :=
  fun id => if c.drawn = some id then some c.owner else s.issued id

theorem work_eq_some (h : s.work sender number around = some s') :
    ∃ c, Rows.find ItemCall.key (sender, number) s.calls = some c ∧
      (c.phase.answer.isSome = true ∧ s' = s ∨
        c.phase.answer.isSome = false ∧ (∀ id ∈ c.drawn, s.issued id = none) ∧
          ∃ phase db redis,
            c.advance s.db s.redis s.rowLocked around = some (phase, db, redis) ∧
            s' = { s with
              db := db
              redis := redis
              issued := s.issuedWith c
              calls := Rows.replace ItemCall.key { c with phase := phase } s.calls }) := by
  obtain ⟨c, hc, h⟩ := Option.bind_eq_some_iff.mp h
  refine ⟨c, hc, ?_⟩
  split at h
  · rename_i hanswered
    cases h
    exact .inl ⟨hanswered, rfl⟩
  · rename_i hanswered
    split at h
    · cases h
    · rename_i hdrawn
      obtain ⟨⟨phase, db, redis⟩, hadvance, h⟩ := Option.bind_eq_some_iff.mp h
      cases h
      refine .inr ⟨eq_false_of_ne_true hanswered, fun id hid => ?_, phase, db, redis,
        hadvance, rfl⟩
      simpa [show c.drawn = some id from hid] using hdrawn

section Work

variable (h : s.Invariant) (hfresh : ∀ id ∈ c.drawn, s.issued id = none)

include hfresh in
theorem issuedWith_mono (id owner : Uuid) (hissued : s.issued id = some owner) :
    s.issuedWith c id = some owner := by
  unfold issuedWith
  split
  · rename_i hid
    rw [hfresh id hid] at hissued
    cases hissued
  · exact hissued

theorem issuedWith_drawn : ∀ id ∈ c.drawn, s.issuedWith c id = some c.owner :=
  fun _ hid => if_pos hid

include h hfresh in
theorem Invariant.issues : Database.Issues (s.issuedWith c) s.db.items :=
  fun i hi => issuedWith_mono hfresh _ _ (h.items i hi)

include h hfresh in
theorem Invariant.fits {c' : ItemCall} (hc' : c' ∈ s.calls) :
    c'.phase.Fits (s.issuedWith c) c'.owner :=
  (h.calls c' hc').mono (issuedWith_mono hfresh)

include h hfresh in
/-- A row of the owner is locked by the owner's requests only. -/
theorem Invariant.rowLocked_own {id : Uuid} (hid : s.issuedWith c id = some owner) :
    ((s.callsOf owner).any fun c => c.phase.statement.any fun statement =>
      statement.rowId = id) = s.rowLocked id := by
  rw [Bool.eq_iff_iff]
  simp only [rowLocked, callsOf, List.any_eq_true, List.mem_filter, decide_eq_true_eq]
  constructor
  · rintro ⟨c', ⟨hc', -⟩, hlocked⟩
    exact ⟨c', hc', hlocked⟩
  · rintro ⟨c', hc', hlocked⟩
    refine ⟨c', ⟨hc', ?_⟩, hlocked⟩
    obtain ⟨statement, hstatement, hrow⟩ := (Option.any_eq_true _ _).mp hlocked
    have hissued := ((h.fits hfresh hc').statement statement hstatement).issued
    rw [of_decide_eq_true hrow, hid] at hissued
    exact (Option.some.inj hissued).symm

end Work

theorem key_owner {c c' : ItemCall} (h : c.key = c'.key) : c.owner = c'.owner :=
  congrArg Prod.fst h

theorem find_owner (h : Rows.find ItemCall.key (sender, number) s.calls = some c) :
    c ∈ s.calls ∧ c.owner = sender :=
  ⟨Rows.mem_of_find h, congrArg Prod.fst (Rows.key_of_find h)⟩

theorem work_invariant (h : s.Invariant) (hstep : s.work sender number around = some s') :
    s'.Invariant := by
  obtain ⟨c, hfind, ⟨-, rfl⟩ | ⟨-, hfresh, phase, db, redis, hadvance, rfl⟩⟩ :=
    work_eq_some hstep
  · exact h
  · have hmem := (find_owner hfind).1
    obtain ⟨hitems, hphase⟩ := ItemCall.advance_keeps (h.issues hfresh) (h.fits hfresh hmem)
      issuedWith_drawn hadvance
    refine ⟨hitems, fun c' hc' => ?_⟩
    rcases Rows.mem_replace.mp hc' with ⟨hc', -⟩ | ⟨rfl, -⟩
    · exact h.fits hfresh hc'
    · exact hphase

theorem callsOf_replace {calls : List ItemCall} {new : ItemCall} :
    ((Rows.replace ItemCall.key new calls).filter fun c => c.owner = owner) =
      Rows.replace ItemCall.key new (calls.filter fun c => c.owner = owner) :=
  Rows.filter_replace fun c _ hkey => by rw [key_owner hkey]

theorem work_other (h : s.Invariant) (hother : sender ≠ owner)
    (hstep : s.work sender number around = some s') :
    s'.view owner addresses = s.view owner addresses := by
  obtain ⟨c, hfind, ⟨-, rfl⟩ | ⟨-, hfresh, phase, db, redis, hadvance, rfl⟩⟩ :=
    work_eq_some hstep
  · rfl
  · obtain ⟨hmem, rfl⟩ := find_owner hfind
    obtain ⟨hdb, hredis⟩ := ItemCall.advance_other (h.issues hfresh) (h.fits hfresh hmem)
      hother hadvance
    refine view_eq_iff.mpr ⟨hdb, hredis, fun _ _ => rfl, callsOf_replace.trans ?_⟩
    refine Rows.replace_of_forall_ne fun c' hc' hkey => hother ?_
    rw [← of_decide_eq_true (List.mem_filter.mp hc').2]
    exact (key_owner hkey).symm

/-- What a request of the owner does next depends on the owner's part only. -/
theorem work_own (hs : s.Invariant) (ht : t.Invariant)
    (hview : s.view owner addresses = t.view owner addresses)
    (hstep : s.work owner number around = some s')
    (hstep' : t.work owner number around = some t') :
    s'.view owner addresses = t'.view owner addresses := by
  obtain ⟨hdb, hredis, hcounts, hcalls⟩ := view_eq_iff.mp hview
  have hfindOwn (s : Tenants limiter) :
      Rows.find ItemCall.key (owner, number) (s.callsOf owner) =
        Rows.find ItemCall.key (owner, number) s.calls :=
    Rows.find_filter fun c _ hkey => decide_eq_true (congrArg Prod.fst hkey)
  obtain ⟨c, hfind, hwork⟩ := work_eq_some hstep
  obtain ⟨c', hfind', hwork'⟩ := work_eq_some hstep'
  have hsame : c = c' := by
    rw [← hfindOwn s, hcalls, hfindOwn t, hfind'] at hfind
    exact (Option.some.inj hfind).symm
  subst hsame
  obtain ⟨hmem, rfl⟩ := find_owner hfind
  have hmem' := (find_owner hfind').1
  rcases hwork with ⟨hanswered, rfl⟩ | ⟨hgoing, hfresh, phase, db, redis, hadvance, rfl⟩
  · rcases hwork' with ⟨-, rfl⟩ | ⟨hgoing, -⟩
    · exact hview
    · rw [hanswered] at hgoing
      cases hgoing
  · rcases hwork' with ⟨hanswered, -⟩ | ⟨-, hfresh', phase', db', redis', hadvance', rfl⟩
    · rw [hgoing] at hanswered
      cases hanswered
    · -- Both steps are the one that is taken in the part.
      have hpart := ItemCall.advance_ofOwner s.redis around
        (hs.issues hfresh) (hs.fits hfresh hmem) issuedWith_drawn
        fun _ hid => hs.rowLocked_own hfresh hid
      have hpart' := ItemCall.advance_ofOwner t.redis around
        (ht.issues hfresh') (ht.fits hfresh' hmem') issuedWith_drawn
        fun _ hid => ht.rowLocked_own hfresh' hid
      rw [hdb, hredis, hcalls, hpart', hadvance, hadvance'] at hpart
      simp only [Option.map_some, Option.some.injEq, Prod.mk.injEq] at hpart
      obtain ⟨hphase, hdb', hredis'⟩ := hpart
      refine view_eq_iff.mpr ⟨hdb'.symm, hredis'.symm, hcounts, ?_⟩
      exact callsOf_replace.trans
        ((congrArg₂ (fun phase calls => Rows.replace ItemCall.key { c with phase := phase }
          calls) hphase.symm hcalls).trans callsOf_replace.symm)

/-! ### Runs -/

theorem step_invariant {e : Event} (h : s.Invariant) (hstep : s.step env e = some s') :
    s'.Invariant := by
  cases e with
  | request incoming path route =>
      cases hstep
      exact request_invariant h
  | work sender number around => exact work_invariant h hstep
  | wait milliseconds | evict key | evictLock key =>
      cases hstep
      exact ⟨h.items, h.calls⟩

theorem sentBy_request {incoming : Request} {path : String} {route : ItemRoute} :
    (Event.request incoming path route).sentBy env owner = true ↔
      ownerId env incoming.auth = .ok owner := by
  change (match ownerId env incoming.auth with
    | .ok sender => decide (sender = owner)
    | .error _ => false) = true ↔ _
  cases ownerId env incoming.auth <;> simp

/-- What another owner's step leaves of an owner's items, its keys and its requests. -/
theorem step_hidden {e : Event} (h : s.Invariant) (hapart : e.Apart env owner addresses)
    (hhidden : e.visible env owner = false) (hstep : s.step env e = some s') :
    s'.view owner addresses = s.view owner addresses := by
  cases e with
  | request incoming path route =>
      cases hstep
      refine request_other fun sender hsender => ?_
      have hother : sender ≠ owner := by
        rintro rfl
        have hsent : (Event.request incoming path route).sentBy env sender = true :=
          sentBy_request.mpr hsender
        exact absurd hsent (Bool.eq_false_iff.mp hhidden)
      exact ⟨hother, fun hmem => hother ((hapart sender hsender).mp hmem)⟩
  | work sender number around => exact work_other h (of_decide_eq_false hhidden) hstep
  | wait milliseconds => cases hhidden
  | evict key =>
      cases hstep
      have hvalues : (s.redis.values.erase key).only (ItemService.ownKey owner) =
          s.redis.values.only (ItemService.ownKey owner) := Expiring.erase_only_other hhidden
      refine view_eq_iff.mpr ⟨rfl, ?_, fun _ _ => rfl, rfl⟩
      simp only [Redis.only, hvalues]
  | evictLock key =>
      cases hstep
      have hlocks : (s.redis.locks.erase key).only (ItemService.ownKey owner) =
          s.redis.locks.only (ItemService.ownKey owner) := Expiring.erase_only_other hhidden
      refine view_eq_iff.mpr ⟨rfl, ?_, fun _ _ => rfl, rfl⟩
      simp only [Redis.only, hlocks]

theorem step_seen {e : Event} (hs : s.Invariant) (ht : t.Invariant)
    (hapart : e.Apart env owner addresses) (hvisible : e.visible env owner = true)
    (hview : s.view owner addresses = t.view owner addresses)
    (hstep : s.step env e = some s') (hstep' : t.step env e = some t') :
    s'.view owner addresses = t'.view owner addresses := by
  obtain ⟨hdb, hredis, hcounts, hcalls⟩ := view_eq_iff.mp hview
  cases e with
  | request incoming path route =>
      cases hstep
      cases hstep'
      have hsent : (Event.request incoming path route).sentBy env owner = true := hvisible
      have howner := sentBy_request.mp hsent
      exact request_own howner ((hapart owner howner).mpr rfl) hview
  | work sender number around =>
      obtain rfl := of_decide_eq_true hvisible
      exact work_own hs ht hview hstep hstep'
  | wait milliseconds =>
      cases hstep
      cases hstep'
      refine view_eq_iff.mpr ⟨hdb, ?_, hcounts, hcalls⟩
      exact congrArg (fun redis => { redis with now := redis.now + milliseconds }) hredis
  | evict key =>
      cases hstep
      cases hstep'
      refine view_eq_iff.mpr ⟨hdb, ?_, hcounts, hcalls⟩
      have herased := congrArg (fun redis : Redis (List ItemResponse) =>
        { redis with values := redis.values.erase key }) hredis
      simpa only [Redis.only, Expiring.erase_only] using herased
  | evictLock key =>
      cases hstep
      cases hstep'
      refine view_eq_iff.mpr ⟨hdb, ?_, hcounts, hcalls⟩
      have herased := congrArg (fun redis : Redis (List ItemResponse) =>
        { redis with locks := redis.locks.erase key }) hredis
      simpa only [Redis.only, Expiring.erase_only] using herased

theorem unwinds (env : Env) (owner : Uuid) (addresses : Set String) :
    Unwinds (step env : Tenants limiter → Event → Option (Tenants limiter))
      (Event.visible env owner)
      (Event.Apart env owner addresses) Invariant (view owner addresses) where
  keeps _ _ _ := step_invariant
  hidden _ _ _ := step_hidden
  seen _ _ _ _ _ := step_seen

/--
An owner whose addresses are its own gets the same answers whatever the others send,
and keeps its items from every address.
-/
theorem tenants_isolated (limiter : RateLimiter) (env : Env) (owner : Uuid) :
    (∀ (addresses : Set String) (db db' : Database) (hits hits' : limiter.Store)
        (es es' : List Event) (s s' : Tenants limiter),
      db.ofOwner owner = db'.ofOwner owner →
      (∀ address ∈ addresses, limiter.counts hits address = limiter.counts hits' address) →
      (∀ e ∈ es, e.Apart env owner addresses) → (∀ e ∈ es', e.Apart env owner addresses) →
      es.filter (Event.visible env owner) = es'.filter (Event.visible env owner) →
      run (step env) (start db hits) es = some s →
      run (step env) (start db' hits') es' = some s' →
      s.answers owner = s'.answers owner ∧
        (s.db.ofOwner owner).items = (s'.db.ofOwner owner).items) ∧
    ∀ (db : Database) (hits : limiter.Store) (es : List Event) (s t : Tenants limiter)
        (e : Event),
      run (step env) (start db hits) es = some s → e.sentBy env owner = false →
      step env s e = some t → (t.db.ofOwner owner).items = (s.db.ofOwner owner).items := by
  constructor
  · intro addresses db db' hits hits' es es' s s' hdb hhits hapart hapart' hsame hrun hrun'
    have hstart : (start db hits).view owner addresses =
        (start db' hits').view owner addresses :=
      view_eq_iff.mpr ⟨hdb, rfl, hhits, rfl⟩
    have hview := (unwinds env owner addresses).view_eq (start_invariant db hits)
      (start_invariant db' hits') hstart hapart hapart' hsame hrun hrun'
    obtain ⟨hitems, -, -, hcalls⟩ := view_eq_iff.mp hview
    exact ⟨congrArg (List.map fun c : ItemCall => c.phase.answer) hcalls,
      congrArg Database.items hitems⟩
  · intro db hits es s t e hrun hother hstep
    have hinvariant : s.Invariant :=
      run_invariant (fun _ _ _ => step_invariant) (start_invariant db hits) hrun
    cases e with
    | request incoming path route =>
        cases hstep
        rw [request_db]
    | work sender number around =>
        have hview : t.view owner ∅ = s.view owner ∅ :=
          work_other hinvariant (of_decide_eq_false hother) hstep
        exact congrArg Database.items (view_eq_iff.mp hview).1
    | wait milliseconds | evict key | evictLock key =>
        cases hstep
        rfl

/-! ## Alice and Bob -/

def milk : Item := ⟨7, "Milk", none, 1, exampleTime, exampleTime⟩

/-- The tables with an item of Alice's. -/
def alicesMilk : Database where
  users := AdminRouter.onlyAlice
  items := [milk]
  auditLog := []
  consistent := by decide +kernel

def sentFrom (subject address : String) : Request :=
  { exampleVisit subject [] 9 with clientHost := some address }

def deleteMilk (subject address : String) : Event :=
  .request (sentFrom subject address) "/api/v1/items/00000000-0000-0000-0000-000000000007"
    (.deleteItem (some 7))

def undisturbed : ItemCall.Surroundings := ⟨.done, fun _ => 0, []⟩

def aliceDeletes : List Event :=
  deleteMilk "00000000-0000-0000-0000-000000000001" "10.0.0.1" ::
    List.replicate 4 (.work 1 0 undisturbed)

def bobDeletes (address : String) : Event :=
  deleteMilk "00000000-0000-0000-0000-000000000002" address

theorem bobs_subject (address : String) :
    ownerId exampleEnv (sentFrom "00000000-0000-0000-0000-000000000002" address).auth =
      .ok 2 := by
  have hsubject : ownerId exampleEnv
      (exampleRequest "00000000-0000-0000-0000-000000000002" []) = .ok 2 := by
    decide +kernel
  exact hsubject

theorem alices_subject (address : String) :
    ownerId exampleEnv (sentFrom "00000000-0000-0000-0000-000000000001" address).auth =
      .ok 1 := by
  have hsubject : ownerId exampleEnv
      (exampleRequest "00000000-0000-0000-0000-000000000001" []) = .ok 1 := by
    decide +kernel
  exact hsubject

theorem bob_hidden (address : String) : (bobDeletes address).visible exampleEnv 1 = false := by
  change (match ownerId exampleEnv
      (sentFrom "00000000-0000-0000-0000-000000000002" address).auth with
    | .ok sender => decide (sender = 1)
    | .error _ => false) = false
  rw [bobs_subject]
  decide

theorem visible_beside_bob (n : Nat) (address : String) (es : List Event) :
    (List.replicate n (bobDeletes address) ++ es).filter (Event.visible exampleEnv 1) =
      es.filter (Event.visible exampleEnv 1) := by
  rw [List.filter_append, List.filter_replicate, bob_hidden]
  rfl

def beforeAnyone : Tenants fixedWindow := start alicesMilk Expiring.empty

/-- After thirty requests of Bob's from her address, Alice's is refused. -/
theorem shared_address_refuses :
    ∃ es es' : List Event, ∃ s s' : Tenants fixedWindow,
      es.filter (Event.visible exampleEnv 1) = es'.filter (Event.visible exampleEnv 1) ∧
      run (step exampleEnv) beforeAnyone es = some s ∧
      run (step exampleEnv) beforeAnyone es' = some s' ∧ s.answers 1 ≠ s'.answers 1 := by
  have hrefused : ∃ s ∈ run (step exampleEnv) beforeAnyone
      (List.replicate 30 (bobDeletes "10.0.0.1") ++ aliceDeletes),
        (s.answers 1).map (Option.map Except.isOk) = [some false] := by
    decide +kernel
  have hdeleted : ∃ s ∈ run (step exampleEnv) beforeAnyone aliceDeletes,
      (s.answers 1).map (Option.map Except.isOk) = [some true] := by
    decide +kernel
  obtain ⟨s, hs, hrefused⟩ := hrefused
  obtain ⟨s', hs', hdeleted⟩ := hdeleted
  refine ⟨_, _, s, s', visible_beside_bob 30 "10.0.0.1" aliceDeletes, hs, hs', fun h => ?_⟩
  rw [h, hdeleted] at hrefused
  cases hrefused

theorem alice_apart : ∀ e ∈ aliceDeletes, e.Apart exampleEnv 1 {"10.0.0.1"} := by
  intro e he
  rcases List.mem_cons.mp he with rfl | he
  · intro sender hsender
    rw [alices_subject] at hsender
    cases hsender
    exact iff_of_true rfl rfl
  · rw [List.eq_of_mem_replicate he]
    trivial

theorem bob_apart : (bobDeletes "10.0.0.2").Apart exampleEnv 1 {"10.0.0.1"} := by
  intro sender hsender
  rw [bobs_subject] at hsender
  cases hsender
  exact iff_of_false (by decide) (by decide)

/-- From another address than hers they change nothing for Alice. -/
theorem alice_beside_bob :
    ∃ s ∈ run (step exampleEnv) beforeAnyone
        (List.replicate 30 (bobDeletes "10.0.0.2") ++ aliceDeletes),
      ∃ s' ∈ run (step exampleEnv) beforeAnyone aliceDeletes,
        s.answers 1 = s'.answers 1 ∧
          ∀ t, step exampleEnv s (bobDeletes "10.0.0.2") = some t →
            (t.db.ofOwner 1).items = (s.db.ofOwner 1).items := by
  have hrun : (run (step exampleEnv) beforeAnyone
      (List.replicate 30 (bobDeletes "10.0.0.2") ++ aliceDeletes)).isSome = true := by
    decide +kernel
  have hrun' : (run (step exampleEnv) beforeAnyone aliceDeletes).isSome = true := by
    decide +kernel
  have hapart : ∀ e ∈ List.replicate 30 (bobDeletes "10.0.0.2") ++ aliceDeletes,
      e.Apart exampleEnv 1 {"10.0.0.1"} := by
    intro e he
    rcases List.mem_append.mp he with he | he
    · rw [List.eq_of_mem_replicate he]
      exact bob_apart
    · exact alice_apart e he
  obtain ⟨s, hs⟩ := Option.isSome_iff_exists.mp hrun
  obtain ⟨s', hs'⟩ := Option.isSome_iff_exists.mp hrun'
  obtain ⟨hanswers, hitems⟩ := tenants_isolated fixedWindow exampleEnv 1
  exact ⟨s, hs, s', hs',
    (hanswers {"10.0.0.1"} alicesMilk alicesMilk Expiring.empty Expiring.empty _ _ s s' rfl
      (fun _ _ => rfl) hapart alice_apart
      (visible_beside_bob 30 "10.0.0.2" aliceDeletes) hs hs').1,
    fun t ht => hitems alicesMilk Expiring.empty _ s t (bobDeletes "10.0.0.2") hs
      (bob_hidden "10.0.0.2") ht⟩

end Tenants

end IsolatedEnv.Backend
