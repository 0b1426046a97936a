import IsolatedEnv.Backend.Overlap

/-!
# Blocks among overlapping requests

A request that has read the record before a block may still be answered, and may write after
it.  None of them lifts the block, and none that comes later is let in.
-/

namespace IsolatedEnv.Backend

open IsolatedEnv.Foundation

/-- The commit of the request neither unblocks the record nor deletes it. -/
def OpenRequest.keepsBlocked (id : Uuid) (r : OpenRequest) : Bool :=
  match r.phase with
  | .entered _ _ acting intent =>
      (match intent.actionOn id with
        | some (.block isActive) => !isActive
        | _ => true) && !intent.deletes id acting
  | _ => true

section Blocked

variable {env : Env} {s s' : Overlap} {e : Overlap.Event} {r : OpenRequest} {t t' : UsersTable}
  {id : Uuid} {u row : User} {tick : Tick} {acting : User} {profile : Profile} {way : Way}

/-- The record is there and inactive. -/
def Blocked (id : Uuid) (t : UsersTable) : Prop :=
  ∃ u, t.getById id = some u ∧ u.isActive = false

theorem StaysAs.blocked (h : StaysAs id .isActive u t) (hu : u.isActive = false) :
    Blocked id t := by
  obtain ⟨v, hv, hsame⟩ := h
  exact ⟨v, hv, Eq.trans hsame hu⟩

theorem Blocked.of_mem (h : Blocked id t) (hmem : u ∈ t.rows) (hid : u.id = id) :
    u.isActive = false := by
  obtain ⟨v, hv, hinactive⟩ := h
  rw [UsersTable.getById_eq_some.mpr ⟨hmem, hid⟩] at hv
  cases hv
  exact hinactive

theorem Intent.keepsBlocked {intent : Intent} (h : Blocked id t)
    (happly : RowChange.applyAll (intent.rowChanges acting tick) t = .ok t')
    (hblock : ∀ isActive, intent.actionOn id = some (.block isActive) → isActive = false)
    (hdelete : intent.deletes id acting = false) : Blocked id t' := by
  obtain ⟨u, hu, hinactive⟩ := h
  cases hon : intent.actionOn id with
  | none =>
      exact (staysAs happly hu (fun action h => by rw [hon] at h; cases h) hdelete).blocked
        hinactive
  | some action =>
      cases action with
      | changeRole newRole =>
          refine (staysAs happly hu (fun action h => ?_) hdelete).blocked hinactive
          rw [hon] at h
          cases h
          rfl
      | delete =>
          refine (staysAs happly hu (fun action h => ?_) hdelete).blocked hinactive
          rw [hon] at h
          cases h
          rfl
      | block isActive =>
          obtain rfl := hblock isActive hon
          cases intent with
          | reads | deletesSelf => cases hon
          | changes action target =>
              obtain ⟨hid, haction⟩ := Option.ite_none_right_eq_some.mp hon
              obtain rfl := Option.some.inj haction
              rw [rowChanges, RowChange.applyAll_singleton] at happly
              have hfind := RowChange.getById_apply_update happly hu
              rw [if_pos hid] at hfind
              refine ⟨_, hfind, ?_⟩
              -- An object that was loaded inactive sends nothing.
              change (if false = target.isActive then u.isActive else false) = false
              rw [hinactive, ite_self]

theorem OpenRequest.settle_blocked (h : r.settle env t = some t') (hblocked : Blocked id t)
    (hkeeps : r.keepsBlocked id = true) : Blocked id t' := by
  obtain ⟨profile, way, acting, intent, hphase, rfl | ⟨row, t₁, hown, happly⟩⟩ :=
    settle_eq_some h
  · exact hblocked
  · simp only [keepsBlocked, hphase, Bool.and_eq_true, Bool.not_eq_true'] at hkeeps
    obtain ⟨haction, hdelete⟩ := hkeeps
    obtain ⟨u, hu, hinactive⟩ := hblocked
    have hown' : StaysAs id .isActive u t₁ := by
      refine way.write_staysAs hown hu fun _ => ?_
      cases way <;> rfl
    refine Intent.keepsBlocked (hown'.blocked hinactive) happly (fun isActive hon => ?_) hdelete
    simpa [hon] using haction

/-- What the request has read of the record, it has read after the block. -/
def OpenRequest.KeptOut (id : Uuid) (r : OpenRequest) : Prop :=
  match r.phase with
  | .found _ (.known user) | .found _ (.linked user) => user.id = id → user.isActive = false
  | .entered _ _ acting _ => acting.id ≠ id
  | _ => True

/-- An upsert gives back the record as it is. -/
theorem upsert_blocked (h : Blocked id t)
    (hupsert : Way.missing.write env (r.auth.providerId env) profile r.tick t = .ok (row, t'))
    (hactive : row.isActive = true) : row.id ≠ id := by
  intro hid
  rcases UsersTable.upsertFromProvider_cases hupsert with
    ⟨found, hfound, hsave⟩ | ⟨-, -, hinsert⟩
  · have hmem := (UsersTable.getByProviderId_eq_some.mp hfound).1
    rw [(UsersTable.save_ok hsave).1] at hid hactive
    have hinactive : found.isActive = false := h.of_mem hmem hid
    exact Bool.noConfusion (hinactive.symm.trans hactive)
  · obtain ⟨u, hu, -⟩ := h
    obtain ⟨hmem, huid⟩ := UsersTable.getById_eq_some.mp hu
    exact UsersTable.insert_fresh hinsert u hmem (huid.trans hid.symm)

theorem OpenRequest.enter_ok {phase : RequestPhase} (h : r.enter env t profile way = .ok phase) :
    ∃ row t₁ intent,
      way.write env (r.auth.providerId env) profile r.tick t = .ok (row, t₁) ∧
      (way.object env (r.auth.providerId env) profile row).isActive = true ∧
      phase = .entered profile way (way.object env (r.auth.providerId env) profile row) intent := by
  obtain ⟨⟨row, t₁⟩, hwrite, h⟩ := bind_eq_ok.mp h
  dsimp only at h
  split at h
  · cases h
  · rename_i hactive
    split at h
    · cases h
    · split at h
      · cases h
      · obtain ⟨intent, -, rfl⟩ := exists_ok h
        exact ⟨row, t₁, intent, databaseUnavailable_eq_ok.mp hwrite,
          by simpa using hactive, rfl⟩

theorem OpenRequest.KeptOut.advance {phase : RequestPhase} (h : r.KeptOut id)
    (hblocked : Blocked id t) (hnext : r.advance env t = some phase) :
    ({ r with phase := phase } : OpenRequest).KeptOut id := by
  cases hphase : r.phase with
  | begun =>
      simp only [OpenRequest.advance, hphase] at hnext
      split at hnext
      · cases hnext
        trivial
      · split at hnext
        · rename_i user hfound
          cases hnext
          exact hblocked.of_mem (UsersTable.getByProviderId_eq_some.mp hfound).1
        · cases hnext
          trivial
  | unknown profile =>
      simp only [OpenRequest.advance, hphase] at hnext
      cases hnext
      rcases Way.byEmail_cases t profile.email with hway | ⟨user, hfound, hway⟩
      · rw [hway]
        trivial
      · rw [hway]
        exact hblocked.of_mem (UsersTable.getByEmail_eq_some.mp hfound).1
  | found profile way =>
      simp only [OpenRequest.advance, hphase] at hnext
      cases henter : r.enter env t profile way with
      | error e =>
          rw [henter] at hnext
          cases hnext
          trivial
      | ok entered =>
          rw [henter] at hnext
          cases hnext
          obtain ⟨row, t₁, intent, hwrite, hactive, rfl⟩ := r.enter_ok henter
          simp only [KeptOut, hphase] at h
          cases way with
          | known user | linked user =>
              exact fun hid => Bool.noConfusion ((h hid).symm.trans hactive)
          | missing => exact upsert_blocked hblocked hwrite hactive
  | entered | closed =>
      simp only [OpenRequest.advance, hphase] at hnext
      cases hnext

namespace Overlap

/-- The record is blocked, and no request from the `n`-th on has been let in as its owner. -/
structure Locked (id : Uuid) (n : Nat) (s : Overlap) : Prop where
  blocked : Blocked id s.users
  keptOut : ∀ (i : Nat) r, n ≤ i → s.requests[i]? = some r → r.KeptOut id

theorem Locked.setPhase {n i : Nat} {phase : RequestPhase} (h : s.Locked id n)
    (hphase : n ≤ i → ({ r with phase := phase } : OpenRequest).KeptOut id) :
    (s.setPhase i r phase).Locked id n := by
  refine ⟨h.blocked, fun k other hk hother => ?_⟩
  rcases getElem?_set_new hother with ⟨rfl, rfl⟩ | ⟨-, hother⟩
  · exact hphase hk
  · exact h.keptOut k other hk hother

theorem Locked.step {n : Nat} (h : s.Locked id n)
    (hkeeps : s.Commits (fun _ r => r.keepsBlocked id) e) (hstep : s.step env e = some s') :
    s'.Locked id n := by
  cases step_cases hstep with
  | arrived auth tick route =>
      refine ⟨h.blocked, fun k other hk hother => ?_⟩
      rcases getElem?_append_new hother with hother | ⟨-, rfl⟩
      · exact h.keptOut k other hk hother
      · trivial
  | moved _ i r phase isOpen next =>
      refine h.setPhase fun hi => ?_
      rcases next with hnext | rfl
      · exact (h.keptOut i r hi isOpen).advance h.blocked hnext
      · trivial
  | committed i r users isOpen settles =>
      have hover : (s.setPhase i r .closed).Locked id n := h.setPhase fun _ => trivial
      exact ⟨r.settle_blocked settles h.blocked (hkeeps r isOpen), hover.keptOut⟩

end Overlap

end Blocked

/-- The request has been let in as the record's owner. -/
def OpenRequest.actsAs (id : Uuid) (r : OpenRequest) : Bool :=
  match r.phase with
  | .entered _ _ acting _ => acting.id = id
  | _ => false

/--
A block outlasts all requests that overlap with it or come after it: until an unblock or a
deletion of the record commits the record stays blocked, and no request that has come since is
let in as its owner, by its subject, by its email or by an upsert.
-/
theorem block_outlasts_overlaps (env : Env) {s s' : Overlap} {events : List Overlap.Event}
    {id : Uuid} (hblocked : Blocked id s.users)
    (hkept : Along (Overlap.step env) (Overlap.Commits fun _ r => r.keepsBlocked id) s events)
    (hrun : run (Overlap.step env) s events = some s') :
    Blocked id s'.users ∧ ∀ (i : Nat) r, s.requests.length ≤ i →
      s'.requests[i]? = some r → r.actsAs id = false := by
  have hstart : s.Locked id s.requests.length := by
    refine ⟨hblocked, fun i r hi hr => ?_⟩
    rw [List.getElem?_eq_none hi] at hr
    cases hr
  have hlocked : s'.Locked id s.requests.length :=
    run_invariant_along (fun _ _ _ h hguard hstep => h.step hguard hstep) hstart hkept hrun
  refine ⟨hlocked.blocked, fun i r hi hr => ?_⟩
  have hout := hlocked.keptOut i r hi hr
  unfold OpenRequest.actsAs
  cases hphase : r.phase with
  | entered profile way acting intent =>
      simp only [OpenRequest.KeptOut, hphase] at hout
      exact decide_eq_false hout
  | begun | unknown | found | closed => rfl

/-- Bob's token is still good, and the role change of his record is still under way. -/
def afterTheBlock : List Overlap.Event :=
  [.arrive (exampleRequest "bob" ["paid"]) (exampleTick 102) .getMe, .work 2, .commit 0, .work 2]

theorem bob_stays_out : ∃ s, run (Overlap.step exampleEnv) afterBlock afterTheBlock = some s ∧
    Blocked 2 s.users ∧ ∀ r ∈ s.requests[2]?, r.actsAs 2 = false := by
  obtain ⟨s, hrun, -⟩ := Option.map_eq_some_iff.mp (by decide +kernel :
    (run (Overlap.step exampleEnv) afterBlock afterTheBlock).map (fun _ => ()) = some ())
  obtain ⟨bob, hbob, hinactive⟩ := Option.map_eq_some_iff.mp (by decide +kernel :
    (afterBlock.users.getById 2).map User.isActive = some false)
  obtain ⟨hblocked, hout⟩ := block_outlasts_overlaps exampleEnv ⟨bob, hbob, hinactive⟩
    (by decide +kernel) hrun
  exact ⟨s, hrun, hblocked, fun r hr => hout 2 r (by decide +kernel) hr⟩

end IsolatedEnv.Backend
