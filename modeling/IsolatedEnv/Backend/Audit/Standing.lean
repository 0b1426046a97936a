import IsolatedEnv.Backend.Effects
import IsolatedEnv.Backend.Unblocking

/-!
# What the log says of an account

No code reads the entries back to decide anything.  Still they say whether an account
that was ever there is active, blocked or gone: the writer of each entry changes the
record as the entry says, and nothing else changes it in this respect.
-/

namespace IsolatedEnv.Backend

open IsolatedEnv.Foundation

inductive Standing where
  | active
  | blocked
  | gone
  deriving DecidableEq, Repr

def User.standing (u : User) : Standing := if u.isActive then .active else .blocked

def UsersTable.standing (t : UsersTable) (id : Uuid) : Standing :=
  (t.getById id).elim .gone User.standing

/-- The standing of the target after what the entry records. -/
def AuditFact.after (fact : AuditFact) (before : Standing) : Standing :=
  if fact.action = AuditAction.blockUser.value then .blocked
  else if fact.action = AuditAction.unblockUser.value then .active
  else if fact.action = AuditAction.deleteUser.value ∨
      fact.action = AuditAction.deleteSelf.value then .gone
  else before

/-- The log read from its first entry on; an account starts active. -/
def replay (log : List AuditLog) (id : Uuid) : Standing :=
  (log.filter fun e => e.targetUserId = id).foldl (fun before e => e.fact.after before) .active

theorem replay_append (log : List AuditLog) (entry : AuditLog) (id : Uuid) :
    replay (log ++ [entry]) id =
      if entry.fact.targetUserId = id then entry.fact.after (replay log id)
      else replay log id := by
  unfold replay AuditLog.fact
  rw [List.filter_append, List.foldl_append]
  by_cases h : entry.targetUserId = id <;> simp [h]

theorem replay_untargeted {log : List AuditLog} {id : Uuid}
    (h : ∀ e ∈ log, e.targetUserId ≠ id) : replay log id = .active := by
  unfold replay
  rw [List.filter_eq_nil_iff.mpr fun e he => by simpa using h e he]
  rfl

def Database.RightAbout (id : Uuid) (db : Database) : Prop :=
  db.users.standing id = replay db.auditLog id

/-- No record has the identifier, and no entry is about it. -/
def Database.Unheard (id : Uuid) (db : Database) : Prop :=
  db.users.standing id = .gone ∧ ∀ e ∈ db.auditLog, e.targetUserId ≠ id

variable {env : Env} {request : Request} {db db' : Database} {t t' : UsersTable} {tick : Tick}
  {acting u : User} {id : Uuid} {route : UserRoute}

theorem UsersTable.standing_of_mem (h : u ∈ t.rows) : t.standing u.id = u.standing := by
  rw [standing, getById_eq_some.mpr ⟨h, rfl⟩, Option.elim_some]

theorem UsersTable.standing_eq_gone : t.standing id = .gone ↔ t.getById id = none := by
  unfold standing
  cases t.getById id with
  | none => simp
  | some u => cases hactive : u.isActive <;> simp [User.standing, hactive]

theorem UsersTable.standing_delete : (t.delete id).standing id = .gone := by
  have hnone : (t.delete id).getById id = none :=
    Rows.find_eq_none.mpr fun u hu => (mem_delete.mp hu).2
  rw [standing, hnone, Option.elim_none]

/-! ## One request -/

/-- The resolution leaves every standing, but for the account it creates. -/
theorem getCurrentDbUser_standing {req : AuthRequest}
    (h : getCurrentDbUser env req tick t = .ok (acting, t')) (id : Uuid) :
    t'.standing id = t.standing id ∨
      t.standing id = .gone ∧ id = tick.newId ∧ t'.standing id = .active := by
  by_cases hacting : acting.id = id
  · subst hacting
    obtain ⟨-, hactive⟩ := getCurrentDbUser_eq_ok.mp h
    have hafter : t'.standing acting.id = .active := by
      rw [UsersTable.standing_of_mem (getCurrentDbUser_mem h), User.standing, if_pos hactive]
    cases hfind : t.getById acting.id with
    | some r =>
        left
        obtain ⟨hr, hid⟩ := UsersTable.getById_eq_some.mp hfind
        have hr_active : r.isActive = true := by
          by_contra hblocked
          have hspared := getCurrentDbUser_spares hr (eq_false_of_ne_true hblocked) h
          exact hspared.1 hid.symm
        rw [hafter, ← hid, UsersTable.standing_of_mem hr, User.standing, if_pos hr_active]
    | none =>
        right
        obtain ⟨-, profile, -, hresolution⟩ := getCurrentDbUser_cases h
        refine ⟨UsersTable.standing_eq_gone.mpr hfind, ?_, hafter⟩
        have habsent := Rows.find_eq_none.mp hfind
        have horigin := hresolution.origin
        generalize acting.id = id at habsent horigin
        cases horigin with
        | known user mem owned => exact absurd rfl (habsent user mem)
        | linked user unknown hasEmail found =>
            exact absurd rfl (habsent user (UsersTable.getByEmail_eq_some.mp found).1)
        | created fresh => rfl
  · left
    rw [UsersTable.standing, UsersTable.standing, getCurrentDbUser_getById h hacting]

theorem UsersTable.save_standing {new row : User} (h : t.save new tick = .ok (row, t'))
    (id : Uuid) :
    t'.standing id = if new.id = id then new.standing else t.standing id := by
  have hrow : row = { new with updatedAt := tick.now } := (save_ok h).1
  split
  · rename_i hid
    have hmem : row ∈ t'.rows := (mem_save h).mpr (.inr rfl)
    have hrow_id : row.id = id := by rw [hrow]; exact hid
    rw [← hrow_id, standing_of_mem hmem, hrow]
    rfl
  · rename_i hid
    rw [standing, standing, getById_congr]
    intro v hv
    rw [mem_save h]
    constructor
    · rintro (⟨hmem, -⟩ | rfl)
      · exact hmem
      · exact absurd ((congrArg User.id hrow).symm.trans hv) hid
    · exact fun hmem => .inl ⟨hmem, fun heq => hid (heq.symm.trans hv)⟩

theorem UsersTable.standing_delete_other {other : Uuid} (h : other ≠ id) :
    (t.delete other).standing id = t.standing id := by
  rw [standing, standing, getById_congr]
  intro v hv
  rw [mem_delete, hv]
  exact and_iff_left h.symm

/-- A change does to the standing of its target what the fact owed for it says. -/
theorem Change.standing {fact : AuditFact} (h : Change t acting tick route t')
    (hmem : acting ∈ t.rows) (hdue : route.fact t acting = some fact) (id : Uuid) :
    (t.getById fact.targetUserId).isSome ∧ t'.standing id =
      if fact.targetUserId = id then fact.after (t.standing id) else t.standing id := by
  cases h with
  | role target row newRole _ mem other saved =>
      have hfind := UsersTable.getById_eq_some.mpr ⟨mem, rfl⟩
      simp only [UserRoute.fact, hfind, Option.map_some, Option.some.injEq] at hdue
      subst hdue
      refine ⟨by simp [hfind], ?_⟩
      rw [UsersTable.save_standing saved]
      refine if_ctx_congr Iff.rfl (fun hid => ?_) fun _ => rfl
      rw [← hid, UsersTable.standing_of_mem mem]
      rfl
  | active target row isActive _ mem other saved =>
      have hfind := UsersTable.getById_eq_some.mpr ⟨mem, rfl⟩
      simp only [UserRoute.fact, hfind, Option.map_some, Option.some.injEq] at hdue
      subst hdue
      refine ⟨by simp [hfind], ?_⟩
      rw [UsersTable.save_standing saved]
      refine if_ctx_congr Iff.rfl (fun _ => ?_) fun _ => rfl
      cases isActive <;> rfl
  | password target mem =>
      have hfind := UsersTable.getById_eq_some.mpr ⟨mem, rfl⟩
      simp only [UserRoute.fact, hfind, Option.map_some, Option.some.injEq] at hdue
      subst hdue
      refine ⟨by simp [hfind], ?_⟩
      exact (ite_self _).symm
  | delete target mem other =>
      have hfind := UsersTable.getById_eq_some.mpr ⟨mem, rfl⟩
      simp only [UserRoute.fact, hfind, Option.map_some, Option.some.injEq] at hdue
      subst hdue
      refine ⟨by simp [hfind], ?_⟩
      split
      · rename_i hid
        exact hid ▸ UsersTable.standing_delete
      · rename_i hid
        exact UsersTable.standing_delete_other hid
  | deleteSelf =>
      have hfind := UsersTable.getById_eq_some.mpr ⟨hmem, rfl⟩
      simp only [UserRoute.fact, Option.some.injEq] at hdue
      subst hdue
      refine ⟨by simp [hfind], ?_⟩
      split
      · rename_i hid
        exact hid ▸ UsersTable.standing_delete
      · rename_i hid
        exact UsersTable.standing_delete_other hid

theorem Effect.rightAbout (h : Effect env request acting db route db')
    (hmem : acting ∈ db.users.rows) (hright : db.RightAbout id) : db'.RightAbout id := by
  cases h with
  | read unaudited => exact hright
  | wrote entry change due users_eq items_eq log_eq =>
      obtain ⟨-, hstanding⟩ := change.standing hmem due id
      subst users_eq
      unfold Database.RightAbout at hright ⊢
      rw [log_eq, replay_append, hstanding, hright]

theorem Effect.unheard (h : Effect env request acting db route db')
    (hmem : acting ∈ db.users.rows) (hunheard : db.Unheard id) : db'.Unheard id := by
  cases h with
  | read unaudited => exact hunheard
  | wrote entry change due users_eq items_eq log_eq =>
      obtain ⟨hgone, huntargeted⟩ := hunheard
      obtain ⟨hsome, hstanding⟩ := change.standing hmem due id
      have hother : entry.fact.targetUserId ≠ id := by
        rintro rfl
        rw [UsersTable.standing_eq_gone.mp hgone] at hsome
        cases hsome
      subst users_eq
      rw [if_neg hother] at hstanding
      refine ⟨hstanding.trans hgone, fun e he => ?_⟩
      rw [log_eq] at he
      rcases List.mem_append.mp he with he | he
      · exact huntargeted e he
      · rw [List.mem_singleton.mp he]
        exact hother

section Resolved

variable {users : UsersTable}

/-- An identifier that the resolution takes into use is one that no entry is about. -/
theorem resolved_rightAbout (hfresh : ∀ e ∈ db.auditLog, e.targetUserId ≠ request.tick.newId)
    (h : getCurrentDbUser env request.auth request.tick db.users = .ok (acting, users))
    (hright : db.RightAbout id) : (db.setUsers users).RightAbout id := by
  unfold Database.RightAbout
  rcases getCurrentDbUser_standing h id with hsame | ⟨-, rfl, hactive⟩
  · exact hsame.trans hright
  · exact hactive.trans (replay_untargeted hfresh).symm

theorem resolved_unheard
    (h : getCurrentDbUser env request.auth request.tick db.users = .ok (acting, users))
    (hunheard : db.Unheard id) :
    (db.setUsers users).Unheard id ∨ (db.setUsers users).RightAbout id := by
  obtain ⟨hgone, huntargeted⟩ := hunheard
  rcases getCurrentDbUser_standing h id with hsame | ⟨-, -, hactive⟩
  · exact .inl ⟨hsame.trans hgone, huntargeted⟩
  · exact .inr (hactive.trans (replay_untargeted huntargeted).symm)

end Resolved

/-! ## Runs -/

/-- The request brings an identifier for a new record that no entry is about. -/
def App.BringsFresh (app : App) : App.Event → Prop
  | .request request (.user _) => ∀ e ∈ app.db.auditLog, e.targetUserId ≠ request.tick.newId
  | _ => True

instance (app : App) (event : App.Event) : Decidable (app.BringsFresh event) :=
  match event with
  | .request request (.user _) =>
      inferInstanceAs (Decidable (∀ e ∈ app.db.auditLog, e.targetUserId ≠ request.tick.newId))
  | .request _ (.item _) | .expire _ => isTrue trivial

variable {app app' : App} {event : App.Event}

theorem step_rightAbout (hfresh : app.BringsFresh event) (hright : app.db.RightAbout id)
    (hstep : app.step env event = some app') : app'.db.RightAbout id := by
  cases event with
  | expire key =>
      cases hstep
      exact hright
  | request request route =>
      cases hstep
      cases route with
      | item route =>
          obtain ⟨husers, hlog⟩ : app.db.SameRecords (app.serve env request (.item route)).2.db :=
            serve_item_same route
          unfold Database.RightAbout
          rw [husers, hlog]
          exact hright
      | user route =>
          cases app.served env request route with
          | nothing same => exact same ▸ hright
          | done acting users current gate effect =>
              exact effect.rightAbout (getCurrentDbUser_mem current)
                (resolved_rightAbout hfresh current hright)

theorem step_unheard (hunheard : app.db.Unheard id) (hstep : app.step env event = some app') :
    app'.db.Unheard id ∨ app'.db.RightAbout id := by
  cases event with
  | expire key =>
      cases hstep
      exact .inl hunheard
  | request request route =>
      cases hstep
      cases route with
      | item route =>
          obtain ⟨husers, hlog⟩ : app.db.SameRecords (app.serve env request (.item route)).2.db :=
            serve_item_same route
          unfold Database.Unheard
          rw [husers, hlog]
          exact .inl hunheard
      | user route =>
          cases app.served env request route with
          | nothing same => exact .inl (same ▸ hunheard)
          | done acting users current gate effect =>
              have hmem := getCurrentDbUser_mem current
              exact (resolved_unheard current hunheard).imp (effect.unheard hmem)
                (effect.rightAbout hmem)

/--
Whoever had an account at some time: the log alone says whether it is active, blocked or
gone at any later time.
-/
theorem log_accounts_for_standing (env : Env) (before after : List App.Event) (mid app : App)
    (hfresh₁ : Along (App.step env) App.BringsFresh .start before)
    (hmid : run (App.step env) .start before = some mid)
    (hfresh₂ : Along (App.step env) App.BringsFresh mid after)
    (hrun : run (App.step env) mid after = some app) (id : Uuid)
    (hthere : (mid.db.users.getById id).isSome) :
    app.db.users.standing id = replay app.db.auditLog id := by
  have hmid_known : mid.db.Unheard id ∨ mid.db.RightAbout id := by
    have hstep (s : App) (e : App.Event) (s' : App) (hs : s.db.Unheard id ∨ s.db.RightAbout id)
        (hfresh : s.BringsFresh e) (hstep : s.step env e = some s') :
        s'.db.Unheard id ∨ s'.db.RightAbout id :=
      hs.elim (fun h => step_unheard h hstep) fun h => .inr (step_rightAbout hfresh h hstep)
    exact run_invariant_along hstep (.inl ⟨rfl, List.forall_mem_nil _⟩) hfresh₁ hmid
  have hright : mid.db.RightAbout id := by
    refine hmid_known.resolve_left fun hunheard => ?_
    rw [UsersTable.standing_eq_gone.mp hunheard.1] at hthere
    cases hthere
  have hstep (s : App) (e : App.Event) (s' : App) (hs : s.db.RightAbout id)
      (hfresh : s.BringsFresh e) (hstep : s.step env e = some s') : s'.db.RightAbout id :=
    step_rightAbout hfresh hs hstep
  exact run_invariant_along hstep hright hfresh₂ hrun

theorem bob_blocked_in_log :
    ∃ app, run (App.step exampleEnv) .start bobIsBlocked = some app ∧
      app.db.users.standing 2 = replay app.db.auditLog 2 ∧
      app.db.users.standing 2 = .blocked := by
  refine ⟨_, rfl, ?_, by decide +kernel⟩
  exact log_accounts_for_standing exampleEnv (bobIsBlocked.take 2) (bobIsBlocked.drop 2) _ _
    (by decide +kernel) rfl (by decide +kernel) rfl 2 (by decide +kernel)

end IsolatedEnv.Backend
