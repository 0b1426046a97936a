import IsolatedEnv.Backend.App
import IsolatedEnv.Backend.Core.Auth

/-!
# When a subject can be resolved

Two unique columns are written from claims that change: a flush fails where the
email is stored on another record, an absent email being stored as the empty text,
and where a claim does not fit its column.
-/

namespace IsolatedEnv.Backend

open IsolatedEnv.Foundation

/-! ## When a statement succeeds -/

namespace UsersTable

variable {env : Env} {t : UsersTable} {u v user : User} {tick : Tick}

theorem admissible_replace_iff (hmem : u ∈ t.rows) (hid : v.id = u.id) :
    Admissible (Rows.replace User.id v t.rows) ↔ v.Fits ∧ ∀ w ∈ t.rows, w.id ≠ v.id →
      w.providerId ≠ v.providerId ∧ w.email ≠ v.email := by
  have htable := t.admissible
  have hids : Rows.UniqueKey User.id (Rows.replace User.id v t.rows) :=
    (Rows.uniqueKey_replace htable.uniqueId htable.uniqueId hmem hid.symm).mpr
      fun w _ hother => hother
  rw [admissible_iff, Rows.uniqueKey_replace htable.uniqueId htable.uniqueProviderId hmem
    hid.symm, Rows.uniqueKey_replace htable.uniqueId htable.uniqueEmail hmem hid.symm]
  constructor
  · rintro ⟨hfits, -, hproviderId, hemail⟩
    exact ⟨hfits v (Rows.mem_replace.mpr (.inr ⟨rfl, u, hmem, hid.symm⟩)),
      fun w hw hother => ⟨hproviderId w hw hother, hemail w hw hother⟩⟩
  · rintro ⟨hfits, hother⟩
    refine ⟨fun w hw => ?_, hids, fun w hw h => (hother w hw h).1,
      fun w hw h => (hother w hw h).2⟩
    rcases Rows.mem_replace.mp hw with ⟨hw, -⟩ | ⟨rfl, -⟩
    · exact htable.fits w hw
    · exact hfits

theorem save_succeeds_iff {new : User} (hmem : user ∈ t.rows) (hid : new.id = user.id) :
    (∃ p, t.save new tick = .ok p) ↔ new.Fits ∧ ∀ w ∈ t.rows, w.id ≠ user.id →
      w.providerId ≠ new.providerId ∧ w.email ≠ new.email := by
  have hsome := isSome_getById hmem
  rw [← hid] at hsome ⊢
  exact (save_succeeds new hsome).trans (admissible_replace_iff hmem hid)

theorem getByEmail_eq_none {email : String} :
    t.getByEmail email = none ↔ ∀ w ∈ t.rows, w.email ≠ email :=
  Rows.find_eq_none

theorem others_differ (hmem : user ∈ t.rows) :
    ∀ w ∈ t.rows, w.id ≠ user.id → w.providerId ≠ user.providerId ∧ w.email ≠ user.email := by
  intro w hw hother
  have hne : w ≠ user := fun h => hother (congrArg User.id h)
  exact ⟨fun h => hne (t.admissible.uniqueProviderId.eq hw hmem h),
    fun h => hne (t.admissible.uniqueEmail.eq hw hmem h)⟩

theorem fitsColumn_ite {length : Nat} {p : Bool} {new old : String}
    (hold : FitsColumn length old) :
    FitsColumn length (if p then new else old) ↔ (p = true → FitsColumn length new) := by
  cases p <;> simp [hold]

theorem syncFromJwt_succeeds {email name : String} {role : UserRole} (hmem : user ∈ t.rows) :
    (∃ p, t.syncFromJwt user email name role tick = .ok p) ↔
      (differs email user.email = true → FitsColumn 320 email ∧ t.getByEmail email = none) ∧
        (differs name user.name = true → FitsColumn 255 name) := by
  obtain ⟨hproviderId, hemail, hname, hchangedBy⟩ := t.admissible.fits user hmem
  unfold syncFromJwt
  dsimp only
  split
  · refine Iff.trans (save_succeeds_iff hmem rfl) ?_
    have hfits : User.Fits { user with
        email := if differs email user.email then email else user.email
        name := if differs name user.name then name else user.name
        role := role } ↔
          (differs email user.email = true → FitsColumn 320 email) ∧
            (differs name user.name = true → FitsColumn 255 name) := by
      simp [User.Fits, fitsColumn_ite hemail, fitsColumn_ite hname, hproviderId, hchangedBy]
    rw [hfits]
    cases hdiffers : differs email user.email with
    | false => simpa using fun _ => others_differ hmem
    | true =>
        have hnew : user.email ≠ email := by
          simp [differs] at hdiffers
          exact hdiffers.2
        have hfree : (∀ w ∈ t.rows, w.id ≠ user.id →
            w.providerId ≠ user.providerId ∧ w.email ≠ email) ↔ t.getByEmail email = none := by
          rw [getByEmail_eq_none]
          constructor
          · intro h w hw hsame
            by_cases hid : w.id = user.id
            · rw [t.admissible.uniqueId.eq hw hmem hid] at hsame
              exact hnew hsame
            · exact (h w hw hid).2 hsame
          · exact fun h w hw hother => ⟨(others_differ hmem w hw hother).1, h w hw⟩
        simp only [if_true, forall_const, hfree]
        tauto
  · rename_i hchanged
    simp only [Bool.or_eq_true, not_or, Bool.not_eq_true] at hchanged
    simp [hchanged]

end UsersTable

/-! ## When a subject is resolved -/

section Resolve

variable {env : Env} {t : UsersTable} {providerId : String} {profile : Profile} {tick : Tick}
  {user : User}

/--
What is written fits its columns, and no email is written that another record has;
an absent email is written as the empty text.
-/
structure Storable (t : UsersTable) (providerId : String) (profile : Profile) : Prop where
  known : ∀ user, t.getByProviderId providerId = some user →
    (UsersTable.differs profile.email user.email = true →
      FitsColumn 320 profile.email ∧ t.getByEmail profile.email = none) ∧
    (UsersTable.differs profile.name user.name = true → FitsColumn 255 profile.name)
  linked : ∀ user, t.getByProviderId providerId = none → profile.email ≠ "" →
    t.getByEmail profile.email = some user →
      FitsColumn 128 providerId ∧ (profile.name ≠ "" → FitsColumn 255 profile.name)
  created : t.getByProviderId providerId = none →
    (profile.email = "" ∨ t.getByEmail profile.email = none) →
      FitsColumn 128 providerId ∧ FitsColumn 320 profile.email ∧
        FitsColumn 255 profile.name ∧ t.getByEmail profile.email = none

end Resolve

/-! ## Subjects whose emails change -/

/-- The identity provider's subjects, each with the email it has now, if any. -/
structure Directory where
  subjects : List (String × String)
  distinctSubs : (subjects.map Prod.fst).Nodup
  distinctEmails : ∀ s ∈ subjects, ∀ s' ∈ subjects, s.2 = s'.2 → s.2 ≠ "" → s.1 = s'.1

structure Provisioning where
  directory : Directory
  app : App

namespace Provisioning

inductive Event where
  | directory (directory : Directory)
  | request (request : Request) (route : Route)
  | expire (key : String)

/-- The request is one of a subject in the directory, with the email that it has now. -/
def Valid (env : Env) (s : Provisioning) (request : Request) : Prop :=
  ∃ profile, request.auth.profile env = .ok profile ∧
    (request.auth.providerId env, profile.email) ∈ s.directory.subjects ∧
    ∀ u ∈ s.app.db.users.rows, u.id ≠ request.tick.newId

def step (env : Env) (s : Provisioning) : Event → Option Provisioning
  | .directory directory => some { s with directory := directory }
  | .request request route => some { s with app := (s.app.serve env request route).2 }
  | .expire key => (s.app.step env (.expire key)).map fun app => { s with app := app }

/-- A valid subject is resolved, or told that its record is blocked. -/
def Served (env : Env) (s : Provisioning) : Event → Prop
  | .request request _ => s.Valid env request →
      getCurrentDbUser env request.auth request.tick s.app.db.users = .error accountBlocked ∨
        ∃ p, getCurrentDbUser env request.auth request.tick s.app.db.users = .ok p
  | _ => True

/-- What a valid request brings can be stored beside the other records. -/
def Fits (env : Env) (s : Provisioning) : Event → Prop
  | .request request _ => s.Valid env request →
      ∀ profile, request.auth.profile env = .ok profile →
        Storable s.app.db.users (request.auth.providerId env) profile
  | _ => True

end Provisioning

namespace Provisioning

def visit (sub email : String) (newId : Uuid) : Request :=
  { exampleVisit sub [] newId with
    auth := ⟨[("sub", .str sub), ("email", .str email)], .response ⟨200, some (.obj [])⟩⟩ }

end Provisioning

end IsolatedEnv.Backend
