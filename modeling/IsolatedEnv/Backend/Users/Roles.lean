import IsolatedEnv.Backend.Core.Runtime

/-!
# Roles and the groups they come from
-/

namespace IsolatedEnv.Backend

open IsolatedEnv.Foundation

inductive UserRole where
  | free
  | paid
  | admin
  deriving DecidableEq, Repr

namespace UserRole

def value : UserRole → String
  | .free => "free"
  | .paid => "paid"
  | .admin => "admin"

/-- `ROLE_TO_GROUP`. -/
def group : UserRole → String
  | .admin => "admins"
  | .paid => "paid"
  | .free => "free"

/-- free < paid < admin. -/
def privilege : UserRole → Nat
  | .free => 0
  | .paid => 1
  | .admin => 2

theorem group_injective : Function.Injective group := by
  intro r s h
  cases r <;> cases s <;> first | rfl | simp [group] at h

end UserRole

def inGroups (name : String) (groups : List Json) : Bool :=
  groups.any fun g => g.text? = some name

def isAdminEmail (env : Env) (email : String) : Bool :=
  env.settings.adminEmail ≠ "" &&
    env.python.lower email = env.python.lower env.settings.adminEmail

def resolveRole (env : Env) (email : String) (groups : Option (List Json)) :
    UserRole :=
  if inGroups "admins" (groups.getD []) then .admin
  else if inGroups "paid" (groups.getD []) then .paid
  else if isAdminEmail env email then .admin
  else .free

theorem inGroups_eq_true {name : String} {groups : List Json} :
    inGroups name groups = true ↔ Json.str name ∈ groups := by
  unfold inGroups
  rw [List.any_eq_true]
  constructor
  · rintro ⟨g, hg, htext⟩
    cases g <;> simp [Json.text?] at htext
    exact htext ▸ hg
  · intro h
    exact ⟨_, h, by simp [Json.text?]⟩

section ResolveRole

variable {env : Env} {email : String} {groups : List Json}

theorem resolveRole_eq_paid :
    resolveRole env email (some groups) = .paid ↔
      ¬ inGroups "admins" groups = true ∧ inGroups "paid" groups = true := by
  unfold resolveRole
  cases hadmins : inGroups "admins" groups <;>
    cases hpaid : inGroups "paid" groups <;>
    cases isAdminEmail env email <;> simp [hadmins, hpaid]

theorem resolveRole_eq_free :
    resolveRole env email (some groups) = .free ↔
      ¬ inGroups "admins" groups = true ∧ ¬ inGroups "paid" groups = true ∧
        isAdminEmail env email = false := by
  unfold resolveRole
  cases hadmins : inGroups "admins" groups <;>
    cases hpaid : inGroups "paid" groups <;>
    cases isAdminEmail env email <;> simp [hadmins, hpaid]

theorem resolveRole_of_admins (h : inGroups "admins" groups = true) :
    resolveRole env email (some groups) = .admin := by
  simp [resolveRole, h]

end ResolveRole

theorem resolveRole_congr (env : Env) (email : String) {g h : List Json}
    (hadmins : inGroups "admins" g = inGroups "admins" h)
    (hpaid : inGroups "paid" g = inGroups "paid" h) :
    resolveRole env email (some g) = resolveRole env email (some h) := by
  simp [resolveRole, hadmins, hpaid]

/-! ## More groups, more privileges -/

/-- Every group of `g` is one of `h`; no list is the empty one. -/
def SubGroups (g h : Option (List Json)) : Prop :=
  ∀ name, Json.str name ∈ g.getD [] → Json.str name ∈ h.getD []

/-- The address gives the admin role, and `paid` alone takes it away. -/
def LosesFallback (env : Env) (email : String) (g h : Option (List Json)) : Prop :=
  isAdminEmail env email = true ∧ inGroups "paid" (h.getD []) = true ∧
    inGroups "admins" (h.getD []) = false ∧ inGroups "paid" (g.getD []) = false

theorem SubGroups.inGroups {g h : Option (List Json)} (hsub : SubGroups g h)
    (name : String) (hname : inGroups name (g.getD []) = true) : inGroups name (h.getD []) = true :=
  inGroups_eq_true.mpr (hsub name (inGroups_eq_true.mp hname))

theorem resolveRole_eq_of_sameGroups {env : Env} {email : String}
    {g h : Option (List Json)} (hgh : SubGroups g h) (hhg : SubGroups h g) :
    resolveRole env email g = resolveRole env email h := by
  have hsame (name : String) :
      inGroups name (g.getD []) = inGroups name (h.getD []) :=
    Bool.eq_iff_iff.mpr ⟨hgh.inGroups name, hhg.inGroups name⟩
  simp [resolveRole, hsame]

theorem privilege_le_iff {env : Env} {email : String} {g h : Option (List Json)}
    (hsub : SubGroups g h) :
    (resolveRole env email g).privilege ≤ (resolveRole env email h).privilege ↔
      ¬ LosesFallback env email g h := by
  have hadmins := hsub.inGroups "admins"
  have hpaid := hsub.inGroups "paid"
  unfold resolveRole LosesFallback
  cases hga : inGroups "admins" (g.getD []) with
  | true => simp [hadmins hga]
  | false =>
      cases hgp : inGroups "paid" (g.getD []) with
      | true =>
          have hhp := hpaid hgp
          cases hha : inGroups "admins" (h.getD []) <;>
            simp [hhp, UserRole.privilege]
      | false =>
          cases hha : inGroups "admins" (h.getD []) <;>
            cases hhp : inGroups "paid" (h.getD []) <;>
            cases isAdminEmail env email <;> simp [UserRole.privilege]

/-- `resolve_role` follows the groups, save where `paid` hides the fallback. -/
theorem resolve_role_monotone_iff (env : Env) (email : String) (g h : Option (List Json))
    (hsub : SubGroups g h) :
    ((resolveRole env email g).privilege ≤ (resolveRole env email h).privilege ↔
        ¬ LosesFallback env email g h) ∧
      (SubGroups h g → resolveRole env email g = resolveRole env email h) :=
  ⟨privilege_le_iff hsub, resolveRole_eq_of_sameGroups hsub⟩

/-- An installation whose first admin is named by `ADMIN_EMAIL`. -/
def firstAdminEnv : Env :=
  ⟨⟨"root@example.com", ""⟩, ⟨fun _ => "", String.toLower, fun _ => false⟩,
    String.toLower, fun _ => true⟩

theorem subGroups_empty (h : Option (List Json)) : SubGroups (some []) h :=
  fun _ hname => absurd hname (by simp)

theorem joining_paid_promotes_alice :
    ((resolveRole firstAdminEnv "alice@example.com" (some [])).privilege ≤
          (resolveRole firstAdminEnv "alice@example.com" (some [.str "paid"])).privilege ↔
        ¬ LosesFallback firstAdminEnv "alice@example.com" (some []) (some [.str "paid"])) ∧
      (SubGroups (some [.str "paid"]) (some []) →
        resolveRole firstAdminEnv "alice@example.com" (some []) =
          resolveRole firstAdminEnv "alice@example.com" (some [.str "paid"])) :=
  resolve_role_monotone_iff firstAdminEnv "alice@example.com" (some [])
    (some [.str "paid"]) (subGroups_empty _)

theorem joining_paid_demotes_first_admin :
    resolveRole firstAdminEnv "root@example.com" (some []) = .admin ∧
      resolveRole firstAdminEnv "root@example.com" (some [.str "paid"]) = .paid ∧
      ¬ ∀ (env : Env) (email : String) (g h : Option (List Json)), SubGroups g h →
        (resolveRole env email g).privilege ≤ (resolveRole env email h).privilege := by
  have hadmin : resolveRole firstAdminEnv "root@example.com" (some []) = .admin := by
    decide +kernel
  have hpaid :
      resolveRole firstAdminEnv "root@example.com" (some [.str "paid"]) = .paid := by
    decide +kernel
  refine ⟨hadmin, hpaid, fun hmono => ?_⟩
  have hle := hmono firstAdminEnv "root@example.com" (some []) (some [.str "paid"])
    (subGroups_empty _)
  rw [hadmin, hpaid] at hle
  exact absurd hle (by decide)

end IsolatedEnv.Backend
