import IsolatedEnv.Foundation.Run

/-!
# Single-flight promises

The pattern `if (p) return p; p = work().finally(() => { p = null })`: one
shared variable holds the promise of the work in flight, callers that find it
set share that promise, and a callback which runs after the work has settled
clears the variable.  Promises are numbered by the order of their creation,
are never forgotten and keep the argument their creator passed; the callers
that share one may have wanted another argument, which is the hazard of the
pattern.  The work behind a promise is running, settled, or settled with the
clearing callback already run; only then do the callers get the result.
-/

namespace IsolatedEnv.Foundation

inductive Progress (τ ρ : Type*) where
  | running (work : τ)
  | settled (result : ρ)
  | released (result : ρ)
  deriving DecidableEq, Repr

structure Task (α τ ρ : Type*) where
  arg : α
  progress : Progress τ ρ
  deriving DecidableEq, Repr

structure Flight (α τ ρ : Type*) where
  tasks : List (Task α τ ρ)
  slot : Option Nat
  deriving DecidableEq, Repr

namespace Progress

variable {τ ρ : Type*}

def isReleased : Progress τ ρ → Bool
  | .released _ => true
  | _ => false

end Progress

namespace Flight

variable {α τ ρ : Type*}

def empty : Flight α τ ρ := ⟨[], none⟩

def enter (f : Flight α τ ρ) (start : τ) (a : α) : Flight α τ ρ × Nat :=
  match f.slot with
  | some i => (f, i)
  | none =>
      (⟨f.tasks ++ [⟨a, .running start⟩], some f.tasks.length⟩, f.tasks.length)

def advance (f : Flight α τ ρ) (i : Nat)
    (work : α → τ → Option (τ ⊕ ρ)) : Option (Flight α τ ρ) :=
  match f.tasks[i]? with
  | some ⟨a, .running w⟩ =>
      match work a w with
      | some (.inl w') =>
          some { f with tasks := f.tasks.set i ⟨a, .running w'⟩ }
      | some (.inr r) =>
          some { f with tasks := f.tasks.set i ⟨a, .settled r⟩ }
      | none => none
  | _ => none

def release (f : Flight α τ ρ) (i : Nat) : Option (Flight α τ ρ) :=
  match f.tasks[i]? with
  | some ⟨a, .settled r⟩ =>
      some ⟨f.tasks.set i ⟨a, .released r⟩, none⟩
  | _ => none

def resolved (f : Flight α τ ρ) (i : Nat) : Option ρ :=
  match f.tasks[i]? with
  | some ⟨_, .released r⟩ => some r
  | _ => none

/-- The slot holds exactly the promise whose callback has not run. -/
def Exclusive (f : Flight α τ ρ) : Prop :=
  (∀ i t, f.tasks[i]? = some t →
    (t.progress.isReleased = false ↔ f.slot = some i)) ∧
  ∀ i, f.slot = some i → i < f.tasks.length

theorem Exclusive.eq_of_unreleased {f : Flight α τ ρ} (h : f.Exclusive) {i j : Nat}
    {t u : Task α τ ρ} (hi : f.tasks[i]? = some t) (hj : f.tasks[j]? = some u)
    (ht : t.progress.isReleased = false) (hu : u.progress.isReleased = false) :
    i = j := by
  have hslot := (h.1 i t hi).mp ht
  rw [(h.1 j u hj).mp hu] at hslot
  exact (Option.some.inj hslot).symm

def Extends (f g : Flight α τ ρ) : Prop :=
  ∀ (i : Nat) (t : Task α τ ρ), f.tasks[i]? = some t →
    ∃ t' : Task α τ ρ, g.tasks[i]? = some t' ∧ t'.arg = t.arg

theorem Extends.refl (f : Flight α τ ρ) : f.Extends f :=
  fun _ t h => ⟨t, h, rfl⟩

theorem exclusive_empty : (empty : Flight α τ ρ).Exclusive := by
  constructor <;> simp [empty]

/-! ## Entering -/

theorem enter_of_slot {f : Flight α τ ρ} {i : Nat} (h : f.slot = some i)
    (start : τ) (a : α) : f.enter start a = (f, i) := by
  simp [enter, h]

theorem enter_of_free {f : Flight α τ ρ} (h : f.slot = none)
    (start : τ) (a : α) :
    f.enter start a =
      (⟨f.tasks ++ [⟨a, .running start⟩], some f.tasks.length⟩,
        f.tasks.length) := by
  simp [enter, h]

theorem enter_exclusive {f : Flight α τ ρ} (h : f.Exclusive) (start : τ)
    (a : α) : (f.enter start a).1.Exclusive := by
  cases hslot : f.slot with
  | some i => rw [enter_of_slot hslot]; exact h
  | none =>
      rw [enter_of_free hslot]
      refine ⟨fun i t ht => ?_, fun i hi => ?_⟩
      · rcases getElem?_append_new ht with hold | ⟨rfl, rfl⟩
        · have hdone := h.1 i t hold
          rw [hslot] at hdone
          have hlt := (List.getElem?_eq_some_iff.mp hold).1
          simp only [Option.some.injEq, reduceCtorEq, iff_false] at hdone ⊢
          exact ⟨fun hr => absurd hr hdone, fun heq => by omega⟩
        · simp [Progress.isReleased]
      · simp only [Option.some.injEq] at hi
        simp [← hi]

theorem enter_extends (f : Flight α τ ρ) (start : τ) (a : α) :
    f.Extends (f.enter start a).1 := by
  intro i t ht
  cases hslot : f.slot with
  | some j => rw [enter_of_slot hslot]; exact ⟨t, ht, rfl⟩
  | none =>
      rw [enter_of_free hslot]
      have hlt := (List.getElem?_eq_some_iff.mp ht).1
      exact ⟨t, by rw [List.getElem?_append_left hlt]; exact ht, rfl⟩

theorem enter_task {f : Flight α τ ρ} (h : f.Exclusive) (start : τ) (a : α) :
    ∃ t, (f.enter start a).1.tasks[(f.enter start a).2]? = some t ∧
      (t.arg = a ∨ f.slot = some (f.enter start a).2) := by
  cases hslot : f.slot with
  | some i =>
      rw [enter_of_slot hslot]
      exact ⟨f.tasks.get ⟨i, h.2 i hslot⟩,
        List.getElem?_eq_getElem (h.2 i hslot), .inr rfl⟩
  | none =>
      rw [enter_of_free hslot]
      exact ⟨⟨a, .running start⟩, by simp, .inl rfl⟩

/--
A property of the caller's own argument holds of the argument of the promise
it is given, when it holds of the argument of the promise in the slot.
-/
theorem enter_arg {f : Flight α τ ρ} (h : f.Exclusive) (start : τ) {a : α}
    {P : α → Prop} (ha : P a)
    (hown : ∀ i t, f.slot = some i → f.tasks[i]? = some t → P t.arg) :
    ∃ t, (f.enter start a).1.tasks[(f.enter start a).2]? = some t ∧
      P t.arg := by
  obtain ⟨t, ht, harg | hslot⟩ := enter_task h start a
  · exact ⟨t, ht, harg ▸ ha⟩
  · rw [enter_of_slot hslot] at ht
    exact ⟨t, by rw [enter_of_slot hslot]; exact ht, hown _ t hslot ht⟩

/-! ## Progress of the work -/

theorem advance_cases {f g : Flight α τ ρ} {i : Nat}
    {work : α → τ → Option (τ ⊕ ρ)} (h : f.advance i work = some g) :
    ∃ a w, f.tasks[i]? = some ⟨a, .running w⟩ ∧
      ((∃ w', work a w = some (.inl w') ∧
          g = { f with tasks := f.tasks.set i ⟨a, .running w'⟩ }) ∨
        ∃ r, work a w = some (.inr r) ∧
          g = { f with tasks := f.tasks.set i ⟨a, .settled r⟩ }) := by
  unfold advance at h
  split at h
  · rename_i a w ht
    refine ⟨a, w, ht, ?_⟩
    split at h
    · rename_i w' hw
      exact .inl ⟨w', hw, by simpa using h.symm⟩
    · rename_i r hw
      exact .inr ⟨r, hw, by simpa using h.symm⟩
    · cases h
  · cases h

theorem release_cases {f g : Flight α τ ρ} {i : Nat}
    (h : f.release i = some g) :
    ∃ a r, f.tasks[i]? = some ⟨a, .settled r⟩ ∧
      g = ⟨f.tasks.set i ⟨a, .released r⟩, none⟩ := by
  unfold release at h
  split at h
  · rename_i a r ht
    exact ⟨a, r, ht, by simpa using h.symm⟩
  · cases h

theorem resolved_eq_some {f : Flight α τ ρ} {i : Nat} {r : ρ} :
    f.resolved i = some r ↔ ∃ a, f.tasks[i]? = some ⟨a, .released r⟩ := by
  unfold resolved
  split
  · rename_i a r' ht
    simp [ht]
  · rename_i hnone
    constructor
    · intro h
      cases h
    · rintro ⟨a, ha⟩
      exact absurd ha (hnone a r)

theorem extends_set {f : Flight α τ ρ} {i : Nat} {old : Task α τ ρ}
    (hold : f.tasks[i]? = some old) (new : Task α τ ρ)
    (harg : new.arg = old.arg) (slot : Option Nat) :
    f.Extends ⟨f.tasks.set i new, slot⟩ := by
  have hlt := (List.getElem?_eq_some_iff.mp hold).1
  intro j t ht
  by_cases hji : j = i
  · subst hji
    rw [hold] at ht
    obtain rfl := Option.some.inj ht
    exact ⟨new, List.getElem?_set_self hlt, harg⟩
  · exact ⟨t, by rw [List.getElem?_set_ne (Ne.symm hji)]; exact ht, rfl⟩

theorem exclusive_set {f : Flight α τ ρ} (h : f.Exclusive) {i : Nat}
    {old new : Task α τ ρ} (hold : f.tasks[i]? = some old)
    (hrel : new.progress.isReleased = old.progress.isReleased) :
    ({ f with tasks := f.tasks.set i new } : Flight α τ ρ).Exclusive := by
  refine ⟨fun j t ht => ?_, fun j hj => ?_⟩
  · rcases getElem?_set_new ht with ⟨rfl, rfl⟩ | ⟨-, ht⟩
    · rw [hrel]
      exact h.1 j old hold
    · exact h.1 j t ht
  · simpa using h.2 j hj

theorem advance_exclusive {f g : Flight α τ ρ} (h : f.Exclusive) {i : Nat}
    {work : α → τ → Option (τ ⊕ ρ)} (hg : f.advance i work = some g) :
    g.Exclusive := by
  obtain ⟨a, w, ht, ⟨w', -, rfl⟩ | ⟨r, -, rfl⟩⟩ := advance_cases hg
  · exact exclusive_set h ht rfl
  · exact exclusive_set h ht rfl

theorem advance_extends {f g : Flight α τ ρ} {i : Nat}
    {work : α → τ → Option (τ ⊕ ρ)} (hg : f.advance i work = some g) :
    f.Extends g := by
  obtain ⟨a, w, ht, ⟨w', -, rfl⟩ | ⟨r, -, rfl⟩⟩ := advance_cases hg
  · exact extends_set ht ⟨a, .running w'⟩ rfl f.slot
  · exact extends_set ht ⟨a, .settled r⟩ rfl f.slot

theorem release_exclusive {f g : Flight α τ ρ} (h : f.Exclusive) {i : Nat}
    (hg : f.release i = some g) : g.Exclusive := by
  obtain ⟨a, r, ht, rfl⟩ := release_cases hg
  have hslot : f.slot = some i := (h.1 i _ ht).mp rfl
  refine ⟨fun j t htj => ?_, by simp⟩
  rcases getElem?_set_new htj with ⟨rfl, rfl⟩ | ⟨hji, htj⟩
  · simp [Progress.isReleased]
  · have hj := h.1 j t htj
    rw [hslot, Option.some.injEq] at hj
    simp only [reduceCtorEq, iff_false]
    exact fun hr => hji (hj.mp hr).symm

theorem release_extends {f g : Flight α τ ρ} {i : Nat}
    (hg : f.release i = some g) : f.Extends g := by
  obtain ⟨a, r, ht, rfl⟩ := release_cases hg
  exact extends_set ht ⟨a, .released r⟩ rfl none

end Flight

end IsolatedEnv.Foundation
