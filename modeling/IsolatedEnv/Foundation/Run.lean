import Mathlib.Data.List.Basic

/-!
# Runs of executable transition systems

A system is a partial step function `step : σ → ε → Option σ`: `none` means
that the event cannot happen in that state.  A run executes a list of events,
and `Along` says that every event of a run is taken in a state satisfying a
given guard.  The two induction rules below are the only way in which later
modules argue about whole runs.
-/

namespace IsolatedEnv.Foundation

variable {σ ε : Type*}

def run (step : σ → ε → Option σ) : σ → List ε → Option σ
  | s, [] => some s
  | s, e :: es => (step s e).bind fun s' => run step s' es

def Along (step : σ → ε → Option σ) (guard : σ → ε → Prop) : σ → List ε → Prop
  | _, [] => True
  | s, e :: es =>
      guard s e ∧ (match step s e with
        | none => True
        | some s' => Along step guard s' es)

instance decidableAlong (step : σ → ε → Option σ) (guard : σ → ε → Prop)
    [∀ s e, Decidable (guard s e)] :
    (s : σ) → (es : List ε) → Decidable (Along step guard s es)
  | _, [] => isTrue trivial
  | s, e :: es =>
      haveI : Decidable (match step s e with
          | none => True
          | some s' => Along step guard s' es) :=
        match step s e with
        | none => isTrue trivial
        | some s' => decidableAlong step guard s' es
      inferInstanceAs (Decidable (guard s e ∧ _))

@[simp] theorem run_nil (step : σ → ε → Option σ) (s : σ) :
    run step s [] = some s := rfl

theorem run_cons_eq_some {step : σ → ε → Option σ} {s t : σ} {e : ε}
    {es : List ε} :
    run step s (e :: es) = some t ↔
      ∃ s', step s e = some s' ∧ run step s' es = some t := by
  simp [run, Option.bind_eq_some_iff]

theorem run_append_eq_some {step : σ → ε → Option σ} {s t : σ} {es es' : List ε} :
    run step s (es ++ es') = some t ↔
      ∃ m, run step s es = some m ∧ run step m es' = some t := by
  induction es generalizing s with
  | nil => simp
  | cons e es ih =>
      rw [List.cons_append, run_cons_eq_some]
      constructor
      · rintro ⟨s', hs, hrest⟩
        obtain ⟨m, hm, ht⟩ := ih.mp hrest
        exact ⟨m, run_cons_eq_some.mpr ⟨s', hs, hm⟩, ht⟩
      · rintro ⟨m, hm, ht⟩
        obtain ⟨s', hs, hrest⟩ := run_cons_eq_some.mp hm
        exact ⟨s', hs, ih.mpr ⟨m, hrest, ht⟩⟩

theorem along_cons {step : σ → ε → Option σ} {guard : σ → ε → Prop} {s : σ}
    {e : ε} {es : List ε} (h : Along step guard s (e :: es)) :
    guard s e ∧ ∀ s', step s e = some s' → Along step guard s' es := by
  obtain ⟨hg, htail⟩ := h
  refine ⟨hg, fun s' hs => ?_⟩
  rw [hs] at htail
  exact htail

theorem along_cons_of {step : σ → ε → Option σ} {guard : σ → ε → Prop} {s s' : σ}
    {e : ε} {es : List ε} (hguard : guard s e) (hstep : step s e = some s')
    (h : Along step guard s' es) : Along step guard s (e :: es) := by
  refine ⟨hguard, ?_⟩
  rw [hstep]
  exact h

/--
The invariant rule for guarded runs: what every allowed step preserves holds
in the state a run ends in.
-/
theorem run_invariant_along {step : σ → ε → Option σ}
    {guard : σ → ε → Prop} {inv : σ → Prop}
    (hstep : ∀ s e s', inv s → guard s e → step s e = some s' → inv s')
    {s t : σ} {es : List ε} (hinit : inv s) (hguard : Along step guard s es)
    (hrun : run step s es = some t) : inv t := by
  induction es generalizing s with
  | nil =>
      simp only [run_nil, Option.some.injEq] at hrun
      exact hrun ▸ hinit
  | cons e es ih =>
      obtain ⟨s', hs, hrest⟩ := run_cons_eq_some.mp hrun
      obtain ⟨hg, htail⟩ := along_cons hguard
      exact ih (hstep s e s' hinit hg hs) (htail s' hs) hrest

/-- What the invariant and the guard give at each step holds along the whole run. -/
theorem along_of_invariant {step : σ → ε → Option σ} {guard prop : σ → ε → Prop}
    {inv : σ → Prop}
    (hstep : ∀ s e s', inv s → guard s e → step s e = some s' → inv s')
    (hprop : ∀ s e, inv s → guard s e → prop s e)
    {s : σ} {es : List ε} (hinit : inv s) (hguard : Along step guard s es) :
    Along step prop s es := by
  induction es generalizing s with
  | nil => trivial
  | cons e es ih =>
      obtain ⟨hg, htail⟩ := hguard
      refine ⟨hprop s e hinit hg, ?_⟩
      cases hs : step s e with
      | none => trivial
      | some s' =>
          rw [hs] at htail
          exact ih (hstep s e s' hinit hg hs) htail

theorem along_true (step : σ → ε → Option σ) (s : σ) (es : List ε) :
    Along step (fun _ _ => True) s es := by
  induction es generalizing s with
  | nil => trivial
  | cons e es ih =>
      refine ⟨trivial, ?_⟩
      cases step s e with
      | none => trivial
      | some s' => exact ih s'

theorem along_of_forall (step : σ → ε → Option σ) {guard : ε → Prop} {es : List ε}
    (h : ∀ e ∈ es, guard e) (s : σ) : Along step (fun _ e => guard e) s es := by
  induction es generalizing s with
  | nil => trivial
  | cons e es ih =>
      obtain ⟨he, hes⟩ := List.forall_mem_cons.mp h
      refine ⟨he, ?_⟩
      cases step s e with
      | none => trivial
      | some s' => exact ih hes s'

theorem run_invariant {step : σ → ε → Option σ} {inv : σ → Prop}
    (hstep : ∀ s e s', inv s → step s e = some s' → inv s')
    {s t : σ} {es : List ε} (hinit : inv s) (hrun : run step s es = some t) :
    inv t :=
  run_invariant_along (fun s e s' hi _ hs => hstep s e s' hi hs) hinit
    (along_true step s es) hrun

theorem Along.take {step : σ → ε → Option σ} {guard : σ → ε → Prop} {s : σ}
    {es : List ε} (h : Along step guard s es) (n : Nat) :
    Along step guard s (es.take n) := by
  induction es generalizing s n with
  | nil =>
      rw [List.take_nil]
      trivial
  | cons e es ih =>
      cases n with
      | zero => trivial
      | succ n =>
          obtain ⟨hg, htail⟩ := h
          refine ⟨hg, ?_⟩
          cases hs : step s e with
          | none => trivial
          | some s' =>
              rw [hs] at htail
              exact ih htail n

theorem along_congr {step : σ → ε → Option σ} {guard guard' : σ → ε → Prop}
    (h : ∀ s e, guard s e ↔ guard' s e) (s : σ) (es : List ε) :
    Along step guard s es ↔ Along step guard' s es := by
  induction es generalizing s with
  | nil => rfl
  | cons e es ih =>
      unfold Along
      rw [h]
      cases step s e with
      | none => rfl
      | some s' => simp only [ih]

theorem Along.and {step : σ → ε → Option σ} {guard guard' : σ → ε → Prop}
    {s : σ} {es : List ε} (h : Along step guard s es)
    (h' : Along step guard' s es) :
    Along step (fun s e => guard s e ∧ guard' s e) s es := by
  induction es generalizing s with
  | nil => trivial
  | cons e es ih =>
      obtain ⟨hg, htail⟩ := h
      obtain ⟨hg', htail'⟩ := h'
      refine ⟨⟨hg, hg'⟩, ?_⟩
      cases hs : step s e with
      | none => trivial
      | some s' =>
          rw [hs] at htail htail'
          exact ih htail htail'

theorem Along.mono {step : σ → ε → Option σ} {guard guard' : σ → ε → Prop}
    (h : ∀ s e, guard s e → guard' s e) {s : σ} {es : List ε}
    (hguard : Along step guard s es) : Along step guard' s es := by
  induction es generalizing s with
  | nil => trivial
  | cons e es ih =>
      refine ⟨h s e hguard.1, ?_⟩
      cases hs : step s e with
      | none => trivial
      | some s' => exact ih ((along_cons hguard).2 s' hs)

/-! ## Logs that a run appends to -/

section Log

variable {α : Type*}

/-- What the steps of a run contribute, in their order. -/
def contributions (step : σ → ε → Option σ) (f : σ → ε → List α) : σ → List ε → List α
  | _, [] => []
  | s, e :: es =>
      f s e ++ (match step s e with
        | none => []
        | some s' => contributions step f s' es)

theorem run_appends {step : σ → ε → Option σ} {guard : σ → ε → Prop} (log : σ → List α)
    {f : σ → ε → List α}
    (hstep : ∀ s e s', guard s e → step s e = some s' → log s' = log s ++ f s e)
    {s t : σ} {es : List ε} (hguard : Along step guard s es)
    (hrun : run step s es = some t) : log t = log s ++ contributions step f s es := by
  induction es generalizing s with
  | nil =>
      simp only [run_nil, Option.some.injEq] at hrun
      simp [contributions, hrun]
  | cons e es ih =>
      obtain ⟨s', hs, hrest⟩ := run_cons_eq_some.mp hrun
      obtain ⟨hg, htail⟩ := along_cons hguard
      rw [ih (htail s' hs) hrest, hstep s e s' hg hs, List.append_assoc]
      simp [contributions, hs]

theorem run_prefix {step : σ → ε → Option σ} {guard : σ → ε → Prop} (log : σ → List α)
    (hstep : ∀ s e s', guard s e → step s e = some s' → log s <+: log s')
    {s t : σ} {es : List ε} (hguard : Along step guard s es)
    (hrun : run step s es = some t) : log s <+: log t := by
  induction es generalizing s with
  | nil =>
      simp only [run_nil, Option.some.injEq] at hrun
      subst hrun
      exact List.prefix_refl _
  | cons e es ih =>
      obtain ⟨s', hs, hrest⟩ := run_cons_eq_some.mp hrun
      obtain ⟨hg, htail⟩ := along_cons hguard
      exact (hstep s e s' hg hs).trans (ih (htail s' hs) hrest)

end Log

/-! ## Parties numbered in the order in which they come -/

theorem getElem?_append_new {ρ : Type*} {l : List ρ} {new r : ρ} {i : Nat}
    (h : (l ++ [new])[i]? = some r) : l[i]? = some r ∨ i = l.length ∧ r = new := by
  rcases Nat.lt_or_ge i l.length with hi | hi
  · rw [List.getElem?_append_left hi] at h
    exact .inl h
  · rw [List.getElem?_append_right hi] at h
    obtain ⟨hlt, heq⟩ := List.getElem?_eq_some_iff.mp h
    simp only [List.length_singleton] at hlt
    refine .inr ⟨by omega, ?_⟩
    simpa using heq.symm

theorem getElem?_set_new {ρ : Type*} {l : List ρ} {new r : ρ} {i j : Nat}
    (h : (l.set i new)[j]? = some r) : j = i ∧ r = new ∨ j ≠ i ∧ l[j]? = some r := by
  rw [List.getElem?_set] at h
  split at h
  · rename_i hij
    split at h
    · exact .inl ⟨hij.symm, (Option.some.inj h).symm⟩
    · cases h
  · rename_i hij
    exact .inr ⟨Ne.symm hij, h⟩

end IsolatedEnv.Foundation
