import IsolatedEnv.Foundation.Run

/-!
# Noninterference by a view

An observer sees some of the events and a part of the state, its view.  If a hidden
event leaves the view alone, and what a visible one leaves of it depends on the view
alone, then two runs with the same visible events end in the same view.
-/

namespace IsolatedEnv.Foundation

variable {σ ε ν : Type*}

structure Unwinds (step : σ → ε → Option σ) (visible : ε → Bool) (allowed : ε → Prop)
    (inv : σ → Prop) (view : σ → ν) : Prop where
  keeps : ∀ s e s', inv s → step s e = some s' → inv s'
  hidden : ∀ s e s', inv s → allowed e → visible e = false → step s e = some s' →
    view s' = view s
  seen : ∀ s t e s' t', inv s → inv t → allowed e → visible e = true → view s = view t →
    step s e = some s' → step t e = some t' → view s' = view t'

namespace Unwinds

variable {step : σ → ε → Option σ} {visible : ε → Bool} {allowed : ε → Prop}
  {inv : σ → Prop} {view : σ → ν} {s t s' t' : σ} {es es' : List ε}

theorem hidden_run (h : Unwinds step visible allowed inv view) (hs : inv s)
    (hallowed : ∀ e ∈ es, allowed e) (hhidden : ∀ e ∈ es, visible e = false)
    (hrun : run step s es = some s') : inv s' ∧ view s' = view s := by
  induction es generalizing s with
  | nil =>
      cases hrun
      exact ⟨hs, rfl⟩
  | cons e es ih =>
      obtain ⟨s₁, hstep, hrest⟩ := run_cons_eq_some.mp hrun
      obtain ⟨hinv, hview⟩ := ih (h.keeps s e s₁ hs hstep)
        (fun e' he' => hallowed e' (List.mem_cons_of_mem _ he'))
        (fun e' he' => hhidden e' (List.mem_cons_of_mem _ he')) hrest
      exact ⟨hinv, hview.trans (h.hidden s e s₁ hs (hallowed e List.mem_cons_self)
        (hhidden e List.mem_cons_self) hstep)⟩

theorem view_eq (h : Unwinds step visible allowed inv view) (hs : inv s) (ht : inv t)
    (hview : view s = view t) (hallowed : ∀ e ∈ es, allowed e)
    (hallowed' : ∀ e ∈ es', allowed e) (hsame : es.filter visible = es'.filter visible)
    (hrun : run step s es = some s') (hrun' : run step t es' = some t') :
    view s' = view t' := by
  induction es generalizing s t es' with
  | nil =>
      cases hrun
      have hhidden : ∀ e ∈ es', visible e = false := by
        simpa using List.filter_eq_nil_iff.mp hsame.symm
      exact hview.trans (h.hidden_run ht hallowed' hhidden hrun').2.symm
  | cons e es ih =>
      obtain ⟨s₁, hstep, hrest⟩ := run_cons_eq_some.mp hrun
      have hallowedRest : ∀ e' ∈ es, allowed e' :=
        fun e' he' => hallowed e' (List.mem_cons_of_mem _ he')
      have hallowedE := hallowed e List.mem_cons_self
      have hs₁ := h.keeps s e s₁ hs hstep
      cases hvisible : visible e with
      | false =>
          rw [List.filter_cons_of_neg (by simp [hvisible])] at hsame
          have hview₁ := (h.hidden s e s₁ hs hallowedE hvisible hstep).trans hview
          exact ih hs₁ ht hview₁ hallowedRest hallowed' hsame hrest hrun'
      | true =>
          -- The other run reaches the same event after some that are hidden.
          rw [List.filter_cons_of_pos hvisible] at hsame
          obtain ⟨before, after, rfl, hbefore, -, hafter⟩ :=
            List.filter_eq_cons_iff.mp hsame.symm
          obtain ⟨t₁, hrunBefore, hrun'⟩ := run_append_eq_some.mp hrun'
          obtain ⟨t₂, hstep', hrest'⟩ := run_cons_eq_some.mp hrun'
          obtain ⟨ht₁, hview₁⟩ := h.hidden_run ht
            (fun e' he' => hallowed' e' (List.mem_append_left _ he'))
            (fun e' he' => eq_false_of_ne_true (hbefore e' he')) hrunBefore
          have hview₂ := h.seen s t₁ e s₁ t₂ hs ht₁ hallowedE hvisible
            (hview.trans hview₁.symm) hstep hstep'
          exact ih hs₁ (h.keeps t₁ e t₂ ht₁ hstep') hview₂ hallowedRest
            (fun e' he' => hallowed' e'
              (List.mem_append_right _ (List.mem_cons_of_mem _ he'))) hafter.symm hrest
            hrest'

end Unwinds

end IsolatedEnv.Foundation
