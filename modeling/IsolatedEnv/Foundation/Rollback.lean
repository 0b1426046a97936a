import IsolatedEnv.Foundation.Run
import Mathlib.Data.List.Induction

/-!
# Optimistic mutations

A mutation changes a shared value before its request is answered.  What `onMutate`
returns beside the changed value is kept as the context of the mutation and handed to
`onError`, which is to take the change back; `onSuccess` leaves the value alone.  The
changes of the mutations commute, and `onError` restores the value that its mutation
found.  Such a rollback is harmless exactly as long as nothing that matters has started
or failed in between.
-/

namespace IsolatedEnv.Foundation

inductive Callback (μ : Type*) where
  | onMutate (m : μ)
  | onSuccess (m : μ)
  | onError (m : μ)
  deriving DecidableEq, Repr

structure Optimistic (μ σ κ : Type*) where
  value : σ
  contexts : List (μ × κ)
  deriving DecidableEq, Repr

namespace Callback

variable {μ : Type*}

def mutated? : Callback μ → Option μ
  | .onMutate m => some m
  | _ => none

def failed? : Callback μ → Option μ
  | .onError m => some m
  | _ => none

def started (callbacks : List (Callback μ)) : List μ := callbacks.filterMap mutated?

def failed (callbacks : List (Callback μ)) : List μ := callbacks.filterMap failed?

/-- The mutations that have started and not failed. -/
def standing [DecidableEq μ] (callbacks : List (Callback μ)) : List μ :=
  (started callbacks).filter fun m => m ∉ failed callbacks

theorem standing_sublist [DecidableEq μ] (callbacks : List (Callback μ)) :
    (standing callbacks).Sublist (started callbacks) :=
  List.filter_sublist

@[simp] theorem standing_onSuccess [DecidableEq μ] (callbacks : List (Callback μ)) (m : μ) :
    standing (callbacks ++ [.onSuccess m]) = standing callbacks := by
  simp [standing, started, failed, mutated?, failed?]

theorem standing_onMutate [DecidableEq μ] {callbacks : List (Callback μ)} {m : μ}
    (h : m ∉ failed callbacks) :
    standing (callbacks ++ [.onMutate m]) = standing callbacks ++ [m] := by
  simpa [standing, started, failed, mutated?, failed?] using h

theorem mem_standing_onError [DecidableEq μ] {callbacks : List (Callback μ)} {m x : μ} :
    x ∈ standing (callbacks ++ [.onError m]) ↔ x ∈ standing callbacks ∧ x ≠ m := by
  have hfailed : x ∈ failed (callbacks ++ [.onError m]) ↔ x ∈ failed callbacks ∨ x = m := by
    simp [failed, failed?]
  have hstarted : started (callbacks ++ [.onError m]) = started callbacks := by
    simp [started, mutated?]
  simp only [standing, List.mem_filter, decide_eq_true_eq, hfailed, hstarted, not_or,
    and_assoc, ne_eq]

end Callback

namespace Optimistic

open Callback

variable {μ σ κ : Type*}

section Steps

variable [DecidableEq μ] (onMutate : μ → σ → σ × κ) (onError : κ → σ → σ)

def context? (s : Optimistic μ σ κ) (m : μ) : Option κ :=
  (s.contexts.find? fun entry => entry.1 = m).map Prod.snd

def settle (s : Optimistic μ σ κ) (m : μ) : List (μ × κ) :=
  s.contexts.filter fun entry => entry.1 ≠ m

/-- A callback of a mutation that is not under way does not happen. -/
def step (s : Optimistic μ σ κ) : Callback μ → Option (Optimistic μ σ κ)
  | .onMutate m =>
      some ⟨(onMutate m s.value).1, s.contexts ++ [(m, (onMutate m s.value).2)]⟩
  | .onSuccess m => (s.context? m).map fun _ => ⟨s.value, s.settle m⟩
  | .onError m => (s.context? m).map fun context => ⟨onError context s.value, s.settle m⟩

/-- The value with the changes of the mutations made in their order. -/
def applyAll (ms : List μ) (value : σ) : σ :=
  ms.foldl (fun current m => (onMutate m current).1) value

def Commute (m m' : μ) : Prop :=
  ∀ value, (onMutate m (onMutate m' value).1).1 = (onMutate m' (onMutate m value).1).1

def Effective (base : σ) (m : μ) : Prop := (onMutate m base).1 ≠ base

/--
Whenever a mutation fails, the effective mutations that stood when it started are the
others that stand now.
-/
def RollsBackLast (base : σ) (callbacks : List (Callback μ)) : Prop :=
  ∀ before since rest m,
    callbacks = before ++ .onMutate m :: since ++ .onError m :: rest →
      ∀ x, Effective onMutate base x →
        (x ∈ standing before ↔ x ∈ standing (before ++ .onMutate m :: since) ∧ x ≠ m)

end Steps

variable {onMutate : μ → σ → σ × κ} {onError : κ → σ → σ} {base : σ}

/-! ## Commuting changes -/

theorem apply_applyAll {m : μ} {ms : List μ} (hcommute : ∀ x ∈ ms, Commute onMutate m x)
    (value : σ) :
    (onMutate m (applyAll onMutate ms value)).1 =
      applyAll onMutate ms (onMutate m value).1 := by
  induction ms generalizing value with
  | nil => rfl
  | cons x ms ih =>
      obtain ⟨hx, hms⟩ := List.forall_mem_cons.mp hcommute
      calc (onMutate m (applyAll onMutate ms (onMutate x value).1)).1
          = applyAll onMutate ms (onMutate m (onMutate x value).1).1 := ih hms _
        _ = applyAll onMutate ms (onMutate x (onMutate m value).1).1 := by rw [hx value]

theorem applyAll_concat (ms : List μ) (m : μ) (value : σ) :
    applyAll onMutate (ms ++ [m]) value =
      (onMutate m (applyAll onMutate ms value)).1 := by
  simp [applyAll]

/-- Mutations that leave the first value as it is can be dropped. -/
theorem applyAll_filter_effective [DecidablePred (Effective onMutate base)] {ms : List μ}
    (hcommute : ∀ x ∈ ms, ∀ y ∈ ms, Commute onMutate x y) :
    applyAll onMutate (ms.filter fun m => Effective onMutate base m) base =
      applyAll onMutate ms base := by
  induction ms using List.reverseRecOn with
  | nil => rfl
  | append_singleton ms m ih =>
      have hprefix : ∀ x ∈ ms, ∀ y ∈ ms, Commute onMutate x y := fun x hx y hy =>
        hcommute x (List.mem_append_left _ hx) y (List.mem_append_left _ hy)
      have hm : ∀ x ∈ ms, Commute onMutate m x := fun x hx =>
        hcommute m (by simp) x (List.mem_append_left _ hx)
      rw [List.filter_append, applyAll_concat]
      by_cases heffective : Effective onMutate base m
      · rw [List.filter_cons_of_pos (by simpa using heffective), List.filter_nil,
          applyAll_concat, ih hprefix]
      · rw [List.filter_cons_of_neg (by simpa using heffective), List.filter_nil,
          List.append_nil, ih hprefix, apply_applyAll hm, not_not.mp heffective]

/-- Only the effective mutations matter, and not their order. -/
theorem applyAll_congr {all ms ms' : List μ}
    (hcommute : ∀ x ∈ all, ∀ y ∈ all, Commute onMutate x y) (hall : all.Nodup)
    (hms : ms.Sublist all) (hms' : ms'.Sublist all)
    (hsame : ∀ x, Effective onMutate base x → (x ∈ ms ↔ x ∈ ms')) :
    applyAll onMutate ms base = applyAll onMutate ms' base := by
  classical
  have hperm : (ms.filter fun m => Effective onMutate base m).Perm
      (ms'.filter fun m => Effective onMutate base m) := by
    refine (List.perm_ext_iff_of_nodup ((hms.nodup hall).filter _)
      ((hms'.nodup hall).filter _)).mpr fun x => ?_
    simp only [List.mem_filter, decide_eq_true_eq]
    exact and_congr_left (hsame x)
  have hwithin {l : List μ} (hl : l.Sublist all) :
      ∀ x ∈ l, ∀ y ∈ l, Commute onMutate x y := fun x hx y hy =>
    hcommute x (hl.mem hx) y (hl.mem hy)
  rw [← applyAll_filter_effective (hwithin hms), ← applyAll_filter_effective (hwithin hms')]
  exact hperm.foldl_eq' (fun x hx y hy value =>
    hwithin hms y (List.mem_filter.mp hy).1 x (List.mem_filter.mp hx).1 value) base

/-! ## Runs -/

variable [DecidableEq μ]

theorem mem_of_context?_eq_some {s : Optimistic μ σ κ} {m : μ} {context : κ}
    (h : s.context? m = some context) : (m, context) ∈ s.contexts := by
  obtain ⟨⟨m', context'⟩, hfind, rfl⟩ := Option.map_eq_some_iff.mp h
  have hm : m' = m := by simpa using List.find?_some hfind
  exact hm ▸ List.mem_of_find?_eq_some hfind

theorem mem_of_mem_settle {s : Optimistic μ σ κ} {m : μ} {entry : μ × κ}
    (h : entry ∈ s.settle m) : entry ∈ s.contexts :=
  (List.mem_filter.mp h).1

/-- What a run of callbacks from `base` has led to. -/
structure Follows (onMutate : μ → σ → σ × κ) (base : σ) (callbacks : List (Callback μ))
    (s : Optimistic μ σ κ) : Prop where
  value : s.value = applyAll onMutate (standing callbacks) base
  contexts : ∀ entry ∈ s.contexts, ∃ before since,
    callbacks = before ++ .onMutate entry.1 :: since ∧
      entry.2 = (onMutate entry.1 (applyAll onMutate (standing before) base)).2
  begun : ∀ m ∈ failed callbacks, m ∈ started callbacks

theorem Follows.contexts_concat {callbacks : List (Callback μ)} {s : Optimistic μ σ κ}
    (h : Follows onMutate base callbacks s) (c : Callback μ) :
    ∀ entry ∈ s.contexts, ∃ before since,
      callbacks ++ [c] = before ++ .onMutate entry.1 :: since ∧
        entry.2 = (onMutate entry.1 (applyAll onMutate (standing before) base)).2 := by
  intro entry hentry
  obtain ⟨before, since, hsplit, hcontext⟩ := h.contexts entry hentry
  exact ⟨before, since ++ [c], by rw [hsplit]; simp, hcontext⟩

theorem Follows.mutate {callbacks : List (Callback μ)} {s : Optimistic μ σ κ} {m : μ}
    (h : Follows onMutate base callbacks s)
    (hdistinct : (started (callbacks ++ [.onMutate m])).Nodup) :
    Follows onMutate base (callbacks ++ [.onMutate m])
      ⟨(onMutate m s.value).1, s.contexts ++ [(m, (onMutate m s.value).2)]⟩ := by
  have hstarted : started (callbacks ++ [.onMutate m]) = started callbacks ++ [m] := by
    simp [started, mutated?]
  have hfresh : m ∉ failed callbacks := by
    intro hm
    rw [hstarted] at hdistinct
    exact (List.nodup_append.mp hdistinct).2.2 m (h.begun m hm) m (by simp) rfl
  refine ⟨?_, ?_, ?_⟩
  · rw [standing_onMutate hfresh, applyAll_concat, ← h.value]
  · intro entry hentry
    rcases List.mem_append.mp hentry with hold | hnew
    · exact h.contexts_concat _ entry hold
    · obtain rfl := List.mem_singleton.mp hnew
      exact ⟨callbacks, [], rfl, by rw [← h.value]⟩
  · intro x hx
    have hx' : x ∈ failed callbacks := by simpa [Callback.failed, failed?] using hx
    rw [hstarted]
    exact List.mem_append_left _ (h.begun x hx')

theorem Follows.success {callbacks : List (Callback μ)} {s : Optimistic μ σ κ}
    (h : Follows onMutate base callbacks s) (m : μ) :
    Follows onMutate base (callbacks ++ [.onSuccess m]) ⟨s.value, s.settle m⟩ := by
  refine ⟨?_, fun entry hentry => h.contexts_concat _ entry (mem_of_mem_settle hentry), ?_⟩
  · rw [standing_onSuccess, ← h.value]
  · simpa [Callback.failed, failed?, started, mutated?] using h.begun

/-- The step that the condition is for: the restored value lacks nothing that stands. -/
theorem Follows.error {callbacks : List (Callback μ)} {s : Optimistic μ σ κ} {m : μ}
    {context : κ} (h : Follows onMutate base callbacks s)
    (hcontext : s.context? m = some context)
    (hrestore : ∀ m ms ms', onError (onMutate m (applyAll onMutate ms base)).2
      (applyAll onMutate ms' base) = applyAll onMutate ms base)
    (hcommute : ∀ x ∈ started callbacks, ∀ y ∈ started callbacks, Commute onMutate x y)
    (hdistinct : (started callbacks).Nodup)
    (hlast : RollsBackLast onMutate base (callbacks ++ [.onError m])) :
    Follows onMutate base (callbacks ++ [.onError m])
      ⟨onError context s.value, s.settle m⟩ := by
  have hmem := mem_of_context?_eq_some hcontext
  obtain ⟨before, since, hsplit, hfound⟩ := h.contexts _ hmem
  simp only at hsplit hfound
  have hstarted : started (callbacks ++ [.onError m]) = started callbacks := by
    simp [started, mutated?]
  refine ⟨?_, fun entry hentry => h.contexts_concat _ entry (mem_of_mem_settle hentry), ?_⟩
  · have hbefore : (standing before).Sublist (started callbacks) := by
      refine (standing_sublist before).trans ?_
      rw [hsplit, started, started, List.filterMap_append]
      exact List.sublist_append_left _ _
    have hnow : (standing (callbacks ++ [.onError m])).Sublist (started callbacks) :=
      hstarted ▸ standing_sublist _
    rw [hfound, h.value, hrestore]
    refine applyAll_congr hcommute hdistinct hbefore hnow fun x hx => ?_
    rw [mem_standing_onError, hsplit]
    exact hlast before since [] m (by rw [hsplit]) x hx
  · intro x hx
    have hx' : x ∈ failed callbacks ∨ x = m := by
      simpa [Callback.failed, failed?] using hx
    rw [hstarted]
    rcases hx' with hx' | rfl
    · exact h.begun x hx'
    · rw [hsplit]
      simp [started, mutated?]

theorem RollsBackLast.left {callbacks rest : List (Callback μ)}
    (h : RollsBackLast onMutate base (callbacks ++ rest)) :
    RollsBackLast onMutate base callbacks := by
  intro before since tail m hsplit
  exact h before since (tail ++ rest) m (by rw [hsplit]; simp)

/-- The condition, checked at the positions of a list of callbacks. -/
theorem rollsBackLast_of_take (base : σ) {callbacks : List (Callback μ)}
    (h : ∀ i < callbacks.length, ∀ j < callbacks.length, ∀ m ∈ failed callbacks,
      callbacks[i]? = some (.onMutate m) ∧ callbacks[j]? = some (.onError m) →
        (standing (callbacks.take j)).filter (fun x => x ≠ m) =
          standing (callbacks.take i)) :
    RollsBackLast onMutate base callbacks := by
  intro before since rest m hsplit x _
  have hm : m ∈ failed callbacks :=
    List.mem_filterMap.mpr ⟨.onError m, by rw [hsplit]; simp, rfl⟩
  have hmutate : callbacks[before.length]? = some (.onMutate m) := by
    rw [hsplit, List.append_assoc]
    simp
  have herror : callbacks[(before ++ .onMutate m :: since).length]? =
      some (.onError m) := by
    rw [hsplit]
    simp
  have hlists := h before.length (List.getElem?_eq_some_iff.mp hmutate).1
    (before ++ .onMutate m :: since).length (List.getElem?_eq_some_iff.mp herror).1 m hm
    ⟨hmutate, herror⟩
  rw [hsplit, List.take_left' rfl, List.append_assoc, List.take_left' rfl] at hlists
  rw [← hlists, List.mem_filter, decide_eq_true_eq]

/-- In every state reached the value is the first one with the standing changes made. -/
theorem follows_of_run
    (hrestore : ∀ m ms ms', onError (onMutate m (applyAll onMutate ms base)).2
      (applyAll onMutate ms' base) = applyAll onMutate ms base)
    {callbacks : List (Callback μ)} {s : Optimistic μ σ κ}
    (hcommute : ∀ x ∈ started callbacks, ∀ y ∈ started callbacks, Commute onMutate x y)
    (hdistinct : (started callbacks).Nodup)
    (hlast : RollsBackLast onMutate base callbacks)
    (hrun : run (step onMutate onError) ⟨base, []⟩ callbacks = some s) :
    Follows onMutate base callbacks s := by
  induction callbacks using List.reverseRecOn generalizing s with
  | nil =>
      obtain rfl := Option.some.inj hrun
      exact ⟨rfl, by simp, by simp [Callback.failed]⟩
  | append_singleton callbacks c ih =>
      obtain ⟨t, hbefore, hafter⟩ := run_append_eq_some.mp hrun
      obtain ⟨s', hstep, hnil⟩ := run_cons_eq_some.mp hafter
      obtain rfl := Option.some.inj hnil
      have hsub : (started callbacks).Sublist (started (callbacks ++ [c])) := by
        rw [started, started, List.filterMap_append]
        exact List.sublist_append_left _ _
      have hcommute' : ∀ x ∈ started callbacks, ∀ y ∈ started callbacks,
          Commute onMutate x y := fun x hx y hy =>
        hcommute x (hsub.mem hx) y (hsub.mem hy)
      have ht := ih hcommute' (hsub.nodup hdistinct) hlast.left hbefore
      cases c with
      | onMutate m =>
          obtain rfl := Option.some.inj hstep
          exact ht.mutate hdistinct
      | onSuccess m =>
          obtain ⟨context, -, rfl⟩ := Option.map_eq_some_iff.mp hstep
          exact ht.success m
      | onError m =>
          obtain ⟨context, hcontext, rfl⟩ := Option.map_eq_some_iff.mp hstep
          exact ht.error hcontext hrestore hcommute' (hsub.nodup hdistinct) hlast

end Optimistic

end IsolatedEnv.Foundation
