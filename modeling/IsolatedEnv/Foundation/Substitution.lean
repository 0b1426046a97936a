import Mathlib.Data.List.Basic

/-!
# Replacing the matches of a pattern

`substitute` is `re.sub`: the text is read from left to right, every match is replaced
and reading goes on behind it.  A pattern is given by the length of its match at the
head of a text.  Where no match can touch a separator, the text is replaced piece by
piece.
-/

namespace IsolatedEnv.Foundation

variable {α : Type*}

/-- `skip` is what is left of the last match. -/
def substitute (matchAt : List α → Option Nat) (repl : List α) : Nat → List α → List α
  | _, [] => []
  | skip + 1, _ :: cs => substitute matchAt repl skip cs
  | 0, c :: cs =>
      match matchAt (c :: cs) with
      | some n => repl ++ substitute matchAt repl (n - 1) cs
      | none => c :: substitute matchAt repl 0 cs

/-- Matches are not empty and neither contain nor look at the separator. -/
structure Apart (matchAt : List α → Option Nat) (separator : α) : Prop where
  here : ∀ a b, matchAt (a ++ separator :: b) = matchAt a
  fits : ∀ {a n}, matchAt a = some n → 0 < n ∧ n ≤ a.length

section Substitute

variable {matchAt : List α → Option Nat} {repl : List α}

theorem substitute_skip (skip : Nat) (cs : List α) :
    substitute matchAt repl skip cs = substitute matchAt repl 0 (cs.drop skip) := by
  induction cs generalizing skip with
  | nil => simp [substitute]
  | cons c cs ih =>
      cases skip with
      | zero => rfl
      | succ skip => rw [substitute, ih, List.drop_succ_cons]

theorem substitute_of_match {c : α} {cs : List α} {n : Nat}
    (h : matchAt (c :: cs) = some (n + 1)) :
    substitute matchAt repl 0 (c :: cs) =
      repl ++ substitute matchAt repl 0 (cs.drop n) := by
  rw [substitute, h]
  simp only [Nat.add_sub_cancel, substitute_skip n]

theorem substitute_of_none {c : α} {cs : List α} (h : matchAt (c :: cs) = none) :
    substitute matchAt repl 0 (c :: cs) = c :: substitute matchAt repl 0 cs := by
  rw [substitute, h]

theorem substitute_eq_self {cs : List α}
    (h : ∀ tail, tail <:+ cs → matchAt tail = none) :
    substitute matchAt repl 0 cs = cs := by
  induction cs with
  | nil => rfl
  | cons c cs ih =>
      rw [substitute_of_none (h _ List.suffix_rfl),
        ih fun tail htail => h tail (htail.trans (List.suffix_cons c cs))]

theorem substitute_append {x : α} (hx : Apart matchAt x) (b : List α) :
    (a : List α) → substitute matchAt repl 0 (a ++ x :: b) =
      substitute matchAt repl 0 a ++ x :: substitute matchAt repl 0 b
  | [] => by
      have hnone : matchAt (x :: b) = none := by
        rw [← List.nil_append (x :: b), hx.here]
        cases h : matchAt [] with
        | none => rfl
        | some n =>
            obtain ⟨hpos, hle⟩ := hx.fits h
            exact absurd (Nat.lt_of_lt_of_le hpos hle) (Nat.lt_irrefl 0)
      rw [List.nil_append, substitute_of_none hnone, substitute, List.nil_append]
  | c :: a => by
      have hlocal : matchAt (c :: (a ++ x :: b)) = matchAt (c :: a) :=
        hx.here (c :: a) b
      cases h : matchAt (c :: a) with
      | none =>
          rw [List.cons_append, substitute_of_none (hlocal.trans h),
            substitute_of_none h, substitute_append hx b a, List.cons_append]
      | some n =>
          obtain ⟨n, rfl⟩ := Nat.exists_eq_succ_of_ne_zero (Nat.ne_of_gt (hx.fits h).1)
          have hle : n ≤ a.length := Nat.le_of_succ_le_succ (hx.fits h).2
          rw [List.cons_append, substitute_of_match (hlocal.trans h),
            substitute_of_match h, List.drop_append_of_le_length hle,
            substitute_append hx b (a.drop n), List.append_assoc]
  termination_by a => a.length
  decreasing_by all_goals (simp only [List.length_cons, List.length_drop]; omega)

theorem mem_substitute {x : α} {skip : Nat} {cs : List α}
    (h : x ∈ substitute matchAt repl skip cs) : x ∈ repl ∨ x ∈ cs := by
  induction cs generalizing skip with
  | nil => simp [substitute] at h
  | cons c cs ih =>
      have htail {skip : Nat} (h : x ∈ substitute matchAt repl skip cs) :
          x ∈ repl ∨ x ∈ c :: cs := (ih h).imp_right (List.mem_cons_of_mem c)
      cases skip with
      | succ skip =>
          rw [substitute] at h
          exact htail h
      | zero =>
          rw [substitute] at h
          split at h
          · rcases List.mem_append.mp h with h | h
            · exact .inl h
            · exact htail h
          · rcases List.mem_cons.mp h with rfl | h
            · exact .inr List.mem_cons_self
            · exact htail h

end Substitute

/-! ## Patterns of one class of characters after the other -/

def matchClasses : List (α → Bool) → List α → Bool
  | [], _ => true
  | _ :: _, [] => false
  | p :: ps, c :: cs => p c && matchClasses ps cs

def classesAt (classes : List (α → Bool)) (cs : List α) : Option Nat :=
  if matchClasses classes cs then some classes.length else none

theorem matchClasses_append {classes : List (α → Bool)} {x : α}
    (hx : ∀ p ∈ classes, p x = false) (a b : List α) :
    matchClasses classes (a ++ x :: b) = matchClasses classes a := by
  induction classes generalizing a with
  | nil => rfl
  | cons p ps ih =>
      obtain ⟨hp, hps⟩ := List.forall_mem_cons.mp hx
      cases a with
      | nil => simp [matchClasses, hp]
      | cons c a => simp [matchClasses, ih hps a]

theorem length_le_of_matchClasses {classes : List (α → Bool)} {cs : List α}
    (h : matchClasses classes cs = true) : classes.length ≤ cs.length := by
  induction classes generalizing cs with
  | nil => exact Nat.zero_le _
  | cons p ps ih =>
      cases cs with
      | nil => simp [matchClasses] at h
      | cons c cs =>
          rw [matchClasses, Bool.and_eq_true] at h
          exact Nat.succ_le_succ (ih h.2)

theorem exists_of_matchClasses {classes : List (α → Bool)} {cs : List α} {p : α → Bool}
    (h : matchClasses classes cs = true) (hp : p ∈ classes) : ∃ c ∈ cs, p c = true := by
  induction classes generalizing cs with
  | nil => exact absurd hp List.not_mem_nil
  | cons q qs ih =>
      cases cs with
      | nil => simp [matchClasses] at h
      | cons c cs =>
          rw [matchClasses, Bool.and_eq_true] at h
          rcases List.mem_cons.mp hp with rfl | hp
          · exact ⟨c, List.mem_cons_self, h.1⟩
          · obtain ⟨d, hd, hpd⟩ := ih h.2 hp
            exact ⟨d, List.mem_cons_of_mem c hd, hpd⟩

theorem forall_of_matchClasses {classes : List (α → Bool)} {cs : List α}
    (h : matchClasses classes cs = true) (hlength : cs.length = classes.length) :
    ∀ c ∈ cs, ∃ p ∈ classes, p c = true := by
  induction classes generalizing cs with
  | nil =>
      obtain rfl := List.length_eq_zero_iff.mp hlength
      exact fun c hc => absurd hc List.not_mem_nil
  | cons p ps ih =>
      cases cs with
      | nil => simp [matchClasses] at h
      | cons c cs =>
          rw [matchClasses, Bool.and_eq_true] at h
          intro d hd
          rcases List.mem_cons.mp hd with rfl | hd
          · exact ⟨p, List.mem_cons_self, h.1⟩
          · obtain ⟨q, hq, hqd⟩ := ih h.2 (Nat.succ.inj hlength) d hd
            exact ⟨q, List.mem_cons_of_mem p hq, hqd⟩

theorem apart_classesAt {classes : List (α → Bool)} {x : α} (hne : classes ≠ [])
    (hx : ∀ p ∈ classes, p x = false) : Apart (classesAt classes) x where
  here a b := by rw [classesAt, classesAt, matchClasses_append hx]
  fits {a n} h := by
    obtain ⟨hmatch, hlength⟩ := Option.ite_none_right_eq_some.mp h
    obtain rfl := Option.some.inj hlength
    exact ⟨List.length_pos_iff.mpr hne, length_le_of_matchClasses hmatch⟩

end IsolatedEnv.Foundation
