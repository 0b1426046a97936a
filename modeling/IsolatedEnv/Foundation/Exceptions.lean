import Mathlib.Logic.Basic

/-!
# What a computation may raise

`Raises P x` bounds the exceptions of `x`.  The rules follow the ways in which computations
are put together.
-/

namespace IsolatedEnv.Foundation

universe u v

variable {ε : Type u} {α β : Type v} {P Q : ε → Prop} {x : Except ε α}

def Raises (P : ε → Prop) (x : Except ε α) : Prop := ∀ e, x = .error e → P e

namespace Raises

theorem ok (a : α) : Raises P (.ok a) := fun _ h => by cases h

theorem error {e : ε} (h : P e) : Raises P (.error e : Except ε α) := fun _ heq => by
  cases heq
  exact h

theorem imp (h : ∀ e, P e → Q e) (hx : Raises P x) : Raises Q x := fun e he => h e (hx e he)

theorem map {f : α → β} (hx : Raises P x) : Raises P (x.map f) := by
  cases x with
  | ok a => exact ok (f a)
  | error e => exact error (hx e rfl)

/-- The second computation is only looked at for what the first one returns. -/
theorem bind {f : α → Except ε β} (hx : Raises P x) (hf : ∀ a, x = .ok a → Raises P (f a)) :
    Raises P (x >>= f) := by
  cases x with
  | ok a => exact hf a rfl
  | error e => exact error (hx e rfl)

theorem ite {c : Prop} [Decidable c] {y : Except ε α} (hx : c → Raises P x)
    (hy : ¬c → Raises P y) : Raises P (if c then x else y) := by
  split
  · exact hx ‹_›
  · exact hy ‹_›

end Raises

end IsolatedEnv.Foundation
