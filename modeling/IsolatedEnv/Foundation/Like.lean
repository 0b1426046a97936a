import Mathlib.Data.List.Infix

/-!
# SQL `LIKE`

PostgreSQL's matching with the backslash as escape character: `%` stands for
any text and `_` for any character.  A pattern that ends in a lone backslash,
on which the database raises, does not arise from `escapeLike`.
-/

namespace IsolatedEnv.Foundation

def isLikeMeta (c : Char) : Bool := c = '%' || c = '_' || c = '\\'

def escapeLike (cs : List Char) : List Char :=
  cs.flatMap fun c => if isLikeMeta c then ['\\', c] else [c]

def like : List Char → List Char → Bool
  | [], cs => cs.isEmpty
  | '%' :: pattern, cs => cs.tails.any (like pattern)
  | '_' :: _, [] => false
  | '_' :: pattern, _ :: cs => like pattern cs
  | '\\' :: _ :: _, [] => false
  | '\\' :: c :: pattern, d :: cs => c = d && like pattern cs
  | _ :: _, [] => false
  | c :: pattern, d :: cs => c = d && like pattern cs

theorem like_escapeLike_cons (c d : Char) (text pattern cs : List Char) :
    like (escapeLike (c :: text) ++ pattern) (d :: cs) =
      (c = d && like (escapeLike text ++ pattern) cs) ∧
    like (escapeLike (c :: text) ++ pattern) [] = false := by
  have hcons : escapeLike (c :: text) ++ pattern =
      (if isLikeMeta c then ['\\', c] else [c]) ++ (escapeLike text ++ pattern) := by
    simp [escapeLike]
  rw [hcons]
  by_cases hmeta : isLikeMeta c = true
  · rw [if_pos hmeta]
    exact ⟨rfl, rfl⟩
  · rw [if_neg hmeta]
    simp only [isLikeMeta, Bool.or_eq_true, decide_eq_true_eq, not_or] at hmeta
    obtain ⟨⟨hpercent, hunderscore⟩, hbackslash⟩ := hmeta
    simp [like, hbackslash]

theorem like_escapeLike_append (text pattern cs : List Char) :
    like (escapeLike text ++ pattern) cs = true ↔
      ∃ rest, cs = text ++ rest ∧ like pattern rest = true := by
  induction text generalizing cs with
  | nil => simp [escapeLike]
  | cons c text ih =>
      cases cs with
      | nil => simp [(like_escapeLike_cons c c text pattern []).2]
      | cons d cs =>
          simp only [(like_escapeLike_cons c d text pattern cs).1, Bool.and_eq_true,
            decide_eq_true_eq, ih, List.cons_append, List.cons.injEq]
          constructor
          · rintro ⟨rfl, rest, rfl, hrest⟩
            exact ⟨rest, ⟨rfl, rfl⟩, hrest⟩
          · rintro ⟨rest, ⟨rfl, rfl⟩, hrest⟩
            exact ⟨rfl, rest, rfl, hrest⟩

theorem like_percent (cs : List Char) : like ['%'] cs = true := by
  simp [like]

/-- `%text%` finds the texts that contain an escaped one. -/
theorem like_contains (text cs : List Char) :
    like ('%' :: (escapeLike text ++ ['%'])) cs = true ↔ text <:+: cs := by
  rw [like, List.any_eq_true]
  constructor
  · rintro ⟨tail, htail, hlike⟩
    obtain ⟨front, rfl⟩ := (List.mem_tails _ _).mp htail
    obtain ⟨rest, rfl, -⟩ := (like_escapeLike_append _ _ _).mp hlike
    exact ⟨front, rest, by simp⟩
  · rintro ⟨front, rest, rfl⟩
    refine ⟨text ++ rest, (List.mem_tails _ _).mpr ⟨front, by simp⟩, ?_⟩
    exact (like_escapeLike_append _ _ _).mpr ⟨rest, rfl, like_percent rest⟩

end IsolatedEnv.Foundation
