import Mathlib.Data.List.Infix

/-!
# Glob patterns

The patterns of Redis: `*` and `?`, classes of characters with ranges and `^`, and the
backslash that takes the next character for itself.  A pattern is read into a list of
pieces before anything is matched.
-/

namespace IsolatedEnv.Foundation.Glob

inductive Piece where
  | star
  | question
  | literal (c : Char)
  /-- A class as a list of ranges. -/
  | among (negated : Bool) (ranges : List (Char × Char))
  deriving DecidableEq, Repr

/-- The first argument is the class that is being read. -/
def readPieces : Option (Bool × List (Char × Char)) → List Char → List Piece
  | none, [] => []
  | none, '*' :: cs => .star :: readPieces none cs
  | none, '?' :: cs => .question :: readPieces none cs
  | none, '[' :: '^' :: cs => readPieces (some (true, [])) cs
  | none, '[' :: cs => readPieces (some (false, [])) cs
  | none, '\\' :: c :: cs => .literal c :: readPieces none cs
  | none, c :: cs => .literal c :: readPieces none cs
  | some (negated, ranges), [] => [.among negated ranges]
  | some (negated, ranges), '\\' :: c :: cs =>
      readPieces (some (negated, (c, c) :: ranges)) cs
  | some (negated, ranges), ']' :: cs => .among negated ranges :: readPieces none cs
  | some (negated, ranges), a :: '-' :: b :: cs =>
      -- a range may be written backwards
      readPieces (some (negated, (if a ≤ b then (a, b) else (b, a)) :: ranges)) cs
  | some (negated, ranges), c :: cs => readPieces (some (negated, (c, c) :: ranges)) cs

def inRanges (ranges : List (Char × Char)) (c : Char) : Bool :=
  ranges.any fun range => range.1 ≤ c && c ≤ range.2

def matchPieces : List Piece → List Char → Bool
  | [], text => text.isEmpty
  | .star :: pieces, text => text.tails.any (matchPieces pieces)
  | _ :: _, [] => false
  | .question :: pieces, _ :: text => matchPieces pieces text
  | .literal c :: pieces, d :: text => c = d && matchPieces pieces text
  | .among negated ranges :: pieces, d :: text =>
      (inRanges ranges d != negated) && matchPieces pieces text

def globMatch (pattern text : List Char) : Bool := matchPieces (readPieces none pattern) text

/-- Characters that stand for themselves. -/
def Literal (c : Char) : Prop := c ≠ '*' ∧ c ≠ '?' ∧ c ≠ '[' ∧ c ≠ '\\'

theorem readPieces_literal {c : Char} (h : Literal c) (cs : List Char) :
    readPieces none (c :: cs) = .literal c :: readPieces none cs := by
  obtain ⟨hstar, hquestion, hbracket, hbackslash⟩ := h
  rw [readPieces]
  · exact fun heq => hstar heq
  · exact fun heq => hquestion heq
  · exact fun _ heq => absurd heq hbracket
  · exact fun heq => hbracket heq
  · exact fun _ _ heq => absurd heq hbackslash

theorem readPieces_literals_star {cs : List Char} (h : ∀ c ∈ cs, Literal c) :
    readPieces none (cs ++ ['*']) = cs.map .literal ++ [.star] := by
  induction cs with
  | nil => rfl
  | cons c cs ih =>
      obtain ⟨hc, hcs⟩ := List.forall_mem_cons.mp h
      rw [List.cons_append, readPieces_literal hc, ih hcs, List.map_cons, List.cons_append]

theorem matchPieces_literals_star (cs text : List Char) :
    matchPieces (cs.map .literal ++ [.star]) text = cs.isPrefixOf text := by
  induction cs generalizing text with
  | nil =>
      have hend : [] ∈ text.tails := (List.mem_tails _ _).mpr List.nil_suffix
      simp only [List.map_nil, List.nil_append, matchPieces, List.isPrefixOf]
      exact List.any_eq_true.mpr ⟨[], hend, rfl⟩
  | cons c cs ih =>
      cases text with
      | nil => rfl
      | cons d text =>
          rw [List.map_cons, List.cons_append, matchPieces, ih, List.isPrefixOf]
          rfl

/-- A text of literal characters before a star matches what begins with it. -/
theorem globMatch_literals_star {cs : List Char} (h : ∀ c ∈ cs, Literal c)
    (text : List Char) : globMatch (cs ++ ['*']) text = cs.isPrefixOf text := by
  rw [globMatch, readPieces_literals_star h, matchPieces_literals_star]

example : globMatch "it?ms:[^a-c]\\*".toList "items:d*".toList = true := by decide

end IsolatedEnv.Foundation.Glob
