import Mathlib.Data.Rat.Defs

/-!
# JSON values

The values both programs exchange.  An integer literal and a literal with a
fraction or an exponent are kept apart, as Python does; a member list keeps
the order of the text, and the last binding of a name is the one that counts,
as in Python and in JavaScript.
-/

namespace IsolatedEnv.Foundation

inductive Json where
  | null
  | bool (value : Bool)
  | int (value : Int)
  | float (value : Rat)
  | str (value : String)
  | arr (elements : List Json)
  | obj (members : List (String × Json))
  deriving Repr

abbrev JsonObject := List (String × Json)

def JsonObject.get? (o : JsonObject) (name : String) : Option Json :=
  (o.reverse.find? fun m => m.1 = name).map Prod.snd

/-- `o[name] = value`. -/
def JsonObject.set (o : JsonObject) (name : String) (value : Json) : JsonObject :=
  (o.filter fun m => m.1 ≠ name) ++ [(name, value)]

theorem JsonObject.get?_set_of_ne {o : JsonObject} {name other : String} {value : Json}
    (h : name ≠ other) : get? (set o other value) name = get? o name := by
  unfold get? set
  rw [List.reverse_append, List.reverse_singleton, List.singleton_append,
    List.find?_cons_of_neg (by simpa using Ne.symm h), ← List.filter_reverse,
    List.find?_filter]
  congr 2
  funext m
  by_cases hm : m.1 = name
  · simp [hm, h]
  · simp [hm]

namespace Json

def elements? : Json → Option (List Json)
  | .arr elements => some elements
  | _ => none

def text? : Json → Option String
  | .str value => some value
  | _ => none

def number? : Json → Option Rat
  | .int value => some value
  | .float value => some value
  | _ => none

end Json

end IsolatedEnv.Foundation
