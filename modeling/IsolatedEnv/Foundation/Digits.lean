import Mathlib.Data.List.Basic
import Mathlib.Tactic.IntervalCases
import Mathlib.Tactic.Ring

/-!
# Fixed-width digits

Numbers written with a fixed number of digits in a base up to sixteen, as
dates, times and identifiers are.  Letters are written in lower case and read
in either case.
-/

namespace IsolatedEnv.Foundation

def digitValue (c : Char) : Option Nat :=
  if '0' ≤ c ∧ c ≤ '9' then some (c.toNat - 48)
  else if 'a' ≤ c ∧ c ≤ 'f' then some (c.toNat - 87)
  else if 'A' ≤ c ∧ c ≤ 'F' then some (c.toNat - 55)
  else none

/-- The value of a digit of the base, `none` for any other character. -/
def readDigit (base : Nat) (c : Char) : Option Nat :=
  (digitValue c).filter fun d => d < base

def padDigits (base : Nat) : Nat → Nat → List Char
  | 0, _ => []
  | width + 1, n => padDigits base width (n / base) ++ [(n % base).digitChar]

def readDigitsFrom (base : Nat) : Nat → List Char → Option Nat
  | value, [] => some value
  | value, c :: cs =>
      (readDigit base c).bind fun d => readDigitsFrom base (value * base + d) cs

def readDigits (base : Nat) (cs : List Char) : Option Nat :=
  readDigitsFrom base 0 cs

theorem digitValue_digitChar {d : Nat} (hd : d < 16) :
    digitValue d.digitChar = some d := by
  interval_cases d <;> rfl

theorem readDigit_digitChar {base d : Nat} (hbase : base ≤ 16)
    (hd : d < base) : readDigit base d.digitChar = some d := by
  simp [readDigit, digitValue_digitChar (Nat.lt_of_lt_of_le hd hbase), hd]

@[simp] theorem padDigits_length (base width n : Nat) :
    (padDigits base width n).length = width := by
  induction width generalizing n with
  | zero => rfl
  | succ width ih => simp [padDigits, ih]

theorem mem_padDigits {base width n : Nat} (hbase : 0 < base) {c : Char}
    (h : c ∈ padDigits base width n) : ∃ d, d < base ∧ c = d.digitChar := by
  induction width generalizing n with
  | zero => simp [padDigits] at h
  | succ width ih =>
      rcases List.mem_append.mp h with h | h
      · exact ih h
      · exact ⟨n % base, Nat.mod_lt n hbase, List.mem_singleton.mp h⟩

theorem readDigitsFrom_append {base : Nat} {cs ds : List Char} {value v : Nat}
    (h : readDigitsFrom base value cs = some v) :
    readDigitsFrom base value (cs ++ ds) = readDigitsFrom base v ds := by
  induction cs generalizing value with
  | nil =>
      simp only [readDigitsFrom, Option.some.injEq] at h
      simp [h]
  | cons c cs ih =>
      simp only [readDigitsFrom, Option.bind_eq_some_iff] at h
      obtain ⟨d, hd, hrest⟩ := h
      simp [readDigitsFrom, hd, ih hrest]

theorem readDigitsFrom_padDigits {base : Nat} (hpos : 0 < base)
    (hbase : base ≤ 16) (width n value : Nat) :
    readDigitsFrom base value (padDigits base width n) =
      some (value * base ^ width + n % base ^ width) := by
  induction width generalizing n with
  | zero => simp [padDigits, readDigitsFrom, Nat.mod_one]
  | succ width ih =>
      have hlast : n % base < base := Nat.mod_lt n hpos
      rw [padDigits, readDigitsFrom_append (ih (n / base))]
      simp only [readDigitsFrom, readDigit_digitChar hbase hlast,
        Option.bind_some, Option.some.injEq]
      have hsplit : n % base ^ (width + 1) =
          base * (n / base % base ^ width) + n % base := by
        rw [Nat.pow_succ, Nat.mul_comm, Nat.mod_mul]
        omega
      rw [hsplit, Nat.pow_succ]
      ring

theorem readDigits_padDigits {base width n : Nat} (hpos : 0 < base)
    (hbase : base ≤ 16) (hn : n < base ^ width) :
    readDigits base (padDigits base width n) = some n := by
  rw [readDigits, readDigitsFrom_padDigits hpos hbase, Nat.mod_eq_of_lt hn]
  simp

end IsolatedEnv.Foundation
