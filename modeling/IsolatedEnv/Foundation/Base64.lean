import Mathlib.Algebra.GroupWithZero.Nat
import Mathlib.Data.List.Basic

/-!
# Base64

Encoding with the standard alphabet and padding, and decoding as
`binascii.a2b_base64` does outside its strict mode: characters that are not in
the alphabet are skipped, a padding that completes a group ends the input, and
an input that ends within a group is an error.
-/

namespace IsolatedEnv.Foundation

abbrev Byte := Fin 256

instance Byte.neZero : NeZero 256 := ⟨by decide⟩

namespace Base64

/-- The character of a six-bit digit. -/
def digitChar (n : Nat) : Char :=
  if n < 26 then Char.ofNat (65 + n)
  else if n < 52 then Char.ofNat (71 + n)
  else if n < 62 then Char.ofNat (n - 4)
  else if n = 62 then '+' else '/'

/-- The table of `binascii`: the six-bit digit of a character, if it has one. -/
def digitValue (c : Char) : Option Nat :=
  if 'A' ≤ c ∧ c ≤ 'Z' then some (c.toNat - 65)
  else if 'a' ≤ c ∧ c ≤ 'z' then some (c.toNat - 71)
  else if '0' ≤ c ∧ c ≤ '9' then some (c.toNat + 4)
  else if c = '+' then some 62
  else if c = '/' then some 63
  else none

def encode : List Byte → List Char
  | [] => []
  | [a] => [digitChar (a / 4), digitChar (a % 4 * 16), '=', '=']
  | [a, b] =>
      [digitChar (a / 4), digitChar (a % 4 * 16 + b / 16),
        digitChar (b % 16 * 4), '=']
  | a :: b :: c :: rest =>
      digitChar (a / 4) :: digitChar (a % 4 * 16 + b / 16) ::
        digitChar (b % 16 * 4 + c / 64) :: digitChar (c % 64) :: encode rest

/-- The position in the group of four, and the bits left over from before. -/
structure Quad where
  position : Nat
  left : Nat
  pads : Nat

/-- One more six-bit digit: the byte it completes, and the next position. -/
def Quad.push (q : Quad) (n : Nat) : Option Byte × Quad :=
  match q.position with
  | 0 => (none, ⟨1, n, 0⟩)
  | 1 => (some (Fin.ofNat 256 (q.left * 4 + n / 16)), ⟨2, n % 16, 0⟩)
  | 2 => (some (Fin.ofNat 256 (q.left * 16 + n / 4)), ⟨3, n % 4, 0⟩)
  | _ => (some (Fin.ofNat 256 (q.left * 64 + n)), ⟨0, 0, 0⟩)

/-- `none` is `binascii.Error`. -/
def decodeFrom : Quad → List Char → Option (List Byte)
  | q, [] => if q.position = 0 then some [] else none
  | q, c :: cs =>
      if c = '=' then
        if 2 ≤ q.position then
          if 4 ≤ q.position + (q.pads + 1) then some []
          else decodeFrom { q with pads := q.pads + 1 } cs
        else decodeFrom q cs
      else
        match digitValue c with
        | none => decodeFrom q cs
        | some n =>
            (decodeFrom (q.push n).2 cs).map ((q.push n).1.toList ++ ·)

def decode (cs : List Char) : Option (List Byte) :=
  decodeFrom ⟨0, 0, 0⟩ cs

/-- `base64.b64decode` of a text; other than ASCII is a `ValueError` as well. -/
def decodeText (cs : List Char) : Option (List Byte) :=
  if cs.all (fun c => c.toNat < 128) then decode cs else none

/-! ## What is encoded is decoded -/

theorem digitValue_digitChar {n : Nat} (hn : n < 64) :
    digitValue (digitChar n) = some n := by
  have hall : ∀ n < 64, digitValue (digitChar n) = some n := by decide +kernel
  exact hall n hn

theorem digitChar_ne_pad {n : Nat} (hn : n < 64) : digitChar n ≠ '=' := by
  have hall : ∀ n < 64, digitChar n ≠ '=' := by decide +kernel
  exact hall n hn

theorem decodeFrom_digitChar {n : Nat} (hn : n < 64) (q : Quad) (cs : List Char) :
    decodeFrom q (digitChar n :: cs) =
      (decodeFrom (q.push n).2 cs).map ((q.push n).1.toList ++ ·) := by
  rw [decodeFrom, if_neg (digitChar_ne_pad hn), digitValue_digitChar hn]

theorem ofNat_eq {a : Byte} {n : Nat} (h : n = a) : Fin.ofNat 256 n = a := by
  subst h
  exact Fin.ofNat_val_eq_self a

theorem decode_encode (bytes : List Byte) : decode (encode bytes) = some bytes := by
  unfold decode
  induction bytes using encode.induct with
  | case1 => rfl
  | case2 a =>
      have ha := a.isLt
      rw [encode, decodeFrom_digitChar (by omega), decodeFrom_digitChar (by omega)]
      simp only [Quad.push, decodeFrom]
      have hfirst : Fin.ofNat 256 (a / 4 * 4 + a % 4 * 16 / 16) = a :=
        ofNat_eq (by omega)
      rw [hfirst]
      rfl
  | case3 a b =>
      have ha := a.isLt
      have hb := b.isLt
      rw [encode, decodeFrom_digitChar (by omega), decodeFrom_digitChar (by omega),
        decodeFrom_digitChar (by omega)]
      simp only [Quad.push, decodeFrom]
      have hfirst : Fin.ofNat 256 (a / 4 * 4 + (a % 4 * 16 + b / 16) / 16) = a :=
        ofNat_eq (by omega)
      have hsecond : Fin.ofNat 256
          ((a % 4 * 16 + b / 16) % 16 * 16 + b % 16 * 4 / 4) = b :=
        ofNat_eq (by omega)
      rw [hfirst, hsecond]
      rfl
  | case4 a b c rest ih =>
      have ha := a.isLt
      have hb := b.isLt
      have hc := c.isLt
      rw [encode, decodeFrom_digitChar (by omega), decodeFrom_digitChar (by omega),
        decodeFrom_digitChar (by omega), decodeFrom_digitChar (by omega)]
      simp only [Quad.push]
      have hfirst : Fin.ofNat 256 (a / 4 * 4 + (a % 4 * 16 + b / 16) / 16) = a :=
        ofNat_eq (by omega)
      have hsecond : Fin.ofNat 256
          ((a % 4 * 16 + b / 16) % 16 * 16 + (b % 16 * 4 + c / 64) / 4) = b :=
        ofNat_eq (by omega)
      have hthird : Fin.ofNat 256 ((b % 16 * 4 + c / 64) % 4 * 64 + c % 64) = c :=
        ofNat_eq (by omega)
      rw [hfirst, hsecond, hthird, ih]
      rfl

theorem digitChar_ascii {n : Nat} (hn : n < 64) : (digitChar n).toNat < 128 := by
  have hall : ∀ n < 64, (digitChar n).toNat < 128 := by decide +kernel
  exact hall n hn

theorem encode_ascii (bytes : List Byte) : ∀ c ∈ encode bytes, c.toNat < 128 := by
  induction bytes using encode.induct with
  | case1 => simp [encode]
  | case2 a =>
      have ha := a.isLt
      have hfirst := digitChar_ascii (n := a / 4) (by omega)
      have hsecond := digitChar_ascii (n := a % 4 * 16) (by omega)
      simp [encode, hfirst, hsecond]
  | case3 a b =>
      have ha := a.isLt
      have hb := b.isLt
      have hfirst := digitChar_ascii (n := a / 4) (by omega)
      have hsecond := digitChar_ascii (n := a % 4 * 16 + b / 16) (by omega)
      have hthird := digitChar_ascii (n := b % 16 * 4) (by omega)
      simp [encode, hfirst, hsecond, hthird]
  | case4 a b c rest ih =>
      have ha := a.isLt
      have hb := b.isLt
      have hc := c.isLt
      have hfirst := digitChar_ascii (n := a / 4) (by omega)
      have hsecond := digitChar_ascii (n := a % 4 * 16 + b / 16) (by omega)
      have hthird := digitChar_ascii (n := b % 16 * 4 + c / 64) (by omega)
      have hfourth := digitChar_ascii (n := c % 64) (by omega)
      simpa [encode, hfirst, hsecond, hthird, hfourth] using ih

theorem decodeText_encode (bytes : List Byte) :
    decodeText (encode bytes) = some bytes := by
  rw [decodeText, if_pos, decode_encode]
  rw [List.all_eq_true]
  exact fun c hc => decide_eq_true (encode_ascii bytes c hc)

/-! ## Which characters occur -/

theorem encode_length (bytes : List Byte) :
    (encode bytes).length = 4 * ((bytes.length + 2) / 3) := by
  induction bytes using encode.induct with
  | case1 => rfl
  | case2 a => simp [encode]
  | case3 a b => simp [encode]
  | case4 a b c rest ih =>
      simp only [encode, List.length_cons, ih]
      omega

theorem digitChar_alphanum {n : Nat} (hn : n < 62) : (digitChar n).isAlphanum = true := by
  have hall : ∀ n < 62, (digitChar n).isAlphanum = true := by decide +kernel
  exact hall n hn

/--
Bytes below 128 leave the digits 62 and 63 to the last six bits of a group, where only
`>`, `?`, `~` and DEL would give them.
-/
theorem encode_alphanum {bytes : List Byte} (h : ∀ b ∈ bytes, b.val < 128 ∧ b.val % 64 < 62) :
    ∃ body pads, encode bytes = body ++ List.replicate pads '=' ∧
      ∀ c ∈ body, c.isAlphanum = true := by
  induction bytes using encode.induct with
  | case1 => exact ⟨[], 0, rfl, by simp⟩
  | case2 a =>
      have ha := (h a (by simp)).1
      refine ⟨[digitChar (a / 4), digitChar (a % 4 * 16)], 2, rfl, ?_⟩
      simp only [List.forall_mem_cons, List.not_mem_nil, false_imp_iff, implies_true, and_true]
      exact ⟨digitChar_alphanum (by omega), digitChar_alphanum (by omega)⟩
  | case3 a b =>
      have ha := (h a (by simp)).1
      have hb := (h b (by simp)).1
      refine ⟨[digitChar (a / 4), digitChar (a % 4 * 16 + b / 16), digitChar (b % 16 * 4)], 1,
        rfl, ?_⟩
      simp only [List.forall_mem_cons, List.not_mem_nil, false_imp_iff, implies_true, and_true]
      exact ⟨digitChar_alphanum (by omega), digitChar_alphanum (by omega),
        digitChar_alphanum (by omega)⟩
  | case4 a b c rest ih =>
      have ha := (h a (by simp)).1
      have hb := (h b (by simp)).1
      have hc := h c (by simp)
      obtain ⟨body, pads, heq, hbody⟩ := ih fun d hd => h d (by simp [hd])
      refine ⟨digitChar (a / 4) :: digitChar (a % 4 * 16 + b / 16) ::
        digitChar (b % 16 * 4 + c / 64) :: digitChar (c % 64) :: body, pads, ?_, ?_⟩
      · rw [encode, heq]
        rfl
      · simp only [List.forall_mem_cons]
        exact ⟨digitChar_alphanum (by omega), digitChar_alphanum (by omega),
          digitChar_alphanum (by omega), digitChar_alphanum hc.2, hbody⟩

end Base64

end IsolatedEnv.Foundation
