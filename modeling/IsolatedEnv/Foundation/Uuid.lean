import IsolatedEnv.Foundation.Digits

/-!
# UUIDs and their texts

`Uuid.text` is the canonical hyphenated form.  `Uuid.parse` follows the
constructor of Python's `uuid.UUID`, which drops `urn:` and `uuid:`, outer
braces and all hyphens, wants 32 characters and hands them to `int(hex, 16)`;
that function in turn accepts surrounding white space, a sign, a `0x` prefix,
single underscores between digits and the decimal digits of every script.
-/

namespace IsolatedEnv.Foundation

abbrev Uuid := Fin (2 ^ 128)

instance Uuid.neZero : NeZero (2 ^ 128) := ⟨by decide⟩

instance Uuid.lawfulBEq : LawfulBEq Uuid := inferInstance

/-- Remove the occurrences of a text, from left to right. -/
def removeText (text : List Char) : Nat → List Char → List Char
  | _, [] => []
  | skip + 1, _ :: cs => removeText text skip cs
  | 0, c :: cs =>
      if text.isPrefixOf (c :: cs) then removeText text (text.length - 1) cs
      else c :: removeText text 0 cs

def stripChars (p : Char → Bool) (cs : List Char) : List Char :=
  ((cs.dropWhile p).reverse.dropWhile p).reverse

/-- `str.isspace` on the characters below 256. -/
def isSpace (c : Char) : Bool :=
  c = ' ' || (9 ≤ c.toNat && c.toNat ≤ 13) || (28 ≤ c.toNat && c.toNat ≤ 31) ||
    c.toNat = 133 || c.toNat = 160

/-- The white space `int` strips. -/
def isIntSpace (c : Char) : Bool :=
  c = ' ' || (9 ≤ c.toNat && c.toNat ≤ 13) ||
    (0x2000 ≤ c.toNat && c.toNat ≤ 0x200a) ||
    c.toNat ∈ [0x85, 0xa0, 0x1680, 0x2028, 0x2029, 0x202f, 0x205f, 0x3000]

/-- The decimal digit zero of every script, in Unicode 15. -/
def decimalZeros : List Nat :=
  [0x30, 0x660, 0x6f0, 0x7c0, 0x966, 0x9e6, 0xa66, 0xae6, 0xb66, 0xbe6, 0xc66,
    0xce6, 0xd66, 0xde6, 0xe50, 0xed0, 0xf20, 0x1040, 0x1090, 0x17e0, 0x1810, 0x1946,
    0x19d0, 0x1a80, 0x1a90, 0x1b50, 0x1bb0, 0x1c40, 0x1c50, 0xa620, 0xa8d0, 0xa900,
    0xa9d0, 0xa9f0, 0xaa50, 0xabf0, 0xff10, 0x104a0, 0x10d30, 0x11066, 0x110f0,
    0x11136, 0x111d0, 0x112f0, 0x11450, 0x114d0, 0x11650, 0x116c0, 0x11730, 0x118e0,
    0x11950, 0x11c50, 0x11d50, 0x11da0, 0x11f50, 0x16a60, 0x16ac0, 0x16b50, 0x1d7ce,
    0x1d7d8, 0x1d7e2, 0x1d7ec, 0x1d7f6, 0x1e140, 0x1e2f0, 0x1e4f0, 0x1e950, 0x1fbf0]

/-- `int` takes a decimal digit of any script for the ASCII one. -/
def asciiDecimal (c : Char) : Char :=
  match decimalZeros.find? fun n => n ≤ c.toNat && c.toNat < n + 10 with
  | some n => Char.ofNat (48 + (c.toNat - n))
  | none => c

def readUnderscored (base : Nat) : Nat → List Char → Option Nat
  | value, [] => some value
  | value, '_' :: c :: cs =>
      (readDigit base c).bind fun d =>
        readUnderscored base (value * base + d) cs
  | value, c :: cs =>
      (readDigit base c).bind fun d =>
        readUnderscored base (value * base + d) cs

def dropHexPrefix : List Char → List Char
  | '0' :: 'x' :: '_' :: cs | '0' :: 'X' :: '_' :: cs => cs
  | '0' :: 'x' :: cs | '0' :: 'X' :: cs => cs
  | cs => cs

def dropPlus : List Char → List Char
  | '+' :: cs => cs
  | cs => cs

/-- `int(cs, 16)` on texts without a minus sign. -/
def readHexInt (cs : List Char) : Option Nat :=
  match dropHexPrefix (dropPlus (stripChars isIntSpace (cs.map asciiDecimal))) with
  | [] => none
  | c :: cs => (readDigit 16 c).bind fun d => readUnderscored 16 d cs

namespace Uuid

def hex (u : Uuid) : List Char := padDigits 16 32 u

def text (u : Uuid) : List Char :=
  let h := u.hex
  h.take 8 ++ '-' :: ((h.drop 8).take 4 ++ '-' :: ((h.drop 12).take 4 ++
    '-' :: ((h.drop 16).take 4 ++ '-' :: h.drop 20)))

def str (u : Uuid) : String := String.ofList u.text

/-- `uuid.UUID(cs)`; `none` when it raises `ValueError`. -/
def parse (cs : List Char) : Option Uuid :=
  let cs := removeText "uuid:".toList 0 (removeText "urn:".toList 0 cs)
  let cs := (stripChars (fun c => c = '{' || c = '}') cs).filter (· ≠ '-')
  if cs.length = 32 then
    (readHexInt cs).bind fun n =>
      if h : n < 2 ^ 128 then some ⟨n, h⟩ else none
  else none

/-! ## The canonical text is read back -/

theorem hex_length (u : Uuid) : u.hex.length = 32 := by simp [hex]

theorem mem_hex {u : Uuid} {c : Char} (h : c ∈ u.hex) :
    ∃ d, d < 16 ∧ c = d.digitChar :=
  mem_padDigits (by decide) h

theorem text_length (u : Uuid) : u.text.length = 36 := by
  simp [text, hex_length]

theorem mem_text {u : Uuid} {c : Char} (h : c ∈ u.text) :
    c = '-' ∨ ∃ d, d < 16 ∧ c = d.digitChar := by
  simp only [text, List.mem_append, List.mem_cons] at h
  rcases h with h | rfl | h | rfl | h | rfl | h | rfl | h
  · exact .inr (mem_hex (List.mem_of_mem_take h))
  · exact .inl rfl
  · exact .inr (mem_hex (List.mem_of_mem_drop (List.mem_of_mem_take h)))
  · exact .inl rfl
  · exact .inr (mem_hex (List.mem_of_mem_drop (List.mem_of_mem_take h)))
  · exact .inl rfl
  · exact .inr (mem_hex (List.mem_of_mem_drop (List.mem_of_mem_take h)))
  · exact .inl rfl
  · exact .inr (mem_hex (List.mem_of_mem_drop h))

theorem not_mem_text {c : Char} (hminus : c ≠ '-')
    (hdigit : ∀ d < 16, c ≠ d.digitChar) (u : Uuid) : c ∉ u.text := by
  intro h
  rcases mem_text h with h | ⟨d, hd, h⟩
  · exact hminus h
  · exact hdigit d hd h

end Uuid

theorem removeText_eq_self {p : Char} {text cs : List Char} (h : p ∉ cs) :
    removeText (p :: text) 0 cs = cs := by
  induction cs with
  | nil => rfl
  | cons c cs ih =>
      have hne : p ≠ c := fun heq => h (heq ▸ List.mem_cons_self)
      rw [removeText, ih fun hmem => h (List.mem_cons_of_mem c hmem)]
      simp [List.isPrefixOf, hne]

theorem dropWhile_eq_self {p : Char → Bool} {cs : List Char}
    (h : ∀ c ∈ cs, p c = false) : cs.dropWhile p = cs := by
  cases cs with
  | nil => rfl
  | cons c cs => simp [h c List.mem_cons_self]

theorem stripChars_eq_self {p : Char → Bool} {cs : List Char}
    (h : ∀ c ∈ cs, p c = false) : stripChars p cs = cs := by
  unfold stripChars
  rw [dropWhile_eq_self h, dropWhile_eq_self fun c hc =>
    h c (List.mem_reverse.mp hc), List.reverse_reverse]

theorem readUnderscored_eq {base : Nat} {value : Nat} {cs : List Char}
    (h : '_' ∉ cs) :
    readUnderscored base value cs = readDigitsFrom base value cs := by
  induction cs generalizing value with
  | nil => rfl
  | cons c cs ih =>
      have hc : c ≠ '_' := fun heq => h (heq ▸ List.mem_cons_self)
      have htail : '_' ∉ cs := fun hmem => h (List.mem_cons_of_mem c hmem)
      rw [readUnderscored, readDigitsFrom]
      · exact congrArg _ (funext fun d => ih htail)
      · rintro _ _ rfl rfl
        exact hc rfl

theorem readHexInt_digits {c : Char} {cs : List Char}
    (h : ∀ x ∈ c :: cs, ∃ d, d < 16 ∧ x = d.digitChar) :
    readHexInt (c :: cs) = readDigits 16 (c :: cs) := by
  have hnot : ∀ x : Char, (∀ d < 16, x ≠ d.digitChar) → x ∉ c :: cs := by
    intro x hx hmem
    obtain ⟨d, hd, heq⟩ := h x hmem
    exact hx d hd heq
  have hspace : ∀ x ∈ c :: cs, isIntSpace x = false := by
    intro x hx
    obtain ⟨d, hd, rfl⟩ := h x hx
    interval_cases d <;> decide
  have hdecimal : (c :: cs).map asciiDecimal = c :: cs := by
    have hdigit : ∀ d < 16, asciiDecimal d.digitChar = d.digitChar := by
      decide +kernel
    calc (c :: cs).map asciiDecimal = (c :: cs).map id := by
          apply List.map_congr_left
          intro x hx
          obtain ⟨d, hd, rfl⟩ := h x hx
          exact hdigit d hd
      _ = c :: cs := List.map_id _
  have hplus : dropPlus (c :: cs) = c :: cs := by
    unfold dropPlus
    split
    · rename_i heq
      exact absurd (by rw [heq]; exact List.mem_cons_self)
        (hnot '+' (by decide))
    · rfl
  have hx : 'x' ∉ c :: cs := hnot 'x' (by decide)
  have hX : 'X' ∉ c :: cs := hnot 'X' (by decide)
  have hprefix : dropHexPrefix (c :: cs) = c :: cs := by
    unfold dropHexPrefix
    split
    · rename_i heq; exact absurd (by rw [heq]; simp) hx
    · rename_i heq; exact absurd (by rw [heq]; simp) hX
    · rename_i heq; exact absurd (by rw [heq]; simp) hx
    · rename_i heq; exact absurd (by rw [heq]; simp) hX
    · rfl
  have hunder : '_' ∉ cs := fun hmem =>
    hnot '_' (by decide) (List.mem_cons_of_mem c hmem)
  rw [readHexInt, hdecimal, stripChars_eq_self hspace, hplus, hprefix]
  simp only [readUnderscored_eq hunder]
  simp [readDigits, readDigitsFrom]

namespace Uuid

theorem filter_hyphen_digits {cs : List Char}
    (h : ∀ c ∈ cs, ∃ d, d < 16 ∧ c = d.digitChar) :
    cs.filter (· ≠ '-') = cs := by
  rw [List.filter_eq_self]
  intro c hc
  obtain ⟨d, hd, rfl⟩ := h c hc
  interval_cases d <;> decide

theorem text_filter (u : Uuid) : u.text.filter (· ≠ '-') = u.hex := by
  have hsub : ∀ {cs : List Char}, cs ⊆ u.hex → cs.filter (· ≠ '-') = cs :=
    fun hcs => filter_hyphen_digits fun c hc => mem_hex (hcs hc)
  have htake : ∀ i j, ((u.hex.drop i).take j).filter (· ≠ '-') =
      (u.hex.drop i).take j := fun i j =>
    hsub fun _ hc => List.mem_of_mem_drop (List.mem_of_mem_take hc)
  have hfirst := htake 0 8
  rw [List.drop_zero] at hfirst
  have hlast : (u.hex.drop 20).filter (· ≠ '-') = u.hex.drop 20 :=
    hsub (List.drop_subset _ _)
  simp only [text, List.filter_append, List.filter_cons, hfirst, htake, hlast,
    ne_eq, not_true_eq_false, decide_false, Bool.false_eq_true, if_false]
  have hjoin : ∀ i j, (u.hex.drop i).take j ++ u.hex.drop (i + j) =
      u.hex.drop i := by
    intro i j
    rw [← List.drop_drop]
    exact List.take_append_drop j (u.hex.drop i)
  rw [hjoin 16 4, hjoin 12 4, hjoin 8 4, List.take_append_drop]

@[simp] theorem parse_text (u : Uuid) : parse u.text = some u := by
  have hurn : removeText "urn:".toList 0 u.text = u.text :=
    removeText_eq_self (not_mem_text (by decide) (by decide) u)
  have huuid : removeText "uuid:".toList 0 u.text = u.text :=
    removeText_eq_self (not_mem_text (by decide) (by decide) u)
  have hbraces : stripChars (fun c => c = '{' || c = '}') u.text = u.text := by
    refine stripChars_eq_self fun c hc => ?_
    rcases mem_text hc with rfl | ⟨d, hd, rfl⟩
    · decide
    · interval_cases d <;> decide
  have hread : readHexInt u.hex = some u.val := by
    have hlength := hex_length u
    cases hhex : u.hex with
    | nil => simp [hhex] at hlength
    | cons c cs =>
        rw [readHexInt_digits (fun x hx => mem_hex (by rw [hhex]; exact hx)),
          ← hhex]
        exact readDigits_padDigits (by decide) (by decide)
          (Nat.lt_of_lt_of_eq u.isLt (by decide))
  unfold parse
  simp only [hurn, huuid, hbraces, text_filter, hex_length, if_true, hread,
    Option.bind_some]
  rw [dif_pos u.isLt]

theorem text_injective : Function.Injective text := by
  intro u v h
  exact Option.some.inj (by rw [← parse_text u, h, parse_text])

end Uuid

end IsolatedEnv.Foundation
