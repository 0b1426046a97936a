import IsolatedEnv.Foundation.Base64
import IsolatedEnv.Foundation.Digits
import IsolatedEnv.Foundation.Json
import Mathlib.Algebra.Order.Ring.Rat

/-!
# JSON texts

`loads` follows `json.loads` on bytes: the encoding is guessed from the first
bytes, lone surrogates pass, and the text must be one value.  A Lean character
cannot be a surrogate, so a reader makes texts of code points itself.  The numbers
`NaN` and `Infinity` read as zero, which is not looked at anywhere.  `none` is a
`ValueError`.
-/

namespace IsolatedEnv.Foundation

/-! ## From bytes to characters -/

def isHighSurrogate (n : Nat) : Bool := 0xD800 ≤ n && n < 0xDC00

def isLowSurrogate (n : Nat) : Bool := 0xDC00 ≤ n && n < 0xE000

def joinPair (high low : Nat) : Nat :=
  0x10000 + (high - 0xD800) * 0x400 + (low - 0xDC00)

def pointChar (n : Nat) : Char :=
  if isHighSurrogate n || isLowSurrogate n then Char.ofNat 0xFFFD
  else Char.ofNat n

/-- Read one code point after another until the bytes are used up. -/
def readPoints (readPoint : List Byte → Option (Nat × List Byte)) :
    Nat → List Byte → Option (List Nat)
  | _, [] => some []
  | 0, _ :: _ => none
  | fuel + 1, bytes =>
      (readPoint bytes).bind fun p =>
        (readPoints readPoint fuel p.2).map (p.1 :: ·)

def isTail (b : Byte) : Bool := 0x80 ≤ b.val && b.val < 0xC0

def utf8Point : List Byte → Option (Nat × List Byte)
  | [] => none
  | a :: rest =>
      if a.val < 0x80 then some (a, rest)
      else match rest with
        | b :: rest =>
            if 0xC2 ≤ a.val ∧ a.val < 0xE0 ∧ isTail b then
              some ((a.val - 0xC0) * 64 + (b.val - 0x80), rest)
            else match rest with
              | c :: rest =>
                  if 0xE0 ≤ a.val ∧ a.val < 0xF0 ∧ isTail b ∧ isTail c ∧
                      (a.val = 0xE0 → 0xA0 ≤ b.val) then
                    some ((a.val - 0xE0) * 4096 + (b.val - 0x80) * 64 +
                      (c.val - 0x80), rest)
                  else match rest with
                    | d :: rest =>
                        if 0xF0 ≤ a.val ∧ a.val < 0xF5 ∧ isTail b ∧ isTail c ∧
                            isTail d ∧ (a.val = 0xF0 → 0x90 ≤ b.val) ∧
                            (a.val = 0xF4 → b.val < 0x90) then
                          some ((a.val - 0xF0) * 262144 + (b.val - 0x80) * 4096 +
                            (c.val - 0x80) * 64 + (d.val - 0x80), rest)
                        else none
                    | [] => none
              | [] => none
        | [] => none

def unit16 (bigEndian : Bool) (a b : Byte) : Nat :=
  if bigEndian then a.val * 256 + b.val else b.val * 256 + a.val

def utf16Point (bigEndian : Bool) : List Byte → Option (Nat × List Byte)
  | a :: b :: c :: d :: rest =>
      let high := unit16 bigEndian a b
      let low := unit16 bigEndian c d
      if isHighSurrogate high && isLowSurrogate low then
        some (joinPair high low, rest)
      else some (high, c :: d :: rest)
  | a :: b :: rest => some (unit16 bigEndian a b, rest)
  | _ => none

def utf32Point (bigEndian : Bool) : List Byte → Option (Nat × List Byte)
  | a :: b :: c :: d :: rest =>
      let n := if bigEndian then unit16 true a b * 65536 + unit16 true c d
        else unit16 false c d * 65536 + unit16 false a b
      if n < 0x110000 then some (n, rest) else none
  | _ => none

/-- `json.detect_encoding`, with the byte order mark taken off. -/
def detectEncoding (bytes : List Byte) :
    (List Byte → Option (Nat × List Byte)) × List Byte :=
  if [0, 0, 0xFE, 0xFF].isPrefixOf bytes then (utf32Point true, bytes.drop 4)
  else if [0xFF, 0xFE, 0, 0].isPrefixOf bytes then (utf32Point false, bytes.drop 4)
  else if [0xFE, 0xFF].isPrefixOf bytes then (utf16Point true, bytes.drop 2)
  else if [0xFF, 0xFE].isPrefixOf bytes then (utf16Point false, bytes.drop 2)
  else if [0xEF, 0xBB, 0xBF].isPrefixOf bytes then (utf8Point, bytes.drop 3)
  else match bytes with
    | a :: b :: c :: d :: _ =>
        if a = 0 then (if b = 0 then utf32Point true else utf16Point true, bytes)
        else if b = 0 then
          (if c = 0 ∧ d = 0 then utf32Point false else utf16Point false, bytes)
        else (utf8Point, bytes)
    | [a, b] =>
        (if a = 0 then utf16Point true else if b = 0 then utf16Point false
          else utf8Point, bytes)
    | _ => (utf8Point, bytes)

/-- No JSON text has this character as such, so it can stand for a lone surrogate. -/
def standIn : Char := '\x1a'

def decodedChar (n : Nat) : Char := if n.isValidChar then Char.ofNat n else standIn

def decodeBytes (bytes : List Byte) : Option (List Char) :=
  let (readPoint, rest) := detectEncoding bytes
  (readPoints readPoint rest.length rest).bind fun points =>
    if standIn.toNat ∈ points then none else some (points.map decodedChar)

/-- `text.encode()` on a text of ASCII characters. -/
def asciiBytes (cs : List Char) : List Byte :=
  cs.map fun c => Fin.ofNat 256 c.toNat

/-! ## From characters to a value -/

namespace JsonText

def isSpace (c : Char) : Bool :=
  c = ' ' || c = '\t' || c = '\n' || c = '\r'

def skipSpaces (cs : List Char) : List Char := cs.dropWhile isSpace

def escapedPoint : Char → Option Nat
  | '"' => some 34
  | '\\' => some 92
  | '/' => some 47
  | 'b' => some 8
  | 'f' => some 12
  | 'n' => some 10
  | 'r' => some 13
  | 't' => some 9
  | _ => none

/-- What a character of a literal stands for, and the text of a literal's code points. -/
structure TextReader where
  raw : Char → Option Nat
  text : List Nat → String

/-- The code points up to the closing quotation mark. -/
def readString (raw : Char → Option Nat) : List Char → Option (List Nat × List Char)
  | [] => none
  | '"' :: cs => some ([], cs)
  | '\\' :: 'u' :: a :: b :: c :: d :: cs =>
      (readDigits 16 [a, b, c, d]).bind fun n =>
        (readString raw cs).map fun p => (n :: p.1, p.2)
  | '\\' :: c :: cs =>
      (escapedPoint c).bind fun n =>
        (readString raw cs).map fun p => (n :: p.1, p.2)
  | c :: cs =>
      (raw c).bind fun n => (readString raw cs).map fun p => (n :: p.1, p.2)

/-- The pairs of surrogates in escapes are one code point each. -/
def joinSurrogates : List Nat → List Nat
  | high :: low :: rest =>
      if isHighSurrogate high && isLowSurrogate low then
        joinPair high low :: joinSurrogates rest
      else high :: joinSurrogates (low :: rest)
  | points => points

namespace TextReader

def rawPoint (c : Char) : Option Nat := if c.toNat < 32 then none else some c.toNat

/-- A lone surrogate reads as the replacement character. -/
def plain : TextReader where
  raw := rawPoint
  text points := String.ofList ((joinSurrogates points).map pointChar)

/-- Of bytes: what stood for a lone surrogate is no code point and joins no other. -/
def decoded (text : List Nat → String) : TextReader where
  raw c := if c = standIn then some 0x110000 else rawPoint c
  text points := text (joinSurrogates points)

end TextReader

def isDigit (c : Char) : Bool := '0' ≤ c && c ≤ '9'

/-- The integer part, without superfluous zeros. -/
def readInteger : List Char → Option (List Char × List Char)
  | '0' :: cs => some (['0'], cs)
  | c :: cs =>
      if isDigit c then some (c :: cs.takeWhile isDigit, cs.dropWhile isDigit)
      else none
  | [] => none

def readFraction : List Char → Option (List Char) × List Char
  | '.' :: cs =>
      if (cs.takeWhile isDigit).isEmpty then (none, '.' :: cs)
      else (some (cs.takeWhile isDigit), cs.dropWhile isDigit)
  | cs => (none, cs)

def readSigned : List Char → Bool × List Char
  | '-' :: cs => (true, cs)
  | '+' :: cs => (false, cs)
  | cs => (false, cs)

def readExponent : List Char → Option Int × List Char
  | c :: cs =>
      let (negative, digits) := readSigned cs
      if (c = 'e' ∨ c = 'E') ∧ (digits.takeWhile isDigit).isEmpty = false then
        let n : Nat := (readDigits 10 (digits.takeWhile isDigit)).getD 0
        (some (if negative then -n else n), digits.dropWhile isDigit)
      else (none, c :: cs)
  | [] => (none, [])

def readNumber (cs : List Char) : Option (Json × List Char) :=
  let negative := cs.head? = some '-'
  (readInteger (if negative then cs.tail else cs)).map fun p =>
    let sign : Int := if negative then -1 else 1
    let (fraction, rest) := readFraction p.2
    let (exponent, rest) := readExponent rest
    let digits := p.1 ++ fraction.getD []
    let mantissa : Int := sign * ((readDigits 10 digits).getD 0 : Nat)
    if fraction.isNone && exponent.isNone then (.int mantissa, rest)
    else (.float (mantissa * 10 ^ (exponent.getD 0 - (fraction.getD []).length)), rest)

/-- `text` off the front. -/
def dropLiteral (text : List Char) (value : Json) (cs : List Char) :
    Option (Json × List Char) :=
  if text.isPrefixOf cs then some (value, cs.drop text.length) else none

/-- The constants, `NaN` and the infinities, and numbers. -/
def readScalar (cs : List Char) : Option (Json × List Char) :=
  (dropLiteral "null".toList .null cs).orElse fun _ =>
    (dropLiteral "true".toList (.bool true) cs).orElse fun _ =>
    (dropLiteral "false".toList (.bool false) cs).orElse fun _ =>
    (dropLiteral "NaN".toList (.float 0) cs).orElse fun _ =>
    (dropLiteral "Infinity".toList (.float 0) cs).orElse fun _ =>
    (dropLiteral "-Infinity".toList (.float 0) cs).orElse fun _ =>
      readNumber cs

section Reader

variable (r : TextReader)

def readText (cs : List Char) : Option (String × List Char) :=
  (readString r.raw cs).map fun p => (r.text p.1, p.2)

mutual

/-- A value; every call reads a character before the next one. -/
def readValue : Nat → List Char → Option (Json × List Char)
  | 0, _ => none
  | fuel + 1, cs =>
      match cs with
      | '"' :: cs => (readText r cs).map fun p => (.str p.1, p.2)
      | '[' :: cs =>
          match skipSpaces cs with
          | ']' :: cs => some (.arr [], cs)
          | cs => (readElements fuel cs).map fun p => (.arr p.1, p.2)
      | '\x7b' :: cs =>
          match skipSpaces cs with
          | '\x7d' :: cs => some (.obj [], cs)
          | cs => (readMembers fuel cs).map fun p => (.obj p.1, p.2)
      | cs => readScalar cs

def readElements : Nat → List Char → Option (List Json × List Char)
  | 0, _ => none
  | fuel + 1, cs =>
      (readValue fuel cs).bind fun p =>
        match skipSpaces p.2 with
        | ']' :: rest => some ([p.1], rest)
        | ',' :: rest =>
            (readElements fuel (skipSpaces rest)).map fun q => (p.1 :: q.1, q.2)
        | _ => none

def readMembers : Nat → List Char → Option (JsonObject × List Char)
  | 0, _ => none
  | fuel + 1, cs =>
      match cs with
      | '"' :: cs =>
          (readText r cs).bind fun name =>
            match skipSpaces name.2 with
            | ':' :: rest =>
                (readValue fuel (skipSpaces rest)).bind fun p =>
                  match skipSpaces p.2 with
                  | '\x7d' :: rest => some ([(name.1, p.1)], rest)
                  | ',' :: rest =>
                      (readMembers fuel (skipSpaces rest)).map fun q =>
                        ((name.1, p.1) :: q.1, q.2)
                  | _ => none
            | _ => none
      | _ => none

end

def parseWith (cs : List Char) : Option Json :=
  (readValue r (2 * cs.length + 1) (skipSpaces cs)).bind fun p =>
    if (skipSpaces p.2).isEmpty then some p.1 else none

end Reader

def parse (cs : List Char) : Option Json := parseWith .plain cs

/-- `json.loads` on bytes, with texts for the code points of the literals. -/
def loads (text : List Nat → String) (bytes : List Byte) : Option Json :=
  (decodeBytes bytes).bind (parseWith (.decoded text))

/-! ## From text members to JSON text, as `json.dumps` writes them -/

def escapeUnit (n : Nat) : List Char := '\\' :: 'u' :: padDigits 16 4 n

def escapeChar (c : Char) : List Char :=
  match c with
  | '"' => ['\\', '"']
  | '\\' => ['\\', '\\']
  | '\n' => ['\\', 'n']
  | '\r' => ['\\', 'r']
  | '\t' => ['\\', 't']
  | '\x0c' => ['\\', 'f']
  | '\x08' => ['\\', 'b']
  | c =>
      if 32 ≤ c.toNat ∧ c.toNat < 127 then [c]
      else if c.toNat < 0x10000 then escapeUnit c.toNat
      else escapeUnit (0xD800 + (c.toNat - 0x10000) / 0x400) ++
        escapeUnit (0xDC00 + (c.toNat - 0x10000) % 0x400)

def dumpsText (s : String) : List Char :=
  '"' :: (s.toList.flatMap escapeChar ++ ['"'])

def dumpsMember (m : String × String) : List Char :=
  dumpsText m.1 ++ ':' :: ' ' :: dumpsText m.2

def dumpsMembers : List (String × String) → List Char
  | [] => []
  | [m] => dumpsMember m
  | m :: ms => dumpsMember m ++ ',' :: ' ' :: dumpsMembers ms

/-- `json.dumps` of a dict of texts. -/
def dumps (members : List (String × String)) : List Char :=
  '\x7b' :: (dumpsMembers members ++ ['\x7d'])

/-! ## Plain texts -/

/-- Printable ASCII that needs no escape. -/
def isPlain (c : Char) : Bool :=
  32 ≤ c.toNat && c.toNat < 127 && c ≠ '"' && c ≠ '\\'

def Plain (s : String) : Prop := ∀ c ∈ s.toList, isPlain c = true

theorem isPlain_iff {c : Char} :
    isPlain c = true ↔ 32 ≤ c.toNat ∧ c.toNat < 127 ∧ c ≠ '"' ∧ c ≠ '\\' := by
  simp [isPlain, and_assoc]

theorem escapeChar_plain {c : Char} (h : isPlain c = true) : escapeChar c = [c] := by
  obtain ⟨hlow, hhigh, hquote, hbackslash⟩ := isPlain_iff.mp h
  unfold escapeChar
  split
  · exact absurd rfl hquote
  · exact absurd rfl hbackslash
  · exact absurd hlow (by decide)
  · exact absurd hlow (by decide)
  · exact absurd hlow (by decide)
  · exact absurd hlow (by decide)
  · exact absurd hlow (by decide)
  · rw [if_pos ⟨hlow, hhigh⟩]

theorem escape_plain {cs : List Char} (h : ∀ c ∈ cs, isPlain c = true) :
    cs.flatMap escapeChar = cs := by
  induction cs with
  | nil => rfl
  | cons c cs ih =>
      rw [List.flatMap_cons, escapeChar_plain (h c List.mem_cons_self),
        ih fun d hd => h d (List.mem_cons_of_mem c hd)]
      rfl

theorem not_surrogate (c : Char) :
    isHighSurrogate c.toNat = false ∧ isLowSurrogate c.toNat = false := by
  have hvalid : c.toNat < 0xD800 ∨ 0xDFFF < c.toNat ∧ c.toNat < 0x110000 := c.valid
  simp only [isHighSurrogate, isLowSurrogate, Bool.and_eq_false_iff,
    decide_eq_false_iff_not]
  omega

theorem pointChar_toNat (c : Char) : pointChar c.toNat = c := by
  simp [pointChar, not_surrogate c]

theorem dumpsText_plain {s : String} (h : Plain s) :
    dumpsText s = '"' :: (s.toList ++ ['"']) := by
  rw [dumpsText, escape_plain h]

theorem skipSpaces_cons {c : Char} (hc : isSpace c = false) (cs : List Char) :
    skipSpaces (c :: cs) = c :: cs := by
  simp [skipSpaces, hc]

/-! ## ASCII bytes are decoded to their characters -/

theorem isPrefixOf_eq_false {b : Byte} {mark bytes : List Byte}
    (h : ∀ x ∈ bytes, x ≠ b) : (b :: mark).isPrefixOf bytes = false := by
  cases bytes with
  | nil => rfl
  | cons x bytes =>
      have hne : b ≠ x := (h x List.mem_cons_self).symm
      simp [List.isPrefixOf, hne]

theorem detectEncoding_ascii {bytes : List Byte}
    (h : ∀ b ∈ bytes, 0 < b.val ∧ b.val < 0x80) :
    detectEncoding bytes = (utf8Point, bytes) := by
  have hmark {b : Byte} (hb : b.val = 0 ∨ 0x80 ≤ b.val) (mark : List Byte) :
      (b :: mark).isPrefixOf bytes = false := by
    apply isPrefixOf_eq_false
    rintro x hx rfl
    have hrange := h x hx
    omega
  have hzero {b : Byte} (hb : b ∈ bytes) : b ≠ 0 := by
    rintro rfl
    exact absurd (h 0 hb).1 (by decide)
  unfold detectEncoding
  rw [hmark (by decide), hmark (by decide), hmark (by decide), hmark (by decide),
    hmark (by decide)]
  simp only [Bool.false_eq_true, if_false]
  split
  · rw [if_neg (hzero (by simp)), if_neg (hzero (by simp))]
  · rw [if_neg (hzero (by simp)), if_neg (hzero (by simp))]
  · rfl

theorem readPoints_ascii {bytes : List Byte} (h : ∀ b ∈ bytes, b.val < 0x80)
    {fuel : Nat} (hfuel : bytes.length ≤ fuel) :
    readPoints utf8Point fuel bytes = some (bytes.map Fin.val) := by
  induction bytes generalizing fuel with
  | nil => cases fuel <;> rfl
  | cons b bytes ih =>
      obtain ⟨fuel, rfl⟩ : ∃ f, fuel = f + 1 := ⟨fuel - 1, by
        rw [List.length_cons] at hfuel
        omega⟩
      have hrest := ih (fun x hx => h x (List.mem_cons_of_mem b hx))
        (Nat.le_of_succ_le_succ hfuel)
      have hb := h b List.mem_cons_self
      simp [readPoints, utf8Point, hb, hrest]

theorem decodedChar_toNat (c : Char) : decodedChar c.toNat = c :=
  (if_pos c.valid).trans (Char.ofNat_toNat c)

theorem decodeBytes_asciiBytes {cs : List Char}
    (h : ∀ c ∈ cs, 32 ≤ c.toNat ∧ c.toNat < 127) :
    decodeBytes (asciiBytes cs) = some cs := by
  have hval {c : Char} (hc : c ∈ cs) : (Fin.ofNat 256 c.toNat).val = c.toNat := by
    have hrange := h c hc
    exact Nat.mod_eq_of_lt (by omega)
  have hbytes : ∀ b ∈ asciiBytes cs, 0 < b.val ∧ b.val < 0x80 := by
    intro b hb
    obtain ⟨c, hc, rfl⟩ := List.mem_map.mp hb
    have hrange := h c hc
    rw [hval hc]
    omega
  have hpoints : (asciiBytes cs).map Fin.val = cs.map Char.toNat := by
    rw [asciiBytes, List.map_map]
    exact List.map_congr_left fun c hc => hval hc
  have hstandIn : standIn.toNat ∉ cs.map Char.toNat := by
    rintro hmem
    obtain ⟨c, hc, heq⟩ := List.mem_map.mp hmem
    have hsmall : standIn.toNat = 26 := rfl
    have hrange := h c hc
    omega
  rw [decodeBytes, detectEncoding_ascii hbytes]
  dsimp only
  rw [readPoints_ascii (fun b hb => (hbytes b hb).2) le_rfl, hpoints, Option.bind_some,
    if_neg hstandIn, List.map_map]
  congr 1
  exact (List.map_congr_left fun c _ => decodedChar_toNat c).trans (List.map_id cs)

theorem mem_dumpsText {s : String} (h : Plain s) {c : Char} (hc : c ∈ dumpsText s) :
    32 ≤ c.toNat ∧ c.toNat < 127 := by
  rw [dumpsText_plain h] at hc
  simp only [List.mem_cons, List.mem_append, List.not_mem_nil, or_false] at hc
  rcases hc with rfl | hc | rfl
  · decide
  · obtain ⟨hlow, hhigh, -⟩ := isPlain_iff.mp (h c hc)
    exact ⟨hlow, hhigh⟩
  · decide

theorem mem_dumpsMembers {members : List (String × String)}
    (h : ∀ m ∈ members, Plain m.1 ∧ Plain m.2) {c : Char}
    (hc : c ∈ dumpsMembers members) : 32 ≤ c.toNat ∧ c.toNat < 127 := by
  induction members with
  | nil => simp [dumpsMembers] at hc
  | cons m ms ih =>
      obtain ⟨hname, hvalue⟩ := h m List.mem_cons_self
      have hmember {c : Char} (hc : c ∈ dumpsMember m) :
          32 ≤ c.toNat ∧ c.toNat < 127 := by
        simp only [dumpsMember, List.mem_append, List.mem_cons] at hc
        rcases hc with hc | rfl | rfl | hc
        · exact mem_dumpsText hname hc
        · decide
        · decide
        · exact mem_dumpsText hvalue hc
      cases ms with
      | nil => exact hmember hc
      | cons m' ms =>
          rw [dumpsMembers] at hc
          · simp only [List.mem_append, List.mem_cons] at hc
            rcases hc with hc | rfl | rfl | hc
            · exact hmember hc
            · decide
            · decide
            · exact ih (fun x hx => h x (List.mem_cons_of_mem m hx)) hc
          · simp

end JsonText

end IsolatedEnv.Foundation
