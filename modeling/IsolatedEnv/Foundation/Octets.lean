import Mathlib.Data.List.Basic

/-!
# Octets as characters

An octet is written as the Latin-1 character of its number, so that a line of octets is
a list of characters and an ASCII text is its own encoding.
-/

namespace IsolatedEnv.Foundation

/-- The UTF-8 octets of a character. -/
def utf8 (c : Char) : List Char :=
  let n := c.toNat
  if n < 0x80 then [c]
  else if n < 0x800 then [Char.ofNat (0xC0 + n / 64), Char.ofNat (0x80 + n % 64)]
  else if n < 0x10000 then
    [Char.ofNat (0xE0 + n / 4096), Char.ofNat (0x80 + n / 64 % 64),
      Char.ofNat (0x80 + n % 64)]
  else
    [Char.ofNat (0xF0 + n / 262144), Char.ofNat (0x80 + n / 4096 % 64),
      Char.ofNat (0x80 + n / 64 % 64), Char.ofNat (0x80 + n % 64)]

/-- `text.encode()`. -/
def encodeUtf8 (cs : List Char) : List Char := cs.flatMap utf8

section Octets

variable {c : Char} {cs : List Char}

theorem utf8_ascii (h : c.toNat < 128) : utf8 c = [c] := if_pos h

theorem encodeUtf8_cons : encodeUtf8 (c :: cs) = utf8 c ++ encodeUtf8 cs :=
  List.flatMap_cons

theorem encodeUtf8_append (cs ds : List Char) :
    encodeUtf8 (cs ++ ds) = encodeUtf8 cs ++ encodeUtf8 ds :=
  List.flatMap_append

def Ascii (cs : List Char) : Prop := ∀ c ∈ cs, c.toNat < 128

theorem encodeUtf8_ascii (h : Ascii cs) : encodeUtf8 cs = cs := by
  induction cs with
  | nil => rfl
  | cons c cs ih =>
      rw [encodeUtf8_cons, utf8_ascii (h c List.mem_cons_self),
        ih fun d hd => h d (List.mem_cons_of_mem c hd)]
      rfl

end Octets

end IsolatedEnv.Foundation
