import IsolatedEnv.Foundation.Digits

/-!
# IP addresses and networks

`IpAddress.parse` is `ipaddress.ip_address` of Python on texts: four decimal numbers
without leading zeros, or up to eight groups of hexadecimal digits with one `::` for a
run of zeros, a dotted tail and a scope.  A network holds the addresses of its version
that agree with it in the bits of its prefix.
-/

namespace IsolatedEnv.Foundation

inductive IpAddress where
  | v4 (bits : BitVec 32)
  | v6 (bits : BitVec 128)
  deriving DecidableEq, Repr

inductive IpNetwork where
  | v4 (bits : BitVec 32) (prefixLength : Nat)
  | v6 (bits : BitVec 128) (prefixLength : Nat)
  deriving DecidableEq, Repr

namespace IpNetwork

def contains : IpNetwork → IpAddress → Bool
  | .v4 net length, .v4 bits => bits >>> (32 - length) = net >>> (32 - length)
  | .v6 net length, .v6 bits => bits >>> (128 - length) = net >>> (128 - length)
  | _, _ => false

/-- The second network lies in the first one. -/
def covers : IpNetwork → IpNetwork → Bool
  | .v4 net length, .v4 net' length' =>
      length ≤ length' && net' >>> (32 - length) = net >>> (32 - length)
  | .v6 net length, .v6 net' length' =>
      length ≤ length' && net' >>> (128 - length) = net >>> (128 - length)
  | _, _ => false

theorem shiftRight_eq_of_le {w m n : Nat} {a b : BitVec w} (hle : m ≤ n)
    (h : a >>> m = b >>> m) : a >>> n = b >>> n := by
  obtain ⟨k, rfl⟩ := Nat.exists_eq_add_of_le hle
  rw [BitVec.shiftRight_add, BitVec.shiftRight_add, h]

theorem contains_of_covers {wide narrow : IpNetwork} {a : IpAddress}
    (hcovers : wide.covers narrow = true) (ha : narrow.contains a = true) :
    wide.contains a = true := by
  cases wide <;> cases narrow <;> cases a <;>
    simp only [covers, contains, Bool.and_eq_true, decide_eq_true_eq,
      Bool.false_eq_true] at hcovers ha ⊢
  · exact (shiftRight_eq_of_le (Nat.sub_le_sub_left hcovers.1 32) ha).trans hcovers.2
  · exact (shiftRight_eq_of_le (Nat.sub_le_sub_left hcovers.1 128) ha).trans hcovers.2

end IpNetwork

/-! ## Texts of addresses -/

def parseOctet (cs : List Char) : Option Nat :=
  if 1 ≤ cs.length && cs.length ≤ 3 && (cs = ['0'] || cs.head? ≠ some '0') then
    (readDigits 10 cs).filter fun n => n ≤ 255
  else none

def parseV4 (cs : List Char) : Option (BitVec 32) :=
  match (cs.splitOn '.').mapM parseOctet with
  | some [a, b, c, d] => some (BitVec.ofNat 32 (((a * 256 + b) * 256 + c) * 256 + d))
  | _ => none

/-- `_parse_hextet`; the ends of an address that begins or ends with `::` are empty. -/
def parseHextet (cs : List Char) : Option Nat :=
  if 1 ≤ cs.length && cs.length ≤ 4 then readDigits 16 cs else none

/-- The groups of an address, the last two written as an IPv4 address at will. -/
def parseGroups (parts : List (List Char)) : Option (List Nat) :=
  match parts.getLast? with
  | some last =>
      if '.' ∈ last then
        (parseV4 last).bind fun tail =>
          (parts.dropLast.mapM parseHextet).map fun groups =>
            groups ++ [tail.toNat / 65536, tail.toNat % 65536]
      else parts.mapM parseHextet
  | none => some []

/-- What stands on one side of the `::`. -/
def parseSide (cs : List Char) : Option (List Nat) :=
  if cs = [] then some [] else parseGroups (cs.splitOn ':')

/-- The first `::` and what stands before and behind it. -/
def splitDouble : List Char → Option (List Char × List Char)
  | ':' :: ':' :: cs => some ([], cs)
  | c :: cs => (splitDouble cs).map fun sides => (c :: sides.1, sides.2)
  | [] => none

def ofGroups (groups : List Nat) : BitVec 128 :=
  BitVec.ofNat 128 (groups.foldl (fun value group => value * 65536 + group) 0)

def parseV6 (cs : List Char) : Option (BitVec 128) :=
  match splitDouble cs with
  | none => (parseGroups (cs.splitOn ':')).bind fun groups =>
      if groups.length = 8 then some (ofGroups groups) else none
  | some (before, after) =>
      if '.' ∈ before then none
      else
        (parseSide before).bind fun high => (parseSide after).bind fun low =>
          if high.length + low.length < 8 then
            some (ofGroups (high ++ List.replicate (8 - high.length - low.length) 0 ++ low))
          else none

/-- The address without its scope, which has to be there when there is a `%`. -/
def dropScope (cs : List Char) : Option (List Char) :=
  match cs.splitOn '%' with
  | [address] => some address
  | [address, scope] => if scope = [] then none else some address
  | _ => none

/-- `ipaddress.ip_address(cs)`; `none` when it raises `ValueError`. -/
def IpAddress.parse (cs : List Char) : Option IpAddress :=
  match parseV4 cs with
  | some bits => some (.v4 bits)
  | none => ((dropScope cs).bind parseV6).map .v6

example : (IpAddress.parse "::ffff:172.18.0.5".toList, IpAddress.parse "1.2.3.04".toList) =
    (some (.v6 0xffffac120005), none) := by decide

end IsolatedEnv.Foundation
