import IsolatedEnv.Foundation.Digits
import Mathlib.Data.List.SplitBy

/-!
# application/x-www-form-urlencoded

Names and values as `URLSearchParams` writes them into a query, and the two readers that
take a query apart again: the one of `URLSearchParams`, and `parse_qsl` of Python with
blank values kept.  What a decoder makes of octets that are not UTF-8 is left open.
-/

namespace IsolatedEnv.Foundation.FormUrlencoded

abbrev Pairs := List (String × String)

/-! ## Octets -/

def octets (text : String) : List UInt8 := text.toList.flatMap String.utf8EncodeChar

def decodeUtf8 (lossy : List UInt8 → String) (bytes : List UInt8) : String :=
  match bytes.toByteArray.utf8Decode? with
  | some cs => String.ofList cs.toList
  | none => lossy bytes

theorem decodeUtf8_octets (lossy : List UInt8 → String) (text : String) :
    decodeUtf8 lossy (octets text) = text := by
  have hencode : (octets text).toByteArray = text.toList.utf8Encode := rfl
  unfold decodeUtf8
  rw [hencode, List.utf8Decode?_utf8Encode]
  exact String.ofList_toList

/-- How an ASCII character is decoded does not depend on what follows it. -/
def KeepsAscii (lossy : List UInt8 → String) : Prop :=
  ∀ (b : UInt8) (bytes : List UInt8), b < 0x80 →
    lossy (b :: bytes) = String.ofList (Char.ofNat b.toNat :: (lossy bytes).toList)

/-! ## The writer -/

def unreserved (c : Char) : Bool :=
  c.isAlphanum || c = '*' || c = '-' || c = '.' || c = '_'

/-- A hexadecimal digit in upper case. -/
def hexDigit (d : Nat) : Char := d.digitChar.toUpper

def encodeOctet (b : UInt8) : List Char :=
  if b = 0x20 then ['+']
  else if b < 0x80 ∧ unreserved (Char.ofNat b.toNat) then [Char.ofNat b.toNat]
  else ['%', hexDigit (b.toNat / 16), hexDigit (b.toNat % 16)]

def encodeText (text : String) : List Char := (octets text).flatMap encodeOctet

def encodePair (pair : String × String) : List Char :=
  encodeText pair.1 ++ '=' :: encodeText pair.2

def serialize (pairs : Pairs) : List Char := ['&'].intercalate (pairs.map encodePair)

/-! ## The readers -/

def plusToSpace (cs : List Char) : List Char := cs.map fun c => if c = '+' then ' ' else c

/-- `%` and two hexadecimal digits are an octet; anything else stands for itself. -/
def percentDecode : List Char → List UInt8
  | [] => []
  | '%' :: a :: b :: rest =>
      match digitValue a, digitValue b with
      | some x, some y => UInt8.ofNat (16 * x + y) :: percentDecode rest
      | _, _ => 0x25 :: percentDecode (a :: b :: rest)
  | c :: rest => String.utf8EncodeChar c ++ percentDecode rest

def isAscii (c : Char) : Bool := c.toNat < 128

/-- `urllib.parse.unquote`, which decodes the ASCII stretches one by one. -/
def unquote (lossy : List UInt8 → String) (cs : List Char) : String :=
  String.ofList ((cs.splitBy fun c d => isAscii c == isAscii d).flatMap fun part =>
    if part.all isAscii then (decodeUtf8 lossy (percentDecode part)).toList else part)

/-- The name before the first `=` and the value after it. -/
def splitPair (cs : List Char) : List Char × List Char :=
  (cs.takeWhile (· ≠ '='), (cs.dropWhile (· ≠ '=')).drop 1)

def parseWith (decode : List Char → String) (query : List Char) : Pairs :=
  ((query.splitOn '&').filter (· ≠ [])).map fun cs =>
    (decode (plusToSpace (splitPair cs).1), decode (plusToSpace (splitPair cs).2))

/-- The reader of `URLSearchParams`. -/
def parse (lossy : List UInt8 → String) : List Char → Pairs :=
  parseWith fun cs => decodeUtf8 lossy (percentDecode cs)

/-- `parse_qsl(query, keep_blank_values=True)`. -/
def parseQsl (lossy : List UInt8 → String) : List Char → Pairs := parseWith (unquote lossy)

/-! ## What is written -/

/-- The characters of a written name or value. -/
def Written (c : Char) : Prop := unreserved c = true ∨ c = '+' ∨ c = '%'

theorem hexDigit_unreserved {d : Nat} (hd : d < 16) : unreserved (hexDigit d) = true := by
  interval_cases d <;> rfl

theorem digitValue_hexDigit {d : Nat} (hd : d < 16) : digitValue (hexDigit d) = some d := by
  interval_cases d <;> rfl

theorem encodeOctet_written {b : UInt8} {c : Char} (h : c ∈ encodeOctet b) : Written c := by
  have hb : b.toNat < 256 := b.toNat_lt
  unfold encodeOctet at h
  split at h
  · exact .inr (.inl (List.mem_singleton.mp h))
  · split at h
    · rename_i hplain
      exact .inl (List.mem_singleton.mp h ▸ hplain.2)
    · simp only [List.mem_cons, List.not_mem_nil, or_false] at h
      rcases h with rfl | rfl | rfl
      · exact .inr (.inr rfl)
      · exact .inl (hexDigit_unreserved (by omega))
      · exact .inl (hexDigit_unreserved (by omega))

theorem encodeText_written {text : String} {c : Char} (h : c ∈ encodeText text) : Written c := by
  obtain ⟨b, -, hc⟩ := List.mem_flatMap.mp h
  exact encodeOctet_written hc

theorem Written.ne {c d : Char} (h : Written c) (hd : unreserved d = false) (hplus : d ≠ '+')
    (hpercent : d ≠ '%') : c ≠ d := by
  rintro rfl
  rcases h with h | h | h
  · rw [hd] at h
    cases h
  · exact hplus h
  · exact hpercent h

theorem Written.isAscii {c : Char} (h : Written c) : isAscii c = true := by
  unfold FormUrlencoded.isAscii
  rw [decide_eq_true_eq]
  rcases h with h | rfl | rfl
  · delta unreserved Char.isAlphanum Char.isAlpha Char.isUpper Char.isLower Char.isDigit at h
    simp only [Bool.or_eq_true, Bool.and_eq_true, decide_eq_true_eq, ge_iff_le,
      UInt32.le_iff_toNat_le] at h
    unfold Char.toNat
    rcases h with ((((((h | h) | h) | h) | h) | h) | h)
    all_goals first
      | exact Nat.lt_of_le_of_lt h.2 (by decide)
      | (subst h; decide)
  · decide
  · decide

theorem mem_serialize {pairs : Pairs} {c : Char} (h : c ∈ serialize pairs) :
    Written c ∨ c = '=' ∨ c = '&' := by
  unfold serialize at h
  induction pairs with
  | nil => cases h
  | cons pair rest ih =>
      have hpair (hc : c ∈ encodePair pair) : Written c ∨ c = '=' ∨ c = '&' := by
        rcases List.mem_append.mp hc with hc | hc
        · exact .inl (encodeText_written hc)
        · exact (List.mem_cons.mp hc).elim (fun hc => .inr (.inl hc)) fun hc =>
            .inl (encodeText_written hc)
      rw [List.map_cons] at h
      cases rest with
      | nil =>
          rw [List.map_nil, List.intercalate_singleton] at h
          exact hpair h
      | cons next rest =>
          rw [List.map_cons, List.intercalate_cons_cons] at h
          rcases List.mem_append.mp h with h | h
          · rcases List.mem_append.mp h with h | h
            · exact hpair h
            · exact .inr (.inr (List.mem_singleton.mp h))
          · exact ih h

/-! ## What is read back -/

theorem percentDecode_plain {c : Char} (hc : c ≠ '%') (rest : List Char) :
    percentDecode (c :: rest) = String.utf8EncodeChar c ++ percentDecode rest := by
  rw [percentDecode]
  rintro a b rest' rfl
  exact absurd rfl hc

theorem unreserved_ne {c d : Char} (h : unreserved c = true) (hd : unreserved d = false) :
    c ≠ d := by
  rintro rfl
  rw [hd] at h
  cases h

theorem utf8EncodeChar_ofNat {b : UInt8} (hb : b < 0x80) :
    String.utf8EncodeChar (Char.ofNat b.toNat) = [b] := by
  have hlow : b.toNat < 128 := hb
  have hnat : (Char.ofNat b.toNat).val.toNat = b.toNat := by
    rw [Char.ofNat, dif_pos (Or.inl (by omega))]
    rfl
  unfold String.utf8EncodeChar
  rw [hnat, if_pos (by omega)]
  simp

theorem decodeUtf8_cons {lossy : List UInt8 → String} (hlossy : KeepsAscii lossy) {b : UInt8}
    (hb : b < 0x80) (bytes : List UInt8) : decodeUtf8 lossy (b :: bytes) =
      String.ofList (Char.ofNat b.toNat :: (decodeUtf8 lossy bytes).toList) := by
  have happend : (b :: bytes).toByteArray =
      [Char.ofNat b.toNat].utf8Encode ++ bytes.toByteArray := by
    change ([b] ++ bytes).toByteArray = _
    rw [List.utf8Encode, List.flatMap_singleton, utf8EncodeChar_ofNat hb, List.toByteArray_append]
  unfold decodeUtf8
  rw [happend, ByteArray.utf8Decode?_utf8Encode_singleton_append]
  cases bytes.toByteArray.utf8Decode? with
  | some cs => simp
  | none => exact hlossy b bytes hb

/-- Only an ASCII character has octets below 128. -/
theorem mem_octets_ascii {b : UInt8} {text : String} (h : b ∈ octets text) (hb : b < 0x80) :
    Char.ofNat b.toNat ∈ text.toList := by
  obtain ⟨c, hc, hmem⟩ := List.mem_flatMap.mp h
  have hlow : b.toNat < 128 := hb
  simp only [String.utf8EncodeChar] at hmem
  split at hmem
  · obtain rfl := List.mem_singleton.mp hmem
    have hnat : (UInt8.ofNat c.val.toNat).toNat = c.toNat := by
      rw [UInt8.toNat_ofNat', Nat.mod_eq_of_lt (by omega)]
      rfl
    rw [hnat, Char.ofNat_toNat]
    exact hc
  · exfalso
    split at hmem
    · simp only [List.mem_cons, List.not_mem_nil, or_false] at hmem
      rcases hmem with rfl | rfl <;> simp only [UInt8.toNat_ofNat'] at hlow <;> omega
    · split at hmem
      · simp only [List.mem_cons, List.not_mem_nil, or_false] at hmem
        rcases hmem with rfl | rfl | rfl <;> simp only [UInt8.toNat_ofNat'] at hlow <;> omega
      · simp only [List.mem_cons, List.not_mem_nil, or_false] at hmem
        rcases hmem with rfl | rfl | rfl | rfl <;>
          simp only [UInt8.toNat_ofNat'] at hlow <;> omega

theorem percentDecode_encodeOctet (b : UInt8) (rest : List Char) :
    percentDecode (plusToSpace (encodeOctet b) ++ rest) = b :: percentDecode rest := by
  have hb : b.toNat < 256 := b.toNat_lt
  unfold encodeOctet
  split
  · rename_i hspace
    subst hspace
    exact percentDecode_plain (by decide) rest
  · split
    · rename_i hplain
      obtain ⟨hlow, hplain⟩ := hplain
      have hplus : Char.ofNat b.toNat ≠ '+' := unreserved_ne hplain rfl
      simp only [plusToSpace, List.map_cons, hplus, if_false, List.map_nil, List.cons_append,
        List.nil_append]
      rw [percentDecode_plain (unreserved_ne hplain rfl), utf8EncodeChar_ofNat hlow]
      rfl
    · have hhigh : b.toNat / 16 < 16 := by omega
      have hlow : b.toNat % 16 < 16 := by omega
      have hsame : plusToSpace ['%', hexDigit (b.toNat / 16), hexDigit (b.toNat % 16)] =
          ['%', hexDigit (b.toNat / 16), hexDigit (b.toNat % 16)] := by
        simp [plusToSpace, unreserved_ne (hexDigit_unreserved hhigh) (d := '+') rfl,
          unreserved_ne (hexDigit_unreserved hlow) (d := '+') rfl]
      rw [hsame]
      simp only [List.cons_append, List.nil_append, percentDecode,
        digitValue_hexDigit hhigh, digitValue_hexDigit hlow]
      rw [Nat.div_add_mod, UInt8.ofNat_toNat]

theorem percentDecode_encodeText (text : String) :
    percentDecode (plusToSpace (encodeText text)) = octets text := by
  unfold encodeText
  induction octets text with
  | nil => rfl
  | cons b bytes ih =>
      rw [List.flatMap_cons, plusToSpace, List.map_append]
      exact (percentDecode_encodeOctet b _).trans (congrArg _ ih)

theorem plusToSpace_isAscii {text : String} {c : Char} (h : c ∈ plusToSpace (encodeText text)) :
    isAscii c = true := by
  obtain ⟨d, hd, rfl⟩ := List.mem_map.mp h
  split
  · rfl
  · exact (encodeText_written hd).isAscii

/-- An ASCII text is one stretch. -/
theorem unquote_ascii (lossy : List UInt8 → String) {cs : List Char}
    (h : ∀ c ∈ cs, isAscii c = true) : unquote lossy cs = decodeUtf8 lossy (percentDecode cs) := by
  unfold unquote
  by_cases hnil : cs = []
  · subst hnil
    rfl
  · have hchain : cs.IsChain fun c d => (isAscii c == isAscii d) = true := by
      refine (List.pairwise_iff_forall_sublist.mpr fun hsub => ?_).isChain
      rw [h _ (hsub.subset (by simp)), h _ (hsub.subset (by simp))]
      rfl
    rw [List.splitBy_of_isChain hnil hchain, List.flatMap_singleton,
      if_pos (List.all_eq_true.mpr h)]
    exact String.ofList_toList

theorem unquote_encodeText (lossy : List UInt8 → String) (text : String) :
    unquote lossy (plusToSpace (encodeText text)) = text := by
  rw [unquote_ascii lossy fun c => plusToSpace_isAscii, percentDecode_encodeText,
    decodeUtf8_octets]

theorem splitPair_encodePair (pair : String × String) :
    splitPair (encodePair pair) = (encodeText pair.1, encodeText pair.2) := by
  have hne (c : Char) (hc : c ∈ encodeText pair.1) : decide (c ≠ '=') = true :=
    decide_eq_true ((encodeText_written hc).ne rfl (by decide) (by decide))
  unfold splitPair encodePair
  rw [List.takeWhile_append_of_pos hne, List.dropWhile_append_of_pos hne]
  simp

theorem amp_not_mem_encodePair (pair : String × String) : '&' ∉ encodePair pair := by
  intro h
  rcases List.mem_append.mp h with h | h
  · exact (encodeText_written h).ne rfl (by decide) (by decide) rfl
  · rcases List.mem_cons.mp h with h | h
    · exact absurd h (by decide)
    · exact (encodeText_written h).ne rfl (by decide) (by decide) rfl

theorem encodePair_ne_nil (pair : String × String) : encodePair pair ≠ [] := by
  simp [encodePair]

/-- A reader that undoes the writing of texts undoes that of a query. -/
theorem parseWith_serialize {decode : List Char → String}
    (hdecode : ∀ text, decode (plusToSpace (encodeText text)) = text) (pairs : Pairs) :
    parseWith decode (serialize pairs) = pairs := by
  unfold parseWith serialize
  by_cases hnil : pairs = []
  · subst hnil
    rfl
  · have hsplit : (['&'].intercalate (pairs.map encodePair)).splitOn '&' =
        pairs.map encodePair := by
      refine List.splitOn_intercalate '&' ?_ (by simpa using hnil)
      intro cs hcs
      obtain ⟨pair, -, rfl⟩ := List.mem_map.mp hcs
      exact amp_not_mem_encodePair pair
    have hfilter : (pairs.map encodePair).filter (· ≠ []) = pairs.map encodePair := by
      refine List.filter_eq_self.mpr fun cs hcs => ?_
      obtain ⟨pair, -, rfl⟩ := List.mem_map.mp hcs
      exact decide_eq_true (encodePair_ne_nil pair)
    rw [hsplit, hfilter, List.map_map]
    conv => rhs; rw [← List.map_id pairs]
    refine List.map_congr_left fun pair _ => ?_
    simp [splitPair_encodePair, hdecode]

theorem parse_serialize (lossy : List UInt8 → String) (pairs : Pairs) :
    parse lossy (serialize pairs) = pairs :=
  parseWith_serialize (fun text => by rw [percentDecode_encodeText, decodeUtf8_octets]) pairs

theorem parseQsl_serialize (lossy : List UInt8 → String) (pairs : Pairs) :
    parseQsl lossy (serialize pairs) = pairs :=
  parseWith_serialize (unquote_encodeText lossy) pairs

end IsolatedEnv.Foundation.FormUrlencoded
