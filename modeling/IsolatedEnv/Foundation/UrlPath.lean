import IsolatedEnv.Foundation.FormUrlencoded
import Mathlib.Data.List.TakeWhile

/-!
# Paths of URLs

A client writes a path from parts that it percent-encodes, its URL parser resolves the dot
segments, and the server percent-decodes the path as a whole.
-/

namespace IsolatedEnv.Foundation.UrlPath

open FormUrlencoded

/-! ## Percent-encoding a part -/

section Encoding

variable (keep : Char → Bool)

def encodeOctet (b : UInt8) : List Char :=
  if b < 0x80 ∧ keep (Char.ofNat b.toNat) then [Char.ofNat b.toNat]
  else ['%', hexDigit (b.toNat / 16), hexDigit (b.toNat % 16)]

def encode (text : String) : List Char := (octets text).flatMap (encodeOctet keep)

variable {keep}

theorem encodeOctet_mem {b : UInt8} {c : Char} (h : c ∈ encodeOctet keep b) :
    isAscii c = true ∧ (keep c = true ∨ c = '%' ∨ unreserved c = true) := by
  have hb : b.toNat < 256 := b.toNat_lt
  unfold encodeOctet at h
  split at h
  · rename_i hplain
    obtain rfl := List.mem_singleton.mp h
    refine ⟨?_, .inl hplain.2⟩
    have hlow : b.toNat < 128 := hplain.1
    have hnat : (Char.ofNat b.toNat).toNat = b.toNat := by
      rw [Char.ofNat, dif_pos (Or.inl (by omega))]
      rfl
    unfold isAscii
    rw [hnat]
    exact decide_eq_true hlow
  · simp only [List.mem_cons, List.not_mem_nil, or_false] at h
    rcases h with rfl | rfl | rfl
    · exact ⟨rfl, .inr (.inl rfl)⟩
    · have hdigit := hexDigit_unreserved (d := b.toNat / 16) (by omega)
      exact ⟨Written.isAscii (.inl hdigit), .inr (.inr hdigit)⟩
    · have hdigit := hexDigit_unreserved (d := b.toNat % 16) (by omega)
      exact ⟨Written.isAscii (.inl hdigit), .inr (.inr hdigit)⟩

theorem encode_mem {text : String} {c : Char} (h : c ∈ encode keep text) :
    isAscii c = true ∧ (keep c = true ∨ c = '%' ∨ unreserved c = true) := by
  obtain ⟨b, -, hc⟩ := List.mem_flatMap.mp h
  exact encodeOctet_mem hc

theorem encode_ne {text : String} {c d : Char} (h : c ∈ encode keep text) (hkeep : keep d = false)
    (hpercent : d ≠ '%') (hd : unreserved d = false) : c ≠ d := by
  rintro rfl
  rcases (encode_mem h).2 with h | h | h
  · rw [hkeep] at h
    cases h
  · exact hpercent h
  · rw [hd] at h
    cases h

theorem percentDecode_encodeOctet (hpercent : keep '%' = false) (b : UInt8) (rest : List Char) :
    percentDecode (encodeOctet keep b ++ rest) = b :: percentDecode rest := by
  have hb : b.toNat < 256 := b.toNat_lt
  unfold encodeOctet
  split
  · rename_i hplain
    have hne : Char.ofNat b.toNat ≠ '%' := by
      intro heq
      rw [heq, hpercent] at hplain
      cases hplain.2
    rw [List.singleton_append, percentDecode_plain hne, utf8EncodeChar_ofNat hplain.1]
    rfl
  · have hhigh : b.toNat / 16 < 16 := by omega
    have hlow : b.toNat % 16 < 16 := by omega
    simp only [List.cons_append, List.nil_append, percentDecode,
      digitValue_hexDigit hhigh, digitValue_hexDigit hlow]
    rw [Nat.div_add_mod, UInt8.ofNat_toNat]

/-- What stands for itself may be taken out of a percent-encoded text. -/
theorem unquote_literal {lossy : List UInt8 → String} (hlossy : KeepsAscii lossy)
    {cs rest : List Char} (hcs : ∀ c ∈ cs, isAscii c = true ∧ c ≠ '%')
    (hrest : ∀ c ∈ rest, isAscii c = true) :
    unquote lossy (cs ++ rest) = String.ofList (cs ++ (unquote lossy rest).toList) := by
  induction cs with
  | nil => simp
  | cons c cs ih =>
      obtain ⟨hascii, hpercent⟩ := hcs c List.mem_cons_self
      have htail := fun d hd => hcs d (List.mem_cons_of_mem c hd)
      have hall : ∀ d ∈ cs ++ rest, isAscii d = true := by
        intro d hd
        exact (List.mem_append.mp hd).elim (fun hd => (htail d hd).1) (hrest d)
      have hlow : c.toNat < 128 := of_decide_eq_true hascii
      have hb : UInt8.ofNat c.toNat < 0x80 := by
        rw [UInt8.lt_iff_toNat_lt, UInt8.toNat_ofNat', Nat.mod_eq_of_lt (by omega)]
        exact hlow
      have hc : Char.ofNat (UInt8.ofNat c.toNat).toNat = c := by
        rw [UInt8.toNat_ofNat', Nat.mod_eq_of_lt (by omega), Char.ofNat_toNat]
      have hencode : String.utf8EncodeChar c = [UInt8.ofNat c.toNat] := by
        have hencoded := utf8EncodeChar_ofNat hb
        rwa [hc] at hencoded
      have hcons : ∀ d ∈ c :: (cs ++ rest), isAscii d = true :=
        List.forall_mem_cons.mpr ⟨hascii, hall⟩
      rw [List.cons_append, unquote_ascii lossy hcons, percentDecode_plain hpercent, hencode,
        List.singleton_append, decodeUtf8_cons hlossy hb, hc, ← unquote_ascii lossy hall,
        ih htail]
      simp

theorem encode_append (cs ds : List Char) : encode keep (String.ofList (cs ++ ds)) =
    encode keep (String.ofList cs) ++ encode keep (String.ofList ds) := by
  simp [encode, octets]

/-- Besides `%` and unreserved characters, only characters of the text are written. -/
theorem notMem_encode {text : String} {d : Char} (hd : d ∉ text.toList) (hpercent : d ≠ '%')
    (hunreserved : unreserved d = false) : d ∉ encode keep text := by
  intro h
  obtain ⟨b, hb, hmem⟩ := List.mem_flatMap.mp h
  have hsize : b.toNat < 256 := b.toNat_lt
  unfold encodeOctet at hmem
  split at hmem
  · rename_i hplain
    obtain rfl := List.mem_singleton.mp hmem
    exact hd (mem_octets_ascii hb hplain.1)
  · simp only [List.mem_cons, List.not_mem_nil, or_false] at hmem
    rcases hmem with rfl | rfl | rfl
    · exact hpercent rfl
    · rw [hexDigit_unreserved (by omega)] at hunreserved
      cases hunreserved
    · rw [hexDigit_unreserved (by omega)] at hunreserved
      cases hunreserved

end Encoding

/-! ## The path state of the URL parser -/

/-- A dot, which may be percent-encoded. -/
def dots : List (List Char) := [".", "%2e", "%2E"].map String.toList

def isSingleDot (segment : List Char) : Bool := segment ∈ dots

def isDoubleDot (segment : List Char) : Bool :=
  segment ∈ dots.flatMap fun first => dots.map fun second => first ++ second

/-- `done` holds the segments so far, the last one first. -/
def resolveDots (done : List (List Char)) : List (List Char) → List (List Char)
  | [] => done.reverse
  | segment :: rest =>
      let path :=
        if isDoubleDot segment then done.tail
        else if isSingleDot segment then done
        else segment :: done
      if rest.isEmpty && (isDoubleDot segment || isSingleDot segment) then ([] :: path).reverse
      else resolveDots path rest

def joinSegments (segments : List (List Char)) : List Char :=
  segments.flatMap fun segment => '/' :: segment

/--
The path of a special URL from its text behind the host, as far as no character of it has to be
percent-encoded.
-/
def pathname (text : List Char) : List Char :=
  let path := (text.takeWhile fun c => c ≠ '?' && c ≠ '#').map fun c =>
    if c = '\\' then '/' else c
  joinSegments (resolveDots [] ((path.drop 1).splitOn '/'))

theorem resolveDots_append {plain : List (List Char)} (done rest : List (List Char))
    (h : ∀ s ∈ plain, isDoubleDot s = false ∧ isSingleDot s = false) :
    resolveDots done (plain ++ rest) = resolveDots (plain.reverse ++ done) rest := by
  induction plain generalizing done with
  | nil => rfl
  | cons segment plain ih =>
      obtain ⟨hdouble, hsingle⟩ := h segment List.mem_cons_self
      have htail := ih (segment :: done) fun s hs => h s (List.mem_cons_of_mem _ hs)
      simp [resolveDots, hdouble, hsingle, htail]

/-- One segment that may be dots, and a plain one behind it at most. -/
theorem resolveDots_cons {done rest : List (List Char)} {segment : List Char}
    (h : ∀ s ∈ rest, isDoubleDot s = false ∧ isSingleDot s = false) (hlength : rest.length ≤ 1) :
    resolveDots done (segment :: rest) = done.tail.reverse ++ [rest.headD []] ∨
      resolveDots done (segment :: rest) = done.reverse ++ [rest.headD []] ∨
        resolveDots done (segment :: rest) = done.reverse ++ segment :: rest := by
  cases rest with
  | nil =>
      by_cases hdouble : isDoubleDot segment
      · exact .inl (by simp [resolveDots, hdouble])
      · by_cases hsingle : isSingleDot segment
        · exact .inr (.inl (by simp [resolveDots, hdouble, hsingle]))
        · exact .inr (.inr (by simp [resolveDots, hdouble, hsingle]))
  | cons last rest =>
      obtain rfl : rest = [] := List.length_eq_zero_iff.mp (by simpa using hlength)
      obtain ⟨hlast, hlast'⟩ := h last List.mem_cons_self
      by_cases hdouble : isDoubleDot segment
      · exact .inl (by simp [resolveDots, hdouble, hlast, hlast'])
      · by_cases hsingle : isSingleDot segment
        · exact .inr (.inl (by simp [resolveDots, hdouble, hsingle, hlast, hlast']))
        · exact .inr (.inr (by simp [resolveDots, hdouble, hsingle, hlast, hlast']))

theorem splitOn_joinSegments {plain : List (List Char)} (h : ∀ s ∈ plain, '/' ∉ s)
    (rest : List Char) : ((joinSegments plain ++ '/' :: rest).drop 1).splitOn '/' =
      plain ++ rest.splitOn '/' := by
  induction plain with
  | nil => rfl
  | cons segment plain ih =>
      have htail := ih fun s hs => h s (List.mem_cons_of_mem _ hs)
      obtain ⟨cs, hcs⟩ : ∃ cs, joinSegments plain ++ '/' :: rest = '/' :: cs := by
        cases plain with
        | nil => exact ⟨rest, rfl⟩
        | cons next plain => exact ⟨_, rfl⟩
      rw [hcs, List.drop_succ_cons, List.drop_zero] at htail
      have hjoin : joinSegments (segment :: plain) ++ '/' :: rest =
          '/' :: (segment ++ '/' :: cs) := by
        rw [joinSegments, List.flatMap_cons, ← joinSegments, List.append_assoc, hcs]
        rfl
      rw [hjoin, List.drop_succ_cons, List.drop_zero,
        List.splitOn_append_cons_self_of_not_mem (h segment List.mem_cons_self), htail]
      rfl

/-- The text before the query and the fragment. -/
def beforeQuery (text : List Char) : List Char := text.takeWhile fun c => c ≠ '?' && c ≠ '#'

/-- Dots and queries are looked for behind the plain segments. -/
theorem pathname_behind {plain : List (List Char)} {rest : List Char}
    (hchars : ∀ s ∈ plain, ∀ c ∈ s, c ∉ ['/', '\\', '?', '#'])
    (hdots : ∀ s ∈ plain, isDoubleDot s = false ∧ isSingleDot s = false)
    (hrest : '\\' ∉ rest) :
    pathname (joinSegments plain ++ '/' :: rest) =
      joinSegments (resolveDots plain.reverse ((beforeQuery rest).splitOn '/')) := by
  have hmem : ∀ c ∈ joinSegments plain, c ≠ '\\' ∧ c ≠ '?' ∧ c ≠ '#' := by
    intro c hc
    obtain ⟨s, hs, hc⟩ := List.mem_flatMap.mp hc
    rcases List.mem_cons.mp hc with rfl | hc
    · decide
    · have hplain := hchars s hs c hc
      simp only [List.mem_cons, not_or] at hplain
      exact ⟨hplain.2.1, hplain.2.2.1, hplain.2.2.2.1⟩
  have htake : (joinSegments plain ++ '/' :: rest).takeWhile (fun c => c ≠ '?' && c ≠ '#') =
      joinSegments plain ++ '/' :: beforeQuery rest := by
    rw [List.takeWhile_append_of_pos fun c hc => by simp [(hmem c hc).2]]
    rfl
  have hslashes : (joinSegments plain ++ '/' :: beforeQuery rest).map
      (fun c => if c = '\\' then '/' else c) = joinSegments plain ++ '/' :: beforeQuery rest := by
    refine (List.map_congr_left fun c hc => if_neg ?_).trans (List.map_id _)
    rcases List.mem_append.mp hc with hc | hc
    · exact (hmem c hc).1
    · rcases List.mem_cons.mp hc with rfl | hc
      · decide
      · rintro rfl
        exact hrest ((List.takeWhile_sublist _).subset hc)
  have hnoSlash : ∀ s ∈ plain, '/' ∉ s := fun s hs h => hchars s hs '/' h (by simp)
  rw [pathname, htake, hslashes, splitOn_joinSegments hnoSlash, resolveDots_append [] _ hdots,
    List.append_nil]

theorem pathname_joinSegments {segments : List (List Char)} (hne : segments ≠ [])
    (hchars : ∀ s ∈ segments, ∀ c ∈ s, c ∉ ['/', '\\', '?', '#'])
    (hdots : ∀ s ∈ segments, isDoubleDot s = false ∧ isSingleDot s = false) :
    pathname (joinSegments segments) = joinSegments segments := by
  obtain ⟨plain, last, rfl⟩ := (List.eq_nil_or_concat segments).resolve_left hne
  rw [List.concat_eq_append] at hchars hdots ⊢
  have hlast := hchars last (by simp)
  have hbehind : pathname (joinSegments plain ++ '/' :: last) =
      joinSegments (resolveDots plain.reverse ((beforeQuery last).splitOn '/')) :=
    pathname_behind (fun s hs => hchars s (List.mem_append_left _ hs))
      (fun s hs => hdots s (List.mem_append_left _ hs)) fun h => hlast _ h (by simp)
  have hquery : beforeQuery last = last :=
    List.takeWhile_eq_self_iff.mpr fun c hc => by
      have hplain := hlast c hc
      simp only [List.mem_cons, not_or] at hplain
      simp [hplain.2.2.1, hplain.2.2.2.1]
  have hjoin : joinSegments (plain ++ [last]) = joinSegments plain ++ '/' :: last := by
    simp [joinSegments]
  rw [hjoin, hbehind, hquery, List.splitOn_eq_singleton fun h => hlast _ h (by simp)]
  have hresolved : resolveDots plain.reverse ([last] ++ []) =
      resolveDots ([last].reverse ++ plain.reverse) [] :=
    resolveDots_append plain.reverse [] fun s hs => hdots s (List.mem_append_right _ hs)
  rw [List.append_nil] at hresolved
  rw [hresolved]
  simp [resolveDots, joinSegments]

end IsolatedEnv.Foundation.UrlPath
