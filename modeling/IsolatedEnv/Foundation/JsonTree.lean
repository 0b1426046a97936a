import IsolatedEnv.Foundation.JsonText

/-!
# Encoded values are read back

`json.dumps` on values without numbers, with any texts in them.  What it writes is
ASCII, and the reader takes as many steps as there are characters.
-/

namespace IsolatedEnv.Foundation

inductive JsonTree where
  | null
  | bool (value : Bool)
  | text (value : String)
  | arr (elements : List JsonTree)
  | obj (members : List (String × JsonTree))

namespace JsonTree

mutual

def json : JsonTree → Json
  | .null => .null
  | .bool value => .bool value
  | .text value => .str value
  | .arr elements => .arr (jsonElements elements)
  | .obj members => .obj (jsonMembers members)

def jsonElements : List JsonTree → List Json
  | [] => []
  | v :: vs => json v :: jsonElements vs

def jsonMembers : List (String × JsonTree) → JsonObject
  | [] => []
  | (name, v) :: ms => (name, json v) :: jsonMembers ms

end

mutual

/-- `json.dumps`. -/
def dumps : JsonTree → List Char
  | .null => "null".toList
  | .bool true => "true".toList
  | .bool false => "false".toList
  | .text value => JsonText.dumpsText value
  | .arr elements => '[' :: (dumpsElements elements ++ [']'])
  | .obj members => '\x7b' :: (dumpsMembers members ++ ['\x7d'])

def dumpsElements : List JsonTree → List Char
  | [] => []
  | [v] => dumps v
  | v :: w :: vs => dumps v ++ ',' :: ' ' :: dumpsElements (w :: vs)

def dumpsMembers : List (String × JsonTree) → List Char
  | [] => []
  | [(name, v)] => JsonText.dumpsText name ++ ':' :: ' ' :: dumps v
  | (name, v) :: m :: ms =>
      JsonText.dumpsText name ++ ':' :: ' ' :: (dumps v ++ ',' :: ' ' :: dumpsMembers (m :: ms))

end

end JsonTree

/-! ## Texts -/

namespace JsonText

/-- The code units that a character is escaped to. -/
def charUnits (c : Char) : List Nat :=
  if c.toNat < 0x10000 then [c.toNat]
  else [0xD800 + (c.toNat - 0x10000) / 0x400, 0xDC00 + (c.toNat - 0x10000) % 0x400]

theorem char_lt (c : Char) : c.toNat < 0x110000 := by
  have hvalid : c.toNat < 0xD800 ∨ 0xDFFF < c.toNat ∧ c.toNat < 0x110000 := c.valid
  omega

section Strings

variable {raw : Char → Option Nat}

theorem readString_escapeUnit {n : Nat} (h : n < 0x10000) (cs : List Char) :
    readString raw (escapeUnit n ++ cs) = (readString raw cs).map fun p => (n :: p.1, p.2) := by
  have hread : readDigits 16 (padDigits 16 4 n) = some n :=
    readDigits_padDigits (by decide) (by decide) h
  have hlength := padDigits_length 16 4 n
  match hdigits : padDigits 16 4 n, hlength with
  | [a, b, c, d], _ =>
      rw [hdigits] at hread
      simp [escapeUnit, hdigits, readString, hread]

theorem readString_cons {c : Char} (hquote : c ≠ '"') (hbackslash : c ≠ '\\')
    (hraw : raw c = some c.toNat) (cs : List Char) :
    readString raw (c :: cs) = (readString raw cs).map fun p => (c.toNat :: p.1, p.2) := by
  rw [readString]
  · rw [hraw, Option.bind_some]
  · exact hquote
  · rintro _ _ _ _ _ rfl
    exact absurd rfl hbackslash
  · rintro _ _ rfl
    exact absurd rfl hbackslash

/-- Printable ASCII stands for itself. -/
def TakesPrintable (raw : Char → Option Nat) : Prop :=
  ∀ c, 32 ≤ c.toNat → c.toNat < 127 → raw c = some c.toNat

theorem readString_escapeChar (hraw : TakesPrintable raw) (c : Char) (cs : List Char) :
    readString raw (escapeChar c ++ cs) =
      (readString raw cs).map fun p => (charUnits c ++ p.1, p.2) := by
  have hmax := char_lt c
  unfold escapeChar
  split
  · rfl
  · rfl
  · rfl
  · rfl
  · rfl
  · rfl
  · rfl
  · rename_i hquote hbackslash _ _ _ _ _
    split
    · rename_i hplain
      rw [List.singleton_append,
        readString_cons hquote hbackslash (hraw c hplain.1 hplain.2), charUnits,
        if_pos (by omega)]
      rfl
    · split
      · rename_i hsmall
        rw [readString_escapeUnit hsmall, charUnits, if_pos hsmall]
        rfl
      · rename_i hlarge
        rw [List.append_assoc, readString_escapeUnit (by omega), readString_escapeUnit (by omega),
          Option.map_map, charUnits, if_neg hlarge]
        rfl

theorem readString_escaped (hraw : TakesPrintable raw) (cs rest : List Char) :
    readString raw (cs.flatMap escapeChar ++ '"' :: rest) =
      some (cs.flatMap charUnits, rest) := by
  induction cs with
  | nil => simp [readString]
  | cons c cs ih =>
      rw [List.flatMap_cons, List.append_assoc, readString_escapeChar hraw, ih]
      rfl

end Strings

theorem joinSurrogates_cons {n : Nat} (h : isHighSurrogate n = false) (ns : List Nat) :
    joinSurrogates (n :: ns) = n :: joinSurrogates ns := by
  cases ns with
  | nil => rfl
  | cons low ns => simp [joinSurrogates, h]

theorem joinSurrogates_charUnits (c : Char) (ns : List Nat) :
    joinSurrogates (charUnits c ++ ns) = c.toNat :: joinSurrogates ns := by
  have hmax := char_lt c
  unfold charUnits
  split
  · rw [List.singleton_append, joinSurrogates_cons (not_surrogate c).1]
  · have hhigh : isHighSurrogate (0xD800 + (c.toNat - 0x10000) / 0x400) = true := by
      simp only [isHighSurrogate, Bool.and_eq_true, decide_eq_true_eq]
      omega
    have hlow : isLowSurrogate (0xDC00 + (c.toNat - 0x10000) % 0x400) = true := by
      simp only [isLowSurrogate, Bool.and_eq_true, decide_eq_true_eq]
      omega
    have hjoin : joinPair (0xD800 + (c.toNat - 0x10000) / 0x400)
        (0xDC00 + (c.toNat - 0x10000) % 0x400) = c.toNat := by
      unfold joinPair
      omega
    simp only [List.cons_append, List.nil_append, joinSurrogates, hhigh, hlow, Bool.and_self,
      if_true, hjoin]

theorem joinSurrogates_flatMap (cs : List Char) :
    joinSurrogates (cs.flatMap charUnits) = cs.map Char.toNat := by
  induction cs with
  | nil => rfl
  | cons c cs ih => rw [List.flatMap_cons, joinSurrogates_charUnits, ih, List.map_cons]

/-- The reader gives back the texts that were written. -/
structure TextReader.Reads (r : TextReader) : Prop where
  raw : TakesPrintable r.raw
  text : ∀ s : String, r.text (s.toList.flatMap charUnits) = s

theorem rawPoint_takes : TakesPrintable TextReader.rawPoint :=
  fun _ hlow _ => if_neg (by omega)

theorem plain_reads : TextReader.plain.Reads where
  raw := rawPoint_takes
  text s := by
    have hpoints : (s.toList.map Char.toNat).map pointChar = s.toList := by
      rw [List.map_map]
      exact (List.map_congr_left fun c _ => pointChar_toNat c).trans (List.map_id _)
    exact (congrArg (fun points => String.ofList (points.map pointChar))
      (joinSurrogates_flatMap s.toList)).trans (by rw [hpoints, String.ofList_toList])

theorem decoded_reads {text : List Nat → String}
    (htext : ∀ s : String, text (s.toList.map Char.toNat) = s) :
    (TextReader.decoded text).Reads where
  raw := by
    intro c hlow hhigh
    have hne : c ≠ standIn := by
      rintro rfl
      exact absurd hlow (by decide)
    exact (if_neg hne).trans (rawPoint_takes c hlow hhigh)
  text s := (congrArg text (joinSurrogates_flatMap s.toList)).trans (htext s)

theorem readText_dumpsText {r : TextReader} (hr : r.Reads) (s : String) (rest : List Char) :
    readText r (s.toList.flatMap escapeChar ++ '"' :: rest) = some (s, rest) := by
  rw [readText, readString_escaped hr.raw, Option.map_some, hr.text]

theorem dumpsText_append (s : String) (rest : List Char) :
    dumpsText s ++ rest = '"' :: (s.toList.flatMap escapeChar ++ '"' :: rest) := by
  simp [dumpsText]

theorem skipSpaces_space (cs : List Char) : skipSpaces (' ' :: cs) = skipSpaces cs := by
  simp [skipSpaces, isSpace]

end JsonText

/-! ## Values -/

namespace JsonTree

open JsonText

theorem dumps_start (v : JsonTree) :
    ∃ c cs, dumps v = c :: cs ∧ isSpace c = false ∧ c ≠ ']' := by
  cases v with
  | null => exact ⟨'n', "ull".toList, rfl, by decide, by decide⟩
  | bool value =>
      cases value with
      | true => exact ⟨'t', "rue".toList, rfl, by decide, by decide⟩
      | false => exact ⟨'f', "alse".toList, rfl, by decide, by decide⟩
  | text value => exact ⟨'"', _, rfl, by decide, by decide⟩
  | arr elements => exact ⟨'[', _, rfl, by decide, by decide⟩
  | obj members => exact ⟨'\x7b', _, rfl, by decide, by decide⟩

theorem dumpsElements_start (v : JsonTree) (vs : List JsonTree) :
    ∃ c cs, dumpsElements (v :: vs) = c :: cs ∧ isSpace c = false ∧ c ≠ ']' := by
  obtain ⟨c, cs, hstart, hspace, hclose⟩ := dumps_start v
  cases vs with
  | nil => exact ⟨c, cs, by rw [dumpsElements, hstart], hspace, hclose⟩
  | cons w vs => exact ⟨c, _, by rw [dumpsElements, hstart]; rfl, hspace, hclose⟩

theorem dumpsMembers_start (m : String × JsonTree) (ms : List (String × JsonTree)) :
    ∃ cs, dumpsMembers (m :: ms) = '"' :: cs := by
  cases ms <;> exact ⟨_, rfl⟩

theorem skipSpaces_elements (v : JsonTree) (vs : List JsonTree) (rest : List Char) :
    skipSpaces (dumpsElements (v :: vs) ++ rest) = dumpsElements (v :: vs) ++ rest := by
  obtain ⟨c, cs, hstart, hspace, -⟩ := dumpsElements_start v vs
  rw [hstart]
  exact skipSpaces_cons hspace _

theorem skipSpaces_members (m : String × JsonTree) (ms : List (String × JsonTree))
    (rest : List Char) :
    skipSpaces (dumpsMembers (m :: ms) ++ rest) = dumpsMembers (m :: ms) ++ rest := by
  obtain ⟨cs, hstart⟩ := dumpsMembers_start m ms
  rw [hstart]
  exact skipSpaces_cons (by decide) _

theorem skipSpaces_dumps (v : JsonTree) (rest : List Char) :
    skipSpaces (dumps v ++ rest) = dumps v ++ rest := by
  obtain ⟨c, cs, hstart, hspace, -⟩ := dumps_start v
  rw [hstart]
  exact skipSpaces_cons hspace _

section Reader

variable {r : TextReader}

theorem readElements_cons {fuel : Nat} {cs : List Char} {v : Json} {rest : List Char}
    (h : readValue r fuel cs = some (v, rest)) :
    readElements r (fuel + 1) cs =
      match skipSpaces rest with
      | ']' :: rest => some ([v], rest)
      | ',' :: rest =>
          (readElements r fuel (skipSpaces rest)).map fun q => (v :: q.1, q.2)
      | _ => none := by
  rw [readElements, h]
  rfl

theorem readMembers_cons (hr : r.Reads) {fuel : Nat} {name : String} {cs : List Char} {v : Json}
    {rest : List Char} (h : readValue r fuel (skipSpaces cs) = some (v, rest)) :
    readMembers r (fuel + 1) (dumpsText name ++ ':' :: cs) =
      match skipSpaces rest with
      | '\x7d' :: rest => some ([(name, v)], rest)
      | ',' :: rest =>
          (readMembers r fuel (skipSpaces rest)).map fun q => ((name, v) :: q.1, q.2)
      | _ => none := by
  rw [dumpsText_append, readMembers]
  simp only [readText_dumpsText hr, Option.bind_some]
  rw [skipSpaces_cons (by decide)]
  simp only [h]
  rfl

theorem readValue_arr {fuel : Nat} {c : Char} {cs : List Char} (hspace : isSpace c = false)
    (hclose : c ≠ ']') :
    readValue r (fuel + 1) ('[' :: c :: cs) =
      (readElements r fuel (c :: cs)).map fun p => (.arr p.1, p.2) := by
  rw [readValue, skipSpaces_cons hspace]
  split
  · rename_i heq
    exact absurd (List.cons.inj heq).1 hclose
  · rfl

theorem readValue_obj {fuel : Nat} {cs : List Char} :
    readValue r (fuel + 1) ('\x7b' :: '"' :: cs) =
      (readMembers r fuel ('"' :: cs)).map fun p => (.obj p.1, p.2) := by
  rw [readValue, skipSpaces_cons (by decide)]
  rfl

mutual

theorem readValue_dumps (hr : r.Reads) : (v : JsonTree) → (fuel : Nat) → (dumps v).length ≤ fuel →
    (rest : List Char) → readValue r fuel (dumps v ++ rest) = some (v.json, rest)
  | v, 0, h, rest => by
      obtain ⟨c, cs, hstart, -⟩ := dumps_start v
      simp [hstart] at h
  | .null, fuel + 1, h, rest => rfl
  | .bool true, fuel + 1, h, rest => rfl
  | .bool false, fuel + 1, h, rest => rfl
  | .text s, fuel + 1, h, rest => by
      rw [dumps, dumpsText_append, readValue, readText_dumpsText hr]
      rfl
  | .arr [], fuel + 1, h, rest => rfl
  | .arr (v :: vs), fuel + 1, h, rest => by
      have hlength : (dumpsElements (v :: vs)).length < fuel := by
        simp only [dumps, List.length_cons, List.length_append, List.length_nil] at h
        omega
      have hread := readElements_dumps hr v vs fuel hlength rest
      obtain ⟨c, cs, hstart, hspace, hclose⟩ := dumpsElements_start v vs
      have htext : dumps (.arr (v :: vs)) ++ rest = '[' :: c :: (cs ++ ']' :: rest) := by
        simp [dumps, hstart]
      rw [hstart, List.cons_append] at hread
      rw [htext, readValue_arr hspace hclose, hread]
      rfl
  | .obj [], fuel + 1, h, rest => rfl
  | .obj (m :: ms), fuel + 1, h, rest => by
      have hlength : (dumpsMembers (m :: ms)).length < fuel := by
        simp only [dumps, List.length_cons, List.length_append, List.length_nil] at h
        omega
      have hread := readMembers_dumps hr m ms fuel hlength rest
      obtain ⟨cs, hstart⟩ := dumpsMembers_start m ms
      have htext : dumps (.obj (m :: ms)) ++ rest =
          '\x7b' :: '"' :: (cs ++ '\x7d' :: rest) := by simp [dumps, hstart]
      rw [hstart, List.cons_append] at hread
      rw [htext, readValue_obj, hread]
      rfl

theorem readElements_dumps (hr : r.Reads) : (v : JsonTree) → (vs : List JsonTree) → (fuel : Nat) →
    (dumpsElements (v :: vs)).length < fuel → (rest : List Char) →
    readElements r fuel (dumpsElements (v :: vs) ++ ']' :: rest) =
      some (jsonElements (v :: vs), rest)
  | v, [], fuel + 1, h, rest => by
      have hread := readValue_dumps hr v fuel (Nat.lt_succ_iff.mp h) (']' :: rest)
      rw [dumpsElements, readElements_cons hread, skipSpaces_cons (by decide)]
      rfl
  | v, w :: vs, fuel + 1, h, rest => by
      have hlength : (dumps v).length ≤ fuel ∧ (dumpsElements (w :: vs)).length < fuel := by
        simp only [dumpsElements, List.length_append, List.length_cons] at h
        omega
      have hread := readValue_dumps hr v fuel hlength.1
        (',' :: ' ' :: (dumpsElements (w :: vs) ++ ']' :: rest))
      have hrest := readElements_dumps hr w vs fuel hlength.2 rest
      have htext : dumpsElements (v :: w :: vs) ++ ']' :: rest =
          dumps v ++ ',' :: ' ' :: (dumpsElements (w :: vs) ++ ']' :: rest) := by
        simp [dumpsElements]
      rw [htext, readElements_cons hread, skipSpaces_cons (by decide)]
      simp only [skipSpaces_space, skipSpaces_elements, hrest]
      rfl

theorem readMembers_dumps (hr : r.Reads) : (m : String × JsonTree) → (ms : List (String × JsonTree)) →
    (fuel : Nat) → (dumpsMembers (m :: ms)).length < fuel → (rest : List Char) →
    readMembers r fuel (dumpsMembers (m :: ms) ++ '\x7d' :: rest) =
      some (jsonMembers (m :: ms), rest)
  | (name, v), [], fuel + 1, h, rest => by
      have hlength : (dumps v).length ≤ fuel := by
        simp only [dumpsMembers, List.length_append, List.length_cons] at h
        omega
      have hread := readValue_dumps hr v fuel hlength ('\x7d' :: rest)
      rw [← skipSpaces_dumps, ← skipSpaces_space] at hread
      have htext : dumpsMembers [(name, v)] ++ '\x7d' :: rest =
          dumpsText name ++ ':' :: ' ' :: (dumps v ++ '\x7d' :: rest) := by
        simp [dumpsMembers]
      rw [htext, readMembers_cons hr hread, skipSpaces_cons (by decide)]
      rfl
  | (name, v), m :: ms, fuel + 1, h, rest => by
      have hlength : (dumps v).length ≤ fuel ∧ (dumpsMembers (m :: ms)).length < fuel := by
        simp only [dumpsMembers, List.length_append, List.length_cons] at h
        omega
      have hread := readValue_dumps hr v fuel hlength.1
        (',' :: ' ' :: (dumpsMembers (m :: ms) ++ '\x7d' :: rest))
      rw [← skipSpaces_dumps, ← skipSpaces_space] at hread
      have hrest := readMembers_dumps hr m ms fuel hlength.2 rest
      have htext : dumpsMembers ((name, v) :: m :: ms) ++ '\x7d' :: rest =
          dumpsText name ++ ':' :: ' ' ::
            (dumps v ++ ',' :: ' ' :: (dumpsMembers (m :: ms) ++ '\x7d' :: rest)) := by
        simp [dumpsMembers]
      rw [htext, readMembers_cons hr hread, skipSpaces_cons (by decide)]
      simp only [skipSpaces_space, skipSpaces_members, hrest]
      rfl

end

/-- `json.loads(json.dumps(v))`. -/
theorem parseWith_dumps (hr : r.Reads) (v : JsonTree) :
    parseWith r (dumps v) = some v.json := by
  have hread := readValue_dumps hr v (2 * (dumps v).length + 1) (by omega) []
  have hspaces := skipSpaces_dumps v []
  rw [List.append_nil] at hread hspaces
  rw [parseWith, hspaces, hread]
  rfl

end Reader

theorem parse_dumps (v : JsonTree) : parse (dumps v) = some v.json :=
  parseWith_dumps plain_reads v

end JsonTree

/-! ## Dicts of texts -/

namespace JsonText

theorem dumpsMembers_eq (members : List (String × String)) :
    dumpsMembers members =
      JsonTree.dumpsMembers (members.map fun m => (m.1, .text m.2)) := by
  induction members with
  | nil => rfl
  | cons m ms ih =>
      cases ms with
      | nil => rfl
      | cons m' ms =>
          simp only [dumpsMembers, dumpsMember, ih, List.map_cons, JsonTree.dumpsMembers,
            JsonTree.dumps, List.append_assoc, List.cons_append]

theorem jsonMembers_texts (members : List (String × String)) :
    JsonTree.jsonMembers (members.map fun m => (m.1, .text m.2)) =
      members.map fun m => (m.1, .str m.2) := by
  induction members with
  | nil => rfl
  | cons m ms ih => rw [List.map_cons, JsonTree.jsonMembers, ih]; rfl

theorem parseWith_members {r : TextReader} (hr : r.Reads)
    (members : List (String × String)) :
    parseWith r (dumps members) = some (.obj (members.map fun m => (m.1, .str m.2))) := by
  have hread := JsonTree.parseWith_dumps hr (.obj (members.map fun m => (m.1, .text m.2)))
  rwa [JsonTree.dumps, ← dumpsMembers_eq, JsonTree.json, jsonMembers_texts] at hread

theorem parse_dumps (members : List (String × String)) :
    parse (dumps members) = some (.obj (members.map fun m => (m.1, .str m.2))) :=
  parseWith_members plain_reads members

/-- A dict of plain texts comes back from its encoded text. -/
theorem loads_dumps {text : List Nat → String}
    (htext : ∀ s : String, text (s.toList.map Char.toNat) = s)
    {members : List (String × String)} (hplain : ∀ m ∈ members, Plain m.1 ∧ Plain m.2) :
    loads text (asciiBytes (dumps members)) =
      some (.obj (members.map fun m => (m.1, .str m.2))) := by
  have hascii : ∀ c ∈ dumps members, 32 ≤ c.toNat ∧ c.toNat < 127 := by
    intro c hc
    simp only [dumps, List.mem_cons, List.mem_append, List.not_mem_nil,
      or_false] at hc
    rcases hc with rfl | hc | rfl
    · decide
    · exact mem_dumpsMembers hplain hc
    · decide
  rw [loads, decodeBytes_asciiBytes hascii, Option.bind_some,
    parseWith_members (decoded_reads htext)]

end JsonText

end IsolatedEnv.Foundation
