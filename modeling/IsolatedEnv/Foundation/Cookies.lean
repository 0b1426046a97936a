import IsolatedEnv.Foundation.Octets
import IsolatedEnv.Foundation.Uuid
import Mathlib.Data.List.TakeWhile

/-!
# Cookies on the wire

A header is a line of octets, each written as the Latin-1 character of its number;
so a server that decodes headers as Latin-1 reads the line itself, and one that
encodes a text writes its UTF-8 octets.  A user agent takes a `Set-Cookie` line apart
as RFC 6265 prescribes in section 5.2 and sends the cookie back by section 5.4.
The server reads it with Starlette's parser, which undoes the quoting of Python's
`http.cookies`.
-/

namespace IsolatedEnv.Foundation

/-! ## Octets -/

section Octets

variable {c : Char} {cs : List Char}

theorem toNat_octet {n : Nat} (h : n < 256) : (Char.ofNat n).toNat = n := by
  rw [Char.ofNat, dif_pos (Or.inl (by omega))]
  rfl

theorem utf8_other (h : ¬c.toNat < 128) :
    ∃ lead tail tails, utf8 c = lead :: tail :: tails ∧ 0xC0 ≤ lead.toNat ∧
      (∀ t ∈ tail :: tails, 128 ≤ t.toNat) ∧
      (lead = c → c.toNat = 0xC3 ∧ tail.toNat = 0x83) := by
  have hmax : c.toNat < 0x110000 := by
    have hvalid := c.valid
    unfold UInt32.isValidChar Nat.isValidChar at hvalid
    change c.toNat < 0xD800 ∨ 0xDFFF < c.toNat ∧ c.toNat < 0x110000 at hvalid
    omega
  unfold utf8
  dsimp only
  rw [if_neg h]
  split
  · have hlead : (Char.ofNat (0xC0 + c.toNat / 64)).toNat = 0xC0 + c.toNat / 64 :=
      toNat_octet (by omega)
    have htail : (Char.ofNat (0x80 + c.toNat % 64)).toNat = 0x80 + c.toNat % 64 :=
      toNat_octet (by omega)
    refine ⟨_, _, _, rfl, by omega, ?_, fun heq => ?_⟩
    · simp only [List.forall_mem_singleton]
      omega
    · rw [heq] at hlead
      omega
  · split
    · have hlead : (Char.ofNat (0xE0 + c.toNat / 4096)).toNat = 0xE0 + c.toNat / 4096 :=
        toNat_octet (by omega)
      have htail := toNat_octet (n := 0x80 + c.toNat / 64 % 64) (by omega)
      have htail' := toNat_octet (n := 0x80 + c.toNat % 64) (by omega)
      refine ⟨_, _, _, rfl, by omega, ?_, fun heq => ?_⟩
      · simp only [List.forall_mem_cons, List.not_mem_nil, false_imp_iff, implies_true,
          and_true]
        omega
      · rw [heq] at hlead
        omega
    · have hlead : (Char.ofNat (0xF0 + c.toNat / 262144)).toNat = 0xF0 + c.toNat / 262144 :=
        toNat_octet (by omega)
      have htail := toNat_octet (n := 0x80 + c.toNat / 4096 % 64) (by omega)
      have htail' := toNat_octet (n := 0x80 + c.toNat / 64 % 64) (by omega)
      have htail'' := toNat_octet (n := 0x80 + c.toNat % 64) (by omega)
      refine ⟨_, _, _, rfl, by omega, ?_, fun heq => ?_⟩
      · simp only [List.forall_mem_cons, List.not_mem_nil, false_imp_iff, implies_true,
          and_true]
        omega
      · rw [heq] at hlead
        omega

theorem encodeUtf8_eq_append_cons {d : Char} (hd : d.toNat < 128) {before after : List Char}
    (h : encodeUtf8 cs = before ++ d :: after) :
    ∃ as bs, cs = as ++ d :: bs ∧ encodeUtf8 as = before ∧ encodeUtf8 bs = after := by
  induction cs generalizing before with
  | nil => simp [encodeUtf8] at h
  | cons c cs ih =>
      rw [encodeUtf8_cons] at h
      by_cases hc : c.toNat < 128
      · rw [utf8_ascii hc, List.singleton_append] at h
        cases before with
        | nil =>
            obtain ⟨rfl, rfl⟩ := List.cons.inj h
            exact ⟨[], cs, rfl, rfl, rfl⟩
        | cons b before =>
            obtain ⟨rfl, htail⟩ := List.cons.inj h
            obtain ⟨as, bs, rfl, rfl, hbs⟩ := ih htail
            exact ⟨c :: as, bs, rfl, by rw [encodeUtf8_cons, utf8_ascii hc]; rfl, hbs⟩
      · have hlate : ∀ x ∈ utf8 c, x ≠ d := by
          obtain ⟨lead, tail, tails, hutf8, hlead, htails, -⟩ := utf8_other hc
          rw [hutf8]
          rintro x hx rfl
          rcases List.mem_cons.mp hx with rfl | hx
          · omega
          · have htail := htails x hx
            omega
        rcases List.append_eq_append_iff.mp h with ⟨rest, rfl, hrest⟩ | ⟨rest, hutf8, hrest⟩
        · obtain ⟨as, bs, rfl, rfl, hbs⟩ := ih hrest
          exact ⟨c :: as, bs, rfl, encodeUtf8_cons, hbs⟩
        · cases rest with
          | nil =>
              rw [List.nil_append] at hrest
              obtain ⟨as, bs, rfl, has, hbs⟩ :=
                ih (show encodeUtf8 cs = [] ++ d :: after from hrest.symm)
              refine ⟨c :: as, bs, rfl, ?_, hbs⟩
              rw [encodeUtf8_cons, has, hutf8, List.append_nil, List.append_nil]
          | cons x rest =>
              obtain ⟨rfl, -⟩ := List.cons.inj hrest
              exact absurd rfl (hlate d (by simp [hutf8]))

theorem encodeUtf8_eq_cons {d : Char} (hd : d.toNat < 128) {after : List Char}
    (h : encodeUtf8 cs = d :: after) : ∃ bs, cs = d :: bs ∧ encodeUtf8 bs = after := by
  cases cs with
  | nil => cases h
  | cons c cs =>
      rw [encodeUtf8_cons] at h
      by_cases hc : c.toNat < 128
      · rw [utf8_ascii hc] at h
        obtain ⟨rfl, hafter⟩ := List.cons.inj h
        exact ⟨cs, rfl, hafter⟩
      · obtain ⟨lead, tail, tails, hutf8, hlead, -, -⟩ := utf8_other hc
        rw [hutf8] at h
        obtain ⟨rfl, -⟩ := List.cons.inj h
        omega

end Octets

/-! ## The user agent -/

namespace Cookies

/-- What is before the first separator, and what is after it. -/
def cut (separator : Char) : List Char → List Char × Option (List Char)
  | [] => ([], none)
  | c :: cs =>
      if c = separator then ([], some cs)
      else (c :: (cut separator cs).1, (cut separator cs).2)

def isWsp (c : Char) : Bool := c = ' ' || c = '\t'

/--
`SameSite` is recognised as by later revisions.  A path of `none` is the default
path; the dates, numbers and hosts in the other values are not read further.
-/
inductive Attribute where
  | expires (value : String)
  | maxAge (value : String)
  | domain (value : String)
  | path (value : Option String)
  | secure
  | httpOnly
  | sameSite (value : String)
  deriving DecidableEq, Repr

/-- An attribute with a name that is not recognised is ignored. -/
def readAttribute (av : List Char) : Option Attribute :=
  let name := String.ofList ((stripChars isWsp (cut '=' av).1).map Char.toLower)
  let value := stripChars isWsp ((cut '=' av).2.getD [])
  if name = "expires" then some (.expires (String.ofList value))
  else if name = "max-age" then some (.maxAge (String.ofList value))
  else if name = "domain" then some (.domain (String.ofList value))
  else if name = "path" then
    some (.path (if value.head? = some '/' then some (String.ofList value) else none))
  else if name = "secure" then some .secure
  else if name = "httponly" then some .httpOnly
  else if name = "samesite" then some (.sameSite (String.ofList value))
  else none

structure SetCookie where
  name : List Char
  value : List Char
  attributes : List Attribute
  deriving DecidableEq

/-- `none` where the line is to be ignored. -/
def parseSetCookie (line : List Char) : Option SetCookie :=
  match line.splitOn ';' with
  | [] => none
  | pair :: avs =>
      match cut '=' pair with
      | (_, none) => none
      | (name, some value) =>
          if stripChars isWsp name = [] then none
          else some ⟨stripChars isWsp name, stripChars isWsp value,
            avs.filterMap readAttribute⟩

/-- The `Cookie` line with this cookie alone. -/
def cookieString (c : SetCookie) : List Char := c.name ++ '=' :: c.value

/-! ## The server -/

def octalDigit (c : Char) : Bool := '0' ≤ c && c ≤ '7'

/-- Three octal digits off the front, the first at most 3. -/
def readOctal : List Char → Option (Char × List Char)
  | a :: b :: c :: cs =>
      if octalDigit a && a ≤ '3' && octalDigit b && octalDigit c then
        some (Char.ofNat (64 * (a.toNat - 48) + 8 * (b.toNat - 48) + (c.toNat - 48)), cs)
      else none
  | _ => none

/-- A backslash before octal digits, or before anything but a line feed. -/
def unescape : List Char → List Char
  | '\\' :: a :: b :: c :: cs =>
      match readOctal [a, b, c] with
      | some (d, _) => d :: unescape cs
      | none =>
          if a = '\n' then '\\' :: unescape (a :: b :: c :: cs)
          else a :: unescape (b :: c :: cs)
  | '\\' :: a :: cs =>
      if a = '\n' then '\\' :: unescape (a :: cs) else a :: unescape cs
  | c :: cs => c :: unescape cs
  | [] => []

def Quoted (cs : List Char) : Prop :=
  2 ≤ cs.length ∧ cs.head? = some '"' ∧ cs.getLast? = some '"'

instance quotedDecidable (cs : List Char) : Decidable (Quoted cs) :=
  inferInstanceAs (Decidable (_ ∧ _))

/-- `http.cookies._unquote`. -/
def unquote (cs : List Char) : List Char :=
  if Quoted cs then unescape cs.tail.dropLast else cs

def readChunk (chunk : List Char) : Option (String × String) :=
  let (key, value) := match cut '=' chunk with
    | (key, some value) => (stripChars isSpace key, stripChars isSpace value)
    | (value, none) => ([], stripChars isSpace value)
  if key = [] ∧ value = [] then none
  else some (String.ofList key, String.ofList (unquote value))

/-- `cookie_parser`, the last binding of a name first. -/
def readCookies (header : List Char) : List (String × String) :=
  ((header.splitOn ';').filterMap readChunk).reverse

/-! ## Splitting and stripping -/

section Texts

variable {c sep : Char} {cs ds : List Char} {p : Char → Bool}

theorem cut_append (h : sep ∉ cs) : cut sep (cs ++ sep :: ds) = (cs, some ds) := by
  induction cs with
  | nil => simp [cut]
  | cons c cs ih =>
      rw [List.mem_cons, not_or] at h
      rw [List.cons_append, cut, if_neg (Ne.symm h.1), ih h.2]

theorem splitOn_append (h : sep ∉ cs) (ds : List Char) :
    (cs ++ ds).splitOn sep = (ds.splitOn sep).modifyHead (cs ++ ·) := by
  induction cs with
  | nil => cases hsplit : ds.splitOn sep <;> simp [hsplit]
  | cons c cs ih =>
      rw [List.mem_cons, not_or] at h
      have hne : ¬(c == sep) = true := by simpa using Ne.symm h.1
      have ih' := ih h.2
      rw [List.splitOn_eq_splitOnP] at ih' ⊢
      rw [List.cons_append, List.splitOnP_cons_eq_if_modifyHead, if_neg hne, ih']
      cases ds.splitOn sep <;> rfl

theorem splitOn_cons_separator (before after : List Char) :
    (before ++ sep :: after).splitOn sep = before.splitOn sep ++ after.splitOn sep := by
  simp only [List.splitOn_eq_splitOnP]
  exact List.splitOnP_append_cons _ _ (by simp)

theorem splitOn_of_notMem (h : sep ∉ cs) : cs.splitOn sep = [cs] := by
  rw [List.splitOn_eq_splitOnP]
  refine List.splitOnP_eq_singleton fun c hc => ?_
  rw [beq_eq_false_iff_ne]
  rintro rfl
  exact h hc

theorem splitOn_eq_cons (sep : Char) (cs : List Char) :
    ∃ after, cs.splitOn sep = cs.takeWhile (· ≠ sep) :: after := by
  induction cs with
  | nil => exact ⟨[], rfl⟩
  | cons c cs ih =>
      obtain ⟨after, hafter⟩ := ih
      rw [List.splitOn_eq_splitOnP] at hafter ⊢
      rw [List.splitOnP_cons_eq_if_modifyHead]
      by_cases hc : c = sep
      · subst hc
        exact ⟨cs.splitOnP (· == c), by simp⟩
      · exact ⟨after, by simp [hc, hafter]⟩

/-- What is stripped off, and that nothing is left to strip. -/
theorem stripChars_spec (p : Char → Bool) (cs : List Char) :
    ∃ before after, cs = before ++ stripChars p cs ++ after ∧
      (∀ c ∈ before, p c = true) ∧ (∀ c ∈ after, p c = true) ∧
      (∀ c ∈ (stripChars p cs).head?, p c = false) ∧
      ∀ c ∈ (stripChars p cs).getLast?, p c = false := by
  have hfront := List.takeWhile_append_dropWhile (p := p) (l := cs)
  have hback := List.takeWhile_append_dropWhile (p := p) (l := (cs.dropWhile p).reverse)
  have hback' : cs.dropWhile p =
      stripChars p cs ++ ((cs.dropWhile p).reverse.takeWhile p).reverse := by
    have hreverse := congrArg List.reverse hback
    rw [List.reverse_append, List.reverse_reverse] at hreverse
    exact hreverse.symm
  refine ⟨cs.takeWhile p, ((cs.dropWhile p).reverse.takeWhile p).reverse, ?_, ?_, ?_, ?_, ?_⟩
  · rw [List.append_assoc, ← hback', hfront]
  · exact fun c hc => List.mem_takeWhile_imp hc
  · exact fun c hc => List.mem_takeWhile_imp (List.mem_reverse.mp hc)
  · intro c hc
    have hhead : (cs.dropWhile p).head? = some c := by
      rw [hback', List.head?_append, Option.mem_def.mp hc]
      rfl
    have hnot := List.head?_dropWhile_not p cs
    simpa [hhead] using hnot
  · intro c hc
    have hhead : ((cs.dropWhile p).reverse.dropWhile p).head? = some c := by
      rw [← List.getLast?_reverse]
      exact hc
    have hnot := List.head?_dropWhile_not p (cs.dropWhile p).reverse
    simpa [hhead] using hnot

theorem stripChars_append_left {before : List Char} (h : ∀ c ∈ before, p c = true)
    (cs : List Char) : stripChars p (before ++ cs) = stripChars p cs := by
  unfold stripChars
  rw [List.dropWhile_append_of_pos h]

theorem stripChars_append_right {after : List Char} (h : ∀ c ∈ after, p c = true)
    (cs : List Char) : stripChars p (cs ++ after) = stripChars p cs := by
  unfold stripChars
  rw [List.dropWhile_append]
  split
  · rename_i hempty
    rw [List.isEmpty_iff.mp hempty, List.dropWhile_eq_nil_iff.mpr h]
  · rw [List.reverse_append, List.dropWhile_append_of_pos fun c hc =>
      h c (List.mem_reverse.mp hc)]

/-- To strip less first makes no difference. -/
theorem stripChars_stripChars {q : Char → Bool} (h : ∀ c, q c = true → p c = true)
    (cs : List Char) : stripChars p (stripChars q cs) = stripChars p cs := by
  obtain ⟨before, after, hcs, hbefore, hafter, -⟩ := stripChars_spec q cs
  conv_rhs => rw [hcs]
  rw [stripChars_append_right fun c hc => h c (hafter c hc),
    stripChars_append_left fun c hc => h c (hbefore c hc)]

end Texts

/-! ## Undoing the quotes -/

section Unescape

variable {c : Char} {cs : List Char}

theorem unescape_cons (h : c ≠ '\\') : unescape (c :: cs) = c :: unescape cs := by
  rw [unescape] <;> simp [h]

theorem octalDigit_ascii (h : octalDigit c = true) : c.toNat < 128 := by
  simp only [octalDigit, Bool.and_eq_true, decide_eq_true_eq, Char.le_def,
    UInt32.le_iff_toNat_le] at h
  change 48 ≤ c.toNat ∧ c.toNat ≤ 55 at h
  omega

theorem readOctal_eq_some {d : Char} {rest : List Char}
    (h : readOctal cs = some (d, rest)) :
    ∃ x y z, cs = x :: y :: z :: rest ∧ Ascii [x, y, z] ∧
      readOctal [x, y, z] = some (d, []) := by
  rcases cs with _ | ⟨x, _ | ⟨y, _ | ⟨z, cs⟩⟩⟩
  · cases h
  · cases h
  · cases h
  · simp only [readOctal] at h
    split at h
    · rename_i hdigits
      simp only [Option.some.injEq, Prod.mk.injEq] at h
      obtain ⟨rfl, rfl⟩ := h
      simp only [Bool.and_eq_true] at hdigits
      obtain ⟨⟨⟨hx, hbound⟩, hy⟩, hz⟩ := hdigits
      refine ⟨x, y, z, rfl, ?_, ?_⟩
      · simp only [Ascii, List.forall_mem_cons, List.not_mem_nil, false_imp_iff,
          implies_true, and_true]
        exact ⟨octalDigit_ascii hx, octalDigit_ascii hy, octalDigit_ascii hz⟩
      · simp only [readOctal, hx, hbound, hy, hz, Bool.and_true, if_true]
    · cases h

theorem unescape_octal {d : Char} {rest : List Char} (h : readOctal cs = some (d, rest)) :
    unescape ('\\' :: cs) = d :: unescape rest := by
  obtain ⟨x, y, z, rfl, -, hread⟩ := readOctal_eq_some h
  rw [unescape, hread]

theorem readOctal_three (x y z : Char) :
    readOctal (x :: y :: z :: cs) = none ↔ readOctal [x, y, z] = none := by
  simp only [readOctal]
  split <;> simp

theorem unescape_other : readOctal cs = none → unescape ('\\' :: cs) =
    match cs with
    | [] => ['\\']
    | a :: rest => if a = '\n' then '\\' :: unescape (a :: rest) else a :: unescape rest := by
  intro h
  rcases cs with _ | ⟨x, _ | ⟨y, _ | ⟨z, cs⟩⟩⟩
  · rfl
  · rfl
  · rfl
  · rw [unescape, (readOctal_three x y z).mp h]

/--
A text that is undone to itself with something before and after it: what comes
before is put off from character to character and never used up.
-/
theorem unescape_encodeUtf8_ne (front back w : List Char)
    (hfront : front ≠ []) (hascii : Ascii front) (hback : back ≠ []) :
    unescape (encodeUtf8 w) ≠ front ++ w ++ back := by
  induction hlength : w.length using Nat.strong_induction_on generalizing front w with
  | _ n ih =>
      obtain ⟨x, front, rfl⟩ := List.exists_cons_of_ne_nil hfront
      have hx : x.toNat < 128 := hascii x List.mem_cons_self
      -- what was consumed joins what is still to come out
      have hstep (consumed rest : List Char) (hw : w = consumed ++ rest)
          (hconsumed : consumed ≠ []) (hplain : Ascii consumed) (out : Char) :
          out :: unescape (encodeUtf8 rest) ≠ x :: front ++ w ++ back := by
        intro heq
        have htail := (List.cons.inj heq).2
        have hshort : rest.length < n := by
          have hpositive := List.length_pos_of_ne_nil hconsumed
          rw [← hlength, hw, List.length_append]
          omega
        refine ih _ hshort (front ++ consumed) rest (by simp [hconsumed]) ?_ rfl ?_
        · intro c hc
          rcases List.mem_append.mp hc with hc | hc
          · exact hascii c (List.mem_cons_of_mem x hc)
          · exact hplain c hc
        · rw [htail, hw]
          simp
      -- an octet that is not ASCII does not come out where one that is must
      have hlate (out : Char) (hout : 128 ≤ out.toNat) (rest : List Char) :
          out :: rest ≠ x :: front ++ w ++ back := by
        intro heq
        have hhead := (List.cons.inj heq).1
        rw [hhead] at hout
        omega
      cases w with
      | nil => simp [encodeUtf8, unescape]
      | cons c w =>
          rw [encodeUtf8_cons]
          by_cases hc : c.toNat < 128
          · rw [utf8_ascii hc, List.singleton_append]
            by_cases hbackslash : c = '\\'
            · subst hbackslash
              cases hoctal : readOctal (encodeUtf8 w) with
              | some p =>
                  obtain ⟨d, rest⟩ := p
                  rw [unescape_octal hoctal]
                  obtain ⟨x', y, z, hw, hdigits, -⟩ := readOctal_eq_some hoctal
                  simp only [Ascii, List.forall_mem_cons, List.not_mem_nil,
                    false_imp_iff, implies_true, and_true] at hdigits
                  obtain ⟨w₁, rfl, hw₁⟩ := encodeUtf8_eq_cons hdigits.1 hw
                  obtain ⟨w₂, rfl, hw₂⟩ := encodeUtf8_eq_cons hdigits.2.1 hw₁
                  obtain ⟨w₃, rfl, rfl⟩ := encodeUtf8_eq_cons hdigits.2.2 hw₂
                  refine hstep ['\\', x', y, z] w₃ rfl (by simp) ?_ d
                  simpa [Ascii] using hdigits
              | none =>
                  rw [unescape_other hoctal]
                  cases hw : encodeUtf8 w with
                  | nil =>
                      intro heq
                      have hlengths := congrArg List.length heq
                      have hpositive := List.length_pos_of_ne_nil hback
                      simp only [List.length_append, List.length_cons, List.length_nil]
                        at hlengths
                      omega
                  | cons a rest =>
                      dsimp only
                      by_cases ha : a.toNat < 128
                      · obtain ⟨w', rfl, rfl⟩ := encodeUtf8_eq_cons ha hw
                        by_cases hfeed : a = '\n'
                        · rw [if_pos hfeed, ← hw]
                          exact hstep ['\\'] _ rfl (by simp) (by simp [Ascii]) '\\'
                        · rw [if_neg hfeed]
                          refine hstep ['\\', a] w' rfl (by simp) ?_ a
                          simpa [Ascii] using ha
                      · have hfeed : a ≠ '\n' := by
                          rintro rfl
                          exact absurd (by decide) ha
                        rw [if_neg hfeed]
                        exact hlate a (by omega) _
            · rw [unescape_cons hbackslash]
              exact hstep [c] w rfl (by simp) (by simpa [Ascii] using hc) c
          · obtain ⟨lead, tail, tails, hutf8, hlead, -, -⟩ := utf8_other hc
            have hne : lead ≠ '\\' := by
              rintro rfl
              exact absurd hlead (by decide)
            rw [hutf8, List.cons_append, unescape_cons hne]
            exact hlate lead (by omega) _

end Unescape

/-! ## Values that come back -/

section Values

variable {c : Char} {v w p r : List Char}

theorem isSpace_lead (h : 0xC0 ≤ c.toNat) : isSpace c = false := by
  have hblank : c ≠ ' ' := by
    rintro rfl
    exact absurd h (by decide)
  simp only [isSpace, Bool.or_eq_false_iff, Bool.and_eq_false_iff, decide_eq_false_iff_not]
  refine ⟨⟨⟨⟨hblank, ?_⟩, ?_⟩, ?_⟩, ?_⟩ <;> omega

/-- Octets that lag behind their characters never run out. -/
theorem lagging_ne (w : List Char) (hp : ∀ x ∈ p, 128 ≤ x.toNat)
    (hsolid : ∃ x ∈ p, isSpace x = false) (hr : ∀ x ∈ r, isSpace x = true) :
    p ++ encodeUtf8 w ≠ w ++ r := by
  induction w generalizing p with
  | nil =>
      intro heq
      rw [encodeUtf8, List.flatMap_nil, List.append_nil, List.nil_append] at heq
      subst heq
      obtain ⟨x, hx, hspace⟩ := hsolid
      rw [hr x hx] at hspace
      cases hspace
  | cons d w ih =>
      intro heq
      cases p with
      | nil =>
          obtain ⟨x, hx, -⟩ := hsolid
          cases hx
      | cons x p =>
          obtain ⟨rfl, htail⟩ := List.cons.inj heq
          have hx : ¬x.toNat < 128 := by
            have hle := hp x List.mem_cons_self
            omega
          obtain ⟨lead, tail, tails, hutf8, hlead, htails, -⟩ := utf8_other hx
          change p ++ encodeUtf8 (x :: w) = w ++ r at htail
          rw [encodeUtf8_cons, ← List.append_assoc, hutf8] at htail
          refine ih ?_ ⟨lead, by simp, isSpace_lead hlead⟩ htail
          intro y hy
          rcases List.mem_append.mp hy with hy | hy
          · exact hp y (List.mem_cons_of_mem x hy)
          · rcases List.mem_cons.mp hy with rfl | hy
            · omega
            · exact htails y hy

theorem ascii_of_encodeUtf8 (h : encodeUtf8 v = v ++ r)
    (hr : ∀ x ∈ r, isSpace x = true) : Ascii v := by
  induction v with
  | nil => exact fun c hc => absurd hc List.not_mem_nil
  | cons c v ih =>
      rw [encodeUtf8_cons] at h
      by_cases hc : c.toNat < 128
      · rw [utf8_ascii hc] at h
        have hrest := ih (List.cons.inj h).2
        intro d hd
        rcases List.mem_cons.mp hd with rfl | hd
        · exact hc
        · exact hrest d hd
      · obtain ⟨lead, tail, tails, hutf8, -, htails, hsame⟩ := utf8_other hc
        rw [hutf8] at h
        obtain ⟨hlead, hlag⟩ := List.cons.inj h
        have hsolid : isSpace tail = false := by
          have htail : tail = Char.ofNat 0x83 := by
            rw [← Char.ofNat_toNat tail, (hsame hlead).2]
          rw [htail]
          decide
        exact absurd hlag (lagging_ne v htails ⟨tail, by simp, hsolid⟩ hr)

theorem ascii_of_stripped (h : stripChars isSpace (encodeUtf8 v) = v) : Ascii v := by
  obtain ⟨before, after, heq, hbefore, hafter, hhead, -⟩ :=
    stripChars_spec isSpace (encodeUtf8 v)
  rw [h] at heq hhead
  cases v with
  | nil => exact fun c hc => absurd hc List.not_mem_nil
  | cons c v =>
      have hc := hhead c rfl
      cases before with
      | nil =>
          rw [List.nil_append] at heq
          exact ascii_of_encodeUtf8 heq hafter
      | cons b before =>
          have hspace := hbefore b List.mem_cons_self
          rw [encodeUtf8_cons] at heq
          by_cases hascii : c.toNat < 128
          · rw [utf8_ascii hascii] at heq
            have hhead := (List.cons.inj heq).1
            rw [← hhead, hc] at hspace
            cases hspace
          · obtain ⟨lead, tail, tails, hutf8, hlead, -, -⟩ := utf8_other hascii
            rw [hutf8] at heq
            have hhead := (List.cons.inj heq).1
            rw [← hhead, isSpace_lead hlead] at hspace
            cases hspace

/-- A value that neither end takes for more than its characters. -/
structure PlainValue (v : List Char) : Prop where
  ascii : Ascii v
  noSemicolon : ';' ∉ v
  trimmed : stripChars isSpace v = v
  unquoted : ¬Quoted v

/-- What the server reads when a value it has written is sent back. -/
def returned (v : List Char) : List Char :=
  unquote (stripChars isSpace ((encodeUtf8 v).takeWhile (· ≠ ';')))

theorem returned_plain (h : PlainValue v) : returned v = v := by
  have hall : v.takeWhile (· ≠ ';') = v := by
    rw [List.takeWhile_eq_self_iff]
    intro c hc
    rw [decide_eq_true_eq]
    rintro rfl
    exact h.noSemicolon hc
  rw [returned, encodeUtf8_ascii h.ascii, hall, h.trimmed, unquote, if_neg h.unquoted]

theorem takeWhile_encodeUtf8 (v : List Char) :
    (encodeUtf8 v).takeWhile (· ≠ ';') = encodeUtf8 (v.takeWhile (· ≠ ';')) := by
  induction v with
  | nil => rfl
  | cons c v ih =>
      rw [encodeUtf8_cons]
      by_cases hc : c.toNat < 128
      · rw [utf8_ascii hc]
        by_cases hsemicolon : c = ';'
        · simp [hsemicolon, encodeUtf8]
        · have hkeep (cs : List Char) : (c :: cs).takeWhile (· ≠ ';') =
              c :: cs.takeWhile (· ≠ ';') :=
            List.takeWhile_cons_of_pos (by simpa using hsemicolon)
          rw [List.singleton_append, hkeep, ih, hkeep, encodeUtf8_cons, utf8_ascii hc]
          rfl
      · obtain ⟨lead, tail, tails, hutf8, hlead, htails, -⟩ := utf8_other hc
        have hoctets : ∀ x ∈ utf8 c, decide (x ≠ ';') = true := by
          rw [hutf8]
          intro x hx
          rw [decide_eq_true_eq]
          rintro rfl
          rcases List.mem_cons.mp hx with rfl | hx
          · exact absurd hlead (by decide)
          · exact absurd (htails _ hx) (by decide)
        have hsemicolon : c ≠ ';' := by
          rintro rfl
          exact absurd (by decide) hc
        rw [List.takeWhile_append_of_pos hoctets, ih,
          List.takeWhile_cons_of_pos (by simpa using hsemicolon), encodeUtf8_cons]

theorem Quoted.eq (h : Quoted v) :
    ∃ inner, v = '"' :: (inner ++ ['"']) ∧ v.tail.dropLast = inner := by
  obtain ⟨hlength, hhead, hlast⟩ := h
  cases v with
  | nil => cases hhead
  | cons c v =>
      rw [List.head?_cons, Option.some.injEq] at hhead
      subst hhead
      have hne : v ≠ [] := by
        rintro rfl
        simp at hlength
      rw [List.getLast?_cons_of_ne_nil hne] at hlast
      have hsplit := List.dropLast_append_getLast? '"' hlast
      exact ⟨v.dropLast, by rw [hsplit], rfl⟩

theorem returned_quoted_ne
    (h : Quoted (stripChars isSpace (encodeUtf8 (v.takeWhile (· ≠ ';'))))) :
    unescape (stripChars isSpace
      (encodeUtf8 (v.takeWhile (· ≠ ';')))).tail.dropLast ≠ v := by
  obtain ⟨inner, hquoted, hinner⟩ := h.eq
  obtain ⟨before, after, hstrip, hbefore, -⟩ :=
    stripChars_spec isSpace (encodeUtf8 (v.takeWhile (· ≠ ';')))
  rw [hquoted, List.append_assoc, List.cons_append, List.append_assoc,
    List.singleton_append] at hstrip
  obtain ⟨front, rest, hfront, rfl, hrest⟩ :=
    encodeUtf8_eq_append_cons (by decide : '"'.toNat < 128) hstrip
  obtain ⟨w, back, rfl, rfl, -⟩ :=
    encodeUtf8_eq_append_cons (by decide : '"'.toNat < 128) hrest
  have hascii : Ascii front := by
    intro c hc
    by_contra hother
    obtain ⟨lead, tail, tails, hutf8, hlead, -, -⟩ := utf8_other hother
    have hmem : lead ∈ encodeUtf8 front :=
      List.mem_flatMap.mpr ⟨c, hc, by rw [hutf8]; exact List.mem_cons_self⟩
    have hspace := hbefore lead hmem
    rw [isSpace_lead hlead] at hspace
    cases hspace
  have hsplit := List.takeWhile_append_dropWhile (p := (· ≠ ';')) (l := v)
  rw [hfront] at hsplit
  rw [hinner]
  intro heq
  refine unescape_encodeUtf8_ne (front ++ ['"'])
    ('"' :: (back ++ v.dropWhile (· ≠ ';'))) w (by simp) ?_ (by simp) ?_
  · intro c hc
    rcases List.mem_append.mp hc with hc | hc
    · exact hascii c hc
    · rw [List.mem_singleton.mp hc]
      decide
  · rw [heq]
    conv_lhs => rw [← hsplit]
    simp

theorem plain_of_returned (h : returned v = v) : PlainValue v := by
  unfold returned unquote at h
  rw [takeWhile_encodeUtf8] at h
  split at h
  · rename_i hquoted
    exact absurd h (returned_quoted_ne hquoted)
  · rename_i hquoted
    have hnone : ';' ∉ v := by
      intro hmem
      obtain ⟨before, after, hstrip, -⟩ :=
        stripChars_spec isSpace (encodeUtf8 (v.takeWhile (· ≠ ';')))
      have hoctet : ';' ∈ (encodeUtf8 v).takeWhile (· ≠ ';') := by
        rw [takeWhile_encodeUtf8, hstrip, h]
        simp [hmem]
      have hne := List.mem_takeWhile_imp hoctet
      simp at hne
    have hall : v.takeWhile (· ≠ ';') = v := by
      rw [List.takeWhile_eq_self_iff]
      intro c hc
      rw [decide_eq_true_eq]
      rintro rfl
      exact hnone hc
    rw [hall] at h hquoted
    have hascii := ascii_of_stripped h
    rw [encodeUtf8_ascii hascii] at h hquoted
    rw [h] at hquoted
    exact ⟨hascii, hnone, h, hquoted⟩

theorem returned_eq_self_iff : returned v = v ↔ PlainValue v :=
  ⟨plain_of_returned, returned_plain⟩

end Values

end Cookies

end IsolatedEnv.Foundation
