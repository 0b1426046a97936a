import IsolatedEnv.Foundation.Substitution
import IsolatedEnv.Foundation.Uuid
import Mathlib.Data.List.TakeWhile

/-!
# Endpoint labels

`_normalize_path` gives the `endpoint` label of the request metrics.  It works on every
segment of a path by itself, so the label of a route with a UUID in its path depends on
what becomes of the text that stands for the UUID.
-/

namespace IsolatedEnv.Backend

open IsolatedEnv.Foundation

/-! ## The two substitutions -/

def isHexDigit (c : Char) : Bool := (readDigit 16 c).isSome

/-- `\d`, the decimal digits of every script. -/
def isDecimal (c : Char) : Bool :=
  decimalZeros.any fun n => n ≤ c.toNat && c.toNat < n + 10

def isHyphen (c : Char) : Bool := c = '-'

def uuidRe : List (Char → Bool) :=
  List.replicate 8 isHexDigit ++ isHyphen :: (List.replicate 4 isHexDigit ++
    isHyphen :: (List.replicate 4 isHexDigit ++ isHyphen :: (List.replicate 4 isHexDigit ++
      isHyphen :: List.replicate 12 isHexDigit)))

/-- `(?=/|$)`; the `$` also stands before a newline that ends the text. -/
def segmentEnds : List Char → Bool
  | [] => true
  | '/' :: _ => true
  | cs => cs = ['\n']

/--
`_INT_RE`.  A match of fewer digits than there are would have to end before a digit, so
that there is nothing to go back to.
-/
def intRe : List Char → Option Nat
  | '/' :: cs =>
      if cs.takeWhile isDecimal ≠ [] ∧ segmentEnds (cs.dropWhile isDecimal) = true then
        some ((cs.takeWhile isDecimal).length + 1)
      else none
  | _ => none

def idMark : List Char := "\x7bid\x7d".toList

def intMark : List Char := "/\x7bn\x7d".toList

def normalizePath (path : List Char) : List Char :=
  substitute intRe intMark 0 (substitute (classesAt uuidRe) idMark 0 path)

/-- The label that `RequestIDMiddleware` counts and times a request under. -/
def RequestIDMiddleware.endpoint (scopePath : Option (List Char)) : List Char :=
  normalizePath (scopePath.getD ['/'])

/-! ## Routes and their parameters -/

def pathOf (segments : List (List Char)) : List Char :=
  segments.flatMap fun segment => '/' :: segment

/-- A route with the segments before and after its UUID. -/
structure UuidRoute where
  before : List (List Char)
  after : List (List Char)
  deriving DecidableEq, Repr

def UuidRoute.path (route : UuidRoute) (parameter : List Char) : List Char :=
  pathOf (route.before ++ parameter :: route.after)

def itemsPrefix : List (List Char) := ["api".toList, "v1".toList, "items".toList]

def adminUsersPrefix : List (List Char) :=
  ["api".toList, "v1".toList, "admin".toList, "users".toList]

def uuidRoutes : List UuidRoute := [
  ⟨itemsPrefix, []⟩,
  ⟨adminUsersPrefix, ["role".toList]⟩,
  ⟨adminUsersPrefix, ["block".toList]⟩,
  ⟨adminUsersPrefix, ["reset-password".toList]⟩,
  ⟨adminUsersPrefix, []⟩]

/-- The ways to write a UUID that pydantic knows. -/
inductive UuidSpelling where
  | plain
  | hyphenated
  | braced
  | urn
  deriving DecidableEq, Repr

namespace UuidSpelling

def before : UuidSpelling → List Char
  | .braced => ['\x7b']
  | .urn => "urn:uuid:".toList
  | _ => []

def after : UuidSpelling → List Char
  | .braced => ['\x7d']
  | _ => []

def core (digits : List Char) : UuidSpelling → Bool
  | .plain => digits.length = 32 && digits.all isHexDigit
  | _ => digits.length = 36 && matchClasses uuidRe digits

def accepts (spelling : UuidSpelling) (text : List Char) : Bool :=
  let digits := (text.drop spelling.before.length).take
    (text.length - spelling.before.length - spelling.after.length)
  text = spelling.before ++ digits ++ spelling.after && spelling.core digits

end UuidSpelling

def acceptsUuid (text : List Char) : Bool :=
  [.plain, .hyphenated, .braced, .urn].any fun spelling : UuidSpelling =>
    spelling.accepts text

/-! ## Segment by segment -/

theorem mem_uuidRe {p : Char → Bool} (hp : p ∈ uuidRe) : p = isHexDigit ∨ p = isHyphen := by
  simp only [uuidRe, List.mem_append, List.mem_cons, List.mem_replicate] at hp
  tauto

theorem uuidRe_apart {c : Char} (hhex : isHexDigit c = false) (hhyphen : isHyphen c = false) :
    Apart (classesAt uuidRe) c := by
  refine apart_classesAt (by simp [uuidRe]) fun p hp => ?_
  rcases mem_uuidRe hp with rfl | rfl
  · exact hhex
  · exact hhyphen

def hideUuids (segment : List Char) : List Char :=
  substitute (classesAt uuidRe) idMark 0 segment

theorem hideUuids_append_pathOf (a : List Char) (segments : List (List Char)) :
    hideUuids (a ++ pathOf segments) = hideUuids a ++ pathOf (segments.map hideUuids) := by
  induction segments generalizing a with
  | nil => simp [pathOf]
  | cons segment segments ih =>
      have hpath : pathOf (segment :: segments) = '/' :: (segment ++ pathOf segments) := rfl
      rw [hpath, hideUuids, substitute_append (uuidRe_apart (by decide) (by decide))]
      change hideUuids a ++ '/' :: hideUuids (segment ++ pathOf segments) = _
      rw [ih]
      rfl

theorem hideUuids_pathOf (segments : List (List Char)) :
    hideUuids (pathOf segments) = pathOf (segments.map hideUuids) :=
  hideUuids_append_pathOf [] segments

theorem slash_not_mem_hideUuids {segment : List Char} (h : '/' ∉ segment) :
    '/' ∉ hideUuids segment := fun hmem =>
  (mem_substitute hmem).elim (by decide) h

/-- What `_INT_RE` makes of a segment; only the last one may end in a newline. -/
def intLabel (last : Bool) (segment : List Char) : List Char :=
  let rest := segment.dropWhile isDecimal
  if segment.takeWhile isDecimal ≠ [] ∧ (rest = [] ∨ last = true ∧ rest = ['\n']) then
    '\x7b' :: 'n' :: '\x7d' :: rest
  else segment

def intLabels : List (List Char) → List Char
  | [] => []
  | segment :: segments =>
      '/' :: (intLabel segments.isEmpty segment ++ intLabels segments)

theorem pathOf_cases (segments : List (List Char)) :
    segments = [] ∧ pathOf segments = [] ∨
      segments ≠ [] ∧ ∃ cs, pathOf segments = '/' :: cs := by
  cases segments with
  | nil => exact .inl ⟨rfl, rfl⟩
  | cons segment segments =>
      exact .inr ⟨List.cons_ne_nil _ _, segment ++ pathOf segments, rfl⟩

theorem takeWhile_append_pathOf (a : List Char) (segments : List (List Char)) :
    (a ++ pathOf segments).takeWhile isDecimal = a.takeWhile isDecimal := by
  have hslash : isDecimal '/' = false := by decide
  induction a with
  | nil =>
      rcases pathOf_cases segments with ⟨-, h⟩ | ⟨-, cs, h⟩
      · rw [h, List.append_nil]
      · rw [h, List.nil_append, List.takeWhile_cons_of_neg (by simp [hslash]),
          List.takeWhile_nil]
  | cons c a ih => simp only [List.cons_append, List.takeWhile_cons, ih]

theorem dropWhile_append_pathOf (a : List Char) (segments : List (List Char)) :
    (a ++ pathOf segments).dropWhile isDecimal =
      a.dropWhile isDecimal ++ pathOf segments := by
  have hslash : isDecimal '/' = false := by decide
  induction a with
  | nil =>
      rcases pathOf_cases segments with ⟨-, h⟩ | ⟨-, cs, h⟩
      · rw [h]
        rfl
      · rw [h, List.nil_append, List.dropWhile_cons_of_neg (by simp [hslash])]
        rfl
  | cons c a ih =>
      simp only [List.cons_append, List.dropWhile_cons, ih]
      split <;> rfl

theorem segmentEnds_append_pathOf {rest : List Char} (hrest : '/' ∉ rest)
    (segments : List (List Char)) :
    segmentEnds (rest ++ pathOf segments) = true ↔
      rest = [] ∨ segments.isEmpty = true ∧ rest = ['\n'] := by
  cases rest with
  | nil =>
      rcases pathOf_cases segments with ⟨-, h⟩ | ⟨-, cs, h⟩ <;> simp [h, segmentEnds]
  | cons c rest =>
      have hc : c ≠ '/' := fun h => hrest (h ▸ List.mem_cons_self)
      have hends : segmentEnds (c :: (rest ++ pathOf segments)) =
          decide (c :: (rest ++ pathOf segments) = ['\n']) := by
        rw [segmentEnds]
        · exact fun h => List.cons_ne_nil _ _ h
        · exact fun _ h => hc (List.cons.inj h).1
      rw [List.cons_append, hends]
      rcases pathOf_cases segments with ⟨rfl, -⟩ | ⟨hs, cs, h⟩
      · simp [pathOf]
      · simp [h, hs]

theorem substitute_intRe_append {a : List Char} (ha : '/' ∉ a) (b : List Char) :
    substitute intRe intMark 0 (a ++ b) = a ++ substitute intRe intMark 0 b := by
  induction a with
  | nil => rfl
  | cons c a ih =>
      have hc : '/' ≠ c := List.ne_of_not_mem_cons ha
      have hnone : intRe (c :: (a ++ b)) = none := by
        rw [intRe]
        rintro _ heq
        exact hc (List.cons.inj heq).1.symm
      rw [List.cons_append, substitute_of_none hnone,
        ih (List.not_mem_of_not_mem_cons ha), List.cons_append]

theorem substitute_intRe_pathOf {segments : List (List Char)}
    (h : ∀ segment ∈ segments, '/' ∉ segment) :
    substitute intRe intMark 0 (pathOf segments) = intLabels segments := by
  induction segments with
  | nil => rfl
  | cons segment segments ih =>
      obtain ⟨hsegment, hsegments⟩ := List.forall_mem_cons.mp h
      have hrest : '/' ∉ segment.dropWhile isDecimal := fun hmem =>
        hsegment (List.dropWhile_subset _ hmem)
      have hends := segmentEnds_append_pathOf hrest segments
      have hpath : pathOf (segment :: segments) = '/' :: (segment ++ pathOf segments) := rfl
      rw [hpath, intLabels, intLabel]
      by_cases hmatch : segment.takeWhile isDecimal ≠ [] ∧
          (segment.dropWhile isDecimal = [] ∨
            segments.isEmpty = true ∧ segment.dropWhile isDecimal = ['\n'])
      · have hre : intRe ('/' :: (segment ++ pathOf segments)) =
            some ((segment.takeWhile isDecimal).length + 1) := by
          rw [intRe, takeWhile_append_pathOf, dropWhile_append_pathOf,
            if_pos ⟨hmatch.1, hends.mpr hmatch.2⟩]
        have hdrop : (segment ++ pathOf segments).drop (segment.takeWhile isDecimal).length =
            segment.dropWhile isDecimal ++ pathOf segments := by
          rw [List.drop_append_of_le_length (List.takeWhile_prefix _).length_le]
          refine congrArg (· ++ pathOf segments) ?_
          calc segment.drop (segment.takeWhile isDecimal).length
              = (segment.takeWhile isDecimal ++ segment.dropWhile isDecimal).drop
                  (segment.takeWhile isDecimal).length := by
                rw [List.takeWhile_append_dropWhile]
            _ = segment.dropWhile isDecimal := List.drop_left
        rw [substitute_of_match hre, hdrop, substitute_intRe_append hrest, ih hsegments,
          if_pos hmatch]
        rfl
      · have hre : intRe ('/' :: (segment ++ pathOf segments)) = none := by
          rw [intRe, takeWhile_append_pathOf, dropWhile_append_pathOf,
            if_neg fun h => hmatch ⟨h.1, hends.mp h.2⟩]
        rw [substitute_of_none hre, substitute_intRe_append hsegment, ih hsegments,
          if_neg hmatch]

theorem normalizePath_pathOf {segments : List (List Char)}
    (h : ∀ segment ∈ segments, '/' ∉ segment) :
    normalizePath (pathOf segments) = intLabels (segments.map hideUuids) := by
  have hslash : ∀ segment ∈ segments.map hideUuids, '/' ∉ segment :=
    List.forall_mem_map.mpr fun segment hmem => slash_not_mem_hideUuids (h segment hmem)
  rw [normalizePath, ← substitute_intRe_pathOf hslash, ← hideUuids_pathOf]
  rfl

theorem intLabels_append (before : List (List Char)) (segment : List Char)
    (after : List (List Char)) :
    intLabels (before ++ segment :: after) =
      (before.flatMap fun s => '/' :: intLabel false s) ++
        '/' :: (intLabel after.isEmpty segment ++ intLabels after) := by
  induction before with
  | nil => rfl
  | cons first before ih =>
      have hlast : (before ++ segment :: after).isEmpty = false := by simp
      rw [List.cons_append, intLabels, ih, hlast, List.flatMap_cons, List.append_assoc]
      rfl

/-! ## What becomes of a UUID -/

namespace UuidSpelling

def label (parameter : List Char) : UuidSpelling → List Char
  | .plain => if parameter.all isDecimal then "\x7bn\x7d".toList else parameter
  | .hyphenated => idMark
  | .braced => '\x7b' :: (idMark ++ ['\x7d'])
  | .urn => "urn:uuid:".toList ++ idMark

theorem label_plain (parameter : List Char) :
    plain.label parameter =
      if parameter.all isDecimal then "\x7bn\x7d".toList else parameter := rfl

theorem accepts_iff {spelling : UuidSpelling} {text : List Char} :
    spelling.accepts text = true ↔
      ∃ digits, text = spelling.before ++ digits ++ spelling.after ∧
        spelling.core digits = true := by
  constructor
  · intro h
    rw [accepts, Bool.and_eq_true, decide_eq_true_eq] at h
    exact ⟨_, h.1, h.2⟩
  · rintro ⟨digits, rfl, hcore⟩
    have hlength : (spelling.before ++ digits ++ spelling.after).length -
        spelling.before.length - spelling.after.length = digits.length := by
      simp only [List.length_append]
      omega
    rw [accepts, hlength, List.append_assoc, List.drop_left, List.take_left]
    simp [hcore]

def length : UuidSpelling → Nat
  | .plain => 32
  | .hyphenated => 36
  | .braced => 38
  | .urn => 45

theorem core_plain {digits : List Char} :
    plain.core digits = true ↔ digits.length = 32 ∧ digits.all isHexDigit = true := by
  rw [core, Bool.and_eq_true, decide_eq_true_iff]

theorem core_wrapped {spelling : UuidSpelling} {digits : List Char}
    (h : spelling ≠ .plain) :
    spelling.core digits = true ↔
      digits.length = 36 ∧ matchClasses uuidRe digits = true := by
  rw [core, Bool.and_eq_true, decide_eq_true_iff]
  exact h

theorem length_of_accepts {spelling : UuidSpelling} {text : List Char}
    (h : spelling.accepts text = true) : text.length = spelling.length := by
  obtain ⟨digits, heq, hcore⟩ := accepts_iff.mp h
  rw [heq, List.length_append, List.length_append]
  by_cases hplain : spelling = .plain
  · rw [hplain] at hcore ⊢
    rw [(core_plain.mp hcore).1]
    rfl
  · rw [((core_wrapped hplain).mp hcore).1]
    cases spelling with
    | plain => exact absurd rfl hplain
    | hyphenated => rfl
    | braced => rfl
    | urn => rfl

theorem length_injective : Function.Injective length := by
  intro s t
  cases s <;> cases t <;> decide

theorem accepts_unique {s t : UuidSpelling} {text : List Char}
    (hs : s.accepts text = true) (ht : t.accepts text = true) : s = t :=
  length_injective (by rw [← length_of_accepts hs, length_of_accepts ht])

end UuidSpelling

theorem hideUuids_hyphenated {digits : List Char} (hlength : digits.length = 36)
    (hmatch : matchClasses uuidRe digits = true) : hideUuids digits = idMark := by
  cases digits with
  | nil => simp at hlength
  | cons c digits =>
      have hre : classesAt uuidRe (c :: digits) = some (35 + 1) := by
        rw [classesAt, if_pos hmatch]
        rfl
      have hdrop : digits.drop 35 = [] :=
        List.drop_eq_nil_of_le (Nat.le_of_succ_le_succ hlength.le)
      rw [hideUuids, substitute_of_match hre, hdrop, substitute, List.append_nil]

theorem hideUuids_eq_self {text : List Char} (h : '-' ∉ text) : hideUuids text = text := by
  refine substitute_eq_self fun tail htail => ?_
  rw [classesAt, if_neg fun hmatch => ?_]
  obtain ⟨c, hc, hhyphen⟩ :=
    exists_of_matchClasses hmatch (p := isHyphen) (by simp [uuidRe])
  have hdash : c = '-' := by simpa [isHyphen] using hhyphen
  exact h (hdash ▸ htail.mem hc)

theorem hideUuids_append_cons {x : Char} (hhex : isHexDigit x = false)
    (hhyphen : isHyphen x = false) (a b : List Char) :
    hideUuids (a ++ x :: b) = hideUuids a ++ x :: hideUuids b :=
  substitute_append (uuidRe_apart hhex hhyphen) b a

theorem intLabel_of_head {c : Char} {cs : List Char} (last : Bool)
    (h : isDecimal c = false) : intLabel last (c :: cs) = c :: cs := by
  rw [intLabel, if_neg]
  rintro ⟨hne, -⟩
  exact hne (List.takeWhile_cons_of_neg (by simp [h]))

theorem intLabel_plain {digits : List Char} (last : Bool) (hne : digits ≠ [])
    (hline : '\n' ∉ digits) :
    intLabel last digits =
      if digits.all isDecimal then "\x7bn\x7d".toList else digits := by
  by_cases hall : digits.all isDecimal = true
  · have htake : digits.takeWhile isDecimal = digits :=
      List.takeWhile_eq_self_iff.mpr (List.all_eq_true.mp hall)
    have hdrop : digits.dropWhile isDecimal = [] :=
      List.dropWhile_eq_nil_iff.mpr (List.all_eq_true.mp hall)
    rw [intLabel, htake, hdrop, if_pos ⟨hne, .inl rfl⟩, if_pos hall]
    rfl
  · rw [if_neg hall, intLabel, if_neg]
    rintro ⟨-, hrest | ⟨-, hrest⟩⟩
    · exact hall (List.all_eq_true.mpr (List.dropWhile_eq_nil_iff.mp hrest))
    · exact hline (List.dropWhile_subset isDecimal (hrest ▸ List.mem_singleton_self '\n'))

theorem label_of_accepts {spelling : UuidSpelling} {text : List Char} (last : Bool)
    (h : spelling.accepts text = true) :
    intLabel last (hideUuids text) = spelling.label text := by
  obtain ⟨digits, heq, hcore⟩ := UuidSpelling.accepts_iff.mp h
  cases spelling with
  | plain =>
      obtain ⟨hlength, hhex⟩ := UuidSpelling.core_plain.mp hcore
      have htext : text = digits := by
        rw [heq]
        exact List.append_nil digits
      have hline : '\n' ∉ digits := fun hmem =>
        absurd (List.all_eq_true.mp hhex _ hmem) (by decide)
      have hhyphen : '-' ∉ digits := fun hmem =>
        absurd (List.all_eq_true.mp hhex _ hmem) (by decide)
      have hne : digits ≠ [] := List.ne_nil_of_length_pos (by omega)
      rw [htext, hideUuids_eq_self hhyphen, intLabel_plain last hne hline,
        UuidSpelling.label_plain]
  | hyphenated =>
      obtain ⟨hlength, hmatch⟩ := (UuidSpelling.core_wrapped (by decide)).mp hcore
      have htext : text = digits := by
        rw [heq]
        exact List.append_nil digits
      rw [htext, hideUuids_hyphenated hlength hmatch]
      exact intLabel_of_head last (by decide)
  | braced =>
      obtain ⟨hlength, hmatch⟩ := (UuidSpelling.core_wrapped (by decide)).mp hcore
      have htext : text = [] ++ '\x7b' :: (digits ++ '\x7d' :: []) := heq
      rw [htext, hideUuids_append_cons (by decide) (by decide),
        hideUuids_append_cons (by decide) (by decide), hideUuids_hyphenated hlength hmatch]
      exact intLabel_of_head last (by decide)
  | urn =>
      obtain ⟨hlength, hmatch⟩ := (UuidSpelling.core_wrapped (by decide)).mp hcore
      have htext : text = "urn".toList ++ ':' :: ("uuid".toList ++ ':' :: digits) := by
        rw [heq]
        exact List.append_nil _
      rw [htext, hideUuids_append_cons (by decide) (by decide),
        hideUuids_append_cons (by decide) (by decide), hideUuids_hyphenated hlength hmatch,
        hideUuids_eq_self (by decide), hideUuids_eq_self (by decide)]
      exact intLabel_of_head last (by decide)

/-! ## Labels of routes -/

namespace UuidSpelling

def labelLengths : UuidSpelling → List Nat
  | .plain => [3, 32]
  | .hyphenated => [4]
  | .braced => [6]
  | .urn => [13]

theorem label_length {spelling : UuidSpelling} {text : List Char}
    (h : spelling.accepts text = true) :
    (spelling.label text).length ∈ spelling.labelLengths := by
  cases spelling with
  | plain =>
      have hlength : text.length = 32 := length_of_accepts h
      rw [label_plain]
      split
      · simp [labelLengths]
      · simp [labelLengths, hlength]
  | hyphenated => exact List.mem_singleton_self 4
  | braced => exact List.mem_singleton_self 6
  | urn => exact List.mem_singleton_self 13

theorem labelLengths_disjoint {s t : UuidSpelling} {n : Nat} (hs : n ∈ s.labelLengths)
    (ht : n ∈ t.labelLengths) : s = t := by
  cases s <;> cases t <;> simp [labelLengths] at hs ht ⊢ <;> omega

theorem label_plain_eq_iff {p q : List Char} (hp : plain.accepts p = true)
    (hq : plain.accepts q = true) :
    plain.label p = plain.label q ↔
      p = q ∨ p.all isDecimal = true ∧ q.all isDecimal = true := by
  have hmark {text : List Char} (h : plain.accepts text = true) :
      text ≠ "\x7bn\x7d".toList := fun heq => by
    have hlength : text.length = 32 := length_of_accepts h
    rw [heq] at hlength
    exact absurd hlength (by decide)
  rw [label_plain, label_plain]
  by_cases hpd : p.all isDecimal = true <;> by_cases hqd : q.all isDecimal = true
  · rw [if_pos hpd, if_pos hqd]
    exact iff_of_true rfl (.inr ⟨hpd, hqd⟩)
  · rw [if_pos hpd, if_neg hqd]
    exact iff_of_false (hmark hq).symm fun h =>
      h.elim (fun heq => hqd (heq ▸ hpd)) fun hd => hqd hd.2
  · rw [if_neg hpd, if_pos hqd]
    exact iff_of_false (hmark hp) fun h =>
      h.elim (fun heq => hpd (heq ▸ hqd)) fun hd => hpd hd.1
  · rw [if_neg hpd, if_neg hqd]
    exact ⟨.inl, fun h => h.elim id fun hd => absurd hd.1 hpd⟩

end UuidSpelling

/--
Both are hyphenated and wrapped alike, or both are plain and either the same text or
without a letter.
-/
def WrittenAlike (p q : List Char) : Prop :=
  (∃ spelling : UuidSpelling, spelling ≠ .plain ∧
      spelling.accepts p = true ∧ spelling.accepts q = true) ∨
    UuidSpelling.plain.accepts p = true ∧ UuidSpelling.plain.accepts q = true ∧
      (p = q ∨ p.all isDecimal = true ∧ q.all isDecimal = true)

theorem label_eq_iff_writtenAlike {s t : UuidSpelling} {p q : List Char}
    (hp : s.accepts p = true) (hq : t.accepts q = true) :
    s.label p = t.label q ↔ WrittenAlike p q := by
  constructor
  · intro h
    have hst : s = t := UuidSpelling.labelLengths_disjoint
      (UuidSpelling.label_length hp) (h ▸ UuidSpelling.label_length hq)
    subst hst
    by_cases hplain : s = .plain
    · subst hplain
      exact .inr ⟨hp, hq, (UuidSpelling.label_plain_eq_iff hp hq).mp h⟩
    · exact .inl ⟨s, hplain, hp, hq⟩
  · rintro (⟨u, hu, hpu, hqu⟩ | ⟨hpu, hqu, halike⟩)
    · obtain rfl := UuidSpelling.accepts_unique hpu hp
      obtain rfl := UuidSpelling.accepts_unique hqu hq
      cases u with
      | plain => exact absurd rfl hu
      | hyphenated => rfl
      | braced => rfl
      | urn => rfl
    · obtain rfl := UuidSpelling.accepts_unique hpu hp
      obtain rfl := UuidSpelling.accepts_unique hqu hq
      exact (UuidSpelling.label_plain_eq_iff hp hq).mpr halike

theorem acceptsUuid_iff {text : List Char} :
    acceptsUuid text = true ↔ ∃ spelling : UuidSpelling, spelling.accepts text = true := by
  constructor
  · intro h
    obtain ⟨spelling, -, haccepts⟩ := List.any_eq_true.mp h
    exact ⟨spelling, haccepts⟩
  · rintro ⟨spelling, haccepts⟩
    exact List.any_eq_true.mpr ⟨spelling, by cases spelling <;> decide, haccepts⟩

theorem slash_not_mem_of_accepts {spelling : UuidSpelling} {text : List Char}
    (h : spelling.accepts text = true) : '/' ∉ text := by
  obtain ⟨digits, heq, hcore⟩ := UuidSpelling.accepts_iff.mp h
  have hdigits : '/' ∉ digits := by
    intro hmem
    by_cases hplain : spelling = .plain
    · rw [hplain] at hcore
      exact absurd (List.all_eq_true.mp (UuidSpelling.core_plain.mp hcore).2 _ hmem)
        (by decide)
    · obtain ⟨hlength, hmatch⟩ := (UuidSpelling.core_wrapped hplain).mp hcore
      obtain ⟨p, hp, hslash⟩ := forall_of_matchClasses hmatch (hlength.trans rfl) _ hmem
      rcases mem_uuidRe hp with rfl | rfl
      · exact absurd hslash (by decide)
      · exact absurd hslash (by decide)
  have hbefore : '/' ∉ spelling.before := by cases spelling <;> decide
  have hafter : '/' ∉ spelling.after := by cases spelling <;> decide
  simp only [heq, List.mem_append, hbefore, hdigits, hafter, or_self, not_false_eq_true]

/-- The segments of a route around its UUID do not matter. -/
theorem normalizePath_route_iff {route : UuidRoute}
    (hroute : ∀ segment ∈ route.before ++ route.after, '/' ∉ segment) {p q : List Char}
    (hp : acceptsUuid p = true) (hq : acceptsUuid q = true) :
    normalizePath (route.path p) = normalizePath (route.path q) ↔ WrittenAlike p q := by
  obtain ⟨s, hs⟩ := acceptsUuid_iff.mp hp
  obtain ⟨t, ht⟩ := acceptsUuid_iff.mp hq
  have hlabels {u : UuidSpelling} {text : List Char} (h : u.accepts text = true) :
      normalizePath (route.path text) =
        ((route.before.map hideUuids).flatMap fun s => '/' :: intLabel false s) ++
          '/' :: (u.label text ++ intLabels (route.after.map hideUuids)) := by
    have hslash : ∀ segment ∈ route.before ++ text :: route.after, '/' ∉ segment := by
      intro segment hmem
      rcases List.mem_append.mp hmem with hmem | hmem
      · exact hroute segment (List.mem_append_left _ hmem)
      · rcases List.mem_cons.mp hmem with rfl | hmem
        · exact slash_not_mem_of_accepts h
        · exact hroute segment (List.mem_append_right _ hmem)
    rw [UuidRoute.path, normalizePath_pathOf hslash, List.map_append, List.map_cons,
      intLabels_append, label_of_accepts _ h]
  rw [hlabels hs, hlabels ht, List.append_cancel_left_eq, List.cons_inj_right,
    List.append_cancel_right_eq, label_eq_iff_writtenAlike hs ht]

/-! ## Integer segments -/

def DecimalInteger (segment : List Char) : Prop :=
  segment ≠ [] ∧ ∀ c ∈ segment, isDecimal c = true

theorem intLabel_hideUuids_decimal {segment : List Char} (last : Bool)
    (h : DecimalInteger segment) :
    intLabel last (hideUuids segment) = "\x7bn\x7d".toList := by
  have hline : '\n' ∉ segment := fun hmem => absurd (h.2 _ hmem) (by decide)
  have hhyphen : '-' ∉ segment := fun hmem => absurd (h.2 _ hmem) (by decide)
  rw [hideUuids_eq_self hhyphen, intLabel_plain last h.1 hline,
    if_pos (List.all_eq_true.mpr h.2)]

/-- Segments that are the same or both decimal integers. -/
def SameButIntegers : List (List Char) → List (List Char) → Prop :=
  List.Forall₂ fun segment segment' =>
    segment = segment' ∨ DecimalInteger segment ∧ DecimalInteger segment'

theorem intLabels_sameButIntegers {segments segments' : List (List Char)}
    (h : SameButIntegers segments segments') :
    intLabels (segments.map hideUuids) = intLabels (segments'.map hideUuids) := by
  induction h with
  | nil => rfl
  | @cons segment segment' rest rest' hhead htail ih =>
      have hempty : (rest.map hideUuids).isEmpty = (rest'.map hideUuids).isEmpty := by
        cases htail <;> rfl
      rw [List.map_cons, List.map_cons, intLabels, intLabels, ih, hempty]
      rcases hhead with rfl | ⟨hsegment, hsegment'⟩
      · rfl
      · rw [intLabel_hideUuids_decimal _ hsegment, intLabel_hideUuids_decimal _ hsegment']

theorem slash_not_mem_of_sameButIntegers {segments segments' : List (List Char)}
    (h : SameButIntegers segments segments') (hslash : ∀ s ∈ segments, '/' ∉ s) :
    ∀ s ∈ segments', '/' ∉ s := by
  induction h with
  | nil => exact hslash
  | cons hhead _ ih =>
      obtain ⟨hfirst, hrest⟩ := List.forall_mem_cons.mp hslash
      refine List.forall_mem_cons.mpr ⟨?_, ih hrest⟩
      rcases hhead with rfl | ⟨-, hinteger⟩
      · exact hfirst
      · exact fun hmem => absurd (hinteger.2 _ hmem) (by decide)

open RequestIDMiddleware in
/--
Integer segments never show in the label, however many there are; UUIDs do not show if
and only if they are written alike.
-/
theorem endpoint_labels_agree_iff {route : UuidRoute} (hroute : route ∈ uuidRoutes)
    {p q : List Char} (hp : acceptsUuid p = true) (hq : acceptsUuid q = true)
    {segments segments' : List (List Char)} (hslash : ∀ s ∈ segments, '/' ∉ s)
    (hsame : SameButIntegers segments segments') :
    (endpoint (some (route.path p)) = endpoint (some (route.path q)) ↔ WrittenAlike p q) ∧
      endpoint (some (pathOf segments)) = endpoint (some (pathOf segments')) := by
  have hroutes : ∀ route ∈ uuidRoutes,
      ∀ segment ∈ route.before ++ route.after, '/' ∉ segment := by decide
  refine ⟨normalizePath_route_iff (hroutes route hroute) hp hq, ?_⟩
  have hslash' := slash_not_mem_of_sameButIntegers hsame hslash
  simp only [endpoint, Option.getD_some]
  rw [normalizePath_pathOf hslash, normalizePath_pathOf hslash',
    intLabels_sameButIntegers hsame]

def roleRoute : UuidRoute := ⟨adminUsersPrefix, ["role".toList]⟩

/-- Two users and two numbered pages: neither shows in the label. -/
theorem hyphenated_ids_and_numbers_share_labels :
    RequestIDMiddleware.endpoint
        (some (roleRoute.path "0b9d1c5e-7f2a-4b6c-8d0e-1f2a3b4c5d6e".toList)) =
      RequestIDMiddleware.endpoint
        (some (roleRoute.path "4F6A2D10-93BC-4E57-A1D8-0C2B3A495867".toList)) ∧
    RequestIDMiddleware.endpoint (some (pathOf ["p".toList, "1".toList, "22".toList])) =
      RequestIDMiddleware.endpoint (some (pathOf ["p".toList, "7".toList, "8".toList])) := by
  have hinteger {segment : List Char} (hne : segment ≠ [])
      (hall : segment.all isDecimal = true) : DecimalInteger segment :=
    ⟨hne, List.all_eq_true.mp hall⟩
  have hnumbers : SameButIntegers ["p".toList, "1".toList, "22".toList]
      ["p".toList, "7".toList, "8".toList] :=
    .cons (.inl rfl) (.cons (.inr ⟨hinteger (by decide) (by decide),
      hinteger (by decide) (by decide)⟩) (.cons (.inr ⟨hinteger (by decide) (by decide),
        hinteger (by decide) (by decide)⟩) .nil))
  have hboth := endpoint_labels_agree_iff (show roleRoute ∈ uuidRoutes by decide)
    (show acceptsUuid "0b9d1c5e-7f2a-4b6c-8d0e-1f2a3b4c5d6e".toList = true by decide +kernel)
    (show acceptsUuid "4F6A2D10-93BC-4E57-A1D8-0C2B3A495867".toList = true by decide +kernel)
    (by decide) hnumbers
  exact ⟨hboth.1.mpr (.inl ⟨.hyphenated, by decide, by decide +kernel, by decide +kernel⟩),
    hboth.2⟩

/-- The plain spelling leaves every user a label of their own. -/
theorem plain_id_is_its_own_label :
    acceptsUuid "0b9d1c5e7f2a4b6c8d0e1f2a3b4c5d6e".toList = true ∧
      RequestIDMiddleware.endpoint
          (some (roleRoute.path "0b9d1c5e7f2a4b6c8d0e1f2a3b4c5d6e".toList)) =
        "/api/v1/admin/users/0b9d1c5e7f2a4b6c8d0e1f2a3b4c5d6e/role".toList ∧
      ¬ ∀ route ∈ uuidRoutes, ∀ p q : List Char,
        acceptsUuid p = true → acceptsUuid q = true →
          RequestIDMiddleware.endpoint (some (route.path p)) =
            RequestIDMiddleware.endpoint (some (route.path q)) := by
  refine ⟨by decide +kernel, by decide +kernel, fun h => ?_⟩
  have hsame := h roleRoute (by decide) "0b9d1c5e7f2a4b6c8d0e1f2a3b4c5d6e".toList
    "4f6a2d1093bc4e57a1d80c2b3a495867".toList (by decide +kernel) (by decide +kernel)
  revert hsame
  decide +kernel

end IsolatedEnv.Backend
