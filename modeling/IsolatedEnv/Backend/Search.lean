import IsolatedEnv.Backend.Audit.Service
import IsolatedEnv.Backend.Core.Dependencies
import IsolatedEnv.Backend.Users.Listing

/-!
# Searching

A search text is escaped, put between two `%` and matched by `ILIKE`, which
folds both sides.  A collation folds character by character and leaves the
metacharacters of `LIKE` alone, so the folded pattern is the pattern of the
folded text, and what it finds are the texts that contain it.
-/

namespace IsolatedEnv.Backend

open IsolatedEnv.Foundation

/-- What `lower` does under the database's collation. -/
structure FoldsBy (env : Env) (fold : Char → Char) : Prop where
  perCharacter : ∀ text, (env.databaseLower text).toList = text.toList.map fold
  metas : ∀ c, isLikeMeta c = true → fold c = c
  others : ∀ c, isLikeMeta c = false → isLikeMeta (fold c) = false

/-- The text contains the search text, ignoring case. -/
def OccursIn (fold : Char → Char) (search text : String) : Prop :=
  search.toList.map fold <:+: text.toList.map fold

section Folding

variable {env : Env} {fold : Char → Char}

theorem FoldsBy.escapeLike (h : FoldsBy env fold) (cs : List Char) :
    (escapeLike cs).map fold = Foundation.escapeLike (cs.map fold) := by
  induction cs with
  | nil => rfl
  | cons c cs ih =>
      have hcons (d : Char) (ds : List Char) : Foundation.escapeLike (d :: ds) =
          (if isLikeMeta d then ['\\', d] else [d]) ++ Foundation.escapeLike ds := by
        simp [Foundation.escapeLike]
      rw [hcons, List.map_append, List.map_cons, hcons, ih]
      congr 1
      cases hmeta : isLikeMeta c with
      | true =>
          have hbackslash : fold '\\' = '\\' := h.metas _ rfl
          simp [h.metas c hmeta, hmeta, hbackslash]
      | false => simp [h.others c hmeta]

theorem ilike_searchPattern (h : FoldsBy env fold) (search text : String) :
    ilike env text (searchPattern search) = true ↔ OccursIn fold search text := by
  have hpercent : fold '%' = '%' := h.metas _ rfl
  have hpattern : (env.databaseLower (searchPattern search)).toList =
      '%' :: (escapeLike (search.toList.map fold) ++ ['%']) := by
    rw [h.perCharacter, searchPattern, String.toList_ofList]
    simp [h.escapeLike, hpercent]
  rw [ilike, hpattern, h.perCharacter]
  exact like_contains _ _

theorem userFilter_matches (h : FoldsBy env fold) {filter : UserFilter}
    {search : String} (hsearch : filter.search = some search) (hne : search ≠ "")
    (u : User) :
    filter.matches env u = true ↔
      ({ filter with search := none } : UserFilter).matches env u = true ∧
        (OccursIn fold search u.email ∨ OccursIn fold search u.name) := by
  simp only [UserFilter.matches, hsearch, Option.all_some, Option.all_none,
    Bool.and_true, Bool.and_eq_true, Bool.or_eq_true, decide_eq_true_eq, hne,
    false_or, ilike_searchPattern h]

theorem auditFilter_matches (h : FoldsBy env fold) {filter : AuditFilter}
    {search : String} (hsearch : filter.search = some search) (hne : search ≠ "")
    (e : AuditLog) :
    filter.matches env e = true ↔
      ({ filter with search := none } : AuditFilter).matches env e = true ∧
        (OccursIn fold search e.adminEmail ∨ OccursIn fold search e.targetUserEmail) := by
  simp only [AuditFilter.matches, hsearch, Option.all_some, Option.all_none,
    Bool.and_true, Bool.and_eq_true, Bool.or_eq_true, decide_eq_true_eq, hne,
    false_or, ilike_searchPattern h]

end Folding

/-- A search finds the rows that contain its text, and no others. -/
theorem search_finds_substrings {env : Env} {fold : Char → Char}
    (h : FoldsBy env fold) :
    (∀ search text,
        ilike env text (searchPattern search) = true ↔ OccursIn fold search text) ∧
      (∀ (filter : UserFilter) (search : String), filter.search = some search →
        search ≠ "" → ∀ u, filter.matches env u = true ↔
          ({ filter with search := none } : UserFilter).matches env u = true ∧
            (OccursIn fold search u.email ∨ OccursIn fold search u.name)) ∧
      ∀ (filter : AuditFilter) (search : String), filter.search = some search →
        search ≠ "" → ∀ e, filter.matches env e = true ↔
          ({ filter with search := none } : AuditFilter).matches env e = true ∧
            (OccursIn fold search e.adminEmail ∨ OccursIn fold search e.targetUserEmail) :=
  ⟨ilike_searchPattern h, fun _ _ hsearch hne u => userFilter_matches h hsearch hne u,
    fun _ _ hsearch hne e => auditFilter_matches h hsearch hne e⟩

theorem toNat_toLower (c : Char) :
    c.toLower.toNat = if 65 ≤ c.toNat ∧ c.toNat ≤ 90 then c.toNat + 32 else c.toNat := by
  unfold Char.toLower
  by_cases h : c.val ≥ 'A'.val ∧ c.val ≤ 'Z'.val
  · have hupper : 65 ≤ c.toNat ∧ c.toNat ≤ 90 := h
    rw [dif_pos h, if_pos hupper]
    have hsum : (c.val + ('a'.val - 'A'.val)).toNat = (c.toNat + 32) % 2 ^ 32 :=
      UInt32.toNat_add _ _
    change (c.val + ('a'.val - 'A'.val)).toNat = _
    omega
  · have hother : ¬(65 ≤ c.toNat ∧ c.toNat ≤ 90) := h
    rw [dif_neg h, if_neg hother]

theorem toLower_other {c : Char} (h : isLikeMeta c = false) :
    isLikeMeta c.toLower = false := by
  have hnat := toNat_toLower c
  split at hnat
  · rw [Bool.eq_false_iff]
    intro hmeta
    simp only [isLikeMeta, Bool.or_eq_true, decide_eq_true_eq] at hmeta
    rcases hmeta with (hmeta | hmeta) | hmeta <;> rw [hmeta] at hnat
    · have hpercent : '%'.toNat = 37 := rfl
      omega
    · have hunderscore : '_'.toNat = 95 := rfl
      omega
    · have hbackslash : '\\'.toNat = 92 := rfl
      omega
  · rwa [Char.toNat_inj.mp hnat]

theorem exampleEnv_foldsBy : FoldsBy exampleEnv Char.toLower where
  perCharacter text := String.toList_map
  metas c hmeta := by
    simp only [isLikeMeta, Bool.or_eq_true, decide_eq_true_eq] at hmeta
    rcases hmeta with (rfl | rfl) | rfl <;> rfl
  others _ := toLower_other

theorem search_finds_percent_sign :
    ilike exampleEnv "100%_OFF\\" (searchPattern "%_Off\\") = true ∧
      ilike exampleEnv "100 OFF" (searchPattern "%_Off") = false := by
  obtain ⟨hilike, -, -⟩ := search_finds_substrings exampleEnv_foldsBy
  refine ⟨(hilike _ _).mpr ?_, ?_⟩
  · unfold OccursIn
    decide
  · rw [Bool.eq_false_iff, ne_eq, hilike]
    unfold OccursIn
    decide

end IsolatedEnv.Backend
