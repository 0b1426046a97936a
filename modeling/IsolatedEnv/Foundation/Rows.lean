import Mathlib.Data.List.Basic
import Mathlib.Data.List.Find
import Mathlib.Data.List.Nodup

/-!
# Rows with a unique column

A table is a list of rows; a unique column is a function on rows that is
injective on the list.  Reading by a unique column finds the row there is, and
replacing a row by one with the same key changes that row and no other.
-/

namespace IsolatedEnv.Foundation.Rows

variable {ρ κ : Type*} [DecidableEq κ]

def UniqueKey (key : ρ → κ) (rows : List ρ) : Prop :=
  (rows.map key).Nodup

def find (key : ρ → κ) (k : κ) (rows : List ρ) : Option ρ :=
  rows.find? fun r => key r = k

def replace (key : ρ → κ) (new : ρ) (rows : List ρ) : List ρ :=
  rows.map fun r => if key r = key new then new else r

instance (key : ρ → κ) (rows : List ρ) : Decidable (UniqueKey key rows) :=
  inferInstanceAs (Decidable (List.Nodup _))

variable {key : ρ → κ} {rows : List ρ}

omit [DecidableEq κ] in
theorem UniqueKey.eq (h : UniqueKey key rows) {r s : ρ} (hr : r ∈ rows)
    (hs : s ∈ rows) (hkey : key r = key s) : r = s :=
  List.inj_on_of_nodup_map h hr hs hkey

omit [DecidableEq κ] in
theorem UniqueKey.eq_singleton (h : UniqueKey key rows) {k : κ}
    (hkey : ∀ r ∈ rows, key r = k) {r : ρ} (hr : r ∈ rows) : rows = [r] := by
  have hall : ∀ s ∈ rows, s = r := fun s hs => h.eq hs hr ((hkey s hs).trans (hkey r hr).symm)
  have hnodup : rows.Nodup := List.Nodup.of_map key h
  cases rows with
  | nil => cases hr
  | cons s rest =>
      have hempty : rest = [] := List.eq_nil_iff_forall_not_mem.mpr fun s' hs' => by
        rw [hall s' (List.mem_cons_of_mem _ hs'), ← hall s List.mem_cons_self] at hs'
        exact (List.nodup_cons.mp hnodup).1 hs'
      rw [hempty, hall s List.mem_cons_self]

omit [DecidableEq κ] in
theorem UniqueKey.append (h : UniqueKey key rows) {new : ρ}
    (hnew : ∀ r ∈ rows, key r ≠ key new) : UniqueKey key (rows ++ [new]) := by
  unfold UniqueKey
  rw [List.map_append, List.nodup_append]
  refine ⟨h, List.nodup_singleton _, ?_⟩
  intro k hk k' hk'
  obtain ⟨r, hr, rfl⟩ := List.mem_map.mp hk
  rw [List.map_singleton, List.mem_singleton] at hk'
  rw [hk']
  exact hnew r hr

omit [DecidableEq κ] in
theorem UniqueKey.map (h : UniqueKey key rows) {f : ρ → ρ} (hf : ∀ r, key (f r) = key r) :
    UniqueKey key (rows.map f) := by
  unfold UniqueKey
  rw [List.map_map]
  have hcomp : key ∘ f = key := funext hf
  rw [hcomp]
  exact h

theorem find_eq_none {k : κ} :
    find key k rows = none ↔ ∀ r ∈ rows, key r ≠ k := by
  simp [find]

theorem key_of_find {k : κ} {r : ρ} (h : find key k rows = some r) :
    key r = k := by
  simpa using List.find?_some h

theorem mem_of_find {k : κ} {r : ρ} (h : find key k rows = some r) :
    r ∈ rows :=
  List.mem_of_find?_eq_some h

theorem find_eq_some (h : UniqueKey key rows) {k : κ} {r : ρ} :
    find key k rows = some r ↔ r ∈ rows ∧ key r = k := by
  constructor
  · intro hfind
    exact ⟨mem_of_find hfind, key_of_find hfind⟩
  · rintro ⟨hr, hk⟩
    cases hfind : find key k rows with
    | none => exact absurd hk (find_eq_none.mp hfind r hr)
    | some s =>
        have hs := key_of_find hfind
        rw [h.eq (mem_of_find hfind) hr (hs.trans hk.symm)]

theorem mem_replace {new v : ρ} :
    v ∈ replace key new rows ↔
      v ∈ rows ∧ key v ≠ key new ∨
        v = new ∧ ∃ r ∈ rows, key r = key new := by
  unfold replace
  rw [List.mem_map]
  constructor
  · rintro ⟨r, hr, rfl⟩
    split
    · rename_i hkey
      exact .inr ⟨rfl, r, hr, hkey⟩
    · rename_i hkey
      exact .inl ⟨hr, hkey⟩
  · rintro (⟨hv, hkey⟩ | ⟨rfl, r, hr, hkey⟩)
    · exact ⟨v, hv, if_neg hkey⟩
    · exact ⟨r, hr, if_pos hkey⟩

/-- Columns in which the new row agrees with the row it replaces stay. -/
theorem map_replace_of_agree {α : Type*} {column : ρ → α} {new : ρ}
    (h : ∀ r ∈ rows, key r = key new → column r = column new) :
    (replace key new rows).map column = rows.map column := by
  unfold replace
  rw [List.map_map]
  apply List.map_congr_left
  intro r hr
  by_cases hkey : key r = key new
  · simp [hkey, h r hr hkey]
  · simp [hkey]

theorem filter_replace {p : ρ → Bool} {new : ρ}
    (h : ∀ r ∈ rows, key r = key new → p r = p new) :
    (replace key new rows).filter p = replace key new (rows.filter p) := by
  unfold replace
  rw [List.filter_map]
  congr 1
  refine List.filter_congr fun r hr => ?_
  by_cases hkey : key r = key new
  · simp [hkey, h r hr hkey]
  · simp [hkey]

/-- Rows that cannot have the key are not looked at. -/
theorem find_filter {p : ρ → Bool} {k : κ} (h : ∀ r ∈ rows, key r = k → p r = true) :
    find key k (rows.filter p) = find key k rows := by
  unfold find
  rw [List.find?_filter]
  refine List.find?_congr fun r hr => ?_
  by_cases hkey : key r = k
  · simp [hkey, h r hr hkey]
  · simp [hkey]

theorem replace_self (h : UniqueKey key rows) {r : ρ} (hr : r ∈ rows) :
    replace key r rows = rows := by
  unfold replace
  conv_rhs => rw [← List.map_id rows]
  refine List.map_congr_left fun s hs => ?_
  by_cases hkey : key s = key r
  · rw [if_pos hkey]
    exact h.eq hr hs hkey.symm
  · exact if_neg hkey

theorem replace_of_forall_ne {new : ρ} (h : ∀ r ∈ rows, key r ≠ key new) :
    replace key new rows = rows := by
  unfold replace
  conv_rhs => rw [← List.map_id rows]
  exact List.map_congr_left fun r hr => if_neg (h r hr)

/-! ## When another column stays unique -/

section Column

variable {α : Type*} {column : ρ → α} {new r : ρ}

omit [DecidableEq κ] in
theorem uniqueKey_append_singleton :
    UniqueKey column (rows ++ [new]) ↔
      UniqueKey column rows ∧ ∀ s ∈ rows, column s ≠ column new := by
  unfold UniqueKey
  rw [List.map_append, List.nodup_append]
  simp

theorem uniqueKey_replace (hkey : UniqueKey key rows) (hcolumn : UniqueKey column rows)
    (hr : r ∈ rows) (hnew : key r = key new) :
    UniqueKey column (replace key new rows) ↔
      ∀ s ∈ rows, key s ≠ key new → column s ≠ column new := by
  constructor
  · intro h s hs hother hsame
    have hmem : s ∈ replace key new rows := mem_replace.mpr (.inl ⟨hs, hother⟩)
    have hmemNew : new ∈ replace key new rows := mem_replace.mpr (.inr ⟨rfl, r, hr, hnew⟩)
    exact hother (congrArg key (h.eq hmem hmemNew hsame))
  · intro h
    unfold UniqueKey replace
    rw [List.map_map, List.Nodup, List.pairwise_map]
    refine List.Pairwise.imp_of_mem ?_
      ((List.pairwise_map.mp hkey).and (List.pairwise_map.mp hcolumn))
    rintro a b ha hb ⟨hkeys, hcolumns⟩
    simp only [Function.comp]
    by_cases hka : key a = key new <;> by_cases hkb : key b = key new
    · exact absurd (hka.trans hkb.symm) hkeys
    · rw [if_pos hka, if_neg hkb]
      exact (h b hb hkb).symm
    · rw [if_neg hka, if_pos hkb]
      exact h a ha hka
    · rw [if_neg hka, if_neg hkb]
      exact hcolumns

end Column

/-! ## Reading through a map that keeps the key -/

section Map

variable {ρ' : Type*} {key' : ρ' → κ} {f : ρ → ρ'}

theorem find_map (hf : ∀ r, key' (f r) = key r) (k : κ) (rows : List ρ) :
    find key' k (rows.map f) = (find key k rows).map f := by
  unfold find
  rw [List.find?_map]
  congr 2
  funext r
  simp [hf]

theorem map_replace (hf : ∀ r, key' (f r) = key r) (new : ρ) (rows : List ρ) :
    (replace key new rows).map f = replace key' (f new) (rows.map f) := by
  unfold replace
  rw [List.map_map, List.map_map]
  apply List.map_congr_left
  intro r _
  by_cases hkey : key r = key new <;> simp [hkey, hf]

end Map

end IsolatedEnv.Foundation.Rows
