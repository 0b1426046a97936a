import Mathlib.Data.List.Sort
import Mathlib.Order.Basic

/-!
# Keyset pagination

Rows are listed by a key in descending order.  A page asks for one row more
than it shows, so that it knows whether another page follows, and the next page
continues below the key of the last row shown.  A scan takes each page from the
table as it is at that moment.

Over one table the pages cut the descending list of the matching rows into
pieces.  Over a table that changes, the keys still descend strictly from page to
page, and a row that is there all the time lies below every cursor until it is
shown.
-/

namespace IsolatedEnv.Foundation.Keyset

variable {ρ κ : Type*} [LinearOrder κ] (key : ρ → κ) (p : ρ → Bool)

/-- The matching rows below the cursor, in descending order of their keys. -/
def candidates (after : Option κ) (rows : List ρ) : List ρ :=
  (rows.filter fun r => p r && after.all fun k => decide (key r < k)).insertionSort
    fun r s => key s ≤ key r

def fetch (after : Option κ) (limit : Nat) (rows : List ρ) : List ρ :=
  (candidates key p after rows).take limit

/-- `last` is the row below which the next page starts, if there is one. -/
structure Page (ρ : Type*) where
  items : List ρ
  last : Option ρ

def page (limit : Nat) (after : Option κ) (rows : List ρ) : Page ρ :=
  let found := fetch key p after (limit + 1) rows
  if limit < found.length then ⟨found.take limit, (found.take limit).getLast?⟩
  else ⟨found, none⟩

def scan (limit : Nat) : Option κ → List (List ρ) → List (Page ρ)
  | _, [] => []
  | after, rows :: later =>
      let shown := page key p limit after rows
      shown :: match shown.last with
        | none => []
        | some r => scan limit (some (key r)) later

def items (pages : List (Page ρ)) : List ρ :=
  pages.flatMap Page.items

/-- The scan has reached a page after which there is nothing more. -/
def Finished (pages : List (Page ρ)) : Prop :=
  ∃ shown, pages.getLast? = some shown ∧ shown.last = none

def UniqueKeys (rows : List ρ) : Prop :=
  (rows.map key).Nodup

variable {key p} {after : Option κ} {limit : Nat} {rows : List ρ}
  {snapshots : List (List ρ)}

/-! ## One page -/

theorem mem_candidates {r : ρ} :
    r ∈ candidates key p after rows ↔
      r ∈ rows ∧ p r = true ∧ ∀ k ∈ after, key r < k := by
  unfold candidates
  rw [List.mem_insertionSort, List.mem_filter, Bool.and_eq_true, Option.all_eq_true]
  simp

theorem candidates_descending (p : ρ → Bool) (after : Option κ)
    (hunique : UniqueKeys key rows) :
    (candidates key p after rows).Pairwise fun r s => key s < key r := by
  have hsorted : (candidates key p after rows).Pairwise fun r s => key s ≤ key r := by
    have htotal : Std.Total fun r s : ρ => key s ≤ key r :=
      ⟨fun r s => le_total (key s) (key r)⟩
    have htrans : IsTrans ρ fun r s => key s ≤ key r :=
      ⟨fun r s t hrs hst => hst.trans hrs⟩
    exact List.pairwise_insertionSort _ _
  have hdistinct : (candidates key p after rows).Pairwise fun r s => key r ≠ key s := by
    have hfiltered : ((rows.filter fun r =>
        p r && after.all fun k => decide (key r < k)).map key).Nodup :=
      List.Nodup.sublist (List.filter_sublist.map key) hunique
    have hperm := (List.perm_insertionSort (fun r s : ρ => key s ≤ key r)
      (rows.filter fun r => p r && after.all fun k => decide (key r < k))).map key
    exact List.pairwise_map.mp (hperm.nodup_iff.mpr hfiltered)
  exact hsorted.imp₂ (fun r s hle hne => lt_of_le_of_ne hle hne.symm) hdistinct

theorem page_eq :
    page key p limit after rows =
      ⟨(candidates key p after rows).take limit,
        if limit < (candidates key p after rows).length then
          ((candidates key p after rows).take limit).getLast?
        else none⟩ := by
  unfold page fetch
  have htake : ((candidates key p after rows).take (limit + 1)).take limit =
      (candidates key p after rows).take limit := by
    rw [List.take_take, Nat.min_eq_left (Nat.le_succ limit)]
  dsimp only
  rw [htake, List.length_take]
  by_cases hmore : limit < (candidates key p after rows).length
  · have hfull : limit < min (limit + 1) (candidates key p after rows).length := by
      omega
    rw [if_pos hfull, if_pos hmore]
  · have hshort : ¬ limit < min (limit + 1) (candidates key p after rows).length := by
      omega
    rw [if_neg hshort, if_neg hmore, List.take_of_length_le (by omega),
      List.take_of_length_le (by omega)]

theorem page_items :
    (page key p limit after rows).items =
      (candidates key p after rows).take limit := by
  rw [page_eq]

theorem page_last_eq_some {r : ρ} (h : (page key p limit after rows).last = some r) :
    limit < (candidates key p after rows).length ∧
      ((candidates key p after rows).take limit).getLast? = some r := by
  rw [page_eq] at h
  dsimp only at h
  split at h
  · rename_i hmore
    exact ⟨hmore, h⟩
  · cases h

theorem page_last_eq_none (hlimit : 0 < limit)
    (h : (page key p limit after rows).last = none) :
    (page key p limit after rows).items = candidates key p after rows := by
  rw [page_eq] at h ⊢
  dsimp only at h ⊢
  split at h
  · rename_i hmore
    rw [List.getLast?_eq_none_iff, List.take_eq_nil_iff] at h
    rcases h with h | h
    · omega
    · rw [h] at hmore
      simp at hmore
  · exact List.take_of_length_le (by omega)

theorem last_mem {r : ρ} (h : (page key p limit after rows).last = some r) :
    r ∈ candidates key p after rows :=
  List.mem_of_mem_take (List.mem_of_getLast? (page_last_eq_some h).2)

/-- What is shown lies at or above the cursor, and the rest lies below it. -/
theorem page_splits (hunique : UniqueKeys key rows) {r : ρ}
    (h : (page key p limit after rows).last = some r) :
    (∀ s ∈ (candidates key p after rows).take limit, key r ≤ key s) ∧
      ∀ s ∈ (candidates key p after rows).drop limit, key s < key r := by
  obtain ⟨-, hlast⟩ := page_last_eq_some h
  have hdescending := candidates_descending p after hunique
  rw [← List.take_append_drop limit (candidates key p after rows),
    List.pairwise_append] at hdescending
  obtain ⟨htake, -, hbelow⟩ := hdescending
  constructor
  · intro s hs
    obtain ⟨front, hfront⟩ := List.getLast?_eq_some_iff.mp hlast
    rw [hfront] at htake hs
    rcases List.mem_append.mp hs with hs | hs
    · exact ((List.pairwise_append.mp htake).2.2 s hs r (by simp)).le
    · rw [List.mem_singleton.mp hs]
  · intro s hs
    exact hbelow r (List.mem_of_getLast? hlast) s hs

/-- Below the cursor of a page are exactly the rows it did not show. -/
theorem candidates_after_page (hunique : UniqueKeys key rows) {r : ρ}
    (h : (page key p limit after rows).last = some r) :
    candidates key p (some (key r)) rows =
      (candidates key p after rows).drop limit := by
  obtain ⟨habove, hbelow⟩ := page_splits hunique h
  have hleft := candidates_descending p (some (key r)) hunique
  have hright := (candidates_descending p after hunique).sublist
    (List.drop_sublist limit _)
  have hmem (s : ρ) : s ∈ candidates key p (some (key r)) rows ↔
      s ∈ (candidates key p after rows).drop limit := by
    constructor
    · intro hs
      obtain ⟨hrows, hp, hlt⟩ := mem_candidates.mp hs
      have hlt : key s < key r := hlt _ rfl
      have hcandidate : s ∈ candidates key p after rows := by
        obtain ⟨-, -, hr⟩ := mem_candidates.mp (last_mem h)
        exact mem_candidates.mpr ⟨hrows, hp, fun k hk => hlt.trans (hr k hk)⟩
      rw [← List.take_append_drop limit (candidates key p after rows)] at hcandidate
      rcases List.mem_append.mp hcandidate with hshown | hrest
      · exact absurd hlt (not_lt.mpr (habove s hshown))
      · exact hrest
    · intro hs
      obtain ⟨hrows, hp, -⟩ := mem_candidates.mp (List.mem_of_mem_drop hs)
      refine mem_candidates.mpr ⟨hrows, hp, fun k hk => ?_⟩
      rw [← Option.mem_some.mp hk]
      exact hbelow s hs
  have hnodup {l : List ρ} (hl : l.Pairwise fun r s => key s < key r) : l.Nodup :=
    hl.imp fun hlt heq => by rw [heq] at hlt; exact lt_irrefl _ hlt
  have hperm := (List.perm_ext_iff_of_nodup (hnodup hleft) (hnodup hright)).mpr hmem
  exact hperm.eq_of_pairwise
    (fun s t _ _ hst hts => absurd (hst.trans hts) (lt_irrefl _)) hleft hright

/-! ## A scan over one table -/

theorem scan_cons_none {later : List (List ρ)}
    (h : (page key p limit after rows).last = none) :
    scan key p limit after (rows :: later) = [page key p limit after rows] := by
  simp [scan, h]

theorem scan_cons_some {later : List (List ρ)} {r : ρ}
    (h : (page key p limit after rows).last = some r) :
    scan key p limit after (rows :: later) =
      page key p limit after rows :: scan key p limit (some (key r)) later := by
  simp [scan, h]

/-- Every page but the last is full and has a cursor. -/
def FullButLast (limit : Nat) (pages : List (Page ρ)) : Prop :=
  ∀ shown ∈ pages.dropLast, shown.items.length = limit ∧ shown.last.isSome

theorem scan_static (hlimit : 0 < limit) (hunique : UniqueKeys key rows) {n : Nat}
    (hn : (candidates key p after rows).length < n) :
    items (scan key p limit after (List.replicate n rows)) =
        candidates key p after rows ∧
      FullButLast limit (scan key p limit after (List.replicate n rows)) ∧
      Finished (scan key p limit after (List.replicate n rows)) := by
  induction n generalizing after with
  | zero => omega
  | succ n ih =>
      rw [List.replicate_succ]
      cases hlast : (page key p limit after rows).last with
      | none =>
          rw [scan_cons_none hlast]
          refine ⟨?_, ?_, _, rfl, hlast⟩
          · simp [items, page_last_eq_none hlimit hlast]
          · simp [FullButLast]
      | some r =>
          rw [scan_cons_some hlast]
          have hmore := (page_last_eq_some hlast).1
          have hrest := candidates_after_page hunique hlast
          have hshorter : (candidates key p (some (key r)) rows).length < n := by
            rw [hrest, List.length_drop]
            omega
          obtain ⟨hitems, hfull, shown, hshown, hend⟩ := ih hshorter
          have hne : scan key p limit (some (key r)) (List.replicate n rows) ≠ [] := by
            intro hnil
            rw [hnil] at hshown
            simp at hshown
          refine ⟨?_, ?_, shown, ?_, hend⟩
          · rw [items, List.flatMap_cons, ← items, hitems, page_items, hrest,
              List.take_append_drop]
          · intro page' hpage'
            rw [List.dropLast_cons_of_ne_nil hne, List.mem_cons] at hpage'
            rcases hpage' with rfl | hpage'
            · rw [page_items, List.length_take, hlast]
              exact ⟨by omega, rfl⟩
            · exact hfull page' hpage'
          · rw [List.getLast?_cons, hshown]
            rfl

/-! ## A scan over a table that changes -/

theorem mem_scan {r : ρ} (h : r ∈ items (scan key p limit after snapshots)) :
    (∃ rows ∈ snapshots, r ∈ rows) ∧ p r = true ∧ ∀ k ∈ after, key r < k := by
  induction snapshots generalizing after with
  | nil => simp [scan, items] at h
  | cons rows later ih =>
      have hpage (hr : r ∈ (page key p limit after rows).items) :
          (∃ rows' ∈ rows :: later, r ∈ rows') ∧ p r = true ∧
            ∀ k ∈ after, key r < k := by
        rw [page_items] at hr
        obtain ⟨hrows, hp, hafter⟩ := mem_candidates.mp (List.mem_of_mem_take hr)
        exact ⟨⟨rows, List.mem_cons_self, hrows⟩, hp, hafter⟩
      cases hlast : (page key p limit after rows).last with
      | none =>
          rw [scan_cons_none hlast] at h
          simp only [items, List.flatMap_cons, List.flatMap_nil, List.append_nil] at h
          exact hpage h
      | some s =>
          rw [scan_cons_some hlast, items, List.flatMap_cons, List.mem_append] at h
          rcases h with h | h
          · exact hpage h
          · obtain ⟨⟨rows', hrows', hr⟩, hp, hbelow⟩ := ih h
            obtain ⟨-, -, hs⟩ := mem_candidates.mp (last_mem hlast)
            exact ⟨⟨rows', List.mem_cons_of_mem _ hrows', hr⟩, hp,
              fun k hk => (hbelow _ rfl).trans (hs k hk)⟩

theorem scan_descending (p : ρ → Bool) (limit : Nat) (after : Option κ)
    (hunique : ∀ rows ∈ snapshots, UniqueKeys key rows) :
    (items (scan key p limit after snapshots)).Pairwise
      fun r s => key s < key r := by
  induction snapshots generalizing after with
  | nil => simp [scan, items]
  | cons rows later ih =>
      have hrows := hunique rows List.mem_cons_self
      have hlater := fun rows' h => hunique rows' (List.mem_cons_of_mem _ h)
      have hshown : (page key p limit after rows).items.Pairwise
          fun r s => key s < key r := by
        rw [page_items]
        exact (candidates_descending p after hrows).sublist (List.take_sublist _ _)
      cases hlast : (page key p limit after rows).last with
      | none =>
          rw [scan_cons_none hlast]
          simpa [items] using hshown
      | some r =>
          rw [scan_cons_some hlast, items, List.flatMap_cons, List.pairwise_append]
          refine ⟨hshown, ih _ hlater, ?_⟩
          intro s hs s' hs'
          rw [page_items] at hs
          obtain ⟨-, -, hbelow⟩ := mem_scan hs'
          exact (hbelow _ rfl).trans_le ((page_splits hrows hlast).1 s hs)

theorem finished_tail {shown : Page ρ} {rest : List (Page ρ)} {r : ρ}
    (hlast : shown.last = some r) (h : Finished (shown :: rest)) :
    Finished rest := by
  obtain ⟨final, hfinal, hend⟩ := h
  rw [List.getLast?_cons] at hfinal
  cases hrest : rest.getLast? with
  | none =>
      rw [hrest, Option.getD_none, Option.some.injEq] at hfinal
      rw [← hfinal, hlast] at hend
      cases hend
  | some final' =>
      rw [hrest, Option.getD_some, Option.some.injEq] at hfinal
      exact ⟨final', hrest, hfinal ▸ hend⟩

/-- A finished scan has shown what was there and matched all the time. -/
theorem scan_complete (hlimit : 0 < limit)
    (hunique : ∀ rows ∈ snapshots, UniqueKeys key rows) {k : κ}
    (hafter : ∀ c ∈ after, k < c)
    (hstays : ∀ rows ∈ snapshots, ∃ r ∈ rows, p r = true ∧ key r = k)
    (hfinished : Finished (scan key p limit after snapshots)) :
    ∃ r ∈ items (scan key p limit after snapshots), key r = k := by
  induction snapshots generalizing after with
  | nil =>
      obtain ⟨shown, hshown, -⟩ := hfinished
      simp [scan] at hshown
  | cons rows later ih =>
      have hrows := hunique rows List.mem_cons_self
      obtain ⟨r, hr, hp, rfl⟩ := hstays rows List.mem_cons_self
      have hcandidate : r ∈ candidates key p after rows :=
        mem_candidates.mpr ⟨hr, hp, hafter⟩
      cases hlast : (page key p limit after rows).last with
      | none =>
          rw [scan_cons_none hlast]
          refine ⟨r, ?_, rfl⟩
          simpa [items, page_last_eq_none hlimit hlast] using hcandidate
      | some s =>
          rw [scan_cons_some hlast] at hfinished ⊢
          rw [items, List.flatMap_cons]
          rw [← List.take_append_drop limit (candidates key p after rows),
            List.mem_append] at hcandidate
          rcases hcandidate with hshown | hrest
          · rw [← page_items] at hshown
            exact ⟨r, List.mem_append_left _ hshown, rfl⟩
          · have hbelow := (page_splits hrows hlast).2 r hrest
            obtain ⟨r', hr', hkey⟩ := ih
              (fun rows' h => hunique rows' (List.mem_cons_of_mem _ h))
              (fun c hc => by rw [← Option.mem_some.mp hc]; exact hbelow)
              (fun rows' h => hstays rows' (List.mem_cons_of_mem _ h))
              (finished_tail hlast hfinished)
            exact ⟨r', List.mem_append_right _ hr', hkey⟩

end IsolatedEnv.Foundation.Keyset
