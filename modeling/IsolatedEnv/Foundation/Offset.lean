import Mathlib.Data.List.Sort
import Mathlib.Order.Basic

/-!
# Offset pagination

Rows are listed by a key in descending order, and a page is cut out of that list
at a multiple of the page length.  Each page is a query of its own, and rows of
one key come in an order that may differ from query to query.

Two orders of the same rows agree on what comes before a position, up to order,
unless rows of one key lie on both sides of it.  So the pages are a partition of
the rows exactly when no page begins between two rows of one key.
-/

namespace IsolatedEnv.Foundation.Offset

variable {ρ κ : Type*} [LinearOrder κ] (key : ρ → κ)

/-- An order in which `ORDER BY key DESC` may return the rows. -/
structure Ordered (rows order : List ρ) : Prop where
  perm : order.Perm rows
  descending : order.Pairwise fun r s => key s ≤ key r

def page (limit k : Nat) (order : List ρ) : List ρ :=
  (order.drop (k * limit)).take limit

/-- The first `m` pages one after another. -/
def concat (shown : Nat → List ρ) : Nat → List ρ
  | 0 => []
  | m + 1 => concat shown m ++ shown m

/-- The `k`-th page is cut out of the `k`-th order. -/
def pages (limit : Nat) (orders : Nat → List ρ) (m : Nat) : List ρ :=
  concat (fun k => page limit k (orders k)) m

def newer (rows : List ρ) (r : ρ) : Nat :=
  rows.countP fun s => key r < key s

def notOlder (rows : List ρ) (r : ρ) : Nat :=
  rows.countP fun s => key r ≤ key s

/-- Rows of one key lie on both sides of the position. -/
def Splits (rows : List ρ) (n : Nat) : Prop :=
  ∃ r ∈ rows, newer key rows r < n ∧ n < notOlder key rows r

/-- A page begins between two rows of one key. -/
def Straddled (limit : Nat) (rows : List ρ) : Prop :=
  ∃ k, Splits key rows (k * limit)

/-! ## Positions in an ordered list -/

theorem lt_countP_iff {order : List ρ} {q : ρ → Bool}
    (h : order.Pairwise fun r s => q s = true → q r = true) {j : Nat} {r : ρ}
    (hr : order[j]? = some r) : j < order.countP q ↔ q r = true := by
  induction order generalizing j with
  | nil => simp at hr
  | cons s order ih =>
      obtain ⟨hhead, htail⟩ := List.pairwise_cons.mp h
      by_cases hs : q s = true
      · rw [List.countP_cons_of_pos hs]
        cases j with
        | zero =>
            rw [List.getElem?_cons_zero, Option.some.injEq] at hr
            subst hr
            simp [hs]
        | succ j =>
            rw [List.getElem?_cons_succ] at hr
            rw [Nat.succ_lt_succ_iff]
            exact ih htail hr
      · have hnone : ∀ r ∈ s :: order, ¬q r = true := by
          intro r hr hq
          rcases List.mem_cons.mp hr with rfl | hr
          · exact hs hq
          · exact hs (hhead r hr hq)
        rw [List.countP_eq_zero.mpr hnone]
        have hmem := List.mem_of_getElem? hr
        simp [hnone r hmem]

theorem filter_eq_take {order : List ρ} {p : ρ → Bool} {n : Nat}
    (h : ∀ i r, order[i]? = some r → (p r = true ↔ i < n)) :
    order.filter p = order.take n := by
  have hbefore : (order.take n).filter p = order.take n := by
    rw [List.filter_eq_self]
    intro r hr
    obtain ⟨i, hi⟩ := List.mem_iff_getElem?.mp hr
    rw [List.getElem?_take] at hi
    split at hi
    · rename_i hin
      exact (h i r hi).mpr hin
    · cases hi
  have hafter : (order.drop n).filter p = [] := by
    rw [List.filter_eq_nil_iff]
    intro r hr hp
    obtain ⟨i, hi⟩ := List.mem_iff_getElem?.mp hr
    rw [List.getElem?_drop] at hi
    have hlt := (h _ r hi).mp hp
    omega
  conv_lhs => rw [← List.take_append_drop n order]
  rw [List.filter_append, hbefore, hafter, List.append_nil]

section Order

variable {key} {rows order order' : List ρ} {n i : Nat} {r s : ρ}

theorem Ordered.lt_newer_iff (h : Ordered key rows order) (r : ρ)
    (hs : order[i]? = some s) : i < newer key rows r ↔ key r < key s := by
  have hmono : order.Pairwise fun a b =>
      decide (key r < key b) = true → decide (key r < key a) = true := by
    refine h.descending.imp fun {a b} hle hlt => ?_
    rw [decide_eq_true_eq] at hlt ⊢
    exact lt_of_lt_of_le hlt hle
  rw [newer, ← h.perm.countP_eq, lt_countP_iff hmono hs, decide_eq_true_eq]

theorem Ordered.lt_notOlder_iff (h : Ordered key rows order) (r : ρ)
    (hs : order[i]? = some s) : i < notOlder key rows r ↔ key r ≤ key s := by
  have hmono : order.Pairwise fun a b =>
      decide (key r ≤ key b) = true → decide (key r ≤ key a) = true := by
    refine h.descending.imp fun {a b} hle hlt => ?_
    rw [decide_eq_true_eq] at hlt ⊢
    exact le_trans hlt hle
  rw [notOlder, ← h.perm.countP_eq, lt_countP_iff hmono hs, decide_eq_true_eq]

theorem Ordered.mem_rows (h : Ordered key rows order) (hr : order[i]? = some r) :
    r ∈ rows :=
  h.perm.subset (List.mem_of_getElem? hr)

/-- What comes before a position is told by the keys alone. -/
theorem Ordered.take_eq_filter (h : Ordered key rows order)
    (hsplits : ¬Splits key rows n) :
    order.take n = order.filter fun r => notOlder key rows r ≤ n := by
  refine (filter_eq_take fun i r hr => ?_).symm
  rw [decide_eq_true_eq]
  have hnewer := h.lt_newer_iff r hr
  have hnotOlder : i < notOlder key rows r := (h.lt_notOlder_iff r hr).mpr le_rfl
  have hlow : newer key rows r ≤ i := by
    by_contra hlt
    exact lt_irrefl _ (hnewer.mp (by omega))
  constructor
  · intro hle
    omega
  · intro hlt
    by_contra hle
    exact hsplits ⟨r, h.mem_rows hr, by omega, by omega⟩

theorem Ordered.take_perm (h : Ordered key rows order)
    (h' : Ordered key rows order') (hsplits : ¬Splits key rows n) :
    (order.take n).Perm (order'.take n) := by
  rw [h.take_eq_filter hsplits, h'.take_eq_filter hsplits]
  exact (h.perm.trans h'.perm.symm).filter _

end Order

/-! ## The pages -/

section Pages

variable {key} {rows : List ρ} {orders : Nat → List ρ} {limit : Nat}

theorem pages_succ (limit : Nat) (orders : Nat → List ρ) (m : Nat) :
    pages limit orders (m + 1) = pages limit orders m ++ page limit m (orders m) := rfl

theorem pages_same (limit : Nat) (order : List ρ) (m : Nat) :
    pages limit (fun _ => order) m = order.take (m * limit) := by
  induction m with
  | zero => simp [pages, concat]
  | succ m ih => rw [pages_succ, ih, page, Nat.succ_mul, List.take_add]

theorem pages_congr {orders' : Nat → List ρ} {m : Nat}
    (h : ∀ k < m, orders k = orders' k) :
    pages limit orders m = pages limit orders' m := by
  induction m with
  | zero => rfl
  | succ m ih =>
      rw [pages_succ, pages_succ, ih fun k hk => h k (by omega), h m (by omega)]

theorem pages_perm_take {order : List ρ} {m : Nat}
    (horders : ∀ k, Ordered key rows (orders k)) (horder : Ordered key rows order)
    (h : ¬Straddled key limit rows) :
    (pages limit orders m).Perm (order.take (m * limit)) := by
  induction m generalizing order with
  | zero => simp [pages, concat]
  | succ m ih =>
      have hbefore := ih (horders m)
      have hpages : (pages limit orders (m + 1)).Perm
          ((orders m).take ((m + 1) * limit)) := by
        rw [pages_succ, page, Nat.succ_mul, List.take_add]
        exact hbefore.append_right _
      exact hpages.trans
        ((horders m).take_perm horder fun hsplits => h ⟨m + 1, hsplits⟩)

theorem pages_perm {m : Nat} (horders : ∀ k, Ordered key rows (orders k))
    (h : ¬Straddled key limit rows) (hm : rows.length ≤ m * limit) :
    (pages limit orders m).Perm rows := by
  have hpages := pages_perm_take (m := m) horders (horders 0) h
  rw [List.take_of_length_le (by rw [(horders 0).perm.length_eq]; exact hm)] at hpages
  exact hpages.trans (horders 0).perm

/-- Two neighbours of one key may change places. -/
theorem Ordered.swap {before after : List ρ} {r s : ρ} (heq : key r = key s)
    (h : Ordered key rows (before ++ r :: s :: after)) :
    Ordered key rows (before ++ s :: r :: after) where
  perm := (List.Perm.append_left before (List.Perm.swap r s after)).trans h.perm
  descending := by
    have hdescending := h.descending
    simp only [List.pairwise_append, List.pairwise_cons, List.mem_cons] at hdescending ⊢
    obtain ⟨hbefore, ⟨hr, hs, hafter⟩, hacross⟩ := hdescending
    refine ⟨hbefore, ⟨?_, fun a ha => hr a (.inr ha), hafter⟩, ?_⟩
    · rintro a (rfl | ha)
      · exact heq.le
      · exact hs a ha
    · rintro a ha b (rfl | rfl | hb)
      · exact hacross a ha b (.inr (.inl rfl))
      · exact hacross a ha b (.inl rfl)
      · exact hacross a ha b (.inr (.inr hb))

theorem Ordered.neighbours {order : List ρ} {n : Nat} (h : Ordered key rows order)
    (hsplits : Splits key rows n) :
    ∃ before r s after, order = before ++ r :: s :: after ∧
      before.length + 1 = n ∧ key r = key s := by
  obtain ⟨r, -, hnewer, hnotOlder⟩ := hsplits
  have hlength : notOlder key rows r ≤ order.length := by
    rw [h.perm.length_eq]
    exact List.countP_le_length
  have hkey : ∀ i s, newer key rows r ≤ i → i < notOlder key rows r →
      order[i]? = some s → key s = key r := by
    intro i s hlow hhigh hs
    have hle := (h.lt_notOlder_iff r hs).mp hhigh
    have hnlt : ¬key r < key s := fun hlt => by
      have hi := (h.lt_newer_iff r hs).mpr hlt
      omega
    exact le_antisymm (not_lt.mp hnlt) hle
  obtain ⟨i, rfl⟩ : ∃ i, n = i + 1 := ⟨n - 1, by omega⟩
  have hin : i < order.length := by omega
  have hin' : i + 1 < order.length := by omega
  have hi : order[i]? = some order[i] := List.getElem?_eq_getElem hin
  have hi' : order[i + 1]? = some order[i + 1] := List.getElem?_eq_getElem hin'
  refine ⟨order.take i, _, _, order.drop (i + 2), ?_, ?_,
    (hkey i _ (by omega) (by omega) hi).trans
      (hkey (i + 1) _ (by omega) (by omega) hi').symm⟩
  · rw [List.getElem_cons_drop, List.getElem_cons_drop, List.take_append_drop]
  · rw [List.length_take]
    omega

theorem pages_switch (order order' : List ρ) (k d : Nat) :
    pages limit (fun j => if j < k then order else order') (k + d) =
      order.take (k * limit) ++ (order'.drop (k * limit)).take (d * limit) := by
  induction d with
  | zero =>
      rw [Nat.add_zero, Nat.zero_mul, List.take_zero, List.append_nil, ← pages_same]
      exact pages_congr fun j hj => if_pos hj
  | succ d ih =>
      rw [← Nat.add_assoc, pages_succ, ih, if_neg (by omega), page, Nat.add_mul,
        List.append_assoc, Nat.succ_mul, List.take_add, List.drop_drop]

/--
Where a page begins between two rows of one key, the second of the queries before
and after may show again what the first has shown.
-/
theorem exists_orders_not_perm (hrows : rows.Nodup) {order : List ρ}
    (horder : Ordered key rows order) (h : Straddled key limit rows) :
    ∃ orders : Nat → List ρ, (∀ k, Ordered key rows (orders k)) ∧
      ∀ m, rows.length ≤ m * limit → ¬(pages limit orders m).Perm rows := by
  obtain ⟨k, hsplits⟩ := h
  obtain ⟨before, r, s, after, rfl, hlength, hkey⟩ := horder.neighbours hsplits
  refine ⟨fun j => if j < k then before ++ r :: s :: after else before ++ s :: r :: after,
    fun j => ?_, fun m hm hperm => ?_⟩
  · dsimp only
    split
    · exact horder
    · exact horder.swap hkey
  · have hrowsLength := horder.perm.length_eq
    rw [List.length_append, List.length_cons, List.length_cons] at hrowsLength
    have hkm : k < m := by
      by_contra hmk
      have hle := Nat.mul_le_mul_right limit (Nat.le_of_not_lt hmk)
      omega
    obtain ⟨d, rfl⟩ := Nat.exists_eq_add_of_lt hkm
    rw [Nat.add_assoc, pages_switch] at hperm
    have htake : (before ++ r :: s :: after).take (k * limit) = before ++ [r] := by
      rw [← hlength, List.take_append, List.take_of_length_le (by omega)]
      simp
    have hdrop : (before ++ s :: r :: after).drop (k * limit) = r :: after := by
      rw [← hlength, List.drop_append, List.drop_of_length_le (by omega)]
      simp
    have hmore : (d + 1) * limit ≠ 0 := by
      rw [Nat.add_assoc, Nat.add_mul] at hm
      omega
    obtain ⟨q, hq⟩ := Nat.exists_eq_succ_of_ne_zero hmore
    rw [htake, hdrop, hq, List.take_succ_cons] at hperm
    have htwice := hperm.nodup_iff.mpr hrows
    rw [List.nodup_append] at htwice
    exact htwice.2.2 r (by simp) r (by simp) rfl

end Pages

/-! ## Rows that come in between the pages -/

section Growing

variable {key} {limit : Nat} {r : ρ}

/-- The position lies between the row and one of its key. -/
def SplitsAt (key : ρ → κ) (rows : List ρ) (n : Nat) (r : ρ) : Prop :=
  newer key rows r < n ∧ n < notOlder key rows r

instance (rows : List ρ) (n : Nat) (r : ρ) : Decidable (SplitsAt key rows n r) :=
  inferInstanceAs (Decidable (_ ∧ _))

/-- Rows that come in push the row back at most, unless a page begins within its key. -/
theorem Ordered.le_of_growing {rows rows' order order' : List ρ} {n i j : Nat}
    (h : Ordered key rows order) (h' : Ordered key rows' order') (hsub : rows.Sublist rows')
    (hi : order[i]? = some r) (hni : n ≤ i) (hj : order'[j]? = some r)
    (hsplits : ¬SplitsAt key rows' n r) : n ≤ j := by
  have hnotOlder : i < notOlder key rows r := (h.lt_notOlder_iff r hi).mpr le_rfl
  have hgrown : notOlder key rows r ≤ notOlder key rows' r := hsub.countP_le
  have hnewer : newer key rows' r ≤ j := by
    by_contra hlt
    exact lt_irrefl _ ((h'.lt_newer_iff r hj).mp (Nat.lt_of_not_le hlt))
  by_contra hlt
  exact hsplits ⟨by omega, by omega⟩

theorem mem_page {order : List ρ} {k i : Nat} (hi : order[i]? = some r)
    (hlow : k * limit ≤ i) (hhigh : i < (k + 1) * limit) : r ∈ page limit k order := by
  refine List.mem_of_getElem? (i := i - k * limit) ?_
  rw [page, List.getElem?_take_of_lt (by rw [Nat.add_mul] at hhigh; omega), List.getElem?_drop,
    Nat.add_sub_cancel' hlow]
  exact hi

/--
A walk from page `k` on meets every row that lies ahead of it, whatever comes in before each
page.  A view has the rows and the order that its page is cut from.
-/
theorem exists_page_of_growing {views : List (List ρ × List ρ)} {k : Nat}
    (hordered : ∀ v ∈ views, Ordered key v.1 v.2)
    (hgrowing : views.IsChain fun v w => v.1.Sublist w.1)
    (hstart : ∀ v ∈ views.head?, r ∈ v.1 ∧ ∀ i, v.2[i]? = some r → k * limit ≤ i)
    (hend : ∃ v ∈ views.getLast?, v.1.length ≤ (k + views.length) * limit)
    (hsplits : ∀ j v, views[j]? = some v → ¬SplitsAt key v.1 ((k + j) * limit) r) :
    ∃ j v, views[j]? = some v ∧ r ∈ page limit (k + j) v.2 := by
  induction views generalizing k with
  | nil =>
      obtain ⟨v, hv, -⟩ := hend
      cases hv
  | cons v views ih =>
      obtain ⟨hv, hviews⟩ := List.forall_mem_cons.mp hordered
      obtain ⟨hr, hlow⟩ := hstart v rfl
      obtain ⟨i, hi⟩ := List.getElem?_of_mem (hv.perm.symm.subset hr)
      by_cases hhigh : i < (k + 1) * limit
      · exact ⟨0, v, rfl, mem_page hi (hlow i hi) hhigh⟩
      have hbehind : (k + 1) * limit ≤ i := Nat.le_of_not_lt hhigh
      cases views with
      | nil =>
          obtain ⟨w, hw, hlength⟩ := hend
          cases hw
          have hlt := (List.getElem?_eq_some_iff.mp hi).1
          rw [hv.perm.length_eq] at hlt
          exact absurd (hbehind.trans_lt hlt) (Nat.not_lt.mpr hlength)
      | cons w views =>
          obtain ⟨hsub, hrest⟩ := List.isChain_cons_cons.mp hgrowing
          have hnext (j : Nat) (u : List ρ × List ρ) (hu : (w :: views)[j]? = some u) :
              ¬SplitsAt key u.1 ((k + 1 + j) * limit) r := by
            rw [Nat.add_right_comm k 1 j, Nat.add_assoc k j 1]
            exact hsplits (j + 1) u hu
          obtain ⟨j, u, hu, hmem⟩ := ih hviews hrest (fun u hu => by
              cases hu
              exact ⟨hsub.subset hr, fun j hj => hv.le_of_growing
                (hviews _ List.mem_cons_self) hsub hi hbehind hj (hnext 0 _ rfl)⟩)
            (by
              obtain ⟨u, hu, hlength⟩ := hend
              refine ⟨u, by rwa [List.getLast?_cons_cons] at hu, ?_⟩
              rwa [Nat.add_assoc, Nat.add_comm 1])
            hnext
          refine ⟨j + 1, u, hu, ?_⟩
          rwa [Nat.add_right_comm, Nat.add_assoc] at hmem

end Growing

end IsolatedEnv.Foundation.Offset
