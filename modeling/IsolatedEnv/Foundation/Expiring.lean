import IsolatedEnv.Foundation.Rows

/-!
# Maps whose entries expire

An entry is live until its moment has come.  An expired entry stays where it is
and is not seen any more, so that time passes without touching the map.
-/

namespace IsolatedEnv.Foundation

structure Timed (κ α : Type*) where
  key : κ
  value : α
  expires : Nat
  deriving DecidableEq

structure Expiring (κ α : Type*) where
  entries : List (Timed κ α)

namespace Expiring

variable {κ α : Type*}

def empty : Expiring κ α := ⟨[]⟩

def liveKeys (m : Expiring κ α) (now : Nat) : List κ :=
  (m.entries.filter fun t => now < t.expires).map Timed.key

variable [DecidableEq κ]

def entry (m : Expiring κ α) (k : κ) : Option (Timed κ α) :=
  Rows.find Timed.key k m.entries

/-- The value of a live entry. -/
def live (m : Expiring κ α) (now : Nat) (k : κ) : Option α :=
  (m.entry k).bind fun t => if now < t.expires then some t.value else none

def eraseAll (m : Expiring κ α) (keys : List κ) : Expiring κ α :=
  ⟨m.entries.filter fun t => t.key ∉ keys⟩

def erase (m : Expiring κ α) (k : κ) : Expiring κ α := m.eraseAll [k]

def set (m : Expiring κ α) (k : κ) (value : α) (expires : Nat) : Expiring κ α :=
  ⟨⟨k, value, expires⟩ :: (m.erase k).entries⟩

variable {m : Expiring κ α} {k l : κ} {keys : List κ} {now later expires : Nat} {a b : α}

/-! ## Entries -/

theorem entry_eraseAll (h : l ∉ keys) : (m.eraseAll keys).entry l = m.entry l := by
  unfold entry eraseAll Rows.find
  rw [List.find?_filter]
  congr 1
  funext t
  by_cases ht : t.key = l
  · simp [ht, h]
  · simp [ht]

theorem entry_eraseAll_of_mem (h : l ∈ keys) : (m.eraseAll keys).entry l = none := by
  apply Rows.find_eq_none.mpr
  rintro t ht rfl
  exact (of_decide_eq_true (List.mem_filter.mp ht).2) h

theorem entry_erase_of_ne (h : l ≠ k) : (m.erase k).entry l = m.entry l :=
  entry_eraseAll (by simpa using h)

@[simp] theorem entry_set_self : (m.set k a expires).entry k = some ⟨k, a, expires⟩ := by
  simp [set, entry, Rows.find]

theorem entry_set_of_ne (h : l ≠ k) : (m.set k a expires).entry l = m.entry l := by
  have hcons : (m.set k a expires).entry l = (m.erase k).entry l := by
    simp [set, entry, Rows.find, Ne.symm h]
  rw [hcons, entry_erase_of_ne h]

/-! ## Live entries -/

theorem live_eq_some :
    m.live now k = some a ↔
      ∃ expires, m.entry k = some ⟨k, a, expires⟩ ∧ now < expires := by
  unfold live
  cases hentry : m.entry k with
  | none => simp
  | some t =>
      have hkey : t.key = k := Rows.key_of_find hentry
      obtain ⟨key, value, expires⟩ := t
      subst hkey
      simp only [Option.bind_some, Option.ite_none_right_eq_some, Option.some.injEq,
        Timed.mk.injEq, true_and]
      constructor
      · rintro ⟨hnow, rfl⟩
        exact ⟨_, ⟨rfl, rfl⟩, hnow⟩
      · rintro ⟨_, ⟨rfl, rfl⟩, hnow⟩
        exact ⟨hnow, rfl⟩

theorem mem_liveKeys (h : m.live now k = some a) : k ∈ m.liveKeys now := by
  obtain ⟨expires, hentry, hnow⟩ := live_eq_some.mp h
  exact List.mem_map.mpr
    ⟨_, List.mem_filter.mpr ⟨Rows.mem_of_find hentry, by simpa using hnow⟩, rfl⟩

theorem live_earlier (hle : now ≤ later) (h : m.live later k = some a) :
    m.live now k = some a := by
  obtain ⟨expires, hentry, hlater⟩ := live_eq_some.mp h
  exact live_eq_some.mpr ⟨expires, hentry, Nat.lt_of_le_of_lt hle hlater⟩

theorem live_set (h : (m.set k a expires).live now l = some b) :
    l = k ∧ b = a ∨ m.live now l = some b := by
  by_cases hkey : l = k
  · subst hkey
    obtain ⟨_, hentry, -⟩ := live_eq_some.mp h
    rw [entry_set_self] at hentry
    cases hentry
    exact .inl ⟨rfl, rfl⟩
  · right
    rw [live, entry_set_of_ne hkey] at h
    exact h

theorem live_eraseAll (h : (m.eraseAll keys).live now l = some b) :
    l ∉ keys ∧ m.live now l = some b := by
  obtain ⟨expires, hentry, hnow⟩ := live_eq_some.mp h
  by_cases hmem : l ∈ keys
  · rw [entry_eraseAll_of_mem hmem] at hentry
    cases hentry
  · rw [entry_eraseAll hmem] at hentry
    exact ⟨hmem, live_eq_some.mpr ⟨expires, hentry, hnow⟩⟩

/-! ## A part of the keys -/

section Only

variable {own : κ → Bool}

def only (own : κ → Bool) (m : Expiring κ α) : Expiring κ α :=
  ⟨m.entries.filter fun t => own t.key⟩

theorem live_only (h : own k = true) : (m.only own).live now k = m.live now k := by
  unfold live entry only
  rw [Rows.find_filter fun t _ ht => by rw [ht, h]]

theorem eraseAll_only : (m.only own).eraseAll keys = (m.eraseAll keys).only own := by
  simp only [only, eraseAll, List.filter_filter, Bool.and_comm]

theorem eraseAll_only_other (h : ∀ l ∈ keys, own l = false) :
    (m.eraseAll keys).only own = m.only own := by
  simp only [only, eraseAll, List.filter_filter]
  congr 1
  refine List.filter_congr fun t _ => ?_
  by_cases ht : t.key ∈ keys
  · simp [h t.key ht]
  · simp [ht]

theorem erase_only : (m.only own).erase k = (m.erase k).only own :=
  eraseAll_only

theorem erase_only_other (h : own k = false) : (m.erase k).only own = m.only own :=
  eraseAll_only_other (by simpa using h)

theorem set_only (h : own k = true) :
    (m.only own).set k a expires = (m.set k a expires).only own := by
  unfold set
  rw [erase_only]
  simp [only, h]

theorem set_only_other (h : own k = false) :
    (m.set k a expires).only own = m.only own := by
  have hcons : (m.set k a expires).only own = (m.erase k).only own := by
    simp [only, set, h]
  rw [hcons, erase_only_other h]

end Only

end Expiring

end IsolatedEnv.Foundation
