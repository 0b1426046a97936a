import IsolatedEnv.Backend.Audit.Service
import IsolatedEnv.Backend.FeatureExample.Items
import IsolatedEnv.Backend.Users.Pagination
import IsolatedEnv.Foundation.Offset

/-!
# Listings by offset

The listings of users, audit entries and items that take an offset are ordered
by creation time alone.  Each page is a query of its own, and `ranks` is the
database's choice for each of them.  The pages show every row exactly once
unless a page begins between two rows of one creation time.
-/

namespace IsolatedEnv.Backend

open IsolatedEnv.Foundation

/-! ## The orders the database may choose -/

section NewestFirst

variable {ρ : Type} {createdAt : ρ → Timestamp} {id : ρ → Uuid} {rows order : List ρ}

/-- What `newestFirst` sorts by. -/
def Precedes (createdAt : ρ → Timestamp) (rank : ρ → Nat) (r s : ρ) : Prop :=
  (createdAt s).microseconds < (createdAt r).microseconds ∨
    createdAt r = createdAt s ∧ rank r ≤ rank s

instance precedesDecidable (createdAt : ρ → Timestamp) (rank : ρ → Nat) :
    DecidableRel (Precedes createdAt rank) :=
  fun _ _ => inferInstanceAs (Decidable (_ ∨ _))

theorem precedes_total (createdAt : ρ → Timestamp) (rank : ρ → Nat) :
    Std.Total (Precedes createdAt rank) where
  total r s := by
    rcases Nat.lt_trichotomy (createdAt s).microseconds (createdAt r).microseconds with
      hlt | heq | hlt
    · exact .inl (.inl hlt)
    · have hmoment := Civil.microseconds_injective heq
      rcases Nat.le_total (rank r) (rank s) with hle | hle
      · exact .inl (.inr ⟨hmoment.symm, hle⟩)
      · exact .inr (.inr ⟨hmoment, hle⟩)
    · exact .inr (.inl hlt)

theorem precedes_trans (createdAt : ρ → Timestamp) (rank : ρ → Nat) :
    IsTrans ρ (Precedes createdAt rank) where
  trans a b c := by
    rintro (hab | ⟨hab, hrank⟩) (hbc | ⟨hbc, hrank'⟩)
    · exact .inl (hbc.trans hab)
    · exact .inl (hbc ▸ hab)
    · exact .inl (hab ▸ hbc)
    · exact .inr ⟨hab.trans hbc, hrank.trans hrank'⟩

theorem newestFirst_pairwise (createdAt : ρ → Timestamp) (rank : ρ → Nat)
    (rows : List ρ) :
    (newestFirst createdAt rank rows).Pairwise (Precedes createdAt rank) := by
  have htotal := precedes_total createdAt rank
  have htrans := precedes_trans createdAt rank
  exact List.pairwise_insertionSort (Precedes createdAt rank) rows

theorem newestFirst_perm (createdAt : ρ → Timestamp) (rank : ρ → Nat)
    (rows : List ρ) : (newestFirst createdAt rank rows).Perm rows :=
  List.perm_insertionSort _ _

theorem newestFirst_ordered (createdAt : ρ → Timestamp) (rank : ρ → Nat)
    (rows : List ρ) :
    Offset.Ordered (fun r => (createdAt r).microseconds) rows
      (newestFirst createdAt rank rows) where
  perm := newestFirst_perm createdAt rank rows
  descending := by
    refine (newestFirst_pairwise createdAt rank rows).imp fun {r s} h => ?_
    rcases h with hlt | ⟨heq, -⟩
    · exact hlt.le
    · exact (congrArg Civil.microseconds heq).ge

/-- Every order by creation time is the database's choice for some rank. -/
theorem newestFirst_of_ordered (hid : Rows.UniqueKey id rows)
    (h : Offset.Ordered (fun r => (createdAt r).microseconds) rows order) :
    newestFirst createdAt (fun r => (order.map id).idxOf (id r)) rows = order := by
  have hnodup : (order.map id).Nodup := (h.perm.map id).nodup_iff.mpr hid
  have hposition (i : Nat) (hi : i < order.length) :
      (order.map id).idxOf (id order[i]) = i := by
    have hget := hnodup.idxOf_getElem i (by simpa using hi)
    rwa [List.getElem_map] at hget
  have hperm := newestFirst_perm createdAt
    (fun r => (order.map id).idxOf (id r)) rows
  refine List.Perm.eq_of_pairwise ?_ (newestFirst_pairwise createdAt _ rows) ?_
    (hperm.trans h.perm.symm)
  · intro r s hr hs hrs hsr
    have hranks : (order.map id).idxOf (id r) = (order.map id).idxOf (id s) := by
      rcases hrs with hlt | ⟨heq, hle⟩ <;> rcases hsr with hlt' | ⟨heq', hle'⟩
      · omega
      · rw [heq'] at hlt
        omega
      · rw [heq] at hlt'
        omega
      · exact hle.antisymm hle'
    have hr' : r ∈ order := h.perm.symm.subset (hperm.subset hr)
    have heq : id r = id s :=
      List.idxOf_inj (List.mem_map_of_mem hr') |>.mp hranks
    exact hid.eq (hperm.subset hr) (h.perm.subset hs) heq
  · rw [List.pairwise_iff_getElem]
    intro i j hi hj hij
    have hle := List.pairwise_iff_getElem.mp h.descending i j hi hj hij
    rcases hle.lt_or_eq with hlt | heq
    · exact .inl hlt
    · refine .inr ⟨Civil.microseconds_injective heq.symm, ?_⟩
      dsimp only
      rw [hposition i hi, hposition j hj]
      exact hij.le

end NewestFirst

/-! ## Pages that are asked for -/

section Pages

variable {ρ : Type}

/-- The pages of a listing from its beginning to its end, one past it at most. -/
def Covers (limit m : Nat) (rows : List ρ) : Prop :=
  rows.length ≤ m * limit ∧ (m - 1) * limit ≤ rows.length

/-- The last offset that a page is asked for. -/
def lastOffset (limit : Nat) (rows : List ρ) : Nat := rows.length / limit * limit

/-- The pages at `0`, `limit`, `2 * limit` and so on are answered, with every row once. -/
structure Shows (query : Nat → Nat → Except Exc (List ρ)) (limit m : Nat) (rows : List ρ)
    (pages : Nat → List ρ) : Prop where
  answered : ∀ k < m, query k (k * limit) = .ok (pages k)
  perm : (Offset.concat pages m).Perm rows

theorem covers_last {limit : Nat} (hlimit : 1 ≤ limit) (rows : List ρ) :
    Covers limit (rows.length / limit + 1) rows := by
  have hdiv := Nat.lt_mul_div_succ rows.length hlimit
  have hle := Nat.div_mul_le_self rows.length limit
  rw [Nat.mul_comm] at hdiv
  exact ⟨hdiv.le, hle⟩

theorem Covers.offset_le {limit m k : Nat} {rows : List ρ} (h : Covers limit m rows)
    (hk : k < m) : k * limit ≤ lastOffset limit rows := by
  rcases Nat.eq_zero_or_pos limit with rfl | hlimit
  · simp
  · have hbefore : k * limit ≤ rows.length :=
      (Nat.mul_le_mul_right limit (by omega : k ≤ m - 1)).trans h.2
    exact Nat.mul_le_mul_right limit ((Nat.le_div_iff_mul_le hlimit).mpr hbefore)

theorem Takes.smaller {texts : List String} {n n' limit : Nat} (h : Takes texts [n, limit])
    (hle : n' ≤ n) : Takes texts [n', limit] := by
  obtain ⟨htexts, hnumbers⟩ := h
  refine ⟨htexts, ?_⟩
  simp only [List.forall_mem_cons, isBigint, decide_eq_true_eq] at hnumbers ⊢
  exact ⟨hle.trans_lt hnumbers.1, hnumbers.2⟩

theorem concat_congr {shown shown' : Nat → List ρ} {m : Nat}
    (h : ∀ k < m, shown k = shown' k) : Offset.concat shown m = Offset.concat shown' m := by
  induction m with
  | zero => rfl
  | succ m ih =>
      rw [Offset.concat, Offset.concat, ih fun k hk => h k (Nat.lt_succ_of_lt hk),
        h m (Nat.lt_succ_self m)]

/-- A query in the order by creation time that the database chooses. -/
def newestPage (texts : List String) (createdAt : ρ → Timestamp) (id : ρ → Uuid)
    (rows : List ρ) (limit : Nat) (rank : Uuid → Nat) (offset : Nat) : Except Exc (List ρ) :=
  select texts [offset, limit]
    (((newestFirst createdAt (fun r => rank (id r)) rows).drop offset).take limit)

variable {texts : List String} {createdAt : ρ → Timestamp} {id : ρ → Uuid} {rows : List ρ}
  {limit : Nat}

theorem newestPages_show (hshort : Takes texts [lastOffset limit rows, limit])
    (hties : ¬Offset.Straddled (fun r => (createdAt r).microseconds) limit rows)
    (ranks : Nat → Uuid → Nat) {m : Nat} (hm : Covers limit m rows) :
    Shows (fun k => newestPage texts createdAt id rows limit (ranks k)) limit m rows
      (fun k => Offset.page limit k (newestFirst createdAt (fun r => ranks k (id r)) rows)) where
  answered _ hk := select_of_takes (hshort.smaller (hm.offset_le hk))
  perm := Offset.pages_perm (fun _ => newestFirst_ordered createdAt _ rows) hties hm.1

theorem newestPages_show_iff (hid : Rows.UniqueKey id rows) (hlimit : 1 ≤ limit) :
    (∀ (ranks : Nat → Uuid → Nat) (m : Nat), Covers limit m rows → ∃ pages,
        Shows (fun k => newestPage texts createdAt id rows limit (ranks k)) limit m rows
          pages) ↔
      Takes texts [lastOffset limit rows, limit] ∧
        ¬Offset.Straddled (fun r => (createdAt r).microseconds) limit rows := by
  constructor
  · intro hall
    have hcovers := covers_last hlimit rows
    refine ⟨?_, fun hstraddled => ?_⟩
    · obtain ⟨pages, hshows⟩ := hall (fun _ _ => 0) _ hcovers
      exact (select_eq_ok.mp (hshows.answered _ (Nat.lt_succ_self _))).1
    · obtain ⟨orders, horders, hnot⟩ := Offset.exists_orders_not_perm
        (List.Nodup.of_map id hid) (newestFirst_ordered createdAt (fun _ => 0) rows)
        hstraddled
      obtain ⟨pages, hshows⟩ := hall (fun k id' => ((orders k).map id).idxOf id') _ hcovers
      have hpages (k : Nat) (hk : k < rows.length / limit + 1) :
          pages k = Offset.page limit k (orders k) := by
        have hpage := (select_eq_ok.mp (hshows.answered k hk)).2
        rw [newestFirst_of_ordered hid (horders k)] at hpage
        exact hpage.symm
      refine hnot _ hcovers.1 ?_
      have hperm := hshows.perm
      rwa [concat_congr hpages] at hperm
  · rintro ⟨htakes, hties⟩ ranks m hm
    exact ⟨_, newestPages_show htakes hties ranks hm⟩

/-- The same of pages that also report how many rows there are. -/
theorem counted_pages_iff (texts : List String) (createdAt : ρ → Timestamp)
    (hid : Rows.UniqueKey id rows) (hlimit : 1 ≤ limit)
    (total : (Uuid → Nat) → Nat → Except Exc Nat)
    (htotal : ∀ rank offset, Takes texts [offset, limit] →
      total rank offset = .ok rows.length) :
    (∀ (ranks : Nat → Uuid → Nat) (m : Nat), Covers limit m rows → ∃ pages,
        Shows (fun k => newestPage texts createdAt id rows limit (ranks k)) limit m rows
            pages ∧
          ∀ k < m, total (ranks k) (k * limit) = .ok (Offset.concat pages m).length) ↔
      Takes texts [lastOffset limit rows, limit] ∧
        ¬Offset.Straddled (fun r => (createdAt r).microseconds) limit rows := by
  rw [← newestPages_show_iff hid hlimit]
  refine forall₃_congr fun ranks m hm => exists_congr fun pages => ⟨And.left, fun h => ?_⟩
  refine ⟨h, fun k hk => ?_⟩
  have htakes := (select_eq_ok.mp (h.answered k hk)).1
  rw [htotal (ranks k) (k * limit) htakes, h.perm.length_eq]

end Pages

/-! ## The three listings -/

/-- Every matching user exactly once, and as many as each page reports. -/
def UsersPartitioned (env : Env) (t : UsersTable) (filter : UserFilter)
    (limit : Nat) : Prop :=
  ∀ (ranks : Nat → Uuid → Nat) (m : Nat),
    Covers limit m (t.rows.filter (filter.matches env)) → ∃ pages,
      Shows (fun k offset => t.listUsers env filter offset limit (ranks k)) limit m
          (t.rows.filter (filter.matches env)) pages ∧
        ∀ k < m, (UserService.listUsers env t filter (k * limit) limit (ranks k)).map
          UserListResponse.total = .ok (Offset.concat pages m).length

def AuditPartitioned (env : Env) (db : Database) (filter : AuditFilter)
    (limit : Nat) : Prop :=
  ∀ (ranks : Nat → Uuid → Nat) (m : Nat),
    Covers limit m (db.auditLog.filter (filter.matches env)) → ∃ pages,
      Shows (fun k offset => AuditLogRepository.listEntries env db filter offset limit (ranks k))
          limit m (db.auditLog.filter (filter.matches env)) pages ∧
        ∀ k < m, (listEntries env db filter (k * limit) limit (ranks k)).map
          AuditLogListResponse.total = .ok (Offset.concat pages m).length

def ItemsPartitioned (db : Database) (ownerId : Uuid) (limit : Nat) : Prop :=
  ∀ (ranks : Nat → Uuid → Nat) (m : Nat),
    Covers limit m (db.items.filter fun i => i.ownerId = ownerId) → ∃ pages,
      Shows (fun k offset => ItemRepository.executeList db ownerId offset limit (ranks k))
        limit m (db.items.filter fun i => i.ownerId = ownerId) pages

/-- Two rows of one creation time fall on different pages of that length. -/
def TiedAcrossPages {ρ : Type} (createdAt : ρ → Timestamp) (limit : Nat)
    (rows : List ρ) : Prop :=
  Offset.Straddled (fun r => (createdAt r).microseconds) limit rows

theorem usersPartitioned_iff {env : Env} {t : UsersTable} {filter : UserFilter}
    {limit : Nat} (hlimit : 1 ≤ limit) :
    UsersPartitioned env t filter limit ↔
      Takes filter.texts [lastOffset limit (t.rows.filter (filter.matches env)), limit] ∧
        ¬TiedAcrossPages User.createdAt limit (t.rows.filter (filter.matches env)) := by
  have hid : Rows.UniqueKey User.id (t.rows.filter (filter.matches env)) :=
    t.admissible.uniqueId.sublist (List.filter_sublist.map _)
  refine counted_pages_iff filter.texts User.createdAt hid hlimit (fun rank offset =>
    (UserService.listUsers env t filter offset limit rank).map UserListResponse.total)
    fun rank offset htakes => ?_
  have hcount : Takes filter.texts [] := ⟨htakes.1, List.forall_mem_nil _⟩
  simp only [UserService.listUsers, UsersTable.listUsers, UsersTable.countUsers,
    select_of_takes htakes, select_of_takes hcount]
  rfl

theorem auditPartitioned_iff {env : Env} {db : Database} {filter : AuditFilter}
    {limit : Nat} (hlimit : 1 ≤ limit) :
    AuditPartitioned env db filter limit ↔
      Takes filter.texts [lastOffset limit (db.auditLog.filter (filter.matches env)), limit] ∧
        ¬TiedAcrossPages AuditLog.createdAt limit
          (db.auditLog.filter (filter.matches env)) := by
  have hid : Rows.UniqueKey AuditLog.id (db.auditLog.filter (filter.matches env)) :=
    db.consistent.auditId.sublist (List.filter_sublist.map _)
  refine counted_pages_iff filter.texts AuditLog.createdAt hid hlimit (fun rank offset =>
    (listEntries env db filter offset limit rank).map AuditLogListResponse.total)
    fun rank offset htakes => ?_
  have hcount : Takes filter.texts [] := ⟨htakes.1, List.forall_mem_nil _⟩
  simp only [listEntries, AuditLogRepository.listEntries, AuditLogRepository.countEntries,
    select_of_takes htakes, select_of_takes hcount]
  rfl

theorem itemsPartitioned_iff {db : Database} {ownerId : Uuid} {limit : Nat}
    (hlimit : 1 ≤ limit) :
    ItemsPartitioned db ownerId limit ↔
      Takes [] [lastOffset limit (db.items.filter fun i => i.ownerId = ownerId), limit] ∧
        ¬TiedAcrossPages Item.createdAt limit
          (db.items.filter fun i => i.ownerId = ownerId) := by
  have hid : Rows.UniqueKey Item.id (db.items.filter fun i => i.ownerId = ownerId) :=
    db.consistent.itemId.sublist (List.filter_sublist.map _)
  exact newestPages_show_iff hid hlimit

/--
The pages are a partition unless the database refuses a text or a number of theirs, or one
begins inside a group of one moment.
-/
theorem offset_pages_partition_iff (env : Env) (db : Database) {limit : Nat}
    (hlimit : 1 ≤ limit) :
    (∀ filter, UsersPartitioned env db.users filter limit ↔
        Takes filter.texts
            [lastOffset limit (db.users.rows.filter (filter.matches env)), limit] ∧
          ¬TiedAcrossPages User.createdAt limit
            (db.users.rows.filter (filter.matches env))) ∧
      (∀ filter, AuditPartitioned env db filter limit ↔
        Takes filter.texts
            [lastOffset limit (db.auditLog.filter (filter.matches env)), limit] ∧
          ¬TiedAcrossPages AuditLog.createdAt limit
            (db.auditLog.filter (filter.matches env))) ∧
      ∀ ownerId, ItemsPartitioned db ownerId limit ↔
        Takes []
            [lastOffset limit (db.items.filter fun i => i.ownerId = ownerId), limit] ∧
          ¬TiedAcrossPages Item.createdAt limit
            (db.items.filter fun i => i.ownerId = ownerId) :=
  ⟨fun _ => usersPartitioned_iff hlimit, fun _ => auditPartitioned_iff hlimit,
    fun _ => itemsPartitioned_iff hlimit⟩

theorem offset_pages_partition_alice_and_bob :
    UsersPartitioned exampleEnv createdTogether everyone 2 := by
  have hiff := (offset_pages_partition_iff exampleEnv
    (Database.empty.setUsers createdTogether) (by decide : 1 ≤ 2)).1 everyone
  have hrows : ((Database.empty.setUsers createdTogether).users.rows.filter
      (everyone.matches exampleEnv)).length = 2 := by decide +kernel
  refine hiff.mpr ⟨?_, ?_⟩
  · rw [lastOffset, hrows]
    decide
  · rintro ⟨k, u, -, hbefore, hafter⟩
    have hle := hafter.trans_le List.countP_le_length
    rw [hrows] at hle
    omega

/-- One of two users of one moment a page: each query lists another one first. -/
theorem alice_listed_twice :
    ¬∀ limit, 1 ≤ limit → UsersPartitioned exampleEnv createdTogether everyone limit := by
  intro hall
  have hlength : (createdTogether.rows.filter (everyone.matches exampleEnv)).length = 2 := by
    decide +kernel
  obtain ⟨pages, hshows, -⟩ := hall 1 (by decide) (fun k id => if id = 1 ↔ k = 0 then 0 else 1)
    2 ⟨by rw [hlength], by rw [hlength]; decide⟩
  have hfirst : (createdTogether.listUsers exampleEnv everyone (0 * 1) 1 fun id =>
      if id = 1 ↔ 0 = 0 then 0 else 1).map (List.map User.name) = .ok ["alice"] := by
    decide +kernel
  have hsecond : (createdTogether.listUsers exampleEnv everyone (1 * 1) 1 fun id =>
      if id = 1 ↔ 1 = 0 then 0 else 1).map (List.map User.name) = .ok ["alice"] := by
    decide +kernel
  rw [hshows.answered 0 (by decide)] at hfirst
  rw [hshows.answered 1 (by decide)] at hsecond
  have htwice : (Offset.concat pages 2).map User.name = ["alice", "alice"] := by
    rw [Offset.concat, Offset.concat, Offset.concat, List.nil_append, List.map_append,
      Except.ok.inj hfirst, Except.ok.inj hsecond]
    rfl
  have hnames := hshows.perm.map User.name
  rw [htwice] at hnames
  have hdistinct : ((createdTogether.rows.filter (everyone.matches exampleEnv)).map
      User.name).Nodup := by decide +kernel
  have hnodup := hnames.nodup_iff.mpr hdistinct
  simp at hnodup

end IsolatedEnv.Backend
