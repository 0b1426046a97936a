import IsolatedEnv.Backend.Core.CacheScript
import IsolatedEnv.Backend.FeatureExample.OwnerPart
import IsolatedEnv.Foundation.Glob
import IsolatedEnv.Foundation.Offset
import Mathlib.Data.Finset.Card

/-!
# What an invalidation removes

`invalidate` as the calls it makes: a scan that takes its time, and then one pipeline of
`UNLINK` commands for every thousand reported keys.  Other clients write and delete keys
while the scan goes on and between the pipelines; a pipeline is a transaction.
-/

namespace IsolatedEnv.Backend.Invalidation

open IsolatedEnv.Foundation

/-! ## The script -/

inductive Call where
  | scanIter (pattern : String)
  | execute (unlinks : List String)
  deriving DecidableEq

/-- The keys of a scan, and what each `UNLINK` of a pipeline returned. -/
@[reducible] def Call.result : Call → Type
  | scanIter _ => List String
  | execute _ => List Nat

abbrev InvalidateScript (ε : Type) := Script Call.result ε

/-- `keys[i : i + 1000]` for `i` in `range(0, len(keys), 1000)`. -/
def batches (keys : List String) : List (List String) :=
  (List.range ((keys.length + 999) / 1000)).map fun i => Offset.page 1000 i keys

def deleteBatches {ε : Type} (deleted : Nat) : List (List String) → InvalidateScript ε Nat
  | [] => pure deleted
  | batch :: rest => do
      let results ← Script.request (Call.execute batch)
      match results with
      | .error _ => pure deleted
      | .ok results => deleteBatches (deleted + results.countP fun r => r ≠ 0) rest

def invalidate {ε : Type} (pattern : String) : InvalidateScript ε Nat := do
  let keys ← Script.request (Call.scanIter pattern)
  match keys with
  | .error _ => pure 0
  | .ok keys => if keys = [] then pure 0 else deleteBatches 0 (batches keys)

/-! ## The key space -/

/-- What another client does. -/
inductive Change where
  | put (key : String)
  | drop (key : String)
  deriving DecidableEq, Repr

/-- An `UNLINK` says whether the key was there. -/
inductive Moment where
  | change (c : Change)
  | unlink (key : String) (removed : Bool)
  deriving DecidableEq, Repr

def Change.apply (keys : Finset String) : Change → Finset String
  | .put key => insert key keys
  | .drop key => keys.erase key

def Moment.apply (keys : Finset String) : Moment → Finset String
  | .change c => c.apply keys
  | .unlink key _ => keys.erase key

/-- The keys after what is logged. -/
def keysAfter (start : Finset String) (log : List Moment) : Finset String :=
  log.foldl Moment.apply start

/-- The commands of a pipeline, one after another. -/
def unlinkAll (start : Finset String) : List Moment → List String → List Moment
  | _, [] => []
  | log, key :: keys =>
      let moment := Moment.unlink key (key ∈ keysAfter start log)
      moment :: unlinkAll start (log ++ [moment]) keys

def Moment.reply : Moment → Nat
  | .unlink _ true => 1
  | _ => 0

/-- What the others do during the scan and before a pipeline, and what the scan reports. -/
structure World where
  during : List Change
  reported : List String
  between : List Moment → List Change

/-- Redis, with everything that happens in its log; no call fails. -/
def redis {ε : Type} (start : Finset String) (w : World) :
    (c : Call) → List Moment → Except ε c.result × List Moment
  | .scanIter _, log => (.ok w.reported, log ++ w.during.map .change)
  | .execute batch, log =>
      let before := log ++ (w.between log).map .change
      let unlinked := unlinkAll start before batch
      (.ok (unlinked.map Moment.reply), before ++ unlinked)

/-- The key is there when the scan starts and after each change until it ends. -/
def PresentThroughout (start : Finset String) (during : List Change) (key : String) : Prop :=
  ∀ seen, seen <+: during → key ∈ keysAfter start (seen.map .change)

def PresentOnce (start : Finset String) (during : List Change) (key : String) : Prop :=
  ∃ seen, seen <+: during ∧ key ∈ keysAfter start (seen.map .change)

/--
What Redis promises of a scan: it reports only matching keys that were there, and all that
were there the whole time, each any number of times.
-/
structure ScanPromise (start : Finset String) (w : World) (pattern : String) : Prop where
  sound : ∀ key ∈ w.reported,
    Glob.globMatch pattern.toList key.toList = true ∧ PresentOnce start w.during key
  complete : ∀ key, Glob.globMatch pattern.toList key.toList = true →
    PresentThroughout start w.during key → key ∈ w.reported

/-! ## Batches -/

theorem flatten_range_page (limit : Nat) (keys : List String) (m : Nat) :
    ((List.range m).map fun i => Offset.page limit i keys).flatten =
      keys.take (m * limit) := by
  rw [← Offset.pages_same]
  induction m with
  | zero => rfl
  | succ m ih =>
      rw [List.range_succ, List.map_append, List.flatten_append, ih, Offset.pages_succ]
      simp

theorem flatten_batches (keys : List String) : (batches keys).flatten = keys := by
  rw [batches, flatten_range_page]
  exact List.take_of_length_le (by omega)

/-! ## Logs -/

section Logs

variable {start : Finset String} {key : String}

theorem keysAfter_append (log more : List Moment) :
    keysAfter start (log ++ more) = keysAfter (keysAfter start log) more :=
  List.foldl_append

/-- Each `UNLINK` behind a log says whether its key was there. -/
def Told (start : Finset String) : List Moment → List Moment → Prop
  | _, [] => True
  | log, m :: more =>
      (∀ key removed, m = .unlink key removed →
        (removed = true ↔ key ∈ keysAfter start log)) ∧ Told start (log ++ [m]) more

theorem told_append {log a b : List Moment} :
    Told start log (a ++ b) ↔ Told start log a ∧ Told start (log ++ a) b := by
  induction a generalizing log with
  | nil => simp [Told]
  | cons m a ih => simp only [List.cons_append, Told, ih, and_assoc, List.append_assoc,
      List.nil_append]

theorem told_changes (log : List Moment) (changes : List Change) :
    Told start log (changes.map .change) := by
  induction changes generalizing log with
  | nil => trivial
  | cons c changes ih => exact ⟨fun _ _ h => (by cases h), ih _⟩

theorem told_unlinkAll (log : List Moment) (keys : List String) :
    Told start log (unlinkAll start log keys) := by
  induction keys generalizing log with
  | nil => trivial
  | cons key keys ih =>
      refine ⟨?_, ih _⟩
      intro _ _ heq
      obtain ⟨rfl, rfl⟩ := Moment.unlink.inj heq
      exact decide_eq_true_iff

theorem mem_unlinkAll {log : List Moment} {keys : List String} {removed : Bool}
    (h : .unlink key removed ∈ unlinkAll start log keys) : key ∈ keys := by
  induction keys generalizing log with
  | nil => cases h
  | cons first keys ih =>
      rcases List.mem_cons.mp h with heq | h
      · cases heq
        exact List.mem_cons_self
      · exact List.mem_cons_of_mem _ (ih h)

theorem exists_mem_unlinkAll {log : List Moment} {keys : List String} (h : key ∈ keys) :
    ∃ removed, .unlink key removed ∈ unlinkAll start log keys := by
  induction keys generalizing log with
  | nil => cases h
  | cons first keys ih =>
      rcases List.mem_cons.mp h with rfl | h
      · exact ⟨_, List.mem_cons_self⟩
      · obtain ⟨removed, hmem⟩ := ih h
        exact ⟨removed, List.mem_cons_of_mem _ hmem⟩

theorem change_not_mem_unlinkAll {log : List Moment} {keys : List String} {c : Change} :
    .change c ∉ unlinkAll start log keys := by
  induction keys generalizing log with
  | nil => exact List.not_mem_nil
  | cons first keys ih => exact fun h => (List.mem_cons.mp h).elim (fun heq => by cases heq) ih

/-- A key that is gone stays away until somebody writes it. -/
theorem not_mem_keysAfter {log : List Moment} (hgone : key ∉ start)
    (hput : .change (.put key) ∉ log) : key ∉ keysAfter start log := by
  induction log generalizing start with
  | nil => exact hgone
  | cons m log ih =>
      refine ih ?_ (List.not_mem_of_not_mem_cons hput)
      match m with
      | .unlink other removed => exact fun h => hgone (Finset.mem_of_mem_erase h)
      | .change (.drop other) => exact fun h => hgone (Finset.mem_of_mem_erase h)
      | .change (.put other) =>
          intro h
          rcases Finset.mem_insert.mp h with rfl | h
          · exact hput List.mem_cons_self
          · exact hgone h

def Moment.removes : Moment → Bool
  | .unlink _ removed => removed
  | .change _ => false

theorem countP_removes_changes (changes : List Change) :
    (changes.map Moment.change).countP Moment.removes = 0 := by
  induction changes with
  | nil => rfl
  | cons c changes ih => rw [List.map_cons, List.countP_cons_of_neg Bool.false_ne_true, ih]

theorem countP_replies (log : List Moment) :
    (log.map Moment.reply).countP (fun r => r ≠ 0) = log.countP Moment.removes := by
  rw [List.countP_map]
  refine List.countP_congr fun m _ => ?_
  match m with
  | .change c => exact Iff.rfl
  | .unlink key true => exact Iff.rfl
  | .unlink key false => exact Iff.rfl

end Logs

/-! ## Runs -/

/-- What the pipelines for some keys add to a log. -/
structure Unlinks (start : Finset String) (w : World) (log : List Moment)
    (keys : List String) (added : List Moment) : Prop where
  told : Told start log added
  only : ∀ key removed, .unlink key removed ∈ added → key ∈ keys
  all : ∀ key ∈ keys, ∃ removed, .unlink key removed ∈ added
  others : ∀ c, .change c ∈ added → ∃ before, c ∈ w.between before

section Runs

variable {start : Finset String} {w : World}

theorem unlinks_pipeline (log : List Moment) (batch : List String) :
    Unlinks start w log batch ((w.between log).map .change ++
      unlinkAll start (log ++ (w.between log).map .change) batch) := by
  refine ⟨told_append.mpr ⟨told_changes _ _, told_unlinkAll _ _⟩, ?_, ?_, ?_⟩
  · intro key removed h
    rcases List.mem_append.mp h with h | h
    · obtain ⟨c, -, hc⟩ := List.mem_map.mp h
      cases hc
    · exact mem_unlinkAll h
  · intro key hkey
    obtain ⟨removed, hmem⟩ := exists_mem_unlinkAll hkey
    exact ⟨removed, List.mem_append_right _ hmem⟩
  · intro c h
    rcases List.mem_append.mp h with h | h
    · obtain ⟨c', hc', heq⟩ := List.mem_map.mp h
      cases heq
      exact ⟨log, hc'⟩
    · exact absurd h change_not_mem_unlinkAll

theorem Unlinks.append {log a b : List Moment} {keys keys' : List String}
    (ha : Unlinks start w log keys a) (hb : Unlinks start w (log ++ a) keys' b) :
    Unlinks start w log (keys ++ keys') (a ++ b) where
  told := told_append.mpr ⟨ha.told, hb.told⟩
  only key removed h := (List.mem_append.mp h).elim
    (fun h => List.mem_append_left _ (ha.only key removed h))
    fun h => List.mem_append_right _ (hb.only key removed h)
  all key h := (List.mem_append.mp h).elim
    (fun h => (ha.all key h).imp fun _ => List.mem_append_left _)
    fun h => (hb.all key h).imp fun _ => List.mem_append_right _
  others c h := (List.mem_append.mp h).elim (ha.others c) (hb.others c)

theorem deleteBatches_run {ε : Type} (batches : List (List String)) (deleted : Nat)
    (log : List Moment) :
    ∃ added, Unlinks start w log batches.flatten added ∧
      (deleteBatches deleted batches : InvalidateScript ε Nat).run (redis start w) log =
        (deleted + added.countP Moment.removes, log ++ added) := by
  induction batches generalizing deleted log with
  | nil =>
      have hempty : Unlinks start w log [] [] :=
        ⟨trivial, by simp, by simp, by simp⟩
      exact ⟨[], hempty, by simp [deleteBatches, Script.run_pure]⟩
  | cons batch rest ih =>
      let changes := (w.between log).map Moment.change
      let unlinked := unlinkAll start (log ++ changes) batch
      obtain ⟨added, hadded, hrun⟩ := ih
        (deleted + (unlinked.map Moment.reply).countP fun r => r ≠ 0)
        (log ++ (changes ++ unlinked))
      refine ⟨changes ++ unlinked ++ added, (unlinks_pipeline log batch).append hadded, ?_⟩
      have hstep : (deleteBatches deleted (batch :: rest) : InvalidateScript ε Nat).run
            (redis start w) log =
          (deleteBatches (deleted + (unlinked.map Moment.reply).countP fun r => r ≠ 0)
            rest : InvalidateScript ε Nat).run (redis start w) (log ++ changes ++ unlinked) := rfl
      have hcount : changes.countP Moment.removes = 0 := countP_removes_changes _
      rw [hstep, List.append_assoc, hrun, countP_replies, List.countP_append,
        List.countP_append, hcount, Nat.zero_add, Nat.add_assoc, List.append_assoc log]

variable (start w) in
theorem invalidate_run (ε : Type) (pattern : String) :
    ∃ added, Unlinks start w (w.during.map .change) w.reported added ∧
      (invalidate pattern : InvalidateScript ε Nat).run (redis start w) [] =
        (added.countP Moment.removes, w.during.map .change ++ added) := by
  have hstep : (invalidate pattern : InvalidateScript ε Nat).run (redis start w) [] =
      (if w.reported = [] then pure 0
        else deleteBatches 0 (batches w.reported) : InvalidateScript ε Nat).run
          (redis start w) (w.during.map .change) := rfl
  by_cases hnone : w.reported = []
  · refine ⟨[], ⟨trivial, by simp, by simp [hnone], by simp⟩, ?_⟩
    rw [hstep, if_pos hnone, Script.run_pure]
    simp
  · obtain ⟨added, hadded, hrun⟩ :=
      deleteBatches_run (ε := ε) (batches w.reported) 0 (w.during.map .change)
    rw [flatten_batches] at hadded
    refine ⟨added, hadded, ?_⟩
    rw [hstep, if_neg hnone, hrun, Nat.zero_add]

end Runs

/-! ## Listing keys -/

open ItemService

theorem listKeys_literal (owner : Uuid) : ∀ c ∈ (listKeys owner).toList, Glob.Literal c := by
  intro c hc
  have hitems : ∀ c ∈ "items:".toList, Glob.Literal c := by simp [Glob.Literal]
  rw [listKeys_toList] at hc
  rcases List.mem_append.mp hc with hc | hc
  · exact hitems c hc
  rcases List.mem_append.mp hc with hc | hc
  · rcases Uuid.mem_text hc with rfl | ⟨d, hd, rfl⟩
    · exact ⟨by decide, by decide, by decide, by decide⟩
    · interval_cases d <;> exact ⟨by decide, by decide, by decide, by decide⟩
  · obtain rfl := List.mem_singleton.mp hc
    exact ⟨by decide, by decide, by decide, by decide⟩

/-- `f"items:{owner_id}:*"`. -/
def ownerPattern (owner : Uuid) : String := listKeys owner ++ "*"

theorem globMatch_ownerPattern (owner : Uuid) (key : String) :
    Glob.globMatch (ownerPattern owner).toList key.toList =
      (listKeys owner).toList.isPrefixOf key.toList := by
  rw [ownerPattern, String.toList_append]
  exact Glob.globMatch_literals_star (listKeys_literal owner) key.toList

theorem lockKey_not_matched (owner : Uuid) (locked : String) :
    Glob.globMatch (ownerPattern owner).toList (lockKey locked).toList = false := by
  rw [globMatch_ownerPattern]
  exact ownKey_lock owner locked

/--
An invalidation from a key space, and its log: what it removes, what it leaves alone and
what it returns.
-/
structure ExactlyInvalidated (owner : Uuid) (start : Finset String) (w : World)
    (log : List Moment) (deleted : Nat) : Prop where
  removed : ∀ offset limit,
    PresentThroughout start w.during (listKey owner offset limit) →
      ∃ earlier there later,
        log = earlier ++ .unlink (listKey owner offset limit) there :: later ∧
          (.change (.put (listKey owner offset limit)) ∉ later →
            listKey owner offset limit ∉ keysAfter start log)
  spared : ∀ key there, .unlink key there ∈ log →
    (∀ other offset limit, key = listKey other offset limit → other = owner) ∧
      ∀ locked, key ≠ lockKey locked
  told : Told start [] log
  counted : deleted = log.countP Moment.removes

/-- Whatever the scan reports and the others do meanwhile. -/
theorem invalidate_exact {ε : Type} (owner : Uuid) (start : Finset String) (w : World)
    (hscan : ScanPromise start w (ownerPattern owner)) :
    ExactlyInvalidated owner start w
      ((invalidate (ownerPattern owner) : InvalidateScript ε Nat).run (redis start w) []).2
      ((invalidate (ownerPattern owner) : InvalidateScript ε Nat).run
        (redis start w) []).1 := by
  obtain ⟨added, hadded, hrun⟩ := invalidate_run start w ε (ownerPattern owner)
  rw [hrun]
  refine ⟨?_, ?_, told_append.mpr ⟨told_changes [] _, hadded.told⟩, ?_⟩
  · intro offset limit hpresent
    have hmatch : Glob.globMatch (ownerPattern owner).toList
        (listKey owner offset limit).toList = true := by
      rw [globMatch_ownerPattern]
      exact listKeys_isPrefixOf.mpr rfl
    obtain ⟨there, hmem⟩ := hadded.all _ (hscan.complete _ hmatch hpresent)
    obtain ⟨before, later, hsplit⟩ := List.append_of_mem hmem
    refine ⟨w.during.map .change ++ before, there, later, by rw [hsplit]; simp, ?_⟩
    intro hput
    have hafter : keysAfter start (w.during.map .change ++ added) =
        keysAfter ((keysAfter start (w.during.map .change ++ before)).erase
          (listKey owner offset limit)) later := by
      rw [hsplit, ← List.append_assoc, keysAfter_append]
      rfl
    rw [hafter]
    exact not_mem_keysAfter (Finset.notMem_erase _ _) hput
  · intro key there hmem
    have hreported : key ∈ w.reported := by
      rcases List.mem_append.mp hmem with hmem | hmem
      · obtain ⟨c, -, hc⟩ := List.mem_map.mp hmem
        cases hc
      · exact hadded.only key there hmem
    have hmatch := (hscan.sound key hreported).1
    refine ⟨fun other offset limit heq => ?_, fun locked heq => ?_⟩
    · rw [heq, globMatch_ownerPattern] at hmatch
      exact (listKeys_isPrefixOf.mp hmatch).symm
    · rw [heq, lockKey_not_matched] at hmatch
      exact Bool.false_ne_true hmatch
  · rw [List.countP_append, countP_removes_changes, Nat.zero_add]

/-- Two listings of one owner, one of another, and a lock. -/
def twoOwners : Finset String :=
  {listKey 7 0 20, listKey 7 20 20, listKey 8 0 20, lockKey (listKey 7 0 20)}

/-- A key is reported twice, and another one expires before it is unlinked. -/
def busyWorld : World where
  during := [.put (listKey 8 20 20)]
  reported := [listKey 7 0 20, listKey 7 20 20, listKey 7 0 20]
  between _ := [.drop (listKey 7 20 20)]

theorem busyWorld_exact : ExactlyInvalidated 7 twoOwners busyWorld
    [.change (.put (listKey 8 20 20)), .change (.drop (listKey 7 20 20)),
      .unlink (listKey 7 0 20) true, .unlink (listKey 7 20 20) false,
      .unlink (listKey 7 0 20) false] 1 := by
  have hscan : ScanPromise twoOwners busyWorld (ownerPattern 7) := by
    have hreported : ∀ key ∈ busyWorld.reported,
        Glob.globMatch (ownerPattern 7).toList key.toList = true ∧ key ∈ twoOwners := by
      decide +kernel
    have hlisted : ∀ key ∈ twoOwners,
        Glob.globMatch (ownerPattern 7).toList key.toList = true →
          key ∈ busyWorld.reported := by
      decide +kernel
    exact ⟨fun key hkey => ⟨(hreported key hkey).1, [], List.nil_prefix, (hreported key hkey).2⟩,
      fun key hmatch hpresent => hlisted key (hpresent [] List.nil_prefix) hmatch⟩
  have hrun : (invalidate (ownerPattern 7) : InvalidateScript Unit Nat).run
      (redis twoOwners busyWorld) [] = (1, [.change (.put (listKey 8 20 20)),
        .change (.drop (listKey 7 20 20)), .unlink (listKey 7 0 20) true,
        .unlink (listKey 7 20 20) false, .unlink (listKey 7 0 20) false]) := by
    decide +kernel
  have hexact := invalidate_exact (ε := Unit) 7 twoOwners busyWorld hscan
  rwa [hrun] at hexact

/-! ## Left alone by the others -/

theorem keysAfter_unlinks {log : List Moment} (hunlinks : ∀ c, .change c ∉ log)
    (start : Finset String) (key : String) :
    key ∈ keysAfter start log ↔ key ∈ start ∧ ∀ there, .unlink key there ∉ log := by
  induction log generalizing start with
  | nil => simp [keysAfter]
  | cons m log ih =>
      have hlog : ∀ c, .change c ∉ log := fun c h => hunlinks c (List.mem_cons_of_mem _ h)
      match m with
      | .change c => exact absurd List.mem_cons_self (hunlinks c)
      | .unlink other there =>
          have hstep : keysAfter start (.unlink other there :: log) =
              keysAfter (start.erase other) log := rfl
          rw [hstep, ih hlog, Finset.mem_erase]
          constructor
          · rintro ⟨⟨hne, hstart⟩, hnot⟩
            refine ⟨hstart, fun there' h => ?_⟩
            rcases List.mem_cons.mp h with heq | h
            · exact hne (Moment.unlink.inj heq).1
            · exact hnot there' h
          · rintro ⟨hstart, hnot⟩
            refine ⟨⟨?_, hstart⟩, fun there' h => hnot there' (List.mem_cons_of_mem _ h)⟩
            rintro rfl
            exact hnot there List.mem_cons_self

/-- Every removal makes the key space smaller by one. -/
theorem countP_removes_add_card {log : List Moment} (hunlinks : ∀ c, .change c ∉ log)
    {start : Finset String} {seen : List Moment} (htold : Told start seen log) :
    log.countP Moment.removes + (keysAfter start (seen ++ log)).card =
      (keysAfter start seen).card := by
  induction log generalizing seen with
  | nil => simp
  | cons m log ih =>
      have hlog : ∀ c, .change c ∉ log := fun c h => hunlinks c (List.mem_cons_of_mem _ h)
      match m with
      | .change c => exact absurd List.mem_cons_self (hunlinks c)
      | .unlink key there =>
          obtain ⟨hkey, htail⟩ := htold
          have hthere : there = true ↔ key ∈ keysAfter start seen := hkey key there rfl
          have hrest := ih hlog htail
          have hstep : keysAfter start (seen ++ [.unlink key there]) =
              (keysAfter start seen).erase key := by
            rw [keysAfter_append]
            rfl
          rw [List.append_assoc, List.singleton_append] at hrest
          cases there with
          | true =>
              have hcard := Finset.card_erase_add_one (hthere.mp rfl)
              rw [List.countP_cons_of_pos rfl]
              rw [hstep] at hrest
              omega
          | false =>
              have hnot : key ∉ keysAfter start seen := fun h =>
                Bool.false_ne_true (hthere.mpr h)
              rw [List.countP_cons_of_neg Bool.false_ne_true]
              rw [hstep, Finset.erase_eq_of_notMem hnot] at hrest
              exact hrest

/-- With nobody else at work, the owner's keys go, each counted once. -/
theorem invalidate_undisturbed {ε : Type} (owner : Uuid) (start : Finset String)
    (reported : List String) (hscan : ScanPromise start ⟨[], reported, fun _ => []⟩
      (ownerPattern owner)) :
    ∃ log, (invalidate (ownerPattern owner) : InvalidateScript ε Nat).run
        (redis start ⟨[], reported, fun _ => []⟩) [] =
          ((start.filter fun key => (listKeys owner).toList.isPrefixOf key.toList).card,
            log) ∧
      keysAfter start log =
        start.filter fun key => ¬(listKeys owner).toList.isPrefixOf key.toList := by
  obtain ⟨added, hadded, hrun⟩ :=
    invalidate_run start ⟨[], reported, fun _ => []⟩ ε (ownerPattern owner)
  have hunlinks : ∀ c, .change c ∉ added := fun c h => by
    obtain ⟨before, hc⟩ := hadded.others c h
    cases hc
  have hkeys : keysAfter start added =
      start.filter fun key => ¬(listKeys owner).toList.isPrefixOf key.toList := by
    ext key
    rw [keysAfter_unlinks hunlinks, Finset.mem_filter, ← globMatch_ownerPattern]
    refine and_congr_right fun hstart => ⟨fun hnot hmatch => ?_, fun hmatch there h => ?_⟩
    · have hpresent : PresentThroughout start [] key := fun seen hseen => by
        rw [List.prefix_nil.mp hseen]
        exact hstart
      obtain ⟨there, h⟩ := hadded.all key (hscan.complete key hmatch hpresent)
      exact hnot there h
    · exact hmatch (hscan.sound key (hadded.only key there h)).1
  have hcard : added.countP Moment.removes + (keysAfter start added).card = start.card :=
    countP_removes_add_card hunlinks hadded.told
  have hsplit := start.card_filter_add_card_filter_not fun key =>
    (listKeys owner).toList.isPrefixOf key.toList = true
  refine ⟨added, hrun.trans (Prod.ext ?_ rfl), hkeys⟩
  rw [hkeys] at hcard
  exact Nat.add_right_cancel (hcard.trans hsplit.symm)

end IsolatedEnv.Backend.Invalidation
