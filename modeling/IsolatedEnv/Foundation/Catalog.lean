import IsolatedEnv.Foundation.Run

/-!
# Catalogs and migrations

A catalog lists named objects, with what they need and what they are a part of.  A statement
that drops an object takes its parts along, and is refused while anything else needs what
goes.  The migrations of a linear history are applied and taken back in transactions, so that
a command that fails leaves the catalog as it was.  How many are applied is recorded in a table
of the same catalog, which the first command creates.
-/

namespace IsolatedEnv.Foundation

variable {κ : Type*}

/-- The parts of an object have no parts of their own. -/
structure CatalogObject (κ : Type*) where
  key : κ
  needs : List κ
  partOf : Option κ
  deriving DecidableEq

abbrev Catalog (κ : Type*) := List (CatalogObject κ)

namespace Catalog

/-- What a statement does about an object that is there already. -/
inductive IfThere where
  | fail
  | keep
  | replace
  deriving DecidableEq

inductive Statement (κ : Type*) where
  | create (objects : List (CatalogObject κ)) (ifThere : IfThere)
  | drop (key : κ) (ifExists : Bool)

def has [DecidableEq κ] (c : Catalog κ) (key : κ) : Bool := c.any fun o => o.key = key

/-- The object, or a part of it. -/
def goesWith [DecidableEq κ] (key : κ) (o : CatalogObject κ) : Bool :=
  o.key = key || o.partOf = some key

section Exec

variable [DecidableEq κ]

def exec (c : Catalog κ) : Statement κ → Option (Catalog κ)
  | .create objects ifThere =>
      if objects.any fun o => c.has o.key then
        match ifThere with
        | .fail => none
        | .keep => some c
        | .replace => some (c.filter (fun o => !has objects o.key) ++ objects)
      else if objects.all fun o => (o.needs ++ o.partOf.toList).all (has (c ++ objects)) then
        some (c ++ objects)
      else none
  | .drop key ifExists =>
      if c.has key then
        let kept := c.filter fun o => !goesWith key o
        if kept.any fun o => o.needs.any (has (c.filter (goesWith key))) then none else some kept
      else if ifExists then some c else none

def execAll (c : Catalog κ) : List (Statement κ) → Option (Catalog κ)
  | [] => some c
  | statement :: rest => (exec c statement).bind fun c' => execAll c' rest

theorem execAll_append (c : Catalog κ) (first rest : List (Statement κ)) :
    execAll c (first ++ rest) = (execAll c first).bind fun c' => execAll c' rest := by
  induction first generalizing c with
  | nil => rfl
  | cons statement first ih =>
      simp only [List.cons_append, execAll, Option.bind_assoc]
      exact congrArg _ (funext fun c' => ih c')

end Exec

/-! ## The frame rule -/

/-- The object is named, and names others, within `own`. -/
def Within (own : κ → Prop) (o : CatalogObject κ) : Prop :=
  own o.key ∧ (∀ k ∈ o.needs, own k) ∧ ∀ k ∈ o.partOf, own k

/-- The object neither has nor refers to a name within `own`. -/
def Apart (own : κ → Prop) (o : CatalogObject κ) : Prop :=
  ¬ own o.key ∧ (∀ k ∈ o.needs, ¬ own k) ∧ ∀ k ∈ o.partOf, ¬ own k

def Statement.About (own : κ → Prop) : Statement κ → Prop
  | .create objects _ => ∀ o ∈ objects, Within own o
  | .drop key _ => own key

instance (own : κ → Prop) [DecidablePred own] (o : CatalogObject κ) :
    Decidable (Within own o) :=
  inferInstanceAs (Decidable (_ ∧ _ ∧ _))

instance (own : κ → Prop) [DecidablePred own] (o : CatalogObject κ) : Decidable (Apart own o) :=
  inferInstanceAs (Decidable (_ ∧ _ ∧ _))

instance (own : κ → Prop) [DecidablePred own] :
    (statement : Statement κ) → Decidable (statement.About own)
  | .create _ _ => inferInstanceAs (Decidable (∀ _ ∈ _, _))
  | .drop key _ => inferInstanceAs (Decidable (own key))

section Frame

variable [DecidableEq κ] {own : κ → Prop} {base c c' : Catalog κ} {statement : Statement κ}
  {statements : List (Statement κ)}

theorem has_append (c d : Catalog κ) (key : κ) : (c ++ d).has key = (c.has key || d.has key) :=
  List.any_append

theorem has_apart (hbase : ∀ o ∈ base, Apart own o) {key : κ} (h : own key) :
    base.has key = false := by
  refine List.any_eq_false.mpr fun o ho hkey => ?_
  exact (hbase o ho).1 (of_decide_eq_true hkey ▸ h)

theorem has_frame (hbase : ∀ o ∈ base, Apart own o) {key : κ} (h : own key) :
    (base ++ c).has key = c.has key := by
  rw [has_append, has_apart hbase h, Bool.false_or]

theorem goesWith_apart (hbase : ∀ o ∈ base, Apart own o) {key : κ} (h : own key)
    {o : CatalogObject κ} (ho : o ∈ base) : goesWith key o = false := by
  obtain ⟨hkey, -, hpart⟩ := hbase o ho
  refine Bool.or_eq_false_iff.mpr ⟨decide_eq_false ?_, decide_eq_false ?_⟩
  · rintro rfl
    exact hkey h
  · exact fun heq => hpart key heq h

theorem within_exec (hc : ∀ o ∈ c, Within own o) (hs : statement.About own)
    (h : exec c statement = some c') : ∀ o ∈ c', Within own o := by
  have happend (d : Catalog κ) (hd : ∀ o ∈ d, o ∈ c) (objects : List (CatalogObject κ))
      (hobjects : ∀ o ∈ objects, Within own o) : ∀ o ∈ d ++ objects, Within own o :=
    List.forall_mem_append.mpr ⟨fun o ho => hc o (hd o ho), hobjects⟩
  cases statement with
  | create objects ifThere =>
      simp only [exec] at h
      split at h
      · cases ifThere with
        | fail => cases h
        | keep =>
            cases h
            exact hc
        | replace =>
            cases h
            exact happend _ (fun o => List.mem_of_mem_filter) objects hs
      · obtain ⟨-, h⟩ := Option.ite_none_right_eq_some.mp h
        cases h
        exact happend c (fun o ho => ho) objects hs
  | drop key ifExists =>
      simp only [exec] at h
      split at h
      · obtain ⟨-, h⟩ := Option.ite_none_left_eq_some.mp h
        cases h
        exact fun o ho => hc o (List.mem_of_mem_filter ho)
      · obtain ⟨-, h⟩ := Option.ite_none_right_eq_some.mp h
        cases h
        exact hc

/-- A statement about own names does the same beside objects that are apart from them. -/
theorem exec_frame (hbase : ∀ o ∈ base, Apart own o) (hc : ∀ o ∈ c, Within own o)
    (hs : statement.About own) :
    exec (base ++ c) statement = (exec c statement).map (base ++ ·) := by
  cases statement with
  | create objects ifThere =>
      have hthere : (objects.any fun o => (base ++ c).has o.key) =
          objects.any fun o => c.has o.key := by
        rw [Bool.eq_iff_iff, List.any_eq_true, List.any_eq_true]
        exact exists_congr fun o => and_congr_right fun ho => by rw [has_frame hbase (hs o ho).1]
      have hresolved : (objects.all fun o => (o.needs ++ o.partOf.toList).all
          (has (base ++ c ++ objects))) =
            objects.all fun o => (o.needs ++ o.partOf.toList).all (has (c ++ objects)) := by
        rw [Bool.eq_iff_iff]
        simp only [List.all_eq_true, List.append_assoc]
        refine forall₂_congr fun o ho => forall₂_congr fun k hk => ?_
        rw [has_frame hbase]
        rcases List.mem_append.mp hk with hneed | hpart
        · exact (hs o ho).2.1 k hneed
        · exact (hs o ho).2.2 k (Option.mem_toList.mp hpart)
      have hkept : base.filter (fun o => !has objects o.key) = base := by
        refine List.filter_eq_self.mpr fun o ho => ?_
        refine Bool.not_eq_true' _ ▸ List.any_eq_false.mpr fun o' ho' hkey => ?_
        exact (hbase o ho).1 (of_decide_eq_true hkey ▸ (hs o' ho').1)
      simp only [exec, hthere, hresolved]
      split
      · cases ifThere with
        | fail | keep => rfl
        | replace => simp [List.filter_append, hkept]
      · split <;> simp
  | drop key ifExists =>
      have hkept : base.filter (fun o => !goesWith key o) = base :=
        List.filter_eq_self.mpr fun o ho => by simp [goesWith_apart hbase hs ho]
      have hgone : base.filter (goesWith key) = [] :=
        List.filter_eq_nil_iff.mpr fun o ho => by simp [goesWith_apart hbase hs ho]
      have hneeded : (base.any fun o => o.needs.any (has (c.filter (goesWith key)))) = false := by
        refine List.any_eq_false.mpr fun o ho hneeds => ?_
        obtain ⟨k, hk, hhas⟩ := List.any_eq_true.mp hneeds
        obtain ⟨o', ho', hkey⟩ := List.any_eq_true.mp hhas
        have hown : own o'.key := (hc o' (List.mem_of_mem_filter ho')).1
        exact (hbase o ho).2.1 k hk (of_decide_eq_true hkey ▸ hown)
      simp only [exec, has_frame hbase hs, List.filter_append, hkept, hgone, List.nil_append,
        List.any_append, hneeded, Bool.false_or]
      split
      · split <;> rfl
      · split <;> rfl

theorem execAll_frame (hbase : ∀ o ∈ base, Apart own o) (hc : ∀ o ∈ c, Within own o)
    (hs : ∀ statement ∈ statements, statement.About own) :
    execAll (base ++ c) statements = (execAll c statements).map (base ++ ·) := by
  induction statements generalizing c with
  | nil => rfl
  | cons statement rest ih =>
      obtain ⟨hfirst, hrest⟩ := List.forall_mem_cons.mp hs
      rw [execAll, execAll, exec_frame hbase hc hfirst]
      cases h : exec c statement with
      | none => rfl
      | some c' => exact ih (within_exec hc hfirst h) hrest

end Frame

theorem Apart.mono {own own' : κ → Prop} (hown : ∀ k, own' k → own k) {o : CatalogObject κ}
    (h : Apart own o) : Apart own' o :=
  ⟨fun hkey => h.1 (hown _ hkey), fun k hk hneed => h.2.1 k hk (hown k hneed),
    fun k hk hpart => h.2.2 k hk (hown k hpart)⟩

/-! ## Histories -/

structure Migration (κ : Type*) where
  upgrade : List (Statement κ)
  downgrade : List (Statement κ)

/-- The migrations in their order, and the table that tells how many are applied. -/
structure History (κ : Type*) where
  migrations : List (Migration κ)
  table : List (CatalogObject κ)

/-- `revision` is what the table holds, nothing being 0. -/
structure Migrated (κ : Type*) where
  catalog : Catalog κ
  revision : Nat
  deriving DecidableEq

inductive Command where
  | upgrade (target : Nat)
  | downgrade (target : Nat)

/-- An upgrade to a revision that has been passed has nothing to do. -/
def Command.revision (from_ : Nat) : Command → Nat
  | upgrade target => max from_ target
  | downgrade target => target

def Command.Valid (migrations : List (Migration κ)) (from_ : Nat) : Command → Prop
  | upgrade target => target ≤ migrations.length
  | downgrade target => target ≤ from_

instance (migrations : List (Migration κ)) (from_ : Nat) :
    (command : Command) → Decidable (command.Valid migrations from_)
  | .upgrade _ => inferInstanceAs (Decidable (_ ≤ _))
  | .downgrade _ => inferInstanceAs (Decidable (_ ≤ _))

def Command.statements (migrations : List (Migration κ)) (from_ : Nat) :
    Command → List (Statement κ)
  | upgrade target => ((migrations.take target).drop from_).flatMap Migration.upgrade
  | downgrade target => ((migrations.take from_).drop target).reverse.flatMap Migration.downgrade

section History

variable [DecidableEq κ] (history : History κ)

/-- Where nothing is recorded, a command sees to it first that the table is there. -/
def ensureTable (s : Migrated κ) : Option (Catalog κ) :=
  if s.revision = 0 then exec s.catalog (.create history.table .keep) else some s.catalog

/-- One transaction: all statements of the command and the new revision, or nothing. -/
def migrate (s : Migrated κ) (command : Command) : Option (Migrated κ) :=
  if command.Valid history.migrations s.revision then
    (ensureTable history s).bind fun c =>
      (execAll c (command.statements history.migrations s.revision)).map fun c' =>
        ⟨c', command.revision s.revision⟩
  else none

/-- A command is run to its end, or the connection is lost before the commit. -/
inductive Event where
  | run (command : Command)
  | cutOff (command : Command)

def step (s : Migrated κ) : Event → Option (Migrated κ)
  | .run command => some ((migrate history s command).getD s)
  | .cutOff _ => some s

variable (migrations : List (Migration κ))

/-- The objects of the first migrations. -/
def layout (n : Nat) : Catalog κ :=
  (execAll [] ((migrations.take n).flatMap Migration.upgrade)).getD []

/-- Every migration can be applied to the ones before it, and is undone by its downgrade. -/
def Reversible : Prop :=
  ∀ n m, migrations[n]? = some m →
    execAll (layout migrations n) m.upgrade = some (layout migrations (n + 1)) ∧
      execAll (layout migrations (n + 1)) m.downgrade = some (layout migrations n)

variable {migrations} {own : κ → Prop} {base : Catalog κ}

theorem upgrade_layout (h : Reversible migrations) {n target : Nat} (hn : n ≤ target)
    (htarget : target ≤ migrations.length) :
    execAll (layout migrations n) (((migrations.take target).drop n).flatMap Migration.upgrade) =
      some (layout migrations target) := by
  induction hn with
  | refl =>
      rw [List.drop_eq_nil_of_le (List.length_take_le n migrations)]
      rfl
  | @step target hn ih =>
      have hle : n ≤ target := hn
      have hget : migrations[target]? = some migrations[target] := List.getElem?_eq_getElem htarget
      have hdrop : n ≤ (migrations.take target).length := by
        rw [List.length_take]
        omega
      rw [List.take_add_one, hget, Option.toList_some, List.drop_append_of_le_length hdrop,
        List.flatMap_append, execAll_append, ih (by omega), Option.bind_some,
        List.flatMap_singleton]
      exact (h target _ hget).1

theorem downgrade_layout (h : Reversible migrations) {n target : Nat} (hn : target ≤ n)
    (hlength : n ≤ migrations.length) :
    execAll (layout migrations n)
      (((migrations.take n).drop target).reverse.flatMap Migration.downgrade) =
        some (layout migrations target) := by
  induction hn with
  | refl =>
      rw [List.drop_eq_nil_of_le (List.length_take_le target migrations)]
      rfl
  | @step n hn ih =>
      have hle : target ≤ n := hn
      have hget : migrations[n]? = some migrations[n] := List.getElem?_eq_getElem hlength
      have hdrop : target ≤ (migrations.take n).length := by
        rw [List.length_take]
        omega
      rw [List.take_add_one, hget, Option.toList_some, List.drop_append_of_le_length hdrop,
        List.reverse_append, List.reverse_singleton, List.singleton_append, List.flatMap_cons,
        execAll_append, (h n _ hget).2, Option.bind_some]
      exact ih (by omega)

theorem Command.layout (h : Reversible migrations) {n : Nat} (hn : n ≤ migrations.length)
    {command : Command} (hvalid : command.Valid migrations n) :
    execAll (Catalog.layout migrations n) (command.statements migrations n) =
      some (Catalog.layout migrations (command.revision n)) := by
  cases command with
  | downgrade target => exact downgrade_layout h hvalid hn
  | upgrade target =>
      rcases Nat.le_total n target with hle | hle
      · rw [revision, Nat.max_eq_right hle]
        exact upgrade_layout h hle hvalid
      · have hnothing : (migrations.take target).drop n = [] :=
          List.drop_eq_nil_of_le (Nat.le_trans (List.length_take_le target migrations) hle)
        rw [statements, hnothing, revision, Nat.max_eq_left hle]
        rfl

omit [DecidableEq κ] in
theorem Command.revision_le {n : Nat} (hn : n ≤ migrations.length) {command : Command}
    (hvalid : command.Valid migrations n) : command.revision n ≤ migrations.length := by
  cases command with
  | upgrade target => exact Nat.max_le.mpr ⟨hn, hvalid⟩
  | downgrade target => exact Nat.le_trans hvalid hn

/-- Every statement of the history is about own names. -/
def Own (own : κ → Prop) (migrations : List (Migration κ)) : Prop :=
  ∀ m ∈ migrations, ∀ statement ∈ m.upgrade ++ m.downgrade, statement.About own

omit [DecidableEq κ] in
theorem Own.statements (h : Own own migrations) (n : Nat) (command : Command) :
    ∀ statement ∈ command.statements migrations n, statement.About own := by
  intro statement hstatement
  cases command with
  | upgrade target =>
      obtain ⟨m, hm, hmem⟩ := List.mem_flatMap.mp hstatement
      exact h m (List.mem_of_mem_take (List.mem_of_mem_drop hm)) statement
        (List.mem_append_left _ hmem)
  | downgrade target =>
      obtain ⟨m, hm, hmem⟩ := List.mem_flatMap.mp hstatement
      rw [List.mem_reverse] at hm
      exact h m (List.mem_of_mem_take (List.mem_of_mem_drop hm)) statement
        (List.mem_append_right _ hmem)

theorem within_execAll {c c' : Catalog κ} {statements : List (Statement κ)}
    (hc : ∀ o ∈ c, Within own o) (hs : ∀ statement ∈ statements, statement.About own)
    (h : execAll c statements = some c') : ∀ o ∈ c', Within own o := by
  induction statements generalizing c with
  | nil =>
      cases h
      exact hc
  | cons statement rest ih =>
      obtain ⟨hfirst, hrest⟩ := List.forall_mem_cons.mp hs
      obtain ⟨d, hd, h⟩ := Option.bind_eq_some_iff.mp h
      exact ih (within_exec hc hfirst hd) hrest h

theorem within_layout (hown : Own own migrations) (n : Nat) :
    ∀ o ∈ layout migrations n, Within own o := by
  unfold layout
  cases h : execAll [] ((migrations.take n).flatMap Migration.upgrade) with
  | none => exact List.forall_mem_nil _
  | some c =>
      refine within_execAll (List.forall_mem_nil _) (fun statement hmem => ?_) h
      obtain ⟨m, hm, hmem⟩ := List.mem_flatMap.mp hmem
      exact hown m (List.mem_of_mem_take hm) statement (List.mem_append_left _ hmem)

/--
The table of revisions is whole and apart from what the migrations are about; `names` are
those of both.
-/
structure History.Sound (history : History κ) (own names : κ → Prop) : Prop where
  reversible : Reversible history.migrations
  statements : Own own history.migrations
  apart : ∀ o ∈ history.table, Apart own o
  within : ∀ o ∈ history.table, Within names o
  names_of_own : ∀ key, own key → names key
  created : exec [] (.create history.table .keep) = some history.table
  there : exec history.table (.create history.table .keep) = some history.table

/-- The revision tells what is there, and so does the table once a command has been run. -/
def Recorded (history : History κ) (base : Catalog κ) (s : Migrated κ) : Prop :=
  s.revision ≤ history.migrations.length ∧
    (s.revision = 0 ∧ s.catalog = base ∨
      s.catalog = base ++ history.table ++ layout history.migrations s.revision)

variable {history : History κ} {names : κ → Prop}

theorem ensureTable_recorded (h : history.Sound own names) (hbase : ∀ o ∈ base, Apart names o)
    {s : Migrated κ} (hs : Recorded history base s) : ensureTable history s =
      some (base ++ history.table ++ layout history.migrations s.revision) := by
  have habout : (Statement.create history.table .keep).About names := h.within
  have hempty : layout history.migrations 0 = [] := rfl
  rw [ensureTable]
  obtain ⟨-, ⟨hzero, hcatalog⟩ | hcatalog⟩ := hs
  · have hframe := exec_frame hbase (List.forall_mem_nil (Within names)) habout
    rw [List.append_nil, h.created] at hframe
    rw [if_pos hzero, hcatalog, hframe, hzero, hempty, List.append_nil]
    rfl
  · by_cases hzero : s.revision = 0
    · have hframe := exec_frame hbase h.within habout
      rw [h.there] at hframe
      rw [if_pos hzero, hcatalog, hzero, hempty, List.append_nil, hframe]
      rfl
    · rw [if_neg hzero, hcatalog]

/-- A valid command does what it says, beside whatever else the catalog holds. -/
theorem migrate_recorded (h : history.Sound own names) (hbase : ∀ o ∈ base, Apart names o)
    {s : Migrated κ} (hs : Recorded history base s) {command : Command}
    (hvalid : command.Valid history.migrations s.revision) :
    migrate history s command =
      some ⟨base ++ history.table ++ layout history.migrations (command.revision s.revision),
        command.revision s.revision⟩ := by
  have hapart : ∀ o ∈ base ++ history.table, Apart own o :=
    List.forall_mem_append.mpr ⟨fun o ho => (hbase o ho).mono h.names_of_own, h.apart⟩
  rw [migrate, if_pos hvalid, ensureTable_recorded h hbase hs, Option.bind_some,
    execAll_frame hapart (within_layout h.statements _) (h.statements.statements _ command),
    command.layout h.reversible hs.1 hvalid]
  rfl

theorem Recorded.step (h : history.Sound own names) (hbase : ∀ o ∈ base, Apart names o)
    {s s' : Migrated κ} {e : Event}
    (hs : Recorded history base s) (hstep : Catalog.step history s e = some s') :
    Recorded history base s' := by
  cases e with
  | cutOff command =>
      cases hstep
      exact hs
  | run command =>
      obtain rfl := Option.some.inj hstep
      by_cases hvalid : command.Valid history.migrations s.revision
      · rw [migrate_recorded h hbase hs hvalid]
        exact ⟨command.revision_le hs.1 hvalid, .inr rfl⟩
      · rw [migrate, if_neg hvalid]
        exact hs

end History

end Catalog

end IsolatedEnv.Foundation
