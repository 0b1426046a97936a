import IsolatedEnv.Backend.Core.Dependencies
import IsolatedEnv.Backend.Users.Listing
import IsolatedEnv.Foundation.Run

/-!
# A scan of the users

A client starts without a cursor and passes back the cursor it got until there
is none.  Each page is computed from the table as it is at that moment.  The
scan is the keyset scan of the library over the tables fetched from, with the
cursor text in place of the key.

Between the fetches other transactions write.  A statement inserts a row under
an identifier no record ever had, changes a row but neither its identifier nor
its creation time, or deletes a row.
-/

namespace IsolatedEnv.Backend

open IsolatedEnv.Foundation

abbrev UsersPage := List User × Option String

def scanUsers (env : Env) (filter : UserFilter) (limit : Nat) :
    Option String → List UsersTable → Except Exc (List UsersPage)
  | _, [] => .ok []
  | cursor, t :: later => do
      let page ← UserService.listUsersCursor env t filter cursor limit
      match page.2 with
      | none => .ok [page]
      | some next => do
          let rest ← scanUsers env filter limit (some next) later
          .ok (page :: rest)

def shownUsers (pages : List UsersPage) : List User :=
  pages.flatMap Prod.fst

/-- The last page fetched has no cursor. -/
def ScanEnded (pages : List UsersPage) : Prop :=
  ∃ page, pages.getLast? = some page ∧ page.2 = none

def FullPages (limit : Nat) (pages : List UsersPage) : Prop :=
  ∀ page ∈ pages.dropLast, page.1.length = limit ∧ page.2.isSome

/-! ## The scan is a keyset scan -/

def cursorPage (page : Keyset.Page User) : UsersPage :=
  (page.items, page.last.map encodeCursor)

section Refinement

variable (env : Env) (filter : UserFilter) (limit : Nat)

theorem listUsersCursor_eq_page (t : UsersTable) (after : Option User) :
    UserService.listUsersCursor env t filter (after.map encodeCursor) limit =
      select filter.texts [limit + 1] (cursorPage (Keyset.page userKey (filter.matches env)
        limit (after.map userKey) t.rows)) := by
  rw [UserService.listUsersCursor, cursorArguments_encodeCursor]
  simp only [bind, Except.bind, listUsersCursor_eq_fetch]
  by_cases htakes : Takes filter.texts [limit + 1]
  · simp only [select_of_takes htakes, Except.ok.injEq]
    unfold cursorPage Keyset.page
    dsimp only
    split <;> rfl
  · simp only [select_of_not_takes htakes]

variable {filter limit}

theorem scanUsers_eq_scan (htakes : Takes filter.texts [limit + 1])
    (snapshots : List UsersTable) (after : Option User) :
    scanUsers env filter limit (after.map encodeCursor) snapshots =
      .ok ((Keyset.scan userKey (filter.matches env) limit (after.map userKey)
        (snapshots.map UsersTable.rows)).map cursorPage) := by
  induction snapshots generalizing after with
  | nil => rfl
  | cons t later ih =>
      rw [scanUsers, listUsersCursor_eq_page, select_of_takes htakes, List.map_cons]
      cases hlast : (Keyset.page userKey (filter.matches env) limit
          (after.map userKey) t.rows).last with
      | none =>
          rw [Keyset.scan_cons_none hlast]
          simp [bind, Except.bind, cursorPage, hlast]
      | some r =>
          rw [Keyset.scan_cons_some hlast]
          have hrest := ih (some r)
          simp only [Option.map_some] at hrest
          simp [bind, Except.bind, cursorPage, hlast, hrest]

/-- Already the first query is refused. -/
theorem scanUsers_refused (h : ¬Takes filter.texts [limit + 1]) (t : UsersTable)
    (later : List UsersTable) :
    scanUsers env filter limit none (t :: later) = .error .sqlalchemy := by
  have hpage := listUsersCursor_eq_page env filter limit t none
  rw [Option.map_none, select_of_not_takes h] at hpage
  rw [scanUsers, hpage]
  rfl

theorem shownUsers_cursorPage (pages : List (Keyset.Page User)) :
    shownUsers (pages.map cursorPage) = Keyset.items pages := by
  simp [shownUsers, Keyset.items, List.flatMap_map, cursorPage]

theorem scanEnded_cursorPage (pages : List (Keyset.Page User)) :
    ScanEnded (pages.map cursorPage) ↔ Keyset.Finished pages := by
  simp [ScanEnded, Keyset.Finished, List.getLast?_map, cursorPage]

theorem fullPages_cursorPage {pages : List (Keyset.Page User)}
    (h : Keyset.FullButLast limit pages) : FullPages limit (pages.map cursorPage) := by
  intro page hpage
  rw [← List.map_dropLast] at hpage
  obtain ⟨shown, hshown, rfl⟩ := List.mem_map.mp hpage
  obtain ⟨hlength, hlast⟩ := h shown hshown
  exact ⟨hlength, by simpa [cursorPage] using hlast⟩

theorem uniqueKeys_userKey (t : UsersTable) : Keyset.UniqueKeys userKey t.rows := by
  have hid : t.rows.map User.id = (t.rows.map userKey).map fun k => (ofLex k).2 := by
    rw [List.map_map]
    rfl
  have hunique := t.admissible.uniqueId
  rw [Rows.UniqueKey, hid] at hunique
  exact hunique.of_map _

end Refinement

/-! ## Writes between the fetches -/

inductive TableWrite where
  | insert (u : User)
  | update (u : User)
  | delete (id : Uuid)

inductive ListingEvent where
  | write (w : TableWrite)
  | fetch

/-- `births` keeps what every record that ever was in the table was born with. -/
structure ListingHistory where
  table : UsersTable
  births : List (Uuid × Timestamp)
  fetched : List UsersTable

namespace ListingHistory

def start (t : UsersTable) : ListingHistory :=
  ⟨t, t.rows.map fun u => (u.id, u.createdAt), []⟩

def write (h : ListingHistory) : TableWrite → Option ListingHistory
  | .insert u =>
      if u.id ∈ h.births.map Prod.fst then none
      else (h.table.insert u).toOption.map fun t =>
        { h with table := t, births := h.births ++ [(u.id, u.createdAt)] }
  | .update u =>
      if (h.table.getById u.id).map User.createdAt = some u.createdAt then
        (h.table.flush u).toOption.map fun t => { h with table := t }
      else none
  | .delete id => some { h with table := h.table.delete id }

def step (h : ListingHistory) : ListingEvent → Option ListingHistory
  | .write w => h.write w
  | .fetch => some { h with fetched := h.fetched ++ [h.table] }

/-- Every row seen so far is as it was born. -/
structure Recorded (h : ListingHistory) : Prop where
  unique : Rows.UniqueKey Prod.fst h.births
  current : ∀ u ∈ h.table.rows, (u.id, u.createdAt) ∈ h.births
  fetched : ∀ t ∈ h.fetched, ∀ u ∈ t.rows, (u.id, u.createdAt) ∈ h.births

variable {h h' : ListingHistory}

theorem start_recorded (t : UsersTable) : (start t).Recorded where
  unique := by
    have hid := t.admissible.uniqueId
    simpa [Rows.UniqueKey, start, List.map_map, Function.comp_def] using hid
  current := fun u hu => List.mem_map_of_mem hu
  fetched := by simp [start]

theorem write_recorded {w : TableWrite} (hrecorded : h.Recorded)
    (hwrite : h.write w = some h') : h'.Recorded := by
  cases w with
  | insert u =>
      simp only [write] at hwrite
      split at hwrite
      · cases hwrite
      · rename_i hfresh
        obtain ⟨t, ht, rfl⟩ := Option.map_eq_some_iff.mp hwrite
        have hinsert : h.table.insert u = .ok t := by
          cases hresult : h.table.insert u <;> simp_all [Except.toOption]
        constructor
        · rw [Rows.UniqueKey, List.map_append, List.nodup_append_comm]
          exact List.nodup_cons.mpr ⟨hfresh, hrecorded.unique⟩
        · intro v hv
          rcases (UsersTable.mem_insert hinsert).mp hv with hv | rfl
          · exact List.mem_append_left _ (hrecorded.current v hv)
          · simp
        · intro t' ht' v hv
          exact List.mem_append_left _ (hrecorded.fetched t' ht' v hv)
  | update u =>
      simp only [write] at hwrite
      split at hwrite
      · rename_i hborn
        obtain ⟨t, ht, rfl⟩ := Option.map_eq_some_iff.mp hwrite
        have hflush : h.table.flush u = .ok t := by
          cases hresult : h.table.flush u <;> simp_all [Except.toOption]
        obtain ⟨old, hold, hcreated⟩ := Option.map_eq_some_iff.mp hborn
        obtain ⟨hmem, hid⟩ := UsersTable.getById_eq_some.mp hold
        refine ⟨hrecorded.unique, fun v hv => ?_, hrecorded.fetched⟩
        rcases (UsersTable.mem_flush hflush).mp hv with ⟨hv, -⟩ | rfl
        · exact hrecorded.current v hv
        · rw [← hid, ← hcreated]
          exact hrecorded.current old hmem
      · cases hwrite
  | delete id =>
      simp only [write, Option.some.injEq] at hwrite
      subst hwrite
      exact ⟨hrecorded.unique,
        fun v hv => hrecorded.current v (UsersTable.mem_delete.mp hv).1,
        hrecorded.fetched⟩

theorem step_recorded {e : ListingEvent} (hrecorded : h.Recorded)
    (hstep : h.step e = some h') : h'.Recorded := by
  cases e with
  | write w => exact write_recorded hrecorded hstep
  | fetch =>
      simp only [step, Option.some.injEq] at hstep
      subst hstep
      refine ⟨hrecorded.unique, hrecorded.current, fun t ht u hu => ?_⟩
      rcases List.mem_append.mp ht with ht | ht
      · exact hrecorded.fetched t ht u hu
      · rw [List.mem_singleton.mp ht] at hu
        exact hrecorded.current u hu

theorem run_recorded {t : UsersTable} {events : List ListingEvent}
    (hrun : run step (start t) events = some h) : h.Recorded :=
  run_invariant (fun _ _ _ hrecorded hstep => step_recorded hrecorded hstep)
    (start_recorded t) hrun

/-- Two rows seen under one identifier have one key. -/
theorem Recorded.userKey_eq (hrecorded : h.Recorded) {t t' : UsersTable}
    (ht : t ∈ h.fetched) (ht' : t' ∈ h.fetched) {u v : User} (hu : u ∈ t.rows)
    (hv : v ∈ t'.rows) (hid : u.id = v.id) : userKey u = userKey v := by
  have hborn := hrecorded.unique.eq (hrecorded.fetched t ht u hu)
    (hrecorded.fetched t' ht' v hv) hid
  have hcreated : u.createdAt = v.createdAt := congrArg Prod.snd hborn
  rw [userKey, userKey, hid, hcreated]

end ListingHistory

/-! ## The repository writes like this -/

theorem save_write {h : ListingHistory} {user row : User} {tick : Tick}
    {t' : UsersTable} {old : User} (hold : old ∈ h.table.rows)
    (hid : user.id = old.id) (hcreated : user.createdAt = old.createdAt)
    (hsave : h.table.save user tick = .ok (row, t')) :
    h.write (.update row) = some { h with table := t' } := by
  obtain ⟨rfl, hflush⟩ := UsersTable.save_ok hsave
  have hborn : h.table.getById user.id = some old :=
    UsersTable.getById_eq_some.mpr ⟨hold, hid.symm⟩
  rw [ListingHistory.write, if_pos (by simp [hborn, hcreated]), hflush]
  rfl

theorem upsertFromProvider_write {env : Env} {h : ListingHistory}
    {providerId email name : String} {groups : Option (List Json)} {tick : Tick}
    {row : User} {t' : UsersTable} (hfresh : tick.newId ∉ h.births.map Prod.fst)
    (hupsert : h.table.upsertFromProvider env providerId email name groups tick =
      .ok (row, t')) :
    ∃ w h', h.write w = some h' ∧ h'.table = t' := by
  rcases UsersTable.upsertFromProvider_cases hupsert with
    ⟨user, hfind, hsave⟩ | ⟨-, hrow, hinsert⟩
  · have hmem := (UsersTable.getByProviderId_eq_some.mp hfind).1
    refine ⟨.update row, { h with table := t' }, ?_, rfl⟩
    apply save_write hmem _ _ hsave <;> rfl
  · have hid : row.id = tick.newId := by rw [hrow, UsersTable.newUser]
    refine ⟨.insert row, { h with
      table := t', births := h.births ++ [(row.id, row.createdAt)] }, ?_, rfl⟩
    rw [ListingHistory.write, hid, if_neg hfresh, hinsert]
    rfl

/-! ## What a scan shows -/

/-- The matching users, each once, newest first. -/
structure ListsMatching (env : Env) (filter : UserFilter) (t : UsersTable)
    (users : List User) : Prop where
  perm : users.Perm (t.rows.filter (filter.matches env))
  order : users.Pairwise fun u v => userKey v < userKey u

theorem scan_unmodified {env : Env} {filter : UserFilter} {limit : Nat} (hlimit : 1 ≤ limit)
    (htakes : Takes filter.texts [limit + 1]) (t : UsersTable) {n : Nat} (hn : t.rows.length < n) :
    ∃ pages, scanUsers env filter limit none (List.replicate n t) = .ok pages ∧
      ScanEnded pages ∧ FullPages limit pages ∧
      ListsMatching env filter t (shownUsers pages) := by
  have hunique := uniqueKeys_userKey t
  have hshort : (Keyset.candidates userKey (filter.matches env) none t.rows).length <
      n := by
    rw [Keyset.candidates, List.length_insertionSort]
    exact (List.length_filter_le _ _).trans_lt hn
  obtain ⟨hitems, hfull, hend⟩ := Keyset.scan_static hlimit hunique hshort
  have hscan := scanUsers_eq_scan env htakes (List.replicate n t) none
  rw [List.map_replicate] at hscan
  refine ⟨_, hscan, (scanEnded_cursorPage _).mpr hend,
    fullPages_cursorPage hfull, ?_⟩
  rw [Option.map_none, shownUsers_cursorPage, hitems]
  refine ⟨?_, Keyset.candidates_descending _ _ hunique⟩
  have hperm := List.perm_insertionSort (fun r s : User => userKey s ≤ userKey r)
    (t.rows.filter (filter.matches env))
  simpa [Keyset.candidates] using hperm

theorem scan_modified {env : Env} {filter : UserFilter} {limit : Nat} (hlimit : 1 ≤ limit)
    (htakes : Takes filter.texts [limit + 1]) {h : ListingHistory} (hrecorded : h.Recorded) :
    ∃ pages, scanUsers env filter limit none h.fetched = .ok pages ∧
      ((shownUsers pages).map User.id).Nodup ∧
      ∀ id, (∀ t ∈ h.fetched, ∃ u ∈ t.rows, u.id = id ∧ filter.matches env u = true) →
        ScanEnded pages → id ∈ (shownUsers pages).map User.id := by
  have hunique : ∀ rows ∈ h.fetched.map UsersTable.rows,
      Keyset.UniqueKeys userKey rows := by
    simp only [List.forall_mem_map]
    exact fun t _ => uniqueKeys_userKey t
  refine ⟨_, scanUsers_eq_scan env htakes h.fetched none, ?_, ?_⟩
  · rw [Option.map_none, shownUsers_cursorPage, List.Nodup, List.pairwise_map]
    have hdescending :=
      Keyset.scan_descending (filter.matches env) limit none hunique
    refine hdescending.imp_of_mem fun {u v} hu hv hlt hid => ?_
    obtain ⟨⟨rows, hrows, hu⟩, -, -⟩ := Keyset.mem_scan hu
    obtain ⟨⟨rows', hrows', hv⟩, -, -⟩ := Keyset.mem_scan hv
    obtain ⟨t, ht, rfl⟩ := List.mem_map.mp hrows
    obtain ⟨t', ht', rfl⟩ := List.mem_map.mp hrows'
    rw [hrecorded.userKey_eq ht ht' hu hv hid] at hlt
    exact lt_irrefl _ hlt
  · intro id hstays hend
    rw [Option.map_none, shownUsers_cursorPage]
    rw [Option.map_none, scanEnded_cursorPage] at hend
    cases hfetched : h.fetched with
    | nil =>
        obtain ⟨page, hpage, -⟩ := hend
        simp [hfetched, Keyset.scan] at hpage
    | cons t₀ later =>
        have ht₀ : t₀ ∈ h.fetched := hfetched ▸ List.mem_cons_self
        obtain ⟨u₀, hu₀, rfl, -⟩ := hstays t₀ ht₀
        have hsame : ∀ rows ∈ h.fetched.map UsersTable.rows,
            ∃ r ∈ rows, filter.matches env r = true ∧ userKey r = userKey u₀ := by
          simp only [List.forall_mem_map]
          intro t ht
          obtain ⟨u, hu, hid, hmatches⟩ := hstays t ht
          exact ⟨u, hu, hmatches, hrecorded.userKey_eq ht ht₀ hu hu₀ hid⟩
        obtain ⟨r, hr, hkey⟩ :=
          Keyset.scan_complete hlimit hunique (by simp) hsame hend
        rw [← hfetched]
        exact List.mem_map.mpr ⟨r, hr, congrArg (fun k => (ofLex k).2) hkey⟩

/-- A scan is complete and shows no user twice, also while others write. -/
structure ScansCompletely (env : Env) (filter : UserFilter) (limit : Nat) : Prop where
  unmodified : ∀ t n, t.rows.length < n →
    ∃ pages, scanUsers env filter limit none (List.replicate n t) = .ok pages ∧
      ScanEnded pages ∧ FullPages limit pages ∧
      ListsMatching env filter t (shownUsers pages)
  modified : ∀ t events h, run ListingHistory.step (.start t) events = some h →
    ∃ pages, scanUsers env filter limit none h.fetched = .ok pages ∧
      ((shownUsers pages).map User.id).Nodup ∧
      ∀ id, (∀ t ∈ h.fetched, ∃ u ∈ t.rows, u.id = id ∧ filter.matches env u = true) →
        ScanEnded pages → id ∈ (shownUsers pages).map User.id

/-- Every scan is complete whose search text and limit the database takes. -/
theorem cursor_scan_lists_users (env : Env) (filter : UserFilter) {limit : Nat}
    (hlimit : 1 ≤ limit) :
    ScansCompletely env filter limit ↔ Takes filter.texts [limit + 1] := by
  constructor
  · intro h
    by_contra hrefused
    obtain ⟨pages, hpages, -⟩ := h.unmodified .empty 1 Nat.zero_lt_one
    rw [List.replicate_one, scanUsers_refused env hrefused] at hpages
    cases hpages
  · intro htakes
    constructor
    · exact fun t n hn => scan_unmodified hlimit htakes t hn
    · exact fun t events h hrun =>
        scan_modified hlimit htakes (ListingHistory.run_recorded hrun)

def createdTogether : UsersTable :=
  ⟨[exampleUser 1 "alice" .free, exampleUser 2 "bob" .paid], by decide +kernel⟩

def everyone : UserFilter := ⟨none, none, none⟩

/-- Two fetches, between which Bob is deleted. -/
def bobDeletedBetween : ListingHistory where
  table := createdTogether.delete 2
  births := (ListingHistory.start createdTogether).births
  fetched := [createdTogether, createdTogether.delete 2]

theorem cursor_scan_lists_alice_and_bob :
    (∃ pages, scanUsers exampleEnv everyone 1 none
        (List.replicate 3 createdTogether) = .ok pages ∧
        ScanEnded pages ∧ FullPages 1 pages ∧
        ListsMatching exampleEnv everyone createdTogether (shownUsers pages)) ∧
      ∃ pages, scanUsers exampleEnv everyone 1 none bobDeletedBetween.fetched =
          .ok pages ∧
        ((shownUsers pages).map User.id).Nodup ∧
        ∀ id, (∀ t ∈ bobDeletedBetween.fetched,
            ∃ u ∈ t.rows, u.id = id ∧ everyone.matches exampleEnv u = true) →
          ScanEnded pages → id ∈ (shownUsers pages).map User.id := by
  have hrun : run ListingHistory.step (.start createdTogether)
      [.fetch, .write (.delete 2), .fetch] = some bobDeletedBetween := by
    simp [run, ListingHistory.step, ListingHistory.write, ListingHistory.start,
      bobDeletedBetween]
  obtain ⟨hstatic, hdynamic⟩ :=
    (cursor_scan_lists_users exampleEnv everyone (Nat.le_refl 1)).mpr (by decide)
  exact ⟨hstatic createdTogether 3 (by decide), hdynamic createdTogether _ _ hrun⟩

/-- `?search=%00` -/
def zeroSearch : UserFilter := ⟨none, none, some "\x00"⟩

theorem zero_character_stops_scan :
    scanUsers exampleEnv zeroSearch 20 none [createdTogether] = .error .sqlalchemy ∧
      ¬∀ filter limit, 1 ≤ limit → ScansCompletely exampleEnv filter limit := by
  have hrefused : ¬Takes zeroSearch.texts [20 + 1] := by decide
  refine ⟨scanUsers_refused exampleEnv hrefused createdTogether [], fun hall => ?_⟩
  obtain ⟨pages, hpages, -⟩ := (hall zeroSearch 20 (by decide)).unmodified createdTogether 3
    (by decide)
  rw [List.replicate_succ, scanUsers_refused exampleEnv hrefused] at hpages
  cases hpages

end IsolatedEnv.Backend
