import IsolatedEnv.Backend.Effects
import IsolatedEnv.Backend.Unblocking
import IsolatedEnv.Backend.Users.UserSync

/-!
# Whose requests change an account

An account is a record, the items under its identifier and the audit entries made in its
name.  Of all requests only a few concern it: those that are resolved to its record, those
of an admin that name it, and those to the item routes with its identifier as owner.  A
request is resolved to the record of its subject, or to the one that has its email.
-/

namespace IsolatedEnv.Backend

open IsolatedEnv.Foundation

structure Account where
  record : Option User
  items : List Item
  entries : List AuditLog

def Database.account (db : Database) (id : Uuid) : Account where
  record := db.users.getById id
  items := db.items.filter fun i => i.ownerId = id
  entries := db.auditLog.filter fun e => e.adminUserId = id

/-- The request is answered with a success, and by or about the account. -/
def App.Concerns (env : Env) (id : Uuid) (app : App) : App.Event → Prop
  | .request request (.user route) =>
      (∃ answer, (app.serve env request (.user route)).1 = .ok answer) ∧
        ∃ acting users, getCurrentDbUser env request.auth request.tick app.db.users =
            .ok (acting, users) ∧
          (acting.id = id ∨ acting.role = .admin ∧ route.target acting = some id)
  | .request request (.item route) =>
      (∃ answer, (app.serve env request (.item route)).1 = .ok answer) ∧
        ownerId env request.auth = .ok id
  | .expire _ => False

/-- The request neither deletes the account nor is an admin's about it. -/
def App.Visits (env : Env) (id : Uuid) (app : App) : App.Event → Prop
  | .request request (.user route) =>
      route ≠ .deleteSelf ∧
        ∀ acting users, getCurrentDbUser env request.auth request.tick app.db.users =
          .ok (acting, users) → route.target acting ≠ some id
  | .request _ (.item _) | .expire _ => False

/-- What is left of an account when its record is resolved. -/
structure Account.Kept (before after : Account) : Prop where
  record : ∀ old ∈ before.record, ∃ new ∈ after.record, new.id = old.id ∧
    new.isActive = old.isActive ∧ new.createdAt = old.createdAt ∧
      new.roleChangedAt = old.roleChangedAt ∧ new.roleChangedBy = old.roleChangedBy
  items : after.items = before.items
  entries : before.entries <+: after.entries

variable {env : Env} {request : Request} {app app' : App} {db db' : Database} {id : Uuid}

namespace Account.Kept

variable {a b c : Account}

theorem refl (a : Account) : a.Kept a where
  record old hold := ⟨old, hold, rfl, rfl, rfl, rfl, rfl⟩
  items := rfl
  entries := List.prefix_refl _

theorem trans (h : a.Kept b) (h' : b.Kept c) : a.Kept c where
  record old hold := by
    obtain ⟨mid, hmid, hid, hactive, hcreated, hat, hby⟩ := h.record old hold
    obtain ⟨new, hnew, hid', hactive', hcreated', hat', hby'⟩ := h'.record mid hmid
    exact ⟨new, hnew, hid'.trans hid, hactive'.trans hactive, hcreated'.trans hcreated,
      hat'.trans hat, hby'.trans hby⟩
  items := h'.items.trans h.items
  entries := h.entries.trans h'.entries

end Account.Kept

/-! ## Routes behind a record -/

theorem isSome_of_eq {α : Type} {a b : Option α} (h : a = b) : b.isSome → a.isSome := by
  rw [h]
  exact fun h => h

theorem Database.setUsers_items {users : UsersTable}
    (h : (db.users.getById id).isSome → (users.getById id).isSome) :
    ((db.setUsers users).items.filter fun i => i.ownerId = id) =
      db.items.filter fun i => i.ownerId = id := by
  unfold setUsers
  rw [List.filter_filter]
  refine List.filter_congr fun i hi => ?_
  by_cases howner : i.ownerId = id
  · have howned : Owned users i := by
      have hbefore := db.consistent.itemOwned i hi
      rw [Owned, howner] at hbefore ⊢
      exact h hbefore
    simp [howner, howned]
  · simp [howner]

theorem Database.account_setUsers {users : UsersTable}
    (h : users.getById id = db.users.getById id) :
    (db.setUsers users).account id = db.account id := by
  simp only [account, setUsers_items (isSome_of_eq h), setUsers_users, h]
  rfl

theorem UserRoute.fact_admin {users : UsersTable} {acting : User} {route : UserRoute}
    {fact : AuditFact} (h : route.fact users acting = some fact) :
    fact.adminUserId = acting.id := by
  unfold UserRoute.fact at h
  split at h
  · obtain ⟨target, -, rfl⟩ := Option.map_eq_some_iff.mp h
    rfl
  · obtain ⟨target, -, rfl⟩ := Option.map_eq_some_iff.mp h
    rfl
  · obtain ⟨target, -, rfl⟩ := Option.map_eq_some_iff.mp h
    rfl
  · obtain ⟨target, -, rfl⟩ := Option.map_eq_some_iff.mp h
    rfl
  · cases h
    rfl
  · cases h

theorem Effect.account_eq {acting : User} {route : UserRoute}
    (h : Effect env request acting db route db') (hacting : acting.id ≠ id)
    (htarget : route.target acting ≠ some id) : db'.account id = db.account id := by
  cases h with
  | read unaudited => rfl
  | wrote entry change due users_eq items_eq log_eq =>
      have hrecord := change.getById_other htarget
      have hentry : entry.adminUserId ≠ id := by
        rw [show entry.adminUserId = acting.id from UserRoute.fact_admin due]
        exact hacting
      simp only [Database.account, users_eq, items_eq, log_eq,
        Database.setUsers_items (isSome_of_eq hrecord), hrecord, List.filter_append,
        Account.mk.injEq, true_and]
      simp [hentry]

/-- A route that writes another record than that of the acting user is an admin's. -/
theorem UserRoute.gate_of_target {route : UserRoute} {acting : User}
    (htarget : route.target acting = some id) (hacting : acting.id ≠ id) :
    route.gate = some .admin := by
  cases route with
  | deleteSelf => exact absurd (Option.some.inj htarget) hacting
  | changeRole params | blockUser params | deleteUser params => rfl
  | _ => cases htarget

theorem serve_user_account {route : UserRoute}
    (h : ¬app.Concerns env id (.request request (.user route))) :
    (app.serve env request (.user route)).2.db.account id = app.db.account id := by
  cases hanswer : (app.serve env request (.user route)).1 with
  | error e => rw [serve_error_db hanswer]
  | ok answer =>
      cases app.served env request route with
      | nothing same => rw [same]
      | done acting users current gate effect =>
          have hnot : ∀ {p : Prop}, (p → acting.id = id ∨
              acting.role = .admin ∧ route.target acting = some id) → ¬p :=
            fun himp hp => h ⟨⟨answer, hanswer⟩, acting, users, current, himp hp⟩
          have hacting : acting.id ≠ id := hnot .inl
          have htarget : route.target acting ≠ some id := by
            intro htarget
            have hrequire := gate .admin (UserRoute.gate_of_target htarget hacting)
            have hrole := allowedRole_admin (requireRole_eq_ok.mp hrequire).2
            exact hnot (fun _ : True => .inr ⟨hrole, htarget⟩) trivial
          rw [effect.account_eq hacting htarget]
          exact Database.account_setUsers (getCurrentDbUser_getById current hacting)

/-! ### Requests that are resolved to the record -/

theorem Resolution.account_kept {providerId : String} {profile : Profile} {tick : Tick}
    {row : User} {users : UsersTable}
    (h : Resolution env db.users providerId profile tick row users) :
    (db.account id).Kept ((db.setUsers users).account id) := by
  have hrecord : ∀ old ∈ db.users.getById id, ∃ new ∈ users.getById id, new.id = old.id ∧
      new.isActive = old.isActive ∧ new.createdAt = old.createdAt ∧
        new.roleChangedAt = old.roleChangedAt ∧ new.roleChangedBy = old.roleChangedBy := by
    intro old hold
    obtain ⟨hmem, hid⟩ := UsersTable.getById_eq_some.mp hold
    by_cases hrow : row.id = old.id
    · refine ⟨row, UsersTable.getById_eq_some.mpr
        ⟨h.mem_iff.mpr (.inr rfl), hrow.trans hid⟩, hrow, ?_⟩
      rcases h.stored_or_new with
        ⟨found, -, hfound, hfoundId, hactive, hcreated, hat, hby, -⟩ | ⟨-, -, hfresh, -⟩
      · have hsame : old = found :=
          db.users.admissible.uniqueId.eq hmem hfound (hrow.symm.trans hfoundId)
        rw [hsame]
        exact ⟨hactive, hcreated, hat, hby⟩
      · exact absurd hrow.symm (hfresh old hmem)
    · exact ⟨old, UsersTable.getById_eq_some.mpr
        ⟨h.mem_iff.mpr (.inl ⟨hmem, Ne.symm hrow⟩), hid⟩, rfl, rfl, rfl, rfl, rfl⟩
  have hstays : (db.users.getById id).isSome → (users.getById id).isSome := by
    intro hsome
    obtain ⟨old, hold⟩ := Option.isSome_iff_exists.mp hsome
    obtain ⟨new, hnew, -⟩ := hrecord old hold
    exact Option.isSome_of_mem hnew
  exact ⟨hrecord, Database.setUsers_items hstays, List.prefix_refl _⟩

theorem Effect.account_kept {acting : User} {route : UserRoute}
    (h : Effect env request acting db route db') (htarget : route.target acting ≠ some id) :
    (db.account id).Kept (db'.account id) := by
  cases h with
  | read unaudited => exact .refl _
  | wrote entry change due users_eq items_eq log_eq =>
      have hrecord := change.getById_other htarget
      have hitems := Database.setUsers_items (isSome_of_eq hrecord)
      refine ⟨fun old hold => ⟨old, ?_, rfl, rfl, rfl, rfl, rfl⟩, ?_, ?_⟩
      · simp only [Database.account, users_eq, hrecord] at hold ⊢
        exact hold
      · simp only [Database.account, items_eq, hitems]
      · simp only [Database.account, log_eq, List.filter_append]
        exact List.prefix_append _ _

theorem serve_user_kept {route : UserRoute}
    (h : app.Visits env id (.request request (.user route))) :
    (app.db.account id).Kept ((app.serve env request (.user route)).2.db.account id) := by
  cases app.served env request route with
  | nothing same =>
      rw [same]
      exact .refl _
  | done acting users current gate effect =>
      obtain ⟨-, profile, -, hresolution⟩ := getCurrentDbUser_cases current
      exact hresolution.account_kept.trans (effect.account_kept (h.2 acting users current))

/-! ### The subject of a record -/

theorem Change.keeps {t t' : UsersTable} {acting : User} {tick : Tick} {route : UserRoute}
    (h : Change t acting tick route t') : Keeps t t' := by
  cases h with
  | role target row newRole _ mem other saved => exact updateRole_keeps mem saved
  | active target row isActive _ mem other saved => exact setActive_keeps mem saved
  | password target mem => exact Keeps.refl _
  | delete target mem other => exact keeps_delete _ _
  | deleteSelf => exact keeps_delete _ _

theorem Effect.keeps {acting : User} {route : UserRoute}
    (h : Effect env request acting db route db') : Keeps db.users db'.users := by
  cases h with
  | read unaudited => exact Keeps.refl _
  | wrote entry change due users_eq items_eq log_eq => exact users_eq ▸ change.keeps

/-- The request's subject takes over the record that has its email. -/
def App.Links (env : Env) (request : Request) (app : App) (old new : User) : Prop :=
  new.providerId = request.auth.providerId env ∧
    app.db.users.getByProviderId (request.auth.providerId env) = none ∧
      ∃ profile, request.auth.profile env = .ok profile ∧ profile.email ≠ "" ∧
        profile.email = old.email

theorem Resolution.providerId_cases {providerId : String} {profile : Profile} {tick : Tick}
    {t t' : UsersTable} {row old : User} (h : Resolution env t providerId profile tick row t')
    (hold : old ∈ t.rows) (hid : row.id = old.id) :
    row.providerId = old.providerId ∨ row.providerId = providerId ∧
      t.getByProviderId providerId = none ∧ profile.email ≠ "" ∧ profile.email = old.email := by
  have hrow := h.providerId_eq
  have horigin := h.origin
  rw [hid] at horigin
  generalize hold' : old.id = oldId at horigin
  cases horigin with
  | known user mem owned =>
      have hsame : old = user := t.admissible.uniqueId.eq hold mem hold'
      exact .inl (hrow.trans (hsame ▸ owned.symm))
  | linked user unknown hasEmail found =>
      obtain ⟨hmem, hemail⟩ := UsersTable.getByEmail_eq_some.mp found
      have hsame : old = user := t.admissible.uniqueId.eq hold hmem hold'
      exact .inr ⟨hrow, unknown, hasEmail, hsame ▸ hemail.symm⟩
  | created fresh => exact absurd hold' (fresh old hold)

/-- A record changes its subject in one way only. -/
theorem serve_providerId {route : Route} {old new : User}
    (hold : app.db.users.getById id = some old)
    (hnew : (app.serve env request route).2.db.users.getById id = some new)
    (hne : new.providerId ≠ old.providerId) : app.Links env request old new := by
  obtain ⟨holdMem, holdId⟩ := UsersTable.getById_eq_some.mp hold
  cases route with
  | item route =>
      rw [serve_item_users, hold] at hnew
      cases hnew
      exact absurd rfl hne
  | user route =>
      cases app.served env request route with
      | nothing same =>
          rw [same, hold] at hnew
          cases hnew
          exact absurd rfl hne
      | done acting users current gate effect =>
          obtain ⟨-, profile, hprofile, hresolution⟩ := getCurrentDbUser_cases current
          obtain ⟨hnewMem, hnewId⟩ := UsersTable.getById_eq_some.mp hnew
          obtain ⟨mid, hmid, hmidId, hprovider, -⟩ := effect.keeps new hnewMem
          have hsameId : mid.id = old.id := (hmidId.trans hnewId).trans holdId.symm
          rw [Database.setUsers_users] at hmid
          rcases hresolution.mem_iff.mp hmid with ⟨hmem, -⟩ | rfl
          · have hsame : mid = old :=
              app.db.users.admissible.uniqueId.eq hmem holdMem hsameId
            exact absurd (hsame ▸ hprovider.symm) hne
          · rcases hresolution.providerId_cases holdMem hsameId with
              hkept | ⟨hrow, hunknown, hemail⟩
            · exact absurd (hprovider.symm.trans hkept) hne
            · exact ⟨hprovider.symm.trans hrow, hunknown, profile, hprofile, hemail⟩

/-! ## Routes behind an owner -/

section Items

variable {owner : Uuid} {item : Item}

theorem ItemRepository.create_other {data : ItemCreate} {newId : Uuid} {now : Timestamp}
    {p : Item × Database} (h : create db data owner newId now = .ok p) (hother : owner ≠ id) :
    (p.2.items.filter fun i => i.ownerId = id) = db.items.filter fun i => i.ownerId = id := by
  obtain ⟨db', hset, rfl⟩ := exists_ok h
  rw [(Database.setItems_ok hset).2.1, List.filter_append]
  simp [hother]

theorem ItemRepository.update_other {data : ItemUpdate} {now : Timestamp}
    {p : Item × Database} (h : update db item data now = .ok p) (hmem : item ∈ db.items)
    (hother : item.ownerId ≠ id) :
    (p.2.items.filter fun i => i.ownerId = id) = db.items.filter fun i => i.ownerId = id := by
  unfold update at h
  split at h
  · cases h
  · dsimp only at h
    split at h
    · cases h
      rfl
    · obtain ⟨db', hset, rfl⟩ := exists_ok h
      have howner : ∀ i ∈ db.items, i.id = item.id → i.ownerId = item.ownerId :=
        fun i hi hid => congrArg Item.ownerId (db.consistent.itemId.eq hi hmem hid)
      rw [(Database.setItems_ok hset).2.1, Rows.filter_replace, Rows.replace_of_forall_ne]
      · intro i hi hid
        obtain ⟨hi, hown⟩ := List.mem_filter.mp hi
        exact hother ((howner i hi hid).symm.trans (of_decide_eq_true hown))
      · intro i hi hid
        rw [howner i hi hid]

theorem ItemRepository.delete_other {db' : Database} (h : delete db item = .ok db')
    (hmem : item ∈ db.items) (hother : item.ownerId ≠ id) :
    (db'.items.filter fun i => i.ownerId = id) = db.items.filter fun i => i.ownerId = id := by
  rw [(Database.setItems_ok h).2.1, List.filter_filter]
  refine List.filter_congr fun i hi => ?_
  by_cases hid : i.id = item.id
  · have hsame := db.consistent.itemId.eq hi hmem hid
    simp [hsame, hother]
  · simp [hid]

theorem ItemService.written_ok {α : Type} {cache : ItemCache}
    {result : Except Exc (α × Database)} {p : α × Database}
    (h : (written owner request cache result).1 = .ok p) : result = .ok p := by
  unfold written at h
  cases result with
  | error e => cases h
  | ok q => exact h

theorem ItemService.findItem_ok {itemId : Uuid} (h : findItem db itemId owner = .ok item) :
    item ∈ db.items ∧ item.ownerId = owner := by
  unfold findItem at h
  cases hget : ItemRepository.getById db itemId owner with
  | none => simp [hget] at h
  | some found =>
      simp only [hget, Except.ok.injEq] at h
      subst h
      obtain ⟨hmem, -, howner⟩ := ItemRepository.getById_eq_some hget
      exact ⟨hmem, howner⟩

theorem ItemRoute.endpoint_other {route : ItemRoute} {cache : ItemCache} {answer : Answer}
    {endpoint : Uuid → ItemOutcome Answer}
    (hendpoint : route.endpoint request db cache = some endpoint)
    (h : (endpoint owner).1 = .ok (answer, db')) (hother : owner ≠ id) :
    (db'.items.filter fun i => i.ownerId = id) = db.items.filter fun i => i.ownerId = id := by
  cases route with
  | listItems params =>
      obtain ⟨⟨offset, limit⟩, -, rfl⟩ := Option.map_eq_some_iff.mp hendpoint
      obtain ⟨p, hp, hanswer⟩ := exists_ok h
      obtain ⟨items, -, rfl⟩ := exists_ok hp
      cases hanswer
      rfl
  | getItem params =>
      obtain ⟨itemId, -, rfl⟩ := Option.map_eq_some_iff.mp hendpoint
      obtain ⟨p, hp, hanswer⟩ := exists_ok h
      obtain ⟨item, -, rfl⟩ := exists_ok hp
      cases hanswer
      rfl
  | createItem params =>
      obtain ⟨data, -, rfl⟩ := Option.map_eq_some_iff.mp hendpoint
      obtain ⟨p, hp, hanswer⟩ := exists_ok h
      cases hanswer
      obtain ⟨created, hcreate, hp⟩ := bind_eq_ok.mp (ItemService.written_ok hp)
      cases hp
      exact ItemRepository.create_other hcreate hother
  | updateItem params =>
      obtain ⟨⟨itemId, data⟩, -, rfl⟩ := Option.map_eq_some_iff.mp hendpoint
      obtain ⟨p, hp, hanswer⟩ := exists_ok h
      cases hanswer
      obtain ⟨item, hfind, hp⟩ := bind_eq_ok.mp (ItemService.written_ok hp)
      obtain ⟨updated, hupdate, hp⟩ := bind_eq_ok.mp hp
      cases hp
      obtain ⟨hmem, rfl⟩ := ItemService.findItem_ok hfind
      exact ItemRepository.update_other hupdate hmem hother
  | deleteItem params =>
      obtain ⟨itemId, -, rfl⟩ := Option.map_eq_some_iff.mp hendpoint
      obtain ⟨p, hp, hanswer⟩ := exists_ok h
      cases hanswer
      obtain ⟨item, hfind, hp⟩ := bind_eq_ok.mp (ItemService.written_ok hp)
      obtain ⟨deleted, hdelete, hp⟩ := bind_eq_ok.mp hp
      cases hp
      obtain ⟨hmem, rfl⟩ := ItemService.findItem_ok hfind
      exact ItemRepository.delete_other hdelete hmem hother

end Items

/-- A success of an item route is its endpoint's, for the owner of the token. -/
theorem ItemRoute.serve_ok {route : ItemRoute} {cache : ItemCache} {p : Answer × Database}
    (h : (route.serve env request db cache).1 = .ok p) :
    ∃ owner endpoint, ownerId env request.auth = .ok owner ∧
      route.endpoint request db cache = some endpoint ∧ (endpoint owner).1 = .ok p := by
  unfold ItemRoute.serve asOwner at h
  dsimp only at h
  cases howner : ownerId env request.auth with
  | error e => simp [howner] at h
  | ok owner =>
      simp only [howner] at h
      split at h
      · cases h
      · cases hendpoint : route.endpoint request db cache with
        | none =>
            rw [hendpoint] at h
            cases h
        | some endpoint =>
            rw [hendpoint] at h
            exact ⟨owner, endpoint, rfl, rfl, h⟩

theorem serve_item_account {route : ItemRoute}
    (h : ¬app.Concerns env id (.request request (.item route))) :
    (app.serve env request (.item route)).2.db.account id = app.db.account id := by
  obtain ⟨husers, hlog⟩ : app.db.SameRecords (app.serve env request (.item route)).2.db :=
    serve_item_same route
  have hitems : ((app.serve env request (.item route)).2.db.items.filter fun i =>
      i.ownerId = id) = app.db.items.filter fun i => i.ownerId = id := by
    cases hresult : (route.serve env request app.db app.cache).1 with
    | error e => simp [App.serve, hresult, Except.map, Except.toOption]
    | ok p =>
        obtain ⟨owner, endpoint, howner, hendpoint, hend⟩ := ItemRoute.serve_ok hresult
        have hother : owner ≠ id := by
          rintro rfl
          exact h ⟨⟨p.1, by simp [App.serve, hresult, Except.map]⟩, howner⟩
        have hdb : (app.serve env request (.item route)).2.db = p.2 := by
          simp [App.serve, hresult, Except.map, Except.toOption]
        rw [hdb]
        exact ItemRoute.endpoint_other hendpoint hend hother
  simp only [Database.account, husers, hlog, hitems]

/-! ## Runs -/

theorem step_account {event : App.Event} (h : ¬app.Concerns env id event)
    (hstep : app.step env event = some app') : app'.db.account id = app.db.account id := by
  cases event with
  | expire key =>
      cases hstep
      rfl
  | request request route =>
      cases hstep
      cases route with
      | user route => exact serve_user_account h
      | item route => exact serve_item_account h

theorem step_kept {event : App.Event}
    (h : app.Concerns env id event → app.Visits env id event)
    (hstep : app.step env event = some app') :
    (app.db.account id).Kept (app'.db.account id) := by
  by_cases hconcerns : app.Concerns env id event
  · have hvisits := h hconcerns
    cases event with
    | expire key => cases hvisits
    | request request route =>
        cases hstep
        cases route with
        | user route => exact serve_user_kept hvisits
        | item route => cases hvisits
  · rw [step_account hconcerns hstep]
    exact .refl _

/--
What does not concern an account leaves its record, its items and its entries.  What is only
resolved to the record leaves the items, the entries that are there and whether the record
is active; and another subject comes to the record only by its email.
-/
theorem account_untouched (env : Env) (id : Uuid) (events : List App.Event)
    (hrun : run (App.step env) app events = some app') :
    (Along (App.step env) (fun app e => ¬app.Concerns env id e) app events →
        app'.db.account id = app.db.account id) ∧
      (Along (App.step env) (fun app e => app.Concerns env id e → app.Visits env id e) app events →
        (app.db.account id).Kept (app'.db.account id)) ∧
      ∀ request route old new, app'.db.users.getById id = some old →
        (app'.serve env request route).2.db.users.getById id = some new →
          new.providerId ≠ old.providerId → app'.Links env request old new := by
  refine ⟨fun hnot => ?_, fun hvisits => ?_, fun request route old new hold hnew hne =>
    serve_providerId hold hnew hne⟩
  · have hstep (s : App) (e : App.Event) (s' : App) (hs : s.db.account id = app.db.account id)
        (hnot : ¬s.Concerns env id e) (hstep : s.step env e = some s') :
        s'.db.account id = app.db.account id :=
      (step_account hnot hstep).trans hs
    exact run_invariant_along hstep rfl hnot hrun
  · have hstep (s : App) (e : App.Event) (s' : App)
        (hs : (app.db.account id).Kept (s.db.account id))
        (hvisits : s.Concerns env id e → s.Visits env id e) (hstep : s.step env e = some s') :
        (app.db.account id).Kept (s'.db.account id) :=
      hs.trans (step_kept hvisits hstep)
    exact run_invariant_along hstep (.refl _) hvisits hrun

/-! ## Alice's account while Bob creates an item and leaves -/

def bothKnown : App := (run (App.step exampleEnv) App.start (bobIsBlocked.take 2)).getD .start

def bobCreates : Request := exampleVisit bobsSub [] 4

def bobsItem : Route := .item (.createItem (some ⟨"Mine", none, by decide⟩))

def bobLeaves : Request := exampleVisit bobsSub [] 5

theorem alice_untouched :
    ∃ app', run (App.step exampleEnv) bothKnown
        [.request bobCreates bobsItem, .request bobLeaves (.user .deleteSelf)] = some app' ∧
      app'.db.account 1 = bothKnown.db.account 1 := by
  refine ⟨_, rfl, (account_untouched exampleEnv 1
    [.request bobCreates bobsItem, .request bobLeaves (.user .deleteSelf)] rfl).1
    (along_cons_of ?_ rfl (along_cons_of ?_ rfl ?_))⟩
  · rintro ⟨-, howner⟩
    have hbob : ownerId exampleEnv bobCreates.auth = .ok 2 := by decide +kernel
    cases hbob.symm.trans howner
  · rintro ⟨-, acting, users, hcurrent, hconcerns⟩
    have hbob : (getCurrentDbUser exampleEnv bobLeaves.auth bobLeaves.tick
        (bothKnown.serve exampleEnv bobCreates bobsItem).2.db.users).map
          (fun p => p.1.id) = .ok 2 := by
      decide +kernel
    rw [hcurrent] at hbob
    have hacting : acting.id = 1 :=
      hconcerns.elim id fun h => Option.some.inj h.2
    cases hacting.symm.trans (Except.ok.inj hbob)
  · exact trivial

end IsolatedEnv.Backend
