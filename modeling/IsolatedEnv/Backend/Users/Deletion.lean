import IsolatedEnv.Backend.App
import IsolatedEnv.Backend.Users.RoleChange

/-!
# Deletions and what Authentik answers

Both deletion routes read the answer of Authentik's user search while their
transaction is open.  The admin route drops every exception that this raises;
`delete_self` drops those of the network and a missing `pk`, and any other one
takes the deletion back with it.
-/

namespace IsolatedEnv.Backend

open IsolatedEnv.Foundation

/-! ## The answer of the search -/

/-- The accounts are objects, up to the first with the given `uid`. -/
def Scannable (py : Python) (providerId : String) : List Json → Prop
  | [] => True
  | .obj account :: rest =>
      textClaim py account "uid" "" = providerId ∨ Scannable py providerId rest
  | _ :: _ => False

/-- The account is the first with the given `uid`, after objects only. -/
inductive Listed (py : Python) (providerId : String) (account : JsonObject) :
    List Json → Prop
  | first (rest : List Json) (same : textClaim py account "uid" "" = providerId) :
      Listed py providerId account (.obj account :: rest)
  | later (other : JsonObject) (rest : List Json)
      (different : textClaim py other "uid" "" ≠ providerId)
      (listed : Listed py providerId account rest) :
      Listed py providerId account (.obj other :: rest)

def Reply.Succeeds : Reply → Prop
  | .networkError => False
  | .response r => 200 ≤ r.statusCode ∧ r.statusCode < 300

/-- A success with a JSON object, and what a loop over its `results` goes through. -/
def Reply.Lists (elements : List Json) (reply : Reply) : Prop :=
  reply.Succeeds ∧ ∃ r members, reply = .response r ∧ r.body = some (.obj members) ∧
    pyIter ((JsonObject.get? members "results").getD (.arr [])) = .ok elements

/-- An error of the network or of the status, or a list that can be gone through. -/
def Reply.Searchable (py : Python) (providerId : String) (reply : Reply) : Prop :=
  reply.Succeeds → ∃ elements, reply.Lists elements ∧ Scannable py providerId elements

/-- The search finds an account with the primary key. -/
def Reply.FindsPk (py : Python) (providerId : String) (pk : Json) (reply : Reply) :
    Prop :=
  ∃ elements account, reply.Lists elements ∧ Listed py providerId account elements ∧
    JsonObject.get? account "pk" = some pk

section Search

variable {py : Python} {providerId : String} {elements : List Json} {reply : Reply}

theorem findByUid_obj (account : JsonObject) (rest : List Json) :
    findByUid py providerId (.obj account :: rest) =
      if textClaim py account "uid" "" = providerId then .ok (some (.obj account))
      else findByUid py providerId rest := by
  have huid : py.str ((JsonObject.get? account "uid").getD (.str "")) =
      textClaim py account "uid" "" := by
    unfold textClaim
    cases JsonObject.get? account "uid" <;> rfl
  simp [findByUid, pyGet, bind, Except.bind, huid]

theorem findByUid_ok_iff (elements : List Json) :
    (∃ found, findByUid py providerId elements = .ok found) ↔
      Scannable py providerId elements := by
  induction elements with
  | nil => simp [findByUid, Scannable]
  | cons element rest ih =>
      cases element with
      | obj account =>
          rw [findByUid_obj, Scannable]
          split
          · rename_i hsame
            simp [hsame]
          · rename_i hother
            simp [hother, ih]
      | _ => simp [findByUid, pyGet, bind, Except.bind, Scannable]

theorem findByUid_eq_some (elements : List Json) {found : Json} :
    findByUid py providerId elements = .ok (some found) ↔
      ∃ account, found = .obj account ∧ Listed py providerId account elements := by
  induction elements with
  | nil =>
      constructor
      · intro h
        cases h
      · rintro ⟨account, -, hlisted⟩
        cases hlisted
  | cons element rest ih =>
      cases element with
      | obj first =>
          rw [findByUid_obj]
          constructor
          · intro h
            split at h
            · rename_i hsame
              cases h
              exact ⟨first, rfl, .first rest hsame⟩
            · rename_i hother
              obtain ⟨account, hfound, hlisted⟩ := ih.mp h
              exact ⟨account, hfound, .later first rest hother hlisted⟩
          · rintro ⟨account, rfl, hlisted⟩
            cases hlisted with
            | first _ same => rw [if_pos same]
            | later _ _ different listed =>
                rw [if_neg different]
                exact ih.mpr ⟨account, rfl, listed⟩
      | _ =>
          constructor
          · intro h
            cases h
          · rintro ⟨account, -, hlisted⟩
            cases hlisted

theorem findByUid_error {e : Exc} (h : findByUid py providerId elements = .error e) :
    e = .attribute := by
  induction elements with
  | nil => cases h
  | cons element rest ih =>
      cases element with
      | obj account =>
          rw [findByUid_obj] at h
          split at h
          · cases h
          · exact ih h
      | _ =>
          cases h
          rfl

theorem searchResults_iter :
    (searchResults reply >>= pyIter) = .ok elements ↔ reply.Lists elements := by
  unfold searchResults Reply.Lists Reply.Succeeds
  cases reply with
  | networkError => simp [Reply.await, bind, Except.bind]
  | response r =>
      by_cases hstatus : 200 ≤ r.statusCode ∧ r.statusCode < 300
      · rcases hbody : r.body with _ | body
        · simp [Reply.await, Response.raiseForStatus, Response.json, hstatus, hbody, bind,
            Except.bind]
        · cases body <;>
            simp [Reply.await, Response.raiseForStatus, Response.json, hstatus, hbody,
              pyGet, bind, Except.bind]
      · simp [Reply.await, Response.raiseForStatus, hstatus, bind, Except.bind]

theorem pyIter_error {value : Json} {e : Exc} (h : pyIter value = .error e) :
    e = .type := by
  cases value <;> cases h <;> rfl

/-- Only a failing network or status raises what the `except` clause names. -/
theorem searchResults_iter_error {e : Exc}
    (h : (searchResults reply >>= pyIter) = .error e) :
    ¬reply.Succeeds ∧ e = .httpx ∨
      reply.Succeeds ∧ (e = .value ∨ e = .attribute ∨ e = .type) := by
  cases reply with
  | networkError =>
      cases h
      exact .inl ⟨not_false, rfl⟩
  | response r =>
      by_cases hstatus : 200 ≤ r.statusCode ∧ r.statusCode < 300
      · refine .inr ⟨hstatus, ?_⟩
        rcases hbody : r.body with _ | body
        · simp [searchResults, Reply.await, Response.raiseForStatus, Response.json,
            hstatus, hbody, bind, Except.bind] at h
          exact .inl h.symm
        · cases body with
          | obj members =>
              simp [searchResults, Reply.await, Response.raiseForStatus, Response.json,
                hstatus, hbody, pyGet, bind, Except.bind] at h
              exact .inr (.inr (pyIter_error h))
          | _ =>
              simp [searchResults, Reply.await, Response.raiseForStatus, Response.json,
                hstatus, hbody, pyGet, bind, Except.bind] at h
              exact .inr (.inl h.symm)
      · refine .inl ⟨hstatus, ?_⟩
        simp [searchResults, Reply.await, Response.raiseForStatus, hstatus, bind,
          Except.bind] at h
        exact h.symm

end Search

/-! ## What `delete_self` gets through -/

/-- Nothing is raised but what `except (httpx.HTTPError, KeyError)` takes. -/
def Tolerated {α : Type} (x : Except Exc α) : Prop :=
  ∀ e, x = .error e → e = .httpx ∨ e = .key

theorem tolerated_bind {α β : Type} {x : Except Exc α} {f : α → Except Exc β} :
    Tolerated (x >>= f) ↔ Tolerated x ∧ ∀ a, x = .ok a → Tolerated (f a) := by
  unfold Tolerated
  cases x <;> simp [bind, Except.bind]

theorem tolerated_map {α β : Type} {x : Except Exc α} {f : α → β} :
    Tolerated (x.map f) ↔ Tolerated x := by
  unfold Tolerated
  cases x <;> simp [Except.map]

namespace UserService

variable {env : Env} {py : Python} {providerId : String} {reply : Reply}

theorem tolerateRemote_eq_ok {x : Except Exc Unit} :
    tolerateRemote x = .ok () ↔ Tolerated x := by
  unfold Tolerated tolerateRemote
  rcases x with e | _
  · cases e <;> simp
  · simp

theorem findOwnPk_eq :
    findOwnPk py providerId reply =
      (searchResults reply >>= pyIter) >>= fun elements =>
        findByUid py providerId elements >>= fun found =>
          match found with
          | none => .ok none
          | some akUser => (pyItem akUser "pk").map some :=
  (bind_assoc (searchResults reply) pyIter _).symm

theorem findOwnPk_eq_some {pk : Json} :
    findOwnPk py providerId reply = .ok (some pk) ↔ reply.FindsPk py providerId pk := by
  unfold Reply.FindsPk
  rw [findOwnPk_eq, bind_eq_ok]
  simp only [searchResults_iter]
  refine exists_congr fun elements => ?_
  rw [exists_and_left]
  refine and_congr_right fun _ => ?_
  rw [bind_eq_ok]
  constructor
  · rintro ⟨_ | akUser, hfound, hpk⟩
    · cases hpk
    · obtain ⟨account, rfl, hlisted⟩ := (findByUid_eq_some elements).mp hfound
      refine ⟨account, hlisted, ?_⟩
      unfold pyItem at hpk
      cases hmember : JsonObject.get? account "pk" with
      | none => simp [hmember, Except.map] at hpk
      | some member => simpa [hmember, Except.map] using hpk
  · rintro ⟨account, hlisted, hpk⟩
    refine ⟨some (.obj account), (findByUid_eq_some elements).mpr ⟨account, rfl, hlisted⟩,
      ?_⟩
    simp [pyItem, hpk, Except.map]

theorem pyItem_obj_tolerated (account : JsonObject) (name : String) :
    Tolerated (pyItem (.obj account) name) := by
  intro e h
  unfold pyItem at h
  cases hmember : JsonObject.get? account name with
  | none =>
      simp only [hmember, Except.error.injEq] at h
      exact .inr h.symm
  | some member => simp [hmember] at h

theorem findOwnPk_tolerated :
    Tolerated (findOwnPk py providerId reply) ↔ reply.Searchable py providerId := by
  rw [findOwnPk_eq, tolerated_bind]
  constructor
  · rintro ⟨hsearch, hscan⟩ hsucceeds
    cases hiter : searchResults reply >>= pyIter with
    | error e =>
        have htolerated := hsearch e hiter
        rcases searchResults_iter_error hiter with ⟨hfails, -⟩ | ⟨-, he⟩
        · exact absurd hsucceeds hfails
        · rcases he with rfl | rfl | rfl <;> simp at htolerated
    | ok elements =>
        refine ⟨elements, searchResults_iter.mp hiter, (findByUid_ok_iff elements).mp ?_⟩
        have hfind := (tolerated_bind.mp (hscan elements hiter)).1
        cases hfound : findByUid py providerId elements with
        | error e =>
            have htolerated := hfind e hfound
            simp [findByUid_error hfound] at htolerated
        | ok found => exact ⟨found, rfl⟩
  · intro hsearchable
    constructor
    · intro e he
      rcases searchResults_iter_error he with ⟨-, rfl⟩ | ⟨hsucceeds, -⟩
      · exact .inl rfl
      · obtain ⟨elements, hlists, -⟩ := hsearchable hsucceeds
        rw [searchResults_iter.mpr hlists] at he
        cases he
    · intro elements hiter
      have hlists := searchResults_iter.mp hiter
      obtain ⟨elements', hlists', hscannable⟩ := hsearchable hlists.1
      obtain rfl := Except.ok.inj (hiter.symm.trans (searchResults_iter.mpr hlists'))
      obtain ⟨found, hfound⟩ := (findByUid_ok_iff elements).mpr hscannable
      refine tolerated_bind.mpr ⟨fun e he => by simp [hfound] at he, ?_⟩
      rintro (_ | akUser) hakUser
      · intro e he
        cases he
      · obtain ⟨account, rfl, -⟩ := (findByUid_eq_some elements).mp hakUser
        exact tolerated_map.mpr (pyItem_obj_tolerated account "pk")

theorem pyTruthy_of_iter {value element : Json} {rest : List Json}
    (h : pyIter value = .ok (element :: rest)) : pyTruthy value = true := by
  cases value with
  | arr elements =>
      cases h
      rfl
  | obj members =>
      cases members with
      | nil => cases h
      | cons member members => rfl
  | str text =>
      by_cases hempty : text = ""
      · simp [pyIter, hempty] at h
      · simp [pyTruthy, hempty]
  | _ => cases h

/-- The look-up of the admin routes wants a token besides. -/
theorem authentikGetUserPk_eq_ok {pk : Json} :
    authentikGetUserPk env providerId reply = .ok pk ↔
      env.settings.authentikApiToken ≠ "" ∧ reply.FindsPk env.python providerId pk := by
  unfold authentikGetUserPk authentikHeaders
  by_cases htoken : env.settings.authentikApiToken = ""
  · simp [htoken, bind, Except.bind]
  rw [if_neg htoken, ← findOwnPk_eq_some, findOwnPk]
  simp only [ne_eq, htoken, not_false_eq_true, true_and]
  cases searchResults reply with
  | error e => simp [bind, Except.bind]
  | ok results =>
      cases helements : pyIter results with
      | error e =>
          cases htruthy : pyTruthy results <;>
            simp [bind, Except.bind, helements, htruthy]
      | ok elements =>
          cases elements with
          | nil =>
              cases htruthy : pyTruthy results <;>
                simp [bind, Except.bind, helements, htruthy, findByUid]
          | cons element rest =>
              simp only [bind, Except.bind, pyTruthy_of_iter helements, if_true, helements]
              cases findByUid env.python providerId (element :: rest) with
              | error e => simp
              | ok found =>
                  cases found with
                  | none => simp
                  | some akUser =>
                      cases hpk : pyItem akUser "pk" <;> simp [Except.map, hpk]

/-- What Authentik may answer, and the keys it may give, for `delete_self` to get through. -/
def Survives (env : Env) (providerId : String) (reply : Reply) : Prop :=
  reply.Searchable env.python providerId ∧
    ∀ pk, reply.FindsPk env.python providerId pk → env.urlText (env.python.str pk) = true

theorem callAccount_tolerated {pk : Json} :
    Tolerated (callAccount env pk reply) ↔ env.urlText (env.python.str pk) = true := by
  unfold Tolerated callAccount callUnder Reply.await
  cases env.urlText (env.python.str pk) <;> cases reply <;> simp

theorem deleteOwnAccount_tolerated {replies : AuthentikReplies} :
    Tolerated (deleteOwnAccount env providerId replies) ↔
      Survives env providerId replies.userSearch := by
  unfold deleteOwnAccount
  rw [tolerated_bind, findOwnPk_tolerated]
  refine and_congr_right fun _ => ?_
  constructor
  · intro h pk hpk
    have hcall := h (some pk) (findOwnPk_eq_some.mpr hpk)
    exact callAccount_tolerated.mp (tolerated_map.mp hcall)
  · rintro h (_ | pk) hfound
    · intro e he
      cases he
    · exact tolerated_map.mpr
        (callAccount_tolerated.mpr (h pk (findOwnPk_eq_some.mp hfound)))

theorem deleteSelf_ok_iff {t users : UsersTable} {user : User}
    {replies : AuthentikReplies} :
    deleteSelf env t user replies = .ok users ↔
      Survives env user.providerId replies.userSearch ∧ users = t.deleteUser user := by
  unfold deleteSelf
  rw [bind_eq_ok, ← deleteOwnAccount_tolerated, ← tolerateRemote_eq_ok]
  constructor
  · rintro ⟨⟨⟩, hremote, husers⟩
    exact ⟨hremote, (Except.ok.inj husers).symm⟩
  · rintro ⟨hremote, rfl⟩
    exact ⟨(), hremote, rfl⟩

end UserService

/-! ## The two routes -/

inductive DeletionPath where
  | self
  | byAdmin (userId : Uuid)

namespace DeletionPath

def route : DeletionPath → UserRoute
  | self => .deleteSelf
  | byAdmin userId => .deleteUser (some userId)

/-- The request reaches its endpoint, and the endpoint a record it may delete. -/
structure Admits (env : Env) (request : Request) (db : Database) (path : DeletionPath)
    (acting target : User) (users : UsersTable) : Prop where
  unlimited : request.limited = false
  resolved : match path with
    | .self => getCurrentDbUser env request.auth request.tick db.users =
        .ok (acting, users) ∧ target = acting
    | .byAdmin userId => requireRole env [.admin] request.auth request.tick db.users =
        .ok (acting, users) ∧ users.getById userId = some target ∧ acting.id ≠ target.id

/-- The tables of the transaction once the record is deleted. -/
def deleted (db : Database) (users : UsersTable) (target : User) : Database :=
  (db.setUsers users).setUsers (users.delete target.id)

def auditEntry (env : Env) (request : Request) (acting target : User) :
    DeletionPath → AuditLog
  | self => request.auditEntry acting .deleteSelf target.id target.email none
      request.clientAddress
  | byAdmin _ => request.auditEntry acting .deleteUser target.id target.email none
      (request.getClientIp env.python)

/-- What Authentik answers does not keep the endpoint from ending. -/
def Survives (env : Env) (request : Request) (target : User) : DeletionPath → Prop
  | self => UserService.Survives env target.providerId request.authentik.userSearch
  | byAdmin _ => True

variable {env : Env} {request : Request} {db : Database} {members : Memberships}
  {path : DeletionPath} {acting target : User} {users : UsersTable}

theorem serve_self (h : Admits env request db .self acting target users) :
    (UserRoute.serve env request db members .deleteSelf).1 =
      (UserService.deleteSelf env users target request.authentik).map fun users' =>
        ⟨.noContent, record ((db.setUsers users).setUsers users') request.auditFailure
          (auditEntry env request acting target .self)⟩ := by
  obtain ⟨hunlimited, hcurrent, rfl⟩ := h
  have hserve : (UserRoute.serve env request db members .deleteSelf).1 =
      ((UserRouter.deleteSelf env request members target (db.setUsers users)).answer
        fun _ => .noContent).1 := by
    simp [UserRoute.serve, UserRoute.gate, UserRoute.endpoint, asUser, guarded, hcurrent,
      hunlimited]
  rw [hserve]
  unfold UserRouter.deleteSelf Outcome.answer
  rw [Database.setUsers_users]
  cases UserService.deleteSelf env users target request.authentik <;> rfl

theorem serve_byAdmin {userId : Uuid}
    (h : Admits env request db (.byAdmin userId) acting target users) :
    (UserRoute.serve env request db members (.deleteUser (some userId))).1 =
      .ok ⟨.noContent, record (deleted db users target) request.auditFailure
        (auditEntry env request acting target (.byAdmin userId))⟩ := by
  obtain ⟨hunlimited, hrequire, hfind, hother⟩ := h
  have hserve : (UserRoute.serve env request db members (.deleteUser (some userId))).1 =
      ((AdminRouter.deleteUser env request userId members acting
        (db.setUsers users)).answer fun _ => .noContent).1 := by
    simp [UserRoute.serve, UserRoute.gate, UserRoute.endpoint, asRole, guarded, hrequire,
      hunlimited]
  have hid := (UsersTable.getById_eq_some.mp hfind).2
  have hget : UserService.getUserById users userId = .ok target :=
    UserService.getUserById_eq_ok.mpr hfind
  have hdelete : UserService.deleteUser users target.id acting =
      .ok (users.deleteUser target) := by
    unfold UserService.deleteUser
    rw [if_neg hother, hid, hget]
    rfl
  rw [hserve]
  unfold AdminRouter.deleteUser Outcome.answer
  rw [Database.setUsers_users, hget]
  simp only [bind, Except.bind, hdelete]
  cases authentikDeleteUser env target.providerId request.authentik <;> rfl

/-- The endpoint ends exactly if it survives, and then as the code says. -/
theorem serve_ok_iff (h : path.Admits env request db acting target users)
    {finished : Finished Answer} :
    (path.route.serve env request db members).1 = .ok finished ↔
      path.Survives env request target ∧
        finished = ⟨.noContent, record (deleted db users target) request.auditFailure
          (path.auditEntry env request acting target)⟩ := by
  cases path with
  | self =>
      rw [route, serve_self h]
      constructor
      · intro hfinished
        obtain ⟨users', husers, rfl⟩ := exists_ok hfinished
        obtain ⟨hsurvives, rfl⟩ := UserService.deleteSelf_ok_iff.mp husers
        exact ⟨hsurvives, rfl⟩
      · rintro ⟨hsurvives, rfl⟩
        rw [UserService.deleteSelf_ok_iff.mpr ⟨hsurvives, rfl⟩]
        rfl
  | byAdmin userId =>
      rw [route, serve_byAdmin h]
      simp [Survives, eq_comm]

/-- The record is gone and the deletion is the newest entry of the audit log. -/
def Stands (env : Env) (request : Request) (db : Database) (members : Memberships)
    (path : DeletionPath) (acting target : User) (users : UsersTable) : Prop :=
  (settle (path.route.serve env request db members).1 db).users =
      users.delete target.id ∧
    (settle (path.route.serve env request db members).1 db).auditLog =
      db.auditLog ++ [path.auditEntry env request acting target]

theorem survives_of_stands (h : path.Admits env request db acting target users)
    (hstands : path.Stands env request db members acting target users) :
    path.Survives env request target := by
  by_contra hnot
  cases hserve : (path.route.serve env request db members).1 with
  | ok finished => exact hnot ((serve_ok_iff h).mp hserve).1
  | error e =>
      have hlog := hstands.2
      simp [hserve] at hlog

/--
A deletion, with an audit entry that PostgreSQL takes, stands if and only if its
path survives what Authentik answers; the admin path always does.
-/
theorem stands_iff (h : path.Admits env request db acting target users)
    (haudit : record (deleted db users target) request.auditFailure
      (path.auditEntry env request acting target) ≠ none) :
    path.Stands env request db members acting target users ↔
      path.Survives env request target := by
  obtain ⟨db', hrecord⟩ := Option.ne_none_iff_exists'.mp haudit
  constructor
  · exact survives_of_stands h
  · intro hsurvives
    unfold Stands
    rw [(serve_ok_iff h).mpr ⟨hsurvives, rfl⟩]
    simp only [settle, hrecord, Option.getD_some]
    refine ⟨record_users hrecord, ?_⟩
    rw [record_auditLog hrecord]
    rfl

/-! ## Alice deletes her account while a proxy answers for Authentik -/

def alice : User := exampleUser 1 "alice" .admin

def onlyAlicesRecord : Database := AdminRouter.exampleDatabase AdminRouter.onlyAlice

/-- Alice's request, with the given answer to the search. -/
def alicesRequest (userSearch : Reply) : Request :=
  exampleCall (exampleRequest "alice" ["admins"])
    { unreachable with userSearch := userSearch }

theorem alice_admitted (userSearch : Reply) :
    Admits exampleEnv (alicesRequest userSearch) onlyAlicesRecord .self alice alice
      AdminRouter.onlyAlice := by
  have hcurrent : getCurrentDbUser exampleEnv (exampleRequest "alice" ["admins"])
      (exampleTick 100) AdminRouter.onlyAlice = .ok (alice, AdminRouter.onlyAlice) := by
    decide +kernel
  exact ⟨rfl, hcurrent, rfl⟩

theorem alices_entry_taken (userSearch : Reply) :
    record (deleted onlyAlicesRecord AdminRouter.onlyAlice alice)
      (alicesRequest userSearch).auditFailure
      (auditEntry exampleEnv (alicesRequest userSearch) alice alice .self) ≠ none := by
  have htaken : (record (deleted onlyAlicesRecord AdminRouter.onlyAlice alice) none
      ((alicesRequest .networkError).auditEntry alice .deleteSelf 1 alice.email none
        "10.0.0.1")).isSome = true := by decide +kernel
  exact Option.isSome_iff_ne_none.mp htaken

theorem alices_deletion_stands :
    Stands exampleEnv (alicesRequest .networkError) onlyAlicesRecord ∅ .self alice alice
      AdminRouter.onlyAlice :=
  (stands_iff (alice_admitted _) (alices_entry_taken _)).mpr
    ⟨fun hsucceeds => hsucceeds.elim, fun pk hpk => by
      obtain ⟨elements, account, ⟨hsucceeds, -⟩, -⟩ := hpk
      exact hsucceeds.elim⟩

theorem proxy_page_undoes_deletion :
    Admits exampleEnv (alicesRequest (.response ⟨200, none⟩)) onlyAlicesRecord .self alice
        alice AdminRouter.onlyAlice ∧
      record (deleted onlyAlicesRecord AdminRouter.onlyAlice alice)
        (alicesRequest (.response ⟨200, none⟩)).auditFailure
        (auditEntry exampleEnv (alicesRequest (.response ⟨200, none⟩)) alice alice
          .self) ≠ none ∧
      ¬Stands exampleEnv (alicesRequest (.response ⟨200, none⟩)) onlyAlicesRecord ∅ .self
        alice alice AdminRouter.onlyAlice := by
  refine ⟨alice_admitted _, alices_entry_taken _, fun hstands => ?_⟩
  obtain ⟨hsearchable, -⟩ := survives_of_stands (alice_admitted _) hstands
  obtain ⟨elements, ⟨-, r, members, hreply, hbody, -⟩, -⟩ :=
    hsearchable ⟨by decide, by decide⟩
  cases hreply
  cases hbody

end DeletionPath

end IsolatedEnv.Backend
