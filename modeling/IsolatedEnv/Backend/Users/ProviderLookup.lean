import IsolatedEnv.Backend.Users.RoleChange

/-!
# Looking an Authentik account up by the subject of a token

The provider is set up with `sub_mode` `user_uuid`, so the subject of a token,
and with it `provider_id`, is the text of the user's UUID.  Both look-ups
compare it with the field `uid`, the hash that is the subject under the mode
`hashed_user_id`.  They are right for that mode and match nothing for the other.
-/

namespace IsolatedEnv.Backend

open IsolatedEnv.Foundation

/-- An account of Authentik; `uid` is a SHA-256 digest. -/
structure AkUser where
  pk : Int
  uuid : Uuid
  uid : Fin (2 ^ 256)
  profile : JsonObject

namespace AkUser

def uidText (u : AkUser) : String := String.ofList (padDigits 16 64 u.uid)

/-- The account as the list endpoint shows it. -/
def render (u : AkUser) : Json :=
  .obj (u.profile ++
    [("pk", .int u.pk), ("uuid", .str u.uuid.str), ("uid", .str u.uidText)])

end AkUser

inductive SubMode where
  | hashedUserId
  | userId
  | userUuid

def SubMode.sub : SubMode → AkUser → String
  | .hashedUserId, u => u.uidText
  | .userId, u => toString u.pk
  | .userUuid, u => u.uuid.str

/-- `"sub_mode"` in the provider that `seed.py` creates. -/
def seedSubMode : SubMode := .userUuid

/-- A page of the list endpoint, whichever accounts the search puts on it. -/
def usersPage (pagination : Json) (page : List AkUser) : Reply :=
  .response ⟨200, some (.obj [("pagination", pagination),
    ("results", .arr (page.map AkUser.render))])⟩

variable {env : Env} {pagination : Json} {page : List AkUser} {u : AkUser}
  {providerId : String}

@[simp] theorem get?_uid (u : AkUser) :
    pyGet u.render "uid" (.str "") = .ok (.str u.uidText) := by
  simp [pyGet, AkUser.render, JsonObject.get?]

@[simp] theorem pyItem_pk (u : AkUser) : pyItem u.render "pk" = .ok (.int u.pk) := by
  simp [pyItem, AkUser.render, JsonObject.get?]

theorem searchResults_usersPage :
    searchResults (usersPage pagination page) =
      .ok (.arr (page.map AkUser.render)) := by
  simp [searchResults, usersPage, Reply.await, Response.raiseForStatus,
    Response.json, pyGet, JsonObject.get?, bind, Except.bind]

theorem findByUid_page (py : Python) :
    findByUid py providerId (page.map AkUser.render) =
      .ok ((page.find? fun u => u.uidText = providerId).map AkUser.render) := by
  induction page with
  | nil => rfl
  | cons u page ih =>
      simp only [List.map_cons, findByUid, get?_uid, List.find?_cons]
      by_cases huid : u.uidText = providerId
      · simp [bind, Except.bind, Python.str, huid]
      · simp [bind, Except.bind, Python.str, huid, ih]

theorem findOwnPk_page (py : Python) :
    UserService.findOwnPk py providerId (usersPage pagination page) =
      .ok ((page.find? fun u => u.uidText = providerId).map fun u =>
        .int u.pk) := by
  unfold UserService.findOwnPk
  rw [searchResults_usersPage]
  simp only [bind, Except.bind, pyIter, findByUid_page]
  cases page.find? fun u => u.uidText = providerId with
  | none => rfl
  | some u => simp [Except.map]

theorem authentikGetUserPk_page {pk : Json} :
    authentikGetUserPk env providerId (usersPage pagination page) = .ok pk ↔
      env.settings.authentikApiToken ≠ "" ∧
        ∃ u, (page.find? fun u => u.uidText = providerId) = some u ∧
          .int u.pk = pk := by
  unfold authentikGetUserPk authentikHeaders
  rw [searchResults_usersPage]
  simp only [bind, Except.bind, pyIter, findByUid_page]
  by_cases htoken : env.settings.authentikApiToken = ""
  · simp [htoken]
  · simp only [htoken, if_false, ne_eq, not_false_eq_true, true_and]
    cases hfind : page.find? fun u => u.uidText = providerId with
    | none => split <;> simp
    | some u =>
        have hpage : page ≠ [] := by
          rintro rfl
          simp at hfind
        simp [pyTruthy, hpage]

/-! ## Hashed subjects are found, UUIDs are not -/

theorem uidText_length (u : AkUser) : u.uidText.length = 64 := by
  simp [AkUser.uidText]

theorem uidText_ne_uuid (u v : AkUser) : u.uidText ≠ v.uuid.str := by
  intro h
  have hlength := congrArg String.length h
  rw [uidText_length] at hlength
  simp [Uuid.str, Uuid.text_length] at hlength

/-- Both look-ups suit the mode in which the subject is the hash. -/
theorem lookups_reach_hashed_subject (htoken : env.settings.authentikApiToken ≠ "")
    (hunique : ∀ v ∈ page, v.uidText = u.uidText → v = u) (hu : u ∈ page) :
    authentikGetUserPk env (SubMode.sub .hashedUserId u) (usersPage pagination page) =
        .ok (.int u.pk) ∧
      UserService.findOwnPk env.python (SubMode.sub .hashedUserId u)
        (usersPage pagination page) = .ok (some (.int u.pk)) := by
  have hfind : (page.find? fun v => v.uidText = u.uidText) = some u := by
    cases hfound : page.find? fun v => v.uidText = u.uidText with
    | none =>
        have hu' := List.find?_eq_none.mp hfound u hu
        simp at hu'
    | some v =>
        have hv : v.uidText = u.uidText := by simpa using List.find?_some hfound
        rw [hunique v (List.mem_of_find?_eq_some hfound) hv]
  constructor
  · exact authentikGetUserPk_page.mpr ⟨htoken, u, hfind, rfl⟩
  · rw [findOwnPk_page, show (page.find? fun v =>
      v.uidText = SubMode.sub .hashedUserId u) = some u from hfind]
    rfl

/--
With the provider as it is seeded, neither look-up of a record made from a
user's token returns that user's primary key, whatever the search lists.
-/
theorem lookups_never_reach_seeded_subject {req : AuthRequest} {tick : Tick}
    {t t' : UsersTable} {row : User}
    (hsub : JsonObject.get? req.payload "sub" = some (.str (seedSubMode.sub u)))
    (hrecord : getCurrentDbUser env req tick t = .ok (row, t')) :
    authentikGetUserPk env row.providerId (usersPage pagination page) ≠
        .ok (.int u.pk) ∧
      UserService.findOwnPk env.python row.providerId (usersPage pagination page) ≠
        .ok (some (.int u.pk)) := by
  obtain ⟨-, profile, -, hresolution⟩ := getCurrentDbUser_cases hrecord
  have hproviderId : row.providerId = u.uuid.str := by
    rw [hresolution.providerId_eq]
    simp [AuthRequest.providerId, textClaim, hsub, Python.str, SubMode.sub, seedSubMode]
  have hnone : (page.find? fun v => v.uidText = u.uuid.str) = none := by
    simp [uidText_ne_uuid]
  rw [hproviderId]
  constructor
  · intro h
    obtain ⟨-, v, hv, -⟩ := authentikGetUserPk_page.mp h
    rw [hnone] at hv
    cases hv
  · rw [findOwnPk_page, hnone]
    simp

/-! ## One account, and a search that lists it -/

def exampleAccount : AkUser := ⟨7, 5, 9, []⟩

def accountRequest : AuthRequest where
  payload := [("sub", .str (seedSubMode.sub exampleAccount)),
    ("email", .str "user@example.com"), ("groups", .arr [.str "free"])]
  userinfo := .networkError

def accountPage : Reply := usersPage .null [exampleAccount]

theorem example_account_not_reached :
    ∃ row t', getCurrentDbUser exampleEnv accountRequest (exampleTick 1) .empty =
        .ok (row, t') ∧
      authentikGetUserPk exampleEnv row.providerId accountPage ≠ .ok (.int 7) ∧
      UserService.findOwnPk exampleEnv.python row.providerId accountPage ≠
        .ok (some (.int 7)) := by
  obtain ⟨⟨row, t'⟩, hrecord, -⟩ := exists_ok (by decide +kernel :
    (getCurrentDbUser exampleEnv accountRequest (exampleTick 1) .empty).map
      (fun _ => ()) = .ok ())
  exact ⟨row, t', hrecord,
    @lookups_never_reach_seeded_subject exampleEnv .null [exampleAccount]
      exampleAccount _ _ _ _ _ rfl hrecord⟩

/-- The account is on the page, and both look-ups report that it is not found. -/
theorem listed_account_reported_missing :
    ∃ row t', getCurrentDbUser exampleEnv accountRequest (exampleTick 1) .empty =
        .ok (row, t') ∧
      (authentikGetUserPk exampleEnv row.providerId accountPage).map (fun _ => ()) =
        .error (.businessRuleError ("User with provider_id " ++ row.providerId ++
          " not found in Authentik (no exact uid match)")) ∧
      (UserService.findOwnPk exampleEnv.python row.providerId accountPage).map
        Option.isNone = .ok true := by
  obtain ⟨⟨row, t'⟩, hrecord, hproviderId⟩ := exists_ok (by decide +kernel :
    (getCurrentDbUser exampleEnv accountRequest (exampleTick 1) .empty).map
      (fun p => p.1.providerId) = .ok exampleAccount.uuid.str)
  have hrow : row.providerId = exampleAccount.uuid.str := hproviderId
  refine ⟨row, t', hrecord, ?_, ?_⟩
  · rw [hrow]
    decide +kernel
  · rw [hrow]
    decide +kernel

end IsolatedEnv.Backend
