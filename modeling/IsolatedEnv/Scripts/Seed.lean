import IsolatedEnv.Scripts.Authentik

/-!
# The seed script

The calls to Authentik that `main` makes once it has its token, in their order.  A
connection that breaks ends the run, as a kill does.  `configure_brand`, which comes before
the users, and the rows for PostgreSQL, which come after them, touch none of the objects
here and are left out.
-/

namespace IsolatedEnv.Scripts

open IsolatedEnv.Foundation

abbrev Seed := Script Call.Result Refusal

def send (c : Call) : Seed (Except Refusal c.Result) := Script.request c

/-- The environment of a run, and Python's `str.lower`. -/
structure SeedEnv where
  projectSlug : String
  authentikExternalUrl : String
  clientId : String
  clientSecret : String
  lower : String → String
  slugText : SlugText projectSlug

structure TestUser where
  username : String
  email : String
  password : String
  name : String
  role : String
  group : String
  deriving DecidableEq

def testUsers : List TestUser :=
  [⟨"admin-user", "admin@example.com", "TestAdmin123!", "Admin User", "admin", "admins"⟩,
   ⟨"paid-user", "paid@example.com", "TestPaid123!", "Paid User", "paid", "paid"⟩,
   ⟨"free-user", "free@example.com", "TestFree123!", "Free User", "free", "free"⟩]

def groupNames : List String := ["admins", "paid", "free"]

def redirectUris : List RedirectUri :=
  [⟨"strict", "http://localhost:3010/api/auth/callback"⟩,
   ⟨"strict", "http://localhost:3000/api/auth/callback"⟩,
   ⟨"strict", "http://localhost:8081/api/auth/callback"⟩,
   ⟨"regex", "exp://.*"⟩,
   ⟨"strict", "http://localhost:3010/"⟩,
   ⟨"strict", "http://localhost:3000/"⟩]

/-! ## Groups -/

def groupData (name : String) : GroupData := ⟨name, name = "admins"⟩

/-- The keys of a `dict` that is only read by key, the last assignment first. -/
def createGroup (groupIds : List (String × String)) (groupName : String) :
    Seed (List (String × String)) := do
  let r ← send (.listGroups groupName)
  let existing := match r with
    | .ok results => results.find? fun g : Group => g.data.name = groupName
    | .error _ => none
  let groupIds := match existing with
    | some g => (groupName, g.pk) :: groupIds
    | none => groupIds
  if (groupIds.lookup groupName).isSome then pure groupIds
  else
    match ← send (.createGroup (groupData groupName)) with
    | .ok pk => pure ((groupName, pk) :: groupIds)
    | .error _ => pure groupIds

def createGroups : Seed (List (String × String)) := groupNames.foldlM createGroup []

/-! ## Scope mappings -/

inductive DefaultScope where
  | openid
  | email
  | profile
  deriving DecidableEq

namespace DefaultScope

def all : List DefaultScope := [openid, email, profile]

theorem mem_all (scope : DefaultScope) : scope ∈ all := by
  cases scope <;> simp [all]

instance instForall (p : DefaultScope → Prop) [DecidablePred p] : Decidable (∀ scope, p scope) :=
  decidable_of_iff (∀ scope ∈ all, p scope)
    ⟨fun h scope => h scope (mem_all scope), fun h scope _ => h scope⟩

def name : DefaultScope → String
  | openid => "openid"
  | email => "email"
  | profile => "profile"

def ofName (text : String) : Option DefaultScope := all.find? fun scope => scope.name = text

/-- `SCOPE_PATTERNS`. -/
def pattern (scope : DefaultScope) : String := "'" ++ scope.name ++ "'"

end DefaultScope

abbrev FoundScopes := DefaultScope → Option String

def openIdText : String := "OAuth Mapping: OpenID"

/-- The scope that a listed mapping is taken for: by its field, else by its name. -/
def scopeOf (lower : String → String) (found : FoundScopes) (item : MappingItem) :
    Option DefaultScope :=
  if Contains openIdText item.name then
    (DefaultScope.ofName item.scopeName).or
      (DefaultScope.all.find? fun scope =>
        Contains scope.pattern (lower item.name) ∧ found scope = none)
  else none

def scanMapping (lower : String → String) (found : FoundScopes) (item : MappingItem) :
    FoundScopes :=
  match scopeOf lower found item with
  | some scope => Function.update found scope (some item.pk)
  | none => found

def searchScopes (lower : String → String) : Nat → FoundScopes → Seed FoundScopes
  | 0, found => pure found
  | attempts + 1, found => do
      let r ← send (.listMappings .all openIdText)
      let found := match r with
        | .ok items => items.foldl (scanMapping lower) found
        | .error _ => found
      if ∀ scope, (found scope).isSome then pure found
      else searchScopes lower attempts found

/-- `_find_groups_scope_mapping`, over its endpoints. -/
def findGroupsScopeMapping : List MappingList → Seed (Option String)
  | [] => pure none
  | endpoint :: rest => do
      match ← send (.listMappings endpoint "groups") with
      | .ok items =>
          match items.find? fun m : MappingItem => m.scopeName = "groups" with
          | some m => pure (some m.pk)
          | none => findGroupsScopeMapping rest
      | .error _ => findGroupsScopeMapping rest

def mappingLists : List MappingList := [.providerScope, .all]

/-- A text that is not empty. -/
def nonempty (text : Option String) : Option String := text.filter fun text => text ≠ ""

variable (env : SeedEnv)

def groupsMapping : ScopeMappingData where
  name := env.projectSlug ++ " OAuth2 Scope: groups"
  scopeName := "groups"
  description := "Add user group names to the token"
  expression := "return [group.name for group in request.user.ak_groups.all()]"

def postGroupsScopeMapping : List MappingEndpoint → Seed (Option String)
  | [] => pure none
  | endpoint :: rest => do
      match ← send (.createScopeMapping endpoint (groupsMapping env)) with
      | .ok pk => pure (some pk)
      | .error r =>
          if (r.status = 400 ∨ r.status = 409) ∧
              Contains "already exists" (env.lower r.text) then
            findGroupsScopeMapping mappingLists
          else postGroupsScopeMapping rest

def createGroupsScopeMapping : Seed (Option String) := do
  match nonempty (← findGroupsScopeMapping mappingLists) with
  | some pk => pure (some pk)
  | none => postGroupsScopeMapping env [.providerScope, .scope]

/-- Its list is only used as a set. -/
def getDefaultScopeMappings : Seed (Finset String) := do
  let found ← searchScopes env.lower 10 fun _ => none
  if ∀ scope, found scope = none then pure ∅
  else
    let groupsPk ← createGroupsScopeMapping env
    pure (DefaultScope.all.filterMap found ++ (nonempty groupsPk).toList).toFinset

/-! ## The provider -/

/-- The flow that is preferred, and else the first. -/
def chooseFlow (flowType : String) (results : List Flow) : Option Flow :=
  if flowType = "authorization" then
    (results.find? fun f => Contains "implicit" f.slug).or results.head?
  else results.head?

def getDefaultFlow (flowType : String) : Nat → Seed String
  | 0 => pure ""
  | attempts + 1 => do
      let r ← send (.listFlows flowType)
      let chosen := match r with
        | .ok results => chooseFlow flowType results
        | .error _ => none
      match chosen with
      | some flow => pure flow.pk
      | none => getDefaultFlow flowType attempts

def getSigningKey : Seed (Option String) := do
  match ← send .listKeyPairs with
  | .ok results => pure results.head?
  | .error _ => pure none

def providerName : String := env.projectSlug ++ "-provider"

def providerData (scopeMappingPks : Finset String) (signingKey : Option String)
    (invalFlow authorizationFlow : String) : ProviderData where
  name := providerName env
  authorizationFlow := authorizationFlow
  invalidationFlow := invalFlow
  clientType := "confidential"
  clientId := env.clientId
  clientSecret := env.clientSecret
  redirectUris := redirectUris
  propertyMappings := scopeMappingPks
  accessCodeValidity := "minutes=10"
  accessTokenValidity := "hours=1"
  refreshTokenValidity := "days=30"
  subMode := "user_uuid"
  includeClaimsInIdToken := true
  issuerMode := "per_provider"
  signingKey := nonempty signingKey

def postProvider : Seed (Option Nat) := do
  let scopeMappingPks ← getDefaultScopeMappings env
  let signingKey ← getSigningKey
  let invalFlow ← getDefaultFlow "invalidation" 10
  let authorizationFlow ← getDefaultFlow "authorization" 10
  match ← send (.createProvider
      (providerData env scopeMappingPks signingKey invalFlow authorizationFlow)) with
  | .ok pk => pure (some pk)
  | .error _ => pure none

def createOauth2Provider : Seed (Option Nat) := do
  let r ← send (.listProviders (providerName env))
  let existing := match r with
    | .ok results => results.find? fun p : Provider => p.data.name = providerName env
    | .error _ => none
  match existing with
  | some p => pure (some p.pk)
  | none => postProvider env

def ensureProviderScopeMappings (providerPk : Nat) (needed : Finset String) : Seed Unit := do
  match ← send (.provider providerPk) with
  | .error _ => pure ()
  | .ok p =>
      if needed \ p.data.propertyMappings = ∅ then pure ()
      else
        let _ ← send
          (.patchProvider providerPk (p.data.propertyMappings ∪ needed))
        pure ()

/-! ## The application -/

def application (providerPk : Option Nat) : Application where
  name := env.projectSlug
  slug := env.projectSlug
  metaLaunchUrl := env.authentikExternalUrl
  openInNewTab := false
  provider := providerPk

def createApplication (providerPk : Option Nat) : Seed Unit := do
  let r ← send (.listApplications env.projectSlug)
  let existing := match r with
    | .ok results => results.any fun a : Application => a.slug = env.projectSlug
    | .error _ => false
  if existing then pure ()
  else
    let _ ← send (.createApplication (application env providerPk))
    pure ()

/-! ## Users -/

def addUserToGroup (userPk : Nat) (groupIds : List (String × String)) (groupName : String) :
    Seed Unit :=
  match groupIds.lookup groupName with
  | none => pure ()
  | some groupPk => do
      let _ ← send (.addUser groupPk userPk)
      pure ()

def setUserPassword (userPk : Nat) (password : String) : Seed Unit := do
  let _ ← send (.setPassword userPk password)
  pure ()

def userData (groupIds : List (String × String)) (user : TestUser) : UserData where
  username := user.username
  name := user.name
  email := user.email
  isActive := true
  groups := (groupIds.lookup user.group).toList.toFinset

def postTestUser (groupIds : List (String × String)) (userIds : List (String × String))
    (user : TestUser) : Seed (List (String × String)) := do
  match ← send (.createUser (userData groupIds user)) with
  | .ok (pk, uuid) => do
      setUserPassword pk user.password
      pure ((user.email, uuid) :: userIds)
  | .error _ => pure userIds

def createTestUser (groupIds : List (String × String)) (userIds : List (String × String))
    (user : TestUser) : Seed (List (String × String)) := do
  let r ← send (.listUsers user.username)
  let existing := match r with
    | .ok results => results.find? fun u : Account => u.data.username = user.username
    | .error _ => none
  let userIds ← match existing with
    | some u => do
        addUserToGroup u.pk groupIds user.group
        pure ((user.email, u.uuid) :: userIds)
    | none => pure userIds
  if (userIds.lookup user.email).isSome then pure userIds
  else postTestUser groupIds userIds user

def createTestUsers (groupIds : List (String × String)) : Seed (List (String × String)) :=
  testUsers.foldlM (createTestUser groupIds) []

/-! ## `main` -/

/-- `skipUsers` is `SEED_SKIP_USERS`; the result is `user_ids`. -/
def main (skipUsers : Bool) : Seed (List (String × String)) := do
  let groupIds ← createGroups
  let providerPk ← createOauth2Provider env
  createApplication env providerPk
  match providerPk with
  | some pk => do
      let allScopePks ← getDefaultScopeMappings env
      ensureProviderScopeMappings pk allScopePks
  | none => pure ()
  if skipUsers then pure []
  else createTestUsers groupIds

end IsolatedEnv.Scripts
