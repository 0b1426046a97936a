import IsolatedEnv.Foundation.Calls
import IsolatedEnv.Foundation.Rows
import Mathlib.Data.Finset.Basic
import Mathlib.Data.Finset.Insert
import Mathlib.Data.List.Infix

/-!
# The Authentik API that the seed script calls

An instance is what its list endpoints show.  How the service chooses the identifiers of
new objects, what its refusals say and in which order it lists are its own; `Answers` is
what the script relies on.
-/

namespace IsolatedEnv.Scripts

open IsolatedEnv.Foundation

/-- `part in text`. -/
def Contains (part text : String) : Prop := part.toList <:+: text.toList

instance contains_decidable (part text : String) : Decidable (Contains part text) :=
  inferInstanceAs (Decidable (_ <:+: _))

/-! ## Objects -/

structure GroupData where
  name : String
  isSuperuser : Bool
  deriving DecidableEq

structure Group where
  pk : String
  data : GroupData
  deriving DecidableEq

structure ScopeMappingData where
  name : String
  scopeName : String
  description : String
  expression : String
  deriving DecidableEq

structure ScopeMapping where
  pk : String
  data : ScopeMappingData
  deriving DecidableEq

structure RedirectUri where
  matchingMode : String
  url : String
  deriving DecidableEq

/-- The mappings are sent as a list and kept as a set. -/
structure ProviderData where
  name : String
  authorizationFlow : String
  invalidationFlow : String
  clientType : String
  clientId : String
  clientSecret : String
  redirectUris : List RedirectUri
  propertyMappings : Finset String
  accessCodeValidity : String
  accessTokenValidity : String
  refreshTokenValidity : String
  subMode : String
  includeClaimsInIdToken : Bool
  issuerMode : String
  signingKey : Option String
  deriving DecidableEq

structure Provider where
  pk : Nat
  data : ProviderData
  deriving DecidableEq

structure Application where
  name : String
  slug : String
  metaLaunchUrl : String
  openInNewTab : Bool
  provider : Option Nat
  deriving DecidableEq

structure UserData where
  username : String
  name : String
  email : String
  isActive : Bool
  groups : Finset String
  deriving DecidableEq

structure Account where
  pk : Nat
  uuid : String
  data : UserData
  password : Option String
  deriving DecidableEq

structure Objects where
  groups : List Group
  mappings : List ScopeMapping
  providers : List Provider
  applications : List Application
  users : List Account
  deriving DecidableEq

/-- The unique columns, and the references that are kept. -/
structure Consistent (o : Objects) : Prop where
  groupName : Rows.UniqueKey (fun g : Group => g.data.name) o.groups
  mappingName : Rows.UniqueKey (fun m : ScopeMapping => m.data.name) o.mappings
  mappingPk : ∀ m ∈ o.mappings, m.pk ≠ ""
  providerPk : Rows.UniqueKey Provider.pk o.providers
  providerName : Rows.UniqueKey (fun p : Provider => p.data.name) o.providers
  applicationSlug : Rows.UniqueKey Application.slug o.applications
  userName : Rows.UniqueKey (fun u : Account => u.data.username) o.users
  userPk : Rows.UniqueKey Account.pk o.users
  providerMappings : ∀ p ∈ o.providers, ∀ pk ∈ p.data.propertyMappings,
    ∃ m ∈ o.mappings, m.pk = pk
  applicationProvider : ∀ a ∈ o.applications, ∀ pk ∈ a.provider,
    ∃ p ∈ o.providers, p.pk = pk

structure Instance extends Objects where
  consistent : Consistent toObjects

theorem Instance.eq_of_objects {v v' : Instance} (h : v.toObjects = v'.toObjects) : v = v' := by
  cases v
  cases v'
  cases h
  rfl

structure Flow where
  pk : String
  slug : String
  designation : String
  deriving DecidableEq

/-- A mapping as it is listed; `scopeName` is empty where the listing has no such field. -/
structure MappingItem where
  pk : String
  name : String
  scopeName : String
  deriving DecidableEq

/-! ## Calls -/

/-- The endpoints below `propertymappings/` that list, and that create. -/
inductive MappingList where
  | all
  | providerScope
  deriving DecidableEq

inductive MappingEndpoint where
  | providerScope
  | scope
  deriving DecidableEq

inductive Call where
  | listGroups (name : String)
  | createGroup (data : GroupData)
  | listProviders (name : String)
  | createProvider (data : ProviderData)
  | provider (pk : Nat)
  | patchProvider (pk : Nat) (propertyMappings : Finset String)
  | listMappings (endpoint : MappingList) (search : String)
  | createScopeMapping (endpoint : MappingEndpoint) (data : ScopeMappingData)
  | listFlows (designation : String)
  | listKeyPairs
  | listApplications (slug : String)
  | createApplication (application : Application)
  | listUsers (username : String)
  | createUser (data : UserData)
  | setPassword (pk : Nat) (password : String)
  | addUser (group : String) (user : Nat)

/-- What the script reads of a successful answer. -/
abbrev Call.Result : Call → Type
  | listGroups _ => List Group
  | createGroup _ => String
  | listProviders _ => List Provider
  | createProvider _ => Nat
  | provider _ => Provider
  | patchProvider _ _ => Unit
  | listMappings _ _ => List MappingItem
  | createScopeMapping _ _ => String
  | listFlows _ => List Flow
  | listKeyPairs => List String
  | listApplications _ => List Application
  | createApplication _ => Unit
  | listUsers _ => List Account
  | createUser _ => Nat × String
  | setPassword _ _ => Unit
  | addUser _ _ => Unit

/-- An answer that is not a success. -/
structure Refusal where
  status : Nat
  text : String
  deriving DecidableEq

/-! ## What the service answers -/

/-- Only objects that there are, and all of those that were asked for. -/
def Lists {α : Type} (p : α → Prop) (all found : List α) : Prop :=
  (∀ x ∈ found, x ∈ all) ∧ ∀ x ∈ all, p x → x ∈ found

def Shows {α : Type} (p : α → Prop) (v : Instance) (reply : Except Refusal α)
    (v' : Instance) : Prop :=
  v' = v ∧ ∃ a, reply = .ok a ∧ p a

/-- A change that is certain to be made when it is allowed, and is made whole or not at all. -/
def Changes {α : Type} (allowed : Prop) (effect : α → Objects) (v : Instance)
    (reply : Except Refusal α) (v' : Instance) : Prop :=
  (allowed → ∃ a, reply = .ok a) ∧
    match reply with
    | .error _ => v' = v
    | .ok a => v'.toObjects = effect a

/-- The listing of all property mappings need not have the field `scope_name`. -/
def MappingList.Shown (endpoint : MappingList) (m : ScopeMapping) (item : MappingItem) : Prop :=
  item.pk = m.pk ∧ item.name = m.data.name ∧
    (item.scopeName = m.data.scopeName ∨ endpoint = .all ∧ item.scopeName = "")

/-- The characters of a slug. -/
def SlugText (slug : String) : Prop :=
  slug ≠ "" ∧ (slug.toList.all fun c => c.isAlphanum || c = '-' || c = '_') = true

instance slugText_decidable (slug : String) : Decidable (SlugText slug) :=
  inferInstanceAs (Decidable (_ ∧ _))

def Provider.patch (pk : Nat) (propertyMappings : Finset String) (p : Provider) : Provider :=
  if p.pk = pk then { p with data := { p.data with propertyMappings := propertyMappings } }
  else p

def Account.setPassword (pk : Nat) (password : String) (u : Account) : Account :=
  if u.pk = pk then { u with password := some password } else u

def Account.addGroup (pk : Nat) (group : String) (u : Account) : Account :=
  if u.pk = pk then { u with data := { u.data with groups := insert group u.data.groups } }
  else u

def Answers (flows : List Flow) (keyPairs : List String) :
    (c : Call) → Instance → Except Refusal c.Result → Instance → Prop
  | .listGroups name, v => Shows (Lists (fun g => g.data.name = name) v.groups) v
  | .createGroup data, v =>
      Changes (∀ g ∈ v.groups, g.data.name ≠ data.name)
        (fun pk => { v.toObjects with groups := v.groups ++ [⟨pk, data⟩] }) v
  | .listProviders name, v => Shows (Lists (fun p => p.data.name = name) v.providers) v
  | .createProvider data, v =>
      Changes
        ((∀ p ∈ v.providers, p.data.name ≠ data.name ∧ p.data.clientId ≠ data.clientId) ∧
          (∃ f ∈ flows, f.pk = data.authorizationFlow) ∧
          (∃ f ∈ flows, f.pk = data.invalidationFlow) ∧
          (∀ pk ∈ data.propertyMappings, ∃ m ∈ v.mappings, m.pk = pk) ∧
          ∀ key ∈ data.signingKey, key ∈ keyPairs)
        (fun pk => { v.toObjects with providers := v.providers ++ [⟨pk, data⟩] }) v
  | .provider pk, v => fun reply v' => v' = v ∧ ∀ p ∈ v.providers, p.pk = pk → reply = .ok p
  | .patchProvider pk propertyMappings, v =>
      Changes
        ((∃ p ∈ v.providers, p.pk = pk) ∧
          ∀ pk ∈ propertyMappings, ∃ m ∈ v.mappings, m.pk = pk)
        (fun _ =>
          { v.toObjects with providers := v.providers.map (Provider.patch pk propertyMappings) })
        v
  | .listMappings endpoint search, v =>
      Shows (fun items =>
        (∀ item ∈ items, ∃ m ∈ v.mappings, endpoint.Shown m item) ∧
          ∀ m ∈ v.mappings, Contains search m.data.name →
            ∃ item ∈ items, endpoint.Shown m item) v
  | .createScopeMapping endpoint data, v =>
      Changes (endpoint = .providerScope ∧ ∀ m ∈ v.mappings, m.data.name ≠ data.name)
        (fun pk => { v.toObjects with mappings := v.mappings ++ [⟨pk, data⟩] }) v
  | .listFlows designation, v =>
      Shows (fun found => found = flows.filter fun f => f.designation = designation) v
  | .listKeyPairs, v => Shows (fun found => found = keyPairs) v
  | .listApplications slug, v => Shows (Lists (fun a => a.slug = slug) v.applications) v
  | .createApplication application, v =>
      Changes
        (SlugText application.slug ∧ (∀ a ∈ v.applications, a.slug ≠ application.slug) ∧
          ∀ pk ∈ application.provider, (∃ p ∈ v.providers, p.pk = pk) ∧
            ∀ a ∈ v.applications, a.provider ≠ some pk)
        (fun _ => { v.toObjects with applications := v.applications ++ [application] }) v
  | .listUsers username, v => Shows (Lists (fun u => u.data.username = username) v.users) v
  | .createUser data, v =>
      Changes
        ((∀ u ∈ v.users, u.data.username ≠ data.username) ∧
          ∀ pk ∈ data.groups, ∃ g ∈ v.groups, g.pk = pk)
        (fun (pk, uuid) => { v.toObjects with users := v.users ++ [⟨pk, uuid, data, none⟩] }) v
  | .setPassword pk password, v =>
      Changes (∃ u ∈ v.users, u.pk = pk)
        (fun _ => { v.toObjects with users := v.users.map (Account.setPassword pk password) }) v
  | .addUser group user, v =>
      Changes ((∃ g ∈ v.groups, g.pk = group) ∧ ∃ u ∈ v.users, u.pk = user)
        (fun _ => { v.toObjects with users := v.users.map (Account.addGroup user group) }) v

/-- A running service; flows and key pairs are listed in the order that the calls ask for. -/
structure Authentik where
  State : Type
  view : State → Instance
  flows : List Flow
  keyPairs : List String
  serve : (c : Call) → State → Except Refusal c.Result × State
  answers : ∀ c s, Answers flows keyPairs c (view s) (serve c s).1 (view (serve c s).2)

/-! ## Reading a listing -/

section Listing

variable {α : Type} {p : α → Prop} [DecidablePred p] {all found : List α}

theorem Lists.find?_eq_some (h : Lists p all found) {x : α}
    (hx : (found.find? fun x => p x) = some x) : x ∈ all ∧ p x :=
  ⟨h.1 x (List.mem_of_find?_eq_some hx), by simpa using List.find?_some hx⟩

theorem Lists.find?_eq_none (h : Lists p all found)
    (hnone : (found.find? fun x => p x) = none) : ∀ x ∈ all, ¬ p x := by
  intro x hx hp
  simpa [hp] using List.find?_eq_none.mp hnone x (h.2 x hx hp)

end Listing

/-! ## A service that answers so -/

theorem Account.setPassword_pk (pk : Nat) (password : String) (u : Account) :
    (u.setPassword pk password).pk = u.pk := by
  unfold setPassword
  split <;> rfl

theorem Account.setPassword_username (pk : Nat) (password : String) (u : Account) :
    (u.setPassword pk password).data.username = u.data.username := by
  unfold setPassword
  split <;> rfl

theorem Account.addGroup_pk (pk : Nat) (group : String) (u : Account) :
    (u.addGroup pk group).pk = u.pk := by
  unfold addGroup
  split <;> rfl

theorem Account.addGroup_username (pk : Nat) (group : String) (u : Account) :
    (u.addGroup pk group).data.username = u.data.username := by
  unfold addGroup
  split <;> rfl

namespace Consistent

variable {o : Objects}

theorem addGroup (h : Consistent o) {g : Group}
    (hnew : ∀ g' ∈ o.groups, g'.data.name ≠ g.data.name) :
    Consistent { o with groups := o.groups ++ [g] } :=
  { h with groupName := h.groupName.append hnew }

theorem addMapping (h : Consistent o) {m : ScopeMapping} (hpk : m.pk ≠ "")
    (hnew : ∀ m' ∈ o.mappings, m'.data.name ≠ m.data.name) :
    Consistent { o with mappings := o.mappings ++ [m] } :=
  { h with
    mappingName := h.mappingName.append hnew
    mappingPk := List.forall_mem_append.mpr ⟨h.mappingPk, List.forall_mem_singleton.mpr hpk⟩
    providerMappings := fun p hp pk hpk => by
      obtain ⟨m', hm', hsame⟩ := h.providerMappings p hp pk hpk
      exact ⟨m', List.mem_append_left _ hm', hsame⟩ }

theorem addProvider (h : Consistent o) {p : Provider} (hpk : ∀ p' ∈ o.providers, p'.pk ≠ p.pk)
    (hnew : ∀ p' ∈ o.providers, p'.data.name ≠ p.data.name)
    (hmappings : ∀ pk ∈ p.data.propertyMappings, ∃ m ∈ o.mappings, m.pk = pk) :
    Consistent { o with providers := o.providers ++ [p] } :=
  { h with
    providerPk := h.providerPk.append hpk
    providerName := h.providerName.append hnew
    providerMappings :=
      List.forall_mem_append.mpr ⟨h.providerMappings, List.forall_mem_singleton.mpr hmappings⟩
    applicationProvider := fun a ha pk hpk => by
      obtain ⟨p', hp', hsame⟩ := h.applicationProvider a ha pk hpk
      exact ⟨p', List.mem_append_left _ hp', hsame⟩ }

theorem patchProvider (h : Consistent o) (pk : Nat) {propertyMappings : Finset String}
    (hmappings : ∀ pk ∈ propertyMappings, ∃ m ∈ o.mappings, m.pk = pk) :
    Consistent { o with providers := o.providers.map (Provider.patch pk propertyMappings) } := by
  have hpk : ∀ p : Provider, (p.patch pk propertyMappings).pk = p.pk := by
    intro p
    unfold Provider.patch
    split <;> rfl
  have hname : ∀ p : Provider, (p.patch pk propertyMappings).data.name = p.data.name := by
    intro p
    unfold Provider.patch
    split <;> rfl
  refine { h with
    providerPk := h.providerPk.map hpk
    providerName := h.providerName.map hname
    providerMappings := fun p hp => ?_
    applicationProvider := fun a ha pk' hpk' => ?_ }
  · obtain ⟨p₀, hp₀, rfl⟩ := List.mem_map.mp hp
    unfold Provider.patch
    split
    · exact hmappings
    · exact h.providerMappings p₀ hp₀
  · obtain ⟨p, hp, hsame⟩ := h.applicationProvider a ha pk' hpk'
    exact ⟨_, List.mem_map_of_mem hp, (hpk p).trans hsame⟩

theorem addApplication (h : Consistent o) {a : Application}
    (hnew : ∀ a' ∈ o.applications, a'.slug ≠ a.slug)
    (hprovider : ∀ pk ∈ a.provider, ∃ p ∈ o.providers, p.pk = pk) :
    Consistent { o with applications := o.applications ++ [a] } :=
  { h with
    applicationSlug := h.applicationSlug.append hnew
    applicationProvider := List.forall_mem_append.mpr
      ⟨h.applicationProvider, List.forall_mem_singleton.mpr hprovider⟩ }

theorem addUser (h : Consistent o) {u : Account} (hpk : ∀ u' ∈ o.users, u'.pk ≠ u.pk)
    (hnew : ∀ u' ∈ o.users, u'.data.username ≠ u.data.username) :
    Consistent { o with users := o.users ++ [u] } :=
  { h with
    userName := h.userName.append hnew
    userPk := h.userPk.append hpk }

theorem mapUsers (h : Consistent o) {f : Account → Account} (hpk : ∀ u, (f u).pk = u.pk)
    (hname : ∀ u, (f u).data.username = u.data.username) :
    Consistent { o with users := o.users.map f } :=
  { h with
    userName := h.userName.map hname
    userPk := h.userPk.map hpk }

end Consistent

section Plain

variable {α : Type} {allowed : Prop} [Decidable allowed]

def grant (allowed : Prop) [Decidable allowed] (a : α) (o : Objects)
    (h : allowed → Consistent o) (v : Instance) : Except Refusal α × Instance :=
  if ha : allowed then (.ok a, ⟨o, h ha⟩) else (.error ⟨400, "already exists"⟩, v)

theorem grant_changes {a : α} {effect : α → Objects} (h : allowed → Consistent (effect a))
    (v : Instance) :
    Changes allowed effect v (grant allowed a (effect a) h v).1
      (grant allowed a (effect a) h v).2 := by
  unfold grant
  split
  · exact ⟨fun _ => ⟨a, rfl⟩, rfl⟩
  · rename_i hnot
    exact ⟨fun ha => absurd ha hnot, rfl⟩

theorem lists_filter (p : α → Prop) [DecidablePred p] (all : List α) :
    Lists p all (all.filter fun x => p x) :=
  ⟨fun _ hx => List.mem_of_mem_filter hx, fun _ hx hp =>
    List.mem_filter.mpr ⟨hx, decide_eq_true hp⟩⟩

/-- A number above those in the list. -/
def unused : List Nat → Nat
  | [] => 1
  | pk :: pks => pk + unused pks

theorem lt_unused {pks : List Nat} : ∀ pk ∈ pks, pk < unused pks := by
  have hpos (pks : List Nat) : 0 < unused pks := by
    induction pks with
    | nil => exact Nat.one_pos
    | cons pk pks ih => exact Nat.add_pos_right pk ih
  induction pks with
  | nil => exact fun _ h => nomatch h
  | cons x pks ih =>
      intro pk hpk
      unfold unused
      rcases List.mem_cons.mp hpk with rfl | hrest
      · have := hpos pks
        omega
      · have := ih pk hrest
        omega

theorem ne_unused {pks : List Nat} {pk : Nat} (h : pk ∈ pks) : pk ≠ unused pks :=
  Nat.ne_of_lt (lt_unused pk h)

end Plain

def plainServe (flows : List Flow) (keyPairs : List String) :
    (c : Call) → Instance → Except Refusal c.Result × Instance
  | .listGroups name, v => (.ok (v.groups.filter fun g => g.data.name = name), v)
  | .createGroup data, v =>
      grant (∀ g ∈ v.groups, g.data.name ≠ data.name) ("group-" ++ data.name)
        { v.toObjects with groups := v.groups ++ [⟨"group-" ++ data.name, data⟩] }
        (fun h => v.consistent.addGroup h) v
  | .listProviders name, v => (.ok (v.providers.filter fun p => p.data.name = name), v)
  | .createProvider data, v =>
      let pk := unused (v.providers.map Provider.pk)
      grant
        ((∀ p ∈ v.providers, p.data.name ≠ data.name ∧ p.data.clientId ≠ data.clientId) ∧
          (∃ f ∈ flows, f.pk = data.authorizationFlow) ∧
          (∃ f ∈ flows, f.pk = data.invalidationFlow) ∧
          (∀ pk ∈ data.propertyMappings, ∃ m ∈ v.mappings, m.pk = pk) ∧
          ∀ key ∈ data.signingKey, key ∈ keyPairs) pk
        { v.toObjects with providers := v.providers ++ [⟨pk, data⟩] }
        (fun h => v.consistent.addProvider
          (fun p hp => ne_unused (List.mem_map_of_mem hp)) (fun p hp => (h.1 p hp).1) h.2.2.2.1) v
  | .provider pk, v =>
      match Rows.find Provider.pk pk v.providers with
      | some p => (.ok p, v)
      | none => (.error ⟨404, "not found"⟩, v)
  | .patchProvider pk propertyMappings, v =>
      grant
        ((∃ p ∈ v.providers, p.pk = pk) ∧
          ∀ pk ∈ propertyMappings, ∃ m ∈ v.mappings, m.pk = pk) ()
        { v.toObjects with providers := v.providers.map (Provider.patch pk propertyMappings) }
        (fun h => v.consistent.patchProvider pk h.2) v
  | .listMappings endpoint search, v =>
      (.ok ((v.mappings.filter fun m => Contains search m.data.name).map fun m =>
        ⟨m.pk, m.data.name, if endpoint = .all then "" else m.data.scopeName⟩), v)
  | .createScopeMapping endpoint data, v =>
      grant (endpoint = .providerScope ∧ ∀ m ∈ v.mappings, m.data.name ≠ data.name)
        ("mapping-" ++ data.scopeName)
        { v.toObjects with mappings := v.mappings ++ [⟨"mapping-" ++ data.scopeName, data⟩] }
        (fun h => v.consistent.addMapping (by simp) h.2) v
  | .listFlows designation, v => (.ok (flows.filter fun f => f.designation = designation), v)
  | .listKeyPairs, v => (.ok keyPairs, v)
  | .listApplications slug, v => (.ok (v.applications.filter fun a => a.slug = slug), v)
  | .createApplication application, v =>
      grant
        (SlugText application.slug ∧ (∀ a ∈ v.applications, a.slug ≠ application.slug) ∧
          ∀ pk ∈ application.provider, (∃ p ∈ v.providers, p.pk = pk) ∧
            ∀ a ∈ v.applications, a.provider ≠ some pk) ()
        { v.toObjects with applications := v.applications ++ [application] }
        (fun h => v.consistent.addApplication h.2.1 fun pk hpk => (h.2.2 pk hpk).1) v
  | .listUsers username, v => (.ok (v.users.filter fun u => u.data.username = username), v)
  | .createUser data, v =>
      let pk := unused (v.users.map Account.pk)
      grant
        ((∀ u ∈ v.users, u.data.username ≠ data.username) ∧
          ∀ pk ∈ data.groups, ∃ g ∈ v.groups, g.pk = pk) (pk, "uuid-" ++ data.username)
        { v.toObjects with users := v.users ++ [⟨pk, "uuid-" ++ data.username, data, none⟩] }
        (fun h => v.consistent.addUser (fun u hu => ne_unused (List.mem_map_of_mem hu)) h.1) v
  | .setPassword pk password, v =>
      grant (∃ u ∈ v.users, u.pk = pk) ()
        { v.toObjects with users := v.users.map (Account.setPassword pk password) }
        (fun _ => v.consistent.mapUsers (Account.setPassword_pk pk password)
          (Account.setPassword_username pk password)) v
  | .addUser group user, v =>
      grant ((∃ g ∈ v.groups, g.pk = group) ∧ ∃ u ∈ v.users, u.pk = user) ()
        { v.toObjects with users := v.users.map (Account.addGroup user group) }
        (fun _ => v.consistent.mapUsers (Account.addGroup_pk user group)
          (Account.addGroup_username user group)) v

theorem plainServe_answers (flows : List Flow) (keyPairs : List String) (c : Call)
    (v : Instance) :
    Answers flows keyPairs c v (plainServe flows keyPairs c v).1
      (plainServe flows keyPairs c v).2 := by
  cases c with
  | listGroups | listProviders | listApplications | listUsers =>
      exact ⟨rfl, _, rfl, lists_filter _ _⟩
  | listFlows | listKeyPairs => exact ⟨rfl, _, rfl, rfl⟩
  | createGroup | createProvider | patchProvider | createScopeMapping | createApplication
  | createUser | setPassword | addUser =>
      dsimp only [Answers, plainServe]
      exact grant_changes _ v
  | provider pk =>
      have hfind {p : Provider} (hp : p ∈ v.providers) (hpk : p.pk = pk) :
          Rows.find Provider.pk pk v.providers = some p :=
        (Rows.find_eq_some v.consistent.providerPk).mpr ⟨hp, hpk⟩
      dsimp only [Answers, plainServe]
      split
      · rename_i p hp
        refine ⟨rfl, fun p' hp' hpk => ?_⟩
        rw [hfind hp' hpk] at hp
        cases hp
        rfl
      · rename_i hnone
        refine ⟨rfl, fun p' hp' hpk => ?_⟩
        rw [hfind hp' hpk] at hnone
        cases hnone
  | listMappings endpoint search =>
      have hshown (m : ScopeMapping) : endpoint.Shown m
          ⟨m.pk, m.data.name, if endpoint = .all then "" else m.data.scopeName⟩ := by
        refine ⟨rfl, rfl, ?_⟩
        by_cases hall : endpoint = .all
        · exact .inr ⟨hall, if_pos hall⟩
        · exact .inl (if_neg hall)
      refine ⟨rfl, _, rfl, fun item hitem => ?_, fun m hm hsearch => ?_⟩
      · obtain ⟨m, hm, rfl⟩ := List.mem_map.mp hitem
        exact ⟨m, List.mem_of_mem_filter hm, hshown m⟩
      · exact ⟨_, List.mem_map_of_mem (List.mem_filter.mpr ⟨hm, decide_eq_true hsearch⟩),
          hshown m⟩

/-- Lists in the order of creation, and names its objects after their data. -/
def plainAuthentik (flows : List Flow) (keyPairs : List String) : Authentik where
  State := Instance
  view := id
  flows := flows
  keyPairs := keyPairs
  serve := plainServe flows keyPairs
  answers := plainServe_answers flows keyPairs

end IsolatedEnv.Scripts
