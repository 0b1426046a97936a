import IsolatedEnv.Scripts.SeedRun

/-!
# Running the seed script again

Earlier runs may have had any of their calls refused and may have been cut off anywhere.
The objects that they leave have what their own call has sent, which the invariant says;
what a later call would have added to an object that is there now, no run adds any more.
-/

namespace IsolatedEnv.Scripts

open IsolatedEnv.Foundation

variable {A : Authentik} {env : SeedEnv} {v v' : Instance}

/-! ## What every run leaves -/

/-- The seed's own objects are as its calls make them. -/
structure Sound (env : SeedEnv) (o : Objects) : Prop where
  groups : ∀ g ∈ o.groups, g.data.name ∈ groupNames → g.data = groupData g.data.name
  scopes : ScopesReady env o.mappings
  providers : ∀ p ∈ o.providers, ∃ needed key inval authorization,
    p.data = providerData env needed key inval authorization
  applications : ∀ a ∈ o.applications, ∃ pk, a = application env pk
  users : ∀ u ∈ o.users, ∀ user ∈ testUsers, u.data.username = user.username →
    u.data.name = user.name ∧ u.data.email = user.email ∧ u.data.isActive = true

theorem testUsers_group : ∀ user ∈ testUsers, user.group ∈ groupNames := by decide

theorem testUsers_username : (testUsers.map TestUser.username).Nodup := by decide

theorem testUsers_email : (testUsers.map TestUser.email).Nodup := by decide

/-- The data that the script sends with its calls. -/
def Sends (env : SeedEnv) : Call → Prop
  | .createGroup data => ∃ name, data = groupData name
  | .createProvider data => ∃ needed key inval authorization,
      data = providerData env needed key inval authorization
  | .createScopeMapping _ data => data = groupsMapping env
  | .createApplication a => ∃ pk, a = application env pk
  | .createUser data => ∃ user ∈ testUsers, ∃ groupIds, data = userData groupIds user
  | _ => True

theorem Sound.changes {α : Type} {allowed : Prop} {effect : α → Objects}
    {reply : Except Refusal α} (h : Sound env v.toObjects)
    (hchanges : Changes allowed effect v reply v')
    (heffect : ∀ a, v'.toObjects = effect a → Sound env (effect a)) : Sound env v'.toObjects := by
  obtain ⟨-, hdone⟩ := hchanges
  cases reply with
  | error e =>
      rw [hdone]
      exact h
  | ok a =>
      dsimp only at hdone
      rw [hdone]
      exact heffect a hdone

theorem Sound.shows {α : Type} {p : α → Prop} {reply : Except Refusal α}
    (h : Sound env v.toObjects) (hshows : Shows p v reply v') : Sound env v'.toObjects := by
  rw [hshows.1]
  exact h

theorem Sound.mapUsers {o : Objects} (h : Sound env o) {f : Account → Account}
    (hf : ∀ u, ∃ groups, (f u).data = { u.data with groups := groups }) :
    Sound env { o with users := o.users.map f } := by
  refine { h with users := List.forall_mem_map.mpr fun u hu user huser hname => ?_ }
  obtain ⟨groups, hdata⟩ := hf u
  rw [hdata] at hname ⊢
  exact h.users u hu user huser hname

theorem Sound.served {c : Call} {reply : Except Refusal c.Result} (hc : Sends env c)
    (h : Sound env v.toObjects) (hanswers : Answers A.flows A.keyPairs c v reply v') :
    Sound env v'.toObjects := by
  cases c with
  | listGroups | listProviders | listMappings | listFlows | listKeyPairs | listApplications
  | listUsers => exact h.shows hanswers
  | provider pk =>
      rw [hanswers.1]
      exact h
  | createGroup data =>
      obtain ⟨name, rfl⟩ := hc
      exact h.changes hanswers fun pk _ => { h with
        groups :=
          List.forall_mem_append.mpr ⟨h.groups, List.forall_mem_singleton.mpr fun _ => rfl⟩ }
  | createProvider data =>
      exact h.changes hanswers fun pk _ => { h with
        providers :=
          List.forall_mem_append.mpr ⟨h.providers, List.forall_mem_singleton.mpr hc⟩ }
  | patchProvider pk propertyMappings =>
      refine h.changes hanswers fun _ _ => { h with providers := fun p hp => ?_ }
      obtain ⟨p₀, hp₀, rfl⟩ := List.mem_map.mp hp
      obtain ⟨needed, key, inval, authorization, hdata⟩ := h.providers p₀ hp₀
      unfold Provider.patch
      split
      · refine ⟨propertyMappings, key, inval, authorization, ?_⟩
        rw [hdata]
        rfl
      · exact ⟨needed, key, inval, authorization, hdata⟩
  | createScopeMapping endpoint data =>
      obtain rfl := hc
      exact h.changes hanswers fun pk _ => { h with scopes := h.scopes.added }
  | createApplication a =>
      exact h.changes hanswers fun _ _ => { h with
        applications :=
          List.forall_mem_append.mpr ⟨h.applications, List.forall_mem_singleton.mpr hc⟩ }
  | createUser data =>
      obtain ⟨user, huser, groupIds, rfl⟩ := hc
      refine h.changes hanswers fun _ _ => { h with
        users :=
          List.forall_mem_append.mpr ⟨h.users, List.forall_mem_singleton.mpr ?_⟩ }
      intro user' huser' hname
      have hsame : user = user' :=
        List.inj_on_of_nodup_map testUsers_username huser huser' hname
      subst hsame
      exact ⟨rfl, rfl, rfl⟩
  | setPassword pk password =>
      refine h.changes hanswers fun _ _ => h.mapUsers fun u => ⟨u.data.groups, ?_⟩
      unfold Account.setPassword
      split <;> rfl
  | addUser group pk =>
      refine h.changes hanswers fun _ _ => h.mapUsers fun u => ?_
      unfold Account.addGroup
      split
      · exact ⟨_, rfl⟩
      · exact ⟨u.data.groups, rfl⟩

/-! ### The calls of the script -/

theorem createGroups_only : createGroups.Only (Sends env) := by
  refine Script.Only.foldlM (fun ids name _ => ?_) []
  refine Script.Only.bind (Script.only_request trivial) fun r => ?_
  refine Script.Only.ite (Script.only_pure _) ?_
  exact Script.Only.request_bind ⟨name, rfl⟩ (fun _ => Script.only_pure _)
    fun _ => Script.only_pure _

theorem searchScopes_only (attempts : Nat) (found : FoundScopes) :
    (searchScopes env.lower attempts found).Only (Sends env) := by
  induction attempts generalizing found with
  | zero => exact Script.only_pure found
  | succ attempts ih =>
      refine Script.Only.bind (Script.only_request trivial) fun r => ?_
      exact Script.Only.ite (Script.only_pure _) (ih _)

theorem findGroupsScopeMapping_only (endpoints : List MappingList) :
    (findGroupsScopeMapping endpoints).Only (Sends env) := by
  induction endpoints with
  | nil => exact Script.only_pure none
  | cons endpoint rest ih =>
      refine Script.Only.request_bind trivial (fun _ => ih) fun items => ?_
      dsimp only
      split
      · exact Script.only_pure _
      · exact ih

theorem postGroupsScopeMapping_only (endpoints : List MappingEndpoint) :
    (postGroupsScopeMapping env endpoints).Only (Sends env) := by
  induction endpoints with
  | nil => exact Script.only_pure none
  | cons endpoint rest ih =>
      refine Script.Only.request_bind rfl (fun r => ?_) fun _ => Script.only_pure _
      exact Script.Only.ite (findGroupsScopeMapping_only mappingLists) ih

theorem getDefaultScopeMappings_only : (getDefaultScopeMappings env).Only (Sends env) := by
  refine (searchScopes_only 10 _).bind fun found => ?_
  refine Script.Only.ite (Script.only_pure ∅) ?_
  refine Script.Only.bind ?_ fun _ => Script.only_pure _
  refine (findGroupsScopeMapping_only mappingLists).bind fun existing => ?_
  split
  · exact Script.only_pure _
  · exact postGroupsScopeMapping_only _

theorem getDefaultFlow_only (flowType : String) (attempts : Nat) :
    (getDefaultFlow flowType attempts).Only (Sends env) := by
  induction attempts with
  | zero => exact Script.only_pure ""
  | succ attempts ih =>
      refine Script.Only.bind (Script.only_request trivial) fun r => ?_
      dsimp only
      split
      · exact Script.only_pure _
      · exact ih

theorem createOauth2Provider_only : (createOauth2Provider env).Only (Sends env) := by
  refine Script.Only.bind (Script.only_request trivial) fun r => ?_
  dsimp only
  split
  · exact Script.only_pure _
  · refine getDefaultScopeMappings_only.bind fun needed => ?_
    refine Script.Only.bind (Script.Only.request_bind trivial (fun _ => Script.only_pure _)
      fun _ => Script.only_pure _) fun key => ?_
    refine (getDefaultFlow_only "invalidation" 10).bind fun inval => ?_
    refine (getDefaultFlow_only "authorization" 10).bind fun authorization => ?_
    exact Script.Only.request_bind ⟨needed, key, inval, authorization, rfl⟩
      (fun _ => Script.only_pure _) fun _ => Script.only_pure _

theorem createApplication_only (pk : Option Nat) :
    (createApplication env pk).Only (Sends env) := by
  refine Script.Only.bind (Script.only_request trivial) fun r => ?_
  refine Script.Only.ite (Script.only_pure ()) ?_
  exact Script.Only.bind (Script.only_request ⟨pk, rfl⟩) fun _ => Script.only_pure ()

theorem ensureProviderScopeMappings_only (pk : Nat) (needed : Finset String) :
    (ensureProviderScopeMappings pk needed).Only (Sends env) := by
  refine Script.Only.request_bind trivial (fun _ => Script.only_pure ()) fun p => ?_
  refine Script.Only.ite (Script.only_pure ()) ?_
  exact Script.Only.bind (Script.only_request trivial) fun _ => Script.only_pure ()

theorem addUserToGroup_only (pk : Nat) (groupIds : List (String × String)) (group : String) :
    (addUserToGroup pk groupIds group).Only (Sends env) := by
  unfold addUserToGroup
  split
  · exact Script.only_pure ()
  · exact Script.Only.bind (Script.only_request trivial) fun _ => Script.only_pure ()

theorem postTestUser_only (groupIds userIds : List (String × String)) {user : TestUser}
    (huser : user ∈ testUsers) : (postTestUser groupIds userIds user).Only (Sends env) := by
  refine Script.Only.request_bind ⟨user, huser, groupIds, rfl⟩ (fun _ => Script.only_pure _)
    fun _ => ?_
  refine Script.Only.bind ?_ fun _ => Script.only_pure _
  exact Script.Only.bind (Script.only_request trivial) fun _ => Script.only_pure ()

theorem createTestUser_only (groupIds userIds : List (String × String)) {user : TestUser}
    (huser : user ∈ testUsers) : (createTestUser groupIds userIds user).Only (Sends env) := by
  have hpost (userIds : List (String × String)) :
      (if (userIds.lookup user.email).isSome then pure userIds
        else postTestUser groupIds userIds user).Only (Sends env) :=
    Script.Only.ite (Script.only_pure userIds) (postTestUser_only groupIds userIds huser)
  refine Script.Only.request_bind trivial (fun _ => ?_) fun results => ?_
  · exact Script.Only.bind (Script.only_pure userIds) hpost
  · dsimp only
    split
    · refine (addUserToGroup_only _ groupIds user.group).bind fun _ => ?_
      exact Script.Only.bind (Script.only_pure _) hpost
    · exact Script.Only.bind (Script.only_pure userIds) hpost

theorem main_only (skipUsers : Bool) : (main env skipUsers).Only (Sends env) := by
  refine createGroups_only.bind fun groupIds => ?_
  have husers : (if skipUsers then pure [] else createTestUsers groupIds).Only (Sends env) :=
    Script.Only.ite (Script.only_pure []) (Script.Only.foldlM (fun userIds user huser =>
      createTestUser_only groupIds userIds huser) [])
  refine createOauth2Provider_only.bind fun providerPk => ?_
  refine (createApplication_only providerPk).bind fun _ => ?_
  cases providerPk with
  | none => exact husers
  | some pk =>
      refine getDefaultScopeMappings_only.bind fun needed => ?_
      exact (ensureProviderScopeMappings_only pk needed).bind fun _ => husers

/-! ## A run in which no call fails -/

theorem MappingStep.frame {m : ScopeMapping} (h : MappingStep env v v' m) :
    v'.toObjects = { v.toObjects with mappings := v'.mappings } := by
  cases h with
  | there data mem same => rw [same]
  | added data absent objects => rw [objects]

namespace ProviderStep

variable {p : Provider}

theorem frame (h : ProviderStep A env v v' p) :
    v'.toObjects =
      { v.toObjects with mappings := v'.mappings, providers := v'.providers } := by
  cases h with
  | there mem same => rw [same]
  | added v₁ m needed inval authorization absent mapping data objects =>
      rw [objects, mapping.frame]

theorem ready (h : ProviderStep A env v v' p) (hready : ScopesReady env v.mappings) :
    ScopesReady env v'.mappings := by
  cases h with
  | there mem same =>
      rw [same]
      exact hready
  | added v₁ m needed inval authorization absent mapping data objects =>
      rw [objects]
      exact mapping.ready hready

theorem same (h : ProviderStep A env v v' p) (hthere : v.providers ≠ []) : v' = v := by
  cases h with
  | there mem same => exact same
  | added v₁ m needed inval authorization absent => exact absurd absent hthere

theorem providers (h : ProviderStep A env v v' p)
    (howned : ∀ p ∈ v.providers, p.data.name = providerName env) : v'.providers = [p] := by
  cases h with
  | there mem same =>
      rw [same]
      exact v.consistent.providerName.eq_singleton howned mem
  | added v₁ m needed inval authorization absent mapping data objects => rw [objects]

theorem signingKey (h : ProviderStep A env v v' p) :
    p ∈ v.providers ∨
      v.providers = [] ∧ p.data.signingKey = nonempty A.keyPairs.head? := by
  cases h with
  | there mem same => exact .inl mem
  | added v₁ m needed inval authorization absent mapping data objects =>
      rw [data]
      exact .inr ⟨absent, rfl⟩

end ProviderStep

namespace ApplicationStep

variable {pk : Nat}

theorem frame (h : ApplicationStep env pk v v') :
    v'.toObjects = { v.toObjects with applications := v'.applications } := by
  cases h with
  | there a mem same => rw [same]
  | added absent objects => rw [objects]

theorem applications (h : ApplicationStep env pk v v') :
    (v.applications ≠ [] ∧ v' = v) ∨
      v.applications = [] ∧ v'.applications = [application env (some pk)] := by
  cases h with
  | there a mem same => exact .inl ⟨List.ne_nil_of_mem mem, same⟩
  | added absent objects =>
      rw [objects]
      exact .inr ⟨absent, rfl⟩

end ApplicationStep

/-- Everything that the script would add is there. -/
structure Done (env : SeedEnv) (o : Objects) : Prop where
  groups : ∀ name ∈ groupNames, ∃ g ∈ o.groups, g.data.name = name
  mapping : ∃ m ∈ o.mappings, m.data.scopeName = "groups"
  provider : ∃ p ∈ o.providers, ∀ m ∈ o.mappings, Required env m →
    m.pk ∈ p.data.propertyMappings
  application : o.applications ≠ []
  users : ∀ user ∈ testUsers, ∃ g ∈ o.groups, g.data.name = user.group ∧
    ∃ w ∈ o.users, w.data.username = user.username ∧ g.pk ∈ w.data.groups

/-- What a run has done; the provider is `p` afterwards. -/
structure MainStep (A : Authentik) (env : SeedEnv) (v v' : Instance) (p : Provider) : Prop where
  groups : ∀ name ∈ groupNames, ∃ g ∈ v'.groups, g.data.name = name
  mapping : ∃ m ∈ v'.mappings, m.data = groupsMapping env
  providers : v'.providers = [p]
  required : ∀ m ∈ v'.mappings, Required env m → m.pk ∈ p.data.propertyMappings
  signingKey : (∃ p₀ ∈ v.providers, p₀.data.signingKey = p.data.signingKey) ∨
    v.providers = [] ∧ p.data.signingKey = nonempty A.keyPairs.head?
  application : v.applications ≠ [] ∧ v'.applications = v.applications ∨
    v.applications = [] ∧ v'.applications = [application env (some p.pk)]
  continues : ∀ w ∈ v.users, ∃ w' ∈ v'.users, w.Continues w'
  users : ∀ user ∈ testUsers, ∃ g ∈ v'.groups, g.data.name = user.group ∧
    ∃ w' ∈ v'.users, w'.data.username = user.username ∧ g.pk ∈ w'.data.groups ∧
      ((∃ w ∈ v.users, w.data.username = user.username ∧ w'.password = w.password) ∨
        (∀ w ∈ v.users, w.data.username ≠ user.username) ∧
          w'.password = some user.password)
  same : Done env v.toObjects → v' = v

/-- The instances between the functions of `main`, and what they have done. -/
structure MainPath (A : Authentik) (env : SeedEnv) (v v' : Instance) where
  ids : List (String × String)
  added : List Group
  v₁ : Instance
  groups : GroupsStep groupNames [] ids v v₁ added
  p : Provider
  v₂ : Instance
  provider : ProviderStep A env v₁ v₂ p
  providers₂ : v₂.providers = [p]
  v₃ : Instance
  application : ApplicationStep env p.pk v₂ v₃
  needed : Finset String
  m : ScopeMapping
  v₄ : Instance
  mapping : MappingStep env v₃ v₄ m
  mem_needed : ∀ pk, pk ∈ needed ↔ ∃ m ∈ v₄.mappings, m.pk = pk ∧ Required env m
  p' : Provider
  v₅ : Instance
  ensure : EnsureStep needed v₄ v₅ p p'
  users : UsersStep testUsers ids v₅ v'

namespace MainPath

variable (path : MainPath A env v v')

theorem providers₁ : path.v₁.providers = v.providers := by rw [path.groups.objects]

theorem applications₂ : path.v₂.applications = v.applications := by
  rw [path.provider.frame, path.groups.objects]

theorem frame₅ : path.v₅.toObjects = { v.toObjects with
    groups := path.v₁.groups
    mappings := path.v₄.mappings
    providers := [path.p']
    applications := path.v₃.applications } := by
  rw [path.ensure.objects, path.mapping.frame, path.application.frame, path.provider.frame,
    path.groups.objects]

theorem frame : v'.toObjects = { path.v₅.toObjects with users := v'.users } := path.users.frame

theorem listed : ∀ user ∈ testUsers, ∃ g ∈ path.v₅.groups,
    g.data.name = user.group ∧ path.ids.lookup user.group = some g.pk := by
  intro user huser
  rw [path.frame₅]
  exact path.groups.listed user.group (testUsers_group user huser)

theorem same (path : MainPath A env v v') (hdone : Done env v.toObjects) : v' = v := by
  have hsame₁ : path.v₁ = v := path.groups.same hdone.groups
  have hsame₂ : path.v₂ = path.v₁ := path.provider.same (by
    obtain ⟨p₀, hp₀, -⟩ := hdone.provider
    rw [path.providers₁]
    exact List.ne_nil_of_mem hp₀)
  have hsame₃ : path.v₃ = path.v₂ := by
    rcases path.application.applications with ⟨-, hsame⟩ | ⟨habsent, -⟩
    · exact hsame
    · rw [path.applications₂] at habsent
      exact absurd habsent hdone.application
  have hview₂ : path.v₂ = v := hsame₂.trans hsame₁
  have hview₃ : path.v₃ = v := hsame₃.trans hview₂
  have hview₄ : path.v₄ = v := (path.mapping.same (by
    rw [hview₃]
    exact hdone.mapping)).trans hview₃
  have hview₅ : path.v₅ = v := (path.ensure.same (fun pk hpk => by
    obtain ⟨m', hm', rfl, hrequired⟩ := (path.mem_needed pk).mp hpk
    obtain ⟨p₀, hp₀, hall⟩ := hdone.provider
    rw [hview₄] at hm'
    rw [← hview₂, path.providers₂] at hp₀
    rw [← List.mem_singleton.mp hp₀]
    exact hall m' hm' hrequired)).trans hview₄
  refine (path.users.same fun user huser groupPk hlookup => ?_).trans hview₅
  obtain ⟨g, hg, hname, w, hw, hnamed, hjoined⟩ := hdone.users user huser
  obtain ⟨g', hg', hname', hlookup'⟩ := path.listed user huser
  rw [hview₅] at hg' ⊢
  have hgroup : g = g' := v.consistent.groupName.eq hg hg' (hname.trans hname'.symm)
  rw [hlookup] at hlookup'
  cases hlookup'
  rw [hgroup] at hjoined
  exact ⟨w, hw, hnamed, hjoined⟩

theorem step : MainStep A env v v' path.p' := by
  have hframe : v'.toObjects = { path.v₅.toObjects with users := v'.users } := path.frame
  rw [path.frame₅] at hframe
  constructor
  · intro name hname
    obtain ⟨g, hg, hgname, -⟩ := path.groups.listed name hname
    rw [hframe]
    exact ⟨g, hg, hgname⟩
  · rw [hframe]
    exact ⟨path.m, path.mapping.mem_mappings.mpr (.inr rfl), path.mapping.data_eq⟩
  · rw [hframe]
  · intro m' hm' hrequired
    rw [hframe] at hm'
    rw [path.ensure.provider]
    exact Finset.mem_union_right _ ((path.mem_needed m'.pk).mpr ⟨m', hm', rfl, hrequired⟩)
  · rw [path.ensure.provider]
    have hkey := path.provider.signingKey
    rw [path.providers₁] at hkey
    exact hkey.imp_left fun hmem => ⟨path.p, hmem, rfl⟩
  · rw [hframe, path.ensure.provider]
    have happlications := path.application.applications
    rw [path.applications₂] at happlications
    refine happlications.imp_left fun hthere => ⟨hthere.1, ?_⟩
    rw [hthere.2]
    exact path.applications₂
  · have hcontinues := path.users.continues
    rwa [path.frame₅] at hcontinues
  · intro user huser
    obtain ⟨g, hg, hname, hlookup⟩ := path.listed user huser
    obtain ⟨w', hw', hpresent⟩ := path.users.present user huser g.pk hlookup
    rw [path.frame₅] at hpresent hg
    refine ⟨g, ?_, hname, w', hw', hpresent⟩
    rw [hframe]
    exact hg
  · exact path.same

end MainPath

theorem Sound.provider_name {o : Objects} (h : Sound env o) :
    ∀ p ∈ o.providers, p.data.name = providerName env := by
  intro p hp
  obtain ⟨needed, key, inval, authorization, hdata⟩ := h.providers p hp
  rw [hdata]
  rfl

theorem Sound.application_slug {o : Objects} (h : Sound env o) :
    ∀ a ∈ o.applications, a.slug = env.projectSlug := by
  intro a ha
  obtain ⟨pk, rfl⟩ := h.applications a ha
  rfl

theorem main_run (hflows : FlowsReady A) {s : A.State}
    (hsound : Sound env (A.view s).toObjects) :
    ∃ userIds s', (main env false).run A.serve s = (userIds, s') ∧
      Nonempty (MainPath A env (A.view s) (A.view s')) := by
  obtain ⟨ids, s₁, hrun₁, added, hgroups⟩ := createGroups_run s
  have hready₁ : ScopesReady env (A.view s₁).mappings := by
    rw [hgroups.objects]
    exact hsound.scopes
  have hnamed₁ : ∀ p ∈ (A.view s₁).providers, p.data.name = providerName env := by
    rw [hgroups.objects]
    exact hsound.provider_name
  obtain ⟨p, s₂, hrun₂, hprovider⟩ := createOauth2Provider_run hflows hready₁ hnamed₁
  have hproviders₂ := hprovider.providers hnamed₁
  have hslug₂ : ∀ a ∈ (A.view s₂).applications, a.slug = env.projectSlug := by
    rw [hprovider.frame, hgroups.objects]
    exact hsound.application_slug
  obtain ⟨s₃, hrun₃, happlication⟩ :=
    createApplication_run (p := p) (by rw [hproviders₂]; exact List.mem_singleton_self p) hslug₂
  have hready₃ : ScopesReady env (A.view s₃).mappings := by
    rw [happlication.frame]
    exact hprovider.ready hready₁
  obtain ⟨needed, m, s₄, hrun₄, hmapping, hneeded⟩ := getDefaultScopeMappings_run hready₃
  have hproviders₄ : (A.view s₄).providers = [p] := by
    rw [hmapping.frame, happlication.frame]
    exact hproviders₂
  obtain ⟨s₅, p', hrun₅, hensure⟩ := ensureProviderScopeMappings_run hproviders₄
    (fun pk hpk => by
      obtain ⟨m', hm', hsame, -⟩ := (hneeded pk).mp hpk
      exact ⟨m', hm', hsame⟩)
  have hgroups₅ : (A.view s₅).groups = (A.view s₁).groups := by
    rw [hensure.objects, hmapping.frame, happlication.frame, hprovider.frame]
  obtain ⟨userIds, s₆, hrun₆, husers⟩ :=
    createTestUsers_run_users testUsers_username testUsers_email (fun _ _ => List.lookup_nil)
      fun user huser => by
        obtain ⟨g, hg, -, hlookup⟩ := hgroups.listed user.group (testUsers_group user huser)
        rw [← hgroups₅] at hg
        exact ⟨g, hg, hlookup⟩
  refine ⟨userIds, s₆, ?_, ⟨ids, added, _, hgroups, p, _, hprovider, hproviders₂, _,
    happlication, needed, m, _, hmapping, hneeded, p', _, hensure, husers⟩⟩
  simp only [main, Script.run_bind, hrun₁, hrun₂, hrun₃, hrun₄, hrun₅, Bool.false_eq_true,
    if_false]
  exact hrun₆

/-! ## Convergence -/

/-- None of the seed's objects is there, and the default mappings are. -/
structure Fresh (env : SeedEnv) (o : Objects) : Prop where
  groups : ∀ g ∈ o.groups, g.data.name ∉ groupNames
  scopes : ScopesReady env o.mappings
  providers : o.providers = []
  applications : o.applications = []
  users : ∀ u ∈ o.users, ∀ user ∈ testUsers, u.data.username ≠ user.username

/-- A run with refusals that may have been cut off. -/
structure EarlierRun where
  skipUsers : Bool
  plan : List (Option Refusal)

def afterRuns (A : Authentik) (env : SeedEnv) (s : A.State) (runs : List EarlierRun) : A.State :=
  runs.foldl (fun s run => (main env run.skipUsers).attempt A.serve run.plan s) s

/-- A run in which every call is answered. -/
def rerun (A : Authentik) (env : SeedEnv) (s : A.State) : A.State :=
  ((main env false).run A.serve s).2

/-- The configuration that the script is for. -/
structure Seeded (env : SeedEnv) (o : Objects) : Prop where
  groups : ∀ name ∈ groupNames, ∃ g ∈ o.groups, g.data = groupData name
  provider : ∃ p ∈ o.providers,
    (∃ needed key inval authorization,
      p.data = providerData env needed key inval authorization) ∧
    (∀ scope, ∃ m ∈ o.mappings, Provides env m scope ∧ m.pk ∈ p.data.propertyMappings) ∧
    (∃ m ∈ o.mappings, m.data = groupsMapping env ∧ m.pk ∈ p.data.propertyMappings) ∧
    application env (some p.pk) ∈ o.applications
  users : ∀ user ∈ testUsers, ∃ u ∈ o.users, u.data.username = user.username ∧
    u.data.name = user.name ∧ u.data.email = user.email ∧ u.data.isActive = true ∧
    u.password = some user.password ∧
    ∃ g ∈ o.groups, g.data.name = user.group ∧ g.pk ∈ u.data.groups

/-- The application, if there is one, has a provider. -/
def LinkedIfThere (env : SeedEnv) (o : Objects) : Prop :=
  ∀ a ∈ o.applications, a.slug = env.projectSlug → a.provider ≠ none

/-- The test users that there are have their passwords. -/
def PasswordsIfThere (o : Objects) : Prop :=
  ∀ user ∈ testUsers, ∀ u ∈ o.users, u.data.username = user.username →
    u.password = some user.password

/-- The provider, if there is one, has the first signing key. -/
def KeyIfThere (A : Authentik) (env : SeedEnv) (o : Objects) : Prop :=
  ∀ p ∈ o.providers, p.data.name = providerName env →
    p.data.signingKey = nonempty A.keyPairs.head?

theorem Fresh.sound {o : Objects} (h : Fresh env o) : Sound env o where
  groups := fun g hg hname => absurd hname (h.groups g hg)
  scopes := h.scopes
  providers := by simp [h.providers]
  applications := by simp [h.applications]
  users := fun u hu user huser hname => absurd hname (h.users u hu user huser)

theorem served_sound (c : Call) (s : A.State) (hc : Sends env c)
    (h : Sound env (A.view s).toObjects) : Sound env (A.view (A.serve c s).2).toObjects :=
  h.served hc (A.answers c s)

theorem afterRuns_sound {s : A.State} (h : Sound env (A.view s).toObjects)
    (runs : List EarlierRun) : Sound env (A.view (afterRuns A env s runs)).toObjects := by
  induction runs generalizing s with
  | nil => exact h
  | cons run runs ih =>
      exact ih (Script.attempt_invariant
        served_sound (main_only run.skipUsers) h run.plan)

theorem rerun_sound {s : A.State} (h : Sound env (A.view s).toObjects) :
    Sound env (A.view (rerun A env s)).toObjects :=
  Script.run_invariant served_sound (main_only false) h

theorem rerun_step (hflows : FlowsReady A) {s : A.State}
    (h : Sound env (A.view s).toObjects) :
    ∃ p, MainStep A env (A.view s) (A.view (rerun A env s)) p := by
  obtain ⟨userIds, s', hrun, ⟨path⟩⟩ := main_run hflows h
  refine ⟨path.p', ?_⟩
  rw [rerun, hrun]
  exact path.step

namespace MainStep

variable {p : Provider}

theorem done (h : MainStep A env v v' p) : Done env v'.toObjects where
  groups := h.groups
  mapping := by
    obtain ⟨m, hm, hdata⟩ := h.mapping
    exact ⟨m, hm, by rw [hdata]; rfl⟩
  provider := ⟨p, by rw [h.providers]; exact List.mem_singleton_self p, h.required⟩
  application := by
    rcases h.application with ⟨hthere, hsame⟩ | ⟨-, hadded⟩
    · rw [hsame]
      exact hthere
    · rw [hadded]
      exact List.cons_ne_nil _ _
  users := by
    intro user huser
    obtain ⟨g, hg, hname, u, hu, hnamed, hjoined, -⟩ := h.users user huser
    exact ⟨g, hg, hname, u, hu, hnamed, hjoined⟩

theorem application_mem (h : MainStep A env v v' p) (hsound : Sound env v.toObjects)
    (hlinked : LinkedIfThere env v.toObjects) :
    Scripts.application env (some p.pk) ∈ v'.applications := by
  rcases h.application with ⟨hthere, hsame⟩ | ⟨-, hadded⟩
  · obtain ⟨a, ha⟩ := List.exists_mem_of_ne_nil _ hthere
    obtain ⟨pk, rfl⟩ := hsound.applications a ha
    have ha' : Scripts.application env pk ∈ v'.applications := by
      rw [hsame]
      exact ha
    cases pk with
    | none => exact absurd rfl (hlinked _ ha rfl)
    | some pk =>
        -- the provider that it refers to is the only one
        obtain ⟨p', hp', rfl⟩ := v'.consistent.applicationProvider _ ha' pk rfl
        rw [h.providers] at hp'
        rwa [← List.mem_singleton.mp hp']
  · rw [hadded]
    exact List.mem_singleton_self _

theorem seeded (h : MainStep A env v v' p) (hsound : Sound env v.toObjects)
    (hsound' : Sound env v'.toObjects) (hlinked : LinkedIfThere env v.toObjects)
    (hpasswords : PasswordsIfThere v.toObjects) : Seeded env v'.toObjects := by
  have hp : p ∈ v'.providers := by
    rw [h.providers]
    exact List.mem_singleton_self p
  constructor
  · intro name hname
    obtain ⟨g, hg, rfl⟩ := h.groups name hname
    exact ⟨g, hg, hsound'.groups g hg hname⟩
  · refine ⟨p, hp, hsound'.providers p hp, fun scope => ?_, ?_,
      h.application_mem hsound hlinked⟩
    · obtain ⟨m, hm, hopenid, hname, -⟩ := hsound'.scopes.default scope
      have hprovides : Provides env m scope := ⟨hopenid, .inl hname⟩
      exact ⟨m, hm, hprovides, h.required m hm (.inl ⟨scope, hprovides⟩)⟩
    · obtain ⟨m, hm, hdata⟩ := h.mapping
      exact ⟨m, hm, hdata, h.required m hm (.inr (by rw [hdata]; rfl))⟩
  · intro user huser
    obtain ⟨g, hg, hname, u, hu, hnamed, hjoined, hpassword⟩ := h.users user huser
    obtain ⟨hdata, hemail, hactive⟩ := hsound'.users u hu user huser hnamed
    refine ⟨u, hu, hnamed, hdata, hemail, hactive, ?_, g, hg, hname, hjoined⟩
    rcases hpassword with ⟨w, hw, hwname, hsame⟩ | ⟨-, hset⟩
    · rw [hsame]
      exact hpasswords user huser w hw hwname
    · exact hset

theorem linked_of_seeded (h : MainStep A env v v' p) (hseeded : Seeded env v'.toObjects) :
    LinkedIfThere env v.toObjects := by
  intro a ha hslug hnone
  obtain ⟨p', -, -, -, -, happlication⟩ := hseeded.provider
  rcases h.application with ⟨-, hsame⟩ | ⟨habsent, -⟩
  · have ha' : a ∈ v'.applications := by
      rw [hsame]
      exact ha
    rw [v'.consistent.applicationSlug.eq ha' happlication hslug] at hnone
    cases hnone
  · rw [habsent] at ha
    cases ha

theorem passwords_of_seeded (h : MainStep A env v v' p) (hseeded : Seeded env v'.toObjects) :
    PasswordsIfThere v.toObjects := by
  intro user huser u hu hname
  obtain ⟨u', hu', hcontinues⟩ := h.continues u hu
  obtain ⟨w, hw, hwname, -, -, -, hpassword, -⟩ := hseeded.users user huser
  have hsame : u' = w := v'.consistent.userName.eq hu' hw
    (hcontinues.username.trans (hname.trans hwname.symm))
  rw [← hcontinues.password, hsame]
  exact hpassword

theorem key_iff (h : MainStep A env v v' p) (hsound : Sound env v.toObjects)
    (hsound' : Sound env v'.toObjects) :
    KeyIfThere A env v'.toObjects ↔ KeyIfThere A env v.toObjects := by
  have hp : p ∈ v'.providers := by
    rw [h.providers]
    exact List.mem_singleton_self p
  rcases h.signingKey with ⟨p₀, hp₀, hkey⟩ | ⟨habsent, hset⟩
  · constructor
    · intro hafter q hq hname
      have hsame : q = p₀ := v.consistent.providerName.eq hq hp₀
        (hname.trans (hsound.provider_name p₀ hp₀).symm)
      rw [hsame, hkey]
      exact hafter p hp (hsound'.provider_name p hp)
    · intro hbefore q hq _
      rw [h.providers] at hq
      rw [List.mem_singleton.mp hq, ← hkey]
      exact hbefore p₀ hp₀ (hsound.provider_name p₀ hp₀)
  · constructor
    · intro _ q hq
      rw [habsent] at hq
      cases hq
    · intro _ q hq _
      rw [h.providers] at hq
      rw [List.mem_singleton.mp hq]
      exact hset

end MainStep

/--
After any earlier runs on a fresh instance, a run without failures ends in the seeded
configuration, which a further one leaves as it is, if and only if the application, where
it is there before, has a provider and the test users that are there have their passwords.
The provider has its signing key afterwards if and only if it is not there without.
-/
theorem seed_converges_iff (hflows : FlowsReady A) {fresh : A.State}
    (hfresh : Fresh env (A.view fresh).toObjects) (runs : List EarlierRun) :
    (Seeded env (A.view (rerun A env (afterRuns A env fresh runs))).toObjects ∧
        A.view (rerun A env (rerun A env (afterRuns A env fresh runs))) =
          A.view (rerun A env (afterRuns A env fresh runs)) ↔
      LinkedIfThere env (A.view (afterRuns A env fresh runs)).toObjects ∧
        PasswordsIfThere (A.view (afterRuns A env fresh runs)).toObjects) ∧
    (KeyIfThere A env (A.view (rerun A env (afterRuns A env fresh runs))).toObjects ↔
      KeyIfThere A env (A.view (afterRuns A env fresh runs)).toObjects) := by
  have hsound := afterRuns_sound hfresh.sound runs
  have hsound' := rerun_sound hsound
  obtain ⟨p, hstep⟩ := rerun_step hflows hsound
  obtain ⟨p', hagain⟩ := rerun_step hflows hsound'
  refine ⟨⟨fun hseeded => ?_, fun hbefore => ?_⟩, hstep.key_iff hsound hsound'⟩
  · exact ⟨hstep.linked_of_seeded hseeded.1, hstep.passwords_of_seeded hseeded.1⟩
  · exact ⟨hstep.seeded hsound hsound' hbefore.1 hbefore.2, hagain.same hstep.done⟩

/-! ## Two earlier runs -/

/-- The script's defaults; the lower case is that of ASCII. -/
def localEnv : SeedEnv where
  projectSlug := "isolatedenv"
  authentikExternalUrl := "http://localhost:9010"
  clientId := "client-id"
  clientSecret := "client-secret"
  lower := fun text => String.ofList (text.toList.map Char.toLower)
  slugText := by decide

def defaultMapping (scope : DefaultScope) : ScopeMapping :=
  ⟨"default-" ++ scope.name,
    ⟨openIdText ++ " " ++ scope.pattern, scope.name, "", "return {}"⟩⟩

def defaultObjects : Objects := ⟨[], DefaultScope.all.map defaultMapping, [], [], []⟩

def localAuthentik : Authentik :=
  plainAuthentik
    [⟨"flow-1", "default-provider-authorization-implicit-consent", "authorization"⟩,
     ⟨"flow-2", "default-provider-invalidation-flow", "invalidation"⟩]
    ["key-1"]

def firstStart : localAuthentik.State :=
  (⟨defaultObjects, by constructor <;> decide⟩ : Instance)

theorem localAuthentik_flowsReady : FlowsReady localAuthentik := by
  unfold FlowsReady
  decide

theorem firstStart_fresh : Fresh localEnv (localAuthentik.view firstStart).toObjects where
  groups := by decide
  scopes := by
    constructor
    · decide +kernel
    · decide +kernel
    · decide +kernel
  providers := rfl
  applications := rfl
  users := by decide

/-- Its provider was refused, and then it was killed. -/
def killedRun : EarlierRun := ⟨false, List.replicate 14 none ++ [some ⟨502, "Bad Gateway"⟩]⟩

theorem killed_run_recovers :
    Seeded localEnv (localAuthentik.view (rerun localAuthentik localEnv
        (afterRuns localAuthentik localEnv firstStart [killedRun]))).toObjects ∧
      localAuthentik.view (rerun localAuthentik localEnv (rerun localAuthentik localEnv
          (afterRuns localAuthentik localEnv firstStart [killedRun]))) =
        localAuthentik.view (rerun localAuthentik localEnv
          (afterRuns localAuthentik localEnv firstStart [killedRun])) :=
  (seed_converges_iff localAuthentik_flowsReady firstStart_fresh [killedRun]).1.mpr
    ⟨by unfold LinkedIfThere; decide +kernel, by unfold PasswordsIfThere; decide +kernel⟩

/-- The provider and the first user's password were refused, and it ran to its end. -/
def refusedRun : EarlierRun :=
  ⟨false, List.replicate 14 none ++ some ⟨502, "Bad Gateway"⟩ ::
    List.replicate 4 none ++ some ⟨502, "Bad Gateway"⟩ :: List.replicate 6 none⟩

theorem refused_run_stays_incomplete :
    (∃ a ∈ (localAuthentik.view (rerun localAuthentik localEnv
        (afterRuns localAuthentik localEnv firstStart [refusedRun]))).applications,
      a.slug = "isolatedenv" ∧ a.provider = none) ∧
    (∃ u ∈ (localAuthentik.view (rerun localAuthentik localEnv
        (afterRuns localAuthentik localEnv firstStart [refusedRun]))).users,
      u.data.username = "admin-user" ∧ u.password = none) ∧
    ¬ Seeded localEnv (localAuthentik.view (rerun localAuthentik localEnv
      (afterRuns localAuthentik localEnv firstStart [refusedRun]))).toObjects := by
  have hunlinked : ∀ a ∈ (localAuthentik.view (rerun localAuthentik localEnv
      (afterRuns localAuthentik localEnv firstStart [refusedRun]))).applications,
      a.provider = none := by
    decide +kernel
  refine ⟨by decide +kernel, by decide +kernel, fun hseeded => ?_⟩
  obtain ⟨p, -, -, -, -, happlication⟩ := hseeded.provider
  exact nomatch hunlinked _ happlication

end IsolatedEnv.Scripts
