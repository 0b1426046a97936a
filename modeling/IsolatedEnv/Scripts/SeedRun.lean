import IsolatedEnv.Scripts.Seed

/-!
# The seed script when no call fails

For each function what it returns and how the instance has changed when every call is
answered.  A function whose object is there leaves the instance as it is.
-/

namespace IsolatedEnv.Scripts

open IsolatedEnv.Foundation

variable {A : Authentik} {env : SeedEnv}

/-! ## Groups -/

/-- The group is there, or there is none of its name and it is added. -/
inductive GroupStep (name : String) (v v' : Instance) (g : Group) : Prop
  | there (mem : g ∈ v.groups) (named : g.data.name = name) (same : v' = v)
  | added (absent : ∀ g' ∈ v.groups, g'.data.name ≠ name) (data : g.data = groupData name)
      (objects : v'.toObjects = { v.toObjects with groups := v.groups ++ [g] })

theorem createGroup_run {ids : List (String × String)} {name : String}
    (hids : ids.lookup name = none) (s : A.State) :
    ∃ g s', (createGroup ids name).run A.serve s = ((name, g.pk) :: ids, s') ∧
      GroupStep name (A.view s) (A.view s') g := by
  obtain ⟨hview, found, hfound, hlists⟩ := A.answers (.listGroups name) s
  cases hg : found.find? (fun g : Group => g.data.name = name) with
  | some g =>
      obtain ⟨hmem, hname⟩ := hlists.find?_eq_some hg
      refine ⟨g, (A.serve (.listGroups name) s).2, ?_, .there hmem hname hview⟩
      simp [createGroup, Script.run_bind, send, Script.run_request, hfound, hg, Script.run_pure]
  | none =>
      have habsent := hlists.find?_eq_none hg
      obtain ⟨hallowed, heffect⟩ :=
        A.answers (.createGroup (groupData name)) (A.serve (.listGroups name) s).2
      rw [hview] at hallowed heffect
      obtain ⟨pk, hpk⟩ := hallowed habsent
      rw [hpk] at heffect
      refine ⟨⟨pk, groupData name⟩, _, ?_, .added habsent rfl heffect⟩
      simp [createGroup, Script.run_bind, send, Script.run_request, hfound, hg, hids, hpk,
        Script.run_pure]

theorem lookup_cons_ne {key key' value : String} (h : key' ≠ key)
    (entries : List (String × String)) :
    ((key, value) :: entries).lookup key' = entries.lookup key' := by
  rw [List.lookup_cons, beq_false_of_ne h]

/-- What a run over these names has added, and what its `dict` says afterwards. -/
structure GroupsStep (names : List String) (ids ids' : List (String × String))
    (v v' : Instance) (added : List Group) : Prop where
  objects : v'.toObjects = { v.toObjects with groups := v.groups ++ added }
  data : ∀ g ∈ added, g.data = groupData g.data.name
  absent : ∀ g ∈ added, g.data.name ∈ names ∧ ∀ g' ∈ v.groups, g'.data.name ≠ g.data.name
  listed : ∀ name ∈ names, ∃ g ∈ v'.groups, g.data.name = name ∧ ids'.lookup name = some g.pk
  others : ∀ name ∉ names, ids'.lookup name = ids.lookup name

theorem GroupStep.cons {name : String} {names : List String} {ids ids' : List (String × String)}
    {v v₁ v' : Instance} {g : Group} {added : List Group} (hnew : name ∉ names)
    (hstep : GroupStep name v v₁ g)
    (hrest : GroupsStep names ((name, g.pk) :: ids) ids' v₁ v' added) :
    ∃ added', GroupsStep (name :: names) ids ids' v v' added' := by
  have hlookup : ids'.lookup name = some g.pk := by
    rw [hrest.others name hnew]
    simp
  have hothers : ∀ name' ∉ name :: names, ids'.lookup name' = ids.lookup name' := by
    intro name' hname'
    simp only [List.mem_cons, not_or] at hname'
    rw [hrest.others name' hname'.2, lookup_cons_ne hname'.1]
  have hlisted (hmem : g ∈ v'.groups) (hname : g.data.name = name) :
      ∀ name' ∈ name :: names, ∃ g ∈ v'.groups, g.data.name = name' ∧
        ids'.lookup name' = some g.pk := by
    intro name' hname'
    rcases List.mem_cons.mp hname' with rfl | hrestName
    · exact ⟨g, hmem, hname, hlookup⟩
    · exact hrest.listed name' hrestName
  have hgroups : v'.groups = v₁.groups ++ added := congrArg Objects.groups hrest.objects
  cases hstep with
  | there mem named same =>
      subst same
      refine ⟨added, hrest.objects, hrest.data, fun g' hg' => ?_, hlisted ?_ named, hothers⟩
      · exact ⟨List.mem_cons_of_mem _ (hrest.absent g' hg').1, (hrest.absent g' hg').2⟩
      · rw [hgroups]
        exact List.mem_append_left _ mem
  | added absent data objects =>
      have hfirst : v₁.groups = v.groups ++ [g] := congrArg Objects.groups objects
      have hname : g.data.name = name := by rw [data]; rfl
      refine ⟨g :: added, ?_, ?_, ?_, hlisted ?_ hname, hothers⟩
      · rw [hrest.objects, objects]
        simp
      · intro g' hg'
        rcases List.mem_cons.mp hg' with rfl | hg'
        · rw [data]
          rfl
        · exact hrest.data g' hg'
      · intro g' hg'
        rcases List.mem_cons.mp hg' with rfl | hg'
        · rw [hname]
          exact ⟨List.mem_cons_self, absent⟩
        · refine ⟨List.mem_cons_of_mem _ (hrest.absent g' hg').1, fun g'' hg'' => ?_⟩
          refine (hrest.absent g' hg').2 g'' ?_
          rw [hfirst]
          exact List.mem_append_left _ hg''
      · rw [hgroups, hfirst]
        simp

theorem createGroups_run_names {names : List String} (hnodup : names.Nodup)
    {ids : List (String × String)} (hids : ∀ name ∈ names, ids.lookup name = none)
    (s : A.State) :
    ∃ ids' s', (names.foldlM createGroup ids).run A.serve s = (ids', s') ∧
      ∃ added, GroupsStep names ids ids' (A.view s) (A.view s') added := by
  induction names generalizing ids s with
  | nil =>
      refine ⟨ids, s, rfl, [], ?_, ?_, ?_, ?_, fun _ _ => rfl⟩ <;> simp
  | cons name names ih =>
      obtain ⟨hnew, hnodup⟩ := List.nodup_cons.mp hnodup
      obtain ⟨g, s₁, hrun, hstep⟩ := createGroup_run (hids name List.mem_cons_self) s
      have hids₁ : ∀ name' ∈ names, ((name, g.pk) :: ids).lookup name' = none := by
        intro name' hname'
        have hne : name' ≠ name := fun h => hnew (h ▸ hname')
        rw [lookup_cons_ne hne]
        exact hids name' (List.mem_cons_of_mem _ hname')
      obtain ⟨ids', s', hrest, added, hadded⟩ := ih hnodup hids₁ s₁
      refine ⟨ids', s', ?_, hstep.cons hnew hadded⟩
      rw [List.foldlM_cons, Script.run_bind, hrun]
      exact hrest

theorem createGroups_run (s : A.State) :
    ∃ ids s', createGroups.run A.serve s = (ids, s') ∧
      ∃ added, GroupsStep groupNames [] ids (A.view s) (A.view s') added :=
  createGroups_run_names (by decide) (fun _ _ => rfl) s

theorem GroupsStep.same {names : List String} {ids ids' : List (String × String)}
    {v v' : Instance} {added : List Group} (h : GroupsStep names ids ids' v v' added)
    (hthere : ∀ name ∈ names, ∃ g ∈ v.groups, g.data.name = name) : v' = v := by
  have hnone : added = [] := List.eq_nil_iff_forall_not_mem.mpr fun g hg => by
    obtain ⟨hname, habsent⟩ := h.absent g hg
    obtain ⟨g', hg', hsame⟩ := hthere _ hname
    exact habsent g' hg' hsame
  apply Instance.eq_of_objects
  rw [h.objects, hnone]
  simp

/-! ## Scope mappings -/

/-- A listed mapping that the script takes for the scope. -/
def Offers (lower : String → String) (name scopeName : String) (scope : DefaultScope) : Prop :=
  Contains openIdText name ∧
    (scopeName = scope.name ∨ Contains scope.pattern (lower name))

namespace DefaultScope

theorem eq_name_of_ofName {text : String} {scope : DefaultScope}
    (h : ofName text = some scope) : text = scope.name := by
  have hname := List.find?_some h
  simpa using (of_decide_eq_true hname).symm

theorem ofName_name (scope : DefaultScope) : ofName scope.name = some scope := by
  cases scope <;> decide

theorem name_ne_empty (scope : DefaultScope) : scope.name ≠ "" := by
  cases scope <;> decide

end DefaultScope

section Scan

variable {lower : String → String} {found : FoundScopes} {item : MappingItem}
  {scope : DefaultScope} {pk : String}

theorem update_isSome {found : FoundScopes} {scope' : DefaultScope}
    (h : (found scope).isSome ∨ scope = scope') :
    (Function.update found scope' (some pk) scope).isSome := by
  by_cases hsame : scope = scope'
  · subst hsame
    simp
  · rw [Function.update_of_ne hsame]
    exact h.resolve_right hsame

theorem update_eq_some {found : FoundScopes} {scope' : DefaultScope} {pk' : String}
    (h : Function.update found scope' (some pk') scope = some pk) :
    found scope = some pk ∨ scope = scope' ∧ pk = pk' := by
  by_cases hsame : scope = scope'
  · subst hsame
    simp only [Function.update_self, Option.some.injEq] at h
    exact .inr ⟨rfl, h.symm⟩
  · rw [Function.update_of_ne hsame] at h
    exact .inl h

theorem scopeOf_offers (h : scopeOf lower found item = some scope) :
    Offers lower item.name item.scopeName scope := by
  unfold scopeOf at h
  split at h
  · rename_i hopenid
    rcases Option.or_eq_some_iff.mp h with hname | ⟨-, hfind⟩
    · exact ⟨hopenid, .inl (DefaultScope.eq_name_of_ofName hname)⟩
    · have hpattern := List.find?_some hfind
      rw [decide_eq_true_eq] at hpattern
      exact ⟨hopenid, .inr hpattern.1⟩
  · cases h

/-- The name of a default mapping has the pattern of its own scope only. -/
theorem scopeOf_default (hopenid : Contains openIdText item.name)
    (hname : item.scopeName = scope.name ∨ item.scopeName = "")
    (hpattern : ∀ scope', Contains scope'.pattern (lower item.name) ↔ scope' = scope)
    (hnone : found scope = none) : scopeOf lower found item = some scope := by
  unfold scopeOf
  rw [if_pos hopenid]
  rcases hname with hname | hname
  · rw [hname, DefaultScope.ofName_name]
    rfl
  · have hempty : DefaultScope.ofName "" = none := by decide
    rw [hname, hempty, Option.none_or]
    cases hfind : DefaultScope.all.find? (fun scope' =>
        Contains scope'.pattern (lower item.name) ∧ found scope' = none) with
    | some scope' =>
        have hscope' := List.find?_some hfind
        rw [decide_eq_true_eq] at hscope'
        rw [(hpattern scope').mp hscope'.1]
    | none =>
        have hnot := List.find?_eq_none.mp hfind scope (DefaultScope.mem_all scope)
        exact absurd (decide_eq_true ⟨(hpattern scope).mpr rfl, hnone⟩) hnot

theorem scanMapping_sound (h : scanMapping lower found item scope = some pk) :
    found scope = some pk ∨ pk = item.pk ∧ Offers lower item.name item.scopeName scope := by
  unfold scanMapping at h
  cases hscope : scopeOf lower found item with
  | none =>
      rw [hscope] at h
      exact .inl h
  | some scope' =>
      rw [hscope] at h
      rcases update_eq_some h with hold | ⟨rfl, hpk⟩
      · exact .inl hold
      · exact .inr ⟨hpk, scopeOf_offers hscope⟩

theorem scanMapping_isSome (h : (found scope).isSome ∨ scopeOf lower found item = some scope) :
    (scanMapping lower found item scope).isSome := by
  unfold scanMapping
  cases hscope : scopeOf lower found item with
  | none =>
      rw [hscope] at h
      exact h.resolve_right nofun
  | some scope' =>
      rw [hscope, Option.some.injEq] at h
      exact update_isSome (h.imp_right Eq.symm)

theorem scanMappings_sound {items : List MappingItem}
    (h : items.foldl (scanMapping lower) found scope = some pk) :
    found scope = some pk ∨
      ∃ item ∈ items, pk = item.pk ∧ Offers lower item.name item.scopeName scope := by
  induction items generalizing found with
  | nil => exact .inl h
  | cons item items ih =>
      rcases ih h with hscan | ⟨item', hmem, hoffers⟩
      · rcases scanMapping_sound hscan with hold | hoffers
        · exact .inl hold
        · exact .inr ⟨item, List.mem_cons_self, hoffers⟩
      · exact .inr ⟨item', List.mem_cons_of_mem _ hmem, hoffers⟩

theorem scanMappings_keeps (h : (found scope).isSome) (items : List MappingItem) :
    (items.foldl (scanMapping lower) found scope).isSome := by
  induction items generalizing found with
  | nil => exact h
  | cons item items ih => exact ih (scanMapping_isSome (.inl h))

theorem scanMappings_default {items : List MappingItem} (hmem : item ∈ items)
    (hopenid : Contains openIdText item.name)
    (hname : item.scopeName = scope.name ∨ item.scopeName = "")
    (hpattern : ∀ scope', Contains scope'.pattern (lower item.name) ↔ scope' = scope) :
    (items.foldl (scanMapping lower) found scope).isSome := by
  induction items generalizing found with
  | nil => cases hmem
  | cons item' items ih =>
      rcases List.mem_cons.mp hmem with rfl | hrest
      · refine scanMappings_keeps (scanMapping_isSome ?_) items
        cases hfound : found scope with
        | some pk => exact .inl rfl
        | none => exact .inr (scopeOf_default hopenid hname hpattern hfound)
      · exact ih hrest

end Scan

def Provides (env : SeedEnv) (m : ScopeMapping) (scope : DefaultScope) : Prop :=
  Offers env.lower m.data.name m.data.scopeName scope

instance provides_decidable (env : SeedEnv) (m : ScopeMapping) (scope : DefaultScope) :
    Decidable (Provides env m scope) :=
  inferInstanceAs (Decidable (_ ∧ _))

/-- The mapping belongs to the scopes that the application asks for. -/
def Required (env : SeedEnv) (m : ScopeMapping) : Prop :=
  (∃ scope, Provides env m scope) ∨ m.data.scopeName = "groups"

/--
The default mappings are there, each the only one of its scope, and the scope `groups`
and the name of its mapping are the script's.
-/
structure ScopesReady (env : SeedEnv) (mappings : List ScopeMapping) : Prop where
  default : ∀ scope : DefaultScope, ∃ m ∈ mappings, Contains openIdText m.data.name ∧
    m.data.scopeName = scope.name ∧
      ∀ scope' : DefaultScope, Contains scope'.pattern (env.lower m.data.name) ↔ scope' = scope
  only : ∀ scope, ∀ m ∈ mappings, ∀ m' ∈ mappings, Provides env m scope →
    Provides env m' scope → m = m'
  groups : ∀ m ∈ mappings,
    m.data.scopeName = "groups" ∨ m.data.name = (groupsMapping env).name →
      m.data = groupsMapping env

theorem MappingList.Shown.offers {endpoint : MappingList} {m : ScopeMapping}
    {item : MappingItem} {scope : DefaultScope} (h : endpoint.Shown m item)
    (hoffers : Offers env.lower item.name item.scopeName scope) : Provides env m scope := by
  obtain ⟨-, hname, hscopeName⟩ := h
  obtain ⟨hopenid, hscope⟩ := hoffers
  rw [hname] at hopenid hscope
  refine ⟨hopenid, hscope.imp_left fun hscope => ?_⟩
  rcases hscopeName with hsame | ⟨-, hempty⟩
  · exact hsame.symm.trans hscope
  · exact absurd (hscope.symm.trans hempty) scope.name_ne_empty

theorem searchScopes_run {s : A.State} (hready : ScopesReady env (A.view s).mappings)
    (attempts : Nat) :
    ∃ found s', (searchScopes env.lower (attempts + 1) fun _ => none).run A.serve s =
        (found, s') ∧ A.view s' = A.view s ∧
      ∀ scope, ∃ m ∈ (A.view s).mappings, Provides env m scope ∧ found scope = some m.pk := by
  obtain ⟨hview, items, hitems, hsound, hcomplete⟩ :=
    A.answers (.listMappings .all openIdText) s
  have hall : ∀ scope, (items.foldl (scanMapping env.lower) (fun _ => none) scope).isSome := by
    intro scope
    obtain ⟨m, hm, hopenid, hname, hpattern⟩ := hready.default scope
    obtain ⟨item, hitem, hpk, hitemName, hscopeName⟩ := hcomplete m hm hopenid
    refine scanMappings_default hitem ?_ ?_ ?_
    · rw [hitemName]
      exact hopenid
    · exact hscopeName.imp (fun h => h.trans hname) And.right
    · rw [hitemName]
      exact hpattern
  refine ⟨items.foldl (scanMapping env.lower) fun _ => none,
    (A.serve (.listMappings .all openIdText) s).2, ?_, hview, fun scope => ?_⟩
  · simp only [searchScopes, Script.run_bind, send, Script.run_request, hitems]
    rw [if_pos hall, Script.run_pure]
  · obtain ⟨pk, hpk⟩ := Option.isSome_iff_exists.mp (hall scope)
    rcases scanMappings_sound hpk with hold | ⟨item, hitem, rfl, hoffers⟩
    · cases hold
    · obtain ⟨m, hm, hshown⟩ := hsound item hitem
      refine ⟨m, hm, hshown.offers hoffers, ?_⟩
      rw [hpk, hshown.1]

theorem groupsMapping_contains : Contains "groups" (groupsMapping env).name := by
  refine ⟨env.projectSlug.toList ++ " OAuth2 Scope: ".toList, [], ?_⟩
  simp [groupsMapping]

/-- The groups mapping, if there is one, is the one with the name. -/
theorem findGroupsScopeMapping_run {s : A.State}
    (hready : ScopesReady env (A.view s).mappings) :
    ∃ existing s', (findGroupsScopeMapping mappingLists).run A.serve s = (existing, s') ∧
      A.view s' = A.view s ∧
      match existing with
      | some pk => ∃ m ∈ (A.view s).mappings, m.pk = pk ∧ m.data = groupsMapping env
      | none => ∀ m ∈ (A.view s).mappings, m.data.scopeName ≠ "groups" := by
  obtain ⟨hview, items, hitems, hsound, hcomplete⟩ :=
    A.answers (.listMappings .providerScope "groups") s
  have hown : ∀ item ∈ items, ∃ m ∈ (A.view s).mappings, item.pk = m.pk ∧
      item.scopeName = m.data.scopeName := by
    intro item hitem
    obtain ⟨m, hm, hpk, -, hscope⟩ := hsound item hitem
    exact ⟨m, hm, hpk, hscope.resolve_right (fun h => nomatch h.1)⟩
  cases hfind : items.find? (fun m : MappingItem => m.scopeName = "groups") with
  | some item =>
      obtain ⟨m, hm, hpk, hscope⟩ := hown item (List.mem_of_find?_eq_some hfind)
      have hname := List.find?_some hfind
      rw [decide_eq_true_eq] at hname
      refine ⟨some item.pk, _, ?_, hview, m, hm, hpk.symm,
        hready.groups m hm (.inl (hscope.symm.trans hname))⟩
      simp only [findGroupsScopeMapping, mappingLists, Script.run_bind, send,
        Script.run_request, hitems, hfind, Script.run_pure]
  | none =>
      have habsent : ∀ m ∈ (A.view s).mappings, m.data.scopeName ≠ "groups" := by
        intro m hm hgroups
        have hdata := hready.groups m hm (.inl hgroups)
        obtain ⟨item, hitem, -, -, hscope⟩ := hcomplete m hm (by
          rw [hdata]
          exact groupsMapping_contains)
        have hname := hscope.resolve_right (fun h => nomatch h.1)
        exact absurd (decide_eq_true (hname.trans hgroups))
          (List.find?_eq_none.mp hfind item hitem)
      obtain ⟨hview', items', hitems', hsound', -⟩ := A.answers (.listMappings .all "groups")
        (A.serve (.listMappings .providerScope "groups") s).2
      have hfind' : items'.find? (fun m : MappingItem => m.scopeName = "groups") = none := by
        refine List.find?_eq_none.mpr fun item hitem hname => ?_
        obtain ⟨m, hm, -, -, hscope⟩ := hsound' item hitem
        rw [hview] at hm
        rw [decide_eq_true_eq] at hname
        rcases hscope with hsame | ⟨-, hempty⟩
        · exact habsent m hm (hsame.symm.trans hname)
        · rw [hname] at hempty
          exact absurd hempty (by decide)
      refine ⟨none, _, ?_, hview'.trans hview, habsent⟩
      simp only [findGroupsScopeMapping, mappingLists, Script.run_bind, send,
        Script.run_request, hitems, hfind, hitems', hfind', Script.run_pure]

/-- What starts with a character that is not in the first part is in the second. -/
theorem infix_append_right {c : Char} {t a b : List Char} (hc : c ∉ a)
    (h : c :: t <:+: a ++ b) : c :: t <:+: b := by
  induction a with
  | nil => exact h
  | cons x a ih =>
      rw [List.cons_append, List.infix_cons_iff] at h
      rcases h with hprefix | hinfix
      · obtain ⟨rest, hrest⟩ := hprefix
        exact absurd (List.cons.inj hrest).1 (List.ne_of_not_mem_cons hc)
      · exact ih (List.not_mem_of_not_mem_cons hc) hinfix

theorem groupsMapping_not_openId : ¬ Contains openIdText (groupsMapping env).name := by
  intro h
  have hspace : ' ' ∉ env.projectSlug.toList := fun hmem => by
    have hchar := List.all_eq_true.mp env.slugText.2 ' ' hmem
    revert hchar
    decide
  have htail : ' ' :: "Mapping: OpenID".toList <:+: openIdText.toList :=
    ⟨"OAuth".toList, [], by decide⟩
  have hname : (groupsMapping env).name.toList =
      env.projectSlug.toList ++ " OAuth2 Scope: groups".toList := by
    simp [groupsMapping]
  have hinfix : ' ' :: "Mapping: OpenID".toList <:+: (groupsMapping env).name.toList :=
    htail.trans h
  rw [hname] at hinfix
  exact absurd (infix_append_right hspace hinfix) (by decide)

/-- A mapping that a run adds has a name that no other one has. -/
theorem ScopesReady.added {mappings : List ScopeMapping} {pk : String}
    (h : ScopesReady env mappings) :
    ScopesReady env (mappings ++ [⟨pk, groupsMapping env⟩]) := by
  have hnone : ∀ scope, ¬ Provides env ⟨pk, groupsMapping env⟩ scope :=
    fun scope hprovides => groupsMapping_not_openId hprovides.1
  constructor
  · intro scope
    obtain ⟨m, hm, hdefault⟩ := h.default scope
    exact ⟨m, List.mem_append_left _ hm, hdefault⟩
  · intro scope m hm m' hm' hprovides hprovides'
    rcases List.mem_append.mp hm with hold | hnew
    · rcases List.mem_append.mp hm' with hold' | hnew'
      · exact h.only scope m hold m' hold' hprovides hprovides'
      · rw [List.mem_singleton.mp hnew'] at hprovides'
        exact absurd hprovides' (hnone scope)
    · rw [List.mem_singleton.mp hnew] at hprovides
      exact absurd hprovides (hnone scope)
  · intro m hm hnamed
    rcases List.mem_append.mp hm with hold | hnew
    · exact h.groups m hold hnamed
    · rw [List.mem_singleton.mp hnew]

/-- The groups mapping `m` is there, or is added. -/
inductive MappingStep (env : SeedEnv) (v v' : Instance) (m : ScopeMapping) : Prop
  | there (data : m.data = groupsMapping env) (mem : m ∈ v.mappings) (same : v' = v)
  | added (data : m.data = groupsMapping env)
      (absent : ∀ m' ∈ v.mappings, m'.data.scopeName ≠ "groups")
      (objects : v'.toObjects = { v.toObjects with mappings := v.mappings ++ [m] })

namespace MappingStep

variable {v v' : Instance} {m m' : ScopeMapping}

theorem data_eq (h : MappingStep env v v' m) : m.data = groupsMapping env := by
  cases h with
  | there data => exact data
  | added data => exact data

theorem mem_mappings (h : MappingStep env v v' m) :
    m' ∈ v'.mappings ↔ m' ∈ v.mappings ∨ m' = m := by
  cases h with
  | there data mem same =>
      rw [same]
      exact ⟨.inl, fun h => h.elim id (fun h => h ▸ mem)⟩
  | added data absent objects =>
      have hmappings : v'.mappings = v.mappings ++ [m] := congrArg Objects.mappings objects
      rw [hmappings]
      simp

theorem ready (h : MappingStep env v v' m) (hready : ScopesReady env v.mappings) :
    ScopesReady env v'.mappings := by
  cases h with
  | there data mem same =>
      rw [same]
      exact hready
  | added data absent objects =>
      obtain ⟨pk, m⟩ := m
      obtain rfl : m = groupsMapping env := data
      have hmappings : v'.mappings = v.mappings ++ [⟨pk, groupsMapping env⟩] :=
        congrArg Objects.mappings objects
      rw [hmappings]
      exact hready.added

theorem same (h : MappingStep env v v' m)
    (hthere : ∃ m' ∈ v.mappings, m'.data.scopeName = "groups") : v' = v := by
  cases h with
  | there data mem same => exact same
  | added data absent objects =>
      obtain ⟨m', hm', hgroups⟩ := hthere
      exact absurd hgroups (absent m' hm')

end MappingStep

theorem nonempty_some {text : String} (h : text ≠ "") : nonempty (some text) = some text := by
  simp [nonempty, h]

theorem createGroupsScopeMapping_run {s : A.State}
    (hready : ScopesReady env (A.view s).mappings) :
    ∃ m s', (createGroupsScopeMapping env).run A.serve s = (some m.pk, s') ∧
      MappingStep env (A.view s) (A.view s') m := by
  obtain ⟨existing, s₁, hrun, hview, hexisting⟩ := findGroupsScopeMapping_run hready
  cases existing with
  | some pk =>
      obtain ⟨m, hm, rfl, hdata⟩ := hexisting
      have hpk := (A.view s).consistent.mappingPk m hm
      refine ⟨m, s₁, ?_, .there hdata hm hview⟩
      simp only [createGroupsScopeMapping, Script.run_bind, hrun, nonempty_some hpk,
        Script.run_pure]
  | none =>
      obtain ⟨hallowed, heffect⟩ :=
        A.answers (.createScopeMapping .providerScope (groupsMapping env)) s₁
      rw [hview] at hallowed heffect
      obtain ⟨pk, hpk⟩ := hallowed ⟨rfl, fun m hm hname => hexisting m hm (by
        rw [hready.groups m hm (.inr hname)]
        rfl)⟩
      rw [hpk] at heffect
      refine ⟨⟨pk, groupsMapping env⟩, _, ?_, .added rfl hexisting heffect⟩
      have hnone : nonempty none = none := rfl
      simp only [createGroupsScopeMapping, Script.run_bind, hrun, hnone,
        postGroupsScopeMapping, send, Script.run_request, hpk, Script.run_pure]

/-- The set that comes back is that of the required mappings. -/
theorem getDefaultScopeMappings_run {s : A.State}
    (hready : ScopesReady env (A.view s).mappings) :
    ∃ needed m s', (getDefaultScopeMappings env).run A.serve s = (needed, s') ∧
      MappingStep env (A.view s) (A.view s') m ∧
      ∀ pk, pk ∈ needed ↔ ∃ m ∈ (A.view s').mappings, m.pk = pk ∧ Required env m := by
  obtain ⟨found, s₁, hsearch, hview, hfound⟩ := searchScopes_run hready 9
  rw [← hview] at hready
  obtain ⟨m, s', hcreate, hstep⟩ := createGroupsScopeMapping_run hready
  have hpk := (A.view s').consistent.mappingPk m (hstep.mem_mappings.mpr (.inr rfl))
  have hsome : ¬ ∀ scope, found scope = none := fun hnone => by
    obtain ⟨m', -, -, hm'⟩ := hfound .openid
    rw [hnone] at hm'
    cases hm'
  refine ⟨(DefaultScope.all.filterMap found ++ [m.pk]).toFinset, m, s', ?_, ?_, fun pk => ?_⟩
  · simp only [getDefaultScopeMappings, Script.run_bind, hsearch]
    rw [if_neg hsome, Script.run_bind, hcreate]
    simp only [nonempty_some hpk, Option.toList_some, Script.run_pure]
  · rwa [hview] at hstep
  · simp only [List.mem_toFinset, List.mem_append, List.mem_filterMap, List.mem_singleton]
    constructor
    · rintro (⟨scope, -, hscope⟩ | rfl)
      · obtain ⟨m', hm', hprovides, hpk'⟩ := hfound scope
        rw [hscope] at hpk'
        rw [← hview] at hm'
        exact ⟨m', hstep.mem_mappings.mpr (.inl hm'), (Option.some.inj hpk').symm,
          .inl ⟨scope, hprovides⟩⟩
      · refine ⟨m, hstep.mem_mappings.mpr (.inr rfl), rfl, .inr ?_⟩
        rw [hstep.data_eq]
        rfl
    · rintro ⟨m', hm', rfl, ⟨scope, hprovides⟩ | hgroups⟩
      · left
        have hready' := hstep.ready hready
        obtain ⟨m₀, hm₀, hprovides₀, hpk₀⟩ := hfound scope
        rw [← hview] at hm₀
        have hsame := hready'.only scope m' hm' m₀ (hstep.mem_mappings.mpr (.inl hm₀))
          hprovides hprovides₀
        exact ⟨scope, DefaultScope.mem_all scope, by rw [hpk₀, hsame]⟩
      · right
        have hdata := (hstep.ready hready).groups m' hm' (.inl hgroups)
        have hname : m'.data.name = m.data.name := by rw [hdata, hstep.data_eq]
        rw [(A.view s').consistent.mappingName.eq hm' (hstep.mem_mappings.mpr (.inr rfl)) hname]

/-! ## The provider -/

/-- There are flows of the two kinds that the provider needs. -/
def FlowsReady (A : Authentik) : Prop :=
  (∃ f ∈ A.flows, f.designation = "authorization") ∧
    ∃ f ∈ A.flows, f.designation = "invalidation"

theorem chooseFlow_some (flowType : String) {results : List Flow} (h : results ≠ []) :
    ∃ f ∈ results, chooseFlow flowType results = some f := by
  obtain ⟨first, rest, rfl⟩ := List.exists_cons_of_ne_nil h
  unfold chooseFlow
  split
  · cases hfind : (first :: rest).find? fun f : Flow => Contains "implicit" f.slug with
    | some f => exact ⟨f, List.mem_of_find?_eq_some hfind, rfl⟩
    | none => exact ⟨first, List.mem_cons_self, rfl⟩
  · exact ⟨first, List.mem_cons_self, rfl⟩

theorem getDefaultFlow_run {flowType : String}
    (hflows : ∃ f ∈ A.flows, f.designation = flowType) (attempts : Nat) (s : A.State) :
    ∃ f s', (getDefaultFlow flowType (attempts + 1)).run A.serve s = (f.pk, s') ∧
      A.view s' = A.view s ∧ f ∈ A.flows := by
  obtain ⟨hview, results, hresults, heq⟩ := A.answers (.listFlows flowType) s
  have hne : results ≠ [] := by
    obtain ⟨f, hf, hdesignation⟩ := hflows
    have hmem : f ∈ results := by
      rw [heq]
      exact List.mem_filter.mpr ⟨hf, decide_eq_true hdesignation⟩
    exact List.ne_nil_of_mem hmem
  obtain ⟨f, hmem, hchosen⟩ := chooseFlow_some flowType hne
  refine ⟨f, _, ?_, hview, ?_⟩
  · simp only [getDefaultFlow, Script.run_bind, send, Script.run_request, hresults, hchosen,
      Script.run_pure]
  · rw [heq] at hmem
    exact List.mem_of_mem_filter hmem

theorem getSigningKey_run (s : A.State) :
    ∃ s', getSigningKey.run A.serve s = (A.keyPairs.head?, s') ∧ A.view s' = A.view s := by
  obtain ⟨hview, results, hresults, rfl⟩ := A.answers .listKeyPairs s
  refine ⟨_, ?_, hview⟩
  simp only [getSigningKey, Script.run_bind, send, Script.run_request, hresults,
    Script.run_pure]

/-- The provider is there, or it is added with its scope mappings and key. -/
inductive ProviderStep (A : Authentik) (env : SeedEnv) (v v' : Instance) (p : Provider) : Prop
  | there (mem : p ∈ v.providers) (same : v' = v)
  | added (v₁ : Instance) (m : ScopeMapping) (needed : Finset String)
      (inval authorization : String) (absent : v.providers = [])
      (mapping : MappingStep env v v₁ m)
      (data : p.data = providerData env needed A.keyPairs.head? inval authorization)
      (objects : v'.toObjects = { v₁.toObjects with providers := [p] })

theorem MappingStep.providers {v v' : Instance} {m : ScopeMapping}
    (h : MappingStep env v v' m) : v'.providers = v.providers := by
  cases h with
  | there data mem same => rw [same]
  | added data absent objects => rw [objects]

theorem postProvider_run (hflows : FlowsReady A) {s : A.State}
    (hready : ScopesReady env (A.view s).mappings) (habsent : (A.view s).providers = []) :
    ∃ p s', (postProvider env).run A.serve s = (some p.pk, s') ∧
      ProviderStep A env (A.view s) (A.view s') p := by
  obtain ⟨needed, m, s₁, hmappings, hstep, hneeded⟩ := getDefaultScopeMappings_run hready
  obtain ⟨s₂, hkey, hview₂⟩ := getSigningKey_run (A := A) s₁
  obtain ⟨inval, s₃, hinval, hview₃, hinvalMem⟩ := getDefaultFlow_run hflows.2 9 s₂
  obtain ⟨authorization, s₄, hauthorization, hview₄, hauthorizationMem⟩ :=
    getDefaultFlow_run hflows.1 9 s₃
  have hview : A.view s₄ = A.view s₁ := hview₄.trans (hview₃.trans hview₂)
  have hproviders : (A.view s₁).providers = [] := hstep.providers.trans habsent
  obtain ⟨data, hdata⟩ : ∃ data, data =
      providerData env needed A.keyPairs.head? inval.pk authorization.pk := ⟨_, rfl⟩
  obtain ⟨hallowed, heffect⟩ := A.answers (.createProvider data) s₄
  rw [hview] at hallowed heffect
  obtain ⟨pk, hpk⟩ := hallowed (by
    subst hdata
    refine ⟨fun p hp => ?_, ⟨authorization, hauthorizationMem, rfl⟩, ⟨inval, hinvalMem, rfl⟩,
      fun pk hpk => ?_, fun key hkey => ?_⟩
    · rw [hproviders] at hp
      cases hp
    · obtain ⟨m', hm', hpk', -⟩ := (hneeded pk).mp hpk
      exact ⟨m', hm', hpk'⟩
    · have hmem := (Option.filter_eq_some_iff.mp hkey).1
      exact List.mem_of_mem_head? hmem)
  rw [hpk] at heffect
  refine ⟨⟨pk, data⟩, (A.serve (.createProvider data) s₄).2, ?_,
    .added (A.view s₁) m needed inval.pk authorization.pk habsent hstep hdata ?_⟩
  · rw [postProvider, Script.run_bind, hmappings, Script.run_bind, hkey, Script.run_bind, hinval,
      Script.run_bind, hauthorization, Script.run_bind, send, Script.run_request]
    dsimp only
    rw [← hdata, hpk]
    rfl
  · rw [heffect, hproviders]
    rfl

theorem createOauth2Provider_run (hflows : FlowsReady A) {s : A.State}
    (hready : ScopesReady env (A.view s).mappings)
    (howned : ∀ p ∈ (A.view s).providers, p.data.name = providerName env) :
    ∃ p s', (createOauth2Provider env).run A.serve s = (some p.pk, s') ∧
      ProviderStep A env (A.view s) (A.view s') p := by
  obtain ⟨hview, found, hfound, hlists⟩ := A.answers (.listProviders (providerName env)) s
  cases hp : found.find? (fun p : Provider => p.data.name = providerName env) with
  | some p =>
      refine ⟨p, _, ?_, .there (hlists.find?_eq_some hp).1 hview⟩
      simp only [createOauth2Provider, Script.run_bind, send, Script.run_request, hfound, hp,
        Script.run_pure]
  | none =>
      have habsent : (A.view s).providers = [] :=
        List.eq_nil_iff_forall_not_mem.mpr fun p hmem =>
          hlists.find?_eq_none hp p hmem (howned p hmem)
      rw [← hview] at hready habsent
      obtain ⟨p, s', hrun, hstep⟩ := postProvider_run hflows hready habsent
      rw [hview] at hstep
      refine ⟨p, s', ?_, hstep⟩
      simp only [createOauth2Provider, Script.run_bind, send, Script.run_request, hfound, hp,
        hrun]

/-- The provider `p` has become `p'`, which has all that is needed. -/
structure EnsureStep (needed : Finset String) (v v' : Instance) (p p' : Provider) : Prop where
  objects : v'.toObjects = { v.toObjects with providers := [p'] }
  provider : p' = { p with data := { p.data with
    propertyMappings := p.data.propertyMappings ∪ needed } }
  same : needed ⊆ p.data.propertyMappings → v' = v

theorem ensureProviderScopeMappings_run {p : Provider} {needed : Finset String} {s : A.State}
    (hp : (A.view s).providers = [p])
    (hneeded : ∀ pk ∈ needed, ∃ m ∈ (A.view s).mappings, m.pk = pk) :
    ∃ s' p', (ensureProviderScopeMappings p.pk needed).run A.serve s = ((), s') ∧
      EnsureStep needed (A.view s) (A.view s') p p' := by
  have hmem : p ∈ (A.view s).providers := by
    rw [hp]
    exact List.mem_singleton_self p
  obtain ⟨hview, hreply⟩ := A.answers (.provider p.pk) s
  have hfound := hreply p hmem rfl
  by_cases hmissing : needed \ p.data.propertyMappings = ∅
  · refine ⟨(A.serve (.provider p.pk) s).2, p, ?_, ?_, ?_, fun _ => hview⟩
    · simp only [ensureProviderScopeMappings, Script.run_bind, send, Script.run_request, hfound]
      rw [if_pos hmissing, Script.run_pure]
    · rw [hview, ← hp]
    · rw [Finset.union_eq_left.mpr (Finset.sdiff_eq_empty_iff_subset.mp hmissing)]
  · obtain ⟨hallowed, heffect⟩ :=
      A.answers (.patchProvider p.pk (p.data.propertyMappings ∪ needed))
        (A.serve (.provider p.pk) s).2
    rw [hview] at hallowed heffect
    obtain ⟨_, hpatched⟩ := hallowed ⟨⟨p, hmem, rfl⟩, fun pk hpk => by
      rcases Finset.mem_union.mp hpk with hold | hnew
      · exact (A.view s).consistent.providerMappings p hmem pk hold
      · exact hneeded pk hnew⟩
    rw [hpatched] at heffect
    refine ⟨(A.serve (.patchProvider p.pk (p.data.propertyMappings ∪ needed))
      (A.serve (.provider p.pk) s).2).2, _, ?_, ?_, rfl, fun hsubset => ?_⟩
    · simp only [ensureProviderScopeMappings, Script.run_bind, send, Script.run_request, hfound]
      rw [if_neg hmissing]
      rfl
    · rw [heffect, hp]
      simp [Provider.patch]
    · exact absurd (Finset.sdiff_eq_empty_iff_subset.mpr hsubset) hmissing

/-! ## The application -/

inductive ApplicationStep (env : SeedEnv) (pk : Nat) (v v' : Instance) : Prop
  | there (a : Application) (mem : a ∈ v.applications) (same : v' = v)
  | added (absent : v.applications = [])
      (objects : v'.toObjects =
        { v.toObjects with applications := [application env (some pk)] })

theorem createApplication_run {p : Provider} {s : A.State} (hp : p ∈ (A.view s).providers)
    (howned : ∀ a ∈ (A.view s).applications, a.slug = env.projectSlug) :
    ∃ s', (createApplication env (some p.pk)).run A.serve s = ((), s') ∧
      ApplicationStep env p.pk (A.view s) (A.view s') := by
  obtain ⟨hview, found, hfound, hsound, hcomplete⟩ :=
    A.answers (.listApplications env.projectSlug) s
  cases hany : found.any fun a : Application => a.slug = env.projectSlug with
  | true =>
      obtain ⟨a, ha, -⟩ := List.any_eq_true.mp hany
      refine ⟨_, ?_, .there a (hsound a ha) hview⟩
      simp only [createApplication, Script.run_bind, send, Script.run_request, hfound, hany]
      rfl
  | false =>
      have habsent : (A.view s).applications = [] :=
        List.eq_nil_iff_forall_not_mem.mpr fun a ha => by
          have hslug := howned a ha
          have hnot := List.any_eq_false.mp hany a (hcomplete a ha hslug)
          exact hnot (decide_eq_true hslug)
      obtain ⟨hallowed, heffect⟩ :=
        A.answers (.createApplication (application env (some p.pk)))
          (A.serve (.listApplications env.projectSlug) s).2
      rw [hview, habsent] at hallowed heffect
      obtain ⟨_, hcreated⟩ := hallowed ⟨env.slugText, nofun, fun pk hpk => by
        cases hpk
        exact ⟨⟨p, hp, rfl⟩, nofun⟩⟩
      rw [hcreated] at heffect
      refine ⟨_, ?_, .added habsent heffect⟩
      simp only [createApplication, Script.run_bind, send, Script.run_request, hfound, hany]
      rfl

/-! ## Users -/

/-- The account `u` is there and joins the group, or is added with its password. -/
inductive UserStep (groupPk : String) (user : TestUser) (v v' : Instance) (u : Account) : Prop
  | there (mem : u ∈ v.users) (named : u.data.username = user.username)
      (objects : v'.toObjects =
        { v.toObjects with users := v.users.map (Account.addGroup u.pk groupPk) })
  | added (absent : ∀ u' ∈ v.users, u'.data.username ≠ user.username)
      (named : u.data.username = user.username) (joined : groupPk ∈ u.data.groups)
      (password : u.password = some user.password)
      (objects : v'.toObjects = { v.toObjects with users := v.users ++ [u] })

theorem map_setPassword {users : List Account} {u : Account}
    (hunique : Rows.UniqueKey Account.pk (users ++ [u])) (password : String) :
    (users ++ [u]).map (Account.setPassword u.pk password) =
      users ++ [{ u with password := some password }] := by
  have hothers : ∀ u' ∈ users, Account.setPassword u.pk password u' = u' := by
    intro u' hu'
    refine if_neg fun hpk => ?_
    rw [Rows.UniqueKey, List.map_append, List.nodup_append] at hunique
    exact hunique.2.2 u'.pk (List.mem_map_of_mem hu') u.pk (by simp) hpk
  rw [List.map_append, List.map_congr_left hothers]
  simp [Account.setPassword]

theorem postTestUser_run {groupIds : List (String × String)} {user : TestUser}
    {s : A.State} {groupPk : String} (userIds : List (String × String))
    (hgroup : groupIds.lookup user.group = some groupPk)
    (hknown : ∃ g ∈ (A.view s).groups, g.pk = groupPk)
    (habsent : ∀ u ∈ (A.view s).users, u.data.username ≠ user.username) :
    ∃ u s', (postTestUser groupIds userIds user).run A.serve s =
        ((user.email, u.uuid) :: userIds, s') ∧
      UserStep groupPk user (A.view s) (A.view s') u := by
  have hgroups : (userData groupIds user).groups = {groupPk} := by simp [userData, hgroup]
  obtain ⟨hallowed, heffect⟩ := A.answers (.createUser (userData groupIds user)) s
  rw [hgroups] at hallowed
  obtain ⟨⟨pk, uuid⟩, hcreated⟩ := hallowed ⟨habsent, fun pk hpk => by
    rw [Finset.mem_singleton.mp hpk]
    exact hknown⟩
  rw [hcreated] at heffect
  obtain ⟨s₁, hs₁⟩ : ∃ s₁, (A.serve (.createUser (userData groupIds user)) s).2 = s₁ :=
    ⟨_, rfl⟩
  rw [hs₁] at heffect
  have husers : (A.view s₁).users =
      (A.view s).users ++ [⟨pk, uuid, userData groupIds user, none⟩] :=
    congrArg Objects.users heffect
  have hunique := (A.view s₁).consistent.userPk
  rw [husers] at hunique
  obtain ⟨hallowed', heffect'⟩ := A.answers (.setPassword pk user.password) s₁
  obtain ⟨_, hset⟩ := hallowed' ⟨⟨pk, uuid, userData groupIds user, none⟩, by simp [husers], rfl⟩
  rw [hset] at heffect'
  refine ⟨⟨pk, uuid, userData groupIds user, some user.password⟩,
    (A.serve (.setPassword pk user.password) s₁).2, ?_,
    .added habsent rfl (by simp [hgroups]) rfl ?_⟩
  · simp only [postTestUser, Script.run_bind, send, Script.run_request, hcreated, hs₁,
      setUserPassword]
    rfl
  · have hmap := map_setPassword hunique user.password
    rw [heffect', husers, hmap, heffect]

theorem createTestUser_run {groupIds userIds : List (String × String)} {user : TestUser}
    {s : A.State} {groupPk : String} (hgroup : groupIds.lookup user.group = some groupPk)
    (hknown : ∃ g ∈ (A.view s).groups, g.pk = groupPk)
    (hids : userIds.lookup user.email = none) :
    ∃ u s', (createTestUser groupIds userIds user).run A.serve s =
        ((user.email, u.uuid) :: userIds, s') ∧
      UserStep groupPk user (A.view s) (A.view s') u := by
  obtain ⟨hview, found, hfound, hlists⟩ := A.answers (.listUsers user.username) s
  obtain ⟨s₁, hs₁⟩ : ∃ s₁, (A.serve (.listUsers user.username) s).2 = s₁ := ⟨_, rfl⟩
  rw [hs₁] at hview
  cases hu : found.find? (fun u : Account => u.data.username = user.username) with
  | some u =>
      obtain ⟨hmem, hname⟩ := hlists.find?_eq_some hu
      obtain ⟨hallowed, heffect⟩ := A.answers (.addUser groupPk u.pk) s₁
      rw [hview] at hallowed heffect
      obtain ⟨_, hadded⟩ := hallowed ⟨hknown, u, hmem, rfl⟩
      rw [hadded] at heffect
      refine ⟨u, _, ?_, .there hmem hname heffect⟩
      simp only [createTestUser, Script.run_bind, send, Script.run_request, hs₁, hfound, hu,
        addUserToGroup, hgroup, Script.run_pure, List.lookup_cons_self, Option.isSome_some,
        if_true]
  | none =>
      have habsent := hlists.find?_eq_none hu
      rw [← hview] at hknown habsent
      obtain ⟨u, s', hrun, hstep⟩ := postTestUser_run userIds hgroup hknown habsent
      rw [hview] at hstep
      refine ⟨u, s', ?_, hstep⟩
      simp only [createTestUser, Script.run_bind, send, Script.run_request, hs₁, hfound, hu,
        Script.run_pure, hids, Option.isSome_none, Bool.false_eq_true, if_false, hrun]

/-- The account `u` later on: it has lost nothing, and its password is the one it had. -/
structure Account.Continues (u u' : Account) : Prop where
  pk : u'.pk = u.pk
  username : u'.data.username = u.data.username
  password : u'.password = u.password
  groups : u.data.groups ⊆ u'.data.groups

theorem Account.Continues.refl (u : Account) : u.Continues u :=
  ⟨rfl, rfl, rfl, Finset.Subset.refl _⟩

theorem Account.Continues.trans {u u' u'' : Account} (h : u.Continues u')
    (h' : u'.Continues u'') : u.Continues u'' :=
  ⟨h'.pk.trans h.pk, h'.username.trans h.username, h'.password.trans h.password,
    h.groups.trans h'.groups⟩

theorem Account.addGroup_continues (pk : Nat) (group : String) (u : Account) :
    u.Continues (u.addGroup pk group) := by
  unfold Account.addGroup
  split
  · exact ⟨rfl, rfl, rfl, Finset.subset_insert _ _⟩
  · exact Account.Continues.refl u

namespace UserStep

variable {groupPk : String} {user : TestUser} {v v' : Instance} {u : Account}

theorem continues (h : UserStep groupPk user v v' u) :
    ∀ w ∈ v.users, ∃ w' ∈ v'.users, w.Continues w' := by
  intro w hw
  cases h with
  | there mem named objects =>
      rw [objects]
      exact ⟨_, List.mem_map_of_mem hw, Account.addGroup_continues u.pk groupPk w⟩
  | added absent named joined password objects =>
      rw [objects]
      exact ⟨w, List.mem_append_left _ hw, Account.Continues.refl w⟩

theorem origin (h : UserStep groupPk user v v' u) {w' : Account} (hw' : w' ∈ v'.users) :
    (∃ w ∈ v.users, w.Continues w') ∨ w'.data.username = user.username := by
  cases h with
  | there mem named objects =>
      rw [objects] at hw'
      obtain ⟨w, hw, rfl⟩ := List.mem_map.mp hw'
      exact .inl ⟨w, hw, Account.addGroup_continues u.pk groupPk w⟩
  | added absent named joined password objects =>
      rw [objects] at hw'
      rcases List.mem_append.mp hw' with hold | hnew
      · exact .inl ⟨w', hold, Account.Continues.refl w'⟩
      · rw [List.mem_singleton.mp hnew]
        exact .inr named

/-- The account is in its group; it is new and has the password, or has the one it had. -/
theorem present (h : UserStep groupPk user v v' u) :
    ∃ w' ∈ v'.users, w'.data.username = user.username ∧ groupPk ∈ w'.data.groups ∧
      ((∃ w ∈ v.users, w.data.username = user.username ∧ w'.password = w.password) ∨
        (∀ w ∈ v.users, w.data.username ≠ user.username) ∧
          w'.password = some user.password) := by
  cases h with
  | there mem named objects =>
      have hcontinues := Account.addGroup_continues u.pk groupPk u
      refine ⟨u.addGroup u.pk groupPk, ?_, hcontinues.username.trans named, ?_,
        .inl ⟨u, mem, named, hcontinues.password⟩⟩
      · rw [objects]
        exact List.mem_map_of_mem mem
      · simp [Account.addGroup]
  | added absent named joined password objects =>
      refine ⟨u, ?_, named, joined, .inr ⟨absent, password⟩⟩
      rw [objects]
      simp

theorem same (h : UserStep groupPk user v v' u)
    (hthere : ∃ w ∈ v.users, w.data.username = user.username ∧ groupPk ∈ w.data.groups) :
    v' = v := by
  obtain ⟨w, hw, hname, hgroup⟩ := hthere
  cases h with
  | there mem named objects =>
      have huser : u = w := v.consistent.userName.eq mem hw (named.trans hname.symm)
      subst huser
      have husers : v.users.map (Account.addGroup u.pk groupPk) = v.users := by
        refine (List.map_congr_left fun w' hw' => ?_).trans (List.map_id _)
        unfold Account.addGroup
        split
        · rename_i hpk
          rw [v.consistent.userPk.eq hw' mem hpk, Finset.insert_eq_of_mem hgroup]
          rfl
        · rfl
      apply Instance.eq_of_objects
      rw [objects, husers]
  | added absent named joined password objects => exact absurd hname (absent w hw)

theorem frame (h : UserStep groupPk user v v' u) :
    v'.toObjects = { v.toObjects with users := v'.users } := by
  cases h with
  | there mem named objects => rw [objects]
  | added absent named joined password objects => rw [objects]

end UserStep

/-- What a run over these users has done, with their groups' keys. -/
structure UsersStep (users : List TestUser) (groupIds : List (String × String))
    (v v' : Instance) : Prop where
  frame : v'.toObjects = { v.toObjects with users := v'.users }
  continues : ∀ w ∈ v.users, ∃ w' ∈ v'.users, w.Continues w'
  present : ∀ user ∈ users, ∀ groupPk, groupIds.lookup user.group = some groupPk →
    ∃ w' ∈ v'.users, w'.data.username = user.username ∧ groupPk ∈ w'.data.groups ∧
      ((∃ w ∈ v.users, w.data.username = user.username ∧ w'.password = w.password) ∨
        (∀ w ∈ v.users, w.data.username ≠ user.username) ∧
          w'.password = some user.password)
  same : (∀ user ∈ users, ∀ groupPk, groupIds.lookup user.group = some groupPk →
    ∃ w ∈ v.users, w.data.username = user.username ∧ groupPk ∈ w.data.groups) → v' = v

theorem UserStep.cons {user : TestUser} {users : List TestUser} {groupPk : String}
    {groupIds : List (String × String)} {v v₁ v' : Instance} {u : Account}
    (hgroup : groupIds.lookup user.group = some groupPk)
    (hnew : user.username ∉ users.map TestUser.username)
    (hstep : UserStep groupPk user v v₁ u) (hrest : UsersStep users groupIds v₁ v') :
    UsersStep (user :: users) groupIds v v' := by
  constructor
  · rw [hrest.frame, hstep.frame]
  · intro w hw
    obtain ⟨w₁, hw₁, hcontinues₁⟩ := hstep.continues w hw
    obtain ⟨w', hw', hcontinues'⟩ := hrest.continues w₁ hw₁
    exact ⟨w', hw', hcontinues₁.trans hcontinues'⟩
  · intro user' huser' groupPk' hgroup'
    rcases List.mem_cons.mp huser' with rfl | hother
    · obtain ⟨w₁, hw₁, hname, hjoined, hpassword⟩ := hstep.present
      obtain ⟨w', hw', hcontinues⟩ := hrest.continues w₁ hw₁
      rw [hgroup] at hgroup'
      cases hgroup'
      refine ⟨w', hw', hcontinues.username.trans hname, hcontinues.groups hjoined, ?_⟩
      rw [hcontinues.password]
      exact hpassword
    · have hdistinct : user'.username ≠ user.username := fun h =>
        hnew (h ▸ List.mem_map_of_mem hother)
      obtain ⟨w', hw', hname, hjoined, hpassword⟩ := hrest.present user' hother groupPk' hgroup'
      refine ⟨w', hw', hname, hjoined, ?_⟩
      rcases hpassword with ⟨w₁, hw₁, hname₁, hsame⟩ | ⟨habsent, hset⟩
      · rcases hstep.origin hw₁ with ⟨w, hw, hcontinues⟩ | huser
        · exact .inl ⟨w, hw, hcontinues.username.symm.trans hname₁,
            hsame.trans hcontinues.password⟩
        · exact absurd (hname₁.symm.trans huser) hdistinct
      · refine .inr ⟨fun w hw hname => ?_, hset⟩
        obtain ⟨w₁, hw₁, hcontinues⟩ := hstep.continues w hw
        exact habsent w₁ hw₁ (hcontinues.username.trans hname)
  · intro hthere
    have hfirst := hstep.same (hthere user List.mem_cons_self groupPk hgroup)
    subst hfirst
    exact hrest.same fun user' huser' => hthere user' (List.mem_cons_of_mem _ huser')

theorem createTestUsers_run_users {groupIds : List (String × String)} {users : List TestUser}
    (hnames : (users.map TestUser.username).Nodup) (hemails : (users.map TestUser.email).Nodup)
    {userIds : List (String × String)}
    (hids : ∀ user ∈ users, userIds.lookup user.email = none) {s : A.State}
    (hgroups : ∀ user ∈ users, ∃ g ∈ (A.view s).groups,
      groupIds.lookup user.group = some g.pk) :
    ∃ userIds' s', (users.foldlM (createTestUser groupIds) userIds).run A.serve s =
        (userIds', s') ∧ UsersStep users groupIds (A.view s) (A.view s') := by
  induction users generalizing userIds s with
  | nil =>
      refine ⟨userIds, s, rfl, rfl, fun w hw => ⟨w, hw, Account.Continues.refl w⟩, ?_,
        fun _ => rfl⟩
      intro user huser
      cases huser
  | cons user users ih =>
      obtain ⟨hname, hnames⟩ := List.nodup_cons.mp hnames
      obtain ⟨hemail, hemails⟩ := List.nodup_cons.mp hemails
      obtain ⟨g, hg, hgroup⟩ := hgroups user List.mem_cons_self
      obtain ⟨u, s₁, hrun, hstep⟩ :=
        createTestUser_run hgroup ⟨g, hg, rfl⟩ (hids user List.mem_cons_self)
      have hids₁ : ∀ user' ∈ users,
          ((user.email, u.uuid) :: userIds).lookup user'.email = none := by
        intro user' huser'
        have hne : user'.email ≠ user.email := fun h => hemail (h ▸ List.mem_map_of_mem huser')
        rw [lookup_cons_ne hne]
        exact hids user' (List.mem_cons_of_mem _ huser')
      have hgroups₁ : ∀ user' ∈ users, ∃ g ∈ (A.view s₁).groups,
          groupIds.lookup user'.group = some g.pk := by
        intro user' huser'
        rw [hstep.frame]
        exact hgroups user' (List.mem_cons_of_mem _ huser')
      obtain ⟨userIds', s', hrest, husers⟩ := ih hnames hemails hids₁ hgroups₁
      refine ⟨userIds', s', ?_, hstep.cons hgroup hname husers⟩
      rw [List.foldlM_cons, Script.run_bind, hrun]
      exact hrest

end IsolatedEnv.Scripts
