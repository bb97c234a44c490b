import Narwhal.Lib.JsJson

open jslib

namespace narwhal.portal.scope

/-! ### Configuration -/

structure TeamMapping where
  group : Text
  namespaces : List Text
  argocdProjects : List Text
deriving DecidableEq, Repr

structure RoleDefault where
  namespaces : List Text
  argocdProjects : List Text
deriving DecidableEq, Repr

structure RoleFilterConfig where
  roleDefaults : Option (List (Text × RoleDefault))
  teamMappings : Option (List TeamMapping)
  /-- the key of old configurations -/
  groupMappings : Option (List TeamMapping)
deriving DecidableEq, Repr

structure UserScope where
  groups : List Text
  namespaces : List Text
  argocdProjects : List Text
  hasMapping : Bool
deriving DecidableEq, Repr

def teamMappingsOf (config : RoleFilterConfig) : List TeamMapping :=
  (config.teamMappings <|> config.groupMappings).getD []

def ROLE_PRIORITY : List Text := ["cluster-admin", "developer", "viewer"].map String.toList

/-- What a caller may see: everything as cluster admin, else what its teams are mapped to, else
    the default of its highest role. -/
def getVisibilityScope (config : RoleFilterConfig) (roleGroups teamGroups : List Text) : UserScope :=
  if roleGroups.contains "cluster-admin".toList then ⟨["cluster-admin".toList], [['*']], [['*']], true⟩
  else
    let matched := (teamMappingsOf config).filter fun mapping => teamGroups.contains mapping.group
    if 0 < matched.length then
      ⟨matched.map TeamMapping.group, setOf (matched.flatMap TeamMapping.namespaces),
        setOf (matched.flatMap TeamMapping.argocdProjects), true⟩
    else
      let defaults := config.roleDefaults.getD []
      match ROLE_PRIORITY.find? fun role => roleGroups.contains role && (defaults.lookup role).isSome with
      | some role =>
        let d := (defaults.lookup role).getD ⟨[], []⟩
        ⟨[role], d.namespaces, d.argocdProjects, 0 < d.namespaces.length || 0 < d.argocdProjects.length⟩
      | none => ⟨[], [], [], false⟩

/-! ### Namespaces -/

structure LabelledNamespace where
  name : Text
  labels : List (Text × Text)
deriving DecidableEq, Repr

def TEAM_LABEL : Text := "narwhal.io/team".toList

def namespaceOwnedBy (ns : LabelledNamespace) (teams : List Text) : Bool :=
  match ns.labels.lookup TEAM_LABEL with
  | some owner => owner ≠ [] && teams.contains owner
  | none => false

def matchesNamespacePattern (pattern namespace_ : Text) : Bool :=
  if pattern.getLast? = some '*' then pattern.dropLast.isPrefixOf namespace_ else pattern == namespace_

def namespaceMatchesScope (namespace_ : Text) (patterns : List Text) : Bool :=
  patterns.any fun p => matchesNamespacePattern p namespace_

structure ResolvedNamespaceScope where
  all : Bool
  names : List Text
  byLabel : List Text
  byPattern : List Text
deriving DecidableEq, Repr

def resolveNamespaceScope (namespaces : List LabelledNamespace) (patterns teams : List Text) :
    ResolvedNamespaceScope :=
  if patterns.contains ['*'] then
    ⟨true, setOf (namespaces.map LabelledNamespace.name), [], setOf (namespaces.map LabelledNamespace.name)⟩
  else
    let byLabel := setOf ((namespaces.filter fun ns => namespaceOwnedBy ns teams).map LabelledNamespace.name)
    let byPattern := setOf ((namespaces.filter fun ns =>
      !namespaceOwnedBy ns teams && namespaceMatchesScope ns.name patterns).map LabelledNamespace.name)
    ⟨false, setOf (byLabel ++ byPattern), byLabel, byPattern⟩

/-! ### Fingerprints -/

/-- The text that `scopeFingerprint` hashes. -/
def scopeCanonical (groups teams : List Text) (clusterId : Text) (resolvedNamespaces : Option (List Text)) : Text :=
  stringify (.arr [
    .arr ((sortTexts groups).map .str),
    .arr ((sortTexts teams).map .str),
    .str clusterId,
    match resolvedNamespaces with
    | some names => .arr ((sortTexts names).map .str)
    | none => .null])

/-- The first 32 digits of a text's SHA-256. -/
def shortHash (text : Text) : Text := (sha256Hex text).take 32

def scopeFingerprint (groups teams : List Text) (clusterId : Text) (resolvedNamespaces : Option (List Text)) : Text :=
  shortHash (scopeCanonical groups teams clusterId resolvedNamespaces)

theorem map_str_inj {a b : List Text} (h : a.map Json.str = b.map Json.str) : a = b :=
  List.map_injective_iff.mpr (fun _ _ heq => Json.str.inj heq) h

/-- The parts of a scope can be told from its text. -/
theorem scopeCanonical_inj {groups groups' teams teams' : List Text} {clusterId clusterId' : Text}
    {resolved resolved' : Option (List Text)}
    (h : scopeCanonical groups teams clusterId resolved = scopeCanonical groups' teams' clusterId' resolved') :
    sortTexts groups = sortTexts groups' ∧ sortTexts teams = sortTexts teams' ∧ clusterId = clusterId' ∧
      resolved.map sortTexts = resolved'.map sortTexts := by
  have harr := Json.arr.inj (stringify_inj h)
  simp only [List.cons.injEq, Json.arr.injEq, Json.str.injEq, and_true] at harr
  obtain ⟨hgroups, hteams, hcluster, hresolved⟩ := harr
  refine ⟨map_str_inj hgroups, map_str_inj hteams, hcluster, ?_⟩
  cases resolved with
  | none =>
    cases resolved' with
    | none => rfl
    | some names' => cases hresolved
  | some names =>
    cases resolved' with
    | none => cases hresolved
    | some names' => exact congrArg some (map_str_inj (Json.arr.inj hresolved))

/-! ### Effective scopes -/

structure ScopeSession where
  groups : Option (List Text)
  teams : Option (List Text)
deriving DecidableEq, Repr

structure EffectiveScope where
  all : Bool
  namespaces : List Text
  argocdProjects : List Text
  hasMapping : Bool
  fingerprint : Text
  resolved : ResolvedNamespaceScope
  clusterId : Text
deriving DecidableEq, Repr

/-- The scope of a session, with the namespaces that the API lists. -/
def getEffectiveScope (config : RoleFilterConfig) (session : ScopeSession) (namespaces : List LabelledNamespace)
    (clusterId : Text) : EffectiveScope :=
  let groups := session.groups.getD []
  let teams := session.teams.getD []
  let scope := getVisibilityScope config groups teams
  -- a caller without mapping sees nothing, whatever the namespaces are
  if !scope.hasMapping && scope.namespaces.length == 0 then
    ⟨false, [], scope.argocdProjects, false, scopeFingerprint groups teams clusterId none, ⟨false, [], [], []⟩, clusterId⟩
  else
    let resolved := resolveNamespaceScope namespaces scope.namespaces teams
    ⟨resolved.all, resolved.names, scope.argocdProjects,
      resolved.all || 0 < resolved.names.length || 0 < scope.argocdProjects.length,
      scopeFingerprint groups teams clusterId (some (if resolved.all then [['*']] else resolved.names)), resolved,
      clusterId⟩

def namespaceVisible (namespace_ : Text) (scope : EffectiveScope) : Bool :=
  scope.all || scope.namespaces.contains namespace_

def projectMatchesScope (project : Text) (patterns : List Text) : Bool :=
  patterns.contains ['*'] || patterns.contains project

def appVisible (project namespace_ : Text) (scope : EffectiveScope) : Bool :=
  projectMatchesScope project scope.argocdProjects || namespaceVisible namespace_ scope

def alertVisible (labels : Text → Option Text) (scope : EffectiveScope) : Bool :=
  let ns := (labels "namespace".toList <|> labels "exported_namespace".toList).getD []
  ns == [] || namespaceVisible ns scope

/-- The text whose hash is the fingerprint of a scope. -/
def effectiveCanonical (config : RoleFilterConfig) (session : ScopeSession) (namespaces : List LabelledNamespace)
    (clusterId : Text) : Text :=
  let groups := session.groups.getD []
  let teams := session.teams.getD []
  let scope := getVisibilityScope config groups teams
  let resolved := resolveNamespaceScope namespaces scope.namespaces teams
  scopeCanonical groups teams clusterId
    (if !scope.hasMapping && scope.namespaces.length == 0 then none
      else some (if resolved.all then [['*']] else resolved.names))

section

variable {config : RoleFilterConfig} {session session' : ScopeSession} {namespaces namespaces' : List LabelledNamespace}
  {clusterId : Text}

theorem fingerprint_getEffectiveScope :
    (getEffectiveScope config session namespaces clusterId).fingerprint =
      shortHash (effectiveCanonical config session namespaces clusterId) := by
  simp only [getEffectiveScope, effectiveCanonical]
  split <;> simp_all [scopeFingerprint]

/-- The visibility scope depends only on which groups and teams are among the claims. -/
theorem getVisibilityScope_congr {groups groups' teams teams' : List Text} (hgroups : ∀ g, g ∈ groups ↔ g ∈ groups')
    (hteams : ∀ t, t ∈ teams ↔ t ∈ teams') :
    getVisibilityScope config groups teams = getVisibilityScope config groups' teams' := by
  have hgroup : ∀ g, groups.contains g = groups'.contains g := by
    intro g
    simp [hgroups g]
  have hteam : ∀ t, teams.contains t = teams'.contains t := by
    intro t
    simp [hteams t]
  simp only [getVisibilityScope, hgroup, hteam]

/-- What decides visibility. -/
structure SameView (a b : EffectiveScope) : Prop where
  all : a.all = b.all
  namespaces : a.all = false → ∀ ns, ns ∈ a.namespaces ↔ ns ∈ b.namespaces
  projects : a.argocdProjects = b.argocdProjects

theorem SameView.namespaceVisible {a b : EffectiveScope} (h : SameView a b) (ns : Text) :
    namespaceVisible ns a = namespaceVisible ns b := by
  cases hall : a.all with
  | true => simp [scope.namespaceVisible, hall, ← h.all]
  | false => simp [scope.namespaceVisible, hall, ← h.all, h.namespaces hall ns]

theorem SameView.appVisible {a b : EffectiveScope} (h : SameView a b) (project ns : Text) :
    appVisible project ns a = appVisible project ns b := by
  rw [scope.appVisible, scope.appVisible, h.projects, h.namespaceVisible]

theorem SameView.alertVisible {a b : EffectiveScope} (h : SameView a b) (labels : Text → Option Text) :
    alertVisible labels a = alertVisible labels b := by
  rw [scope.alertVisible, scope.alertVisible, h.namespaceVisible]

theorem all_resolveNamespaceScope (patterns teams : List Text) :
    (resolveNamespaceScope namespaces patterns teams).all = patterns.contains ['*'] := by
  unfold resolveNamespaceScope
  split
  · next h => rw [h]
  · next h => simpa using h

/-- Scopes with the same text under their fingerprints show the same. -/
theorem sameView_of_canonical
    (h : effectiveCanonical config session namespaces clusterId =
      effectiveCanonical config session' namespaces' clusterId) :
    SameView (getEffectiveScope config session namespaces clusterId)
      (getEffectiveScope config session' namespaces' clusterId) := by
  obtain ⟨hgroups, hteams, -, hresolved⟩ := scopeCanonical_inj h
  have hscope : getVisibilityScope config (session.groups.getD []) (session.teams.getD []) =
      getVisibilityScope config (session'.groups.getD []) (session'.teams.getD []) :=
    getVisibilityScope_congr (mem_iff_of_sortTexts_eq hgroups) (mem_iff_of_sortTexts_eq hteams)
  simp only [getEffectiveScope]
  rw [hscope] at hresolved ⊢
  generalize getVisibilityScope config (session'.groups.getD []) (session'.teams.getD []) = scope at hresolved ⊢
  by_cases hnone : (!scope.hasMapping && scope.namespaces.length == 0) = true
  · rw [if_pos hnone, if_pos hnone]
    exact ⟨rfl, by simp, rfl⟩
  · rw [if_neg hnone, if_neg hnone] at hresolved ⊢
    refine ⟨?_, fun hall ns => ?_, rfl⟩
    · rw [all_resolveNamespaceScope, all_resolveNamespaceScope]
    · have hstar : scope.namespaces.contains ['*'] = false := (all_resolveNamespaceScope _ _).symm.trans hall
      simp only [all_resolveNamespaceScope, hstar, Bool.false_eq_true, if_false, Option.map_some,
        Option.some.injEq] at hresolved
      exact mem_iff_of_sortTexts_eq hresolved ns

/-- Two scopes with one fingerprint answer every question alike, unless the hash maps their two
    texts to one value. -/
theorem fingerprint_determines_view
    (hhash : shortHash (effectiveCanonical config session namespaces clusterId) =
        shortHash (effectiveCanonical config session' namespaces' clusterId) →
      effectiveCanonical config session namespaces clusterId =
        effectiveCanonical config session' namespaces' clusterId)
    (h : (getEffectiveScope config session namespaces clusterId).fingerprint =
      (getEffectiveScope config session' namespaces' clusterId).fingerprint) :
    (∀ ns, namespaceVisible ns (getEffectiveScope config session namespaces clusterId) =
        namespaceVisible ns (getEffectiveScope config session' namespaces' clusterId)) ∧
      (∀ project ns, appVisible project ns (getEffectiveScope config session namespaces clusterId) =
        appVisible project ns (getEffectiveScope config session' namespaces' clusterId)) ∧
      ∀ labels, alertVisible labels (getEffectiveScope config session namespaces clusterId) =
        alertVisible labels (getEffectiveScope config session' namespaces' clusterId) := by
  rw [fingerprint_getEffectiveScope, fingerprint_getEffectiveScope] at h
  have hview := sameView_of_canonical (hhash h)
  exact ⟨hview.namespaceVisible, hview.appVisible, hview.alertVisible⟩

end

/-- A team with namespaces by pattern, and one with the role of a viewer. -/
def sampleConfig : RoleFilterConfig :=
  ⟨some [("viewer".toList, ⟨[['*']], []⟩)],
    some [⟨"platform-team".toList, ["platform-*".toList, "storage".toList], ["platform".toList]⟩], none⟩

/-- Sessions with the same claims in another order, and snapshots that differ in a namespace
    that neither sees. -/
theorem fingerprint_determines_view_sample :
    (getEffectiveScope sampleConfig ⟨some ["guest".toList, "viewer".toList], some ["platform-team".toList]⟩
        [⟨"platform-db".toList, []⟩, ⟨"iam".toList, []⟩] "primary".toList).fingerprint =
      (getEffectiveScope sampleConfig ⟨some ["viewer".toList, "guest".toList], some ["platform-team".toList]⟩
        [⟨"platform-db".toList, []⟩] "primary".toList).fingerprint ∧
    ∀ project ns,
      appVisible project ns (getEffectiveScope sampleConfig
          ⟨some ["guest".toList, "viewer".toList], some ["platform-team".toList]⟩
          [⟨"platform-db".toList, []⟩, ⟨"iam".toList, []⟩] "primary".toList) =
        appVisible project ns (getEffectiveScope sampleConfig
          ⟨some ["viewer".toList, "guest".toList], some ["platform-team".toList]⟩
          [⟨"platform-db".toList, []⟩] "primary".toList) := by
  have hcanonical : effectiveCanonical sampleConfig
        ⟨some ["guest".toList, "viewer".toList], some ["platform-team".toList]⟩
        [⟨"platform-db".toList, []⟩, ⟨"iam".toList, []⟩] "primary".toList =
      effectiveCanonical sampleConfig ⟨some ["viewer".toList, "guest".toList], some ["platform-team".toList]⟩
        [⟨"platform-db".toList, []⟩] "primary".toList := by
    decide +kernel
  have hfingerprint := fingerprint_getEffectiveScope.trans
    ((congrArg shortHash hcanonical).trans fingerprint_getEffectiveScope.symm)
  exact ⟨hfingerprint, (fingerprint_determines_view (fun _ => hcanonical) hfingerprint).2.1⟩

end narwhal.portal.scope
