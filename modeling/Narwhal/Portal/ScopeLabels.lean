import Narwhal.Portal.Scope

open jslib

namespace narwhal.portal.scope

/-! ### What applies to a caller -/

/-- The default of the caller's highest role that has one. -/
def roleDefaultOf (config : RoleFilterConfig) (groups : List Text) : Option RoleDefault :=
  (ROLE_PRIORITY.find? fun role => groups.contains role && ((config.roleDefaults.getD []).lookup role).isSome).bind
    fun role => (config.roleDefaults.getD []).lookup role

def IsAdmin (groups : List Text) : Prop := "cluster-admin".toList ∈ groups

def HasTeamMapping (config : RoleFilterConfig) (teams : List Text) : Prop :=
  ∃ mapping ∈ teamMappingsOf config, mapping.group ∈ teams

/-- The pattern is one of a team mapping of the caller's, or of the default of its role. -/
def Applies (config : RoleFilterConfig) (groups teams : List Text) (pattern : Text) : Prop :=
  (∃ mapping ∈ teamMappingsOf config, mapping.group ∈ teams ∧ pattern ∈ mapping.namespaces) ∨
    ¬ HasTeamMapping config teams ∧ ∃ d, roleDefaultOf config groups = some d ∧ pattern ∈ d.namespaces

/-- The configuration has something for the caller: it is an admin, or has a team mapping, or a
    role with namespaces or projects. -/
def Configured (config : RoleFilterConfig) (groups teams : List Text) : Prop :=
  IsAdmin groups ∨ HasTeamMapping config teams ∨
    ∃ d, roleDefaultOf config groups = some d ∧ (d.namespaces ≠ [] ∨ d.argocdProjects ≠ [])

section

variable {config : RoleFilterConfig} {groups teams : List Text}

theorem mem_matched {mapping : TeamMapping} :
    mapping ∈ (teamMappingsOf config).filter (fun mapping => teams.contains mapping.group) ↔
      mapping ∈ teamMappingsOf config ∧ mapping.group ∈ teams := by
  rw [List.mem_filter, List.contains_iff_mem]

theorem length_matched :
    0 < ((teamMappingsOf config).filter fun mapping => teams.contains mapping.group).length ↔
      HasTeamMapping config teams := by
  rw [List.length_pos_iff_exists_mem]
  constructor
  · rintro ⟨mapping, hmem⟩
    exact ⟨mapping, mem_matched.mp hmem⟩
  · rintro ⟨mapping, hmem⟩
    exact ⟨mapping, mem_matched.mpr hmem⟩

/-- Everything the visibility scope can be for a caller that is no admin. -/
theorem getVisibilityScope_cases (hadmin : ¬ IsAdmin groups) :
    (HasTeamMapping config teams ∧ (getVisibilityScope config groups teams).hasMapping = true ∧
      ∀ pattern, pattern ∈ (getVisibilityScope config groups teams).namespaces ↔
        ∃ mapping ∈ teamMappingsOf config, mapping.group ∈ teams ∧ pattern ∈ mapping.namespaces) ∨
    (¬ HasTeamMapping config teams ∧ ∃ d, roleDefaultOf config groups = some d ∧
      (getVisibilityScope config groups teams).namespaces = d.namespaces ∧
      ((getVisibilityScope config groups teams).hasMapping = true ↔ d.namespaces ≠ [] ∨ d.argocdProjects ≠ [])) ∨
    (¬ HasTeamMapping config teams ∧ roleDefaultOf config groups = none ∧
      (getVisibilityScope config groups teams).namespaces = [] ∧
      (getVisibilityScope config groups teams).hasMapping = false) := by
  have hgroups : groups.contains "cluster-admin".toList = false := by
    rw [Bool.eq_false_iff]
    exact fun h => hadmin (List.contains_iff_mem.mp h)
  unfold getVisibilityScope
  rw [if_neg (by rw [hgroups]; exact Bool.false_ne_true)]
  by_cases hmapping : HasTeamMapping config teams
  · rw [if_pos (length_matched.mpr hmapping)]
    refine .inl ⟨hmapping, rfl, fun pattern => ?_⟩
    rw [mem_setOf, List.mem_flatMap]
    constructor
    · rintro ⟨mapping, hmem, hpattern⟩
      obtain ⟨hof, hgroup⟩ := mem_matched.mp hmem
      exact ⟨mapping, hof, hgroup, hpattern⟩
    · rintro ⟨mapping, hof, hgroup, hpattern⟩
      exact ⟨mapping, mem_matched.mpr ⟨hof, hgroup⟩, hpattern⟩
  · rw [if_neg fun h => hmapping (length_matched.mp h)]
    refine .inr ?_
    simp only [roleDefaultOf]
    cases hfind : ROLE_PRIORITY.find? fun role =>
        groups.contains role && ((config.roleDefaults.getD []).lookup role).isSome with
    | none => exact .inr ⟨hmapping, rfl, rfl, rfl⟩
    | some role =>
      have hsome := List.find?_some hfind
      rw [Bool.and_eq_true] at hsome
      obtain ⟨d, hd⟩ := Option.isSome_iff_exists.mp hsome.2
      refine .inl ⟨hmapping, d, hd, by simp only [hd, Option.getD_some], ?_⟩
      simp [hd, List.length_pos_iff]

theorem admin_getVisibilityScope (hadmin : IsAdmin groups) :
    getVisibilityScope config groups teams = ⟨["cluster-admin".toList], [['*']], [['*']], true⟩ := by
  unfold getVisibilityScope
  rw [if_pos (List.contains_iff_mem.mpr hadmin)]

/-- The early return is taken exactly where the configuration has nothing for the caller. -/
theorem unmapped_iff :
    (!(getVisibilityScope config groups teams).hasMapping &&
        (getVisibilityScope config groups teams).namespaces.length == 0) = true ↔
      ¬ Configured config groups teams := by
  by_cases hadmin : IsAdmin groups
  · rw [admin_getVisibilityScope hadmin]
    exact iff_of_false (by simp) fun h => h (.inl hadmin)
  · obtain ⟨hmapping, hhas, -⟩ | ⟨hmapping, d, hd, hnamespaces, hhas⟩ | ⟨hmapping, hd, hnamespaces, hhas⟩ :=
      @getVisibilityScope_cases config groups teams hadmin
    · rw [hhas]
      exact iff_of_false (by simp) fun h => h (.inr (.inl hmapping))
    · have hconfigured : Configured config groups teams ↔ d.namespaces ≠ [] ∨ d.argocdProjects ≠ [] := by
        constructor
        · rintro (h | h | ⟨d', hd', h⟩)
          · exact absurd h hadmin
          · exact absurd h hmapping
          · rw [hd] at hd'
            obtain rfl := Option.some.inj hd'
            exact h
        · exact fun h => .inr (.inr ⟨d, hd, h⟩)
      rw [hconfigured, ← hhas, hnamespaces]
      cases hvalue : (getVisibilityScope config groups teams).hasMapping with
      | true => simp
      | false =>
        have hnone : d.namespaces = [] := by
          by_contra hne
          rw [hhas.mpr (.inl hne)] at hvalue
          cases hvalue
        simp [hnone]
    · rw [hhas, hnamespaces]
      refine iff_of_true rfl ?_
      rintro (h | h | ⟨d', hd', -⟩)
      · exact hadmin h
      · exact hmapping h
      · rw [hd] at hd'
        cases hd'

/-- What is visible to a caller by pattern matches one that applies. -/
theorem applies_of_mem (hadmin : ¬ IsAdmin groups) {pattern : Text}
    (h : pattern ∈ (getVisibilityScope config groups teams).namespaces) : Applies config groups teams pattern := by
  obtain ⟨-, -, hnamespaces⟩ | ⟨hmapping, d, hd, hnamespaces, -⟩ | ⟨-, -, hnamespaces, -⟩ :=
    @getVisibilityScope_cases config groups teams hadmin
  · exact .inl ((hnamespaces pattern).mp h)
  · exact .inr ⟨hmapping, d, hd, hnamespaces ▸ h⟩
  · rw [hnamespaces] at h
    cases h

end

/-! ### What is visible -/

section

variable {config : RoleFilterConfig} {session : ScopeSession} {namespaces : List LabelledNamespace} {clusterId : Text}

theorem matchesNamespacePattern_star (name : Text) : matchesNamespacePattern ['*'] name = true := rfl

theorem namespaceVisible_of_not_configured
    (h : ¬ Configured config (session.groups.getD []) (session.teams.getD [])) (name : Text) :
    namespaceVisible name (getEffectiveScope config session namespaces clusterId) = false ∧
      (getEffectiveScope config session namespaces clusterId).hasMapping = false := by
  simp only [getEffectiveScope]
  rw [if_pos (unmapped_iff.mpr h)]
  exact ⟨rfl, rfl⟩

/-- A configured caller sees what its teams own and what its patterns match. -/
theorem namespaceVisible_iff_of_configured
    (h : Configured config (session.groups.getD []) (session.teams.getD [])) (name : Text) :
    namespaceVisible name (getEffectiveScope config session namespaces clusterId) = true ↔
      ['*'] ∈ (getVisibilityScope config (session.groups.getD []) (session.teams.getD [])).namespaces ∨
        ∃ ns ∈ namespaces, ns.name = name ∧ (namespaceOwnedBy ns (session.teams.getD []) = true ∨
          ∃ pattern ∈ (getVisibilityScope config (session.groups.getD []) (session.teams.getD [])).namespaces,
            matchesNamespacePattern pattern name = true) := by
  simp only [getEffectiveScope, namespaceVisible]
  rw [if_neg fun hearly => unmapped_iff.mp hearly h]
  generalize getVisibilityScope config (session.groups.getD []) (session.teams.getD []) = scope
  unfold resolveNamespaceScope
  by_cases hstar : ['*'] ∈ scope.namespaces
  · rw [if_pos (List.contains_iff_mem.mpr hstar)]
    exact iff_of_true rfl (.inl hstar)
  · rw [if_neg fun hcontains => hstar (List.contains_iff_mem.mp hcontains)]
    simp only [Bool.false_or, List.contains_iff_mem, mem_setOf, List.mem_append, List.mem_map, List.mem_filter,
      Bool.and_eq_true, Bool.not_eq_true', hstar, false_or]
    constructor
    · rintro (⟨ns, ⟨hmem, howned⟩, rfl⟩ | ⟨ns, ⟨hmem, -, hmatches⟩, rfl⟩)
      · exact ⟨ns, hmem, rfl, .inl howned⟩
      · exact ⟨ns, hmem, rfl, .inr (List.any_eq_true.mp hmatches)⟩
    · rintro ⟨ns, hmem, rfl, hwhy⟩
      cases howned : namespaceOwnedBy ns (session.teams.getD []) with
      | true => exact .inl ⟨ns, ⟨hmem, howned⟩, rfl⟩
      | false =>
        have hmatches := hwhy.resolve_left (by rw [howned]; exact Bool.false_ne_true)
        exact .inr ⟨ns, ⟨hmem, howned, List.any_eq_true.mpr hmatches⟩, rfl⟩

/-- A configured caller that sees a listed namespace has a scope. -/
theorem hasMapping_of_visible (h : Configured config (session.groups.getD []) (session.teams.getD [])) {name : Text}
    (hvisible : namespaceVisible name (getEffectiveScope config session namespaces clusterId) = true) :
    (getEffectiveScope config session namespaces clusterId).hasMapping = true := by
  simp only [getEffectiveScope, namespaceVisible] at hvisible ⊢
  rw [if_neg fun hearly => unmapped_iff.mp hearly h] at hvisible ⊢
  generalize resolveNamespaceScope namespaces _ _ = resolved at hvisible ⊢
  simp only [Bool.or_eq_true, List.contains_iff_mem, decide_eq_true_eq] at hvisible ⊢
  exact .inl (hvisible.imp_right List.length_pos_of_mem)

end

/-- Labels grant what they say: a caller sees what its teams own and has a scope then, and what
    it sees its teams own or its configuration shows. -/
structure LabelsGrant (config : RoleFilterConfig) (session : ScopeSession) (namespaces : List LabelledNamespace)
    (clusterId : Text) : Prop where
  visible : ∀ ns ∈ namespaces, namespaceOwnedBy ns (session.teams.getD []) = true →
    namespaceVisible ns.name (getEffectiveScope config session namespaces clusterId) = true
  hasMapping : ∀ ns ∈ namespaces, namespaceOwnedBy ns (session.teams.getD []) = true →
    (getEffectiveScope config session namespaces clusterId).hasMapping = true
  justified : ¬ IsAdmin (session.groups.getD []) → ∀ name,
    namespaceVisible name (getEffectiveScope config session namespaces clusterId) = true →
    (∃ ns ∈ namespaces, ns.name = name ∧ namespaceOwnedBy ns (session.teams.getD []) = true) ∨
      ∃ pattern, Applies config (session.groups.getD []) (session.teams.getD []) pattern ∧
        matchesNamespacePattern pattern name = true

/-- A caller that the configuration does not mention sees nothing, whatever its teams own. -/
theorem labelsGrant_iff (config : RoleFilterConfig) (session : ScopeSession) (namespaces : List LabelledNamespace)
    (clusterId : Text) :
    LabelsGrant config session namespaces clusterId ↔
      Configured config (session.groups.getD []) (session.teams.getD []) ∨
        ∀ ns ∈ namespaces, namespaceOwnedBy ns (session.teams.getD []) = false := by
  constructor
  · intro h
    by_cases hconfigured : Configured config (session.groups.getD []) (session.teams.getD [])
    · exact .inl hconfigured
    · refine .inr fun ns hmem => ?_
      rw [Bool.eq_false_iff]
      intro howned
      have hvisible := h.visible ns hmem howned
      rw [(namespaceVisible_of_not_configured hconfigured ns.name).1] at hvisible
      cases hvisible
  · intro h
    by_cases hconfigured : Configured config (session.groups.getD []) (session.teams.getD [])
    · have hvisible : ∀ ns ∈ namespaces, namespaceOwnedBy ns (session.teams.getD []) = true →
          namespaceVisible ns.name (getEffectiveScope config session namespaces clusterId) = true :=
        fun ns hmem howned =>
          (namespaceVisible_iff_of_configured hconfigured ns.name).mpr (.inr ⟨ns, hmem, rfl, .inl howned⟩)
      refine ⟨hvisible, fun ns hmem howned => hasMapping_of_visible hconfigured (hvisible ns hmem howned), ?_⟩
      intro hadmin name hname
      obtain hstar | ⟨ns, hmem, rfl, howned | ⟨pattern, hpattern, hmatches⟩⟩ :=
        (namespaceVisible_iff_of_configured hconfigured name).mp hname
      · exact .inr ⟨['*'], applies_of_mem hadmin hstar, matchesNamespacePattern_star name⟩
      · exact .inl ⟨ns, hmem, rfl, howned⟩
      · exact .inr ⟨pattern, applies_of_mem hadmin hpattern, hmatches⟩
    · have hunowned := h.resolve_left hconfigured
      refine ⟨fun ns hmem howned => ?_, fun ns hmem howned => ?_, fun hadmin name hname => ?_⟩
      · rw [hunowned ns hmem] at howned
        cases howned
      · rw [hunowned ns hmem] at howned
        cases howned
      · rw [(namespaceVisible_of_not_configured hconfigured name).1] at hname
        cases hname

/-- A team that owns its namespace by label alone, with no entry in the configuration. -/
theorem labelled_namespace_hidden :
    ¬ LabelsGrant ⟨none, none, none⟩ ⟨some ["guest".toList], some ["shop-team".toList]⟩
      [⟨"shop".toList, [(TEAM_LABEL, "shop-team".toList)]⟩] "primary".toList := by
  intro h
  have hvisible := h.visible _ List.mem_cons_self (by decide)
  revert hvisible
  decide

end narwhal.portal.scope
