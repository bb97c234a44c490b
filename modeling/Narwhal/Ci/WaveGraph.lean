import Narwhal.Ci.UpgradeWaves

open pylib

namespace narwhal.check_upgrade_waves

/-! ### The graph of the dependencies -/

/-- The component has this name in its list of dependencies. -/
def DependsOn (components : Fields) (name dependency : Str) : Prop :=
  ∃ item deps, lookupField name components = some (.obj item) ∧
    lookupField (lit "depends_on") item = some (.arr deps) ∧ .str dependency ∈ deps

/-- The edges of the graph, between known components only. -/
def Edge (components : Fields) (name dependency : Str) : Prop :=
  DependsOn components name dependency ∧ dependency ∈ components.map Prod.fst

def Cyclic (components : Fields) : Prop := ∃ name, Relation.TransGen (Edge components) name name

/-- Components that are objects with a list of strings as their dependencies and an integer as
    their wave. -/
def WaveModel (components : Fields) : Prop :=
  ∀ entry ∈ components, ∃ (item : Fields) (deps : List Str) (wave : Json),
    entry.2 = .obj item ∧ lookupField (lit "depends_on") item = some (.arr (deps.map .str)) ∧
    lookupField (lit "wave") item = some wave ∧ (intOf wave).isSome = true

/-- The known dependencies of a component, in the order of its list. -/
def successors (components : Fields) (name : Str) : List Str :=
  match dependencies components name with
  | .ok deps => (deps.filterMap (lookupComponent components)).map Prod.fst
  | .error _ => []

theorem lookupComponent_eq_some_iff {components : Fields} {dependency : Json} {key : Str} {item : Json} :
    lookupComponent components dependency = some (key, item) ↔
      dependency = .str key ∧ lookupField key components = some item := by
  cases dependency with
  | str s =>
    simp only [lookupComponent, Option.map_eq_some_iff, Prod.mk.injEq, Json.str.injEq]
    constructor
    · rintro ⟨_, hitem, rfl, rfl⟩
      exact ⟨rfl, hitem⟩
    · rintro ⟨rfl, hitem⟩
      exact ⟨item, hitem, rfl, rfl⟩
  | _ => simp [lookupComponent]

section

variable {components : Fields} (hmodel : WaveModel components)

include hmodel

theorem WaveModel.of_lookup {name : Str} {value : Json} (h : lookupField name components = some value) :
    ∃ (item : Fields) (deps : List Str) (wave : Json), value = .obj item ∧
      lookupField (lit "depends_on") item = some (.arr (deps.map .str)) ∧
      lookupField (lit "wave") item = some wave ∧ (intOf wave).isSome = true :=
  hmodel (name, value) (mem_of_lookupField h)

/-- What a visit iterates over are strings. -/
theorem WaveModel.dependencies_eq (name : Str) :
    ∃ deps : List Str, dependencies components name = .ok (deps.map .str) := by
  unfold dependencies
  cases h : lookupField name components with
  | none => exact ⟨[], rfl⟩
  | some value =>
    obtain ⟨item, deps, wave, rfl, hdeps, -, -⟩ := hmodel.of_lookup h
    exact ⟨deps, by simp [hdeps, iterate]⟩

theorem WaveModel.mem_successors_iff {name dependency : Str} :
    dependency ∈ successors components name ↔ Edge components name dependency := by
  unfold successors
  constructor
  · intro hmem
    cases hlookup : lookupField name components with
    | none => simp [dependencies, hlookup] at hmem
    | some value =>
      obtain ⟨item, deps, wave, rfl, hdeps, -, -⟩ := hmodel.of_lookup hlookup
      simp only [dependencies, hlookup, hdeps, Option.getD_some, iterate] at hmem
      obtain ⟨⟨key, other⟩, hentry, rfl⟩ := List.mem_map.mp hmem
      obtain ⟨dep, hdep, hother⟩ := List.mem_filterMap.mp hentry
      obtain ⟨rfl, hknown⟩ := lookupComponent_eq_some_iff.mp hother
      exact ⟨⟨item, _, hlookup, hdeps, hdep⟩, exists_lookupField_iff.mp ⟨other, hknown⟩⟩
  · rintro ⟨⟨item, deps, hlookup, hdeps, hdep⟩, hknown⟩
    obtain ⟨other, hother⟩ := exists_lookupField_iff.mpr hknown
    simp only [dependencies, hlookup, hdeps, Option.getD_some, iterate]
    exact List.mem_map.mpr ⟨(dependency, other),
      List.mem_filterMap.mpr ⟨.str dependency, hdep, lookupComponent_eq_some_iff.mpr ⟨rfl, hother⟩⟩, rfl⟩

theorem WaveModel.follows_iff {name dependency : Str} :
    depthfirst.Follows (successors components) name dependency ↔
      Relation.TransGen (Edge components) name dependency := by
  have hedge : (fun v w => w ∈ successors components v) = Edge components := by
    funext v w
    exact propext hmodel.mem_successors_iff
  rw [depthfirst.Follows, hedge]

end

/-! ### Visits are a depth-first search -/

def number : depthfirst.Colour → Nat
  | .active => 1
  | .done => 2

/-- A search as `visit` keeps it, with the problems from before it. -/
def ofSearch (problems : List Problem) (t : depthfirst.Search Str) : Visits :=
  ⟨fun name => (t.colour name).map number, problems ++ t.found.map .cycle⟩

def outcome (problems : List Problem) : Option (depthfirst.Search Str) → Except Raised Visits
  | some t => .ok (ofSearch problems t)
  | none => .error .recursion

variable {components : Fields} {problems : List Problem}

theorem set_ofSearch (t : depthfirst.Search Str) (name : Str) (c : depthfirst.Colour) :
    (ofSearch problems t).set name (number c) = ofSearch problems (t.paint name c) := by
  simp only [ofSearch, Visits.set, depthfirst.Search.paint, Visits.mk.injEq, and_true]
  funext n
  split_ifs <;> rfl

theorem outcome_bind {f : depthfirst.Search Str → Option (depthfirst.Search Str)} {g : Visits → Except Raised Visits}
    (h : ∀ t, g (ofSearch problems t) = outcome problems (f t)) (found : Option (depthfirst.Search Str)) :
    (outcome problems found >>= g) = outcome problems (found >>= f) := by
  cases found with
  | none => rfl
  | some t => exact h t

theorem foldlM_outcome {f : depthfirst.Search Str → Str → Option (depthfirst.Search Str)}
    {g : Visits → Str → Except Raised Visits} (h : ∀ t name, g (ofSearch problems t) name = outcome problems (f t name))
    (names : List Str) (t : depthfirst.Search Str) :
    names.foldlM g (ofSearch problems t) = outcome problems (names.foldlM f t) := by
  induction names generalizing t with
  | nil => rfl
  | cons name names ih =>
    rw [List.foldlM_cons, List.foldlM_cons, h]
    exact outcome_bind ih (f t name)

/-- The loop over the dependencies is a loop over the known ones. -/
theorem foldlM_dependencies (visit : Visits → Str → Except Raised Visits) (deps : List Str) (s : Visits) :
    (deps.map Json.str).foldlM (visitDependency components visit) s =
      (((deps.map Json.str).filterMap (lookupComponent components)).map Prod.fst).foldlM visit s := by
  induction deps generalizing s with
  | nil => rfl
  | cons dep deps ih =>
    have hhashable : (Json.str dep).hashable = true := rfl
    rw [List.map_cons, List.foldlM_cons, List.filterMap_cons, visitDependency, if_pos hhashable]
    cases hknown : lookupComponent components (.str dep) with
    | none => exact ih s
    | some entry => exact congrArg (visit s entry.1 >>= ·) (funext ih)

theorem WaveModel.visit_eq (hmodel : WaveModel components) (depth : Nat) (t : depthfirst.Search Str) (name : Str) :
    visit components depth (ofSearch problems t) name =
      outcome problems (depthfirst.visit (successors components) depth t name) := by
  induction depth generalizing t name with
  | zero => rfl
  | succ depth ih =>
    rw [visit, depthfirst.visit]
    cases hcolour : t.colour name with
    | some c =>
      have hstate : (ofSearch problems t).states name = some (number c) := by simp [ofSearch, hcolour]
      rw [hstate]
      cases c with
      | active => simp [number, outcome, ofSearch, depthfirst.Search.report]
      | done => simp [number, outcome]
    | none =>
      have hstate : (ofSearch problems t).states name = none := by simp [ofSearch, hcolour]
      obtain ⟨deps, hdeps⟩ := hmodel.dependencies_eq name
      have hsucc : successors components name =
          ((deps.map Json.str).filterMap (lookupComponent components)).map Prod.fst := by
        rw [successors, hdeps]
      have hset : (ofSearch problems t).set name 1 = ofSearch problems (t.paint name .active) :=
        set_ofSearch t name .active
      have hbind {α β : Type} (a : α) (f : α → Except Raised β) : (Except.ok a >>= f) = f a := rfl
      rw [if_neg (by simp [hstate]), if_neg (by simp [hstate]), hdeps, hsucc, hbind,
        foldlM_dependencies, hset, foldlM_outcome ih]
      exact outcome_bind (fun t => congrArg Except.ok (set_ofSearch t name .done)) _

/-- The visits of all components end within a recursion as deep as there are components, and they
    report cycles where there is one. -/
theorem WaveModel.exists_visits (hmodel : WaveModel components) {depth : Nat} (hdepth : components.length < depth)
    (problems : List Problem) :
    ∃ s found, (components.map Prod.fst).foldlM (visit components depth) ⟨fun _ => none, problems⟩ = .ok s ∧
      s.problems = problems ++ found.map .cycle ∧ (found ≠ [] ↔ Cyclic components) := by
  have hclosed : ∀ v ∈ components.map Prod.fst, ∀ w ∈ successors components v, w ∈ components.map Prod.fst :=
    fun v _ w hw => (hmodel.mem_successors_iff.mp hw).2
  have hlength : (components.map Prod.fst).length < depth := by simpa using hdepth
  obtain ⟨t, ht, hfound⟩ := depthfirst.exists_visit_all hclosed hlength
  refine ⟨ofSearch problems t, t.found, ?_, rfl, hfound.trans ⟨?_, ?_⟩⟩
  · have hstart : (⟨fun _ => none, problems⟩ : Visits) = ofSearch problems .start := by
      simp [ofSearch, depthfirst.Search.start]
    rw [hstart, foldlM_outcome (hmodel.visit_eq depth), ht]
    rfl
  · rintro ⟨name, -, hcycle⟩
    exact ⟨name, hmodel.follows_iff.mp hcycle⟩
  · rintro ⟨name, hcycle⟩
    obtain ⟨dependency, -, hedge⟩ := Relation.TransGen.tail'_iff.mp hcycle
    exact ⟨name, hedge.2, hmodel.follows_iff.mpr hcycle⟩

end narwhal.check_upgrade_waves
