import Narwhal.Ci.WaveGraph

open pylib

namespace narwhal.check_upgrade_waves

/-- The components and the excluded names that a check reads. -/
def Reads (root : Root) (components excluded : Fields) : Prop :=
  ∃ data, root.model = .ok (.obj data) ∧ get "components" data = .obj components ∧
    get "NOT_YET_MODELLED" data = .obj excluded

def waveOf (components : Fields) (name : Str) : Option Int :=
  match lookupField name components with
  | some (.obj item) => intOf (get "wave" item)
  | _ => none

/-- Once the model is read, the components decide. -/
theorem validate_eq {depth : Nat} {root : Root} {components excluded : Fields} (h : Reads root components excluded) :
    validate depth root = validateComponents depth root components excluded := by
  obtain ⟨data, hmodel, hcomponents, hexcluded⟩ := h
  simp only [validate, hmodel, hcomponents, hexcluded]

/-- A validation that ends has read the model. -/
theorem reads_of_validate {depth : Nat} {root : Root} {result : List Problem × Nat × Nat}
    (h : validate depth root = .ok result) : ∃ components excluded, Reads root components excluded := by
  unfold validate at h
  split at h
  · cases h
  · split at h
    · exact ⟨_, _, _, ‹_›, ‹_›, ‹_›⟩
    · cases h
  · cases h

section

variable {depth : Nat} {root : Root} {components excluded : Fields} {problems : List Problem} {n m : Nat}

/-- The steps of a validation that ends, and the problems of each. -/
theorem validateComponents_ok_iff :
    validateComponents depth root components excluded = .ok (problems, n, m) ↔
      ∃ apps found s, applications root = .ok apps ∧ components.mapM (checkComponent root components) = .ok found ∧
        (components.map Prod.fst).foldlM (visit components depth)
          ⟨fun _ => none, overlapProblems components excluded ++ found.flatten⟩ = .ok s ∧
        s.problems ++ nameProblems components excluded apps = problems ∧ components.length = n ∧ apps.length = m := by
  constructor
  · intro h
    obtain ⟨apps, happs, h⟩ := bind_ok_iff.mp h
    obtain ⟨found, hfound, h⟩ := bind_ok_iff.mp h
    obtain ⟨s, hs, h⟩ := bind_ok_iff.mp h
    have hresult := Except.ok.inj h
    exact ⟨apps, found, s, happs, hfound, hs, congrArg Prod.fst hresult, congrArg (·.2.1) hresult,
      congrArg (·.2.2) hresult⟩
  · rintro ⟨apps, found, s, happs, hfound, hs, rfl, rfl, rfl⟩
    exact bind_ok_iff.mpr ⟨apps, happs, bind_ok_iff.mpr ⟨found, hfound, bind_ok_iff.mpr ⟨s, hs, rfl⟩⟩⟩

/-! ### Cycles among the problems -/

theorem cycle_not_mem_aboutNames {problem : List Str → Problem} (hproblem : ∀ names name, problem names ≠ .cycle name)
    (names : List Str) (name : Str) : .cycle name ∉ aboutNames problem names := by
  unfold aboutNames
  split_ifs
  · exact List.not_mem_nil
  · exact fun hmem => hproblem _ name (List.mem_singleton.mp hmem).symm

theorem cycle_not_mem_overlapProblems (name : Str) : .cycle name ∉ overlapProblems components excluded :=
  cycle_not_mem_aboutNames (by simp) _ name

theorem cycle_not_mem_nameProblems (apps : List Str) (name : Str) :
    .cycle name ∉ nameProblems components excluded apps := by
  intro hmem
  obtain hmem | hmem := List.mem_append.mp hmem
  · obtain hmem | hmem := List.mem_append.mp hmem
    · exact cycle_not_mem_aboutNames (by simp) _ name hmem
    · exact cycle_not_mem_aboutNames (by simp) _ name hmem
  · simp at hmem

/-- None of the checks of a component reports a cycle: only the visit does. -/
theorem cycle_not_mem_checkDependency {name dependency : Str} {wave dep : Json} {found : List Problem}
    (h : checkDependency components name wave dep = .ok found) : .cycle dependency ∉ found := by
  unfold checkDependency checkWaves at h
  split_ifs at h
  split at h
  · cases h
    simp
  · cases h
    simp
  · split at h
    · split at h
      · cases h
        split_ifs <;> simp
      · cases h
    · cases h

theorem cycle_not_mem_checkRef {name dependency : Str} {item : Fields} {field : String} :
    .cycle dependency ∉ checkRef root name item field := by
  unfold checkRef
  split
  · split_ifs <;> simp
  · simp

theorem cycle_not_mem_checkComponent {entry : Str × Json} {dependency : Str} {found : List Problem}
    (h : checkComponent root components entry = .ok found) : .cycle dependency ∉ found := by
  unfold checkComponent at h
  split at h
  · obtain ⟨deps, hdeps, h⟩ := bind_ok_iff.mp h
    rw [← Except.ok.inj h]
    intro hmem
    simp only [List.mem_append, List.mem_flatten, List.mem_flatMap] at hmem
    obtain (((hmem | hmem) | ⟨found, hfound, hmem⟩) | hmem) | ⟨field, -, hmem⟩ := hmem
    · split_ifs at hmem <;> simp at hmem
    · split_ifs at hmem <;> simp at hmem
    · obtain ⟨dep, -, hdep⟩ := exists_of_mem_mapM_ok hdeps hfound
      exact cycle_not_mem_checkDependency hdep hmem
    · split_ifs at hmem <;> simp at hmem
    · exact cycle_not_mem_checkRef hmem
  · cases h
    simp

/-! ### Checks of a wave model return -/

theorem number_of_intOf {value : Json} {n : Int} (h : intOf value = some n) : value.number = some (.finite n) := by
  cases value with
  | int k => simpa [intOf, Json.number] using h
  | bool b =>
    cases b
    · simpa [intOf, Json.number, eq_comm] using h
    · simpa [intOf, Json.number, eq_comm] using h
  | _ => simp [intOf] at h

theorem ge_finite_iff (m n : Int) : (jslib.Double.finite m).ge (.finite n) = true ↔ n ≤ m := by
  simp [jslib.Double.ge, jslib.Double.isNaN, jslib.Double.rank, jslib.Double.rat]

/-- In a model of waves no check raises an exception. -/
theorem WaveModel.exists_checkDependency (hmodel : WaveModel components) (name : Str) (wave : Json) (dependency : Str) :
    ∃ found, checkDependency components name wave (.str dependency) = .ok found := by
  have hhashable : (Json.str dependency).hashable = true := rfl
  rw [checkDependency, if_pos hhashable]
  cases hknown : lookupComponent components (.str dependency) with
  | none => exact ⟨_, rfl⟩
  | some entry =>
    obtain ⟨key, other⟩ := entry
    obtain ⟨-, hlookup⟩ := lookupComponent_eq_some_iff.mp hknown
    obtain ⟨item, deps, otherWave, rfl, -, hwave, hint⟩ := hmodel.of_lookup hlookup
    obtain ⟨m, hm⟩ := Option.isSome_iff_exists.mp hint
    cases intOf wave with
    | none => exact ⟨_, rfl⟩
    | some n =>
      simp only [checkWaves, hwave, Option.getD_some, number_of_intOf hm]
      exact ⟨_, rfl⟩

theorem WaveModel.exists_checkComponents (hmodel : WaveModel components) (root : Root) :
    ∃ found, components.mapM (checkComponent root components) = .ok found := by
  refine exists_mapM_ok fun entry hentry => ?_
  obtain ⟨item, deps, wave, hitem, hdeps, -, -⟩ := hmodel entry hentry
  have hfound : ∃ found, (listOf (get "depends_on" item)).mapM
      (checkDependency components entry.1 (get "wave" item)) = .ok found := by
    refine exists_mapM_ok fun dep hdep => ?_
    simp only [get, hdeps, Option.getD_some, listOf] at hdep
    obtain ⟨dependency, -, rfl⟩ := List.mem_map.mp hdep
    exact hmodel.exists_checkDependency entry.1 _ dependency
  obtain ⟨found, hfound⟩ := hfound
  simp only [checkComponent, hitem, checkItem]
  rw [hfound]
  exact ⟨_, rfl⟩

theorem applications_error {e : Raised} (h : applications root = .error e) : ∃ why, e = .value why := by
  have hstep : ∀ names file, addApplication names file = .error e → ∃ why, e = .value why := by
    intro names file hfile
    unfold addApplication at hfile
    split_ifs at hfile
    split at hfile
    · exact ⟨_, (Except.error.inj hfile).symm⟩
    · split_ifs at hfile
      exact ⟨_, (Except.error.inj hfile).symm⟩
  have hfold : ∀ (files : List (Str × Str)) names, files.foldlM addApplication names = .error e →
      ∃ why, e = .value why := by
    intro files
    induction files with
    | nil =>
      intro names hfiles
      cases hfiles
    | cons file files ih =>
      intro names hfiles
      rw [List.foldlM_cons] at hfiles
      cases hfile : addApplication names file with
      | error e' =>
        rw [hfile] at hfiles
        exact hstep names file (hfile.trans hfiles)
      | ok names' =>
        rw [hfile] at hfiles
        exact ih names' hfiles
  unfold applications at h
  split_ifs at h
  · exact hfold _ _ h
  · exact ⟨_, (Except.error.inj h).symm⟩

/-- A check of a wave model returns, unless the templates are not as they should be, and it reports
    cycles where there is one. -/
theorem WaveModel.validateComponents_cases (hmodel : WaveModel components) (hdepth : components.length < depth)
    (root : Root) (excluded : Fields) :
    (∃ why, validateComponents depth root components excluded = .error (.value why)) ∨
    ∃ problems n m, validateComponents depth root components excluded = .ok (problems, n, m) ∧
      ((∃ name, .cycle name ∈ problems) ↔ Cyclic components) := by
  cases happs : applications root with
  | error e =>
    obtain ⟨why, rfl⟩ := applications_error happs
    exact .inl ⟨why, by simp [validateComponents, happs, bind, Except.bind]⟩
  | ok apps =>
    refine .inr ?_
    obtain ⟨found, hfound⟩ := hmodel.exists_checkComponents root
    obtain ⟨s, cycles, hs, hproblems, hcycles⟩ := hmodel.exists_visits hdepth
      (aboutNames .overlap ((components.map Prod.fst).filter (· ∈ excluded.map Prod.fst)) ++ found.flatten)
    have hcheck := validateComponents_ok_iff.mpr ⟨apps, found, s, happs, hfound, hs, rfl, rfl, rfl⟩
    refine ⟨_, _, _, hcheck, Iff.trans ⟨?_, ?_⟩ hcycles⟩
    · rintro ⟨name, hmem⟩ hnil
      rw [hproblems, hnil, List.map_nil, List.append_nil] at hmem
      obtain hmem | hmem := List.mem_append.mp hmem
      · obtain hmem | hmem := List.mem_append.mp hmem
        · exact cycle_not_mem_overlapProblems name hmem
        · obtain ⟨ps, hps, hmem⟩ := List.mem_flatten.mp hmem
          obtain ⟨entry, -, hentry⟩ := exists_of_mem_mapM_ok hfound hps
          exact cycle_not_mem_checkComponent hentry hmem
      · exact cycle_not_mem_nameProblems apps name hmem
    · intro hne
      obtain ⟨name, hname⟩ := List.exists_mem_of_ne_nil _ hne
      refine ⟨name, List.mem_append_left _ ?_⟩
      rw [hproblems]
      exact List.mem_append_right _ (List.mem_map_of_mem hname)

/-! ### Where no problem is found -/

/-- What a component has that no problem is found with. -/
structure Sound (components : Fields) (name : Str) (item : Fields) (n : Int) : Prop where
  wave : intOf (get "wave" item) = some n
  deps : ∃ deps, get "depends_on" item = .arr deps
  checked : ∀ dep ∈ listOf (get "depends_on" item), checkDependency components name (get "wave" item) dep = .ok []

/-- A component without problems has a wave, and dependencies that were checked. -/
theorem sound_of_checkComponent {entry : Str × Json} (h : checkComponent root components entry = .ok []) :
    ∃ item n, entry.2 = .obj item ∧ Sound components entry.1 item n := by
  unfold checkComponent at h
  split at h
  next item hitem =>
    obtain ⟨found, hfound, h⟩ := bind_ok_iff.mp h
    have hnil := Except.ok.inj h
    simp only [List.append_eq_nil_iff] at hnil
    obtain ⟨⟨⟨⟨hwave, hlist⟩, hflatten⟩, -⟩, -⟩ := hnil
    cases hint : intOf (get "wave" item) with
    | none => simp [hint] at hwave
    | some n =>
      refine ⟨item, n, hitem, hint, ?_, ?_⟩
      · cases hdeps : get "depends_on" item with
        | arr deps => exact ⟨deps, rfl⟩
        | _ => simp [hdeps, isList] at hlist
      · intro dep hdep
        obtain ⟨ps, hps, hcheck⟩ := exists_mem_of_mapM_ok hfound hdep
        rw [hcheck, List.flatten_eq_nil_iff.mp hflatten ps hps]
  next => cases h

theorem lookup_of_get {key : String} {item : Fields} {value : Json} (h : get key item = value) (hne : value ≠ .null) :
    lookupField (lit key) item = some value := by
  unfold get at h
  cases hlookup : lookupField (lit key) item with
  | none =>
    rw [hlookup] at h
    exact absurd h.symm hne
  | some other =>
    rw [hlookup] at h
    exact congrArg some h

theorem prefix_foldlM_visitDependency {visit : Visits → Str → Except Raised Visits}
    (hvisit : ∀ s name s', visit s name = .ok s' → s.problems <+: s'.problems) {deps : List Json} {s s' : Visits}
    (h : deps.foldlM (visitDependency components visit) s = .ok s') : s.problems <+: s'.problems := by
  induction deps generalizing s with
  | nil =>
    cases h
    exact List.prefix_rfl
  | cons dep deps ih =>
    obtain ⟨t, ht, hrest⟩ := foldlM_cons_ok_iff.mp h
    refine List.IsPrefix.trans ?_ (ih hrest)
    unfold visitDependency at ht
    split_ifs at ht
    split at ht
    · exact hvisit _ _ _ ht
    · cases ht
      exact List.prefix_rfl

/-- Visits only add problems. -/
theorem prefix_visit {s s' : Visits} {name : Str} (h : visit components depth s name = .ok s') :
    s.problems <+: s'.problems := by
  induction depth generalizing s s' name with
  | zero => cases h
  | succ depth ih =>
    rw [visit] at h
    split_ifs at h
    · cases h
      exact List.prefix_append _ _
    · cases h
      exact List.prefix_rfl
    · obtain ⟨deps, -, h⟩ := bind_ok_iff.mp h
      obtain ⟨t, ht, h⟩ := bind_ok_iff.mp h
      cases h
      have hprefix := prefix_foldlM_visitDependency (fun s name s' h => ih h) ht
      exact hprefix

/-- A visit loses no problem that was found. -/
theorem prefix_foldlM_visit {names : List Str} {s s' : Visits}
    (h : names.foldlM (visit components depth) s = .ok s') : s.problems <+: s'.problems := by
  induction names generalizing s with
  | nil =>
    cases h
    exact List.prefix_rfl
  | cons name names ih =>
    obtain ⟨t, ht, hrest⟩ := foldlM_cons_ok_iff.mp h
    exact (prefix_visit ht).trans (ih hrest)

section

variable (h : validateComponents depth root components excluded = .ok ([], n, m))

include h

/-- Where nothing is reported, every component is sound. -/
theorem sound_of_validate {name : Str} {value : Json} (hlookup : lookupField name components = some value) :
    ∃ item k, value = .obj item ∧ Sound components name item k := by
  obtain ⟨apps, found, s, -, hfound, hs, hproblems, -, -⟩ := validateComponents_ok_iff.mp h
  obtain ⟨hnil, -⟩ := List.append_eq_nil_iff.mp hproblems
  have hbefore := prefix_foldlM_visit hs
  rw [hnil, List.prefix_nil, List.append_eq_nil_iff] at hbefore
  obtain ⟨ps, hps, hcheck⟩ := exists_mem_of_mapM_ok hfound (mem_of_lookupField hlookup)
  rw [List.flatten_eq_nil_iff.mp hbefore.2 ps hps] at hcheck
  exact sound_of_checkComponent hcheck

/-- A dependency is a known component of a lower wave. -/
theorem waveOf_lt_of_mem {name : Str} {item : Fields} {deps : List Json} {dep : Json}
    (hlookup : lookupField name components = some (.obj item))
    (hdeps : lookupField (lit "depends_on") item = some (.arr deps)) (hdep : dep ∈ deps) :
    ∃ dependency v w, dep = .str dependency ∧ dependency ∈ components.map Prod.fst ∧
      waveOf components name = some v ∧ waveOf components dependency = some w ∧ w < v := by
  obtain ⟨_, v, hitem, hsound⟩ := sound_of_validate h hlookup
  cases hitem
  have hcheck := hsound.checked dep (by rwa [get, hdeps, Option.getD_some, listOf])
  unfold checkDependency at hcheck
  split_ifs at hcheck with hhash
  rw [hsound.wave] at hcheck
  cases hknown : lookupComponent components dep with
  | none => simp [hknown] at hcheck
  | some entry =>
    obtain ⟨dependency, value⟩ := entry
    obtain ⟨rfl, hother⟩ := lookupComponent_eq_some_iff.mp hknown
    obtain ⟨other, w, rfl, hsound'⟩ := sound_of_validate h hother
    have hint := hsound'.wave
    have hne : get "wave" other ≠ .null := by
      intro hnull
      rw [hnull] at hint
      cases hint
    simp only [hknown, checkWaves, lookup_of_get rfl hne, Option.getD_some, number_of_intOf hint, Except.ok.injEq,
      ge_finite_iff, ite_eq_right_iff, List.cons_ne_nil, imp_false, not_le] at hcheck
    refine ⟨dependency, v, w, rfl, exists_lookupField_iff.mp ⟨_, hother⟩, ?_, ?_, hcheck⟩
    · simp only [waveOf, hlookup, hsound.wave]
    · simp only [waveOf, hother, hint]

/-- A dependency has an earlier wave, -/
theorem waveOf_lt_of_dependsOn {name dependency : Str} (hdep : DependsOn components name dependency) :
    ∃ v w, waveOf components name = some v ∧ waveOf components dependency = some w ∧ w < v := by
  obtain ⟨item, deps, hlookup, hdeps, hmem⟩ := hdep
  obtain ⟨_, v, w, hname, -, hv, hw, hlt⟩ := waveOf_lt_of_mem h hlookup hdeps hmem
  obtain rfl := Json.str.inj hname
  exact ⟨v, w, hv, hw, hlt⟩

/-- and so has a dependency of dependencies; -/
theorem waveOf_lt_of_transGen {name dependency : Str}
    (hpath : Relation.TransGen (DependsOn components) name dependency) :
    ∃ v w, waveOf components name = some v ∧ waveOf components dependency = some w ∧ w < v := by
  induction hpath with
  | single hdep => exact waveOf_lt_of_dependsOn h hdep
  | tail _ hdep ih =>
    obtain ⟨v, u, hv, hu, huv⟩ := ih
    obtain ⟨u', w, hu', hw, hwu⟩ := waveOf_lt_of_dependsOn h hdep
    cases hu.symm.trans hu'
    exact ⟨v, w, hv, hw, hwu.trans huv⟩

/-- so none depends on itself. -/
theorem not_cyclic_of_validate : ¬ Cyclic components := by
  rintro ⟨name, hcycle⟩
  have hle : Edge components ≤ DependsOn components := fun _ _ hedge => hedge.1
  have hpath := Relation.TransGen.mono hle _ _ hcycle
  obtain ⟨v, w, hv, hw, hlt⟩ := waveOf_lt_of_transGen h hpath
  cases hv.symm.trans hw
  exact hlt.false

end

end

/-! ### Upgrade waves -/

/-- On a wave model the visits end, and a cycle is reported if and only if there is one. Where nothing
    is reported, there is none, all dependencies are known, and waves go down along them. -/
theorem waves_validated (root : Root) :
    (∀ components, WaveModel components → ∀ depth, components.length < depth → ∀ problems, ∃ s found,
      (components.map Prod.fst).foldlM (visit components depth) ⟨fun _ => none, problems⟩ = .ok s ∧
        s.problems = problems ++ found.map .cycle ∧ (found ≠ [] ↔ Cyclic components)) ∧
    (∀ components excluded depth, Reads root components excluded → WaveModel components → components.length < depth →
      (∃ why, validate depth root = .error (.value why)) ∨
      ∃ problems n m, validate depth root = .ok (problems, n, m) ∧
        ((∃ name, .cycle name ∈ problems) ↔ Cyclic components)) ∧
    ∀ depth n m, validate depth root = .ok ([], n, m) → ∃ components excluded, Reads root components excluded ∧
      ¬ Cyclic components ∧
      (∀ name ∈ components.map Prod.fst, ∃ item deps, lookupField name components = some (.obj item) ∧
        lookupField (lit "depends_on") item = some (.arr deps) ∧
        ∀ dep ∈ deps, ∃ dependency, dep = .str dependency ∧ dependency ∈ components.map Prod.fst) ∧
      ∀ name dependency, Relation.TransGen (DependsOn components) name dependency →
        ∃ v w, waveOf components name = some v ∧ waveOf components dependency = some w ∧ w < v := by
  refine ⟨fun components hmodel depth hdepth => hmodel.exists_visits hdepth, ?_, ?_⟩
  · intro components excluded depth hreads hmodel hdepth
    rw [validate_eq hreads]
    exact hmodel.validateComponents_cases hdepth root excluded
  · intro depth n m h
    obtain ⟨components, excluded, hreads⟩ := reads_of_validate h
    rw [validate_eq hreads] at h
    refine ⟨components, excluded, hreads, not_cyclic_of_validate h, ?_, fun _ _ => waveOf_lt_of_transGen h⟩
    intro name hname
    obtain ⟨value, hlookup⟩ := exists_lookupField_iff.mpr hname
    obtain ⟨item, _, rfl, hsound⟩ := sound_of_validate h hlookup
    obtain ⟨deps, hget⟩ := hsound.deps
    have hdeps := lookup_of_get hget (by simp)
    refine ⟨item, deps, hlookup, hdeps, fun dep hdep => ?_⟩
    obtain ⟨dependency, _, _, hname, hknown, -⟩ := waveOf_lt_of_mem h hlookup hdeps hdep
    exact ⟨dependency, hname, hknown⟩

/-- A component of the wave model. -/
def sampleItem (wave : Int) (deps : List String) : Json :=
  .obj [(lit "wave", .int wave), (lit "depends_on", .arr (deps.map fun dep => .str (lit dep))),
    (lit "strategy", .str (lit "rolling")), (lit "health_gate", .str (lit "docs/gate.md")),
    (lit "rollback_ref", .str (lit "docs/rollback.md"))]

def sampleRoot (components : Fields) : Root where
  model := .ok (.obj [(lit "components", .obj components), (lit "NOT_YET_MODELLED", .obj [])])
  hasTemplates := true
  yaml := [(lit "a.yaml", lit "kind: Application\nmetadata:\n  name: a\n"), (lit "b.yaml", lit "kind: Application\n  name: b")]
  yml := []
  is_file _ := true

def sampleOrder : Fields := [(lit "a", sampleItem 1 ["b"]), (lit "b", sampleItem 0 [])]

def sampleCycle : Fields := [(lit "a", sampleItem 1 ["b"]), (lit "b", sampleItem 0 ["a"])]

theorem waves_validated_sample : ¬ Cyclic sampleOrder ∧ Cyclic sampleCycle := by
  constructor
  · have hvalid : validate 3 (sampleRoot sampleOrder) = .ok ([], 2, 2) := by decide +kernel
    obtain ⟨components, excluded, ⟨data, hmodel, hcomponents, -⟩, hcyclic, -⟩ := (waves_validated _).2.2 3 2 2 hvalid
    cases hmodel
    cases hcomponents
    exact hcyclic
  · have hmodel : WaveModel sampleCycle := by
      intro entry hentry
      simp only [sampleCycle, List.mem_cons, List.not_mem_nil, or_false] at hentry
      obtain rfl | rfl := hentry
      · exact ⟨_, [lit "b"], .int 1, rfl, rfl, rfl, rfl⟩
      · exact ⟨_, [lit "a"], .int 0, rfl, rfl, rfl, rfl⟩
    have hvalid : validate 3 (sampleRoot sampleCycle) =
        .ok ([.waveOrder (lit "b") (.int 0) (lit "a") (.int 1), .cycle (lit "a")], 2, 2) := by decide +kernel
    have hcheck := (waves_validated (sampleRoot sampleCycle)).2.1 sampleCycle [] 3 ⟨_, rfl, rfl, rfl⟩ hmodel (by decide)
    obtain ⟨why, herror⟩ | ⟨problems, n, m, hresult, hiff⟩ := hcheck
    · cases hvalid.symm.trans herror
    · obtain ⟨rfl, -⟩ := Prod.mk.inj (Except.ok.inj (hvalid.symm.trans hresult))
      exact hiff.mp ⟨lit "a", by simp⟩

end narwhal.check_upgrade_waves
