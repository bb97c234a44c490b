import Narwhal.Portal.DependencyHealth
import Narwhal.Portal.ValkeyRuns

open jslib singleflight
open narwhal.portal.valkey narwhal.portal.cache_keys

namespace narwhal.portal.dependency_health

/-! ### What a run of the probes makes -/

theorem dependency_probeHttpDependency (dependency : DependencyName) (url : Option Text) (answer : HttpAnswer) (at_ : Int) :
    (probeHttpDependency dependency url answer at_).dependency = dependency := by
  unfold probeHttpDependency
  split
  · rfl
  · cases answer with
    | responded status =>
      dsimp only
      split_ifs <;> rfl
    | failed kind message => rfl
    | threw => rfl

theorem dependency_probeK8sDependency (a : KubernetesAnswers) (at_ : Int) :
    (probeK8sDependency a at_).dependency = .kubernetes := by
  unfold probeK8sDependency
  cases k8sProbeFetch a with
  | ok _ => rfl
  | error status =>
    cases status with
    | none =>
      dsimp only
      split_ifs <;> rfl
    | some status =>
      dsimp only
      split_ifs <;> rfl

theorem dependency_probeValkeyDependency (configured : Bool) (pong : Option Text) (at_ : Int) :
    (probeValkeyDependency configured pong at_).dependency = .valkey := by
  unfold probeValkeyDependency
  cases configured <;> cases pong <;> rfl

theorem dependencies_statuses (p : Probes) :
    p.statuses.map DependencyStatus.dependency = [.prometheus, .kubernetes, .argocd, .gitea, .keycloak, .valkey] := by
  simp [Probes.statuses, dependency_probeHttpDependency, dependency_probeK8sDependency, dependency_probeValkeyDependency]

/-- The live stream's status takes the place of the probe of Valkey. -/
theorem runDependencyProbes_cases (p : Probes) (now : Int) :
    (runDependencyProbes p now).dependencies = p.statuses ∨
      (getLiveStreamStatus p.liveStream.1 p.liveStream.2 now).state ≠ .ok ∧
        (runDependencyProbes p now).dependencies =
          p.statuses.set 5 (getLiveStreamStatus p.liveStream.1 p.liveStream.2 now) := by
  have hindex : p.statuses.findIdx? (·.dependency = .valkey) = some 5 := by
    simp [Probes.statuses, dependency_probeHttpDependency, dependency_probeK8sDependency, dependency_probeValkeyDependency,
      List.findIdx?_cons]
  unfold runDependencyProbes
  simp only [hindex]
  split_ifs with hlive
  · exact .inr ⟨hlive.1, rfl⟩
  · exact .inl rfl

theorem dependencies_runDependencyProbes (p : Probes) (now : Int) :
    (runDependencyProbes p now).dependencies.map DependencyStatus.dependency =
      [.prometheus, .kubernetes, .argocd, .gitea, .keycloak, .valkey] := by
  obtain h | ⟨_, h⟩ := runDependencyProbes_cases p now
  · rw [h, dependencies_statuses]
  · rw [h, List.map_set, dependencies_statuses]
    rfl

theorem isValidStatus_json (s : DependencyStatus) : isValidStatus s.json = true := by
  have hdependency : s.json.getString "dependency".toList = some s.dependency.text := rfl
  have hstate : s.json.getString "state".toList = some s.state.text := rfl
  have hobservedAt : s.json.getString "observedAt".toList = some s.observedAt := rfl
  have hknown : s.dependency ∈ KNOWN_DEPENDENCIES := by cases s.dependency <;> decide
  have hknownState : s.state ∈ KNOWN_STATES := by cases s.state <;> decide
  rw [isValidStatus, hdependency, hstate, hobservedAt]
  simp only [Option.any_some, Option.isSome_some, Bool.and_true, Bool.and_eq_true, List.contains_iff_mem]
  exact ⟨List.mem_map_of_mem hknown, List.mem_map_of_mem hknownState⟩

/-- A snapshot that has the core dependencies is read back from the cache. -/
theorem isValidSnapshot_json {s : DependencyHealthSnapshot}
    (hcore : ∀ name ∈ CORE_DEPENDENCIES, name ∈ s.dependencies.map DependencyStatus.dependency) :
    isValidSnapshot s.json = true := by
  have hdependencies : isValidSnapshot s.json = (true && (s.dependencies.map DependencyStatus.json).length ≠ 0 &&
      (s.dependencies.map DependencyStatus.json).all isValidStatus && CORE_DEPENDENCIES.all fun name =>
        (s.dependencies.map DependencyStatus.json).any fun d => d.getString "dependency".toList = some name.text) := rfl
  rw [hdependencies]
  simp only [List.length_map, Bool.true_and, Bool.and_eq_true, decide_eq_true_eq, List.all_eq_true, List.any_eq_true]
  refine ⟨⟨fun hlength => ?_, fun entry hentry => ?_⟩, fun name hname => ?_⟩
  · have hmem : DependencyName.kubernetes ∈ s.dependencies.map DependencyStatus.dependency := hcore _ (by decide)
    rw [List.length_eq_zero_iff.mp hlength] at hmem
    cases hmem
  · obtain ⟨status, _, rfl⟩ := List.mem_map.mp hentry
    exact isValidStatus_json status
  · obtain ⟨status, hstatus, rfl⟩ := List.mem_map.mp (hcore name hname)
    exact ⟨status.json, List.mem_map_of_mem hstatus, rfl⟩

theorem isValidSnapshot_runDependencyProbes (p : Probes) (now : Int) :
    isValidSnapshot (runDependencyProbes p now).json = true := by
  refine isValidSnapshot_json fun name hname => ?_
  rw [dependencies_runDependencyProbes]
  revert name
  decide

theorem aggregateState_eq_ok_iff (statuses : List DependencyStatus) :
    aggregateState statuses = "ok".toList ↔
      statuses ≠ [] ∧ ∀ status ∈ statuses, status.state = .ok ∨ status.state = .empty := by
  unfold aggregateState
  split_ifs with hempty hok hcore
  · exact iff_of_false (by decide) fun h => h.1 (List.length_eq_zero_iff.mp hempty)
  · refine iff_of_true rfl ⟨fun hnil => hempty (hnil ▸ rfl), ?_⟩
    simpa using hok
  · exact iff_of_false (by decide) fun h => hok (by simpa using h.2)
  · exact iff_of_false (by decide) fun h => hok (by simpa using h.2)

/-- No probe has an empty state. -/
theorem state_runDependencyProbes_ne_empty (p : Probes) (now : Int) :
    ∀ d ∈ (runDependencyProbes p now).dependencies, d.state ≠ .empty := by
  have hhttp : ∀ dependency url answer at_, (probeHttpDependency dependency url answer at_).state ≠ .empty := by
    intro dependency url answer at_
    unfold probeHttpDependency
    cases answer with
    | responded status =>
      dsimp only
      split_ifs <;> simp
    | failed kind message =>
      dsimp only
      split_ifs <;> simp
    | threw =>
      dsimp only
      split_ifs <;> simp
  have hkubernetes : (probeK8sDependency p.kubernetes.1 p.kubernetes.2).state ≠ .empty := by
    unfold probeK8sDependency
    cases k8sProbeFetch p.kubernetes.1 with
    | ok _ => simp
    | error status =>
      cases status with
      | none =>
        dsimp only
        split_ifs <;> simp
      | some status =>
        dsimp only
        split_ifs <;> simp
  have hvalkey : (probeValkeyDependency p.valkey.1.1 p.valkey.1.2 p.valkey.2).state ≠ .empty := by
    unfold probeValkeyDependency
    cases p.valkey.1.2 with
    | none =>
      dsimp only
      split_ifs <;> simp
    | some pong =>
      dsimp only
      split_ifs <;> simp
  have hlive : (getLiveStreamStatus p.liveStream.1 p.liveStream.2 now).state ≠ .empty := by
    unfold getLiveStreamStatus
    dsimp only
    split_ifs <;> simp
  have hstatuses : ∀ d ∈ p.statuses, d.state ≠ .empty := by
    simp only [Probes.statuses, List.forall_mem_cons]
    exact ⟨hhttp _ _ _ _, hkubernetes, hhttp _ _ _ _, hhttp _ _ _ _, hhttp _ _ _ _, hvalkey, List.forall_mem_nil _⟩
  intro d hd
  obtain h | ⟨_, h⟩ := runDependencyProbes_cases p now
  · exact hstatuses d (h ▸ hd)
  · rw [h] at hd
    obtain hd | rfl := List.mem_or_eq_of_mem_set hd
    · exact hstatuses d hd
    · exact hlive

theorem aggregateState_runDependencyProbes (p : Probes) (now : Int) :
    aggregateState (runDependencyProbes p now).dependencies = "ok".toList ↔
      ∀ d ∈ (runDependencyProbes p now).dependencies, d.state = .ok := by
  rw [aggregateState_eq_ok_iff]
  constructor
  · rintro ⟨_, hok⟩ d hd
    exact (hok d hd).resolve_right (state_runDependencyProbes_ne_empty p now d hd)
  · refine fun hok => ⟨fun hnil => ?_, fun d hd => .inl (hok d hd)⟩
    have hnames := dependencies_runDependencyProbes p now
    rw [hnil] at hnames
    cases hnames

/-! ### Calls of every process -/

/-- A snapshot is kept where it is not empty and every state of it is "ok". -/
def isKept (s : DependencyHealthSnapshot) : Bool := s.dependencies.length > 0 ∧ s.dependencies.all fun d => d.state = .ok

/-- `getDependencyHealthSnapshot`: the cache is read before the slot is, and the call that started the
    probes writes what they made after the slot is cleared. -/
def getDependencyHealthSnapshot (ι : Type) : Scheme ι Probes DependencyHealthSnapshot where
  place := .around .leader
  looks _ := true
  work p now := some (runDependencyProbes p now)
  accepts s := isValidSnapshot s.json
  keeps := isKept
  live _ _ written now := now < written + SNAPSHOT_CACHE_TTL_SECONDS * 1000

/-- `cacheTtl("healthSummary")` -/
def healthSummaryTtl : Nat := 20

/-- `getDependencyHealthSummary`: its run waits for a snapshot, and writes before the slot is cleared. -/
def getDependencyHealthSummary (ι : Type) : Scheme ι DependencyHealthSnapshot AggregateDependencyHealth where
  place := .around .run
  looks _ := true
  work snapshot now := some (aggregateDependencyHealth snapshot.dependencies now)
  accepts _ := true
  keeps _ := true
  live _ _ written now := now < written + healthSummaryTtl * 1000

theorem DependencyStatus.json_proper {numeral : Text → Option Number} (status : DependencyStatus) : status.json.Proper numeral := by
  rw [DependencyStatus.json]
  cases status.reason <;> cases status.detail <;> simp [Json.Proper, ProperFields]

/-- A snapshot is written with strings only, under different keys. -/
theorem DependencyHealthSnapshot.json_proper {numeral : Text → Option Number} (s : DependencyHealthSnapshot) :
    s.json.Proper numeral := by
  have hstatuses : ProperItems numeral (s.dependencies.map DependencyStatus.json) := by
    induction s.dependencies with
    | nil => trivial
    | cons status statuses ih => exact ⟨status.json_proper, ih⟩
  exact ⟨by simp, trivial, hstatuses, trivial⟩

/-- What a connected client reads of a snapshot that it wrote. -/
theorem cacheGet_cacheSet_snapshot {ι : Type} {numeral : Text → Option Number} {cache : Cache} (h : cache.isValkeyConnected = true)
    (s : DependencyHealthSnapshot) (made : Nat) {written now : Nat} :
    ((cache.cacheSet cacheKeys.healthDependencies s.json SNAPSHOT_CACHE_TTL_SECONDS written .served).cacheGet numeral
      cacheKeys.healthDependencies now .served).1 =
        if (getDependencyHealthSnapshot ι).live s made written now then s.json else .null := by
  have hscheme : (getDependencyHealthSnapshot ι).live s made written now =
      decide (now < written + SNAPSHOT_CACHE_TTL_SECONDS * 1000) := rfl
  rw [hscheme]
  by_cases hlive : now < written + SNAPSHOT_CACHE_TTL_SECONDS * 1000
  · rw [decide_eq_true hlive, if_pos rfl]
    exact (@works_of_connected numeral (fun _ => none) cache h).get _ _ _ _ _ [] s.json_proper (by decide) hlive
      (List.forall_mem_nil _) trivial
  · have hgone : (cache.cacheSet cacheKeys.healthDependencies s.json SNAPSHOT_CACHE_TTL_SECONDS written .served).data.get
        cacheKeys.healthDependencies now = none := by
      have hother : cacheKeys.healthDependencies ≠ metaKey cacheKeys.healthDependencies := metaKey_ne _
      have httl : 0 < SNAPSHOT_CACHE_TTL_SECONDS := by decide
      simp [Cache.cacheSet, h, Answer.apply, Data.get, Data.set, hother, httl, hlive]
    rw [decide_eq_false hlive, if_neg Bool.false_ne_true]
    unfold Cache.cacheGet
    simp [hgone]

section

variable {ι π : Type} [DecidableEq ι] [DecidableEq π]

/-- How old a snapshot may be that a call returns: either the probes had not ended when the call began, or
    every state is "ok" and the snapshot was written less than ten seconds before it was read. -/
theorem snapshot_fresh {s : State ι π Probes DependencyHealthSnapshot} (h : Reachable (getDependencyHealthSnapshot ι) s)
    {c : ι} {call : Call ι π Probes DependencyHealthSnapshot} {snapshot : DependencyHealthSnapshot}
    (hcall : s.calls c = some call) (hresult : call.result = some snapshot) :
    ∃ m ∈ s.made, snapshot = runDependencyProbes m.input m.time ∧
      (Fresh s call m ∨
        (∀ d ∈ snapshot.dependencies, d.state = .ok) ∧ ∃ written read, m.time ≤ written ∧ written ≤ read ∧
          read < written + 10000 ∧ call.since ≤ read ∧ read ≤ s.now) := by
  obtain ⟨m, hm, rfl, hfresh⟩ | ⟨entry, read, since, hfound, rfl, hsince⟩ := h.result hcall hresult
  · exact ⟨m, hm.1, (Option.some.inj hm.2.1).symm, .inl hfresh⟩
  · obtain ⟨_, rfl⟩ | ⟨hplace, _⟩ := hsince
    · have hkept := hfound.sound.keeps
      have hlive := hfound.live
      simp only [getDependencyHealthSnapshot, isKept, decide_eq_true_eq, List.all_eq_true] at hkept hlive
      exact ⟨entry.toMade, hfound.sound.made.1, (Option.some.inj hfound.sound.made.2.1).symm, .inr ⟨hkept.2, entry.written,
        read, hfound.sound.written.1, hfound.after.2, hlive, hfound.after.1, hfound.past⟩⟩
    · cases hplace

end

/-- Every dependency answers. -/
def healthyProbes : Probes :=
  let http : Option Text × HttpAnswer × Int := (some ['u'], .responded 200, 0)
  ⟨http, (⟨some 200, none, false⟩, 0), http, http, http, ((true, some "PONG".toList), 0), (none, 0)⟩

/-- Two calls share a run, and a third one finds what the first one wrote. -/
def sampleEvents : List (Event Nat Unit Probes) := [.call 0 (), .call 1 (), .read 0 true, .read 1 true, .arrive 0,
  .arrive 1, .work 0 healthyProbes, .settle 0, .wake 0, .write 0 true, .wake 1, .tick 5000, .call 2 (), .read 2 true, .arrive 2]

def sampleState : State Nat Unit Probes DependencyHealthSnapshot :=
  ((State.initial Nat Unit Probes DependencyHealthSnapshot).run (getDependencyHealthSnapshot Nat) sampleEvents).getD
    (State.initial _ _ _ _)

theorem reachable_sampleState : Reachable (getDependencyHealthSnapshot Nat) sampleState := ⟨sampleEvents, rfl⟩

theorem snapshot_fresh_sample :
    ∃ m ∈ sampleState.made, runDependencyProbes healthyProbes 0 = runDependencyProbes m.input m.time ∧
      (Fresh sampleState ⟨(), 5000, .served ⟨⟨0, healthyProbes, 0, runDependencyProbes healthyProbes 0⟩, 0⟩ 5000⟩ m ∨
        (∀ d ∈ (runDependencyProbes healthyProbes 0).dependencies, d.state = .ok) ∧ ∃ written read, m.time ≤ written ∧
          written ≤ read ∧ read < written + 10000 ∧ 5000 ≤ read ∧ read ≤ sampleState.now) :=
  @snapshot_fresh Nat Unit _ _ sampleState reachable_sampleState 2
    ⟨(), 5000, .served ⟨⟨0, healthyProbes, 0, runDependencyProbes healthyProbes 0⟩, 0⟩ 5000⟩ _ rfl rfl

section

variable {ι π : Type} [DecidableEq ι] [DecidableEq π]

/-- The runs of the probes in a process follow one another, and a call never waits for a run that the
    process has forgotten. -/
theorem probes_coalesced {s : State ι π Probes DependencyHealthSnapshot} (h : Reachable (getDependencyHealthSnapshot ι) s) :
    (∀ r r' run run', s.runs r = some run → s.runs r' = some run' → r ≠ r' → run.process = run'.process →
      Before run run' ∨ Before run' run) ∧
    ∀ c process since r, s.calls c = some ⟨process, since, .waiting r⟩ → s.slot process = some r ∨
      ∃ run settlement, s.runs r = some run ∧ run.process = process ∧ run.settlement = some settlement ∧
        since ≤ settlement.1 :=
  ⟨h.apart, fun _ _ _ _ hcall => h.waiting hcall⟩

end

theorem probes_coalesced_sample :
    (∀ r r' run run', sampleState.runs r = some run → sampleState.runs r' = some run' → r ≠ r' →
      run.process = run'.process → Before run run' ∨ Before run' run) ∧
    ∀ c process since r, sampleState.calls c = some ⟨process, since, .waiting r⟩ → sampleState.slot process = some r ∨
      ∃ run settlement, sampleState.runs r = some run ∧ run.process = process ∧ run.settlement = some settlement ∧
        since ≤ settlement.1 :=
  probes_coalesced reachable_sampleState

section

variable {ι π : Type} [DecidableEq ι] [DecidableEq π]

/-! ### Snapshots and summaries -/

/-- The calls for snapshots, of requests and of the runs of summaries, and those for summaries. -/
structure Health (ι π : Type) where
  snapshots : State (ι ⊕ ι) π Probes DependencyHealthSnapshot
  summaries : State ι π DependencyHealthSnapshot AggregateDependencyHealth

def Health.initial (ι π : Type) : Health ι π := ⟨State.initial _ _ _ _, State.initial _ _ _ _⟩

inductive HealthEvent (ι π : Type) where
  | tick (duration : Nat)
  | snapshot (event : Event (ι ⊕ ι) π Probes)
  | summary (event : Event ι π DependencyHealthSnapshot)
  /-- The run of a summary calls for a snapshot. -/
  | begin (r : ι)
  /-- It goes on with the snapshot. -/
  | resume (r : ι)

/-- The clock is one, and only a run of a summary begins its own call. -/
def isSnapshotEvent : Event (ι ⊕ ι) π Probes → Bool
  | .tick _ => false
  | .call (.inr _) _ => false
  | _ => true

/-- A run of a summary goes on with its own snapshot only. -/
def isSummaryEvent : Event ι π DependencyHealthSnapshot → Bool
  | .tick _ => false
  | .work _ _ => false
  | _ => true

def Health.stepSnapshots (s : Health ι π) (event : Event (ι ⊕ ι) π Probes) : Option (Health ι π) :=
  (s.snapshots.step (getDependencyHealthSnapshot (ι ⊕ ι)) event).map fun snapshots => ⟨snapshots, s.summaries⟩

def Health.stepSummaries (s : Health ι π) (event : Event ι π DependencyHealthSnapshot) : Option (Health ι π) :=
  (s.summaries.step (getDependencyHealthSummary ι) event).map fun summaries => ⟨s.snapshots, summaries⟩

def Health.step (s : Health ι π) : HealthEvent ι π → Option (Health ι π)
  | .tick duration => (s.stepSnapshots (.tick duration)).bind fun t => t.stepSummaries (.tick duration)
  | .snapshot event => if isSnapshotEvent event then s.stepSnapshots event else none
  | .summary event => if isSummaryEvent event then s.stepSummaries event else none
  | .begin r =>
    match s.summaries.runs r with
    | some ⟨process, _, .working⟩ => s.stepSnapshots (.call (.inr r) process)
    | _ => none
  | .resume r =>
    match (s.snapshots.calls (.inr r)).bind Call.result with
    | some snapshot => s.stepSummaries (.work r snapshot)
    | none => none

/-- The snapshot call of a summary's run begins after the run, and what a run makes is made of what its
    call returned. -/
structure Linked (s : Health ι π) : Prop where
  snapshots : Reachable (getDependencyHealthSnapshot (ι ⊕ ι)) s.snapshots
  summaries : Reachable (getDependencyHealthSummary ι) s.summaries
  begun : ∀ r call, s.snapshots.calls (.inr r) = some call → ∃ run, s.summaries.runs r = some run ∧
    run.process = call.process ∧ run.since ≤ call.since
  made : ∀ m ∈ s.summaries.made, ∃ call, s.snapshots.calls (.inr m.run) = some call ∧ call.result = some m.input

theorem Linked.stepSnapshots {s t : Health ι π} (h : Linked s) {event : Event (ι ⊕ ι) π Probes}
    (hstep : s.stepSnapshots event = some t)
    (hbegun : ∀ r process, event = .call (.inr r) process → ∃ run, s.summaries.runs r = some run ∧
      run.process = process ∧ run.since ≤ s.snapshots.now) : Linked t := by
  obtain ⟨snapshots, hsnapshots, rfl⟩ := Option.map_eq_some_iff.mp hstep
  refine ⟨h.snapshots.step hsnapshots, h.summaries, fun r call hcall => ?_, fun m hm => ?_⟩
  · obtain ⟨old, hold, hprocess, hsince⟩ | ⟨hevent, hsince⟩ := calls_of_step hsnapshots hcall
    · rw [hprocess, hsince]
      exact h.begun r old hold
    · rw [hsince]
      exact hbegun r call.process hevent
  · obtain ⟨call, hcall, hresult⟩ := h.made m hm
    obtain ⟨call', hcall', _, _, hkeeps⟩ := step_call hsnapshots hcall
    exact ⟨call', hcall', hkeeps _ hresult⟩

theorem Linked.stepSummaries {s t : Health ι π} (h : Linked s) {event : Event ι π DependencyHealthSnapshot}
    (hstep : s.stepSummaries event = some t)
    (hmade : ∀ r input, event = .work r input → ∃ call, s.snapshots.calls (.inr r) = some call ∧
      call.result = some input) : Linked t := by
  obtain ⟨summaries, hsummaries, rfl⟩ := Option.map_eq_some_iff.mp hstep
  refine ⟨h.snapshots, h.summaries.step hsummaries, fun r call hcall => ?_, fun m hm => ?_⟩
  · obtain ⟨run, hrun, hprocess, hsince⟩ := h.begun r call hcall
    obtain ⟨run', hrun', hprocess', hsince'⟩ := h.summaries.sound.step_run hsummaries hrun
    exact ⟨run', hrun', hprocess'.trans hprocess, hsince' ▸ hsince⟩
  · obtain hsame | ⟨r, input, a, hevent, hnew⟩ := (step_moves hsummaries).2.2.1
    · exact h.made m (hsame ▸ hm)
    · have hm' : m ∈ summaries.made := hm
      rw [hnew] at hm'
      obtain rfl | hm' := List.mem_cons.mp hm'
      · exact hmade r input hevent
      · exact h.made m hm'

/-- An event that is no tick leaves the clock alone. -/
theorem now_step {ι ω α : Type} [DecidableEq ι] {σ : Scheme ι ω α} {s s' : State ι π ω α} {event : Event ι π ω}
    (hstep : s.step σ event = some s') (htick : ∀ duration, event ≠ .tick duration) : s'.now = s.now := by
  obtain hnow | ⟨duration, hevent, _⟩ := (step_moves hstep).2.2.2
  · exact hnow
  · exact absurd hevent (htick duration)

/-- The invariant of the two. -/
structure Coupled (s : Health ι π) : Prop extends Linked s where
  now : s.snapshots.now = s.summaries.now

theorem Coupled.stepSnapshots {s t : Health ι π} (h : Coupled s) {event : Event (ι ⊕ ι) π Probes}
    (hstep : s.stepSnapshots event = some t) (htick : ∀ duration, event ≠ .tick duration)
    (hbegun : ∀ r process, event = .call (.inr r) process → ∃ run, s.summaries.runs r = some run ∧
      run.process = process) : Coupled t := by
  refine ⟨h.toLinked.stepSnapshots hstep fun r process hevent => ?_, ?_⟩
  · obtain ⟨run, hrun, hprocess⟩ := hbegun r process hevent
    exact ⟨run, hrun, hprocess, h.now ▸ (h.summaries.sound.runs r run hrun).1⟩
  · obtain ⟨snapshots, hsnapshots, rfl⟩ := Option.map_eq_some_iff.mp hstep
    exact (now_step hsnapshots htick).trans h.now

theorem Coupled.stepSummaries {s t : Health ι π} (h : Coupled s) {event : Event ι π DependencyHealthSnapshot}
    (hstep : s.stepSummaries event = some t) (htick : ∀ duration, event ≠ .tick duration)
    (hmade : ∀ r input, event = .work r input → ∃ call, s.snapshots.calls (.inr r) = some call ∧
      call.result = some input) : Coupled t := by
  refine ⟨h.toLinked.stepSummaries hstep hmade, ?_⟩
  obtain ⟨summaries, hsummaries, rfl⟩ := Option.map_eq_some_iff.mp hstep
  exact h.now.trans (now_step hsummaries htick).symm

theorem Coupled.step {s t : Health ι π} (h : Coupled s) {event : HealthEvent ι π} (hstep : s.step event = some t) :
    Coupled t := by
  cases event with
  | tick duration =>
    rw [Health.step, Option.bind_eq_some_iff] at hstep
    obtain ⟨u, hu, ht⟩ := hstep
    have hlinked : Linked u := h.toLinked.stepSnapshots hu fun _ _ hevent => by cases hevent
    refine ⟨hlinked.stepSummaries ht fun _ _ hevent => (by cases hevent), ?_⟩
    cases hu
    cases ht
    exact congrArg (· + duration) h.now
  | snapshot event =>
    obtain ⟨hevent, hstep⟩ := Option.ite_none_right_eq_some.mp hstep
    refine h.stepSnapshots hstep ?_ ?_
    · rintro duration rfl
      cases hevent
    · rintro r process rfl
      cases hevent
  | summary event =>
    obtain ⟨hevent, hstep⟩ := Option.ite_none_right_eq_some.mp hstep
    refine h.stepSummaries hstep ?_ ?_
    · rintro duration rfl
      cases hevent
    · rintro r input rfl
      cases hevent
  | begin r =>
    simp only [Health.step] at hstep
    split at hstep
    · rename_i process since hrun
      refine h.stepSnapshots hstep (fun _ hevent => by cases hevent) fun r' process' hevent => ?_
      cases hevent
      exact ⟨_, hrun, rfl⟩
    · cases hstep
  | resume r =>
    simp only [Health.step] at hstep
    split at hstep
    · rename_i snapshot hsnapshot
      refine h.stepSummaries hstep (fun _ hevent => by cases hevent) fun r' input hevent => ?_
      cases hevent
      exact Option.bind_eq_some_iff.mp hsnapshot
    · cases hstep

theorem coupled_initial : Coupled (Health.initial ι π) where
  snapshots := ⟨[], rfl⟩
  summaries := ⟨[], rfl⟩
  begun _ _ hcall := by cases hcall
  made _ hm := by cases hm
  now := rfl

/-- The state after these events, where each of them is possible. -/
def Health.run (s : Health ι π) (events : List (HealthEvent ι π)) : Option (Health ι π) := events.foldlM Health.step s

theorem Coupled.run {events : List (HealthEvent ι π)} {s t : Health ι π} (h : Coupled s) (hrun : s.run events = some t) :
    Coupled t := by
  induction events generalizing s with
  | nil =>
    cases hrun
    exact h
  | cons event events ih =>
    rw [Health.run, List.foldlM_cons, Option.bind_eq_bind, Option.bind_eq_some_iff] at hrun
    obtain ⟨u, hu, hrun⟩ := hrun
    exact ih (h.step hu) hrun

/-- What a call for a summary returns is the aggregate of a snapshot that the run of the summary was given
    after it had begun: either that run had not ended when the call began, or the summary was written less
    than twenty seconds before it was read. -/
theorem summary_fresh {events : List (HealthEvent ι π)} {s : Health ι π}
    (hrun : (Health.initial ι π).run events = some s) {c : ι}
    {call : Call ι π DependencyHealthSnapshot AggregateDependencyHealth} {summary : AggregateDependencyHealth}
    (hcall : s.summaries.calls c = some call) (hresult : call.result = some summary) :
    ∃ m run ask, s.summaries.runs m.run = some run ∧ s.snapshots.calls (.inr m.run) = some ask ∧
      run.since ≤ ask.since ∧ ask.process = run.process ∧ ask.result = some m.input ∧
      summary = aggregateDependencyHealth m.input.dependencies m.time ∧
      (summary.state = "ok".toList ↔ ∀ d ∈ m.input.dependencies, d.state = .ok) ∧
      (Fresh s.summaries call m ∨ ∃ written read, m.time ≤ written ∧ written ≤ read ∧ read < written + 20000 ∧
        call.since ≤ read ∧ read ≤ s.summaries.now) := by
  have hcoupled : Coupled s := coupled_initial.run hrun
  have hmade : ∀ m, MadeOk (getDependencyHealthSummary ι) s.summaries m → ∃ run ask, s.summaries.runs m.run = some run ∧
      s.snapshots.calls (.inr m.run) = some ask ∧ run.since ≤ ask.since ∧ ask.process = run.process ∧
      ask.result = some m.input ∧ m.value = aggregateDependencyHealth m.input.dependencies m.time ∧
      (m.value.state = "ok".toList ↔ ∀ d ∈ m.input.dependencies, d.state = .ok) := by
    rintro m ⟨hmem, hwork, _⟩
    obtain ⟨ask, hask, hresult⟩ := hcoupled.made m hmem
    obtain ⟨run, hrun, hprocess, hsince⟩ := hcoupled.begun m.run ask hask
    have hvalue : aggregateDependencyHealth m.input.dependencies m.time = m.value := Option.some.inj hwork
    refine ⟨run, ask, hrun, hask, hsince, hprocess.symm, hresult, hvalue.symm, ?_⟩
    obtain ⟨p, hp, hinput⟩ := hcoupled.snapshots.exists_made hask hresult
    have hprobes : runDependencyProbes p.input p.time = p.value := Option.some.inj hp.2.1
    rw [← hvalue, ← hinput, ← hprobes]
    exact aggregateState_runDependencyProbes p.input p.time
  obtain ⟨m, hm, rfl, hfresh⟩ | ⟨entry, read, since, hfound, rfl, hsince⟩ := hcoupled.summaries.result hcall hresult
  · obtain ⟨run, ask, hrun, hask, hbegan, hprocess, hinput, hvalue, hok⟩ := hmade m hm
    exact ⟨m, run, ask, hrun, hask, hbegan, hprocess, hinput, hvalue, hok, .inl hfresh⟩
  · obtain ⟨_, rfl⟩ | ⟨hplace, _⟩ := hsince
    · obtain ⟨run, ask, hrun, hask, hbegan, hprocess, hinput, hvalue, hok⟩ := hmade entry.toMade hfound.sound.made
      have hlive := hfound.live
      simp only [getDependencyHealthSummary, decide_eq_true_eq] at hlive
      exact ⟨entry.toMade, run, ask, hrun, hask, hbegan, hprocess, hinput, hvalue, hok, .inr ⟨entry.written, read,
        hfound.sound.written.1, hfound.after.2, hlive, hfound.after.1, hfound.past⟩⟩
    · cases hplace

end

/-- A call for a summary in an empty system. -/
def summaryEvents : List (HealthEvent Nat Unit) := [.summary (.call 0 ()), .summary (.read 0 true), .summary (.arrive 0),
  .begin 0, .snapshot (.read (.inr 0) true), .snapshot (.arrive (.inr 0)), .snapshot (.work (.inr 0) healthyProbes),
  .snapshot (.settle (.inr 0)), .snapshot (.wake (.inr 0)), .snapshot (.write (.inr 0) true), .resume 0,
  .summary (.writeRun 0 true), .summary (.settle 0), .summary (.wake 0)]

def summaryState : Health Nat Unit := ((Health.initial Nat Unit).run summaryEvents).getD (Health.initial Nat Unit)

/-- The summary of a snapshot at the start of the clock. -/
def summaryMade : Made Nat DependencyHealthSnapshot AggregateDependencyHealth :=
  ⟨0, runDependencyProbes healthyProbes 0, 0, aggregateDependencyHealth (runDependencyProbes healthyProbes 0).dependencies 0⟩

theorem summary_fresh_sample :
    ∃ m run ask, summaryState.summaries.runs m.run = some run ∧ summaryState.snapshots.calls (.inr m.run) = some ask ∧
      run.since ≤ ask.since ∧ ask.process = run.process ∧ ask.result = some m.input ∧
      summaryMade.value = aggregateDependencyHealth m.input.dependencies m.time ∧
      (summaryMade.value.state = "ok".toList ↔ ∀ d ∈ m.input.dependencies, d.state = .ok) ∧
      (Fresh summaryState.summaries ⟨(), 0, .shared 0 (.made summaryMade)⟩ m ∨ ∃ written read, m.time ≤ written ∧
        written ≤ read ∧ read < written + 20000 ∧ 0 ≤ read ∧ read ≤ summaryState.summaries.now) :=
  @summary_fresh Nat Unit _ _ summaryEvents summaryState rfl 0 ⟨(), 0, .shared 0 (.made summaryMade)⟩ summaryMade.value rfl rfl

end narwhal.portal.dependency_health
