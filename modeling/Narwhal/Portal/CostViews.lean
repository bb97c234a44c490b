import Narwhal.Lib.PromQL
import Narwhal.Portal.CacheKeys
import Narwhal.Portal.CostAttribution
import Narwhal.Portal.PromQueries
import Narwhal.Portal.Scope

open jslib promql
open narwhal.portal.cache_keys (CostScope)
open narwhal.portal.cost_attribution (PodUsage PodLabels PodOwner AttributionInput AttributionSource attributePods podKey)
open narwhal.portal.prometheus (TelemetryStatus)
open narwhal.portal.scope (EffectiveScope namespaceVisible)

namespace narwhal.portal.cost

/-! ### What the queries answer -/

/-- A row of a vector; a label that is empty is absent. -/
structure PromVectorResult where
  namespace_ : Option Text
  pod : Option Text
  value : ℚ
deriving DecidableEq

structure LabelsResult where
  namespace_ : Option Text
  pod : Option Text
  labels : PodLabels

/-- A row of `kube_pod_owner` or `kube_replicaset_owner`, with the name of what is owned. -/
structure OwnerResult where
  namespace_ : Option Text
  owned : Option Text
  ownerKind : Option Text
  ownerName : Option Text

/-- The settled queries; none is one that was rejected. -/
structure Answers where
  cpuByNamespace : Option (List PromVectorResult)
  memByNamespace : Option (List PromVectorResult)
  storageByNamespace : Option (List PromVectorResult)
  podCpu : Option (List PromVectorResult)
  podMem : Option (List PromVectorResult)
  podLabels : Option (List LabelsResult)
  podOwner : Option (List OwnerResult)
  replicaSetOwner : Option (List OwnerResult)

inductive QueryStatus where
  | ok | empty | unavailable
deriving DecidableEq

def vectorStatus {α : Type} : Option (List α) → QueryStatus
  | none => .unavailable
  | some [] => .empty
  | some (_ :: _) => .ok

/-- The state of the telemetry. -/
def combineTelemetry (statuses : List QueryStatus) : TelemetryStatus :=
  let okCount := statuses.count .ok
  let unavailableCount := statuses.count .unavailable
  if okCount = statuses.length then .ok
  else if 0 < okCount then .partial_
  else if unavailableCount = statuses.length then .unavailable
  else if unavailableCount = 0 then .empty
  else .partial_

/-! ### Items -/

structure CostUnitPrices where
  cpuHourly : ℚ
  memGbHourly : ℚ
  storageGbHourly : ℚ

/-- The arguments of `calcItem`, before anything is rounded. -/
structure CostUsage where
  id : Text
  cpuCores : ℚ
  memBytes : ℚ
  storageBytes : ℚ
deriving DecidableEq

structure CostItem where
  id : Text
  cores : ℚ
  cpuHourly : ℚ
  memGb : ℚ
  memHourly : ℚ
  storageGb : ℚ
  storageHourly : ℚ
  totalHourly : ℚ
  totalMonthly : ℚ
deriving DecidableEq

/-- `Math.round(x * scale) / scale`. -/
def roundTo (scale x : ℚ) : ℚ := ⌊x * scale + 1 / 2⌋ / scale

def calcItem (prices : CostUnitPrices) (u : CostUsage) : CostItem :=
  let cpuHourly := u.cpuCores * prices.cpuHourly
  let memGb := u.memBytes / 10 ^ 9
  let memHourly := memGb * prices.memGbHourly
  let storageGb := u.storageBytes / 10 ^ 9
  let storageHourly := storageGb * prices.storageGbHourly
  let totalHourly := cpuHourly + memHourly + storageHourly
  { id := u.id
    cores := roundTo 1000 u.cpuCores
    cpuHourly := roundTo 10000 cpuHourly
    memGb := roundTo 1000 memGb
    memHourly := roundTo 10000 memHourly
    storageGb := roundTo 1000 storageGb
    storageHourly := roundTo 10000 storageHourly
    totalHourly := roundTo 10000 totalHourly
    totalMonthly := roundTo 100 (totalHourly * 730) }

section

variable (effScope : EffectiveScope)

/-! ### Cluster and namespaces -/

def clusterUsage (cpuRes memRes storRes : List PromVectorResult) : CostUsage :=
  let visible := fun r : PromVectorResult => namespaceVisible (r.namespace_.getD []) effScope
  let sum := fun rows : List PromVectorResult => ((rows.filter visible).map PromVectorResult.value).sum
  ⟨"cluster".toList, sum cpuRes, sum memRes, sum storRes⟩

/-- The namespace that a row is counted for. -/
def countedNamespace (r : PromVectorResult) : Option Text :=
  r.namespace_.filter fun ns => ns ≠ [] && ns ≠ "unknown".toList && namespaceVisible ns effScope

def setRow (map : JsMap Text ℚ) (r : PromVectorResult) : JsMap Text ℚ :=
  match countedNamespace effScope r with
  | some ns => map.set ns r.value
  | none => map

def addRow (map : JsMap Text ℚ) (r : PromVectorResult) : JsMap Text ℚ :=
  match countedNamespace effScope r with
  | some ns => map.set ns ((map.get ns).getD 0 + r.value)
  | none => map

def keys (map : JsMap Text ℚ) : List Text := map.entries.map Prod.fst

def namespaceUsage (cpuRes memRes storRes : List PromVectorResult) : List CostUsage :=
  let cpuMap := cpuRes.foldl (setRow effScope) .empty
  let memMap := memRes.foldl (addRow effScope) .empty
  let storMap := storRes.foldl (addRow effScope) .empty
  (setOf (keys cpuMap ++ keys memMap ++ keys storMap)).map fun ns =>
    ⟨ns, (cpuMap.get ns).getD 0, (memMap.get ns).getD 0, (storMap.get ns).getD 0⟩

/-! ### Services -/

/-- The namespace of a row whose usage is attributed. -/
def usageNamespace (r : PromVectorResult) : Option Text :=
  r.namespace_.filter fun ns => ns ≠ [] && namespaceVisible ns effScope

/-- A row is added to the usage of its pod. -/
def addUsage (add : PodUsage ℚ → ℚ → PodUsage ℚ) (usageMap : JsMap Text (PodUsage ℚ)) (r : PromVectorResult) :
    JsMap Text (PodUsage ℚ) :=
  match usageNamespace effScope r with
  | some ns =>
    let pod := r.pod.getD []
    let key := podKey ns pod
    usageMap.set key (add ((usageMap.get key).getD ⟨ns, pod, 0, 0⟩) r.value)
  | none => usageMap

def addCpu (u : PodUsage ℚ) (x : ℚ) : PodUsage ℚ := { u with cpu := u.cpu + x }

def addMem (u : PodUsage ℚ) (x : ℚ) : PodUsage ℚ := { u with memBytes := u.memBytes + x }

def usageMap (cpuRes memRes : List PromVectorResult) : JsMap Text (PodUsage ℚ) :=
  memRes.foldl (addUsage effScope addMem) (cpuRes.foldl (addUsage effScope addCpu) .empty)

def nonEmptyText (x : Option Text) : Option Text := x.filter (· ≠ [])

def labelsMap (rows : List LabelsResult) : JsMap Text PodLabels :=
  rows.foldl (fun map r =>
    match nonEmptyText r.namespace_, nonEmptyText r.pod with
    | some ns, some pod => map.set (podKey ns pod) r.labels
    | _, _ => map) .empty

def ownersMap (rows : List OwnerResult) : JsMap Text PodOwner :=
  rows.foldl (fun map r =>
    match nonEmptyText r.namespace_, nonEmptyText r.owned, nonEmptyText r.ownerKind, nonEmptyText r.ownerName with
    | some ns, some owned, some kind, some name => map.set (podKey ns owned) ⟨kind, name⟩
    | _, _, _, _ => map) .empty

def attributionInput (a : Answers) : AttributionInput ℚ where
  usage := (usageMap effScope (a.podCpu.getD []) (a.podMem.getD [])).entries.map Prod.snd
  labels := labelsMap (a.podLabels.getD [])
  owners := ownersMap (a.podOwner.getD [])
  replicaSetOwners := ownersMap (a.replicaSetOwner.getD [])

def serviceUsage (a : Answers) : List CostUsage :=
  (attributePods (attributionInput effScope a)).map fun g => ⟨g.id, g.cpu, g.memBytes, 0⟩

/-! ### The views -/

def namespaceState (a : Answers) : TelemetryStatus :=
  combineTelemetry [vectorStatus a.cpuByNamespace, vectorStatus a.memByNamespace, vectorStatus a.storageByNamespace]

def serviceState (a : Answers) : TelemetryStatus := combineTelemetry [vectorStatus a.podCpu, vectorStatus a.podMem]

/-- What the items of `getCost` are made of. -/
def costUsage (scope : CostScope) (a : Answers) : List CostUsage :=
  let cpuRes := a.cpuByNamespace.getD []
  let memRes := a.memByNamespace.getD []
  let storRes := a.storageByNamespace.getD []
  match scope with
  | .cluster =>
    if namespaceState a = .unavailable ∨ namespaceState a = .empty then [] else [clusterUsage effScope cpuRes memRes storRes]
  | .namespace =>
    if namespaceState a = .unavailable ∨ namespaceState a = .empty then [] else namespaceUsage effScope cpuRes memRes storRes
  | .service => if serviceState a = .unavailable then [] else serviceUsage effScope a

/-- The items of `getCost`, the dearest first. -/
def getCost (prices : CostUnitPrices) (scope : CostScope) (a : Answers) : List CostItem :=
  ((costUsage effScope scope a).map (calcItem prices)).insertionSort fun x y => y.totalHourly ≤ x.totalHourly

end

/-! ### What the queries ask for -/

/-- The usage of a pod. -/
structure PodSeries where
  namespace_ : Option Text
  pod : Option Text
  value : ℚ

def PodSeries.ns (s : PodSeries) : Text := s.namespace_.getD []

/-- `sum by (namespace)`. -/
def byNamespace (series : List PodSeries) : List PromVectorResult :=
  (sumBy PodSeries.ns PodSeries.value series).map fun row => ⟨nonEmptyText (some row.1), none, row.2⟩

/-- `sum by (namespace, pod)`. -/
def byPod (series : List PodSeries) : List PromVectorResult :=
  (sumBy (fun s => (s.ns, s.pod.getD [])) PodSeries.value series).map fun row =>
    ⟨nonEmptyText (some row.1.1), nonEmptyText (some row.1.2), row.2⟩

/-- The state of Prometheus. -/
structure Usage where
  cpu : List PodSeries
  mem : List PodSeries
  storage : List PodSeries

/-- Every query answers, with rows in any order, and no vector of usage is empty. -/
structure Answered (usage : Usage) (a : Answers) : Prop where
  cpuByNamespace : ∃ rows, a.cpuByNamespace = some rows ∧ rows.Perm (byNamespace usage.cpu)
  memByNamespace : ∃ rows, a.memByNamespace = some rows ∧ rows.Perm (byNamespace usage.mem)
  storageByNamespace : ∃ rows, a.storageByNamespace = some rows ∧ rows.Perm (byNamespace usage.storage)
  podCpu : ∃ rows, a.podCpu = some rows ∧ rows.Perm (byPod usage.cpu)
  podMem : ∃ rows, a.podMem = some rows ∧ rows.Perm (byPod usage.mem)
  podLabels : a.podLabels.isSome = true
  podOwner : a.podOwner.isSome = true
  replicaSetOwner : a.replicaSetOwner.isSome = true
  notEmpty : usage.cpu ≠ [] ∧ usage.mem ≠ [] ∧ usage.storage ≠ []

section

variable {effScope : EffectiveScope} {series : List PodSeries} {rows : List PromVectorResult}

/-- The usage of the namespaces that a test lets through. -/
def usageOf (p : Text → Bool) (series : List PodSeries) : ℚ := ((series.filter fun s => p s.ns).map PodSeries.value).sum

theorem sum_rows_of_perm (p : PromVectorResult → Bool) {rows' : List PromVectorResult} (h : rows.Perm rows') :
    ((rows.filter p).map PromVectorResult.value).sum = ((rows'.filter p).map PromVectorResult.value).sum :=
  ((h.filter p).map _).sum_eq

theorem sum_byNamespace {p : PromVectorResult → Bool} {q : Text → Bool}
    (h : ∀ ns value, p ⟨nonEmptyText (some ns), none, value⟩ = q ns) :
    (((byNamespace series).filter p).map PromVectorResult.value).sum = usageOf q series := by
  rw [usageOf, ← sum_filter_sumBy PodSeries.ns PodSeries.value q series, byNamespace, List.filter_map, List.map_map]
  simp only [Function.comp_def, h]

theorem getD_nonEmptyText (x : Text) : (nonEmptyText (some x)).getD [] = x := by
  cases x <;> rfl

/-- The cluster's total is the usage of all visible namespaces, the one without a name among them. -/
theorem clusterTotal_eq (h : rows.Perm (byNamespace series)) :
    ((rows.filter fun r => namespaceVisible (r.namespace_.getD []) effScope).map PromVectorResult.value).sum =
      usageOf (fun ns => namespaceVisible ns effScope) series := by
  rw [sum_rows_of_perm _ h]
  exact sum_byNamespace fun ns _ => by rw [getD_nonEmptyText]

/-! ### Maps of totals -/

/-- The rows of a vector that are counted, by their namespaces. -/
def countedRows (effScope : EffectiveScope) (rows : List PromVectorResult) : List (Text × ℚ) :=
  rows.filterMap fun r => (countedNamespace effScope r).map fun ns => (ns, r.value)

theorem foldl_addRow_eq (map : JsMap Text ℚ) :
    rows.foldl (addRow effScope) map =
      (countedRows effScope rows).foldl (gather Prod.fst (fun _ => 0) fun acc row => acc + row.2) map := by
  rw [countedRows, List.foldl_filterMap]
  congr 1
  funext map r
  cases hns : countedNamespace effScope r <;> simp [addRow, gather, hns]

theorem total_addRow : total id (rows.foldl (addRow effScope) .empty) = ((countedRows effScope rows).map Prod.snd).sum := by
  rw [foldl_addRow_eq]
  exact (total_foldl_gather id Prod.snd (fun _ => rfl) (fun _ _ => rfl) _ _).trans (zero_add _)

/-- Where no two rows have one namespace, assigning a value is adding it. -/
theorem foldl_setRow_eq (hnodup : ((countedRows effScope rows).map Prod.fst).Nodup) {map : JsMap Text ℚ}
    (hnew : ∀ row ∈ countedRows effScope rows, map.get row.1 = none) :
    rows.foldl (setRow effScope) map = rows.foldl (addRow effScope) map := by
  induction rows generalizing map with
  | nil => rfl
  | cons r rows ih =>
    rw [List.foldl_cons, List.foldl_cons]
    cases hns : countedNamespace effScope r with
    | none =>
      have hcons : countedRows effScope (r :: rows) = countedRows effScope rows := by simp [countedRows, hns]
      rw [hcons] at hnodup hnew
      simp only [setRow, addRow, hns]
      exact ih hnodup hnew
    | some ns =>
      have hcons : countedRows effScope (r :: rows) = (ns, r.value) :: countedRows effScope rows := by simp [countedRows, hns]
      rw [hcons, List.map_cons] at hnodup
      rw [hcons] at hnew
      obtain ⟨hnot, hrest⟩ := List.nodup_cons.mp hnodup
      have hnone : map.get ns = none := hnew _ List.mem_cons_self
      simp only [setRow, addRow, hns, hnone, Option.getD_none, zero_add]
      refine ih hrest fun row hrow => ?_
      have hne : row.1 ≠ ns := by
        rintro rfl
        exact hnot (List.mem_map.mpr ⟨row, hrow, rfl⟩)
      rw [JsMap.get_set, if_neg hne]
      exact hnew row (List.mem_cons_of_mem _ hrow)

/-- The namespaces whose usage is counted. -/
def isCounted (effScope : EffectiveScope) (ns : Text) : Bool := ns ≠ [] && ns ≠ "unknown".toList && namespaceVisible ns effScope

theorem nonEmptyText_some {ns : Text} (h : ns ≠ []) : nonEmptyText (some ns) = some ns :=
  Option.filter_eq_some_iff.mpr ⟨rfl, decide_eq_true h⟩

theorem countedNamespace_eq (ns : Text) (pod : Option Text) (value : ℚ) :
    countedNamespace effScope ⟨nonEmptyText (some ns), pod, value⟩ = if isCounted effScope ns then some ns else none := by
  by_cases hns : ns = []
  · subst hns
    rfl
  · rw [countedNamespace, nonEmptyText_some hns, Option.filter_some]
    rfl

theorem countedRows_byNamespace : countedRows effScope (byNamespace series) =
    (sumBy PodSeries.ns PodSeries.value series).filter fun row => isCounted effScope row.1 := by
  rw [countedRows, byNamespace, List.filterMap_map, ← List.filterMap_eq_filter]
  refine List.filterMap_congr fun row _ => ?_
  rw [Function.comp_apply, countedNamespace_eq, Option.guard_apply]
  split_ifs <;> rfl

theorem countedRows_perm (h : rows.Perm (byNamespace series)) : (countedRows effScope rows).Perm
    ((sumBy PodSeries.ns PodSeries.value series).filter fun row => isCounted effScope row.1) :=
  countedRows_byNamespace ▸ h.filterMap _

/-- The rows of one query have distinct namespaces. -/
theorem nodup_countedRows (h : rows.Perm (byNamespace series)) : ((countedRows effScope rows).map Prod.fst).Nodup :=
  ((countedRows_perm h).map Prod.fst).nodup_iff.mpr
    ((nodup_sumBy PodSeries.ns PodSeries.value series).sublist (List.filter_sublist.map _))

theorem sum_countedRows (h : rows.Perm (byNamespace series)) :
    ((countedRows effScope rows).map Prod.snd).sum = usageOf (isCounted effScope) series :=
  ((countedRows_perm h).map Prod.snd).sum_eq.trans (sum_filter_sumBy _ _ _ _)

/-- Both ways to fill the map of a resource fill it with the usage that is counted. -/
theorem total_setRow (h : rows.Perm (byNamespace series)) :
    total id (rows.foldl (setRow effScope) .empty) = usageOf (isCounted effScope) series := by
  rw [foldl_setRow_eq (nodup_countedRows h) fun _ _ => rfl, total_addRow, sum_countedRows h]

theorem total_addRow_byNamespace (h : rows.Perm (byNamespace series)) :
    total id (rows.foldl (addRow effScope) .empty) = usageOf (isCounted effScope) series := by
  rw [total_addRow, sum_countedRows h]

section

variable {cpuRes memRes storRes : List PromVectorResult} {cpu mem storage : List PodSeries}

/-- The items of the namespaces hold the usage that is counted. -/
theorem sum_namespaceUsage (hcpu : cpuRes.Perm (byNamespace cpu)) (hmem : memRes.Perm (byNamespace mem))
    (hstorage : storRes.Perm (byNamespace storage)) :
    ((namespaceUsage effScope cpuRes memRes storRes).map CostUsage.cpuCores).sum = usageOf (isCounted effScope) cpu ∧
    ((namespaceUsage effScope cpuRes memRes storRes).map CostUsage.memBytes).sum = usageOf (isCounted effScope) mem ∧
    ((namespaceUsage effScope cpuRes memRes storRes).map CostUsage.storageBytes).sum = usageOf (isCounted effScope) storage := by
  rw [← total_setRow hcpu, ← total_addRow_byNamespace hmem, ← total_addRow_byNamespace hstorage]
  simp only [namespaceUsage, List.map_map, Function.comp_def]
  refine ⟨sum_getD_get _ (nodup_setOf _) ?_, sum_getD_get _ (nodup_setOf _) ?_, sum_getD_get _ (nodup_setOf _) ?_⟩
  all_goals
    intro entry hentry
    simp only [mem_setOf, List.mem_append, keys]
  · exact .inl (.inl (List.mem_map_of_mem hentry))
  · exact .inl (.inr (List.mem_map_of_mem hentry))
  · exact .inr (List.mem_map_of_mem hentry)

end

/-! ### Usage by pods -/

/-- The rows whose usage is attributed, by namespace and pod. -/
def usageRows (effScope : EffectiveScope) (rows : List PromVectorResult) : List ((Text × Text) × ℚ) :=
  rows.filterMap fun r => (usageNamespace effScope r).map fun ns => ((ns, r.pod.getD []), r.value)

theorem foldl_addUsage_eq (add : PodUsage ℚ → ℚ → PodUsage ℚ) (map : JsMap Text (PodUsage ℚ)) :
    rows.foldl (addUsage effScope add) map = (usageRows effScope rows).foldl
      (gather (fun row => podKey row.1.1 row.1.2) (fun row => ⟨row.1.1, row.1.2, 0, 0⟩) fun u row => add u row.2) map := by
  rw [usageRows, List.foldl_filterMap]
  congr 1
  funext map r
  cases hns : usageNamespace effScope r <;> simp [addUsage, gather, hns]

def isAttributed (effScope : EffectiveScope) (ns : Text) : Bool := ns ≠ [] && namespaceVisible ns effScope

theorem usageNamespace_eq (ns : Text) (pod : Option Text) (value : ℚ) :
    usageNamespace effScope ⟨nonEmptyText (some ns), pod, value⟩ = if isAttributed effScope ns then some ns else none := by
  by_cases hns : ns = []
  · subst hns
    rfl
  · rw [usageNamespace, nonEmptyText_some hns, Option.filter_some]
    rfl

theorem sum_usageRows (h : rows.Perm (byPod series)) :
    ((usageRows effScope rows).map Prod.snd).sum = usageOf (isAttributed effScope) series := by
  have hrows : usageRows effScope (byPod series) =
      (sumBy (fun s : PodSeries => (s.ns, s.pod.getD [])) PodSeries.value series).filter fun row =>
        isAttributed effScope row.1.1 := by
    rw [usageRows, byPod, List.filterMap_map, ← List.filterMap_eq_filter]
    refine List.filterMap_congr fun row _ => ?_
    rw [Function.comp_apply, usageNamespace_eq, getD_nonEmptyText, Option.guard_apply]
    split_ifs <;> rfl
  have hperm : (usageRows effScope rows).Perm (usageRows effScope (byPod series)) := h.filterMap _
  rw [(hperm.map Prod.snd).sum_eq, hrows]
  exact sum_filter_sumBy (fun s : PodSeries => (s.ns, s.pod.getD [])) PodSeries.value
    (fun key => isAttributed effScope key.1) series

/-- What the pods have of a resource is what the rows of that resource add. -/
theorem total_usageMap {cpuRes memRes : List PromVectorResult} {cpu mem : List PodSeries}
    (hcpu : cpuRes.Perm (byPod cpu)) (hmem : memRes.Perm (byPod mem)) :
    total PodUsage.cpu (usageMap effScope cpuRes memRes) = usageOf (isAttributed effScope) cpu ∧
      total PodUsage.memBytes (usageMap effScope cpuRes memRes) = usageOf (isAttributed effScope) mem := by
  have hzero : ∀ rows : List ((Text × Text) × ℚ), (rows.map fun _ => (0 : ℚ)).sum = 0 := fun rows => by simp
  rw [usageMap, foldl_addUsage_eq, foldl_addUsage_eq]
  constructor
  · rw [total_foldl_gather PodUsage.cpu (fun _ => 0) (fun _ => rfl) (fun u row => (add_zero _).symm),
      total_foldl_gather PodUsage.cpu Prod.snd (fun _ => rfl) (fun u row => rfl), hzero, add_zero, sum_usageRows hcpu]
    exact zero_add _
  · rw [total_foldl_gather PodUsage.memBytes Prod.snd (fun _ => rfl) (fun u row => rfl),
      total_foldl_gather PodUsage.memBytes (fun _ => 0) (fun _ => rfl) (fun u row => (add_zero _).symm), hzero, add_zero,
      sum_usageRows hmem]
    exact zero_add _

/-! ### The totals of the views -/

def cpuTotal (items : List CostUsage) : ℚ := (items.map CostUsage.cpuCores).sum

def memTotal (items : List CostUsage) : ℚ := (items.map CostUsage.memBytes).sum

def storageTotal (items : List CostUsage) : ℚ := (items.map CostUsage.storageBytes).sum

variable {usage : Usage} {a : Answers}

theorem byNamespace_ne_nil (h : series ≠ []) : byNamespace series ≠ [] := by
  cases series with
  | nil => exact absurd rfl h
  | cons s series => simp [byNamespace, sumBy]

theorem byPod_ne_nil (h : series ≠ []) : byPod series ≠ [] := by
  cases series with
  | nil => exact absurd rfl h
  | cons s series => simp [byPod, sumBy]

theorem vectorStatus_ok {α : Type} {answer : Option (List α)} {rows rows' : List α} (hrows : answer = some rows)
    (hperm : rows.Perm rows') (h : rows' ≠ []) : vectorStatus answer = .ok := by
  subst hrows
  cases rows with
  | nil => exact absurd hperm.nil_eq.symm h
  | cons r rows => rfl

theorem namespaceState_ok (h : Answered usage a) : namespaceState a = .ok := by
  obtain ⟨cpu, hcpu, hcpuPerm⟩ := h.cpuByNamespace
  obtain ⟨mem, hmem, hmemPerm⟩ := h.memByNamespace
  obtain ⟨storage, hstorage, hstoragePerm⟩ := h.storageByNamespace
  rw [namespaceState, vectorStatus_ok hcpu hcpuPerm (byNamespace_ne_nil h.notEmpty.1),
    vectorStatus_ok hmem hmemPerm (byNamespace_ne_nil h.notEmpty.2.1),
    vectorStatus_ok hstorage hstoragePerm (byNamespace_ne_nil h.notEmpty.2.2)]
  rfl

theorem serviceState_ok (h : Answered usage a) : serviceState a = .ok := by
  obtain ⟨cpu, hcpu, hcpuPerm⟩ := h.podCpu
  obtain ⟨mem, hmem, hmemPerm⟩ := h.podMem
  rw [serviceState, vectorStatus_ok hcpu hcpuPerm (byPod_ne_nil h.notEmpty.1),
    vectorStatus_ok hmem hmemPerm (byPod_ne_nil h.notEmpty.2.1)]
  rfl

theorem clusterTotals (h : Answered usage a) :
    cpuTotal (costUsage effScope .cluster a) = usageOf (fun ns => namespaceVisible ns effScope) usage.cpu ∧
    memTotal (costUsage effScope .cluster a) = usageOf (fun ns => namespaceVisible ns effScope) usage.mem ∧
    storageTotal (costUsage effScope .cluster a) = usageOf (fun ns => namespaceVisible ns effScope) usage.storage := by
  obtain ⟨cpu, hcpu, hcpuPerm⟩ := h.cpuByNamespace
  obtain ⟨mem, hmem, hmemPerm⟩ := h.memByNamespace
  obtain ⟨storage, hstorage, hstoragePerm⟩ := h.storageByNamespace
  have hitems : costUsage effScope .cluster a = [clusterUsage effScope cpu mem storage] := by
    simp [costUsage, namespaceState_ok h, hcpu, hmem, hstorage]
  rw [hitems, ← clusterTotal_eq hcpuPerm, ← clusterTotal_eq hmemPerm, ← clusterTotal_eq hstoragePerm]
  exact ⟨List.sum_singleton, List.sum_singleton, List.sum_singleton⟩

theorem namespaceTotals (h : Answered usage a) :
    cpuTotal (costUsage effScope .namespace a) = usageOf (isCounted effScope) usage.cpu ∧
    memTotal (costUsage effScope .namespace a) = usageOf (isCounted effScope) usage.mem ∧
    storageTotal (costUsage effScope .namespace a) = usageOf (isCounted effScope) usage.storage := by
  obtain ⟨cpu, hcpu, hcpuPerm⟩ := h.cpuByNamespace
  obtain ⟨mem, hmem, hmemPerm⟩ := h.memByNamespace
  obtain ⟨storage, hstorage, hstoragePerm⟩ := h.storageByNamespace
  have hitems : costUsage effScope .namespace a = namespaceUsage effScope cpu mem storage := by
    simp [costUsage, namespaceState_ok h, hcpu, hmem, hstorage]
  rw [hitems]
  exact sum_namespaceUsage hcpuPerm hmemPerm hstoragePerm

theorem serviceTotals (h : Answered usage a) :
    cpuTotal (costUsage effScope .service a) = usageOf (isAttributed effScope) usage.cpu ∧
    memTotal (costUsage effScope .service a) = usageOf (isAttributed effScope) usage.mem ∧
    storageTotal (costUsage effScope .service a) = 0 := by
  obtain ⟨cpu, hcpu, hcpuPerm⟩ := h.podCpu
  obtain ⟨mem, hmem, hmemPerm⟩ := h.podMem
  have hitems : costUsage effScope .service a = serviceUsage effScope a := by
    simp [costUsage, serviceState_ok h]
  have hpodsTotals : total PodUsage.cpu (usageMap effScope cpu mem) = usageOf (isAttributed effScope) usage.cpu ∧
      total PodUsage.memBytes (usageMap effScope cpu mem) = usageOf (isAttributed effScope) usage.mem :=
    total_usageMap hcpuPerm hmemPerm
  have hgroups : ((attributePods (attributionInput effScope a)).map fun g => g.cpu).sum =
        ((attributionInput effScope a).usage.map PodUsage.cpu).sum ∧
      ((attributePods (attributionInput effScope a)).map fun g => g.memBytes).sum =
        ((attributionInput effScope a).usage.map PodUsage.memBytes).sum := cost_attribution.totals_conserved.2
  obtain ⟨hpodsCpu, hpodsMem⟩ := hpodsTotals
  obtain ⟨hgroupsCpu, hgroupsMem⟩ := hgroups
  have hpods : (attributionInput effScope a).usage = (usageMap effScope cpu mem).entries.map Prod.snd := by
    simp [attributionInput, hcpu, hmem]
  rw [hpods, List.map_map] at hgroupsCpu hgroupsMem
  rw [hitems, ← hpodsCpu, ← hpodsMem, cpuTotal, memTotal, storageTotal, serviceUsage, List.map_map, List.map_map, List.map_map]
  refine ⟨hgroupsCpu, hgroupsMem, ?_⟩
  simp [Function.comp_def]

/-! ### Agreement -/

/-- Usage without a namespace, or in the one named "unknown". -/
def isHidden (effScope : EffectiveScope) (ns : Text) : Bool :=
  namespaceVisible ns effScope && (ns = [] || ns = "unknown".toList)

def isUnnamed (effScope : EffectiveScope) (ns : Text) : Bool := namespaceVisible ns effScope && ns = []

theorem usageOf_add {p q r : Text → Bool} (h : ∀ ns, p ns = (q ns || r ns)) (hdisjoint : ∀ ns, (q ns && r ns) = false) :
    usageOf p series = usageOf q series + usageOf r series := by
  induction series with
  | nil => simp [usageOf]
  | cons s series ih =>
    unfold usageOf at ih ⊢
    have hp := h s.ns
    have hqr := hdisjoint s.ns
    cases hq : q s.ns <;> cases hr : r s.ns <;> simp_all [add_assoc, add_left_comm]

/-- The usage of two states is the same in the namespaces that the scope shows. -/
structure SameVisible (effScope : EffectiveScope) (usage usage' : Usage) : Prop where
  cpu : (usage.cpu.filter fun s => namespaceVisible s.ns effScope).Perm
    (usage'.cpu.filter fun s => namespaceVisible s.ns effScope)
  mem : (usage.mem.filter fun s => namespaceVisible s.ns effScope).Perm
    (usage'.mem.filter fun s => namespaceVisible s.ns effScope)
  storage : (usage.storage.filter fun s => namespaceVisible s.ns effScope).Perm
    (usage'.storage.filter fun s => namespaceVisible s.ns effScope)

theorem usageOf_congr {p : Text → Bool} (hp : ∀ ns, p ns = true → namespaceVisible ns effScope = true)
    {series' : List PodSeries} (h : (series.filter fun s => namespaceVisible s.ns effScope).Perm
      (series'.filter fun s => namespaceVisible s.ns effScope)) : usageOf p series = usageOf p series' := by
  have hfilter : ∀ series : List PodSeries, (series.filter fun s => namespaceVisible s.ns effScope).filter (fun s => p s.ns) =
      series.filter fun s => p s.ns := by
    intro series
    rw [List.filter_filter]
    refine List.filter_congr fun s _ => ?_
    cases hs : p s.ns with
    | false => rfl
    | true => rw [hp s.ns hs, Bool.and_self]
  rw [usageOf, usageOf, ← hfilter series, ← hfilter series']
  exact ((h.filter _).map _).sum_eq

/-- The cluster's totals are those of the namespaces with the visible usage that has no namespace or
    the one named "unknown", and those of the services with the visible usage that has no namespace; and
    no total changes with the usage of invisible namespaces. -/
theorem cost_views_agree (effScope : EffectiveScope) (usage : Usage) (a : Answers) (h : Answered usage a) :
    (cpuTotal (costUsage effScope .cluster a) =
        cpuTotal (costUsage effScope .namespace a) + usageOf (isHidden effScope) usage.cpu ∧
      memTotal (costUsage effScope .cluster a) =
        memTotal (costUsage effScope .namespace a) + usageOf (isHidden effScope) usage.mem ∧
      storageTotal (costUsage effScope .cluster a) =
        storageTotal (costUsage effScope .namespace a) + usageOf (isHidden effScope) usage.storage) ∧
    (cpuTotal (costUsage effScope .cluster a) =
        cpuTotal (costUsage effScope .service a) + usageOf (isUnnamed effScope) usage.cpu ∧
      memTotal (costUsage effScope .cluster a) =
        memTotal (costUsage effScope .service a) + usageOf (isUnnamed effScope) usage.mem) ∧
    ∀ usage' a', Answered usage' a' → SameVisible effScope usage usage' → ∀ scope,
      cpuTotal (costUsage effScope scope a) = cpuTotal (costUsage effScope scope a') ∧
      memTotal (costUsage effScope scope a) = memTotal (costUsage effScope scope a') ∧
      storageTotal (costUsage effScope scope a) = storageTotal (costUsage effScope scope a') := by
  have hnamespace : ∀ series, usageOf (fun ns => namespaceVisible ns effScope) series =
      usageOf (isCounted effScope) series + usageOf (isHidden effScope) series := by
    intro series
    refine usageOf_add (fun ns => ?_) fun ns => ?_
    all_goals
      simp only [isCounted, isHidden, ne_eq, decide_not]
      generalize namespaceVisible ns effScope = visible
      generalize decide (ns = []) = empty
      generalize decide (ns = "unknown".toList) = unknown
      cases visible <;> cases empty <;> cases unknown <;> rfl
  have hservice : ∀ series, usageOf (fun ns => namespaceVisible ns effScope) series =
      usageOf (isAttributed effScope) series + usageOf (isUnnamed effScope) series := by
    intro series
    refine usageOf_add (fun ns => ?_) fun ns => ?_
    all_goals
      simp only [isAttributed, isUnnamed, ne_eq, decide_not]
      generalize namespaceVisible ns effScope = visible
      generalize decide (ns = []) = empty
      cases visible <;> cases empty <;> rfl
  obtain ⟨hcpu, hmem, hstorage⟩ := clusterTotals h
  obtain ⟨hcpu₁, hmem₁, hstorage₁⟩ := namespaceTotals h
  obtain ⟨hcpu₂, hmem₂, hstorage₂⟩ := serviceTotals h
  refine ⟨?_, ?_, fun usage' a' h' hsame => ?_⟩
  · rw [hcpu, hmem, hstorage, hcpu₁, hmem₁, hstorage₁]
    exact ⟨hnamespace _, hnamespace _, hnamespace _⟩
  · rw [hcpu, hmem, hcpu₂, hmem₂]
    exact ⟨hservice _, hservice _⟩
  · have hcounted : ∀ ns, isCounted effScope ns = true → namespaceVisible ns effScope = true := fun ns hns =>
      (Bool.and_eq_true_iff.mp hns).2
    have hattributed : ∀ ns, isAttributed effScope ns = true → namespaceVisible ns effScope = true := fun ns hns =>
      (Bool.and_eq_true_iff.mp hns).2
    intro scope
    cases scope with
    | cluster =>
      obtain ⟨hcpu', hmem', hstorage'⟩ := clusterTotals h'
      rw [hcpu, hmem, hstorage, hcpu', hmem', hstorage']
      exact ⟨usageOf_congr (fun _ => id) hsame.cpu, usageOf_congr (fun _ => id) hsame.mem,
        usageOf_congr (fun _ => id) hsame.storage⟩
    | «namespace» =>
      obtain ⟨hcpu', hmem', hstorage'⟩ := namespaceTotals h'
      rw [hcpu₁, hmem₁, hstorage₁, hcpu', hmem', hstorage']
      exact ⟨usageOf_congr hcounted hsame.cpu, usageOf_congr hcounted hsame.mem, usageOf_congr hcounted hsame.storage⟩
    | service =>
      obtain ⟨hcpu', hmem', hstorage'⟩ := serviceTotals h'
      rw [hcpu₂, hmem₂, hstorage₂, hcpu', hmem', hstorage']
      exact ⟨usageOf_congr hattributed hsame.cpu, usageOf_congr hattributed hsame.mem, rfl⟩

end

/-- A cluster admin, and one pod whose namespace is missing. -/
def adminScope : EffectiveScope where
  all := true
  namespaces := []
  argocdProjects := []
  hasMapping := true
  fingerprint := []
  resolved := { all := true, names := [], byLabel := [], byPattern := [] }
  clusterId := []

def namelessUsage : Usage where
  cpu := [⟨none, some "web-0".toList, 2⟩, ⟨some "dev".toList, some "db-0".toList, 1⟩]
  mem := [⟨some "dev".toList, some "db-0".toList, 5⟩]
  storage := [⟨some "dev".toList, none, 7⟩]

def namelessAnswers : Answers where
  cpuByNamespace := some (byNamespace namelessUsage.cpu)
  memByNamespace := some (byNamespace namelessUsage.mem)
  storageByNamespace := some (byNamespace namelessUsage.storage)
  podCpu := some (byPod namelessUsage.cpu)
  podMem := some (byPod namelessUsage.mem)
  podLabels := some []
  podOwner := some []
  replicaSetOwner := some []

theorem nameless_answered : Answered namelessUsage namelessAnswers where
  cpuByNamespace := ⟨_, rfl, .refl _⟩
  memByNamespace := ⟨_, rfl, .refl _⟩
  storageByNamespace := ⟨_, rfl, .refl _⟩
  podCpu := ⟨_, rfl, .refl _⟩
  podMem := ⟨_, rfl, .refl _⟩
  podLabels := rfl
  podOwner := rfl
  replicaSetOwner := rfl
  notEmpty := ⟨List.cons_ne_nil _ _, List.cons_ne_nil _ _, List.cons_ne_nil _ _⟩

/-- The cluster has two cores more than its namespaces, and than its services. -/
theorem nameless_usage_disagrees : Answered namelessUsage namelessAnswers ∧
    cpuTotal (costUsage adminScope .cluster namelessAnswers) ≠ cpuTotal (costUsage adminScope .namespace namelessAnswers) ∧
    cpuTotal (costUsage adminScope .cluster namelessAnswers) ≠ cpuTotal (costUsage adminScope .service namelessAnswers) := by
  refine ⟨nameless_answered, ?_, ?_⟩ <;> decide +kernel

theorem cost_views_agree_nameless :
    cpuTotal (costUsage adminScope .cluster namelessAnswers) =
      cpuTotal (costUsage adminScope .namespace namelessAnswers) + usageOf (isHidden adminScope) namelessUsage.cpu :=
  (cost_views_agree adminScope namelessUsage namelessAnswers nameless_answered).1.1

end narwhal.portal.cost
