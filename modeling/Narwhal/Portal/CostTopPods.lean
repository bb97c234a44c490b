import Narwhal.Lib.Ranking
import Narwhal.Portal.CostViews

open jslib ranking
open narwhal.portal.prometheus (TelemetryStatus)

namespace narwhal.portal.cost

/-- A row of a query by service. -/
structure ServiceResult where
  namespace_ : Option Text
  instanceLabel : Option Text
  value : ℚ
deriving DecidableEq

/-- The settled queries of one service; none is one that was rejected. -/
structure ServiceAnswers where
  cpu : Option (List ServiceResult)
  mem : Option (List ServiceResult)
  topCpu : Option (List PromVectorResult)
  topMem : Option (List PromVectorResult)

structure TopPod where
  pod : Text
  cpu : ℚ
  memGb : ℚ
  hourly : ℚ
deriving DecidableEq

structure CostDetailResult where
  item : CostItem
  serviceId : Text
  topPods : List TopPod
  telemetry : TelemetryStatus
deriving DecidableEq

section

variable (prices : CostUnitPrices) (serviceNamespace : Text)

def serviceTotal (serviceId : Text) (rows : List ServiceResult) : ℚ :=
  ((rows.filter fun r => r.instanceLabel = some serviceId ∧ r.namespace_ = some serviceNamespace).map ServiceResult.value).sum

/-- The values of the pods of a namespace; the last row of a pod counts. -/
def podMap (rows : List PromVectorResult) : JsMap Text ℚ :=
  rows.foldl (fun map r =>
    match nonEmptyText r.pod with
    | some pod => if r.namespace_ = some serviceNamespace then map.set (serviceNamespace ++ '/' :: pod) r.value else map
    | none => map) .empty

def topPod (podCpuMap podMemMap : JsMap Text ℚ) (pod : Text) : TopPod :=
  let podCpu := (podCpuMap.get pod).getD 0
  let podMemGb := (podMemMap.get pod).getD 0 / 10 ^ 9
  let podHourly := podCpu * prices.cpuHourly + podMemGb * prices.memGbHourly
  { pod := pod
    cpu := roundTo 1000 podCpu
    memGb := roundTo 1000 podMemGb
    hourly := roundTo 10000 podHourly }

def allPods (podCpuMap podMemMap : JsMap Text ℚ) : List Text := setOf (keys podCpuMap ++ keys podMemMap)

def topPods (topCpuRes topMemRes : List PromVectorResult) : List TopPod :=
  let podCpuMap := podMap serviceNamespace (topCpuRes.take 10)
  let podMemMap := podMap serviceNamespace (topMemRes.take 10)
  ((allPods podCpuMap podMemMap).map (topPod prices podCpuMap podMemMap)).insertionSort
    (fun a b => b.hourly ≤ a.hourly) |>.take 5

/-- The cost of a service; none where no query answers. -/
def getCostByService (serviceId : Text) (a : ServiceAnswers) : Option CostDetailResult :=
  let telemetry := combineTelemetry [vectorStatus a.cpu, vectorStatus a.mem, vectorStatus a.topCpu, vectorStatus a.topMem]
  if telemetry = .unavailable then none
  else
    let cpuCores := serviceTotal serviceNamespace serviceId (a.cpu.getD [])
    let memBytes := serviceTotal serviceNamespace serviceId (a.mem.getD [])
    some {
      item := calcItem prices ⟨serviceId, cpuCores, memBytes, 0⟩
      serviceId := serviceId
      topPods := topPods prices serviceNamespace (a.topCpu.getD []) (a.topMem.getD [])
      telemetry := telemetry }

/-! ### The pods of a service -/

variable (topCpuRes topMemRes : List PromVectorResult)

/-- The pods of the service, of whole vectors. -/
def pods : List Text := allPods (podMap serviceNamespace topCpuRes) (podMap serviceNamespace topMemRes)

/-- A pod with its whole usage. -/
def wholePod (pod : Text) : TopPod := topPod prices (podMap serviceNamespace topCpuRes) (podMap serviceNamespace topMemRes) pod

/-- The pods that the first ten rows of each vector name. -/
def candidates : List Text :=
  allPods (podMap serviceNamespace (topCpuRes.take 10)) (podMap serviceNamespace (topMemRes.take 10))

/-- A pod with the usage that the first ten rows of each vector have. -/
def seenPod (pod : Text) : TopPod :=
  topPod prices (podMap serviceNamespace (topCpuRes.take 10)) (podMap serviceNamespace (topMemRes.take 10)) pod

/-- A pod that the first ten rows do not name, or show with less than its usage. -/
def Cut (pod : Text) : Prop :=
  pod ∉ candidates serviceNamespace topCpuRes topMemRes ∨
    seenPod prices serviceNamespace topCpuRes topMemRes pod ≠ wholePod prices serviceNamespace topCpuRes topMemRes pod

instance (pod : Text) : Decidable (Cut prices serviceNamespace topCpuRes topMemRes pod) := inferInstanceAs (Decidable (_ ∨ _))

/-- The answer has five pods, or all if they are fewer, with their whole usage, the dearest first, and no
    other pod is dearer. Costs are compared as they are reported. -/
structure MostExpensive (top : List TopPod) : Prop where
  whole : ∀ t ∈ top, t.pod ∈ pods serviceNamespace topCpuRes topMemRes ∧
    t = wholePod prices serviceNamespace topCpuRes topMemRes t.pod
  distinct : (top.map TopPod.pod).Nodup
  length : top.length = min 5 (pods serviceNamespace topCpuRes topMemRes).length
  descending : top.Pairwise fun a b => b.hourly ≤ a.hourly
  dearest : ∀ t ∈ top, ∀ pod ∈ pods serviceNamespace topCpuRes topMemRes, pod ∉ top.map TopPod.pod →
    (wholePod prices serviceNamespace topCpuRes topMemRes pod).hourly ≤ t.hourly

/-- Every pod that is cut has five ahead of it that are not, and are at least as dear. -/
def CutPodsBehind : Prop :=
  ∀ pod ∈ pods serviceNamespace topCpuRes topMemRes, Cut prices serviceNamespace topCpuRes topMemRes pod →
    5 ≤ ((candidates serviceNamespace topCpuRes topMemRes).filter fun other =>
      ¬ Cut prices serviceNamespace topCpuRes topMemRes other ∧
      (wholePod prices serviceNamespace topCpuRes topMemRes pod).hourly ≤
        (wholePod prices serviceNamespace topCpuRes topMemRes other).hourly ∧
      (pod ∈ candidates serviceNamespace topCpuRes topMemRes →
        Ahead (fun p => (seenPod prices serviceNamespace topCpuRes topMemRes p).hourly)
          (candidates serviceNamespace topCpuRes topMemRes) other pod)).length

/-! ### The first five -/

section

variable {prices serviceNamespace topCpuRes topMemRes}

theorem mem_keys_set {map : JsMap Text ℚ} {k key : Text} {value : ℚ} (h : k ∈ keys map) : k ∈ keys (map.set key value) := by
  obtain ⟨entry, hentry, rfl⟩ := List.mem_map.mp h
  have hget : (map.set key value).get entry.1 = some (if entry.1 = key then value else entry.2) := by
    rw [JsMap.get_set, JsMap.get_of_mem hentry]
    split_ifs <;> rfl
  exact List.mem_map.mpr ⟨_, JsMap.mem_of_get hget, rfl⟩

theorem podMap_keys_subset {n : Nat} {rows : List PromVectorResult} {pod : Text}
    (h : pod ∈ keys (podMap serviceNamespace (rows.take n))) : pod ∈ keys (podMap serviceNamespace rows) := by
  rw [← List.take_append_drop n rows, podMap, List.foldl_append]
  refine List.foldlRecOn (motive := fun map => pod ∈ keys map) (rows.drop n) _ h fun map hmap r _ => ?_
  split
  · split_ifs
    · exact mem_keys_set hmap
    · exact hmap
  · exact hmap

theorem candidates_subset : ∀ pod ∈ candidates serviceNamespace topCpuRes topMemRes,
    pod ∈ pods serviceNamespace topCpuRes topMemRes := by
  intro pod hpod
  simp only [candidates, pods, allPods, mem_setOf, List.mem_append] at hpod ⊢
  exact hpod.imp podMap_keys_subset podMap_keys_subset

/-- The pods of the answer. -/
def firstPods (prices : CostUnitPrices) (serviceNamespace : Text) (topCpuRes topMemRes : List PromVectorResult) : List Text :=
  (ranked (fun p => (seenPod prices serviceNamespace topCpuRes topMemRes p).hourly)
    (candidates serviceNamespace topCpuRes topMemRes)).take 5

theorem topPods_eq : topPods prices serviceNamespace topCpuRes topMemRes =
    (firstPods prices serviceNamespace topCpuRes topMemRes).map (seenPod prices serviceNamespace topCpuRes topMemRes) := by
  rw [firstPods, List.map_take, ranked, List.map_insertionSort _ (fun a b : TopPod => b.hourly ≤ a.hourly)]
  · rfl
  · exact fun _ _ _ _ => Iff.rfl

theorem map_pod_topPods : (topPods prices serviceNamespace topCpuRes topMemRes).map TopPod.pod =
    firstPods prices serviceNamespace topCpuRes topMemRes := by
  rw [topPods_eq, List.map_map]
  exact List.map_id _

theorem nodup_candidates : (candidates serviceNamespace topCpuRes topMemRes).Nodup := nodup_setOf _

theorem mem_candidates_of_mem_firstPods {pod : Text} (h : pod ∈ firstPods prices serviceNamespace topCpuRes topMemRes) :
    pod ∈ candidates serviceNamespace topCpuRes topMemRes := mem_ranked.mp (List.mem_of_mem_take h)

/-- Where the answer has the dearest pods, it has none that is cut. -/
theorem not_cut_of_mostExpensive
    (h : MostExpensive prices serviceNamespace topCpuRes topMemRes (topPods prices serviceNamespace topCpuRes topMemRes))
    {pod : Text} (hpod : pod ∈ firstPods prices serviceNamespace topCpuRes topMemRes) :
    ¬ Cut prices serviceNamespace topCpuRes topMemRes pod := by
  have hmem : seenPod prices serviceNamespace topCpuRes topMemRes pod ∈ topPods prices serviceNamespace topCpuRes topMemRes := by
    rw [topPods_eq]
    exact List.mem_map_of_mem hpod
  rintro (hnot | hne)
  · exact hnot (mem_candidates_of_mem_firstPods hpod)
  · exact hne (h.whole _ hmem).2

theorem cutPodsBehind_of_mostExpensive
    (h : MostExpensive prices serviceNamespace topCpuRes topMemRes (topPods prices serviceNamespace topCpuRes topMemRes)) :
    CutPodsBehind prices serviceNamespace topCpuRes topMemRes := by
  intro pod hpod hcut
  have hnot : pod ∉ firstPods prices serviceNamespace topCpuRes topMemRes := fun hfirst => not_cut_of_mostExpensive h hfirst hcut
  have hlength := h.length
  rw [topPods_eq, List.length_map] at hlength
  have hdistinct := h.distinct
  rw [map_pod_topPods] at hdistinct
  have hsub : ∀ p ∈ pod :: firstPods prices serviceNamespace topCpuRes topMemRes,
      p ∈ pods serviceNamespace topCpuRes topMemRes := by
    intro p hp
    obtain rfl | hp := List.mem_cons.mp hp
    · exact hpod
    · exact candidates_subset p (mem_candidates_of_mem_firstPods hp)
  have hmore := (List.subperm_of_subset (List.nodup_cons.mpr ⟨hnot, hdistinct⟩) hsub).length_le
  rw [List.length_cons] at hmore
  have hfive : (firstPods prices serviceNamespace topCpuRes topMemRes).length = 5 := by omega
  rw [← hfive]
  refine (List.subperm_of_subset hdistinct fun other hother => ?_).length_le
  have huncut := not_cut_of_mostExpensive h hother
  refine List.mem_filter.mpr ⟨mem_candidates_of_mem_firstPods hother, decide_eq_true ⟨huncut, ?_, fun hcandidate => ?_⟩⟩
  · have hmem : seenPod prices serviceNamespace topCpuRes topMemRes other ∈ topPods prices serviceNamespace topCpuRes topMemRes := by
      rw [topPods_eq]
      exact List.mem_map_of_mem hother
    have hle := h.dearest _ hmem pod hpod (by rwa [map_pod_topPods])
    rwa [(h.whole _ hmem).2] at hle
  · exact ahead_of_not_mem_take nodup_candidates hother hcandidate hnot

/-- Where five pods are ahead of every one that is cut, the answer has the dearest pods. -/
theorem mostExpensive_of_cutPodsBehind (h : CutPodsBehind prices serviceNamespace topCpuRes topMemRes) :
    MostExpensive prices serviceNamespace topCpuRes topMemRes (topPods prices serviceNamespace topCpuRes topMemRes) := by
  have huncut : ∀ pod ∈ firstPods prices serviceNamespace topCpuRes topMemRes, ¬ Cut prices serviceNamespace topCpuRes topMemRes pod := by
    intro pod hpod hcut
    have hcandidate := mem_candidates_of_mem_firstPods hpod
    refine not_mem_take nodup_candidates (nodup_candidates.filter _) ?_ ?_ (h pod (candidates_subset pod hcandidate) hcut) hpod
    · exact fun other hother => (List.mem_filter.mp hother).1
    · exact fun other hother => (of_decide_eq_true (List.mem_filter.mp hother).2).2.2 hcandidate
  have hseen : ∀ pod, ¬ Cut prices serviceNamespace topCpuRes topMemRes pod →
      seenPod prices serviceNamespace topCpuRes topMemRes pod = wholePod prices serviceNamespace topCpuRes topMemRes pod :=
    fun pod hpod => of_not_not (not_or.mp hpod).2
  have hreported : ∀ pod ∈ firstPods prices serviceNamespace topCpuRes topMemRes,
      seenPod prices serviceNamespace topCpuRes topMemRes pod = wholePod prices serviceNamespace topCpuRes topMemRes pod :=
    fun pod hpod => hseen pod (huncut pod hpod)
  have hdistinct : (firstPods prices serviceNamespace topCpuRes topMemRes).Nodup :=
    (nodup_ranked nodup_candidates).sublist (List.take_sublist _ _)
  refine ⟨?_, map_pod_topPods ▸ hdistinct, ?_, ?_, ?_⟩
  · rw [topPods_eq, List.forall_mem_map]
    exact fun pod hpod => ⟨candidates_subset pod (mem_candidates_of_mem_firstPods hpod), hreported pod hpod⟩
  · rw [topPods_eq, List.length_map, firstPods, List.length_take, length_ranked]
    by_cases hall : ∀ pod ∈ pods serviceNamespace topCpuRes topMemRes, pod ∈ candidates serviceNamespace topCpuRes topMemRes
    · have hperm : (candidates serviceNamespace topCpuRes topMemRes).Perm (pods serviceNamespace topCpuRes topMemRes) :=
        (List.perm_ext_iff_of_nodup nodup_candidates (nodup_setOf _)).mpr fun pod => ⟨candidates_subset pod, hall pod⟩
      rw [hperm.length_eq]
    · -- A pod that no first row names is cut, so there are five candidates.
      simp only [not_forall] at hall
      obtain ⟨pod, hpod, hnot⟩ := hall
      have hfive := (h pod hpod (.inl hnot)).trans (List.length_filter_le _ _)
      have hsub : (candidates serviceNamespace topCpuRes topMemRes).Subperm (pods serviceNamespace topCpuRes topMemRes) :=
        List.subperm_of_subset nodup_candidates candidates_subset
      have hmore := hsub.length_le
      omega
  · rw [topPods_eq, List.pairwise_map]
    exact (((pairwise_ranked nodup_candidates).sublist (List.take_sublist _ _)).imp fun hahead => hahead.le)
  · rw [map_pod_topPods, topPods_eq, List.forall_mem_map]
    intro other hother pod hpod hnot
    by_cases hcut : Cut prices serviceNamespace topCpuRes topMemRes pod
    · -- Of the five that are at least as dear as the pod, one is the item itself or is not in the answer.
      have hfive := h pod hpod hcut
      generalize hothers : (candidates serviceNamespace topCpuRes topMemRes).filter _ = others at hfive
      have hgood : ∀ p ∈ others, p ∈ candidates serviceNamespace topCpuRes topMemRes ∧
          ¬ Cut prices serviceNamespace topCpuRes topMemRes p ∧
          (wholePod prices serviceNamespace topCpuRes topMemRes pod).hourly ≤
            (wholePod prices serviceNamespace topCpuRes topMemRes p).hourly := by
        intro p hp
        rw [← hothers] at hp
        obtain ⟨hp, hgood⟩ := List.mem_filter.mp hp
        exact ⟨hp, (of_decide_eq_true hgood).1, (of_decide_eq_true hgood).2.1⟩
      obtain ⟨p, hp, hcase⟩ : ∃ p ∈ others, p = other ∨ p ∉ firstPods prices serviceNamespace topCpuRes topMemRes := by
        by_contra hnone
        have hsub : ∀ p ∈ others, p ∈ (firstPods prices serviceNamespace topCpuRes topMemRes).erase other := by
          intro p hp
          have hpnot : ¬ (p = other ∨ p ∉ firstPods prices serviceNamespace topCpuRes topMemRes) := fun hcase =>
            hnone ⟨p, hp, hcase⟩
          rw [not_or, not_not] at hpnot
          exact (List.mem_erase_of_ne hpnot.1).mpr hpnot.2
        have hnodup : others.Nodup := hothers ▸ nodup_candidates.filter _
        have hle := (List.subperm_of_subset hnodup hsub).length_le
        have hfirst : (firstPods prices serviceNamespace topCpuRes topMemRes).length ≤ 5 := List.length_take_le _ _
        rw [List.length_erase_of_mem hother] at hle
        omega
      obtain ⟨hcandidate, hpuncut, hle⟩ := hgood p hp
      refine hle.trans ?_
      obtain rfl | hpnot := hcase
      · rw [hreported p hother]
      · rw [← hseen p hpuncut]
        exact (ahead_of_not_mem_take nodup_candidates hother hcandidate hpnot).le
    · rw [← hseen pod hcut]
      exact (ahead_of_not_mem_take nodup_candidates hother (of_not_not (not_or.mp hcut).1) hnot).le

end

instance (prices : CostUnitPrices) (serviceNamespace : Text) (topCpuRes topMemRes : List PromVectorResult) :
    Decidable (CutPodsBehind prices serviceNamespace topCpuRes topMemRes) := inferInstanceAs (Decidable (∀ _ ∈ _, _ → _ ≤ _))

end

/-- The answer for a service has its dearest pods exactly if every pod that the first ten rows cut has
    five ahead of it that are not cut and at least as dear. -/
theorem topPods_iff (prices : CostUnitPrices) (serviceNamespace serviceId : Text) (a : ServiceAnswers)
    (topCpuRes topMemRes : List PromVectorResult) (hcpu : a.topCpu = some topCpuRes) (hmem : a.topMem = some topMemRes)
    (detail : CostDetailResult) (h : getCostByService prices serviceNamespace serviceId a = some detail) :
    MostExpensive prices serviceNamespace topCpuRes topMemRes detail.topPods ↔
      CutPodsBehind prices serviceNamespace topCpuRes topMemRes := by
  have htop : detail.topPods = topPods prices serviceNamespace topCpuRes topMemRes := by
    unfold getCostByService at h
    simp only [hcpu, hmem, Option.getD_some] at h
    split_ifs at h
    exact (congrArg CostDetailResult.topPods (Option.some.inj h)).symm
  rw [htop]
  exact ⟨cutPodsBehind_of_mostExpensive, mostExpensive_of_cutPodsBehind⟩

/-! ### A pod that uses both -/

def samplePrices : CostUnitPrices := ⟨4 / 100, 5 / 1000, 1 / 10000⟩

def podRow (pod : Text) (value : ℚ) : PromVectorResult := ⟨some "shop".toList, some pod, value⟩

/-- A pod with most of the CPU and, after ten others, the least of the memory. -/
def sampleAnswers : ServiceAnswers where
  cpu := some [⟨some "shop".toList, some "web".toList, 2⟩]
  mem := some [⟨some "shop".toList, some "web".toList, 21 * 10 ^ 9⟩]
  topCpu := some (podRow "web".toList 1 :: (List.range 10).map fun i => podRow (['w', Nat.digitChar i]) (1 / 10))
  topMem := some (((List.range 10).map fun i => podRow (['w', Nat.digitChar i]) (2 * 10 ^ 9)) ++ [podRow "web".toList (10 ^ 9)])

/-- Its memory is not reported. -/
theorem memory_not_reported : ∃ detail, getCostByService samplePrices "shop".toList "web".toList sampleAnswers = some detail ∧
    ¬ MostExpensive samplePrices "shop".toList (sampleAnswers.topCpu.getD []) (sampleAnswers.topMem.getD []) detail.topPods := by
  refine ⟨_, rfl, fun h => ?_⟩
  have hwhole : ∀ t ∈ topPods samplePrices "shop".toList (sampleAnswers.topCpu.getD []) (sampleAnswers.topMem.getD []),
      t.memGb = (wholePod samplePrices "shop".toList (sampleAnswers.topCpu.getD []) (sampleAnswers.topMem.getD []) t.pod).memGb :=
    fun t ht => congrArg TopPod.memGb (h.whole t ht).2
  revert hwhole
  decide +kernel

/-- Twelve pods in the order of what they use, of which the first rows cut the last two. -/
def crowdedAnswers : ServiceAnswers where
  cpu := some [⟨some "shop".toList, some "web".toList, 8⟩]
  mem := some [⟨some "shop".toList, some "web".toList, 8 * 10 ^ 9⟩]
  topCpu := some ((List.range 12).map fun i => podRow ['w', Nat.digitChar i] ((12 - i) / 10))
  topMem := some ((List.range 12).map fun i => podRow ['w', Nat.digitChar i] ((12 - i) * 10 ^ 8))

theorem topPods_iff_crowded : ∃ detail, getCostByService samplePrices "shop".toList "web".toList crowdedAnswers = some detail ∧
    Cut samplePrices "shop".toList (crowdedAnswers.topCpu.getD []) (crowdedAnswers.topMem.getD []) "shop/wa".toList ∧
    detail.topPods.map TopPod.pod = ["shop/w0", "shop/w1", "shop/w2", "shop/w3", "shop/w4"].map String.toList ∧
    MostExpensive samplePrices "shop".toList (crowdedAnswers.topCpu.getD []) (crowdedAnswers.topMem.getD []) detail.topPods :=
  ⟨_, rfl, by decide +kernel, by decide +kernel,
    (topPods_iff samplePrices "shop".toList "web".toList crowdedAnswers _ _ rfl rfl _ rfl).mpr (by decide +kernel)⟩

end narwhal.portal.cost
