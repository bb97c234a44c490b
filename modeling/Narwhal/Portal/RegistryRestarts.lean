import Narwhal.Portal.ClusterFile
import Narwhal.Portal.RegistryRuns

open pylib
open narwhal.portal.cluster_registry hiding World Op

namespace narwhal.portal.cluster_file

/-! ### The file reads back -/

theorem text_lit (s : String) : text (lit s) = s := by
  unfold text lit
  rw [List.map_map]
  have hid : Char.ofNat ∘ Char.toNat = id := by
    funext c
    exact Char.ofNat_toNat c
  rw [hid, List.map_id, String.ofList_toList]

@[simp] theorem toText_ofText (s : String) : toText (ofText s) = some s := congrArg some (text_lit s)

@[simp] theorem toOption_ofOption (s : Option String) : toOption (ofOption s) = some s := by
  cases s with
  | none => rfl
  | some s => exact congrArg (some ∘ some) (text_lit s)

@[simp] theorem parse_environmentText (e : ClusterEnvironment) : ClusterEnvironment.parse (environmentText e) = some e := by
  cases e <;> rfl

@[simp] theorem parse_providerText (p : ClusterProvider) : ClusterProvider.parse (providerText p) = some p := by
  cases p <;> rfl

@[simp] theorem parse_capabilityText (c : ClusterCapabilityStatus) :
    ClusterCapabilityStatus.parse (capabilityText c) = some c := by
  cases c <;> rfl

@[simp] theorem parseHealth_healthText (h : ClusterHealthStatus) : parseHealth (healthText h) = some h := by
  cases h <;> rfl

theorem mapM_capabilityOf (capabilities : List (String × ClusterCapabilityStatus)) :
    (capabilities.map fun kv => (lit kv.1, ofText (capabilityText kv.2))).mapM capabilityOf = some capabilities := by
  induction capabilities with
  | nil => rfl
  | cons kv rest ih =>
    have hkv : capabilityOf (lit kv.1, ofText (capabilityText kv.2)) = some kv := by
      simp [capabilityOf, text_lit]
    rw [List.map_cons, List.mapM_cons, hkv, ih]
    rfl

/-- A field that was written is read back. -/
theorem strField_of_lookup {fields : List (Str × Json)} {key s : String}
    (h : lookupField (lit key) fields = some (ofText s)) : strField fields key = some s := by
  rw [strField, h, Option.bind_some, toText_ofText]

theorem optField_of_lookup {fields : List (Str × Json)} {key : String} {s : Option String}
    (h : lookupField (lit key) fields = some (ofOption s)) : optField fields key = some s := by
  rw [optField, h, Option.bind_some, toOption_ofOption]

private theorem some_bind {α β : Type} (a : α) (f : α → Option β) : (some a >>= f) = f a := rfl

/-- A cluster is read from the fields it was written to. -/
theorem ofJson_obj {c : Cluster} {fields ref : List (Str × Json)} (hid : strField fields "id" = some c.id)
    (hname : strField fields "name" = some c.name)
    (henvironment : strField fields "environment" = some (environmentText c.environment))
    (hprovider : strField fields "provider" = some (providerText c.provider))
    (hregion : optField fields "region" = some c.region)
    (hendpoint : optField fields "endpointHint" = some c.endpointHint)
    (href : objField fields "credentialRef" = some ref)
    (hapi : strField ref "apiServerEnvVar" = some c.credentialRef.apiServerEnvVar)
    (htoken : strField ref "tokenEnvVar" = some c.credentialRef.tokenEnvVar)
    (hcapabilities : objField fields "capabilities" =
      some (c.capabilities.map fun kv => (lit kv.1, ofText (capabilityText kv.2))))
    (hstatus : strField fields "status" = some (healthText c.status))
    (hregistered : strField fields "registeredAt" = some c.registeredAt)
    (hupdated : strField fields "updatedAt" = some c.updatedAt) : Cluster.ofJson (.obj fields) = some c := by
  simp only [Cluster.ofJson, fieldsOf, hid, hname, henvironment, hprovider, hregion, hendpoint, href, hapi, htoken,
    hcapabilities, hstatus, hregistered, hupdated, some_bind, Option.bind_some, parse_environmentText,
    parse_providerText, parseHealth_healthText, mapM_capabilityOf]
  rfl

/-- A cluster is read back from its JSON. -/
theorem ofJson_toJson (c : Cluster) : Cluster.ofJson (Cluster.toJson c) = some c := by
  apply ofJson_obj
  case href => rfl
  case hcapabilities => rfl
  case hregion | hendpoint => exact optField_of_lookup rfl
  all_goals exact strField_of_lookup rfl

theorem readable_capabilities (capabilities : List (String × ClusterCapabilityStatus)) :
    Json.ReadableFields some (fun _ => True) (capabilities.map fun kv => (lit kv.1, ofText (capabilityText kv.2))) := by
  induction capabilities with
  | nil => trivial
  | cons kv rest ih => exact ⟨trivial, trivial, ih⟩

theorem readable_ofOption (s : Option String) : (ofOption s).Readable some fun _ => True := by
  cases s <;> trivial

/-- The JSON of a cluster is one that `JSON.parse` reads, -/
theorem readable_toJson (c : Cluster) : (Cluster.toJson c).Readable some fun _ => True := by
  simp [Cluster.toJson, Json.Readable, Json.ReadableFields, ofText, readable_ofOption]
  exact readable_capabilities c.capabilities

/-- and so is that of a list of clusters. -/
theorem readable_clusters (clusters : List Cluster) :
    Json.ReadableItems some (fun _ => True) (clusters.map Cluster.toJson) := by
  induction clusters with
  | nil => trivial
  | cons c rest ih => exact ⟨readable_toJson c, ih⟩

theorem quote_sound : (indent2 quote).Sound fun _ => True :=
  indent2_sound fun s _ => ⟨s.flatMap escapeChar ++ [34], rfl, fun rest => by
    rw [List.append_assoc]
    exact scanString_quoted s rest⟩

/-- A file that was written to its end is read as the registry that was written. -/
theorem loadFile_fileText (clusters : List Cluster) : loadFile (some (fileText clusters)) = clusters := by
  have hparse : JSON.parse (fileText clusters) = some (.obj [(lit "clusters", .arr (clusters.map Cluster.toJson))]) :=
    loads_printed quote_sound ⟨rfl, trivial, readable_clusters clusters, trivial⟩
  have hdecode : (clusters.map Cluster.toJson).filterMap Cluster.ofJson = clusters := by
    rw [List.filterMap_map]
    calc clusters.filterMap (Cluster.ofJson ∘ Cluster.toJson) = clusters.filterMap some :=
          List.filterMap_congr fun c _ => ofJson_toJson c
      _ = clusters := List.filterMap_some
  simp [loadFile, hparse, lookupField, hdecode]

/-- Different lists have different texts. -/
theorem fileText_injective {a b : List Cluster} (h : fileText a = fileText b) : a = b := by
  rw [← loadFile_fileText a, h, loadFile_fileText]

/-- What a crash leaves is a beginning of the text, with or without a part of a character. -/
theorem cut_cases (n : Nat) (t : Str) : (∃ k, cut n t = t.take k) ∨ ∃ k, cut n t = t.take k ++ [0xFFFD] := by
  induction n, t using cut.induct with
  | case1 => exact .inl ⟨0, by simp [cut]⟩
  | case2 => exact .inl ⟨0, by simp [cut]⟩
  | case3 n c rest hfits ih =>
    rw [cut, if_pos hfits]
    obtain ⟨k, hk⟩ | ⟨k, hk⟩ := ih
    · exact .inl ⟨k + 1, by rw [hk, List.take_succ_cons]⟩
    · exact .inr ⟨k + 1, by rw [hk, List.take_succ_cons, List.cons_append]⟩
  | case4 n c rest hfits => exact .inr ⟨0, by rw [cut, if_neg hfits]; rfl⟩

/-- What is left of a file that was cut is a complete file only if all of it was written. -/
theorem eq_of_cut_fileText {a b : List Cluster} {n : Nat} (h : cut n (fileText b) = fileText a) : a = b := by
  have hvalue : ∀ clusters : List Cluster,
      (Json.obj [(lit "clusters", .arr (clusters.map Cluster.toJson))]).Readable some fun _ => True :=
    fun clusters => ⟨rfl, trivial, readable_clusters clusters, trivial⟩
  obtain ⟨k, hk⟩ | ⟨k, hk⟩ := cut_cases n (fileText b)
  · have htext : fileText a ++ (fileText b).drop k = fileText b := by
      rw [← h, hk, List.take_append_drop]
    have hobject := eq_of_printed_append quote_sound (hvalue a) (hvalue b)
      (by simpa only [fileText, List.append_assoc, List.singleton_append] using htext)
    apply fileText_injective
    rw [fileText, fileText, hobject]
  · rw [h] at hk
    have hlast := congrArg List.getLast? hk
    simp [fileText] at hlast

/-! ### One step -/

/-- A cluster that is accepted has an id of its own. -/
theorem validate_fresh {input : ClusterRegistrationInput} {existing : List Cluster} {now : String} {cluster : Cluster}
    (h : validateClusterRegistration input existing now = .ok cluster) : ∀ c ∈ existing, c.id ≠ cluster.id := by
  unfold validateClusterRegistration at h
  split at h
  · cases h
  split at h
  · cases h
  split at h
  · cases h
  split at h
  · cases h
  split at h
  · cases h
  split at h
  · cases h
  next id _ _ _ _ _ _ _ _ _ _ hfresh =>
  split at h
  · cases h
  split at h
  · cases h
  cases h
  intro c hc heq
  apply hfresh
  exact List.any_eq_true.mpr ⟨c, hc, by simpa using heq⟩

/-- A call that goes on keeps every cluster but the one it removes. -/
theorem mem_run_of_mem {call : Call} {existing : List Cluster} {write : Write} (h : call.decide existing = some write)
    {c : Cluster} (hc : c ∈ existing) (hkeep : write ≠ .remove c.id) : c ∈ write.run existing := by
  cases call with
  | registerCluster input now =>
    simp only [Call.decide] at h
    cases hvalid : validateClusterRegistration input existing now with
    | error e => simp [hvalid, Except.toOption] at h
    | ok cluster =>
      obtain rfl : Write.put cluster = write := by simpa [hvalid, Except.toOption] using h
      simp only [Write.run, put_of_fresh (validate_fresh hvalid), List.mem_append]
      exact .inl hc
  | removeCluster id =>
    simp only [Call.decide] at h
    cases hcan : canRemoveCluster id existing with
    | error e => simp [hcan, Except.toOption] at h
    | ok _ =>
      obtain rfl : Write.remove id = write := by simpa [hcan, Except.toOption] using h
      have hid : c.id ≠ id := fun heq => hkeep (by rw [heq])
      simp only [Write.run, FileClusterStore.remove, List.mem_filter]
      exact ⟨hc, by simpa using hid⟩

/-- The step is a call that removes the cluster of this id. -/
def Removes (id : String) (s : World) : Op → Prop
  | .call call _ | .crash call _ => call.decide s.load = some (.remove id)
  | .list | .restart => False

/-- All of the text is written. -/
def WriteOutcome.Whole (outcome : WriteOutcome) (text : Str) : Prop :=
  match outcome with
  | .complete => True
  | .failed left => ∃ n ∈ left, cut n text = text

/-- The step writes the file to its end. -/
def Completes (s : World) : Op → Prop
  | .call call outcome => ∃ write ∈ call.decide s.load, outcome.Whole (fileText (write.run s.load))
  | .crash call left => ∃ write ∈ call.decide s.load, (WriteOutcome.failed left).Whole (fileText (write.run s.load))
  | .list | .restart => False

/-- A process that starts finds a file that was written to its end. -/
def Found (s : World) (op : Op) : Prop :=
  (s.after op).cache = none → ∃ clusters, (s.after op).file = some (fileText clusters)

section After

variable {s : World} {call : Call}

/-- A call that is refused only fills the cache, -/
theorem after_call_of_refused (h : call.decide s.load = none) (outcome : WriteOutcome) :
    s.after (.call call outcome) = { s with cache := some s.load } := by
  simp only [World.after, World.step, h]

/-- and has no write that a crash could cut. -/
theorem after_crash_of_refused (h : call.decide s.load = none) (left : Nat) :
    s.after (.crash call left) = { s with cache := some s.load } := by
  simp only [World.after, World.step, h]

/-- A call that is accepted writes what it has made of the list. -/
theorem after_call {write : Write} (h : call.decide s.load = some write) (outcome : WriteOutcome) :
    s.after (.call call outcome) = s.persist (write.run s.load) outcome := by
  simp only [World.after, World.step, h]

/-- A crash leaves a part of the new text, and the next process reads it. -/
theorem after_crash {write : Write} (h : call.decide s.load = some write) (left : Nat) :
    s.after (.crash call left) = ⟨none, some (cut left (fileText (write.run s.load)))⟩ := by
  simp only [World.after, World.step, h]

end After

/-- The cluster is in the registry, and in the file if that is complete. -/
structure Kept (c : Cluster) (s : World) : Prop where
  registry : c ∈ s.load
  file : ∀ clusters, s.file = some (fileText clusters) → c ∈ clusters

/-- A write of a list with the cluster keeps it. -/
theorem Kept.persist {c : Cluster} {s : World} (h : Kept c s) {clusters : List Cluster} (hc : c ∈ clusters)
    (outcome : WriteOutcome) : Kept c (s.persist clusters outcome) where
  registry := hc
  file written hwritten := by
    cases outcome with
    | complete =>
      obtain rfl := fileText_injective (Option.some.inj hwritten)
      exact hc
    | failed left =>
      cases left with
      | none => exact h.file written hwritten
      | some left =>
        obtain rfl := eq_of_cut_fileText (Option.some.inj hwritten)
        exact hc

/-- A step that does not remove the cluster, and finds it, keeps it. -/
theorem Kept.after {c : Cluster} {s : World} (h : Kept c s) {op : Op} (hkeep : ¬ Removes c.id s op)
    (hfound : Found s op) : Kept c (s.after op) := by
  cases op with
  | call call outcome =>
    cases hwrite : call.decide s.load with
    | none =>
      rw [after_call_of_refused hwrite]
      exact ⟨h.registry, h.file⟩
    | some write =>
      rw [after_call hwrite]
      exact h.persist (mem_run_of_mem hwrite h.registry fun heq => hkeep (hwrite.trans (congrArg some heq))) outcome
  | crash call left =>
    cases hwrite : call.decide s.load with
    | none =>
      rw [after_crash_of_refused hwrite]
      exact ⟨h.registry, h.file⟩
    | some write =>
      have hmem : c ∈ write.run s.load :=
        mem_run_of_mem hwrite h.registry fun heq => hkeep (hwrite.trans (congrArg some heq))
      obtain ⟨clusters, hclusters⟩ := hfound (by rw [after_crash hwrite])
      rw [after_crash hwrite] at hclusters ⊢
      obtain rfl := eq_of_cut_fileText (Option.some.inj hclusters)
      have hload : (⟨none, some (cut left (fileText (write.run s.load)))⟩ : World).load = write.run s.load :=
        (congrArg loadFile hclusters).trans (loadFile_fileText _)
      refine ⟨hload.symm ▸ hmem, fun written hwritten => ?_⟩
      obtain rfl := eq_of_cut_fileText (Option.some.inj hwritten)
      exact hmem
  | list => exact ⟨h.registry, h.file⟩
  | restart =>
    obtain ⟨clusters, hclusters⟩ := hfound rfl
    have hload : (s.after .restart).load = clusters := (congrArg loadFile hclusters).trans (loadFile_fileText clusters)
    refine ⟨?_, h.file⟩
    rw [hload]
    exact h.file clusters hclusters

/-- A cluster of the registry is in the file that is written to its end. -/
theorem kept_persist_of_whole {c : Cluster} {s : World} {clusters : List Cluster} (hc : c ∈ clusters)
    {outcome : WriteOutcome} (hwhole : outcome.Whole (fileText clusters)) : Kept c (s.persist clusters outcome) where
  registry := hc
  file written hwritten := by
    cases outcome with
    | complete =>
      obtain rfl := fileText_injective (Option.some.inj hwritten)
      exact hc
    | failed left =>
      obtain ⟨n, rfl, _⟩ := hwhole
      obtain rfl := eq_of_cut_fileText (Option.some.inj hwritten)
      exact hc

/-- A write to the end of the file keeps the clusters of the registry, but the one that it removes. -/
theorem kept_of_completes {c : Cluster} {s : World} (hc : c ∈ s.load) {op : Op} (hkeep : ¬ Removes c.id s op)
    (hcompletes : Completes s op) : Kept c (s.after op) := by
  cases op with
  | call call outcome =>
    obtain ⟨write, hwrite, hwhole⟩ := hcompletes
    rw [after_call hwrite]
    exact kept_persist_of_whole (mem_run_of_mem hwrite hc fun heq => hkeep (hwrite.trans (congrArg some heq))) hwhole
  | crash call left =>
    obtain ⟨write, hwrite, n, hn, hall⟩ := hcompletes
    obtain rfl : left = n := Option.some.inj hn
    have hmem : c ∈ write.run s.load := mem_run_of_mem hwrite hc fun heq => hkeep (hwrite.trans (congrArg some heq))
    rw [after_crash hwrite, hall]
    refine ⟨?_, fun written hwritten => ?_⟩
    · rwa [World.load, Option.getD_none, loadFile_fileText]
    · obtain rfl := fileText_injective (Option.some.inj hwritten)
      exact hmem
  | list => exact hcompletes.elim
  | restart => exact hcompletes.elim

/-- A process that goes on holds the cluster, whatever becomes of the file. -/
theorem mem_load_of_cached {c : Cluster} {s : World} (hc : c ∈ s.load) {op : Op} (hkeep : ¬ Removes c.id s op)
    (hcached : (s.after op).cache ≠ none) : c ∈ (s.after op).load := by
  cases op with
  | call call outcome =>
    cases hwrite : call.decide s.load with
    | none =>
      rw [after_call_of_refused hwrite]
      exact hc
    | some write =>
      rw [after_call hwrite]
      exact mem_run_of_mem hwrite hc fun heq => hkeep (hwrite.trans (congrArg some heq))
  | crash call left =>
    cases hwrite : call.decide s.load with
    | none =>
      rw [after_crash_of_refused hwrite]
      exact hc
    | some write =>
      rw [after_crash hwrite] at hcached
      exact absurd rfl hcached
  | list => exact hc
  | restart => exact absurd rfl hcached

/-! ### Runs -/

/-- The state after a registration, and whether the file was written to its end by it or since. -/
structure Followed where
  world : World
  written : Prop

def Followed.after (f : Followed) (op : Op) : Followed := ⟨f.world.after op, f.written ∨ Completes f.world op⟩

/-- The step removes no cluster of this id; and a process that starts finds a file that was written
    to its end, and was so at or after the registration. -/
def Lasting (id : String) (f : Followed) (op : Op) : Prop :=
  ¬ Removes id f.world op ∧ Found f.world op ∧ ((f.world.after op).cache = none → (f.after op).written)

/-- Following the writes changes nothing of the run. -/
theorem Followed.world_run (f : Followed) (ops : List Op) : (ops.foldl Followed.after f).world = f.world.run ops := by
  induction ops generalizing f with
  | nil => rfl
  | cons op ops ih => exact ih (f.after op)

/-- The cluster is in the registry, and also in the file once that was written to its end. -/
structure Listed (c : Cluster) (f : Followed) : Prop where
  registry : c ∈ f.world.load
  kept : f.written → Kept c f.world

theorem Listed.after {c : Cluster} {f : Followed} (h : Listed c f) {op : Op} (hlasting : Lasting c.id f op) :
    Listed c (f.after op) := by
  obtain ⟨hkeep, hfound, hstarts⟩ := hlasting
  have hkept : (f.after op).written → Kept c (f.world.after op) := by
    rintro (hwritten | hcompletes)
    · exact (h.kept hwritten).after hkeep hfound
    · exact kept_of_completes h.registry hkeep hcompletes
  refine ⟨?_, hkept⟩
  by_cases hcached : (f.world.after op).cache = none
  · exact (hkept (hstarts hcached)).registry
  · exact mem_load_of_cached h.registry hkeep hcached

/-- A cluster that was registered is listed until it is removed, as long as no process starts before the
    file was written to its end once, or with a file that was not; and a cluster of a complete file stays
    listed and in every complete file until it is removed, as long as no process starts with a file that
    was not written to its end. -/
theorem registered_clusters_kept :
    (∀ (s : World) (input : ClusterRegistrationInput) (now : String) (outcome : WriteOutcome) (c : Cluster)
        (ops : List Op), (s.step (.call (.registerCluster input now) outcome)).2 = .registered c →
      Allowed Followed.after (Lasting c.id)
        ⟨s.after (.call (.registerCluster input now) outcome), Completes s (.call (.registerCluster input now) outcome)⟩
        ops →
      ∃ clusters, (((s.after (.call (.registerCluster input now) outcome)).run ops).step .list).2 = .listed clusters ∧
        c ∈ clusters) ∧
    ∀ (s : World) (clusters : List Cluster) (c : Cluster) (ops : List Op), s.file = some (fileText clusters) →
      (∀ cached ∈ s.cache, cached = clusters) → c ∈ clusters →
      Allowed World.after (fun t op => ¬ Removes c.id t op ∧ Found t op) s ops →
      (∃ listed, ((s.run ops).step .list).2 = .listed listed ∧ c ∈ listed) ∧
        ∀ later, (s.run ops).file = some (fileText later) → c ∈ later := by
  constructor
  · intro s input now outcome c ops hreply hrun
    have hstart : Listed c ⟨s.after (.call (.registerCluster input now) outcome),
        Completes s (.call (.registerCluster input now) outcome)⟩ := by
      cases hwrite : (Call.registerCluster input now).decide s.load with
      | none => simp [World.step, hwrite] at hreply
      | some write =>
        have hmem : c ∈ write.run s.load := by
          simp only [World.step, hwrite] at hreply
          cases write with
          | put cluster =>
            obtain rfl : cluster = c := by simpa [World.replyOf] using hreply
            exact List.mem_append_right _ List.mem_cons_self
          | remove id => cases hreply
        rw [after_call hwrite]
        refine ⟨hmem, fun hcompletes => ?_⟩
        obtain ⟨write', hwrite', hwhole⟩ := hcompletes
        obtain rfl : write = write' := Option.some.inj (hwrite.symm.trans hwrite')
        exact kept_persist_of_whole hmem hwhole
    have hlisted := hrun.invariant (fun f op hf hop => Listed.after hf hop) hstart
    have hregistry := hlisted.registry
    rw [Followed.world_run] at hregistry
    exact ⟨_, rfl, hregistry⟩
  · intro s clusters c ops hfile hcache hc hrun
    have hload : s.load = clusters := by
      cases hs : s.cache with
      | none => rw [World.load, hs, hfile, Option.getD_none, loadFile_fileText]
      | some cached => rw [World.load, hs, Option.getD_some, hcache cached hs]
    have hstart : Kept c s := by
      refine ⟨hload.symm ▸ hc, fun written hwritten => ?_⟩
      obtain rfl := fileText_injective (Option.some.inj (hfile.symm.trans hwritten))
      exact hc
    have hkept : Kept c (s.run ops) := hrun.invariant (fun t op ht hop => ht.after hop.1 hop.2) hstart
    exact ⟨⟨_, rfl, hkept.registry⟩, hkept.file⟩

/-! ### Runs on a registry of one cluster -/

def clusterA : Cluster := sampleCluster "a" "A_API" "A_TOKEN"

/-- A registration of a cluster with credentials of its own. -/
abbrev register (id apiServerEnvVar tokenEnvVar : String) : Call :=
  .registerCluster (sampleInput id apiServerEnvVar tokenEnvVar) "2026-01-01T00:00:00.000Z"

theorem decide_register_b : (register "b" "B_API" "B_TOKEN").decide [clusterA] = some (.put (sampleCluster "b" "B_API" "B_TOKEN")) := by
  decide

theorem decide_register_d (existing : List Cluster) (h : existing = [] ∨ existing = [clusterA]) :
    (register "d" "D_API" "D_TOKEN").decide existing = some (.put (sampleCluster "d" "D_API" "D_TOKEN")) := by
  obtain rfl | rfl := h <;> decide

theorem decide_register_d_after : (register "d" "D_API" "D_TOKEN").decide
    [clusterA, sampleCluster "b" "B_API" "B_TOKEN"] = some (.put (sampleCluster "d" "D_API" "D_TOKEN")) := by
  decide

/-- The process has loaded the file. -/
def loaded : World := ⟨some [clusterA], some (fileText [clusterA])⟩

/-- A registration whose write throws, then one whose write is complete, and a restart. -/
theorem registered_cluster_survives_restart :
    (∃ clusters, (((loaded.after (.call (register "b" "B_API" "B_TOKEN") (.failed none))).run
        [.call (register "d" "D_API" "D_TOKEN") .complete, .restart]).step .list).2 = .listed clusters ∧
      sampleCluster "b" "B_API" "B_TOKEN" ∈ clusters) ∧
    (∃ clusters, ((loaded.run [.call (register "b" "B_API" "B_TOKEN") (.failed none), .restart]).step .list).2 =
        .listed clusters ∧ clusterA ∈ clusters) := by
  have hreply : (loaded.step (.call (register "b" "B_API" "B_TOKEN") (.failed none))).2 =
      .registered (sampleCluster "b" "B_API" "B_TOKEN") := by
    simp only [World.step, show loaded.load = [clusterA] from rfl, decide_register_b, World.replyOf]
  have hafter : loaded.after (.call (register "b" "B_API" "B_TOKEN") (.failed none)) =
      ⟨some [clusterA, sampleCluster "b" "B_API" "B_TOKEN"], some (fileText [clusterA])⟩ := by
    rw [after_call (s := loaded) decide_register_b]
    rfl
  have hnext : (⟨some [clusterA, sampleCluster "b" "B_API" "B_TOKEN"], some (fileText [clusterA])⟩ : World).after
      (.call (register "d" "D_API" "D_TOKEN") .complete) =
        ⟨some [clusterA, sampleCluster "b" "B_API" "B_TOKEN", sampleCluster "d" "D_API" "D_TOKEN"],
          some (fileText [clusterA, sampleCluster "b" "B_API" "B_TOKEN", sampleCluster "d" "D_API" "D_TOKEN"])⟩ := by
    rw [after_call (s := ⟨some [clusterA, sampleCluster "b" "B_API" "B_TOKEN"], _⟩) decide_register_d_after]
    rfl
  constructor
  · refine registered_clusters_kept.1 loaded (sampleInput "b" "B_API" "B_TOKEN") "2026-01-01T00:00:00.000Z" (.failed none)
      (sampleCluster "b" "B_API" "B_TOKEN") _ hreply ?_
    rw [hafter]
    refine ⟨⟨?_, ?_, ?_⟩, ⟨not_false, ?_, ?_⟩, trivial⟩
    · intro hremoves
      cases decide_register_d_after.symm.trans hremoves
    · intro hnone
      rw [hnext] at hnone
      cases hnone
    · intro hnone
      rw [hnext] at hnone
      cases hnone
    · intro _
      simp only [Followed.after, hnext]
      exact ⟨_, rfl⟩
    · exact fun _ => .inl (.inr ⟨_, decide_register_d_after, trivial⟩)
  · refine (registered_clusters_kept.2 loaded [clusterA] clusterA _ rfl (fun cached hcached => by cases hcached; rfl)
      List.mem_cons_self ?_).1
    refine ⟨⟨?_, ?_⟩, ⟨not_false, ?_⟩, trivial⟩
    · intro hremoves
      cases decide_register_b.symm.trans hremoves
    · intro hnone
      rw [hafter] at hnone
      cases hnone
    · intro _
      rw [hafter]
      exact ⟨_, rfl⟩

/-- A registration that could not be written is reported as a success and gone after a restart; and
    a file that a crash left empty becomes a registry without the cluster it had. -/
theorem failed_write_loses_clusters :
    ((loaded.step (.call (register "b" "B_API" "B_TOKEN") (.failed none))).2 =
        .registered (sampleCluster "b" "B_API" "B_TOKEN") ∧
      ((loaded.run [.call (register "b" "B_API" "B_TOKEN") (.failed none), .restart]).step
          (.call (register "d" "D_API" "D_TOKEN") .complete)).2 = .registered (sampleCluster "d" "D_API" "D_TOKEN") ∧
      sampleCluster "b" "B_API" "B_TOKEN" ∉ (loaded.run [.call (register "b" "B_API" "B_TOKEN") (.failed none), .restart,
        .call (register "d" "D_API" "D_TOKEN") .complete]).load) ∧
    (((loaded.run [.crash (register "b" "B_API" "B_TOKEN") 0]).step
          (.call (register "d" "D_API" "D_TOKEN") .complete)).2 = .registered (sampleCluster "d" "D_API" "D_TOKEN") ∧
      (loaded.run [.crash (register "b" "B_API" "B_TOKEN") 0, .call (register "d" "D_API" "D_TOKEN") .complete]).file =
        some (fileText [sampleCluster "d" "D_API" "D_TOKEN"])) := by
  have hfailed : loaded.run [.call (register "b" "B_API" "B_TOKEN") (.failed none), .restart] =
      ⟨none, some (fileText [clusterA])⟩ := by
    simp only [World.run, List.foldl_cons, List.foldl_nil, after_call (s := loaded) decide_register_b]
    rfl
  have hcrashed : loaded.run [.crash (register "b" "B_API" "B_TOKEN") 0] = ⟨none, some []⟩ := by
    simp only [World.run, List.foldl_cons, List.foldl_nil, after_crash (s := loaded) decide_register_b]
    rfl
  have hloadA : (⟨none, some (fileText [clusterA])⟩ : World).load = [clusterA] := by
    rw [World.load, Option.getD_none, loadFile_fileText]
  have hloadEmpty : (⟨none, some []⟩ : World).load = [] := rfl
  refine ⟨⟨?_, ?_, ?_⟩, ?_, ?_⟩
  · simp only [World.step, show loaded.load = [clusterA] from rfl, decide_register_b, World.replyOf]
  · rw [hfailed]
    simp only [World.step, hloadA, decide_register_d _ (.inr rfl), World.replyOf]
  · have hrun : loaded.run [.call (register "b" "B_API" "B_TOKEN") (.failed none), .restart,
        .call (register "d" "D_API" "D_TOKEN") .complete] =
        (loaded.run [.call (register "b" "B_API" "B_TOKEN") (.failed none), .restart]).after
          (.call (register "d" "D_API" "D_TOKEN") .complete) := rfl
    rw [hrun, hfailed, after_call (by rw [hloadA]; exact decide_register_d _ (.inr rfl)), hloadA]
    decide
  · rw [hcrashed]
    simp only [World.step, hloadEmpty, decide_register_d _ (.inl rfl), World.replyOf]
  · have hrun : loaded.run [.crash (register "b" "B_API" "B_TOKEN") 0, .call (register "d" "D_API" "D_TOKEN") .complete] =
        (loaded.run [.crash (register "b" "B_API" "B_TOKEN") 0]).after
          (.call (register "d" "D_API" "D_TOKEN") .complete) := rfl
    rw [hrun, hcrashed, after_call (by rw [hloadEmpty]; exact decide_register_d _ (.inl rfl)), hloadEmpty]
    rfl

end narwhal.portal.cluster_file
