import Narwhal.Portal.InvocationJson

open jslib

namespace narwhal.portal.agent_invocation

theorem extends_alloc {heap : Heap} {o : Object} (h : ∀ v ∈ o.values, v.Below (heap.size + 1)) :
    Extends heap (heap.alloc o h) := by
  refine ⟨?_, fun v hv => Heap.object_alloc hv⟩
  rw [Heap.size_alloc]
  exact Nat.le_succ _

theorem Extends.trans {heap later last : Heap} (h : Extends heap later) (hlater : Extends later last) :
    Extends heap last :=
  ⟨h.1.trans hlater.1, fun v hv => (hlater.2 v (hv.mono h.1)).trans (h.2 v hv)⟩

/-- Later objects change nothing of what a value has, -/
theorem own_extends {heap later : Heap} (hextends : Extends heap later) {v : Value} (hv : v.Below heap.size)
    (key : String) : own later v key = own heap v key := by
  simp only [own, hextends.2 v hv]

/-- nor its canonical text. -/
theorem canonicalizeJson_extends {heap later : Heap} (hextends : Extends heap later) {v : Value}
    (hv : v.Below heap.size) : canonicalizeJson later v = canonicalizeJson heap v := by
  apply Option.ext
  intro text
  simp only [canonicalizeJson_some_iff, toJson_extends hextends 17 (fun _ _ => Iff.rfl) hv]

section

variable {heap : Heap}

theorem toJson_str (depth : Nat) (active : List Nat) (s : Text) :
    toJson heap (depth + 1) active (.str s) = some (.str s) := rfl

/-! ### The text that is hashed -/

def namespaceJson : Option Text → Json
  | some namespace_ => .str namespace_
  | none => .null

/-- A resolution with its arguments, the keys in order. -/
def artifactJson (tool toolContractVersion cluster : Text) (namespace_ : Option Text) (args : Json) : Json :=
  .obj [
    ("canonicalizationVersion".toList, .str CANONICALIZATION_VERSION),
    ("normalizedArgs".toList, args),
    ("target".toList, .obj [("cluster".toList, .str cluster), ("namespace".toList, namespaceJson namespace_)]),
    ("tool".toList, .str tool),
    ("toolContractVersion".toList, .str toolContractVersion)]

namespace ResolutionArtifact

def json (r : ResolutionArtifact heap) (args : Json) : Json :=
  artifactJson r.tool r.toolContractVersion r.cluster r.namespace_ args

theorem extends_targetHeap (r : ResolutionArtifact heap) : Extends heap r.targetHeap :=
  agent_invocation.extends_alloc r.below_targetObject

theorem extends_alloc (r : ResolutionArtifact heap) : Extends heap r.alloc.1 :=
  r.extends_targetHeap.trans (agent_invocation.extends_alloc r.below_object)

theorem object_alloc (r : ResolutionArtifact heap) : r.alloc.1.object r.alloc.2 = some r.object :=
  Heap.object_alloc_new (h := r.below_object)

theorem object_target (r : ResolutionArtifact heap) : r.alloc.1.object (.ref heap.size) = some r.targetObject := by
  have hbelow : (Value.ref heap.size).Below r.targetHeap.size := by
    change heap.size < r.targetHeap.size
    rw [targetHeap, Heap.size_alloc]
    exact Nat.lt_succ_self _
  have hold := Heap.object_alloc (h := r.below_object) hbelow
  exact hold.trans (Heap.object_alloc_new (h := r.below_targetObject))

/-- The keys of an artifact in their order. -/
theorem sortByKey_object (r : ResolutionArtifact heap) :
    sortByKey [("tool".toList, Value.str r.tool), ("toolContractVersion".toList, .str r.toolContractVersion),
        ("target".toList, .ref heap.size), ("normalizedArgs".toList, r.normalizedArgs),
        ("canonicalizationVersion".toList, .str CANONICALIZATION_VERSION)] =
      [("canonicalizationVersion".toList, .str CANONICALIZATION_VERSION), ("normalizedArgs".toList, r.normalizedArgs),
        ("target".toList, .ref heap.size), ("tool".toList, .str r.tool),
        ("toolContractVersion".toList, .str r.toolContractVersion)] := by
  rfl

theorem dataProperties_object (r : ResolutionArtifact heap) :
    dataProperties r.object = some [("tool".toList, Value.str r.tool),
      ("toolContractVersion".toList, .str r.toolContractVersion), ("target".toList, .ref heap.size),
      ("normalizedArgs".toList, r.normalizedArgs), ("canonicalizationVersion".toList, .str CANONICALIZATION_VERSION)] := by
  rfl

theorem toJson_target (r : ResolutionArtifact heap) (depth : Nat) (active : List Nat) (hactive : heap.size ∉ active) :
    toJson r.alloc.1 (depth + 2) active (.ref heap.size) =
      some (.obj [("cluster".toList, .str r.cluster), ("namespace".toList, namespaceJson r.namespace_)]) := by
  have hplain : plain r.alloc.1 (.ref heap.size) = true := by simp [plain, r.object_target, targetObject]
  have hlength : r.targetObject.arrayLength = none := rfl
  have hproperties : dataProperties r.targetObject =
      some [("cluster".toList, .str r.cluster), ("namespace".toList, r.namespaceValue)] := rfl
  have hsort : sortByKey [("cluster".toList, Value.str r.cluster), ("namespace".toList, r.namespaceValue)] =
      [("cluster".toList, Value.str r.cluster), ("namespace".toList, r.namespaceValue)] := rfl
  have hnamespace : ∀ active', toJson r.alloc.1 (depth + 1) active' r.namespaceValue = some (namespaceJson r.namespace_) := by
    intro active'
    unfold namespaceValue
    cases r.namespace_ <;> rfl
  rw [toJson]
  simp only [r.object_target, hactive, hlength, hplain, hproperties, hsort, if_false, not_true, Option.bind_eq_bind,
    Option.bind_some, List.mapM_cons, List.mapM_nil, hnamespace, toJson_str, Option.map_some, Option.pure_def]

/-- The object that `resolution` returns is read with its arguments one level below it. -/
theorem toJson_alloc (r : ResolutionArtifact heap) :
    toJson r.alloc.1 17 [] r.alloc.2 = (toJson heap 16 [] r.normalizedArgs).map r.json := by
  have hplain : plain r.alloc.1 r.alloc.2 = true := by simp [plain, r.object_alloc, object]
  have hlength : r.object.arrayLength = none := rfl
  have hargs : toJson r.alloc.1 16 [r.targetHeap.size] r.normalizedArgs = toJson heap 16 [] r.normalizedArgs := by
    refine toJson_extends r.extends_alloc 16 (fun address haddress => ?_) r.below
    have hsize : r.targetHeap.size = heap.size + 1 := Heap.size_alloc
    have hne : address ≠ r.targetHeap.size := by omega
    simp [hne]
  have htarget : heap.size ∉ [r.targetHeap.size] := by
    have hsize : r.targetHeap.size = heap.size + 1 := Heap.size_alloc
    simp [hsize]
  have hobject : r.alloc.1.object (.ref r.targetHeap.size) = some r.object := r.object_alloc
  have hplain' : plain r.alloc.1 (.ref r.targetHeap.size) = true := hplain
  change toJson r.alloc.1 17 [] (.ref r.targetHeap.size) = _
  rw [toJson]
  simp only [hobject, List.not_mem_nil, hlength, hplain', r.dataProperties_object, r.sortByKey_object, if_false, not_true,
    Option.bind_eq_bind, Option.bind_some, List.mapM_cons, List.mapM_nil, hargs, r.toJson_target 14 _ htarget,
    Option.map_some, Option.pure_def]
  cases toJson heap 16 [] r.normalizedArgs with
  | none => rfl
  | some args => rfl

/-- The resolution and its text are within the limits, with its arguments. -/
theorem canonicalizeJson_alloc_some_iff (r : ResolutionArtifact heap) {text : Text} :
    canonicalizeJson r.alloc.1 r.alloc.2 = some text ↔
      ∃ args, toJson heap 16 [] r.normalizedArgs = some args ∧ Within (r.json args) ∧ text = stringify (r.json args) := by
  rw [canonicalizeJson_some_iff, r.toJson_alloc]
  simp only [Option.map_eq_some_iff]
  constructor
  · rintro ⟨t, ⟨args, hargs, rfl⟩, hwithin, rfl⟩
    exact ⟨args, hargs, hwithin, rfl⟩
  · rintro ⟨args, hargs, hwithin, rfl⟩
    exact ⟨_, ⟨args, hargs, rfl⟩, hwithin, rfl⟩

end ResolutionArtifact

/-! ### Well-formed resolutions -/

theorem matched_some_iff {value : Value} {pattern : Text → Bool} {s : Text} :
    matched value pattern = some s ↔ value = .str s ∧ pattern s = true := by
  cases value with
  | str s' =>
    by_cases hs' : pattern s' = true
    · simp only [matched, if_pos hs', Option.some.injEq, Value.str.injEq]
      exact ⟨fun h => ⟨h, h ▸ hs'⟩, And.left⟩
    · simp only [matched, if_neg hs', Value.str.injEq]
      refine iff_of_false (by simp) ?_
      rintro ⟨rfl, hs⟩
      exact hs' hs
  | undefined | null | bool | num | nonFinite | other | ref => simp [matched]

/-- The value has the fields of this resolution, each of its form. -/
structure Resolves (heap : Heap) (value : Value) (r : ResolutionArtifact heap) : Prop where
  tool : own heap value "tool" = .str r.tool ∧ isToolName r.tool = true
  toolContractVersion :
    own heap value "toolContractVersion" = .str r.toolContractVersion ∧ isContractVersion r.toolContractVersion = true
  cluster : own heap (own heap value "target") "cluster" = .str r.cluster ∧ isLabelText r.cluster = true
  namespace_ : own heap (own heap value "target") "namespace" = r.namespaceValue ∧
    ∀ namespace_, r.namespace_ = some namespace_ → isLabelText namespace_ = true
  canonicalizationVersion : own heap value "canonicalizationVersion" = .str CANONICALIZATION_VERSION
  normalizedArgs : own heap value "normalizedArgs" = r.normalizedArgs

/-- A namespace is a label, or null. -/
theorem namespaceOf_some_iff {value : Value} {namespace_ : Option Text} :
    namespaceOf value = some namespace_ ↔
      value = (match namespace_ with | some namespace_ => .str namespace_ | none => .null) ∧
        ∀ s, namespace_ = some s → isLabelText s = true := by
  unfold namespaceOf
  by_cases hnull : value = .null
  · subst hnull
    cases namespace_ with
    | none => simp
    | some s => simp
  · simp only [if_neg hnull, Option.map_eq_some_iff, matched_some_iff]
    cases namespace_ with
    | none => simp [hnull]
    | some s => simp

/-- A value is taken as an artifact exactly if it resolves and its arguments have a canonical text. -/
theorem resolution_some_iff {value : Value} {r : ResolutionArtifact heap} :
    resolution heap value = some r ↔ Resolves heap value r ∧ canonicalizeJson heap r.normalizedArgs ≠ none := by
  unfold resolution
  simp only [Option.bind_eq_bind, Option.bind_eq_some_iff, matched_some_iff, namespaceOf_some_iff]
  constructor
  · rintro ⟨tool, htool, version, hversion, cluster, hcluster, namespace_, hnamespace, h⟩
    split at h
    · cases h
    · next hcanonical =>
      obtain ⟨text, htext, h⟩ := Option.bind_eq_some_iff.mp h
      obtain rfl := Option.some.inj h
      refine ⟨⟨htool, hversion, hcluster, hnamespace, not_not.mp hcanonical, rfl⟩, ?_⟩
      rw [htext]
      exact Option.some_ne_none text
  · obtain ⟨tool, version, cluster, namespace_, args, hbelow⟩ := r
    rintro ⟨h, hargs⟩
    obtain rfl := h.normalizedArgs
    obtain ⟨text, htext⟩ := Option.ne_none_iff_exists'.mp hargs
    refine ⟨tool, h.tool, version, h.toolContractVersion, cluster, h.cluster, namespace_, h.namespace_, ?_⟩
    rw [if_neg (not_not.mpr h.canonicalizationVersion), htext]
    rfl

/-! ### The digest of a resolution -/

namespace ResolutionArtifact

/-- The same resolution, read out of the object that holds it. -/
def again (r : ResolutionArtifact heap) : ResolutionArtifact r.alloc.1 where
  tool := r.tool
  toolContractVersion := r.toolContractVersion
  cluster := r.cluster
  namespace_ := r.namespace_
  normalizedArgs := r.normalizedArgs
  below := r.below.mono r.extends_alloc.1

theorem own_alloc (r : ResolutionArtifact heap) (key : String) :
    own r.alloc.1 r.alloc.2 key = (match r.object.property key.toList with | some ⟨some v, _⟩ => v | _ => .undefined) := by
  rewrite [own, r.object_alloc]
  rfl

theorem own_target (r : ResolutionArtifact heap) (key : String) :
    own r.alloc.1 (.ref heap.size) key =
      (match r.targetObject.property key.toList with | some ⟨some v, _⟩ => v | _ => .undefined) := by
  rewrite [own, r.object_target]
  rfl

theorem resolves_again {r : ResolutionArtifact heap} {value : Value} (h : Resolves heap value r) :
    Resolves r.alloc.1 r.alloc.2 r.again := by
  have htarget : own r.alloc.1 r.alloc.2 "target" = .ref heap.size := r.own_alloc "target"
  refine ⟨⟨r.own_alloc "tool", h.tool.2⟩, ⟨r.own_alloc "toolContractVersion", h.toolContractVersion.2⟩, ?_, ?_,
    r.own_alloc "canonicalizationVersion", r.own_alloc "normalizedArgs"⟩
  · rw [htarget]
    exact ⟨r.own_target "cluster", h.cluster.2⟩
  · rw [htarget]
    exact ⟨r.own_target "namespace", h.namespace_.2⟩

theorem resolution_alloc {r : ResolutionArtifact heap} {value : Value} (h : resolution heap value = some r) :
    resolution r.alloc.1 r.alloc.2 = some r.again := by
  obtain ⟨hresolves, hargs⟩ := resolution_some_iff.mp h
  apply resolution_some_iff.mpr
  refine ⟨resolves_again hresolves, ?_⟩
  change canonicalizeJson r.alloc.1 r.normalizedArgs ≠ none
  rwa [canonicalizeJson_extends r.extends_alloc r.below]

end ResolutionArtifact

/-- The arguments and the resolution around them can be written within the limits, as these JSON
    values. -/
structure Canonicalisable (r : ResolutionArtifact heap) (args : Json) : Prop where
  read : toJson heap 16 [] r.normalizedArgs = some args
  within : Within (r.json args)

theorem computeInvocationDigest_some_iff {r : ResolutionArtifact heap} {value : Value}
    (h : resolution heap value = some r) {digest : Text} :
    computeInvocationDigest r.alloc.1 r.alloc.2 = some digest ↔
      ∃ args, Canonicalisable r args ∧ digest = digestText (stringify (r.json args)) := by
  have hargs : toJson r.alloc.1 16 [] r.again.normalizedArgs = toJson heap 16 [] r.normalizedArgs :=
    toJson_extends r.extends_alloc 16 (fun _ _ => Iff.rfl) r.below
  simp only [computeInvocationDigest, r.resolution_alloc h, Option.map_eq_some_iff,
    r.again.canonicalizeJson_alloc_some_iff, hargs]
  constructor
  · rintro ⟨text, ⟨args, hread, hwithin, rfl⟩, rfl⟩
    exact ⟨args, ⟨hread, hwithin⟩, rfl⟩
  · rintro ⟨args, ⟨hread, hwithin⟩, rfl⟩
    exact ⟨_, ⟨args, hread, hwithin, rfl⟩, rfl⟩

/-! ### Arguments within a resolution -/

theorem mapM_mono {α β : Type} {f g : α → Option β} {l : List α} {r : List β} (h : l.mapM f = some r)
    (hfg : ∀ a ∈ l, ∀ b, f a = some b → g a = some b) : l.mapM g = some r := by
  rw [← h]
  apply mapM_congr
  intro a ha
  obtain ⟨b, -, hb⟩ := mem_of_mem_mapM h ha
  rw [hb, hfg a ha b hb]

/-- More levels read the same value. -/
theorem toJson_succ {depth : Nat} {active : List Nat} {v : Value} {t : Json}
    (h : toJson heap depth active v = some t) : toJson heap (depth + 1) active v = some t := by
  induction depth generalizing active v t with
  | zero => cases h
  | succ depth ih =>
    cases v with
    | null | str | bool | num | undefined | nonFinite | other => exact h
    | ref address =>
      rw [toJson] at h ⊢
      cases ho : heap.object (.ref address) with
      | none => simp [ho] at h
      | some o =>
        simp only [ho] at h ⊢
        by_cases hactive : address ∈ active
        · simp [hactive] at h
        simp only [if_neg hactive] at h ⊢
        cases hlength : o.arrayLength with
        | some size =>
          simp only [hlength] at h ⊢
          split at h
          · cases h
          · next hshape =>
            obtain ⟨properties, hproperties, h⟩ := Option.bind_eq_some_iff.mp h
            obtain ⟨items, hitems, h⟩ := Option.bind_eq_some_iff.mp h
            have hmore := mapM_mono (g := fun v => v.bind (toJson heap (depth + 1) (address :: active))) hitems (by
              intro item _ value hitem
              obtain ⟨v, rfl, hv⟩ := Option.bind_eq_some_iff.mp hitem
              exact ih hv)
            rw [if_neg hshape, hproperties, Option.bind_eq_bind, Option.bind_some, hmore]
            exact h
        | none =>
          simp only [hlength] at h ⊢
          split at h
          · cases h
          · next hplain =>
            obtain ⟨properties, hproperties, h⟩ := Option.bind_eq_some_iff.mp h
            obtain ⟨fields, hfields, h⟩ := Option.bind_eq_some_iff.mp h
            have hmore := mapM_mono
              (g := fun entry => (toJson heap (depth + 1) (address :: active) entry.2).map (entry.1, ·)) hfields (by
              intro entry _ field hentry
              obtain ⟨t, ht, rfl⟩ := Option.map_eq_some_iff.mp hentry
              rw [ih ht]
              rfl)
            rw [if_neg hplain, hproperties, Option.bind_eq_bind, Option.bind_some, hmore]
            exact h

theorem utf16Length_le_separated {parts : List Text} {part : Text} (h : part ∈ parts) (i : Nat) :
    utf16Length part ≤ utf16Length (separated i parts) := by
  induction parts generalizing i with
  | nil => cases h
  | cons part' parts ih =>
    rw [separated_cons, utf16Length_append, utf16Length_append]
    obtain rfl | hmem := List.mem_cons.mp h
    · omega
    · have hrest := ih hmem (i + 1)
      omega

theorem utf16Length_le_stringify_obj {fields : List (Text × Json)} {field : Text × Json} (h : field ∈ fields) :
    utf16Length (stringify field.2) ≤ utf16Length (stringify (.obj fields)) := by
  have hfield := utf16Length_le_separated (List.mem_map_of_mem (f := fieldText) h) 0
  have htext : utf16Length (stringify field.2) ≤ utf16Length (fieldText field) := by
    rw [fieldText, utf16Length_append]
    exact Nat.le_add_left _ _
  rw [stringify_obj_separated, utf16Length_append, utf16Length_append]
  omega

theorem nodes_le_nodesFields {fields : List (Text × Json)} {field : Text × Json} (h : field ∈ fields) :
    nodes field.2 ≤ nodesFields fields := by
  induction fields with
  | nil => cases h
  | cons field' fields ih =>
    rw [nodesFields]
    obtain rfl | hmem := List.mem_cons.mp h
    · exact Nat.le_add_right _ _
    · exact (ih hmem).trans (Nat.le_add_left _ _)

/-- What fits with its object fits alone. -/
theorem Within.of_field {fields : List (Text × Json)} (h : Within (.obj fields)) {field : Text × Json}
    (hfield : field ∈ fields) : Within field.2 := by
  refine ⟨?_, (utf16Length_le_stringify_obj hfield).trans h.length⟩
  have hall : agent_invocation.nodes (.obj fields) ≤ 10000 := h.nodes
  rw [agent_invocation.nodes] at hall
  have hone := nodes_le_nodesFields hfield
  omega

theorem Canonicalisable.canonicalizeJson_ne_none {r : ResolutionArtifact heap} {args : Json}
    (h : Canonicalisable r args) : canonicalizeJson heap r.normalizedArgs ≠ none := by
  have hfield : ("normalizedArgs".toList, args) ∈ [
      ("canonicalizationVersion".toList, Json.str CANONICALIZATION_VERSION), ("normalizedArgs".toList, args),
      ("target".toList, .obj [("cluster".toList, .str r.cluster), ("namespace".toList, namespaceJson r.namespace_)]),
      ("tool".toList, .str r.tool), ("toolContractVersion".toList, .str r.toolContractVersion)] := by
    simp
  have hwithin : Within args := h.within.of_field hfield
  have hread := canonicalizeJson_some_iff.mpr ⟨args, toJson_succ h.read, hwithin, rfl⟩
  rw [hread]
  exact Option.some_ne_none _

/-- Exactly a resolution whose fields have their forms, and that can be written within the limits,
    has a digest. -/
theorem digest_iff {value : Value} {r : ResolutionArtifact heap} {digest : Text} :
    resolution heap value = some r ∧ computeInvocationDigest r.alloc.1 r.alloc.2 = some digest ↔
      ∃ args, Resolves heap value r ∧ Canonicalisable r args ∧ digest = digestText (stringify (r.json args)) := by
  constructor
  · rintro ⟨hresolution, hdigest⟩
    obtain ⟨args, hargs, rfl⟩ := (computeInvocationDigest_some_iff hresolution).mp hdigest
    exact ⟨args, (resolution_some_iff.mp hresolution).1, hargs, rfl⟩
  · rintro ⟨args, hresolves, hargs, rfl⟩
    have hresolution := resolution_some_iff.mpr ⟨hresolves, hargs.canonicalizeJson_ne_none⟩
    exact ⟨hresolution, (computeInvocationDigest_some_iff hresolution).mpr ⟨args, hargs, rfl⟩⟩

end

end narwhal.portal.agent_invocation
