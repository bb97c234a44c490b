import Narwhal.Lib.JsGroup
import Narwhal.Lib.JsText

open jslib

namespace narwhal.portal.cost_attribution

/-! ### The source -/

inductive AttributionSource
  | instanceLabel | name | app | k8sApp | owner | pod | unclassified
  deriving DecidableEq

def AttributionSource.text : AttributionSource → Text
  | .instanceLabel => "instance".toList
  | .name => "name".toList
  | .app => "app".toList
  | .k8sApp => "k8s-app".toList
  | .owner => "owner".toList
  | .pod => "pod".toList
  | .unclassified => "unclassified".toList

def UNCLASSIFIED_ID : Text := "__unclassified__".toList

structure PodUsage (α : Type) where
  «namespace» : Text
  pod : Text
  cpu : α
  memBytes : α

structure PodLabels where
  instanceLabel : Option Text := none
  name : Option Text := none
  app : Option Text := none
  k8sApp : Option Text := none

structure PodOwner where
  kind : Text
  name : Text
  deriving DecidableEq

structure AttributionInput (α : Type) where
  usage : List (PodUsage α)
  labels : JsMap Text PodLabels
  owners : JsMap Text PodOwner
  replicaSetOwners : JsMap Text PodOwner

/-- A group without its totals. -/
structure GroupHead where
  id : Text
  source : AttributionSource
  «namespace» : Option Text := none
  name : Text
  kind : Option Text := none
  deriving DecidableEq

structure AttributedGroup (α : Type) extends GroupHead where
  pods : Nat
  cpu : α
  memBytes : α

def podKey (ns pod : Text) : Text := ns ++ '/' :: pod

def usable (v : Text) : Bool := v ≠ [] && v ≠ "unknown".toList

/-- The text before the last dash and after it. -/
def lastDash (s : Text) : Option (Text × Text) :=
  match s.reverse.dropWhile (· ≠ '-') with
  | [] => none
  | _ :: front => some (front.reverse, (s.reverse.takeWhile (· ≠ '-')).reverse)

/-- `[a-z0-9]` -/
def isAlnum (c : Char) : Bool := isLower c || isDigit c

/-- The end `-[a-z0-9]{5}$`, by what stands after the dash. -/
def isPodSuffix (suffix : Text) : Bool := suffix.length = 5 && suffix.all isAlnum

/-- The part `-(?=[a-z]*\d)[a-z0-9]{8,10}`, by what stands after the dash. -/
def isHash (hash : Text) : Bool :=
  8 ≤ hash.length && hash.length ≤ 10 && hash.all isAlnum && hash.any isDigit

def podNameStem (pod : Text) : Text :=
  let stem :=
    match lastDash pod with
    | none => pod
    | some (front, suffix) =>
      if isPodSuffix suffix then
        match lastDash front with
        | some (stem, hash) => if isHash hash then stem else front
        | none => front
      else if suffix ≠ [] && suffix.all isDigit then front
      else pod
  if stem = [] then pod else stem

/-- A name without the end `-\d{5,}$`. -/
def jobStem (name : Text) : Text :=
  match lastDash name with
  | some (front, suffix) => if 5 ≤ suffix.length && suffix.all isDigit then front else name
  | none => name

def resolveOwner (owner : Option PodOwner) (ns : Text) (replicaSetOwners : JsMap Text PodOwner) : Option PodOwner :=
  match owner with
  | none => none
  | some owner =>
    if owner.name = [] then none
    else if owner.kind = "ReplicaSet".toList then
      match replicaSetOwners.get (podKey ns owner.name) with
      | some rs => if rs.name = [] then some ⟨"ReplicaSet".toList, owner.name⟩ else some ⟨rs.kind, rs.name⟩
      | none => some ⟨"ReplicaSet".toList, owner.name⟩
    else if owner.kind = "StatefulSet".toList ∨ owner.kind = "DaemonSet".toList ∨
        owner.kind = "ReplicationController".toList then some ⟨owner.kind, owner.name⟩
    else if owner.kind = "Job".toList then some ⟨"Job".toList, jobStem owner.name⟩
    else none

section

variable {α : Type}

/-- The group that one usage entry is added to. -/
def headOf (input : AttributionInput α) (u : PodUsage α) : GroupHead :=
  if u.pod = [] then ⟨UNCLASSIFIED_ID, .unclassified, none, UNCLASSIFIED_ID, none⟩
  else
    let key := podKey u.namespace u.pod
    let l := (input.labels.get key).getD {}
    match l.instanceLabel.filter usable with
    | some label => ⟨label, .instanceLabel, none, label, none⟩
    | none =>
      let labelHit : List (AttributionSource × Option Text) := [(.name, l.name), (.app, l.app), (.k8sApp, l.k8sApp)]
      match labelHit.find? fun hit => (hit.2.filter usable).isSome with
      | some (source, value) =>
        let name := value.getD []
        ⟨source.text ++ ':' :: u.namespace ++ '/' :: name, source, some u.namespace, name, none⟩
      | none =>
        match resolveOwner (input.owners.get key) u.namespace input.replicaSetOwners with
        | some owner =>
          ⟨"owner:".toList ++ u.namespace ++ '/' :: owner.kind ++ '/' :: owner.name, .owner, some u.namespace,
            owner.name, some owner.kind⟩
        | none =>
          ⟨"pod:".toList ++ u.namespace ++ '/' :: podNameStem u.pod, .pod, some u.namespace, podNameStem u.pod, none⟩

variable [Add α] [Zero α]

def begin (input : AttributionInput α) (u : PodUsage α) : AttributedGroup α := ⟨headOf input u, 0, 0, 0⟩

def add (cur : AttributedGroup α) (u : PodUsage α) : AttributedGroup α :=
  { cur with pods := cur.pods + 1, cpu := cur.cpu + u.cpu, memBytes := cur.memBytes + u.memBytes }

def attributePods (input : AttributionInput α) : List (AttributedGroup α) :=
  (input.usage.foldl (gather (fun u => (headOf input u).id) (begin input) add) .empty).entries.map Prod.snd

end

/-! ### What a pod is attributed to -/

/-- What a pod is attributed to: nothing, a label that stands for itself, or an object of a namespace. -/
inductive Identity
  | unclassified
  | instanceLabel (label : Text)
  | object (source : AttributionSource) (ns name : Text) (kind : Option Text)
  deriving DecidableEq

section

variable {α : Type} (input : AttributionInput α) (u : PodUsage α)

def labelsOf : PodLabels := (input.labels.get (podKey u.namespace u.pod)).getD {}

/-- The identities of a pod in the order in which they are tried. -/
def candidates : List Identity :=
  let l := labelsOf input u
  ((l.instanceLabel.filter usable).map Identity.instanceLabel).toList ++
    ((l.name.filter usable).map fun name => Identity.object .name u.namespace name none).toList ++
    ((l.app.filter usable).map fun name => Identity.object .app u.namespace name none).toList ++
    ((l.k8sApp.filter usable).map fun name => Identity.object .k8sApp u.namespace name none).toList ++
    ((resolveOwner (input.owners.get (podKey u.namespace u.pod)) u.namespace input.replicaSetOwners).map fun owner =>
      Identity.object .owner u.namespace owner.name (some owner.kind)).toList ++
    [.object .pod u.namespace (podNameStem u.pod) none]

/-- The first identity of a pod, if it has a name. -/
def identity : Identity := if u.pod = [] then .unclassified else (candidates input u).headD .unclassified

end

/-- The group of an identity. -/
def Identity.head : Identity → GroupHead
  | .unclassified => ⟨UNCLASSIFIED_ID, .unclassified, none, UNCLASSIFIED_ID, none⟩
  | .instanceLabel label => ⟨label, .instanceLabel, none, label, none⟩
  | .object source ns name kind =>
    ⟨source.text ++ ':' :: (ns ++ '/' :: (kind.elim name fun kind => kind ++ '/' :: name)), source, some ns, name, kind⟩

/-- An identity that Kubernetes names and label values give. -/
def Identity.Valid : Identity → Prop
  | .unclassified => True
  | .instanceLabel label => ':' ∉ label ∧ label.head? ≠ some '_'
  | .object source ns _ kind => '/' ∉ ns ∧ (source = .owner ↔ kind.isSome = true) ∧ ∀ k ∈ kind, '/' ∉ k

theorem getD_of_filter_eq_some {value : Option Text} {p : Text → Bool} {name : Text} (h : value.filter p = some name) :
    value.getD [] = name := by
  rw [(Option.filter_eq_some_iff.mp h).1, Option.getD_some]

/-- The code adds a pod to the group of its identity. -/
theorem headOf_eq {α : Type} (input : AttributionInput α) (u : PodUsage α) : headOf input u = (identity input u).head := by
  unfold headOf identity candidates labelsOf
  split_ifs
  · rfl
  · dsimp only
    generalize (input.labels.get (podKey u.namespace u.pod)).getD {} = l
    cases l.instanceLabel.filter usable with
    | some label => rfl
    | none =>
      simp only [List.find?_cons, List.find?_nil]
      cases hname : l.name.filter usable with
      | some name => simp [Identity.head, getD_of_filter_eq_some hname]
      | none =>
        cases happ : l.app.filter usable with
        | some app => simp [Identity.head, getD_of_filter_eq_some happ]
        | none =>
          cases hk8sApp : l.k8sApp.filter usable with
          | some k8sApp => simp [Identity.head, getD_of_filter_eq_some hk8sApp]
          | none =>
            cases resolveOwner (input.owners.get (podKey u.namespace u.pod)) u.namespace input.replicaSetOwners with
            | some owner =>
              have hlead : "owner:".toList = AttributionSource.owner.text ++ [':'] := rfl
              rw [hlead]
              simp only [List.append_assoc, List.cons_append, List.nil_append]
              rfl
            | none =>
              have hlead : "pod:".toList = AttributionSource.pod.text ++ [':'] := rfl
              rw [hlead]
              simp only [List.append_assoc, List.cons_append, List.nil_append]
              rfl

theorem AttributionSource.text_inj {a b : AttributionSource} (h : a.text = b.text) : a = b := by
  revert h
  cases a <;> cases b <;> decide

theorem AttributionSource.colon_not_mem_text (a : AttributionSource) : ':' ∉ a.text := by
  cases a <;> decide

theorem Identity.id_object (source : AttributionSource) (ns name : Text) (kind : Option Text) :
    (Identity.object source ns name kind).head.id =
      source.text ++ ':' :: (ns ++ '/' :: (kind.elim name fun kind => kind ++ '/' :: name)) := rfl

/-- Only an object's id has a colon. -/
theorem Identity.colon_mem_id_iff {a : Identity} (ha : a.Valid) :
    ':' ∈ a.head.id ↔ ∃ source ns name kind, a = .object source ns name kind := by
  cases a with
  | unclassified => exact iff_of_false (by decide) (by rintro ⟨source, ns, name, kind, h⟩; cases h)
  | instanceLabel label => exact iff_of_false ha.1 (by rintro ⟨source, ns, name, kind, h⟩; cases h)
  | object source ns name kind =>
    exact iff_of_true (List.mem_append_right _ List.mem_cons_self) ⟨source, ns, name, kind, rfl⟩

/-- Two identities have two ids. -/
theorem Identity.eq_of_id_eq {a b : Identity} (ha : a.Valid) (hb : b.Valid) (h : a.head.id = b.head.id) : a = b := by
  have hcolon := colon_mem_id_iff ha
  rw [h, colon_mem_id_iff hb] at hcolon
  cases a with
  | unclassified =>
    cases b with
    | unclassified => rfl
    | instanceLabel label =>
      obtain rfl : UNCLASSIFIED_ID = label := h
      exact absurd rfl hb.2
    | object source ns name kind => simp at hcolon
  | instanceLabel label =>
    cases b with
    | unclassified =>
      obtain rfl : label = UNCLASSIFIED_ID := h
      exact absurd rfl ha.2
    | instanceLabel label' =>
      obtain rfl : label = label' := h
      rfl
    | object source ns name kind => simp at hcolon
  | object source ns name kind =>
    cases b with
    | unclassified => simp at hcolon
    | instanceLabel label => simp at hcolon
    | object source' ns' name' kind' =>
      obtain ⟨hns, howner, hkind⟩ := ha
      obtain ⟨hns', howner', hkind'⟩ := hb
      rw [id_object, id_object] at h
      obtain ⟨hsource, hpath⟩ := append_cons_inj source.colon_not_mem_text source'.colon_not_mem_text h
      obtain rfl := AttributionSource.text_inj hsource
      obtain ⟨rfl, hrest⟩ := append_cons_inj hns hns' hpath
      have hboth := howner.symm.trans howner'
      cases kind with
      | none =>
        cases kind' with
        | none => exact congrArg (fun name => object source ns name none) hrest
        | some kind' => simp at hboth
      | some kind =>
        cases kind' with
        | none => simp at hboth
        | some kind' =>
          obtain ⟨rfl, rfl⟩ := append_cons_inj (hkind kind rfl) (hkind' kind' rfl) hrest
          rfl

/-! ### Names that Kubernetes accepts -/

/-- Every name of Kubernetes is a path segment. -/
def isPathSegment (name : Text) : Bool :=
  name ≠ ".".toList && name ≠ "..".toList && name.all fun c => c ≠ '/' && c ≠ '%'

def isLetterOrDigit (c : Char) : Bool := isLower c || isUpper c || isDigit c

/-- `(([A-Za-z0-9][-A-Za-z0-9_.]*)?[A-Za-z0-9])?`, at most 63 long. -/
def isLabelValue (value : Text) : Bool :=
  value.length ≤ 63 && value.all (fun c => isLetterOrDigit c || c == '-' || c == '_' || c == '.') &&
    value.head?.all isLetterOrDigit && value.getLast?.all isLetterOrDigit

/-- The names and label values that an id is made of are those of Kubernetes. -/
structure ValidNames {α : Type} (input : AttributionInput α) : Prop where
  namespaces : ∀ u ∈ input.usage, isPathSegment u.namespace = true
  instanceLabels : ∀ entry ∈ input.labels.entries, ∀ value ∈ entry.2.instanceLabel, isLabelValue value = true
  kinds : ∀ entry ∈ input.replicaSetOwners.entries, isPathSegment entry.2.kind = true

theorem slash_not_mem {name : Text} (h : isPathSegment name = true) : '/' ∉ name := by
  intro hmem
  simp only [isPathSegment, Bool.and_eq_true, List.all_eq_true] at h
  simpa using h.2 '/' hmem

theorem colon_not_mem {value : Text} (h : isLabelValue value = true) : ':' ∉ value := by
  intro hmem
  simp only [isLabelValue, Bool.and_eq_true, List.all_eq_true] at h
  exact absurd (h.1.1.2 ':' hmem) (by decide)

theorem head?_ne_underscore {value : Text} (h : isLabelValue value = true) : value.head? ≠ some '_' := by
  intro hhead
  simp only [isLabelValue, Bool.and_eq_true, hhead, Option.all_some] at h
  exact absurd h.1.2 (by decide)

section

variable {α : Type} {input : AttributionInput α}

/-- The kind of an owner is one of the code's own or one that the cluster reports. -/
theorem kind_of_resolveOwner {owner : Option PodOwner} {ns : Text} {replicaSetOwners : JsMap Text PodOwner}
    {resolved : PodOwner} (h : resolveOwner owner ns replicaSetOwners = some resolved) :
    '/' ∉ resolved.kind ∨ ∃ key rs, replicaSetOwners.get key = some rs ∧ resolved.kind = rs.kind := by
  have hreplica : '/' ∉ "ReplicaSet".toList := by decide
  unfold resolveOwner at h
  split at h
  · cases h
  · next owner =>
    split_ifs at h with hname hreplicaSet hset hjob
    · split at h
      · next rs hrs =>
        split_ifs at h
        · obtain rfl := Option.some.inj h
          exact .inl hreplica
        · obtain rfl := Option.some.inj h
          exact .inr ⟨_, rs, hrs, rfl⟩
      · obtain rfl := Option.some.inj h
        exact .inl hreplica
    · obtain rfl := Option.some.inj h
      rcases hset with hkind | hkind | hkind
      all_goals
        rw [hkind]
        exact .inl (by decide)
    · obtain rfl := Option.some.inj h
      have hkind : '/' ∉ "Job".toList := by decide
      exact .inl hkind

theorem mem_candidates {i : Identity} {u : PodUsage α} (h : i ∈ candidates input u) :
    (∃ label ∈ (labelsOf input u).instanceLabel, i = .instanceLabel label) ∨
      (∃ source name, source ≠ .owner ∧ i = .object source u.namespace name none) ∨
      ∃ owner resolved, resolveOwner owner u.namespace input.replicaSetOwners = some resolved ∧
        i = .object .owner u.namespace resolved.name (some resolved.kind) := by
  simp only [candidates, List.mem_append, Option.mem_toList, Option.map_eq_some_iff, List.mem_singleton] at h
  rcases h with ((((⟨label, hlabel, rfl⟩ | ⟨name, -, rfl⟩) | ⟨app, -, rfl⟩) | ⟨k8sApp, -, rfl⟩) |
    ⟨owner, howner, rfl⟩) | rfl
  · exact .inl ⟨label, (Option.filter_eq_some_iff.mp hlabel).1, rfl⟩
  · exact .inr (.inl ⟨.name, name, by decide, rfl⟩)
  · exact .inr (.inl ⟨.app, app, by decide, rfl⟩)
  · exact .inr (.inl ⟨.k8sApp, k8sApp, by decide, rfl⟩)
  · exact .inr (.inr ⟨_, owner, howner, rfl⟩)
  · exact .inr (.inl ⟨.pod, podNameStem u.pod, by decide, rfl⟩)

theorem identity_eq_or_mem (u : PodUsage α) :
    identity input u = .unclassified ∨ identity input u ∈ candidates input u := by
  unfold identity
  split_ifs
  · exact .inl rfl
  · cases candidates input u with
    | nil => exact .inl rfl
    | cons i rest => exact .inr List.mem_cons_self

theorem valid_identity (h : ValidNames input) {u : PodUsage α} (hu : u ∈ input.usage) : (identity input u).Valid := by
  have hns := slash_not_mem (h.namespaces u hu)
  have hidentity : identity input u = .unclassified ∨ identity input u ∈ candidates input u := identity_eq_or_mem u
  obtain hnone | hmem := hidentity
  · rw [hnone]
    trivial
  · rcases mem_candidates hmem with ⟨label, hlabel, heq⟩ | ⟨source, name, hsource, heq⟩ | ⟨owner, resolved, hresolved, heq⟩
    · rw [heq]
      unfold labelsOf at hlabel
      cases hlabels : input.labels.get (podKey u.namespace u.pod) with
      | none =>
        rw [hlabels] at hlabel
        cases hlabel
      | some labels =>
        rw [hlabels] at hlabel
        have hvalue := h.instanceLabels _ (JsMap.mem_of_get hlabels) label hlabel
        exact ⟨colon_not_mem hvalue, head?_ne_underscore hvalue⟩
    · rw [heq]
      exact ⟨hns, iff_of_false hsource (by decide), fun kind hkind => by cases hkind⟩
    · rw [heq]
      refine ⟨hns, iff_of_true rfl rfl, fun kind hkind => ?_⟩
      obtain rfl : resolved.kind = kind := Option.some.inj hkind
      rcases kind_of_resolveOwner hresolved with hslash | ⟨key, rs, hrs, hkind⟩
      · exact hslash
      · rw [hkind]
        exact slash_not_mem (h.kinds _ (JsMap.mem_of_get hrs))

/-- Two pods have one id only if they have one identity. -/
theorem id_eq_iff (h : ValidNames input) {u v : PodUsage α} (hu : u ∈ input.usage) (hv : v ∈ input.usage) :
    (headOf input u).id = (headOf input v).id ↔ identity input u = identity input v := by
  rw [headOf_eq, headOf_eq]
  constructor
  · exact Identity.eq_of_id_eq (valid_identity h hu) (valid_identity h hv)
  · intro heq
    rw [heq]

end

/-! ### The groups -/

section

variable {α : Type} [AddCommMonoid α]

/-- The pod of a usage entry is counted in a group. -/
def FallsIn (input : AttributionInput α) (u : PodUsage α) (g : AttributedGroup α) : Prop := (headOf input u).id = g.id

instance (input : AttributionInput α) (u : PodUsage α) (g : AttributedGroup α) : Decidable (FallsIn input u g) :=
  inferInstanceAs (Decidable (_ = _))

/-- A group has the totals of these pods. -/
structure Totals (members : List (PodUsage α)) (g : AttributedGroup α) : Prop where
  pods : g.pods = members.length
  cpu : g.cpu = (members.map PodUsage.cpu).sum
  memBytes : g.memBytes = (members.map PodUsage.memBytes).sum

def groupsOf (input : AttributionInput α) : JsMap Text (AttributedGroup α) :=
  input.usage.foldl (gather (fun u => (headOf input u).id) (begin input) add) .empty

variable {input : AttributionInput α} {id : Text} {g : AttributedGroup α}

theorem head_of_get (h : (groupsOf input).get id = some g) :
    g.id = id ∧ ∃ u ∈ input.usage, headOf input u = g.toGroupHead := by
  have hstart : ∀ u ∈ input.usage, (begin input u).id = (headOf input u).id ∧
      ∃ v ∈ input.usage, headOf input v = (begin input u).toGroupHead := fun u hu => ⟨rfl, u, hu, rfl⟩
  have hadd : ∀ u ∈ input.usage, ∀ g : AttributedGroup α,
      (g.id = (headOf input u).id ∧ ∃ v ∈ input.usage, headOf input v = g.toGroupHead) →
        (add g u).id = (headOf input u).id ∧ ∃ v ∈ input.usage, headOf input v = (add g u).toGroupHead := fun _ _ _ hg => hg
  exact forall_foldl_gather (P := fun id g => g.id = id ∧ ∃ v ∈ input.usage, headOf input v = g.toGroupHead) hstart hadd
    (fun k g hg => by cases hg) h

theorem mem_attributePods_iff : g ∈ attributePods input ↔ (groupsOf input).get g.id = some g := by
  unfold attributePods
  rw [List.mem_map]
  constructor
  · rintro ⟨⟨id, g⟩, hmem, rfl⟩
    have hget := JsMap.get_of_mem hmem
    obtain ⟨rfl, -⟩ := head_of_get hget
    exact hget
  · intro hget
    exact ⟨(g.id, g), JsMap.mem_of_get hget, rfl⟩

theorem ids_nodup : ((attributePods input).map fun g => g.id).Nodup := by
  have hkeys : (attributePods input).map (fun g => g.id) = (groupsOf input).entries.map Prod.fst := by
    unfold attributePods
    rw [List.map_map]
    refine List.map_congr_left fun entry hentry => ?_
    exact (head_of_get (JsMap.get_of_mem hentry)).1
  rw [hkeys]
  exact (groupsOf input).nodup

theorem totals_of_mem (h : g ∈ attributePods input) : Totals (input.usage.filter fun u => FallsIn input u g) g := by
  have hget := mem_attributePods_iff.mp h
  rw [groupsOf, get_foldl_gather] at hget
  refine ⟨?_, ?_, ?_⟩
  · rw [weight_grown AttributedGroup.pods (fun _ => 1) (fun _ => rfl) (fun _ _ => rfl) hget]
    exact sum_ones _
  · exact weight_grown AttributedGroup.cpu PodUsage.cpu (fun _ => rfl) (fun _ _ => rfl) hget
  · exact weight_grown AttributedGroup.memBytes PodUsage.memBytes (fun _ => rfl) (fun _ _ => rfl) hget

theorem exists_group {u : PodUsage α} (hu : u ∈ input.usage) : ∃ g ∈ attributePods input, FallsIn input u g := by
  have hmem : u ∈ input.usage.filter fun v => (headOf input v).id = (headOf input u).id :=
    List.mem_filter.mpr ⟨hu, by simp⟩
  have hget : ∃ g, (groupsOf input).get (headOf input u).id = some g := by
    rw [groupsOf, get_foldl_gather]
    cases hmembers : input.usage.filter fun v => (headOf input v).id = (headOf input u).id with
    | nil =>
      rw [hmembers] at hmem
      cases hmem
    | cons v members => exact ⟨_, rfl⟩
  obtain ⟨g, hg⟩ := hget
  have hid := (head_of_get hg).1
  exact ⟨g, mem_attributePods_iff.mpr (hid ▸ hg), hid.symm⟩

theorem group_unique {u : PodUsage α} {g' : AttributedGroup α} (hg : g ∈ attributePods input) (hg' : g' ∈ attributePods input)
    (h : FallsIn input u g) (h' : FallsIn input u g') : g = g' := by
  have hget := mem_attributePods_iff.mp hg
  have hget' := mem_attributePods_iff.mp hg'
  rw [← h] at hget
  rw [← h', hget] at hget'
  exact Option.some.inj hget'

theorem sum_attributePods {M : Type} [AddCommMonoid M] (weight : AttributedGroup α → M) (value : PodUsage α → M)
    (hstart : ∀ u, weight (begin input u) = 0) (hadd : ∀ g u, weight (add g u) = weight g + value u) :
    ((attributePods input).map weight).sum = (input.usage.map value).sum := by
  have htotal : total weight (groupsOf input) = total weight .empty + (input.usage.map value).sum :=
    total_foldl_gather weight value hstart hadd input.usage .empty
  have hgroups : (attributePods input).map weight = (groupsOf input).entries.map fun entry => weight entry.2 := by
    unfold attributePods
    rw [List.map_map]
    rfl
  rw [hgroups]
  exact htotal.trans (zero_add _)

/-- What all groups hold is what the usage list holds. -/
theorem totals_conserved :
    ((attributePods input).map fun g => g.pods).sum = input.usage.length ∧
      ((attributePods input).map fun g => g.cpu).sum = (input.usage.map PodUsage.cpu).sum ∧
      ((attributePods input).map fun g => g.memBytes).sum = (input.usage.map PodUsage.memBytes).sum := by
  refine ⟨?_, ?_, ?_⟩
  · rw [sum_attributePods AttributedGroup.pods (fun _ => 1) (fun _ => rfl) fun _ _ => rfl]
    exact sum_ones _
  · exact sum_attributePods AttributedGroup.cpu PodUsage.cpu (fun _ => rfl) fun _ _ => rfl
  · exact sum_attributePods AttributedGroup.memBytes PodUsage.memBytes (fun _ => rfl) fun _ _ => rfl

/-- Every pod falls in one group, with the pods of its identity and no others, and the
groups hold what the usage list holds. -/
theorem attribution_conserves_and_separates (input : AttributionInput α) (h : ValidNames input) :
    ((attributePods input).map fun g => g.id).Nodup ∧
      (((attributePods input).map fun g => g.pods).sum = input.usage.length ∧
        ((attributePods input).map fun g => g.cpu).sum = (input.usage.map PodUsage.cpu).sum ∧
        ((attributePods input).map fun g => g.memBytes).sum = (input.usage.map PodUsage.memBytes).sum) ∧
      (∀ g ∈ attributePods input, Totals (input.usage.filter fun u => FallsIn input u g) g) ∧
      (∀ u ∈ input.usage, ∃! g, g ∈ attributePods input ∧ FallsIn input u g) ∧
      ∀ u ∈ input.usage, ∀ v ∈ input.usage,
        (∃ g ∈ attributePods input, FallsIn input u g ∧ FallsIn input v g) ↔ identity input u = identity input v := by
  refine ⟨ids_nodup, totals_conserved, fun g hg => totals_of_mem hg, fun u hu => ?_, fun u hu v hv => ?_⟩
  · obtain ⟨g, hg, hfalls⟩ := exists_group hu
    exact ⟨g, ⟨hg, hfalls⟩, fun g' hg' => group_unique hg'.1 hg hg'.2 hfalls⟩
  · rw [← id_eq_iff h hu hv]
    constructor
    · rintro ⟨g, hg, hfalls, hfalls'⟩
      exact hfalls.trans hfalls'.symm
    · intro hid
      obtain ⟨g, hg, hfalls⟩ := exists_group hu
      exact ⟨g, hg, hfalls, hid.symm.trans hfalls⟩

end

/-- Two replicas of a deployment, a pod that has an instance label and a pod without a name. -/
def sampleInput : AttributionInput ℕ where
  usage := [⟨"dev".toList, "web-7d4b9c6f5d-x2x7k".toList, 2, 30⟩, ⟨"dev".toList, "web-7d4b9c6f5d-q8zzz".toList, 1, 20⟩,
    ⟨"dev".toList, "db-0".toList, 4, 100⟩, ⟨"dev".toList, [], 1, 5⟩]
  labels := ⟨[("dev/db-0".toList, { instanceLabel := some "db".toList })], by decide⟩
  owners := ⟨[("dev/web-7d4b9c6f5d-x2x7k".toList, ⟨"ReplicaSet".toList, "web-7d4b9c6f5d".toList⟩)], by decide⟩
  replicaSetOwners := ⟨[("dev/web-7d4b9c6f5d".toList, ⟨"Deployment".toList, "web".toList⟩)], by decide⟩

theorem sampleInput_validNames : ValidNames sampleInput where
  namespaces := by decide
  instanceLabels := by decide
  kinds := by decide

theorem attribution_conserves_and_separates_sample :
    ((attributePods sampleInput).map fun g => g.id).Nodup ∧ ((attributePods sampleInput).map fun g => g.cpu).sum = 8 := by
  obtain ⟨hnodup, ⟨-, hcpu, -⟩, -⟩ := attribution_conserves_and_separates sampleInput sampleInput_validNames
  exact ⟨hnodup, hcpu⟩

example : (attributePods sampleInput).map (fun g => (g.id, g.pods)) =
    [("owner:dev/Deployment/web".toList, 1), ("pod:dev/web".toList, 1), ("db".toList, 1), (UNCLASSIFIED_ID, 1)] := by
  decide

end narwhal.portal.cost_attribution
