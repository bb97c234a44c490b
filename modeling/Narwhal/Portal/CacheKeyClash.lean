import Narwhal.Portal.CacheKeySegments

open jslib

namespace narwhal.portal.cache_keys

/-! ### Clashes -/

/-- Calls of builders that have one key. An absent filter is written as the text "all", or as an
    empty one; the list of an audit has the key of the detail named "list"; and joined details have
    one key where the texts they join to are the same. -/
inductive Clash : Call → Call → Prop
  | k8sPods (namespace_ : Segment) {app : Given} (h : app.val = "all".toList) :
    Clash (.k8sPods namespace_ none) (.k8sPods namespace_ (some app))
  | podsList (namespace_ : Segment) {instance_ : Segment} (h : instance_.val = "all".toList) :
    Clash (.podsList namespace_ none) (.podsList namespace_ (some instance_))
  | k8sEventsAll {namespace_ : Segment} (h : namespace_.val = "all".toList) :
    Clash (.k8sEventsAll none) (.k8sEventsAll (some namespace_))
  | serviceGraphCluster (window : GraphWindow) {namespace_ : Text} (h : namespace_ = "all".toList) :
    Clash (.serviceGraphCluster window none) (.serviceGraphCluster window (some namespace_))
  | scorecardAll (rulesVersion : JsNumber) : Clash (.scorecardAll rulesVersion none) (.scorecardAll rulesVersion (some []))
  | auditDetail (audit : Audit) {namespace_ name namespace_' name' : Text} (hne : (namespace_, name) ≠ (namespace_', name'))
    (h : join [namespace_, name] = join [namespace_', name']) :
    Clash (.auditDetail audit namespace_ name) (.auditDetail audit namespace_' name')
  | auditList (audit : Audit) {namespace_ name : Text} (h : join [namespace_, name] = "list".toList) :
    Clash (.auditList audit) (.auditDetail audit namespace_ name)
  | itemList (item : Item) {id : Text} (h : id = "list".toList) : Clash (.itemList item) (.itemDetail item id)

/-- The key of the first call is the sibling of the second's: its free text ends in the text that
    makes the sibling, or it is the detail of a list. -/
inductive MetaClash : Call → Call → Prop
  | k8sPods (namespace_ : Segment) {app' : Given} {app : Option Given} (h : app'.val = metaKey (orAll (app.map Subtype.val))) :
    MetaClash (.k8sPods namespace_ (some app')) (.k8sPods namespace_ app)
  | k8sEvents (namespace_ : Segment) {name' name : Given} (h : name'.val = metaKey name) :
    MetaClash (.k8sEvents namespace_ name') (.k8sEvents namespace_ name)
  | k8sEventsAll {namespace_ : Segment} {namespace_' : Option Segment} {name : Given}
    (hnamespace : namespace_.val = orAll (namespace_'.map Subtype.val)) (h : name.val = "meta".toList) :
    MetaClash (.k8sEvents namespace_ name) (.k8sEventsAll namespace_')
  | k8sResource (namespace_ : Segment) {name' name : Given} (h : name'.val = metaKey name) :
    MetaClash (.k8sResource namespace_ name') (.k8sResource namespace_ name)
  | promQuery (clusterId : Segment) {promql' promql : Given} (h : promql'.val = metaKey promql) :
    MetaClash (.promQuery clusterId promql') (.promQuery clusterId promql)
  | promVector (clusterId : Segment) {promql' promql : Given} (h : promql'.val = metaKey promql) :
    MetaClash (.promVector clusterId promql') (.promVector clusterId promql)
  | trivyImage {image' image : Given} (h : image'.val = metaKey image) : MetaClash (.trivyImage image') (.trivyImage image)
  | scorecardDetail (rulesVersion : JsNumber) {serviceId' serviceId : Given} (h : serviceId'.val = metaKey serviceId) :
    MetaClash (.scorecardDetail rulesVersion serviceId') (.scorecardDetail rulesVersion serviceId)
  | scorecardAll (rulesVersion : JsNumber) {tier' : Text} {tier : Option Text} (h : tier' = metaKey (tier.getD [])) :
    MetaClash (.scorecardAll rulesVersion (some tier')) (.scorecardAll rulesVersion tier)
  | auditDetail (audit : Audit) {namespace_' name' namespace_ name : Text}
    (h : join [namespace_', name'] = join [namespace_, name, "meta".toList]) :
    MetaClash (.auditDetail audit namespace_' name') (.auditDetail audit namespace_ name)
  | auditList (audit : Audit) {namespace_ name : Text} (h : join [namespace_, name] = metaKey "list".toList) :
    MetaClash (.auditDetail audit namespace_ name) (.auditList audit)
  | itemDetail (item : Item) {id' id : Text} (h : id' = join [id, "meta".toList]) :
    MetaClash (.itemDetail item id') (.itemDetail item id)
  | itemList (item : Item) {id : Text} (h : id = metaKey "list".toList) : MetaClash (.itemDetail item id) (.itemList item)
  | serviceGraphCluster (window : GraphWindow) {namespace_' : Text} {namespace_ : Option Text}
    (h : namespace_' = join [orAll namespace_, "meta".toList]) :
    MetaClash (.serviceGraphCluster window (some namespace_')) (.serviceGraphCluster window namespace_)

/-! ### Calls with one tag -/

/-- Two calls of one builder, or of a list and its detail, or of the two builders of events. -/
inductive Alike : Call → Call → Prop
  | fixed (b) : Alike (.fixed b) (.fixed b)
  | single (b x y) : Alike (.single b x) (.single b y)
  | myApps (u f u' f') : Alike (.myApps u f) (.myApps u' f')
  | traces (x y) : Alike (.traces x) (.traces y)
  | k8sPods (n a n' a') : Alike (.k8sPods n a) (.k8sPods n' a')
  | k8sEvents (n a n' a') : Alike (.k8sEvents n a) (.k8sEvents n' a')
  | k8sEventsAll (n n') : Alike (.k8sEventsAll n) (.k8sEventsAll n')
  | eventsOfAll (n a n') : Alike (.k8sEvents n a) (.k8sEventsAll n')
  | allOfEvents (n n' a') : Alike (.k8sEventsAll n) (.k8sEvents n' a')
  | k8sResource (n a n' a') : Alike (.k8sResource n a) (.k8sResource n' a')
  | podsList (n a n' a') : Alike (.podsList n a) (.podsList n' a')
  | podsLogs (n p c t b n' p' c' t' b') : Alike (.podsLogs n p c t b) (.podsLogs n' p' c' t' b')
  | falcoEvents (p s l p' s' l') : Alike (.falcoEvents p s l) (.falcoEvents p' s' l')
  | costV2 (s f p s' f' p') : Alike (.costV2 s f p) (.costV2 s' f' p')
  | costServiceV2 (f n s p f' n' s' p') : Alike (.costServiceV2 f n s p) (.costServiceV2 f' n' s' p')
  | costTrendV2 (s f n i d p s' f' n' i' d' p') : Alike (.costTrendV2 s f n i d p) (.costTrendV2 s' f' n' i' d' p')
  | promQuery (c q c' q') : Alike (.promQuery c q) (.promQuery c' q')
  | promVector (c q c' q') : Alike (.promVector c q) (.promVector c' q')
  | promRange (c q d c' q' d') : Alike (.promRange c q d) (.promRange c' q' d')
  | trivyImage (i i') : Alike (.trivyImage i) (.trivyImage i')
  | trivyTopVulnerable (l l') : Alike (.trivyTopVulnerable l) (.trivyTopVulnerable l')
  | scorecardDetail (v s v' s') : Alike (.scorecardDetail v s) (.scorecardDetail v' s')
  | scorecardAll (v t v' t') : Alike (.scorecardAll v t) (.scorecardAll v' t')
  | auditList (a) : Alike (.auditList a) (.auditList a)
  | auditDetail (a n m n' m') : Alike (.auditDetail a n m) (.auditDetail a n' m')
  | auditListDetail (a n m) : Alike (.auditList a) (.auditDetail a n m)
  | auditDetailList (a n m) : Alike (.auditDetail a n m) (.auditList a)
  | itemList (i) : Alike (.itemList i) (.itemList i)
  | itemDetail (i x x') : Alike (.itemDetail i x) (.itemDetail i x')
  | itemListDetail (i x) : Alike (.itemList i) (.itemDetail i x)
  | itemDetailList (i x) : Alike (.itemDetail i x) (.itemList i)
  | serviceGraphCluster (w n w' n') : Alike (.serviceGraphCluster w n) (.serviceGraphCluster w' n')
  | serviceGraphSvc (s w s' w') : Alike (.serviceGraphSvc s w) (.serviceGraphSvc s' w')

theorem alike_of_tag {c c' : Call} (h : c.tag = c'.tag) : Alike c c' := by
  cases c <;> cases c' <;> cases h <;> constructor

/-! ### Arguments by their texts -/

theorem CostScope.name_inj {a b : CostScope} (h : a.name = b.name) : a = b := by
  cases a <;> cases b <;> first | rfl | exact absurd h (by decide)

theorem GraphWindow.name_inj {a b : GraphWindow} (h : a.name = b.name) : a = b := by
  cases a <;> cases b <;> first | rfl | exact absurd h (by decide)

theorem boolText_inj {a b : Bool} (h : boolText a = boolText b) : a = b := by
  cases a <;> cases b <;> first | rfl | exact absurd h (by decide)

theorem boolText_plain (b : Bool) : ':' ∉ boolText b := by
  cases b <;> decide

/-- A finite number is written with other characters than the rest. -/
theorem Number.text_ne {n : Number} {text : Text} {c : Char} (hmem : c ∈ text) (hc : isNumberChar c = false) :
    n.text ≠ text := by
  intro h
  rw [n.chars c (h ▸ hmem)] at hc
  cases hc

theorem JsNumber.text_inj {a b : JsNumber} (h : a.text = b.text) : a = b := by
  have hnan : 'N' ∈ JsNumber.nan.text := by decide
  have hinfinity : ∀ negative, 'y' ∈ (JsNumber.infinity negative).text := by decide
  cases a with
  | finite n =>
    cases b with
    | finite m =>
      obtain ⟨text, _, _⟩ := n
      obtain ⟨text', _, _⟩ := m
      obtain rfl : text = text' := h
      rfl
    | nan => exact absurd h (Number.text_ne hnan (by decide))
    | infinity negative => exact absurd h (Number.text_ne (hinfinity negative) (by decide))
  | nan =>
    cases b with
    | finite m => exact absurd h.symm (Number.text_ne hnan (by decide))
    | nan => rfl
    | infinity negative => cases negative <;> exact absurd h (by decide)
  | infinity negative =>
    cases b with
    | finite m => exact absurd h.symm (Number.text_ne (hinfinity negative) (by decide))
    | nan => cases negative <;> exact absurd h (by decide)
    | infinity negative' => cases negative <;> cases negative' <;> first | rfl | exact absurd h (by decide)

/-- An absent filter has the text of the filter "all". -/
theorem orAll_inj {p : Text → Prop} {a b : Option { t : Text // p t }}
    (h : orAll (a.map Subtype.val) = orAll (b.map Subtype.val)) :
    a = b ∨ (a = none ∧ ∃ x, b = some x ∧ x.val = "all".toList) ∨ (b = none ∧ ∃ x, a = some x ∧ x.val = "all".toList) := by
  cases a with
  | none =>
    cases b with
    | none => exact .inl rfl
    | some x => exact .inr (.inl ⟨rfl, x, rfl, h.symm⟩)
  | some x =>
    cases b with
    | none => exact .inr (.inr ⟨rfl, x, rfl, h⟩)
    | some y => exact .inl (congrArg some (Subtype.ext h))

theorem priority_or_all_inj {a b : Option FalcoEventPriority} (h : orAll (a.map (·.name)) = orAll (b.map (·.name))) :
    a = b := by
  have hname : ∀ p : FalcoEventPriority, p.name ≠ "all".toList := by
    intro p
    cases p <;> decide
  cases a with
  | none =>
    cases b with
    | none => rfl
    | some p => exact absurd h.symm (hname p)
  | some p =>
    cases b with
    | none => exact absurd h (hname p)
    | some q => cases p <;> cases q <;> first | rfl | exact absurd h (by decide)

theorem segment_or_empty_inj {a b : Option Segment} (h : (a.map Subtype.val).getD [] = (b.map Subtype.val).getD []) :
    a = b := by
  cases a with
  | none =>
    cases b with
    | none => rfl
    | some y => exact absurd h.symm y.property.1
  | some x =>
    cases b with
    | none => exact absurd h x.property.1
    | some y => exact congrArg some (Subtype.ext h)

/-! ### Arguments by the segments of the key -/

/-- The calls whose arguments have no colon. -/
def Call.isPlain : Call → Bool
  | .fixed _ | .single .. | .traces _ | .k8sEventsAll _ | .podsList .. | .podsLogs .. | .falcoEvents .. | .costV2 ..
  | .costServiceV2 .. | .costTrendV2 .. | .trivyTopVulnerable _ | .auditList _ | .itemList _ | .serviceGraphSvc .. => true
  | _ => false

theorem Call.args_plain {c : Call} (h : c.isPlain = true) : ∀ a ∈ c.args, ':' ∉ a := by
  have hfingerprint : ∀ f : Fingerprint, ':' ∉ f.val := fun f => f.property.2
  have hsegment : ∀ s : Segment, ':' ∉ s.val := fun s => s.property.2
  have hnumber : ∀ n : JsNumber, ':' ∉ n.text := fun n => n.text_plain.2.1
  cases c with
  | fixed b => exact fun a ha => absurd ha List.not_mem_nil
  | single b x => exact List.forall_mem_singleton.mpr (hsegment x)
  | traces x => exact List.forall_mem_singleton.mpr x.property
  | k8sEventsAll n => exact List.forall_mem_singleton.mpr (segment_or_all_plain n).2
  | podsList n a =>
    exact List.forall_mem_cons.mpr ⟨hsegment n, List.forall_mem_singleton.mpr (segment_or_all_plain a).2⟩
  | podsLogs n p c t b =>
    simp only [Call.args, List.forall_mem_cons]
    exact ⟨hsegment n, hsegment p, c.property, hnumber t, boolText_plain b, by simp⟩
  | falcoEvents p s l =>
    simp only [Call.args, List.forall_mem_cons]
    exact ⟨(priority_or_all_plain p).2, hnumber s, hnumber l, by simp⟩
  | costV2 s f p =>
    simp only [Call.args, List.forall_mem_cons]
    exact ⟨s.name_plain.2, hfingerprint f, hsegment p, by simp⟩
  | costServiceV2 f n s p =>
    simp only [Call.args, List.forall_mem_cons]
    exact ⟨hfingerprint f, hsegment n, hsegment s, hsegment p, by simp⟩
  | costTrendV2 s f n i d p =>
    have hnamespace : ':' ∉ (n.map Subtype.val).getD [] := by
      cases n with
      | none => exact List.not_mem_nil
      | some n => exact hsegment n
    simp only [Call.args, List.forall_mem_cons]
    exact ⟨s.name_plain.2, hfingerprint f, hnamespace, hsegment i, hnumber d, hsegment p, by simp⟩
  | trivyTopVulnerable l => exact List.forall_mem_singleton.mpr (hnumber l)
  | auditList a => exact List.forall_mem_singleton.mpr (by decide)
  | itemList i => exact List.forall_mem_singleton.mpr (by decide)
  | serviceGraphSvc s w =>
    exact List.forall_mem_cons.mpr ⟨hsegment s, List.forall_mem_singleton.mpr w.name_plain.2⟩
  | _ => cases h

/-- Their keys have them as segments, so that one with a segment more is not among them. -/
theorem plain_rest_eq {c c' : Call} (h : c.isPlain = true) (h' : c'.isPlain = true) (hrest : c.rest = c'.rest) :
    c.args = c'.args := by
  rwa [Call.rest, Call.rest, flatMap_segments_plain (Call.args_plain h), flatMap_segments_plain (Call.args_plain h')]
    at hrest

theorem plain_rest_ne_meta {c c' : Call} (h : c.isPlain = true) (h' : c'.isPlain = true)
    (hlength : c.args.length = c'.args.length) : c.rest ≠ c'.rest ++ ["meta".toList] := by
  intro hrest
  rw [Call.rest, Call.rest, flatMap_segments_plain (Call.args_plain h), flatMap_segments_plain (Call.args_plain h')]
    at hrest
  have hlengths := congrArg List.length hrest
  rw [List.length_append, hlength, List.length_singleton] at hlengths
  omega

section

variable {a a' t t' : Text}

/-- A name and a free text after it. -/
theorem tail_eq (ha : ':' ∉ a) (ha' : ':' ∉ a') :
    [a, t].flatMap segments = [a', t'].flatMap segments ↔ a = a' ∧ t = t' := by
  simp only [List.flatMap_cons, List.flatMap_nil, List.append_nil, segments_of_not_mem ha, segments_of_not_mem ha',
    List.cons_append, List.nil_append, List.cons.injEq]
  refine and_congr_right fun _ => ⟨segments_inj, fun h => ?_⟩
  rw [h]

theorem tail_eq_meta (ha : ':' ∉ a) (ha' : ':' ∉ a') :
    [a, t].flatMap segments = [a', t'].flatMap segments ++ ["meta".toList] ↔ a = a' ∧ t = metaKey t' := by
  simp only [List.flatMap_cons, List.flatMap_nil, List.append_nil, segments_of_not_mem ha, segments_of_not_mem ha',
    List.cons_append, List.nil_append, List.cons.injEq, ← segments_metaKey]
  refine and_congr_right fun _ => ⟨segments_inj, fun h => ?_⟩
  rw [h]

end

theorem all_ne_metaKey (t : Text) : "all".toList ≠ metaKey t := by
  intro h
  have hlast := congrArg List.getLast? h
  rw [metaKey, List.getLast?_append_of_ne_nil _ (by decide)] at hlast
  exact absurd hlast (by decide)

theorem nil_ne_metaKey (t : Text) : [] ≠ metaKey t := by
  intro h
  exact absurd (List.append_eq_nil_iff.mp h.symm).2 (by decide)

theorem all_ne_join_meta (t : Text) : "all".toList ≠ join ([t] ++ ["meta".toList]) := by
  cases t with
  | nil => decide
  | cons c t =>
    have hjoin : join ([c :: t] ++ ["meta".toList]) = metaKey (c :: t) := by simp [join, metaKey, List.intercalate_cons_cons]
    rw [hjoin]
    exact all_ne_metaKey _

theorem list_ne_meta (x : List Text) : ["list".toList] ≠ x ++ ["meta".toList] := by
  intro h
  have hlast := congrArg List.getLast? h
  rw [List.getLast?_concat] at hlast
  exact absurd hlast (by decide)

/-- The sibling of joined arguments is joined with one more. -/
theorem joinRest_eq_meta {args args' : List Text} :
    joinRest args = joinRest args' ++ ["meta".toList] ↔ join args = join (args' ++ ["meta".toList]) := by
  rw [← joinRest_inj, joinRest_append, joinRest_meta]

theorem joinRest_list : ["list".toList] = joinRest ["list".toList] := by decide

theorem joinRest_eq_list_meta {args : List Text} :
    joinRest args = ["list".toList] ++ ["meta".toList] ↔ join args = metaKey "list".toList := by
  have hmeta : join (["list".toList] ++ ["meta".toList]) = metaKey "list".toList := by decide
  rw [joinRest_list, joinRest_eq_meta, hmeta]

theorem segments_meta : segments "meta".toList = ["meta".toList] := by decide

/-- A window, and the filter where it is not empty. -/
theorem window_rest_eq {w w' : Text} {t t' : Text} (h : w :: joinRest [t] = w' :: joinRest [t']) : w = w' ∧ t = t' := by
  rw [List.cons.injEq, joinRest_inj, join_singleton, join_singleton] at h
  exact h

/-! ### What the calls of one key have in common -/

theorem Clash.rest_eq {c c' : Call} (h : Clash c c') : c.rest = c'.rest := by
  cases h with
  | k8sPods namespace_ h => exact congrArg (fun t => [namespace_.val, t].flatMap segments) h.symm
  | podsList namespace_ h => exact congrArg (fun t => [namespace_.val, t].flatMap segments) h.symm
  | k8sEventsAll h => exact congrArg (fun t => [t].flatMap segments) h.symm
  | serviceGraphCluster window h =>
    rw [h]
    rfl
  | scorecardAll rulesVersion => rfl
  | auditDetail audit hne h => exact joinRest_inj.mpr h
  | auditList audit h => exact joinRest_list.trans (joinRest_inj.mpr ((join_singleton _).trans h.symm))
  | itemList item h => exact joinRest_list.trans (by rw [h]; rfl)

theorem rest_serviceGraphCluster (window : GraphWindow) (namespace_ : Option Text) :
    (Call.serviceGraphCluster window namespace_).rest = window.name :: joinRest [orAll namespace_] := by
  rw [Call.rest, Call.args, List.flatMap_cons, segments_of_not_mem window.name_plain.2]
  rfl

theorem rest_k8sEventsAll (namespace_ : Option Segment) :
    (Call.k8sEventsAll namespace_).rest = [orAll (namespace_.map Subtype.val)] :=
  flatMap_segments_plain (List.forall_mem_singleton.mpr (segment_or_all_plain namespace_).2)

theorem rest_k8sEvents (namespace_ : Segment) (name : Given) :
    (Call.k8sEvents namespace_ name).rest = namespace_.val :: segments name := by
  rw [Call.rest, Call.args, List.flatMap_cons, segments_of_not_mem namespace_.property.2]
  simp

theorem rest_trivyImage (image : Given) : (Call.trivyImage image).rest = segments image := by
  rw [Call.rest, Call.args, List.flatMap_singleton]

theorem MetaClash.rest_eq {c c' : Call} (h : MetaClash c c') : c.rest = c'.rest ++ ["meta".toList] := by
  cases h with
  | k8sPods namespace_ h => exact (tail_eq_meta namespace_.property.2 namespace_.property.2).mpr ⟨rfl, h⟩
  | k8sEvents namespace_ h => exact (tail_eq_meta namespace_.property.2 namespace_.property.2).mpr ⟨rfl, h⟩
  | k8sEventsAll hnamespace h => rw [rest_k8sEvents, rest_k8sEventsAll, h, segments_meta, hnamespace, List.singleton_append]
  | k8sResource namespace_ h => exact (tail_eq_meta namespace_.property.2 namespace_.property.2).mpr ⟨rfl, h⟩
  | promQuery clusterId h => exact (tail_eq_meta clusterId.property.2 clusterId.property.2).mpr ⟨rfl, h⟩
  | promVector clusterId h => exact (tail_eq_meta clusterId.property.2 clusterId.property.2).mpr ⟨rfl, h⟩
  | trivyImage h => rw [rest_trivyImage, rest_trivyImage, h, segments_metaKey]
  | scorecardDetail rulesVersion h =>
    exact (tail_eq_meta rulesVersion.text_plain.2.1 rulesVersion.text_plain.2.1).mpr ⟨rfl, h⟩
  | scorecardAll rulesVersion h =>
    exact (tail_eq_meta rulesVersion.text_plain.2.1 rulesVersion.text_plain.2.1).mpr ⟨rfl, h⟩
  | auditDetail audit h => exact joinRest_eq_meta.mpr h
  | auditList audit h => exact joinRest_eq_list_meta.mpr h
  | itemDetail item h => exact joinRest_eq_meta.mpr ((join_singleton _).trans h)
  | itemList item h => exact joinRest_eq_list_meta.mpr ((join_singleton _).trans h)
  | serviceGraphCluster window h =>
    rw [rest_serviceGraphCluster, rest_serviceGraphCluster, List.cons_append]
    exact congrArg _ (joinRest_eq_meta.mpr ((join_singleton _).trans h))

theorem rest_myApps (userSub : Text) (scopeFingerprint : Fingerprint) :
    (Call.myApps userSub scopeFingerprint).rest = joinRest [userSub] ++ [scopeFingerprint.val] := by
  have hsplit : (Call.myApps userSub scopeFingerprint).rest = joinRest ([userSub] ++ [scopeFingerprint.val]) := rfl
  have hfingerprint : joinRest [scopeFingerprint.val] = [scopeFingerprint.val] := by
    rw [joinRest, List.filter_cons_of_pos (by simpa using scopeFingerprint.ne_nil)]
    exact flatMap_segments_plain (List.forall_mem_singleton.mpr scopeFingerprint.property.2)
  rw [hsplit, joinRest_append, hfingerprint]

theorem rest_promRange (clusterId : Segment) (promql : Given) (durationMinutes : JsNumber) :
    (Call.promRange clusterId promql durationMinutes).rest =
      clusterId.val :: segments promql ++ [durationMinutes.text] := by
  rw [Call.rest, Call.args, List.flatMap_cons, List.flatMap_cons, List.flatMap_singleton,
    segments_of_not_mem clusterId.property.2, segments_of_not_mem durationMinutes.text_plain.2.1]
  rfl

/-- Where the builder is the same and the keys are, the arguments are, or they clash. -/
theorem Alike.of_rest_eq {c c' : Call} (h : Alike c c') (hrest : c.rest = c'.rest) :
    c = c' ∨ Clash c c' ∨ Clash c' c := by
  cases h with
  | fixed b => exact .inl rfl
  | single b x y =>
    have hargs : [x.val] = [y.val] := plain_rest_eq rfl rfl hrest
    exact .inl (congrArg _ (Subtype.ext (List.singleton_inj.mp hargs)))
  | myApps u f u' f' =>
    rw [rest_myApps, rest_myApps] at hrest
    obtain ⟨huser, hfingerprint⟩ := List.append_inj' hrest rfl
    rw [joinRest_inj, join_singleton, join_singleton] at huser
    rw [huser, Subtype.ext (List.singleton_inj.mp hfingerprint)]
    exact .inl rfl
  | traces x y =>
    have hargs : [x.val] = [y.val] := plain_rest_eq rfl rfl hrest
    exact .inl (congrArg _ (Subtype.ext (List.singleton_inj.mp hargs)))
  | k8sPods n a n' a' =>
    obtain ⟨hname, htext⟩ := (tail_eq n.property.2 n'.property.2).mp hrest
    obtain rfl := Subtype.ext hname
    obtain rfl | ⟨rfl, x, rfl, hx⟩ | ⟨rfl, x, rfl, hx⟩ := orAll_inj htext
    · exact .inl rfl
    · exact .inr (.inl (.k8sPods n hx))
    · exact .inr (.inr (.k8sPods n hx))
  | k8sEvents n a n' a' =>
    obtain ⟨hname, htext⟩ := (tail_eq n.property.2 n'.property.2).mp hrest
    exact .inl (by rw [Subtype.ext hname, Subtype.ext htext])
  | k8sEventsAll n n' =>
    rw [rest_k8sEventsAll, rest_k8sEventsAll] at hrest
    obtain rfl | ⟨rfl, x, rfl, hx⟩ | ⟨rfl, x, rfl, hx⟩ := orAll_inj (List.singleton_inj.mp hrest)
    · exact .inl rfl
    · exact .inr (.inl (.k8sEventsAll hx))
    · exact .inr (.inr (.k8sEventsAll hx))
  | eventsOfAll n a n' =>
    rw [rest_k8sEvents, rest_k8sEventsAll, List.cons.injEq] at hrest
    exact absurd hrest.2 (segments_ne_nil _)
  | allOfEvents n n' a' =>
    rw [rest_k8sEvents, rest_k8sEventsAll, List.cons.injEq] at hrest
    exact absurd hrest.2.symm (segments_ne_nil _)
  | k8sResource n a n' a' =>
    obtain ⟨hname, htext⟩ := (tail_eq n.property.2 n'.property.2).mp hrest
    exact .inl (by rw [Subtype.ext hname, Subtype.ext htext])
  | podsList n a n' a' =>
    obtain ⟨hname, htext⟩ := (tail_eq n.property.2 n'.property.2).mp hrest
    obtain rfl := Subtype.ext hname
    obtain rfl | ⟨rfl, x, rfl, hx⟩ | ⟨rfl, x, rfl, hx⟩ := orAll_inj htext
    · exact .inl rfl
    · exact .inr (.inl (.podsList n hx))
    · exact .inr (.inr (.podsList n hx))
  | podsLogs n p c t b n' p' c' t' b' =>
    have hargs : [n.val, p.val, c.val, t.text, boolText b] = [n'.val, p'.val, c'.val, t'.text, boolText b'] :=
      plain_rest_eq rfl rfl hrest
    simp only [List.cons.injEq, and_true] at hargs
    obtain ⟨hn, hp, hc, ht, hb⟩ := hargs
    rw [Subtype.ext hn, Subtype.ext hp, Subtype.ext hc, JsNumber.text_inj ht, boolText_inj hb]
    exact .inl rfl
  | falcoEvents p s l p' s' l' =>
    have hargs : [orAll (p.map (·.name)), s.text, l.text] = [orAll (p'.map (·.name)), s'.text, l'.text] :=
      plain_rest_eq rfl rfl hrest
    simp only [List.cons.injEq, and_true] at hargs
    obtain ⟨hp, hs, hl⟩ := hargs
    rw [priority_or_all_inj hp, JsNumber.text_inj hs, JsNumber.text_inj hl]
    exact .inl rfl
  | costV2 s f p s' f' p' =>
    have hargs : [s.name, f.val, p.val] = [s'.name, f'.val, p'.val] := plain_rest_eq rfl rfl hrest
    simp only [List.cons.injEq, and_true] at hargs
    obtain ⟨hs, hf, hp⟩ := hargs
    rw [CostScope.name_inj hs, Subtype.ext hf, Subtype.ext hp]
    exact .inl rfl
  | costServiceV2 f n s p f' n' s' p' =>
    have hargs : [f.val, n.val, s.val, p.val] = [f'.val, n'.val, s'.val, p'.val] := plain_rest_eq rfl rfl hrest
    simp only [List.cons.injEq, and_true] at hargs
    obtain ⟨hf, hn, hs, hp⟩ := hargs
    rw [Subtype.ext hf, Subtype.ext hn, Subtype.ext hs, Subtype.ext hp]
    exact .inl rfl
  | costTrendV2 s f n i d p s' f' n' i' d' p' =>
    have hargs : [s.name, f.val, (n.map Subtype.val).getD [], i.val, d.text, p.val] =
        [s'.name, f'.val, (n'.map Subtype.val).getD [], i'.val, d'.text, p'.val] := plain_rest_eq rfl rfl hrest
    simp only [List.cons.injEq, and_true] at hargs
    obtain ⟨hs, hf, hn, hi, hd, hp⟩ := hargs
    rw [CostScope.name_inj hs, Subtype.ext hf, segment_or_empty_inj hn, Subtype.ext hi, JsNumber.text_inj hd,
      Subtype.ext hp]
    exact .inl rfl
  | promQuery c q c' q' =>
    obtain ⟨hname, htext⟩ := (tail_eq c.property.2 c'.property.2).mp hrest
    exact .inl (by rw [Subtype.ext hname, Subtype.ext htext])
  | promVector c q c' q' =>
    obtain ⟨hname, htext⟩ := (tail_eq c.property.2 c'.property.2).mp hrest
    exact .inl (by rw [Subtype.ext hname, Subtype.ext htext])
  | promRange c q d c' q' d' =>
    rw [rest_promRange, rest_promRange] at hrest
    obtain ⟨hquery, hduration⟩ := List.append_inj' hrest rfl
    obtain ⟨hname, hsegments⟩ := List.cons.inj hquery
    rw [Subtype.ext hname, Subtype.ext (segments_inj hsegments), JsNumber.text_inj (List.singleton_inj.mp hduration)]
    exact .inl rfl
  | trivyImage i i' =>
    rw [rest_trivyImage, rest_trivyImage] at hrest
    exact .inl (congrArg _ (Subtype.ext (segments_inj hrest)))
  | trivyTopVulnerable l l' =>
    have hargs : [l.text] = [l'.text] := plain_rest_eq rfl rfl hrest
    exact .inl (congrArg _ (JsNumber.text_inj (List.singleton_inj.mp hargs)))
  | scorecardDetail v s v' s' =>
    obtain ⟨hname, htext⟩ := (tail_eq v.text_plain.2.1 v'.text_plain.2.1).mp hrest
    exact .inl (by rw [JsNumber.text_inj hname, Subtype.ext htext])
  | scorecardAll v t v' t' =>
    obtain ⟨hname, htext⟩ := (tail_eq v.text_plain.2.1 v'.text_plain.2.1).mp hrest
    obtain rfl := JsNumber.text_inj hname
    cases t with
    | none =>
      cases t' with
      | none => exact .inl rfl
      | some x =>
        obtain rfl : [] = x := htext
        exact .inr (.inl (.scorecardAll v))
    | some x =>
      cases t' with
      | none =>
        obtain rfl : x = [] := htext
        exact .inr (.inr (.scorecardAll v))
      | some y => exact .inl (congrArg (fun y => Call.scorecardAll v (some y)) htext)
  | auditList a => exact .inl rfl
  | auditDetail a n m n' m' =>
    by_cases hsame : (n, m) = (n', m')
    · cases hsame
      exact .inl rfl
    · exact .inr (.inl (.auditDetail a hsame (joinRest_inj.mp hrest)))
  | auditListDetail a n m =>
    have hjoin := joinRest_inj.mp (joinRest_list.symm.trans hrest)
    exact .inr (.inl (.auditList a (hjoin.symm.trans (join_singleton _))))
  | auditDetailList a n m =>
    have hjoin := joinRest_inj.mp (joinRest_list.symm.trans hrest.symm)
    exact .inr (.inr (.auditList a (hjoin.symm.trans (join_singleton _))))
  | itemList i => exact .inl rfl
  | itemDetail i x x' =>
    have hjoin := joinRest_inj.mp hrest
    rw [join_singleton, join_singleton] at hjoin
    exact .inl (congrArg _ hjoin)
  | itemListDetail i x =>
    have hjoin := joinRest_inj.mp (joinRest_list.symm.trans hrest)
    rw [join_singleton, join_singleton] at hjoin
    exact .inr (.inl (.itemList i hjoin.symm))
  | itemDetailList i x =>
    have hjoin := joinRest_inj.mp (joinRest_list.symm.trans hrest.symm)
    rw [join_singleton, join_singleton] at hjoin
    exact .inr (.inr (.itemList i hjoin.symm))
  | serviceGraphCluster w n w' n' =>
    rw [rest_serviceGraphCluster, rest_serviceGraphCluster] at hrest
    obtain ⟨hname, htext⟩ := window_rest_eq hrest
    obtain rfl := GraphWindow.name_inj hname
    cases n with
    | none =>
      cases n' with
      | none => exact .inl rfl
      | some x => exact .inr (.inl (.serviceGraphCluster w htext.symm))
    | some x =>
      cases n' with
      | none => exact .inr (.inr (.serviceGraphCluster w htext))
      | some y => exact .inl (congrArg (fun y => Call.serviceGraphCluster w (some y)) htext)
  | serviceGraphSvc s w s' w' =>
    have hargs : [s.val, w.name] = [s'.val, w'.name] := plain_rest_eq rfl rfl hrest
    simp only [List.cons.injEq, and_true] at hargs
    rw [Subtype.ext hargs.1, GraphWindow.name_inj hargs.2]
    exact .inl rfl

/-- Where the one key is the sibling of the other. -/
theorem Alike.of_rest_meta {c c' : Call} (h : Alike c c') (hrest : c.rest = c'.rest ++ ["meta".toList]) :
    MetaClash c c' := by
  cases h with
  | myApps u f u' f' =>
    rw [rest_myApps, rest_myApps] at hrest
    have hmeta : f.val = "meta".toList := List.singleton_inj.mp (List.append_inj' hrest rfl).2
    have hlength := f.property.1
    rw [hmeta] at hlength
    exact absurd hlength (by decide)
  | k8sPods n a n' a' =>
    obtain ⟨hname, htext⟩ := (tail_eq_meta n.property.2 n'.property.2).mp hrest
    obtain rfl := Subtype.ext hname
    cases a with
    | none => exact absurd htext (all_ne_metaKey _)
    | some a => exact .k8sPods n htext
  | k8sEvents n a n' a' =>
    obtain ⟨hname, htext⟩ := (tail_eq_meta n.property.2 n'.property.2).mp hrest
    obtain rfl := Subtype.ext hname
    exact .k8sEvents n htext
  | eventsOfAll n a n' =>
    rw [rest_k8sEvents, rest_k8sEventsAll, List.singleton_append, List.cons.injEq] at hrest
    exact .k8sEventsAll hrest.1 (segments_inj (hrest.2.trans segments_meta.symm))
  | allOfEvents n n' a' =>
    rw [rest_k8sEvents, rest_k8sEventsAll, List.cons_append, List.cons.injEq] at hrest
    exact absurd hrest.2.symm (by simp)
  | k8sResource n a n' a' =>
    obtain ⟨hname, htext⟩ := (tail_eq_meta n.property.2 n'.property.2).mp hrest
    obtain rfl := Subtype.ext hname
    exact .k8sResource n htext
  | promQuery c q c' q' =>
    obtain ⟨hname, htext⟩ := (tail_eq_meta c.property.2 c'.property.2).mp hrest
    obtain rfl := Subtype.ext hname
    exact .promQuery c htext
  | promVector c q c' q' =>
    obtain ⟨hname, htext⟩ := (tail_eq_meta c.property.2 c'.property.2).mp hrest
    obtain rfl := Subtype.ext hname
    exact .promVector c htext
  | promRange c q d c' q' d' =>
    rw [rest_promRange, rest_promRange] at hrest
    exact absurd (List.singleton_inj.mp (List.append_inj' hrest rfl).2) d.text_plain.2.2
  | trivyImage i i' =>
    rw [rest_trivyImage, rest_trivyImage, ← segments_metaKey] at hrest
    exact .trivyImage (segments_inj hrest)
  | scorecardDetail v s v' s' =>
    obtain ⟨hname, htext⟩ := (tail_eq_meta v.text_plain.2.1 v'.text_plain.2.1).mp hrest
    obtain rfl := JsNumber.text_inj hname
    exact .scorecardDetail v htext
  | scorecardAll v t v' t' =>
    obtain ⟨hname, htext⟩ := (tail_eq_meta v.text_plain.2.1 v'.text_plain.2.1).mp hrest
    obtain rfl := JsNumber.text_inj hname
    cases t with
    | none => exact absurd htext (nil_ne_metaKey _)
    | some t => exact .scorecardAll v htext
  | auditDetail a n m n' m' => exact .auditDetail a (joinRest_eq_meta.mp hrest)
  | auditListDetail a n m =>
    exact absurd hrest (list_ne_meta _)
  | auditDetailList a n m => exact .auditList a (joinRest_eq_list_meta.mp hrest)
  | itemDetail i x x' => exact .itemDetail i ((join_singleton x).symm.trans (joinRest_eq_meta.mp hrest))
  | itemListDetail i x =>
    exact absurd hrest (list_ne_meta _)
  | itemDetailList i x => exact .itemList i ((join_singleton x).symm.trans (joinRest_eq_list_meta.mp hrest))
  | serviceGraphCluster w n w' n' =>
    rw [rest_serviceGraphCluster, rest_serviceGraphCluster, List.cons_append, List.cons.injEq, joinRest_eq_meta,
      join_singleton] at hrest
    obtain rfl := GraphWindow.name_inj hrest.1
    cases n with
    | none => exact absurd hrest.2 (all_ne_join_meta _)
    | some n => exact .serviceGraphCluster w hrest.2
  | _ => exact absurd hrest (plain_rest_ne_meta rfl rfl rfl)

theorem Clash.ne {c c' : Call} (h : Clash c c') : c ≠ c' := by
  intro heq
  cases h with
  | auditDetail audit hne h =>
    cases heq
    exact hne rfl
  | _ => cases heq

theorem Clash.tag_eq {c c' : Call} (h : Clash c c') : c.tag = c'.tag := by
  cases h <;> rfl

theorem MetaClash.tag_eq {c c' : Call} (h : MetaClash c c') : c.tag = c'.tag := by
  cases h <;> rfl

theorem key_eq_iff {c c' : Call} : c.key = c'.key ↔ c = c' ∨ Clash c c' ∨ Clash c' c := by
  constructor
  · intro h
    obtain ⟨htag, hrest⟩ := key_eq_iff_rest.mp h
    exact (alike_of_tag htag).of_rest_eq hrest
  · rintro (rfl | h | h)
    · rfl
    · exact key_eq_iff_rest.mpr ⟨h.tag_eq, h.rest_eq⟩
    · exact key_eq_iff_rest.mpr ⟨h.tag_eq.symm, h.rest_eq.symm⟩

theorem key_eq_metaKey_iff {c c' : Call} : c.key = metaKey c'.key ↔ MetaClash c c' := by
  constructor
  · intro h
    obtain ⟨htag, hrest⟩ := key_eq_metaKey_iff_rest.mp h
    exact (alike_of_tag htag).of_rest_meta hrest
  · intro h
    exact key_eq_metaKey_iff_rest.mpr ⟨h.tag_eq, h.rest_eq⟩

/-- Two calls have one key only if they are the same, and the key of the first is not the sibling
    of the second's, unless they clash. -/
theorem keys_distinct_iff (c c' : Call) :
    ((c.key = c'.key → c = c') ∧ c.key ≠ metaKey c'.key) ↔ ¬ Clash c c' ∧ ¬ Clash c' c ∧ ¬ MetaClash c c' := by
  rw [Ne, key_eq_iff, key_eq_metaKey_iff, ← and_assoc]
  refine and_congr_left fun _ => ⟨fun h => ⟨fun hclash => ?_, fun hclash => ?_⟩, fun h heq => ?_⟩
  · exact hclash.ne (h (.inr (.inl hclash)))
  · exact hclash.ne (h (.inr (.inr hclash))).symm
  · obtain rfl | hclash | hclash := heq
    · rfl
    · exact absurd hclash h.1
    · exact absurd hclash h.2

/-- The namespace of the calls below. -/
def sampleNamespace : Segment := ⟨"shop".toList, by decide⟩

/-- The pods of an application named "all" have the key of all pods, the detail named "list" that
    of the list, and the events of a resource named "meta" are the sibling of all events. -/
theorem keys_clash :
    cacheKeys.k8sPods sampleNamespace none = cacheKeys.k8sPods sampleNamespace (some "all".toList) ∧
      cacheKeys.complianceInfraAuditList = cacheKeys.complianceInfraAuditDetail "list".toList ∧
      cacheKeys.complianceConfigAuditDetail "a".toList "b:c".toList =
        cacheKeys.complianceConfigAuditDetail "a:b".toList "c".toList ∧
      cacheKeys.k8sEvents sampleNamespace "meta".toList =
        metaKey (cacheKeys.k8sEventsAll (some sampleNamespace.val)) := by
  decide

end narwhal.portal.cache_keys
