import Narwhal.Lib.UrlPath
import Narwhal.Lib.YamlWrite
import Narwhal.Portal.TenantRequest

open jslib yamllib urllib

namespace narwhal.portal.gitea

/-! ### The manifest -/

/-- The manifest that a request adds. -/
def tenantManifest (ns team requestedBy : Text) : Text :=
  unlines [
    "# Requested through the Narwhal portal by ".toList ++ requestedBy ++ ".".toList,
    "# Generated file — change it by opening another pull request, not by editing in place.".toList,
    "apiVersion: v1".toList,
    "kind: Namespace".toList,
    "metadata:".toList,
    "  name: ".toList ++ ns,
    "  labels:".toList,
    "    narwhal.io/team: ".toList ++ team,
    "    app.kubernetes.io/managed-by: narwhal-gitops".toList,
    "    istio.io/dataplane-mode: none".toList,
    "---".toList,
    "apiVersion: rbac.authorization.k8s.io/v1".toList,
    "kind: RoleBinding".toList,
    "metadata:".toList,
    "  name: developer-workload-admin".toList,
    "  namespace: ".toList ++ ns,
    "  labels:".toList,
    "    narwhal.io/team: ".toList ++ team,
    "    app.kubernetes.io/managed-by: narwhal-gitops".toList,
    "roleRef:".toList,
    "  apiGroup: rbac.authorization.k8s.io".toList,
    "  kind: ClusterRole".toList,
    "  name: developer-workload-admin".toList,
    "subjects:".toList,
    "  - apiGroup: rbac.authorization.k8s.io".toList,
    "    kind: Group".toList,
    "    name: \"oidc:".toList ++ team ++ "\"".toList,
    "---".toList,
    "apiVersion: v1".toList,
    "kind: ResourceQuota".toList,
    "metadata:".toList,
    "  name: ".toList ++ ns ++ "-quota".toList,
    "  namespace: ".toList ++ ns,
    "  labels:".toList,
    "    app.kubernetes.io/managed-by: narwhal-gitops".toList,
    "spec:".toList,
    "  hard:".toList,
    "    requests.cpu: \"2\"".toList,
    "    limits.cpu: \"4\"".toList,
    "    requests.memory: 4Gi".toList,
    "    limits.memory: 8Gi".toList,
    "    requests.storage: 20Gi".toList,
    "    persistentvolumeclaims: \"5\"".toList,
    "    pods: \"20\"".toList]

/-! ### The documents of the template -/

/-- A field whose value is this string. -/
def field (key : String) (value : Text) : Text × Node := (key.toList, .scalar (.str value))

def object (key : String) (fields : List (Text × Node)) : Text × Node := (key.toList, .map fields)

/-- The Namespace, the RoleBinding and the ResourceQuota of the template. -/
def tenantDocuments (ns team : Text) : List Node :=
  [.map [
      field "apiVersion" "v1".toList,
      field "kind" "Namespace".toList,
      object "metadata" [
        field "name" ns,
        object "labels" [
          field "narwhal.io/team" team,
          field "app.kubernetes.io/managed-by" "narwhal-gitops".toList,
          field "istio.io/dataplane-mode" "none".toList]]],
    .map [
      field "apiVersion" "rbac.authorization.k8s.io/v1".toList,
      field "kind" "RoleBinding".toList,
      object "metadata" [
        field "name" "developer-workload-admin".toList,
        field "namespace" ns,
        object "labels" [
          field "narwhal.io/team" team,
          field "app.kubernetes.io/managed-by" "narwhal-gitops".toList]],
      object "roleRef" [
        field "apiGroup" "rbac.authorization.k8s.io".toList,
        field "kind" "ClusterRole".toList,
        field "name" "developer-workload-admin".toList],
      ("subjects".toList, .seq [.map [
        field "apiGroup" "rbac.authorization.k8s.io".toList,
        field "kind" "Group".toList,
        field "name" ("oidc:".toList ++ team)]])],
    .map [
      field "apiVersion" "v1".toList,
      field "kind" "ResourceQuota".toList,
      object "metadata" [
        field "name" (ns ++ "-quota".toList),
        field "namespace" ns,
        object "labels" [field "app.kubernetes.io/managed-by" "narwhal-gitops".toList]],
      object "spec" [
        object "hard" [
          field "requests.cpu" "2".toList,
          field "limits.cpu" "4".toList,
          field "requests.memory" "4Gi".toList,
          field "limits.memory" "8Gi".toList,
          field "requests.storage" "20Gi".toList,
          field "persistentvolumeclaims" "5".toList,
          field "pods" "20".toList]]]]

/-! ### The template -/

/-- What a key of the template stands before. -/
inductive Slot where
  | none
  | plain (s : Text)
  | quoted (s : Text)
  | name
  | quota
  | team
  | group
deriving DecidableEq

def Slot.value (ns team : Text) : Slot → yamllib.Value
  | .none => .none
  | .plain s => .plain s
  | .quoted s => .quoted s
  | .name => .plain ns
  | .quota => .plain (ns ++ "-quota".toList)
  | .team => .plain team
  | .group => .quoted ("oidc:".toList ++ team)

structure TemplateLine where
  indent : Nat
  item : Bool
  key : Text
  slot : Slot
deriving DecidableEq

def TemplateLine.entry (ns team : Text) (line : TemplateLine) : Entry :=
  ⟨line.indent, line.item, line.key, line.slot.value ns team⟩

def plainLine (indent : Nat) (key s : String) : TemplateLine := ⟨indent, false, key.toList, .plain s.toList⟩

def quotedLine (indent : Nat) (key s : String) : TemplateLine := ⟨indent, false, key.toList, .quoted s.toList⟩

def slotLine (indent : Nat) (key : String) (slot : Slot) : TemplateLine := ⟨indent, false, key.toList, slot⟩

def template : List (List TemplateLine) :=
  [[plainLine 0 "apiVersion" "v1",
      plainLine 0 "kind" "Namespace",
      slotLine 0 "metadata" .none,
      slotLine 2 "name" .name,
      slotLine 2 "labels" .none,
      slotLine 4 "narwhal.io/team" .team,
      plainLine 4 "app.kubernetes.io/managed-by" "narwhal-gitops",
      plainLine 4 "istio.io/dataplane-mode" "none"],
    [plainLine 0 "apiVersion" "rbac.authorization.k8s.io/v1",
      plainLine 0 "kind" "RoleBinding",
      slotLine 0 "metadata" .none,
      plainLine 2 "name" "developer-workload-admin",
      slotLine 2 "namespace" .name,
      slotLine 2 "labels" .none,
      slotLine 4 "narwhal.io/team" .team,
      plainLine 4 "app.kubernetes.io/managed-by" "narwhal-gitops",
      slotLine 0 "roleRef" .none,
      plainLine 2 "apiGroup" "rbac.authorization.k8s.io",
      plainLine 2 "kind" "ClusterRole",
      plainLine 2 "name" "developer-workload-admin",
      slotLine 0 "subjects" .none,
      { plainLine 2 "apiGroup" "rbac.authorization.k8s.io" with item := true },
      plainLine 4 "kind" "Group",
      slotLine 4 "name" .group],
    [plainLine 0 "apiVersion" "v1",
      plainLine 0 "kind" "ResourceQuota",
      slotLine 0 "metadata" .none,
      slotLine 2 "name" .quota,
      slotLine 2 "namespace" .name,
      slotLine 2 "labels" .none,
      plainLine 4 "app.kubernetes.io/managed-by" "narwhal-gitops",
      slotLine 0 "spec" .none,
      slotLine 2 "hard" .none,
      quotedLine 4 "requests.cpu" "2",
      quotedLine 4 "limits.cpu" "4",
      plainLine 4 "requests.memory" "4Gi",
      plainLine 4 "limits.memory" "8Gi",
      plainLine 4 "requests.storage" "20Gi",
      quotedLine 4 "persistentvolumeclaims" "5",
      quotedLine 4 "pods" "20"]]

def tenantEntries (ns team : Text) : List (List Entry) := template.map (·.map (TemplateLine.entry ns team))

def generated : Text :=
  "# Generated file — change it by opening another pull request, not by editing in place.".toList

def requestedThrough : Text := "# Requested through the Narwhal portal by ".toList

def requestedLine (requestedBy : Text) : Text := requestedThrough ++ requestedBy ++ ['.']

/-- The manifest is written from the template. -/
theorem tenantManifest_eq (ns team requestedBy : Text) : tenantManifest ns team requestedBy =
    unlines ([requestedLine requestedBy, generated] ++ writeEntries (tenantEntries ns team)) := by
  rfl

/-- The entries of the template make its documents. -/
theorem parseTokens_tenantEntries (ns team : Text) :
    ((tenantEntries ns team).mapM fun doc => parseTokens (doc.map Entry.token)) = some (tenantDocuments ns team) := by
  rfl

theorem pairs_tenantDocuments (ns team : Text) : (tenantDocuments ns team).flatMap Node.pairs =
    (tenantEntries ns team).flatten.map fun e => (e.key, e.value.scalar) := by
  rfl

/-! ### Reading the manifest -/

/-- A character of the template, or of a namespace name. -/
def isTemplateChar (c : Char) : Bool := (' ' ≤ c && c ≤ '~') || c == '—'

def TEMPLATE_WORDS : List Text :=
  template.flatten.filterMap fun line =>
    match line.slot with
    | .plain s => some s
    | _ => none

/-- A dialect that reads the template as it is meant. -/
structure TenantDialect extends Dialect where
  isBreak_lineFeed : isBreak '\n' = true
  template : ∀ c, isTemplateChar c = true → isPrintable c = true ∧ isBreak c = false
  words : ∀ s ∈ TEMPLATE_WORDS, isString s = true
  names : ∀ s, "dev-".toList <+: s → isString s = true

/-- A constant of the template that any of these dialects reads. -/
def Slot.Fine : Slot → Prop
  | .plain s => isPlain s = true ∧ s.all isTemplateChar = true ∧ s ∈ TEMPLATE_WORDS
  | .quoted s => s.all isTemplateChar = true ∧ '"' ∉ s ∧ '\\' ∉ s
  | _ => True

instance : (slot : Slot) → Decidable slot.Fine
  | .plain s => inferInstanceAs (Decidable (isPlain s = true ∧ s.all isTemplateChar = true ∧ s ∈ TEMPLATE_WORDS))
  | .quoted s => inferInstanceAs (Decidable (s.all isTemplateChar = true ∧ '"' ∉ s ∧ '\\' ∉ s))
  | .none | .name | .quota | .team | .group => inferInstanceAs (Decidable True)

def isTemplateKey (key : Text) : Bool := isPlain key && key.all fun c => !isWhite c && isTemplateChar c

theorem template_fine : ∀ line ∈ template.flatten, isTemplateKey line.key = true ∧ line.slot.Fine := by
  decide

section

variable {D : TenantDialect} {line : TemplateLine} {e : Entry} {ns team requestedBy : Text}

theorem mem_tenantEntries : e ∈ (tenantEntries ns team).flatten ↔
    ∃ line ∈ template.flatten, line.entry ns team = e := by
  rw [tenantEntries, ← List.map_flatten, List.mem_map]

theorem keyed_of_mem (h : e ∈ (tenantEntries ns team).flatten) : e.line.Keyed := by
  obtain ⟨line, hline, rfl⟩ := mem_tenantEntries.mp h
  have hkey := (template_fine line hline).1
  rw [isTemplateKey, Bool.and_eq_true, List.all_eq_true] at hkey
  refine ⟨hkey.1, List.all_eq_true.mpr fun c hc => ?_, ?_⟩
  · have hc := hkey.2 c hc
    rw [Bool.and_eq_true] at hc
    exact hc.1
  · change (line.slot.value ns team).text.head?.all isWhite = true
    cases line.slot.value ns team with
    | none => rfl
    | plain s => rfl
    | quoted s => rfl

theorem templateChar_start (h : e ∈ (tenantEntries ns team).flatten) : ∀ c ∈ e.line.start, isTemplateChar c = true := by
  obtain ⟨line, hline, rfl⟩ := mem_tenantEntries.mp h
  have hkey := (template_fine line hline).1
  rw [isTemplateKey, Bool.and_eq_true, List.all_eq_true] at hkey
  intro c hc
  simp only [Line.start, List.mem_append, List.mem_singleton] at hc
  rcases hc with hc | hc | hc | rfl
  · rw [List.eq_of_mem_replicate hc]
    decide
  · split at hc
    · rcases List.mem_pair.mp hc with rfl | rfl
      · decide
      · decide
    · cases hc
  · have hc := hkey.2 c hc
    rw [Bool.and_eq_true] at hc
    exact hc.2
  · decide

theorem writable_of_mem (h : e ∈ (tenantEntries ns team).flatten) : e.line.Writable D.toDialect := by
  refine ⟨keyed_of_mem h, fun c hc => (D.template c (templateChar_start h c hc)).2, ?_⟩
  change e.value.text.head?.all (!D.isBreak ·) = true
  have hspace := (D.template ' ' (by decide)).2
  cases e.value with
  | none => rfl
  | plain s => simp [Value.text, hspace]
  | quoted s => simp [Value.text, hspace]

/-! ### Names of namespaces -/

theorem isPlainRest_of_forall {c : Char} {s : Text} (h : ∀ d ∈ c :: s, isWhite d = false ∧ d ≠ ':') :
    isPlainRest c s = true := by
  induction s generalizing c with
  | nil =>
    have hc := h c List.mem_cons_self
    simp [isPlainRest, hc]
  | cons d s ih =>
    have hc := h c List.mem_cons_self
    rw [isPlainRest, ih fun x hx => h x (List.mem_cons_of_mem c hx)]
    simp [hc]

/-- What the checks of the request say about the name. -/
structure SelfServiceName (ns : Text) : Prop where
  dev : "dev-".toList <+: ns
  chars : ∀ c ∈ ns, (isLower c || isDigit c || c == '-') = true

theorem selfServiceName_of_precheck {request : PostRequest} {req : TenantRequest} (h : precheck request = .ok req) :
    SelfServiceName req.ns := by
  simp only [precheck] at h
  split at h
  · cases h
  split at h
  · cases h
  split at h
  · cases h
  next name _ =>
  split at h
  · cases h
  next hname =>
  split at h
  · cases h
  next hdev =>
  split at h
  · cases h
  split at h
  · cases h
  · obtain rfl := Except.ok.inj h
    refine ⟨List.isPrefixOf_iff_prefix.mp (not_not.mp hdev), ?_⟩
    cases name with
    | nil => exact fun c hc => nomatch hc
    | cons first rest =>
      rw [not_not, isNamespaceName] at hname
      simp only [Bool.and_eq_true, List.all_eq_true] at hname
      exact List.forall_mem_cons.mpr ⟨by simp [hname.1.1.1], hname.1.2⟩

theorem SelfServiceName.char (h : SelfServiceName ns) {c : Char} (hc : c ∈ ns) :
    isTemplateChar c = true ∧ isWhite c = false ∧ c ≠ ':' ∧ isSlash c = false ∧ isRemoved c = false ∧ isPathEnd c = false ∧
      c ≠ '%' := by
  have hchar := h.chars c hc
  have hnot : ∀ d ∈ [' ', '\t', ':', '/', '\\', '\n', '\r', '?', '#', '%'], c ≠ d := by
    have hother : [' ', '\t', ':', '/', '\\', '\n', '\r', '?', '#', '%'].all
        (fun d => !(isLower d || isDigit d || d == '-')) = true := by decide
    rintro d hd rfl
    have hnone := List.all_eq_true.mp hother c hd
    rw [hchar] at hnone
    cases hnone
  simp only [List.forall_mem_cons] at hnot
  obtain ⟨hspace, htab, hcolon, hslash, hback, hfeed, hreturn, hquery, hhash, hpercent, -⟩ := hnot
  refine ⟨?_, by simp [isWhite, hspace, htab], hcolon, by simp [isSlash, hslash, hback],
    by simp [isRemoved, htab, hfeed, hreturn], by simp [isPathEnd, hquery, hhash], hpercent⟩
  rw [Bool.or_eq_true, Bool.or_eq_true] at hchar
  rcases hchar with (hlower | hdigit) | hdash
  · rw [isLower, Bool.and_eq_true, decide_eq_true_eq, decide_eq_true_eq] at hlower
    simp [isTemplateChar, Char.le_trans (by decide : ' ' ≤ 'a') hlower.1, Char.le_trans hlower.2 (by decide : 'z' ≤ '~')]
  · rw [isDigit, Bool.and_eq_true, decide_eq_true_eq, decide_eq_true_eq] at hdigit
    simp [isTemplateChar, Char.le_trans (by decide : ' ' ≤ '0') hdigit.1, Char.le_trans hdigit.2 (by decide : '9' ≤ '~')]
  · rw [beq_iff_eq.mp hdash]
    decide

/-- A name with a suffix of harmless characters is a plain scalar. -/
theorem SelfServiceName.isPlain_append (h : SelfServiceName ns) {suffix : Text}
    (hsuffix : suffix.all (fun c => !isWhite c && c != ':') = true) : isPlain (ns ++ suffix) = true := by
  obtain ⟨rest, rfl⟩ := h.dev
  have hrest : isPlainRest 'd' ("ev-".toList ++ rest ++ suffix) = true := by
    refine isPlainRest_of_forall fun c hc => ?_
    have hmem : c ∈ ("dev-".toList ++ rest) ++ suffix := by simpa using hc
    rcases List.mem_append.mp hmem with hc | hc
    · exact ⟨(h.char hc).2.1, (h.char hc).2.2.1⟩
    · simpa using List.all_eq_true.mp hsuffix c hc
  have hcons : "dev-".toList ++ rest ++ suffix = 'd' :: ("ev-".toList ++ rest ++ suffix) := rfl
  rw [hcons, isPlain, hrest, if_neg (by decide)]
  decide

theorem SelfServiceName.isSegment_yaml (h : SelfServiceName ns) : isSegment (ns ++ ".yaml".toList) = true := by
  have hyaml : isClean ".yaml".toList = true := by decide
  have hclean : isClean (ns ++ ".yaml".toList) = true := by
    rw [isClean_iff] at hyaml ⊢
    intro c hc
    rcases List.mem_append.mp hc with hc | hc
    · exact (h.char hc).2.2.2
    · exact hyaml c hc
  have hdots : dots (ns ++ ".yaml".toList) = none := by
    obtain ⟨rest, rfl⟩ := h.dev
    rfl
  rw [isSegment, hclean, isSingleDot, isDoubleDot, hdots]
  rfl

end

end narwhal.portal.gitea
