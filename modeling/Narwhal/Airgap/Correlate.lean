import Narwhal.Lib.Split

open pylib

namespace narwhal.sbom_correlation

/-! ### The documents

A field that may be absent is an `Option`; a list that may be absent or null is empty when it is. -/

structure Property where
  name : Option Str
  value : Option Str
deriving DecidableEq, Repr

structure Hash where
  alg : Option Str
  content : Option Str
deriving DecidableEq, Repr

structure LicenseEntry where
  expression : Option Str
  id : Option Str
deriving DecidableEq, Repr

structure Component where
  name : Option Str
  version : Option Str
  type : Option Str
  purl : Option Str
  hashes : List Hash
  properties : List Property
  licenses : List LicenseEntry
deriving DecidableEq, Repr

structure Sbom where
  metadata : List Property
  components : List Component
deriving DecidableEq, Repr

structure Vulnerability where
  VulnerabilityID : Option Str
  PkgName : Option Str
  PkgID : Option Str
  InstalledVersion : Option Str
  FixedVersion : Option Str
  Severity : Option Str
  PrimaryURL : Option Str
  Title : Option Str
  Description : Option Str
deriving DecidableEq, Repr

structure Result where
  Target : Option Str
  Vulnerabilities : List Vulnerability
deriving DecidableEq, Repr

structure Report where
  ArtifactName : Option Str
  RepoDigests : List Str
  ImageID : Option Str
  Results : List Result
deriving DecidableEq, Repr

/-- One element of a report list; what is not a dictionary is passed over. -/
inductive Element where
  | dict (report : Report)
  | other
deriving DecidableEq, Repr

inductive TrivyDoc where
  | list (reports : List Element)
  | single (report : Element)
deriving DecidableEq, Repr

/-! ### Reading the documents -/

/-- The truth value of a field. -/
def truthy : Option Str → Bool
  | some (_ :: _) => true
  | _ => false

/-- `a or b` -/
def orElse (a b : Option Str) : Option Str := if truthy a then a else b

def get_property (properties : List Property) (prop_name : Str) : Option Str :=
  (properties.find? fun prop => prop.name = some prop_name).bind Property.value

def extract_digest_from_component (comp : Component) : Option Str :=
  match comp.hashes.find? fun h => (h.alg = some (lit "SHA-256") || h.alg = some (lit "sha256")) && truthy h.content with
  | some h =>
    let content := h.content.getD []
    some (if (lit "sha256:").isPrefixOf content then content else lit "sha256:" ++ content)
  | none =>
    let purl := comp.purl.getD []
    if isInfix (lit "digest=sha256:") purl then
      some (lit "sha256:" ++ beforeFirst (lit "&") (afterLast (lit "digest=sha256:") purl))
    else none

structure Finding where
  artifact_name : Str
  target : Str
  image_id : Str
  repo_digests : List Str
  vulnerability_id : Str
  severity : Str
  pkg_name : Str
  installed_version : Str
  fixed_version : Option Str
  primary_url : Option Str
  title : Option Str
deriving DecidableEq, Repr

section Findings

variable (table : Nat → Str)

/-- The flat record of one vulnerability of a report. -/
def flatten (report : Report) (res : Result) (v : Vulnerability) : Finding where
  artifact_name := report.ArtifactName.getD []
  target := res.Target.getD []
  image_id := report.ImageID.getD []
  repo_digests := report.RepoDigests
  vulnerability_id := v.VulnerabilityID.getD (lit "UNKNOWN")
  severity := upper table (v.Severity.getD (lit "UNKNOWN"))
  pkg_name := if truthy v.PkgName then v.PkgName.getD [] else v.PkgID.getD (lit "unknown")
  installed_version := v.InstalledVersion.getD []
  fixed_version := v.FixedVersion
  primary_url := v.PrimaryURL
  title := orElse v.Title v.Description

def TrivyDoc.reports : TrivyDoc → List Element
  | .list reports => reports
  | .single report => [report]

def extract_trivy_vulnerabilities (trivy_doc : TrivyDoc) : List Finding :=
  trivy_doc.reports.flatMap fun
    | .other => []
    | .dict report => report.Results.flatMap fun res => res.Vulnerabilities.map (flatten table report res)

end Findings

/-! ### Matching -/

/-- The manifest digests a finding carries. -/
def manifestDigests (vuln : Finding) : List Str :=
  (vuln.repo_digests.filter fun ref => isInfix (lit "@") ref).map (afterLast (lit "@"))

/-- The exact references under which a container component is known. -/
def identities (name version : Str) (comp_digest : Option Str) : List Str :=
  name :: ((if version ≠ [] then [name ++ lit ":" ++ version] else []) ++
    (if truthy comp_digest then [name ++ lit "@" ++ comp_digest.getD []] else []))

def match_vuln_to_component (vuln : Finding) (comp : Component) : Bool :=
  let name := comp.name.getD []
  let version := comp.version.getD []
  if name = [] then false
  else if comp.type ≠ some (lit "container") then
    (vuln.pkg_name = name || vuln.pkg_name = removeHead (lit "pkg:deb/ubuntu/") name) &&
      version ≠ [] && vuln.installed_version = version
  else
    let comp_digest := extract_digest_from_component comp
    let repo_digests := manifestDigests vuln
    if truthy comp_digest ∧ repo_digests ≠ [] then repo_digests.contains (comp_digest.getD [])
    else if vuln.artifact_name ≠ [] then (identities name version comp_digest).contains vuln.artifact_name
    -- Trivy annotates container targets with an OS suffix
    else (identities name version comp_digest).contains (beforeFirst (lit " (") vuln.target)

/-! ### The correlation manifest -/

structure FormattedVuln where
  vulnerability_id : Str
  severity : Str
  pkg_name : Str
  installed_version : Str
  fixed_version : Option Str
  primary_url : Option Str
  title : Option Str
deriving DecidableEq, Repr

def formatted (v : Finding) : FormattedVuln where
  vulnerability_id := v.vulnerability_id
  severity := v.severity
  pkg_name := v.pkg_name
  installed_version := v.installed_version
  fixed_version := v.fixed_version
  primary_url := v.primary_url
  title := v.title

structure CorrelatedComponent where
  name : Str
  version : Str
  component_type : Option Str
  purl : Str
  artifact_digest : Option Str
  source_commit_sha : Str
  workflow_run_id : Option Str
  license : Option Str
  vulnerabilities : List FormattedVuln
deriving DecidableEq, Repr

structure CorrelationDoc where
  schema_version : Str
  correlation_id : Str
  generated_at : Str
  source_commit_sha : Str
  workflow_run_id : Option Str
  bundle_arch : Str
  sbom_ref : Str
  components : List CorrelatedComponent
deriving DecidableEq, Repr

/-- What a run reads of its environment. -/
structure Environ where
  SOURCE_COMMIT : Option Str
  GITHUB_SHA : Option Str
  WORKFLOW_RUN_ID : Option Str
  GITHUB_RUN_ID : Option Str
  /-- The clock as `%Y-%m-%dT%H:%M:%SZ`. -/
  now_iso : Str
  /-- The upper case of the code points past ASCII. -/
  table : Nat → Str

structure Args where
  sbom : Str
  output : Bool
  commit : Option Str
  workflow_run_id : Option Str
  json : Bool
  strict : Bool

def correlatedComponent (raw_findings : List Finding) (commit_sha : Str) (workflow_run_id : Option Str)
    (comp : Component) : CorrelatedComponent where
  name := comp.name.getD []
  version := comp.version.getD []
  component_type := comp.type
  purl := comp.purl.getD []
  artifact_digest := extract_digest_from_component comp
  source_commit_sha := (orElse (get_property comp.properties (lit "narwhal:commit_sha")) (some commit_sha)).getD []
  workflow_run_id := orElse (get_property comp.properties (lit "narwhal:workflow_run_id")) workflow_run_id
  license := comp.licenses.head?.bind fun entry => orElse entry.expression entry.id
  vulnerabilities := (raw_findings.filter fun v => match_vuln_to_component v comp).map formatted

/-- The manifest `correlate` builds from documents that loaded. -/
def correlationDoc (env : Environ) (args : Args) (sbom : Sbom) (trivy_doc : TrivyDoc) : CorrelationDoc :=
  let arch := (orElse (get_property sbom.metadata (lit "narwhal:architecture")) (some (lit "amd64"))).getD []
  let commit_sha := (orElse args.commit (orElse (get_property sbom.metadata (lit "narwhal:commit_sha"))
    (orElse env.SOURCE_COMMIT (orElse env.GITHUB_SHA (some (lit "unknown")))))).getD []
  let workflow_run_id := orElse args.workflow_run_id (orElse (get_property sbom.metadata (lit "narwhal:workflow_run_id"))
    (orElse env.WORKFLOW_RUN_ID (orElse env.GITHUB_RUN_ID none)))
  { schema_version := lit "1.0"
    correlation_id := lit "corr-" ++ (if commit_sha ≠ lit "unknown" then commit_sha.take 8 else lit "local") ++ lit "-" ++ arch
    generated_at := env.now_iso
    source_commit_sha := commit_sha
    workflow_run_id := workflow_run_id
    bundle_arch := arch
    sbom_ref := args.sbom
    components := sbom.components.map
      (correlatedComponent (extract_trivy_vulnerabilities env.table trivy_doc) commit_sha workflow_run_id) }

/-! ### The run -/

/-- The files a run is given. A document is `none` when it is missing or not JSON. -/
structure Files where
  sbom : Option Sbom
  trivy : Option TrivyDoc
  /-- What the validator of the loaded schema finds wrong with a manifest. -/
  schema : Option (CorrelationDoc → List Str)
  /-- The output path can be created and written. -/
  writable : Bool

/-- The end of a run: its exit code and the manifest it wrote. -/
structure Outcome where
  exit : Nat
  manifest : Option CorrelationDoc
deriving DecidableEq, Repr

/-- `correlate`; `error` carries the code of its `sys.exit`. -/
def correlate (env : Environ) (args : Args) (files : Files) : Except Nat CorrelationDoc :=
  match files.sbom, files.trivy, files.schema with
  | some sbom, some trivy_doc, some validate =>
    let correlation_doc := correlationDoc env args sbom trivy_doc
    if validate correlation_doc ≠ [] then .error 1 else .ok correlation_doc
  | _, _, _ => .error 2

def crit_or_high (corr_doc : CorrelationDoc) : List FormattedVuln :=
  (corr_doc.components.flatMap CorrelatedComponent.vulnerabilities).filter fun v =>
    v.severity = lit "CRITICAL" || v.severity = lit "HIGH"

/-- `" -> fix: {v['fixed_version']}" if v.get("fixed_version") else " (no fix)"` -/
def fix_str (v : FormattedVuln) : Str :=
  if truthy v.fixed_version then lit " -> fix: " ++ v.fixed_version.getD [] else lit " (no fix)"

/-- `format_summary_report(corr_doc)`, line by line. -/
def format_summary_report (corr_doc : CorrelationDoc) : List Str :=
  let rule := lit "====================================================================="
  let thin := lit "---------------------------------------------------------------------"
  let comps_with_vulns := corr_doc.components.filter fun c => c.vulnerabilities ≠ []
  let total_vulns := (corr_doc.components.map fun c => c.vulnerabilities.length).sum
  [rule, lit "        NARWHAL SBOM & VULNERABILITY CORRELATION REPORT", rule,
    lit "Correlation ID : " ++ corr_doc.correlation_id,
    lit "Generated At   : " ++ corr_doc.generated_at,
    lit "Source Commit  : " ++ corr_doc.source_commit_sha,
    lit "Workflow Run ID: " ++
      (orElse corr_doc.workflow_run_id (some (lit "<not set (CI build-time field)>"))).getD [],
    lit "Bundle Arch    : " ++ (orElse (some corr_doc.bundle_arch) (some (lit "unknown"))).getD [],
    thin,
    lit "Summary: " ++ natRepr corr_doc.components.length ++ lit " components evaluated, " ++
      natRepr comps_with_vulns.length ++ lit " linked to " ++ natRepr total_vulns ++ lit " CVE findings",
    thin] ++
  (if comps_with_vulns ≠ [] then
    lit "\n[LINKED VULNERABILITY FINDINGS BY SBOM COMPONENT]" :: comps_with_vulns.flatMap fun c =>
      [lit "\n* Component: " ++ c.name ++ lit ":" ++ c.version ++ lit " (" ++ c.component_type.getD (lit "None") ++ lit ")",
        lit "  PURL:   " ++ c.purl,
        lit "  Digest: " ++ (orElse c.artifact_digest (some (lit "no-digest"))).getD [],
        lit "  Vulnerabilities:"] ++
      c.vulnerabilities.map fun v =>
        lit "    - [" ++ v.severity ++ lit "] " ++ v.vulnerability_id ++ lit " in " ++ v.pkg_name ++ lit " " ++
          v.installed_version ++ fix_str v
  else [lit "\nNo vulnerability findings linked to the evaluated SBOM components."]) ++
  [lit "\n" ++ rule]

/-- The text goes out as UTF-8; the JSON form is ASCII and always prints. -/
def prints (args : Args) (corr_doc : CorrelationDoc) : Bool :=
  args.json || (format_summary_report corr_doc).all fun line => (utf8Encode line).isSome

/-- `main()`; an exception that is not caught ends the process with 1. -/
def main (env : Environ) (args : Args) (files : Files) : Outcome :=
  match correlate env args files with
  | .error code => ⟨code, none⟩
  | .ok corr_doc =>
    if args.output && !files.writable then ⟨1, none⟩
    else
      let manifest := if args.output then some corr_doc else none
      if prints args corr_doc = false then ⟨1, manifest⟩
      else if args.strict && crit_or_high corr_doc ≠ [] then ⟨1, manifest⟩
      else ⟨0, manifest⟩

end narwhal.sbom_correlation
