import Narwhal.Airgap.Correlate

open pylib

namespace narwhal.sbom_correlation

/-! ### The vulnerabilities of a report -/

/-- A vulnerability of a Trivy document at one of the places it is listed. -/
structure Occurrence where
  report : Report
  result : Result
  vulnerability : Vulnerability
deriving DecidableEq, Repr

def Occurrence.finding (table : Nat → Str) (o : Occurrence) : Finding :=
  flatten table o.report o.result o.vulnerability

/-- Every listing of a vulnerability in the document, in order. -/
def TrivyDoc.occurrences (trivy_doc : TrivyDoc) : List Occurrence :=
  trivy_doc.reports.flatMap fun
    | .other => []
    | .dict report => report.Results.flatMap fun res => res.Vulnerabilities.map fun v => ⟨report, res, v⟩

theorem extract_eq_map_finding (table : Nat → Str) (trivy_doc : TrivyDoc) :
    extract_trivy_vulnerabilities table trivy_doc = trivy_doc.occurrences.map (Occurrence.finding table) := by
  unfold extract_trivy_vulnerabilities TrivyDoc.occurrences
  rw [List.map_flatMap]
  apply List.flatMap_congr
  intro element _
  cases element with
  | other => rfl
  | dict report =>
    simp only [List.map_flatMap, List.map_map]
    rfl

/-- The severity is one the gate is about, in any letter case. -/
def Occurrence.Severe (o : Occurrence) : Prop :=
  ∃ severity, o.vulnerability.Severity = some severity ∧
    (sameLetters severity (lit "CRITICAL") ∨ sameLetters severity (lit "HIGH"))

theorem Occurrence.Severe.finding_severity {o : Occurrence} (h : o.Severe) (table : Nat → Str) :
    (o.finding table).severity = lit "CRITICAL" ∨ (o.finding table).severity = lit "HIGH" := by
  obtain ⟨severity, hseverity, hsame⟩ := h
  have hfinding : (o.finding table).severity = upper table severity := by
    simp only [Occurrence.finding, flatten, hseverity, Option.getD_some]
  rw [hfinding]
  cases hsame with
  | inl hcritical => exact .inl (upper_eq_of_sameLetters (by decide) hcritical)
  | inr hhigh => exact .inr (upper_eq_of_sameLetters (by decide) hhigh)

/-! ### The manifest -/

section Manifest

variable (env : Environ) (args : Args) (sbom : Sbom) (trivy_doc : TrivyDoc)

/-- The findings listed under a component are the occurrences that match it, in report order. -/
theorem correlatedComponent_vulnerabilities (commit_sha : Str) (workflow_run_id : Option Str) (comp : Component) :
    (correlatedComponent (extract_trivy_vulnerabilities env.table trivy_doc) commit_sha workflow_run_id comp).vulnerabilities =
      (trivy_doc.occurrences.filter fun o => match_vuln_to_component (o.finding env.table) comp).map
        fun o => formatted (o.finding env.table) := by
  unfold correlatedComponent
  rw [extract_eq_map_finding, List.filter_map, List.map_map]
  rfl

theorem count_vulnerabilities (commit_sha : Str) (workflow_run_id : Option Str) (comp : Component) (f : FormattedVuln) :
    (correlatedComponent (extract_trivy_vulnerabilities env.table trivy_doc) commit_sha workflow_run_id
      comp).vulnerabilities.count f =
      trivy_doc.occurrences.countP fun o =>
        match_vuln_to_component (o.finding env.table) comp && formatted (o.finding env.table) = f := by
  rw [correlatedComponent_vulnerabilities, List.count, List.countP_map, List.countP_filter]
  apply List.countP_congr
  intro o _
  simp only [Function.comp_apply, Bool.and_eq_true, beq_iff_eq, decide_eq_true_eq]
  exact and_comm

theorem mem_crit_or_high {o : Occurrence} {comp : Component} (ho : o ∈ trivy_doc.occurrences) (hsevere : o.Severe)
    (hcomp : comp ∈ sbom.components) (hmatch : match_vuln_to_component (o.finding env.table) comp = true) :
    formatted (o.finding env.table) ∈ crit_or_high (correlationDoc env args sbom trivy_doc) := by
  unfold crit_or_high
  rw [List.mem_filter, List.mem_flatMap]
  constructor
  · refine ⟨_, List.mem_map_of_mem hcomp, ?_⟩
    rw [correlatedComponent_vulnerabilities]
    apply List.mem_map_of_mem
    exact List.mem_filter.mpr ⟨ho, hmatch⟩
  · have hseverity := hsevere.finding_severity env.table
    rw [Bool.or_eq_true, decide_eq_true_eq, decide_eq_true_eq]
    exact hseverity

end Manifest

/-! ### The end of a run -/

section Run

variable {env : Environ} {args : Args} {sbom : Sbom} {trivy_doc : TrivyDoc}
  {schema : Option (CorrelationDoc → List Str)} {writable : Bool}

theorem correlate_eq_ok {corr_doc : CorrelationDoc}
    (h : correlate env args ⟨some sbom, some trivy_doc, schema, writable⟩ = .ok corr_doc) :
    corr_doc = correlationDoc env args sbom trivy_doc := by
  cases schema with
  | none => cases h
  | some validate =>
    simp only [correlate] at h
    by_cases hvalid : validate (correlationDoc env args sbom trivy_doc) ≠ []
    · rw [if_pos hvalid] at h
      cases h
    · rw [if_neg hvalid] at h
      cases h
      rfl

/-- Code 0 under `--strict` says that the manifest lists no critical or high finding. -/
theorem crit_or_high_of_exit_zero (hstrict : args.strict = true)
    (h : (main env args ⟨some sbom, some trivy_doc, schema, writable⟩).exit = 0) :
    crit_or_high (correlationDoc env args sbom trivy_doc) = [] := by
  cases hcorrelate : correlate env args ⟨some sbom, some trivy_doc, schema, writable⟩ with
  | error code =>
    have hcode : code ≠ 0 := by
      cases schema with
      | none =>
        cases hcorrelate
        decide
      | some validate =>
        simp only [correlate] at hcorrelate
        by_cases hvalid : validate (correlationDoc env args sbom trivy_doc) ≠ []
        · rw [if_pos hvalid] at hcorrelate
          cases hcorrelate
          decide
        · rw [if_neg hvalid] at hcorrelate
          cases hcorrelate
    simp only [main, hcorrelate] at h
    exact absurd h hcode
  | ok corr_doc =>
    rw [← correlate_eq_ok hcorrelate]
    by_contra hne
    simp only [main, hcorrelate, hstrict, Bool.true_and, decide_eq_true_eq] at h
    split at h
    · cases h
    · split at h
      · cases h
      · cases h

theorem manifest_eq {m : CorrelationDoc}
    (h : (main env args ⟨some sbom, some trivy_doc, schema, writable⟩).manifest = some m) :
    m = correlationDoc env args sbom trivy_doc := by
  cases hcorrelate : correlate env args ⟨some sbom, some trivy_doc, schema, writable⟩ with
  | error code =>
    simp only [main, hcorrelate] at h
    cases h
  | ok corr_doc =>
    rw [← correlate_eq_ok hcorrelate]
    simp only [main, hcorrelate] at h
    have hwritten : (if args.output then some corr_doc else none) = some m := by
      split at h
      · cases h
      · split at h
        · exact h
        · split at h <;> exact h
    split at hwritten
    · cases hwritten
      rfl
    · cases hwritten

end Run

/-- A strict run that ends with 0 left out no critical or high vulnerability
    that matches a component, and a written manifest lists under each component
    exactly the vulnerabilities of the report that match it, as often as the
    report does. -/
theorem strict_exit_zero_sound (env : Environ) (args : Args) (sbom : Sbom) (trivy_doc : TrivyDoc)
    (schema : Option (CorrelationDoc → List Str)) (writable : Bool) :
    (args.strict = true → (main env args ⟨some sbom, some trivy_doc, schema, writable⟩).exit = 0 →
      ∀ o ∈ trivy_doc.occurrences,
        (∃ comp ∈ sbom.components, match_vuln_to_component (o.finding env.table) comp = true) → ¬ o.Severe) ∧
    ∀ m, (main env args ⟨some sbom, some trivy_doc, schema, writable⟩).manifest = some m →
      List.Forall₂ (fun comp c =>
        c.name = comp.name.getD [] ∧ c.version = comp.version.getD [] ∧ c.purl = comp.purl.getD [] ∧
        ∀ f, c.vulnerabilities.count f = trivy_doc.occurrences.countP fun o =>
          match_vuln_to_component (o.finding env.table) comp && formatted (o.finding env.table) = f)
        sbom.components m.components := by
  constructor
  · rintro hstrict hexit o ho ⟨comp, hcomp, hmatch⟩ hsevere
    have hlisted := mem_crit_or_high env args sbom trivy_doc ho hsevere hcomp hmatch
    rw [crit_or_high_of_exit_zero hstrict hexit] at hlisted
    cases hlisted
  · intro m hm
    rw [manifest_eq hm]
    apply List.forall₂_map_right_iff.mpr
    apply List.forall₂_same.mpr
    intro comp _
    exact ⟨rfl, rfl, rfl, count_vulnerabilities env trivy_doc _ _ comp⟩

/-! ### The unrelated image of the regression test -/

/-- A container component that no report of `sampleReport` names. -/
def unrelated : Component where
  name := some (lit "docker.io/library/nginx-extra")
  version := some (lit "1.25.3")
  type := some (lit "container")
  purl := some (lit "pkg:oci/nginx-extra")
  hashes := [⟨some (lit "SHA-256"), some (List.replicate 64 98)⟩]
  properties := []
  licenses := []

def sampleVulnerability : Vulnerability where
  VulnerabilityID := some (lit "CVE-2023-38545")
  PkgName := some (lit "curl")
  PkgID := some (lit "curl@7.88.1-10+deb12u1")
  InstalledVersion := some (lit "7.88.1-10+deb12u1")
  FixedVersion := some (lit "7.88.1-10+deb12u4")
  Severity := some (lit "CRITICAL")
  PrimaryURL := none
  Title := some (lit "SOCKS5 heap buffer overflow in libcurl")
  Description := none

def sampleReport : Report where
  ArtifactName := some (lit "docker.io/library/nginx:1.25.3")
  RepoDigests := [lit "docker.io/library/nginx@sha256:7f8d6262ad0086c07a3c3e80004d8058223ec7b25bf35b7e28b8a531d0fa4476"]
  ImageID := none
  Results := [⟨some (lit "docker.io/library/nginx:1.25.3 (debian 12.2)"), [sampleVulnerability]⟩]

def sampleEnviron : Environ := ⟨none, none, none, none, lit "2026-08-25T12:00:00Z", fun c => [c]⟩

def sampleArgs : Args := ⟨lit "sbom.json", true, none, none, true, true⟩

def sampleFiles (comp : Component) : Files :=
  ⟨some ⟨[], [comp]⟩, some (.single (.dict sampleReport)), some fun _ => [], true⟩

/-- A critical finding that names no component of the SBOM does not reach the gate. -/
theorem unmatched_critical_passes :
    (main sampleEnviron sampleArgs (sampleFiles unrelated)).exit = 0 ∧
      ∃ o ∈ (TrivyDoc.single (.dict sampleReport)).occurrences, o.Severe := by
  constructor
  · decide +kernel
  · refine ⟨⟨sampleReport, _, sampleVulnerability⟩, List.mem_singleton_self _, lit "CRITICAL", rfl, .inl ?_⟩
    decide

/-- The image that `sampleReport` is about. -/
def nginx : Component where
  name := some (lit "docker.io/library/nginx")
  version := some (lit "1.25.3")
  type := some (lit "container")
  purl := some (lit "pkg:oci/nginx")
  hashes := [⟨some (lit "SHA-256"), some (lit "7f8d6262ad0086c07a3c3e80004d8058223ec7b25bf35b7e28b8a531d0fa4476")⟩]
  properties := []
  licenses := []

def lowVulnerability : Vulnerability :=
  { sampleVulnerability with VulnerabilityID := some (lit "CVE-2011-3374"), Severity := some (lit "LOW") }

/-- The report of `nginx`, which finds the same twice. -/
def lowReport : Report :=
  { sampleReport with
    Results := [⟨some (lit "docker.io/library/nginx:1.25.3 (debian 12.2)"), [lowVulnerability, lowVulnerability]⟩] }

/-- The report of another image, which is not in the SBOM. -/
def otherReport : Report :=
  { sampleReport with
    ArtifactName := some (lit "docker.io/library/redis:7.2")
    RepoDigests := [lit "docker.io/library/redis@sha256:" ++ List.replicate 64 99] }

def nginxDoc : TrivyDoc := .list [.dict lowReport, .dict otherReport]

def nginxFiles : Files := ⟨some ⟨[], [nginx, unrelated]⟩, some nginxDoc, some fun _ => [], true⟩

theorem strict_exit_zero_sound_nginx :
    (∀ o ∈ nginxDoc.occurrences,
        (∃ comp ∈ [nginx, unrelated], match_vuln_to_component (o.finding sampleEnviron.table) comp = true) → ¬ o.Severe) ∧
      ((main sampleEnviron sampleArgs nginxFiles).manifest.map fun m =>
        m.components.map fun c => c.vulnerabilities.map FormattedVuln.severity) = some [[lit "LOW", lit "LOW"], []] := by
  constructor
  · apply (strict_exit_zero_sound sampleEnviron sampleArgs ⟨[], [nginx, unrelated]⟩ nginxDoc (some fun _ => []) true).1
    · rfl
    · decide +kernel
  · decide +kernel

end narwhal.sbom_correlation
