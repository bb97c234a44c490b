import Narwhal.Research.Recorder

open pylib narwhal.check_research_evidence narwhal.record_evidence

namespace narwhal.run_recorded

def REPOSITORY : String := "dasomel/narwhal"

def TASK_EVENTS : List (String × String) :=
  [("regression-static", "test"), ("research-recorder-unit-tests", "test"), ("cluster-install", "install"),
    ("cluster-deploy", "deploy"), ("cluster-verification", "test"), ("cluster-recovery", "recovery"),
    ("runtime-measurement", "runtime"), ("agent-task", "agent_task"), ("release", "release"), ("benchmark", "benchmark")]

def SECRET_PATTERN : Regex CodeClass :=
  Regex.oneOf [bearerToken, githubToken,
    Regex.chain [Regex.oneOf [literal "password", literal "token", literal "secret", apiKey], assignedSecret], privateKey]

def FAILURE_STAGES : List String :=
  ["download", "validation", "provision", "install", "deploy", "health-check", "rollback", "recovery", "cleanup", "timeout",
    "authorization", "verification", "other"]

def RECOVERY_RESULTS : List String := ["recovered", "not_recovered", "not_applicable"]

/-! ### The surroundings -/

/-- Where the script runs; `lower` is `str.lower`, and `resolve` the directory that a path names. -/
structure Host where
  system : Str
  machine : Str
  getenv : String → Option Str
  lower : Str → Str
  resolve : Str → Str

/-- `table.get(key, default)` -/
def translate (table : List (String × String)) (key : Str) (default : String) : String :=
  match table.find? fun entry => lit entry.1 = key with
  | some entry => entry.2
  | none => default

def environment_label (host : Host) : Str × Str :=
  let system := translate [("linux", "linux"), ("darwin", "macos"), ("windows", "windows")] (host.lower host.system) "other"
  let machine := translate [("x86_64", "x64"), ("amd64", "x64"), ("aarch64", "arm64"), ("arm64", "arm64")]
    (host.lower host.machine) "other"
  if host.getenv "GITHUB_ACTIONS" = some (lit "true") then
    let runner_os := translate [("linux", "linux"), ("macos", "macos"), ("windows", "windows")]
      (host.lower ((host.getenv "RUNNER_OS").getD [])) "other"
    let runner_arch := translate [("x64", "x64"), ("arm64", "arm64")]
      (host.lower ((host.getenv "RUNNER_ARCH").getD (lit "unknown"))) "unknown"
    (lit "github-actions/" ++ lit runner_os ++ 45 :: lit runner_arch, lit system ++ 47 :: lit machine)
  else (lit "local/" ++ lit system ++ 45 :: lit machine, lit system ++ 47 :: lit machine)

/-- A moment in UTC, to the millisecond. -/
structure Moment where
  year : Nat
  month : Nat
  day : Nat
  hour : Nat
  minute : Nat
  second : Nat
  millisecond : Nat
  year_mem : 1 ≤ year ∧ year ≤ 9999
  month_mem : 1 ≤ month ∧ month ≤ 12
  day_mem : 1 ≤ day ∧ day ≤ daysInMonth year month
  time_mem : hour ≤ 23 ∧ minute ≤ 59 ∧ second ≤ 59 ∧ millisecond ≤ 999

/-- A number in a fixed count of digits. -/
def padded : Nat → Nat → Str
  | 0, _ => []
  | width + 1, n => padded width (n / 10) ++ [48 + n % 10]

/-- `isoformat(timespec="milliseconds").replace("+00:00", "Z")` -/
def Moment.isoformat (m : Moment) : Str :=
  padded 4 m.year ++ 45 :: (padded 2 m.month ++ 45 :: (padded 2 m.day ++ 84 :: (padded 2 m.hour ++ 58 ::
    (padded 2 m.minute ++ 58 :: (padded 2 m.second ++ 46 :: (padded 3 m.millisecond ++ [90]))))))

/-- The directory and the name of the evidence file. -/
def evidence_path (host : Host) (m : Moment) : Str × Str :=
  (host.resolve (((host.getenv "RESEARCH_EVIDENCE_DIR").filter (· ≠ [])).getD (lit "research/evidence")),
    natRepr m.year ++ 45 :: padded 2 m.month ++ lit ".jsonl")

/-- `git_revision_and_dirty` of what `git rev-parse HEAD` and `git status --porcelain` answer; `none` is
    a `UnicodeDecodeError`. -/
def git_revision_and_dirty (head status : Answer) : Option (Option Str × Bool) :=
  match head, status with
  | .undecodable, _ => none
  | .failed, _ => some (none, false)
  | .text _, .undecodable => none
  | .text _, .failed => some (none, false)
  | .text revision, .text changes => some (some (strip revision), strip changes ≠ [])

/-! ### The test report -/

/-- What is under the path of a report. -/
inductive Report where
  | missing
  | unreadable
  | malformed
  | tooDeep
  | value (report : Json)

/-- What reading a report raises; the last is not caught. -/
inductive ReportError where
  | value (message : String)
  | os
  | json
  | recursion

/-- The count of a report under one name goes into the counts under another. -/
def addCount (summary counts : List (Str × Json)) (names : String × String) : Except ReportError (List (Str × Json)) :=
  match lookupField (lit names.1) summary with
  | some (.int count) =>
    if count < 0 then .error (.value "regression report contains an invalid count")
    else .ok (putField (lit names.2) (.int count) counts)
  | _ => .error (.value "regression report contains an invalid count")

def regression_summary (report : Option Report) : Except ReportError (List (Str × Json)) :=
  match report with
  | none => .ok [(lit "summary_available", .bool false)]
  | some .missing => .error (.value "requested regression report is missing")
  | some .unreadable => .error .os
  | some .malformed => .error .json
  | some .tooDeep => .error .recursion
  | some (.value (.obj report)) =>
    if lookupField (lit "script") report ≠ some (.str (lit "scripts/test/regression-check-kakao.sh")) then
      .error (.value "unrecognized regression report")
    else
      match lookupField (lit "summary") report with
      | some (.obj summary) =>
        [("pass", "pass_count"), ("fail", "fail_count"), ("warn", "warning_count")].foldlM (addCount summary)
          [(lit "summary_available", .bool true)]
      | _ => .error (.value "regression report has no summary")
  | some (.value _) => .error (.value "unrecognized regression report")

/-! ### The check of a record -/

/-- The schema file, as far as it is read: the required fields and those of the metadata. -/
def requiredFields : List String :=
  ["schema_version", "timestamp", "repository", "revision", "event_type", "task_or_test", "result", "duration_ms",
    "environment", "attempt", "human_interventions", "review_corrections", "ci_retries", "metadata"]

def metadataFields : List String :=
  ["exit_code", "working_tree_dirty", "platform", "pass_count", "fail_count", "skip_count", "warning_count",
    "summary_available", "cpu_time_ms", "peak_memory_mib", "storage_bytes", "artifact_digest", "failure_stage",
    "recovery_result"]

/-- A label of at most `n + 1` letters. -/
def labelPattern (n : Nat) : Regex CodeClass :=
  .seq (anyOf (CodeClass.lower ++ CodeClass.digits))
    (Regex.between 0 n (anyOf (CodeClass.lower ++ CodeClass.digits ++ CodeClass.chars "._-/")))

/-- `sha256:[0-9a-f]{64}` -/
def digestPattern : Regex CodeClass := .seq (literal "sha256:") (Regex.times 64 (anyOf hexRanges))

def isInt : Json → Bool
  | .int _ => true
  | _ => false

def isBool : Json → Bool
  | .bool _ => true
  | _ => false

def atLeast (n : Int) : Json → Bool
  | .int m => n ≤ m
  | _ => false

def isText (check : Str → Bool) : Json → Bool
  | .str s => check s
  | _ => false

/-- The first check that fails raises its error. -/
def firstError : List (Bool × String) → Except String Unit
  | [] => .ok ()
  | (passed, message) :: checks => if passed then firstError checks else .error message

/-- The checks of `validate_public_record`, in their order. -/
def publicChecks (decimal : Nat → Bool) (record : List (Str × Json)) : List (Bool × String) :=
  let get (name : String) := (lookupField (lit name) record).getD .null
  let metadata := match get "metadata" with
    | .obj fields => fields
    | _ => []
  let item (name : String) := lookupField (lit name) metadata
  [((record.map Prod.fst).all (fun key => (requiredFields.map lit).contains key) &&
      requiredFields.all fun name => (record.map Prod.fst).contains (lit name),
      "evidence record fields do not match the versioned schema"),
    (get "schema_version" = .str (lit "1.0") && get "repository" = .str (lit REPOSITORY),
      "evidence schema/repository identity is invalid"),
    (isText (fun s => (EVENT_TYPES.map lit).contains s) (get "event_type"), "evidence event_type is invalid"),
    (isText (fun s => (RESULTS.map lit).contains s) (get "result"), "evidence result is invalid"),
    (isText (isTimestamp decimal) (get "timestamp"), "evidence timestamp must be UTC ISO-8601")] ++
  (["duration_ms", "attempt", "human_interventions", "review_corrections", "ci_retries"].map fun name =>
    (isInt (get name), "evidence " ++ name ++ " must be an integer")) ++
  [(atLeast 0 (get "duration_ms") && atLeast 1 (get "attempt") &&
      ["human_interventions", "review_corrections", "ci_retries"].all fun name => atLeast 0 (get name),
      "evidence counters are out of range")] ++
  (["task_or_test", "environment"].map fun name =>
    (isText (fullmatch (labelPattern 79)) (get name), "evidence " ++ name ++ " must be a safe normalized label")) ++
  [(TASK_EVENTS.any fun entry => get "task_or_test" = .str (lit entry.1) && get "event_type" = .str (lit entry.2),
      "evidence task label and event type do not match the allowlist"),
    (get "revision" = .null || isText (fullmatch (Regex.times 40 (anyOf hexRanges))) (get "revision"),
      "evidence revision must be a full lowercase Git SHA or null"),
    ((metadata.map Prod.fst).all fun key => (metadataFields.map lit).contains key,
      "evidence metadata has fields outside the public allowlist"),
    ((item "working_tree_dirty").any isBool, "evidence dirty-tree state must be boolean"),
    ((item "exit_code").all fun value => value = .null || isInt value, "evidence exit code must be an integer or null"),
    ((item "platform").any (isText (fullmatch (labelPattern 63))), "evidence platform must be a normalized label")] ++
  (["pass_count", "fail_count", "skip_count", "warning_count", "cpu_time_ms", "peak_memory_mib", "storage_bytes"].map
    fun name => ((item name).all (atLeast 0), "evidence " ++ name ++ " must be a non-negative integer")) ++
  [((item "summary_available").all isBool, "evidence summary availability must be boolean"),
    ((item "artifact_digest").all (isText (fullmatch digestPattern)), "evidence artifact digest is invalid"),
    ((item "failure_stage").all (isText fun s => (FAILURE_STAGES.map lit).contains s), "evidence failure stage is invalid"),
    ((item "recovery_result").all fun value => value = .null || isText (fun s => (RECOVERY_RESULTS.map lit).contains s) value,
      "evidence recovery result is invalid"),
    (!searchFolded SECRET_PATTERN (spaced quoteAscii (sortKeys (.obj record))), "public evidence secret-pattern check failed")]

def validate_public_record (decimal : Nat → Bool) (record : List (Str × Json)) : Except String Unit :=
  firstError (publicChecks decimal record)

/-! ### The command line -/

/-- What `argparse` makes of a command line: the choices are among those it knows. -/
structure Options where
  task : { task : String // task ∈ TASK_EVENTS.map Prod.fst }
  event_type : { event : String // event ∈ EVENT_TYPES }
  attempt : Option Int
  human_interventions : Option Int
  review_corrections : Option Int
  ci_retries : Option Int
  pass_count : Option Int
  fail_count : Option Int
  skip_count : Option Int
  cpu_time_ms : Option Int
  peak_memory_mib : Option Int
  storage_bytes : Option Int
  artifact_digest : Option Str
  failure_stage : Option { stage : String // stage ∈ FAILURE_STAGES }
  recovery_result : Option { result : String // result ∈ RECOVERY_RESULTS }
  test_report : Option Str
  command : List Str

/-- The arguments with their defaults. -/
structure Args where
  options : Options
  attempt : Int
  human_interventions : Int
  review_corrections : Int
  ci_retries : Int
  command : List Str

/-- The measured counts, under their names in the metadata. -/
def Options.counts (options : Options) : List (String × Option Int) :=
  [("pass_count", options.pass_count), ("fail_count", options.fail_count), ("skip_count", options.skip_count),
    ("cpu_time_ms", options.cpu_time_ms), ("peak_memory_mib", options.peak_memory_mib),
    ("storage_bytes", options.storage_bytes)]

/-- The command, without the separator before it. -/
def Options.argv (options : Options) : List Str :=
  if options.command.head? = some (lit "--") then options.command.tail else options.command

/-- The checks of the counts and of the digest. -/
def checkCounts (args : Args) : Except String Args :=
  match [("attempt", args.attempt, (1 : Int)), ("human-interventions", args.human_interventions, 0),
    ("review-corrections", args.review_corrections, 0), ("ci-retries", args.ci_retries, 0)].find?
      fun count => count.2.1 < count.2.2 with
  | some count => .error ("--" ++ count.1 ++ " must be a non-negative count (attempt starts at 1)")
  | none =>
    match args.options.counts.find? fun count => count.2.any (· < 0) with
    | some count => .error ("--" ++ count.1.replace "_" "-" ++ " must be non-negative")
    | none =>
      if args.options.artifact_digest.any fun digest => digest ≠ [] ∧ fullmatch digestPattern digest = false then
        .error "--artifact-digest must use sha256:<64 lowercase hex digits>"
      else .ok args

/-- The rest of `parse_args`; `github_attempt` is `int` of `GITHUB_RUN_ATTEMPT`, and `none` where that
    raises. An error is what the parser exits with. -/
def parse_args (github_attempt : Option Int) (options : Options) : Except String Args :=
  if options.argv = [] then .error "provide a command after --"
  else if options.event_type.1 = "agent_task" ∧ (options.human_interventions = none ∨ options.review_corrections = none) then
    .error "agent_task records require measured --human-interventions and --review-corrections"
  else
    match github_attempt with
    | none => .error "ValueError"
    | some github_attempt =>
      checkCounts {
        options
        attempt := options.attempt.getD github_attempt
        human_interventions := options.human_interventions.getD 0
        review_corrections := options.review_corrections.getD 0
        ci_retries := options.ci_retries.getD (max (github_attempt - 1) 0)
        command := options.argv }

/-! ### The run -/

/-- How the command has ended. -/
inductive Outcome where
  | exited (returncode : Int)
  | interrupted
  | notStarted (strerror : Str)
deriving DecidableEq

/-- `exit_code` and `result` of a command. -/
def Outcome.exit_code : Outcome → Option Int
  | .exited returncode => some returncode
  | .interrupted => none
  | .notStarted _ => some 127

def Outcome.result : Outcome → String
  | .exited returncode => if returncode = 0 then "pass" else "fail"
  | .interrupted => "cancelled"
  | .notStarted _ => "fail"

/-- What a run meets: the times of its start and of its end, the answers of `git` before the command
    (`head`, `status`) and after it, the command and the reports. -/
structure World where
  host : Host
  start : Moment
  finish : Moment
  elapsed_ns : Nat
  head : Answer
  status : Answer
  outcome : Outcome
  report : Str → Report
  origin : Answer
  commits : Str → Bool
  disk : Disk

/-- What `main` raises after the command. -/
inductive Lost where
  | recursion
  | invalid (message : String)
  | refused (why : Refused)
deriving DecidableEq

/-- How `main` ends: before the command, after it with an exception, or with a status. -/
inductive Ended where
  | stopped
  | lost (why : Lost)
  | recorded (status : Int)
deriving DecidableEq

/-- The value of an option goes into the metadata where it is given. -/
def putOption (metadata : List (Str × Json)) (option : String × Option Json) : List (Str × Json) :=
  match option.2 with
  | none => metadata
  | some value => putField (lit option.1) value metadata

/-- The options that go into the metadata, in their order. -/
def Options.metadata (options : Options) : List (String × Option Json) :=
  (options.counts.map fun count => (count.1, count.2.map Json.int)) ++
    [("artifact_digest", options.artifact_digest.map Json.str),
      ("failure_stage", options.failure_stage.map fun stage => .str (lit stage.1)),
      ("recovery_result", options.recovery_result.map fun result => .str (lit result.1))]

/-- What the report adds to the metadata, and whether it could not be used. -/
def summaryOf (report : Option Report) : Except ReportError (List (Str × Json) × Bool) :=
  match regression_summary report with
  | .ok summary => .ok (summary, false)
  | .error .recursion => .error .recursion
  | .error _ => .ok ([(lit "summary_available", .bool false)], true)

/-- `summary.get("fail_count", 0) > 0` -/
def hasFailures (summary : List (Str × Json)) : Bool :=
  match lookupField (lit "fail_count") summary with
  | some (.int count) => 0 < count
  | _ => false

/-- A value that may be `None`. -/
def orNull {α : Type} (make : α → Json) : Option α → Json
  | some x => make x
  | none => .null

def metadataOf (outcome : Outcome) (dirty : Bool) (platform : Str) (summary : List (Str × Json)) (report_error : Bool)
    (options : Options) : List (Str × Json) :=
  let base := (summary.foldl (fun metadata item => putField item.1 item.2 metadata)
    [(lit "exit_code", orNull Json.int outcome.exit_code),
      (lit "working_tree_dirty", .bool dirty), (lit "platform", .str platform)])
  let base := if report_error then putField (lit "failure_stage") (.str (lit "validation")) base else base
  options.metadata.foldl putOption base

/-- The record of a run, with its environment as given. -/
def recordOf (w : World) (args : Args) (revision : Option Str) (result : String) (environment : Str)
    (metadata : List (Str × Json)) : List (Str × Json) :=
  [(lit "schema_version", .str (lit "1.0")), (lit "timestamp", .str w.start.isoformat),
    (lit "repository", .str (lit REPOSITORY)),
    (lit "revision", orNull Json.str revision),
    (lit "event_type", .str (lit args.options.event_type.1)), (lit "task_or_test", .str (lit args.options.task.1)),
    (lit "result", .str (lit result)), (lit "duration_ms", .int (w.elapsed_ns / 1000000 : Nat)),
    (lit "environment", .str environment), (lit "attempt", .int args.attempt),
    (lit "human_interventions", .int args.human_interventions), (lit "review_corrections", .int args.review_corrections),
    (lit "ci_retries", .int args.ci_retries), (lit "metadata", .obj metadata)]

section

variable (iter_errors : Json → List SchemaError) (decimal : Nat → Bool)

/-- `append_record`: the check of this script, and then that of the shared recorder on the record with
    a normalized environment. -/
def append_record (w : World) (record : List (Str × Json)) (files : Files) : Except Lost Unit × Files :=
  match validate_public_record decimal record with
  | .error message => (.error (.invalid message), files)
  | .ok () =>
    match (lookupField (lit "environment") record).bind fun
        | .str environment => safe_label false environment
        | _ => none with
    | none => (.error (.invalid "normalized task/environment label is empty or too long"), files)
    | some environment =>
      let record := putField (lit "environment") (.str environment) record
      let (ended, files) := record_evidence.append_record iter_errors w.disk w.origin w.commits (.obj record)
        (evidence_path w.host w.finish) files
      (ended.mapError Lost.refused, files)

def main (w : World) (args : Args) (files : Files) : Ended × Files :=
  let (label, host_platform) := environment_label w.host
  match git_revision_and_dirty w.head w.status with
  | none => (.stopped, files)
  | some (revision, dirty) =>
    match summaryOf (args.options.test_report.map w.report) with
    | .error _ => (.lost .recursion, files)
    | .ok (summary, report_error) =>
      let result := if report_error || hasFailures summary then "fail" else w.outcome.result
      let metadata := metadataOf w.outcome dirty host_platform summary report_error args.options
      match append_record iter_errors decimal w (recordOf w args revision result label metadata) files with
      | (.error why, files) => (.lost why, files)
      | (.ok (), files) =>
        if result = "fail" ∧ w.outcome.exit_code = some 0 then (.recorded 1, files)
        else (.recorded (w.outcome.exit_code.getD 130), files)

end

end narwhal.run_recorded
