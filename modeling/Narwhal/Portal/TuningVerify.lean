import Mathlib.Data.List.Infix
import Narwhal.Lib.Words
import Narwhal.Portal.TuningCommands

open jslib

namespace narwhal.portal.tuning_commands

/-! ### The verification of the log -/

structure VerifyResult where
  index : Nat
  kind : Kind
  ok : Bool
  detail : Text
deriving DecidableEq, Repr

/-- `NARWHAL_VERIFY_<index>=`. -/
def verifyMarker (index : Nat) : Text := VERIFY_MARKER_PREFIX ++ natText index ++ "=".toList

/-- Whether the state that was read back is the one requested. -/
def judge (target : ApplyTarget) (detail : Text) : Bool :=
  match target with
  | .kernelParam _ value => trimText detail = trimText value
  | .kernelModule _ => trimText detail = "loaded".toList
  | .swapOff => trimText detail = "0".toList
  | .serviceEnable _ => detail = "active/enabled".toList
  | .package _ => trimText detail = "installed".toList
  | .ulimit name scope value => scope ++ " ".toList ++ name ++ " ".toList ++ value <:+: detail
  | .ethtool .. | .tuningScript _ => 0 < detail.length ∧ detail ≠ "__ERR__".toList

def verifyTarget (logs : Text) (index : Nat) (target : ApplyTarget) : VerifyResult :=
  let detail := (execMarker (verifyMarker index) true logs).getD []
  ⟨index, target.kind, judge target detail, detail⟩

def parseVerification (logs : Text) (targets : List ApplyTarget) : List VerifyResult :=
  targets.mapIdx (verifyTarget logs)

/-! ### What the log reports -/

/-- What the first line with the marker of this target reports. -/
def reported (logs : Text) (index : Nat) : Option Text := markedLine (verifyMarker index) logs

/-- The scope, the name and the value that a line of `limits.d` sets; what follows a `#` is a comment. -/
def limitOf (line : Text) : Option (Text × Text × Text) :=
  match fields (line.takeWhile (· ≠ '#')) with
  | [_, scope, name, value] => some (scope, name, value)
  | _ => none

/-- The verdict on a target is the right one for what is reported of it. -/
def Right (target : ApplyTarget) (report : Option Text) (ok : Bool) : Prop :=
  (report = none → ok = false) ∧
    match target with
    | .kernelParam _ value => ok = true ↔ ∃ detail, report = some detail ∧ fields detail = fields value
    | .ulimit name scope value => ok = true ↔ ∃ detail, report = some detail ∧ limitOf detail = some (scope, name, value)
    | _ => True

/-- There is one entry for each target, in order; it depends only on what is reported of the target, and is right. -/
structure Exact (logs : Text) (targets : List ApplyTarget) : Prop where
  length : (parseVerification logs targets).length = targets.length
  depends : ∀ logs' targets' i, targets'[i]? = targets[i]? → reported logs' i = reported logs i →
    (parseVerification logs' targets')[i]? = (parseVerification logs targets)[i]?
  entry : ∀ i target, targets[i]? = some target → ∃ result, (parseVerification logs targets)[i]? = some result ∧
    result.index = i ∧ result.kind = target.kind ∧ Right target (reported logs i) result.ok

/-- A kernel parameter can be judged where it is reported or its value is not blank, and the reported value, if it has
    the fields requested, has them between the same white space. A limit can be judged where the reported line does not
    contain the text requested without setting that limit, or set it in another spelling. -/
def Judgeable (target : ApplyTarget) (report : Option Text) : Prop :=
  match target, report with
  | .kernelParam _ value, none => trimText value ≠ []
  | .kernelParam _ value, some detail => fields detail = fields value → trimText detail = trimText value
  | .ulimit name scope value, some detail =>
    ¬ (scope ++ " ".toList ++ name ++ " ".toList ++ value <:+: detail ∧ limitOf detail ≠ some (scope, name, value)) ∧
      ¬ (limitOf detail = some (scope, name, value) ∧ ¬ scope ++ " ".toList ++ name ++ " ".toList ++ value <:+: detail)
  | _, _ => True

section

variable {logs : Text} {targets : List ApplyTarget} {target : ApplyTarget} {index : Nat}

theorem execMarker_verifyMarker (logs : Text) (index : Nat) :
    execMarker (verifyMarker index) true logs = reported logs index := by
  refine (execMarker_eq ?_ ?_ logs).1
  · simp [verifyMarker]
  · intro c hc
    have hparts : c ∈ VERIFY_MARKER_PREFIX ∨ c ∈ natText index ∨ c = '=' := by
      rw [verifyMarker, List.mem_append, List.mem_append] at hc
      rcases hc with (hdashed | hdigit) | hequals
      · exact .inl hdashed
      · exact .inr (.inl hdigit)
      · exact .inr (.inr (List.mem_singleton.mp hequals))
    rcases hparts with hprefix | hdigit | rfl
    · have hall : VERIFY_MARKER_PREFIX.all (fun c => !isLineTerminator c) = true := by decide
      simpa using List.all_eq_true.mp hall c hprefix
    · have hdigit := isDigit_of_mem_natText hdigit
      by_contra hterminator
      rw [Bool.not_eq_false] at hterminator
      simp only [isLineTerminator, Bool.or_eq_true, beq_iff_eq] at hterminator
      rcases hterminator with ((rfl | rfl) | rfl) | rfl
      all_goals exact absurd hdigit (by decide)
    · rfl

theorem verifyTarget_ok (logs : Text) (index : Nat) (target : ApplyTarget) :
    (verifyTarget logs index target).ok = judge target ((reported logs index).getD []) := by
  rw [← execMarker_verifyMarker]
  rfl

theorem getElem?_parseVerification (i : Nat) :
    (parseVerification logs targets)[i]? = targets[i]?.map (verifyTarget logs i) := by
  rw [parseVerification, List.getElem?_mapIdx]

theorem not_isInfix_nil (name scope value : Text) : ¬ scope ++ " ".toList ++ name ++ " ".toList ++ value <:+: [] := by
  intro h
  have hlength := h.length_le
  simp at hlength

/-- The code is right about a target exactly where it can be judged. -/
theorem right_iff (target : ApplyTarget) (report : Option Text) :
    Right target report (judge target (report.getD [])) ↔ Judgeable target report := by
  cases target with
  | kernelParam param value =>
    cases report with
    | none =>
      have hblank : judge (.kernelParam param value) [] = false ↔ trimText value ≠ [] := by
        rw [judge, decide_eq_false_iff_not]
        exact not_congr eq_comm
      refine Iff.trans ?_ hblank
      constructor
      · exact fun h => h.1 rfl
      · exact fun h => ⟨fun _ => h, ⟨fun hok => absurd hok (by simp [h]), fun ⟨_, hnone, _⟩ => nomatch hnone⟩⟩
    | some detail =>
      have hfields : trimText detail = trimText value → fields detail = fields value := fields_eq_of_trimText_eq
      have hjudge : judge (.kernelParam param value) detail = true ↔ trimText detail = trimText value := decide_eq_true_iff
      constructor
      · exact fun h hsame => hjudge.mp (h.2.mpr ⟨detail, rfl, hsame⟩)
      · refine fun h => ⟨(nomatch ·), fun hok => ⟨detail, rfl, hfields (hjudge.mp hok)⟩, ?_⟩
        rintro ⟨_, heq, hsame⟩
        obtain rfl := Option.some.inj heq
        exact hjudge.mpr (h hsame)
  | ulimit name scope value =>
    cases report with
    | none =>
      have hfalse : judge (.ulimit name scope value) [] = false := decide_eq_false (not_isInfix_nil name scope value)
      refine iff_of_true ⟨fun _ => hfalse, fun hok => ?_, fun ⟨_, hnone, _⟩ => nomatch hnone⟩ trivial
      rw [Option.getD_none, hfalse] at hok
      cases hok
    | some detail =>
      have hjudge : judge (.ulimit name scope value) detail = true ↔
          scope ++ " ".toList ++ name ++ " ".toList ++ value <:+: detail := decide_eq_true_iff
      constructor
      · intro h
        refine ⟨fun ⟨hin, hnot⟩ => ?_, fun ⟨hsets, hnot⟩ => hnot (hjudge.mp (h.2.mpr ⟨detail, rfl, hsets⟩))⟩
        obtain ⟨_, heq, hsets⟩ := h.2.mp (hjudge.mpr hin)
        obtain rfl := Option.some.inj heq
        exact hnot hsets
      · rintro ⟨hlonger, hspelling⟩
        refine ⟨(nomatch ·), fun hok => ⟨detail, rfl, ?_⟩, ?_⟩
        · by_contra hnot
          exact hlonger ⟨hjudge.mp hok, hnot⟩
        · rintro ⟨_, heq, hsets⟩
          obtain rfl := Option.some.inj heq
          rw [Option.getD_some, hjudge]
          by_contra hnot
          exact hspelling ⟨hsets, hnot⟩
  | kernelModule _ | package _ | swapOff | serviceEnable _ | ethtool _ _ _ | tuningScript _ =>
    cases report with
    | none => exact iff_of_true ⟨fun _ => rfl, trivial⟩ trivial
    | some detail => exact iff_of_true ⟨(nomatch ·), trivial⟩ trivial

/-- The verification is exact for the logs in which every target can be judged, and for no others. -/
theorem verification_exact_iff (logs : Text) (targets : List ApplyTarget) :
    Exact logs targets ↔ ∀ i target, targets[i]? = some target → Judgeable target (reported logs i) := by
  constructor
  · intro h i target htarget
    obtain ⟨result, hresult, -, -, hright⟩ := h.entry i target htarget
    rw [getElem?_parseVerification, htarget] at hresult
    rw [← Option.some.inj hresult, verifyTarget_ok] at hright
    exact (right_iff target _).mp hright
  · intro h
    refine ⟨by rw [parseVerification, List.length_mapIdx], ?_, ?_⟩
    · intro logs' targets' i htargets hreported
      rw [getElem?_parseVerification, getElem?_parseVerification, htargets]
      congr 1
      funext target
      simp only [verifyTarget, execMarker_verifyMarker, hreported]
    · intro i target htarget
      refine ⟨verifyTarget logs i target, by rw [getElem?_parseVerification, htarget]; rfl, rfl, rfl, ?_⟩
      rw [verifyTarget_ok]
      exact (right_iff target _).mpr (h i target htarget)

end

def longerLimit : Text := "* soft nofile 10240".toList

/-- A limit of ten times the value is taken for it. -/
theorem longer_limit_accepted :
    ¬ Exact (verifyMarker 0 ++ longerLimit) [.ulimit "nofile".toList "soft".toList "1024".toList] := by
  intro h
  obtain ⟨result, hresult, -, -, hright⟩ := h.entry 0 _ rfl
  have hreported : reported (verifyMarker 0 ++ longerLimit) 0 = some longerLimit := by decide +kernel
  rw [getElem?_parseVerification] at hresult
  rw [← Option.some.inj hresult, verifyTarget_ok, hreported] at hright
  obtain ⟨detail, hdetail, hlimit⟩ := hright.2.mp (by decide +kernel)
  rw [← Option.some.inj hdetail] at hlimit
  revert hlimit
  decide +kernel

-- What `sysctl` prints of a value of three fields is not taken for that value.
example : ¬ Exact (verifyMarker 0 ++ "4096\t87380\t6291456".toList)
      [.kernelParam "net.ipv4.tcp_rmem".toList "4096 87380 6291456".toList] := by
  intro h
  obtain ⟨result, hresult, -, -, hright⟩ := h.entry 0 _ rfl
  have hreported : reported (verifyMarker 0 ++ "4096\t87380\t6291456".toList) 0 = some "4096\t87380\t6291456".toList := by
    decide +kernel
  rw [getElem?_parseVerification] at hresult
  rw [← Option.some.inj hresult, verifyTarget_ok, hreported] at hright
  have hok := hright.2.mpr ⟨_, rfl, by decide +kernel⟩
  revert hok
  decide +kernel

end narwhal.portal.tuning_commands
