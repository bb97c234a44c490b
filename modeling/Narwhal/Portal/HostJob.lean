import Narwhal.Lib.JsJson
import Narwhal.Portal.TuningScript

open jslib shlib
open narwhal.portal.tuning_commands

namespace narwhal.portal.job_runner

/-- The command that the host job's container runs, with its arguments; the error is what
    `buildJobScript` throws. -/
def runHostJob (targets : List ApplyTarget) : Except Text (List Text) :=
  match buildJobScript targets with
  | .error message => .error message
  | .ok wrapped =>
    .ok ["/bin/sh".toList, "-c".toList, "nsenter -t 1 -m -u -i -n -p -- sh -c ".toList ++ jsonString wrapped]

/-- The words before the script of the command that enters the host's namespaces. -/
def nsenter : List Text := ["nsenter", "-t", "1", "-m", "-u", "-i", "-n", "-p", "--", "sh", "-c"].map String.toList

/-- The container's shell runs one simple command without any expansion: `nsenter` with its
    options and this script. -/
def RunsScript (command : List Text) (script : Text) : Prop :=
  ∃ text, command = ["/bin/sh".toList, "-c".toList, text] ∧ simpleCommand text = some (nsenter ++ [script])

theorem newline_mem_script {targets : List ApplyTarget} {script : Text} (h : buildJobScript targets = .ok script) :
    '\n' ∈ script := by
  obtain ⟨commands, -, rfl⟩ := buildJobScript_text h
  apply List.mem_append_left
  decide

theorem newline_not_mem_nsenter : '\n' ∉ "nsenter -t 1 -m -u -i -n -p -- sh -c ".toList := by
  decide

/-- The script is written as JSON, in which a line feed is a backslash and a letter. The shell
    keeps both in double quotes, so that no script arrives as it was reviewed. -/
theorem hostJob_alters_script {targets : List ApplyTarget} {script : Text} (h : buildJobScript targets = .ok script) :
    ∃ command, runHostJob targets = .ok command ∧ ¬ RunsScript command script := by
  refine ⟨_, by rw [runHostJob, h], ?_⟩
  rintro ⟨text, hcommand, hsimple⟩
  have htext := (List.cons.inj (List.cons.inj (List.cons.inj hcommand).2).2).1
  have hscript : script ∈ nsenter ++ [script] := List.mem_append_right nsenter (List.mem_singleton_self script)
  have hnewline := mem_of_mem_simpleCommand hsimple hscript (newline_mem_script h)
  rw [← htext, List.mem_append] at hnewline
  obtain h | h | h | h := hnewline
  · cases h
  · cases h
  · exact newline_not_mem_nsenter h
  · exact newline_not_mem_jsonString script h

theorem swapOff_has_script : ∃ script, buildJobScript [.swapOff] = .ok script := by
  have hok : (buildJobScript [.swapOff]).isOk = true := by decide +kernel
  cases hscript : buildJobScript [.swapOff] with
  | error message =>
    rw [hscript] at hok
    cases hok
  | ok script => exact ⟨script, rfl⟩

/-- The script that turns swap off is one. -/
theorem swapOff_script_altered :
    ∃ script, buildJobScript [.swapOff] = .ok script ∧
      ∃ command, runHostJob [.swapOff] = .ok command ∧ ¬ RunsScript command script := by
  obtain ⟨script, hscript⟩ := swapOff_has_script
  exact ⟨script, hscript, hostJob_alters_script hscript⟩

/-- Turning swap off: the container's shell itself runs the command that verifies the change. -/
theorem swapOff_expanded_outside :
    ¬ ∀ targets script, buildJobScript targets = .ok script →
      ∃ command, runHostJob targets = .ok command ∧ RunsScript command script := by
  intro hruns
  have hexpands : (((runHostJob [.swapOff]).toOption.bind List.getLast?).bind simpleCommand) = none := by
    decide +kernel
  obtain ⟨script, hscript⟩ := swapOff_has_script
  obtain ⟨command, hcommand, text, rfl, hsimple⟩ := hruns [.swapOff] script hscript
  rw [hcommand] at hexpands
  rw [show ((Except.ok ["/bin/sh".toList, "-c".toList, text] : Except Text (List Text)).toOption.bind
    List.getLast?).bind simpleCommand = simpleCommand text from rfl, hsimple] at hexpands
  cases hexpands

end narwhal.portal.job_runner
