import Narwhal.Portal.TuningCommands

open jslib shlib

namespace narwhal.portal.tuning_commands

/-! ### Templates -/

/-- A stretch of a command. The numbers are those of the target's strings. -/
inductive Piece where
  | text (s : Text)
  /-- a string between single quotes, its own quotes escaped -/
  | inner (field : Nat)
  /-- a string outside of quotes -/
  | bare (field : Nat)
  /-- the index of the target -/
  | index
deriving DecidableEq, Repr

def quoted (field : Nat) : List Piece := [.text "'".toList, .inner field, .text "'".toList]

/-- What the shell recognises, with the places of the target's strings left open. -/
inductive Slot where
  | event (e : Event)
  /-- the characters of a string, each standing for itself -/
  | string (quoted : Bool) (field : Nat)
  /-- the digits of the target's index -/
  | index
deriving DecidableEq, Repr

/-- A character that ends a word, or goes on in it, whatever came before. -/
def settles (c : Char) : Bool := c == '=' || c == ' ' || c == '\n'

/-- Read the pieces without knowing the strings. `loose` is set after a string outside of
    quotes, where it is not known whether the word has only digits. -/
def scan (s : State) (loose : Bool) : List Piece → Option (List Slot × State)
  | [] => if loose then none else some ([], s)
  | .text t :: pieces =>
    if loose ∧ ¬ t.head?.any settles then none
    else (scan (run s t).2 false pieces).map fun (slots, u) => ((run s t).1.map .event ++ slots, u)
  | .inner field :: pieces =>
    if s.mode = .single then (scan s false pieces).map fun (slots, u) => (.string true field :: slots, u) else none
  | .bare field :: pieces =>
    if s.mode = .blank then
      (scan ⟨.word false, s.frames⟩ true pieces).map fun (slots, u) =>
        (.event .word :: .string false field :: slots, u)
    else none
  | .index :: pieces =>
    if s.mode = .double then (scan s false pieces).map fun (slots, u) => (.index :: slots, u) else none

/-- The pieces of the commands of a target, one list a command. -/
def Kind.pieces : Kind → List (List Piece)
  | .kernelParam => [
      [.text "sysctl -w ".toList, .bare 0, .text "=".toList] ++ quoted 1,
      [.text "mkdir -p /etc/sysctl.d".toList],
      [.text "grep -v ".toList] ++ quoted 0 ++ [.text " ".toList] ++ quoted 2 ++ [.text " 2>/dev/null > ".toList] ++
        quoted 2 ++ [.text ".tmp || true".toList],
      [.text "echo ".toList, .text "'".toList, .inner 0, .text " = ".toList, .inner 1, .text "'".toList,
        .text " >> ".toList] ++ quoted 2 ++ [.text ".tmp".toList],
      [.text "mv ".toList] ++ quoted 2 ++ [.text ".tmp ".toList] ++ quoted 2]
  | .kernelModule => [
      [.text "modprobe ".toList] ++ quoted 0,
      [.text "mkdir -p /etc/modules-load.d".toList],
      [.text "grep -v ".toList] ++ quoted 0 ++
        [.text " /etc/modules-load.d/k8s.conf 2>/dev/null > /etc/modules-load.d/k8s.conf.tmp || true".toList],
      [.text "echo ".toList] ++ quoted 0 ++ [.text " >> /etc/modules-load.d/k8s.conf.tmp".toList],
      [.text "mv /etc/modules-load.d/k8s.conf.tmp /etc/modules-load.d/k8s.conf".toList]]
  | .ulimit => [
      [.text "mkdir -p /etc/security/limits.d".toList],
      [.text "grep -v ".toList, .text "'".toList, .inner 1, .text " ".toList, .inner 0, .text " ".toList,
        .text "'".toList, .text " ".toList, .text "'/etc/security/limits.d/k8s.conf'".toList,
        .text " 2>/dev/null > ".toList, .text "'/etc/security/limits.d/k8s.conf'".toList, .text ".tmp || true".toList],
      [.text "echo ".toList, .text "'".toList, .text "* ".toList, .inner 1, .text " ".toList, .inner 0,
        .text " ".toList, .inner 2, .text "'".toList, .text " >> ".toList,
        .text "'/etc/security/limits.d/k8s.conf'".toList, .text ".tmp".toList],
      [.text "mv ".toList, .text "'/etc/security/limits.d/k8s.conf'".toList, .text ".tmp ".toList,
        .text "'/etc/security/limits.d/k8s.conf'".toList]]
  | .package => [
      [.text "DEBIAN_FRONTEND=noninteractive apt-get update -qq".toList],
      [.text "DEBIAN_FRONTEND=noninteractive apt-get install -y ".toList] ++ quoted 0]
  | .swapOff => [[.text "swapoff -a".toList], [.text "sed -i.bak '/\\sswap\\s/d' /etc/fstab".toList]]
  | .serviceEnable => [[.text "systemctl enable --now ".toList] ++ quoted 0]
  | .ethtool =>
    [[.text "ethtool -G ".toList, .bare 0, .text " rx ".toList, .bare 1, .text " tx ".toList, .bare 2]]
  | .tuningScript => [[.text "bash /etc/kube-ready-box/".toList] ++ quoted 0]

/-- The pieces of the command that verifies a target. -/
def Kind.verifyPieces (kind : Kind) : List Piece :=
  [.text "echo \"".toList, .text VERIFY_MARKER_PREFIX, .index] ++
    match kind with
    | .kernelParam =>
      [.text "=$(sysctl -n ".toList] ++ quoted 0 ++ [.text " 2>/dev/null || echo __ERR__)\"".toList]
    | .kernelModule =>
      [.text "=$(lsmod | awk '\x7bprint $1\x7d' | grep -qx ".toList] ++ quoted 0 ++
        [.text " && echo loaded || echo not-loaded)\"".toList]
    | .ulimit =>
      [.text "=$(grep -F ".toList, .text "'".toList, .inner 1, .text " ".toList, .inner 0, .text " ".toList,
        .text "'".toList, .text " /etc/security/limits.d/k8s.conf 2>/dev/null | tail -1)\"".toList]
    | .package =>
      [.text "=$(dpkg -s ".toList] ++ quoted 0 ++
        [.text " >/dev/null 2>&1 && echo installed || echo missing)\"".toList]
    | .swapOff => [.text "=$(swapon --show 2>/dev/null | wc -l | tr -d ' ')\"".toList]
    | .serviceEnable =>
      [.text "=$(systemctl is-active ".toList] ++ quoted 0 ++
        [.text " 2>/dev/null || echo inactive)/$(systemctl is-enabled ".toList] ++ quoted 0 ++
        [.text " 2>/dev/null || echo disabled)\"".toList]
    | .ethtool =>
      [.text "=$(ethtool -g ".toList, .bare 0, .text " 2>/dev/null | tr '\\n' ';' || echo __ERR__)\"".toList]
    | .tuningScript => [.text "=executed\"".toList]

/-- The pieces of all commands of a target, each on a line. -/
def Kind.script (kind : Kind) : List Piece :=
  ([.text "echo '--- ".toList, .text kind.name, .text " ---'".toList] :: kind.pieces ++ [kind.verifyPieces]).flatMap
    (· ++ [.text "\n".toList])

/-! ### Filling a template in -/

/-- The strings of a target that go into its commands. -/
def ApplyTarget.strings : ApplyTarget → List Text
  | .kernelParam param value => [param, value, (sysctlFile param).toOption.getD []]
  | .kernelModule module => [module]
  | .ulimit name scope value => [name, scope, value]
  | .package name => [name]
  | .swapOff => []
  | .serviceEnable service => [service]
  | .ethtool iface rx tx => [iface, (rx.map intText).getD [], (tx.map intText).getD []]
  | .tuningScript script => [script]

section

variable (strings : List Text) (index : Nat)

def Piece.fill : Piece → Text
  | .text t => t
  | .inner field => escapeQuotes (strings[field]?.getD [])
  | .bare field => strings[field]?.getD []
  | .index => natText index

def Slot.fill : Slot → List Event
  | .event e => [e]
  | .string quoted field => (strings[field]?.getD []).map (.lit quoted)
  | .index => (natText index).map (.lit true)

end

theorem flatMap_event (strings : List Text) (index : Nat) (events : List Event) :
    (events.map Slot.event).flatMap (Slot.fill strings index) = events := by
  induction events with
  | nil => rfl
  | cons e events ih => simpa [Slot.fill] using ih

theorem step_settles {c : Char} (h : settles c = true) (digits : Bool) (frames : List Frame) :
    step ⟨.word digits, frames⟩ c = step ⟨.word false, frames⟩ c := by
  simp only [settles, Bool.or_eq_true, beq_iff_eq] at h
  rcases h with (rfl | rfl) | rfl <;> cases digits <;> rfl

theorem run_settles {t : Text} (h : t.head?.any settles = true) (digits : Bool) (frames : List Frame) :
    run ⟨.word digits, frames⟩ t = run ⟨.word false, frames⟩ t := by
  cases t with
  | nil => cases h
  | cons c t => simp only [run, step_settles (show settles c = true from h) digits]

/-- Digits stand for themselves in double quotes. -/
theorem run_natText (n : Nat) (frames : List Frame) :
    run ⟨.double, frames⟩ (natText n) = ((natText n).map (.lit true), ⟨.double, frames⟩) := by
  have hdigits : ∀ c ∈ natText n, isDigit c = true := fun c hc => isDigit_of_mem_natText hc
  generalize natText n = t at hdigits
  induction t with
  | nil => rfl
  | cons c t ih =>
    obtain ⟨hc, ht⟩ := List.forall_mem_cons.mp hdigits
    have hne : ∀ d, isDigit d = false → c ≠ d := by
      rintro d hd rfl
      rw [hd] at hc
      cases hc
    simp [run, step, doubleStep, hne '"' rfl, hne '\\' rfl, hne '$' rfl, hne '\x60' rfl, ih ht, after]

/-- The shell reads the filled pieces as the template says, as long as the strings outside of
    quotes are plain. -/
theorem run_of_scan {strings : List Text} {index : Nat} {pieces : List Piece} {slots : List Slot} {u : State}
    {s : State} {loose : Bool} (hscan : scan s loose pieces = some (slots, u))
    (hloose : loose = true → s.mode = .word false)
    (hplain : ∀ field, .bare field ∈ pieces →
      strings[field]?.getD [] ≠ [] ∧ ∀ c ∈ strings[field]?.getD [], isPlain c = true) (digits : Bool) :
    run (if loose then ⟨.word digits, s.frames⟩ else s) (pieces.flatMap (Piece.fill strings index)) =
      (slots.flatMap (Slot.fill strings index), u) := by
  induction pieces generalizing s loose slots digits with
  | nil =>
    cases loose with
    | true => cases hscan
    | false =>
      cases hscan
      rfl
  | cons piece pieces ih =>
    have htight : s.mode ≠ .word false → loose = false := by
      intro hmode
      cases loose with
      | false => rfl
      | true => exact absurd (hloose rfl) hmode
    have hrest : ∀ field, .bare field ∈ pieces → _ := fun field hfield => hplain field (List.mem_cons_of_mem piece hfield)
    cases piece with
    | text t =>
      simp only [scan] at hscan
      split at hscan
      · cases hscan
      next hsettles =>
      obtain ⟨⟨more, v⟩, hmore, heq⟩ := Option.map_eq_some_iff.mp hscan
      obtain ⟨rfl, rfl⟩ := Prod.mk.inj heq
      have hfirst : run (if loose then ⟨.word digits, s.frames⟩ else s) t = run s t := by
        cases loose with
        | false => rfl
        | true =>
          have hs : s = ⟨.word false, s.frames⟩ := by
            rw [← hloose rfl]
          rw [if_pos rfl, run_settles (by simpa using hsettles) digits, ← hs]
      have hmore' := ih hmore (by simp) hrest false
      simp only [Bool.false_eq_true, if_false] at hmore'
      simp only [List.flatMap_cons, Piece.fill, List.flatMap_append, flatMap_event]
      rw [run_append, hfirst, hmore']
      rfl
    | inner field =>
      simp only [scan] at hscan
      split at hscan
      · next hmode =>
        obtain ⟨⟨more, v⟩, hmore, heq⟩ := Option.map_eq_some_iff.mp hscan
        obtain ⟨rfl, rfl⟩ := Prod.mk.inj heq
        have hnot := htight (by rw [hmode]; simp)
        have hs : s = ⟨.single, s.frames⟩ := by rw [← hmode]
        have hmore' := ih hmore (by simp) hrest false
        simp only [hnot, Bool.false_eq_true, if_false] at hmore' ⊢
        simp only [List.flatMap_cons, Piece.fill, Slot.fill]
        rw [hs] at hmore' ⊢
        rw [run_append_of_eq (run_escapeQuotes _ _), hmore']
        rfl
      · cases hscan
    | bare field =>
      simp only [scan] at hscan
      split at hscan
      · next hmode =>
        obtain ⟨⟨more, v⟩, hmore, heq⟩ := Option.map_eq_some_iff.mp hscan
        obtain ⟨rfl, rfl⟩ := Prod.mk.inj heq
        have hnot := htight (by rw [hmode]; simp)
        have hs : s = ⟨.blank, s.frames⟩ := by rw [← hmode]
        obtain ⟨hne, hchars⟩ := hplain field List.mem_cons_self
        obtain ⟨digits', hword⟩ := run_plain_blank hne hchars s.frames
        have hmore' := ih hmore (fun _ => rfl) hrest digits'
        simp only [hnot, Bool.false_eq_true, if_false, if_true] at hmore' ⊢
        simp only [List.flatMap_cons, Piece.fill, Slot.fill]
        rw [hs, run_append_of_eq hword, hmore']
        rfl
      · cases hscan
    | index =>
      simp only [scan] at hscan
      split at hscan
      · next hmode =>
        obtain ⟨⟨more, v⟩, hmore, heq⟩ := Option.map_eq_some_iff.mp hscan
        obtain ⟨rfl, rfl⟩ := Prod.mk.inj heq
        have hnot := htight (by rw [hmode]; simp)
        have hs : s = ⟨.double, s.frames⟩ := by rw [← hmode]
        have hmore' := ih hmore (by simp) hrest false
        simp only [hnot, Bool.false_eq_true, if_false] at hmore' ⊢
        simp only [List.flatMap_cons, Piece.fill, Slot.fill]
        rw [hs] at hmore' ⊢
        rw [run_append_of_eq (run_natText _ _), hmore']
        rfl
      · cases hscan

/-- Whatever the strings are, the commands of a target leave the shell between words. -/
theorem scan_script (kind : Kind) : ∃ slots, scan ⟨.blank, []⟩ false kind.script = some (slots, ⟨.blank, []⟩) := by
  have hstate : (scan ⟨.blank, []⟩ false kind.script).map Prod.snd = some ⟨.blank, []⟩ := by
    cases kind <;> decide +kernel
  obtain ⟨⟨slots, s⟩, hscan, hs⟩ := Option.map_eq_some_iff.mp hstate
  exact ⟨slots, by rw [hscan, ← hs]⟩

/-! ### The script -/

/-- The strings that stand outside of quotes are plain. -/
def Plain (strings : List Text) (kind : Kind) : Prop :=
  ∀ field, .bare field ∈ kind.script → strings[field]?.getD [] ≠ [] ∧ ∀ c ∈ strings[field]?.getD [], isPlain c = true

theorem isPlain_of_isDigit {c : Char} (h : isDigit c = true) : isPlain c = true := by
  simp [isPlain, h]

theorem intText_plain {n : Int} (h : 0 < n) : intText n ≠ [] ∧ ∀ c ∈ intText n, isPlain c = true := by
  cases n with
  | ofNat n => exact ⟨natText_ne_nil n, fun c hc => isPlain_of_isDigit (isDigit_of_mem_natText hc)⟩
  | negSucc n => omega

@[simp] theorem escapeQuotes_append (s t : Text) : escapeQuotes (s ++ t) = escapeQuotes s ++ escapeQuotes t := by
  simp [escapeQuotes]

theorem escapeQuotes_separators :
    escapeQuotes " ".toList = " ".toList ∧ escapeQuotes " = ".toList = " = ".toList ∧
      escapeQuotes "* ".toList = "* ".toList := by
  decide

theorem shellEscape_limits :
    shellEscape "/etc/security/limits.d/k8s.conf".toList = "'/etc/security/limits.d/k8s.conf'".toList := by
  decide

/-- The commands of a target are the pieces of its kind with its strings filled in. -/
theorem buildCommands_text {target : ApplyTarget} {built : List Text} (h : buildCommands target = .ok built)
    (index : Nat) : built = target.kind.pieces.map (·.flatMap (Piece.fill target.strings index)) := by
  obtain ⟨hspace, hequals, hstar⟩ := escapeQuotes_separators
  have hlimits := shellEscape_limits
  have hescape : ∀ s, shellEscape s = "'".toList ++ escapeQuotes s ++ "'".toList := fun _ => rfl
  cases target
  case kernelParam param value =>
    simp only [buildCommands] at h
    split at h
    · cases h
    split at h
    · cases h
    split at h
    · cases h
    next file hfile =>
    have hfile' : (sysctlFile param).toOption.getD [] = file := by
      rw [hfile]
      rfl
    rw [← Except.ok.inj h]
    unfold ApplyTarget.kind Kind.pieces ApplyTarget.strings quoted
    -- the texts of the literals do not matter
    generalize String.toList = text at hequals hescape ⊢
    simp [Piece.fill, hfile', hescape, hequals]
  case kernelModule module =>
    simp only [buildCommands] at h
    split at h
    · cases h
    rw [← Except.ok.inj h]
    unfold ApplyTarget.kind Kind.pieces ApplyTarget.strings quoted
    generalize String.toList = text at hescape ⊢
    simp [Piece.fill, hescape]
  case ulimit name scope value =>
    simp only [buildCommands] at h
    split at h
    · cases h
    rw [← Except.ok.inj h, hlimits]
    unfold ApplyTarget.kind Kind.pieces ApplyTarget.strings
    generalize String.toList = text at hspace hstar hescape ⊢
    simp [Piece.fill, hescape, hspace, hstar]
  case package name =>
    simp only [buildCommands] at h
    split at h
    · cases h
    rw [← Except.ok.inj h]
    unfold ApplyTarget.kind Kind.pieces ApplyTarget.strings quoted
    generalize String.toList = text at hescape ⊢
    simp [Piece.fill, hescape]
  case swapOff =>
    rw [← Except.ok.inj h]
    unfold ApplyTarget.kind Kind.pieces
    generalize String.toList = text
    simp [Piece.fill]
  case serviceEnable service =>
    simp only [buildCommands] at h
    split at h
    · cases h
    rw [← Except.ok.inj h]
    unfold ApplyTarget.kind Kind.pieces ApplyTarget.strings quoted
    generalize String.toList = text at hescape ⊢
    simp [Piece.fill, hescape]
  case ethtool iface rx tx =>
    simp only [buildCommands] at h
    split at h
    · cases h
    split at h
    · cases h
    next rx' hrx =>
    split at h
    · cases h
    next tx' htx =>
    obtain ⟨rfl, -⟩ := Option.filter_eq_some_iff.mp hrx
    obtain ⟨rfl, -⟩ := Option.filter_eq_some_iff.mp htx
    rw [← Except.ok.inj h]
    unfold ApplyTarget.kind Kind.pieces ApplyTarget.strings
    generalize String.toList = text
    simp [Piece.fill]
  case tuningScript script =>
    simp only [buildCommands] at h
    split at h
    · cases h
    rw [← Except.ok.inj h]
    unfold ApplyTarget.kind Kind.pieces ApplyTarget.strings quoted
    generalize String.toList = text at hescape ⊢
    simp [Piece.fill, hescape]

theorem buildVerifyCommand_text (target : ApplyTarget) (index : Nat) :
    buildVerifyCommand target index = target.kind.verifyPieces.flatMap (Piece.fill target.strings index) := by
  obtain ⟨hspace, -, -⟩ := escapeQuotes_separators
  have hescape : ∀ s, shellEscape s = "'".toList ++ escapeQuotes s ++ "'".toList := fun _ => rfl
  unfold buildVerifyCommand Kind.verifyPieces ApplyTarget.strings quoted
  generalize String.toList = text at hspace hescape ⊢
  cases target <;> simp [ApplyTarget.kind, Piece.fill, hescape, hspace]

theorem targetCommands_text {target : ApplyTarget} {index : Nat} {commands : List Text}
    (h : targetCommands target index = .ok commands) :
    commands.flatMap (· ++ ['\n']) = target.kind.script.flatMap (Piece.fill target.strings index) := by
  have hnewline : "\n".toList = ['\n'] := by decide
  unfold targetCommands at h
  split at h
  · cases h
  next built hbuilt =>
  rw [← Except.ok.inj h, buildCommands_text hbuilt index, buildVerifyCommand_text]
  unfold Kind.script
  generalize String.toList = text at hnewline ⊢
  simp [Piece.fill, hnewline, List.flatMap_assoc, List.flatMap_map]

/-! ### Strings outside of quotes -/

def Piece.bare? : Piece → Option Nat
  | .bare field => some field
  | _ => none

/-- Only a kernel parameter, and an interface with its ring sizes, stand outside of quotes. -/
theorem script_bare (kind : Kind) :
    kind.script.filterMap Piece.bare? =
      if kind = .kernelParam then [0] else if kind = .ethtool then [0, 1, 2, 0] else [] := by
  cases kind <;> decide +kernel

theorem bare_of_mem {kind : Kind} {field : Nat} (h : .bare field ∈ kind.script) :
    kind = .kernelParam ∧ field = 0 ∨ kind = .ethtool ∧ field < 3 := by
  have hmem : field ∈ kind.script.filterMap Piece.bare? := List.mem_filterMap.mpr ⟨.bare field, h, rfl⟩
  rw [script_bare] at hmem
  split at hmem
  · next hkind => exact Or.inl ⟨hkind, by simpa using hmem⟩
  split at hmem
  · next hkind =>
    simp only [List.mem_cons, List.not_mem_nil, or_false] at hmem
    exact Or.inr ⟨hkind, by omega⟩
  · cases hmem

theorem SAFE_PARAM_plain {s : Text} (h : SAFE_PARAM s = true) : s ≠ [] ∧ ∀ c ∈ s, isPlain c = true := by
  simp only [SAFE_PARAM, Bool.and_eq_true, decide_eq_true_eq, List.all_eq_true] at h
  refine ⟨h.1, fun c hc => ?_⟩
  have hc' := h.2 c hc
  simp only [isPlain, Bool.or_eq_true, beq_iff_eq, List.contains_eq_mem, decide_eq_true_eq] at hc' ⊢
  grind

theorem SAFE_IFACE_plain {s : Text} (h : SAFE_IFACE s = true) : s ≠ [] ∧ ∀ c ∈ s, isPlain c = true := by
  simp only [SAFE_IFACE, Bool.and_eq_true, decide_eq_true_eq, List.all_eq_true] at h
  refine ⟨h.1, fun c hc => ?_⟩
  have hc' := h.2 c hc
  simp only [isPlain, Bool.or_eq_true] at hc' ⊢
  exact Or.inl hc'

theorem buildCommands_plain {target : ApplyTarget} {built : List Text} (h : buildCommands target = .ok built) :
    Plain target.strings target.kind := by
  intro field hfield
  obtain ⟨hkind, rfl⟩ | ⟨hkind, hlt⟩ := bare_of_mem hfield
  · cases target with
    | kernelParam param value =>
      simp only [buildCommands] at h
      split at h
      · cases h
      next hparam => exact SAFE_PARAM_plain (not_not.mp hparam)
    | _ => cases hkind
  · cases target with
    | ethtool iface rx tx =>
      simp only [buildCommands] at h
      split at h
      · cases h
      next hiface =>
      split at h
      · cases h
      next rx' hrx =>
      split at h
      · cases h
      next tx' htx =>
      obtain ⟨rfl, hrx'⟩ := Option.filter_eq_some_iff.mp hrx
      obtain ⟨rfl, htx'⟩ := Option.filter_eq_some_iff.mp htx
      match field, hlt with
      | 0, _ => exact SAFE_IFACE_plain (not_not.mp hiface)
      | 1, _ => exact intText_plain (of_decide_eq_true hrx').1
      | 2, _ => exact intText_plain (of_decide_eq_true htx').1
    | _ => cases hkind

/-- The slots for strings outside of quotes come from such pieces. -/
theorem bare_mem_of_scan {pieces : List Piece} {s u : State} {loose : Bool} {slots : List Slot} {field : Nat}
    (hscan : scan s loose pieces = some (slots, u)) (hmem : .string false field ∈ slots) : .bare field ∈ pieces := by
  induction pieces generalizing s loose slots with
  | nil =>
    cases loose with
    | true => cases hscan
    | false =>
      cases hscan
      cases hmem
  | cons piece pieces ih =>
    cases piece <;> simp only [scan] at hscan <;> split at hscan <;> try cases hscan
    all_goals
      obtain ⟨⟨more, v⟩, hmore, heq⟩ := Option.map_eq_some_iff.mp hscan
      obtain ⟨rfl, rfl⟩ := Prod.mk.inj heq
      have hrest := ih hmore
      simp only [List.mem_append, List.mem_map, List.mem_cons, reduceCtorEq, and_false, exists_false, false_or,
        Slot.string.injEq, Bool.false_eq_true, false_and, true_and, Piece.bare.injEq] at hmem ⊢
      tauto

theorem targetCommands_plain {target : ApplyTarget} {index : Nat} {commands : List Text}
    (h : targetCommands target index = .ok commands) : Plain target.strings target.kind := by
  unfold targetCommands at h
  split at h
  · cases h
  next built hbuilt => exact buildCommands_plain hbuilt

theorem allCommands_plain {targets : List ApplyTarget} {index : Nat} {commands : List Text}
    (h : allCommands index targets = .ok commands) : ∀ target ∈ targets, Plain target.strings target.kind := by
  induction targets generalizing index commands with
  | nil => simp
  | cons target targets ih =>
    simp only [allCommands] at h
    split at h
    · cases h
    next first hfirst =>
    split at h
    · cases h
    next more hmore => exact List.forall_mem_cons.mpr ⟨targetCommands_plain hfirst, ih hmore⟩

/-! ### The whole script -/

/-- What the shell recognises in the commands of a kind of target. -/
def Kind.slots (kind : Kind) : List Slot := ((scan ⟨.blank, []⟩ false kind.script).map Prod.fst).getD []

theorem run_targetCommands {target : ApplyTarget} {index : Nat} {commands : List Text}
    (h : targetCommands target index = .ok commands) :
    run ⟨.blank, []⟩ (commands.flatMap (· ++ ['\n'])) =
      (target.kind.slots.flatMap (Slot.fill target.strings index), ⟨.blank, []⟩) := by
  obtain ⟨slots, hscan⟩ := scan_script target.kind
  have hslots : target.kind.slots = slots := by
    rw [Kind.slots, hscan]
    rfl
  rw [targetCommands_text h, hslots]
  exact run_of_scan hscan (by simp) (targetCommands_plain h) false

theorem run_allCommands {targets : List ApplyTarget} {index : Nat} {commands : List Text}
    (h : allCommands index targets = .ok commands) :
    run ⟨.blank, []⟩ (commands.flatMap (· ++ ['\n'])) =
      ((targets.zipIdx index).flatMap fun (target, i) => target.kind.slots.flatMap (Slot.fill target.strings i),
        ⟨.blank, []⟩) := by
  induction targets generalizing index commands with
  | nil =>
    rw [← Except.ok.inj h]
    rfl
  | cons target targets ih =>
    simp only [allCommands] at h
    split at h
    · cases h
    next first hfirst =>
    split at h
    · cases h
    next more hmore =>
    rw [← Except.ok.inj h, List.flatMap_append, run_append_of_eq (run_targetCommands hfirst), ih hmore]
    rfl

def heading : Text := "set -euo pipefail\necho '=== narwhal node tuning apply ==='\n".toList

def ending : Text := "echo '=== done ==='".toList

/-- What the shell recognises in the script for targets of these kinds, with the index of the
    target whose strings go into a slot. -/
def template (kinds : List Kind) : List (Nat × Slot) :=
  (run ⟨.blank, []⟩ heading).1.map (fun e => (0, .event e)) ++
    kinds.zipIdx.flatMap (fun (kind, index) => kind.slots.map fun slot => (index, slot)) ++
    (run ⟨.blank, []⟩ ending).1.map (fun e => (0, .event e))

/-- The strings of the target with an index. -/
def stringsAt (targets : List ApplyTarget) (index : Nat) : List Text :=
  (targets[index]?.map ApplyTarget.strings).getD []

/-- Fill the strings of the targets into the template of their kinds. -/
def fillTemplate (targets : List ApplyTarget) : List Event :=
  (template (targets.map ApplyTarget.kind)).flatMap fun (index, slot) => slot.fill (stringsAt targets index) index

theorem flatMap_template (targets : List ApplyTarget) :
    (((targets.map ApplyTarget.kind).zipIdx.flatMap fun (kind, index) => kind.slots.map fun slot => (index, slot)).flatMap
        fun (index, slot) => slot.fill (stringsAt targets index) index) =
      targets.zipIdx.flatMap fun (target, i) => target.kind.slots.flatMap (Slot.fill target.strings i) := by
  rw [List.zipIdx_map, List.flatMap_map, List.flatMap_assoc]
  apply List.flatMap_congr
  rintro ⟨target, i⟩ hmem
  have htarget : targets[i]? = some target := List.mem_zipIdx_iff_getElem?.mp hmem
  simp [List.flatMap_map, stringsAt, htarget]

/-- Lines joined are lines ended, but for the last. -/
theorem intercalate_lines (lines : List Text) (last : Text) :
    ['\n'].intercalate (lines ++ [last]) = lines.flatMap (· ++ ['\n']) ++ last := by
  induction lines with
  | nil => simp
  | cons line lines ih =>
    have hne : lines ++ [last] ≠ [] := by simp
    rw [List.cons_append, List.intercalate_cons_of_ne_nil hne, ih]
    simp

theorem buildJobScript_text {targets : List ApplyTarget} {script : Text} (h : buildJobScript targets = .ok script) :
    ∃ commands, allCommands 0 targets = .ok commands ∧
      script = heading ++ (commands.flatMap (· ++ ['\n']) ++ ending) := by
  have hheading : heading = "set -euo pipefail".toList ++ ['\n'] ++
      ("echo '=== narwhal node tuning apply ==='".toList ++ ['\n']) := by
    decide
  unfold buildJobScript at h
  split at h
  · cases h
  next commands hcommands =>
  refine ⟨commands, hcommands, ?_⟩
  have hscript := Except.ok.inj h
  rw [intercalate_lines] at hscript
  rw [← hscript, hheading, List.flatMap_cons, List.flatMap_cons, List.append_assoc, List.append_assoc,
    List.append_assoc]
  rfl

/-- The shell reads a script as the kinds of its targets say. The targets' strings are
    literal characters in the slots of that template: those in a quoted slot are quoted, and
    those in another have only characters that mean nothing to the shell. -/
theorem script_lexes_by_kinds {targets : List ApplyTarget} {script : Text} (h : buildJobScript targets = .ok script) :
    lex script = some (fillTemplate targets) ∧
      ∀ index field, (index, .string false field) ∈ template (targets.map ApplyTarget.kind) →
        (stringsAt targets index)[field]?.getD [] ≠ [] ∧
          ∀ c ∈ (stringsAt targets index)[field]?.getD [], isPlain c = true := by
  obtain ⟨commands, hcommands, rfl⟩ := buildJobScript_text h
  constructor
  · have hheading : (run ⟨.blank, []⟩ heading).2 = ⟨.blank, []⟩ := by decide +kernel
    have hending : finish (run ⟨.blank, []⟩ ending).2 = some [] := by decide +kernel
    have hrun : run ⟨.blank, []⟩ (heading ++ (commands.flatMap (· ++ ['\n']) ++ ending)) =
        (fillTemplate targets, (run ⟨.blank, []⟩ ending).2) := by
      rw [run_append, hheading, run_append_of_eq (run_allCommands hcommands), fillTemplate, template]
      rw [List.flatMap_append, List.flatMap_append, flatMap_template]
      simp only [List.flatMap_map, Slot.fill, List.flatMap_singleton', after, List.append_assoc]
    rw [lex, hrun]
    simp [hending]
  · intro index field hmem
    have hslots : (index, .string false field) ∈
        (targets.map ApplyTarget.kind).zipIdx.flatMap (fun (kind, index) => kind.slots.map fun slot => (index, slot)) := by
      simpa [template] using hmem
    obtain ⟨⟨kind, i⟩, hkind, hslot⟩ := List.mem_flatMap.mp hslots
    obtain ⟨slot, hslot, heq⟩ := List.mem_map.mp hslot
    obtain ⟨rfl, rfl⟩ := Prod.mk.inj heq
    have htarget := List.mem_zipIdx_iff_getElem?.mp hkind
    rw [List.getElem?_map] at htarget
    obtain ⟨target, hget, rfl⟩ := Option.map_eq_some_iff.mp htarget
    obtain ⟨slots, hscan⟩ := scan_script target.kind
    rw [Kind.slots, hscan] at hslot
    have hplain := allCommands_plain hcommands target (List.mem_of_getElem? hget)
    rw [stringsAt, hget]
    exact hplain field (bare_mem_of_scan hscan hslot)

/-- A limit whose name tries to leave the quotes and to run a command, and an interface. -/
def hostile : List ApplyTarget :=
  [.ulimit "nofile'; $(reboot) #".toList "soft".toList "unlimited".toList,
    .ethtool "eth0".toList (some 512) (some 1024)]

theorem hostile_lexes_by_kinds :
    ∃ script, buildJobScript hostile = .ok script ∧ lex script = some (fillTemplate hostile) ∧
      ∀ index field, (index, .string false field) ∈ template [.ulimit, .ethtool] →
        (stringsAt hostile index)[field]?.getD [] ≠ [] ∧
          ∀ c ∈ (stringsAt hostile index)[field]?.getD [], isPlain c = true := by
  have hok : (buildJobScript hostile).isOk = true := by decide +kernel
  cases hscript : buildJobScript hostile with
  | error message =>
    rw [hscript] at hok
    cases hok
  | ok script => exact ⟨script, rfl, script_lexes_by_kinds hscript⟩

end narwhal.portal.tuning_commands
