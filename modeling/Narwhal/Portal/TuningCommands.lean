import Narwhal.Lib.Shell

open jslib shlib

namespace narwhal.portal.tuning_commands

/-! ### Targets -/

inductive Kind where
  | kernelParam | kernelModule | ulimit | package | swapOff | serviceEnable | ethtool | tuningScript
deriving DecidableEq, Repr

def Kind.name : Kind → Text
  | .kernelParam => "kernel-param".toList
  | .kernelModule => "kernel-module".toList
  | .ulimit => "ulimit".toList
  | .package => "package".toList
  | .swapOff => "swap-off".toList
  | .serviceEnable => "service-enable".toList
  | .ethtool => "ethtool".toList
  | .tuningScript => "tuning-script".toList

/-- A target with the texts the client sent. A number that is not an integer is `none`. -/
inductive ApplyTarget where
  | kernelParam (param value : Text)
  | kernelModule (module : Text)
  | ulimit (name scope value : Text)
  | package (name : Text)
  | swapOff
  | serviceEnable (service : Text)
  | ethtool (iface : Text) (rx tx : Option Int)
  | tuningScript (script : Text)
deriving DecidableEq, Repr

def ApplyTarget.kind : ApplyTarget → Kind
  | .kernelParam .. => .kernelParam
  | .kernelModule .. => .kernelModule
  | .ulimit .. => .ulimit
  | .package .. => .package
  | .swapOff => .swapOff
  | .serviceEnable .. => .serviceEnable
  | .ethtool .. => .ethtool
  | .tuningScript .. => .tuningScript

/-! ### The allow list -/

/-- `/^[a-z0-9_.\-]+$/i` -/
def SAFE_PARAM (s : Text) : Bool :=
  s ≠ [] && s.all fun c => isLower c || isUpper c || isDigit c || c == '_' || c == '.' || c == '-'

/-- `/^[a-zA-Z0-9_.,:\-\/\s]+$/` -/
def SAFE_VALUE (s : Text) : Bool :=
  s ≠ [] && s.all fun c =>
    isLower c || isUpper c || isDigit c || c == '_' || c == '.' || c == ',' || c == ':' || c == '-' || c == '/' || isSpace c

/-- `/^[a-z0-9]+$/i` -/
def SAFE_IFACE (s : Text) : Bool := s ≠ [] && s.all fun c => isLower c || isUpper c || isDigit c

/-- `/^([0-9]+|unlimited)$/` -/
def ALLOWED_ULIMIT_VALUES (s : Text) : Bool := (s ≠ [] && s.all isDigit) || s == "unlimited".toList

def ALLOWED_PACKAGES : List Text := ["socat", "conntrack", "ipset", "ipvsadm", "ebtables", "jq"].map String.toList

def ALLOWED_SERVICES : List Text := ["containerd", "kubelet", "extend-lvm.service"].map String.toList

def ALLOWED_SCRIPTS : List Text := ["05-disk-tuning.sh", "06-network-tuning.sh"].map String.toList

def ALLOWED_MODULES : List Text :=
  ["br_netfilter", "overlay", "ip_vs", "ip_vs_rr", "ip_vs_wrr", "ip_vs_sh", "nf_conntrack"].map String.toList

def SYSCTL_FILE : List (String × String) :=
  [("net.bridge.bridge-nf-call-iptables", "/etc/sysctl.d/k8s-network.conf"),
    ("net.bridge.bridge-nf-call-ip6tables", "/etc/sysctl.d/k8s-network.conf"),
    ("net.ipv4.ip_forward", "/etc/sysctl.d/k8s-network.conf"),
    ("net.ipv6.conf.all.disable_ipv6", "/etc/sysctl.d/k8s-disable-ipv6.conf"),
    ("net.ipv6.conf.default.disable_ipv6", "/etc/sysctl.d/k8s-disable-ipv6.conf"),
    ("net.ipv6.conf.lo.disable_ipv6", "/etc/sysctl.d/k8s-disable-ipv6.conf")]

/-- The names an object inherits: looked up in `SYSCTL_FILE`, they give no string. -/
def OBJECT_PROTOTYPE : List String :=
  ["constructor", "__defineGetter__", "__defineSetter__", "hasOwnProperty", "__lookupGetter__", "__lookupSetter__",
    "isPrototypeOf", "propertyIsEnumerable", "toString", "valueOf", "__proto__", "toLocaleString"]

/-- `SYSCTL_FILE[param] ?? "/etc/sysctl.d/99-k8s-tuning.conf"`; the error is what `shellEscape`
    then throws on a value that is not a string. -/
def sysctlFile (param : Text) : Except Text Text :=
  match SYSCTL_FILE.lookup (String.ofList param) with
  | some file => .ok file.toList
  | none =>
    if String.ofList param ∈ OBJECT_PROTOTYPE then .error "s.replace is not a function".toList
    else .ok "/etc/sysctl.d/99-k8s-tuning.conf".toList

def shellEscape (s : Text) : Text := "'".toList ++ escapeQuotes s ++ "'".toList

/-- `Number.isInteger(n) && 0 < n && n <= 16384`. -/
def ringSize (n : Option Int) : Option Int := n.filter fun n => 0 < n ∧ n ≤ 16384

/-! ### Commands -/

/-- The shell commands of a target, or the message of the error. -/
def buildCommands (target : ApplyTarget) : Except Text (List Text) :=
  match target with
  | .kernelParam param value =>
    if ¬ SAFE_PARAM param then .error ("invalid param: ".toList ++ param)
    else if ¬ SAFE_VALUE value then .error ("invalid value: ".toList ++ value)
    else
      match sysctlFile param with
      | .error message => .error message
      | .ok file =>
        let safeParam := shellEscape param
        let safeValue := shellEscape value
        let safeFile := shellEscape file
        .ok [
          "sysctl -w ".toList ++ param ++ "=".toList ++ safeValue,
          "mkdir -p /etc/sysctl.d".toList,
          "grep -v ".toList ++ safeParam ++ " ".toList ++ safeFile ++ " 2>/dev/null > ".toList ++ safeFile ++
            ".tmp || true".toList,
          "echo ".toList ++ shellEscape (param ++ " = ".toList ++ value) ++ " >> ".toList ++ safeFile ++ ".tmp".toList,
          "mv ".toList ++ safeFile ++ ".tmp ".toList ++ safeFile]
  | .kernelModule module =>
    if module ∉ ALLOWED_MODULES then .error ("module not allowed: ".toList ++ module)
    else
      let safe := shellEscape module
      .ok [
        "modprobe ".toList ++ safe,
        "mkdir -p /etc/modules-load.d".toList,
        "grep -v ".toList ++ safe ++
          " /etc/modules-load.d/k8s.conf 2>/dev/null > /etc/modules-load.d/k8s.conf.tmp || true".toList,
        "echo ".toList ++ safe ++ " >> /etc/modules-load.d/k8s.conf.tmp".toList,
        "mv /etc/modules-load.d/k8s.conf.tmp /etc/modules-load.d/k8s.conf".toList]
  | .ulimit name scope value =>
    if ¬ ALLOWED_ULIMIT_VALUES value then .error "invalid ulimit value".toList
    else
      let safeFile := shellEscape "/etc/security/limits.d/k8s.conf".toList
      let line := "* ".toList ++ scope ++ " ".toList ++ name ++ " ".toList ++ value
      let grepPattern := shellEscape (scope ++ " ".toList ++ name ++ " ".toList)
      .ok [
        "mkdir -p /etc/security/limits.d".toList,
        "grep -v ".toList ++ grepPattern ++ " ".toList ++ safeFile ++ " 2>/dev/null > ".toList ++ safeFile ++
          ".tmp || true".toList,
        "echo ".toList ++ shellEscape line ++ " >> ".toList ++ safeFile ++ ".tmp".toList,
        "mv ".toList ++ safeFile ++ ".tmp ".toList ++ safeFile]
  | .package name =>
    if name ∉ ALLOWED_PACKAGES then .error ("package not allowed: ".toList ++ name)
    else
      .ok [
        "DEBIAN_FRONTEND=noninteractive apt-get update -qq".toList,
        "DEBIAN_FRONTEND=noninteractive apt-get install -y ".toList ++ shellEscape name]
  | .swapOff => .ok ["swapoff -a".toList, "sed -i.bak '/\\sswap\\s/d' /etc/fstab".toList]
  | .serviceEnable service =>
    if service ∉ ALLOWED_SERVICES then .error ("service not allowed: ".toList ++ service)
    else .ok ["systemctl enable --now ".toList ++ shellEscape service]
  | .ethtool iface rx tx =>
    if ¬ SAFE_IFACE iface then .error ("invalid iface: ".toList ++ iface)
    else
      match ringSize rx with
      | none => .error "invalid rx".toList
      | some rx =>
        match ringSize tx with
        | none => .error "invalid tx".toList
        | some tx =>
          .ok ["ethtool -G ".toList ++ iface ++ " rx ".toList ++ intText rx ++ " tx ".toList ++ intText tx]
  | .tuningScript script =>
    if script ∉ ALLOWED_SCRIPTS then .error ("script not allowed: ".toList ++ script)
    else .ok ["bash /etc/kube-ready-box/".toList ++ shellEscape script]

def VERIFY_MARKER_PREFIX : Text := "NARWHAL_VERIFY_".toList

/-- The command that echoes the state of a target after the change. -/
def buildVerifyCommand (target : ApplyTarget) (index : Nat) : Text :=
  let marker := VERIFY_MARKER_PREFIX ++ natText index
  match target with
  | .kernelParam param _ =>
    "echo \"".toList ++ marker ++ "=$(sysctl -n ".toList ++ shellEscape param ++ " 2>/dev/null || echo __ERR__)\"".toList
  | .kernelModule module =>
    "echo \"".toList ++ marker ++ "=$(lsmod | awk '\x7bprint $1\x7d' | grep -qx ".toList ++ shellEscape module ++
      " && echo loaded || echo not-loaded)\"".toList
  | .ulimit name scope _ =>
    "echo \"".toList ++ marker ++ "=$(grep -F ".toList ++ shellEscape (scope ++ " ".toList ++ name ++ " ".toList) ++
      " /etc/security/limits.d/k8s.conf 2>/dev/null | tail -1)\"".toList
  | .package name =>
    "echo \"".toList ++ marker ++ "=$(dpkg -s ".toList ++ shellEscape name ++
      " >/dev/null 2>&1 && echo installed || echo missing)\"".toList
  | .swapOff => "echo \"".toList ++ marker ++ "=$(swapon --show 2>/dev/null | wc -l | tr -d ' ')\"".toList
  | .serviceEnable service =>
    "echo \"".toList ++ marker ++ "=$(systemctl is-active ".toList ++ shellEscape service ++
      " 2>/dev/null || echo inactive)/$(systemctl is-enabled ".toList ++ shellEscape service ++
      " 2>/dev/null || echo disabled)\"".toList
  | .ethtool iface _ _ =>
    "echo \"".toList ++ marker ++ "=$(ethtool -g ".toList ++ iface ++
      " 2>/dev/null | tr '\\n' ';' || echo __ERR__)\"".toList
  | .tuningScript _ => "echo \"".toList ++ marker ++ "=executed\"".toList

/-- The commands of one target: a heading, the change, and its verification. -/
def targetCommands (target : ApplyTarget) (index : Nat) : Except Text (List Text) :=
  match buildCommands target with
  | .error message => .error message
  | .ok commands =>
    .ok (("echo '--- ".toList ++ target.kind.name ++ " ---'".toList) :: commands ++ [buildVerifyCommand target index])

/-- The loop over the targets, from this index on. -/
def allCommands (index : Nat) : List ApplyTarget → Except Text (List Text)
  | [] => .ok []
  | target :: targets =>
    match targetCommands target index with
    | .error message => .error message
    | .ok commands =>
      match allCommands (index + 1) targets with
      | .error message => .error message
      | .ok more => .ok (commands ++ more)

/-- The script that applies all targets in order; the error is the message thrown. -/
def buildJobScript (targets : List ApplyTarget) : Except Text Text :=
  match allCommands 0 targets with
  | .error message => .error message
  | .ok commands =>
    .ok (['\n'].intercalate
      ("set -euo pipefail".toList :: "echo '=== narwhal node tuning apply ==='".toList :: commands ++
        ["echo '=== done ==='".toList]))

end narwhal.portal.tuning_commands
