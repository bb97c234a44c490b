import Narwhal.Lib.JsDate
import Narwhal.Lib.JsRecord
import Narwhal.Lib.SingleFlight
import Narwhal.Portal.FetchPolicy

open jslib singleflight
open narwhal.portal.http_client (HttpClientErrorKind)

namespace narwhal.portal.dependency_health

/-! ### The contract -/

inductive DependencyName where
  | prometheus | kubernetes | argocd | gitea | keycloak | valkey | openbao | alertmanager | loki
deriving DecidableEq

inductive DependencyState where
  | ok | partial_ | stale | unavailable | empty | unauthorized
deriving DecidableEq

def DependencyName.text : DependencyName → Text
  | .prometheus => "prometheus".toList
  | .kubernetes => "kubernetes".toList
  | .argocd => "argocd".toList
  | .gitea => "gitea".toList
  | .keycloak => "keycloak".toList
  | .valkey => "valkey".toList
  | .openbao => "openbao".toList
  | .alertmanager => "alertmanager".toList
  | .loki => "loki".toList

def DependencyState.text : DependencyState → Text
  | .ok => "ok".toList
  | .partial_ => "partial".toList
  | .stale => "stale".toList
  | .unavailable => "unavailable".toList
  | .empty => "empty".toList
  | .unauthorized => "unauthorized".toList

structure DependencyStatus where
  dependency : DependencyName
  state : DependencyState
  observedAt : Text
  reason : Option Text
  detail : Option Text
deriving DecidableEq

structure AggregateDependencyHealth where
  state : Text
  observedAt : Text
deriving DecidableEq

def CORE_DEPENDENCIES : List DependencyName := [.kubernetes, .prometheus, .valkey]

def KNOWN_DEPENDENCIES : List DependencyName :=
  [.prometheus, .kubernetes, .argocd, .gitea, .keycloak, .valkey, .openbao, .alertmanager, .loki]

def KNOWN_STATES : List DependencyState := [.ok, .partial_, .stale, .unavailable, .empty, .unauthorized]

/-- The latest observation, in the order of the texts. -/
def latestObservedAt (statuses : List DependencyStatus) : Text :=
  statuses.foldl (fun latest status => if utf16 latest < utf16 status.observedAt then status.observedAt else latest) []

def aggregateState (statuses : List DependencyStatus) : Text :=
  if statuses.length = 0 then "unavailable".toList
  else if statuses.all fun status => status.state = .ok ∨ status.state = .empty then "ok".toList
  else if statuses.any fun status => CORE_DEPENDENCIES.contains status.dependency ∧
      (status.state = .unavailable ∨ status.state = .unauthorized) then "unavailable".toList
  else "degraded".toList

def aggregateDependencyHealth (statuses : List DependencyStatus) (now : Int) : AggregateDependencyHealth where
  state := aggregateState statuses
  observedAt := if latestObservedAt statuses ≠ [] then latestObservedAt statuses else isoText now

/-! ### Probes -/

/-- How a request of a probe ends. -/
inductive HttpAnswer where
  | responded (status : Nat)
  | failed (kind : HttpClientErrorKind) (message : Text)
  /-- an error that is no `HttpClientError` -/
  | threw

def kindText : HttpClientErrorKind → Text
  | .timeout => "timeout".toList
  | .network => "network".toList
  | .aborted => "aborted".toList

def isOk (status : Nat) : Bool := 200 ≤ status ∧ status ≤ 299

def httpReason (status : Nat) : Text := "http_".toList ++ natText status

/-- The URL is not set where the environment has no value for it, or an empty one. -/
def probeHttpDependency (dependency : DependencyName) (url : Option Text) (answer : HttpAnswer) (at_ : Int) :
    DependencyStatus :=
  let observedAt := isoText at_
  if url.getD [] = [] then ⟨dependency, .unavailable, observedAt, some "unconfigured".toList, none⟩
  else
    match answer with
    | .responded status =>
      if status = 401 ∨ status = 403 then ⟨dependency, .unauthorized, observedAt, some (httpReason status), none⟩
      else ⟨dependency, if isOk status then .ok else .partial_, observedAt,
        if isOk status then none else some (httpReason status), none⟩
    | .failed kind message => ⟨dependency, .unavailable, observedAt, some (kindText kind), some message⟩
    | .threw => ⟨dependency, .unavailable, observedAt, some "unknown_error".toList, none⟩

/-- The requests of the Kubernetes probe: a status, or an exception. The second one is made after a 401,
    with a token that is read anew. -/
structure KubernetesAnswers where
  first : Option Nat
  second : Option Nat
  /-- The timeout has fired before the probe caught the exception. -/
  aborted : Bool

/-- An exception has the status of the response, where there is one. -/
def k8sProbeFetch (a : KubernetesAnswers) : Except (Option Nat) Unit :=
  let res := if a.first = some 401 then a.second else a.first
  match res with
  | none => .error none
  | some status => if isOk status then .ok () else .error (some status)

def probeK8sDependency (a : KubernetesAnswers) (at_ : Int) : DependencyStatus :=
  let observedAt := isoText at_
  match k8sProbeFetch a with
  | .ok _ => ⟨.kubernetes, .ok, observedAt, none, none⟩
  | .error status =>
    if a.aborted then ⟨.kubernetes, .unavailable, observedAt, some "timeout".toList, none⟩
    else
      match status with
      | some status =>
        if status = 401 ∨ status = 403 then ⟨.kubernetes, .unauthorized, observedAt, some (httpReason status), none⟩
        else ⟨.kubernetes, .unavailable, observedAt, some (httpReason status), none⟩
      | none => ⟨.kubernetes, .unavailable, observedAt, some "network".toList, none⟩

/-- The answer to the ping, where there is one. -/
def probeValkeyDependency (configured : Bool) (pong : Option Text) (at_ : Int) : DependencyStatus :=
  let observedAt := isoText at_
  if ¬ configured then ⟨.valkey, .unavailable, observedAt, some "unconfigured".toList, none⟩
  else
    match pong with
    | some pong => ⟨.valkey, if pong = "PONG".toList then .ok else .partial_, observedAt, none, none⟩
    | none => ⟨.valkey, .unavailable, observedAt, some "timeout_or_network".toList, none⟩

/-- The live stream has a reason while it is degraded, with the time since. -/
def getLiveStreamStatus (degradedReason : Option Text) (degradedAt now : Int) : DependencyStatus :=
  ⟨.valkey, if degradedReason.isSome then .partial_ else .ok, isoText (if degradedAt ≠ 0 then degradedAt else now),
    degradedReason, none⟩

structure DependencyHealthSnapshot where
  observedAt : Text
  dependencies : List DependencyStatus
deriving DecidableEq

def SNAPSHOT_CACHE_TTL_SECONDS : Nat := 10

/-- What the probes of a run meet; each of them begins at a time. -/
structure Probes where
  prometheus : Option Text × HttpAnswer × Int
  kubernetes : KubernetesAnswers × Int
  argocd : Option Text × HttpAnswer × Int
  gitea : Option Text × HttpAnswer × Int
  keycloak : Option Text × HttpAnswer × Int
  valkey : (Bool × Option Text) × Int
  liveStream : Option Text × Int

def Probes.statuses (p : Probes) : List DependencyStatus := [
  probeHttpDependency .prometheus p.prometheus.1 p.prometheus.2.1 p.prometheus.2.2,
  probeK8sDependency p.kubernetes.1 p.kubernetes.2,
  probeHttpDependency .argocd p.argocd.1 p.argocd.2.1 p.argocd.2.2,
  probeHttpDependency .gitea p.gitea.1 p.gitea.2.1 p.gitea.2.2,
  probeHttpDependency .keycloak p.keycloak.1 p.keycloak.2.1 p.keycloak.2.2,
  probeValkeyDependency p.valkey.1.1 p.valkey.1.2 p.valkey.2]

/-- A status of the live stream that is not older than half a minute. -/
def isRecent (status : DependencyStatus) (now : Int) : Bool :=
  match dateParse (fun _ => none) status.observedAt with
  | some t => 0 ≤ now - t ∧ now - t ≤ 30000
  | none => false

def runDependencyProbes (p : Probes) (now : Int) : DependencyHealthSnapshot :=
  let dependencies := p.statuses
  let liveStreamStatus := getLiveStreamStatus p.liveStream.1 p.liveStream.2 now
  ⟨isoText now,
    match dependencies.findIdx? (·.dependency = .valkey) with
    | some valkeyIndex =>
      if liveStreamStatus.state ≠ .ok ∧ isRecent liveStreamStatus now then dependencies.set valkeyIndex liveStreamStatus
      else dependencies
    | none => dependencies⟩

/-! ### A snapshot in the cache -/

def DependencyStatus.json (s : DependencyStatus) : Json :=
  .obj ([("dependency".toList, .str s.dependency.text), ("state".toList, .str s.state.text),
      ("observedAt".toList, .str s.observedAt)] ++
    s.reason.toList.map (fun reason => ("reason".toList, .str reason)) ++
    s.detail.toList.map fun detail => ("detail".toList, .str detail))

def DependencyHealthSnapshot.json (s : DependencyHealthSnapshot) : Json :=
  .obj [("observedAt".toList, .str s.observedAt), ("dependencies".toList, .arr (s.dependencies.map DependencyStatus.json))]

def isValidStatus (entry : Json) : Bool :=
  (entry.getString "dependency".toList).any ((KNOWN_DEPENDENCIES.map DependencyName.text).contains ·) &&
    (entry.getString "state".toList).any ((KNOWN_STATES.map DependencyState.text).contains ·) &&
    (entry.getString "observedAt".toList).isSome

def isValidSnapshot (value : Json) : Bool :=
  match value.get "dependencies".toList with
  | some (.arr dependencies) =>
    (value.getString "observedAt".toList).isSome && dependencies.length ≠ 0 && dependencies.all isValidStatus &&
      CORE_DEPENDENCIES.all fun name => dependencies.any fun d => d.getString "dependency".toList = some name.text
  | _ => false

end narwhal.portal.dependency_health
