import Narwhal.Lib.JsonIndent
import Narwhal.Portal.ClusterRegistry

open pylib
open narwhal.portal.cluster_registry

namespace narwhal.portal.cluster_file

/-! ### Texts of the enumerations -/

def environmentText : ClusterEnvironment → String
  | .production => "production"
  | .staging => "staging"
  | .development => "development"
  | .sandbox => "sandbox"

def providerText : ClusterProvider → String
  | .kakao_cloud => "kakao-cloud"
  | .aws => "aws"
  | .gcp => "gcp"
  | .azure => "azure"
  | .on_prem => "on-prem"
  | .other => "other"

def capabilityText : ClusterCapabilityStatus → String
  | .supported => "supported"
  | .partially => "partial"
  | .unavailable => "unavailable"
  | .not_applicable => "not-applicable"

def healthText : ClusterHealthStatus → String
  | .unknown => "unknown"
  | .healthy => "healthy"
  | .degraded => "degraded"
  | .offline => "offline"

def parseHealth : String → Option ClusterHealthStatus
  | "unknown" => some .unknown
  | "healthy" => some .healthy
  | "degraded" => some .degraded
  | "offline" => some .offline
  | _ => none

/-! ### The JSON of a cluster -/

/-- The string of these code points. -/
def text (s : Str) : String := String.ofList (s.map Char.ofNat)

def ofText (s : String) : Json := .str (lit s)

def ofOption (s : Option String) : Json := (s.map ofText).getD .null

def toText : Json → Option String
  | .str s => some (text s)
  | _ => none

def toOption : Json → Option (Option String)
  | .null => some none
  | j => (toText j).map some

def Cluster.toJson (c : Cluster) : Json :=
  .obj [(lit "id", ofText c.id), (lit "name", ofText c.name),
    (lit "environment", ofText (environmentText c.environment)), (lit "provider", ofText (providerText c.provider)),
    (lit "region", ofOption c.region), (lit "endpointHint", ofOption c.endpointHint),
    (lit "credentialRef", .obj [(lit "apiServerEnvVar", ofText c.credentialRef.apiServerEnvVar),
      (lit "tokenEnvVar", ofText c.credentialRef.tokenEnvVar)]),
    (lit "capabilities", .obj (c.capabilities.map fun kv => (lit kv.1, ofText (capabilityText kv.2)))),
    (lit "status", ofText (healthText c.status)), (lit "registeredAt", ofText c.registeredAt),
    (lit "updatedAt", ofText c.updatedAt)]

def fieldsOf : Json → Option (List (Str × Json))
  | .obj fields => some fields
  | _ => none

def capabilityOf (kv : Str × Json) : Option (String × ClusterCapabilityStatus) :=
  ((toText kv.2).bind ClusterCapabilityStatus.parse).map fun status => (text kv.1, status)

def strField (fields : List (Str × Json)) (key : String) : Option String := (lookupField (lit key) fields).bind toText

def optField (fields : List (Str × Json)) (key : String) : Option (Option String) :=
  (lookupField (lit key) fields).bind toOption

def objField (fields : List (Str × Json)) (key : String) : Option (List (Str × Json)) :=
  (lookupField (lit key) fields).bind fieldsOf

/-- An element of the `clusters` of the file, which is a `Cluster` by its type. -/
def Cluster.ofJson (j : Json) : Option Cluster := do
  let fields ← fieldsOf j
  let id ← strField fields "id"
  let name ← strField fields "name"
  let environment ← (strField fields "environment").bind ClusterEnvironment.parse
  let provider ← (strField fields "provider").bind ClusterProvider.parse
  let region ← optField fields "region"
  let endpointHint ← optField fields "endpointHint"
  let ref ← objField fields "credentialRef"
  let apiServerEnvVar ← strField ref "apiServerEnvVar"
  let tokenEnvVar ← strField ref "tokenEnvVar"
  let capabilities ← (objField fields "capabilities").bind (List.mapM capabilityOf)
  let status ← (strField fields "status").bind parseHealth
  let registeredAt ← strField fields "registeredAt"
  let updatedAt ← strField fields "updatedAt"
  return ⟨id, name, environment, provider, region, endpointHint, ⟨apiServerEnvVar, tokenEnvVar⟩, capabilities, status,
    registeredAt, updatedAt⟩

/-! ### The file -/

/-- `JSON.stringify({ clusters }, null, 2) + "\n"` -/
def fileText (clusters : List Cluster) : Str :=
  printed (indent2 quote) 0 (.obj [(lit "clusters", .arr (clusters.map Cluster.toJson))]) ++ [10]

/-- `JSON.parse`. The pairs of an object are as the text lists them: no text here repeats a key. -/
def JSON.parse (raw : Str) : Option Json := loads some raw

/-- What `load` makes of the file when nothing is cached; `none` is a file that cannot be read. -/
def loadFile (file : Option Str) : List Cluster :=
  match file.bind JSON.parse with
  | some (.obj fields) =>
    match lookupField (lit "clusters") fields with
    | some (.arr clusters) => clusters.filterMap Cluster.ofJson
    | _ => []
  | _ => []

/-- The octets of a code point. -/
def width (c : Nat) : Nat :=
  if c < 0x80 then 1 else if c < 0x800 then 2 else if c < 0x10000 then 3 else 4

/-- What is read of a text of which this many octets were written: a code point that is cut in two
    is read as the replacement character. -/
def cut : Nat → Str → Str
  | 0, _ => []
  | _ + 1, [] => []
  | n + 1, c :: rest => if width c ≤ n + 1 then c :: cut (n + 1 - width c) rest else [0xFFFD]

/-! ### Calls and restarts -/

/-- What the process holds of the registry, and the file. -/
structure World where
  cache : Option (List Cluster)
  file : Option Str
deriving DecidableEq, Repr

/-- `writeFileSync` returns, or it throws, with the file as it was or with so many octets in it. -/
inductive WriteOutcome where
  | complete
  | failed (left : Option Nat)
deriving DecidableEq, Repr

inductive Op where
  | call (call : Call) (outcome : WriteOutcome)
  /-- the process dies in `writeFileSync` with so many octets written -/
  | crash (call : Call) (left : Nat)
  | list
  /-- the process ends and another one starts -/
  | restart
deriving DecidableEq, Repr

inductive Reply where
  | registered (cluster : Cluster)
  | removed (id : String)
  | refused
  | listed (clusters : List Cluster)
  /-- the process gave no answer -/
  | none
deriving DecidableEq, Repr

namespace World

/-- The registry that `load` returns. -/
def load (s : World) : List Cluster := s.cache.getD (loadFile s.file)

/-- The reply of a call that wrote. -/
def replyOf : Write → Reply
  | .put cluster => .registered cluster
  | .remove id => .removed id

/-- `persist`: the cache holds the new registry whatever becomes of the file. -/
def persist (s : World) (clusters : List Cluster) (outcome : WriteOutcome) : World where
  cache := some clusters
  file :=
    match outcome with
    | .complete => some (fileText clusters)
    | .failed none => s.file
    | .failed (some left) => some (cut left (fileText clusters))

def step (s : World) : Op → World × Reply
  | .call call outcome =>
    match call.decide s.load with
    | none => ({ s with cache := some s.load }, .refused)
    | some write => (s.persist (write.run s.load) outcome, replyOf write)
  | .crash call left =>
    match call.decide s.load with
    | none => ({ s with cache := some s.load }, .refused)
    | some write => (⟨none, some (cut left (fileText (write.run s.load)))⟩, .none)
  | .list => ({ s with cache := some s.load }, .listed s.load)
  | .restart => (⟨none, s.file⟩, .none)

def after (s : World) (op : Op) : World := (s.step op).1

def run (s : World) (ops : List Op) : World := ops.foldl after s

end World

end narwhal.portal.cluster_file
