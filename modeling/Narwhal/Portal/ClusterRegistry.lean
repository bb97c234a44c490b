import Narwhal.Lib.JsMap
import Narwhal.Lib.JsText
import Narwhal.Lib.Run

open jslib pylib

namespace narwhal.portal.cluster_registry

/-! ### Clusters -/

inductive ClusterEnvironment where
  | production | staging | development | sandbox
deriving DecidableEq, Repr

def ClusterEnvironment.parse : String → Option ClusterEnvironment
  | "production" => some .production
  | "staging" => some .staging
  | "development" => some .development
  | "sandbox" => some .sandbox
  | _ => none

inductive ClusterProvider where
  | kakao_cloud | aws | gcp | azure | on_prem | other
deriving DecidableEq, Repr

def ClusterProvider.parse : String → Option ClusterProvider
  | "kakao-cloud" => some .kakao_cloud
  | "aws" => some .aws
  | "gcp" => some .gcp
  | "azure" => some .azure
  | "on-prem" => some .on_prem
  | "other" => some .other
  | _ => none

inductive ClusterCapabilityStatus where
  | supported | partially | unavailable | not_applicable
deriving DecidableEq, Repr

def ClusterCapabilityStatus.parse : String → Option ClusterCapabilityStatus
  | "supported" => some .supported
  | "partial" => some .partially
  | "unavailable" => some .unavailable
  | "not-applicable" => some .not_applicable
  | _ => none

inductive ClusterHealthStatus where
  | unknown | healthy | degraded | offline
deriving DecidableEq, Repr

/-- The names of the environment variables a cluster's credentials are read from. -/
structure ClusterCredentialRef where
  apiServerEnvVar : String
  tokenEnvVar : String
deriving DecidableEq, Repr

structure Cluster where
  id : String
  name : String
  environment : ClusterEnvironment
  provider : ClusterProvider
  region : Option String
  endpointHint : Option String
  credentialRef : ClusterCredentialRef
  capabilities : List (String × ClusterCapabilityStatus)
  status : ClusterHealthStatus
  registeredAt : String
  updatedAt : String
deriving DecidableEq, Repr

/-- A registration request as it comes from the client: where a string is required, `none`
    is a value of another type. -/
structure ClusterRegistrationInput where
  id : Option String
  name : Option String
  environment : Option String
  provider : Option String
  region : Option String
  endpointHint : Option String
  credentialRef : Option (Option String × Option String)
  capabilities : List (String × Option String)
deriving DecidableEq, Repr

structure ValidationError where
  message : String
  field : String
deriving DecidableEq, Repr

def DEFAULT_CAPABILITY_PROFILE : List (String × ClusterCapabilityStatus) :=
  ["argocd", "metrics", "events", "storage", "rbac", "logs"].map (·, .unavailable)

/-! ### Validation -/

/-- A string with something other than white space in it. -/
def nonBlank (s : Option String) : Option String := s.filter fun s => trim s ≠ ""

def assertValidCredentialRef (ref : Option (Option String × Option String)) (field : String) :
    Except ValidationError ClusterCredentialRef :=
  match ref with
  | none => .error ⟨field ++ " is required", field⟩
  | some (apiServerEnvVar, tokenEnvVar) =>
    match nonBlank apiServerEnvVar with
    | none => .error ⟨field ++ ".apiServerEnvVar is required", field ++ ".apiServerEnvVar"⟩
    | some api =>
      match nonBlank tokenEnvVar with
      | none => .error ⟨field ++ ".tokenEnvVar is required", field ++ ".tokenEnvVar"⟩
      | some token => .ok ⟨api, token⟩

/-- The loop over the registered clusters: no reference may be used by two clusters. -/
def checkReferences (ref : ClusterCredentialRef) : List Cluster → Except ValidationError Unit
  | [] => .ok ()
  | c :: rest =>
    if c.credentialRef.apiServerEnvVar = ref.apiServerEnvVar ∨ c.credentialRef.tokenEnvVar = ref.apiServerEnvVar then
      .error ⟨"credentialRef.apiServerEnvVar '" ++ ref.apiServerEnvVar ++ "' is already used by cluster '" ++ c.id ++ "'",
        "credentialRef.apiServerEnvVar"⟩
    else if c.credentialRef.tokenEnvVar = ref.tokenEnvVar ∨ c.credentialRef.apiServerEnvVar = ref.tokenEnvVar then
      .error ⟨"credentialRef.tokenEnvVar '" ++ ref.tokenEnvVar ++ "' is already used by cluster '" ++ c.id ++ "'",
        "credentialRef.tokenEnvVar"⟩
    else checkReferences ref rest

/-- The capabilities of the request laid over a profile. -/
def checkCapabilities (profile : List (String × ClusterCapabilityStatus)) :
    List (String × Option String) → Except ValidationError (List (String × ClusterCapabilityStatus))
  | [] => .ok profile
  | (key, value) :: rest =>
    match value.bind ClusterCapabilityStatus.parse with
    | none =>
      .error ⟨"capabilities." ++ key ++ " must be one of supported|partial|unavailable|not-applicable",
        "capabilities." ++ key⟩
    | some status => checkCapabilities (setEntry key status profile) rest

/-- The record to persist, given the clusters registered now. -/
def validateClusterRegistration (input : ClusterRegistrationInput) (existing : List Cluster) (now : String) :
    Except ValidationError Cluster :=
  match input.id.filter isLabel with
  | none => .error ⟨"id must match ^[a-z0-9]([-a-z0-9]\x7b0,61\x7d[a-z0-9])?$", "id"⟩
  | some id =>
    match nonBlank input.name with
    | none => .error ⟨"name is required", "name"⟩
    | some name =>
      match input.environment.bind ClusterEnvironment.parse with
      | none => .error ⟨"environment must be one of production|staging|development|sandbox", "environment"⟩
      | some environment =>
        match input.provider.bind ClusterProvider.parse with
        | none => .error ⟨"provider must be one of kakao-cloud|aws|gcp|azure|on-prem|other", "provider"⟩
        | some provider =>
          match assertValidCredentialRef input.credentialRef "credentialRef" with
          | .error e => .error e
          | .ok ref =>
            if existing.any (·.id == id) then .error ⟨"cluster id '" ++ id ++ "' is already registered", "id"⟩
            else
              match checkReferences ref existing with
              | .error e => .error e
              | .ok () =>
                match checkCapabilities DEFAULT_CAPABILITY_PROFILE input.capabilities with
                | .error e => .error e
                | .ok capabilities =>
                  .ok ⟨id, trim name, environment, provider, input.region, input.endpointHint, ref, capabilities,
                    .unknown, now, now⟩

/-- The message is the refusal. -/
def canRemoveCluster (id : String) (existing : List Cluster) : Except String Unit :=
  if ¬ existing.any (·.id == id) then .error ("cluster '" ++ id ++ "' is not registered")
  else if existing.length ≤ 1 then
    .error "cannot remove the last registered cluster — register a replacement first"
  else .ok ()

/-! ### The store -/

/-- The registry as the store holds it in memory. -/
abbrev FileClusterStore := List Cluster

def FileClusterStore.put (store : FileClusterStore) (cluster : Cluster) : FileClusterStore :=
  store.filter (·.id != cluster.id) ++ [cluster]

def FileClusterStore.remove (store : FileClusterStore) (id : String) : FileClusterStore :=
  store.filter (·.id != id)

/-! ### Calls, one step for each access to the store -/

inductive Call where
  | registerCluster (input : ClusterRegistrationInput) (now : String)
  | removeCluster (id : String)
deriving DecidableEq, Repr

/-- What a call that has read the list and passed its check does next. -/
inductive Write where
  | put (cluster : Cluster)
  | remove (id : String)
deriving DecidableEq, Repr

/-- What a call does with the list it read; `none` where it refuses. -/
def Call.decide (call : Call) (existing : List Cluster) : Option Write :=
  match call with
  | .registerCluster input now => (validateClusterRegistration input existing now).toOption.map .put
  | .removeCluster id => (canRemoveCluster id existing).toOption.map fun _ => .remove id

def Write.run (write : Write) (store : FileClusterStore) : FileClusterStore :=
  match write with
  | .put cluster => store.put cluster
  | .remove id => store.remove id

/-- The clusters a write replaces by another one of the same id. -/
def Write.replaces (write : Write) (store : FileClusterStore) : List Cluster :=
  match write with
  | .put cluster => store.filter (·.id == cluster.id)
  | .remove _ => []

inductive Op where
  /-- a call reads the list and decides -/
  | start (call : Call)
  /-- the call at this place among the waiting ones writes, and then returns success -/
  | finish (i : Nat)
deriving DecidableEq, Repr

/-- The registry, the calls between their read and their write, and the clusters that were
    overwritten so far. -/
structure World where
  store : FileClusterStore
  waiting : List Write
  overwritten : List Cluster
deriving DecidableEq, Repr

def World.step (s : World) (op : Op) : World :=
  match op with
  | .start call => { s with waiting := s.waiting ++ (call.decide s.store).toList }
  | .finish i =>
    match s.waiting[i]? with
    | none => s
    | some write => ⟨write.run s.store, s.waiting.eraseIdx i, s.overwritten ++ write.replaces s.store⟩

def World.run (s : World) (ops : List Op) : World := ops.foldl World.step s

end narwhal.portal.cluster_registry
