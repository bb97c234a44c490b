import Mathlib.Data.List.Basic
import Narwhal.Lib.JsText

open jslib

namespace narwhal.portal.gitea

/-! ### The request -/

/-- `/^[a-z0-9]([a-z0-9-]{0,61}[a-z0-9])?$/` -/
def isNamespaceName : Text → Bool
  | [] => false
  | c :: rest =>
    (isLower c || isDigit c) && rest.length ≤ 62 && rest.all (fun c => isLower c || isDigit c || c == '-') &&
      rest.getLast?.all fun c => isLower c || isDigit c

structure Session where
  role : Text
  teams : List Text
  email : Option Text
  name : Option Text

/-- `body.name`: a string, or another value with what it reads as and whether it counts as true. -/
inductive BodyName where
  | text (s : Text)
  | other (string : Text) (truthy : Bool)

/-- What a `POST` is answered with; the session is `none` for a caller who is not signed in, the team for one that is no
    string. -/
structure PostRequest where
  session : Option Session
  name : BodyName
  team : Option Text
  isGiteaConfigured : Bool

/-- The namespace that is asked for. -/
def PostRequest.ns (request : PostRequest) : Text :=
  match request.name with
  | .text s => s
  | .other string _ => string

structure PullRequest where
  number : Nat
  html_url : Text

inductive Reply where
  | error (status : Nat) (message : Text)
  | requested (ns team : Text) (pr : PullRequest)
  /-- An error that the handler does not catch. -/
  | threw

structure TenantRequest where
  ns : Text
  team : Text
  requestedBy : Text

/-- The team of the namespace, or the status and the message of the refusal. -/
def resolveNamespaceOwner (role : Text) (teams : List Text) (requestedTeam : Option Text) : Except (Nat × Text) Text :=
  if requestedTeam.any (· ≠ []) ∧ role ≠ "cluster-admin".toList ∧ ¬ requestedTeam.any (· ∈ teams) then
    .error (403, "Cannot create a namespace owned by '".toList ++ requestedTeam.getD [] ++
      "': you are not a member of that team".toList)
  else
    match requestedTeam <|> teams.head? with
    | some (c :: team) => .ok (c :: team)
    | _ => .error (400, "No team to own this namespace: you are not a member of any team".toList)

/-- The checks before anything is asked of Gitea. -/
def precheck (request : PostRequest) : Except Reply TenantRequest :=
  match request.session with
  | none => .error (.error 401 "Unauthorized".toList)
  | some session =>
    if session.role ≠ "cluster-admin".toList ∧ session.role ≠ "developer".toList then
      .error (.error 403 "Forbidden".toList)
    else
      match request.name with
      | .other string truthy =>
        -- a value that reads as a valid name has no `startsWith`
        .error (if truthy && isNamespaceName string then .threw else .error 400 "Invalid namespace name".toList)
      | .text name =>
        if ¬ isNamespaceName name then .error (.error 400 "Invalid namespace name".toList)
        else if ¬ "dev-".toList.isPrefixOf name then
          .error (.error 400 "Self-service namespaces must start with 'dev-'".toList)
        else
          match resolveNamespaceOwner session.role session.teams request.team with
          | .error (status, message) => .error (.error status message)
          | .ok team =>
            if ¬ request.isGiteaConfigured then
              .error (.error 503
                "Namespace requests are unavailable: the portal has no GitOps credentials configured".toList)
            else .ok ⟨name, team, (session.email <|> session.name).getD "unknown".toList⟩

/-! ### Gitea -/

inductive Failure where
  /-- `GiteaCredentialError` -/
  | credentialError (message : Text)
  /-- `GiteaError` -/
  | giteaError (message : Text) (status : Nat)
  | other

/-- How `fetchWithPolicy` ends: it throws, or there is a response. The host is that of the `Location` header, the message
    what an error body says, and the value the JSON of the body. -/
inductive Answer (α : Type) where
  | threw
  | response (status : Nat) (host : Text) (html : Bool) (message : Text) (value : Option α)

def gatewayRedirect (detail : Text) : Failure :=
  .giteaError ("Gitea API returned ".toList ++ detail ++ (" (likely an SSO redirect) — check that the gitea-portal-api gateway " ++
    "rule is live and that GITEA_URL is the gateway host (the in-cluster hop is plaintext and not used)").toList) 502

def api {α : Type} : Answer α → Except Failure α
  | .threw => .error .other
  | .response status host html message value =>
    if 300 ≤ status ∧ status < 400 then
      .error (gatewayRedirect ("a redirect (HTTP ".toList ++ natText status ++ ") to ".toList ++ host))
    else if html then .error (gatewayRedirect "HTML".toList)
    else if status = 401 then
      .error (.credentialError ("Gitea request rejected (HTTP ".toList ++ natText status ++ "): check GITEA_TOKEN".toList))
    else if ¬ (200 ≤ status ∧ status < 300) then .error (.giteaError message status)
    else
      match value with
      | some value => .ok value
      | none => .error .other

/-- The statuses that `POST` takes for a request that is already open. -/
def Failure.isConflict : Failure → Bool
  | .giteaError _ status => status = 409 || status = 422
  | _ => false

/-- The reply to a request that failed. -/
def failureReply (name : Text) : Failure → Reply
  | .credentialError message => .error 503 ("Namespace requests are unavailable: ".toList ++ message)
  | .giteaError message status =>
    if status = 409 ∨ status = 422 then .error 409 ("A request for '".toList ++ name ++ "' is already open".toList)
    else .error 502 ("Could not open the namespace request: ".toList ++ message)
  | .other => .error 502 "Could not open the namespace request".toList

def branchOf (ns : Text) : Text := "selfservice/".toList ++ ns

/-- `resources/tenants/<team>/<namespace>.yaml` -/
def tenantPath (team ns : Text) : Text :=
  "resources/tenants/".toList ++ team ++ "/".toList ++ ns ++ ".yaml".toList

end narwhal.portal.gitea
