import Mathlib.Logic.Function.Basic
import Narwhal.Lib.JsText

open jslib

namespace narwhal.portal.argocd

/-! ### The application -/

inductive Phase where
  | running | terminating | succeeded | failed | error
deriving DecidableEq, Repr

def Phase.text : Phase → Text
  | .running => "Running".toList
  | .terminating => "Terminating".toList
  | .succeeded => "Succeeded".toList
  | .failed => "Failed".toList
  | .error => "Error".toList

/-- A phase in which an operation is over. -/
def Phase.final : Phase → Bool
  | .succeeded | .failed | .error => true
  | _ => false

inductive SyncStatus where
  | synced | outOfSync | unknown
deriving DecidableEq, Repr

/-- An operation on the application: the one a call of the portal asks for, or one of Argo CD
    itself or of another client. -/
inductive Operation (ι : Type) where
  | requested (i : ι)
  | other (n : Nat)
deriving DecidableEq, Repr

/-- `status.operationState`, and the operation it describes. No field of the answer names that
    operation, and the portal does not look at it. -/
structure OperationState (ι : Type) where
  phase : Option Phase
  operation : Operation ι
deriving DecidableEq, Repr

structure Status (ι : Type) where
  sync : SyncStatus
  operationState : Option (OperationState ι)
deriving DecidableEq, Repr

/-- An application that was never reconciled has no status. -/
structure ArgoApp (ι : Type) where
  status : Option (Status ι)
deriving DecidableEq, Repr

inductive OperationOutcome where
  | converged | failed | pending
deriving DecidableEq, Repr

def getOperationOutcome {ι : Type} (status : Status ι) : OperationOutcome :=
  match status.operationState.bind OperationState.phase with
  | some .succeeded => if status.sync = .synced then .converged else .pending
  | some .failed | some .error => .failed
  | _ => .pending

/-! ### Replies -/

inductive Route where
  | sync
  | rollback (id : Nat)
deriving DecidableEq, Repr

/-- A reply of a route. `success` and `outcome` are the fields of its body. -/
structure Reply where
  status : Nat
  success : Option Bool
  pending : Bool
  outcome : Option Text
  message : Option Text
deriving DecidableEq, Repr

/-- A reply with an `error` and no verdict. -/
def Reply.refusal (status : Nat) : Reply := ⟨status, none, false, none, none⟩

/-- What the routes make of an error that has no class of its own. -/
def Route.broken : Route → Reply
  | .sync => .refusal 502
  | .rollback _ => .refusal 500

def Route.failedMessage (route : Route) (phase : Option Phase) : Text :=
  (match route with
    | .sync => "sync failed; operationState.phase=".toList
    | .rollback _ => "rollback failed; operationState.phase=".toList) ++
  (phase.map Phase.text).getD "unknown".toList

def Route.triggeredMessage (name : Text) : Route → Text
  | .sync => "Sync triggered for ".toList ++ name
  | .rollback id => "Rollback triggered for ".toList ++ name ++ " to #".toList ++ natText id

/-- The reply to a call whose operation was accepted, from the application it read afterwards. -/
def Route.verdict {ι : Type} (route : Route) (name : Text) (fresh : Option (ArgoApp ι)) : Reply :=
  let pending : Reply :=
    ⟨200, some true, true, none, some (route.triggeredMessage name ++ "; awaiting convergence".toList)⟩
  match fresh with
  | none => pending
  | some app =>
    match app.status with
    -- `app.status.operationState` throws
    | none => route.broken
    | some status =>
      match getOperationOutcome status with
      | .failed => ⟨502, some false, false, none, some (route.failedMessage (status.operationState.bind OperationState.phase))⟩
      | .pending => pending
      | .converged => ⟨200, some true, false, none, some (route.triggeredMessage name)⟩

/-! ### Argo CD's answers -/

/-- What becomes of a request to Argo CD. `code` is `none` when no answer arrives; `body` tells
    whether the body is the application; `accepted` whether Argo CD acts on a request whose answer
    is no 2xx. -/
structure Http where
  code : Option Nat
  body : Bool
  accepted : Bool
deriving DecidableEq, Repr

def Http.ok (http : Http) : Bool :=
  match http.code with
  | some code => 200 ≤ code && code < 300
  | none => false

/-- The errors of `getArgoAppOrThrow`, as the routes answer them. -/
def Route.lookupError (route : Route) (http : Http) : Reply :=
  match http.code with
  | some 404 => .refusal 404
  | some 401 => .refusal 503
  | some 403 => .refusal 403
  | _ => route.broken

/-- The errors of `syncArgoApp` and `rollbackArgoApp`, as the routes answer them. -/
def Route.mutationError (route : Route) (http : Http) : Reply :=
  match route with
  | .sync => if http.code = some 401 then .refusal 503 else .refusal 502
  | .rollback _ =>
    let unknown : Reply := ⟨502, some false, false, some "unknown".toList, none⟩
    match http.code with
    | none => unknown
    | some code =>
      if code = 401 then .refusal 503
      else if code = 403 then .refusal 403
      else if 400 ≤ code ∧ code < 500 ∧ code ≠ 408 then ⟨code, some false, false, some "rejected".toList, none⟩
      else unknown

/-! ### The parties -/

/-- What a GET answered: the application, and the operation that Argo CD had started last by then,
    which the portal does not see. -/
structure Copy (ι : Type) where
  app : ArgoApp ι
  last : Option (Operation ι)
deriving DecidableEq, Repr

/-- How far a POST is. -/
inductive Call (ι : Type) where
  | ready
  /-- the cache had no entry; the GET of the authorisation is next -/
  | checking
  /-- the authorisation read the application and stores it next -/
  | checked (copy : Copy ι)
  /-- the mutation is next -/
  | authorised
  /-- Argo CD accepted the operation; the invalidation of the cache is next -/
  | accepted
  /-- `cacheDel` of `getArgoAppFresh` is next -/
  | invalidated
  /-- `cacheGet` of `getArgoApp` is next; whether Valkey carried out the deletion -/
  | deleted (done : Bool)
  /-- the GET of `getArgoApp` is next -/
  | missed
  /-- `getArgoApp` stores what it read, then the call replies -/
  | fetched (copy : Copy ι)
  | replied (reply : Reply)
deriving DecidableEq, Repr

/-- How far another `getArgoApp` is. -/
inductive Reader (ι : Type) where
  | ready
  | missed
  | fetched (copy : Copy ι)
  | done
deriving DecidableEq, Repr

structure World (ι κ : Type) where
  now : Nat
  /-- Argo CD's application, and all it has been, the latest first -/
  app : ArgoApp ι
  past : List (ArgoApp ι)
  /-- the operation that Argo CD started last, if it has started one -/
  last : Option (Operation ι)
  /-- the operations that were accepted and not started -/
  accepted : List (Operation ι)
  /-- the entry `argocd:app:{name}` and the time it expires -/
  cache : Option (ArgoApp ι × Nat)
  calls : ι → Call ι
  readers : κ → Reader ι

/-- What a step of the portal meets: whether Valkey carries out its command, Argo CD's answer, and
    whether the caller may act on the application. -/
structure Io where
  cache : Bool
  http : Http
  accessible : Bool
deriving DecidableEq, Repr

inductive Op (ι κ : Type) where
  | tick (ms : Nat)
  /-- Argo CD accepts an operation the portal did not ask for -/
  | accept (n : Nat)
  /-- Argo CD starts an accepted operation and replaces `operationState` -/
  | start (operation : Operation ι)
  /-- the started operation moves on, or ends -/
  | progress (phase : Phase)
  /-- Argo CD compares the application with its source -/
  | compare (sync : SyncStatus)
  | call (i : ι) (io : Io)
  | reader (j : κ) (io : Io)
deriving DecidableEq, Repr

section Step

variable {ι κ : Type}

namespace World

/-- The application before any call, with an empty cache. -/
def start (app : ArgoApp ι) : World ι κ :=
  ⟨0, app, [app], none, [], none, fun _ => .ready, fun _ => .ready⟩

/-- Argo CD's application changes. -/
def setStatus (s : World ι κ) (status : Status ι) : World ι κ :=
  { s with app := ⟨some status⟩, past := ⟨some status⟩ :: s.past }

def copy (s : World ι κ) : Copy ι := ⟨s.app, s.last⟩

def cacheGet (s : World ι κ) (io : Io) : Option (ArgoApp ι) :=
  if io.cache then (s.cache.filter fun entry => s.now < entry.2).map Prod.fst else none

def cacheSet (s : World ι κ) (io : Io) (app : ArgoApp ι) : World ι κ :=
  if io.cache then { s with cache := some (app, s.now + 10000) } else s

def cacheDel (s : World ι κ) (io : Io) : World ι κ :=
  if io.cache then { s with cache := none } else s

variable [DecidableEq ι] [DecidableEq κ]

def setCall (s : World ι κ) (i : ι) (call : Call ι) : World ι κ := { s with calls := Function.update s.calls i call }

def setReader (s : World ι κ) (j : κ) (reader : Reader ι) : World ι κ :=
  { s with readers := Function.update s.readers j reader }

/-- The next step of a call of a route on the application `name`. -/
def callStep (route : Route) (name : Text) (s : World ι κ) (i : ι) (io : Io) : World ι κ :=
  let afterCheck : Call ι := if io.accessible then .authorised else .replied (.refusal 403)
  match s.calls i with
  | .ready =>
    match s.cacheGet io with
    | some _ => s.setCall i afterCheck
    | none => s.setCall i .checking
  | .checking =>
    if io.http.ok then s.setCall i (if io.http.body then .checked s.copy else .replied route.broken)
    else s.setCall i (.replied (route.lookupError io.http))
  | .checked copy => (s.cacheSet io copy.app).setCall i afterCheck
  | .authorised =>
    let asked := if io.http.ok || io.http.accepted then { s with accepted := s.accepted ++ [.requested i] } else s
    if io.http.ok && io.http.body then asked.setCall i .accepted
    else asked.setCall i (.replied (route.mutationError io.http))
  | .accepted => (s.cacheDel io).setCall i .invalidated
  | .invalidated => (s.cacheDel io).setCall i (.deleted io.cache)
  | .deleted _ =>
    match s.cacheGet io with
    | some app => s.setCall i (.replied (route.verdict name (some app)))
    | none => s.setCall i .missed
  | .missed =>
    if io.http.ok && io.http.body then s.setCall i (.fetched s.copy)
    else s.setCall i (.replied (route.verdict (ι := ι) name none))
  | .fetched copy => (s.cacheSet io copy.app).setCall i (.replied (route.verdict name (some copy.app)))
  | .replied _ => s

/-- The next step of a `getArgoApp`. -/
def readerStep (s : World ι κ) (j : κ) (io : Io) : World ι κ :=
  match s.readers j with
  | .ready =>
    match s.cacheGet io with
    | some _ => s.setReader j .done
    | none => s.setReader j .missed
  | .missed => s.setReader j (if io.http.ok && io.http.body then .fetched s.copy else .done)
  | .fetched copy => (s.cacheSet io copy.app).setReader j .done
  | .done => s

/-- Every step of every party; one that is not possible changes nothing. -/
def step (routes : ι → Route) (name : Text) (s : World ι κ) : Op ι κ → World ι κ
  | .tick ms => { s with now := s.now + ms }
  | .accept n => { s with accepted := s.accepted ++ [.other n] }
  | .start operation =>
    if operation ∈ s.accepted then
      { s with accepted := s.accepted.erase operation, last := some operation }.setStatus
        ⟨(s.app.status.map Status.sync).getD .unknown, some ⟨some .running, operation⟩⟩
    else s
  | .progress phase =>
    match s.app.status with
    | some ⟨sync, some ⟨now, operation⟩⟩ =>
      if (now.map Phase.final).getD false then s else s.setStatus ⟨sync, some ⟨some phase, operation⟩⟩
    | _ => s
  | .compare sync => s.setStatus ⟨sync, s.app.status.bind Status.operationState⟩
  | .call i io => s.callStep (routes i) name i io
  | .reader j io => s.readerStep j io

def run (routes : ι → Route) (name : Text) (s : World ι κ) (ops : List (Op ι κ)) : World ι κ :=
  ops.foldl (step routes name) s

end World

end Step

end narwhal.portal.argocd
