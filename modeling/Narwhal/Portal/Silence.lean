import Mathlib.Logic.Function.Basic
import Narwhal.Lib.JsJson
import Narwhal.Portal.Idempotency
import Narwhal.Portal.ValkeyCache

open jslib narwhal.portal.idempotency

namespace narwhal.portal.alert_silence

open narwhal.portal.valkey (Answer)

/-! ### Requests -/

structure SilenceMatcher where
  name : Text
  value : Text
  isRegex : Bool
deriving DecidableEq

/-- What `POST` goes on with once the role, the body and the scope of a request are checked. -/
structure SilenceRequest where
  createdBy : Text
  matchers : List SilenceMatcher
  duration : Number
  comment : Text
  idempotencyKey : Option Text
deriving DecidableEq

namespace SilenceRequest

def fingerprint (request : SilenceRequest) : Text :=
  stringify (.obj [
    ("createdBy".toList, .str request.createdBy),
    ("matchers".toList, .arr (request.matchers.map fun m =>
      .obj [("name".toList, .str m.name), ("value".toList, .str m.value), ("isRegex".toList, .bool m.isRegex)])),
    ("duration".toList, .num request.duration),
    ("comment".toList, .str request.comment)])

/-- The trimmed key; an empty one counts as none. -/
def key (request : SilenceRequest) : Option Text := (request.idempotencyKey.map trimText).filter (· ≠ [])

/-- The key in the store, with the prefix of the store before that of the route. -/
def storeKey (request : SilenceRequest) : Option String :=
  request.key.map fun key => String.ofList ("events:idempotency:".toList ++ ("alert-silence:".toList ++ key))

end SilenceRequest

def PENDING : Text := ['p', 'e', 'n', 'd', 'i', 'n', 'g', ':']

def IDEMPOTENCY_TTL_SECONDS : Nat := 24 * 60 * 60

/-- What a request claims its key with. -/
def placeholder (request : SilenceRequest) : String := String.ofList (PENDING ++ request.fingerprint)

/-! ### Alertmanager -/

/-- The answer of Alertmanager; no body where it cannot be read as JSON. -/
structure HttpResponse where
  status : Nat
  body : Option Json

inductive SilenceError where
  | notFound
  | forbidden
  | credential
  | rejected (status : Nat)
  | outcomeUnknown
deriving DecidableEq

/-- The identifiers the code will use again. -/
def isSilenceId (id : Text) : Bool :=
  1 ≤ id.length ∧ id.length ≤ 128 ∧ id.all fun c => isUpper c || isLower c || isDigit c || c == '_' || c == '-'

def assertSilenceWriteAccepted (status : Nat) : Except SilenceError Unit :=
  if 200 ≤ status ∧ status ≤ 299 then .ok ()
  else if status = 401 then .error .credential
  else if status = 403 then .error .forbidden
  else if 400 ≤ status ∧ status < 500 ∧ status ≠ 408 then .error (.rejected status)
  else .error .outcomeUnknown

/-- `isRecord(data) ? data.silenceID : undefined`, where it is a string. -/
def silenceID : Json → Option Text
  | .obj fields => fields.findSome? fun field =>
      match field.2 with
      | .str id => if field.1 = "silenceID".toList then some id else none
      | _ => none
  | _ => none

/-- No response where the request failed or timed out. -/
def createSilence (response : Option HttpResponse) : Except SilenceError String :=
  match response with
  | none => .error .outcomeUnknown
  | some res => do
    assertSilenceWriteAccepted res.status
    match res.body.bind silenceID with
    | some id => if isSilenceId id then .ok (String.ofList id) else .error .outcomeUnknown
    | none => .error .outcomeUnknown

/-! ### Replies -/

inductive Reply where
  | created (silenceId : String)
  | duplicate (silenceId : String)
  | validationError (message field : String)
  | failed (status : Nat) (error : String) (outcome : Option String)
deriving DecidableEq

/-- The reply to a create that failed. -/
def mapSilenceMutationError : SilenceError → Reply
  | .notFound => .failed 404 "Silence not found / already expired" none
  | .forbidden => .failed 403 "Alertmanager denied access to the silence" none
  | .credential => .failed 503 "Alertmanager rejected the portal credentials" none
  | .rejected status =>
    .failed status ("Alertmanager rejected the silence create (HTTP " ++ toString status ++ ")") (some "rejected")
  | .outcomeUnknown =>
    .failed 502 "Alertmanager silence outcome unknown; change may have been applied, verify before retrying"
      (some "unknown")

/-! ### The run of a request -/

/-- Where a request is; each phase but the last awaits one answer. -/
inductive Phase where
  | arrived
  /-- The claim awaits `SET … NX`. -/
  | setting (key : String)
  /-- The claim succeeded and is to be mirrored in the fallback. -/
  | mirroring (key : String)
  /-- The claim awaits `GET`. -/
  | getting (key : String)
  /-- A command failed and the claim goes to the fallback. -/
  | fallingBack (key : String)
  | creating
  /-- The silence exists and the fulfilment awaits `SET`. -/
  | fulfilling (key silenceId : String)
  | mirroringId (key silenceId : String)
  | replied (reply : Reply)

/-- What `POST` does with the outcome of its claim. -/
def afterClaim (fingerprint : Text) : Option String → Phase
  | none => .creating
  | some claimed =>
    if PENDING.isPrefixOf claimed.toList then
      if claimed.toList.drop PENDING.length ≠ fingerprint then
        .replied (.validationError "Idempotency-Key reused with a different request body" "Idempotency-Key")
      -- the request in flight is the same one: a second silence is created
      else .creating
    else .replied (.duplicate claimed)

/-- The store, the requests, and the silences that were really created, the latest first. -/
structure World (ι : Type) where
  store : ValkeyIdempotencyStore
  phase : ι → Phase
  created : List (ι × String)

/-- The next step of a request: the clock, the end of the command it awaits, and the answer of
    Alertmanager where it awaits that. -/
structure Op (ι : Type) where
  request : ι
  now : Nat
  answer : Answer
  response : Option HttpResponse

namespace World

variable {ι : Type} [DecidableEq ι]

def start (maxEntries : Nat) : World ι := ⟨⟨⟨.empty, maxEntries⟩, ⟨.empty⟩⟩, fun _ => .arrived, []⟩

def goTo (s : World ι) (i : ι) (phase : Phase) : World ι := { s with phase := Function.update s.phase i phase }

/-- A `SET` that was served, or failed after it was applied, has written. -/
def setValkey (store : ValkeyIdempotencyStore) (key value : String) (now : Nat) (answer : Answer) :
    ValkeyIdempotencyStore :=
  if answer = .failed false then store
  else { store with valkey := store.valkey.set key value IDEMPOTENCY_TTL_SECONDS now }

def mirror (store : ValkeyIdempotencyStore) (key value : String) (now : Nat) : ValkeyIdempotencyStore :=
  { store with inMemoryFallback := store.inMemoryFallback.fulfill key value IDEMPOTENCY_TTL_SECONDS now }

def step (requests : ι → SilenceRequest) (s : World ι) (op : Op ι) : World ι :=
  let i := op.request
  let request := requests i
  match s.phase i with
  | .arrived =>
    match request.storeKey with
    | none => s.goTo i .creating
    | some key =>
      match s.store.inMemoryFallback.peekDegraded key op.now with
      | some unreconciled => s.goTo i (afterClaim request.fingerprint (some unreconciled))
      | none => s.goTo i (.setting key)
  | .setting key =>
    match s.store.valkey.get key op.now with
    | some _ => s.goTo i (if op.answer = .served then .getting key else .fallingBack key)
    | none =>
      { s with store := setValkey s.store key (placeholder request) op.now op.answer }.goTo i
        (if op.answer = Answer.served then .mirroring key else .fallingBack key)
  | .mirroring key => { s with store := mirror s.store key (placeholder request) op.now }.goTo i .creating
  | .getting key =>
    s.goTo i (if op.answer = .served then afterClaim request.fingerprint (s.store.valkey.get key op.now)
      else .fallingBack key)
  | .fallingBack key =>
    let (claimed, store) := s.store.claimFallback key (placeholder request) IDEMPOTENCY_TTL_SECONDS op.now
    { s with store := store }.goTo i (afterClaim request.fingerprint claimed)
  | .creating =>
    match createSilence op.response with
    | .error err => s.goTo i (.replied (mapSilenceMutationError err))
    | .ok silenceId =>
      { s with created := (i, silenceId) :: s.created }.goTo i
        (match request.storeKey with
        | none => .replied (.created silenceId)
        | some key => .fulfilling key silenceId)
  | .fulfilling key silenceId =>
    { s with store := setValkey s.store key silenceId op.now op.answer }.goTo i (.mirroringId key silenceId)
  | .mirroringId key silenceId =>
    { s with store := mirror s.store key silenceId op.now }.goTo i (.replied (.created silenceId))
  | .replied _ => s

def run (requests : ι → SilenceRequest) (s : World ι) (ops : List (Op ι)) : World ι := ops.foldl (step requests) s

/-- What the store tells the step of a request about its key. -/
def reading (requests : ι → SilenceRequest) (s : World ι) (op : Op ι) : Option String :=
  match s.phase op.request with
  | .arrived => (requests op.request).storeKey.bind fun key => s.store.inMemoryFallback.peekDegraded key op.now
  | .getting key => if op.answer = .served then s.store.valkey.get key op.now else none
  | .fallingBack key =>
    (s.store.claimFallback key (placeholder (requests op.request)) IDEMPOTENCY_TTL_SECONDS op.now).1
  | _ => none

end World

end narwhal.portal.alert_silence
