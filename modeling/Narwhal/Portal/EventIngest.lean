import Narwhal.Lib.Fold
import Narwhal.Portal.Idempotency
import Narwhal.Portal.LiveStream

open jslib narwhal.portal.live_stream

namespace narwhal.portal.event_ingest

def MAX_INGEST_BODY_SIZE_BYTES : Nat := 64 * 1024

def MAX_TITLE_LENGTH : Nat := 256

def MAX_DESCRIPTION_LENGTH : Nat := 4096

def MAX_LINKS_COUNT : Nat := 10

def MAX_TOTAL_LINKS_SIZE_BYTES : Nat := 2048

def MAX_IDENTIFIER_LENGTH : Nat := 256

/-! ### Names -/

def typeName : LiveEventType → Text
  | .alert => "alert".toList
  | .deploy => "deploy".toList
  | .sync => "sync".toList
  | .node => "node".toList
  | .operation => "operation".toList
  | .custom => "custom".toList

def severityName : LiveSeverity → Text
  | .info => "info".toList
  | .success => "success".toList
  | .warning => "warning".toList
  | .error => "error".toList

def sourceName : LiveSource → Text
  | .alertmanager => "alertmanager".toList
  | .argocd => "argocd".toList
  | .kubernetes => "kubernetes".toList
  | .manual => "manual".toList

def visibilityName : LiveEventVisibility → Text
  | .system => "system".toList
  | .cluster => "cluster".toList
  | .namespace => "namespace".toList
  | .team => "team".toList

def VALID_TYPES : List LiveEventType := [.alert, .deploy, .sync, .node, .operation, .custom]

def VALID_SEVERITIES : List LiveSeverity := [.info, .success, .warning, .error]

def KNOWN_PRODUCERS : List LiveSource := [.alertmanager, .argocd, .kubernetes, .manual]

def VALID_VISIBILITY : List LiveEventVisibility := [.system, .cluster, .namespace, .team]

/-- `names.join(", ")` -/
def joinNames (names : List Text) : Text := ", ".toList.intercalate names

/-- The member of a list that a JSON value names: `all.includes(v)`. -/
def oneOf {α : Type} (name : α → Text) (all : List α) : Option Json → Option α
  | some (.str s) => all.find? fun a => name a = s
  | _ => none

/-! ### Secrets -/

/-- A text that JavaScript takes as true. -/
def given (s : Option Text) : Option Text := s.filter (· ≠ [])

def safeSecretCompare (provided expected : Text) : Bool :=
  provided ≠ [] && expected ≠ [] && provided = expected

def parseSecretList : Option Text → List Text
  | none => []
  | some val => if val = [] then [] else commaList val

/-- What is left of a character of `producer.toUpperCase()` after `.replace(/[^A-Z0-9]/g, "_")`.
    Most characters become one as long; those that do not are listed by their code. -/
def upperKept (c : Char) : Text :=
  if isLower c then [Char.ofNat (c.toNat - 32)]
  else if isUpper c || isDigit c then [c]
  else
    let n := c.toNat
    if n = 0xDF then "SS".toList
    else if n = 0x131 then "I".toList
    else if n = 0x149 then "_N".toList
    else if n = 0x17F then "S".toList
    else if n = 0x1F0 then "J_".toList
    else if n = 0x1E96 then "H_".toList
    else if n = 0x1E97 then "T_".toList
    else if n = 0x1E98 then "W_".toList
    else if n = 0x1E99 then "Y_".toList
    else if n = 0x1E9A then "A_".toList
    else if n = 0xFB00 then "FF".toList
    else if n = 0xFB01 then "FI".toList
    else if n = 0xFB02 then "FL".toList
    else if n = 0xFB03 then "FFI".toList
    else if n = 0xFB04 then "FFL".toList
    else if n = 0xFB05 ∨ n = 0xFB06 then "ST".toList
    else if n ∈ [0x390, 0x3B0, 0x1F52, 0x1F54, 0x1F56, 0x1FB7, 0x1FC7, 0x1FD2, 0x1FD3, 0x1FD7, 0x1FE2, 0x1FE3,
      0x1FE7, 0x1FF7] then "___".toList
    else if n ∈ [0x587, 0x1F50, 0x1FB2, 0x1FB3, 0x1FB4, 0x1FB6, 0x1FBC, 0x1FC2, 0x1FC3, 0x1FC4, 0x1FC6, 0x1FCC,
      0x1FD6, 0x1FE4, 0x1FE6, 0x1FF2, 0x1FF3, 0x1FF4, 0x1FF6, 0x1FFC] ∨ (0x1F80 ≤ n ∧ n ≤ 0x1FAF) ∨
      (0xFB13 ≤ n ∧ n ≤ 0xFB17) ∨ 0x10000 ≤ n then "__".toList
    else "_".toList

/-- The environment variables by their names. -/
abbrev Env := Text → Option Text

/-- The current and the old secrets of a producer. -/
def getProducerSecrets (env : Env) (producer : Text) : List Text :=
  let norm := producer.flatMap upperKept
  parseSecretList (env ("LIVE_INGEST_SECRET_".toList ++ norm)) ++
    parseSecretList (env ("LIVE_INGEST_SECRET_".toList ++ norm ++ "_OLD".toList))

def getGlobalSecrets (env : Env) : List Text :=
  parseSecretList (env "LIVE_INGEST_SECRET".toList) ++ parseSecretList (env "LIVE_INGEST_SECRET_OLD".toList)

structure ProducerAuthResult where
  authenticated : Bool
  producer : Text
  credentialScope : Text
  error : Text := []
deriving DecidableEq, Repr

def authenticateProducer (env : Env) (providedSecret : Text) (producerHint : Option Text) : ProducerAuthResult :=
  let failed (producer error : Text) : ProducerAuthResult := ⟨false, producer, "none".toList, error⟩
  let globalSecrets := getGlobalSecrets env
  let opens (secrets : List Text) : Bool := secrets.any fun s => safeSecretCompare providedSecret s
  if trimText providedSecret = [] then
    failed ((given producerHint).getD "unknown".toList) "Missing or empty ingest secret".toList
  else
    match given producerHint with
    | some hint =>
      let producerSecrets := getProducerSecrets env hint
      if producerSecrets ≠ [] then
        if opens producerSecrets then ⟨true, hint, "producer:".toList ++ hint, []⟩
        else failed hint ("Invalid secret for producer ".toList ++ hint)
      else if globalSecrets ≠ [] then
        if opens globalSecrets then ⟨true, hint, "global:".toList ++ hint, []⟩
        else failed hint "Invalid ingest secret".toList
      else failed hint "No ingest secrets configured on server".toList
    | none =>
      match KNOWN_PRODUCERS.find? fun p => opens (getProducerSecrets env (sourceName p)) with
      | some p => ⟨true, sourceName p, "producer:".toList ++ sourceName p, []⟩
      | none =>
        if opens globalSecrets then ⟨true, "shared".toList, "global:shared".toList, []⟩
        else failed "unknown".toList "Invalid ingest secret".toList

/-! ### Requests and replies -/

/-- The headers and the body; there is none where it cannot be read. -/
structure Request where
  contentLength : Option Text
  ingestSecret : Option Text
  producerId : Option Text
  ingestProducer : Option Text
  forwardedFor : Option Text
  body : Option Text

structure Url where
  protocol : Text
  hostname : Text
deriving DecidableEq, Repr

structure RateLimitResult where
  allowed : Bool
  limit : Text
  retryAfterSeconds : Option Text

/-- What the route has from outside: the environment, `JSON.parse`, `new URL` and the answer of
    the rate limiter to a key. -/
structure Server where
  env : Env
  parseJson : Text → Option Json
  parseUrl : Text → Option Url
  consume : Text → RateLimitResult

/-- A reply that nothing was done; `rateLimited` has the status 429 and the two texts in its headers. -/
inductive Refusal where
  | rejected (status : Nat) (error : Text) (message field : Option Text)
  | rateLimited (retryAfter limit : Text)
deriving DecidableEq, Repr

inductive Reply where
  | refused (refusal : Refusal)
  | duplicate (id producer : Text)
  | accepted (id producer credential_scope : Text)
deriving DecidableEq, Repr

def Refusal.bad (error : Text) : Refusal := .rejected 400 error none none

def Refusal.invalid (message field : Text) : Refusal := .rejected 400 "ValidationError".toList (some message) (some field)

/-! ### The checks of the body -/

/-- An object's fields. -/
abbrev Fields := List (Text × Json)

/-- `v[name]`; only an object has the fields that are asked for. -/
def member (v : Json) (name : String) : Option Json :=
  match v with
  | .obj fields => fields.lookup name.toList
  | _ => none

/-- `!!v` -/
def truthy : Option Json → Bool
  | none | some .null | some (.bool false) => false
  | some (.num n) => n.text ≠ ['0']
  | some (.str s) => s ≠ []
  | _ => true

/-- `typeof v === "object"` of a value that is not null -/
def isObject : Json → Bool
  | .arr _ | .obj _ => true
  | _ => false

def isString : Json → Bool
  | .str _ => true
  | _ => false

def isValidEventActor (v : Json) : Bool :=
  isObject v &&
    (match member v "id" with
      | some (.str id) => id ≠ []
      | _ => false) &&
    (oneOf id ["user".toList, "system".toList, "service".toList] (member v "type")).isSome &&
    (member v "displayName").all isString

/-- Every key is optional and must be a string when present. -/
def isValidEventResource (v : Json) : Bool :=
  isObject v && ["cluster", "namespace", "kind", "name", "workload"].all fun k => (member v k).all isString

/-- `h.toLowerCase()` as far as it can be equal to a host name, which has ASCII characters only. -/
def lowerHost (h : Text) : Text :=
  h.map fun c => if isUpper c then Char.ofNat (c.toNat + 32) else if c.toNat = 0x212A then 'k' else c

/-- The string, where it is an HTTP(S) URL at one of the hosts; else the message. -/
def assertHttpUrl (parseUrl : Text → Option Url) (v : Option Json) (allowedHosts : List Text) (field : Text) :
    Except Text Text :=
  let invalid (reason : String) : Except Text Text := .error ("invalid ".toList ++ field ++ ": ".toList ++ reason.toList)
  match v with
  | some (.str s) =>
    if s = [] ∨ 2048 < utf16Length s then invalid "must be a non-empty string (≤2048 chars)"
    else
      match parseUrl s with
      | none => invalid "not a valid URL"
      | some url =>
        if url.protocol ≠ "http:".toList ∧ url.protocol ≠ "https:".toList then invalid "only http(s) is allowed"
        else
          let host := lowerHost url.hostname
          let ok := allowedHosts.any fun h => host = lowerHost h || ('.' :: lowerHost h).isSuffixOf host
          if allowedHosts ≠ [] ∧ ¬ ok then invalid "host not in allowlist" else .ok s
  | _ => invalid "must be a non-empty string (≤2048 chars)"

def DEFAULT_LINK_HOSTS : List Text :=
  ["argocd.narwhal.local".toList, "alertmanager.narwhal.local".toList, "prometheus.narwhal.local".toList,
    "grafana.narwhal.local".toList, "narwhal.local".toList]

def ALLOWED_LINK_HOSTS (env : Env) : List Text :=
  let allowlist := commaList ((env "LIVE_INGEST_LINK_HOSTS".toList).getD [])
  if allowlist ≠ [] then allowlist else DEFAULT_LINK_HOSTS

/-- The links in order; what is not an object is passed over. -/
def checkLinks (s : Server) : List Json → Except Refusal (List (Text × Text))
  | [] => .ok []
  | link :: links =>
    if ¬ isObject link then checkLinks s links
    else
      match member link "label" with
      | some (.str label) =>
        if label = [] ∨ 200 < utf16Length label then
          .error (.invalid "link.label must be a non-empty string ≤200 chars".toList "links".toList)
        else
          match assertHttpUrl s.parseUrl (member link "href") (ALLOWED_LINK_HOSTS s.env) "link.href".toList with
          | .error message => .error (.invalid message "link.href".toList)
          | .ok href => do
            let rest ← checkLinks s links
            return (label, href) :: rest
      | _ => .error (.invalid "link.label must be a non-empty string ≤200 chars".toList "links".toList)

def checkAllLinks (s : Server) : Option Json → Except Refusal (Option (List (Text × Text)))
  | some (.arr links) =>
    if MAX_LINKS_COUNT < links.length then
      .error (.invalid ("links array must not exceed ".toList ++ natText MAX_LINKS_COUNT ++ " items".toList) "links".toList)
    else do
      let validatedLinks ← checkLinks s links
      if MAX_TOTAL_LINKS_SIZE_BYTES < (validatedLinks.map fun l => utf16Length l.1 + utf16Length l.2).sum then
        .error (.invalid ("total links payload size must not exceed ".toList ++ natText MAX_TOTAL_LINKS_SIZE_BYTES ++
          " bytes".toList) "links".toList)
      else return some validatedLinks
  | _ => .ok none

/-- The field is absent or a string of bounded length. -/
def optionalString (raw : Json) (field : String) : Except Refusal (Option Text) :=
  let invalid : Except Refusal (Option Text) :=
    .error (.invalid (field.toList ++ " must be a non-empty string ≤".toList ++ natText MAX_IDENTIFIER_LENGTH ++
      " chars when provided".toList) field.toList)
  match member raw field with
  | none | some .null => .ok none
  | some (.str v) => if v = [] ∨ MAX_IDENTIFIER_LENGTH < utf16Length v then invalid else .ok (some v)
  | some _ => invalid

def checkTitle (raw : Json) : Except Refusal Text :=
  match member raw "title" with
  | some (.str title) =>
    if trimText title = [] then .error (.bad "title must be a non-empty string".toList)
    else if MAX_TITLE_LENGTH < utf16Length title then
      .error (.invalid ("title must not exceed ".toList ++ natText MAX_TITLE_LENGTH ++ " characters".toList) "title".toList)
    else .ok title
  | _ => .error (.bad "title must be a non-empty string".toList)

def checkDescription (raw : Json) : Except Refusal Text :=
  let invalid : Except Refusal Text :=
    .error (.invalid ("description must be a string ≤".toList ++ natText MAX_DESCRIPTION_LENGTH ++ " characters".toList)
      "description".toList)
  match member raw "description" with
  | none | some .null => .ok []
  | some (.str description) => if MAX_DESCRIPTION_LENGTH < utf16Length description then invalid else .ok description
  | some _ => invalid

/-- A field that is absent, null or of the right shape. -/
def checkShape (raw : Json) (field : String) (valid : Json → Bool) (message : String) : Except Refusal (Option Json) :=
  match member raw field with
  | none | some .null => .ok none
  | some v => if valid v then .ok (some v) else .error (.invalid message.toList field.toList)

def checkResource (raw : Json) : Except Refusal (Option Json) :=
  checkShape raw "resource" isValidEventResource
    "resource must be an object with optional string fields cluster/namespace/kind/name/workload"

def checkActor (raw : Json) : Except Refusal (Option Json) :=
  checkShape raw "actor" isValidEventActor
    "actor must be \x7b id: string, type: 'user'|'system'|'service', displayName?: string \x7d"

/-- Unlike the fields before it, this one must not be null. -/
def checkVisibility (raw : Json) : Except Refusal (Option LiveEventVisibility) :=
  match member raw "visibility" with
  | none => .ok none
  | some v =>
    match oneOf visibilityName VALID_VISIBILITY (some v) with
    | some visibility => .ok (some visibility)
    | none =>
      .error (.invalid ("visibility must be one of: ".toList ++ joinNames (VALID_VISIBILITY.map visibilityName))
        "visibility".toList)

def checkRequired (raw : Json) : Except Refusal Unit :=
  let missingFields := ["type", "severity", "title", "source"].filter fun field => !truthy (member raw field)
  if missingFields ≠ [] then
    .error (.bad ("Missing required fields: ".toList ++ joinNames (missingFields.map String.toList)))
  else .ok ()

/-- A field that names a member of a list. -/
def checkName {α : Type} (name : α → Text) (all : List α) (raw : Json) (field : String) : Except Refusal α :=
  match oneOf name all (member raw field) with
  | some a => .ok a
  | none => .error (.bad ("Invalid ".toList ++ field.toList ++ ". Must be one of: ".toList ++ joinNames (all.map name)))

/-- The event of a body that passed the checks, without its id. -/
def checkBody (s : Server) (auth : ProducerAuthResult) (raw : Json) : Except Refusal Envelope := do
  checkRequired raw
  let type ← checkName typeName VALID_TYPES raw "type"
  let severity ← checkName severityName VALID_SEVERITIES raw "severity"
  let source ← checkName sourceName KNOWN_PRODUCERS raw "source"
  let title ← checkTitle raw
  let description ← checkDescription raw
  let resource ← checkResource raw
  let actor ← checkActor raw
  let visibility ← checkVisibility raw
  let correlation_id ← optionalString raw "correlation_id"
  let causation_id ← optionalString raw "causation_id"
  let operation_id ← optionalString raw "operation_id"
  let idempotency_key ← optionalString raw "idempotency_key"
  let source_event_id ← optionalString raw "source_event_id"
  if idempotency_key = none ∧ source_event_id = none then
    .error (.invalid "Ingest requires either idempotency_key or source_event_id for deduplication".toList
      "idempotency_key".toList)
  else do
    let links ← checkAllLinks s (member raw "links")
    return {
      type, severity, title, description, source, links, resource, actor, operation_id, correlation_id, causation_id
      request_id := none, idempotency_key, source_event_id, event_type := none, visibility
      producer := some auth.producer, credential_scope := some auth.credentialScope }

/-! ### The stages of a request -/

def tooLarge : Refusal :=
  .rejected 413 "Payload Too Large".toList
    (some ("Request body exceeds ".toList ++ natText MAX_INGEST_BODY_SIZE_BYTES ++ " bytes limit".toList)) none

/-- The object in the body. -/
def readBody (s : Server) (r : Request) : Except Refusal Json :=
  if ((given r.contentLength).bind parseInt).any (fun n => (MAX_INGEST_BODY_SIZE_BYTES : Int) < n) then .error tooLarge
  else
    match r.body with
    | none => .error (.bad "Invalid request body".toList)
    | some rawText =>
      if MAX_INGEST_BODY_SIZE_BYTES < utf8Length rawText then .error tooLarge
      else
        match s.parseJson rawText with
        | none => .error (.bad "Invalid JSON body".toList)
        | some (.obj fields) => .ok (.obj fields)
        | some _ => .error (.bad "Body must be a JSON object".toList)

/-- The producer header; an empty `X-Producer-Id` hides the other one. -/
def Request.headerProducer (r : Request) : Option Text := r.producerId.orElse fun _ => r.ingestProducer

def bodySource (raw : Json) : Option Text :=
  match member raw "source" with
  | some (.str source) => some source
  | _ => none

/-- Whether both name a producer, and not the same. -/
def mismatched (headerProducer bodySource : Option Text) : Bool :=
  match given headerProducer, given bodySource with
  | some header, some source => header ≠ source
  | _, _ => false

def authenticate (s : Server) (r : Request) (raw : Json) : Except Refusal ProducerAuthResult :=
  if mismatched r.headerProducer (bodySource raw) then
    .error (.rejected 403 "Forbidden".toList (some "Producer identity mismatch between header and body".toList) none)
  else
    let producerHint := (given r.headerProducer).orElse fun _ => bodySource raw
    let authResult := authenticateProducer s.env (r.ingestSecret.getD []) producerHint
    if authResult.authenticated then .ok authResult
    else .error (.rejected 401 "Unauthorized".toList (some authResult.error) none)

def limitRate (s : Server) (r : Request) (auth : ProducerAuthResult) : Except Refusal Unit :=
  let ip := (given (r.forwardedFor.map fun h => trimText (h.takeWhile (· ≠ ',')))).getD "127.0.0.1".toList
  let rateResult := s.consume (auth.producer ++ ':' :: ip)
  if rateResult.allowed then .ok ()
  else .error (.rateLimited (rateResult.retryAfterSeconds.getD "1".toList) rateResult.limit)

/-- All that comes before the key is claimed: a refusal, or the producer and the event. -/
def validate (s : Server) (r : Request) : Except Refusal (ProducerAuthResult × Envelope) := do
  let raw ← readBody s r
  let auth ← authenticate s r raw
  limitRate s r auth
  let envelope ← checkBody s auth raw
  return (auth, envelope)

/-! ### Claiming and pushing -/

/-- The id of an event before it is pushed: five groups of hexadecimal digits. -/
def isUuid (id : Text) : Bool :=
  let groups := id.splitOn '-'
  groups.map List.length == [8, 4, 4, 4, 12] && groups.all fun g => g.all fun c => isDigit c || ('a' ≤ c && c ≤ 'f')

/-- What `randomUUID` returns. -/
abbrev Uuid := { id : Text // isUuid id = true }

/-- What a request is deduplicated by, with its source. -/
inductive DedupKey where
  | idempotencyKey (key : Text)
  | sourceEvent (id : Text)
deriving DecidableEq, Repr

def dedupOf (envelope : Envelope) : LiveSource × DedupKey :=
  match envelope.idempotency_key with
  | some key => (envelope.source, .idempotencyKey key)
  | none => (envelope.source, .sourceEvent (envelope.source_event_id.getD "undefined".toList))

def idempotencyKey : LiveSource × DedupKey → Text
  | (source, .idempotencyKey key) => "idempotency:".toList ++ (sourceName source ++ ':' :: key)
  | (source, .sourceEvent id) => "source-event:".toList ++ (sourceName source ++ ':' :: id)

def IDEMPOTENCY_TTL_SECONDS : Nat := 24 * 60 * 60

def idempotencyStoreKey (key : Text) : String := String.ofList ("events:idempotency:".toList ++ key)

def claimIdempotencyKey (store : idempotency.ValkeyIdempotencyStore) (key value : Text) (io : idempotency.Io) :
    Option String × idempotency.ValkeyIdempotencyStore :=
  store.claim (idempotencyStoreKey key) (String.ofList value) IDEMPOTENCY_TTL_SECONDS io

/-- What one process and the two databases hold. -/
structure Portal where
  store : idempotency.ValkeyIdempotencyStore
  process : Process
  valkey : Valkey

/-- A new process in front of an empty Valkey. -/
def Portal.start : Portal := ⟨⟨⟨.empty, 5000⟩, ⟨.empty⟩⟩, ⟨0, [], none⟩, ⟨0, [], []⟩⟩

/-- How the calls to Valkey go during one request. -/
structure Io where
  claim : idempotency.Io
  now : Nat
  incrOk : Bool
  pipeline : Pipeline

/-- The id another request claimed the key with. An empty one is as good as none. -/
def existingId (reply : Option String) : Option Text := given (reply.map String.toList)

def POST (s : Server) (r : Request) (eventId : Uuid) (io : Io) (p : Portal) : Reply × Portal :=
  match validate s r with
  | .error refusal => (.refused refusal, p)
  | .ok (auth, envelope) =>
    let (reply, store) := claimIdempotencyKey p.store (idempotencyKey (dedupOf envelope)) eventId.val io.claim
    match existingId reply with
    | some existing => (.duplicate existing auth.producer, { p with store })
    | none =>
      -- `pushEvent` catches what Valkey throws, so the reply with status 500 is never given
      let (event, process, valkey) := pushEvent p.process p.valkey ⟨envelope, some eventId.val⟩ io.now io.incrOk io.pipeline
      (.accepted event.id auth.producer auth.credentialScope, ⟨store, process, valkey⟩)

end narwhal.portal.event_ingest
