import Narwhal.Lib.JsText
import Narwhal.Lib.Run

open jslib

namespace narwhal.portal.informer

/-! ### Watch events -/

/-- The object of a watch event or of a list. `code` is that of a `Status`, which the
    informer does not look at. -/
structure K8sEvent where
  uid : Option String
  resourceVersion : Option String
  reason : Option String
  message : Option String
  type : Option String
  involvedObject : Option (Option String × Option String × Option String)
  code : Option Nat
deriving DecidableEq, Repr

/-- One line of a watch stream; `none` is a missing object. -/
structure WatchEvent where
  type : String
  object : Option K8sEvent
deriving DecidableEq, Repr

/-! ### The relist -/

def PAGE_SIZE : Nat := 100

def MAX_PAGES : Nat := 100

/-- The body of a list page. `none` is an absent value, and for `continue` the inner `none`
    is a value that is not a string. -/
structure PageBody where
  items : Option (List K8sEvent)
  resourceVersion : Option String
  continue_ : Option (Option String)
deriving DecidableEq, Repr

/-- What the server answers to one page request. -/
inductive PageAnswer where
  | threw (message : String)
  | status (code : Nat)
  | body (body : PageBody)
deriving DecidableEq, Repr

structure Snapshot where
  resourceVersion : String
  items : List K8sEvent
deriving DecidableEq, Repr

/-- The checks on one page: its items, its resource version, and the next cursor. -/
def PageBody.check (body : PageBody) : Option (List K8sEvent × String × String) :=
  match body.items, body.resourceVersion.filter (· ≠ ""), body.continue_ with
  | some items, some resourceVersion, none =>
    if items.length ≤ PAGE_SIZE then some (items, resourceVersion, "") else none
  | some items, some resourceVersion, some (some cursor) =>
    if items.length ≤ PAGE_SIZE then some (items, resourceVersion, cursor) else none
  | _, _, _ => none

/-- The page loop, with the number of pages still allowed. -/
def resyncPages (answers : Nat → PageAnswer) (cursors : List String) (resourceVersion : String)
    (items : List K8sEvent) : Nat → Except String Snapshot
  | 0 => .error "resync events page limit exceeded"
  | left + 1 =>
    match answers (MAX_PAGES - (left + 1)) with
    | .threw message => .error message
    | .status code => .error ("resync events " ++ toString code)
    | .body body =>
      match body.check with
      | none => .error "resync events invalid bounded list"
      | some (more, pageVersion, cursor) =>
        if resourceVersion ≠ "" ∧ resourceVersion ≠ pageVersion then .error "resync events snapshot changed"
        else if cursor = "" then .ok ⟨pageVersion, items ++ more⟩
        else if cursor ∈ cursors then .error "resync events repeated cursor"
        else resyncPages answers (cursor :: cursors) pageVersion (items ++ more) left

def listEventsForResync (answers : Nat → PageAnswer) : Except String Snapshot :=
  resyncPages answers [] "" [] MAX_PAGES

/-! ### The watch reader -/

def WATCH_BUFFER_LIMIT : Nat := 1024 * 1024

structure Reader where
  buf : Text
  skippingOversizedLine : Bool
  rv : String
deriving DecidableEq, Repr

section Reader

-- `JSON.parse` of a line and the fields the informer reads; `none` where it throws.
variable (parse : Text → Option WatchEvent)

/-- One complete line: the position after it, and what is passed to `ingestK8sEvent`. -/
def handleLine (rv : String) (line : Text) : String × List (Option K8sEvent) :=
  if trimText line = [] then (rv, [])
  else
    match parse (trimText line) with
    | none => (rv, [])
    | some evt =>
      (((evt.object.bind K8sEvent.resourceVersion).filter (· ≠ "")).getD rv,
        if evt.type = "ADDED" then [evt.object] else [])

def handleLines (rv : String) : List Text → String × List (Option K8sEvent)
  | [] => (rv, [])
  | line :: lines =>
    let (rv, passed) := handleLine parse rv line
    let (rv, more) := handleLines rv lines
    (rv, passed ++ more)

/-- What follows the first line feed. -/
def afterNewline : Text → Option Text
  | [] => none
  | c :: rest => if c = '\n' then some rest else afterNewline rest

/-- Drain the complete lines of the buffer, then bound the unfinished one. -/
def drainBuffer (rv : String) (buf : Text) : Reader × List (Option K8sEvent) :=
  let (lines, rest) := splitLines buf
  let (rv, passed) := handleLines parse rv lines
  if WATCH_BUFFER_LIMIT < utf16Length rest then (⟨[], true, rv⟩, passed) else (⟨rest, false, rv⟩, passed)

/-- One chunk of the stream. -/
def Reader.read (r : Reader) (chunk : Text) : Reader × List (Option K8sEvent) :=
  let buf := r.buf ++ chunk
  if r.skippingOversizedLine then
    match afterNewline buf with
    | none => (⟨[], true, r.rv⟩, [])
    | some buf => drainBuffer parse r.rv buf
  else drainBuffer parse r.rv buf

end Reader

/-! ### The loop -/

/-- Where the loop waits. -/
inductive Phase where
  | acquiring
  | standby
  | listing
  | resyncing
  /-- in `resyncAfterGone`, while `ingestK8sEvent` has an item, before the items that are left -/
  | ingesting (left : List K8sEvent) (resourceVersion : String)
  | opening
  | reading (reader : Reader)
  | backingOff
  /-- in `finally`; the flag says whether a `break` led there -/
  | releasing (breaks : Bool)
  | exited
deriving DecidableEq, Repr

/-- What can be observed of a run. -/
inductive Event where
  /-- the API server answered the watch request with status 410 -/
  | expired
  /-- `listEventsForResync` returned -/
  | relisted (snapshot : Snapshot)
  /-- `ingestK8sEvent` was called -/
  | passed (event : Option K8sEvent)
  /-- the watch request was sent -/
  | opened (resourceVersion : String)
  /-- the list of the latest event returned -/
  | listed (resourceVersion : String)
deriving DecidableEq, Repr

/-- The variables of the loop, `signal.aborted` as `stopped` and `watchController.signal.aborted`
    as `watchAborted`; then the text of each stream so far, the latest first, and the log. -/
structure Loop where
  phase : Phase
  rv : String
  backoff : Nat
  wasOwner : Bool
  resyncDueTo410 : Bool
  leaseHeld : Bool
  watchAborted : Bool
  stopped : Bool
  streams : List Text
  log : List Event
deriving DecidableEq, Repr

inductive LeaseOutcome where
  | held
  | refused
  | unavailable
deriving DecidableEq, Repr

/-- The answer to a list or watch request. -/
inductive Answer (α : Type) where
  | ok (a : α)
  | status (code : Nat)
  | threw (message : String)
deriving DecidableEq, Repr

inductive Op where
  /-- the stop signal is aborted -/
  | abort
  /-- a renewal of the lease ends, and says whether the lease is still held -/
  | renewed (ok : Bool)
  | lease (outcome : LeaseOutcome)
  /-- a timer the loop sleeps on fires -/
  | wake
  | listed (answer : Answer String)
  | resynced (answers : Nat → PageAnswer)
  /-- `ingestK8sEvent` ends for an item of the snapshot, with the message it throws or without -/
  | ingested (throws : Option String)
  | opened (answer : Answer Unit)
  | chunk (text : Text)
  | closed
  | readError (message : String)
  | released

/-- What a request rejects with when its signal is aborted. `fetchWithPolicy` has its own text for it;
    the `catch` reads neither. -/
def ABORTED : String := "This operation was aborted"

/-- The message of the error thrown for a response that is not `ok`. -/
def statusMessage (what path : String) (code : Nat) : String :=
  if code = 401 ∨ code = 403 then
    "K8s API " ++ toString code ++ ": " ++ path ++
      "; check projected service account token file (K8S_SA_TOKEN_FILE) and Kubernetes RBAC"
  else what ++ " " ++ toString code

namespace Loop

/-- The head of the loop. -/
def head (s : Loop) : Loop := { s with phase := if s.stopped then .exited else .acquiring }

/-- The check before the watch, and the watch request. -/
def proceed (s : Loop) : Loop :=
  if s.stopped ∨ s.watchAborted then { s with phase := .releasing true }
  else { s with phase := .opening, log := s.log ++ [.opened s.rv] }

/-- The start of the `try`. -/
def begin (s : Loop) : Loop :=
  if s.rv = "0" then { s with phase := if s.resyncDueTo410 then .resyncing else .listing } else s.proceed

/-- The `catch`. -/
def fail (s : Loop) (message : String) : Loop :=
  if s.stopped then { s with phase := .releasing true }
  else if s.watchAborted then { s with phase := .releasing false }
  else if includes message "410" then { s with phase := .releasing false, rv := "0", resyncDueTo410 := true }
  else { s with phase := .backingOff }

/-- The normal end of the list or of the relist. -/
def position (s : Loop) (rv : String) : Loop := { s with rv := rv, resyncDueTo410 := false }.proceed

def acquire (s : Loop) : LeaseOutcome → Loop
  | .refused => { s with phase := .standby, wasOwner := false, resyncDueTo410 := false }
  | .unavailable => { s with wasOwner := false, leaseHeld := false, watchAborted := false }.begin
  | .held =>
    { s with rv := if s.wasOwner then s.rv else "0", wasOwner := true, leaseHeld := true, watchAborted := false }.begin

/-- The `for` of `resyncAfterGone`, which does not look at the signal. -/
def ingest (s : Loop) (items : List K8sEvent) (resourceVersion : String) : Loop :=
  match items with
  | [] => s.position resourceVersion
  | item :: left => { s with phase := .ingesting left resourceVersion, log := s.log ++ [.passed (some item)] }

/-- `listEventsForResync` passes the signal to its requests. -/
def resync (s : Loop) (answers : Nat → PageAnswer) : Loop :=
  if s.watchAborted then s.fail ABORTED
  else
    match listEventsForResync answers with
    | .error message => s.fail message
    | .ok snapshot =>
      { s with log := s.log ++ [Event.relisted snapshot] }.ingest snapshot.items snapshot.resourceVersion

def ingested (s : Loop) (left : List K8sEvent) (resourceVersion : String) : Option String → Loop
  | none => s.ingest left resourceVersion
  | some message => s.fail message

def open_ (s : Loop) (answer : Answer Unit) : Loop :=
  if s.watchAborted then s.fail ABORTED
  else
    match answer with
    | .ok () => { s with phase := .reading ⟨[], false, s.rv⟩, streams := [] :: s.streams }
    | .status code =>
      { s with log := s.log ++ if code = 410 then [Event.expired] else [] }.fail
        (statusMessage "watch events" "/api/v1/events?watch=1" code)
    | .threw message => s.fail message

/-- The text is added to the stream that is being read. -/
def receive (s : Loop) (text : Text) : List Text :=
  match s.streams with
  | [] => []
  | stream :: streams => (stream ++ text) :: streams

def list (s : Loop) (answer : Answer String) : Loop :=
  if s.watchAborted then s.fail ABORTED
  else
    match answer with
    | .ok rv => { s with log := s.log ++ [Event.listed rv] }.position rv
    | .status code => s.fail (statusMessage "list events" "/api/v1/events?limit=1" code)
    | .threw message => s.fail message

/-- The normal end of a watch. -/
def finishWatch (s : Loop) (reader : Reader) : Loop :=
  { s with phase := .releasing false, rv := reader.rv, backoff := 1000 }

/-- The listener on the stop signal is there from the lease to the `finally`. -/
def listening (s : Loop) : Bool :=
  match s.phase with
  | .listing | .resyncing | .ingesting _ _ | .opening | .reading _ | .backingOff => true
  | _ => false

/-- One event of the environment; one that the loop does not wait for changes nothing. -/
def step (parse : Text → Option WatchEvent) (s : Loop) (op : Op) : Loop :=
  match op, s.phase with
  | .abort, _ => if s.stopped then s else { s with stopped := true, watchAborted := s.watchAborted || s.listening }
  | .renewed ok, _ => if s.leaseHeld ∧ s.listening ∧ ¬ ok then { s with watchAborted := true } else s
  | .lease outcome, .acquiring => s.acquire outcome
  | .wake, .standby => s.head
  | .wake, .backingOff =>
    if s.stopped then { s with phase := .releasing true }
    else { s with phase := .releasing false, backoff := min (s.backoff * 2) 30000 }
  | .listed answer, .listing => s.list answer
  | .resynced answers, .resyncing => s.resync answers
  | .ingested throws, .ingesting left resourceVersion => s.ingested left resourceVersion throws
  | .opened answer, .opening => s.open_ answer
  | .chunk text, .reading reader =>
    if s.watchAborted then s.finishWatch reader
    else
      let (reader, passed) := reader.read parse text
      { s with phase := .reading reader, streams := s.receive text, log := s.log ++ passed.map .passed }
  | .closed, .reading reader => s.finishWatch reader
  | .readError message, .reading _ => s.fail message
  | .released, .releasing breaks => if breaks then { s with phase := .exited } else s.head
  | _, _ => s

/-- `startLiveK8sInformer`, before the first lease. -/
def start : Loop := ⟨.acquiring, "0", 1000, false, false, false, false, false, [], []⟩

def run (parse : Text → Option WatchEvent) (s : Loop) (ops : List Op) : Loop := ops.foldl (step parse) s

end Loop

/-- What one event of the environment can do to the loop. -/
inductive Loop.Takes (parse : Text → Option WatchEvent) (s : Loop) : Op → Loop → Prop where
  | idle (op : Op) (hingested : ∀ throws left resourceVersion, op = .ingested throws →
      s.phase ≠ .ingesting left resourceVersion) : Takes parse s op s
  | abort : Takes parse s .abort { s with stopped := true, watchAborted := s.watchAborted || s.listening }
  | lost (hheld : s.leaseHeld = true) (hlistening : s.listening = true) :
      Takes parse s (.renewed false) { s with watchAborted := true }
  | lease (outcome : LeaseOutcome) (hphase : s.phase = .acquiring) :
      Takes parse s (.lease outcome) (s.acquire outcome)
  | awake (hphase : s.phase = .standby) : Takes parse s .wake s.head
  | quit (hphase : s.phase = .backingOff) (hstopped : s.stopped = true) :
      Takes parse s .wake { s with phase := .releasing true }
  | retry (hphase : s.phase = .backingOff) (hstopped : s.stopped = false) :
      Takes parse s .wake { s with phase := .releasing false, backoff := min (s.backoff * 2) 30000 }
  | listed (answer : Answer String) (hphase : s.phase = .listing) : Takes parse s (.listed answer) (s.list answer)
  | resynced (answers : Nat → PageAnswer) (hphase : s.phase = .resyncing) :
      Takes parse s (.resynced answers) (s.resync answers)
  | ingested (throws : Option String) (left : List K8sEvent) (resourceVersion : String)
      (hphase : s.phase = .ingesting left resourceVersion) :
      Takes parse s (.ingested throws) (s.ingested left resourceVersion throws)
  | opened (answer : Answer Unit) (hphase : s.phase = .opening) : Takes parse s (.opened answer) (s.open_ answer)
  | cancelled (text : Text) (reader : Reader) (hphase : s.phase = .reading reader) (haborted : s.watchAborted = true) :
      Takes parse s (.chunk text) (s.finishWatch reader)
  | chunk (text : Text) (reader : Reader) (hphase : s.phase = .reading reader) :
      Takes parse s (.chunk text)
        { s with
          phase := .reading (reader.read parse text).1
          streams := s.receive text
          log := s.log ++ (reader.read parse text).2.map .passed }
  | closed (reader : Reader) (hphase : s.phase = .reading reader) : Takes parse s .closed (s.finishWatch reader)
  | readError (message : String) (reader : Reader) (hphase : s.phase = .reading reader) :
      Takes parse s (.readError message) (s.fail message)
  | broke (hphase : s.phase = .releasing true) : Takes parse s .released { s with phase := .exited }
  | looped (hphase : s.phase = .releasing false) : Takes parse s .released s.head

theorem Loop.step_takes (parse : Text → Option WatchEvent) (s : Loop) (op : Op) : s.Takes parse op (s.step parse op) := by
  unfold Loop.step
  split
  · split
    · exact .idle _ (by simp)
    · exact .abort
  · split
    · next h =>
      obtain ⟨hheld, hlistening, hok⟩ := h
      rw [Bool.not_eq_true] at hok
      subst hok
      exact .lost hheld hlistening
    · exact .idle _ (by simp)
  · next hphase => exact .lease _ hphase
  · next hphase => exact .awake hphase
  · next hphase =>
    split
    · next hstopped => exact .quit hphase hstopped
    · next hstopped => exact .retry hphase (Bool.not_eq_true _ ▸ hstopped)
  · next hphase => exact .listed _ hphase
  · next hphase => exact .resynced _ hphase
  · next hphase => exact .ingested _ _ _ hphase
  · next hphase => exact .opened _ hphase
  · next hphase =>
    split
    · next haborted => exact .cancelled _ _ hphase haborted
    · exact .chunk _ _ hphase
  · next hphase => exact .closed _ hphase
  · next hphase => exact .readError _ _ hphase
  · next hphase =>
    split
    · next hbreaks => exact .broke (hbreaks ▸ hphase)
    · next hbreaks => exact .looped ((Bool.not_eq_true _ ▸ hbreaks : _ = false) ▸ hphase)
  · next hingested _ _ _ _ _ => exact .idle _ fun throws left rv hop hphase => hingested throws left rv hop hphase

end narwhal.portal.informer
