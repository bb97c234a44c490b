import Narwhal.Lib.JsJson

open jslib

namespace narwhal.portal.live_stream

/-! ### Events -/

inductive LiveEventType where
  | alert | deploy | sync | node | operation | custom
deriving DecidableEq, Repr

inductive LiveSeverity where
  | info | success | warning | error
deriving DecidableEq, Repr

inductive LiveSource where
  | alertmanager | argocd | kubernetes | manual
deriving DecidableEq, Repr

inductive LiveEventVisibility where
  | system | cluster | namespace | team
deriving DecidableEq, Repr

/-- What an event takes over from its producer; `none` is `null`. -/
structure Envelope where
  type : LiveEventType
  severity : LiveSeverity
  title : Text
  description : Text
  source : LiveSource
  links : Option (List (Text × Text))
  resource : Option Json
  actor : Option Json
  operation_id : Option Text
  correlation_id : Option Text
  causation_id : Option Text
  request_id : Option Text
  idempotency_key : Option Text
  source_event_id : Option Text
  event_type : Option Text
  visibility : Option LiveEventVisibility
  producer : Option Text
  credential_scope : Option Text

structure LiveEventIngest extends Envelope where
  id : Option Text

structure LiveEvent extends Envelope where
  id : Text
  timestamp : Nat

/-! ### The rings -/

def LIVE_EVENT_RETENTION : Nat := 1000

/-- What one portal process holds; the ring has its newest event first. -/
structure Process where
  sequence : Nat
  memoryRing : List LiveEvent
  degradedReason : Option Text

/-- What Valkey holds for all processes. The channel is the list of the messages published so
    far: a subscriber has received those after its start. -/
structure Valkey where
  counter : Nat
  ring : List LiveEvent
  channel : List LiveEvent

def markDegraded (p : Process) : Process := { p with degradedReason := some "persistence_failure".toList }

def markHealthy (p : Process) : Process := { p with degradedReason := none }

/-- Put an event in front of a ring and drop what is over its bound. -/
def retain (event : LiveEvent) (ring : List LiveEvent) : List LiveEvent := (event :: ring).take LIVE_EVENT_RETENTION

/-- `/^\d+$/` -/
def isNumericId (id : Text) : Bool := id ≠ [] && id.all isDigit

def idValue (id : Text) : Nat := Nat.ofDigitChars 10 id 0

/-- The start of `pushEvent`: the id, from Valkey's counter or from the process's own, and the
    event in the process's ring. -/
def beginPush (p : Process) (v : Valkey) (ingest : LiveEventIngest) (now : Nat) (incrOk : Bool) :
    LiveEvent × Process × Valkey :=
  if incrOk then
    let event : LiveEvent := ⟨ingest.toEnvelope, natText (v.counter + 1), now⟩
    (event, { p with memoryRing := retain event p.memoryRing }, { v with counter := v.counter + 1 })
  else
    let p := markDegraded p
    let id := "d-".toList ++ natText now ++ "-".toList ++ natText (p.sequence + 1)
    let event : LiveEvent := ⟨ingest.toEnvelope, id, now⟩
    (event, { p with sequence := p.sequence + 1, memoryRing := retain event p.memoryRing }, v)

/-- Which commands of the pipeline succeed. -/
structure Pipeline where
  lpush : Bool
  ltrim : Bool
  publish : Bool
deriving DecidableEq, Repr

def Pipeline.ok : Pipeline := ⟨true, true, true⟩

/-- The pipeline that ends `pushEvent`. -/
def finishPush (p : Process) (v : Valkey) (event : LiveEvent) (pipeline : Pipeline) : Process × Valkey :=
  let pushed := if pipeline.lpush then event :: v.ring else v.ring
  let v : Valkey :=
    { v with
      ring := if pipeline.ltrim then pushed.take LIVE_EVENT_RETENTION else pushed
      channel := if pipeline.publish then v.channel ++ [event] else v.channel }
  (if pipeline = .ok then (if isNumericId event.id then markHealthy p else p) else markDegraded p, v)

def pushEvent (p : Process) (v : Valkey) (ingest : LiveEventIngest) (now : Nat) (incrOk : Bool) (pipeline : Pipeline) :
    LiveEvent × Process × Valkey :=
  let (event, p, v) := beginPush p v ingest now incrOk
  let (p, v) := finishPush p v event pipeline
  (event, p, v)

/-! ### Replay -/

/-- The newest events, from Valkey or, where it does not answer, from the process. -/
def getRecentEvents (p : Process) (v : Valkey) (limit : Nat) (readOk : Bool) : List LiveEvent × Process :=
  if readOk then (v.ring.take limit, markHealthy p) else (p.memoryRing.take limit, markDegraded p)

structure ReplayResult where
  events : List LiveEvent
  gap : Bool
  unknown : Bool

def compareLiveEventIds (left right : Text) : Option Ordering :=
  if isNumericId left ∧ isNumericId right then some (compare (idValue left) (idValue right)) else none

/-- The events after an id, the oldest first. -/
def replayAfter (p : Process) (v : Valkey) (lastId : Text) (readOk : Bool) : ReplayResult × Process :=
  let localOrdered := p.memoryRing.reverse
  match localOrdered.findIdx? (·.id = lastId) with
  | some localIndex => (⟨localOrdered.drop (localIndex + 1), false, false⟩, p)
  | none =>
    -- an id of another process that had no counter
    if "d-".toList.isPrefixOf lastId then (⟨[], false, true⟩, p)
    else
      let (newestFirst, p) := getRecentEvents p v LIVE_EVENT_RETENTION readOk
      let ordered := (newestFirst.filter fun event => isNumericId event.id).reverse
      let unknown : ReplayResult := ⟨[], false, true⟩
      match ordered.getLast?, ordered.head? with
      | some newest, some oldest =>
        match compareLiveEventIds lastId newest.id, compareLiveEventIds lastId oldest.id with
        | some newestComparison, some oldestComparison =>
          if newestComparison = .gt then (unknown, p)
          else if oldestComparison = .lt then (⟨[], true, false⟩, p)
          else
            match ordered.findIdx? (·.id = lastId) with
            | some index => (⟨ordered.drop (index + 1), false, false⟩, p)
            | none => (unknown, p)
        | _, _ => (unknown, p)
      | _, _ => (unknown, p)

/-! ### Ids from the counter -/

@[simp] theorem isNumericId_natText (n : Nat) : isNumericId (natText n) = true := by
  simp only [isNumericId, Bool.and_eq_true, decide_eq_true_eq, List.all_eq_true]
  exact ⟨natText_ne_nil n, fun c hc => isDigit_of_mem_natText hc⟩

@[simp] theorem idValue_natText (n : Nat) : idValue (natText n) = n := by
  rw [idValue, natText_eq_toDigits, Nat.ofDigitChars_toDigits]
  all_goals decide

end narwhal.portal.live_stream
