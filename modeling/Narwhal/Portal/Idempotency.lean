import Mathlib.Algebra.Ring.Defs
import Mathlib.Algebra.Ring.Nat
import Mathlib.Order.Lattice
import Mathlib.Order.Nat
import Narwhal.Lib.JsMap

open jslib

namespace narwhal.portal.idempotency

/-! ### The in-memory fallback -/

/-- `degraded` marks a claim made while Valkey was unavailable. Times are milliseconds of some clock. -/
structure FallbackEntry (τ : Type := Nat) where
  value : String
  expiresAt : τ
  degraded : Bool
deriving DecidableEq, Repr

structure InMemoryIdempotencyStore (τ : Type := Nat) where
  map : JsMap String (FallbackEntry τ)
  maxEntries : Nat := 5000

namespace InMemoryIdempotencyStore

/-- Drop the oldest entry. The source tests the key for truth, so the empty key stays. -/
def evictOldest {α : Type} (m : JsMap String α) : JsMap String α :=
  match m.firstKey with
  | some oldest => if oldest ≠ "" then m.delete oldest else m
  | none => m

variable {τ : Type} [LinearOrder τ]

def sweep (s : InMemoryIdempotencyStore τ) (now : τ) : InMemoryIdempotencyStore τ :=
  { s with map := s.map.filter fun entry => ¬ entry.2.expiresAt ≤ now }

variable [Semiring τ]

def setBounded (s : InMemoryIdempotencyStore τ) (key value : String) (ttlSeconds now : τ) (degraded : Bool) :
    InMemoryIdempotencyStore τ :=
  let s := s.sweep now
  let m := if ¬ s.map.has key ∧ s.maxEntries ≤ s.map.size then evictOldest s.map else s.map
  { s with map := m.set key ⟨value, now + ttlSeconds * 1000, degraded⟩ }

/-- When a claim made now runs out. -/
def expiry (ttlSeconds now : τ) : τ := now + ttlSeconds * 1000

/-- The reply is `none` where this call claimed the key. -/
def claim (s : InMemoryIdempotencyStore τ) (key value : String) (ttlSeconds now : τ) :
    Option String × InMemoryIdempotencyStore τ :=
  match s.map.get key with
  | some existing =>
    if now < existing.expiresAt then (some existing.value, s)
    else (none, s.setBounded key value ttlSeconds now true)
  | none => (none, s.setBounded key value ttlSeconds now true)

def fulfill (s : InMemoryIdempotencyStore τ) (key value : String) (ttlSeconds now : τ) : InMemoryIdempotencyStore τ :=
  s.setBounded key value ttlSeconds now false

omit [Semiring τ] in
/-- The value of a key claimed while Valkey was unavailable. -/
def peekDegraded (s : InMemoryIdempotencyStore τ) (key : String) (now : τ) : Option String :=
  match s.map.get key with
  | some existing => if existing.degraded ∧ now < existing.expiresAt then some existing.value else none
  | none => none

end InMemoryIdempotencyStore

/-! ### Valkey -/

/-- The keys Valkey holds, each with its value and the time it expires. -/
structure Valkey where
  data : JsMap String (String × Nat)

namespace Valkey

def get (v : Valkey) (key : String) (now : Nat) : Option String :=
  match v.data.get key with
  | some (value, expiresAt) => if now < expiresAt then some value else none
  | none => none

/-- `SET key value EX ttl`. -/
def set (v : Valkey) (key value : String) (ttlSeconds now : Nat) : Valkey :=
  ⟨v.data.set key (value, now + ttlSeconds * 1000)⟩

end Valkey

/-! ### The store over both -/

structure ValkeyIdempotencyStore where
  inMemoryFallback : InMemoryIdempotencyStore
  valkey : Valkey

/-- The clock and the connection during one call: when the fallback is first looked at, when
    the `SET` is sent, when the rest happens, and whether each command to Valkey succeeds. -/
structure Io where
  peeked : Nat
  sent : Nat
  now : Nat
  set_ok : Bool
  get_ok : Bool := true
deriving DecidableEq, Repr

namespace ValkeyIdempotencyStore

/-- The `catch` of `claim`. -/
def claimFallback (s : ValkeyIdempotencyStore) (key value : String) (ttlSeconds now : Nat) :
    Option String × ValkeyIdempotencyStore :=
  let (reply, fallback) := s.inMemoryFallback.claim key value ttlSeconds now
  (reply, { s with inMemoryFallback := fallback })

def claim (s : ValkeyIdempotencyStore) (key value : String) (ttlSeconds : Nat) (io : Io) :
    Option String × ValkeyIdempotencyStore :=
  match s.inMemoryFallback.peekDegraded key io.peeked with
  | some unreconciled => (some unreconciled, s)
  | none =>
    if ¬ io.set_ok then s.claimFallback key value ttlSeconds io.now
    else
      match s.valkey.get key io.sent with
      | none =>
        -- `SET … NX` answers `OK`
        (none,
          { inMemoryFallback := s.inMemoryFallback.fulfill key value ttlSeconds io.now
            valkey := s.valkey.set key value ttlSeconds io.sent })
      | some _ =>
        -- a `GET` that finds the key expired meanwhile answers `null`
        if io.get_ok then (s.valkey.get key io.now, s) else s.claimFallback key value ttlSeconds io.now

def fulfill (s : ValkeyIdempotencyStore) (key value : String) (ttlSeconds : Nat) (io : Io) :
    ValkeyIdempotencyStore :=
  { inMemoryFallback := s.inMemoryFallback.fulfill key value ttlSeconds io.now
    valkey := if io.set_ok then s.valkey.set key value ttlSeconds io.sent else s.valkey }

end ValkeyIdempotencyStore

/-! ### Runs -/

/-- A call on the store. -/
structure Call where
  key : String
  value : String
  ttlSeconds : Nat
  io : Io
deriving DecidableEq, Repr

inductive Op where
  | claim (call : Call)
  | fulfill (call : Call)
deriving DecidableEq, Repr

def Op.call : Op → Call
  | .claim call => call
  | .fulfill call => call

/-- A call that was made, with the reply of a claim. -/
structure Event where
  op : Op
  reply : Option String
deriving DecidableEq, Repr

/-- The store, and the calls made on it, the latest first. -/
structure World where
  store : ValkeyIdempotencyStore
  log : List Event

def World.step (s : World) (op : Op) : World :=
  match op with
  | .claim call =>
    let (reply, store) := s.store.claim call.key call.value call.ttlSeconds call.io
    ⟨store, ⟨.claim call, reply⟩ :: s.log⟩
  | .fulfill call =>
    ⟨s.store.fulfill call.key call.value call.ttlSeconds call.io, ⟨.fulfill call, none⟩ :: s.log⟩

/-- A new store in front of an empty Valkey. -/
def World.start (maxEntries : Nat) : World := ⟨⟨⟨.empty, maxEntries⟩, ⟨.empty⟩⟩, []⟩

def World.run (s : World) (ops : List Op) : World := ops.foldl World.step s

end narwhal.portal.idempotency
