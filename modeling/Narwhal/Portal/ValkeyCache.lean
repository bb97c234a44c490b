import Narwhal.Lib.JsDate
import Narwhal.Lib.JsParse
import Narwhal.Portal.CacheKeys

open jslib narwhal.portal.cache_keys

namespace narwhal.portal.valkey

/-! ### The server -/

structure Entry where
  value : Text
  expiresAt : Nat
deriving DecidableEq

/-- The keys that Valkey holds. -/
abbrev Data := Text → Option Entry

namespace Data

def empty : Data := fun _ => none

/-- `DEL` or `UNLINK`. -/
def remove (data : Data) (keys : List Text) : Data := fun key => if keys.contains key then none else data key

/-- `SET key value EX ttl`; Valkey refuses a time to live of zero. -/
def set (data : Data) (key value : Text) (ttlSeconds now : Nat) : Data := fun k =>
  if k = key ∧ 0 < ttlSeconds then some ⟨value, now + ttlSeconds * 1000⟩ else data k

def get (data : Data) (key : Text) (now : Nat) : Option Text :=
  match data key with
  | some entry => if now < entry.expiresAt then some entry.value else none
  | none => none

end Data

/-- What becomes of a command: Valkey answers it, or the client gives it up, and Valkey may have
    carried it out. -/
inductive Answer where
  | served
  | failed (applied : Bool)
deriving DecidableEq

/-- The data after a command that changes it so. -/
def Answer.apply (answer : Answer) (data changed : Data) : Data :=
  match answer with
  | .served => changed
  | .failed applied => if applied then changed else data

/-! ### The cache client -/

/-- The module's flag, and the data of the server. -/
structure Cache where
  isValkeyConnected : Bool
  data : Data

structure CachedValue where
  value : Json
  cachedAt : Option Text
  /-- the age in milliseconds -/
  age : Option Nat

def isNull : Json → Bool
  | .null => true
  | _ => false

namespace Cache

/-- The handler of a `connect` or an `error` event. -/
def onEvent (s : Cache) (connected : Bool) : Cache := { s with isValkeyConnected := connected }

/-- The client's `catch`. -/
def disable (s : Cache) : Cache := { s with isValkeyConnected := false }

/-- The reply to a miss is `null`. -/
def cacheGet (numeral : Text → Option Number) (s : Cache) (key : Text) (now : Nat) (answer : Answer) : Json × Cache :=
  if ¬ s.isValkeyConnected then (.null, s)
  else
    match answer with
    | .failed _ => (.null, s.disable)
    | .served =>
      match s.data.get key now with
      | none => (.null, s)
      | some val =>
        if val = [] then (.null, s)
        else
          match parseJson numeral val with
          | some value => (value, s)
          | none => (.null, s.disable)

/-- The time in the metadata, where it is one. -/
def cachedAtOf (engine : Text → Option Int) (metadata : Json) : Option (Text × Int) :=
  match metadata with
  | .obj fields =>
    match fields.lookup "cachedAt".toList with
    | some (.str cachedAt) => (dateParse engine cachedAt).map fun t => (cachedAt, t)
    | _ => none
  | _ => none

def cachedValue (engine : Text → Option Int) (value metadata : Json) (now : Nat) : CachedValue :=
  match cachedAtOf engine metadata with
  | some (cachedAt, t) => ⟨value, some cachedAt, some (now - t).toNat⟩
  | none => ⟨value, none, none⟩

def cacheGetWithMeta (numeral : Text → Option Number) (engine : Text → Option Int) (s : Cache) (key : Text) (now : Nat)
    (answer : Answer) : Option CachedValue × Cache :=
  if ¬ s.isValkeyConnected then (none, s)
  else
    match answer with
    | .failed _ => (none, s.disable)
    | .served =>
      match s.data.get key now with
      | none => (none, s)
      | some val =>
        match parseJson numeral val with
        | none => (none, s.disable)
        | some value =>
          if isNull value then (none, s)
          else
            -- a missing sibling is read as `null`
            match ((s.data.get (metaKey key) now).map (parseJson numeral)).getD (some .null) with
            | none => (none, s.disable)
            | some metadata => (some (cachedValue engine value metadata now), s)

/-- The metadata written next to a value. -/
def metadataAt (now : Nat) : Json := .obj [("cachedAt".toList, .str (isoText now))]

/-- One transaction writes the key and its sibling. -/
def cacheSet (s : Cache) (key : Text) (value : Json) (ttlSeconds now : Nat) (answer : Answer) : Cache :=
  if ¬ s.isValkeyConnected then s
  else
    let changed := (s.data.set key (stringify value) ttlSeconds now).set (metaKey key) (stringify (metadataAt now))
      ttlSeconds now
    { isValkeyConnected := answer = .served, data := answer.apply s.data changed }

/-- The flag tells that a failure was logged. -/
def cacheDel (s : Cache) (key : Text) (answer : Answer) : Cache × Bool :=
  if ¬ s.isValkeyConnected then (s, false)
  else
    let changed := s.data.remove [key, metaKey key]
    ({ isValkeyConnected := answer = .served, data := answer.apply s.data changed }, answer ≠ .served)

end Cache

end narwhal.portal.valkey
