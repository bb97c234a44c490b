import Mathlib.Logic.Function.Basic

namespace readthrough

/-! A function with a cache in front of it. An answer is kept under the key of its arguments, and a
stamp beside it under a second key. -/

/-- What a key holds. -/
inductive Held (α : Type) where
  | answer (a : α)
  | stamp
deriving DecidableEq

structure Cached (ι κ α : Type) where
  key : ι → κ
  stampKey : κ → κ
  /-- Whether a call comes as far as the cache. -/
  admits : ι → Bool
  compute : ι → α
  /-- What is read of an answer that was written. -/
  stored : α → α
  /-- Whether the answer that is computed is written. -/
  keeps : ι → Bool

namespace Cached

variable {ι κ α : Type} [DecidableEq κ]

def write (c : Cached ι κ α) (i : ι) (cache : κ → Option (Held α)) : κ → Option (Held α) :=
  Function.update (Function.update cache (c.key i) (some (.answer (c.stored (c.compute i))))) (c.stampKey (c.key i)) (some .stamp)

/-- A call: what it returns, and the cache after it. Where `landed` is false, its write is lost. -/
def call (c : Cached ι κ α) (landed : Bool) (cache : κ → Option (Held α)) (i : ι) :
    Held α × (κ → Option (Held α)) :=
  if c.admits i then
    match cache (c.key i) with
    | some held => (held, cache)
    | none => (.answer (c.compute i), if landed && c.keeps i then c.write i cache else cache)
  else (.answer (c.compute i), cache)

/-- After the first call the second one returns what it returns on an empty cache. -/
def Transparent (c : Cached ι κ α) (i j : ι) : Prop :=
  ∀ landed, (c.call landed (c.call landed (fun _ => none) i).2 j).1 = (c.call landed (fun _ => none) j).1

theorem call_empty (c : Cached ι κ α) (landed : Bool) (i : ι) :
    c.call landed (fun _ => none) i =
      (.answer (c.compute i), if c.admits i && (landed && c.keeps i) then c.write i fun _ => none else fun _ => none) := by
  cases hadmits : c.admits i <;> simp [call, hadmits]

/-- Where two calls share a key, what is read of the first answer has to be the second one; and no call
    may have the key of a stamp. -/
theorem transparent_iff (c : Cached ι κ α) (i j : ι) :
    c.Transparent i j ↔
      (c.admits i = true → c.keeps i = true → c.admits j = true →
        c.stampKey (c.key i) ≠ c.key j ∧ (c.key i = c.key j → c.stored (c.compute i) = c.compute j)) := by
  have hcache : ∀ cache : κ → Option (Held α), (c.call true cache j).1 =
      if c.admits j then (cache (c.key j)).getD (.answer (c.compute j)) else .answer (c.compute j) := by
    intro cache
    cases hadmits : c.admits j with
    | false => simp [call, hadmits]
    | true => cases hheld : cache (c.key j) <;> simp [call, hadmits, hheld]
  have hlost : (c.call false (c.call false (fun _ => none) i).2 j).1 = (c.call false (fun _ => none) j).1 := by
    simp [call_empty]
  have hlanded : c.Transparent i j ↔
      (c.call true (c.call true (fun _ => none) i).2 j).1 = .answer (c.compute j) := by
    constructor
    · intro h
      rw [h true, call_empty]
    · intro h landed
      cases landed with
      | false => exact hlost
      | true => rw [h, call_empty]
  rw [hlanded, hcache, call_empty]
  cases hi : c.admits i with
  | false => simp
  | true =>
    cases hkeeps : c.keeps i with
    | false => simp
    | true =>
      cases hj : c.admits j with
      | false => simp
      | true =>
        simp only [Bool.true_and, if_true, true_implies]
        by_cases hs : c.stampKey (c.key i) = c.key j
        · refine iff_of_false ?_ fun h => h.1 hs
          rw [write, hs, Function.update_self]
          simp
        · rw [write, Function.update_of_ne (Ne.symm hs)]
          by_cases hkey : c.key i = c.key j
          · rw [hkey, Function.update_self]
            simp [hkey ▸ hs]
          · rw [Function.update_of_ne (Ne.symm hkey)]
            simp [hs, hkey]

end Cached

end readthrough
