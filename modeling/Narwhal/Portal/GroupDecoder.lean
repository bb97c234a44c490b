import Narwhal.Lib.JsParse
import Narwhal.Portal.GroupAttributes

open jslib

namespace narwhal.portal.keycloak_client

section

-- `numeral` reads a number of a JSON text
variable (numeral : Text → Option Number)

/-- One value is read as JSON where it is JSON, and is a string otherwise; several stay a list. -/
def decodeValue : List Text → Json
  | [v] => (parseJson numeral v).getD (.str v)
  | v => .arr (v.map .str)

/-- `attributes[k] = value` on an object that starts without keys: `__proto__` adds none. -/
def decodeEntry (attributes : JsMap Text Json) (k : Text) (v : List Text) : JsMap Text Json :=
  if k = PROTO then attributes else attributes.set k (decodeValue numeral v)

/-- The attributes of a group in `getGroupsDetailed`. -/
def decodeAttributes (g : Group) : JsMap Text Json :=
  g.held.entries.foldl (fun attributes entry => decodeEntry numeral attributes entry.1 entry.2) .empty

/-- The group answers the attributes that it was given, and its other ones as before. -/
structure RoundTrips (before after : Group) (attributes : JsMap Text Json) : Prop where
  given : ∀ k v, attributes.get k = some v → (decodeAttributes numeral after).get k = some v
  others : ∀ k, attributes.get k = none → (decodeAttributes numeral after).get k = (decodeAttributes numeral before).get k

end

section

variable {σ : Type}

/-- The server after one call that succeeds. -/
def updated (api : GroupApi σ) (attributes : JsMap Text Json) (server : σ) : σ :=
  let call := updateGroupAttributes api fun (_ : Unit) => attributes
  call.write (call.update () (call.read server)) server

/-- The listing gives a group with the attributes that a GET answers. -/
def GroupApi.Lists (api : GroupApi σ) (list : σ → Group) : Prop :=
  ∀ server k, (list server).held.get k = (api.get server).held.get k

end

/-! ### The decoder -/

section

variable {numeral : Text → Option Number}

theorem get_decodeEntry (attributes : JsMap Text Json) (key k : Text) (v : List Text) :
    (decodeEntry numeral attributes key v).get k =
      if k = key ∧ key ≠ PROTO then some (decodeValue numeral v) else attributes.get k := by
  by_cases hproto : key = PROTO
  · rw [decodeEntry, if_pos hproto, if_neg fun h => h.2 hproto]
  · rw [decodeEntry, if_neg hproto, JsMap.get_set]
    simp only [ne_eq, hproto, not_false_iff, and_true]

theorem get_decodeAll_of_not_mem {entries : List (Text × List Text)} (attributes : JsMap Text Json) {k : Text}
    (hk : k ∉ entries.map Prod.fst) :
    (entries.foldl (fun attributes entry => decodeEntry numeral attributes entry.1 entry.2) attributes).get k =
      attributes.get k := by
  induction entries generalizing attributes with
  | nil => rfl
  | cons entry rest ih =>
    simp only [List.map_cons, List.mem_cons, not_or] at hk
    rw [List.foldl_cons, ih _ hk.2, get_decodeEntry, if_neg fun h => hk.1 h.1]

theorem get_decodeAll_of_mem {entries : List (Text × List Text)} (hnodup : (entries.map Prod.fst).Nodup)
    (attributes : JsMap Text Json) {k : Text} {v : List Text} (hmem : (k, v) ∈ entries) (hk : k ≠ PROTO) :
    (entries.foldl (fun attributes entry => decodeEntry numeral attributes entry.1 entry.2) attributes).get k =
      some (decodeValue numeral v) := by
  induction entries generalizing attributes with
  | nil => cases hmem
  | cons entry rest ih =>
    obtain ⟨hkey, hrest⟩ := List.nodup_cons.mp hnodup
    rw [List.foldl_cons]
    obtain rfl | hmem := List.mem_cons.mp hmem
    · rw [get_decodeAll_of_not_mem _ hkey, get_decodeEntry, if_pos ⟨rfl, hk⟩]
    · exact ih hrest _ hmem

theorem get_decodeAll_proto (entries : List (Text × List Text)) (attributes : JsMap Text Json) :
    (entries.foldl (fun attributes entry => decodeEntry numeral attributes entry.1 entry.2) attributes).get PROTO =
      attributes.get PROTO := by
  induction entries generalizing attributes with
  | nil => rfl
  | cons entry rest ih =>
    rw [List.foldl_cons, ih, get_decodeEntry, if_neg]
    rintro ⟨hkey, hproto⟩
    exact hproto hkey.symm

/-- Each attribute is decoded on its own, but for `__proto__`, which is lost. -/
theorem get_decodeAttributes (g : Group) (k : Text) :
    (decodeAttributes numeral g).get k = if k = PROTO then none else (g.held.get k).map (decodeValue numeral) := by
  by_cases hk : k = PROTO
  · subst hk
    rw [if_pos rfl]
    exact get_decodeAll_proto g.held.entries .empty
  · rw [if_neg hk]
    cases hget : g.held.get k with
    | some v => exact get_decodeAll_of_mem g.held.nodup .empty (JsMap.mem_of_get hget) hk
    | none =>
      apply get_decodeAll_of_not_mem
      intro hmem
      obtain ⟨⟨k', v⟩, hentry, rfl⟩ := List.mem_map.mp hmem
      rw [JsMap.get_of_mem hentry] at hget
      cases hget

theorem decodeValue_stringify {v : Json} (hv : v.Proper numeral) : decodeValue numeral [stringify v] = v := by
  rw [decodeValue, parseJson_stringify hv, Option.getD_some]

/-- What the encoder writes is read back, unless it is a string that is JSON. -/
theorem decodeValue_attributeValue {v : Json} (hv : v.Proper numeral) :
    decodeValue numeral (attributeValue v) = v ↔ ∀ s, v = .str s → parseJson numeral s = none := by
  cases v with
  | str s =>
    constructor
    · intro h t ht
      cases ht
      change (parseJson numeral s).getD (.str s) = .str s at h
      cases hparse : parseJson numeral s with
      | none => rfl
      | some w =>
        rw [hparse, Option.getD_some] at h
        exact absurd (h ▸ hparse) (parseJson_ne_self s)
    · intro h
      change (parseJson numeral s).getD (.str s) = .str s
      rw [h s rfl, Option.getD_none]
  | _ => exact iff_of_true (decodeValue_stringify hv) fun s hs => by cases hs

/-! ### The round trip -/

variable {σ : Type} {api : GroupApi σ} {list : σ → Group}

theorem get_held_updated (hput : api.Replaces) (attributes : JsMap Text Json) (server : σ) (k : Text) :
    (api.get (updated api attributes server)).held.get k =
      match attributes.get k with
      | some v => if k = PROTO ∧ (api.get server).held.get k = none then none else some (attributeValue v)
      | none => (api.get server).held.get k :=
  get_held_put hput () (api.get server) server k

/-- An update is read back exactly if it does not name `__proto__` and none of its strings is a JSON
    text; the attributes that it does not name are always decoded as before. -/
theorem attributes_round_trip_iff (hput : api.Replaces) (hlist : api.Lists list) (attributes : JsMap Text Json)
    (hproper : ∀ k v, attributes.get k = some v → v.Proper numeral) (server : σ) :
    RoundTrips numeral (list server) (list (updated api attributes server)) attributes ↔
      attributes.get PROTO = none ∧ ∀ k s, attributes.get k = some (.str s) → parseJson numeral s = none := by
  have hdecoded : ∀ k v, attributes.get k = some v → k ≠ PROTO →
      (decodeAttributes numeral (list (updated api attributes server))).get k =
        some (decodeValue numeral (attributeValue v)) := by
    intro k v hv hk
    rw [get_decodeAttributes, if_neg hk, hlist, get_held_updated hput, hv]
    dsimp only
    rw [if_neg fun h => hk h.1, Option.map_some]
  constructor
  · intro h
    have hproto : attributes.get PROTO = none := by
      cases hv : attributes.get PROTO with
      | none => rfl
      | some v =>
        have hgiven := h.given PROTO v hv
        rw [get_decodeAttributes, if_pos rfl] at hgiven
        cases hgiven
    refine ⟨hproto, fun k s hs => ?_⟩
    have hk : k ≠ PROTO := by
      rintro rfl
      rw [hproto] at hs
      cases hs
    have hgiven := (hdecoded k _ hs hk).symm.trans (h.given k _ hs)
    exact (decodeValue_attributeValue (hproper k _ hs)).mp (Option.some.inj hgiven) s rfl
  · rintro ⟨hproto, hstrings⟩
    constructor
    · intro k v hv
      have hk : k ≠ PROTO := by
        rintro rfl
        rw [hproto] at hv
        cases hv
      have hback := (decodeValue_attributeValue (hproper k v hv)).mpr fun s hs => hstrings k s (hs ▸ hv)
      rw [hdecoded k v hv hk, hback]
    · intro k hk
      rw [get_decodeAttributes, get_decodeAttributes, hlist, hlist, get_held_updated hput, hk]

end

/-- The numbers without sign, fraction and exponent. -/
def wholeNumeral (s : Text) : Option Number :=
  if h : s ≠ [] ∧ s.all isNumberChar = true ∧ s.all isDigit = true ∧ s.head? ≠ some '0' then
    some ⟨s, h.1, List.all_eq_true.mp h.2.1⟩
  else none

def sampleAttributes : JsMap Text Json :=
  ⟨[(['e', 'n', 'v'], .str ['p', 'r', 'o', 'd']), (['s', 'i', 'z', 'e'], .arr [.bool true, .str ['1']])], by simp⟩

theorem sampleAttributes_round_trip :
    RoundTrips wholeNumeral sampleGroup (updated sampleApi sampleAttributes sampleGroup) sampleAttributes := by
  have hproper : ∀ k v, sampleAttributes.get k = some v → v.Proper wholeNumeral := by
    intro k v hv
    have hmem := JsMap.mem_of_get hv
    simp only [sampleAttributes, List.mem_cons, Prod.mk.injEq, List.not_mem_nil, or_false] at hmem
    obtain ⟨-, rfl⟩ | ⟨-, rfl⟩ := hmem
    · trivial
    · exact ⟨trivial, trivial, trivial⟩
  have hstrings : ∀ k s, sampleAttributes.get k = some (.str s) → parseJson wholeNumeral s = none := by
    intro k s hs
    have hmem := JsMap.mem_of_get hs
    simp only [sampleAttributes, List.mem_cons, Prod.mk.injEq, Json.str.injEq, reduceCtorEq, and_false,
      List.not_mem_nil, or_false] at hmem
    rw [hmem.2]
    rfl
  have hlist : sampleApi.Lists id := fun _ _ => rfl
  exact (attributes_round_trip_iff sampleApi_replaces hlist sampleAttributes hproper sampleGroup).mpr ⟨rfl, hstrings⟩

/-- The string `123` comes back as a number. -/
theorem string_numeral_becomes_number :
    ¬ RoundTrips wholeNumeral sampleGroup
      (updated sampleApi ⟨[(['z', 'i', 'p'], .str ['1', '2', '3'])], by simp⟩ sampleGroup)
      ⟨[(['z', 'i', 'p'], .str ['1', '2', '3'])], by simp⟩ := by
  intro h
  have hnumber : ∃ n, (decodeAttributes wholeNumeral
      (updated sampleApi ⟨[(['z', 'i', 'p'], .str ['1', '2', '3'])], by simp⟩ sampleGroup)).get ['z', 'i', 'p'] =
        some (.num n) := ⟨_, rfl⟩
  obtain ⟨n, hn⟩ := hnumber
  have hgiven := hn.symm.trans (h.given ['z', 'i', 'p'] (.str ['1', '2', '3']) rfl)
  exact Json.noConfusion (Option.some.inj hgiven)

end narwhal.portal.keycloak_client
