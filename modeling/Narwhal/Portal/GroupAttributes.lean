import Narwhal.Lib.JsJson
import Narwhal.Lib.JsMap
import Narwhal.Lib.ReadWrite

open jslib readwrite
open pylib (Allowed)

namespace narwhal.portal.keycloak_client

/-- A group's attributes, each with its values. -/
abbrev Attributes := JsMap Text (List Text)

/-- A group as Keycloak answers it. -/
structure Group where
  rest : List (Text × Json)
  attributes : Option Attributes

/-- `group.attributes ?? {}`. -/
def Group.held (group : Group) : Attributes := group.attributes.getD .empty

def PROTO : Text := ['_', '_', 'p', 'r', 'o', 't', 'o', '_', '_']

/-- `kcAttributes[k] = value`: unless the object has it as a key of its own, `__proto__` names the
    prototype and adds no key. -/
def assign (kcAttributes : Attributes) (k : Text) (value : List Text) : Attributes :=
  if k = PROTO ∧ kcAttributes.get k = none then kcAttributes else kcAttributes.set k value

def attributeValue : Json → List Text
  | .str v => [v]
  | v => [stringify v]

def kcAttributes (group : Group) (attributes : JsMap Text Json) : Attributes :=
  attributes.entries.foldl (fun kcAttributes entry => assign kcAttributes entry.1 (attributeValue entry.2)) group.held

/-- The admin API for one group: what a GET answers and what a PUT does. -/
structure GroupApi (σ : Type) where
  get : σ → Group
  put : Group → σ → σ

/-- After a PUT the group has the attributes of its body. -/
def GroupApi.Replaces {σ : Type} (api : GroupApi σ) : Prop :=
  ∀ group attributes server k, group.attributes = some attributes →
    (api.get (api.put group server)).held.get k = attributes.get k

/-- The body of the PUT is the group as it was read, with the attributes of the call set. -/
def updateGroupAttributes {σ ι : Type} (api : GroupApi σ) (calls : ι → JsMap Text Json) : Access σ Group ι where
  read := api.get
  write := api.put
  update i group := { group with attributes := some (kcAttributes group (calls i)) }

/-! ### One call -/

theorem get_assign (kcAttributes : Attributes) (key k : Text) (value : List Text) :
    (assign kcAttributes key value).get k =
      if k = key ∧ ¬ (key = PROTO ∧ kcAttributes.get key = none) then some value else kcAttributes.get k := by
  by_cases hproto : key = PROTO ∧ kcAttributes.get key = none
  · rw [assign, if_pos hproto, if_neg fun h => h.2 hproto]
  · rw [assign, if_neg hproto, JsMap.get_set]
    simp only [hproto, not_false_iff, and_true]

/-- The loop over the entries of a call leaves every other attribute. -/
theorem get_assignAll_of_not_mem {entries : List (Text × Json)} (held : Attributes) {k : Text}
    (hk : k ∉ entries.map Prod.fst) :
    (entries.foldl (fun kcAttributes entry => assign kcAttributes entry.1 (attributeValue entry.2)) held).get k =
      held.get k := by
  induction entries generalizing held with
  | nil => rfl
  | cons entry rest ih =>
    simp only [List.map_cons, List.mem_cons, not_or] at hk
    rw [List.foldl_cons, ih _ hk.2, get_assign, if_neg fun h => hk.1 h.1]

theorem get_assignAll_of_mem {entries : List (Text × Json)} (hnodup : (entries.map Prod.fst).Nodup) (held : Attributes)
    {k : Text} {v : Json} (hmem : (k, v) ∈ entries) :
    (entries.foldl (fun kcAttributes entry => assign kcAttributes entry.1 (attributeValue entry.2)) held).get k =
      if k = PROTO ∧ held.get k = none then none else some (attributeValue v) := by
  induction entries generalizing held with
  | nil => cases hmem
  | cons entry rest ih =>
    obtain ⟨hkey, hrest⟩ := List.nodup_cons.mp hnodup
    rw [List.foldl_cons]
    obtain rfl | hmem := List.mem_cons.mp hmem
    · rw [get_assignAll_of_not_mem _ hkey, get_assign]
      by_cases hproto : k = PROTO ∧ held.get k = none
      · rw [if_neg fun h => h.2 hproto, if_pos hproto, hproto.2]
      · rw [if_pos ⟨rfl, hproto⟩, if_neg hproto]
    · have hne : k ≠ entry.1 := fun h => hkey (h ▸ List.mem_map_of_mem hmem)
      have hother : (assign held entry.1 (attributeValue entry.2)).get k = held.get k := by
        rw [get_assign, if_neg fun h => hne h.1]
      rw [ih hrest _ hmem, hother]

/-- An attribute of the call gets its value, and every other one stays as it was read. -/
theorem get_kcAttributes (group : Group) (attributes : JsMap Text Json) (k : Text) :
    (kcAttributes group attributes).get k =
      match attributes.get k with
      | some v => if k = PROTO ∧ group.held.get k = none then none else some (attributeValue v)
      | none => group.held.get k := by
  cases hget : attributes.get k with
  | some v => exact get_assignAll_of_mem attributes.nodup group.held (JsMap.mem_of_get hget)
  | none =>
    apply get_assignAll_of_not_mem
    intro hmem
    obtain ⟨⟨k', v⟩, hentry, rfl⟩ := List.mem_map.mp hmem
    rw [JsMap.get_of_mem hentry] at hget
    cases hget

/-! ### Any number of calls -/

section

variable {ι : Type}

/-- No two calls set the same attribute. -/
def DisjointCalls (calls : ι → JsMap Text Json) : Prop :=
  ∀ i j k v, i ≠ j → (calls i).get k = some v → (calls j).get k = none

/-- The attributes of the calls have their new values, and every other one is as it was. -/
structure Kept (initial : Attributes) (calls : ι → JsMap Text Json) (final : Attributes) : Prop where
  updated : ∀ i k v, (calls i).get k = some v → final.get k = some (attributeValue v)
  untouched : ∀ k, (∀ i, (calls i).get k = none) → final.get k = initial.get k

/-- A call that sets `__proto__` finds an attribute of that name in the group. -/
def ProtoKnown (initial : Attributes) (calls : ι → JsMap Text Json) : Prop :=
  ∀ i v, (calls i).get PROTO = some v → initial.get PROTO ≠ none

/-- The attributes are those of the start, with those of the carried calls set. -/
structure Carries (initial : Attributes) (calls : ι → JsMap Text Json) (carried : List ι) (group : Group) : Prop where
  updated : ∀ i ∈ carried, ∀ k v, (calls i).get k = some v → group.held.get k = some (attributeValue v)
  untouched : ∀ k, (∀ i ∈ carried, (calls i).get k = none) → group.held.get k = initial.get k

variable {σ : Type} {api : GroupApi σ} {calls : ι → JsMap Text Json} {initial : Attributes}

/-- What a GET answers after the PUT of a call. -/
theorem get_held_put (hput : api.Replaces) (i : ι) (group : Group) (server : σ) (k : Text) :
    ((updateGroupAttributes api calls).read
        ((updateGroupAttributes api calls).write ((updateGroupAttributes api calls).update i group) server)).held.get k =
      match (calls i).get k with
      | some v => if k = PROTO ∧ group.held.get k = none then none else some (attributeValue v)
      | none => group.held.get k :=
  (hput _ _ server k rfl).trans (get_kcAttributes group (calls i) k)

theorem Carries.put (hput : api.Replaces) (hdisjoint : DisjointCalls calls) (hproto : ProtoKnown initial calls) (i : ι)
    (group : Group) (seen : List ι) (server : σ) (h : Carries initial calls seen group) :
    Carries initial calls (i :: seen) ((updateGroupAttributes api calls).read
      ((updateGroupAttributes api calls).write ((updateGroupAttributes api calls).update i group) server)) := by
  constructor
  · intro j hj k v hv
    rw [get_held_put hput]
    by_cases hij : j = i
    · subst hij
      have hknown : ¬ (k = PROTO ∧ group.held.get k = none) := by
        rintro ⟨rfl, hnone⟩
        -- no carried call sets it, so the group has it from the start
        have huntouched : ∀ j' ∈ seen, (calls j').get PROTO = none := by
          intro j' hj'
          cases hv' : (calls j').get PROTO with
          | none => rfl
          | some v' => rw [h.updated j' hj' PROTO v' hv'] at hnone; cases hnone
        exact hproto j v hv ((h.untouched PROTO huntouched).symm.trans hnone)
      simp only [hv, hknown, if_false]
    · have hnone : (calls i).get k = none := hdisjoint j i k v hij hv
      simp only [hnone]
      exact h.updated j ((List.mem_cons.mp hj).resolve_left hij) k v hv
  · intro k hk
    rw [get_held_put hput, hk i List.mem_cons_self]
    exact h.untouched k fun j hj => hk j (List.mem_cons_of_mem i hj)

/-- A group without an attribute `__proto__` never gets one. -/
theorem proto_put (hput : api.Replaces) (i : ι) (group : Group) (server : σ) (h : group.held.get PROTO = none) :
    ((updateGroupAttributes api calls).read ((updateGroupAttributes api calls).write
      ((updateGroupAttributes api calls).update i group) server)).held.get PROTO = none := by
  rw [get_held_put hput, h]
  cases (calls i).get PROTO <;> simp

variable [DecidableEq ι]

/-- After a run the group keeps its promises exactly if `__proto__` is set only where it is an
    attribute already, and each call that the group does not go back to wrote what was there. -/
theorem kept_iff_carried (hput : api.Replaces) (hdisjoint : DisjointCalls calls) (server : σ) (ops : List (Op ι)) :
    Kept (api.get server).held calls
        (api.get ((World.start server).run (updateGroupAttributes api calls) ops).store).held ↔
      ProtoKnown (api.get server).held calls ∧
      ∀ i ∉ ((World.start server).run (updateGroupAttributes api calls) ops).carried, ∀ k v,
        (calls i).get k = some v → (api.get server).held.get k = some (attributeValue v) := by
  by_cases hproto : ProtoKnown (api.get server).held calls
  · have hcarries := World.lineage_run (updateGroupAttributes api calls)
      (Carries (api.get server).held calls) server
      ⟨fun _ hi => absurd hi List.not_mem_nil, fun _ _ => rfl⟩
        (fun i group seen server h => h.put hput hdisjoint hproto i group seen server) ops
    refine ⟨fun h => ⟨hproto, fun i hi k v hv => ?_⟩, fun h => ⟨fun i k v hv => ?_, fun k hk => ?_⟩⟩
    · have huntouched := hcarries.untouched k fun j hj => hdisjoint i j k v (fun hij => hi (hij ▸ hj)) hv
      exact huntouched.symm.trans (h.updated i k v hv)
    · by_cases hi : i ∈ ((World.start server).run (updateGroupAttributes api calls) ops).carried
      · exact hcarries.updated i hi k v hv
      · have huntouched := hcarries.untouched k fun j hj => hdisjoint i j k v (fun hij => hi (hij ▸ hj)) hv
        exact huntouched.trans (h.2 i hi k v hv)
    · exact hcarries.untouched k fun i _ => hk i
  · refine iff_of_false (fun h => hproto fun i v hv hnone => ?_) fun h => hproto h.1
    have hnever := World.lineage_run (updateGroupAttributes api calls)
      (fun _ group => group.held.get PROTO = none) server hnone
      (fun i group _ server h => proto_put hput i group server h) ops
    have hupdated := h.updated i PROTO v hv
    exact absurd (hnever.symm.trans hupdated) (by simp)

/-- Once all calls have returned, on a group that each of them changes, the group keeps its
    promises exactly if no PUT landed between the GET and the PUT of another call. -/
theorem kept_iff_undisturbed (hput : api.Replaces) (hdisjoint : DisjointCalls calls) (server : σ) (ops : List (Op ι))
    (hreturned : ∀ i, ((World.start server).run (updateGroupAttributes api calls) ops).calls i = .returned)
    (hchanges : ∀ i, ∃ k v, (calls i).get k = some v ∧ (api.get server).held.get k ≠ some (attributeValue v)) :
    Kept (api.get server).held calls
        (api.get ((World.start server).run (updateGroupAttributes api calls) ops).store).held ↔
      ProtoKnown (api.get server).held calls ∧
      Allowed (World.step (updateGroupAttributes api calls)) World.Undisturbed (World.start server) ops := by
  have hcomplete := World.complete_run_iff (updateGroupAttributes api calls)
    (World.tracked_start server) ops fun i hi => absurd hi (World.not_landed_of_ready rfl)
  rw [kept_iff_carried hput hdisjoint server ops, ← hcomplete]
  apply and_congr_right
  intro _
  constructor
  · intro hcarried i _
    by_contra hi
    obtain ⟨k, v, hv, hne⟩ := hchanges i
    exact hne (hcarried i hi k v hv)
  · intro hall i hi
    exact absurd (hall i (.inl (hreturned i))) hi

/-- Concurrent updates of different attributes are all kept exactly if every call that the group
    does not go back to in the end wrote what was there at the start; where each call changes
    something, exactly if no PUT lands between the GET and the PUT of another call. -/
theorem updates_kept_iff (hput : api.Replaces) (hdisjoint : DisjointCalls calls) (server : σ) (ops : List (Op ι))
    (hreturned : ∀ i, ((World.start server).run (updateGroupAttributes api calls) ops).calls i = .returned) :
    (Kept (api.get server).held calls
        (api.get ((World.start server).run (updateGroupAttributes api calls) ops).store).held ↔
      ProtoKnown (api.get server).held calls ∧
      ∀ i ∉ ((World.start server).run (updateGroupAttributes api calls) ops).carried, ∀ k v,
        (calls i).get k = some v → (api.get server).held.get k = some (attributeValue v)) ∧
    ((∀ i, ∃ k v, (calls i).get k = some v ∧ (api.get server).held.get k ≠ some (attributeValue v)) →
      (Kept (api.get server).held calls
          (api.get ((World.start server).run (updateGroupAttributes api calls) ops).store).held ↔
        ProtoKnown (api.get server).held calls ∧
        Allowed (World.step (updateGroupAttributes api calls)) World.Undisturbed (World.start server) ops)) :=
  ⟨kept_iff_carried hput hdisjoint server ops, kept_iff_undisturbed hput hdisjoint server ops hreturned⟩

end

/-- A server that keeps the group as it is put. -/
def sampleApi : GroupApi Group := ⟨id, fun group _ => group⟩

theorem sampleApi_replaces : sampleApi.Replaces := by
  intro group attributes server k h
  simp [sampleApi, Group.held, h]

def sampleGroup : Group := ⟨[], some ⟨[(['t', 'i', 'e', 'r'], [['1']])], by simp⟩⟩

/-- One call sets `env`, the other `team`. -/
def sampleCalls : Bool → JsMap Text Json
  | false => ⟨[(['e', 'n', 'v'], .str ['p', 'r', 'o', 'd'])], by simp⟩
  | true => ⟨[(['t', 'e', 'a', 'm'], .str ['s', 'r', 'e'])], by simp⟩

theorem sampleCalls_disjoint : DisjointCalls sampleCalls := by
  have hget : ∀ i k v, (sampleCalls i).get k = some v → k = if i then ['t', 'e', 'a', 'm'] else ['e', 'n', 'v'] := by
    intro i k v hv
    have hmem := JsMap.mem_of_get hv
    cases i <;> simpa [sampleCalls] using congrArg Prod.fst (List.mem_singleton.mp hmem)
  intro i j k v hij hv
  cases hv' : (sampleCalls j).get k with
  | none => rfl
  | some v' =>
    have heq := (hget i k v hv).symm.trans (hget j k v' hv')
    cases i <;> cases j <;> simp_all

theorem sampleCalls_proto : ProtoKnown sampleGroup.held sampleCalls := by
  intro i v hv
  cases i <;> cases hv

/-- The second call reads after the first has written. -/
def inTurn : List (Op Bool) := [.read false true, .write false, .read true true, .write true]

theorem updates_in_turn_kept :
    Kept sampleGroup.held sampleCalls
      ((World.start sampleGroup).run (updateGroupAttributes sampleApi sampleCalls) inTurn).store.held := by
  have hreturned : ∀ i,
      ((World.start sampleGroup).run (updateGroupAttributes sampleApi sampleCalls) inTurn).calls i = .returned := by
    intro i
    cases i <;> rfl
  have hchanges : ∀ i, ∃ k v, (sampleCalls i).get k = some v ∧ sampleGroup.held.get k ≠ some (attributeValue v) := by
    intro i
    cases i
    · exact ⟨['e', 'n', 'v'], .str ['p', 'r', 'o', 'd'], rfl, by decide⟩
    · exact ⟨['t', 'e', 'a', 'm'], .str ['s', 'r', 'e'], rfl, by decide⟩
  have hundisturbed : Allowed (World.step (updateGroupAttributes sampleApi sampleCalls)) World.Undisturbed
      (World.start sampleGroup) inTurn := by
    refine ⟨trivial, fun value seen h => ?_, trivial, fun value seen h => ?_, trivial⟩
    · exact (Phase.holding.inj h).2.symm
    · exact (Phase.holding.inj h).2.symm
  have hkept := updates_kept_iff sampleApi_replaces sampleCalls_disjoint sampleGroup inTurn hreturned
  exact (hkept.2 hchanges).mpr ⟨sampleCalls_proto, hundisturbed⟩

/-- Where both calls read before either writes, the second PUT removes the attribute of the first. -/
theorem interleaved_updates_lose_env :
    sampleApi.Replaces ∧ DisjointCalls sampleCalls ∧
    (∀ i, ((World.start sampleGroup).run (updateGroupAttributes sampleApi sampleCalls)
      [.read false true, .read true true, .write false, .write true]).calls i = .returned) ∧
    ¬ Kept sampleGroup.held sampleCalls
      ((World.start sampleGroup).run (updateGroupAttributes sampleApi sampleCalls)
        [.read false true, .read true true, .write false, .write true]).store.held := by
  refine ⟨sampleApi_replaces, sampleCalls_disjoint, fun i => by cases i <;> rfl, fun h => ?_⟩
  have hupdated := h.updated false ['e', 'n', 'v'] (.str ['p', 'r', 'o', 'd']) rfl
  exact absurd hupdated (by decide)

end narwhal.portal.keycloak_client
