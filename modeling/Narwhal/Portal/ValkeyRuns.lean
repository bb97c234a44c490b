import Narwhal.Lib.Run
import Narwhal.Portal.ValkeyCache

open jslib narwhal.portal.cache_keys
open pylib (Allowed)

namespace narwhal.portal.valkey

/-! ### Runs -/

/-- A call on the cache, with what becomes of its command. -/
inductive Op where
  | get (key : Text) (now : Nat) (answer : Answer)
  | getWithMeta (key : Text) (now : Nat) (answer : Answer)
  | set (key : Text) (value : Json) (ttlSeconds now : Nat) (answer : Answer)
  | del (key : Text) (answer : Answer)

def Op.answer : Op → Answer
  | .get _ _ answer => answer
  | .getWithMeta _ _ answer => answer
  | .set _ _ _ _ answer => answer
  | .del _ answer => answer

/-- The call writes or deletes this key. -/
def Op.Writes (key : Text) : Op → Prop
  | .set k _ _ _ _ => key = k ∨ key = metaKey k
  | .del k _ => key = k ∨ key = metaKey k
  | _ => False

def Cache.step (numeral : Text → Option Number) (engine : Text → Option Int) (s : Cache) : Op → Cache
  | .get key now answer => (s.cacheGet numeral key now answer).2
  | .getWithMeta key now answer => (s.cacheGetWithMeta numeral engine key now answer).2
  | .set key value ttlSeconds now answer => s.cacheSet key value ttlSeconds now answer
  | .del key answer => (s.cacheDel key answer).1

def Cache.run (numeral : Text → Option Number) (engine : Text → Option Int) (s : Cache) (ops : List Op) : Cache :=
  ops.foldl (Cache.step numeral engine) s

/-- The call reads nothing that does not parse. -/
def Readable (numeral : Text → Option Number) (s : Cache) : Op → Prop
  | .get key now _ => ∀ val, s.data.get key now = some val → val ≠ [] → parseJson numeral val ≠ none
  | .getWithMeta key now _ =>
    ∀ val, s.data.get key now = some val → ∃ value, parseJson numeral val = some value ∧
      (isNull value = false → ∀ sibling, s.data.get (metaKey key) now = some sibling → parseJson numeral sibling ≠ none)
  | _ => True

/-- The command is answered, with something that parses. -/
structure Fine (numeral : Text → Option Number) (s : Cache) (op : Op) : Prop where
  served : op.answer = .served
  readable : Readable numeral s op

section

variable {numeral : Text → Option Number} {engine : Text → Option Int} {s : Cache}

/-! ### One call -/

/-- A command that fails is not a fine one. -/
theorem not_fine_of_failed {op : Op} {applied : Bool} (h : op.answer = .failed applied) : ¬ Fine numeral s op := by
  intro hfine
  have hserved := hfine.served
  rw [h] at hserved
  cases hserved

/-- A read that is served keeps the connection exactly if the value can be read. -/
theorem cacheGet_served (h : s.isValkeyConnected = true) (key : Text) (now : Nat) :
    ((s.cacheGet numeral key now .served).2.isValkeyConnected = true ↔ Readable numeral s (.get key now .served)) := by
  simp only [Cache.cacheGet, h, not_true_eq_false, if_false, Readable]
  cases s.data.get key now with
  | none => simp [h]
  | some val =>
    by_cases hval : val = []
    · simp [hval, h]
    · cases hparse : parseJson numeral val <;> simp [hval, hparse, h, Cache.disable]

theorem cacheGetWithMeta_served (h : s.isValkeyConnected = true) (key : Text) (now : Nat) :
    ((s.cacheGetWithMeta numeral engine key now .served).2.isValkeyConnected = true ↔
      Readable numeral s (.getWithMeta key now .served)) := by
  simp only [Cache.cacheGetWithMeta, h, not_true_eq_false, if_false, Readable]
  cases s.data.get key now with
  | none => simp [h]
  | some val =>
    cases hparse : parseJson numeral val with
    | none => simp [hparse, Cache.disable]
    | some value =>
      simp only [Option.some.injEq, forall_eq', hparse, exists_eq_left']
      cases isNull value with
      | true => simp [h]
      | false =>
        cases hsibling : s.data.get (metaKey key) now with
        | none => simp [h]
        | some sibling => cases hmeta : parseJson numeral sibling <;> simp [hmeta, h, Cache.disable]

/-- While the flag is up, a call takes it down exactly if its command fails or it reads what does
    not parse. -/
theorem isValkeyConnected_step (h : s.isValkeyConnected = true) (op : Op) :
    (s.step numeral engine op).isValkeyConnected = true ↔ Fine numeral s op := by
  cases op with
  | get key now answer =>
    cases answer with
    | served => exact (cacheGet_served h key now).trans ⟨fun hread => ⟨rfl, hread⟩, Fine.readable⟩
    | failed applied =>
      refine iff_of_false ?_ (not_fine_of_failed rfl)
      simp [Cache.step, Cache.cacheGet, h, Cache.disable]
  | getWithMeta key now answer =>
    cases answer with
    | served => exact (cacheGetWithMeta_served h key now).trans ⟨fun hread => ⟨rfl, hread⟩, Fine.readable⟩
    | failed applied =>
      refine iff_of_false ?_ (not_fine_of_failed rfl)
      simp [Cache.step, Cache.cacheGetWithMeta, h, Cache.disable]
  | set key value ttlSeconds now answer =>
    cases answer with
    | served => exact iff_of_true (by simp [Cache.step, Cache.cacheSet, h]) ⟨rfl, trivial⟩
    | failed applied =>
      refine iff_of_false ?_ (not_fine_of_failed rfl)
      simp [Cache.step, Cache.cacheSet, h]
  | del key answer =>
    cases answer with
    | served => exact iff_of_true (by simp [Cache.step, Cache.cacheDel, h]) ⟨rfl, trivial⟩
    | failed applied =>
      refine iff_of_false ?_ (not_fine_of_failed rfl)
      simp [Cache.step, Cache.cacheDel, h]

/-- Without a connection nothing happens any more. -/
theorem step_of_down (h : s.isValkeyConnected = false) (op : Op) : s.step numeral engine op = s := by
  cases op <;> simp [Cache.step, Cache.cacheGet, Cache.cacheGetWithMeta, Cache.cacheSet, Cache.cacheDel, h]

/-- A run keeps the flag up exactly if each of its calls is fine. -/
theorem isValkeyConnected_run (h : s.isValkeyConnected = true) (ops : List Op) :
    (s.run numeral engine ops).isValkeyConnected = true ↔ Allowed (Cache.step numeral engine) (Fine numeral) s ops := by
  induction ops generalizing s with
  | nil => exact iff_of_true h trivial
  | cons op ops ih =>
    have hstep : (s.step numeral engine op).isValkeyConnected = true ↔ Fine numeral s op := isValkeyConnected_step h op
    cases hflag : (s.step numeral engine op).isValkeyConnected with
    | true => exact (ih hflag).trans ⟨fun hrest => ⟨hstep.mp hflag, hrest⟩, And.right⟩
    | false =>
      have hdown : ∀ ops, (s.step numeral engine op).run numeral engine ops = s.step numeral engine op := by
        intro ops
        induction ops with
        | nil => rfl
        | cons op' ops ih =>
          rw [Cache.run, List.foldl_cons, step_of_down hflag]
          exact ih
      refine iff_of_false ?_ fun hallowed => ?_
      · rw [Cache.run, List.foldl_cons]
        change ¬ ((s.step numeral engine op).run numeral engine ops).isValkeyConnected = true
        rw [hdown ops, hflag]
        exact Bool.false_ne_true
      · rw [hstep.mpr hallowed.1] at hflag
        cases hflag

/-! ### What a connected client serves -/

theorem stringify_ne_nil (value : Json) : stringify value ≠ [] := by
  intro h
  have hhead := head_stringify value []
  rw [h] at hhead
  cases hhead

theorem metaKey_ne (key : Text) : key ≠ metaKey key := by
  intro h
  have hlength := congrArg List.length h
  rw [metaKey, List.length_append] at hlength
  have hmeta : ":meta".toList.length = 5 := by decide
  omega

/-- A value is read back until it expires. -/
theorem get_set_self (data : Data) (key value : Text) {ttlSeconds now later : Nat} (httl : 0 < ttlSeconds)
    (hlater : later < now + ttlSeconds * 1000) : (data.set key value ttlSeconds now).get key later = some value := by
  simp [Data.get, Data.set, httl, hlater]

/-- What is read of a key after it was written. -/
theorem get_cacheSet (h : s.isValkeyConnected = true) (key : Text) (value : Json) {ttlSeconds now later : Nat}
    (httl : 0 < ttlSeconds) (hlater : later < now + ttlSeconds * 1000) :
    (s.cacheSet key value ttlSeconds now .served).data.get key later = some (stringify value) ∧
      (s.cacheSet key value ttlSeconds now .served).data.get (metaKey key) later =
        some (stringify (Cache.metadataAt now)) := by
  simp only [Cache.cacheSet, h, not_true_eq_false, if_false, Answer.apply]
  constructor
  · have hother : ∀ data : Data,
        (data.set (metaKey key) (stringify (Cache.metadataAt now)) ttlSeconds now).get key later = data.get key later := by
      intro data
      simp [Data.get, Data.set, metaKey_ne key]
    rw [hother]
    exact get_set_self _ _ _ httl hlater
  · exact get_set_self _ _ _ httl hlater

theorem apply_data {answer : Answer} {data changed : Data} {key : Text} (h : changed key = data key) :
    answer.apply data changed key = data key := by
  cases answer with
  | served => exact h
  | failed applied =>
    cases applied with
    | true => exact h
    | false => rfl

/-- A call leaves alone what it does not write. -/
theorem data_step {op : Op} {key : Text} (h : ¬ op.Writes key) : (s.step numeral engine op).data key = s.data key := by
  cases hflag : s.isValkeyConnected with
  | false => rw [step_of_down hflag]
  | true =>
    cases op with
    | get k now answer =>
      simp only [Cache.step, Cache.cacheGet, hflag, not_true_eq_false, if_false]
      repeat' split
      all_goals rfl
    | getWithMeta k now answer =>
      simp only [Cache.step, Cache.cacheGetWithMeta, hflag, not_true_eq_false, if_false]
      repeat' split
      all_goals rfl
    | set k value ttlSeconds now answer =>
      obtain ⟨hkey, hmeta⟩ := not_or.mp h
      have hchanged : ((s.data.set k (stringify value) ttlSeconds now).set (metaKey k)
          (stringify (Cache.metadataAt now)) ttlSeconds now) key = s.data key := by
        simp [Data.set, hkey, hmeta]
      simp only [Cache.step, Cache.cacheSet, hflag, not_true_eq_false, if_false]
      exact apply_data hchanged
    | del k answer =>
      obtain ⟨hkey, hmeta⟩ := not_or.mp h
      have hchanged : s.data.remove [k, metaKey k] key = s.data key := by
        simp [Data.remove, hkey, hmeta]
      simp only [Cache.step, Cache.cacheDel, hflag, not_true_eq_false, if_false]
      exact apply_data hchanged

/-- Commands on other keys leave what is stored under this one. -/
theorem data_run {ops : List Op} {key : Text} (h : ∀ op ∈ ops, ¬ op.Writes key) :
    (s.run numeral engine ops).data key = s.data key := by
  induction ops generalizing s with
  | nil => rfl
  | cons op ops ih =>
    rw [Cache.run, List.foldl_cons]
    exact (ih fun op' hop' => h op' (List.mem_cons_of_mem _ hop')).trans (data_step (h op List.mem_cons_self))

/-- A value of JavaScript that is written is read back until it expires or is written again, and what is
    deleted is gone. -/
structure Works (numeral : Text → Option Number) (engine : Text → Option Int) (s : Cache) : Prop where
  get : ∀ key value ttlSeconds now later ops, value.Proper numeral → 0 < ttlSeconds → later < now + ttlSeconds * 1000 →
    (∀ op ∈ ops, ¬ op.Writes key) →
    Allowed (Cache.step numeral engine) (Fine numeral) (s.cacheSet key value ttlSeconds now .served) ops →
    (((s.cacheSet key value ttlSeconds now .served).run numeral engine ops).cacheGet numeral key later .served).1 = value
  getWithMeta : ∀ key value ttlSeconds now later, value.Proper numeral → 0 < ttlSeconds → later < now + ttlSeconds * 1000 →
    isNull value = false →
    ((s.cacheSet key value ttlSeconds now .served).cacheGetWithMeta numeral engine key later .served).1.map
      CachedValue.value = some value
  del : ∀ key, (s.cacheDel key .served).1.data key = none ∧ (s.cacheDel key .served).1.data (metaKey key) = none

theorem works_of_connected (h : s.isValkeyConnected = true) : Works numeral engine s where
  get key value ttlSeconds now later ops hproper httl hlater hwrites hfine := by
    have hset : (s.cacheSet key value ttlSeconds now .served).isValkeyConnected = true := by
      simp [Cache.cacheSet, h]
    have hconnected := (isValkeyConnected_run hset ops).mpr hfine
    have hdata : ((s.cacheSet key value ttlSeconds now .served).run numeral engine ops).data key =
        (s.cacheSet key value ttlSeconds now .served).data key := data_run hwrites
    have hget : ((s.cacheSet key value ttlSeconds now .served).run numeral engine ops).data.get key later =
        some (stringify value) := by
      rw [← (get_cacheSet h key value httl hlater).1]
      unfold Data.get
      rw [hdata]
    simp [Cache.cacheGet, hconnected, hget, stringify_ne_nil, parseJson_stringify hproper]
  getWithMeta key value ttlSeconds now later hproper httl hlater hnull := by
    obtain ⟨hget, hmeta⟩ := get_cacheSet h key value httl hlater
    have hset : (s.cacheSet key value ttlSeconds now .served).isValkeyConnected = true := by
      simp [Cache.cacheSet, h]
    have hvalue : ∀ metadata, (Cache.cachedValue engine value metadata later).value = value := by
      intro metadata
      unfold Cache.cachedValue
      cases Cache.cachedAtOf engine metadata <;> rfl
    have hmetadata : (Cache.metadataAt now).Proper numeral := ⟨List.nodup_singleton _, trivial, trivial⟩
    simp [Cache.cacheGetWithMeta, hset, hget, hmeta, parseJson_stringify hproper, parseJson_stringify hmetadata, hnull, hvalue]
  del key := by
    simp [Cache.cacheDel, h, Answer.apply, Data.remove]

theorem not_works_of_disconnected (h : s.isValkeyConnected = false) : ¬ Works numeral engine s := by
  intro hworks
  have hget := hworks.get [] (.bool true) 1 0 0 [] trivial Nat.one_pos (by decide) (fun _ hop => by cases hop) trivial
  simp [Cache.cacheSet, Cache.cacheGet, Cache.run, h] at hget

end

/-- The cache works after a run without a disconnect exactly if no command of the run failed and
    none read what does not parse: one that did disables the rest. -/
theorem works_run_iff (numeral : Text → Option Number) (engine : Text → Option Int) (data : Data) (ops : List Op) :
    Works numeral engine ((⟨true, data⟩ : Cache).run numeral engine ops) ↔
      Allowed (Cache.step numeral engine) (Fine numeral) ⟨true, data⟩ ops := by
  rw [← isValkeyConnected_run rfl]
  constructor
  · intro h
    by_contra hflag
    exact not_works_of_disconnected (Bool.eq_false_of_not_eq_true hflag) h
  · exact works_of_connected

/-- One `GET` that times out. -/
theorem timeout_disables :
    ¬ Works (fun _ => none) (fun _ => none)
      ((⟨true, Data.empty⟩ : Cache).run (fun _ => none) (fun _ => none) [.get ['k'] 0 (.failed false)]) := by
  apply not_works_of_disconnected
  rfl

end narwhal.portal.valkey
