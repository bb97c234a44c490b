import Narwhal.Lib.Fold
import Narwhal.Portal.Storage

open jslib narwhal.portal.storage

namespace narwhal.portal.pvc_expansion_preflight

/-! ### The source -/

/-- What is no record counts as an empty one. -/
def record : Option Json → Json
  | some (.obj fields) => .obj fields
  | _ => .obj []

/-- The entries of a value, if it is a record of strings. -/
def stringMap : Option Json → Option (List (Text × Text))
  | some (.obj fields) => fields.mapM fun field => field.2.string.map fun s => (field.1, s)
  | _ => none

def REQUESTS_STORAGE : Text := "requests.storage".toList

def quotaKeys (className : Option Text) : List Text :=
  REQUESTS_STORAGE :: (className.map fun name => name ++ ".storageclass.storage.k8s.io/requests.storage".toList).toList

/-- `key in value`, for a key that no prototype has. -/
def mentions (value : Option Json) (key : Text) : Bool := (value.bind fun v => v.get key).isSome

def statusOf (item : Json) : Json := record (item.get "status".toList)

def hardOf (item : Json) : Option Json := (statusOf item).get "hard".toList

def usedOf (item : Json) : Option Json := (statusOf item).get "used".toList

def covering (keys : List Text) (item : Json) : Bool :=
  keys.any fun key => mentions (hardOf item) key || mentions (usedOf item) key

/-- The lower of two bounds, where there is none at first. -/
def lower (minimum : Option Nat) (remaining : Nat) : Option Nat :=
  match minimum with
  | none => some remaining
  | some m => some (if remaining < m then remaining else m)

/-- One key of an item; `none` is a `return null`. -/
def readKey (hard used : List (Text × Text)) (minimum : Option Nat) (key : Text) : Option (Option Nat) :=
  match hard.lookup key with
  | none => if (used.lookup key).isSome then none else some minimum
  | some limitText =>
    match parseStorageQuantity limitText, (used.lookup key).bind parseStorageQuantity with
    | some limit, some consumed => some (lower minimum (if consumed < limit then limit - consumed else 0))
    | _, _ => none

def readItem (keys : List Text) (minimum : Option Nat) (item : Json) : Option (Option Nat) :=
  if item.isRecord = false then none
  else if covering keys item = false then some minimum
  else
    match stringMap (hardOf item), stringMap (usedOf item) with
    | some hard, some used => keys.foldlM (readKey hard used) minimum
    | _, _ => none

/-- The items of a list that is identified and complete. -/
def itemsOf (raw : Json) : Option (List Json) :=
  let list := record (some raw)
  match (list.get "items".toList).bind Json.array with
  | none => none
  | some items =>
    if list.getString "kind".toList ≠ some "ResourceQuotaList".toList ∨
        ((record (list.get "metadata".toList)).get "continue".toList).isSome then none
    else some items

def quotaHeadroom (raw : Json) (className : Option Text) : Option Text :=
  match itemsOf raw with
  | none => none
  | some items =>
    match items.foldlM (readItem (quotaKeys className)) none with
    | some (some minimum) =>
      if parseStorageQuantity (natText minimum) = none then none else some (natText minimum)
    | _ => none

/-! ### What is read of an item -/

section

variable {keys : List Text} {item : Json} {items items' : List Json} {hard used : List (Text × Text)} {key : Text}

/-- What a key contributes to the minimum. -/
def remainderOf (hard used : List (Text × Text)) (key : Text) : Option (List Nat) :=
  match hard.lookup key with
  | none => if (used.lookup key).isSome then none else some []
  | some limitText =>
    match parseStorageQuantity limitText, (used.lookup key).bind parseStorageQuantity with
    | some limit, some consumed => some [limit - consumed]
    | _, _ => none

def remainders (keys : List Text) (item : Json) : Option (List Nat) :=
  if item.isRecord = false then none
  else if covering keys item = false then some []
  else
    match stringMap (hardOf item), stringMap (usedOf item) with
    | some hard, some used =>
      if ∀ key ∈ keys, remainderOf hard used key ≠ none then
        some (keys.flatMap fun key => (remainderOf hard used key).getD [])
      else none
    | _, _ => none

theorem readKey_eq (minimum : Option Nat) (key : Text) :
    readKey hard used minimum key = (remainderOf hard used key).map fun rs => rs.foldl lower minimum := by
  unfold readKey remainderOf
  cases hard.lookup key with
  | none =>
    dsimp only
    split_ifs <;> rfl
  | some limitText =>
    dsimp only
    cases parseStorageQuantity limitText with
    | none => rfl
    | some limit =>
      cases (used.lookup key).bind parseStorageQuantity with
      | none => rfl
      | some consumed =>
        have hrest : (if consumed < limit then limit - consumed else 0) = limit - consumed := by
          split_ifs <;> omega
        simp only [hrest, Option.map_some, List.foldl_cons, List.foldl_nil]

theorem readItem_eq (minimum : Option Nat) (item : Json) :
    readItem keys minimum item = (remainders keys item).map fun rs => rs.foldl lower minimum := by
  unfold readItem remainders
  split_ifs with hrecord hcovering
  · rfl
  · rfl
  · cases stringMap (hardOf item) with
    | none => rfl
    | some hard =>
      cases stringMap (usedOf item) with
      | none => rfl
      | some used =>
        dsimp only
        ext minimum'
        rw [pylib.foldlM_eq_some_iff readKey_eq]
        split_ifs with hall
        · simp only [Option.map_some, Option.some.injEq, and_iff_right hall]
        · simp only [hall, false_and, Option.map_none, reduceCtorEq]

theorem foldl_lower (rs : List Nat) (minimum : Option Nat) :
    rs.foldl lower minimum = (minimum.toList ++ rs).min? := by
  induction rs generalizing minimum with
  | nil => cases minimum <;> rfl
  | cons r rs ih =>
    rw [List.foldl_cons, ih]
    cases minimum with
    | none => rfl
    | some m =>
      have hmin : (if r < m then r else m) = min m r := by
        split_ifs <;> omega
      simp only [lower, hmin, Option.toList_some, List.singleton_append, List.min?_cons', List.foldl_cons]

/-! ### What an item says -/

/-- A quantity that an item states for a key. -/
def quantityOf (value : Option Json) (key : Text) : Option Nat := parseStorage (value.bind fun v => v.get key)

/-- Both records are read, and so is every quantity for a key that either mentions. -/
structure Readable (keys : List Text) (item : Json) : Prop where
  hard : (stringMap (hardOf item)).isSome = true
  used : (stringMap (usedOf item)).isSome = true
  quantities : ∀ key ∈ keys, mentions (hardOf item) key = true ∨ mentions (usedOf item) key = true →
    (quantityOf (hardOf item) key).isSome = true ∧ (quantityOf (usedOf item) key).isSome = true

/-- What an item leaves of a key. -/
def Leaves (keys : List Text) (item : Json) (r : Nat) : Prop :=
  ∃ key ∈ keys, ∃ limit ∈ quantityOf (hardOf item) key, ∃ consumed ∈ quantityOf (usedOf item) key, r = limit - consumed

theorem covering_iff : covering keys item = true ↔
    ∃ key ∈ keys, mentions (hardOf item) key = true ∨ mentions (usedOf item) key = true := by
  simp only [covering, List.any_eq_true, Bool.or_eq_true]

theorem mentions_of_mem_quantityOf {value : Option Json} {n : Nat} (h : n ∈ quantityOf value key) :
    mentions value key = true := by
  rw [mentions, Option.isSome_iff_ne_none]
  intro hnone
  rw [quantityOf, parseStorage, hnone] at h
  cases h

theorem lookup_of_mapM {fields : List (Text × Json)} {map : List (Text × Text)}
    (h : fields.mapM (fun field => field.2.string.map fun s => (field.1, s)) = some map) (key : Text) :
    (map.lookup key).map Json.str = fields.lookup key := by
  rw [pylib.mapM_eq_some_iff] at h
  induction fields generalizing map with
  | nil =>
    cases map with
    | nil => rfl
    | cons entry map => cases h
  | cons field fields ih =>
    cases map with
    | nil => cases h
    | cons entry map =>
      obtain ⟨hentry, hrest⟩ := List.cons.inj h
      obtain ⟨s, hs, rfl⟩ := Option.map_eq_some_iff.mp hentry
      obtain ⟨k, v⟩ := field
      obtain rfl := Json.string_eq_some hs
      rw [List.lookup_cons, List.lookup_cons]
      by_cases hkey : key = k
      · simp [hkey]
      · simp only [beq_false_of_ne hkey, ih hrest]

/-- A record of strings has the properties that the value has. -/
theorem stringMap_lookup {value : Option Json} {map : List (Text × Text)} (h : stringMap value = some map) (key : Text) :
    mentions value key = (map.lookup key).isSome ∧ quantityOf value key = (map.lookup key).bind parseStorageQuantity := by
  unfold stringMap at h
  split at h
  · next fields =>
    have hlookup := lookup_of_mapM h key
    simp only [mentions, quantityOf, parseStorage, Json.get, Option.bind_some, ← hlookup, Option.isSome_map]
    cases map.lookup key <;> simp [Json.string]
  · cases h

theorem remainderOf_ne_none_iff : remainderOf hard used key ≠ none ↔
    ((hard.lookup key).isSome = true ∨ (used.lookup key).isSome = true →
      ((hard.lookup key).bind parseStorageQuantity).isSome = true ∧
        ((used.lookup key).bind parseStorageQuantity).isSome = true) := by
  unfold remainderOf
  cases hard.lookup key with
  | none => cases used.lookup key <;> simp
  | some limitText =>
    simp only [Option.bind_some, Option.isSome_some, true_or, forall_const]
    cases parseStorageQuantity limitText with
    | none => simp
    | some limit => cases (used.lookup key).bind parseStorageQuantity <;> simp

theorem mem_remainderOf_iff {r : Nat} : r ∈ (remainderOf hard used key).getD [] ↔
    ∃ limit ∈ (hard.lookup key).bind parseStorageQuantity,
      ∃ consumed ∈ (used.lookup key).bind parseStorageQuantity, r = limit - consumed := by
  unfold remainderOf
  cases hard.lookup key with
  | none =>
    dsimp only
    split_ifs <;> simp
  | some limitText =>
    simp only [Option.bind_some]
    cases parseStorageQuantity limitText with
    | none => simp
    | some limit => cases (used.lookup key).bind parseStorageQuantity <;> simp

/-- An item is accepted if it is a record that is read where it mentions a key. -/
theorem remainders_ne_none_iff : remainders keys item ≠ none ↔
    item.isRecord = true ∧ (covering keys item = true → Readable keys item) := by
  unfold remainders
  split_ifs with hrecord hcovering
  · simp [hrecord]
  · simp [hrecord, hcovering]
  · have hmore : item.isRecord = true ∧ covering keys item = true :=
      ⟨by simpa using hrecord, by simpa using hcovering⟩
    simp only [hmore.1, hmore.2, forall_const, true_and]
    cases hhard : stringMap (hardOf item) with
    | none => simpa using fun h : Readable keys item => by simpa [hhard] using h.hard
    | some hard =>
      cases hused : stringMap (usedOf item) with
      | none => simpa using fun h : Readable keys item => by simpa [hused] using h.used
      | some used =>
        have hall : (∀ key ∈ keys, remainderOf hard used key ≠ none) ↔ Readable keys item := by
          have hkey : ∀ key, remainderOf hard used key ≠ none ↔
              (mentions (hardOf item) key = true ∨ mentions (usedOf item) key = true →
                (quantityOf (hardOf item) key).isSome = true ∧ (quantityOf (usedOf item) key).isSome = true) := by
            intro key
            rw [remainderOf_ne_none_iff, (stringMap_lookup hhard key).1, (stringMap_lookup hhard key).2,
              (stringMap_lookup hused key).1, (stringMap_lookup hused key).2]
          exact ⟨fun h => ⟨by rw [hhard]; rfl, by rw [hused]; rfl, fun key hmem => (hkey key).mp (h key hmem)⟩,
            fun h key hmem => (hkey key).mpr (h.quantities key hmem)⟩
        simp [hall]

/-- What an accepted item contributes is what it leaves. -/
theorem mem_remainders_iff (h : remainders keys item ≠ none) {r : Nat} :
    r ∈ (remainders keys item).getD [] ↔ Leaves keys item r := by
  obtain ⟨hrecord, hreadable⟩ := remainders_ne_none_iff.mp h
  by_cases hcovering : covering keys item = true
  · have hread := hreadable hcovering
    obtain ⟨hard, hhard⟩ := Option.isSome_iff_exists.mp hread.hard
    obtain ⟨used, hused⟩ := Option.isSome_iff_exists.mp hread.used
    have hall : ∀ key ∈ keys, remainderOf hard used key ≠ none := by
      intro key hmem
      rw [remainderOf_ne_none_iff, ← (stringMap_lookup hhard key).1, ← (stringMap_lookup hhard key).2,
        ← (stringMap_lookup hused key).1, ← (stringMap_lookup hused key).2]
      exact hread.quantities key hmem
    simp only [remainders, hrecord, hcovering, hhard, hused, if_pos hall, Bool.true_eq_false, if_false, Option.getD_some,
      List.mem_flatMap, mem_remainderOf_iff, Leaves, (stringMap_lookup hhard _).2, (stringMap_lookup hused _).2]
  · have hnone : ¬ Leaves keys item r := by
      rintro ⟨key, hmem, limit, hlimit, -⟩
      apply hcovering
      rw [covering_iff]
      exact ⟨key, hmem, .inl (mentions_of_mem_quantityOf hlimit)⟩
    rw [Bool.not_eq_true] at hcovering
    simp [remainders, hrecord, hcovering, hnone]

/-! ### The headroom of a list -/

theorem foldlM_readItem_iff {m : Option Nat} : items.foldlM (readItem keys) none = some m ↔
    (∀ item ∈ items, remainders keys item ≠ none) ∧
      (items.flatMap fun item => (remainders keys item).getD []).min? = m := by
  rw [pylib.foldlM_eq_some_iff readItem_eq, foldl_lower, Option.toList_none, List.nil_append]

/-- The least of what the items leave, if all are accepted and some leave anything. -/
structure Headroom (keys : List Text) (items : List Json) (n : Nat) : Prop where
  records : ∀ item ∈ items, item.isRecord = true
  readable : ∀ item ∈ items, covering keys item = true → Readable keys item
  least : IsLeast {r | ∃ item ∈ items, Leaves keys item r} n

theorem headroom_iff {n : Nat} : items.foldlM (readItem keys) none = some (some n) ↔ Headroom keys items n := by
  rw [foldlM_readItem_iff, List.min?_eq_some_iff]
  constructor
  · rintro ⟨haccepted, hmem, hle⟩
    have hread := fun item hitem => remainders_ne_none_iff.mp (haccepted item hitem)
    refine ⟨fun item hitem => (hread item hitem).1, fun item hitem => (hread item hitem).2, ?_, ?_⟩
    · obtain ⟨item, hitem, hr⟩ := List.mem_flatMap.mp hmem
      exact ⟨item, hitem, (mem_remainders_iff (haccepted item hitem)).mp hr⟩
    · rintro r ⟨item, hitem, hr⟩
      exact hle r (List.mem_flatMap.mpr ⟨item, hitem, (mem_remainders_iff (haccepted item hitem)).mpr hr⟩)
  · intro h
    have haccepted : ∀ item ∈ items, remainders keys item ≠ none :=
      fun item hitem => remainders_ne_none_iff.mpr ⟨h.records item hitem, h.readable item hitem⟩
    refine ⟨haccepted, ?_, ?_⟩
    · obtain ⟨item, hitem, hr⟩ := h.least.1
      exact List.mem_flatMap.mpr ⟨item, hitem, (mem_remainders_iff (haccepted item hitem)).mpr hr⟩
    · intro r hr
      obtain ⟨item, hitem, hr⟩ := List.mem_flatMap.mp hr
      exact h.least.2 ⟨item, hitem, (mem_remainders_iff (haccepted item hitem)).mp hr⟩

theorem Headroom.perm {n : Nat} (hperm : items.Perm items') (h : Headroom keys items n) : Headroom keys items' n where
  records item hitem := h.records item (hperm.mem_iff.mpr hitem)
  readable item hitem := h.readable item (hperm.mem_iff.mpr hitem)
  least := by simpa only [hperm.mem_iff] using h.least

/-- A further item can only lower the headroom. -/
theorem Headroom.le_of_cons {n m : Nat} (h : Headroom keys items n) (h' : Headroom keys (item :: items) m) : m ≤ n := by
  obtain ⟨other, hother, hr⟩ := h.least.1
  exact h'.least.2 ⟨other, List.mem_cons_of_mem item hother, hr⟩

end

/-- A list is identified and has no further page. -/
structure Identified (raw : Json) (items : List Json) : Prop where
  kind : raw.getString "kind".toList = some "ResourceQuotaList".toList
  items : raw.get "items".toList = some (.arr items)
  complete : ∀ metadata, raw.get "metadata".toList = some metadata → metadata.get "continue".toList = none

theorem get_record (value : Option Json) (key : Text) : (record value).get key = value.bind fun v => v.get key := by
  cases value with
  | none => rfl
  | some v => cases v <;> rfl

theorem itemsOf_eq_some_iff {raw : Json} {items : List Json} : itemsOf raw = some items ↔ Identified raw items := by
  simp only [itemsOf, Json.getString, get_record, Option.bind_some]
  constructor
  · intro h
    split at h
    · cases h
    · next items' hitems =>
      split_ifs at h with hguard
      obtain rfl := Option.some.inj h
      rw [not_or, not_not] at hguard
      obtain ⟨value, hvalue, harray⟩ := Option.bind_eq_some_iff.mp hitems
      obtain rfl := Json.array_eq_some harray
      refine ⟨hguard.1, hvalue, fun metadata hmetadata => ?_⟩
      rw [hmetadata, Option.not_isSome_iff_eq_none] at hguard
      exact hguard.2
  · rintro ⟨hkind, hitems, hcomplete⟩
    simp only [Json.getString] at hkind
    have hcontinue : ((raw.get "metadata".toList).bind fun metadata => metadata.get "continue".toList) = none :=
      Option.bind_eq_none_iff.mpr hcomplete
    simp only [hitems, hkind, hcontinue, Option.bind_some, Json.array, Option.isSome_none]
    rw [if_neg]
    rintro (hne | hsome)
    · exact hne rfl
    · cases hsome

/-- Two lists differ at most in their items. -/
structure SameList (raw raw' : Json) : Prop where
  kind : raw'.get "kind".toList = raw.get "kind".toList
  metadata : raw'.get "metadata".toList = raw.get "metadata".toList

theorem Identified.items_eq {raw : Json} {items others : List Json} (h : Identified raw others)
    (hitems : raw.get "items".toList = some (.arr items)) : items = others :=
  Json.arr.inj (Option.some.inj (hitems.symm.trans h.items))

theorem Identified.of_sameList {raw raw' : Json} {items items' : List Json} (h : Identified raw items)
    (hsame : SameList raw raw') (hitems : raw'.get "items".toList = some (.arr items')) : Identified raw' items' where
  kind := by rw [Json.getString, hsame.kind]; exact h.kind
  items := hitems
  complete := by rw [hsame.metadata]; exact h.complete

theorem SameList.symm {raw raw' : Json} (h : SameList raw raw') : SameList raw' raw := ⟨h.kind.symm, h.metadata.symm⟩

/-- What is answered for a list that is identified. -/
theorem quotaHeadroom_eq_some_iff {raw : Json} {className : Option Text} {text : Text} :
    quotaHeadroom raw className = some text ↔
      ∃ items n, Identified raw items ∧ Headroom (quotaKeys className) items n ∧ text = natText n ∧
        parseStorageQuantity text ≠ none := by
  unfold quotaHeadroom
  constructor
  · intro h
    split at h
    · cases h
    · next items hitems =>
      split at h
      · next n hn =>
        split_ifs at h with hparse
        obtain rfl := Option.some.inj h
        exact ⟨items, n, itemsOf_eq_some_iff.mp hitems, headroom_iff.mp hn, rfl, hparse⟩
      · cases h
  · rintro ⟨items, n, hidentified, hheadroom, rfl, hparse⟩
    simp only [itemsOf_eq_some_iff.mpr hidentified, headroom_iff.mpr hheadroom, if_neg hparse]

theorem Headroom.covered {keys : List Text} {items : List Json} {n : Nat} (h : Headroom keys items n) :
    ∃ item ∈ items, covering keys item = true := by
  obtain ⟨item, hitem, key, hkey, limit, hlimit, -⟩ := h.least.1
  refine ⟨item, hitem, covering_iff.mpr ⟨key, hkey, .inl ?_⟩⟩
  exact mentions_of_mem_quantityOf hlimit

/-- The headroom that is answered is the least that a complete, readable list leaves. -/
theorem headroom_never_overstated (className : Option Text) :
    (∀ raw text, quotaHeadroom raw className = some text →
      ∃ items n, text = natText n ∧ Identified raw items ∧ Headroom (quotaKeys className) items n ∧
        ∃ item ∈ items, covering (quotaKeys className) item = true) ∧
      (∀ raw raw' items items', SameList raw raw' → raw.get "items".toList = some (.arr items) →
        raw'.get "items".toList = some (.arr items') → items.Perm items' →
          quotaHeadroom raw' className = quotaHeadroom raw className) ∧
      ∀ raw raw' items items' item n, SameList raw raw' → raw.get "items".toList = some (.arr items) →
        raw'.get "items".toList = some (.arr items') → items'.Perm (item :: items) →
          quotaHeadroom raw className = some (natText n) →
            quotaHeadroom raw' className = none ∨ ∃ m ≤ n, quotaHeadroom raw' className = some (natText m) := by
  refine ⟨?_, ?_, ?_⟩
  · intro raw text h
    obtain ⟨items, n, hidentified, hheadroom, rfl, -⟩ := quotaHeadroom_eq_some_iff.mp h
    exact ⟨items, n, rfl, hidentified, hheadroom, hheadroom.covered⟩
  · intro raw raw' items items' hsame hraw hraw' hperm
    refine Option.ext fun text => ?_
    rw [quotaHeadroom_eq_some_iff, quotaHeadroom_eq_some_iff]
    constructor
    · rintro ⟨others, n, hidentified, hheadroom, htext⟩
      obtain rfl := hidentified.items_eq hraw'
      exact ⟨items, n, hidentified.of_sameList hsame.symm hraw, hheadroom.perm hperm.symm, htext⟩
    · rintro ⟨others, n, hidentified, hheadroom, htext⟩
      obtain rfl := hidentified.items_eq hraw
      exact ⟨items', n, hidentified.of_sameList hsame hraw', hheadroom.perm hperm, htext⟩
  · intro raw raw' items items' item n hsame hraw hraw' hperm h
    obtain ⟨others, k, hidentified, hheadroom, hk, -⟩ := quotaHeadroom_eq_some_iff.mp h
    obtain rfl := hidentified.items_eq hraw
    obtain rfl := natText_inj hk
    cases h' : quotaHeadroom raw' className with
    | none => exact .inl rfl
    | some text =>
      obtain ⟨others, m, hidentified', hheadroom', rfl, -⟩ := quotaHeadroom_eq_some_iff.mp h'
      obtain rfl := hidentified'.items_eq hraw'
      exact .inr ⟨m, hheadroom.le_of_cons (hheadroom'.perm hperm), rfl⟩

end narwhal.portal.pvc_expansion_preflight
