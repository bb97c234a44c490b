import Narwhal.Portal.InvocationDigest

open jslib

namespace narwhal.portal.agent_invocation

/-! ### Lists of keys -/

theorem mapM_some_map_iff {α β γ : Type} {f : α → Option β} {g : α → Option γ} {e : β → γ} {l : List α} {r : List β}
    (hfg : ∀ a ∈ l, ∀ b, g a = some (e b) ↔ f a = some b) : l.mapM g = some (r.map e) ↔ l.mapM f = some r := by
  induction l generalizing r with
  | nil => cases r <;> simp
  | cons a l ih =>
    have hhead := hfg a List.mem_cons_self
    have htail := fun r => ih (r := r) fun b hb => hfg b (List.mem_cons_of_mem a hb)
    simp only [List.mapM_cons, Option.bind_eq_bind, Option.bind_eq_some_iff, Option.pure_def, Option.some.injEq]
    cases r with
    | nil => simp
    | cons b r =>
      simp only [List.map_cons, List.cons.injEq]
      constructor
      · rintro ⟨c, hc, cs, hcs, rfl, rfl⟩
        exact ⟨b, (hhead b).mp hc, r, (htail r).mp hcs, rfl, rfl⟩
      · rintro ⟨b', hb', r', hr', rfl, rfl⟩
        exact ⟨e b', (hhead b').mpr hb', r'.map e, (htail r').mpr hr', rfl, rfl⟩

section

variable {heap : Heap}

/-- What is read from a reference: an array or a plain object, of its data. -/
theorem toJson_ref_some {depth : Nat} {active : List Nat} {address : Nat} {t : Json}
    (h : toJson heap (depth + 1) active (.ref address) = some t) :
    ∃ o properties, heap.object (.ref address) = some o ∧ dataProperties o = some properties ∧
      ((∃ size items, o.arrayLength = some size ∧ o.prototype = .array ∧
          (elements properties size).mapM (fun v => v.bind (toJson heap depth (address :: active))) = some items ∧
          t = .arr items) ∨
        (∃ fields, o.arrayLength = none ∧ plain heap (.ref address) = true ∧
          (sortByKey properties).mapM (fun entry => (toJson heap depth (address :: active) entry.2).map (entry.1, ·)) =
            some fields ∧ t = .obj fields)) := by
  simp only [toJson] at h
  split at h
  · cases h
  · next o ho =>
    split at h
    · cases h
    · split at h
      · next size hlength =>
        split at h
        · cases h
        · next hshape =>
          rw [not_or, not_not] at hshape
          obtain ⟨properties, hproperties, h⟩ := Option.bind_eq_some_iff.mp h
          obtain ⟨items, hitems, h⟩ := Option.bind_eq_some_iff.mp h
          exact ⟨o, properties, ho, hproperties, .inl ⟨size, items, hlength, hshape.1, hitems, (Option.some.inj h).symm⟩⟩
      · next hlength =>
        split at h
        · cases h
        · next hplain =>
          obtain ⟨properties, hproperties, h⟩ := Option.bind_eq_some_iff.mp h
          obtain ⟨fields, hfields, h⟩ := Option.bind_eq_some_iff.mp h
          exact ⟨o, properties, ho, hproperties, .inr ⟨fields, hlength, not_not.mp hplain, hfields, (Option.some.inj h).symm⟩⟩

theorem toJson_eq_str_iff {depth : Nat} {active : List Nat} {v : Value} {s : Text} :
    toJson heap (depth + 1) active v = some (.str s) ↔ v = .str s := by
  cases v with
  | null | str | bool | num | undefined | nonFinite | other => simp [toJson]
  | ref address =>
    refine iff_of_false ?_ (by simp)
    intro h
    obtain ⟨o, properties, -, -, ⟨_, _, -, -, -, heq⟩ | ⟨_, -, -, -, heq⟩⟩ := toJson_ref_some h
    · cases heq
    · cases heq

theorem lookup_dataProperties {o : Object} {properties : List (Text × Value)} (h : dataProperties o = some properties)
    (key : Text) : o.properties.lookup (.str key) = (properties.lookup key).map data := by
  unfold dataProperties at h
  generalize o.properties = entries at h
  induction entries generalizing properties with
  | nil =>
    obtain rfl := Option.some.inj h
    rfl
  | cons entry entries ih =>
    simp only [List.mapM_cons, Option.bind_eq_bind, Option.bind_eq_some_iff, Option.pure_def, Option.some.injEq] at h
    obtain ⟨first, hfirst, rest, hrest, rfl⟩ := h
    split at hfirst
    · split at hfirst
      · cases hfirst
      · next name value hproto =>
        obtain rfl := Option.some.inj hfirst
        by_cases hkey : key = name
        · subst hkey
          simp [data]
        · have hkey' : PropertyKey.str key ≠ .str name := fun heq => hkey (PropertyKey.str.inj heq)
          rw [List.lookup_cons, List.lookup_cons, beq_false_of_ne hkey, beq_false_of_ne hkey']
          exact ih hrest
    · cases hfirst

theorem natText_ne_length (i : Nat) : natText i ≠ "length".toList := by
  intro h
  have hdigit : isDigit 'l' = true := isDigit_of_mem_natText (n := i) (by rw [h]; simp)
  cases hdigit

theorem own_index {v : Value} {o : Object} {properties : List (Text × Value)} (ho : heap.object v = some o)
    (hproperties : dataProperties o = some properties) (i : Nat) :
    own heap v (String.ofList (natText i)) = (properties.lookup (natText i)).getD .undefined := by
  have hproperty : o.property (natText i) = o.properties.lookup (.str (natText i)) := by
    unfold Object.property
    cases o.arrayLength with
    | some length => exact if_neg (natText_ne_length i)
    | none => rfl
  rw [own, ho]
  simp only [String.toList_ofList, hproperty, lookup_dataProperties hproperties]
  cases properties.lookup (natText i) <;> rfl

/-- The value is an array of these strings and nothing else, within the limits. -/
structure KeyList (heap : Heap) (value : Value) (keys : List Text) : Prop where
  read : toJson heap 17 [] value = some (.arr (keys.map .str))
  within : Within (.arr (keys.map .str))

/-- `own(value, String(i))`, where it is a string. -/
def keyAt (heap : Heap) (value : Value) (i : Nat) : Option Text :=
  match own heap value (String.ofList (natText i)) with
  | .str key => some key
  | _ => none

theorem keyAt_some_iff {v : Value} {o : Object} {properties : List (Text × Value)} (ho : heap.object v = some o)
    (hproperties : dataProperties o = some properties) (depth : Nat) (active : List Nat) (i : Nat) (key : Text) :
    (properties.lookup (natText i)).bind (toJson heap (depth + 1) active) = some (.str key) ↔
      keyAt heap v i = some key := by
  unfold keyAt
  rw [own_index ho hproperties]
  cases properties.lookup (natText i) with
  | none => simp
  | some value =>
    rw [Option.bind_some, Option.getD_some, toJson_eq_str_iff]
    cases value <;> simp

/-- An array is read as its elements. -/
theorem toJson_array_iff {address : Nat} {o : Object} {size : Nat} {t : Json} {keys : List Text}
    (ho : heap.object (.ref address) = some o) (hlength : o.arrayLength = some size)
    (ht : toJson heap 17 [] (.ref address) = some t) :
    t = .arr (keys.map .str) ↔ (List.range size).mapM (keyAt heap (.ref address)) = some keys := by
  obtain ⟨o', properties, ho', hproperties, ⟨size', items, hlength', -, hitems, rfl⟩ | ⟨_, hlength', -⟩⟩ :=
    toJson_ref_some ht
  · obtain rfl := Option.some.inj (ho.symm.trans ho')
    obtain rfl := Option.some.inj (hlength.symm.trans hlength')
    have hkeys := mapM_some_map_iff (l := List.range size) (r := keys)
      (g := fun i => (properties.lookup (natText i)).bind (toJson heap 16 [address])) fun i _ key =>
        keyAt_some_iff ho hproperties 15 [address] i key
    rw [← hkeys]
    have hmap : (List.range size).mapM (fun i => (properties.lookup (natText i)).bind (toJson heap 16 [address])) =
        some items := by
      rw [← hitems, elements, List.mapM_map]
      rfl
    rw [hmap, Option.some.injEq, Json.arr.injEq]
  · obtain rfl := Option.some.inj (ho.symm.trans ho')
    simp [hlength] at hlength'

theorem strings_some_iff {value : Value} {keys : List Text} :
    strings heap value = some (some keys) ↔ KeyList heap value keys := by
  cases ho : heap.object value with
  | none =>
    refine iff_of_false ?_ ?_
    · simp only [strings, ho, Option.bind_none]
      split
      · simp
      · split <;> simp
    · intro h
      have hread := h.read
      cases value with
      | null | str | bool | num | undefined | nonFinite | other => simp [toJson] at hread
      | ref address =>
        obtain ⟨o, -, ho', -⟩ := toJson_ref_some hread
        rw [ho] at ho'
        cases ho'
  | some o =>
    obtain ⟨address, rfl, -⟩ := Heap.cell_of_object ho
    cases hlength : o.arrayLength with
    | none =>
      refine iff_of_false ?_ ?_
      · simp [strings, Heap.isArray_of_object ho, hlength]
      · intro h
        obtain ⟨o', -, ho', -, ⟨size, -, hlength', -⟩ | ⟨_, -, -, -, heq⟩⟩ := toJson_ref_some h.read
        · obtain rfl := Option.some.inj (ho.symm.trans ho')
          rw [hlength] at hlength'
          cases hlength'
        · cases heq
    | some size =>
      have hstrings : strings heap (.ref address) = some (if canonicalizeJson heap (.ref address) = none then none
          else (List.range size).mapM (keyAt heap (.ref address))) := by
        simp only [strings, Heap.isArray_of_object ho, Heap.isProxy_eq_false_of_object ho, ho, hlength, Option.bind_some,
          Option.isSome_some, not_true, Bool.false_eq_true, false_or]
        split <;> rfl
      rw [hstrings, Option.some.injEq]
      constructor
      · intro h
        split at h
        · cases h
        · next hcanonical =>
          obtain ⟨text, htext⟩ := Option.ne_none_iff_exists'.mp hcanonical
          obtain ⟨t, ht, hwithin, -⟩ := canonicalizeJson_some_iff.mp htext
          obtain rfl := (toJson_array_iff ho hlength ht).mpr h
          exact ⟨ht, hwithin⟩
      · rintro ⟨hread, hwithin⟩
        rw [canonicalizeJson_some_iff.mpr ⟨_, hread, hwithin, rfl⟩, if_neg (Option.some_ne_none _)]
        exact (toJson_array_iff ho hlength hread).mp rfl

/-! ### Registry entries -/

theorem riskValue_some_iff {value : Value} {risk : ToolRisk} : riskValue value = some risk ↔ value = .str risk.text := by
  unfold riskValue
  constructor
  · intro h
    split at h
    · next hvalue =>
      obtain rfl := Option.some.inj h
      exact hvalue
    · split at h
      · next hvalue =>
        obtain rfl := Option.some.inj h
        exact hvalue
      · split at h
        · next hvalue =>
          obtain rfl := Option.some.inj h
          exact hvalue
        · cases h
  · rintro rfl
    cases risk <;> rfl

theorem isBool_some_iff {value : Value} {b : Bool} : isBool value = some b ↔ value = .bool b := by
  cases value <;> simp [isBool]

/-- The value has the fields of this entry, each of its form, and requires no key that it does not
    allow. -/
structure Registers (heap : Heap) (value : Value) (entry : ToolRegistryEntry) : Prop where
  risk : own heap value "risk" = .str entry.risk.text
  allowedArgKeys : KeyList heap (own heap value "allowedArgKeys") entry.allowedArgKeys
  requiredArgKeys : KeyList heap (own heap value "requiredArgKeys") entry.requiredArgKeys
  requiresApproval : own heap value "requiresApproval" = .bool entry.requiresApproval
  required_allowed : ∀ key ∈ entry.requiredArgKeys, key ∈ entry.allowedArgKeys

theorem registryEntry_some_iff {value : Value} {entry : ToolRegistryEntry} :
    registryEntry heap value = some (some entry) ↔ Registers heap value entry := by
  simp only [registryEntry, Option.bind_eq_bind, Option.bind_eq_some_iff]
  constructor
  · rintro ⟨allowed, hallowed, required, hrequired, h⟩
    split at h
    · next risk allowed required approvalRequired hrisk hbool =>
      obtain h := Option.some.inj h
      split at h
      · next hsubset =>
        obtain rfl := Option.some.inj h
        exact ⟨riskValue_some_iff.mp hrisk, strings_some_iff.mp hallowed, strings_some_iff.mp hrequired,
          isBool_some_iff.mp hbool, by simpa using hsubset⟩
      · cases h
    · cases h
  · intro h
    refine ⟨_, strings_some_iff.mpr h.allowedArgKeys, _, strings_some_iff.mpr h.requiredArgKeys, ?_⟩
    rw [riskValue_some_iff.mpr h.risk, isBool_some_iff.mpr h.requiresApproval]
    have hsubset : (entry.requiredArgKeys.all (· ∈ entry.allowedArgKeys)) = true := by simpa using h.required_allowed
    simp only [hsubset, if_true]

theorem KeyList.extends {later : Heap} (hextends : Extends heap later) {value : Value} (hv : value.Below heap.size)
    (keys : List Text) : KeyList later value keys ↔ KeyList heap value keys := by
  have hread : toJson later 17 [] value = toJson heap 17 [] value := toJson_extends hextends 17 (fun _ _ => Iff.rfl) hv
  constructor
  · rintro ⟨h, hwithin⟩
    exact ⟨hread ▸ h, hwithin⟩
  · rintro ⟨h, hwithin⟩
    exact ⟨hread ▸ h, hwithin⟩

theorem Registers.extends {later : Heap} (hextends : Extends heap later) {value : Value} (hv : value.Below heap.size)
    {entry : ToolRegistryEntry} : Registers later value entry ↔ Registers heap value entry := by
  have hown := own_extends hextends hv
  have hallowed := KeyList.extends hextends (below_own heap value "allowedArgKeys") entry.allowedArgKeys
  have hrequired := KeyList.extends hextends (below_own heap value "requiredArgKeys") entry.requiredArgKeys
  constructor
  · rintro ⟨h₁, h₂, h₃, h₄, h₅⟩
    rw [hown] at h₁ h₂ h₃ h₄
    exact ⟨h₁, hallowed.mp h₂, hrequired.mp h₃, h₄, h₅⟩
  · rintro ⟨h₁, h₂, h₃, h₄, h₅⟩
    refine ⟨?_, ?_, ?_, ?_, h₅⟩
    · rwa [hown]
    · rw [hown]
      exact hallowed.mpr h₂
    · rw [hown]
      exact hrequired.mpr h₃
    · rwa [hown]

/-! ### Approvals -/

theorem isDigest_digestText (json : Text) : isDigest (digestText json) = true := by
  have hlength : (sha256Hex json).length = 64 := by
    rw [sha256Hex, List.length_map, pylib.length_sha256_hexdigest]
  have hdigits : ∀ c ∈ sha256Hex json, isHexDigit c = true := by
    intro c hc
    obtain ⟨n, hn, rfl⟩ := List.mem_map.mp hc
    have hhex := pylib.isLowerHex_sha256_hexdigest hn
    have hrange : (48 ≤ n ∧ n < 58) ∨ (97 ≤ n ∧ n < 103) := by simpa [pylib.isLowerHex] using hhex
    have hall : ∀ n < 103, (48 ≤ n ∧ n < 58) ∨ (97 ≤ n ∧ n < 103) → isHexDigit (Char.ofNat n) = true := by decide
    exact hall n (by omega) hrange
  have htake : (digestText json).take 7 = "sha256:".toList := List.take_left' rfl
  have hdrop : (digestText json).drop 7 = sha256Hex json := List.drop_left' rfl
  simp only [isDigest, htake, hdrop, hlength, true_and, List.all_eq_true, decide_eq_true_eq]
  exact hdigits

/-- A human's approval with this identifier, of the invocation with this digest, that has not
    expired and lasts an hour at most; times are milliseconds in double precision. -/
structure Approved (heap : Heap) (approval : Value) (digest : Text) (clock : Int) (approvalId : Text) : Prop where
  invocationDigest : own heap approval "invocationDigest" = .str digest
  approvalId : own heap approval "approvalId" = .str approvalId ∧ isApprovalId approvalId = true
  approverKind : own heap approval "approverKind" = .str "human".toList
  approvedBy : ∃ name, own heap approval "approvedBy" = .str name ∧ trimText name ≠ []
  expiresAt : ∃ expiry, timestamp (own heap approval "expiresAt") = some expiry ∧ (clock : ℚ) < expiry ∧
    roundDouble (expiry - clock) ≤ 3600000

theorem verifyApprovalBinding_ok_iff {approval now : Value} {digest approvalId : Text} {clock : Int}
    (hdigest : isDigest digest = true) (hclock : heap.getTime now = some (some clock)) :
    verifyApprovalBinding heap approval (some digest) now = .ok approvalId ↔
      Approved heap approval digest clock approvalId := by
  have hfilter : (some digest).filter isDigest = some digest := by simp [hdigest]
  simp only [verifyApprovalBinding, hfilter, hclock]
  constructor
  · intro h
    split at h
    · cases h
    · split at h
      · cases h
      · next hbound =>
        split at h
        · cases h
        · next id hid =>
          split at h
          · cases h
          · next hkind =>
            split at h
            · next name hname =>
              split at h
              · cases h
              · next hblank =>
                split at h
                · cases h
                · next expiry hexpiry =>
                  split at h
                  · cases h
                  · next hlong =>
                    split at h
                    · cases h
                    · next hlate =>
                      obtain rfl := Except.ok.inj h
                      exact ⟨not_not.mp hbound, matched_some_iff.mp hid, not_not.mp hkind, ⟨name, hname, hblank⟩,
                        expiry, hexpiry, not_not.mp hlate, not_lt.mp hlong⟩
            · cases h
  · rintro ⟨hbound, hid, hkind, ⟨name, hname, hblank⟩, expiry, hexpiry, hlate, hlong⟩
    have hpresent : ¬ (approval = .null ∨ approval = .undefined) := by
      rintro (rfl | rfl) <;> cases hbound
    rw [if_neg hpresent, if_neg (not_not.mpr hbound)]
    simp only [matched_some_iff.mpr hid]
    rw [if_neg (not_not.mpr hkind)]
    simp only [hname, if_neg hblank, hexpiry, if_neg (not_lt.mpr hlong), if_neg (not_not.mpr hlate)]

/-! ### Arguments -/

/-- The arguments are an object with no key but the allowed ones, and with all that are required. -/
def ArgsMatch (entry : ToolRegistryEntry) (args : Json) : Prop :=
  ∃ fields, args = .obj fields ∧ (∀ field ∈ fields, field.1 ∈ entry.allowedArgKeys) ∧
    ∀ key ∈ entry.requiredArgKeys, ∃ value, (key, value) ∈ fields

theorem mem_names_iff {o : Object} {properties : List (Text × Value)} (hproperties : dataProperties o = some properties)
    (hlength : o.arrayLength = none) {key : Text} : key ∈ o.names ↔ ∃ value, (key, value) ∈ properties := by
  have hnames : key ∈ o.names ↔ ∃ property, (.str key, property) ∈ o.properties := by
    simp only [Object.names, hlength, List.append_nil, List.mem_filterMap, Prod.exists]
    constructor
    · rintro ⟨name, property, hmem, heq⟩
      cases name with
      | str name =>
        obtain rfl := Option.some.inj heq
        exact ⟨property, hmem⟩
      | symbol id => cases heq
    · rintro ⟨property, hmem⟩
      exact ⟨_, property, hmem, rfl⟩
  rw [hnames]
  constructor
  · rintro ⟨property, hmem⟩
    obtain ⟨field, hfield, heq⟩ := mem_of_mem_mapM hproperties hmem
    split at heq
    · next name value hentry =>
      obtain ⟨hname, rfl⟩ := Prod.mk.inj hentry
      obtain rfl := PropertyKey.str.inj hname
      split at heq
      · cases heq
      · obtain rfl := Option.some.inj heq
        exact ⟨value, hfield⟩
    · cases heq
  · rintro ⟨value, hmem⟩
    exact ⟨_, ((mem_dataProperties hproperties).mp hmem).1⟩

theorem property_ne_none_iff {o : Object} {properties : List (Text × Value)}
    (hproperties : dataProperties o = some properties) (hlength : o.arrayLength = none) {key : Text} :
    o.property key ≠ none ↔ ∃ value, (key, value) ∈ properties := by
  have hproperty : o.property key = (properties.lookup key).map data := by
    rw [← lookup_dataProperties hproperties]
    simp only [Object.property, hlength]
  rw [hproperty, ne_eq, Option.map_eq_none_iff, List.lookup_eq_none_iff]
  simp only [not_forall, Prod.exists]
  constructor
  · rintro ⟨name, value, hmem, hname⟩
    obtain rfl : key = name := by simpa using hname
    exact ⟨value, hmem⟩
  · rintro ⟨value, hmem⟩
    exact ⟨key, value, hmem, by simp⟩

/-- The keys that the check looks at are those of the JSON object. -/
theorem argsMatch_iff (entry : ToolRegistryEntry) {v : Value} {args : Json} (hargs : toJson heap 16 [] v = some args) :
    (∃ o, heap.object v = some o ∧ plain heap v = true ∧ (∀ key ∈ o.names, key ∈ entry.allowedArgKeys) ∧
      ∀ key ∈ entry.requiredArgKeys, o.property key ≠ none) ↔ ArgsMatch entry args := by
  cases v with
  | ref address =>
    obtain ⟨o, properties, ho, hproperties,
      ⟨size, items, hlength, hproto, -, rfl⟩ | ⟨fields, hlength, hplain, hfields, rfl⟩⟩ := toJson_ref_some hargs
    · refine iff_of_false ?_ ?_
      · rintro ⟨o', ho', hplain, -⟩
        obtain rfl := Option.some.inj (ho.symm.trans ho')
        simp [plain, ho, hproto] at hplain
      · rintro ⟨fields, heq, -⟩
        cases heq
    · have hmem : ∀ key, (∃ value, (key, value) ∈ properties) ↔ ∃ value, (key, value) ∈ fields := by
        intro key
        constructor
        · rintro ⟨value, hvalue⟩
          obtain ⟨field, hfield, heq⟩ := mem_of_mem_mapM hfields (mem_sortByKey.mpr hvalue)
          obtain ⟨t, -, rfl⟩ := Option.map_eq_some_iff.mp heq
          exact ⟨t, hfield⟩
        · rintro ⟨t, ht⟩
          obtain ⟨⟨name, value⟩, hvalue, heq⟩ := exists_of_mem_mapM hfields ht
          obtain ⟨t', -, heq⟩ := Option.map_eq_some_iff.mp heq
          obtain rfl := (Prod.mk.inj heq).1
          exact ⟨value, mem_sortByKey.mp hvalue⟩
      constructor
      · rintro ⟨o', ho', -, hallowed, hrequired⟩
        obtain rfl := Option.some.inj (ho.symm.trans ho')
        refine ⟨fields, rfl, fun field hfield => ?_, fun key hkey => ?_⟩
        · apply hallowed
          exact (mem_names_iff hproperties hlength).mpr ((hmem field.1).mpr ⟨field.2, hfield⟩)
        · exact (hmem key).mp ((property_ne_none_iff hproperties hlength).mp (hrequired key hkey))
      · rintro ⟨fields', heq, hallowed, hrequired⟩
        obtain rfl := Json.obj.inj heq
        refine ⟨o, ho, hplain, fun key hkey => ?_, fun key hkey => ?_⟩
        · obtain ⟨value, hvalue⟩ := (hmem key).mp ((mem_names_iff hproperties hlength).mp hkey)
          exact hallowed (key, value) hvalue
        · exact (property_ne_none_iff hproperties hlength).mpr ((hmem key).mpr (hrequired key hkey))
  | null | str | bool | num | undefined | nonFinite | other =>
    refine iff_of_false (by simp [Heap.object]) ?_
    rintro ⟨fields, rfl, -⟩
    simp [toJson] at hargs

/-! ### The checks after the registry -/

/-- The field of the agent's scope is a set with this element. -/
def Granted (heap : Heap) (input : Value) (field : String) (s : Text) : Prop :=
  heap.setHas (own heap (own heap input "sessionScope") field) s = some true

theorem has_iff {input : Value} {field : String} {s : Text} (hs : s ≠ ['*']) :
    has heap (own heap input "sessionScope") field s = true ↔ Granted heap input field s := by
  simp [has, hs, Granted]

theorem ne_star_of_isToolName {s : Text} (h : isToolName s = true) : s ≠ ['*'] := by
  rintro rfl
  cases h

theorem ne_star_of_isLabelText {s : Text} (h : isLabelText s = true) : s ≠ ['*'] := by
  rintro rfl
  cases h

/-- The tool and the target are granted to the agent, and the arguments have the keys they should. -/
structure InScope (heap : Heap) (input : Value) (r : ResolutionArtifact heap) (args : Json) (entry : ToolRegistryEntry) :
    Prop where
  tool : Granted heap input "allowedTools" r.tool
  cluster : Granted heap input "clusters" r.cluster
  namespace_ : match r.namespace_ with
    | none => entry.risk = .readOnly
    | some namespace_ => Granted heap input "namespaces" namespace_
  args : ArgsMatch entry args

def NeedsApproval (entry : ToolRegistryEntry) : Prop := entry.risk = .destructive ∨ entry.requiresApproval = true

end

/-- The checks of `authorizeEntry`, in its own heap. -/
structure Passes {heap₀ : Heap} (heap : Heap) (input : Value) (resolved : ResolutionArtifact heap₀)
    (entry : ToolRegistryEntry) : Prop where
  tool : has heap (own heap input "sessionScope") "allowedTools" resolved.tool = true
  cluster : has heap (own heap input "sessionScope") "clusters" resolved.cluster = true
  namespace_ : namespaceInScope heap (own heap input "sessionScope") resolved.namespace_ entry.risk = true
  args : ∃ o, heap.object resolved.normalizedArgs = some o ∧ plain heap resolved.normalizedArgs = true ∧
    (∀ key ∈ o.names, key ∈ entry.allowedArgKeys) ∧ ∀ key ∈ entry.requiredArgKeys, o.property key ≠ none

section

variable {heap₀ heap : Heap} {input : Value} {resolved : ResolutionArtifact heap₀} {digest : Text}
  {entry : ToolRegistryEntry}

theorem argsSchema_iff {o : Object} :
    (¬ plain heap resolved.normalizedArgs ∨ o.names.any (· ∉ entry.allowedArgKeys) ∨
      entry.requiredArgKeys.any (o.property · = none)) ↔
      ¬ (plain heap resolved.normalizedArgs = true ∧ (∀ key ∈ o.names, key ∈ entry.allowedArgKeys) ∧
        ∀ key ∈ entry.requiredArgKeys, o.property key ≠ none) := by
  simp only [List.any_eq_true, decide_eq_true_eq, not_and_or, not_forall, exists_prop, ne_eq, not_not]

/-- Only what passes every check can be anything but denied. -/
theorem authorizeEntry_deny (h : ¬ Passes heap input resolved entry) :
    (authorizeEntry heap input resolved digest entry).decision = .deny := by
  simp only [authorizeEntry]
  by_cases htool : has heap (own heap input "sessionScope") "allowedTools" resolved.tool = true
  swap
  · rw [if_pos htool]
    rfl
  rw [if_neg (not_not.mpr htool)]
  by_cases hcluster : has heap (own heap input "sessionScope") "clusters" resolved.cluster = true
  swap
  · rw [if_pos hcluster]
    rfl
  rw [if_neg (not_not.mpr hcluster)]
  by_cases hnamespace : namespaceInScope heap (own heap input "sessionScope") resolved.namespace_ entry.risk = true
  swap
  · rw [if_pos hnamespace]
    rfl
  rw [if_neg (not_not.mpr hnamespace)]
  cases ho : heap.object resolved.normalizedArgs with
  | none => rfl
  | some o =>
    have hschema := (argsSchema_iff (o := o)).mpr fun hargs => h ⟨htool, hcluster, hnamespace, o, ho, hargs⟩
    simp only
    rw [if_pos hschema]
    rfl

/-- What passes every check is allowed exactly if it needs no approval or has one. -/
theorem authorizeEntry_of_passes (h : Passes heap input resolved entry) :
    (authorizeEntry heap input resolved digest entry).decision ≠ .deny ∧
      ((authorizeEntry heap input resolved digest entry).decision = .allow ↔
        (NeedsApproval entry → ∃ approvalId, verifyApprovalBinding heap (own heap input "approval") (some digest)
          (own heap input "now") = .ok approvalId)) := by
  obtain ⟨htool, hcluster, hnamespace, o, ho, hargs⟩ := h
  have hschema := fun hfails => (argsSchema_iff (o := o)).mp hfails hargs
  simp only [authorizeEntry, htool, hcluster, hnamespace, not_true, if_false, ho]
  rw [if_neg hschema]
  by_cases hneeds : entry.risk = .destructive ∨ entry.requiresApproval = true
  · rw [if_pos hneeds]
    cases hverify : verifyApprovalBinding heap (own heap input "approval") (some digest) (own heap input "now") with
    | error reason => simp [NeedsApproval, hneeds]
    | ok approvalId => simp
  · rw [if_neg hneeds]
    simp [NeedsApproval, hneeds]

end

/-! ### The same values in a larger heap -/

section

variable {heap later : Heap} (hextends : Extends heap later) {v : Value} (hv : v.Below heap.size)
include hextends hv

theorem getTime_extends : later.getTime v = heap.getTime v := by
  simp only [Heap.getTime, hextends.2 v hv]

theorem mapGet_extends (key : Text) : later.mapGet v key = heap.mapGet v key := by
  simp only [Heap.mapGet, hextends.2 v hv]

theorem setHas_extends (key : Text) : later.setHas v key = heap.setHas v key := by
  simp only [Heap.setHas, hextends.2 v hv]

theorem granted_extends (field : String) (s : Text) : Granted later v field s ↔ Granted heap v field s := by
  have hscope := own_extends hextends hv "sessionScope"
  have hfield := own_extends hextends (below_own heap v "sessionScope") field
  rw [Granted, Granted, hscope, hfield,
    setHas_extends hextends (below_own heap (own heap v "sessionScope") field)]

theorem approved_extends {digest approvalId : Text} {clock : Int} :
    Approved later v digest clock approvalId ↔ Approved heap v digest clock approvalId := by
  have hown := own_extends hextends hv
  constructor
  · rintro ⟨h₁, h₂, h₃, h₄, h₅⟩
    rw [hown] at h₁ h₂ h₃ h₄ h₅
    exact ⟨h₁, h₂, h₃, h₄, h₅⟩
  · rintro ⟨h₁, h₂, h₃, h₄, h₅⟩
    refine ⟨?_, ?_, ?_, ?_, ?_⟩ <;> rwa [hown]

end

theorem below_of_own_ne_undefined {heap : Heap} {v : Value} {key : String} (h : own heap v key ≠ .undefined) :
    v.Below heap.size := by
  unfold own at h
  split at h
  · next o ho => exact Heap.below_of_object ho
  · exact absurd rfl h

theorem below_of_mapGet {heap : Heap} {v value : Value} {key : Text} (h : heap.mapGet v key = some value) :
    value.Below heap.size := by
  unfold Heap.mapGet at h
  split at h
  · next entries _ _ _ ho =>
    obtain rfl := Option.some.inj h
    cases hlookup : entries.lookup (.str key) with
    | none => trivial
    | some value =>
      apply Heap.below_of_mem_values ho
      obtain ⟨before, after, heq, -⟩ := List.lookup_eq_some_iff.mp hlookup
      apply List.mem_append_right
      exact List.mem_flatMap.mpr ⟨(.str key, value), by simp [heq], by simp⟩
  · cases h

/-! ### Authorization -/

section

variable {heap : Heap} {input : Value}

def ResolutionArtifact.digest (r : ResolutionArtifact heap) (args : Json) : Text := digestText (stringify (r.json args))

/-- The resolution is well formed and can be canonicalised, the clock is valid, and the tool has a
    well-formed entry in the registry. -/
structure Known (heap : Heap) (input : Value) (r : ResolutionArtifact heap) (args : Json) (entry : ToolRegistryEntry)
    (clock : Int) : Prop where
  resolves : Resolves heap (own heap input "resolution") r
  canonicalisable : Canonicalisable r args
  clock : heap.getTime (own heap input "now") = some (some clock)
  registered : ∃ value, heap.mapGet (own heap input "registry") r.tool = some value ∧ Registers heap value entry

theorem Resolves.below {r : ResolutionArtifact heap} (h : Resolves heap (own heap input "resolution") r) :
    input.Below heap.size := by
  have hvalue : own heap input "resolution" ≠ .undefined := by
    intro hundefined
    have htool := h.tool.1
    rw [hundefined] at htool
    cases htool
  exact below_of_own_ne_undefined hvalue

/-- Such an invocation is judged by the checks after the registry. -/
theorem Known.authorizeInvocation_eq {r : ResolutionArtifact heap} {args : Json} {entry : ToolRegistryEntry} {clock : Int}
    (h : Known heap input r args entry clock) :
    authorizeInvocation heap input = authorizeEntry r.alloc.1 input r (r.digest args) entry := by
  obtain ⟨hresolves, hargs, hclock, value, hvalue, hentry⟩ := h
  obtain ⟨hresolution, hdigest⟩ := digest_iff.mpr ⟨args, hresolves, hargs, rfl⟩
  have hown := own_extends r.extends_alloc hresolves.below
  have hclock' := (getTime_extends r.extends_alloc (below_own heap input "now")).trans hclock
  have hvalue' := (mapGet_extends r.extends_alloc (below_own heap input "registry") r.tool).trans hvalue
  have hentry' := registryEntry_some_iff.mpr ((Registers.extends r.extends_alloc (below_of_mapGet hvalue)).mpr hentry)
  simp only [authorizeInvocation, hresolution, hdigest, hown, hclock', hvalue', hentry']
  rfl

/-- Everything else is denied. -/
theorem exists_known_of_ne_deny (h : (authorizeInvocation heap input).decision ≠ .deny) :
    ∃ r args entry clock, Known heap input r args entry clock := by
  simp only [authorizeInvocation] at h
  split at h
  · exact absurd rfl h
  · next r hresolution =>
    split at h
    · exact absurd rfl h
    · next digest hdigest =>
      obtain ⟨args, hresolves, hargs, rfl⟩ := digest_iff.mp ⟨hresolution, hdigest⟩
      have hown := own_extends r.extends_alloc hresolves.below
      split at h
      · exact absurd rfl h
      · exact absurd rfl h
      · next clock hclock =>
        split at h
        · exact absurd rfl h
        · next value hvalue =>
          split at h
          · exact absurd rfl h
          · exact absurd rfl h
          · next entry hentry =>
            rw [hown, getTime_extends r.extends_alloc (below_own heap input "now")] at hclock
            rw [hown, mapGet_extends r.extends_alloc (below_own heap input "registry")] at hvalue
            have hregisters := registryEntry_some_iff.mp hentry
            exact ⟨r, args, entry, clock, hresolves, hargs, hclock, value, hvalue,
              (Registers.extends r.extends_alloc (below_of_mapGet hvalue)).mp hregisters⟩

theorem Known.passes_iff {r : ResolutionArtifact heap} {args : Json} {entry : ToolRegistryEntry} {clock : Int}
    (h : Known heap input r args entry clock) : Passes r.alloc.1 input r entry ↔ InScope heap input r args entry := by
  have hhas : ∀ field s, s ≠ ['*'] →
      (has r.alloc.1 (own r.alloc.1 input "sessionScope") field s = true ↔ Granted heap input field s) :=
    fun field s hs => (has_iff hs).trans (granted_extends r.extends_alloc h.resolves.below field s)
  have htool := hhas "allowedTools" r.tool (ne_star_of_isToolName h.resolves.tool.2)
  have hcluster := hhas "clusters" r.cluster (ne_star_of_isLabelText h.resolves.cluster.2)
  have hnamespace : namespaceInScope r.alloc.1 (own r.alloc.1 input "sessionScope") r.namespace_ entry.risk = true ↔
      match r.namespace_ with
      | none => entry.risk = .readOnly
      | some namespace_ => Granted heap input "namespaces" namespace_ := by
    cases hname : r.namespace_ with
    | none => simp [namespaceInScope]
    | some namespace_ => exact hhas "namespaces" namespace_ (ne_star_of_isLabelText (h.resolves.namespace_.2 namespace_ hname))
  have hobject := r.extends_alloc.2 r.normalizedArgs r.below
  have hargs := argsMatch_iff entry h.canonicalisable.read
  constructor
  · rintro ⟨h₁, h₂, h₃, h₄⟩
    rw [hobject, plain_congr hobject] at h₄
    exact ⟨htool.mp h₁, hcluster.mp h₂, hnamespace.mp h₃, hargs.mp h₄⟩
  · rintro ⟨h₁, h₂, h₃, h₄⟩
    refine ⟨htool.mpr h₁, hcluster.mpr h₂, hnamespace.mpr h₃, ?_⟩
    rw [hobject, plain_congr hobject]
    exact hargs.mpr h₄

/-- Every check but that of the approval is passed. -/
structure Permitted (heap : Heap) (input : Value) (r : ResolutionArtifact heap) (args : Json) (entry : ToolRegistryEntry)
    (clock : Int) : Prop where
  known : Known heap input r args entry clock
  inScope : InScope heap input r args entry

theorem Permitted.allow_iff {r : ResolutionArtifact heap} {args : Json} {entry : ToolRegistryEntry} {clock : Int}
    (h : Permitted heap input r args entry clock) :
    (authorizeInvocation heap input).decision = .allow ↔
      (NeedsApproval entry → ∃ approvalId, Approved heap (own heap input "approval") (r.digest args) clock approvalId) := by
  obtain ⟨hknown, hscope⟩ := h
  have hown := own_extends r.extends_alloc hknown.resolves.below
  have hclock := (getTime_extends r.extends_alloc (below_own heap input "now")).trans hknown.clock
  rw [hknown.authorizeInvocation_eq, (authorizeEntry_of_passes (hknown.passes_iff.mpr hscope)).2, hown, hown]
  simp only [verifyApprovalBinding_ok_iff (isDigest_digestText _) hclock,
    approved_extends r.extends_alloc (below_own heap input "approval"), ResolutionArtifact.digest]

/-- What is not permitted is denied, whatever the approval is. -/
theorem authorizeInvocation_deny (h : ¬ ∃ r args entry clock, Permitted heap input r args entry clock) :
    (authorizeInvocation heap input).decision = .deny := by
  by_contra hdecision
  obtain ⟨r, args, entry, clock, hknown⟩ := exists_known_of_ne_deny hdecision
  apply hdecision
  rw [hknown.authorizeInvocation_eq]
  apply authorizeEntry_deny
  intro hpasses
  exact h ⟨r, args, entry, clock, hknown, hknown.passes_iff.mp hpasses⟩

/-- Two inputs that differ in the approval at most. -/
structure SameButApproval (heap : Heap) (input changed : Value) : Prop where
  resolution : own heap changed "resolution" = own heap input "resolution"
  registry : own heap changed "registry" = own heap input "registry"
  sessionScope : own heap changed "sessionScope" = own heap input "sessionScope"
  now : own heap changed "now" = own heap input "now"

theorem SameButApproval.permitted {changed : Value} (h : SameButApproval heap input changed)
    {r : ResolutionArtifact heap} {args : Json} {entry : ToolRegistryEntry} {clock : Int}
    (hpermitted : Permitted heap changed r args entry clock) : Permitted heap input r args entry clock := by
  obtain ⟨⟨hresolves, hargs, hclock, hregistered⟩, ⟨htool, hcluster, hnamespace, hmatch⟩⟩ := hpermitted
  simp only [Granted, h.sessionScope] at htool hcluster hnamespace
  exact ⟨⟨h.resolution ▸ hresolves, hargs, h.now ▸ hclock, h.registry ▸ hregistered⟩, ⟨htool, hcluster, hnamespace, hmatch⟩⟩

/-- Exactly what passes every check, and has an approval of that very invocation where one is
    needed, is allowed; and what fails another check is denied with any approval. -/
theorem authorizeInvocation_allow_iff (heap : Heap) (input : Value) :
    ((authorizeInvocation heap input).decision = .allow ↔
      ∃ r args entry clock, Permitted heap input r args entry clock ∧
        (NeedsApproval entry →
          ∃ approvalId, Approved heap (own heap input "approval") (r.digest args) clock approvalId)) ∧
      ((¬ ∃ r args entry clock, Permitted heap input r args entry clock) →
        ∀ changed, SameButApproval heap input changed → (authorizeInvocation heap changed).decision = .deny) := by
  refine ⟨?_, ?_⟩
  · constructor
    · intro hallow
      have hpermitted : ∃ r args entry clock, Permitted heap input r args entry clock := by
        by_contra hnone
        rw [authorizeInvocation_deny hnone] at hallow
        cases hallow
      obtain ⟨r, args, entry, clock, hpermitted⟩ := hpermitted
      exact ⟨r, args, entry, clock, hpermitted, hpermitted.allow_iff.mp hallow⟩
    · rintro ⟨r, args, entry, clock, hpermitted, happroved⟩
      exact hpermitted.allow_iff.mpr happroved
  · intro hnone changed hsame
    apply authorizeInvocation_deny
    rintro ⟨r, args, entry, clock, hpermitted⟩
    exact hnone ⟨r, args, entry, clock, hsame.permitted hpermitted⟩

end

end narwhal.portal.agent_invocation
