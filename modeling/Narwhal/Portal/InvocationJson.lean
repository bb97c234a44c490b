import Narwhal.Portal.AgentInvocation

open jslib

namespace narwhal.portal.agent_invocation

/-! ### The JSON value of a value -/

/-- The JSON value that a value is, its keys in order, if it has at most `depth` levels and consists
    of local plain objects and arrays that hold nothing but data and do not contain themselves. -/
def toJson (heap : Heap) : Nat → List Nat → Value → Option Json
  | 0, _, _ => none
  | depth + 1, active, input =>
    match input with
    | .null => some .null
    | .str s => some (.str s)
    | .bool b => some (.bool b)
    | .num n => some (.num n)
    | .ref address =>
      match heap.object (.ref address) with
      | none => none
      | some o =>
        if address ∈ active then none
        else
          match o.arrayLength with
          | some size =>
            if o.prototype ≠ .array ∨ o.keyCount ≠ size + 1 then none
            else do
              let properties ← dataProperties o
              let items ← (elements properties size).mapM fun v => v.bind (toJson heap depth (address :: active))
              some (.arr items)
          | none =>
            if ¬ plain heap (.ref address) then none
            else do
              let properties ← dataProperties o
              let fields ← (sortByKey properties).mapM fun entry =>
                (toJson heap depth (address :: active) entry.2).map (entry.1, ·)
              some (.obj fields)
    | _ => none

mutual

/-- A value counts itself and all it contains. -/
def nodes : Json → Nat
  | .arr items => 1 + nodesItems items
  | .obj fields => 1 + nodesFields fields
  | .null | .bool _ | .num _ | .str _ => 1

def nodesItems : List Json → Nat
  | [] => 0
  | item :: items => nodes item + nodesItems items

def nodesFields : List (Text × Json) → Nat
  | [] => 0
  | (_, value) :: fields => nodes value + nodesFields fields

end

/-! ### Budgets -/

namespace Budget

structure Ok (b : Budget) : Prop where
  nodes : b.nodes ≤ 10000
  length : b.length ≤ 1000000

def charge (b : Budget) (nodes length : Nat) : Budget := ⟨b.nodes + nodes, b.length + length⟩

theorem Ok.of_charge {b : Budget} {nodes length : Nat} (h : (b.charge nodes length).Ok) : b.Ok :=
  ⟨(Nat.le_add_right _ _).trans h.nodes, (Nat.le_add_right _ _).trans h.length⟩

theorem charge_charge (b : Budget) (n l n' l' : Nat) : (b.charge n l).charge n' l' = b.charge (n + n') (l + l') := by
  simp [charge, Nat.add_assoc]

@[simp] theorem charge_zero (b : Budget) : b.charge 0 0 = b := rfl

end Budget

theorem utf16Length_append (s t : Text) : utf16Length (s ++ t) = utf16Length s + utf16Length t := by
  simp [utf16Length]

theorem emit_some_iff {text : Text} {b : Budget} (hb : b.Ok) {r : Text × Budget} :
    emit text b = some r ↔ r = (text, b.charge 0 (utf16Length text)) ∧ r.2.Ok := by
  unfold emit
  by_cases hlong : 1000000 < b.length + utf16Length text
  · rw [if_pos hlong]
    refine iff_of_false (by simp) ?_
    rintro ⟨rfl, hok⟩
    exact absurd hok.length (Nat.not_le.mpr hlong)
  · rw [if_neg hlong]
    constructor
    · intro h
      obtain rfl := Option.some.inj h
      exact ⟨rfl, hb.nodes, Nat.not_lt.mp hlong⟩
    · rintro ⟨rfl, -⟩
      rfl

/-! ### The loops -/

/-- The parts from index `i` on: a comma stands before each but the very first. -/
def separated (i : Nat) (parts : List Text) : Text :=
  if 0 < i then parts.flatMap (',' :: ·) else [','].intercalate parts

theorem separated_cons (i : Nat) (part : Text) (parts : List Text) :
    separated i (part :: parts) = (if 0 < i then [','] else []) ++ (part ++ separated (i + 1) parts) := by
  unfold separated
  by_cases hi : 0 < i
  · simp [hi]
  · simp [hi, intercalate_cons_flatMap]

theorem separated_nil (i : Nat) : separated i [] = [] := by
  unfold separated
  split <;> rfl

theorem emitComma_some_iff {i : Nat} {b : Budget} (hb : b.Ok) {r : Text × Budget} :
    emitComma i b = some r ↔
      r = (if 0 < i then [','] else [], b.charge 0 (utf16Length (if 0 < i then [','] else []))) ∧ r.2.Ok := by
  unfold emitComma
  by_cases hi : 0 < i
  · simp only [if_pos hi]
    exact emit_some_iff hb
  · simp only [if_neg hi, Option.some.injEq]
    constructor
    · rintro rfl
      exact ⟨rfl, hb⟩
    · rintro ⟨rfl, -⟩
      rfl

/-- What visiting a value does: it reads it as JSON, and charges its nodes and its text. -/
def Charges (visit : Value → Budget → Option (Text × Budget)) (read : Value → Option Json) : Prop :=
  ∀ v b, b.Ok → ∀ r, visit v b = some r ↔
    ∃ t, read v = some t ∧ r = (stringify t, b.charge (nodes t) (utf16Length (stringify t))) ∧ r.2.Ok

theorem visitItems_some_iff {visit : Value → Budget → Option (Text × Budget)} {read : Value → Option Json}
    (hvisit : Charges visit read) (i : Nat) (items : List (Option Value)) {b : Budget} (hb : b.Ok)
    (r : List Text × Budget) :
    visitItems visit i items b = some r ↔
      ∃ ts, items.mapM (fun v => v.bind read) = some ts ∧
        r = (ts.map stringify, b.charge (nodesItems ts) (utf16Length (separated i (ts.map stringify)))) ∧ r.2.Ok := by
  induction items generalizing i b r with
  | nil =>
    simp only [visitItems, List.mapM_nil, Option.some.injEq]
    constructor
    · rintro rfl
      exact ⟨[], rfl, by simp [nodesItems, separated_nil, utf16Length], hb⟩
    · rintro ⟨ts, hts, hr, -⟩
      obtain rfl := Option.some.inj hts
      simpa [nodesItems, separated_nil, utf16Length] using hr.symm
  | cons item rest ih =>
    cases item with
    | none => simp [visitItems, List.mapM_cons]
    | some value =>
      simp only [visitItems, List.mapM_cons, Option.bind_eq_bind, Option.bind_eq_some_iff, Prod.exists, Option.bind_some,
        Option.pure_def, Option.some.injEq]
      constructor
      · rintro ⟨c, b₁, hcomma, part, b₂, hpart, parts, b₃, hparts, rfl⟩
        obtain ⟨hc, hok₁⟩ := (emitComma_some_iff hb).mp hcomma
        obtain ⟨rfl, rfl⟩ := Prod.mk.inj hc
        obtain ⟨t, hread, ht, hok₂⟩ := (hvisit value _ hok₁ _).mp hpart
        obtain ⟨rfl, rfl⟩ := Prod.mk.inj ht
        obtain ⟨ts, hmap, hts, hok₃⟩ := (ih (i + 1) hok₂ _).mp hparts
        obtain ⟨rfl, rfl⟩ := Prod.mk.inj hts
        refine ⟨t :: ts, ⟨t, hread, ts, hmap, rfl⟩, ?_, hok₃⟩
        simp only [List.map_cons, separated_cons, utf16Length_append, nodesItems, Budget.charge_charge, zero_add,
          Nat.add_assoc]
      · rintro ⟨ts, ⟨t, hread, ts', hmap, rfl⟩, rfl, hok⟩
        simp only [List.map_cons, separated_cons, utf16Length_append, nodesItems] at hok ⊢
        rw [show b.charge (nodes t + nodesItems ts') _ = ((b.charge 0 (utf16Length (if 0 < i then [','] else []))).charge
          (nodes t) (utf16Length (stringify t))).charge (nodesItems ts')
            (utf16Length (separated (i + 1) (ts'.map stringify))) by simp [Budget.charge_charge, Nat.add_assoc]] at hok ⊢
        have hok₂ := hok.of_charge
        have hok₁ := hok₂.of_charge
        refine ⟨_, _, (emitComma_some_iff hb).mpr ⟨rfl, hok₁⟩, _, _, (hvisit value _ hok₁ _).mpr ⟨t, hread, rfl, hok₂⟩, _, _,
          (ih (i + 1) hok₂ _).mpr ⟨ts', hmap, rfl, hok⟩, rfl⟩

/-- A field as it is written. -/
def fieldText (field : Text × Json) : Text := jsonString field.1 ++ [':'] ++ stringify field.2

theorem visitFields_some_iff {visit : Value → Budget → Option (Text × Budget)} {read : Value → Option Json}
    (hvisit : Charges visit read) (i : Nat) (fields : List (Text × Value)) {b : Budget} (hb : b.Ok)
    (r : List Text × Budget) :
    visitFields visit i fields b = some r ↔
      ∃ ts, fields.mapM (fun entry => (read entry.2).map (entry.1, ·)) = some ts ∧
        r = (ts.map fieldText, b.charge (nodesFields ts) (utf16Length (separated i (ts.map fieldText)))) ∧ r.2.Ok := by
  induction fields generalizing i b r with
  | nil =>
    simp only [visitFields, List.mapM_nil, Option.some.injEq]
    constructor
    · rintro rfl
      exact ⟨[], rfl, by simp [nodesFields, separated_nil, utf16Length], hb⟩
    · rintro ⟨ts, hts, hr, -⟩
      obtain rfl := Option.some.inj hts
      simpa [nodesFields, separated_nil, utf16Length] using hr.symm
  | cons field rest ih =>
    obtain ⟨key, value⟩ := field
    simp only [visitFields, List.mapM_cons, Option.bind_eq_bind, Option.bind_eq_some_iff, Prod.exists,
      Option.map_eq_some_iff, Option.pure_def, Option.some.injEq]
    constructor
    · rintro ⟨c, b₁, hcomma, name, b₂, hname, colon, b₃, hcolon, text, b₄, htext, parts, b₅, hparts, rfl⟩
      obtain ⟨hc, hok₁⟩ := (emitComma_some_iff hb).mp hcomma
      obtain ⟨rfl, rfl⟩ := Prod.mk.inj hc
      obtain ⟨hn, hok₂⟩ := (emit_some_iff hok₁).mp hname
      obtain ⟨rfl, rfl⟩ := Prod.mk.inj hn
      obtain ⟨hl, hok₃⟩ := (emit_some_iff hok₂).mp hcolon
      obtain ⟨rfl, rfl⟩ := Prod.mk.inj hl
      obtain ⟨t, hread, ht, hok₄⟩ := (hvisit value _ hok₃ _).mp htext
      obtain ⟨rfl, rfl⟩ := Prod.mk.inj ht
      obtain ⟨ts, hmap, hts, hok₅⟩ := (ih (i + 1) hok₄ _).mp hparts
      obtain ⟨rfl, rfl⟩ := Prod.mk.inj hts
      refine ⟨(key, t) :: ts, ⟨key, t, ⟨t, hread, rfl⟩, ts, hmap, rfl⟩, ?_, hok₅⟩
      simp only [List.map_cons, fieldText, separated_cons, utf16Length_append, nodesFields, Budget.charge_charge,
        zero_add, Nat.add_assoc]
    · rintro ⟨ts, ⟨k, t, ⟨t', hread, hkt⟩, ts', hmap, rfl⟩, rfl, hok⟩
      obtain ⟨rfl, rfl⟩ := Prod.mk.inj hkt
      have hcharge : b.charge (nodesFields ((key, t') :: ts')) (utf16Length (separated i (((key, t') :: ts').map fieldText))) =
          ((((b.charge 0 (utf16Length (if 0 < i then [','] else []))).charge 0 (utf16Length (jsonString key))).charge 0
            (utf16Length [':'])).charge (nodes t') (utf16Length (stringify t'))).charge (nodesFields ts')
              (utf16Length (separated (i + 1) (ts'.map fieldText))) := by
        simp only [List.map_cons, fieldText, separated_cons, utf16Length_append, nodesFields, Budget.charge_charge,
          zero_add, Nat.add_assoc]
      rw [hcharge] at hok ⊢
      have hok₄ := hok.of_charge
      have hok₃ := hok₄.of_charge
      have hok₂ := hok₃.of_charge
      have hok₁ := hok₂.of_charge
      refine ⟨_, _, (emitComma_some_iff hb).mpr ⟨rfl, hok₁⟩, _, _, (emit_some_iff hok₁).mpr ⟨rfl, hok₂⟩, _, _,
        (emit_some_iff hok₂).mpr ⟨rfl, hok₃⟩, _, _, (hvisit value _ hok₃ _).mpr ⟨t', hread, rfl, hok₄⟩, _, _,
        (ih (i + 1) hok₄ _).mpr ⟨ts', hmap, rfl, hok⟩, rfl⟩

/-! ### Visiting -/

theorem nodes_pos (t : Json) : 1 ≤ nodes t := by
  cases t <;> simp [nodes]

theorem length_le_nodesItems (ts : List Json) : ts.length ≤ nodesItems ts := by
  induction ts with
  | nil => exact Nat.le_refl 0
  | cons t ts ih =>
    have ht := nodes_pos t
    simp only [List.length_cons, nodesItems]
    omega

theorem length_le_nodesFields (ts : List (Text × Json)) : ts.length ≤ nodesFields ts := by
  induction ts with
  | nil => exact Nat.le_refl 0
  | cons field ts ih =>
    have ht := nodes_pos field.2
    simp only [List.length_cons, nodesFields]
    omega

theorem length_of_mapM {α β : Type} {f : α → Option β} {l : List α} {r : List β} (h : l.mapM f = some r) :
    r.length = l.length := by
  induction l generalizing r with
  | nil =>
    obtain rfl := Option.some.inj h
    rfl
  | cons a l ih =>
    simp only [List.mapM_cons, Option.bind_eq_bind, Option.bind_eq_some_iff, Option.pure_def, Option.some.injEq] at h
    obtain ⟨b, -, rest, hrest, rfl⟩ := h
    rw [List.length_cons, List.length_cons, ih hrest]

theorem stringify_arr_separated (items : List Json) :
    stringify (.arr items) = ['['] ++ separated 0 (items.map stringify) ++ [']'] := by
  rw [stringify_arr]
  rfl

theorem stringify_obj_separated (fields : List (Text × Json)) :
    stringify (.obj fields) = ['\x7b'] ++ separated 0 (fields.map fieldText) ++ ['\x7d'] := by
  have hfields : (fun field : Text × Json => jsonString field.1 ++ ':' :: stringify field.2) = fieldText := by
    funext field
    simp [fieldText]
  rw [stringify_obj, hfields]
  rfl

/-- The part of `visit` between the brackets of an array. -/
theorem visitArray_some_iff {visit : Value → Budget → Option (Text × Budget)} {read : Value → Option Json}
    (hvisit : Charges visit read) (items : List (Option Value)) {b : Budget} (hb : b.Ok) (r : Text × Budget) :
    (do
      let (_, b) ← emit ['['] b
      let (parts, b) ← visitItems visit 0 items b
      let (_, b) ← emit [']'] b
      some ('[' :: [','].intercalate parts ++ [']'], b)) = some r ↔
      ∃ ts, items.mapM (fun v => v.bind read) = some ts ∧
        r = (stringify (.arr ts), b.charge (nodesItems ts) (utf16Length (stringify (.arr ts)))) ∧ r.2.Ok := by
  have hcharge : ∀ ts, b.charge (nodesItems ts) (utf16Length (stringify (.arr ts))) =
      ((b.charge 0 (utf16Length ['['])).charge (nodesItems ts) (utf16Length (separated 0 (ts.map stringify)))).charge 0
        (utf16Length [']']) := by
    intro ts
    simp only [stringify_arr_separated, utf16Length_append, Budget.charge_charge, zero_add, add_zero]
  simp only [Option.bind_eq_bind, Option.bind_eq_some_iff, Prod.exists, Option.some.injEq]
  constructor
  · rintro ⟨open', b₁, hopen, parts, b₂, hparts, close, b₃, hclose, rfl⟩
    obtain ⟨ho, hok₁⟩ := (emit_some_iff hb).mp hopen
    obtain ⟨rfl, rfl⟩ := Prod.mk.inj ho
    obtain ⟨ts, hmap, hts, hok₂⟩ := (visitItems_some_iff hvisit 0 items hok₁ _).mp hparts
    obtain ⟨rfl, rfl⟩ := Prod.mk.inj hts
    obtain ⟨hc, hok₃⟩ := (emit_some_iff hok₂).mp hclose
    obtain ⟨rfl, rfl⟩ := Prod.mk.inj hc
    refine ⟨ts, hmap, ?_, hok₃⟩
    rw [hcharge, stringify_arr]
  · rintro ⟨ts, hmap, rfl, hok⟩
    rw [hcharge] at hok ⊢
    have hok₂ := hok.of_charge
    have hok₁ := hok₂.of_charge
    refine ⟨_, _, (emit_some_iff hb).mpr ⟨rfl, hok₁⟩, _, _, (visitItems_some_iff hvisit 0 items hok₁ _).mpr ⟨ts, hmap, rfl, hok₂⟩,
      _, _, (emit_some_iff hok₂).mpr ⟨rfl, hok⟩, ?_⟩
    rw [stringify_arr]

/-- The part of `visit` between the braces of an object. -/
theorem visitObject_some_iff {visit : Value → Budget → Option (Text × Budget)} {read : Value → Option Json}
    (hvisit : Charges visit read) (fields : List (Text × Value)) {b : Budget} (hb : b.Ok) (r : Text × Budget) :
    (do
      let (_, b) ← emit ['\x7b'] b
      let (parts, b) ← visitFields visit 0 fields b
      let (_, b) ← emit ['\x7d'] b
      some ('\x7b' :: [','].intercalate parts ++ ['\x7d'], b)) = some r ↔
      ∃ ts, fields.mapM (fun entry => (read entry.2).map (entry.1, ·)) = some ts ∧
        r = (stringify (.obj ts), b.charge (nodesFields ts) (utf16Length (stringify (.obj ts)))) ∧ r.2.Ok := by
  have hcharge : ∀ ts, b.charge (nodesFields ts) (utf16Length (stringify (.obj ts))) =
      ((b.charge 0 (utf16Length ['\x7b'])).charge (nodesFields ts) (utf16Length (separated 0 (ts.map fieldText)))).charge 0
        (utf16Length ['\x7d']) := by
    intro ts
    simp only [stringify_obj_separated, utf16Length_append, Budget.charge_charge, zero_add, add_zero]
  simp only [Option.bind_eq_bind, Option.bind_eq_some_iff, Prod.exists, Option.some.injEq]
  constructor
  · rintro ⟨open', b₁, hopen, parts, b₂, hparts, close, b₃, hclose, rfl⟩
    obtain ⟨ho, hok₁⟩ := (emit_some_iff hb).mp hopen
    obtain ⟨rfl, rfl⟩ := Prod.mk.inj ho
    obtain ⟨ts, hmap, hts, hok₂⟩ := (visitFields_some_iff hvisit 0 fields hok₁ _).mp hparts
    obtain ⟨rfl, rfl⟩ := Prod.mk.inj hts
    obtain ⟨hc, hok₃⟩ := (emit_some_iff hok₂).mp hclose
    obtain ⟨rfl, rfl⟩ := Prod.mk.inj hc
    refine ⟨ts, hmap, ?_, hok₃⟩
    rw [hcharge, stringify_obj_separated]
    rfl
  · rintro ⟨ts, hmap, rfl, hok⟩
    rw [hcharge] at hok ⊢
    have hok₂ := hok.of_charge
    have hok₁ := hok₂.of_charge
    refine ⟨_, _, (emit_some_iff hb).mpr ⟨rfl, hok₁⟩, _, _,
      (visitFields_some_iff hvisit 0 fields hok₁ _).mpr ⟨ts, hmap, rfl, hok₂⟩, _, _, (emit_some_iff hok₂).mpr ⟨rfl, hok⟩, ?_⟩
    rw [stringify_obj_separated]
    rfl

/-- An array with too many keys has too many elements to be read within the budget. -/
theorem not_ok_of_length {items : List (Option Value)} {read : Value → Option Json} {ts : List Json} {b : Budget}
    {length : Nat} (hts : items.mapM (fun v => v.bind read) = some ts) (hlarge : 10000 < items.length + 1) :
    ¬ (b.charge (1 + nodesItems ts) length).Ok := by
  intro hok
  have hlength := length_of_mapM hts
  have hnodes := length_le_nodesItems ts
  have hlimit : b.nodes + (1 + nodesItems ts) ≤ 10000 := hok.nodes
  omega

/-- Visiting a value reads it as JSON and counts its nodes and the length of its text. -/
theorem charges_visit (heap : Heap) (depth : Nat) (active : List Nat) :
    Charges (visit heap depth active) (toJson heap depth active) := by
  induction depth generalizing active with
  | zero =>
    intro v b _ r
    simp [visit, toJson]
  | succ depth ih =>
    intro v b hb r
    unfold visit
    by_cases hnodes : 10000 < b.nodes + 1
    · rw [if_pos hnodes]
      refine iff_of_false (by simp) ?_
      rintro ⟨t, -, rfl, hok⟩
      have ht := nodes_pos t
      have hlimit : b.nodes + nodes t ≤ 10000 := hok.nodes
      omega
    · rw [if_neg hnodes]
      have hb' : (b.charge 1 0).Ok := ⟨Nat.not_lt.mp hnodes, hb.length⟩
      have hemit : ∀ text t, stringify t = text → nodes t = 1 →
          (emit text (b.charge 1 0) = some r ↔
            ∃ t', some t = some t' ∧ r = (stringify t', b.charge (nodes t') (utf16Length (stringify t'))) ∧ r.2.Ok) := by
        rintro text t rfl ht
        rw [emit_some_iff hb', Budget.charge_charge]
        simp [ht]
      cases v with
      | null => exact hemit _ .null rfl rfl
      | str s => exact hemit _ (.str s) rfl rfl
      | bool v => cases v <;> exact hemit _ (.bool _) rfl rfl
      | num n => exact hemit _ (.num n) rfl rfl
      | undefined | nonFinite | other => simp [toJson]
      | ref address =>
        simp only [toJson]
        cases ho : heap.object (.ref address) with
        | none => simp
        | some o =>
          simp only
          by_cases hactive : address ∈ active
          · simp [hactive]
          rw [if_neg hactive, if_neg hactive]
          cases hlength : o.arrayLength with
          | some size =>
            simp only
            by_cases hproto : o.prototype = .array
            swap
            · simp [hproto]
            by_cases hkeys : o.keyCount = size + 1
            swap
            · simp [hproto, hkeys]
            cases hproperties : dataProperties o with
            | none => simp [hproto, hkeys]
            | some properties =>
              have hvisit := visitArray_some_iff (ih (address :: active)) (elements properties size) hb' r
              have hlength : (elements properties size).length = size := by simp [elements]
              simp only [hproto, hkeys, ne_eq, not_true, or_false, if_false, Option.bind_eq_bind, Option.bind_some,
                Option.bind_eq_some_iff, Option.some.injEq]
              by_cases hlarge : 10000 < size + 1
              · rw [if_pos hlarge]
                refine iff_of_false (by simp) ?_
                rintro ⟨t, ⟨ts, hts, rfl⟩, rfl, hok⟩
                exact not_ok_of_length hts (by rwa [hlength]) hok
              · have hsize : ¬ 10000 < size := by omega
                simp only [if_neg hlarge, if_neg hsize]
                refine hvisit.trans ?_
                simp only [Budget.charge_charge, zero_add]
                constructor
                · rintro ⟨ts, hts, hr⟩
                  exact ⟨_, ⟨ts, hts, rfl⟩, hr⟩
                · rintro ⟨t, ⟨ts, hts, rfl⟩, hr⟩
                  exact ⟨ts, hts, hr⟩
          | none =>
            simp only
            by_cases hplain : plain heap (.ref address) = true
            swap
            · simp [hplain]
            cases hproperties : dataProperties o with
            | none => simp [hplain]
            | some properties =>
              have hvisit := visitObject_some_iff (ih (address :: active)) (sortByKey properties) hb' r
              have hcount : o.keyCount = (sortByKey properties).length := by
                rw [sortByKey, List.length_insertionSort, length_of_mapM hproperties, Object.keyCount, hlength]
              simp only [hplain, not_true, if_false, Option.bind_eq_bind, Option.bind_some, Option.bind_eq_some_iff,
                Option.some.injEq]
              by_cases hlarge : 10000 < o.keyCount
              · rw [if_pos hlarge]
                refine iff_of_false (by simp) ?_
                rintro ⟨t, ⟨ts, hts, rfl⟩, rfl, hok⟩
                have hlength := length_of_mapM hts
                have hnodes := length_le_nodesFields ts
                have hlimit : b.nodes + (1 + nodesFields ts) ≤ 10000 := hok.nodes
                omega
              · rw [if_neg hlarge]
                refine hvisit.trans ?_
                simp only [Budget.charge_charge, zero_add]
                constructor
                · rintro ⟨ts, hts, hr⟩
                  exact ⟨_, ⟨ts, hts, rfl⟩, hr⟩
                · rintro ⟨t, ⟨ts, hts, rfl⟩, hr⟩
                  exact ⟨ts, hts, hr⟩

/-- The value and its text are within the limits. -/
structure Within (t : Json) : Prop where
  nodes : nodes t ≤ 10000
  length : utf16Length (stringify t) ≤ 1000000

/-- Exactly the JSON values of at most 16 levels below the root that are within the limits have a
    canonical text. -/
theorem canonicalizeJson_some_iff {heap : Heap} {v : Value} {text : Text} :
    canonicalizeJson heap v = some text ↔ ∃ t, toJson heap 17 [] v = some t ∧ Within t ∧ text = stringify t := by
  have hcharges := charges_visit heap 17 [] v ⟨0, 0⟩ ⟨Nat.zero_le _, Nat.zero_le _⟩
  simp only [canonicalizeJson, Option.map_eq_some_iff]
  constructor
  · rintro ⟨r, hvisit, rfl⟩
    obtain ⟨t, hread, rfl, hok⟩ := (hcharges r).mp hvisit
    refine ⟨t, hread, ⟨?_, ?_⟩, rfl⟩
    · simpa [Budget.charge] using hok.nodes
    · simpa [Budget.charge] using hok.length
  · rintro ⟨t, hread, hwithin, rfl⟩
    refine ⟨_, (hcharges _).mpr ⟨t, hread, rfl, ?_, ?_⟩, rfl⟩
    · simpa [Budget.charge] using hwithin.nodes
    · simpa [Budget.charge] using hwithin.length

/-! ### Larger heaps and larger depths -/

theorem mapM_congr {α β : Type} {f g : α → Option β} {l : List α} (h : ∀ a ∈ l, f a = g a) : l.mapM f = l.mapM g := by
  induction l with
  | nil => rfl
  | cons a l ih =>
    rw [List.mapM_cons, List.mapM_cons, h a List.mem_cons_self, ih fun b hb => h b (List.mem_cons_of_mem a hb)]

/-- Every object of the first heap is in the second one. -/
def Extends (heap later : Heap) : Prop :=
  heap.size ≤ later.size ∧ ∀ v : Value, v.Below heap.size → later.object v = heap.object v

/-- What a traversal returns comes from an element. -/
theorem exists_of_mem_mapM {α β : Type} {f : α → Option β} {l : List α} {r : List β} (h : l.mapM f = some r) {b : β}
    (hb : b ∈ r) : ∃ a ∈ l, f a = some b := by
  induction l generalizing r with
  | nil =>
    obtain rfl := Option.some.inj h
    cases hb
  | cons a l ih =>
    simp only [List.mapM_cons, Option.bind_eq_bind, Option.bind_eq_some_iff, Option.pure_def, Option.some.injEq] at h
    obtain ⟨b', hb', rest, hrest, rfl⟩ := h
    obtain rfl | hmem := List.mem_cons.mp hb
    · exact ⟨a, List.mem_cons_self, hb'⟩
    · obtain ⟨a', ha', hfa'⟩ := ih hrest hmem
      exact ⟨a', List.mem_cons_of_mem a ha', hfa'⟩

theorem mem_of_mem_mapM {α β : Type} {f : α → Option β} {l : List α} {r : List β} (h : l.mapM f = some r) {a : α}
    (ha : a ∈ l) : ∃ b ∈ r, f a = some b := by
  induction l generalizing r with
  | nil => cases ha
  | cons a' l ih =>
    simp only [List.mapM_cons, Option.bind_eq_bind, Option.bind_eq_some_iff, Option.pure_def, Option.some.injEq] at h
    obtain ⟨b', hb', rest, hrest, rfl⟩ := h
    obtain rfl | hmem := List.mem_cons.mp ha
    · exact ⟨b', List.mem_cons_self, hb'⟩
    · obtain ⟨b, hb, hfa⟩ := ih hrest hmem
      exact ⟨b, List.mem_cons_of_mem b' hb, hfa⟩

theorem mem_dataProperties {o : Object} {properties : List (Text × Value)} (h : dataProperties o = some properties)
    {key : Text} {value : Value} :
    (key, value) ∈ properties ↔ (.str key, ⟨some value, true⟩) ∈ o.properties ∧ key ≠ PROTO := by
  constructor
  · intro hmem
    obtain ⟨⟨name, property⟩, hproperty, heq⟩ := exists_of_mem_mapM h hmem
    split at heq
    · next key' value' hentry =>
      split at heq
      · cases heq
      · next hproto =>
        obtain ⟨rfl, rfl⟩ := Prod.mk.inj (Option.some.inj heq)
        exact ⟨hentry ▸ hproperty, hproto⟩
    · cases heq
  · rintro ⟨hproperty, hproto⟩
    obtain ⟨entry, hentry, heq⟩ := mem_of_mem_mapM h hproperty
    simp only [if_neg hproto, Option.some.injEq] at heq
    exact heq ▸ hentry

theorem mem_values_of_dataProperties {o : Object} {properties : List (Text × Value)}
    (h : dataProperties o = some properties) {entry : Text × Value} (hentry : entry ∈ properties) :
    entry.2 ∈ o.values := by
  apply List.mem_append_left
  exact List.mem_filterMap.mpr ⟨_, ((mem_dataProperties h).mp hentry).1, rfl⟩

theorem plain_congr {heap later : Heap} {v : Value} (h : later.object v = heap.object v) : plain later v = plain heap v := by
  simp only [plain, h]

/-- A value means the same in a larger heap. -/
theorem toJson_extends {heap later : Heap} (hextends : Extends heap later) (depth : Nat) {active active' : List Nat}
    (hactive : ∀ address < heap.size, address ∈ active' ↔ address ∈ active) {v : Value} (hv : v.Below heap.size) :
    toJson later depth active' v = toJson heap depth active v := by
  induction depth generalizing active active' v with
  | zero => rfl
  | succ depth ih =>
    cases v with
    | null | str | bool | num | undefined | nonFinite | other => rfl
    | ref address =>
      have hobject := hextends.2 (.ref address) hv
      have hactive' : ∀ a < heap.size, a ∈ address :: active' ↔ a ∈ address :: active := by
        intro a ha
        rw [List.mem_cons, List.mem_cons, hactive a ha]
      simp only [toJson, hobject, hactive address hv, plain_congr hobject]
      cases ho : heap.object (.ref address) with
      | none => rfl
      | some o =>
        simp only
        cases hlength : o.arrayLength with
        | some size =>
          cases hproperties : dataProperties o with
          | none => rfl
          | some properties =>
            have helements : ∀ item ∈ elements properties size,
                item.bind (toJson later depth (address :: active')) = item.bind (toJson heap depth (address :: active)) := by
              intro item hitem
              obtain ⟨i, -, rfl⟩ := List.mem_map.mp hitem
              cases hlookup : properties.lookup (natText i) with
              | none => rfl
              | some value =>
                obtain ⟨before, after, heq, -⟩ := List.lookup_eq_some_iff.mp hlookup
                have hmem : (natText i, value) ∈ properties := by simp [heq]
                exact ih hactive' (Heap.below_of_mem_values ho (mem_values_of_dataProperties hproperties hmem))
            simp only [Option.bind_eq_bind, Option.bind_some, mapM_congr helements]
        | none =>
          cases hproperties : dataProperties o with
          | none => rfl
          | some properties =>
            have hfields : ∀ entry ∈ sortByKey properties,
                (toJson later depth (address :: active') entry.2).map (entry.1, ·) =
                  (toJson heap depth (address :: active) entry.2).map (entry.1, ·) := by
              intro entry hentry
              have hmem := mem_values_of_dataProperties hproperties (mem_sortByKey.mp hentry)
              rw [ih hactive' (Heap.below_of_mem_values ho hmem)]
            simp only [Option.bind_eq_bind, Option.bind_some, mapM_congr hfields]

end narwhal.portal.agent_invocation
