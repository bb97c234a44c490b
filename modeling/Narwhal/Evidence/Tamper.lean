import Mathlib.Data.Set.Function
import Narwhal.Evidence.VerifyAgree

open pylib

namespace narwhal.evidence

/-- A field of a record, under any key. -/
def field (rec : Json) (key : Str) : Option Json :=
  match rec with
  | .obj fields => lookupField key fields
  | _ => none

/-- The two entries have the same value under every key but `sig`. -/
def SameButSig (a b : Json) : Prop := ∀ key, key ≠ lit "sig" → field a key = field b key

/-- The messages whose hashes the check of these entries computes. -/
def hashed_messages (entries : List Json) : Set Bytes :=
  { msg | ∃ entry ∈ entries, ∃ bytes, canonical (body entry "entry_hash") = .ok bytes ∧ msg = ENTRY_PREFIX ++ bytes }

/-! ### What a hash binds -/

theorem field_body {rec : Json} {hash_field : String} {key : Str} (hhash : key ≠ lit hash_field)
    (hsig : key ≠ lit "sig") : field (body rec hash_field) key = field rec key := by
  cases rec with
  | obj fields => exact lookupField_filter fun value => by simp [hhash, hsig]
  | _ => rfl

theorem get_eq_field (rec : Json) (key : String) : Json.get rec key = field rec (lit key) := by
  cases rec <;> rfl

/-- Two entries with one hash, over messages on which the hash is injective, differ at
    most in their signatures. -/
theorem sameButSig_of_hash_eq {messages : Set Bytes} (hinj : Set.InjOn sha256_hexdigest messages) {a b : Json}
    {hash : Str} (ha : body_hash ENTRY_PREFIX a "entry_hash" = .ok hash)
    (hb : body_hash ENTRY_PREFIX b "entry_hash" = .ok hash)
    (hma : ∀ bytes, canonical (body a "entry_hash") = .ok bytes → ENTRY_PREFIX ++ bytes ∈ messages)
    (hmb : ∀ bytes, canonical (body b "entry_hash") = .ok bytes → ENTRY_PREFIX ++ bytes ∈ messages)
    (hhash : Json.get a "entry_hash" = Json.get b "entry_hash") : SameButSig a b := by
  unfold body_hash at ha hb
  cases hca : canonical (body a "entry_hash") with
  | error e => simp [hca] at ha
  | ok abytes =>
    cases hcb : canonical (body b "entry_hash") with
    | error e => simp [hcb] at hb
    | ok bbytes =>
      simp only [hca, hcb, Except.ok.injEq] at ha hb
      have hmsg := hinj (hma abytes hca) (hmb bbytes hcb) (ha.trans hb.symm)
      have hbody := canonical_injective hca ((List.append_cancel_left hmsg) ▸ hcb)
      intro key hsig
      by_cases hkey : key = lit "entry_hash"
      · rw [hkey, ← get_eq_field, ← get_eq_field, hhash]
      · exact (field_body hkey hsig).symm.trans ((congrArg (field · key) hbody).trans (field_body hkey hsig))

/-! ### Backwards along the links -/

section

variable {instance_id instance_id' : Str} {verifier verifier' : Verifier}

/-- Two accepted chains of one length with one head hash agree entry by entry: each
    body names the hash of the one before, so the heads bind all that precedes. -/
theorem sameButSig_of_head_eq {messages : Set Bytes} (hinj : Set.InjOn sha256_hexdigest messages)
    {entries entries' : List Json} (hmem : hashed_messages entries ⊆ messages)
    (hmem' : hashed_messages entries' ⊆ messages) (hlen : entries.length = entries'.length)
    {view view' : ChainView} (h : check_entries instance_id verifier .genesis entries = .ok view)
    (h' : check_entries instance_id' verifier' .genesis entries' = .ok view') (hhead : view.prev_h = view'.prev_h) :
    List.Forall₂ SameButSig entries entries' := by
  induction entries using List.reverseRecOn generalizing entries' view view' with
  | nil =>
    obtain rfl := List.length_eq_zero_iff.mp hlen.symm
    exact .nil
  | append_singleton front a ih =>
    rcases List.eq_nil_or_concat entries' with rfl | ⟨front', b, rfl⟩
    · simp at hlen
    rw [List.concat_eq_append] at hmem' hlen h' ⊢
    obtain ⟨before, hbefore, ha, rfl⟩ := check_entries_concat_ok_iff.mp h
    obtain ⟨before', hbefore', hb, rfl⟩ := check_entries_concat_ok_iff.mp h'
    simp only [ChainView.absorb] at hhead
    obtain ⟨ahash, hahash⟩ := ha.integral.shape.entry_hash.get_hex64
    obtain ⟨bhash, hbhash⟩ := hb.integral.shape.entry_hash.get_hex64
    have hsame : SameButSig a b := by
      refine sameButSig_of_hash_eq hinj ha.integral.hash (hhead ▸ hb.integral.hash) (fun bytes hbytes => ?_)
        (fun bytes hbytes => ?_) ?_
      · exact hmem ⟨a, by simp, bytes, hbytes, rfl⟩
      · exact hmem' ⟨b, by simp, bytes, hbytes, rfl⟩
      · rw [Json.getStr_of_get hahash, Json.getStr_of_get hbhash] at hhead
        rw [hahash, hbhash, hhead]
    have hprev : before.prev_h = before'.prev_h := by
      have hkey := hsame (lit "prev_hash") (by simp)
      rw [← get_eq_field, ← get_eq_field, ha.integral.prev_hash, hb.integral.prev_hash] at hkey
      exact Json.str.inj (Option.some.inj hkey)
    refine List.rel_append (ih (fun msg hmsg => ?_) (fun msg hmsg => ?_) (by simpa using hlen) hbefore hbefore' hprev)
      (.cons hsame .nil)
    · obtain ⟨entry, hentry, hrest⟩ := hmsg
      exact hmem ⟨entry, List.mem_append_left _ hentry, hrest⟩
    · obtain ⟨entry, hentry, hrest⟩ := hmsg
      exact hmem' ⟨entry, List.mem_append_left _ hentry, hrest⟩

end

/-! ### The last checkpoint -/

private theorem getInt_count {cp : Json} {n : Int} (h : Json.get cp "count" = some (.int n)) :
    Json.getInt cp "count" 0 = n := Json.getInt_of_get h

/-- The figure of the report is the count of the last checkpoint. -/
theorem last_count_eq {cps : List Json} {cp_v : Verifier} {view : CheckpointView}
    (h : verify_checkpoints_list cps cp_v = .ok view) {cp : Json} (hlast : cps.getLast? = some cp) {n : Int}
    (hn : Json.get cp "count" = some (.int n)) : last_count cps = n := by
  have hall : cps.filter (fun cp => (Json.get cp "count").any is_nonneg_int) = cps := by
    refine List.filter_eq_self.mpr fun cp hcp => ?_
    obtain ⟨_, hadmits⟩ := admits_of_verify_checkpoints_list h hcp
    obtain ⟨value, hvalue, hok⟩ := hadmits.shape.count
    simp [hvalue, hok]
  rw [last_count, hall, hlast]
  exact getInt_count hn

/-- The last checkpoint of a clean report names the head of the first `n` entries. -/
theorem AnchoredChain.head {entry_v cp_v : Verifier} {entry_list cp_list : List Json}
    (h : AnchoredChain entry_v cp_v entry_list cp_list) {cp : Json} (hlast : cp_list.getLast? = some cp) {n : Nat}
    (hn : Json.get cp "count" = some (.int n)) :
    n ≤ entry_list.length ∧ ∃ view, check_entries (first_instance_id entry_list) entry_v .genesis (entry_list.take n) =
      .ok view ∧ Json.get cp "head_hash" = some (.str view.prev_h) := by
  obtain ⟨view, hview⟩ := h.entries
  obtain ⟨cview, hcview⟩ := h.checkpoints
  have hmem : cp ∈ cp_list := List.mem_of_getLast? hlast
  obtain ⟨_, hanchor⟩ := h.anchors cp hmem
  rw [getInt_count hn] at hanchor
  cases n with
  | zero =>
    obtain ⟨u, hadmits⟩ := admits_of_verify_checkpoints_list hcview hmem
    have hempty := hadmits.empty_head (getInt_count hn)
    exact ⟨Nat.zero_le _, .genesis, rfl, hempty⟩
  | succ m =>
    obtain ⟨hle, htarget⟩ := hanchor (by omega)
    have hlt : m < entry_list.length := by omega
    have hsplit : entry_list.take (m + 1) = entry_list.take m ++ [entry_list[m]] := by simp
    obtain ⟨u, hu, _⟩ := foldlM_append_ok_iff.mp (show (entry_list.take (m + 1) ++ entry_list.drop (m + 1)).foldlM
      (check_entry (first_instance_id entry_list) entry_v) .genesis = .ok view by rwa [List.take_append_drop])
    have hconcat := hu
    rw [hsplit] at hconcat
    obtain ⟨before, _, hadmits, hprev⟩ := check_entries_concat_ok_iff.mp hconcat
    obtain ⟨hash, hhash⟩ := hadmits.integral.shape.entry_hash.get_hex64
    have hobj : ∃ fields, entry_list[m] = .obj fields := by
      cases hm : entry_list[m] with
      | obj fields => exact ⟨fields, rfl⟩
      | _ => rw [hm] at hhash; cases hhash
    obtain ⟨fields, hfields⟩ := hobj
    have hhead := (htarget fields (by simp [hlt, hfields])).1
    refine ⟨by omega, u, hu, ?_⟩
    rw [← hhead, hprev, ChainView.absorb, ← hfields, hhash, Json.getStr_of_get hhash]

/-- Tamper evidence of the anchored prefix. Two chains that verify without errors under
    checkpoint lists whose last records have one count and head agree on that many
    entries in every field but the signature, and each report accounts for all entries. -/
theorem anchored_prefix_tamper_evident {entry_key cp_key : PublicKey} {E1 E2 C1 C2 : List Json} {r1 r2 : Report}
    (h1 : verify (.list E1) (.loaded entry_key) (some (.list C1)) (.loaded cp_key) false none = .ok r1)
    (h2 : verify (.list E2) (.loaded entry_key) (some (.list C2)) (.loaded cp_key) false none = .ok r2)
    (hok1 : r1.errors = []) (hok2 : r2.errors = []) {c1 c2 : Json} (hlast1 : C1.getLast? = some c1)
    (hlast2 : C2.getLast? = some c2) {n : Nat} (hn1 : Json.get c1 "count" = some (.int n))
    (hn2 : Json.get c2 "count" = some (.int n)) (hhead : Json.get c1 "head_hash" = Json.get c2 "head_hash")
    (hinj : Set.InjOn sha256_hexdigest (hashed_messages (E1 ++ E2))) :
    n ≤ E1.length ∧ n ≤ E2.length ∧ List.Forall₂ SameButSig (E1.take n) (E2.take n) ∧
      (r1.anchored_count = n ∧ r1.anchored_count + r1.unanchored_tail = E1.length) ∧
      (r2.anchored_count = n ∧ r2.anchored_count + r2.unanchored_tail = E2.length) := by
  have hfigures : ∀ {E C : List Json} {r : Report} {c : Json},
      verify (.list E) (.loaded entry_key) (some (.list C)) (.loaded cp_key) false none = .ok r → r.errors = [] →
      C.getLast? = some c → Json.get c "count" = some (.int n) →
      AnchoredChain entry_key.verify cp_key.verify E C ∧ n ≤ E.length ∧ r.anchored_count = n ∧
        r.anchored_count + r.unanchored_tail = E.length := by
    intro E C r c h hok hlast hn
    have hne : C ≠ [] := by
      rintro rfl
      cases hlast
    have hentries : Source.read (.list E) read_chain = .ok E := rfl
    rw [verify_with_checkpoints_eq hentries rfl hne] at h
    cases h
    obtain ⟨_, hchain⟩ := verify_records_errors_eq_nil_iff.mp hok
    obtain ⟨view, hview⟩ := hchain.checkpoints
    have hle := (hchain.head hlast hn).1
    have hcount := last_count_eq hview hlast hn
    refine ⟨hchain, hle, ?_, ?_⟩
    · simp [verify_records, hcount]
    · simp only [verify_records, hcount]
      omega
  obtain ⟨hchain1, hle1, hfig1⟩ := hfigures h1 hok1 hlast1 hn1
  obtain ⟨hchain2, hle2, hfig2⟩ := hfigures h2 hok2 hlast2 hn2
  obtain ⟨_, view1, hview1, hhead1⟩ := hchain1.head hlast1 hn1
  obtain ⟨_, view2, hview2, hhead2⟩ := hchain2.head hlast2 hn2
  have hprev : view1.prev_h = view2.prev_h := by
    rw [hhead1, hhead2] at hhead
    exact Json.str.inj (Option.some.inj hhead)
  refine ⟨hle1, hle2, ?_, hfig1, hfig2⟩
  refine sameButSig_of_head_eq hinj ?_ ?_ (by simp [hle1, hle2]) hview1 hview2 hprev
  · rintro msg ⟨entry, hentry, hrest⟩
    exact ⟨entry, List.mem_append_left _ (List.mem_of_mem_take hentry), hrest⟩
  · rintro msg ⟨entry, hentry, hrest⟩
    exact ⟨entry, List.mem_append_right _ (List.mem_of_mem_take hentry), hrest⟩

/-- A checkpoint over the first entry of the sample chains. -/
def sampleCheckpoint : Json :=
  let head_hash := ((sampleEntries sampleFile).map fun entry => Json.getStr entry "entry_hash" []).headD []
  (build_checkpoint 0 (lit "i") 0 1 head_hash GENESIS_PREV_HASH sampleSigner 0).toOption.getD .null

set_option maxRecDepth 100000 in
theorem anchored_prefix_tamper_evident_sample :
    sampleEntries sampleFile ≠ sampleEntries longerSampleFile ∧
      List.Forall₂ SameButSig ((sampleEntries sampleFile).take 1) ((sampleEntries longerSampleFile).take 1) := by
  obtain ⟨r1, h1, hok1⟩ : Accepted (verify (.list (sampleEntries sampleFile)) (.loaded sampleEntryKey)
      (some (.list [sampleCheckpoint])) (.loaded sampleCheckpointKey) false none) := by decide +kernel
  obtain ⟨r2, h2, hok2⟩ : Accepted (verify (.list (sampleEntries longerSampleFile)) (.loaded sampleEntryKey)
      (some (.list [sampleCheckpoint])) (.loaded sampleCheckpointKey) false none) := by decide +kernel
  have hcount : Json.get sampleCheckpoint "count" = some (.int (1 : Nat)) := by decide +kernel
  let messages := (sampleEntries sampleFile ++ sampleEntries longerSampleFile).filterMap fun entry =>
    (canonical (body entry "entry_hash")).toOption.map fun bytes => ENTRY_PREFIX ++ bytes
  have hdistinct : ∀ a ∈ messages, ∀ b ∈ messages, sha256_hexdigest a = sha256_hexdigest b → a = b := by decide +kernel
  have hmem : ∀ msg ∈ hashed_messages (sampleEntries sampleFile ++ sampleEntries longerSampleFile), msg ∈ messages := by
    rintro msg ⟨entry, hentry, bytes, hbytes, rfl⟩
    exact List.mem_filterMap.mpr ⟨entry, hentry, by rw [hbytes]; rfl⟩
  have hinj : Set.InjOn sha256_hexdigest (hashed_messages (sampleEntries sampleFile ++ sampleEntries longerSampleFile)) :=
    fun a ha b hb hab => hdistinct a (hmem a ha) b (hmem b hb) hab
  refine ⟨by decide +kernel, ?_⟩
  exact (anchored_prefix_tamper_evident h1 h2 hok1 hok2 rfl rfl hcount hcount rfl hinj).2.2.1

end narwhal.evidence
