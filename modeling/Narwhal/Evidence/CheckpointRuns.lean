import Narwhal.Evidence.CheckpointAppend

open pylib

namespace narwhal.evidence

/-! ### What the command reads -/

theorem verify_checkpoints_list_concat {cps : List Json} {cp : Json} {cp_verifier : Verifier} {view : CheckpointView} :
    verify_checkpoints_list (cps ++ [cp]) cp_verifier = .ok view ↔
      ∃ before, verify_checkpoints_list cps cp_verifier = .ok before ∧ AdmitsCheckpoint cp_verifier before cp ∧
        view = before.absorb cp := by
  unfold verify_checkpoints_list
  simp only [foldlM_concat_ok_iff, check_checkpoint_eq_ok_iff]

theorem count_of_verify_checkpoints_list {cps : List Json} {cp_verifier : Verifier} {view : CheckpointView}
    (h : verify_checkpoints_list cps cp_verifier = .ok view) : view.count = cps.length := by
  induction cps using List.reverseRecOn generalizing view with
  | nil =>
    cases h
    rfl
  | append_singleton cps cp ih =>
    obtain ⟨before, hbefore, _, rfl⟩ := verify_checkpoints_list_concat.mp h
    simp [CheckpointView.absorb, ih hbefore]

theorem existing_checkpoints_ok {cp_stat : PathStat} {cp_verifier : Verifier} {cp_file : Bytes} {cps : List Json}
    (h : existing_checkpoints cp_stat cp_verifier cp_file = .ok cps) :
    Encodes (fileLines cp_file) cps ∧ ∃ view, verify_checkpoints_list cps cp_verifier = .ok view := by
  unfold existing_checkpoints at h
  split at h
  · cases h
  · cases h
  · split at h
    · cases h
    · next hread =>
      cases h
      exact ⟨read_checkpoints_eq_ok_iff.mp hread, .genesis, rfl⟩
    · next cps' _ hread =>
      split at h
      · cases h
      · next view hview =>
        cases h
        exact ⟨read_checkpoints_eq_ok_iff.mp hread, view, hview⟩

/-- The head the command reads off an accepted chain is the one its writers know. -/
theorem chain_head_ok {args : CheckpointArgs} {entry_verifier : Verifier} {entries : List Json} {head : Head}
    (h : chain_head args entry_verifier entries = .ok head) :
    (entries = [] ∧ head = ⟨args.instance_id, args.epoch, 0, GENESIS_PREV_HASH⟩) ∨
    (entries ≠ [] ∧ ∃ view, check_entries (first_instance_id entries) entry_verifier .genesis entries = .ok view ∧
      head = ⟨first_instance_id entries, view.last_epoch, entries.length, view.prev_h⟩) := by
  cases entries with
  | nil =>
    cases h
    exact .inl ⟨rfl, rfl⟩
  | cons first rest =>
    simp only [chain_head] at h
    split at h
    · cases h
    split at h
    · cases h
    next view hview =>
    cases h
    refine .inr ⟨by simp, view, hview, ?_⟩
    have hsplit : first :: rest = (first :: rest).dropLast ++ [rest.getLastD first] := by
      rw [← List.getLast_eq_getLastD (a := first) (l := rest) (by simp), List.dropLast_append_getLast]
    rw [check_entries_eq_absorb hview, hsplit, ChainView.absorbAll_concat, ← hsplit]
    rfl

/-- The new checkpoint continues the list that was read. -/
theorem extension_ok {cps entries : List Json} {count : Nat} {prev_cp_hash : Str} {cp_seq : Nat}
    (h : extension cps entries count = .ok (prev_cp_hash, cp_seq)) {cp_verifier : Verifier} {view : CheckpointView}
    (hview : verify_checkpoints_list cps cp_verifier = .ok view) :
    view.count = cp_seq ∧ view.prev_cp_h = prev_cp_hash ∧ is_hex64 (.str prev_cp_hash) = true ∧
      view.last_cp_count < count ∧
      ((cps = [] ∧ view.last_cp_epoch = -1) ∨
        ∃ prev_cp ∈ cps, view.last_cp_epoch = Json.getInt prev_cp "epoch" 0 ∧
          0 ≤ Json.getInt prev_cp "count" 0 ∧ 0 < count) := by
  rcases List.eq_nil_or_concat cps with rfl | ⟨front, prev_cp, rfl⟩
  · cases h
    cases hview
    exact ⟨rfl, rfl, by decide, by simp [CheckpointView.genesis]; omega, .inl ⟨rfl, rfl⟩⟩
  · rw [List.concat_eq_append] at h hview ⊢
    have hlength := count_of_verify_checkpoints_list hview
    obtain ⟨before, _, hadmits, rfl⟩ := verify_checkpoints_list_concat.mp hview
    obtain ⟨hash, hhash⟩ := hadmits.shape.cp_hash.get_hex64
    obtain ⟨n, hn, hnonneg⟩ := hadmits.shape.count.get_nonneg
    have hhex : is_hex64 (.str hash) = true := by
      obtain ⟨value, hvalue, hok⟩ := hadmits.shape.cp_hash
      rw [hhash] at hvalue
      cases hvalue
      exact hok
    unfold extension at h
    rw [List.getLast?_concat] at h
    simp only at h
    split at h
    · cases h
    next hcount =>
    split at h
    · cases h
    cases h
    rw [Json.getInt_of_get hn] at hcount
    refine ⟨hlength, rfl, by rw [Json.getStr_of_get hhash]; exact hhex, ?_, .inr ⟨prev_cp, by simp, rfl, ?_, ?_⟩⟩
    · simp only [CheckpointView.absorb, Json.getInt_of_get hn]
      omega
    · rwa [Json.getInt_of_get hn]
    · omega

/-- What a run of the command has established when it releases the chain's lock. -/
theorem prepare_checkpoint_ok {args : CheckpointArgs} {env : CheckpointEnv} {chain cp_file : Bytes} {cp : Json}
    (h : prepare_checkpoint args env (some chain) cp_file = .ok cp) :
    ∃ key entry_pub cp_verifier cps entries head prev_cp_hash cp_seq,
      checkpoint_keys args = .ok (key, entry_pub, cp_verifier) ∧
      existing_checkpoints env.cp_stat cp_verifier cp_file = .ok cps ∧ Encodes (fileLines chain) entries ∧
      chain_head args entry_pub.verify entries = .ok head ∧
      extension cps entries head.count = .ok (prev_cp_hash, cp_seq) ∧ Built cp_seq head prev_cp_hash key.sign cp := by
  unfold prepare_checkpoint at h
  simp only at h
  split at h
  · cases h
  next key entry_pub cp_verifier hkeys =>
  split at h
  · cases h
  next cps hcps =>
  split at h
  · cases h
  · cases h
  split at h
  · cases h
  next entries hentries =>
  split at h
  · cases h
  next head hhead =>
  split at h
  · cases h
  next prev_cp_hash cp_seq hext =>
  split at h
  · cases h
  next cp hbuild =>
  cases h
  exact ⟨key, entry_pub, cp_verifier, cps, entries, head, prev_cp_hash, cp_seq, hkeys, hcps,
    read_chain_eq_ok_iff.mp hentries, hhead, hext, built_of_build_checkpoint hbuild⟩

/-! ### What a checkpoint records -/

/-- The checkpoint states the head of these entries. -/
structure TakenOf (V : Verifier) (cp : Json) (inst : Str) (entries : List Json) (view : ChainView) : Prop where
  nonempty : entries ≠ []
  accepted : check_entries inst V .genesis entries = .ok view
  instance_id : Json.get cp "instance_id" = some (.str inst)
  epoch : Json.get cp "epoch" = some (.int view.last_epoch)
  count : Json.get cp "count" = some (.int entries.length)
  head_hash : Json.get cp "head_hash" = some (.str view.prev_h)

/-- The checkpoint was taken of the empty chain, or of a front of the chain file. -/
def Grounded (V : Verifier) (chain : Bytes) (cp : Json) : Prop :=
  Json.get cp "count" = some (.int 0) ∨
    ∃ lines entries rest inst view, chain = lines.flatten ++ rest ∧ Encodes lines entries ∧
      TakenOf V cp inst entries view

theorem Grounded.mono {V : Verifier} {chain chain' : Bytes} {cp : Json} (h : Grounded V chain cp)
    (hchain : chain <+: chain') : Grounded V chain' cp := by
  obtain ⟨more, rfl⟩ := hchain
  rcases h with h | ⟨lines, entries, rest, inst, view, rfl, hrest⟩
  · exact .inl h
  · exact .inr ⟨lines, entries, rest ++ more, inst, view, by rw [List.append_assoc], hrest⟩

/-- Epochs do not decrease along an accepted chain. -/
theorem last_epoch_le_of_check_entries {instance_id : Str} {verifier : Verifier} {s view : ChainView}
    {entries : List Json} (h : check_entries instance_id verifier s entries = .ok view) :
    s.last_epoch ≤ view.last_epoch := by
  induction entries generalizing s with
  | nil =>
    cases h
    exact le_rfl
  | cons entry entries ih =>
    obtain ⟨u, hu, hrest⟩ := foldlM_cons_ok_iff.mp h
    obtain ⟨hadmits, rfl⟩ := check_entry_eq_ok_iff.mp hu
    exact hadmits.integral.epoch.trans (ih hrest)

theorem last_epoch_nonneg {instance_id : Str} {verifier : Verifier} {view : ChainView} {entries : List Json}
    (h : check_entries instance_id verifier .genesis entries = .ok view) (hne : entries ≠ []) :
    0 ≤ view.last_epoch := by
  obtain ⟨front, last, rfl⟩ := (List.eq_nil_or_concat entries).resolve_left hne
  rw [List.concat_eq_append] at h
  obtain ⟨u, hadmits⟩ := admits_of_check_entries h (show last ∈ front ++ [last] by simp)
  obtain ⟨n, hn, hnonneg⟩ := hadmits.integral.shape.epoch.get_nonneg
  rw [check_entries_eq_absorb h, ChainView.absorbAll_concat]
  simpa [ChainView.absorb, Json.getInt_of_get hn] using hnonneg

/-- A checkpoint anchors every chain that begins with the entries it was taken of. -/
theorem TakenOf.anchors {V : Verifier} {cp : Json} {inst : Str} {entries : List Json} {view : ChainView}
    (h : TakenOf V cp inst entries view) (more : List Json) : Anchors (entries ++ more) (some inst) cp := by
  refine ⟨fun expected hexpected => by cases hexpected; exact h.instance_id, fun _ => ?_⟩
  rw [Json.getInt_of_get h.count]
  refine ⟨by simp, fun fields htarget => ?_⟩
  obtain ⟨front, last, rfl⟩ := (List.eq_nil_or_concat entries).resolve_left h.nonempty
  have haccepted := h.accepted
  have hepoch := h.epoch
  have hhead := h.head_hash
  rw [List.concat_eq_append] at haccepted htarget
  obtain ⟨u, hadmits⟩ := admits_of_check_entries haccepted (show last ∈ front ++ [last] by simp)
  obtain ⟨n, hn, _⟩ := hadmits.integral.shape.epoch.get_nonneg
  obtain ⟨hash, hhash⟩ := hadmits.integral.shape.entry_hash.get_hex64
  rw [check_entries_eq_absorb haccepted, ChainView.absorbAll_concat] at hepoch hhead
  simp only [ChainView.absorb, Json.getInt_of_get hn, Json.getStr_of_get hhash] at hepoch hhead
  have hlast : last = .obj fields := by simpa using htarget
  subst hlast
  exact ⟨hhash.trans hhead.symm, hadmits.integral.instance_id.trans h.instance_id.symm, hn.trans hepoch.symm⟩

theorem first_instance_id_append {entries : List Json} (hne : entries ≠ []) (more : List Json) :
    first_instance_id (entries ++ more) = first_instance_id entries := by
  cases entries with
  | nil => exact absurd rfl hne
  | cons entry rest => rfl

/-- Checkpoints of a chain anchor it when it grows by an accepted entry, where those of
    the empty chain name the instance it gets. -/
theorem AnchoredChain.extend {V cpV : Verifier} {entries cps : List Json} (h : AnchoredChain V cpV entries cps)
    {inst : Str} {entry : Json} {view : ChainView}
    (hcheck : check_entries inst V .genesis (entries ++ [entry]) = .ok view)
    (hinst : entries = [] → ∀ cp ∈ cps, Json.get cp "instance_id" = some (.str inst)) :
    AnchoredChain V cpV (entries ++ [entry]) cps := by
  have hfirst := first_instance_id_eq hcheck (by simp)
  refine ⟨⟨view, by rwa [hfirst]⟩, h.checkpoints, fun cp hcp => ?_⟩
  obtain ⟨hexpected, htarget⟩ := h.anchors cp hcp
  refine ⟨fun expected heq => ?_, fun hcount => ?_⟩
  · rw [if_neg (by simp), hfirst] at heq
    cases heq
    by_cases hne : entries = []
    · exact hinst hne cp hcp
    · rw [first_instance_id_append hne] at hfirst
      exact hexpected _ (by rw [if_neg hne, hfirst])
  · obtain ⟨hle, hfields⟩ := htarget hcount
    obtain ⟨view', hview'⟩ := h.checkpoints
    refine ⟨by rw [List.length_append]; push_cast; omega, fun fields hget => hfields fields ?_⟩
    have hpos : 0 < Json.getInt cp "count" 0 := by
      obtain ⟨u, hadmits⟩ := admits_of_verify_checkpoints_list hview' hcp
      obtain ⟨n, hn, hnonneg⟩ := hadmits.shape.count.get_nonneg
      rw [Json.getInt_of_get hn] at hcount ⊢
      omega
    rwa [List.getElem?_append_left (by omega)] at hget

/-! ### What the steps must meet -/

/-- The keys of the run are the chain's entry key and the one checkpoint key; a file given
    with `--cp-pub` holds that key if it has its DER form. -/
structure Uses (entry_key : PublicKey) (cp_priv : PrivateKey) (args : CheckpointArgs) : Prop where
  key : args.key = some cp_priv
  entry_pub : args.entry_pub = some entry_key
  cp_pub : ∀ key, args.cp_pub = some (some key) → cp_priv.pub.der = key.der → key = cp_priv.pub

/-- A checkpoint of the empty chain that stands in the file names the instance of the
    chain's first entry and an epoch not ahead of its last. -/
def EmptyCheckpointFits (chain cp_file : Bytes) : Prop :=
  ∀ entries cps cp, read_chain chain = .ok entries → entries ≠ [] → read_checkpoints cp_file = .ok cps → cp ∈ cps →
    Json.get cp "count" = some (.int 0) →
    Json.get cp "instance_id" = some (.str (first_instance_id entries)) ∧
      Json.getInt cp "epoch" 0 ≤ last_recorded_epoch chain

/-- While a run of the command has yet to append its checkpoint, no append to the chain has
    a stale epoch or a failing write, or starts the chain under another instance. -/
def Undisturbed (s : World) (cp : Json) : Op → Prop
  | .append i _ env => ∀ w, s.writers[i]? = some w → last_recorded_epoch s.chain ≤ w.epoch ∧ ¬ Stalls env.writes ∧
      (s.chain = [] → Json.get cp "instance_id" = some (.str w.instance_id))
  | _ => True

/-- The condition on each step of a run. -/
def Careful (entry_key : PublicKey) (cp_priv : PrivateKey) (s : Archive) : ArchiveOp → Prop
  | .chain op => Keyed entry_key.verify op ∧ ∀ cp, s.pending = some cp → Undisturbed s.world cp op
  | .prepare args _ => Uses entry_key cp_priv args ∧ (s.world.chain = [] → s.cp_file = [] → 0 ≤ args.epoch) ∧
      EmptyCheckpointFits s.world.chain s.cp_file
  | .append_checkpoint .. => True

theorem Uses.checkpoint_keys {entry_key : PublicKey} {cp_priv : PrivateKey} {args : CheckpointArgs}
    (h : Uses entry_key cp_priv args) {key : PrivateKey} {entry_pub : PublicKey} {cp_verifier : Verifier}
    (hok : evidence.checkpoint_keys args = .ok (key, entry_pub, cp_verifier)) :
    key = cp_priv ∧ entry_pub = entry_key ∧ cp_verifier = cp_priv.pub.verify := by
  unfold evidence.checkpoint_keys at hok
  rw [h.key, h.entry_pub] at hok
  simp only at hok
  split at hok
  · cases hok
  split at hok
  · cases hok
    exact ⟨rfl, rfl, rfl⟩
  · cases hok
  · next cp_pub hcp_pub =>
    split at hok
    · next hmatch =>
      cases hok
      have hder : cp_priv.pub.der = cp_pub.der := by simpa [priv_matches_pub] using hmatch
      exact ⟨rfl, rfl, by rw [h.cp_pub cp_pub hcp_pub hder]⟩
    · cases hok

/-! ### The checkpoint a run is about to append -/

/-- The two files verify once this checkpoint is appended. -/
structure Prepared (V cpV : Verifier) (chain cp_file : Bytes) (cp : Json) : Prop where
  wf : ∃ fields, cp = .obj fields ∧ (Json.obj fields).WF
  grounded : Grounded V chain cp
  files : ∃ entries cps, Encodes (fileLines chain) entries ∧ Encodes (fileLines cp_file) cps ∧
    AnchoredChain V cpV entries (cps ++ [cp]) ∧ (entries = [] → cps = [])

theorem eq_nil_of_fileLines {file : Bytes} (h : Encodes (fileLines file) []) : file = [] := by
  rw [← flatten_fileLines file, List.forall₂_nil_right_iff.mp h]
  rfl

/-- A checkpoint in the file anchors the accepted chain and is not ahead of its epoch. -/
theorem Grounded.anchors {V : Verifier} {chain cp_file : Bytes} {cp : Json} (h : Grounded V chain cp)
    {entries cps : List Json} (hentries : Encodes (fileLines chain) entries) (hne : entries ≠ [])
    (hcps : Encodes (fileLines cp_file) cps) (hmem : cp ∈ cps) (hfits : EmptyCheckpointFits chain cp_file)
    {view : ChainView} (hview : check_entries (first_instance_id entries) V .genesis entries = .ok view) :
    Anchors entries (some (first_instance_id entries)) cp ∧ Json.getInt cp "epoch" 0 ≤ view.last_epoch := by
  rcases h with hzero | ⟨lines, front, rest, inst, fview, rfl, hfront, htaken⟩
  · obtain ⟨hinst, hepoch⟩ := hfits entries cps cp (read_chain_eq_ok_iff.mpr hentries) hne
      (read_checkpoints_eq_ok_iff.mpr hcps) hmem hzero
    refine ⟨⟨fun expected heq => by cases heq; exact hinst, fun hcount => ?_⟩, ?_⟩
    · exact absurd (Json.getInt_of_get hzero) hcount
    · rwa [last_recorded_epoch_eq hentries, ← check_entries_eq_absorb hview] at hepoch
  · rw [fileLines_flatten_append hfront.isLine] at hentries
    obtain ⟨front', back, rfl, hfront', _⟩ := hentries.of_append
    obtain rfl := hfront'.unique hfront
    have hinst : first_instance_id (front' ++ back) = inst := by
      rw [first_instance_id_append htaken.nonempty, first_instance_id_eq htaken.accepted htaken.nonempty]
    rw [hinst] at hview ⊢
    refine ⟨htaken.anchors back, ?_⟩
    obtain ⟨u, hu, hrest⟩ := check_entries_append_ok_iff.mp hview
    cases hu.symm.trans htaken.accepted
    rw [Json.getInt_of_get htaken.epoch]
    exact last_epoch_le_of_check_entries hrest

/-- A run that releases the chain's lock with a checkpoint in hand has prepared it. -/
theorem prepared_of_ok {entry_key : PublicKey} {cp_priv : PrivateKey} {args : CheckpointArgs} {env : CheckpointEnv}
    {chain cp_file : Bytes} {cp : Json} (hsigns : Signs cp_priv.sign cp_priv.pub.verify)
    (hok : prepare_checkpoint args env (some chain) cp_file = .ok cp) (huses : Uses entry_key cp_priv args)
    (hepoch : chain = [] → cp_file = [] → 0 ≤ args.epoch) (hfits : EmptyCheckpointFits chain cp_file)
    (hgrounded : ∀ cps, Encodes (fileLines cp_file) cps → ∀ cp ∈ cps, Grounded entry_key.verify chain cp) :
    Prepared entry_key.verify cp_priv.pub.verify chain cp_file cp := by
  obtain ⟨key, entry_pub, cp_verifier, cps, entries, head, prev_cp_hash, cp_seq, hkeys, hcps, hentries, hhead, hext,
    hbuilt⟩ := prepare_checkpoint_ok hok
  obtain ⟨rfl, rfl, rfl⟩ := huses.checkpoint_keys hkeys
  obtain ⟨hcps, cview, hcview⟩ := existing_checkpoints_ok hcps
  obtain ⟨hseq, hprev, hhex, hcount, hlast⟩ := extension_ok hext hcview
  have hadmits : ∀ {view}, cview.last_cp_epoch ≤ head.ep → 0 ≤ head.ep → is_hex64 (.str head.head_hash) = true →
      (head.count = 0 → head.head_hash = GENESIS_PREV_HASH) → view = cview.absorb cp →
      verify_checkpoints_list (cps ++ [cp]) key.pub.verify = .ok view := fun hle hnonneg hhash hempty heq =>
    verify_checkpoints_list_concat.mpr ⟨cview, hcview,
      hbuilt.admits hsigns hseq hprev hhex hhash (by omega) hle hnonneg hempty, heq⟩
  rcases chain_head_ok hhead with ⟨rfl, rfl⟩ | ⟨hne, view, hview, rfl⟩
  · -- the checkpoint of an empty chain is the first one
    have hnone : cps = [] := by
      rcases hlast with ⟨hnil, _⟩ | ⟨_, _, _, _, hpos⟩
      · exact hnil
      · exact absurd hpos (by simp)
    subst hnone
    have hfirst : cview.last_cp_epoch = -1 := by
      cases hcview
      rfl
    have hnonneg := hepoch (eq_nil_of_fileLines hentries) (eq_nil_of_fileLines hcps)
    have hgenesis : is_hex64 (.str GENESIS_PREV_HASH) = true := by decide
    refine ⟨hbuilt.wf, .inl hbuilt.count, [], [], hentries, hcps, ⟨⟨.genesis, rfl⟩, ⟨_, hadmits ?_ hnonneg hgenesis
      (fun _ => rfl) rfl⟩, fun other hother => ?_⟩, fun _ => rfl⟩
    · simp only [hfirst]
      omega
    · obtain rfl := List.mem_singleton.mp hother
      exact ⟨fun expected heq => by simp at heq, fun hcount => absurd (Json.getInt_of_get hbuilt.count) hcount⟩
  · have htaken : TakenOf entry_pub.verify cp (first_instance_id entries) entries view :=
      ⟨hne, hview, hbuilt.instance_id, hbuilt.epoch, hbuilt.count, hbuilt.head_hash⟩
    have hold : ∀ other ∈ cps, Anchors entries (some (first_instance_id entries)) other ∧
        Json.getInt other "epoch" 0 ≤ view.last_epoch := fun other hother =>
      (hgrounded cps hcps other hother).anchors hentries hne hcps hother hfits hview
    have hle : cview.last_cp_epoch ≤ view.last_epoch := by
      rcases hlast with ⟨_, hfirst⟩ | ⟨prev_cp, hmem, hprev_epoch, _⟩
      · have := last_epoch_nonneg hview hne
        omega
      · rw [hprev_epoch]
        exact (hold prev_cp hmem).2
    refine ⟨hbuilt.wf, .inr ⟨fileLines chain, entries, [], _, view, by simp, hentries, htaken⟩, entries, cps, hentries,
      hcps, ⟨⟨view, hview⟩, ⟨_, hadmits hle (last_epoch_nonneg hview hne) (is_hex64_prev_h hview) ?_ rfl⟩, ?_⟩,
      fun hnil => absurd hnil hne⟩
    · exact fun hzero => absurd (List.length_eq_zero_iff.mp hzero) hne
    · intro other hother
      rw [if_neg hne]
      rcases List.mem_append.mp hother with hmem | hnew
      · exact (hold other hmem).1
      · rw [List.mem_singleton.mp hnew]
        simpa using htaken.anchors []

/-! ### The chain's writers -/

/-- The writer holds the chain's key, and all it has read belongs to its instance. -/
structure Affiliated (V : Verifier) (w : ChainWriter) (entries : List Json) : Prop where
  verifier : w.verifier = V
  signer : Signs w.signer V
  epoch : 0 ≤ w.epoch
  instance_id : w.instance_id ≠ []
  entries : ∀ entry ∈ entries, Json.get entry "instance_id" = some (.str w.instance_id)

theorem keptBySync_affiliated (V : Verifier) : KeptBySync (Affiliated V) := by
  intro w lines entries entries' view offset size _ hP hcheck
  refine ⟨hP.verifier, hP.signer, hP.epoch, hP.instance_id, fun entry hentry => ?_⟩
  rcases List.mem_append.mp hentry with hold | hnew
  · exact hP.entries entry hold
  · obtain ⟨u, hadmits⟩ := admits_of_check_entries hcheck hnew
    exact hadmits.integral.instance_id

theorem keptByAppend_affiliated {V : Verifier} {env : Env} {file : Bytes} {call : AppendCall} {w : ChainWriter} :
    KeptByAppend (Affiliated V) env file call w := by
  intro w' lines entries rec hash sig line _ _ _ _ hP hdraft _
  refine ⟨hP.verifier, hP.signer, hP.epoch, hP.instance_id, fun entry hentry => ?_⟩
  rcases List.mem_append.mp hentry with hold | hnew
  · exact hP.entries entry hold
  · rw [List.mem_singleton.mp hnew]
    exact hdraft.drafted.instance_id hash sig

/-- Where the chain is accepted, an affiliated writer that has read all of it vouches for it. -/
theorem Affiliated.vouched {V : Verifier} {w : ChainWriter} {lines : List Bytes} {entries : List Json}
    (h : Affiliated V w entries) (htracks : Tracks w lines entries) {view : ChainView}
    (hview : check_entries (first_instance_id entries) V .genesis entries = .ok view) : Vouched V w entries := by
  refine ⟨h.verifier, h.signer, h.epoch, h.instance_id, ?_⟩
  rw [htracks.view, ← check_entries_eq_absorb hview]
  cases entries with
  | nil => exact hview
  | cons entry rest =>
    have hinst := h.entries entry List.mem_cons_self
    rwa [first_instance_id, Json.getStr_of_get hinst] at hview

section Step

variable {V cpV : Verifier} {chain cp_file : Bytes} {cp : Json}

/-- An entry drafted on the accepted chain leaves the two files ready for the checkpoint. -/
theorem Prepared.entry (h : Prepared V cpV chain cp_file cp) {w : ChainWriter} {lines : List Bytes}
    {entries : List Json} (hfile : chain = lines.flatten) (htracks : Tracks w lines entries)
    (hP : Affiliated V w entries) {env : Env} {call : AppendCall} {rec : List (Str × Json)}
    (hdraft : Drafts w env call rec) {hash : Str} {sig line : Bytes} (hwritten : Written w rec hash sig line)
    (hepoch : last_recorded_epoch chain ≤ w.epoch)
    (hinst : chain = [] → Json.get cp "instance_id" = some (.str w.instance_id)) :
    Prepared V cpV (chain ++ line) cp_file cp := by
  obtain ⟨all, cps, hall, hcps, hanchored, hempty⟩ := h.files
  have hlines := htracks.encodes.fileLines
  rw [← hfile] at hlines
  obtain rfl := hall.unique hlines
  obtain ⟨view, hview⟩ := hanchored.entries
  have hvouched := hP.vouched htracks hview
  rw [last_recorded_epoch_eq hlines, ← htracks.view] at hepoch
  have hcheck := check_entries_concat_ok_iff.mpr
    ⟨w.view, hvouched.accepted, hvouched.admits hdraft hwritten hepoch, rfl⟩
  have hnew : Encodes (fileLines (chain ++ line)) (all ++ [sealed rec "entry_hash" hash sig]) := by
    have := (htracks.encodes.append (.cons hwritten.parses .nil)).fileLines
    rw [hfile]
    simpa using this
  refine ⟨h.wf, h.grounded.mono (List.prefix_append _ _), _, cps, hnew, hcps, hanchored.extend hcheck ?_, by simp⟩
  rintro rfl other hother
  rw [hempty rfl, List.nil_append, List.mem_singleton] at hother
  rw [hother]
  exact hinst (eq_nil_of_fileLines hall)

/-- An undisturbing append keeps the two files ready for the checkpoint. -/
theorem Prepared.append (h : Prepared V cpV chain cp_file cp) {w : ChainWriter} (hsane : Sane (Affiliated V) chain w)
    {call : AppendCall} {env : Env} (hepoch : last_recorded_epoch chain ≤ w.epoch) (hwrites : ¬ Stalls env.writes)
    (hinst : chain = [] → Json.get cp "instance_id" = some (.str w.instance_id)) :
    Prepared V cpV (call.run w env chain).file cp_file cp := by
  have hconfig := (sync_cases w chain).config
  have hcases := call.run_cases w env chain
  generalize call.run w env chain = o at hcases
  cases hcases with
  | refused e => exact h
  | unlocked e reason => exact h
  | unsynced e w' => exact h
  | declined e w' => exact h
  | torn w' rec hash sig line written hclean hsync hdraft hwritten hfront hcut =>
    obtain ⟨lines, entries, hfile, htracks, hP, _⟩ := (hsane.sync (keptBySync_affiliated V) hclean hsync).2 rfl
    rw [hsync] at hconfig
    rw [← hconfig.2.1] at hepoch
    rw [← hconfig.1] at hinst
    obtain rfl := hcut.resolve_right hwrites
    exact h.entry hfile htracks hP hdraft hwritten hepoch hinst
  | appended w' rec hash sig line hclean hstate hsync hdraft hwritten =>
    obtain ⟨lines, entries, hfile, htracks, hP, _⟩ := (hsane.sync (keptBySync_affiliated V) hclean hsync).2 rfl
    rw [hsync] at hconfig
    rw [← hconfig.2.1] at hepoch
    rw [← hconfig.1] at hinst
    exact h.entry hfile htracks hP hdraft hwritten hepoch hinst

end Step

/-! ### Runs -/

/-- The writers are affiliated, every checkpoint in the file was taken of the chain, and the
    one about to be appended completes two files that verify. -/
structure Archive.Consistent (V cpV : Verifier) (s : Archive) : Prop where
  sound : s.world.Sound (Affiliated V)
  grounded : ∀ cps, Encodes (fileLines s.cp_file) cps → ∀ cp ∈ cps, Grounded V s.world.chain cp
  pending : ∀ cp, s.pending = some cp → Prepared V cpV s.world.chain s.cp_file cp

theorem Archive.consistent_start (V cpV : Verifier) : Archive.start.Consistent V cpV := by
  refine ⟨by simp [Archive.start, World.Sound, World.start], fun cps hcps => ?_, by simp [Archive.start]⟩
  cases hcps
  simp

section

variable {entry_key : PublicKey} {cp_priv : PrivateKey} {s : Archive}

/-- The condition under which a step of the chain keeps the archive consistent. -/
theorem Archive.Consistent.chain {cpV : Verifier} (h : s.Consistent entry_key.verify cpV) {op : Op}
    (hkeyed : Keyed entry_key.verify op) (hcalm : ∀ cp, s.pending = some cp → Undisturbed s.world cp op) :
    (s.step (.chain op)).Consistent entry_key.verify cpV := by
  have hgrounded : ∀ cps, Encodes (fileLines s.cp_file) cps → ∀ cp ∈ cps,
      Grounded entry_key.verify (s.world.step op).chain cp := fun cps hcps cp hcp =>
    (h.grounded cps hcps cp hcp).mono (s.world.chain_prefix op)
  have hkept := keptBySync_affiliated entry_key.verify
  cases op with
  | open_writer instance_id epoch signer verifier stat =>
    obtain ⟨rfl, hsigns⟩ := hkeyed
    refine ⟨h.sound.open_writer fun hinst hepoch entries view l hcheck _ =>
      ⟨rfl, hsigns, hepoch, hinst, fun entry hentry => ?_⟩, hgrounded, fun cp hcp => ?_⟩
    · obtain ⟨u, hadmits⟩ := admits_of_check_entries hcheck hentry
      exact hadmits.integral.instance_id
    · simp only [Archive.step, World.chain_open_writer]
      exact h.pending cp hcp
  | append i call env =>
    refine ⟨h.sound.append hkept fun w _ => keptByAppend_affiliated, hgrounded, fun cp hcp => ?_⟩
    simp only [Archive.step]
    cases hw : s.world.writers[i]? with
    | none =>
      rw [World.step_append_none hw]
      exact h.pending cp hcp
    | some w =>
      rw [World.step_append hw]
      obtain ⟨hepoch, hwrites, hinst⟩ := hcalm cp hcp w hw
      exact (h.pending cp hcp).append (h.sound w (List.mem_of_getElem? hw)) hepoch hwrites hinst
  | get_head i env =>
    refine ⟨h.sound.get_head hkept, hgrounded, fun cp hcp => ?_⟩
    simp only [Archive.step, World.chain_get_head]
    exact h.pending cp hcp

/-- One careful step keeps the archive consistent. -/
theorem Archive.Consistent.step (hsigns : Signs cp_priv.sign cp_priv.pub.verify)
    (h : s.Consistent entry_key.verify cp_priv.pub.verify) {op : ArchiveOp} (hop : Careful entry_key cp_priv s op) :
    (s.step op).Consistent entry_key.verify cp_priv.pub.verify := by
  cases op with
  | chain op => exact h.chain hop.1 hop.2
  | prepare args env =>
    obtain ⟨huses, hepoch, hfits⟩ := hop
    cases hpending : s.pending with
    | some cp => rwa [Archive.step_prepare_waits hpending]
    | none =>
      cases hprepare : prepare_checkpoint args env (some s.world.chain) s.cp_file with
      | error e => rwa [Archive.step_prepare_error hpending hprepare]
      | ok cp =>
        rw [Archive.step_prepare_ok hpending hprepare]
        refine ⟨h.sound, h.grounded, fun cp' hcp' => ?_⟩
        cases hcp'
        exact prepared_of_ok hsigns hprepare huses hepoch hfits h.grounded
  | append_checkpoint writes fsync =>
    cases hpending : s.pending with
    | none => rwa [Archive.step_append_checkpoint_none hpending]
    | some cp =>
      rw [Archive.step_append_checkpoint hpending]
      have hprepared := h.pending cp hpending
      obtain ⟨entries, cps, hentries, hcps, _⟩ := hprepared.files
      refine ⟨h.sound, fun cps' hcps' => ?_, fun cp' hcp' => by cases hcp'⟩
      rcases append_checkpoint_fd_cases s.cp_file hprepared.wf writes fsync with
        hnone | ⟨line, written, hline, hfront, hfile, _⟩
      · simp only [hnone] at hcps'
        exact h.grounded cps' hcps'
      · simp only [hfile] at hcps'
        rcases records_of_partial_line hcps hline hfront hcps' with rfl | rfl
        · exact h.grounded cps' hcps
        · obtain rfl := hcps'.unique (hcps.concat_line hline)
          simp only [List.mem_append, List.mem_singleton]
          rintro cp' (hold | rfl)
          · exact h.grounded cps hcps cp' hold
          · exact hprepared.grounded

/-- Along every run of writers and checkpoint commands from two empty files whose steps are
    careful, each time a command returns 0 the checkpoint list still passes its check and
    the two files verify without errors. -/
theorem checkpoint_runs_verify (hkeys : entry_key.der ≠ cp_priv.pub.der)
    (hsigns : Signs cp_priv.sign cp_priv.pub.verify) {ops : List ArchiveOp}
    (hrun : Allowed Archive.step (Careful entry_key cp_priv) .start ops) {cp : Json}
    (hpending : (Archive.start.run ops).pending = some cp) {writes : List (Option Nat)} {fsync : Bool}
    (hok : (append_checkpoint_fd (Archive.start.run ops).cp_file cp writes fsync).1 = true) :
    (∃ cps view, read_checkpoints ((Archive.start.run ops).step (.append_checkpoint writes fsync)).cp_file = .ok cps ∧
      verify_checkpoints_list cps cp_priv.pub.verify = .ok view) ∧
    Accepted (verify (.path (some ((Archive.start.run ops).step (.append_checkpoint writes fsync)).world.chain))
      (.loaded entry_key)
      (some (.path (some ((Archive.start.run ops).step (.append_checkpoint writes fsync)).cp_file)))
      (.loaded cp_priv.pub) false none) := by
  have hinv := hrun.invariant (I := Archive.Consistent entry_key.verify cp_priv.pub.verify)
    (fun s op hs hop => hs.step hsigns hop) (Archive.consistent_start _ _)
  have hprepared := hinv.pending cp hpending
  rw [Archive.step_append_checkpoint hpending]
  obtain ⟨entries, cps, hentries, hcps, hanchored, _⟩ := hprepared.files
  rcases append_checkpoint_fd_cases (Archive.start.run ops).cp_file hprepared.wf writes fsync with
    hnone | ⟨line, written, hline, _, hfile, hwhole⟩
  · rw [hnone] at hok
    cases hok
  · obtain rfl := hwhole hok
    simp only [hfile]
    have hread := read_checkpoints_eq_ok_iff.mpr (hcps.concat_line hline)
    obtain ⟨view, hview⟩ := hanchored.checkpoints
    exact ⟨⟨_, view, hread, hview⟩, accepted_with_checkpoints_iff.mpr ⟨hkeys, entries, _,
      read_chain_eq_ok_iff.mpr hentries, hread, by simp, hanchored⟩⟩

end

/-! ### Concrete runs -/

def sampleCheckpointPriv : PrivateKey := ⟨sampleCheckpointKey, sampleSigner⟩

/-- The command with the sample keys on these arguments. -/
def sampleArgs (epoch : Int) : CheckpointArgs :=
  { key := some sampleCheckpointPriv, entry_pub := some sampleEntryKey, instance_id := lit "i", epoch := epoch }

def sampleAppend : List ArchiveOp :=
  [.chain (.open_writer (lit "i") 0 sampleSigner sampleVerifier .same),
    .chain (.append 0 (.intent (lit "g") (lit "h")) calmEnv)]

theorem uses_sampleArgs (epoch : Int) : Uses sampleEntryKey sampleCheckpointPriv (sampleArgs epoch) :=
  ⟨rfl, rfl, fun key hkey => by cases hkey⟩

set_option maxRecDepth 100000 in
theorem checkpoint_runs_verify_sample :
    ∃ cp, (Archive.start.run (sampleAppend ++ [.prepare (sampleArgs 0) ⟨.same, .same, 0⟩])).pending = some cp ∧
      Accepted (verify
        (.path (some ((Archive.start.run (sampleAppend ++ [.prepare (sampleArgs 0) ⟨.same, .same, 0⟩])).step
          (.append_checkpoint [] true)).world.chain))
        (.loaded sampleEntryKey)
        (some (.path (some ((Archive.start.run (sampleAppend ++ [.prepare (sampleArgs 0) ⟨.same, .same, 0⟩])).step
          (.append_checkpoint [] true)).cp_file)))
        (.loaded sampleCheckpointKey) false none) := by
  have hsome : (Archive.start.run (sampleAppend ++ [.prepare (sampleArgs 0) ⟨.same, .same, 0⟩])).pending.isSome =
      true := by decide +kernel
  obtain ⟨cp, hcp⟩ := Option.isSome_iff_exists.mp hsome
  have hok : (append_checkpoint_fd
      (Archive.start.run (sampleAppend ++ [.prepare (sampleArgs 0) ⟨.same, .same, 0⟩])).cp_file
      ((Archive.start.run (sampleAppend ++ [.prepare (sampleArgs 0) ⟨.same, .same, 0⟩])).pending.getD .null)
      [] true).1 = true := by decide +kernel
  rw [hcp, Option.getD_some] at hok
  have hempty : (((Archive.start.step (.chain (.open_writer (lit "i") 0 sampleSigner sampleVerifier .same))).step
      (.chain (.append 0 (.intent (lit "g") (lit "h")) calmEnv)))).cp_file = [] := rfl
  have hrun : Allowed Archive.step (Careful sampleEntryKey sampleCheckpointPriv) .start
      (sampleAppend ++ [.prepare (sampleArgs 0) ⟨.same, .same, 0⟩]) := by
    refine ⟨⟨⟨rfl, signs_sample⟩, fun _ _ => trivial⟩, ⟨trivial, fun cp hcp => by cases hcp⟩,
      ⟨uses_sampleArgs 0, fun _ _ => le_rfl, fun entries cps cp _ _ hcps hmem => ?_⟩, trivial⟩
    rw [hempty] at hcps
    cases hcps
    cases hmem
  exact ⟨cp, hcp, (checkpoint_runs_verify (by decide) signs_sample hrun hcp hok).2⟩

/-- A checkpoint of the empty chain with a later epoch, then an entry and a second run. -/
def aheadRun : List ArchiveOp :=
  [.prepare (sampleArgs 7) ⟨.same, .same, 0⟩, .append_checkpoint [] true] ++ sampleAppend ++
    [.prepare (sampleArgs 0) ⟨.same, .same, 0⟩]

set_option maxRecDepth 100000 in
/-- The second run returns 0, and the list it leaves fails both checks. -/
theorem checkpoint_ahead_rejected :
    sampleEntryKey.der ≠ sampleCheckpointPriv.pub.der ∧
      ((Archive.start.run aheadRun).pending.any fun cp =>
        (append_checkpoint_fd (Archive.start.run aheadRun).cp_file cp [] true).1) = true ∧
      (((read_checkpoints ((Archive.start.run aheadRun).step (.append_checkpoint [] true)).cp_file).bind
        fun cps => verify_checkpoints_list cps sampleVerifier) =
          .error (.integrity (.cp_epoch_decreased 1))) ∧
      ¬ Accepted (verify (.path (some ((Archive.start.run aheadRun).step (.append_checkpoint [] true)).world.chain))
        (.loaded sampleEntryKey)
        (some (.path (some ((Archive.start.run aheadRun).step (.append_checkpoint [] true)).cp_file)))
        (.loaded sampleCheckpointKey) false none) := by
  decide +kernel

end narwhal.evidence
