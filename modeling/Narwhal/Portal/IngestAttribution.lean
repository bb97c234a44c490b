import Narwhal.Portal.EventIngest
import Narwhal.Portal.LiveRuns

open jslib narwhal.portal.live_stream
open pylib (bind_ok_iff)

namespace narwhal.portal.event_ingest

/-! ### What the checks give -/

/-- What comes before the claim succeeds stage by stage. -/
theorem validate_ok_iff {s : Server} {r : Request} {auth : ProducerAuthResult} {envelope : Envelope} :
    validate s r = .ok (auth, envelope) ↔
      ∃ raw, readBody s r = .ok raw ∧ authenticate s r raw = .ok auth ∧ limitRate s r auth = .ok () ∧
        checkBody s auth raw = .ok envelope := by
  constructor
  · intro h
    obtain ⟨raw, hraw, h⟩ := bind_ok_iff.mp h
    obtain ⟨auth', hauth, h⟩ := bind_ok_iff.mp h
    obtain ⟨_, hlimit, h⟩ := bind_ok_iff.mp h
    obtain ⟨envelope', hbody, h⟩ := bind_ok_iff.mp h
    cases h
    exact ⟨raw, hraw, hauth, hlimit, hbody⟩
  · rintro ⟨raw, hraw, hauth, hlimit, hbody⟩
    refine bind_ok_iff.mpr ⟨raw, hraw, bind_ok_iff.mpr ⟨auth, hauth, bind_ok_iff.mpr ⟨(), hlimit, ?_⟩⟩⟩
    exact bind_ok_iff.mpr ⟨envelope, hbody, rfl⟩

/-- The event has the source that the body names, the authenticated producer and its scope. -/
theorem checkBody_ok {s : Server} {auth : ProducerAuthResult} {raw : Json} {envelope : Envelope}
    (h : checkBody s auth raw = .ok envelope) :
    checkName sourceName KNOWN_PRODUCERS raw "source" = .ok envelope.source ∧ envelope.producer = some auth.producer ∧
      envelope.credential_scope = some auth.credentialScope := by
  obtain ⟨_, _, h⟩ := bind_ok_iff.mp h
  obtain ⟨type, _, h⟩ := bind_ok_iff.mp h
  obtain ⟨severity, _, h⟩ := bind_ok_iff.mp h
  obtain ⟨source, hsource, h⟩ := bind_ok_iff.mp h
  obtain ⟨title, _, h⟩ := bind_ok_iff.mp h
  obtain ⟨description, _, h⟩ := bind_ok_iff.mp h
  obtain ⟨resource, _, h⟩ := bind_ok_iff.mp h
  obtain ⟨actor, _, h⟩ := bind_ok_iff.mp h
  obtain ⟨visibility, _, h⟩ := bind_ok_iff.mp h
  obtain ⟨correlation_id, _, h⟩ := bind_ok_iff.mp h
  obtain ⟨causation_id, _, h⟩ := bind_ok_iff.mp h
  obtain ⟨operation_id, _, h⟩ := bind_ok_iff.mp h
  obtain ⟨idempotency_key, _, h⟩ := bind_ok_iff.mp h
  obtain ⟨source_event_id, _, h⟩ := bind_ok_iff.mp h
  split at h
  · cases h
  · obtain ⟨links, _, h⟩ := bind_ok_iff.mp h
    cases h
    exact ⟨hsource, rfl, rfl⟩

theorem oneOf_eq_some {α : Type} {name : α → Text} {all : List α} {v : Option Json} {a : α}
    (h : oneOf name all v = some a) : a ∈ all ∧ v = some (.str (name a)) := by
  unfold oneOf at h
  split at h
  · next s =>
    have hname := List.find?_some h
    rw [decide_eq_true_eq] at hname
    exact ⟨List.mem_of_find?_eq_some h, by rw [hname]⟩
  · cases h

theorem checkName_ok {α : Type} {name : α → Text} {all : List α} {raw : Json} {field : String} {a : α}
    (h : checkName name all raw field = .ok a) : a ∈ all ∧ member raw field = some (.str (name a)) := by
  unfold checkName at h
  split at h
  · next a' hone =>
    cases h
    exact oneOf_eq_some hone
  · cases h

/-- The object comes from the body. -/
theorem readBody_ok {s : Server} {r : Request} {raw : Json} (h : readBody s r = .ok raw) :
    ∃ text, r.body = some text ∧ s.parseJson text = some raw := by
  unfold readBody at h
  split at h
  · cases h
  · split at h
    · cases h
    · next text hbody =>
      split at h
      · cases h
      · split at h
        · cases h
        · next fields hparse =>
          cases h
          exact ⟨text, hbody, hparse⟩
        · cases h

/-! ### Authentication -/

/-- A secret that is one of a list's. -/
theorem mem_of_any_compare {provided : Text} {secrets : List Text}
    (h : (secrets.any fun s => safeSecretCompare provided s) = true) : provided ∈ secrets := by
  obtain ⟨s, hs, hcompare⟩ := List.any_eq_true.mp h
  simp only [safeSecretCompare, Bool.and_eq_true, decide_eq_true_eq] at hcompare
  rw [hcompare.2]
  exact hs

/-- The secret opens a producer: it is one of its own, or it has none and the secret is a global one. -/
def Opens (env : Env) (secret producer : Text) : Prop :=
  secret ∈ getProducerSecrets env producer ∨ getProducerSecrets env producer = [] ∧ secret ∈ getGlobalSecrets env

/-- With a hint only the hinted producer is authenticated, and only by a secret that opens it. -/
theorem authenticateProducer_hint {env : Env} {secret hint : Text} {producerHint : Option Text}
    (hhint : given producerHint = some hint)
    (h : (authenticateProducer env secret producerHint).authenticated = true) :
    (authenticateProducer env secret producerHint).producer = hint ∧ secret ≠ [] ∧ Opens env secret hint := by
  unfold authenticateProducer at h ⊢
  simp only [hhint] at h ⊢
  split at h
  · cases h
  next htrim =>
  have hne : secret ≠ [] := by
    rintro rfl
    exact htrim rfl
  rw [if_neg htrim]
  split at h
  · next hown =>
    rw [if_pos hown]
    split at h
    · next hopens =>
      rw [if_pos hopens]
      exact ⟨rfl, hne, .inl (mem_of_any_compare hopens)⟩
    · cases h
  · next hown =>
    rw [if_neg hown]
    split at h
    · next hglobal =>
      rw [if_pos hglobal]
      split at h
      · next hopens =>
        rw [if_pos hopens]
        exact ⟨rfl, hne, .inr ⟨not_not.mp hown, mem_of_any_compare hopens⟩⟩
      · cases h
    · cases h

theorem given_eq_some_iff {s : Option Text} {t : Text} : given s = some t ↔ s = some t ∧ t ≠ [] := by
  simp [given, Option.filter_eq_some_iff]

theorem sourceName_ne_nil (source : LiveSource) : sourceName source ≠ [] := by
  cases source <;> decide

/-- Where the body names a source, that is the producer, whatever the header. -/
theorem authenticate_ok {s : Server} {r : Request} {raw : Json} {auth : ProducerAuthResult} {source : Text}
    (h : authenticate s r raw = .ok auth) (hsource : bodySource raw = some source) (hne : source ≠ []) :
    auth.producer = source ∧ (∃ secret, r.ingestSecret = some secret ∧ Opens s.env secret source) ∧
      ∀ header, r.headerProducer = some header → header ≠ [] → header = source := by
  have hgiven : given (bodySource raw) = some source := given_eq_some_iff.mpr ⟨hsource, hne⟩
  unfold authenticate at h
  split at h
  · cases h
  next hmatch =>
  have hheader : ∀ header, r.headerProducer = some header → header ≠ [] → header = source := by
    intro header hheader hheaderNe
    have hheaderGiven : given r.headerProducer = some header := given_eq_some_iff.mpr ⟨hheader, hheaderNe⟩
    simpa [mismatched, hgiven, hheaderGiven] using hmatch
  have hhint : given ((given r.headerProducer).orElse fun _ => bodySource raw) = some source := by
    cases hcase : given r.headerProducer with
    | none => exact hgiven
    | some header =>
      obtain ⟨hsome, hheaderNe⟩ := given_eq_some_iff.mp hcase
      rw [← hheader header hsome hheaderNe]
      exact given_eq_some_iff.mpr ⟨rfl, hheaderNe⟩
  dsimp only at h
  split at h
  · next hauth =>
    cases h
    obtain ⟨hproducer, hsecretNe, hopens⟩ := authenticateProducer_hint hhint hauth
    refine ⟨hproducer, ?_, hheader⟩
    cases hsecret : r.ingestSecret with
    | none =>
      rw [hsecret] at hsecretNe
      exact absurd rfl hsecretNe
    | some secret =>
      rw [hsecret] at hopens
      exact ⟨secret, rfl, hopens⟩
  · cases h

/-! ### Attribution -/

/-- A request that may act for a source: its body names the source, which is a known producer, a
    header that is not empty names it too, and its secret opens it. -/
structure Attributed (s : Server) (r : Request) (source : LiveSource) : Prop where
  known : source ∈ KNOWN_PRODUCERS
  body : ∃ text raw, r.body = some text ∧ s.parseJson text = some raw ∧
    member raw "source" = some (.str (sourceName source))
  header : ∀ header, r.headerProducer = some header → header ≠ [] → header = sourceName source
  secret : ∃ secret, r.ingestSecret = some secret ∧ Opens s.env secret (sourceName source)

/-- What passes the checks is attributed to its source. -/
theorem validate_attributed {s : Server} {r : Request} {auth : ProducerAuthResult} {envelope : Envelope}
    (h : validate s r = .ok (auth, envelope)) :
    Attributed s r envelope.source ∧ auth.producer = sourceName envelope.source ∧
      envelope.producer = some (sourceName envelope.source) := by
  obtain ⟨raw, hraw, hauth, -, hbody⟩ := validate_ok_iff.mp h
  obtain ⟨hname, hproducer, -⟩ := checkBody_ok hbody
  obtain ⟨hknown, hmember⟩ := checkName_ok hname
  obtain ⟨text, htext, hparse⟩ := readBody_ok hraw
  have hsource : bodySource raw = some (sourceName envelope.source) := by
    rw [bodySource, hmember]
  obtain ⟨hauthProducer, hsecret, hheader⟩ := authenticate_ok hauth hsource (sourceName_ne_nil _)
  refine ⟨⟨hknown, ⟨text, raw, htext, hparse, hmember⟩, hheader, hsecret⟩, hauthProducer, ?_⟩
  rw [hproducer, hauthProducer]

/-- The event that an accepted request adds to a process's ring, and at most to Valkey's ring and
    channel. -/
structure Pushed (before after : Portal) (event : LiveEvent) : Prop where
  memoryRing : after.process.memoryRing = retain event before.process.memoryRing
  ring : ∀ e ∈ after.valkey.ring, e = event ∨ e ∈ before.valkey.ring
  channel : ∀ e ∈ after.valkey.channel, e = event ∨ e ∈ before.valkey.channel

theorem pushEvent_pushed (store : idempotency.ValkeyIdempotencyStore) (p : Portal) (ingest : LiveEventIngest) (now : Nat)
    (incrOk : Bool) (pipeline : Pipeline) :
    (pushEvent p.process p.valkey ingest now incrOk pipeline).1.toEnvelope = ingest.toEnvelope ∧
      Pushed p
        ⟨store, (pushEvent p.process p.valkey ingest now incrOk pipeline).2.1,
          (pushEvent p.process p.valkey ingest now incrOk pipeline).2.2⟩
        (pushEvent p.process p.valkey ingest now incrOk pipeline).1 := by
  simp only [pushEvent]
  generalize hbegin : beginPush p.process p.valkey ingest now incrOk = begun
  obtain ⟨event, process, valkey⟩ := begun
  have hevent : event.toEnvelope = ingest.toEnvelope ∧ process.memoryRing = retain event p.process.memoryRing ∧
      valkey.ring = p.valkey.ring ∧ valkey.channel = p.valkey.channel := by
    unfold beginPush at hbegin
    split at hbegin
    · cases hbegin
      exact ⟨rfl, rfl, rfl, rfl⟩
    · cases hbegin
      exact ⟨rfl, rfl, rfl, rfl⟩
  obtain ⟨henvelope, hmemory, hring, hchannel⟩ := hevent
  refine ⟨henvelope, ?_, ?_, ?_⟩
  · rw [memoryRing_finishPush, hmemory]
  · intro e he
    simp only [finishPush, hring] at he
    have hpushed : e ∈ (if pipeline.lpush then event :: p.valkey.ring else p.valkey.ring) := by
      split at he
      · exact List.mem_of_mem_take he
      · exact he
    split at hpushed
    · exact List.mem_cons.mp hpushed
    · exact .inr hpushed
  · intro e he
    simp only [finishPush, hchannel] at he
    split at he
    · simpa [or_comm] using he
    · exact .inr he

/-- A request that is accepted or a duplicate is attributed to its source, an accepted one pushes
    an event of that producer, and any other request leaves everything as it was. -/
theorem post_attributes (s : Server) (r : Request) (eventId : Uuid) (io : Io) (p : Portal) :
    match (POST s r eventId io p).1 with
    | .accepted id producer _ =>
      ∃ source event, Attributed s r source ∧ producer = sourceName source ∧ event.id = id ∧ event.source = source ∧
        event.producer = some (sourceName source) ∧ Pushed p (POST s r eventId io p).2 event
    | .duplicate _ producer =>
      ∃ source, Attributed s r source ∧ producer = sourceName source ∧
        (POST s r eventId io p).2.process = p.process ∧ (POST s r eventId io p).2.valkey = p.valkey
    | .refused _ => (POST s r eventId io p).2 = p := by
  unfold POST
  cases hvalidate : validate s r with
  | error refusal => rfl
  | ok checked =>
    obtain ⟨auth, envelope⟩ := checked
    obtain ⟨hattributed, hproducer, henvelope⟩ := validate_attributed hvalidate
    dsimp only
    generalize claimIdempotencyKey p.store (idempotencyKey (dedupOf envelope)) eventId.val io.claim = claimed
    obtain ⟨reply, store⟩ := claimed
    dsimp only
    cases existingId reply with
    | some existing => exact ⟨envelope.source, hattributed, hproducer, rfl, rfl⟩
    | none =>
      obtain ⟨hsame, hpushed⟩ := pushEvent_pushed store p ⟨envelope, some eventId.val⟩ io.now io.incrOk io.pipeline
      refine ⟨envelope.source, _, hattributed, hproducer, rfl, ?_, ?_, hpushed⟩
      · rw [hsame]
      · rw [hsame]
        exact henvelope

/-- A body with all that is required. -/
def sampleBody : Json :=
  .obj [("type".toList, .str "sync".toList), ("severity".toList, .str "info".toList), ("title".toList, .str "synced".toList),
    ("source".toList, .str "argocd".toList), ("idempotency_key".toList, .str "rev-1".toList)]

/-- A server on which one producer has a secret. -/
def sampleServer : Server where
  env name := if name = "LIVE_INGEST_SECRET_ARGOCD".toList then some "argo-secret".toList else none
  parseJson text := if text = stringify sampleBody then some sampleBody else none
  parseUrl _ := none
  consume _ := ⟨true, "30".toList, none⟩

def sampleRequest (producerId : Option Text) : Request where
  contentLength := none
  ingestSecret := some "argo-secret".toList
  producerId
  ingestProducer := none
  forwardedFor := none
  body := some (stringify sampleBody)

def sampleUuid : Uuid := ⟨"123e4567-e89b-42d3-a456-426614174000".toList, by decide +kernel⟩

def sampleIo : Io := ⟨⟨0, 0, 0, true, true⟩, 0, true, .ok⟩

/-- A header that is there and empty is accepted, whatever the source. -/
theorem empty_header_accepted :
    (sampleRequest (some [])).headerProducer = some [] ∧ bodySource sampleBody = some (sourceName .argocd) ∧
      [] ≠ sourceName .argocd ∧
      (POST sampleServer (sampleRequest (some [])) sampleUuid sampleIo Portal.start).1 =
        .accepted "1".toList "argocd".toList "producer:argocd".toList := by
  refine ⟨rfl, rfl, by decide, ?_⟩
  decide +kernel

end narwhal.portal.event_ingest
