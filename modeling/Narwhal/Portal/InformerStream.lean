import Mathlib.Data.List.Induction
import Narwhal.Portal.InformerResync

open jslib pylib

namespace narwhal.portal.informer

section

variable {parse : Text → Option WatchEvent}

/-! ### Lines -/

/-- The line announces a new object. -/
def IsAdded (parse : Text → Option WatchEvent) (line : Text) (object : Option K8sEvent) : Prop :=
  trimText line ≠ [] ∧ parse (trimText line) = some ⟨"ADDED", object⟩

/-- The line carries this resource version. -/
def Carries (parse : Text → Option WatchEvent) (line : Text) (rv : String) : Prop :=
  ∃ evt, parse (trimText line) = some evt ∧ evt.object.bind K8sEvent.resourceVersion = some rv

/-- An announcement is passed on. -/
theorem mem_handleLine {rv : String} {line : Text} {object : Option K8sEvent} (h : IsAdded parse line object) :
    object ∈ (handleLine parse rv line).2 := by
  simp [handleLine, h.1, h.2]

/-- A line leaves the position, or gives its own. -/
theorem handleLine_position (rv : String) (line : Text) :
    (handleLine parse rv line).1 = rv ∨ Carries parse line (handleLine parse rv line).1 := by
  unfold handleLine
  split
  · exact .inl rfl
  split
  · exact .inl rfl
  next evt hevt =>
  cases hversion : (evt.object.bind K8sEvent.resourceVersion).filter (· ≠ "") with
  | none => exact .inl rfl
  | some version => exact .inr ⟨evt, hevt, (Option.filter_eq_some_iff.mp hversion).1⟩

/-- So is every announcement among the lines, -/
theorem mem_handleLines {rv : String} {lines : List Text} {line : Text} (hline : line ∈ lines)
    {object : Option K8sEvent} (h : IsAdded parse line object) : object ∈ (handleLines parse rv lines).2 := by
  induction lines generalizing rv with
  | nil => cases hline
  | cons first lines ih =>
    simp only [handleLines, List.mem_append]
    rcases List.mem_cons.mp hline with rfl | hline
    · exact .inl (mem_handleLine h)
    · exact .inr (ih hline)

/-- and the position is the old one or that of one of them. -/
theorem handleLines_position (rv : String) (lines : List Text) :
    (handleLines parse rv lines).1 = rv ∨ ∃ line ∈ lines, Carries parse line (handleLines parse rv lines).1 := by
  induction lines generalizing rv with
  | nil => exact .inl rfl
  | cons first lines ih =>
    simp only [handleLines]
    rcases ih (handleLine parse rv first).1 with hrest | ⟨line, hline, hcarries⟩
    · rw [hrest]
      rcases handleLine_position rv first with hsame | hcarries
      · exact .inl hsame
      · exact .inr ⟨first, List.mem_cons_self, hcarries⟩
    · exact .inr ⟨line, List.mem_cons_of_mem first hline, hcarries⟩

/-! ### The reader and the text it has read -/

theorem utf16Length_append (a b : Text) : utf16Length (a ++ b) = utf16Length a + utf16Length b := by
  simp [utf16Length]

/-- The buffer holds the unfinished line, or that line is too long and is being skipped. -/
def Reader.Tracks (r : Reader) (text : Text) : Prop :=
  (r.skippingOversizedLine = false ∧ r.buf = (splitLines text).2) ∨
  (r.skippingOversizedLine = true ∧ r.buf = [] ∧ WATCH_BUFFER_LIMIT < utf16Length (splitLines text).2)

theorem afterNewline_eq_none {s : Text} (h : afterNewline s = none) : '\n' ∉ s := by
  induction s with
  | nil => simp
  | cons c s ih =>
    unfold afterNewline at h
    split at h
    · cases h
    · next hc => simp [Ne.symm hc, ih h]

/-- What follows the first line feed, and what stands before it. -/
theorem afterNewline_eq_some {s rest : Text} (h : afterNewline s = some rest) :
    ∃ front, '\n' ∉ front ∧ s = front ++ '\n' :: rest := by
  induction s with
  | nil => cases h
  | cons c s ih =>
    unfold afterNewline at h
    split at h
    · next hc =>
      cases h
      exact ⟨[], by simp, by simp [hc]⟩
    · next hc =>
      obtain ⟨front, hfront, rfl⟩ := ih h
      exact ⟨c :: front, by simp [Ne.symm hc, hfront], rfl⟩

/-- After the complete lines the buffer holds the unfinished one, or a mark that it is skipped. -/
theorem drainBuffer_tracks {buf text : Text} (rv : String) (h : (splitLines text).2 = (splitLines buf).2) :
    (drainBuffer parse rv buf).1.Tracks text := by
  by_cases hlong : WATCH_BUFFER_LIMIT < utf16Length (splitLines buf).2
  · exact .inr (by simp [drainBuffer, hlong, h])
  · exact .inl (by simp [drainBuffer, hlong, h])

/-- The complete lines of the buffer are handled, whatever becomes of the unfinished one. -/
theorem drainBuffer_handled (rv : String) (buf : Text) :
    (drainBuffer parse rv buf).1.rv = (handleLines parse rv (splitLines buf).1).1 ∧
      (drainBuffer parse rv buf).2 = (handleLines parse rv (splitLines buf).1).2 := by
  by_cases hlong : WATCH_BUFFER_LIMIT < utf16Length (splitLines buf).2
  · simp [drainBuffer, hlong]
  · simp [drainBuffer, hlong]

/-- The lines that a chunk completes, without the rest of one that is being skipped. -/
def Reader.lines (r : Reader) (chunk : Text) : List Text :=
  if r.skippingOversizedLine then
    match afterNewline (r.buf ++ chunk) with
    | none => []
    | some rest => (splitLines rest).1
  else (splitLines (r.buf ++ chunk)).1

/-- A chunk has its lines handled, in order. -/
theorem Reader.read_lines (parse : Text → Option WatchEvent) (r : Reader) (chunk : Text) :
    (r.read parse chunk).1.rv = (handleLines parse r.rv (r.lines chunk)).1 ∧
      (r.read parse chunk).2 = (handleLines parse r.rv (r.lines chunk)).2 := by
  unfold Reader.read Reader.lines
  cases r.skippingOversizedLine with
  | false => exact drainBuffer_handled _ _
  | true =>
    simp only [if_true]
    cases afterNewline (r.buf ++ chunk) with
    | none => exact ⟨rfl, rfl⟩
    | some rest => exact drainBuffer_handled _ _

/-- The lines a chunk completes are those of the text, except that the first one is left out where it was
    too long and is being skipped. -/
theorem Reader.Tracks.lines {r : Reader} {text : Text} (h : r.Tracks text) (chunk : Text) :
    (splitLines ((splitLines text).2 ++ chunk)).1 = r.lines chunk ∨
      ∃ long, (splitLines ((splitLines text).2 ++ chunk)).1 = long :: r.lines chunk ∧
        WATCH_BUFFER_LIMIT < utf16Length long := by
  unfold Reader.lines
  rcases h with ⟨hskip, hbuf⟩ | ⟨hskip, hbuf, hlong⟩
  · left
    simp [hskip, hbuf]
  · have hunfinished := not_mem_splitLines_snd text
    simp only [hskip, if_true, hbuf, List.nil_append]
    cases hafter : afterNewline chunk with
    | none =>
      left
      rw [splitLines_of_not_mem (by simp [hunfinished, afterNewline_eq_none hafter])]
    | some rest =>
      right
      obtain ⟨front, hfront, rfl⟩ := afterNewline_eq_some hafter
      refine ⟨(splitLines text).2 ++ front, ?_, ?_⟩
      · rw [← List.append_assoc, splitLines_line (by simp [hunfinished, hfront]) rest]
      · rw [utf16Length_append]
        omega

/-- The reader keeps track of the text, chunk by chunk. -/
theorem Reader.Tracks.read {r : Reader} {text : Text} (h : r.Tracks text) (chunk : Text) :
    (r.read parse chunk).1.Tracks (text ++ chunk) := by
  rcases h with ⟨hskip, hbuf⟩ | ⟨hskip, hbuf, hlong⟩
  · have hread : r.read parse chunk = drainBuffer parse r.rv ((splitLines text).2 ++ chunk) := by
      simp [Reader.read, hskip, hbuf]
    rw [hread]
    exact drainBuffer_tracks _ (by rw [splitLines_append])
  · have hunfinished := not_mem_splitLines_snd text
    cases hafter : afterNewline chunk with
    | none =>
      have hread : r.read parse chunk = (⟨[], true, r.rv⟩, []) := by simp [Reader.read, hskip, hbuf, hafter]
      have hlines : splitLines ((splitLines text).2 ++ chunk) = ([], (splitLines text).2 ++ chunk) :=
        splitLines_of_not_mem (by simp [hunfinished, afterNewline_eq_none hafter])
      rw [hread]
      refine .inr ⟨rfl, rfl, ?_⟩
      rw [splitLines_append, hlines]
      simp only [utf16Length_append]
      omega
    | some rest =>
      obtain ⟨front, hfront, rfl⟩ := afterNewline_eq_some hafter
      have hread : r.read parse (front ++ '\n' :: rest) = drainBuffer parse r.rv rest := by
        simp only [Reader.read, hskip, hbuf, List.nil_append, hafter, if_true]
      have hlines : splitLines ((splitLines text).2 ++ (front ++ '\n' :: rest)) =
          (((splitLines text).2 ++ front) :: (splitLines rest).1, (splitLines rest).2) := by
        rw [← List.append_assoc]
        exact splitLines_line (by simp [hunfinished, hfront]) rest
      rw [hread]
      exact drainBuffer_tracks _ (by rw [splitLines_append, hlines])

/-! ### The streams along a run -/

/-- Every line of the stream that is complete and not too long, and announces a new object,
    has been passed on. -/
def PassedOn (parse : Text → Option WatchEvent) (log : List Event) (text : Text) : Prop :=
  ∀ line ∈ (splitLines text).1, utf16Length line ≤ WATCH_BUFFER_LIMIT →
    ∀ object, IsAdded parse line object → .passed object ∈ log

/-- A position comes from a list, from a relist, or from a complete line of a stream. -/
def Known (parse : Text → Option WatchEvent) (log : List Event) (streams : List Text) (rv : String) : Prop :=
  rv = "0" ∨ .listed rv ∈ log ∨ (∃ snapshot, .relisted snapshot ∈ log ∧ snapshot.resourceVersion = rv) ∨
    ∃ text ∈ streams, ∃ line ∈ (splitLines text).1, Carries parse line rv

/-- A position that is known stays known. -/
theorem Known.mono {log log' : List Event} {streams : List Text} {rv : String} (h : Known parse log streams rv)
    (hlog : log ⊆ log') : Known parse log' streams rv := by
  rcases h with h | h | ⟨snapshot, h, hrv⟩ | h
  · exact .inl h
  · exact .inr (.inl (hlog h))
  · exact .inr (.inr (.inl ⟨snapshot, hlog h, hrv⟩))
  · exact .inr (.inr (.inr h))

/-- What holds of the streams and the positions in every state. -/
structure Streaming (parse : Text → Option WatchEvent) (s : Loop) : Prop where
  passed : ∀ text ∈ s.streams, PassedOn parse s.log text
  known : Known parse s.log s.streams s.rv
  reader : ∀ reader, s.phase = .reading reader →
    ∃ text rest, s.streams = text :: rest ∧ reader.Tracks text ∧ Known parse s.log s.streams reader.rv
  snapshot : ∀ left rv, s.phase = .ingesting left rv → ∃ snapshot, .relisted snapshot ∈ s.log ∧ snapshot.resourceVersion = rv

section

variable {s : Loop}

/-- A step that adds to the log and leaves the streams and the reader alone. -/
theorem Streaming.extend (h : Streaming parse s) {s' : Loop} (more : List Event) (hlog : s'.log = s.log ++ more)
    (hstreams : s'.streams = s.streams) (hphase : ∀ reader, s'.phase ≠ .reading reader)
    (hknown : Known parse s'.log s.streams s'.rv)
    (hsnapshot : ∀ left rv, s'.phase = .ingesting left rv →
      ∃ snapshot, .relisted snapshot ∈ s'.log ∧ snapshot.resourceVersion = rv) : Streaming parse s' := by
  refine ⟨?_, by rw [hstreams]; exact hknown, fun reader hreader => absurd hreader (hphase reader), hsnapshot⟩
  intro text htext line hline hshort object hadded
  rw [hlog]
  rw [hstreams] at htext
  exact List.mem_append_left _ (h.passed text htext line hline hshort object hadded)

/-- A step that changes only the phase, and perhaps forgets the position. -/
theorem Streaming.move (h : Streaming parse s) {s' : Loop} (hlog : s'.log = s.log) (hstreams : s'.streams = s.streams)
    (hphase : ∀ reader, s'.phase ≠ .reading reader) (hrv : s'.rv = s.rv ∨ s'.rv = "0")
    (hleft : ∀ left rv, s'.phase ≠ .ingesting left rv) : Streaming parse s' := by
  refine h.extend [] (by simp [hlog]) hstreams hphase ?_ fun left rv hs => absurd hs (hleft left rv)
  rw [hlog]
  rcases hrv with hrv | hrv
  · rw [hrv]
    exact h.known
  · exact .inl hrv

theorem streaming_proceed (h : Streaming parse s) : Streaming parse s.proceed := by
  unfold Loop.proceed
  split
  · exact h.move rfl rfl (by simp) (.inl rfl) (by simp)
  · exact h.extend [.opened s.rv] rfl rfl (by simp) (h.known.mono (by simp)) (by simp)

theorem streaming_begin (h : Streaming parse s) : Streaming parse s.begin := by
  unfold Loop.begin
  split
  · cases s.resyncDueTo410
    · exact h.move rfl rfl (by simp) (.inl rfl) (by simp)
    · exact h.move rfl rfl (by simp) (.inl rfl) (by simp)
  · exact streaming_proceed h

theorem streaming_head (h : Streaming parse s) : Streaming parse s.head := by
  unfold Loop.head
  cases s.stopped
  · exact h.move rfl rfl (by simp) (.inl rfl) (by simp)
  · exact h.move rfl rfl (by simp) (.inl rfl) (by simp)

theorem streaming_fail (h : Streaming parse s) (message : String) : Streaming parse (s.fail message) := by
  rcases Loop.fail_cases (s := s) message with ⟨_, hfail⟩ | ⟨_, _, hfail⟩ | ⟨_, _, _, hfail⟩ | ⟨_, _, _, hfail⟩
  · exact hfail ▸ h.move rfl rfl (by simp) (.inl rfl) (by simp)
  · exact hfail ▸ h.move rfl rfl (by simp) (.inl rfl) (by simp)
  · exact hfail ▸ h.move rfl rfl (by simp) (.inr rfl) (by simp)
  · exact hfail ▸ h.move rfl rfl (by simp) (.inl rfl) (by simp)

theorem streaming_acquire (h : Streaming parse s) (hphase : s.phase = .acquiring) (outcome : LeaseOutcome) :
    Streaming parse (s.acquire outcome) := by
  cases outcome with
  | held =>
    refine streaming_begin (h.move rfl rfl (by simp [hphase]) ?_ (by simp [hphase]))
    cases s.wasOwner
    · simp
    · simp
  | refused => exact h.move rfl rfl (by simp [Loop.acquire]) (.inl rfl) (by simp [Loop.acquire])
  | unavailable => exact streaming_begin (h.move rfl rfl (by simp [hphase]) (.inl rfl) (by simp [hphase]))

theorem streaming_list (h : Streaming parse s) (hphase : s.phase = .listing) (answer : Answer String) :
    Streaming parse (s.list answer) := by
  unfold Loop.list
  split
  · exact streaming_fail h _
  cases answer with
  | ok rv =>
    exact streaming_proceed
      (h.extend [.listed rv] rfl rfl (by simp [hphase]) (.inr (.inl (by simp))) (by simp [hphase]))
  | status code => exact streaming_fail h _
  | threw message => exact streaming_fail h message

/-- The position after a relist is that of its snapshot. -/
theorem streaming_ingest (h : Streaming parse s) (hphase : ∀ reader, s.phase ≠ .reading reader) {items : List K8sEvent}
    {rv : String} (hsnapshot : ∃ snapshot, .relisted snapshot ∈ s.log ∧ snapshot.resourceVersion = rv) :
    Streaming parse (s.ingest items rv) := by
  cases items with
  | nil =>
    exact streaming_proceed
      (h.extend [] (by simp) rfl hphase (.inr (.inr (.inl hsnapshot))) h.snapshot)
  | cons item left =>
    obtain ⟨snapshot, hmem, hrv⟩ := hsnapshot
    refine h.extend [.passed (some item)] rfl rfl (by simp [Loop.ingest]) (h.known.mono (List.subset_append_left _ _)) ?_
    intro left' rv' hleft
    obtain ⟨rfl, rfl⟩ : left = left' ∧ rv = rv' := by simpa [Loop.ingest] using hleft
    exact ⟨snapshot, List.mem_append_left _ hmem, hrv⟩

theorem streaming_resync (h : Streaming parse s) (hphase : s.phase = .resyncing) (answers : Nat → PageAnswer) :
    Streaming parse (s.resync answers) := by
  unfold Loop.resync
  split
  · exact streaming_fail h _
  split
  · exact streaming_fail h _
  next snapshot _ =>
  refine streaming_ingest ?_ (by simp [hphase]) ⟨snapshot, by simp, rfl⟩
  exact h.extend [.relisted snapshot] rfl rfl (by simp [hphase]) (h.known.mono (by simp)) (by simp [hphase])

theorem streaming_ingested (h : Streaming parse s) {left : List K8sEvent} {rv : String}
    (hphase : s.phase = .ingesting left rv) (throws : Option String) : Streaming parse (s.ingested left rv throws) := by
  cases throws with
  | none => exact streaming_ingest h (by simp [hphase]) (h.snapshot left rv hphase)
  | some message => exact streaming_fail h message

/-- A new stream starts at the position of the loop. -/
theorem streaming_open (h : Streaming parse s) (hphase : s.phase = .opening) (answer : Answer Unit) :
    Streaming parse (s.open_ answer) := by
  unfold Loop.open_
  split
  · exact streaming_fail h _
  cases answer with
  | ok a =>
    have hempty : Known parse s.log ([] :: s.streams) s.rv := by
      rcases h.known with hk | hk | hk | ⟨text, htext, hline⟩
      · exact .inl hk
      · exact .inr (.inl hk)
      · exact .inr (.inr (.inl hk))
      · exact .inr (.inr (.inr ⟨text, List.mem_cons_of_mem _ htext, hline⟩))
    refine ⟨?_, hempty, ?_, by simp⟩
    · intro text htext
      rcases List.mem_cons.mp htext with rfl | htext
      · intro line hline
        cases hline
      · exact h.passed text htext
    · intro reader hreader
      simp only [Phase.reading.injEq] at hreader
      subst hreader
      exact ⟨[], s.streams, rfl, .inl ⟨rfl, rfl⟩, hempty⟩
  | status code =>
    apply streaming_fail
    exact h.extend _ rfl rfl (by simp [hphase]) (h.known.mono (by simp)) (by simp [hphase])
  | threw message => exact streaming_fail h message

/-- The loop takes over the position of the reader. -/
theorem streaming_finishWatch (h : Streaming parse s) {reader : Reader} (hphase : s.phase = .reading reader) :
    Streaming parse (s.finishWatch reader) := by
  obtain ⟨text, rest, hstreams, htracks, hknown⟩ := h.reader reader hphase
  exact h.extend [] (by simp [Loop.finishWatch]) rfl (by simp [Loop.finishWatch]) hknown (by simp [Loop.finishWatch])

/-- Reading a chunk passes on what its lines announce. -/
theorem streaming_chunk (h : Streaming parse s) {reader : Reader} (hphase : s.phase = .reading reader) (chunk : Text) :
    Streaming parse { s with
      phase := .reading (reader.read parse chunk).1
      streams := s.receive chunk
      log := s.log ++ (reader.read parse chunk).2.map .passed } := by
  obtain ⟨text, rest, hstreams, htracks, hknown⟩ := h.reader reader hphase
  have htracks' := @Reader.Tracks.read parse _ _ htracks chunk
  obtain ⟨hrv, hpassed⟩ := reader.read_lines parse chunk
  have hlines := htracks.lines chunk
  have hreceive : s.receive chunk = (text ++ chunk) :: rest := by simp [Loop.receive, hstreams]
  have hsub : reader.lines chunk ⊆ (splitLines (text ++ chunk)).1 := by
    rw [splitLines_append]
    rcases hlines with hlines | ⟨long, hlines, _⟩
    · rw [hlines]
      exact List.subset_append_right _ _
    · rw [hlines]
      exact fun line hline => List.mem_append_right _ (List.mem_cons_of_mem long hline)
  -- The streams only grew, so a position that was known still is.
  have hgrown : ∀ rv, Known parse s.log s.streams rv →
      Known parse (s.log ++ (reader.read parse chunk).2.map .passed) ((text ++ chunk) :: rest) rv := by
    rintro rv (hk | hk | ⟨snapshot, hk, hrv⟩ | ⟨t, ht, line, hline, hcarries⟩)
    · exact .inl hk
    · exact .inr (.inl (List.mem_append_left _ hk))
    · exact .inr (.inr (.inl ⟨snapshot, List.mem_append_left _ hk, hrv⟩))
    · rw [hstreams] at ht
      rcases List.mem_cons.mp ht with rfl | ht
      · refine .inr (.inr (.inr ⟨_, List.mem_cons_self, line, ?_, hcarries⟩))
        rw [splitLines_append]
        exact List.mem_append_left _ hline
      · exact .inr (.inr (.inr ⟨t, List.mem_cons_of_mem _ ht, line, hline, hcarries⟩))
  refine ⟨?_, by simp only [hreceive]; exact hgrown s.rv h.known, ?_, by simp⟩
  · intro t ht line hline hshort object hadded
    simp only [hreceive] at ht
    rcases List.mem_cons.mp ht with rfl | ht
    · rw [splitLines_append] at hline
      rcases List.mem_append.mp hline with hold | hnew
      · exact List.mem_append_left _ (h.passed text (by rw [hstreams]; exact List.mem_cons_self) line hold hshort object hadded)
      · have hhandled : line ∈ reader.lines chunk := by
          rcases hlines with hlines | ⟨long, hlines, hlong⟩
          · rwa [hlines] at hnew
          · rw [hlines] at hnew
            rcases List.mem_cons.mp hnew with rfl | hnew
            · omega
            · exact hnew
        apply List.mem_append_right
        rw [hpassed]
        exact List.mem_map_of_mem (mem_handleLines hhandled hadded)
    · exact List.mem_append_left _
        (h.passed t (by rw [hstreams]; exact List.mem_cons_of_mem _ ht) line hline hshort object hadded)
  · intro r hr
    simp only [Phase.reading.injEq] at hr
    subst hr
    refine ⟨text ++ chunk, rest, hreceive, htracks', ?_⟩
    simp only [hreceive]
    rw [hrv]
    rcases @handleLines_position parse reader.rv (reader.lines chunk) with hsame | ⟨line, hline, hcarries⟩
    · rw [hsame]
      exact hgrown reader.rv hknown
    · exact .inr (.inr (.inr ⟨_, List.mem_cons_self, line, hsub hline, hcarries⟩))

end

/-- Every step keeps the invariant, whoever holds the lease. -/
theorem Streaming.step {s : Loop} (h : Streaming parse s) (op : Op) : Streaming parse (s.step parse op) := by
  have htakes := s.step_takes parse op
  generalize s.step parse op = s' at htakes
  cases htakes with
  | idle _ _ => exact h
  | abort => exact ⟨h.passed, h.known, h.reader, h.snapshot⟩
  | lost _ _ => exact ⟨h.passed, h.known, h.reader, h.snapshot⟩
  | lease outcome hphase => exact streaming_acquire h hphase outcome
  | awake _ => exact streaming_head h
  | quit _ _ => exact h.move rfl rfl (by simp) (.inl rfl) (by simp)
  | retry _ _ => exact h.move rfl rfl (by simp) (.inl rfl) (by simp)
  | listed answer hphase => exact streaming_list h hphase answer
  | resynced answers hphase => exact streaming_resync h hphase answers
  | ingested throws _ _ hphase => exact streaming_ingested h hphase throws
  | opened answer hphase => exact streaming_open h hphase answer
  | cancelled _ reader hphase _ => exact streaming_finishWatch h hphase
  | chunk text reader hphase => exact streaming_chunk h hphase text
  | closed reader hphase => exact streaming_finishWatch h hphase
  | readError message _ _ => exact streaming_fail h message
  | broke _ => exact h.move rfl rfl (by simp) (.inl rfl) (by simp)
  | looped _ => exact streaming_head h

theorem streaming_start : Streaming parse .start :=
  ⟨by simp [Loop.start], .inl rfl, by simp [Loop.start], by simp [Loop.start]⟩

end

/-! ### The relists of a run -/

section

variable {s : Loop} {snapshot : Snapshot}

@[simp] theorem Loop.log_fail (message : String) : (s.fail message).log = s.log := by
  rcases Loop.fail_cases (s := s) message with ⟨_, hfail⟩ | ⟨_, _, hfail⟩ | ⟨_, _, _, hfail⟩ | ⟨_, _, _, hfail⟩ <;> rw [hfail]

@[simp] theorem Loop.relisted_mem_proceed : .relisted snapshot ∈ s.proceed.log ↔ .relisted snapshot ∈ s.log := by
  unfold Loop.proceed
  split <;> simp

@[simp] theorem Loop.relisted_mem_begin : .relisted snapshot ∈ s.begin.log ↔ .relisted snapshot ∈ s.log := by
  unfold Loop.begin
  split <;> simp

@[simp] theorem Loop.relisted_mem_acquire (outcome : LeaseOutcome) :
    .relisted snapshot ∈ (s.acquire outcome).log ↔ .relisted snapshot ∈ s.log := by
  cases outcome <;> simp [Loop.acquire]

@[simp] theorem Loop.relisted_mem_list (answer : Answer String) :
    .relisted snapshot ∈ (s.list answer).log ↔ .relisted snapshot ∈ s.log := by
  unfold Loop.list
  split
  · simp
  cases answer <;> simp [Loop.position]

@[simp] theorem Loop.relisted_mem_ingest (items : List K8sEvent) (rv : String) :
    .relisted snapshot ∈ (s.ingest items rv).log ↔ .relisted snapshot ∈ s.log := by
  cases items <;> simp [Loop.ingest, Loop.position]

@[simp] theorem Loop.relisted_mem_open (answer : Answer Unit) :
    .relisted snapshot ∈ (s.open_ answer).log ↔ .relisted snapshot ∈ s.log := by
  unfold Loop.open_
  split
  · simp
  cases answer with
  | ok a => simp
  | status code =>
    simp only [Loop.log_fail, List.mem_append]
    split <;> simp
  | threw message => simp

/-- Only a relist that returns puts its snapshot into the log. -/
theorem Loop.relisted_mem_resync {answers : Nat → PageAnswer} (h : .relisted snapshot ∈ (s.resync answers).log) :
    .relisted snapshot ∈ s.log ∨ listEventsForResync answers = .ok snapshot := by
  unfold Loop.resync at h
  split at h
  · exact .inl (by simpa using h)
  split at h
  · exact .inl (by simpa using h)
  next returned hreturned =>
  have hmem : .relisted snapshot ∈ s.log ∨ snapshot = returned := by simpa using h
  exact hmem.imp_right fun heq => by rw [heq, hreturned]

end

/-- A snapshot in the log is there already, or the pages of this step make it. -/
theorem Loop.relisted_mem_step {s : Loop} {snapshot : Snapshot} {parse : Text → Option WatchEvent} {op : Op}
    (h : .relisted snapshot ∈ (s.step parse op).log) :
    .relisted snapshot ∈ s.log ∨ ∃ answers, op = .resynced answers ∧ listEventsForResync answers = .ok snapshot := by
  have htakes := s.step_takes parse op
  generalize s.step parse op = s' at htakes h
  cases htakes with
  | resynced answers _ => exact (Loop.relisted_mem_resync h).imp_right fun hok => ⟨answers, rfl, hok⟩
  | ingested throws left rv _ =>
    cases throws with
    | none => exact .inl (by simpa [Loop.ingested] using h)
    | some message => exact .inl (by simpa [Loop.ingested] using h)
  | lease outcome _ => exact .inl (by simpa using h)
  | listed answer _ => exact .inl (by simpa using h)
  | opened answer _ => exact .inl (by simpa using h)
  | readError message _ _ => exact .inl (by simpa using h)
  | chunk text reader _ => exact .inl (by simpa using h)
  | idle _ _ | abort | lost _ _ | awake _ | quit _ _ | retry _ _ | cancelled _ _ _ _ | closed _ _ | broke _ | looped _ =>
    exact .inl h

/-- Every snapshot of a run is made of all the pages of a list that this run was answered. -/
theorem Loop.relisted_mem_run {parse : Text → Option WatchEvent} {ops : List Op} {snapshot : Snapshot}
    (h : .relisted snapshot ∈ (Loop.start.run parse ops).log) :
    ∃ answers, .resynced answers ∈ ops ∧ ∃ pages, Complete answers snapshot pages := by
  induction ops using List.reverseRecOn with
  | nil => cases h
  | append_singleton ops op ih =>
    rw [Loop.run, List.foldl_concat] at h
    rcases Loop.relisted_mem_step h with hbefore | ⟨answers, rfl, hok⟩
    · obtain ⟨answers, hmem, hcomplete⟩ := ih hbefore
      exact ⟨answers, List.mem_append_left _ hmem, hcomplete⟩
    · exact ⟨answers, by simp, listEventsForResync_complete hok⟩

/-- The position the next watch will use if the current one ends now. -/
def Loop.nextPosition (s : Loop) : String :=
  match s.phase with
  | .reading reader => reader.rv
  | _ => s.rv

/-- The position of the next watch is a known one. -/
theorem Streaming.nextPosition_known {parse : Text → Option WatchEvent} {s : Loop} (h : Streaming parse s) :
    Known parse s.log s.streams s.nextPosition := by
  unfold Loop.nextPosition
  split
  · next reader hphase =>
    obtain ⟨_, _, _, _, hknown⟩ := h.reader reader hphase
    exact hknown
  · exact h.known

/-- While the process keeps the lease, an expired watch is followed by a relist that returned
    the complete pages of one list as the run was answered them, all of whose items were passed on,
    before the next watch, which starts at its position; and no position lies after an announcement of a stream that
    was not passed on, short of lines longer than the buffer limit. -/
theorem expired_watch_resyncs (parse : Text → Option WatchEvent) {ops : List Op} (hkeeps : ∀ op ∈ ops, KeepsLease op) :
    RelistsFirst (Loop.start.run parse ops).log ∧
      (∀ snapshot, .relisted snapshot ∈ (Loop.start.run parse ops).log →
        ∃ answers, .resynced answers ∈ ops ∧ ∃ pages, Complete answers snapshot pages) ∧
      (∀ text ∈ (Loop.start.run parse ops).streams, PassedOn parse (Loop.start.run parse ops).log text) ∧
      Known parse (Loop.start.run parse ops).log (Loop.start.run parse ops).streams
        (Loop.start.run parse ops).nextPosition := by
  have hrun : Allowed (Loop.step parse) (fun _ op => KeepsLease op) .start ops := allowed_of_forall_mem hkeeps _
  have hinv : Relisting (Loop.start.run parse ops) ∧ Streaming parse (Loop.start.run parse ops) :=
    hrun.invariant (I := fun s => Relisting s ∧ Streaming parse s)
      (fun s op hs hop => ⟨hs.1.step parse hop, hs.2.step op⟩) ⟨relisting_start, streaming_start⟩
  exact ⟨hinv.1.first, fun _ => Loop.relisted_mem_run, hinv.2.passed, hinv.2.nextPosition_known⟩

/-- An event that says nothing but its resource version and its message. -/
def sampleEvent (resourceVersion : String) (message : Option String) : K8sEvent :=
  ⟨none, some resourceVersion, none, message, none, none, none⟩

/-- Watch from "5", find it expired, relist one event at "9", and watch again. -/
def goneOps : List Op :=
  [.lease .held, .listed (.ok "5"), .opened (.status 410), .released, .lease .held,
    .resynced fun _ => .body ⟨some [sampleEvent "8" none], some "9", none⟩, .ingested none]

/-- The relisted event is passed on before the watch at "9" is opened. -/
theorem expired_watch_resyncs_sample :
    RelistsFirst (Loop.start.run (fun _ => none) goneOps).log ∧
      (Loop.start.run (fun _ => none) goneOps).log =
        [.listed "5", .opened "5", .expired, .relisted ⟨"9", [sampleEvent "8" none]⟩, .passed (some (sampleEvent "8" none)),
          .opened "9"] := by
  have hkeeps : ∀ op ∈ goneOps, KeepsLease op := by simp [goneOps, KeepsLease]
  exact ⟨(expired_watch_resyncs (fun _ => none) hkeeps).1, by decide⟩

/-! A line over the buffer limit that arrives in two chunks. -/

@[irreducible] def longMessage : Text := List.replicate WATCH_BUFFER_LIMIT 'x'

def longStart : Text :=
  "\x7b\"type\":\"ADDED\",\"object\":\x7b\"metadata\":\x7b\"resourceVersion\":\"7\"\x7d,\"message\":\"".toList ++ longMessage

def longEnd : Text := "\"\x7d\x7d".toList

def shortLine : Text :=
  "\x7b\"type\":\"ADDED\",\"object\":\x7b\"metadata\":\x7b\"resourceVersion\":\"8\"\x7d\x7d\x7d".toList

def longEvent : K8sEvent := sampleEvent "7" (some (String.ofList longMessage))

/-- `JSON.parse` on the two lines of the stream. -/
def parseSample (line : Text) : Option WatchEvent :=
  if line = shortLine then some ⟨"ADDED", some (sampleEvent "8" none)⟩
  else if line = longStart ++ longEnd then some ⟨"ADDED", some longEvent⟩
  else none

def oversizedOps : List Op :=
  [.lease .held, .listed (.ok "6"), .opened (.ok ()), .chunk longStart, .chunk (longEnd ++ '\n' :: (shortLine ++ ['\n']))]

theorem utf16Length_replicate (n : Nat) : utf16Length (List.replicate n 'x') = n := by
  induction n with
  | zero => rfl
  | succ n ih =>
    rw [List.replicate_succ', utf16Length_append, ih]
    rfl

theorem newline_not_mem_longStart : '\n' ∉ longStart := by
  intro hmem
  rcases List.mem_append.mp hmem with hmem | hmem
  · revert hmem
    decide
  · unfold longMessage at hmem
    exact absurd (List.eq_of_mem_replicate hmem) (by decide)

theorem utf16Length_longMessage : utf16Length longMessage = WATCH_BUFFER_LIMIT := by
  unfold longMessage
  exact utf16Length_replicate _

theorem lt_utf16Length_append {start message : Text} (hstart : 0 < utf16Length start) :
    utf16Length message < utf16Length (start ++ message) := by
  rw [utf16Length_append]
  exact Nat.lt_add_of_pos_left hstart

theorem lt_utf16Length_longStart : WATCH_BUFFER_LIMIT < utf16Length longStart := by
  rw [← utf16Length_longMessage]
  exact lt_utf16Length_append (by decide)

/-- A chunk over the limit without a line feed is dropped, and its line marked. -/
theorem read_oversized {parse : Text → Option WatchEvent} {rv : String} {chunk : Text} (hnewline : '\n' ∉ chunk)
    (hlong : WATCH_BUFFER_LIMIT < utf16Length chunk) :
    (⟨[], false, rv⟩ : Reader).read parse chunk = (⟨[], true, rv⟩, []) := by
  simp [Reader.read, drainBuffer, splitLines_of_not_mem hnewline, hlong, handleLines]

/-- The long line announces an event. -/
theorem isAdded_longLine : IsAdded parseSample (longStart ++ longEnd) (some longEvent) := by
  have htrim : trimText (longStart ++ longEnd) = longStart ++ longEnd := by
    obtain ⟨rest, hrest⟩ : ∃ rest, longStart = '\x7b' :: rest := ⟨_, rfl⟩
    have hdrop : (longStart ++ longEnd).dropWhile jslib.isSpace = longStart ++ longEnd := by
      rw [hrest]
      rfl
    have hreverse : (longStart ++ longEnd).reverse = '\x7d' :: '\x7d' :: '"' :: longStart.reverse := by
      simp [longEnd]
    have hback : ((longStart ++ longEnd).reverse.dropWhile jslib.isSpace) = (longStart ++ longEnd).reverse := by
      rw [hreverse]
      rfl
    rw [trimText, hdrop, hback, List.reverse_reverse]
  have hne : longStart ++ longEnd ≠ shortLine := by
    intro heq
    have := congrArg (fun text : Text => text[57]?) heq
    revert this
    decide
  refine ⟨?_, ?_⟩
  · rw [htrim]
    simp [longEnd]
  · rw [htrim, parseSample, if_neg hne, if_pos rfl]

/-- The loop while it reads the stream of the sample from here on. -/
def readingFrom (reader : Reader) (stream : Text) (log : List Event) : Loop :=
  ⟨.reading reader, "6", 1000, true, false, true, false, false, [stream], log⟩

theorem step_chunk (parse : Text → Option WatchEvent) (reader : Reader) (stream : Text) (log : List Event) (text : Text) :
    (readingFrom reader stream log).step parse (.chunk text) =
      readingFrom (reader.read parse text).1 (stream ++ text) (log ++ (reader.read parse text).2.map .passed) := rfl

/-- The position moves past the announcement on the long line, which is not passed on. -/
theorem oversized_line_skipped :
    IsAdded parseSample (longStart ++ longEnd) (some longEvent) ∧
      (Loop.start.run parseSample oversizedOps).streams =
        [longStart ++ (longEnd ++ '\n' :: (shortLine ++ ['\n']))] ∧
      (Loop.start.run parseSample oversizedOps).nextPosition = "8" ∧
      .passed (some longEvent) ∉ (Loop.start.run parseSample oversizedOps).log := by
  have hend : (⟨[], true, "6"⟩ : Reader).read parseSample (longEnd ++ '\n' :: (shortLine ++ ['\n'])) =
      (⟨[], false, "8"⟩, [some (sampleEvent "8" none)]) := by
    decide
  have hrun : Loop.start.run parseSample oversizedOps =
      readingFrom ⟨[], false, "8"⟩ (longStart ++ (longEnd ++ '\n' :: (shortLine ++ ['\n'])))
        [.listed "6", .opened "6", .passed (some (sampleEvent "8" none))] := by
    have hopened : [.lease .held, .listed (.ok "6"), .opened (.ok ())].foldl (Loop.step parseSample) Loop.start =
        readingFrom ⟨[], false, "6"⟩ [] [.listed "6", .opened "6"] := rfl
    have hops : oversizedOps = [.lease .held, .listed (.ok "6"), .opened (.ok ())] ++
        [.chunk longStart, .chunk (longEnd ++ '\n' :: (shortLine ++ ['\n']))] := rfl
    rw [Loop.run, hops, List.foldl_append, hopened, List.foldl_cons, List.foldl_cons, List.foldl_nil, step_chunk,
      read_oversized newline_not_mem_longStart lt_utf16Length_longStart, step_chunk, hend]
    rfl
  have hnot : longEvent ≠ sampleEvent "8" none := by
    intro heq
    have := congrArg K8sEvent.resourceVersion heq
    revert this
    decide
  rw [hrun]
  refine ⟨isAdded_longLine, rfl, rfl, ?_⟩
  simp [readingFrom, hnot]

end narwhal.portal.informer
