import Narwhal.Portal.InformerStream

open jslib

namespace narwhal.portal.informer

section

variable (parse : Text → Option WatchEvent)

/-- The read loop of `watchOnce` over the chunks of a stream, with all it hands to `ingestK8sEvent`. -/
def Reader.feed (r : Reader) : List Text → Reader × List (Option K8sEvent)
  | [] => (r, [])
  | chunk :: chunks =>
    let (r, passed) := r.read parse chunk
    let (r, more) := Reader.feed r chunks
    (r, passed ++ more)

/-- `watchOnce` on an open stream that ends after these chunks. -/
def watchOnce (resourceVersion : String) (chunks : List Text) : String × List (Option K8sEvent) :=
  let (r, passed) := Reader.feed parse ⟨[], false, resourceVersion⟩ chunks
  (r.rv, passed)

end

/-- A line that the buffer can hold. -/
def Short (line : Text) : Prop := utf16Length line ≤ WATCH_BUFFER_LIMIT

instance (line : Text) : Decidable (Short line) := inferInstanceAs (Decidable (_ ≤ _))

/-! ### The lines that a stream has handled -/

section

variable {parse parse' : Text → Option WatchEvent} {r r' : Reader} {chunk text rest : Text} {chunks : List Text}

/-- Two readers wait for the same rest of a line. -/
def Reader.SameBuffer (r r' : Reader) : Prop :=
  r.buf = r'.buf ∧ r.skippingOversizedLine = r'.skippingOversizedLine

theorem Reader.SameBuffer.lines (h : r.SameBuffer r') (chunk : Text) : r.lines chunk = r'.lines chunk := by
  simp only [Reader.lines, h.1, h.2]

theorem drainBuffer_sameBuffer (rv rv' : String) (buf : Text) :
    (drainBuffer parse rv buf).1.SameBuffer (drainBuffer parse' rv' buf).1 := by
  by_cases hlong : WATCH_BUFFER_LIMIT < utf16Length (splitLines buf).2
  · simp [drainBuffer, hlong, Reader.SameBuffer]
  · simp [drainBuffer, hlong, Reader.SameBuffer]

/-- What is buffered does not depend on what the lines say. -/
theorem Reader.SameBuffer.read (h : r.SameBuffer r') (chunk : Text) :
    (r.read parse chunk).1.SameBuffer (r'.read parse' chunk).1 := by
  unfold Reader.read
  rw [h.1, h.2]
  cases r'.skippingOversizedLine with
  | false => exact drainBuffer_sameBuffer _ _ _
  | true =>
    simp only [if_true]
    cases afterNewline (r'.buf ++ chunk) with
    | none => exact ⟨rfl, rfl⟩
    | some buf => exact drainBuffer_sameBuffer _ _ _

theorem handleLines_append (rv : String) (lines more : List Text) :
    handleLines parse rv (lines ++ more) =
      ((handleLines parse (handleLines parse rv lines).1 more).1,
        (handleLines parse rv lines).2 ++ (handleLines parse (handleLines parse rv lines).1 more).2) := by
  induction lines generalizing rv with
  | nil => rfl
  | cons line lines ih => simp only [List.cons_append, handleLines, ih, List.append_assoc]

/-- The reader that has read the chunks has handled these lines, whatever they say. -/
structure Reader.Handled (r : Reader) (chunks : List Text) (lines : List Text) : Prop where
  rv : ∀ parse (r' : Reader), r.SameBuffer r' → (r'.feed parse chunks).1.rv = (handleLines parse r'.rv lines).1
  passed : ∀ parse (r' : Reader), r.SameBuffer r' → (r'.feed parse chunks).2 = (handleLines parse r'.rv lines).2

theorem Reader.Handled.cons {lines : List Text} (h : (r.read parse chunk).1.Handled chunks lines) :
    r.Handled (chunk :: chunks) (r.lines chunk ++ lines) := by
  -- The next reader of `r'` waits for what the next reader of `r` waits for.
  refine ⟨fun parse' r' hsame => ?_, fun parse' r' hsame => ?_⟩
  · have hnext : (r.read parse chunk).1.SameBuffer (r'.read parse' chunk).1 := hsame.read chunk
    obtain ⟨hrv, -⟩ := r'.read_lines parse' chunk
    rw [handleLines_append, hsame.lines chunk, ← hrv]
    exact h.rv parse' _ hnext
  · have hnext : (r.read parse chunk).1.SameBuffer (r'.read parse' chunk).1 := hsame.read chunk
    obtain ⟨hrv, hpassed⟩ := r'.read_lines parse' chunk
    rw [handleLines_append, hsame.lines chunk, ← hrv, ← hpassed, ← h.passed parse' _ hnext]
    rfl

/-- From a reader that tracks the text, the lines handled are those the chunks complete, apart from some that
    are too long. -/
theorem Reader.Tracks.handled (h : r.Tracks text) (chunks : List Text) :
    ∃ lines, r.Handled chunks lines ∧
      List.Sublist lines (splitLines ((splitLines text).2 ++ chunks.flatten)).1 ∧
      lines.filter (Short ·) = (splitLines ((splitLines text).2 ++ chunks.flatten)).1.filter (Short ·) := by
  induction chunks generalizing r text with
  | nil =>
    have hunfinished : (splitLines ((splitLines text).2 ++ ([] : List Text).flatten)).1 = [] := by
      rw [List.flatten_nil, List.append_nil, splitLines_of_not_mem (not_mem_splitLines_snd text)]
    rw [hunfinished]
    exact ⟨[], ⟨fun _ _ _ => rfl, fun _ _ _ => rfl⟩, List.Sublist.refl _, rfl⟩
  | cons chunk chunks ih =>
    have hread : (r.read (fun _ => none) chunk).1.Tracks (text ++ chunk) := h.read chunk
    obtain ⟨lines, hhandled, hsub, hshort⟩ := ih hread
    have hsplit : (splitLines ((splitLines text).2 ++ (chunk :: chunks).flatten)).1 =
        (splitLines ((splitLines text).2 ++ chunk)).1 ++
          (splitLines ((splitLines (text ++ chunk)).2 ++ chunks.flatten)).1 := by
      rw [List.flatten_cons, ← List.append_assoc, splitLines_append (_ ++ chunk), splitLines_append text chunk]
    rw [hsplit]
    refine ⟨r.lines chunk ++ lines, hhandled.cons, ?_, ?_⟩
    · rcases h.lines chunk with hlines | ⟨long, hlines, -⟩
      · rw [hlines]
        exact (List.Sublist.refl _).append hsub
      · rw [hlines]
        exact (List.sublist_cons_self long _).append hsub
    · rw [List.filter_append, List.filter_append, hshort]
      congr 1
      rcases h.lines chunk with hlines | ⟨long, hlines, hlong⟩
      · rw [hlines]
      · have hnot : ¬ Short long := Nat.not_le.mpr hlong
        rw [hlines, List.filter_cons_of_neg (by simpa using hnot)]

end

theorem tracks_start (resourceVersion : String) : (⟨[], false, resourceVersion⟩ : Reader).Tracks [] := .inl ⟨rfl, rfl⟩

/-- Every way of cutting a stream into chunks handles lines of the stream, in their order, and among them every
    line that the buffer can hold once; so where it can hold them all, the cuts make no difference. -/
theorem watch_lines_independent (chunks : List Text) :
    (∃ handled : List Text,
      List.Sublist handled (splitLines chunks.flatten).1 ∧
      handled.filter (Short ·) = (splitLines chunks.flatten).1.filter (Short ·) ∧
      ∀ (parse : Text → Option WatchEvent) (resourceVersion : String),
        watchOnce parse resourceVersion chunks = handleLines parse resourceVersion handled) ∧
    ((∀ line ∈ (splitLines chunks.flatten).1, Short line) →
      ∀ (parse : Text → Option WatchEvent) (resourceVersion : String),
        watchOnce parse resourceVersion chunks =
          handleLines parse resourceVersion (splitLines chunks.flatten).1) := by
  obtain ⟨handled, hhandled, hsub, hshort⟩ := (tracks_start "").handled chunks
  simp only [splitLines, List.nil_append] at hsub hshort
  have hwatch : ∀ (parse : Text → Option WatchEvent) (resourceVersion : String),
      watchOnce parse resourceVersion chunks = handleLines parse resourceVersion handled := by
    intro parse resourceVersion
    exact Prod.ext (hhandled.rv parse ⟨[], false, resourceVersion⟩ ⟨rfl, rfl⟩)
      (hhandled.passed parse ⟨[], false, resourceVersion⟩ ⟨rfl, rfl⟩)
  refine ⟨⟨handled, hsub, hshort, hwatch⟩, fun hall parse resourceVersion => ?_⟩
  have heq : handled = (splitLines chunks.flatten).1 := by
    rwa [List.filter_eq_self.mpr fun line hline => by simpa using hall line (hsub.subset hline),
      List.filter_eq_self.mpr fun line hline => by simpa using hall line hline] at hshort
  rw [← heq]
  exact hwatch parse resourceVersion

end narwhal.portal.informer
