import Narwhal.Portal.Informer

open jslib pylib

namespace narwhal.portal.informer

/-- The loop is over, or on its way out, only after the stop signal. -/
def Loop.Told (s : Loop) : Prop := s.phase = .exited ∨ s.phase = .releasing true → s.stopped = true

/-- Where the last item of a snapshot is ingested, no renewal has failed in this iteration,
    unless the loop was told to stop. -/
def LeaseIntact (s : Loop) : Op → Prop
  | .ingested none => ∀ rv, s.phase = .ingesting [] rv → s.watchAborted = true → s.stopped = true
  | _ => True

section

variable {s : Loop}

/-- The `catch` looks at the signal of the watch, -/
theorem Loop.told_fail (message : String) : (s.fail message).Told := by
  unfold Loop.fail
  split
  · next h => exact fun _ => h
  split
  · exact fun h => by simp at h
  split
  · exact fun h => by simp at h
  · exact fun h => by simp at h

/-- the check before the watch request leads out of the loop for it, -/
theorem Loop.told_proceed_iff : s.proceed.Told ↔ (s.watchAborted = true → s.stopped = true) := by
  by_cases h : s.stopped = true ∨ s.watchAborted = true
  · simp only [Loop.proceed, h, if_true, Loop.Told, or_true, forall_const]
    exact ⟨fun hs _ => hs, fun hs => h.elim id hs⟩
  · simp only [not_or] at h
    simp [Loop.proceed, h, Loop.Told]

theorem Loop.told_head : s.head.Told := by
  unfold Loop.Told Loop.head
  cases hstopped : s.stopped
  · simp
  · simp

theorem Loop.told_begin (h : s.watchAborted = false) : s.begin.Told := by
  unfold Loop.begin
  split
  · cases hresync : s.resyncDueTo410
    · simp [Loop.Told]
    · simp [Loop.Told]
  · exact Loop.told_proceed_iff.mpr (by simp [h])

/-- and a lease starts with a new one. -/
theorem Loop.told_acquire (outcome : LeaseOutcome) : (s.acquire outcome).Told := by
  cases outcome with
  | held => exact Loop.told_begin rfl
  | refused => simp [Loop.acquire, Loop.Told]
  | unavailable => exact Loop.told_begin rfl

/-- A request that ends normally found its signal not aborted, so the check after it passes. -/
theorem Loop.told_list (answer : Answer String) : (s.list answer).Told := by
  unfold Loop.list
  split
  · exact Loop.told_fail _
  next haborted =>
  cases answer with
  | ok rv => exact Loop.told_proceed_iff.mpr fun h => absurd h haborted
  | status code => exact Loop.told_fail _
  | threw message => exact Loop.told_fail _

theorem Loop.told_ingest_iff (items : List K8sEvent) (rv : String) :
    (s.ingest items rv).Told ↔ (items = [] → s.watchAborted = true → s.stopped = true) := by
  cases items with
  | nil => simp [Loop.ingest, Loop.position, Loop.told_proceed_iff]
  | cons item left => simp [Loop.ingest, Loop.Told]

/-- A list request of the relist rejects once its signal is aborted, -/
theorem Loop.told_resync (answers : Nat → PageAnswer) : (s.resync answers).Told := by
  unfold Loop.resync
  split
  · exact Loop.told_fail _
  next haborted =>
  split
  · exact Loop.told_fail _
  · exact (Loop.told_ingest_iff _ _).mpr fun _ h => absurd h haborted

/-- but passing on the last item does not: there the condition says what has to hold. -/
theorem Loop.told_ingested_iff {left : List K8sEvent} {rv : String} (hphase : s.phase = .ingesting left rv)
    (throws : Option String) : (s.ingested left rv throws).Told ↔ LeaseIntact s (.ingested throws) := by
  cases throws with
  | none =>
    simp only [Loop.ingested, Loop.told_ingest_iff, LeaseIntact, hphase, Phase.ingesting.injEq]
    exact ⟨fun h _ hleft => h hleft.1, fun h hleft => h rv ⟨hleft, rfl⟩⟩
  | some message => exact iff_of_true (Loop.told_fail _) trivial

/-- The watch request rejects likewise. -/
theorem Loop.told_open (answer : Answer Unit) : (s.open_ answer).Told := by
  unfold Loop.open_
  split
  · exact Loop.told_fail _
  cases answer with
  | ok a => simp [Loop.Told]
  | status code => exact Loop.told_fail _
  | threw message => exact Loop.told_fail _

end

/-- A step leads out of the loop without the stop signal exactly when the last item of a
    snapshot is ingested after the lease was lost. -/
theorem Loop.Told.step_iff {s : Loop} (h : s.Told) (parse : Text → Option WatchEvent) (op : Op) :
    (s.step parse op).Told ↔ LeaseIntact s op := by
  have htakes := s.step_takes parse op
  generalize s.step parse op = s' at htakes
  cases htakes with
  | idle _ hingested =>
    refine iff_of_true h ?_
    unfold LeaseIntact
    split
    · exact fun rv hphase => absurd hphase (hingested none [] rv rfl)
    · trivial
  | abort => exact iff_of_true (fun _ => rfl) trivial
  | lost _ _ => exact iff_of_true h trivial
  | lease outcome _ => exact iff_of_true (Loop.told_acquire outcome) trivial
  | awake _ => exact iff_of_true Loop.told_head trivial
  | quit _ hstopped => exact iff_of_true (fun _ => hstopped) trivial
  | retry _ _ => exact iff_of_true (by simp [Loop.Told]) trivial
  | listed answer _ => exact iff_of_true (Loop.told_list answer) trivial
  | resynced answers _ => exact iff_of_true (Loop.told_resync answers) trivial
  | ingested throws _ _ hphase => exact Loop.told_ingested_iff hphase throws
  | opened answer _ => exact iff_of_true (Loop.told_open answer) trivial
  | cancelled _ reader _ _ => exact iff_of_true (by simp [Loop.finishWatch, Loop.Told]) trivial
  | chunk _ reader _ => exact iff_of_true (by simp [Loop.Told]) trivial
  | closed reader _ => exact iff_of_true (by simp [Loop.finishWatch, Loop.Told]) trivial
  | readError message _ _ => exact iff_of_true (Loop.told_fail message) trivial
  | broke hphase => exact iff_of_true (fun _ => h (.inr hphase)) trivial
  | looped _ => exact iff_of_true Loop.told_head trivial

/-- Whatever the lease, the lists, the relists and the watches do, the loop ends only after
    its stop signal, as long as no snapshot is ingested to its end after the lease was lost; and
    the first one that is leads out of the loop. -/
theorem informer_stops_only_when_told (parse : Text → Option WatchEvent) {ops : List Op}
    (hrun : Allowed (Loop.step parse) LeaseIntact .start ops) :
    ((Loop.start.run parse ops).phase = .exited → (Loop.start.run parse ops).stopped = true) ∧
      ∀ op, ((Loop.start.run parse ops).step parse op).Told ↔ LeaseIntact (Loop.start.run parse ops) op := by
  have htold : (Loop.start.run parse ops).Told :=
    hrun.invariant (fun s op hs hop => (hs.step_iff parse op).mpr hop) (by simp [Loop.Told, Loop.start])
  exact ⟨fun hphase => htold (.inl hphase), fun op => htold.step_iff parse op⟩

def relistedEvent : K8sEvent := ⟨some "u", some "8", some "Started", none, some "Normal", none, none⟩

/-- A watch that expires, and the relist of one event, up to where that is ingested. -/
def untilIngesting : List Op :=
  [.lease .held, .listed (.ok "5"), .opened (.status 410), .released, .lease .held,
    .resynced fun _ => .body ⟨some [relistedEvent], some "9", none⟩]

/-- The snapshot is ingested under the lease, which is lost during the watch after it, and again while
    the relist after that watch lists its pages; then the loop is told to stop. -/
def lostDuringRuns : List Op :=
  untilIngesting ++
    [.ingested none, .opened (.ok ()), .renewed false, .closed, .released, .lease .held, .opened (.status 410), .released,
      .lease .held, .renewed false, .resynced fun _ => .threw "aborted", .released, .abort, .lease .held,
      .resynced fun _ => .body ⟨some [], some "9", none⟩, .released]

theorem informer_stops_after_abort :
    (Loop.start.run (fun _ => none) lostDuringRuns).phase = .exited ∧
      (Loop.start.run (fun _ => none) lostDuringRuns).stopped = true := by
  have hrun : Allowed (Loop.step fun _ => none) LeaseIntact .start lostDuringRuns := by
    simp only [lostDuringRuns, untilIngesting, List.cons_append, List.nil_append, Allowed, LeaseIntact, true_and, and_true]
    -- The one snapshot of the run is ingested with the lease held.
    exact fun rv _ haborted => absurd haborted (by decide)
  have hphase : (Loop.start.run (fun _ => none) lostDuringRuns).phase = .exited := by decide
  exact ⟨hphase, (informer_stops_only_when_told _ hrun).1 hphase⟩

/-- The lease is lost while the event of the snapshot is being ingested; nobody told the loop to stop. -/
theorem lost_lease_ends_informer :
    (Loop.start.run (fun _ => none) (untilIngesting ++ [.renewed false, .ingested none, .released])).phase = .exited ∧
      (Loop.start.run (fun _ => none) (untilIngesting ++ [.renewed false, .ingested none, .released])).stopped = false := by
  decide

end narwhal.portal.informer
