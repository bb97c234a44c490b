import Narwhal.Portal.Informer

open jslib pylib

namespace narwhal.portal.informer

/-! ### Complete snapshots -/

/-- The pages of one list: consecutive answers of one resource version, each but the last
    with a cursor to the next. -/
structure Complete (answers : Nat → PageAnswer) (snapshot : Snapshot) (pages : List (List K8sEvent × String × String)) :
    Prop where
  answered : ∀ i page, pages[i]? = some page → ∃ body, answers i = .body body ∧ body.check = some page
  version : ∀ page ∈ pages, page.2.1 = snapshot.resourceVersion
  items : snapshot.items = pages.flatMap Prod.fst
  continued : ∀ page ∈ pages.dropLast, page.2.2 ≠ ""
  ended : pages.getLast?.map (·.2.2) = some ""

/-- A page that passes has a resource version. -/
theorem PageBody.check_version (body : PageBody) {page : List K8sEvent × String × String}
    (h : body.check = some page) : page.2.1 ≠ "" := by
  unfold PageBody.check at h
  split at h
  · next hversion _ =>
    split at h
    · cases h
      simpa using (Option.filter_eq_some_iff.mp hversion).2
    · cases h
  · next hversion _ =>
    split at h
    · cases h
      simpa using (Option.filter_eq_some_iff.mp hversion).2
    · cases h
  · cases h

/-- What the page loop adds to the items it has is complete: the items of pages of one version, up to the last. -/
theorem resyncPages_complete {answers : Nat → PageAnswer} {cursors : List String} {resourceVersion : String}
    {items : List K8sEvent} {left : Nat} {snapshot : Snapshot} (hleft : left ≤ MAX_PAGES)
    (h : resyncPages answers cursors resourceVersion items left = .ok snapshot) :
    ∃ pages, Complete (fun i => answers (MAX_PAGES - left + i)) ⟨snapshot.resourceVersion, pages.flatMap Prod.fst⟩ pages ∧
      snapshot.items = items ++ pages.flatMap Prod.fst ∧
      (resourceVersion ≠ "" → snapshot.resourceVersion = resourceVersion) := by
  induction left generalizing cursors resourceVersion items with
  | zero => cases h
  | succ left ih =>
    unfold resyncPages at h
    split at h
    · cases h
    · cases h
    next body hbody =>
    split at h
    · cases h
    next more pageVersion cursor hcheck =>
    split at h
    · cases h
    next hversion =>
    have hsame : resourceVersion ≠ "" → pageVersion = resourceVersion := by
      intro hne
      by_contra hneq
      exact hversion ⟨hne, Ne.symm hneq⟩
    split at h
    · next hcursor =>
      cases h
      refine ⟨[(more, pageVersion, cursor)], ⟨?_, by simp, rfl, by simp, by simp [hcursor]⟩, by simp, hsame⟩
      intro i page hpage
      cases i with
      | zero =>
        cases hpage
        exact ⟨body, hbody, hcheck⟩
      | succ i => simp at hpage
    · next hcursor =>
      split at h
      · cases h
      obtain ⟨pages, hpages, hitems, hrest⟩ := ih (by omega) h
      have hne : pages ≠ [] := by
        rintro rfl
        cases hpages.ended
      have hpageVersion : snapshot.resourceVersion = pageVersion := by
        apply hrest
        exact body.check_version hcheck
      refine ⟨(more, pageVersion, cursor) :: pages, ⟨?_, ?_, rfl, ?_, ?_⟩, by simp [hitems], fun hv => hpageVersion.trans (hsame hv)⟩
      · intro i page hpage
        cases i with
        | zero =>
          cases hpage
          exact ⟨body, hbody, hcheck⟩
        | succ i =>
          obtain ⟨body', hbody', hcheck'⟩ := hpages.answered i page hpage
          refine ⟨body', ?_, hcheck'⟩
          rw [← hbody']
          congr 1
          omega
      · intro page hpage
        rcases List.mem_cons.mp hpage with rfl | hpage
        · exact hpageVersion.symm
        · exact hpages.version page hpage
      · intro page hpage
        rw [List.dropLast_cons_of_ne_nil hne] at hpage
        rcases List.mem_cons.mp hpage with rfl | hpage
        · exact hcursor
        · exact hpages.continued page hpage
      · rw [List.getLast?_cons_of_ne_nil hne]
        exact hpages.ended

/-- A relist returns all the pages of one list. -/
theorem listEventsForResync_complete {answers : Nat → PageAnswer} {snapshot : Snapshot}
    (h : listEventsForResync answers = .ok snapshot) : ∃ pages, Complete answers snapshot pages := by
  obtain ⟨pages, hpages, hitems, _⟩ := resyncPages_complete (Nat.le_refl _) h
  simp only [Nat.sub_self, Nat.zero_add, List.nil_append] at hpages hitems
  exact ⟨pages, hpages.answered, hpages.version, hitems, hpages.continued, hpages.ended⟩

/-! ### What is due after an expired watch -/

/-- What has to happen before the next watch: nothing, a relist, or the rest of the items of
    a snapshot. -/
inductive Due where
  | nothing
  | relist
  | items (left : List K8sEvent) (resourceVersion : String)
deriving DecidableEq, Repr

def Due.next : Due → Event → Due
  | _, .expired => .relist
  | .nothing, _ => .nothing
  | _, .opened _ => .nothing
  | _, .relisted snapshot => .items snapshot.items snapshot.resourceVersion
  | .items (event :: left) resourceVersion, .passed passed =>
    if passed = some event then .items left resourceVersion else .items (event :: left) resourceVersion
  | due, _ => due

def due (log : List Event) : Due := log.foldl Due.next .nothing

/-- A watch may be opened at this position. -/
def Due.Allows (due : Due) (resourceVersion : String) : Prop := due = .nothing ∨ due = .items [] resourceVersion

/-- After an expired watch, no watch is opened until a relist has returned a snapshot and all
    its items were passed on, and then at the position of the snapshot. -/
def RelistsFirst (log : List Event) : Prop :=
  ∀ i resourceVersion, log[i]? = some (.opened resourceVersion) → (due (log.take i)).Allows resourceVersion

/-- What is due after more events is found from what was due before. -/
theorem due_append (log more : List Event) : due (log ++ more) = more.foldl Due.next (due log) := by
  simp [due, List.foldl_append]

/-- Events other than a watch request keep the order of the log, -/
theorem RelistsFirst.append {log more : List Event} (h : RelistsFirst log) (hmore : ∀ rv, .opened rv ∉ more) :
    RelistsFirst (log ++ more) := by
  intro i rv hi
  by_cases hlt : i < log.length
  · rw [List.getElem?_append_left hlt] at hi
    rw [List.take_append_of_le_length (Nat.le_of_lt hlt)]
    exact h i rv hi
  · rw [List.getElem?_append_right (Nat.not_lt.mp hlt)] at hi
    exact absurd (List.mem_of_getElem? hi) (hmore rv)

/-- and so does a watch request that is allowed. -/
theorem RelistsFirst.opened {log : List Event} (h : RelistsFirst log) {rv : String} (hdue : (due log).Allows rv) :
    RelistsFirst (log ++ [.opened rv]) := by
  intro i rv' hi
  by_cases hlt : i < log.length
  · rw [List.getElem?_append_left hlt] at hi
    rw [List.take_append_of_le_length (Nat.le_of_lt hlt)]
    exact h i rv' hi
  · rw [List.getElem?_append_right (Nat.not_lt.mp hlt)] at hi
    have hlast := List.mem_of_getElem? hi
    rw [List.mem_singleton, Event.opened.injEq] at hlast
    subst hlast
    have hzero : i = log.length := by
      have hbound := (List.getElem?_eq_some_iff.mp hi).1
      simp at hbound
      omega
    subst hzero
    simpa using hdue

/-- Without an expiry nothing comes to be due. -/
theorem foldl_next_nothing {more : List Event} (h : .expired ∉ more) : more.foldl Due.next .nothing = .nothing := by
  induction more with
  | nil => rfl
  | cons event more ih =>
    simp only [List.mem_cons, not_or] at h
    cases event with
    | expired => exact absurd rfl h.1
    | relisted _ => exact ih h.2
    | passed _ => exact ih h.2
    | opened _ => exact ih h.2
    | listed _ => exact ih h.2

/-! ### The relist along a run -/

/-- The process keeps the lease: it is never refused, and no renewal fails. -/
def KeepsLease : Op → Prop
  | .lease .refused => False
  | .renewed ok => ok = true
  | _ => True

/-- Where a relist is due, the loop will relist: it has forgotten its position and knows why. -/
structure Relisting (s : Loop) : Prop where
  first : RelistsFirst s.log
  pending : due s.log = .nothing ∨ (s.resyncDueTo410 = true ∧ s.rv = "0") ∨ s.phase = .releasing true ∨ s.phase = .exited
  listing : s.phase = .listing → s.resyncDueTo410 = false
  ingesting : ∀ left rv, s.phase = .ingesting left rv → due s.log = .nothing ∨ due s.log = .items left rv
  watching : s.phase = .opening ∨ (∃ reader, s.phase = .reading reader) → due s.log = .nothing
  told : s.watchAborted = true → s.stopped = true

section

variable {s : Loop}

/-- The four ways out of the `catch`. -/
theorem Loop.fail_cases (message : String) :
    (s.stopped = true ∧ s.fail message = { s with phase := .releasing true }) ∨
    (s.stopped = false ∧ s.watchAborted = true ∧ s.fail message = { s with phase := .releasing false }) ∨
    (s.stopped = false ∧ s.watchAborted = false ∧ includes message "410" = true ∧
      s.fail message = { s with phase := .releasing false, rv := "0", resyncDueTo410 := true }) ∨
    (s.stopped = false ∧ s.watchAborted = false ∧ includes message "410" = false ∧
      s.fail message = { s with phase := .backingOff }) := by
  cases hstopped : s.stopped
  · cases haborted : s.watchAborted
    · cases hgone : includes message "410"
      · simp [Loop.fail, hstopped, haborted, hgone]
      · simp [Loop.fail, hstopped, haborted, hgone]
    · simp [Loop.fail, hstopped, haborted]
  · simp [Loop.fail, hstopped]

/-- A failure keeps a relist that is due, whatever it says. -/
theorem relisting_fail {message : String} (hfirst : RelistsFirst s.log)
    (hpending : due s.log = .nothing ∨ (s.resyncDueTo410 = true ∧ s.rv = "0") ∨ includes message "410" = true)
    (htold : s.watchAborted = true → s.stopped = true) : Relisting (s.fail message) := by
  rcases Loop.fail_cases (s := s) message with
    ⟨_, hfail⟩ | ⟨hstopped, haborted, _⟩ | ⟨_, haborted, _, hfail⟩ | ⟨_, haborted, hgone, hfail⟩
  · rw [hfail]
    exact ⟨hfirst, .inr (.inr (.inl rfl)), by simp, by simp, by simp, htold⟩
  · rw [htold haborted] at hstopped
    cases hstopped
  · rw [hfail]
    exact ⟨hfirst, .inr (.inl ⟨rfl, rfl⟩), by simp, by simp, by simp, htold⟩
  · rw [hfail]
    rw [hgone] at hpending
    simp only [Bool.false_eq_true, or_false] at hpending
    exact ⟨hfirst, hpending.imp_right .inl, by simp, by simp, by simp, htold⟩

/-- The watch request is sent only where it is allowed. -/
theorem relisting_proceed (hfirst : RelistsFirst s.log) (hdue : (due s.log).Allows s.rv)
    (htold : s.watchAborted = true → s.stopped = true) : Relisting s.proceed := by
  unfold Loop.proceed
  split
  · exact ⟨hfirst, .inr (.inr (.inl rfl)), by simp, by simp, by simp, htold⟩
  · have hopened : due (s.log ++ [.opened s.rv]) = .nothing := by
      rw [due_append]
      rcases hdue with hdue | hdue <;> simp [hdue, Due.next]
    exact ⟨hfirst.opened hdue, .inl hopened, by simp, by simp, fun _ => hopened, htold⟩

theorem relisting_head (h : Relisting s) (hbreaks : s.phase ≠ .releasing true) (hexited : s.phase ≠ .exited) :
    Relisting s.head := by
  have hpending : due s.log = .nothing ∨ (s.resyncDueTo410 = true ∧ s.rv = "0") := by
    rcases h.pending with hp | hp | hp | hp
    · exact .inl hp
    · exact .inr hp
    · exact absurd hp hbreaks
    · exact absurd hp hexited
  have hphase : s.head.phase = .exited ∨ s.head.phase = .acquiring := by
    unfold Loop.head
    cases s.stopped
    · simp
    · simp
  refine ⟨h.first, hpending.imp_right .inl, fun hl => ?_, fun left rv hi => ?_, fun hw => ?_, h.told⟩
  · rcases hphase with hp | hp <;> rw [hp] at hl <;> cases hl
  · rcases hphase with hp | hp <;> rw [hp] at hi <;> cases hi
  · rcases hphase with hp | hp <;> simp [hp] at hw

/-- The `try` starts with a relist wherever one is pending. -/
theorem relisting_begin (hfirst : RelistsFirst s.log)
    (hpending : due s.log = .nothing ∨ (s.resyncDueTo410 = true ∧ s.rv = "0"))
    (htold : s.watchAborted = true → s.stopped = true) : Relisting s.begin := by
  unfold Loop.begin
  split
  · next hrv =>
    cases hresync : s.resyncDueTo410 with
    | false =>
      have hdue : due s.log = .nothing := by simpa [hresync] using hpending
      exact ⟨hfirst, .inl hdue, fun _ => rfl, by simp, by simp, htold⟩
    | true => exact ⟨hfirst, .inr (.inl ⟨rfl, hrv⟩), by simp, by simp, by simp, htold⟩
  · next hrv =>
    have hdue : due s.log = .nothing := hpending.resolve_right fun h => hrv h.2
    exact relisting_proceed hfirst (.inl hdue) htold

/-- A process that keeps its lease keeps what is pending. -/
theorem relisting_acquire (h : Relisting s) (hphase : s.phase = .acquiring) {outcome : LeaseOutcome}
    (hkeeps : KeepsLease (.lease outcome)) : Relisting (s.acquire outcome) := by
  have hpending : due s.log = .nothing ∨ (s.resyncDueTo410 = true ∧ s.rv = "0") := by
    simpa [hphase] using h.pending
  cases outcome with
  | held =>
    refine relisting_begin h.first (hpending.imp_right fun hp => ⟨hp.1, ?_⟩) (by simp)
    simp [hp.2]
  | refused => exact hkeeps.elim
  | unavailable => exact relisting_begin h.first hpending (by simp)

theorem relisting_list (h : Relisting s) (hphase : s.phase = .listing) (answer : Answer String) :
    Relisting (s.list answer) := by
  have hdue : due s.log = .nothing := by
    simpa [hphase, h.listing hphase] using h.pending
  unfold Loop.list
  split
  · exact relisting_fail h.first (.inl hdue) h.told
  cases answer with
  | ok rv =>
    refine relisting_proceed (h.first.append (by simp)) (.inl ?_) h.told
    simp [due_append, hdue, Due.next]
  | status code => exact relisting_fail h.first (.inl hdue) h.told
  | threw message => exact relisting_fail h.first (.inl hdue) h.told

/-- The items that are left are what is due, and a watch may be opened after the last one. -/
theorem relisting_ingest {items : List K8sEvent} {rv : String} (hfirst : RelistsFirst s.log)
    (hpending : due s.log = .nothing ∨ (s.resyncDueTo410 = true ∧ s.rv = "0"))
    (hitems : due s.log = .nothing ∨ due s.log = .items items rv) (htold : s.watchAborted = true → s.stopped = true) :
    Relisting (s.ingest items rv) := by
  cases items with
  | nil => exact relisting_proceed hfirst hitems htold
  | cons item left =>
    have hdue : due (s.log ++ [.passed (some item)]) = .nothing ∨
        due (s.log ++ [.passed (some item)]) = .items left rv := by
      rcases hitems with hdue | hdue <;> simp [due_append, hdue, Due.next]
    refine ⟨hfirst.append (by simp), ?_, by simp [Loop.ingest], ?_, by simp [Loop.ingest], htold⟩
    · rcases hpending with hnothing | hgone
      · left
        simp [Loop.ingest, due_append, hnothing, Due.next]
      · exact .inr (.inl hgone)
    · intro left' rv' hphase
      obtain ⟨rfl, rfl⟩ : left = left' ∧ rv = rv' := by simpa [Loop.ingest] using hphase
      exact hdue

/-- The relist is complete, or it stays pending. -/
theorem relisting_resync (h : Relisting s) (hphase : s.phase = .resyncing) (answers : Nat → PageAnswer) :
    Relisting (s.resync answers) := by
  have hpending : due s.log = .nothing ∨ (s.resyncDueTo410 = true ∧ s.rv = "0") := by
    simpa [hphase] using h.pending
  unfold Loop.resync
  split
  · exact relisting_fail h.first (hpending.imp_right .inl) h.told
  split
  · exact relisting_fail h.first (hpending.imp_right .inl) h.told
  next snapshot _ =>
  have hnothing : due s.log = .nothing → due (s.log ++ [.relisted snapshot]) = .nothing := by
    intro hdue
    simp [due_append, hdue, Due.next]
  refine relisting_ingest (h.first.append (by simp)) (hpending.imp_left hnothing) ?_ h.told
  cases hdue : due s.log with
  | nothing => exact .inl (hnothing hdue)
  | relist => simp [due_append, hdue, Due.next]
  | items left rv => cases left <;> simp [due_append, hdue, Due.next]

/-- While its items are passed on, those that are left are due. -/
theorem relisting_ingested (h : Relisting s) {left : List K8sEvent} {rv : String}
    (hphase : s.phase = .ingesting left rv) (throws : Option String) : Relisting (s.ingested left rv throws) := by
  have hpending : due s.log = .nothing ∨ (s.resyncDueTo410 = true ∧ s.rv = "0") := by
    simpa [hphase] using h.pending
  cases throws with
  | none => exact relisting_ingest h.first hpending (h.ingesting left rv hphase) h.told
  | some message => exact relisting_fail h.first (hpending.imp_right .inl) h.told

theorem relisting_open (h : Relisting s) (hphase : s.phase = .opening) (answer : Answer Unit) :
    Relisting (s.open_ answer) := by
  have hdue := h.watching (.inl hphase)
  unfold Loop.open_
  split
  · exact relisting_fail h.first (.inl hdue) h.told
  cases answer with
  | ok a => exact ⟨h.first, .inl hdue, by simp, by simp, fun _ => hdue, h.told⟩
  | status code =>
    by_cases hcode : code = 410
    · subst hcode
      refine relisting_fail (h.first.append (by simp)) (.inr (.inr ?_)) h.told
      decide
    · refine relisting_fail (h.first.append (by simp [hcode])) (.inl ?_) h.told
      simpa [hcode] using hdue
  | threw message => exact relisting_fail h.first (.inl hdue) h.told

end

/-- Every step keeps the invariant, as long as the process keeps the lease. -/
theorem Relisting.step {s : Loop} (h : Relisting s) (parse : Text → Option WatchEvent) {op : Op}
    (hkeeps : KeepsLease op) : Relisting (s.step parse op) := by
  have htakes := s.step_takes parse op
  generalize s.step parse op = s' at htakes
  cases htakes with
  | idle _ _ => exact h
  | abort => exact ⟨h.first, h.pending, h.listing, h.ingesting, h.watching, fun _ => rfl⟩
  | lost _ _ => cases hkeeps
  | lease outcome hphase => exact relisting_acquire h hphase hkeeps
  | awake hphase => exact relisting_head h (by simp [hphase]) (by simp [hphase])
  | quit _ _ => exact ⟨h.first, .inr (.inr (.inl rfl)), by simp, by simp, by simp, h.told⟩
  | retry hphase _ =>
    have hpending := h.pending
    simp only [hphase, reduceCtorEq, or_false] at hpending
    exact ⟨h.first, hpending.imp_right .inl, by simp, by simp, by simp, h.told⟩
  | listed answer hphase => exact relisting_list h hphase answer
  | resynced answers hphase => exact relisting_resync h hphase answers
  | ingested throws left rv hphase => exact relisting_ingested h hphase throws
  | opened answer hphase => exact relisting_open h hphase answer
  | cancelled _ reader hphase _ =>
    have hdue := h.watching (.inr ⟨reader, hphase⟩)
    exact ⟨h.first, .inl hdue, by simp [Loop.finishWatch], by simp [Loop.finishWatch], by simp [Loop.finishWatch], h.told⟩
  | chunk text reader hphase =>
    have hdue := h.watching (.inr ⟨reader, hphase⟩)
    have hnothing : due (s.log ++ (reader.read parse text).2.map .passed) = .nothing := by
      rw [due_append, hdue]
      exact foldl_next_nothing (by simp)
    exact ⟨h.first.append (by simp), .inl hnothing, by simp, by simp, fun _ => hnothing, h.told⟩
  | closed reader hphase =>
    have hdue := h.watching (.inr ⟨reader, hphase⟩)
    exact ⟨h.first, .inl hdue, by simp [Loop.finishWatch], by simp [Loop.finishWatch], by simp [Loop.finishWatch], h.told⟩
  | readError message reader hphase =>
    exact relisting_fail h.first (.inl (h.watching (.inr ⟨reader, hphase⟩))) h.told
  | broke _ => exact ⟨h.first, .inr (.inr (.inr rfl)), by simp, by simp, by simp, h.told⟩
  | looped hphase => exact relisting_head h (by simp [hphase]) (by simp [hphase])

theorem relisting_start : Relisting .start :=
  ⟨fun i rv hi => by simp [Loop.start] at hi, .inl rfl, by simp [Loop.start], by simp [Loop.start], by simp [Loop.start],
    by simp [Loop.start]⟩

end narwhal.portal.informer
