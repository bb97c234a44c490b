import Narwhal.Airgap.Promotion
import Narwhal.Lib.Run

open pylib

namespace narwhal.promotion

/-! ### What the directory keeps -/

/-- The directory is a bundle that passed verification, with all of its files. -/
def Complete (w : World) (dir : Option Tree) : Prop := ∃ tree ∈ w.verified, dir = some tree

instance (w : World) (dir : Option Tree) : Decidable (Complete w dir) :=
  inferInstanceAs (Decidable (∃ tree ∈ w.verified, dir = some tree))

structure Holds (script : Script) (w : World) : Prop where
  kept : w.served = true → Complete w w.promoted ∨ Complete w w.previous
  /-- A rollback that was killed is completed when it is run again. -/
  completed : w.run = none → ∀ p q, w.origin = some (p, q) → ∀ approved_by, approved_by ≠ [] →
    (w.uninterrupted script .rollback approved_by).promoted = q ∧
      (w.uninterrupted script .rollback approved_by).previous = p ∧
      ((w.uninterrupted script .rollback approved_by).exit = some 0 ↔ (q.bind script.describe).isSome)
  undone : w.run = none → ∀ first second, first ≠ [] → second ≠ [] →
    ((w.uninterrupted script .rollback first).uninterrupted script .rollback second).promoted = w.promoted ∧
      ((w.uninterrupted script .rollback first).uninterrupted script .rollback second).previous = w.previous
  logged : w.run = none → w.exit = some 0 →
    ∃ entry, w.log.getLast? = some entry ∧ w.promoted.bind script.describe = some entry.content

/-! ### An uninterrupted rollback -/

section

variable (script : Script) {w : World} {approved_by : Str}

theorem rollback_swaps {a b : Tree} (hby : approved_by ≠ []) (hidle : w.run = none) (ha : w.promoted = some a)
    (hb : w.previous = some b) :
    (w.uninterrupted script .rollback approved_by).promoted = some b ∧
      (w.uninterrupted script .rollback approved_by).previous = some a ∧
      (w.uninterrupted script .rollback approved_by).run = none ∧
      ((w.uninterrupted script .rollback approved_by).exit = some 0 ↔ (script.describe b).isSome) := by
  cases hb' : script.describe b with
  | none =>
    simp [World.uninterrupted, World.runOps, List.replicate, World.step, World.begin, World.exec, World.goOn,
      World.done, hby, hidle, ha, hb, hb']
  | some content =>
    simp [World.uninterrupted, World.runOps, List.replicate, World.step, World.begin, World.exec, World.goOn,
      World.done, hby, hidle, ha, hb, hb']

/-- Without one of the two directories nothing is moved. -/
theorem rollback_moves_nothing (hby : approved_by ≠ []) (hidle : w.run = none)
    (h : w.promoted = none ∨ w.previous = none) :
    (w.uninterrupted script .rollback approved_by).promoted = w.promoted ∧
      (w.uninterrupted script .rollback approved_by).previous = w.previous ∧
      (w.uninterrupted script .rollback approved_by).run = none := by
  cases hb : w.previous with
  | none =>
    simp [World.uninterrupted, World.runOps, List.replicate, World.step, World.begin, World.refuse, hby, hidle, hb]
  | some b =>
    have ha : w.promoted = none := h.resolve_right (by simp [hb])
    simp [World.uninterrupted, World.runOps, List.replicate, World.step, World.begin, World.exec, World.goOn,
      World.done, hby, hidle, ha, hb]

/-- The second of two rollbacks undoes the first. -/
theorem rollback_rollback (hidle : w.run = none) (first second : Str) (hfirst : first ≠ [])
    (hsecond : second ≠ []) :
    ((w.uninterrupted script .rollback first).uninterrupted script .rollback second).promoted = w.promoted ∧
      ((w.uninterrupted script .rollback first).uninterrupted script .rollback second).previous = w.previous := by
  by_cases h : w.promoted = none ∨ w.previous = none
  · obtain ⟨hpromoted, hprevious, hrun⟩ := rollback_moves_nothing script hfirst hidle h
    rw [← hpromoted, ← hprevious] at h
    obtain ⟨hpromoted', hprevious', -⟩ := rollback_moves_nothing script hsecond hrun h
    exact ⟨hpromoted'.trans hpromoted, hprevious'.trans hprevious⟩
  · rw [not_or] at h
    obtain ⟨a, ha⟩ := Option.ne_none_iff_exists'.mp h.1
    obtain ⟨b, hb⟩ := Option.ne_none_iff_exists'.mp h.2
    obtain ⟨hpromoted, hprevious, hrun, -⟩ := rollback_swaps script hfirst hidle ha hb
    obtain ⟨hpromoted', hprevious', -⟩ := rollback_swaps script hsecond hrun hpromoted hprevious
    exact ⟨hpromoted'.trans ha.symm, hprevious'.trans hb.symm⟩

end

/-! ### When a command may run, and when it may be killed -/

/-- `promoted-previous/` is removed, or `promoted/` moved away, only while the other one is complete. -/
def MayExec (w : World) : Command → Prop
  | .removePrevious => w.served = true → Complete w w.promoted
  | .swapOut => w.served = true → Complete w w.previous
  | _ => True

instance (w : World) (next : Command) : Decidable (MayExec w next) :=
  match next with
  | .removePrevious => inferInstanceAs (Decidable (w.served = true → Complete w w.promoted))
  | .swapOut => inferInstanceAs (Decidable (w.served = true → Complete w w.previous))
  | .removeSwap | .swapIn | .swapBack | .verify | .keepPrevious | .copy | .mark | .log _ => isTrue trivial

/-- A rollback is killed only before its first `mv`, and only if that has something to move. -/
def MayKill (w : World) : Command → Prop
  | .removePrevious => w.served = true → Complete w w.promoted
  | .removeSwap | .swapOut => w.promoted ≠ none
  | .swapIn | .swapBack | .log .rollback => False
  | _ => True

instance (w : World) (next : Command) : Decidable (MayKill w next) :=
  match next with
  | .removePrevious => inferInstanceAs (Decidable (w.served = true → Complete w w.promoted))
  | .removeSwap | .swapOut => inferInstanceAs (Decidable (w.promoted ≠ none))
  | .swapIn | .swapBack | .log .rollback => isFalse not_false
  | .verify | .keepPrevious | .copy | .mark | .log .promote => isTrue trivial

def Guarded (w : World) : Op → Prop
  | .exec _ => ∀ run ∈ w.run, MayExec w run.next
  | .kill _ => ∀ run ∈ w.run, MayKill w run.next
  | .stage _ | .start _ _ => True

instance (w : World) (op : Op) : Decidable (Guarded w op) :=
  match op with
  | .exec _ => inferInstanceAs (Decidable (∀ run ∈ w.run, MayExec w run.next))
  | .kill _ => inferInstanceAs (Decidable (∀ run ∈ w.run, MayKill w run.next))
  | .stage _ | .start _ _ => isTrue trivial

/-! ### The invariant -/

/-- The staged bundle passed verification. -/
def Checked (script : Script) (w : World) : Prop :=
  ∀ tree ∈ w.staged, tree ∈ w.verified ∧ ∀ marked ∈ script.mark tree, marked ∈ w.verified

/-- What holds before a command. -/
def Ready (script : Script) (w : World) : Command → Prop
  | .removeSwap | .swapOut => w.origin = some (w.promoted, w.previous) ∧ w.previous ≠ none
  | .swapIn => w.served = true → Complete w w.previous
  | .swapBack | .log .rollback => w.served = true → Complete w w.promoted
  | .verify => w.origin = none
  | .removePrevious => w.origin = none ∧ Checked script w
  | .keepPrevious => w.origin = none ∧ Checked script w ∧ (w.served = true → Complete w w.promoted)
  | .copy => w.origin = none ∧ Checked script w ∧ (w.served = true → Complete w w.previous)
  | .mark =>
    w.origin = none ∧ Checked script w ∧ (w.served = true → Complete w w.previous) ∧ w.promoted = w.staged
  | .log .promote => w.origin = none ∧ Complete w w.promoted

structure Inv (script : Script) (w : World) : Prop where
  kept : w.served = true → Complete w w.promoted ∨ Complete w w.previous
  running : ∀ run ∈ w.run, w.exit = none ∧ Ready script w run.next
  origin : w.run = none → ∀ p q, w.origin = some (p, q) →
    w.promoted = p ∧ w.previous = q ∧ p ≠ none ∧ q ≠ none
  logged : w.exit = some 0 →
    ∃ entry, w.log.getLast? = some entry ∧ w.promoted.bind script.describe = some entry.content

section

variable {script : Script} {w : World} {run : Run}

theorem Inv.idle (hidle : w.run = none) (hkept : w.served = true → Complete w w.promoted ∨ Complete w w.previous)
    (horigin : ∀ p q, w.origin = some (p, q) → w.promoted = p ∧ w.previous = q ∧ p ≠ none ∧ q ≠ none)
    (hlogged : w.exit = some 0 → ∃ entry, w.log.getLast? = some entry ∧
      w.promoted.bind script.describe = some entry.content) : Inv script w where
  kept := hkept
  running := by simp [hidle]
  origin _ := horigin
  logged := hlogged

theorem Inv.goOn {next : Command} (hrun : w.run = some run)
    (hkept : w.served = true → Complete w w.promoted ∨ Complete w w.previous) (hexit : w.exit = none)
    (hready : Ready script w next) : Inv script (w.goOn next) where
  kept := hkept
  running := by
    intro run' hrun'
    simp only [World.goOn, hrun, Option.map_some, Option.mem_def, Option.some.injEq] at hrun'
    subst hrun'
    refine ⟨hexit, ?_⟩
    cases next with
    | log action => cases action <;> exact hready
    | _ => exact hready
  origin hidle := by simp [World.goOn, hrun] at hidle
  logged h := by simp [World.goOn, hexit] at h

theorem Inv.done {code : Nat} (hkept : w.served = true → Complete w w.promoted ∨ Complete w w.previous)
    (hlogged : code = 0 → ∃ entry, w.log.getLast? = some entry ∧
      w.promoted.bind script.describe = some entry.content) : Inv script (w.done code) :=
  .idle rfl hkept (by simp [World.done]) fun h => hlogged (by simpa [World.done] using h)

theorem Inv.failed (hkept : w.served = true → Complete w w.promoted ∨ Complete w w.previous) :
    Inv script (w.done 1) :=
  .done hkept (by simp)

/-- The run ends with an entry for what it leaves in `promoted/`. -/
theorem Inv.log (hkept : w.served = true → Complete w w.promoted ∨ Complete w w.previous) (action : Action)
    (hnext : run.next = .log action) (ok : Bool) : Inv script (w.exec script run ok) := by
  simp only [World.exec, hnext]
  split
  · exact .failed hkept
  · next content hcontent =>
    split
    · exact .done hkept fun _ => ⟨⟨action, run.approved_by, content⟩, by simp, hcontent⟩
    · exact .failed hkept

theorem Inv.exec (h : Inv script w) (hrun : w.run = some run) (hmay : MayExec w run.next) (ok : Bool) :
    Inv script (w.exec script run ok) := by
  obtain ⟨hexit, hready⟩ := h.running run hrun
  cases hnext : run.next with
  | removeSwap =>
    simp only [World.exec, hnext]
    rw [hnext] at hready
    exact .goOn hrun h.kept hexit hready
  | swapOut =>
    simp only [World.exec, hnext]
    rw [hnext] at hmay
    split
    · exact .failed h.kept
    · exact .goOn hrun (fun hs => .inr (hmay hs)) hexit hmay
  | swapIn =>
    simp only [World.exec, hnext]
    rw [hnext] at hready
    split
    · exact .failed h.kept
    · next tree htree =>
      have hcomplete : w.served = true → Complete w (some tree) := fun hs => htree ▸ hready hs
      exact .goOn hrun (fun hs => .inl (hcomplete hs)) hexit hcomplete
  | swapBack =>
    simp only [World.exec, hnext]
    rw [hnext] at hready
    split
    · exact .failed h.kept
    · exact .goOn hrun (fun hs => .inl (hready hs)) hexit hready
  | verify =>
    simp only [World.exec, hnext]
    rw [hnext] at hready
    split
    · have hgrows : ∀ tree ∈ w.verified,
          tree ∈ w.staged.toList ++ (w.staged.bind script.mark).toList ++ w.verified :=
        fun tree htree => List.mem_append_right _ htree
      have hgrown : ∀ dir, Complete w dir → Complete { w with verified :=
          w.staged.toList ++ (w.staged.bind script.mark).toList ++ w.verified } dir := by
        rintro dir ⟨tree, htree, rfl⟩
        exact ⟨tree, hgrows tree htree, rfl⟩
      have hchecked : Checked script { w with verified :=
          w.staged.toList ++ (w.staged.bind script.mark).toList ++ w.verified } := by
        intro tree htree
        have htree : w.staged = some tree := htree
        refine ⟨by simp [htree], fun marked hmarked => ?_⟩
        have hmarked : script.mark tree = some marked := hmarked
        simp [htree, hmarked]
      split
      · exact .goOn hrun (fun hs => (h.kept hs).imp (hgrown _) (hgrown _)) hexit ⟨hready, hchecked⟩
      · next hpromoted =>
        refine .goOn hrun (fun hs => (h.kept hs).imp (hgrown _) (hgrown _)) hexit ⟨hready, hchecked, fun hs => ?_⟩
        apply hgrown
        refine (h.kept hs).resolve_left ?_
        rintro ⟨tree, -, htree⟩
        simp [htree] at hpromoted
    · exact .failed h.kept
  | removePrevious =>
    simp only [World.exec, hnext]
    rw [hnext] at hready hmay
    exact .goOn hrun (fun hs => .inl (hmay hs)) hexit ⟨hready.1, hready.2, hmay⟩
  | keepPrevious =>
    simp only [World.exec, hnext]
    rw [hnext] at hready
    obtain ⟨horigin, hchecked, hcomplete⟩ := hready
    exact .goOn hrun (fun hs => .inr (hcomplete hs)) hexit ⟨horigin, hchecked, hcomplete⟩
  | copy =>
    simp only [World.exec, hnext]
    rw [hnext] at hready
    obtain ⟨horigin, hchecked, hcomplete⟩ := hready
    split
    · exact .failed h.kept
    · next tree htree =>
      exact .goOn hrun (fun hs => .inr (hcomplete hs)) hexit ⟨horigin, hchecked, hcomplete, htree.symm⟩
  | mark =>
    simp only [World.exec, hnext]
    rw [hnext] at hready
    obtain ⟨horigin, hchecked, -, hcopied⟩ := hready
    split
    · exact .failed h.kept
    · next tree htree =>
      obtain ⟨staged, hstaged, hmark⟩ := Option.bind_eq_some_iff.mp htree
      have hcomplete : Complete w (some tree) := ⟨tree, (hchecked staged (hcopied ▸ hstaged)).2 tree hmark, rfl⟩
      exact .goOn hrun (fun _ => .inl hcomplete) hexit ⟨horigin, hcomplete⟩
  | log action => exact .log h.kept action hnext ok

theorem Inv.partly_kept (h : Inv script w) (hrun : w.run = some run) (hmay : MayKill w run.next) (keep : Str → Bool)
    (torn : Content) : w.served = true →
      Complete w (w.partly script run.next keep torn).promoted ∨
        Complete w (w.partly script run.next keep torn).previous := by
  obtain ⟨-, hready⟩ := h.running run hrun
  intro hserved
  cases hnext : run.next with
  | removePrevious =>
    rw [hnext] at hmay
    exact .inl (hmay hserved)
  | copy =>
    rw [hnext] at hready
    exact .inr (hready.2.2 hserved)
  | mark =>
    rw [hnext] at hready
    apply Or.inr
    cases script <;> exact hready.2.2.1 hserved
  | _ => exact h.kept hserved

theorem partly_verified (script : Script) (w : World) (next : Command) (keep : Str → Bool) (torn : Content) :
    (w.partly script next keep torn).verified = w.verified ∧ (w.partly script next keep torn).served = w.served ∧
      (w.partly script next keep torn).origin = w.origin := by
  cases next <;> cases script <;> exact ⟨rfl, rfl, rfl⟩

/-- What a rollback left when it was killed is what it started from. -/
theorem Inv.partly_origin (h : Inv script w) (hrun : w.run = some run) (hmay : MayKill w run.next)
    (keep : Str → Bool) (torn : Content) {p q : Option Tree} (horigin : w.origin = some (p, q)) :
    ((w.promoted = p ∧ w.previous = q) ∧ (w.partly script run.next keep torn).promoted = p ∧
      (w.partly script run.next keep torn).previous = q) ∧ p ≠ none ∧ q ≠ none := by
  obtain ⟨-, hready⟩ := h.running run hrun
  have hpromote : w.origin ≠ none := by simp [horigin]
  cases hnext : run.next with
  | removeSwap | swapOut =>
    rw [hnext] at hready hmay
    obtain ⟨hdirs, hprevious⟩ := hready
    rw [hdirs] at horigin
    cases horigin
    exact ⟨⟨⟨rfl, rfl⟩, rfl, rfl⟩, hmay, hprevious⟩
  | swapIn | swapBack =>
    rw [hnext] at hmay
    exact hmay.elim
  | verify =>
    rw [hnext] at hready
    exact (hpromote hready).elim
  | log action =>
    rw [hnext] at hready hmay
    cases action with
    | promote => exact (hpromote hready.1).elim
    | rollback => exact hmay.elim
  | _ =>
    rw [hnext] at hready
    exact (hpromote hready.1).elim

theorem Inv.kill (h : Inv script w) (hrun : w.run = some run) (hmay : MayKill w run.next)
    (left : Option ((Str → Bool) × Content)) : Inv script (w.step script (.kill left)) := by
  cases left with
  | none =>
    simp only [World.step, hrun]
    refine .idle rfl h.kept (fun p q horigin => ?_) (by simp)
    obtain ⟨⟨⟨hp, hq⟩, -⟩, hne⟩ := h.partly_origin hrun hmay (fun _ => true) (.data []) horigin
    exact ⟨hp, hq, hne⟩
  | some left =>
    obtain ⟨keep, torn⟩ := left
    simp only [World.step, hrun]
    obtain ⟨hverified, hserved, horigin⟩ := partly_verified script w run.next keep torn
    refine .idle rfl ?_ (fun p q hpq => ?_) (by simp)
    · intro hs
      obtain ⟨tree, htree, hdir⟩ | ⟨tree, htree, hdir⟩ := h.partly_kept hrun hmay keep torn (hserved ▸ hs)
      · exact .inl ⟨tree, hverified.symm ▸ htree, hdir⟩
      · exact .inr ⟨tree, hverified.symm ▸ htree, hdir⟩
    · obtain ⟨⟨-, hp, hq⟩, hne⟩ := h.partly_origin hrun hmay keep torn (horigin ▸ hpq)
      exact ⟨hp, hq, hne⟩

theorem Inv.refuse (h : Inv script w) (hidle : w.run = none) : Inv script w.refuse :=
  .idle hidle h.kept (h.origin hidle) (by simp [World.refuse])

theorem Inv.begin (h : Inv script w) (hidle : w.run = none) (action : Action) (approved_by : Str) :
    Inv script (w.begin script action approved_by) := by
  cases action with
  | rollback =>
    simp only [World.begin]
    split
    · exact h.refuse hidle
    split
    · exact h.refuse hidle
    · next hprevious =>
      refine ⟨h.kept, fun run hrun => ?_, by simp, by simp⟩
      obtain rfl := Option.some.inj hrun
      exact ⟨rfl, rfl, hprevious⟩
  | promote =>
    simp only [World.begin]
    split
    · exact h.refuse hidle
    split
    · refine ⟨h.kept, fun run hrun => ?_, by simp, by simp⟩
      obtain rfl := Option.some.inj hrun
      exact ⟨rfl, rfl⟩
    · exact h.refuse hidle

theorem Inv.step (h : Inv script w) {op : Op} (hop : Guarded w op) : Inv script (w.step script op) := by
  cases hrun : w.run with
  | none =>
    cases op with
    | stage tree =>
      simp only [World.step, hrun, if_true]
      exact .idle rfl h.kept (h.origin hrun) h.logged
    | start action approved_by =>
      simp only [World.step, hrun, if_true]
      exact h.begin hrun action approved_by
    | exec ok => simpa only [World.step, hrun] using h
    | kill left => simpa only [World.step, hrun] using h
  | some run =>
    cases op with
    | stage tree => simpa [World.step, hrun] using h
    | start action approved_by => simpa [World.step, hrun] using h
    | exec ok =>
      simp only [World.step, hrun]
      exact h.exec hrun (hop run hrun) ok
    | kill left => exact h.kill hrun (hop run hrun) left

theorem Inv.fresh (script : Script) : Inv script World.fresh :=
  .idle rfl (by simp [World.fresh]) (by simp [World.fresh]) (by simp [World.fresh])

theorem Inv.holds (h : Inv script w) : Holds script w where
  kept := h.kept
  completed hidle p q hpq approved_by hby := by
    obtain ⟨hp, hq, hpne, hqne⟩ := h.origin hidle p q hpq
    obtain ⟨a, rfl⟩ := Option.ne_none_iff_exists'.mp hpne
    obtain ⟨b, rfl⟩ := Option.ne_none_iff_exists'.mp hqne
    obtain ⟨hpromoted, hprevious, -, hexit⟩ := rollback_swaps script hby hidle hp hq
    exact ⟨hpromoted, hprevious, hexit⟩
  undone hidle := rollback_rollback script hidle
  logged _ := h.logged

end

/-! ### Runs -/

/-- In every sequence of runs that removes or moves a directory only while the other one is complete,
    and in which no rollback is killed from its first `mv` on, the directory keeps what it should. -/
theorem promotion_crash_safe (script : Script) (ops : List Op) (h : Allowed (World.step script) Guarded .fresh ops) :
    Holds script (World.fresh.runOps script ops) := by
  have hinv : Inv script (World.fresh.runOps script ops) :=
    h.invariant (fun _ _ hw hop => hw.step hop) (.fresh script)
  exact hinv.holds

/-! ### Two promotions, of which the second is killed while it copies -/

def bundle (script : Script) (id : String) : Tree :=
  [(script.manifest, .manifest ⟨some (lit id), none, some (lit "staged"), []⟩), (lit "db.tar.gz", .data [])]

/-- The first bundle is promoted and the second staged. -/
def promoted (script : Script) : List Op :=
  .stage (some (bundle script "1")) :: .start .promote (lit "ops") :: List.replicate 4 (.exec true) ++
    [.stage (some (bundle script "2"))]

/-- `cp -r` is killed before it has copied a file. -/
def killedCopy (script : Script) : List Op :=
  promoted script ++ .start .promote (lit "ops") :: List.replicate 3 (.exec true) ++
    [.kill (some (fun _ => false, .data []))]

/-- After a killed copy the first bundle is rolled back to. -/
theorem rollback_after_killed_copy :
    Allowed (World.step .upgradeBundle) Guarded .fresh
        (killedCopy .upgradeBundle ++ .start .rollback (lit "ops") :: List.replicate 5 (.exec true)) ∧
      Holds .upgradeBundle (World.fresh.runOps .upgradeBundle
        (killedCopy .upgradeBundle ++ .start .rollback (lit "ops") :: List.replicate 5 (.exec true))) := by
  have h : Allowed (World.step .upgradeBundle) Guarded .fresh
      (killedCopy .upgradeBundle ++ .start .rollback (lit "ops") :: List.replicate 5 (.exec true)) := by
    decide
  exact ⟨h, promotion_crash_safe .upgradeBundle _ h⟩

/-- The promotion that follows a killed copy removes the last complete bundle before it copies. -/
def retried (script : Script) : List Op :=
  killedCopy script ++ .start .promote (lit "ops") :: List.replicate 2 (.exec true)

/-- A rollback is killed after its first `mv`. -/
def killedRollback (script : Script) : List Op :=
  promoted script ++ .start .promote (lit "ops") :: List.replicate 6 (.exec true) ++
    .start .rollback (lit "ops") :: List.replicate 2 (.exec true) ++ [.kill none]

/-- After a killed copy a second promotion leaves no complete bundle; after a rollback killed between
    its moves a second one exits 1 and has removed the only copy of what was promoted. -/
theorem retry_loses_bundle :
    (¬ ∀ ops, Holds .upgradeBundle (World.fresh.runOps .upgradeBundle ops)) ∧
      (¬ ∀ ops, Holds .securityDb (World.fresh.runOps .securityDb ops)) ∧
      ((World.fresh.runOps .upgradeBundle (killedRollback .upgradeBundle)).uninterrupted .upgradeBundle .rollback
        (lit "ops")).exit = some 1 ∧
      ((World.fresh.runOps .securityDb (killedRollback .securityDb)).uninterrupted .securityDb .rollback
        (lit "ops")).promoted = none := by
  refine ⟨fun h => ?_, fun h => ?_, by decide, by decide⟩
  · exact absurd ((h (retried .upgradeBundle)).kept (by decide)) (by decide)
  · exact absurd ((h (retried .securityDb)).kept (by decide)) (by decide)

end narwhal.promotion
