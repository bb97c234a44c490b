import Narwhal.Lib.Json

open pylib

namespace narwhal.promotion

/-! ### Bundles -/

/-- Which of the two scripts runs; they differ in the manifest, in its check and in the log. -/
inductive Script where
  | upgradeBundle
  | securityDb
deriving DecidableEq, Repr

def Script.manifest : Script → Str
  | .upgradeBundle => lit "upgrade-bundle.json"
  | .securityDb => lit "manifest.json"

structure Artifact where
  name : Option Str
  digest : Option Str
deriving DecidableEq, Repr

structure Manifest where
  bundle_id : Option Str
  target_version : Option Str
  promotion_stage : Option Str
  artifacts : List Artifact
deriving DecidableEq, Repr

/-- The content of a file: a manifest, or anything that is not read as one. -/
inductive Content where
  | manifest (doc : Manifest)
  | data (bytes : Bytes)
deriving DecidableEq, Repr

/-- The files of a directory, at their paths in it. -/
abbrev Tree := List (Str × Content)

/-- What a killed `rm -r` or `cp -r` leaves of a tree. -/
def Tree.left (tree : Tree) (keep : Str → Bool) : Tree := tree.filter fun file => keep file.1

def Tree.setFile (tree : Tree) (path : Str) (content : Content) : Tree :=
  tree.map fun file => if file.1 = path then (path, content) else file

/-- `doc["promotion_stage"] = "production"` in the promoted manifest; `none` where it cannot be read.
    The other script has no such step. -/
def Script.mark (script : Script) (tree : Tree) : Option Tree :=
  match script with
  | .securityDb => some tree
  | .upgradeBundle =>
    match tree.lookup script.manifest with
    | some (.manifest doc) =>
      some (tree.setFile script.manifest (.manifest { doc with promotion_stage := some (lit "production") }))
    | _ => none

/-! ### The log -/

inductive Action where
  | promote
  | rollback
deriving DecidableEq, Repr

/-- What an entry records of the content of `promoted/`. -/
structure Description where
  bundle_id : Option Str
  target_version : Option Str
  digests : Option (List (Str × Option Str))
deriving DecidableEq, Repr

structure Entry where
  action : Action
  approved_by : Str
  content : Description
deriving DecidableEq, Repr

/-- A dictionary of the digests by name; a later one of a name replaces an earlier one. -/
def digestsOf : List Artifact → List (Str × Option Str)
  | [] => []
  | a :: rest =>
    match a.name with
    | none => digestsOf rest
    | some name => if (digestsOf rest).any (·.1 = name) then digestsOf rest else (name, a.digest) :: digestsOf rest

/-- `log_entry` and `digests_of` on the content of `promoted/`; `none` is an exception that is not caught. -/
def Script.describe (script : Script) (tree : Tree) : Option Description :=
  match script, tree.lookup script.manifest with
  | .upgradeBundle, some (.manifest doc) => some ⟨doc.bundle_id, doc.target_version, some (digestsOf doc.artifacts)⟩
  | .upgradeBundle, _ => some ⟨none, none, none⟩
  | .securityDb, none => some ⟨none, none, none⟩
  | .securityDb, some (.data _) => none
  | .securityDb, some (.manifest doc) =>
    -- `a["name"]` throws where an artifact has no name
    if doc.artifacts.all (·.name.isSome) then some ⟨none, none, some (digestsOf doc.artifacts)⟩ else none

/-! ### Runs of the script, command by command -/

/-- The next command of a run. -/
inductive Command where
  /-- `rm -rf .promoted-swap-tmp` -/
  | removeSwap
  /-- `mv promoted .promoted-swap-tmp` -/
  | swapOut
  /-- `mv promoted-previous promoted` -/
  | swapIn
  /-- `mv .promoted-swap-tmp promoted-previous` -/
  | swapBack
  /-- the verifier on `staged/` -/
  | verify
  /-- `rm -rf promoted-previous` -/
  | removePrevious
  /-- `mv promoted promoted-previous` -/
  | keepPrevious
  /-- `cp -r staged promoted` -/
  | copy
  /-- the promoted manifest is rewritten -/
  | mark
  | log (action : Action)
deriving DecidableEq, Repr

structure Run where
  approved_by : Str
  next : Command
deriving DecidableEq, Repr

/-- The directory of the scripts. -/
structure World where
  staged : Option Tree
  promoted : Option Tree
  previous : Option Tree
  swap : Option Tree
  log : List Entry
  run : Option Run
  /-- how the last run ended; `none` when it was killed -/
  exit : Option Nat
  /-- the bundles that passed verification, as staged and as marked -/
  verified : List Tree
  /-- a run has promoted a verified bundle -/
  served : Bool
  /-- `promoted/` and `promoted-previous/` when the rollback that runs, or that was killed last, started -/
  origin : Option (Option Tree × Option Tree)
deriving DecidableEq, Repr

inductive Op where
  /-- a new download replaces `staged/` between two runs -/
  | stage (tree : Option Tree)
  | start (action : Action) (approved_by : Str)
  /-- the next command of the run, to its end; `ok` is what the verifier says, and whether the log is written -/
  | exec (ok : Bool)
  /-- the run is killed: before the next command, or in it, with some of its work done -/
  | kill (left : Option ((Str → Bool) × Content))

namespace World

def fresh : World := ⟨none, none, none, none, [], none, none, [], false, none⟩

/-- The run ends by itself. -/
def done (w : World) (code : Nat) : World := { w with run := none, exit := some code, origin := none }

def goOn (w : World) (next : Command) : World := { w with run := w.run.map fun run => { run with next := next } }

/-- The run ends before it has touched the directory. -/
def refuse (w : World) : World := { w with exit := some 1 }

def begin (script : Script) (w : World) (action : Action) (approved_by : Str) : World :=
  if approved_by = [] then w.refuse
  else match action with
  | .rollback =>
    if w.previous = none then w.refuse
    else { w with run := some ⟨approved_by, .removeSwap⟩, exit := none, origin := some (w.promoted, w.previous) }
  | .promote =>
    match w.staged.map fun tree => tree.lookup script.manifest with
    | some (some _) => { w with run := some ⟨approved_by, .verify⟩, exit := none, origin := none }
    | _ => w.refuse

/-- The effect of a command that runs to its end. Under `set -e` a failure ends the run. -/
def exec (script : Script) (w : World) (run : Run) (ok : Bool) : World :=
  match run.next with
  | .removeSwap => { w with swap := none }.goOn .swapOut
  | .swapOut =>
    match w.promoted with
    | none => w.done 1
    | some tree => { w with promoted := none, swap := some tree }.goOn .swapIn
  | .swapIn =>
    match w.previous with
    | none => w.done 1
    | some tree => { w with previous := none, promoted := some tree }.goOn .swapBack
  | .swapBack =>
    match w.swap with
    | none => w.done 1
    | some tree => { w with swap := none, previous := some tree }.goOn (.log .rollback)
  | .verify =>
    if ok then
      let passed := { w with verified := w.staged.toList ++ (w.staged.bind script.mark).toList ++ w.verified }
      passed.goOn (if w.promoted.isSome then .removePrevious else .copy)
    else w.done 1
  | .removePrevious => { w with previous := none }.goOn .keepPrevious
  | .keepPrevious => { w with promoted := none, previous := w.promoted }.goOn .copy
  | .copy =>
    match w.staged with
    | none => w.done 1
    | some tree => { w with promoted := some tree }.goOn .mark
  | .mark =>
    match w.promoted.bind script.mark with
    | none => w.done 1
    | some tree => { w with promoted := some tree, served := true }.goOn (.log .promote)
  | .log action =>
    match w.promoted.bind script.describe with
    | none => w.done 1
    | some content =>
      if ok then { w with log := w.log ++ [Entry.mk action run.approved_by content] }.done 0 else w.done 1

/-- What a command that is killed has done. Moves are atomic, and so is the line of the log. -/
def partly (script : Script) (w : World) (next : Command) (keep : Str → Bool) (torn : Content) : World :=
  match next with
  | .removeSwap => { w with swap := w.swap.map (Tree.left · keep) }
  | .removePrevious => { w with previous := w.previous.map (Tree.left · keep) }
  | .copy => { w with promoted := w.staged.map (Tree.left · keep) }
  | .mark =>
    match script with
    | .upgradeBundle => { w with promoted := w.promoted.map (Tree.setFile · script.manifest torn) }
    | .securityDb => w
  | _ => w

def step (script : Script) (w : World) : Op → World
  | .stage tree => if w.run = none then { w with staged := tree } else w
  | .start action approved_by => if w.run = none then w.begin script action approved_by else w
  | .exec ok =>
    match w.run with
    | none => w
    | some run => w.exec script run ok
  | .kill left =>
    match w.run with
    | none => w
    | some run =>
      let rest := match left with
        | none => w
        | some (keep, torn) => w.partly script run.next keep torn
      { rest with run := none, exit := none }

def runOps (script : Script) (w : World) (ops : List Op) : World := ops.foldl (step script) w

/-- A run of the script that nothing interrupts and whose checks pass. -/
def uninterrupted (script : Script) (w : World) (action : Action) (approved_by : Str) : World :=
  w.runOps script (.start action approved_by :: List.replicate 6 (.exec true))

end World

end narwhal.promotion
