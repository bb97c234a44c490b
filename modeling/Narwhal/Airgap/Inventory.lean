import Mathlib.Data.List.Sort
import Narwhal.Airgap.OciLayout
import Narwhal.Lib.JsonAscii
import Narwhal.Lib.Split

open pylib

namespace narwhal.oci_layout

/-! ### The inventory file -/

def INVENTORY_SCHEMA : Str := lit "narwhal-airgap-image-digests/v1"

/-- In sorted order, as a dictionary has them. -/
def INVENTORY_KEYS : List Str := [lit "collapsed_to", lit "digest", lit "image", lit "layout", lit "platforms"]

def PLATFORM_MODES : List Str :=
  [lit "full-index-preserved", lit "pinned-manifest-preserved", lit "single-platform"]

def isLowerAlnum (c : Nat) : Bool := isDigit c || (97 ≤ c && c < 123)

/-- `[a-z0-9]+/[a-z0-9]+`, matched in full. -/
def isPlatform (s : Str) : Bool :=
  match split [47] s with
  | [os, architecture] => !os.isEmpty && os.all isLowerAlnum && !architecture.isEmpty && architecture.all isLowerAlnum
  | _ => false

structure Entry where
  image : Str
  layout : Str
  digest : Str
  platforms : Str
  collapsed_to : Option Str
deriving DecidableEq, Repr

/-- `row["platforms"].split(" ")[0]` -/
def platform_mode (row : Row) : Str := beforeFirst [32] row.platforms.text

/-- The entry written for a row. -/
def Row.entry (platform : Str) (row : Row) : Entry where
  image := row.image
  layout := row.layout
  digest := row.layout_digest
  platforms := platform_mode row
  collapsed_to := if platform_mode row = lit "single-platform" then some platform else none

def Entry.json (e : Entry) : Json :=
  .obj (dictOf [(lit "image", .str e.image), (lit "layout", .str e.layout), (lit "digest", .str e.digest),
    (lit "platforms", .str e.platforms), (lit "collapsed_to", e.collapsed_to.elim .null .str)])

def inventoryDoc (tool : Str) (entries : List Entry) : Json :=
  .obj (dictOf [(lit "schema", .str INVENTORY_SCHEMA), (lit "tool", .str tool),
    (lit "images", .arr (entries.map Entry.json))])

/-- The rows as the inventory lists them: `sorted(rows, key=lambda r: r["image"])`. -/
def recorded (platform : Str) (rows : List Row) : List Entry :=
  (rows.insertionSort fun r s => r.image ≤ s.image).map (Row.entry platform)

/-- The octets of the inventory file; `none` would be a `UnicodeEncodeError`. -/
def write_inventory (rows : List Row) (platform tool : Str) : Option Bytes :=
  utf8Encode (printed (indent2 quoteAscii) 0 (inventoryDoc tool (recorded platform rows)) ++ [10])

/-- An entry that satisfies the checks of one; `none` is a `LayoutError`, or the `TypeError` of platforms
    that are a list or a dictionary. -/
def load_entry (e : Json) : Option Entry :=
  match e with
  | .obj fields =>
    if fields.map Prod.fst ≠ INVENTORY_KEYS then none
    else
      match strField "image" e, strField "layout" e, strField "digest" e, strField "platforms" e with
      | some img, some layout, some digest, some platforms =>
        if img = [] ∨ strip img ≠ img then none
        else if layout ≠ lit "oci/" ++ layout_name img ∨ 10 ∈ layout then none
        else if ¬ isDigest digest then none
        else if platforms ∉ PLATFORM_MODES then none
        else
          match field "collapsed_to" e with
          | some (.str collapsed) =>
            if platforms = lit "single-platform" ∧ isPlatform collapsed then
              some ⟨img, layout, digest, platforms, some collapsed⟩
            else none
          | some .null => if platforms = lit "single-platform" then none else some ⟨img, layout, digest, platforms, none⟩
          | _ => none
      | _, _, _, _ => none
  | _ => none

/-- The entries, each with a larger image than the one before. -/
def load_entries : Option Str → List Json → Option (List Entry)
  | _, [] => some []
  | prev, e :: rest =>
    match load_entry e with
    | none => none
    | some entry =>
      if prev.any fun img => entry.image ≤ img then none
      else (load_entries (some entry.image) rest).map (entry :: ·)

/-- What `load_inventory` makes of a document. -/
def inventoryEntries (doc : Json) : Option (List Entry) :=
  match doc with
  | .obj fields =>
    if fields.map Prod.fst ≠ [lit "images", lit "schema", lit "tool"] then none
    else if strField "schema" doc ≠ some INVENTORY_SCHEMA then none
    else
      match strField "tool" doc, listField "images" doc with
      | some tool, some images =>
        if strip tool = [] ∨ 200 < tool.length then none
        else
          match load_entries none images with
          | none => none
          | some entries => if (entries.map Entry.layout).Nodup then some entries else none
      | _, _ => none
  | _ => none

/-- `none` is a `LayoutError`. -/
def load_inventory (node : Node) : Option (List Entry) := (read_json node true).bind inventoryEntries

/-! ### Comparing the layouts with the inventory -/

inductive ConfigProblem where
  /-- config blob not located -/
  | not_located
  /-- config unreadable -/
  | unreadable
  /-- config is not a JSON object -/
  | not_object
  /-- config platform {shown} != recorded -/
  | differs (os architecture : Option Json)
deriving DecidableEq, Repr

inductive Problem where
  /-- {image}: no entry in the digest inventory -/
  | no_entry (image : Str)
  /-- {image}: layout digest {found} != saved {saved} -/
  | digest (image found saved : Str)
  /-- {image}: layout is {found} but saved as {saved} -/
  | platforms (image found saved : Str)
  | config (image recorded : Str) (problem : ConfigProblem)
  /-- oci/{name}: not a real directory (symlink or stray file) -/
  | not_directory (name : Str)
  /-- oci/{name}: layout not recorded in the digest inventory -/
  | not_recorded (name : Str)
deriving DecidableEq, Repr

section

variable (bundle : Bundle)

/-- `none` only when the config names the recorded platform. -/
def config_platform_problem (cfg_blob : Option Path) (recorded : Str) : Option ConfigProblem :=
  match cfg_blob with
  | none => some .not_located
  | some path =>
    match read_json (bundle path) false with
    | none => some .unreadable
    | some (.obj fields) =>
      let os := field "os" (.obj fields)
      let architecture := field "architecture" (.obj fields)
      if [os, architecture] = (split [47] recorded).map fun part => some (.str part) then none
      else some (.differs os architecture)
    | some _ => some .not_object

def row_problem (entries : List Entry) (r : Row) : Option Problem :=
  match entries.find? fun e => e.image = r.image with
  | none => some (.no_entry r.image)
  | some e =>
    if e.digest ≠ r.layout_digest then some (.digest r.image r.layout_digest e.digest)
    else if e.platforms ≠ platform_mode r then some (.platforms r.image (platform_mode r) e.platforms)
    else
      match e.collapsed_to with
      | none => none
      | some recorded => (config_platform_problem bundle r.config_blob recorded).map (.config r.image recorded)

/-- The names in `oci/`, where it is a directory. -/
def children : List Str :=
  match (bundle [lit "oci"]).target with
  | .dir names => names
  | _ => []

/-- `e["layout"].split("/", 1)[1]` -/
def Entry.directory (e : Entry) : Str := (e.layout.dropWhile (· ≠ 47)).drop 1

def child_problem (entries : List Entry) (name : Str) : Option Problem :=
  let child := bundle [lit "oci", name]
  if child.link ∨ child.isDir = false then some (.not_directory name)
  else if name ∉ entries.map Entry.directory then some (.not_recorded name)
  else none

def check_inventory (entries : List Entry) (rows : List Row) : List Problem :=
  rows.filterMap (row_problem bundle entries) ++
    -- an `oci/` that is a link is not looked into
    if (bundle [lit "oci"]).link then []
    else ((children bundle).insertionSort (· ≤ ·)).filterMap (child_problem bundle entries)

end

/-! ### The program -/

/-- The lines of an image list; `none` is an `OSError` or a `UnicodeDecodeError`. -/
def read_list (node : Node) : Option (List Str) :=
  (read_text node).map fun text => ((splitLines text).map strip).filter fun ln => ln ≠ [] ∧ ln.head? ≠ some 35

/-- A command line argument, whose octets that are not UTF-8 are low surrogates. -/
structure Argument where
  text : Str
  decoded : ∀ c ∈ text, Escapable c
deriving DecidableEq

structure Args where
  images : Node
  manifest : Option Node
  /-- `--inventory` -/
  inventory : Option Node
  /-- `--inventory-out` is given -/
  inventory_out : Bool
  platform : Option Str
  tool : Argument

structure Outcome where
  exit : Nat
  /-- the inventory that is written -/
  written : Option Bytes
deriving DecidableEq, Repr

/-- The images of the list and of the manifest, where both can be read. -/
def Args.listed (args : Args) : Option (List Str) :=
  match read_list args.images, args.manifest with
  | none, _ => none
  | some images, none => some images
  | some images, some manifest => (read_list manifest).map (images ++ ·)

/-- `sorted` of a set of images. -/
def sortedSet (images : List Str) : List Str := images.dedup.insertionSort (· ≤ ·)

/-- Verifies the images, and the inventory where there is one. An exception that is not caught has the
    exit status of a failed image. -/
def verify_images (bundle : Bundle) (args : Args) (entries : Option (List Entry)) (images : List Str) : Outcome :=
  let rows := images.filterMap (verify_image bundle)
  let failed := images.countP fun img => (verify_image bundle img).isNone
  let problems := entries.elim [] fun entries => check_inventory bundle entries rows
  if failed + problems.length ≠ 0 then ⟨1, none⟩
  else if args.inventory_out then
    match write_inventory rows (args.platform.getD []) args.tool.text with
    | none => ⟨1, none⟩
    | some written => ⟨0, some written⟩
  else ⟨0, none⟩

def main (bundle : Bundle) (args : Args) : Outcome :=
  if args.inventory.isSome ∧ args.inventory_out then ⟨2, none⟩
  else if args.inventory_out ∧ ¬ args.platform.any isPlatform then ⟨2, none⟩
  else
    match args.listed with
    | none => ⟨2, none⟩
    | some images =>
      match args.inventory with
      | none => verify_images bundle args none (sortedSet images)
      | some node =>
        match load_inventory node with
        | none => ⟨1, none⟩
        | some entries => verify_images bundle args (some entries) (sortedSet (images ++ entries.map Entry.image))

end narwhal.oci_layout
