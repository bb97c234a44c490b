import Narwhal.Lib.JsonScan
import Narwhal.Lib.Sha256
import Narwhal.Lib.TextLines

open pylib

namespace narwhal.oci_layout

/-! ### The files of a bundle -/

/-- What a path leads to once its links are followed. -/
inductive Target where
  | missing
  | file (content : Bytes)
  | dir (names : List Str)
  /-- a device, a socket and the like -/
  | other
deriving DecidableEq, Repr

structure Node where
  /-- `is_symlink()` -/
  link : Bool
  target : Target
deriving DecidableEq, Repr

/-- The components of a path below the bundle. -/
abbrev Path := List Str

/-- A bundle: what stands at each of its paths. -/
abbrev Bundle := Path → Node

def Node.isDir (node : Node) : Bool :=
  match node.target with
  | .dir _ => true
  | _ => false

/-- `path / name`, which drops a name that is empty or a dot. -/
def joined (path : Path) (name : Str) : Path := if name = [] ∨ name = lit "." then path else path ++ [name]

/-- `path.read_text(encoding="utf-8")`; `none` is an `OSError` or a `UnicodeDecodeError`. -/
def read_text (node : Node) : Option Str :=
  match node.target with
  | .file content => (utf8Decode content).map universalNewlines
  | _ => none

/-- The content of a path that is a regular file and no link. -/
def regular (node : Node) : Option Bytes :=
  if node.link then none
  else match node.target with
    | .file content => some content
    | _ => none

/-! ### JSON documents -/

def MAX_JSON_BYTES : Nat := 4 * 1024 * 1024

def MAX_DEPTH : Nat := 4

/-- The `object_pairs_hook` of an inventory. -/
def no_duplicate_keys (pairs : List (Str × Json)) : Option (List (Str × Json)) :=
  if (pairs.map Prod.fst).Nodup then some (dictOf pairs) else none

/-- How `json.loads` makes a dictionary when there is no hook. -/
def any_keys (pairs : List (Str × Json)) : Option (List (Str × Json)) := some (dictOf pairs)

/-- `json.loads(content)`, where the content is small enough to be read. -/
def parse_json (strict_keys : Bool) (content : Bytes) : Option Json :=
  if MAX_JSON_BYTES < content.length then none
  else
    match utf8Decode content with
    | none => none
    | some text => loads (if strict_keys then no_duplicate_keys else any_keys) (universalNewlines text)

/-- `none` is a `LayoutError`. -/
def read_json (node : Node) (strict_keys : Bool) : Option Json :=
  match regular node with
  | none => none
  | some content => parse_json strict_keys content

/-- `doc.get(key)`, where the document is a dictionary. -/
def field (key : String) : Json → Option Json
  | .obj fields => lookupField (lit key) fields
  | _ => none

/-- `doc.get(key)`, where it is a string. -/
def strField (key : String) (doc : Json) : Option Str :=
  match field key doc with
  | some (.str s) => some s
  | _ => none

/-- `doc.get(key)`, where it is a list. -/
def listField (key : String) (doc : Json) : Option (List Json) :=
  match field key doc with
  | some (.arr items) => some items
  | _ => none

/-! ### Descriptors -/

/-- `sha256:([0-9a-f]{64})`, matched in full. -/
def isDigest (s : Str) : Bool :=
  (lit "sha256:").isPrefixOf s && (s.drop 7).length == 64 && (s.drop 7).all isLowerHex

def INDEX_TYPES : List Str :=
  [lit "application/vnd.oci.image.index.v1+json", lit "application/vnd.docker.distribution.manifest.list.v2+json"]

def MANIFEST_TYPES : List Str :=
  INDEX_TYPES ++
    [lit "application/vnd.oci.image.manifest.v1+json", lit "application/vnd.docker.distribution.manifest.v2+json"]

/-- A descriptor whose digest and size are well formed. -/
structure Descriptor where
  digest : Str
  size : Nat
deriving DecidableEq, Repr

/-- The digest and the size of a descriptor; `none` where one is malformed. -/
def descriptor (desc : Json) : Option Descriptor :=
  match strField "digest" desc, field "size" desc with
  | some digest, some (.int (.ofNat size)) => if isDigest digest then some ⟨digest, size⟩ else none
  | _, _ => none

/-- `layout / "blobs" / "sha256" / hex` -/
def Descriptor.path (layout : Path) (d : Descriptor) : Path := layout ++ [lit "blobs", lit "sha256", d.digest.drop 7]

section Walk

variable (bundle : Bundle) (layout : Path)

/-- The blob a descriptor names: its path and its content. `none` is a `LayoutError`. -/
def check_descriptor (desc : Option Json) (hash_it : Bool) : Option (Path × Bytes) :=
  match desc.bind descriptor with
  | none => none
  | some d =>
    match regular (bundle (d.path layout)) with
    | none => none
    | some content =>
      if content.length ≠ d.size then none
      else if hash_it ∧ sha256_hexdigest content ≠ d.digest.drop 7 then none
      else some (d.path layout, content)

structure Stats where
  children : Nat
  referrers : Nat
  config_blob : Option Path
deriving DecidableEq, Repr

/-- Verify one manifest or index descriptor and everything it references. `remaining` is how many more
    levels may be nested; `none` is a `LayoutError`, or the `TypeError` of a media type that is no
    string. -/
def walk : Nat → Json → Stats → Option Stats
  | 0, _, _ => none
  | remaining + 1, desc, stats =>
    match strField "mediaType" desc with
    | none => none
    | some media =>
      if media ∉ MANIFEST_TYPES then none
      else
        match check_descriptor bundle layout (some desc) true with
        | none => none
        | some (_, content) =>
          match parse_json false content with
          | some (.obj fields) =>
            let doc := Json.obj fields
            let stats := if (field "subject" doc).isSome then { stats with referrers := stats.referrers + 1 } else stats
            if media ∈ INDEX_TYPES then
              match listField "manifests" doc with
              | none => none
              | some [] => none
              | some children =>
                children.foldlM (fun stats child => walk remaining child { stats with children := stats.children + 1 })
                  stats
            else
              match check_descriptor bundle layout (field "config" doc) true, listField "layers" doc with
              | some (cfg_blob, _), some layers =>
                if layers.all fun layer => (check_descriptor bundle layout (some layer) false).isSome then
                  some { stats with config_blob := some cfg_blob }
                else none
              | _, _ => none
          | _ => none

end Walk

/-! ### Images -/

def layout_name (img : Str) : Str :=
  (img.map fun c => if c = 47 then 95 else c).map fun c => if c = 58 then 95 else c

/-- `bundle / "oci" / layout_name(img)` -/
def layoutPath (img : Str) : Path := joined [lit "oci"] (layout_name img)

/-- `@(sha256:[0-9a-f]{64})` at the end of the text. -/
def pinAtEnd (img : Str) : Option Str :=
  match img.drop (img.length - 72) with
  | 64 :: digest => if isDigest digest then some digest else none
  | _ => none

/-- `PIN_RE.search(img)`; `$` matches before a final line feed as well. -/
def pin (img : Str) : Option Str :=
  match pinAtEnd img with
  | some digest => some digest
  | none => if img.getLast? = some 10 then pinAtEnd img.dropLast else none

inductive Platforms where
  | full_index
  | pinned_manifest
  | single_platform
deriving DecidableEq, Repr

/-- The text of a report. -/
def Platforms.text : Platforms → Str
  | .full_index => lit "full-index-preserved"
  | .pinned_manifest => lit "pinned-manifest-preserved (--all)"
  | .single_platform => lit "single-platform (--override-arch)"

/-- What `verify_image` returns. -/
structure Row where
  image : Str
  layout_digest : Str
  layout : Str
  pinned : Bool
  platforms : Platforms
  referrers_in_layout : Nat
  config_blob : Option Path
deriving DecidableEq, Repr

/-- An entry of `index.json` that is tagged `latest`. -/
def isLatest (entry : Json) : Bool :=
  (field "annotations" entry).bind (strField "org.opencontainers.image.ref.name") = some (lit "latest")

/-- The entries `latest` may stand for: the tagged ones, or all where none is. -/
def candidates (entries : List Json) : List Json :=
  match entries.filter isLatest with
  | [] => entries
  | named => named

/-- The one descriptor an index leads to; `none` where there is none or more than one. -/
def top (index : Json) : Option Json :=
  match (listField "manifests" index).map candidates with
  | some [entry] => some entry
  | _ => none

/-- The media type of the descriptor is that of an index. -/
def isIndex (desc : Json) : Bool := (strField "mediaType" desc).any (· ∈ INDEX_TYPES)

def platforms (desc : Json) (img : Str) : Platforms :=
  if isIndex desc then .full_index
  else if (pin img).isSome then .pinned_manifest
  else .single_platform

/-- The row of an image whose layout holds what it says; `none` is a `LayoutError` or a `TypeError`. -/
def verify_image (bundle : Bundle) (img : Str) : Option Row :=
  match read_json (bundle (layoutPath img ++ [lit "oci-layout"])) false,
      (read_json (bundle (layoutPath img ++ [lit "index.json"])) false).bind top with
  | some _, some desc =>
    match walk bundle (layoutPath img) (MAX_DEPTH + 1) desc ⟨0, 0, none⟩, strField "digest" desc with
    | some stats, some digest =>
      if (pin img).any (· ≠ digest) then none
      else some ⟨img, digest, lit "oci/" ++ layout_name img, (pin img).isSome, platforms desc img, stats.referrers,
        stats.config_blob⟩
    | _, _ => none
  | _, _ => none

end narwhal.oci_layout
