import Flowgraph.Text.Utf8
import Flowgraph.Value

/-!
# Files

What a program sees of the file system: each path leads to a file, to a
directory or to nothing.  Empty components of a path and single dots are
dropped; two dots stay, as they are only known to lead to the parent when the
component before them is a directory.
-/

namespace Flowgraph

namespace Path

def components (path : String) : List String :=
  (path.splitOn "/").filter fun part => part ≠ "" ∧ part ≠ "."

/-- The leading slashes: none, one, or exactly two, which are kept apart. -/
def root (path : String) : String :=
  let slashes := (path.toList.takeWhile (· = '/')).length
  if slashes = 0 then "" else if slashes = 2 then "//" else "/"

def normalize (path : String) : String :=
  let text := root path ++ "/".intercalate (components path)
  if text = "" then "." else text

def name (path : String) : String :=
  ((components path).getLast?).getD ""

def parent (path : String) : String :=
  normalize (root path ++ "/".intercalate (components path).dropLast)

def ofValue : Value → Except Fault String
  | .text s => .ok (normalize s)
  | v => .error (.pathKind v.kind)

end Path

inductive Entry where
  | file (content : List UInt8)
  | directory
  | missing
  | notDirectory
  | tooLong

/-- The file system as a function of normal paths. -/
abbrev Files := String → Entry

namespace Files

def read (files : Files) (path : String) : Except Fault (List UInt8) :=
  if path.toList.contains '\x00' then .error .nullInPath
  else
    match files path with
    | .file content => .ok content
    | .directory => .error (.isDirectory path)
    | .missing => .error (.noSuchFile path)
    | .notDirectory => .error (.notDirectory path)
    | .tooLong => .error (.nameTooLong path)

/-- Whether a file can be created or replaced at a path. -/
def checkWritable (files : Files) (path : String) : Except Fault Unit :=
  if path.toList.contains '\x00' then .error .nullInPath
  else
    match files path with
    | .file _ => .ok ()
    | .directory => .error (.isDirectory path)
    | .notDirectory => .error (.notDirectory path)
    | .tooLong => .error (.nameTooLong path)
    | .missing =>
      match files (Path.parent path) with
      | .directory => .ok ()
      | .file _ => .error (.notDirectory path)
      | _ => .error (.noSuchFile path)

def readText (files : Files) (path : String) : Except Fault String := do
  let content ← files.read path
  let text ← Text.decode content
  return String.ofList (Text.unifyLines text.toList)

end Files

/-- A place on a disk: the components that lead to it from the root. -/
abbrev Place := List String

/--
What a disk holds: files, directories that may hold nothing, and the directory
that relative paths start from.  Every ancestor of these is a directory too.
-/
structure Disk where
  home : Place
  files : List (Place × List UInt8)
  directories : List Place

namespace Disk

/-- Longest component in bytes. -/
def maxName : Nat := 255

/-- Longest path in bytes. -/
def maxPath : Nat := 4095

def entryAt (d : Disk) (place : Place) : Entry :=
  match d.files.lookup place with
  | some content => .file content
  | none =>
    let known := d.home :: (d.directories ++ d.files.map Prod.fst)
    if place.isEmpty || known.any place.isPrefixOf then .directory else .missing

/--
Follow components from a place on.  Only a directory leads further, and two
dots lead out of it; out of the root they lead nowhere else.
-/
def follow (d : Disk) (place : Place) : List String → Except Entry Place
  | [] => .ok place
  | part :: rest =>
    match d.entryAt place with
    | .directory =>
      if part = ".." then follow d place.dropLast rest
      else if maxName < part.utf8ByteSize then .error .tooLong
      else follow d (place ++ [part]) rest
    | .file _ => .error .notDirectory
    | other => .error other

/-- The place that a path leads to, whether or not there is something. -/
def resolve (d : Disk) (path : String) : Except Entry Place :=
  if maxPath < path.utf8ByteSize then .error .tooLong
  else d.follow (if Path.root path = "" then d.home else []) (Path.components path)

def toFiles (d : Disk) : Files := fun path =>
  match d.resolve path with
  | .ok place => d.entryAt place
  | .error entry => entry

end Disk

end Flowgraph
