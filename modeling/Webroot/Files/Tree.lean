import Webroot.Files.Path
import Webroot.Text.Utf8
import Webroot.Time.Instant

/-!
# File trees

A **file tree** gives every place below the root its item: a file, a directory, a pipe, or a link
to another path. A place is the list of names that leads to it through directories alone. Names are
octets: most of them are those of a text, but any octets other than a slash or a NUL may be a name.
Looking up a path follows it name by name:

* **Names**: every name but the last must lead to a directory, and so must the last one when a
  slash follows it. A name is at most 255 octets long.
* **Links**: a link is replaced by its target, at most 40 times on one path.
* **`.` and `..`** stay and go up; the root is its own parent.
-/

namespace Webroot

/-- What stands at a place of a file tree. -/
inductive Node where
  | file (content : Octets)
  /-- A regular file that nobody here may open. -/
  | lockedFile
  | directory
  /-- A directory that may be passed, but not opened to read the names in it. -/
  | lockedDirectory
  /-- A first-in-first-out pipe: it has no positions. -/
  | pipe
  | link (target : Octets)
  deriving DecidableEq, Repr

/-- A node with its serial number and the time of its last change. -/
structure Item where
  node : Node
  serial : Nat
  modified : Instant
  /-- The size that is on record for a node without bytes to count. -/
  extent : Nat := 0
  deriving DecidableEq, Repr

namespace Item

/-- The number of bytes of a file; for other nodes the size on record. -/
def size (i : Item) : Nat :=
  match i.node with
  | .file content => content.length
  | _ => i.extent

/-- Whether the item is a directory. -/
def isDirectory (i : Item) : Bool :=
  match i.node with
  | .directory | .lockedDirectory => true
  | _ => false

/-- Whether the item is a regular file. -/
def isFile (i : Item) : Bool :=
  match i.node with
  | .file _ | .lockedFile => true
  | _ => false

variable {i : Item} {content : Octets}

theorem size_of_file (h : i.node = .file content) : i.size = content.length := by rw [size, h]

theorem isFile_of_file (h : i.node = .file content) : i.isFile = true := by rw [isFile, h]

theorem isFile_iff :
    i.isFile = true ↔ (∃ content, i.node = .file content) ∨ i.node = .lockedFile := by
  rw [isFile]
  cases i.node <;> simp

/-- What is a directory is no file. -/
theorem isFile_eq_false (h : i.isDirectory = true) : i.isFile = false := by
  rw [isDirectory] at h
  rw [isFile]
  cases hnode : i.node <;> simp_all

end Item

/-- A place: the names that lead to it from the root. -/
abbrev Place := List Octets

/-- The items of a file tree by their places. The first item listed for a place counts. -/
structure FileTree where
  items : List (Place × Item)
  deriving Repr

/-- Why a path leads nowhere, or what it leads to cannot be opened. -/
inductive LookupError where
  | notFound
  | notDirectory
  | tooManyLinks
  | nameTooLong
  | invalidPath
  | denied
  deriving DecidableEq, Repr

namespace FileTree

/-- The item at a place. The root is there even if it is not listed. -/
def item? (t : FileTree) (p : Place) : Option Item :=
  match t.items.lookup p with
  | some i => some i
  | none => if p.isEmpty then some { node := .directory, serial := 0, modified := ⟨0, 0⟩ } else none

/-- The names in a directory, in the order of the items. -/
def names (t : FileTree) (dir : Place) : List Octets :=
  t.items.filterMap fun (p, _) => if p.dropLast = dir then p.getLast? else none

/-! ### Following paths -/

/-- The most links that are followed on one path. -/
def maxLinks : Nat := 40

/-- The most octets of a name. -/
def maxName : Nat := 255

/-- A path is shorter than this many octets. -/
def maxPath : Nat := 4096

/-- The octet of a slash. -/
def slash : UInt8 := 0x2F

/-- The name of a directory in itself. -/
def dot : Octets := [0x2E]

/-- The name of the directory above a directory. -/
def dots : Octets := [0x2E, 0x2E]

/-- The steps of a path: its names, with `.` for a slash at the end. -/
def steps (path : Octets) : List Octets :=
  let names := (path.splitOn slash).filter fun c => !c.isEmpty
  if path.getLast? == some slash then names ++ [dot] else names

/-- Where steps lead before the next link. -/
inductive Walk where
  | arrived (place : Place) (item : Item)
  /-- A link in the directory `dir`, and the steps after it. -/
  | link (dir : Place) (target : Octets) (rest : List Octets)
  | lost (error : LookupError)
  deriving Repr

/-- Takes steps from a place up to the next link. -/
def walk (t : FileTree) (here : Place) (item : Item) : List Octets → Walk
  | [] => .arrived here item
  | name :: rest =>
    if !item.isDirectory then .lost .notDirectory
    else if name = dot then t.walk here item rest
    else if name = dots then
      match t.item? here.dropLast with
      | some up => t.walk here.dropLast up rest
      | none => .lost .notFound
    else if maxName < name.length then .lost .nameTooLong
    else
      match t.item? (here ++ [name]) with
      | none => .lost .notFound
      | some next =>
        match next.node with
        | .link target => .link here target rest
        | _ => t.walk (here ++ [name]) next rest

/-- Follows steps from a directory through at most `links` links. -/
def follow (t : FileTree) :
    (links : Nat) → Place → List Octets → Except LookupError (Place × Item)
  | links, here, steps =>
    match t.item? here with
    | none => .error .notFound
    | some item =>
      match t.walk here item steps with
      | .arrived place item => .ok (place, item)
      | .lost e => .error e
      | .link dir target rest =>
        match links with
        | 0 => .error .tooManyLinks
        | links + 1 =>
          t.follow links (if target.head? == some slash then [] else dir)
            (FileTree.steps target ++ rest)

/-- The place and the item that an absolute path leads to. -/
def locate (t : FileTree) (path : Octets) : Except LookupError (Place × Item) :=
  if path.isEmpty then .error .notFound
  else if path.contains 0 then .error .invalidPath
  else if maxPath ≤ path.length then .error .nameTooLong
  else t.follow maxLinks [] (steps path)

/-- The item that a path leads to. -/
def find (t : FileTree) (path : Octets) : Except LookupError Item := (t.locate path).map (·.2)

/-- The item that a path leads to which is a text. -/
def stat (t : FileTree) (path : Text) : Except LookupError Item := t.find (Utf8.encode path)

/-- Whether a path leads to a directory. -/
def isDirectory (t : FileTree) (path : Text) : Bool :=
  match t.stat path with
  | .ok i => i.isDirectory
  | .error _ => false

/-- Whether a path leads to a regular file. -/
def isFile (t : FileTree) (path : Text) : Bool :=
  match t.stat path with
  | .ok i => i.isFile
  | .error _ => false

theorem isFile_iff {t : FileTree} {path : Text} :
    t.isFile path = true ↔ ∃ i, t.stat path = .ok i ∧ i.isFile = true := by
  unfold isFile
  cases t.stat path with
  | error e => simp
  | ok i => simp

/-- The names in the directory that a path leads to, if it may be opened. -/
def list? (t : FileTree) (path : Text) : Option (List Octets) :=
  match t.locate (Utf8.encode path) with
  | .ok (place, i) => if i.node = .directory then some (t.names place) else none
  | .error _ => none

end FileTree

end Webroot
