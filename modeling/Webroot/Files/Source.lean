import Webroot.Files.Tree

/-!
# Open files

What has been opened for reading. A regular file gives its bytes from any position on that a file
can have, those it holds among them; a directory can be opened but not read; a pipe has no
positions and nothing to read. What is locked is there all the same, but cannot be opened.
-/

namespace Webroot

/-- An open file. -/
inductive Source where
  | content (bytes : Octets)
  | directory
  | pipe
  deriving DecidableEq, Repr

/-- Why bytes cannot be read or sent. -/
inductive TransferError where
  | notSeekable
  | invalidPosition
  | isDirectory
  | truncated
  deriving DecidableEq, Repr

namespace TransferError

/-- The error in words. -/
def message : TransferError → Text
  | notSeekable => "Illegal seek (os error 29)"
  | invalidPosition => "Invalid argument (os error 22)"
  | isDirectory => "Is a directory (os error 21)"
  | truncated => "file truncated while writing byte range"

end TransferError

namespace Source

/-- The source that an item gives when it is opened. -/
def ofItem (i : Item) : Except LookupError Source :=
  match i.node with
  | .file bytes => .ok (content bytes)
  | .directory => .ok directory
  | .pipe | .link _ => .ok pipe
  | .lockedFile | .lockedDirectory => .error .denied

theorem ofItem_of_file {i : Item} {bytes : Octets} (h : i.node = .file bytes) :
    ofItem i = .ok (content bytes) := by
  rw [ofItem, h]

/-- The size of the largest file: as many blocks of 4096 bytes as 32 bits can number, less one. -/
def maxFile : Nat := 0xFFFFFFFF * 0x1000

/-- The last position of a directory. -/
def maxDirectory : Nat := 0x7FFFFFFFFFFFFFFF

/-- Why a source cannot be set to a position, if it cannot. -/
def seekError? (s : Source) (position : Nat) : Option TransferError :=
  let within := fun last => if last < position then some TransferError.invalidPosition else none
  match s with
  | content bytes => within (max maxFile bytes.length)
  | directory => within maxDirectory
  | pipe => some .notSeekable

/-- Reads up to `count` bytes from a position on; fewer when the file ends before. -/
def read (s : Source) (position count : Nat) : Except TransferError Octets :=
  match s with
  | content bytes => .ok ((bytes.drop position).take count)
  | directory => if count = 0 then .ok [] else .error .isDirectory
  | pipe => .ok []

end Source

/-- Opens what a path leads to. -/
def FileTree.source (t : FileTree) (path : Text) : Except LookupError Source :=
  (t.stat path).bind Source.ofItem

theorem FileTree.source_of_file {t : FileTree} {path : Text} {i : Item} {bytes : Octets}
    (hitem : t.stat path = .ok i) (hnode : i.node = .file bytes) :
    t.source path = .ok (.content bytes) := by
  rw [source, hitem]
  exact Source.ofItem_of_file hnode

end Webroot
