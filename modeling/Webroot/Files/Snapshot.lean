import Webroot.Files.Tree

/-!
# Trees of given files

The tree that holds files with given paths and contents, and the directories on the way to them.
All of it counts as changed at one moment.
-/

namespace Webroot.FileTree

/-- The places on the way to a place, from the root on and without the place itself. -/
def placesAbove (p : Place) : List Place := (List.range p.length).map fun n => p.take n

/-- The nodes of files with their contents, and of the directories on the way to them. -/
def nodesOf (files : List (Place × Octets)) : List (Place × Node) :=
  (files.map fun (p, content) => (p, .file content)) ++
    (files.flatMap fun (p, _) => placesAbove p).eraseDups.map fun p => (p, .directory)

/-- The tree that holds the files with these paths, seen from the root. -/
def ofFiles (modified : Instant) (files : List (Text × Octets)) : FileTree :=
  let nodes := nodesOf (files.map fun (path, content) =>
    ((Path.components path).map Utf8.encode, content))
  ⟨nodes.zipIdx.map fun ((p, node), serial) => (p, { node, serial, modified })⟩

end Webroot.FileTree
