import Webroot.Mount.Options

/-!
# From paths to files

The path info of a request is a list of **segments**, each with the slash before it. Resolution
walks them from a root directory on, starting with an empty segment for the root itself:

* **Check**: a segment `.` or `..`, one with a NUL, or one with a hidden name ends the walk: there
  is no such file.
* **Descend**: while the next segment leads to a directory it is walked. It moves from the path
  info to the script name and to the local path.
* **Choose**: a lone `/` in a directory asks for an index file, any other segment for a file of
  that name. Either may exist in several languages.

When all segments are walked, or a directory has no index file, the request means a directory.
-/

namespace Webroot

open Http

/-- What a request was found to mean. -/
inductive Resolved where
  | file
  | directory
  deriving DecidableEq, Repr

namespace Resolve

/-! ### Segments -/

/-- The segments of a path, each with the slash before it. What stands before the first slash is
no segment. -/
def segments (path : Text) : List Text := (path.splitOn '/').tail.map ('/' :: ·)

/-- Whether the walk must not go through a segment. -/
def refuses (hidden : HiddenNames) (segment : Text) : Bool :=
  let name := (Text.after? ['/'] segment).getD segment
  name == ['.'] || name == ['.', '.'] || name.contains '\x00' || hidden.hides name

/-! ### Files in several languages -/

/-- The languages in the order in which they are tried: what the client asks for and the mount
has, then all else that the mount has. -/
def languageOrder (acceptable requested : List Text) : List Text :=
  requested.filter (acceptable.contains ·) ++ acceptable.filter fun l => !requested.contains l

/-- The names under which a file may exist: its own, then one for each language. -/
def variants (base : Text) (languages : List Text) : List Text :=
  base :: languages.map fun l => base ++ '.' :: l

/-- The name under which a file exists in a directory. -/
def searchFile (t : FileTree) (dir base : Text) (languages : List Text) : Option Text :=
  (variants base languages).find? fun name => t.isFile (dir ++ name)

/-- The first index file of a directory. -/
def searchIndex (t : FileTree) (dir : Text) (index languages : List Text) : Option Text :=
  index.findSome? fun name => searchFile t dir ('/' :: name) languages

/-! ### The walk -/

/-- The exchange after a segment was walked: `name` joins the script name, `rest` is still to be
walked, and `path` is the local path so far. -/
def shift (x : Exchange) (name : Text) (rest : List Text) (path : Text) : Exchange :=
  { x with
    request := { x.request with
      scriptName := x.request.scriptName ++ name
      pathInfo := rest.flatten }
    response := x.response.setFilename path }

/-- Walks segments as long as they lead to directories. Gives the local path reached and the
segments left. -/
def descend (t : FileTree) (o : MountOptions) :
    List Text → (here : Text) → Exchange → Answer (Text × List Text)
  | [], here, x => ⟨.ok (here, []), x⟩
  | base :: rest, here, x =>
    if refuses o.hidden base then ⟨.error (.missing x.request.path), x⟩
    else if base = ['/'] ∨ t.isDirectory (here ++ base) = false then
      ⟨.ok (here, base :: rest), x⟩
    else
      descend t o rest (here ++ base)
        ((shift x base rest (here ++ base)).call .directory o.directoryCallback)

/-- The exchange after a file was found. -/
def found (o : MountOptions) (x : Exchange) (here name : Text) (rest : List Text) :
    Answer Resolved :=
  ⟨.ok .file, (shift x name rest (here ++ name)).call .file o.fileCallback⟩

/-- Chooses what the segments left mean in the directory reached. -/
def choose (t : FileTree) (o : MountOptions) (here : Text) (left : List Text) (x : Exchange) :
    Answer Resolved :=
  let languages := languageOrder o.acceptableLanguages x.request.acceptLanguage
  match left with
  | [] => ⟨.ok .directory, x⟩
  | base :: rest =>
    if base = ['/'] then
      match searchIndex t here o.directoryIndex languages with
      | some name => found o x here name rest
      | none => ⟨.ok .directory, shift x base rest (here ++ base)⟩
    else
      match searchFile t here base languages with
      | some name => found o x here name rest
      | none => ⟨.error (.missing x.request.path), x⟩

end Resolve

/-- Finds what the path info of a request means below a root directory. -/
def resolve (t : FileTree) (o : MountOptions) (root : Text) (x : Exchange) : Answer Resolved :=
  let x := { x with response := x.response.setFilename root }
  let walked := Resolve.descend t o ([] :: Resolve.segments x.request.pathInfo) root x
  match walked.result with
  | .error e => ⟨.error e, walked.exchange⟩
  | .ok (here, left) => Resolve.choose t o here left walked.exchange

end Webroot
