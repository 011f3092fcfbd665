import Webroot.Mount.Options
import Webroot.Toml.Parser

/-!
# Configuration

The host is configured by a TOML document. A document that cannot be read, or that lacks a
required setting or has one of another kind, counts as a whole for nothing: then everything is as
by default. Settings that are not known do not matter.

The options of the mount are a table, or an array of their values in order. What they do not give
is as by default.
-/

namespace Webroot

open Text

/-- The settings of the host. -/
structure Config where
  /-- The directory that is served. -/
  root : Text := "."
  port : Nat := 7878
  /-- The number of worker threads; none means one for each processor. -/
  workerThreads : Nat := 0
  /-- Whether only this machine may connect. -/
  localOnly : Bool := true
  /-- The size of the pieces in which files are sent. -/
  chunkSize : Nat := 262144
  mount : MountOptions := {}

namespace Config

open Toml (Value)

/-! ### Settings of each kind -/

/-- The text of a string. -/
def text? : Value → Option Text
  | .string t => some t
  | _ => none

/-- A truth value. -/
def bool? : Value → Option Bool
  | .boolean b => some b
  | _ => none

/-- An integer from 0 to below `bound`. -/
def below? (bound : Nat) : Value → Option Nat
  | .integer i => if 0 ≤ i ∧ i < bound then some i.toNat else none
  | _ => none

/-- A list of texts. -/
def texts? : Value → Option (List Text)
  | .array vs => vs.mapM text?
  | _ => none

/-- A setting, or what stands for it when it is missing. It is an error if the setting has another
kind. -/
def setting? (v : Option Value) (read : Value → Option α) (default : α) : Option α :=
  match v with
  | none => some default
  | some v => read v

/-! ### The options of the mount -/

/-- The options of a mount by a look-up of their values. -/
def mountOf? (get : (name : String) → (position : Nat) → Option Value) : Option MountOptions := do
  let default : MountOptions := {}
  let fancyIndexing ← setting? (get "fancy_indexing" 0) bool? default.fancyIndexing
  let directoryIndex ← setting? (get "directory_index" 1) texts? default.directoryIndex
  let acceptableLanguages ←
    setting? (get "acceptable_languages" 2) texts? default.acceptableLanguages
  let hidden ← setting? (get "nondisclosure_name" 3) texts? default.hidden
  let userDir ← setting? (get "user_dir" 4) (fun v => (text? v).map some) default.userDir
  some { fancyIndexing, directoryIndex, acceptableLanguages, hidden, userDir }

/-- The options of a mount. A date has no settings. -/
def mount? : Value → Option MountOptions
  | .table es => mountOf? fun name _ => es.lookup name.toList
  | .array vs => mountOf? fun _ position => vs[position]?
  | .datetime _ => some {}
  | _ => none

/-! ### The settings of the host -/

/-- The settings in the entries of a document. -/
def ofEntries? (es : List (Text × Value)) : Option Config := do
  let get := fun name : String => es.lookup name.toList
  let root ← (get "www_root").bind text?
  let port ← (get "port").bind (below? 0x10000)
  let workerThreads ← (get "worker_threads").bind (below? 0x10000000000000000)
  let localOnly ← (get "local").bind bool?
  let default : Config := {}
  let chunkSize ← setting? (get "chunk_size") (below? 0x10000000000000000) default.chunkSize
  let mount ← setting? (get "mount") mount? default.mount
  some { root, port, workerThreads, localOnly, chunkSize, mount }

/-- The settings in a document. -/
def ofToml? (octets : Octets) : Option Config := do
  let t ← Utf8.decode? octets
  let es ← Toml.parse? t
  ofEntries? es

/-- The settings with a number of threads and a size of pieces that work. -/
def normalize (c : Config) (processors : Nat) : Config :=
  { c with
    workerThreads := if c.workerThreads = 0 then processors else c.workerThreads
    chunkSize := if c.chunkSize = 0 then ({} : Config).chunkSize else c.chunkSize }

/-- The settings from the document in a file, if there is such a file, on a machine with a number
of processors. -/
def load (processors : Nat) (file : Option Octets) : Config :=
  ((file.bind ofToml?).getD {}).normalize processors

end Config

end Webroot
