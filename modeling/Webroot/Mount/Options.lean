import Webroot.HiddenNames
import Webroot.Mount.HandlerTable

/-!
# Mount options
-/

namespace Webroot

open Text

/-- How a mount serves its files. -/
structure MountOptions where
  /-- Whether a directory without an index file is listed. -/
  fancyIndexing : Bool := false
  /-- The names of index files, in the order in which they are tried. -/
  directoryIndex : List Text := ["index.html", "index.htm"]
  /-- The languages that files may come in. -/
  acceptableLanguages : List Text := []
  /-- The patterns of names that are neither served nor listed. -/
  hidden : HiddenNames := [".ht*", "*~"]
  /-- The directory below a user's home that is served under the user's name. -/
  userDir : Option Text := none
  handlers : HandlerTable := ∅
  directoryCallback : Option Callback := none
  fileCallback : Option Callback := none
  handlerCallback : Option Callback := none

namespace MountOptions

/-- A truth value as a text. -/
def describeBool (b : Bool) : Text := if b then "true" else "false"

/-- The options as a text. -/
def describe (o : MountOptions) : Text :=
  let fields : List (Text × Text) :=
    [("fancy_indexing", describeBool o.fancyIndexing),
     ("directory_index", quotedList o.directoryIndex),
     ("acceptable_languages", quotedList o.acceptableLanguages),
     ("nondisclosure_name", quotedList o.hidden),
     ("user_dir", match o.userDir with | none => "None" | some d => "Some(" ++ quoted d ++ ")"),
     ("handler_table", o.handlers.describe),
     ("directory_callback", describeBool o.directoryCallback.isSome),
     ("file_callback", describeBool o.fileCallback.isSome),
     ("handler_callback", describeBool o.handlerCallback.isSome)]
  "MountOptions \x7b " ++ join ", " (fields.map fun (k, v) => k ++ ": " ++ v) ++ " \x7d"

end MountOptions

end Webroot
