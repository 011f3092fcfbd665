import Webroot.Http.EntityTag
import Webroot.Http.MediaType
import Webroot.Http.Revalidation
import Webroot.Mount.Ranges

/-!
# Plain files

A plain file is sent with its tag. When the client's copy is still good only that is said; when
ranges are asked for they are answered; otherwise the whole file is sent. The file is opened only
when its bytes are to be sent, and the tag is set by then.
-/

namespace Webroot

open Http Text

namespace StaticFile

/-- The failure for a file that cannot be looked up or opened. -/
def lookupFailure (path : Text) : LookupError → Failure
  | .notFound => .missing path
  | _ => .inaccessible path

/-- The tag of an item. -/
def tag (i : Item) : Text := entityTag i.serial i.size i.modified.seconds

/-- The response with a whole file. -/
def setFile (response : Response) (item : Item) (source : Source) (mime : Text) : Response :=
  ((((response.setStatus 200).setField "Content-Type" mime).setField "Content-Length"
    (decimal item.size)).setField "Last-Modified" (HttpDate.format item.modified.seconds)).setBody
      (.file source 0 item.size)

/-- The answer to a request for the content of a local file. -/
def get (s : Setting) (request : Request) (response : Response) (path : Text) : Reply :=
  match s.tree.stat path with
  | .error e => ⟨.error (lookupFailure request.path e), response⟩
  | .ok item =>
    let response := response.setField "ETag" (tag item)
    if request.notModified item.modified.seconds (tag item) then
      ⟨.ok .notModified, (response.setStatus 304).setBody .empty⟩
    else if (request.field? "range").isSome then
      serveRanges s request response path item.size (mediaType path)
    else
      match Source.ofItem item with
      | .error e => ⟨.error (lookupFailure request.path e), response⟩
      | .ok source => ⟨.ok .ok, setFile response item source (mediaType path)⟩

/-- The answer to a request for a local file. -/
def serve (s : Setting) (request : Request) (response : Response) (path : Text) : Reply :=
  match request.method with
  | .get | .head => get s request response path
  | .post => ⟨.error (.notForFiles Method.post.name request.path), response⟩
  | .options =>
    ⟨.ok .ok, ((response.setStatus 200).setField "Allow" Response.fileMethods).setBody .empty⟩

end StaticFile

end Webroot
