import Webroot.Text.WordChar

/-!
# Suffixes and media types

The **primary suffix** of a name is the word after its last dot, and the **secondary suffix** the
word between its last two dots, both in lower case. After the last dot of a name with a secondary
suffix hyphens may stand too, so that `page.html.en-us` has the secondary suffix `html` and no
primary one. The media type of a name is that of its primary suffix, else that of its secondary
suffix, else the type of plain octets.
-/

namespace Webroot.Http

open Text

/-- Takes the characters in `p` off the end of a name, given in reverse, if there are any and a
dot stands before them. Gives the characters taken and the rest before the dot, in reverse. -/
def takeSuffix? (p : Char → Bool) (reversed : Text) : Option (Text × Text) :=
  match reversed.takeWhile p, reversed.dropWhile p with
  | c :: w, '.' :: rest => some ((c :: w).reverse, rest)
  | _, _ => none

/-- Whether a character may stand after the last dot of a name with a secondary suffix. -/
def isTagChar (c : Char) : Bool := isWordChar c || c == '-'

/-- The word after the last dot of a name, in lower case. -/
def primarySuffix? (name : Text) : Option Text :=
  (takeSuffix? isWordChar name.reverse).map fun (w, _) => lower w

/-- The word between the last two dots of a name, in lower case. -/
def secondarySuffix? (name : Text) : Option Text :=
  (takeSuffix? isTagChar name.reverse).bind fun (_, rest) =>
    (takeSuffix? isWordChar rest).map fun (w, _) => lower w

/-- The suffixes of a name that choose its handler and its media type. -/
def suffixes (name : Text) : List Text :=
  (primarySuffix? name).toList ++ (secondarySuffix? name).toList

/-- The known suffixes with their media types. -/
def mediaTypeNames : List (String × String) :=
  [("html", "text/html"), ("htm", "text/html"), ("xhtml", "application/xhtml+xml"),
   ("css", "text/css"), ("txt", "text/plain"), ("text", "text/plain"), ("csv", "text/csv"),
   ("xml", "text/xml"), ("rtf", "application/rtf"), ("md", "text/markdown"),
   ("js", "text/javascript"), ("mjs", "text/javascript"), ("json", "application/json"),
   ("wasm", "application/wasm"),
   ("png", "image/png"), ("jpg", "image/jpeg"), ("jpeg", "image/jpeg"), ("jpe", "image/jpeg"),
   ("gif", "image/gif"), ("bmp", "image/bmp"), ("ico", "image/x-icon"),
   ("svg", "image/svg+xml"), ("tif", "image/tiff"), ("tiff", "image/tiff"),
   ("webp", "image/webp"),
   ("mp3", "audio/mpeg"), ("wav", "audio/wav"), ("ogg", "audio/ogg"), ("mp4", "video/mp4"),
   ("mpeg", "video/mpeg"), ("mpg", "video/mpeg"), ("mov", "video/quicktime"),
   ("webm", "video/webm"), ("avi", "video/x-msvideo"),
   ("woff", "font/woff"), ("woff2", "font/woff2"), ("ttf", "font/ttf"), ("otf", "font/otf"),
   ("pdf", "application/pdf"), ("ps", "application/postscript"), ("zip", "application/zip"),
   ("gz", "application/gzip"), ("tar", "application/x-tar"), ("bz2", "application/x-bzip2"),
   ("7z", "application/x-7z-compressed"), ("bin", "application/octet-stream"),
   ("exe", "application/octet-stream")]

/-- The media types by suffix. -/
def mediaTypes : List (Text × Text) := mediaTypeNames.map fun (s, m) => (s, m)

/-- The media type of files about which nothing is known. -/
def octetStream : Text := "application/octet-stream"

/-- The media type of a file name. -/
def mediaType (name : Text) : Text :=
  ((suffixes name).findSome? fun s => mediaTypes.lookup s).getD octetStream

end Webroot.Http
