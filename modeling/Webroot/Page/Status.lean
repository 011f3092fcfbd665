import Webroot.Http.Status
import Webroot.Page.Markup
import Webroot.Text.Numeral

/-!
# Status pages

The page that stands in the body of an answer that has no content of its own: a heading with the
status and a paragraph with a note, or with the reason phrase when there is no note.
-/

namespace Webroot.Page

open Text

/-- The style sheet of a status page. -/
def statusStyle : Text :=
  "
            body \x7b
                width: 35em;
                margin: 0 auto;
                font-family: Tahoma, Verdana, Arial, sans-serif;
            \x7d
            "

/-- The body of a status page. -/
def statusBody (code : Nat) (note : Option Text) : Text :=
  let reason := Http.reasonPhrase code
  let description := (note.map escape).getD reason
  "\n            <h1>" ++ decimal code ++ " " ++ reason ++ "</h1>\n            <p>" ++ description
    ++ "</p>\n            "

/-- The page for a status code, with a note as plain text. -/
def status (code : Nat) (note : Option Text) : Text :=
  "<!DOCTYPE html>
            <html>
                <head>
                    <meta charset=\"utf-8\">
                    <title>" ++ decimal code ++ "</title>
                    <style>" ++ statusStyle ++ "</style>
                </head>
                <body>
                " ++ statusBody code note ++ "
                </body>
            </html>"

end Webroot.Page
