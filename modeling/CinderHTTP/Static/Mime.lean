import CinderHTTP.Http.Request
import CinderHTTP.Static.Path

/-!
# Media types

The table of `mime.c` and the lookup by the extension of the last path
segment.
-/

namespace CinderHTTP

def mimeTable : List (Bytes × Bytes) :=
  [(ascii "html", ascii "text/html; charset=utf-8"),
    (ascii "htm", ascii "text/html; charset=utf-8"),
    (ascii "css", ascii "text/css; charset=utf-8"),
    (ascii "js", ascii "application/javascript"),
    (ascii "json", ascii "application/json"),
    (ascii "txt", ascii "text/plain; charset=utf-8"),
    (ascii "csv", ascii "text/csv; charset=utf-8"),
    (ascii "xml", ascii "application/xml"),
    (ascii "png", ascii "image/png"),
    (ascii "jpg", ascii "image/jpeg"),
    (ascii "jpeg", ascii "image/jpeg"),
    (ascii "gif", ascii "image/gif"),
    (ascii "svg", ascii "image/svg+xml"),
    (ascii "ico", ascii "image/x-icon"),
    (ascii "webp", ascii "image/webp"),
    (ascii "pdf", ascii "application/pdf"),
    (ascii "woff", ascii "font/woff"),
    (ascii "woff2", ascii "font/woff2")]

def octetStream : Bytes := ascii "application/octet-stream"

/-- The bytes behind the last dot of the last segment, when that dot is not
the first byte of the segment. -/
def pathExtension (path : Bytes) : Option Bytes :=
  let base := path.reverse.takeWhile (· ≠ slash)
  match cutFirst dot base with
  | none => none
  | some (extension, before) =>
      if before = [] ∨ extension = [] then none else some extension.reverse

def mimeTypeFromPath (path : Bytes) : Bytes :=
  match pathExtension path with
  | none => octetStream
  | some extension =>
      match mimeTable.find? fun entry =>
          headerNameEqual extension entry.1 with
      | some entry => entry.2
      | none => octetStream

end CinderHTTP
