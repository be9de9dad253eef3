import SignalScript.Text.Utf8
import SignalScript.Text.Utf16

/-!
# Encodings of script files

A script file is UTF-8 unless it opens with a UTF-16 byte order mark. The mark itself is no part
of the text. Bytes that do not decode become replacement characters, so a stray character of an
old encoding spoils nothing but itself.

A file is read line by line. What is stored is cut behind every line feed, which is one byte in
UTF-8 and one unit in UTF-16, and each line is decoded by itself.

## Main definitions

* `Encoding.ofBytes` — the encoding of a file, with the bytes behind its byte order mark
* `cutBehind` — the parts of a list that is cut behind every mark
* `sourceLines` — the lines of a script file
-/

namespace SignalScript

/-- How the text of a file is stored. -/
inductive Encoding
  | utf8
  | utf16 (order : Utf16.ByteOrder)
  deriving DecidableEq, Repr

namespace Encoding

/-- The encoding that the byte order mark names, and the bytes behind the mark. -/
def ofBytes : List UInt8 → Encoding × List UInt8
  | 0xEF :: 0xBB :: 0xBF :: rest => (.utf8, rest)
  | 0xFF :: 0xFE :: rest => (.utf16 .littleEndian, rest)
  | 0xFE :: 0xFF :: rest => (.utf16 .bigEndian, rest)
  | bytes => (.utf8, bytes)

end Encoding

/-- The parts of a list that is cut behind every `mark`: each part but the last ends with one, and
no part is empty. -/
def cutBehind {α : Type} [DecidableEq α] (mark : α) : List α → List (List α)
  | [] => []
  | a :: rest =>
    if a = mark then [a] :: cutBehind mark rest
    else
      match cutBehind mark rest with
      | [] => [[a]]
      | part :: later => (a :: part) :: later

/-- The lines stored in bytes of a given encoding, with the line feeds that end them. -/
def Encoding.decodeLines : Encoding → List UInt8 → List Text
  | .utf8, bytes => (cutBehind 10 bytes).map Utf8.decodeLossy
  | .utf16 order, bytes => (cutBehind 10 (Utf16.units order bytes)).map Utf16.decodeLossy

/-- The lines of a script file, with the line feeds that end them. -/
def sourceLines (bytes : List UInt8) : List Text :=
  let (encoding, stored) := Encoding.ofBytes bytes
  encoding.decodeLines stored

end SignalScript
