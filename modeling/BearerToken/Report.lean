import BearerToken.Bytes

/-!
# The texts that are printed

Two texts: the usage text, for a call with the wrong number of arguments, and the report of a token,
with an example request.  The program name, the tenant and the token go into them byte for byte:
nothing is quoted or escaped.  Each text is given as its lines, and each line as the pieces in which
it is written.

* `Report.usage`, `Report.token` — the two texts; `usagePieces`, `tokenPieces` — their pieces.
* `labelled`, `exampleRequest`, `quoted`, `afterFirst?` — what a person or a script picks out of a
  printed report without knowing its whole form: what the lines with a label say, the lines of the
  example request, the strings in double quotes, and the text behind a marker.
* `parse?` — reads a report back.  The tenant stands in it as it is, so a tenant may hold line
  feeds, quotes or a whole report, and reading from the front goes wrong.  The end is firm: behind
  the last token the text is fixed, a token without line feeds is what the last line before that
  ends with, and then the length of the text leaves one length for the tenant.
-/

namespace BearerToken.Report

open Bytes (ofAscii)

/-! ## The texts -/

/-- The address to which the example request is sent. -/
def serviceUrl : Bytes := ofAscii "http://localhost:8080/logs"

/-- The content type of the example request. -/
def contentType : Bytes := ofAscii "application/x-ndjson"

/-- The file that the example request sends. -/
def payloadFile : Bytes := ofAscii "example-log.jsonl"

/-- The lines of the usage text, in pieces. -/
def usageParts (program : Bytes) : List (List Bytes) :=
  [[ofAscii "Usage: ", program, ofAscii " <tenant> <secret>"],
    [],
    [ofAscii "Example:"],
    [ofAscii "  ", program, ofAscii " amba my-secret-key"]]

/-- The pieces of the usage text. -/
def usagePieces (program : Bytes) : List Bytes :=
  Bytes.pieces (usageParts program)

/-- The lines of the usage text. -/
def usageLines (program : Bytes) : List Bytes :=
  (usageParts program).map List.flatten

/-- **The usage text**, for a program that was called by the name `program`. -/
def usage (program : Bytes) : Bytes :=
  Bytes.unlines (usageLines program)

example : usage (ofAscii "./gen") = ofAscii
    "Usage: ./gen <tenant> <secret>\n\nExample:\n  ./gen amba my-secret-key\n" := by
  decide

/-- The lines of the report of a token, in pieces. -/
def tokenParts (tenant token : Bytes) : List (List Bytes) :=
  [[ofAscii "Tenant: ", tenant],
    [ofAscii "Token:  ", token],
    [],
    [ofAscii "Use in Authorization header:"],
    [ofAscii "  Authorization: Bearer ", token],
    [],
    [ofAscii "Example curl command:"],
    [ofAscii "  curl -X POST \"", serviceUrl, ofAscii "?tenant=", tenant, ofAscii "\" \\"],
    [ofAscii "    -H \"Authorization: Bearer ", token, ofAscii "\" \\"],
    [ofAscii "    -H \"Content-Type: ", contentType, ofAscii "\" \\"],
    [ofAscii "    --data-binary @", payloadFile]]

/-- The pieces of the report of a token. -/
def tokenPieces (tenant token : Bytes) : List Bytes :=
  Bytes.pieces (tokenParts tenant token)

/-- The lines of the report of a token. -/
def tokenLines (tenant token : Bytes) : List Bytes :=
  (tokenParts tenant token).map List.flatten

/-- **The report of a token.**  The tenant stands in it twice and the token three times. -/
def token (tenant token : Bytes) : Bytes :=
  Bytes.unlines (tokenLines tenant token)

example :
    token (ofAscii "amba")
        (ofAscii "e1b4f9129edbaa8a30f5b42917d4ffa0f8d3b4b60b72bf8f35043d671502a976") =
      ofAscii "Tenant: amba\n" ++
      ofAscii "Token:  e1b4f9129edbaa8a30f5b42917d4ffa0f8d3b4b60b72bf8f35043d671502a976\n\n" ++
      ofAscii "Use in Authorization header:\n" ++
      ofAscii "  Authorization: Bearer " ++
      ofAscii "e1b4f9129edbaa8a30f5b42917d4ffa0f8d3b4b60b72bf8f35043d671502a976\n\n" ++
      ofAscii "Example curl command:\n" ++
      ofAscii "  curl -X POST \"http://localhost:8080/logs?tenant=amba\" \\\n" ++
      ofAscii "    -H \"Authorization: Bearer " ++
      ofAscii "e1b4f9129edbaa8a30f5b42917d4ffa0f8d3b4b60b72bf8f35043d671502a976\" \\\n" ++
      ofAscii "    -H \"Content-Type: application/x-ndjson\" \\\n" ++
      ofAscii "    --data-binary @example-log.jsonl\n" := by
  decide +kernel

theorem usageLines_eq (program : Bytes) :
    usageLines program =
      [ofAscii "Usage: " ++ program ++ ofAscii " <tenant> <secret>",
        [],
        ofAscii "Example:",
        ofAscii "  " ++ program ++ ofAscii " amba my-secret-key"] := by
  simp [usageLines, usageParts]

theorem tokenLines_eq (tenant token : Bytes) :
    tokenLines tenant token =
      [ofAscii "Tenant: " ++ tenant,
        ofAscii "Token:  " ++ token,
        [],
        ofAscii "Use in Authorization header:",
        ofAscii "  Authorization: Bearer " ++ token,
        [],
        ofAscii "Example curl command:",
        ofAscii "  curl -X POST \"" ++ serviceUrl ++ ofAscii "?tenant=" ++ tenant ++
          ofAscii "\" \\",
        ofAscii "    -H \"Authorization: Bearer " ++ token ++ ofAscii "\" \\",
        ofAscii "    -H \"Content-Type: " ++ contentType ++ ofAscii "\" \\",
        ofAscii "    --data-binary @" ++ payloadFile] := by
  simp [tokenLines, tokenParts]

theorem flatten_usagePieces (program : Bytes) : (usagePieces program).flatten = usage program :=
  Bytes.flatten_pieces _

theorem flatten_tokenPieces (tenant bearer : Bytes) :
    (tokenPieces tenant bearer).flatten = token tenant bearer :=
  Bytes.flatten_pieces _

/-! ## Reading piecewise -/

/-- **What the lines with a label say**: of every line that starts with it, the text behind it. -/
def labelled (label text : Bytes) : List Bytes :=
  (Bytes.lines text).filterMap label.isPrefixOf?

/-- The byte that opens and closes a quoted string. -/
def doubleQuote : UInt8 := '"'.toUInt8

/-- The example request of a report of a tenant without line feeds: all from the eighth line on. -/
def exampleRequest (text : Bytes) : Bytes :=
  Bytes.unlines ((Bytes.lines text).drop 7)

/-- Of the pieces between the quotes of a text, those that a quote opens and another one closes:
the second, the fourth, and so on, unless it is the last. -/
def enclosed : List Bytes → List Bytes
  | _ :: inside :: outside :: pieces => inside :: enclosed (outside :: pieces)
  | _ => []

/-- **The quoted strings** of a text, in order and without their quotes. -/
def quoted (text : Bytes) : List Bytes :=
  enclosed (text.splitOn doubleQuote)

/-- **The text behind the first occurrence of a marker**, if there is one. -/
def afterFirst? (marker : Bytes) : Bytes → Option Bytes
  | [] => marker.isPrefixOf? []
  | c :: text =>
      match marker.isPrefixOf? (c :: text) with
      | some rest => some rest
      | none => afterFirst? marker text

/-! ## Reading a report back -/

/-- The fixed text in front of the last token, on its line. -/
def bearerOpening : Bytes :=
  ofAscii "    -H \"Authorization: Bearer "

/-- The fixed text behind the last token, up to the end of the report. -/
def closing : Bytes :=
  ofAscii "\" \\" ++ Bytes.lineFeed :: Bytes.unlines
    [ofAscii "    -H \"Content-Type: " ++ contentType ++ ofAscii "\" \\",
      ofAscii "    --data-binary @" ++ payloadFile]

/-- The last token of a report: it ends the last line in front of the closing. -/
def lastToken? (text : Bytes) : Option Bytes := do
  let front ← closing.isSuffixOf? text
  let line ← (front.splitOn Bytes.lineFeed).getLast?
  bearerOpening.isPrefixOf? line

/-- The length of the tenant in a report of `total` bytes with a token of `n` bytes. -/
def tenantLength (total n : Nat) : Nat :=
  (total - (token [] []).length - 3 * n) / 2

/-- **Reads a report back.**  The result is printed again and compared with the text, so a text that
is no report is refused. -/
def parse? (text : Bytes) : Option (Bytes × Bytes) := do
  let bearer ← lastToken? text
  let behindLabel := text.drop (ofAscii "Tenant: ").length
  let tenant := behindLabel.take (tenantLength text.length bearer.length)
  guard (token tenant bearer = text)
  return (tenant, bearer)

end BearerToken.Report
