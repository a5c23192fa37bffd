import BearerToken.Proofs.Bytes
import BearerToken.Proofs.Report

/-!
# Reports read piecewise

A reader that goes by lines, by labels or by quotes gets the parts of a report out of it as long as
no part holds the byte by which the reader goes.  A line with the token is there for every tenant.

* `token_line_mem_lines` — the line of the token.
* `lines_token` — the lines of a report; `labelled_tenant`, `labelled_bearer` what two of them say.
* `quoted_exampleRequest_token` — the quoted strings of the example request.
* `afterFirst?_append` — what follows the first occurrence of a marker.
-/

namespace BearerToken.Report

open Bytes (ofAscii lineFeed)

variable {tenant bearer : Bytes}

/-! ## Lines -/

lemma token_line_mem_lines (tenant : Bytes) (hbearer : lineFeed ∉ bearer) :
    ofAscii "Token:  " ++ bearer ∈ Bytes.lines (token tenant bearer) := by
  have hline : lineFeed ∉ ofAscii "Token:  " ++ bearer :=
    List.not_mem_append (by decide) hbearer
  obtain ⟨rest, hrest⟩ := exists_token_eq tenant bearer
  rw [hrest, ← List.append_assoc, ← List.append_assoc (ofAscii "Token:  "),
    Bytes.lines_append_lineFeed, Bytes.lines_line_append hline]
  exact List.mem_append_right _ List.mem_cons_self

/-- Which lines hold a byte is seen from the report of empty strings, its fixed parts. -/
lemma notMem_tokenLines {c : UInt8} (hfixed : ∀ line ∈ tokenLines [] [], c ∉ line)
    (htenant : c ∉ tenant) (hbearer : c ∉ bearer) :
    ∀ line ∈ tokenLines tenant bearer, c ∉ line := by
  simp only [tokenLines_eq, List.forall_mem_cons, List.mem_append, not_or] at hfixed ⊢
  grind

lemma lineFeed_notMem_tokenLines (htenant : lineFeed ∉ tenant) (hbearer : lineFeed ∉ bearer) :
    ∀ line ∈ tokenLines tenant bearer, lineFeed ∉ line :=
  notMem_tokenLines (by decide) htenant hbearer

lemma lines_token (htenant : lineFeed ∉ tenant) (hbearer : lineFeed ∉ bearer) :
    Bytes.lines (token tenant bearer) = tokenLines tenant bearer :=
  Bytes.lines_unlines (lineFeed_notMem_tokenLines htenant hbearer)

lemma count_lineFeed_token (tenant : Bytes) (hbearer : lineFeed ∉ bearer) :
    (token tenant bearer).count lineFeed = 11 + 2 * tenant.count lineFeed := by
  have hfixed : (token [] []).count lineFeed = 11 :=
    Bytes.count_unlines (lineFeed_notMem_tokenLines List.not_mem_nil List.not_mem_nil)
  rw [count_token, hfixed, List.count_eq_zero_of_not_mem hbearer]
  rfl

lemma getLast?_token (tenant bearer : Bytes) : (token tenant bearer).getLast? = some lineFeed :=
  Bytes.getLast?_unlines_append ((tokenLines tenant bearer).take 10)
    (ofAscii "    --data-binary @" ++ payloadFile)

/-- Only the first line starts like that, even if the tenant looks like another line. -/
lemma labelled_tenant (htenant : lineFeed ∉ tenant) (hbearer : lineFeed ∉ bearer) :
    labelled (ofAscii "Tenant: ") (token tenant bearer) = [tenant] := by
  rw [labelled, lines_token htenant hbearer, tokenLines_eq]
  -- each line is compared within its fixed front, so the tenant is not looked at
  rfl

/-- Only the second line starts like that. -/
lemma labelled_bearer (htenant : lineFeed ∉ tenant) (hbearer : lineFeed ∉ bearer) :
    labelled (ofAscii "Token:  ") (token tenant bearer) = [bearer] := by
  rw [labelled, lines_token htenant hbearer, tokenLines_eq]
  rfl

/-! ## Quoted strings -/

/-- What stands between the quotes of the example request. -/
def requestPieces (tenant bearer : Bytes) : List Bytes :=
  [ofAscii "  curl -X POST ",
    serviceUrl ++ ofAscii "?tenant=" ++ tenant,
    ofAscii " \\" ++ lineFeed :: ofAscii "    -H ",
    ofAscii "Authorization: Bearer " ++ bearer,
    ofAscii " \\" ++ lineFeed :: ofAscii "    -H ",
    ofAscii "Content-Type: " ++ contentType,
    ofAscii " \\" ++ lineFeed :: ofAscii "    --data-binary @" ++ payloadFile ++ [lineFeed]]

lemma unlines_drop_tokenLines (tenant bearer : Bytes) :
    Bytes.unlines ((tokenLines tenant bearer).drop 7) =
      [doubleQuote].intercalate (requestPieces tenant bearer) := by
  have hpost : ofAscii "  curl -X POST \"" = ofAscii "  curl -X POST " ++ [doubleQuote] := rfl
  have hbearer : ofAscii "    -H \"Authorization: Bearer " =
      ofAscii "    -H " ++ doubleQuote :: ofAscii "Authorization: Bearer " := rfl
  have htype : ofAscii "    -H \"Content-Type: " =
      ofAscii "    -H " ++ doubleQuote :: ofAscii "Content-Type: " := rfl
  have hend : ofAscii "\" \\" = doubleQuote :: ofAscii " \\" := rfl
  simp [tokenLines_eq, requestPieces, List.intercalate, hpost, hbearer, htype, hend]

lemma notMem_requestPieces {c : UInt8} (hfixed : ∀ piece ∈ requestPieces [] [], c ∉ piece)
    (htenant : c ∉ tenant) (hbearer : c ∉ bearer) :
    ∀ piece ∈ requestPieces tenant bearer, c ∉ piece := by
  simp only [requestPieces, List.forall_mem_cons, List.mem_append, not_or] at hfixed ⊢
  grind

lemma quoted_exampleRequest_token (htenant : lineFeed ∉ tenant) (hbearer : lineFeed ∉ bearer)
    (hquote : doubleQuote ∉ tenant) (hquote' : doubleQuote ∉ bearer) :
    quoted (exampleRequest (token tenant bearer)) =
      [serviceUrl ++ ofAscii "?tenant=" ++ tenant,
        ofAscii "Authorization: Bearer " ++ bearer,
        ofAscii "Content-Type: " ++ contentType] := by
  have hpieces : ∀ piece ∈ requestPieces tenant bearer, doubleQuote ∉ piece :=
    notMem_requestPieces (by decide) hquote hquote'
  rw [quoted, exampleRequest, lines_token htenant hbearer, unlines_drop_tokenLines,
    List.splitOn_intercalate doubleQuote hpieces (List.cons_ne_nil _ _)]
  -- every other piece is enclosed, and there are seven
  rfl

/-! ## Markers -/

/-- A marker occurs no earlier than its first byte. -/
lemma afterFirst?_append {c : UInt8} {front : Bytes} (h : c ∉ front) (marker rest : Bytes) :
    afterFirst? (c :: marker) (front ++ (c :: marker ++ rest)) = some rest := by
  induction front with
  | nil =>
      have hhere : (c :: marker).isPrefixOf? (c :: marker ++ rest) = some rest :=
        List.isPrefixOf?_eq_some_iff_append_eq.2 rfl
      rw [List.nil_append, List.cons_append, afterFirst?, ← List.cons_append, hhere]
  | cons b front ih =>
      have hb : (c == b) = false := beq_eq_false_iff_ne.2 (List.ne_of_not_mem_cons h)
      have hnot : (c :: marker).isPrefixOf? (b :: (front ++ (c :: marker ++ rest))) = none := by
        simp [List.isPrefixOf?, hb]
      rw [List.cons_append, afterFirst?, hnot]
      exact ih (List.not_mem_of_not_mem_cons h)

lemma afterFirst?_url (tenant : Bytes) :
    afterFirst? (ofAscii "?tenant=") (serviceUrl ++ ofAscii "?tenant=" ++ tenant) = some tenant := by
  have hmark : ofAscii "?tenant=" = '?'.toUInt8 :: ofAscii "tenant=" := rfl
  rw [List.append_assoc, hmark]
  exact afterFirst?_append (by decide) _ _

end BearerToken.Report
