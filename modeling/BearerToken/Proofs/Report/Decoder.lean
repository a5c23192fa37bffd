import BearerToken.Proofs.Bytes
import BearerToken.Proofs.Report
import Mathlib.Tactic.SplitIfs

/-!
# Reports are decodable

A reader that starts at the front of a report cannot tell where the tenant ends, and the length of
the text alone has many solutions.  `parse?` starts at the end.  Behind the last token the text is
fixed, so a token without line feeds is found there, and then the length leaves one length for the
tenant.

* `lastToken?_token` — the token is found, whatever the tenant holds.
* `tenantLength_token` — the length of the tenant.
* `parse?_eq_some_iff` — reading is the exact converse of printing.
* **`uniquely_decodable`** — the same with the case of tokens of one length, which may be any bytes.
-/

namespace BearerToken.Report

open Bytes (ofAscii lineFeed)

/-- The end of a report, from the line feed in front of the line of the last token. -/
lemma exists_token_eq_append_closing (tenant bearer : Bytes) :
    ∃ front, token tenant bearer = front ++ lineFeed :: (bearerOpening ++ bearer) ++ closing := by
  refine ⟨Bytes.unlines ((tokenLines tenant bearer).take 7) ++
    (ofAscii "  curl -X POST \"" ++ serviceUrl ++ ofAscii "?tenant=" ++ tenant ++ ofAscii "\" \\"), ?_⟩
  simp only [token, tokenLines_eq, closing, bearerOpening, List.take_succ_cons, List.take_zero,
    Bytes.unlines_cons, Bytes.unlines_nil, List.append_assoc, List.cons_append, List.nil_append]

lemma lastToken?_token (tenant : Bytes) {bearer : Bytes} (h : lineFeed ∉ bearer) :
    lastToken? (token tenant bearer) = some bearer := by
  obtain ⟨front, hfront⟩ := exists_token_eq_append_closing tenant bearer
  have hclosing : closing.isSuffixOf? (token tenant bearer) =
      some (front ++ lineFeed :: (bearerOpening ++ bearer)) :=
    List.isSuffixOf?_eq_some_iff_append_eq.2 hfront.symm
  have hline : lineFeed ∉ bearerOpening ++ bearer :=
    List.not_mem_append (by decide) h
  have hbearer : bearerOpening.isPrefixOf? (bearerOpening ++ bearer) = some bearer :=
    List.isPrefixOf?_eq_some_iff_append_eq.2 rfl
  rw [lastToken?, hclosing, Option.bind_eq_bind, Option.bind_some,
    Bytes.getLast?_splitOn_append_cons front hline, Option.bind_some, hbearer]

/-- A token that was found ends a line, so it holds no line feed. -/
lemma lineFeed_notMem_of_lastToken? {text bearer : Bytes} (h : lastToken? text = some bearer) :
    lineFeed ∉ bearer := by
  obtain ⟨front, -, h⟩ := Option.bind_eq_some_iff.1 h
  obtain ⟨line, hline, h⟩ := Option.bind_eq_some_iff.1 h
  rw [List.isPrefixOf?_eq_some_iff_append_eq] at h
  have hnotMem := Bytes.notMem_of_mem_splitOn (List.mem_of_getLast? hline)
  rw [← h] at hnotMem
  exact fun hbearer => hnotMem (List.mem_append_right _ hbearer)

lemma tenantLength_token (tenant bearer : Bytes) :
    tenantLength (token tenant bearer).length bearer.length = tenant.length := by
  rw [tenantLength, length_token tenant bearer]
  omega

lemma parse?_token (tenant : Bytes) {bearer : Bytes} (h : lineFeed ∉ bearer) :
    parse? (token tenant bearer) = some (tenant, bearer) := by
  obtain ⟨rest, hrest⟩ := exists_token_eq tenant bearer
  have htenant : ((token tenant bearer).drop (ofAscii "Tenant: ").length).take tenant.length =
      tenant := by
    rw [hrest, List.drop_left, List.take_left]
  rw [parse?, lastToken?_token tenant h, Option.bind_eq_bind, Option.bind_some,
    tenantLength_token]
  dsimp only
  rw [htenant, guard, if_pos rfl]
  rfl

lemma token_eq_of_parse? {text tenant bearer : Bytes} (h : parse? text = some (tenant, bearer)) :
    token tenant bearer = text ∧ lastToken? text = some bearer := by
  obtain ⟨bearer', hbearer, h⟩ := Option.bind_eq_some_iff.1 h
  simp only [guard] at h
  split_ifs at h with htext
  · obtain ⟨rfl, rfl⟩ := Prod.mk.inj (Option.some.inj h)
    exact ⟨htext, hbearer⟩
  · cases h

/-- **Reading is the exact converse of printing.**  What is read is what was printed, and what was
printed is read, as long as the token holds no line feed. -/
theorem parse?_eq_some_iff {text tenant bearer : Bytes} :
    parse? text = some (tenant, bearer) ↔ token tenant bearer = text ∧ lineFeed ∉ bearer := by
  constructor
  · intro h
    obtain ⟨htext, hbearer⟩ := token_eq_of_parse? h
    exact ⟨htext, lineFeed_notMem_of_lastToken? hbearer⟩
  · rintro ⟨rfl, h⟩
    exact parse?_token tenant h

/-- **Reports are uniquely decodable.**  A text is read as a tenant and a token exactly if it is
their report and the token holds no line feed; the tenant may hold anything, a whole report too.
And among tokens of one length, which may then be any bytes, two reports are equal only for one
tenant and one token. -/
theorem uniquely_decodable :
    (∀ text tenant bearer : Bytes,
      parse? text = some (tenant, bearer) ↔ token tenant bearer = text ∧ lineFeed ∉ bearer) ∧
    (∀ tenant₁ tenant₂ bearer₁ bearer₂ : Bytes, bearer₁.length = bearer₂.length →
      (token tenant₁ bearer₁ = token tenant₂ bearer₂ ↔
        tenant₁ = tenant₂ ∧ bearer₁ = bearer₂)) := by
  refine ⟨?_, ?_⟩
  · intro text tenant bearer
    exact parse?_eq_some_iff
  · intro tenant₁ tenant₂ bearer₁ bearer₂ hlength
    exact token_inj hlength

/-- A tenant that is a report itself, and tokens of line feeds. -/
theorem uniquely_decodable_nested :
    parse? (token (token (ofAscii "amba") (ofAscii "00")) (ofAscii "0f")) =
        some (token (ofAscii "amba") (ofAscii "00"), ofAscii "0f") ∧
      (ofAscii "0f").length = [lineFeed, lineFeed].length ∧
      (token [] (ofAscii "0f") = token [] [lineFeed, lineFeed] ↔
        ([] : Bytes) = [] ∧ ofAscii "0f" = [lineFeed, lineFeed]) := by
  obtain ⟨hread, hinj⟩ := uniquely_decodable
  exact ⟨(hread _ _ _).2 ⟨rfl, by decide⟩, rfl, hinj _ _ _ _ rfl⟩

end BearerToken.Report
