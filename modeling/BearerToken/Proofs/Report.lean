import BearerToken.Report
import Mathlib.Tactic.Lemma

/-!
# The printed texts

Each of the two texts is fixed but for what goes into it, so it is compared with the text of empty
strings: `usage []` and `token [] []` are the fixed parts.

* `mem_usage`, `mem_token`, `count_token` — which bytes a text holds, and how often.
* `length_usage`, `length_token` — how long a text is: the tenant counts twice and the token three
  times.
* `label_prefix_token`, `not_label_prefix_usage` — how a text begins.
* **`usage_inj`**, **`token_inj`** — a text tells what went into it.  For a report that takes the
  length of the token: nothing is quoted, so a tenant may hold whatever follows it.
-/

namespace BearerToken.Report

open Bytes (ofAscii)

lemma mem_usage {c : UInt8} {program : Bytes} :
    c ∈ usage program ↔ c ∈ usage [] ∨ c ∈ program := by
  simp only [usage, usageLines_eq, Bytes.unlines_cons, Bytes.unlines_nil, List.mem_append,
    List.mem_cons, List.not_mem_nil]
  grind

lemma count_token (c : UInt8) (tenant bearer : Bytes) :
    (token tenant bearer).count c =
      (token [] []).count c + 2 * tenant.count c + 3 * bearer.count c := by
  simp only [token, tokenLines_eq, Bytes.unlines_cons, Bytes.unlines_nil, List.count_append,
    List.count_cons, List.count_nil]
  omega

lemma mem_token {c : UInt8} {tenant bearer : Bytes} :
    c ∈ token tenant bearer ↔ c ∈ token [] [] ∨ c ∈ tenant ∨ c ∈ bearer := by
  simp only [← List.count_pos_iff]
  rw [count_token c tenant bearer]
  omega

lemma length_usage (program : Bytes) :
    (usage program).length = (usage []).length + 2 * program.length := by
  simp only [usage, usageLines_eq, Bytes.unlines_cons, Bytes.unlines_nil, List.length_append,
    List.length_cons, List.length_nil]
  omega

lemma length_token (tenant bearer : Bytes) :
    (token tenant bearer).length =
      (token [] []).length + 2 * tenant.length + 3 * bearer.length := by
  simp only [token, tokenLines_eq, Bytes.unlines_cons, Bytes.unlines_nil, List.length_append,
    List.length_cons, List.length_nil]
  omega

lemma label_prefix_token (tenant bearer : Bytes) :
    ofAscii "Tenant: " <+: token tenant bearer := by
  rw [token, tokenLines_eq, Bytes.unlines_cons, List.append_assoc]
  exact List.prefix_append _ _

lemma not_label_prefix_usage (program : Bytes) : ¬ ofAscii "Tenant: " <+: usage program := by
  rintro ⟨rest, h⟩
  rw [usage, usageLines_eq, Bytes.unlines_cons, List.append_assoc, List.append_assoc] at h
  have hhead : some 'T'.toUInt8 = some 'U'.toUInt8 := congrArg List.head? h
  exact absurd hhead (by decide)

lemma usage_ne_nil (program : Bytes) : usage program ≠ [] := by
  simp [usage, usageLines_eq]

lemma token_ne_nil (tenant bearer : Bytes) : token tenant bearer ≠ [] := by
  simp [token, tokenLines_eq]

lemma usage_ne_token (program tenant bearer : Bytes) : usage program ≠ token tenant bearer := by
  intro h
  exact not_label_prefix_usage program (h ▸ label_prefix_token tenant bearer)

/-! ## What went into a text -/

lemma exists_usage_eq (program : Bytes) :
    ∃ rest, usage program = ofAscii "Usage: " ++ (program ++ rest) := by
  refine ⟨ofAscii " <tenant> <secret>" ++ Bytes.lineFeed :: Bytes.unlines (usageLines program).tail,
    ?_⟩
  simp only [usage, usageLines_eq, Bytes.unlines_cons, List.tail_cons, List.append_assoc]

lemma exists_token_eq (tenant bearer : Bytes) :
    ∃ rest, token tenant bearer = ofAscii "Tenant: " ++ (tenant ++ Bytes.lineFeed ::
      (ofAscii "Token:  " ++ (bearer ++ Bytes.lineFeed :: rest))) := by
  refine ⟨Bytes.unlines ((tokenLines tenant bearer).drop 2), ?_⟩
  simp only [token, tokenLines_eq, Bytes.unlines_cons, List.drop_succ_cons, List.drop_zero,
    List.append_assoc]

/-- The name stands behind a fixed text, and the length of a text tells where it ends. -/
theorem usage_inj {program₁ program₂ : Bytes} :
    usage program₁ = usage program₂ ↔ program₁ = program₂ := by
  constructor
  · intro h
    have hlength : program₁.length = program₂.length := by
      have htotal := congrArg List.length h
      rw [length_usage program₁, length_usage program₂] at htotal
      omega
    obtain ⟨rest₁, h₁⟩ := exists_usage_eq program₁
    obtain ⟨rest₂, h₂⟩ := exists_usage_eq program₂
    rw [h₁, h₂] at h
    exact (List.append_inj (List.append_cancel_left h) hlength).1
  · rintro rfl
    rfl

/-- Reports with tokens of one length tell the tenant and the token, whatever bytes they hold. -/
theorem token_inj {tenant₁ tenant₂ bearer₁ bearer₂ : Bytes}
    (hbearer : bearer₁.length = bearer₂.length) :
    token tenant₁ bearer₁ = token tenant₂ bearer₂ ↔ tenant₁ = tenant₂ ∧ bearer₁ = bearer₂ := by
  constructor
  · intro h
    have htenant : tenant₁.length = tenant₂.length := by
      have htotal := congrArg List.length h
      rw [length_token tenant₁, length_token tenant₂] at htotal
      omega
    obtain ⟨rest₁, h₁⟩ := exists_token_eq tenant₁ bearer₁
    obtain ⟨rest₂, h₂⟩ := exists_token_eq tenant₂ bearer₂
    rw [h₁, h₂] at h
    -- the tenants come off first, since the tokens stand at one place only behind equal tenants
    obtain ⟨htenants, h⟩ := List.append_inj (List.append_cancel_left h) htenant
    have hbearers := List.append_cancel_left (List.cons.inj h).2
    exact ⟨htenants, (List.append_inj hbearers hbearer).1⟩
  · rintro ⟨rfl, rfl⟩
    rfl

end BearerToken.Report
