import BearerToken.Proofs.CommandLine.Outcome
import BearerToken.Proofs.Report.Reader

/-!
# What the output stream tells

The usage text and the report repeat bytes that the caller chose, and these may be a whole report,
or look like the end of one.  The output alone still tells how a call ended.  The three ways are
told apart by how their texts begin, where nothing that the caller chose stands yet, and within one
way the text tells what went into it, since all tokens have one length.

Whoever goes by the lines or the quotes of a report gets the token that a service accepts, if the
engine replied with the tag.  The digits of a token hold neither line feeds nor quotes, so it is the
tenant alone that can spoil the reading.

* `Ends.length_token` — the length of all tokens, whatever the engine.
* `Ends.eq_of_out_eq` — two outcomes with one text on the output stream.
* **`out_execute_eq_iff`** — two calls with one text on the output stream.
* **`read_execute_of_holds`** — what the readers of a report get.
-/

namespace BearerToken.CommandLine

open Bytes (ofAscii lineFeed)
open Report (labelled quoted exampleRequest afterFirst? doubleQuote)

/-! ## The output alone -/

lemma Ends.length_token {engine : Engine} {args : List Bytes} {tenant token : Bytes}
    (h : Ends engine args (.success tenant token)) : token.length = Token.length := by
  cases h with
  | success hreply htoken => exact (Token.wellFormed_of_generate htoken).1

/-- Outcomes that calls can have are told apart by the text on the output stream. -/
lemma Ends.eq_of_out_eq {engine₁ engine₂ : Engine} {args₁ args₂ : List Bytes} :
    ∀ {o₁ o₂ : Outcome}, Ends engine₁ args₁ o₁ → Ends engine₂ args₂ o₂ → o₁.out = o₂.out → o₁ = o₂
  | .usage _, .usage _, _, _, h => congrArg Outcome.usage (Report.usage_inj.1 h)
  | .failure .computationFailed, .failure .computationFailed, _, _, _ => rfl
  | .success _ _, .success _ _, h₁, h₂, h => by
      have hlength := h₁.length_token.trans h₂.length_token.symm
      obtain ⟨htenant, htoken⟩ := (Report.token_inj hlength).1 h
      rw [htenant, htoken]
  | .usage program, .failure _, _, _, h => absurd h (Report.usage_ne_nil program)
  | .failure _, .usage program, _, _, h => absurd h.symm (Report.usage_ne_nil program)
  | .success tenant token, .failure _, _, _, h => absurd h (Report.token_ne_nil tenant token)
  | .failure _, .success tenant token, _, _, h => absurd h.symm (Report.token_ne_nil tenant token)
  | .usage program, .success tenant token, _, _, h =>
      absurd h (Report.usage_ne_token program tenant token)
  | .success tenant token, .usage program, _, _, h =>
      absurd h.symm (Report.usage_ne_token program tenant token)

/-- **The output alone tells what happened.**  Two calls on fresh streams, with any arguments and
any engines, write one text to the output stream exactly if there is one way in which both end: both
with the usage text for one displayed name, both with a failure, or both with the report of one
tenant and one token.  Both then return the status of that way and write its texts to both
streams. -/
theorem out_execute_eq_iff (engine₁ engine₂ : Engine) (args₁ args₂ : List Bytes) :
    ((execute engine₁ args₁).run {}).2.out = ((execute engine₂ args₂).run {}).2.out ↔
      ∃ o : Outcome, Ends engine₁ args₁ o ∧ Ends engine₂ args₂ o ∧
        (execute engine₁ args₁).run {} = (o.status, { out := o.out, err := o.err }) ∧
        (execute engine₂ args₂).run {} = (o.status, { out := o.out, err := o.err }) := by
  have hrun (engine : Engine) (args : List Bytes) :
      (execute engine args).run {} = ((outcome engine args).status,
        { out := (outcome engine args).out, err := (outcome engine args).err }) :=
    run_execute_of_isPlain engine args Console.isPlain_fresh
  constructor
  · intro h
    have hends₁ : Ends engine₁ args₁ (outcome engine₁ args₁) := ends_iff.2 rfl
    have hends₂ : Ends engine₂ args₂ (outcome engine₂ args₂) := ends_iff.2 rfl
    rw [hrun, hrun] at h
    -- the texts are those of two outcomes that calls can have, so the outcomes are one
    have ho := hends₁.eq_of_out_eq hends₂ h
    refine ⟨outcome engine₁ args₁, hends₁, ho ▸ hends₂, hrun engine₁ args₁, ?_⟩
    rw [hrun, ho]
  · rintro ⟨o, -, -, h₁, h₂⟩
    rw [h₁, h₂]

/-! ## Reading the report of a call -/

/-- **What readers get out of a call** with a tenant and a secret, where the engine replies with the
tag of the tenant under the secret, be anything behind it.

The output has a line that gives the token, for every tenant; it ends with a line feed, and it has
eleven of them and two for each one in the tenant.  Without line feeds in the tenant it has eleven
lines, of which the first alone is labelled as the tenant's and the second alone as the token's,
and they say what they are labelled for.  If there is no double quote in the tenant either, the
example request has three quoted strings: an address, from which the tenant is read behind the
marker of the query, the header with the token, and the content type; and a service that holds the
secret accepts the token of that header for the tenant of that address. -/
theorem read_execute_of_holds {engine : Engine} {tenant secret : Bytes}
    (htag : (engine.reply secret tenant).Holds (Hmac.Standard.tag secret tenant))
    (program : Bytes) :
    ∃ bearer text : Bytes,
      Token.generate engine tenant secret = .ok bearer ∧
      (∀ before : Console, before.IsPlain →
        (execute engine [program, tenant, secret]).run before =
          (.success, { before with out := before.out ++ text })) ∧
      ofAscii "Token:  " ++ bearer ∈ Bytes.lines text ∧
      text.count lineFeed = 11 + 2 * tenant.count lineFeed ∧
      text.getLast? = some lineFeed ∧
      (lineFeed ∉ tenant →
        (Bytes.lines text).length = 11 ∧
        (Bytes.lines text)[0]? = some (ofAscii "Tenant: " ++ tenant) ∧
        labelled (ofAscii "Tenant: ") text = [tenant] ∧
        (Bytes.lines text)[1]? = some (ofAscii "Token:  " ++ bearer) ∧
        labelled (ofAscii "Token:  ") text = [bearer] ∧
        (doubleQuote ∉ tenant →
          ∃ url : Bytes,
            quoted (exampleRequest text) =
              [url, ofAscii "Authorization: Bearer " ++ bearer,
                ofAscii "Content-Type: application/x-ndjson"] ∧
            afterFirst? (ofAscii "?tenant=") url = some tenant ∧
            Token.accepts secret tenant bearer)) := by
  have hfeed : lineFeed ∉ Hex.ofBytes (Hmac.Standard.tag secret tenant) :=
    Hex.notMem_ofBytes (by decide) _
  have hquote : doubleQuote ∉ Hex.ofBytes (Hmac.Standard.tag secret tenant) :=
    Hex.notMem_ofBytes (by decide) _
  refine ⟨_, _, Reply.hexTag_of_holds htag, fun before => run_execute_of_holds htag program,
    Report.token_line_mem_lines tenant hfeed, Report.count_lineFeed_token tenant hfeed,
    Report.getLast?_token tenant _, ?_⟩
  intro htenant
  have hlines := (Report.lines_token htenant hfeed).trans (Report.tokenLines_eq tenant _)
  refine ⟨congrArg List.length hlines, congrArg (·[0]?) hlines,
    Report.labelled_tenant htenant hfeed, congrArg (·[1]?) hlines,
    Report.labelled_bearer htenant hfeed, ?_⟩
  intro htenant'
  exact ⟨_, Report.quoted_exampleRequest_token htenant hfeed htenant' hquote,
    Report.afterFirst?_url tenant, (Token.accepts_iff _ _ _).2 rfl⟩

/-- A tenant that looks like the line of a token. -/
theorem read_execute_of_holds_label :
    (Engine.hmacSha256.reply (ofAscii "k") (ofAscii "Token:  00")).Holds
        (Hmac.Standard.tag (ofAscii "k") (ofAscii "Token:  00")) ∧
    lineFeed ∉ ofAscii "Token:  00" ∧ doubleQuote ∉ ofAscii "Token:  00" ∧
    ∃ bearer text : Bytes,
      Token.generate Engine.hmacSha256 (ofAscii "Token:  00") (ofAscii "k") = .ok bearer ∧
      (execute Engine.hmacSha256 [fallbackName, ofAscii "Token:  00", ofAscii "k"]).run {} =
        (.success, { out := text, err := [] }) ∧
      labelled (ofAscii "Token:  ") text = [bearer] ∧
      ∃ url : Bytes,
        quoted (exampleRequest text) =
          [url, ofAscii "Authorization: Bearer " ++ bearer,
            ofAscii "Content-Type: application/x-ndjson"] ∧
        afterFirst? (ofAscii "?tenant=") url = some (ofAscii "Token:  00") ∧
        Token.accepts (ofAscii "k") (ofAscii "Token:  00") bearer := by
  have htag := Engine.hmacSha256_isSound.holds_reply
    (by decide : (ofAscii "k").length < Engine.keyLimit) (ofAscii "Token:  00")
  have hfeed : lineFeed ∉ ofAscii "Token:  00" := by decide
  have hquote : doubleQuote ∉ ofAscii "Token:  00" := by decide
  obtain ⟨bearer, text, hbearer, hrun, -, -, -, hread⟩ := read_execute_of_holds htag fallbackName
  obtain ⟨-, -, -, -, hlabelled, hrequest⟩ := hread hfeed
  exact ⟨htag, hfeed, hquote, bearer, text, hbearer, hrun {} Console.isPlain_fresh, hlabelled,
    hrequest hquote⟩

end BearerToken.CommandLine
