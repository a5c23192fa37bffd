import BearerToken.Proofs.CommandLine.Outcome
import BearerToken.Proofs.Token.Collision

/-!
# Secrets on the command line

Two calls are compared by all that can be seen of them: the status and the texts on both streams.
The secret is seen through the tag alone.  A call that does not get as far as the tag shows nothing
of it, and neither the program's name nor the length of the secret shows in a report.

An argument from the system ends before its first zero byte, and zero bytes at the end are all that
a key block loses of a secret that fits into it.  So the printed tokens of two such secrets are as
different as the hash can make them, although the token function itself mixes some secrets up.

* `execute_eq_of_outcome_eq` — a call is determined by its outcome, so the statements about two
  calls are statements about two outcomes.
* `length_out_execute` — the size of what is written, by the length of the tenant alone.
* **`execute_noninterference`** — the calls that cannot be told apart.
* `Reports` — a command that prints the report of a token and nothing else.
* **`invoke_secrets`** — two secrets for one tenant.
-/

namespace BearerToken.CommandLine

open Bytes (ofAscii)
open Hmac.Standard (keyBlock outerMessage)
open Sha256.Standard (Collision)

variable {engine engine₁ engine₂ : Engine}

/-! ## Calls that cannot be told apart -/

lemma execute_eq_of_outcome_eq {args₁ args₂ : List Bytes}
    (h : outcome engine₁ args₁ = outcome engine₂ args₂) :
    execute engine₁ args₁ = execute engine₂ args₂ := by
  refine StateT.ext fun before => ?_
  rw [run_execute, run_execute, h]

lemma outcome_eq_of_programName_eq (engine₁ engine₂ : Engine) {args₁ args₂ : List Bytes}
    (h₁ : args₁.length ≠ 3) (h₂ : args₂.length ≠ 3) (h : programName args₁ = programName args₂) :
    outcome engine₁ args₁ = outcome engine₂ args₂ := by
  rw [outcome_of_length_ne engine₁ h₁, outcome_of_length_ne engine₂ h₂, h]

lemma outcome_eq_of_isFailure {program₁ program₂ tenant₁ tenant₂ secret₁ secret₂ : Bytes}
    (h₁ : (engine₁.reply secret₁ tenant₁).IsFailure)
    (h₂ : (engine₂.reply secret₂ tenant₂).IsFailure) :
    outcome engine₁ [program₁, tenant₁, secret₁] =
      outcome engine₂ [program₂, tenant₂, secret₂] := by
  rw [outcome_of_isFailure h₁, outcome_of_isFailure h₂]

lemma outcome_eq_of_holds (program₁ program₂ : Bytes) {tenant secret₁ secret₂ tag : Bytes}
    (h₁ : (engine₁.reply secret₁ tenant).Holds tag)
    (h₂ : (engine₂.reply secret₂ tenant).Holds tag) :
    outcome engine₁ [program₁, tenant, secret₁] = outcome engine₂ [program₂, tenant, secret₂] := by
  rw [outcome_of_holds h₁, outcome_of_holds h₂]

/-- The label is the first piece of a report, so it is what a width fills. -/
lemma length_out_execute {tenant secret : Bytes} (h : (engine.reply secret tenant).IsTag)
    (program : Bytes) (before : Console) :
    ((execute engine [program, tenant, secret]).run before).2.out.length =
      before.out.length + (before.outFormat.width - (ofAscii "Tenant: ").length +
        ((Report.token [] []).length + 2 * tenant.length + 3 * Token.length)) := by
  obtain ⟨tag, htag⟩ := Reply.exists_holds_of_isTag h
  have htoken : (Hex.ofBytes tag).length = Token.length := by
    rw [Hex.length_ofBytes, htag.length_eq]
    rfl
  obtain ⟨pieces, hpieces⟩ : ∃ pieces,
      Report.tokenPieces tenant (Hex.ofBytes tag) = ofAscii "Tenant: " :: pieces := ⟨_, rfl⟩
  have hflatten := Report.flatten_tokenPieces tenant (Hex.ofBytes tag)
  rw [run_execute, outcome_of_holds htag, Console.receive, Outcome.outPieces, List.length_append]
  rw [hpieces, Format.length_written_cons, ← hpieces, hflatten, Report.length_token, htoken]

/-- **The secret flows to the outputs only through the tag.**  Calls that are equal as computations
return the same status and append the same texts to both streams, whatever stands there.

With a wrong number of arguments only the displayed name of the program matters, and the engine does
not.  With an engine that fails nothing matters at all.  Engines that reply with one tag to two
secrets give the tenant one report, whatever the secrets are and whatever follows the tag in the
buffers, and the program's name does not appear in it; in particular a sound engine does, for two
secrets with one tag.  And the size of the report tells no more than the length of the tenant. -/
theorem execute_noninterference :
    (∀ (engine₁ engine₂ : Engine) (args₁ args₂ : List Bytes),
      args₁.length ≠ 3 → args₂.length ≠ 3 → programName args₁ = programName args₂ →
        execute engine₁ args₁ = execute engine₂ args₂) ∧
    (∀ (engine₁ engine₂ : Engine) (program₁ program₂ tenant₁ tenant₂ secret₁ secret₂ : Bytes),
      (engine₁.reply secret₁ tenant₁).IsFailure → (engine₂.reply secret₂ tenant₂).IsFailure →
        execute engine₁ [program₁, tenant₁, secret₁] =
          execute engine₂ [program₂, tenant₂, secret₂]) ∧
    (∀ (engine₁ engine₂ : Engine) (program₁ program₂ tenant secret₁ secret₂ tag : Bytes),
      (engine₁.reply secret₁ tenant).Holds tag → (engine₂.reply secret₂ tenant).Holds tag →
        execute engine₁ [program₁, tenant, secret₁] =
          execute engine₂ [program₂, tenant, secret₂]) ∧
    (∀ engine : Engine, engine.IsSound → ∀ program₁ program₂ tenant secret₁ secret₂ : Bytes,
      secret₁.length < Engine.keyLimit → secret₂.length < Engine.keyLimit →
      Hmac.Standard.tag secret₁ tenant = Hmac.Standard.tag secret₂ tenant →
        execute engine [program₁, tenant, secret₁] =
          execute engine [program₂, tenant, secret₂]) ∧
    (∀ (engine₁ engine₂ : Engine) (program₁ program₂ tenant₁ tenant₂ secret₁ secret₂ : Bytes),
      (engine₁.reply secret₁ tenant₁).IsTag → (engine₂.reply secret₂ tenant₂).IsTag →
      tenant₁.length = tenant₂.length → ∀ before : Console,
        ((execute engine₁ [program₁, tenant₁, secret₁]).run before).2.out.length =
          ((execute engine₂ [program₂, tenant₂, secret₂]).run before).2.out.length) := by
  refine ⟨?_, ?_, ?_, ?_, ?_⟩
  · intro engine₁ engine₂ args₁ args₂ h₁ h₂ hname
    exact execute_eq_of_outcome_eq (outcome_eq_of_programName_eq engine₁ engine₂ h₁ h₂ hname)
  · intro engine₁ engine₂ program₁ program₂ tenant₁ tenant₂ secret₁ secret₂ h₁ h₂
    exact execute_eq_of_outcome_eq (outcome_eq_of_isFailure h₁ h₂)
  · intro engine₁ engine₂ program₁ program₂ tenant secret₁ secret₂ tag h₁ h₂
    exact execute_eq_of_outcome_eq (outcome_eq_of_holds program₁ program₂ h₁ h₂)
  · intro engine hsound program₁ program₂ tenant secret₁ secret₂ h₁ h₂ htag
    have htag₂ := hsound.holds_reply h₂ tenant
    rw [← htag] at htag₂
    exact execute_eq_of_outcome_eq
      (outcome_eq_of_holds program₁ program₂ (hsound.holds_reply h₁ tenant) htag₂)
  · intro engine₁ engine₂ program₁ program₂ tenant₁ tenant₂ secret₁ secret₂ h₁ h₂ hlength before
    rw [length_out_execute h₁, length_out_execute h₂, hlength]

/-- A secret that was passed in a call with too many arguments, two engines that fail in different
ways, the secret `k` with and without a zero byte behind it, and two tenants of one length. -/
theorem execute_noninterference_amba :
    (([] : List Bytes).length ≠ 3 ∧
      [fallbackName, ofAscii "amba", ofAscii "my-secret-key", ofAscii "extra"].length ≠ 3 ∧
      programName [] =
        programName [fallbackName, ofAscii "amba", ofAscii "my-secret-key", ofAscii "extra"] ∧
      execute Engine.refusing [] =
        execute Engine.hmacSha256
          [fallbackName, ofAscii "amba", ofAscii "my-secret-key", ofAscii "extra"]) ∧
    (((Engine.hmacSha256.reporting 31).reply (ofAscii "k") (ofAscii "amba")).IsFailure ∧
      (Engine.refusing.reply (ofAscii "my-secret-key") []).IsFailure ∧
      execute (Engine.hmacSha256.reporting 31) [fallbackName, ofAscii "amba", ofAscii "k"] =
        execute Engine.refusing [[], [], ofAscii "my-secret-key"]) ∧
    (∃ tag : Bytes,
      (Engine.hmacSha256.reply (ofAscii "k") (ofAscii "amba")).Holds tag ∧
      ((Engine.hmacSha256.reporting 32).reply (ofAscii "k" ++ [0]) (ofAscii "amba")).Holds tag ∧
      execute Engine.hmacSha256 [fallbackName, ofAscii "amba", ofAscii "k"] =
        execute (Engine.hmacSha256.reporting 32) [[], ofAscii "amba", ofAscii "k" ++ [0]]) ∧
    (Engine.hmacSha256.IsSound ∧ (ofAscii "k").length < Engine.keyLimit ∧
      (ofAscii "k" ++ [0]).length < Engine.keyLimit ∧
      Hmac.Standard.tag (ofAscii "k") (ofAscii "amba") =
        Hmac.Standard.tag (ofAscii "k" ++ [0]) (ofAscii "amba") ∧
      execute Engine.hmacSha256 [fallbackName, ofAscii "amba", ofAscii "k"] =
        execute Engine.hmacSha256 [[], ofAscii "amba", ofAscii "k" ++ [0]]) ∧
    ((Engine.hmacSha256.reply (ofAscii "k") (ofAscii "amba")).IsTag ∧
      (Engine.hmacSha256.reply (ofAscii "kk") (ofAscii "abma")).IsTag ∧
      (ofAscii "amba").length = (ofAscii "abma").length ∧
      ((execute Engine.hmacSha256 [[], ofAscii "amba", ofAscii "k"]).run {}).2.out.length =
        ((execute Engine.hmacSha256 [[], ofAscii "abma", ofAscii "kk"]).run {}).2.out.length) := by
  have htag : Hmac.Standard.tag (ofAscii "k") (ofAscii "amba") =
      Hmac.Standard.tag (ofAscii "k" ++ [0]) (ofAscii "amba") :=
    (Hmac.Standard.tag_eq_tag_iff_of_message _ _ _).2
      (Or.inl (Hmac.Standard.keyBlock_append_zeros (n := 1) (by decide)).symm)
  have hsound := Engine.hmacSha256_isSound
  have hk := hsound.holds_reply (by decide : (ofAscii "k").length < _) (ofAscii "amba")
  have hk0 := hsound.holds_reply (by decide : (ofAscii "k" ++ [0]).length < _) (ofAscii "amba")
  rw [← htag] at hk0
  have hkk := hsound.holds_reply (by decide : (ofAscii "kk").length < _) (ofAscii "abma")
  obtain ⟨husage, hfailure, hsuccess, hsecrets, hlength⟩ := execute_noninterference
  have hshort : ((Engine.hmacSha256.reporting 31).reply (ofAscii "k") (ofAscii "amba")).IsFailure :=
    Or.inr (by decide)
  have hrefused : (Engine.refusing.reply (ofAscii "my-secret-key") []).IsFailure := Or.inl rfl
  refine ⟨⟨by decide, by decide, rfl, ?_⟩, ⟨hshort, hrefused, ?_⟩, ⟨_, hk, hk0, ?_⟩,
    ⟨hsound, by decide, by decide, htag, ?_⟩, hk.isTag, hkk.isTag, by decide, ?_⟩
  · exact husage _ _ _ _ (by decide) (by decide) rfl
  · exact hfailure _ _ _ _ _ _ _ _ hshort hrefused
  · exact hsuccess _ _ _ _ _ _ _ _ hk hk0
  · exact hsecrets _ hsound _ _ _ _ _ (by decide) (by decide) htag
  · exact hlength _ _ _ _ _ _ _ _ hk.isTag hkk.isTag (by decide) {}

/-! ## Secrets from the system -/

/-- The command succeeds and appends the report of a tenant and a token to the output, whatever
stands on the streams. -/
def Reports (command : ConsoleM ExitStatus) (tenant token : Bytes) : Prop :=
  ∀ before : Console, before.IsPlain →
    command.run before =
      (.success, { before with out := before.out ++ Report.token tenant token })

lemma reports_invoke (hsound : engine.IsSound) (program tenant secret : Argument)
    (hsecret : secret.bytes.length < Engine.keyLimit) :
    Reports (invoke engine [program, tenant, secret]) tenant.bytes
      (Hex.ofBytes (Hmac.Standard.tag secret.bytes tenant.bytes)) := by
  intro before hplain
  exact run_execute_of_holds (hsound.holds_reply hsecret tenant.bytes) program.bytes hplain

/-- **Two secrets for one tenant.**  What reaches the command of a string that a caller passes is
`Argument.ofBytes` of it.  If the tenants arrive equal and the secrets arrive different, and both
fit into a block, then the key blocks are different, and the two printed tokens, which are those of
what arrived, are equal only through a collision of the outer hash. -/
theorem invoke_secrets (hsound : engine.IsSound)
    {program₁ program₂ tenant₁ tenant₂ secret₁ secret₂ : Bytes}
    (htenant : (Argument.ofBytes tenant₁).bytes = (Argument.ofBytes tenant₂).bytes)
    (hsecret : (Argument.ofBytes secret₁).bytes ≠ (Argument.ofBytes secret₂).bytes)
    (h₁ : (Argument.ofBytes secret₁).bytes.length ≤ 64)
    (h₂ : (Argument.ofBytes secret₂).bytes.length ≤ 64) :
    keyBlock (Argument.ofBytes secret₁).bytes ≠ keyBlock (Argument.ofBytes secret₂).bytes ∧
      ∃ token₁ token₂ : Bytes,
        Token.generate engine (Argument.ofBytes tenant₁).bytes (Argument.ofBytes secret₁).bytes =
          .ok token₁ ∧
        Token.generate engine (Argument.ofBytes tenant₂).bytes (Argument.ofBytes secret₂).bytes =
          .ok token₂ ∧
        Reports (invoke engine ([program₁, tenant₁, secret₁].map Argument.ofBytes))
          (Argument.ofBytes tenant₁).bytes token₁ ∧
        Reports (invoke engine ([program₂, tenant₂, secret₂].map Argument.ofBytes))
          (Argument.ofBytes tenant₂).bytes token₂ ∧
        (token₁ = token₂ ↔
          Collision
            (outerMessage (Argument.ofBytes secret₁).bytes (Argument.ofBytes tenant₁).bytes)
            (outerMessage (Argument.ofBytes secret₂).bytes (Argument.ofBytes tenant₂).bytes)) := by
  have hblocks : keyBlock (Argument.ofBytes secret₁).bytes ≠
      keyBlock (Argument.ofBytes secret₂).bytes := by
    intro h
    exact hsecret (Hmac.Standard.eq_of_keyBlock_eq h₁ h₂ (Argument.ofBytes secret₁).zero_notMem
      (Argument.ofBytes secret₂).zero_notMem h)
  have hlimit : 64 < Engine.keyLimit := by decide
  have hlimit₁ := Nat.lt_of_le_of_lt h₁ hlimit
  have hlimit₂ := Nat.lt_of_le_of_lt h₂ hlimit
  refine ⟨hblocks, _, _, Token.generate_of_isSound hsound _ hlimit₁,
    Token.generate_of_isSound hsound _ hlimit₂, reports_invoke hsound _ _ _ hlimit₁,
    reports_invoke hsound _ _ _ hlimit₂, ?_⟩
  rw [Hex.ofBytes_inj, ← htenant, Hmac.Standard.tag_eq_tag_iff_of_message]
  exact or_iff_right hblocks

/-- The secret `k`, passed with a zero byte and more behind it, and the secret `kk`. -/
theorem invoke_secrets_amba :
    (Engine.hmacSha256.IsSound ∧
      (Argument.ofBytes (ofAscii "amba")).bytes =
        (Argument.ofBytes (ofAscii "amba" ++ [0])).bytes ∧
      (Argument.ofBytes (ofAscii "k" ++ [0, 0x6b])).bytes ≠
        (Argument.ofBytes (ofAscii "kk")).bytes ∧
      (Argument.ofBytes (ofAscii "k" ++ [0, 0x6b])).bytes.length ≤ 64 ∧
      (Argument.ofBytes (ofAscii "kk")).bytes.length ≤ 64) ∧
    keyBlock (Argument.ofBytes (ofAscii "k" ++ [0, 0x6b])).bytes ≠
        keyBlock (Argument.ofBytes (ofAscii "kk")).bytes ∧
      ∃ token₁ token₂ : Bytes,
        Token.generate Engine.hmacSha256 (Argument.ofBytes (ofAscii "amba")).bytes
          (Argument.ofBytes (ofAscii "k" ++ [0, 0x6b])).bytes = .ok token₁ ∧
        Token.generate Engine.hmacSha256 (Argument.ofBytes (ofAscii "amba" ++ [0])).bytes
          (Argument.ofBytes (ofAscii "kk")).bytes = .ok token₂ ∧
        Reports (invoke Engine.hmacSha256
            ([fallbackName, ofAscii "amba", ofAscii "k" ++ [0, 0x6b]].map Argument.ofBytes))
          (Argument.ofBytes (ofAscii "amba")).bytes token₁ ∧
        Reports (invoke Engine.hmacSha256
            ([[], ofAscii "amba" ++ [0], ofAscii "kk"].map Argument.ofBytes))
          (Argument.ofBytes (ofAscii "amba" ++ [0])).bytes token₂ ∧
        (token₁ = token₂ ↔
          Collision
            (outerMessage (Argument.ofBytes (ofAscii "k" ++ [0, 0x6b])).bytes
              (Argument.ofBytes (ofAscii "amba")).bytes)
            (outerMessage (Argument.ofBytes (ofAscii "kk")).bytes
              (Argument.ofBytes (ofAscii "amba" ++ [0])).bytes)) :=
  ⟨⟨Engine.hmacSha256_isSound, by decide⟩,
    invoke_secrets Engine.hmacSha256_isSound (by decide) (by decide) (by decide) (by decide)⟩

end BearerToken.CommandLine
