import Piteka.Safety.WebhookSecret

/-!
# The three verdicts on a signature

Every header is accepted, malformed or refused, for every body, every secret and
whatever HMAC computes: accepted when its digits stand for the digest, malformed
when they stand for no 32 bytes, and refused when they stand for other ones.
-/
namespace Piteka.Safety

set_option autoImplicit false

open Piteka.GitHub Piteka.Text

/-- Digits of either case, two for each byte. -/
def IsHex (digits : List Char) : Prop :=
  digits.length % 2 = 0 ∧ ∀ c ∈ digits, (Hex.digit? c).isSome

inductive Malformed (signature : String) : Prop
  | noPrefix (h : ∀ digits, signature.toList ≠ "sha256=".toList ++ digits)
  | notHex (digits : List Char) (h : signature.toList = "sha256=".toList ++ digits)
      (hhex : ¬ IsHex digits)
  | notOfLength (digits : List Char) (bytes : List UInt8)
      (h : signature.toList = "sha256=".toList ++ digits)
      (hdecode : Hex.decode digits = some bytes) (hlen : bytes.length ≠ 32)

variable {k : Crypto} {payload : Array UInt8} {signature secret : String}

theorem malformed_of_noPrefix (h : stripSha256Prefix signature = none) : Malformed signature := by
  refine .noPrefix fun digits hs => ?_
  have hstrip : stripSha256Prefix signature = some (String.ofList digits) :=
    stripSha256Prefix_eq_some.mpr (by rw [hs, String.toList_ofList (l := digits)])
  rw [h] at hstrip
  cases hstrip

/-- A reader that refuses a text was given no hexadecimal one. -/
theorem not_isHex_of_error (hhex : k.hex.Documented) {text message : String}
    (h : k.hex.read text = .error message) : ¬ IsHex text.toList := by
  intro hx
  obtain ⟨bytes, hbytes⟩ := Option.isSome_iff_exists.mp (Hex.decode_isSome_iff.mpr hx)
  rw [(hhex text bytes).mpr hbytes] at h
  cases h

theorem internal_malformed_iff (hhex : k.hex.Documented) :
    verifyWebhookSignatureInternal k payload signature secret = .missingOrMalformed ↔
      Malformed signature := by
  unfold verifyWebhookSignatureInternal
  cases hstrip : stripSha256Prefix signature with
  | none => exact iff_of_true rfl (malformed_of_noPrefix hstrip)
  | some rest =>
    have hs := stripSha256Prefix_eq_some.mp hstrip
    dsimp only
    cases hread : k.hex.read rest with
    | error message =>
      exact iff_of_true rfl (.notHex rest.toList hs (not_isHex_of_error hhex hread))
    | ok bytes =>
      have hdecode := (hhex rest bytes).mp hread
      by_cases hlen : bytes.length = 32
      · -- The digits stand for 32 bytes, whatever the comparison then says.
        refine iff_of_false ?_ ?_
        · dsimp only
          rw [if_neg (not_not.mpr hlen)]
          split <;> simp
        · rintro (h | ⟨digits, h, hnot⟩ | ⟨digits, other, h, hother, hne⟩)
          · exact h _ hs
          · obtain rfl := List.append_cancel_left (hs.symm.trans h)
            exact hnot (Hex.decode_isSome_iff.mp (Option.isSome_iff_exists.mpr ⟨_, hdecode⟩))
          · obtain rfl := List.append_cancel_left (hs.symm.trans h)
            rw [hdecode] at hother
            exact hne (Option.some.inj hother ▸ hlen)
      · exact iff_of_true (if_pos hlen) (.notOfLength _ bytes hs hdecode hlen)

/-- For every body, header and secret. -/
theorem signature_verdicts (hhex : k.hex.Documented) (payload : Array UInt8)
    (signature secret : String) :
    (verifyWebhookSignatureInternal k payload signature secret = .valid ↔
        SignedWith (k.hmacSha256 secret.toByteArray payload) signature) ∧
      (verifyWebhookSignatureInternal k payload signature secret = .missingOrMalformed ↔
        Malformed signature) ∧
      (verifyWebhookSignatureInternal k payload signature secret = .invalid ↔
        ¬ SignedWith (k.hmacSha256 secret.toByteArray payload) signature ∧
          ¬ Malformed signature) := by
  have hvalid : verifyWebhookSignatureInternal k payload signature secret = .valid ↔ _ :=
    internal_valid_iff hhex
  have hmalformed : verifyWebhookSignatureInternal k payload signature secret = _ ↔ _ :=
    internal_malformed_iff hhex
  refine ⟨hvalid, hmalformed, ?_⟩
  rw [← hvalid, ← hmalformed]
  cases verifyWebhookSignatureInternal k payload signature secret <;> simp

theorem signature_verdicts_refused :
    verifyWebhookSignatureInternal sampleCrypto #[123, 125] (headerOf binaryKeyDigest) "" =
        .invalid ↔
      ¬ SignedWith emptyKeyDigest (headerOf binaryKeyDigest) ∧
        ¬ Malformed (headerOf binaryKeyDigest) :=
  (signature_verdicts (k := sampleCrypto) Hex.Reader.standard_documented _ _ _).2.2

end Piteka.Safety
