import Piteka.Application.WebhookIngestion
import Piteka.Text.Hex

/-!
# Webhook signatures

The adapter's check of `X-Hub-Signature-256`: the secret is resolved, read as
text, and keys an HMAC-SHA256 of the body, which is compared with the digits of
the header. HMAC and the reading of hexadecimal text come from crates outside the
repository and are the fields of `Crypto`.
-/
namespace Piteka.GitHub

set_option autoImplicit false

open Piteka.Domain Piteka.Text
open Piteka.Application (GitHubWebhookPayload)

structure Crypto where
  hmacSha256 : (key : ByteArray) → (message : Array UInt8) → Vector UInt8 32
  hex : Hex.Reader

structure GitHubWebhookSecret where
  asStr : String
  nonblank : trimIsEmpty asStr = false

inductive GitHubSecretError where
  | unknownReference (reference : String)
  | storeUnavailable (source : String)
  | emptySecret

inductive GitHubAppError where
  | secretResolution (error : GitHubSecretError)
  | apiError (message : String)
  | unauthorized (message : String)
  | verificationFailed
  | emptyField (field : String)

inductive WebhookSignatureResult where
  | valid
  | missingOrMalformed
  | invalid
  deriving DecidableEq

/-- The secret references that a resolver knows, each with its bytes or the failure. -/
structure GitHubSecretResolver where
  resolveWebhookSecret : GitHubWebhookSecret → Except GitHubSecretError ByteArray

/-- `signature.strip_prefix("sha256=")` -/
def stripSha256Prefix (signature : String) : Option String :=
  if "sha256=".toList.isPrefixOf signature.toList then
    some (String.ofList (signature.toList.drop "sha256=".toList.length))
  else none

/-- The loop that collects the differing bits of two digests. -/
def differingBits (computed expected : List UInt8) : UInt8 :=
  (computed.zip expected).foldl (fun diff (a, b) => diff ||| (a ^^^ b)) 0

def verifyWebhookSignatureInternal (k : Crypto) (payload : Array UInt8)
    (signature secret : String) : WebhookSignatureResult :=
  match stripSha256Prefix signature with
  | none => .missingOrMalformed
  | some expectedHex =>
    let computed := k.hmacSha256 secret.toByteArray payload
    match k.hex.read expectedHex with
    | .error _ => .missingOrMalformed
    | .ok expectedBytes =>
      if expectedBytes.length ≠ 32 then .missingOrMalformed
      else if differingBits computed.toList expectedBytes = 0 then .valid
      else .invalid

/-- `std::str::from_utf8(&secret_bytes).unwrap_or("")` -/
def secretText (secretBytes : ByteArray) : String := (String.fromUTF8? secretBytes).getD ""

def verifyWebhookSignature (k : Crypto) (resolver : GitHubSecretResolver)
    (payload : GitHubWebhookPayload) (webhookSecret : GitHubWebhookSecret) :
    Except GitHubAppError WebhookSignatureResult :=
  match resolver.resolveWebhookSecret webhookSecret with
  | .error e => .error (.secretResolution e)
  | .ok secretBytes =>
    .ok (verifyWebhookSignatureInternal k payload.body payload.signature (secretText secretBytes))

theorem stripSha256Prefix_eq_some {signature rest : String} :
    stripSha256Prefix signature = some rest ↔
      signature.toList = "sha256=".toList ++ rest.toList := by
  unfold stripSha256Prefix
  constructor
  · intro h
    split at h
    · next hp =>
      obtain ⟨tail, ht⟩ := List.isPrefixOf_iff_prefix.mp hp
      have hdrop : signature.toList.drop "sha256=".toList.length = tail := by
        rw [← ht, List.drop_left]
      rw [← Option.some.inj h, hdrop, String.toList_ofList (l := tail), ht]
    · cases h
  · intro h
    rw [if_pos (List.isPrefixOf_iff_prefix.mpr ⟨rest.toList, h.symm⟩), h, List.drop_left,
      String.ofList_toList]

/-- No bit differs exactly if the digests, of equal lengths, are equal. -/
theorem differingBits_eq_zero {computed expected : List UInt8}
    (hlen : computed.length = expected.length) :
    differingBits computed expected = 0 ↔ computed = expected := by
  have main : ∀ diff : UInt8, (computed.zip expected).foldl (fun d (a, b) => d ||| (a ^^^ b)) diff = 0 ↔
      diff = 0 ∧ computed = expected := by
    induction computed generalizing expected with
    | nil =>
      obtain rfl := List.length_eq_zero_iff.mp hlen.symm
      simp
    | cons a computed ih =>
      cases expected with
      | nil => cases hlen
      | cons b expected =>
        intro diff
        rw [List.zip_cons_cons, List.foldl_cons, ih (Nat.succ.inj hlen)]
        simp [and_assoc]
  rw [differingBits, main]
  simp

/-- A key that is not text is replaced by the empty one. -/
theorem secretText_toByteArray (secretBytes : ByteArray) :
    (secretText secretBytes).toByteArray =
      if secretBytes.IsValidUTF8 then secretBytes else .empty := by
  unfold secretText String.fromUTF8?
  split
  · rfl
  · rfl

end Piteka.GitHub
