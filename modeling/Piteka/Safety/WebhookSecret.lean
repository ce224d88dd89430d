import Piteka.GitHub.WebhookSignature

/-!
# The key of a webhook signature

The check keys its HMAC with the text of the resolved secret. For a secret that
is valid UTF-8 these are its bytes, and the check accepts exactly the headers
signed under it. Any other secret is replaced by the empty key, so a header that
anybody can compute is accepted and the right one is refused. Of HMAC only one
fact is used: a secret that is not text and the empty key sign the body differently.
-/
namespace Piteka.Safety

set_option autoImplicit false

open Piteka.GitHub Piteka.Text
open Piteka.Application (GitHubWebhookPayload)

/-- The header is the prefix and 64 digits of either case that stand for `mac`. -/
def SignedWith (mac : Vector UInt8 32) (signature : String) : Prop :=
  ∃ digits : List Char, signature.toList = "sha256=".toList ++ digits ∧ digits.length = 64 ∧
    (∀ c ∈ digits, (Hex.digit? c).isSome) ∧ Hex.decode digits = some mac.toList

/-- The header that a sender with the given digest writes. -/
def headerOf (mac : Vector UInt8 32) : String :=
  String.ofList ("sha256=".toList ++ Hex.encode mac.toList)

theorem headerOf_signed (mac : Vector UInt8 32) : SignedWith mac (headerOf mac) := by
  have hdecode := Hex.decode_encode mac.toList
  obtain ⟨hlen, hdigits⟩ := Hex.decode_shape hdecode
  refine ⟨Hex.encode mac.toList, String.toList_ofList, ?_, hdigits, hdecode⟩
  rw [hlen, Vector.length_toList]

/-- A header is signed with one digest only. -/
theorem SignedWith.unique {mac mac' : Vector UInt8 32} {signature : String}
    (h : SignedWith mac signature) (h' : SignedWith mac' signature) : mac = mac' := by
  obtain ⟨digits, hs, _, _, hd⟩ := h
  obtain ⟨digits', hs', _, _, hd'⟩ := h'
  obtain rfl := List.append_cancel_left (hs.symm.trans hs')
  exact Vector.toList_inj.mp (Option.some.inj (hd.symm.trans hd'))

/-- The check accepts exactly the headers signed under the bytes of its text. -/
theorem internal_valid_iff {k : Crypto} (hhex : k.hex.Documented) {payload : Array UInt8}
    {signature secret : String} :
    verifyWebhookSignatureInternal k payload signature secret = .valid ↔
      SignedWith (k.hmacSha256 secret.toByteArray payload) signature := by
  generalize hmac : k.hmacSha256 secret.toByteArray payload = mac
  unfold verifyWebhookSignatureInternal
  constructor
  · intro h
    split at h
    · cases h
    · next rest hstrip =>
      dsimp only at h
      split at h
      · cases h
      · next bytes hread =>
        split at h
        · cases h
        · next hlen =>
          split at h
          · next hdiff =>
            have hlen : bytes.length = 32 := not_not.mp hlen
            rw [hmac, differingBits_eq_zero (by rw [hlen, Vector.length_toList])] at hdiff
            have hdecode := (hhex rest bytes).mp hread
            obtain ⟨hdigits, hall⟩ := Hex.decode_shape hdecode
            exact ⟨rest.toList, stripSha256Prefix_eq_some.mp hstrip, by rw [hdigits, hlen], hall,
              hdiff ▸ hdecode⟩
          · cases h
  · rintro ⟨digits, hs, _, _, hdecode⟩
    have hstrip : stripSha256Prefix signature = some (String.ofList digits) :=
      stripSha256Prefix_eq_some.mpr (by rw [hs, String.toList_ofList (l := digits)])
    have hread : k.hex.read (String.ofList digits) = .ok mac.toList :=
      (hhex _ _).mpr (by rw [String.toList_ofList, hdecode])
    simp only [hstrip, hread, hmac, Vector.length_toList, ne_eq, not_true_eq_false, if_false,
      (differingBits_eq_zero rfl).mpr rfl, if_true]

/-- The adapter accepts exactly the headers signed under the key it uses. -/
theorem adapter_valid_iff {k : Crypto} (hhex : k.hex.Documented) {resolver : GitHubSecretResolver}
    {webhookSecret : GitHubWebhookSecret} {secretBytes : ByteArray}
    (hres : resolver.resolveWebhookSecret webhookSecret = .ok secretBytes)
    (payload : GitHubWebhookPayload) :
    verifyWebhookSignature k resolver payload webhookSecret = .ok .valid ↔
      SignedWith (k.hmacSha256 (if secretBytes.IsValidUTF8 then secretBytes else .empty)
        payload.body) payload.signature := by
  rw [← secretText_toByteArray, ← internal_valid_iff hhex]
  simp only [verifyWebhookSignature, hres, Except.ok.injEq]

/-- For every resolved secret and every delivery: the check accepts exactly the headers signed
under the secret if and only if the secret is valid UTF-8. -/
theorem secret_used_iff {k : Crypto} (hhex : k.hex.Documented) {resolver : GitHubSecretResolver}
    {webhookSecret : GitHubWebhookSecret} {secretBytes : ByteArray}
    (hres : resolver.resolveWebhookSecret webhookSecret = .ok secretBytes)
    (payload : GitHubWebhookPayload)
    (hinj : ¬ secretBytes.IsValidUTF8 →
      k.hmacSha256 secretBytes payload.body ≠ k.hmacSha256 .empty payload.body) :
    (∀ signature, verifyWebhookSignature k resolver { payload with signature } webhookSecret =
        .ok .valid ↔ SignedWith (k.hmacSha256 secretBytes payload.body) signature) ↔
      secretBytes.IsValidUTF8 := by
  constructor
  · intro h
    by_contra hnot
    have haccepts := (adapter_valid_iff hhex hres
      { payload with signature := headerOf (k.hmacSha256 .empty payload.body) }).mpr
        (by rw [if_neg hnot]; exact headerOf_signed _)
    exact hinj hnot (((h _).mp haccepts).unique (headerOf_signed _))
  · intro hvalid signature
    rw [adapter_valid_iff hhex hres, if_pos hvalid]

/-! ## A secret of the single byte 0xff -/

/-- HMAC-SHA256 of the empty JSON object under the empty key. -/
def emptyKeyDigest : Vector UInt8 32 :=
  #v[34, 248, 238, 169, 9, 64, 10, 249, 138, 223, 54, 129, 169, 243, 25, 35,
    239, 107, 127, 203, 164, 171, 181, 83, 217, 40, 35, 163, 233, 213, 194, 94]

/-- HMAC-SHA256 of the empty JSON object under the key 0xff. -/
def binaryKeyDigest : Vector UInt8 32 :=
  #v[218, 116, 191, 172, 168, 181, 103, 165, 167, 77, 86, 17, 151, 12, 76, 98,
    39, 169, 32, 78, 143, 54, 173, 71, 214, 103, 213, 92, 195, 74, 63, 36]

def binarySecret : ByteArray := ⟨#[0xff]⟩

def sampleCrypto : Crypto where
  hmacSha256 key message :=
    if message = #[123, 125] ∧ key.data = #[] then emptyKeyDigest
    else if message = #[123, 125] ∧ key.data = #[0xff] then binaryKeyDigest
    else Vector.replicate 32 0
  hex := .standard

def sampleResolver : GitHubSecretResolver := ⟨fun _ => .ok binarySecret⟩

def sampleWebhookSecret : GitHubWebhookSecret := ⟨"webhook", by decide⟩

def unsignedPayload (signature : String) : GitHubWebhookPayload :=
  ⟨"d-1", "ping", signature, #[123, 125]⟩

theorem binarySecret_invalid : ¬ binarySecret.IsValidUTF8 := by decide

theorem emptyKey_accepted :
    verifyWebhookSignature sampleCrypto sampleResolver (unsignedPayload (headerOf emptyKeyDigest))
        sampleWebhookSecret = .ok .valid ∧
      ¬ SignedWith (sampleCrypto.hmacSha256 binarySecret #[123, 125]) (headerOf emptyKeyDigest) := by
  constructor
  · rw [adapter_valid_iff Hex.Reader.standard_documented rfl, if_neg binarySecret_invalid]
    exact headerOf_signed emptyKeyDigest
  · intro h
    exact absurd (h.unique (headerOf_signed emptyKeyDigest)) (by decide)

theorem binarySecret_unused :
    ¬ ∀ signature, verifyWebhookSignature sampleCrypto sampleResolver (unsignedPayload signature)
        sampleWebhookSecret = .ok .valid ↔
      SignedWith (sampleCrypto.hmacSha256 binarySecret #[123, 125]) signature := by
  intro h
  exact binarySecret_invalid
    ((secret_used_iff Hex.Reader.standard_documented rfl (unsignedPayload "")
      (fun _ => by decide)).mp h)

end Piteka.Safety
