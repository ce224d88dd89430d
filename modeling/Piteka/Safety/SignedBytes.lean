import Piteka.Feed.Exports

/-!
# Signed bytes that are told apart

A signature over the bytes of an export, or over those of session claims, is a
signature over its fields: fixed widths and length prefixes let the bytes be read
back from the left, and the tag before an optional text says whether it is there.
-/
namespace Piteka.Safety

set_option autoImplicit false

open Piteka.Storage Piteka.Application Piteka.Feed Piteka.Domain Piteka.Text.Framing

/-! ## Feed exports -/

/-- The text is shorter than its length prefix can say. -/
def ShortText (value : String) : Prop := (asBytes value).size < 2 ^ 32

instance (value : String) : Decidable (ShortText value) :=
  inferInstanceAs (Decidable (_ < _))

theorem putText_append_inj {a b : String} {x y : List UInt8} (ha : ShortText a) (hb : ShortText b)
    (h : Feed.putText a ++ x = Feed.putText b ++ y) : a = b ∧ x = y := by
  obtain ⟨hbytes, hrest⟩ := framed_append_inj ha hb h
  exact ⟨asBytes_injective (Array.toList_inj.mp hbytes), hrest⟩

theorem putOptional_append_inj {a b : Option String} {x y : List UInt8}
    (ha : ∀ value ∈ a, ShortText value) (hb : ∀ value ∈ b, ShortText value)
    (h : putOptional a ++ x = putOptional b ++ y) : a = b ∧ x = y := by
  cases a with
  | none =>
    cases b with
    | none => exact ⟨rfl, (List.cons.inj h).2⟩
    | some b => exact absurd (List.cons.inj h).1 (by decide)
  | some a =>
    cases b with
    | none => exact absurd (List.cons.inj h).1 (by decide)
    | some b =>
      obtain ⟨hab, hrest⟩ := putText_append_inj (ha a rfl) (hb b rfl) (List.cons.inj h).2
      exact ⟨congrArg some hab, hrest⟩

theorem putU64_append_inj {m n : UInt64} {x y : List UInt8} (h : putU64 m ++ x = putU64 n ++ y) :
    m = n ∧ x = y := by
  obtain ⟨hnum, hrest⟩ := bigEndian_append_inj (w := 8) m.toNat_lt n.toNat_lt h
  exact ⟨UInt64.toNat_inj.mp hnum, hrest⟩

/-- The texts of the export are shorter than 2^32 bytes. -/
structure ShortTexts (e : Feed.SignedPitekaExport) : Prop where
  exportId : ShortText e.exportId
  supersedes : ∀ value ∈ e.supersedesExportId, ShortText value
  tenantId : ShortText e.tenantId

/-- The signed bytes of an export determine everything in it but the key id and the signature. -/
theorem feed_signature_unambiguous {e f : Feed.SignedPitekaExport} (he : ShortTexts e)
    (hf : ShortTexts f) (h : e.signingBytes = f.signingBytes) :
    e.schemaVersion = f.schemaVersion ∧ e.sequence = f.sequence ∧ e.exportId = f.exportId ∧
      e.revision = f.revision ∧ e.supersedesExportId = f.supersedesExportId ∧
      e.tenantId = f.tenantId ∧ e.emittedAt = f.emittedAt ∧ e.payloadSha256 = f.payloadSha256 ∧
      e.payload = f.payload := by
  have h := List.append_cancel_left h
  obtain ⟨hschema, h⟩ := bigEndian_append_inj (w := 2) e.schemaVersion.toNat_lt
    f.schemaVersion.toNat_lt h
  obtain ⟨hsequence, h⟩ := putU64_append_inj h
  obtain ⟨hid, h⟩ := putText_append_inj he.exportId hf.exportId h
  obtain ⟨hrevision, h⟩ := bigEndian_append_inj (w := 4) e.revision.toNat_lt f.revision.toNat_lt h
  obtain ⟨hsupersedes, h⟩ := putOptional_append_inj he.supersedes hf.supersedes h
  obtain ⟨htenant, h⟩ := putText_append_inj he.tenantId hf.tenantId h
  obtain ⟨hemitted, h⟩ := putU64_append_inj h
  obtain ⟨hdigest, h⟩ := List.append_inj h (by rw [Vector.length_toList, Vector.length_toList])
  obtain ⟨_, hpayload⟩ := List.append_inj h (by rw [bigEndian_length, bigEndian_length])
  exact ⟨UInt16.toNat_inj.mp hschema, hsequence, hid, UInt32.toNat_inj.mp hrevision, hsupersedes,
    htenant, hemitted, Vector.toList_inj.mp hdigest, Array.toList_inj.mp hpayload⟩

/-- An export that names the one it supersedes. -/
def supersedingExport (signingKeyId : String) : Feed.SignedPitekaExport where
  schemaVersion := 1
  sequence := 2
  exportId := "r-b"
  revision := 1
  supersedesExportId := some "r-a"
  tenantId := "tenant"
  emittedAt := 8
  payload := #[1, 2]
  payloadSha256 := #v[161, 40, 113, 254, 226, 16, 251, 134, 25, 41, 30, 174, 161, 148, 88, 28,
    189, 37, 49, 228, 178, 55, 89, 210, 37, 246, 128, 105, 35, 246, 50, 34]
  signingKeyId := signingKeyId
  signature := #[]

theorem superseding_short (signingKeyId : String) : ShortTexts (supersedingExport signingKeyId) where
  exportId := by
    show ShortText "r-b"
    decide
  supersedes := by
    intro value hvalue
    obtain rfl := Option.some.inj hvalue
    decide
  tenantId := by
    show ShortText "tenant"
    decide

theorem feed_signature_unambiguous_sample :
    (supersedingExport "old").schemaVersion = (supersedingExport "new").schemaVersion ∧
      (supersedingExport "old").sequence = (supersedingExport "new").sequence ∧
      (supersedingExport "old").exportId = (supersedingExport "new").exportId ∧
      (supersedingExport "old").revision = (supersedingExport "new").revision ∧
      (supersedingExport "old").supersedesExportId = (supersedingExport "new").supersedesExportId ∧
      (supersedingExport "old").tenantId = (supersedingExport "new").tenantId ∧
      (supersedingExport "old").emittedAt = (supersedingExport "new").emittedAt ∧
      (supersedingExport "old").payloadSha256 = (supersedingExport "new").payloadSha256 ∧
      (supersedingExport "old").payload = (supersedingExport "new").payload :=
  feed_signature_unambiguous (superseding_short "old") (superseding_short "new") rfl

/-! ## Session claims -/

/-- Claims that the constructor accepts have bytes of their own: with the same signed bytes they
were made from the same arguments. -/
theorem accepted_claims_distinct {sessionId sessionId' : SessionId} {subject subject' : UserId}
    {organization organization' : OrganizationId} {role role' : Role}
    {issuedAt issuedAt' expiresAt expiresAt' : UInt64} {c d : SessionClaims}
    (hc : SessionClaims.new sessionId subject organization role issuedAt expiresAt = .ok c)
    (hd : SessionClaims.new sessionId' subject' organization' role' issuedAt' expiresAt' = .ok d)
    (hs : ShortText subject.asStr) (ho : ShortText organization.asStr)
    (hs' : ShortText subject'.asStr) (ho' : ShortText organization'.asStr)
    (h : c.signingBytes = d.signingBytes) :
    sessionId = sessionId' ∧ subject = subject' ∧ organization = organization' ∧ role = role' ∧
      issuedAt = issuedAt' ∧ expiresAt = expiresAt' := by
  obtain ⟨rfl, rfl, rfl, rfl, rfl, rfl⟩ := SessionClaims.new_fields hc
  obtain ⟨rfl, rfl, rfl, rfl, rfl, rfl⟩ := SessionClaims.new_fields hd
  have hcd : c = d := SessionClaims.signingBytes_inj ⟨hs, ho⟩ ⟨hs', ho'⟩ h
  subst hcd
  exact ⟨rfl, rfl, rfl, rfl, rfl, rfl⟩

/-- A subject and an organization of one letter each, in a session of an approver. -/
def sampleSession : Except SessionError SessionClaims :=
  SessionClaims.new ⟨Vector.replicate 16 1⟩ ⟨"a", by decide⟩ ⟨"b", by decide⟩ .approver 100 200

theorem accepted_claims_distinct_sample : ∃ c, sampleSession = .ok c ∧
    c.subject = c.subject ∧ c.organization = c.organization ∧ c.role = c.role := by
  refine ⟨_, rfl, ?_⟩
  obtain ⟨_, hs, ho, hr, _, _⟩ := accepted_claims_distinct (c := _) (d := _) (rfl : sampleSession = _)
    (rfl : sampleSession = _) (by decide) (by decide) (by decide) (by decide) rfl
  exact ⟨hs, ho, hr⟩

end Piteka.Safety
