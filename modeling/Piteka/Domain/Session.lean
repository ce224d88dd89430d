import Piteka.Domain.Organization
import Piteka.Text.Framing

/-!
# Session claims

The signed content of a session and the bytes that a signer commits to. Claims
carry what their constructor checks, so any claims, also those that arrive from
outside, name a subject and an organization and have a window that ends after it
begins. Claims with identifiers below 2^32 bytes are determined by their bytes.
-/
namespace Piteka.Domain

set_option autoImplicit false

open Piteka.Text.Framing

/-- `b"piteka-demo-session-v1"` -/
def sessionDomainTag : List UInt8 := "piteka-demo-session-v1".toUTF8.data.toList

inductive SessionError where
  | emptyField (field : String)
  | nonPositiveLifetime (issuedAtUnixSeconds expiresAtUnixSeconds : UInt64)
  deriving DecidableEq

/-- A unique session identifier (anti-replay nonce). -/
structure SessionId where
  bytes : Vector UInt8 16
  deriving DecidableEq

structure SessionClaims where
  sessionId : SessionId
  subject : UserId
  organization : OrganizationId
  role : Role
  issuedAtUnixSeconds : UInt64
  expiresAtUnixSeconds : UInt64
  subjectNonempty : subject.asStr ≠ ""
  organizationNonempty : organization.asStr ≠ ""
  positiveLifetime : issuedAtUnixSeconds < expiresAtUnixSeconds
  deriving DecidableEq

namespace SessionClaims

def new (sessionId : SessionId) (subject : UserId) (organization : OrganizationId) (role : Role)
    (issuedAtUnixSeconds expiresAtUnixSeconds : UInt64) : Except SessionError SessionClaims :=
  if hs : subject.asStr = "" then .error (.emptyField "subject")
  else if ho : organization.asStr = "" then .error (.emptyField "organization")
  else if hw : expiresAtUnixSeconds ≤ issuedAtUnixSeconds then
    .error (.nonPositiveLifetime issuedAtUnixSeconds expiresAtUnixSeconds)
  else .ok ⟨sessionId, subject, organization, role, issuedAtUnixSeconds, expiresAtUnixSeconds,
    hs, ho, UInt64.not_le.mp hw⟩

def utf8 (value : String) : List UInt8 := value.toUTF8.data.toList

def u64 (n : UInt64) : List UInt8 := bigEndian 8 n.toNat

/-- The exact bytes a signer commits to. -/
def signingBytes (c : SessionClaims) : List UInt8 :=
  framed sessionDomainTag ++ (c.sessionId.bytes.toList ++ (framed (utf8 c.subject.asStr) ++
    (framed (utf8 c.organization.asStr) ++ ([c.role.tag] ++
      (u64 c.issuedAtUnixSeconds ++ u64 c.expiresAtUnixSeconds)))))

/-- Both identifiers are shorter than their length prefix can say. -/
structure Short (c : SessionClaims) : Prop where
  subject : (utf8 c.subject.asStr).length < 2 ^ 32
  organization : (utf8 c.organization.asStr).length < 2 ^ 32

/-- Accepted claims are made of what the constructor was given. -/
theorem new_fields {sessionId : SessionId} {subject : UserId} {organization : OrganizationId}
    {role : Role} {issuedAt expiresAt : UInt64} {c : SessionClaims}
    (h : new sessionId subject organization role issuedAt expiresAt = .ok c) :
    c.sessionId = sessionId ∧ c.subject = subject ∧ c.organization = organization ∧
      c.role = role ∧ c.issuedAtUnixSeconds = issuedAt ∧ c.expiresAtUnixSeconds = expiresAt := by
  unfold new at h
  split at h
  · cases h
  · split at h
    · cases h
    · split at h
      · cases h
      · cases h
        exact ⟨rfl, rfl, rfl, rfl, rfl, rfl⟩

theorem new_eq_ok {sessionId : SessionId} {subject : UserId} {organization : OrganizationId}
    {role : Role} {issuedAt expiresAt : UInt64} {c : SessionClaims}
    (h : new sessionId subject organization role issuedAt expiresAt = .ok c) :
    c.subject = subject ∧ c.organization = organization :=
  ⟨(new_fields h).2.1, (new_fields h).2.2.1⟩

theorem utf8_inj {a b : String} (h : utf8 a = utf8 b) : a = b := by
  have hdata : a.toUTF8.data = b.toUTF8.data := Array.toList_inj.mp h
  have hbytes : a.toByteArray = b.toByteArray := ByteArray.ext hdata
  exact String.toByteArray_inj.mp hbytes

theorem u64_append_inj {m n : UInt64} {x y : List UInt8} (h : u64 m ++ x = u64 n ++ y) :
    m = n ∧ x = y := by
  obtain ⟨hnum, hrest⟩ := bigEndian_append_inj (w := 8) m.toNat_lt n.toNat_lt h
  exact ⟨UInt64.toNat_inj.mp hnum, hrest⟩

/-- Distinct claims never collide. -/
theorem signingBytes_inj {c d : SessionClaims} (hc : c.Short) (hd : d.Short)
    (h : c.signingBytes = d.signingBytes) : c = d := by
  have htag : sessionDomainTag.length < 2 ^ 32 := by decide
  obtain ⟨_, h⟩ := framed_append_inj htag htag h
  obtain ⟨hid, h⟩ := List.append_inj h (by simp)
  obtain ⟨hsubject, h⟩ := framed_append_inj hc.subject hd.subject h
  obtain ⟨horg, h⟩ := framed_append_inj hc.organization hd.organization h
  obtain ⟨hrole, h⟩ := List.append_inj h rfl
  obtain ⟨hissued, h⟩ := u64_append_inj h
  have hexpires := (u64_append_inj (x := []) (y := []) (by simpa only [List.append_nil] using h)).1
  obtain ⟨⟨id⟩, ⟨s, hs⟩, ⟨o, ho⟩, r, i, e, _, _, _⟩ := c
  obtain ⟨⟨id'⟩, ⟨s', hs'⟩, ⟨o', ho'⟩, r', i', e', _, _, _⟩ := d
  obtain rfl := Vector.toList_inj.mp hid
  obtain rfl := utf8_inj hsubject
  obtain rfl := utf8_inj horg
  obtain rfl := Role.tag_inj (List.singleton_inj.mp hrole)
  obtain rfl := hissued
  obtain rfl := hexpires
  rfl

end SessionClaims

end Piteka.Domain
