import Piteka.Domain.Session
import Piteka.Interleaving.Fallible
import Piteka.Interleaving.Run
import Piteka.Storage.Ports

/-!
# The session authority

Issuing and authenticating signed sessions as programs over the clock and the
signer. The signer is ideal: it answers `sign` with any signature and keeps the
pair, and it accepts a signature on a message exactly if it has produced that
signature for that message. Issuing is its only caller of `sign`.
-/
namespace Piteka.Application

set_option autoImplicit false

open Piteka.Interleaving Piteka.Domain
open Piteka.Storage (Stopped)

inductive SignatureAlgorithm where
  | demoLocalV1
  deriving DecidableEq

structure Signature where
  algorithm : SignatureAlgorithm
  bytes : List UInt8
  deriving DecidableEq

structure SignedSession where
  claims : SessionClaims
  signature : Signature
  deriving DecidableEq

structure AuthenticatedSession where
  identity : Identity
  claims : SessionClaims
  deriving DecidableEq

inductive AuthError where
  | unknownSubject (user : UserId)
  | invalidSignature
  | algorithmMismatch (expected found : SignatureAlgorithm)
  | expired (expiresAtUnixSeconds nowUnixSeconds : UInt64)
  | notYetValid (issuedAtUnixSeconds nowUnixSeconds : UInt64)
  | roleMismatch (configured claimed : Role)
  | crossOrganization
  deriving DecidableEq

inductive SessionCall where
  | unixSeconds
  | sign (message : List UInt8)
  | verify (message : List UInt8) (signature : Signature)

@[reducible] def SessionCall.Answer : SessionCall → Type
  | .unixSeconds => UInt64
  | .sign _ => Signature
  | .verify _ _ => Bool

/-- The signatures that the signer has produced, each with its message. -/
abbrev Produced := List (List UInt8 × Signature)

/-- One call, with the values that the clock may show. -/
def SessionExec (shows : UInt64 → Prop) (s : Produced) :
    (op : SessionCall) → op.Answer → Produced → Prop
  | .unixSeconds, t, s' => shows t ∧ s' = s
  | .sign message, signature, s' => s' = s ++ [(message, signature)]
  | .verify message signature, accepted, s' =>
    accepted = decide ((message, signature) ∈ s) ∧ s' = s

/-- The signature is one that was produced over the message. -/
def Produced.verify (s : Produced) (message : List UInt8) (signature : Signature) : Bool :=
  decide ((message, signature) ∈ s)

abbrev SessionUse (ε α : Type) := ExceptT ε (Program SessionCall SessionCall.Answer) α

def sessionCall {ε : Type} (op : SessionCall) : SessionUse ε op.Answer :=
  ExceptT.mk (.call op fun a => .ret (.ok a))

/-- `u64::saturating_add` -/
def saturatingAdd (a b : UInt64) : UInt64 :=
  if a.toNat + b.toNat < 2 ^ 64 then a + b else UInt64.ofNat (2 ^ 64 - 1)

namespace SessionAuthority

/-- The end of `issue`: the claims are expected to be well-formed, and signed. -/
def signClaims : Except SessionError SessionClaims → SessionUse (Stopped AuthError) SignedSession
  | .error _ =>
    -- the clock stands at the last second that it can show
    throw (.panicked "directory-derived claims with a positive lifetime are well-formed")
  | .ok claims => do
    let signature ← sessionCall (.sign claims.signingBytes)
    return ⟨claims, signature⟩

def issue (directory : ConfiguredOrganization) (subject : UserId) (sessionId : SessionId)
    (lifetimeSeconds : UInt64) : SessionUse (Stopped AuthError) SignedSession :=
  match directory.member subject with
  | none => throw (.err (.unknownSubject subject))
  | some member => do
    let issuedAt ← sessionCall .unixSeconds
    let expiresAt := saturatingAdd issuedAt (max lifetimeSeconds 1)
    signClaims (SessionClaims.new sessionId member.userId member.organization member.role issuedAt
      expiresAt)

/-- The checks of `authenticate` against the directory, in the order of the source. -/
def checkMember (directory : ConfiguredOrganization) (claims : SessionClaims) :
    Except AuthError AuthenticatedSession :=
  match directory.member claims.subject with
  | none => .error (.unknownSubject claims.subject)
  | some member =>
    if member.organization ≠ claims.organization then .error .crossOrganization
    else if member.role ≠ claims.role then .error (.roleMismatch member.role claims.role)
    else .ok ⟨member, claims⟩

/-- The checks of `authenticate` once the signature has been accepted. -/
def checkClaims (directory : ConfiguredOrganization) (claims : SessionClaims) (now : UInt64) :
    Except AuthError AuthenticatedSession :=
  if claims.expiresAtUnixSeconds ≤ now then .error (.expired claims.expiresAtUnixSeconds now)
  else if now < claims.issuedAtUnixSeconds then
    .error (.notYetValid claims.issuedAtUnixSeconds now)
  else checkMember directory claims

def authenticate (algorithm : SignatureAlgorithm) (directory : ConfiguredOrganization)
    (session : SignedSession) : SessionUse AuthError AuthenticatedSession :=
  if session.signature.algorithm ≠ algorithm then
    throw (.algorithmMismatch algorithm session.signature.algorithm)
  else do
    let accepted ← sessionCall (.verify session.claims.signingBytes session.signature)
    if accepted = false then throw .invalidSignature
    else
      let now ← sessionCall .unixSeconds
      ExceptT.mk (.ret (checkClaims directory session.claims now))

end SessionAuthority

/-- One use of the authority to issue a session, with the directory bound at the time. -/
structure IssueCall where
  directory : ConfiguredOrganization
  subject : UserId
  sessionId : SessionId
  lifetimeSeconds : UInt64

abbrev IssueResult := Except (Stopped AuthError) SignedSession

def IssueCall.program (c : IssueCall) : Program SessionCall SessionCall.Answer IssueResult :=
  (SessionAuthority.issue c.directory c.subject c.sessionId c.lifetimeSeconds).run

abbrev SessionPath := List ((op : SessionCall) × op.Answer)

/-- How far an issue has come, by the calls that have been answered. -/
inductive IssuePath (c : IssueCall) :
    SessionPath → Program SessionCall SessionCall.Answer IssueResult → Prop
  | unknown : IssuePath c [] (.ret (.error (.err (.unknownSubject c.subject))))
  | start (k : _) : IssuePath c [] (.call .unixSeconds k)
  | panicked (t : UInt64) (message : String) :
      IssuePath c [⟨.unixSeconds, t⟩] (.ret (.error (.panicked message)))
  | unsigned (t : UInt64) (claims : SessionClaims) (k : _) :
      IssuePath c [⟨.unixSeconds, t⟩] (.call (.sign claims.signingBytes) k)
  | issued (t : UInt64) (member : Identity) (claims : SessionClaims) (signature : Signature)
      (hm : member ∈ c.directory.members) (hs : claims.subject = member.userId)
      (ho : claims.organization = member.organization) :
      IssuePath c [⟨.unixSeconds, t⟩, ⟨.sign claims.signingBytes, signature⟩]
        (.ret (.ok ⟨claims, signature⟩))

theorem issue_path {c : IssueCall} {h : SessionPath}
    {q : Program SessionCall SessionCall.Answer IssueResult} (hf : c.program.Follows h q) :
    IssuePath c h q := by
  unfold IssueCall.program SessionAuthority.issue at hf
  cases hm : c.directory.member c.subject with
  | none =>
    rw [hm] at hf
    obtain ⟨rfl, rfl⟩ := Program.follows_ret.mp hf
    exact .unknown
  | some member =>
    rw [hm] at hf
    rcases Program.follows_call.mp hf with ⟨rfl, rfl⟩ | ⟨t, path, rfl, hp⟩
    · exact .start _
    replace hp : (SessionAuthority.signClaims (SessionClaims.new c.sessionId member.userId
        member.organization member.role t
        (saturatingAdd t (max c.lifetimeSeconds 1)))).run.Follows path q := hp
    cases hclaims : SessionClaims.new c.sessionId member.userId member.organization member.role t
        (saturatingAdd t (max c.lifetimeSeconds 1)) with
    | error e =>
      rw [hclaims] at hp
      obtain ⟨rfl, rfl⟩ := Program.follows_ret.mp hp
      exact .panicked t _
    | ok claims =>
      rw [hclaims] at hp
      obtain ⟨hs, ho⟩ := SessionClaims.new_eq_ok hclaims
      rcases Program.follows_call.mp hp with ⟨rfl, rfl⟩ | ⟨signature, path, rfl, hr⟩
      · exact .unsigned t claims _
      · obtain ⟨rfl, rfl⟩ := Program.follows_ret.mp hr
        exact .issued t member claims signature
          (ConfiguredOrganization.member_eq_some.mp hm).1 hs ho

end Piteka.Application
