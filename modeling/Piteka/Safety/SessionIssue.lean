import Piteka.Safety.SessionIntegrity

/-!
# Issued windows

The lifetime is at least one second and the end of the window saturates, so the window
is empty at one reading of the clock: the last one, where the claims are refused and
the authority panics.
-/
namespace Piteka.Safety

set_option autoImplicit false

open Piteka.Interleaving Piteka.Domain Piteka.Application
open Piteka.Storage (Stopped)

/-- The last second that the clock can show. -/
def lastSecond : UInt64 := UInt64.ofNat (2 ^ 64 - 1)

/-- A session was issued to the member at `t`, with a window that is not empty and no longer than
the lifetime asked for, or a second. -/
structure IssuedTo (member : Identity) (t lifetimeSeconds : UInt64) (session : SignedSession) :
    Prop where
  subject : session.claims.subject = member.userId
  organization : session.claims.organization = member.organization
  role : session.claims.role = member.role
  issuedAt : session.claims.issuedAtUnixSeconds = t
  nonempty : session.claims.issuedAtUnixSeconds < session.claims.expiresAtUnixSeconds
  bounded : session.claims.expiresAtUnixSeconds.toNat - session.claims.issuedAtUnixSeconds.toNat ≤
    max lifetimeSeconds.toNat 1

theorem saturatingAdd_toNat (a b : UInt64) :
    (saturatingAdd a b).toNat = min (a.toNat + b.toNat) (2 ^ 64 - 1) := by
  unfold saturatingAdd
  split
  · next h =>
    rw [UInt64.toNat_add, Nat.mod_eq_of_lt h]
    omega
  · next h =>
    have hlast : (UInt64.ofNat (2 ^ 64 - 1)).toNat = 2 ^ 64 - 1 := by decide
    rw [hlast]
    omega

theorem max_toNat (a b : UInt64) : (max a b).toNat = max a.toNat b.toNat := by
  rw [UInt64.max_def]
  split
  · next h => exact (max_eq_right (UInt64.le_iff_toNat_le.mp h)).symm
  · next h =>
    rw [UInt64.le_iff_toNat_le, Nat.not_le] at h
    exact (max_eq_left (Nat.le_of_lt h)).symm

theorem ne_lastSecond_iff {t : UInt64} : t ≠ lastSecond ↔ t.toNat < 2 ^ 64 - 1 := by
  have ht : t.toNat < 2 ^ 64 := t.toNat_lt
  have hlast : lastSecond.toNat = 2 ^ 64 - 1 := by decide
  rw [ne_eq, ← UInt64.toNat_inj, hlast]
  omega

/-- The window of a lifetime is empty exactly at the last second. -/
theorem window_iff {t lifetimeSeconds : UInt64} :
    t < saturatingAdd t (max lifetimeSeconds 1) ↔ t ≠ lastSecond := by
  have ht : t.toNat < 2 ^ 64 := t.toNat_lt
  have hone : (1 : UInt64).toNat = 1 := rfl
  rw [UInt64.lt_iff_toNat_lt, saturatingAdd_toNat, max_toNat, ne_lastSecond_iff, hone]
  omega

/-- Identifiers are not blank, so that only the window can be refused. -/
theorem new_ok_iff {sessionId : SessionId} {subject : UserId} {organization : OrganizationId}
    {role : Role} {issuedAt expiresAt : UInt64} :
    (∃ claims, SessionClaims.new sessionId subject organization role issuedAt expiresAt =
      .ok claims) ↔ issuedAt < expiresAt := by
  constructor
  · rintro ⟨claims, h⟩
    obtain ⟨_, _, _, _, hissued, hexpires⟩ := SessionClaims.new_fields h
    exact hissued ▸ hexpires ▸ claims.positiveLifetime
  · intro h
    have nonempty : ∀ value : String, trimIsEmpty value = false → value ≠ "" := by
      rintro _ hblank rfl
      cases hblank
    rw [SessionClaims.new, dif_neg (nonempty _ subject.nonblank),
      dif_neg (nonempty _ organization.nonblank), dif_neg (UInt64.not_le.mpr h)]
    exact ⟨_, rfl⟩

section
variable {c : IssueCall} {member : Identity} {t : UInt64} {s s' : Produced} {r : IssueResult}

/-- Behind the lookup of the member, a reading of the clock decides how the call ends. -/
theorem issue_eval (hm : c.directory.member c.subject = some member)
    (he : c.program.Eval (SessionExec (· = t)) s r s') :
    (SessionAuthority.signClaims (SessionClaims.new c.sessionId member.userId member.organization
      member.role t (saturatingAdd t (max c.lifetimeSeconds 1)))).run.Eval (SessionExec (· = t))
        s r s' := by
  unfold IssueCall.program SessionAuthority.issue at he
  rw [hm] at he
  obtain ⟨now, s₁, ⟨hnow, hs⟩, he⟩ := he
  obtain rfl : now = t := hnow
  obtain rfl : s₁ = s := hs
  exact he

/-- For every directory, every member of it, every reading of the clock and every lifetime. -/
theorem issue_succeeds_iff (hm : member ∈ c.directory.members) (hsubject : c.subject = member.userId)
    (he : c.program.Eval (SessionExec (· = t)) s r s') :
    (∃ session, r = .ok session ∧ IssuedTo member t c.lifetimeSeconds session) ↔
      t ≠ lastSecond := by
  have hfound : c.directory.member c.subject = some member :=
    ConfiguredOrganization.member_eq_some.mpr ⟨hm, hsubject.symm⟩
  replace he := issue_eval hfound he
  rw [← @window_iff t c.lifetimeSeconds,
    ← @new_ok_iff c.sessionId member.userId member.organization member.role]
  cases hnew : SessionClaims.new c.sessionId member.userId member.organization member.role t
      (saturatingAdd t (max c.lifetimeSeconds 1)) with
  | error e =>
    rw [hnew] at he
    obtain ⟨rfl, _⟩ := he
    exact iff_of_false (fun ⟨_, h, _⟩ => by cases h) (fun ⟨_, h⟩ => by cases h)
  | ok claims =>
    rw [hnew] at he
    obtain ⟨signature, s₁, _, rfl, _⟩ := he
    obtain ⟨_, hs, ho, hr, hi, hx⟩ := SessionClaims.new_fields hnew
    refine iff_of_true ⟨_, rfl, hs, ho, hr, hi, claims.positiveLifetime, ?_⟩ ⟨claims, rfl⟩
    have hone : (1 : UInt64).toNat = 1 := rfl
    rw [hi, hx, saturatingAdd_toNat, max_toNat, hone]
    omega

end

/-- What the authority makes of the sample call at the time `t`. -/
def issuedAlone (t : UInt64) : IssueResult × Produced :=
  sampleIssue.program.alone (sessionReact (t, sampleSignature)) []

theorem issuedAlone_eval (t : UInt64) : sampleIssue.program.Eval (SessionExec (· = t)) []
    (issuedAlone t).1 (issuedAlone t).2 := by
  refine Program.alone_eval (fun s op => ?_) _ _
  cases op with
  | unixSeconds => exact ⟨rfl, rfl⟩
  | sign => rfl
  | verify => exact ⟨rfl, rfl⟩

theorem issue_succeeds_iff_sample :
    (∃ session, (issuedAlone 100).1 = .ok session ∧ IssuedTo sampleMember 100 60 session) ↔
      (100 : UInt64) ≠ lastSecond :=
  issue_succeeds_iff (List.mem_singleton.mpr rfl) rfl (issuedAlone_eval 100)

/-- At the last second the authority panics. -/
theorem last_second_panics :
    sampleIssue.program.Eval (SessionExec (· = lastSecond)) [] (issuedAlone lastSecond).1
        (issuedAlone lastSecond).2 ∧
      (issuedAlone lastSecond).1 = .error (.panicked
        "directory-derived claims with a positive lifetime are well-formed") ∧
      ¬ ∃ session, (issuedAlone lastSecond).1 = .ok session ∧
        IssuedTo sampleMember lastSecond 60 session := by
  have hpanic : (issuedAlone lastSecond).1 = .error (.panicked
      "directory-derived claims with a positive lifetime are well-formed") := by decide
  refine ⟨issuedAlone_eval lastSecond, hpanic, ?_⟩
  rintro ⟨session, h, _⟩
  rw [hpanic] at h
  cases h

end Piteka.Safety
