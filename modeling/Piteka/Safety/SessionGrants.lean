import Piteka.Application.Authorization
import Piteka.Safety.SessionIntegrity

/-!
# Grants on authenticated sessions

A session is live when it is authenticated. The boundary does not look at its window
again: a grant depends on the role and, for a production approval, on the age of the
session, which is zero while the clock stands before the issue.
-/
namespace Piteka.Safety

set_option autoImplicit false

open Piteka.Interleaving Piteka.Domain Piteka.Application Piteka.Storage

/-- The session is inside its window. -/
def Live (session : AuthenticatedSession) (t : UInt64) : Prop :=
  session.claims.issuedAtUnixSeconds ≤ t ∧ t < session.claims.expiresAtUnixSeconds

section
variable {algorithm : SignatureAlgorithm} {directory : ConfiguredOrganization}
  {signed : SignedSession} {session : AuthenticatedSession} {t₁ t₂ : UInt64} {k k' : Produced}
  {policy : ReauthPolicy} {request : AuthorizationRequest} {actionDetail : String} {rt : Runtime}
  {faults : StoreCall → Prop} {s s' : Stores} {r : Except StorageError AuthorizationOutcome}

/-- For every reading of the clock at the decision, before or behind the one at the
authentication, and whichever appends fail. -/
theorem authorization_decided
    (hauth : (SessionAuthority.authenticate algorithm directory signed).run.Eval
      (SessionExec (· = t₁)) k (.ok session) k')
    (he : (authorize policy session request actionDetail).run.Eval (ExecAt rt faults t₂) s r s') :
    Live session t₁ ∧
      ((∃ event, faults (.audit (.append event)) ∧ (∃ e, r = .error e) ∧ s' = s) ∨
        ((∃ grant, r = .ok (.ok grant)) ↔ Permitted policy session request t₂)) ∧
      (∀ denied, r = .ok (.error denied) → Appended s s'
        (decisionEvent t₂ session actionDetail "denied" denied.denial.display)) ∧
      (∀ grant, r = .ok (.ok grant) → request.sensitivity = .productionApproval → Appended s s'
        (decisionEvent t₂ session actionDetail "granted" "production approval")) := by
  obtain ⟨_, _, _, hchecks⟩ := authenticate_ok_iff.mp hauth
  obtain ⟨hstarted, hunexpired, hclaims, _⟩ := checkClaims_eq_ok.mp hchecks
  refine ⟨⟨hclaims ▸ hstarted, hclaims ▸ hunexpired⟩, ?_⟩
  cases authorize_decides he with
  | granted hp hstandard _ =>
    refine ⟨Or.inr (iff_of_true ⟨_, rfl⟩ hp), ?_, ?_⟩
    · intro _ h
      cases h
    · intro _ _ hproduction
      rw [hstandard] at hproduction
      cases hproduction
  | approved hp _ ha =>
    refine ⟨Or.inr (iff_of_true ⟨_, rfl⟩ hp), ?_, fun _ _ _ => ha⟩
    intro _ h
    cases h
  | denied denial hp ha =>
    refine ⟨Or.inr (iff_of_false (fun ⟨_, h⟩ => by cases h) hp), ?_, ?_⟩
    · intro d h
      cases h
      exact ha
    · intro _ h
      cases h
  | unrecorded event e hf hsame =>
    refine ⟨Or.inl ⟨event, hf, ⟨e, rfl⟩, hsame⟩, ?_, ?_⟩
    · intro _ h
      cases h
    · intro _ h
      cases h

end

/-! ## A session that has expired -/

def liveSession : AuthenticatedSession := ⟨sampleMember, sampleClaims⟩

theorem liveSession_authenticated :
    (SessionAuthority.authenticate .demoLocalV1 sampleDirectory
        ⟨sampleClaims, sampleSignature⟩).run.Eval (SessionExec (· = 150))
      [(sampleClaims.signingBytes, sampleSignature)] (.ok liveSession)
      [(sampleClaims.signingBytes, sampleSignature)] := by
  refine authenticate_ok_iff.mpr ⟨rfl, rfl, List.mem_singleton.mpr rfl, checkClaims_eq_ok.mpr ?_⟩
  exact ⟨by decide, by decide, rfl, List.mem_singleton.mpr rfl, rfl, rfl, rfl⟩

def proposal : AuthorizationRequest := ⟨.proposeAction, .standard⟩

theorem proposal_granted (t : UInt64) :
    (authorize ⟨300⟩ liveSession proposal "propose i-1").run.Eval
      (ExecAt sampleRuntime noFaults t) .empty (.ok (.ok ⟨proposal⟩)) .empty :=
  ⟨t, .empty, ⟨rfl, rfl⟩, rfl, rfl⟩

theorem authorization_decided_sample :
    Live liveSession 150 ∧
      ((∃ event, noFaults (.audit (.append event)) ∧
          (∃ e, (.ok (.ok ⟨proposal⟩) : Except StorageError AuthorizationOutcome) = .error e) ∧
          Stores.empty = Stores.empty) ∨
        ((∃ grant, (.ok (.ok ⟨proposal⟩) : Except StorageError AuthorizationOutcome) =
          .ok (.ok grant)) ↔ Permitted ⟨300⟩ liveSession proposal 155)) ∧
      (∀ denied, (.ok (.ok ⟨proposal⟩) : Except StorageError AuthorizationOutcome) =
          .ok (.error denied) → Appended .empty .empty
        (decisionEvent 155 liveSession "propose i-1" "denied" denied.denial.display)) ∧
      (∀ grant, (.ok (.ok ⟨proposal⟩) : Except StorageError AuthorizationOutcome) =
          .ok (.ok grant) → proposal.sensitivity = .productionApproval → Appended .empty .empty
        (decisionEvent 155 liveSession "propose i-1" "granted" "production approval")) :=
  authorization_decided liveSession_authenticated (proposal_granted 155)

/-- Authenticated at 150, expired at 160, and granted at 1000. -/
theorem expired_session_granted :
    (SessionAuthority.authenticate .demoLocalV1 sampleDirectory
        ⟨sampleClaims, sampleSignature⟩).run.Eval (SessionExec (· = 150))
      [(sampleClaims.signingBytes, sampleSignature)] (.ok liveSession)
      [(sampleClaims.signingBytes, sampleSignature)] ∧
      (authorize ⟨300⟩ liveSession proposal "propose i-1").run.Eval
        (ExecAt sampleRuntime noFaults 1000) .empty (.ok (.ok ⟨proposal⟩)) .empty ∧
      ¬ Live liveSession 1000 :=
  ⟨liveSession_authenticated, proposal_granted 1000, fun h => absurd h.2 (by decide)⟩

end Piteka.Safety
