import Piteka.Application.Scenario
import Piteka.Application.SessionAuthority
import Piteka.Interleaving.Schedule

/-!
# Sessions cannot be forged or altered

After any interleaving of issue calls, each with a directory of its own, a
presented session is authenticated exactly if it is one of the issued sessions,
claims and signature together, is inside its window, and names a member whom the
present directory lists with the claimed organization and role. The signer is
ideal and identifiers are shorter than 2^32 bytes, which the length prefixes need.
-/
namespace Piteka.Safety

set_option autoImplicit false

open Piteka.Interleaving Piteka.Domain Piteka.Application

/-! ## What authentication checks -/

theorem checkClaims_eq_ok {directory : ConfiguredOrganization} {claims : SessionClaims}
    {now : UInt64} {a : AuthenticatedSession} :
    SessionAuthority.checkClaims directory claims now = .ok a ↔
      claims.issuedAtUnixSeconds ≤ now ∧ now < claims.expiresAtUnixSeconds ∧ a.claims = claims ∧
      a.identity ∈ directory.members ∧ a.identity.userId = claims.subject ∧
      a.identity.organization = claims.organization ∧ a.identity.role = claims.role := by
  unfold SessionAuthority.checkClaims SessionAuthority.checkMember
  constructor
  · intro h
    split at h
    · cases h
    · next hexp =>
      split at h
      · cases h
      · next hstart =>
        split at h
        · cases h
        · next member hm =>
          split at h
          · cases h
          · next horg =>
            split at h
            · cases h
            · next hrole =>
              obtain ⟨hmem, hid⟩ := ConfiguredOrganization.member_eq_some.mp hm
              obtain rfl := Except.ok.inj h
              exact ⟨UInt64.not_lt.mp hstart, UInt64.not_le.mp hexp, rfl, hmem, hid,
                not_not.mp horg, not_not.mp hrole⟩
  · rintro ⟨hstart, hexp, rfl, hmem, hid, horg, hrole⟩
    have hm : directory.member a.claims.subject = some a.identity :=
      ConfiguredOrganization.member_eq_some.mpr ⟨hmem, hid⟩
    simp only [if_neg (UInt64.not_le.mpr hexp), if_neg (UInt64.not_lt.mpr hstart), hm, horg, hrole,
      ne_eq, not_true_eq_false, if_false]

theorem authenticate_ok_iff {algorithm : SignatureAlgorithm} {directory : ConfiguredOrganization}
    {session : SignedSession} {t : UInt64} {s s' : Produced} {a : AuthenticatedSession} :
    (SessionAuthority.authenticate algorithm directory session).run.Eval (SessionExec (· = t)) s
        (.ok a) s' ↔
      s' = s ∧ session.signature.algorithm = algorithm ∧
      (session.claims.signingBytes, session.signature) ∈ s ∧
      SessionAuthority.checkClaims directory session.claims t = .ok a := by
  unfold SessionAuthority.authenticate
  by_cases halg : session.signature.algorithm = algorithm
  · rw [if_neg (not_not.mpr halg)]
    constructor
    · rintro ⟨accepted, s₁, ⟨haccepted, rfl⟩, he⟩
      cases accepted with
      | false =>
        cases he.1
      | true =>
        obtain ⟨now, s₂, ⟨rfl, rfl⟩, hr, rfl⟩ := he
        exact ⟨rfl, halg, of_decide_eq_true haccepted.symm, hr.symm⟩
    · rintro ⟨rfl, _, hproduced, hchecks⟩
      refine ⟨true, s', ⟨(decide_eq_true hproduced).symm, rfl⟩, ?_⟩
      exact ⟨t, s', ⟨rfl, rfl⟩, hchecks.symm, rfl⟩
  · rw [if_pos halg]
    constructor
    · rintro ⟨hr, _⟩
      cases hr
    · rintro ⟨_, h, _⟩
      exact absurd h halg

/-! ## What issuing leaves with the signer -/

section
variable {ι : Type} [DecidableEq ι]

abbrev SessionEntry (ι : Type) := Entry ι SessionCall.Answer Produced

/-- A run of issue calls from a signer that has signed nothing, under any clock. -/
abbrev IssueRun (calls : ι → IssueCall) (log : List (SessionEntry ι)) (s : Produced)
    (p : ι → Program SessionCall SessionCall.Answer IssueResult) : Prop :=
  @Run ι SessionCall Produced SessionCall.Answer (fun _ => IssueResult) _
    (SessionExec fun _ => True) [] (fun i => (calls i).program) log s p

variable {calls : ι → IssueCall} {log : List (SessionEntry ι)} {s : Produced}
  {p : ι → Program SessionCall SessionCall.Answer IssueResult}

theorem produced_iff (run : IssueRun calls log s p) {message : List UInt8} {signature : Signature} :
    (message, signature) ∈ s ↔ ∃ e ∈ log, e.call = ⟨.sign message, signature⟩ := by
  refine run.invariant
    (I := fun log s => (message, signature) ∈ s ↔ ∃ e ∈ log, e.call = ⟨.sign message, signature⟩)
    (by simp) ?_
  intro log s p i op a s' _ ih _ hx
  have hlog : (∃ e ∈ log ++ [⟨i, ⟨op, a⟩, s, s'⟩], e.call = ⟨.sign message, signature⟩) ↔
      (message, signature) ∈ s ∨ (⟨op, a⟩ : (op : SessionCall) × op.Answer) =
        ⟨.sign message, signature⟩ := by
    rw [ih]
    simp only [List.mem_append, List.mem_singleton, or_and_right, exists_or, exists_eq_left]
  rw [hlog]
  cases op with
  | unixSeconds =>
    obtain ⟨_, rfl⟩ := hx
    simp
  | verify message' signature' =>
    obtain ⟨_, rfl⟩ := hx
    simp
  | sign message' =>
    obtain rfl := hx
    rw [List.mem_append, List.mem_singleton]
    refine or_congr_right ⟨fun h => ?_, fun h => ?_⟩
    · obtain ⟨rfl, rfl⟩ := Prod.mk.inj h
      rfl
    · cases h
      rfl

/-- Every signature was produced for the claims of an issued session. -/
theorem issued_of_produced (run : IssueRun calls log s p) {message : List UInt8}
    {signature : Signature} (h : (message, signature) ∈ s) :
    ∃ i claims, p i = .ret (.ok ⟨claims, signature⟩) ∧ message = claims.signingBytes ∧
      ∃ member ∈ (calls i).directory.members,
        claims.subject = member.userId ∧ claims.organization = member.organization := by
  obtain ⟨e, he, hc⟩ := (produced_iff run).mp h
  have hmem : ⟨.sign message, signature⟩ ∈ history e.caller log :=
    mem_history.mpr ⟨e, he, rfl, hc⟩
  have hpath := issue_path (run.follows e.caller)
  refine ⟨e.caller, ?_⟩
  generalize history e.caller log = path at hmem hpath
  generalize p e.caller = q at hpath
  cases hpath with
  | unknown => cases hmem
  | start => cases hmem
  | panicked => simp at hmem
  | unsigned => simp at hmem
  | issued t member claims signature' hm hs ho =>
    simp only [List.mem_cons, List.not_mem_nil, or_false] at hmem
    rcases hmem with h | h
    · cases h
    · cases h
      exact ⟨claims, rfl, rfl, member, hm, hs, ho⟩

theorem produced_of_issued (run : IssueRun calls log s p) {i : ι} {session : SignedSession}
    (h : p i = .ret (.ok session)) :
    (session.claims.signingBytes, session.signature) ∈ s := by
  have hpath := issue_path (run.follows i)
  rw [h] at hpath
  generalize hh : history i log = path at hpath
  cases hpath with
  | issued t member claims signature _ _ _ =>
    have hmem : ⟨.sign claims.signingBytes, signature⟩ ∈ history i log :=
      hh ▸ List.mem_cons_of_mem _ List.mem_cons_self
    obtain ⟨e, he, _, hc⟩ := mem_history.mp hmem
    exact (produced_iff run).mpr ⟨e, he, hc⟩

/-! ## The result -/

/-- Both identifiers of a member are shorter than 2^32 bytes. -/
structure ShortMember (m : Identity) : Prop where
  userId : (SessionClaims.utf8 m.userId.asStr).length < 2 ^ 32
  organization : (SessionClaims.utf8 m.organization.asStr).length < 2 ^ 32

/-- A session that was issued, is inside its window at `t`, and names the listed member `a`. -/
structure Genuine (p : ι → Program SessionCall SessionCall.Answer IssueResult)
    (algorithm : SignatureAlgorithm) (directory : ConfiguredOrganization)
    (session : SignedSession) (t : UInt64) (a : AuthenticatedSession) : Prop where
  algorithm : session.signature.algorithm = algorithm
  issued : ∃ i earlier, p i = .ret (.ok earlier) ∧ earlier.claims = session.claims ∧
    earlier.signature = session.signature
  started : session.claims.issuedAtUnixSeconds ≤ t
  unexpired : t < session.claims.expiresAtUnixSeconds
  claims : a.claims = session.claims
  member : a.identity ∈ directory.members
  subject : a.identity.userId = session.claims.subject
  organization : a.identity.organization = session.claims.organization
  role : a.identity.role = session.claims.role

/-- The signature of a session is accepted exactly if the session was issued with it. -/
theorem produced_iff_issued (run : IssueRun calls log s p)
    (hdirs : ∀ i, ∀ m ∈ (calls i).directory.members, ShortMember m) {session : SignedSession}
    (hshort : session.claims.Short) :
    (session.claims.signingBytes, session.signature) ∈ s ↔
      ∃ i earlier, p i = .ret (.ok earlier) ∧ earlier.claims = session.claims ∧
        earlier.signature = session.signature := by
  constructor
  · intro h
    obtain ⟨i, claims, hp, hbytes, member, hm, hs, ho⟩ := issued_of_produced run h
    have hmember := hdirs i member hm
    have hclaims : claims.Short := ⟨hs ▸ hmember.userId, ho ▸ hmember.organization⟩
    exact ⟨i, _, hp, (SessionClaims.signingBytes_inj hshort hclaims hbytes).symm, rfl⟩
  · rintro ⟨i, earlier, hp, hclaims, hsignature⟩
    rw [← hclaims, ← hsignature]
    exact produced_of_issued run hp

theorem authenticate_iff (run : IssueRun calls log s p)
    (hdirs : ∀ i, ∀ m ∈ (calls i).directory.members, ShortMember m) {session : SignedSession}
    (hshort : session.claims.Short) (algorithm : SignatureAlgorithm)
    (directory : ConfiguredOrganization) (t : UInt64) (a : AuthenticatedSession) :
    (SessionAuthority.authenticate algorithm directory session).run.Eval (SessionExec (· = t)) s
        (.ok a) s ↔
      Genuine p algorithm directory session t a := by
  rw [authenticate_ok_iff, checkClaims_eq_ok, produced_iff_issued run hdirs hshort]
  constructor
  · rintro ⟨_, halg, hissued, hstart, hexp, hclaims, hmem, hid, horg, hrole⟩
    exact ⟨halg, hissued, hstart, hexp, hclaims, hmem, hid, horg, hrole⟩
  · intro h
    exact ⟨rfl, h.algorithm, h.issued, h.started, h.unexpired, h.claims, h.member, h.subject,
      h.organization, h.role⟩

end

/-! ## One issued session -/

/-- The signer and the clock of a scenario: what each shows in one step. -/
def sessionReact (w : UInt64 × Signature) (s : Produced) : (op : SessionCall) → op.Answer × Produced
  | .unixSeconds => (w.1, s)
  | .sign message => (w.2, s ++ [(message, w.2)])
  | .verify message signature => (Produced.verify s message signature, s)

theorem sessionReact_sound (w : UInt64 × Signature) (s : Produced) (op : SessionCall) :
    SessionExec (fun _ => True) s op (sessionReact w s op).1 (sessionReact w s op).2 := by
  cases op with
  | unixSeconds => exact ⟨trivial, rfl⟩
  | sign => rfl
  | verify => exact ⟨rfl, rfl⟩

def sampleMember : Identity :=
  ⟨sampleUser, ⟨"org", by decide⟩, "Alice", .requester, by decide⟩

def sampleDirectory : ConfiguredOrganization where
  organization := ⟨⟨"org", by decide⟩, "Org", by decide⟩
  members := [sampleMember]
  inhabited := List.cons_ne_nil _ _
  sameOrganization := by decide
  distinct := by decide

def sampleIssue : IssueCall := ⟨sampleDirectory, sampleMember.userId, ⟨Vector.replicate 16 7⟩, 60⟩

def sampleSignature : Signature := ⟨.demoLocalV1, [1]⟩

def sampleClaims : SessionClaims where
  sessionId := ⟨Vector.replicate 16 7⟩
  subject := sampleMember.userId
  organization := sampleMember.organization
  role := .requester
  issuedAtUnixSeconds := 100
  expiresAtUnixSeconds := 160
  subjectNonempty := by decide
  organizationNonempty := by decide
  positiveLifetime := by decide

def issueStart : Snapshot Unit SessionCall.Answer Produced fun _ => IssueResult :=
  ⟨[], [], fun _ => sampleIssue.program⟩

def issuedOnce : Snapshot Unit SessionCall.Answer Produced fun _ => IssueResult :=
  issueStart.play sessionReact [((), 100, sampleSignature), ((), 100, sampleSignature)]

theorem issuedOnce_run :
    IssueRun (fun _ => sampleIssue) issuedOnce.log issuedOnce.state issuedOnce.pool :=
  play_run (c := issueStart) sessionReact_sound .start _

theorem sample_authenticates :
    (SessionAuthority.authenticate .demoLocalV1 sampleDirectory
        ⟨sampleClaims, sampleSignature⟩).run.Eval (SessionExec (· = 150)) issuedOnce.state
      (.ok ⟨sampleMember, sampleClaims⟩) issuedOnce.state := by
  have hshort : ∀ i : Unit, ∀ m ∈ (fun _ : Unit => sampleIssue) i |>.directory.members,
      ShortMember m := by
    intro _ m hm
    obtain rfl := List.mem_singleton.mp hm
    exact ⟨by decide, by decide⟩
  refine (authenticate_iff issuedOnce_run hshort ⟨by decide, by decide⟩ _ _ _ _).mpr ?_
  exact ⟨rfl, ⟨(), _, rfl, rfl, rfl⟩, by decide, by decide, rfl, List.mem_singleton.mpr rfl, rfl,
    rfl, rfl⟩

end Piteka.Safety
