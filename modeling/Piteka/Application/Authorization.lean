import Piteka.Application.SessionAuthority
import Piteka.Storage.Paths

/-!
# The authorization boundary

The pure policy over an authenticated session and the boundary that reads the clock,
asks the policy and appends what it decided. A denial and a grant of a production
approval are appended before they are returned; a failing append is returned instead.
-/
namespace Piteka.Application

set_option autoImplicit false

open Piteka.Interleaving Piteka.Interleaving.Program Piteka.Domain Piteka.Storage

inductive ActionSensitivity where
  | standard
  | productionApproval
  deriving DecidableEq

structure AuthorizationRequest where
  capability : Capability
  sensitivity : ActionSensitivity
  deriving DecidableEq

inductive Denial where
  | unauthorized (capability : Capability)
  | reconfirmationRequired (maxAgeSeconds sessionAgeSeconds : UInt64)
  deriving DecidableEq

/-- The `Display` text of a denial. -/
def Denial.display : Denial → String
  | .unauthorized capability => "role does not grant capability " ++ capability.debug
  | .reconfirmationRequired maxAgeSeconds sessionAgeSeconds =>
    "production approval requires re-authentication within " ++ toString maxAgeSeconds.toNat ++
      "s (session age " ++ toString sessionAgeSeconds.toNat ++ "s)"

/-- `u64::saturating_sub` -/
def saturatingSub (a b : UInt64) : UInt64 := if b ≤ a then a - b else 0

def AuthenticatedSession.can (session : AuthenticatedSession) (capability : Capability) : Bool :=
  session.identity.role.grants capability

structure ReauthPolicy where
  reauthWindowSeconds : UInt64

def ReauthPolicy.evaluate (policy : ReauthPolicy) (session : AuthenticatedSession)
    (request : AuthorizationRequest) (nowUnixSeconds : UInt64) : Except Denial Unit :=
  if session.can request.capability = false then .error (.unauthorized request.capability)
  else if request.sensitivity = .productionApproval then
    let age := saturatingSub nowUnixSeconds session.claims.issuedAtUnixSeconds
    if policy.reauthWindowSeconds < age then
      .error (.reconfirmationRequired policy.reauthWindowSeconds age)
    else .ok ()
  else .ok ()

structure Grant where
  request : AuthorizationRequest
  deriving DecidableEq

structure Denied where
  denial : Denial
  deriving DecidableEq

abbrev AuthorizationOutcome := Except Denied Grant

/-- `i64::try_from(now_unix_seconds).unwrap_or(i64::MAX)` -/
def clampInt64 (n : UInt64) : Int64 := if n.toNat < 2 ^ 63 then n.toInt64 else Int64.maxValue

/-- What the boundary appends about a decision. -/
def decisionEvent (nowUnixSeconds : UInt64) (session : AuthenticatedSession)
    (action decision detail : String) : AuditEvent where
  occurredAtUnixSeconds := clampInt64 nowUnixSeconds
  actor := some session.identity.userId.asStr
  action := action
  decision := decision
  detail := detail

instance : FromStorageError StorageError := ⟨id⟩

/-- `DemoAuthorizationBoundary::authorize` -/
def authorize (policy : ReauthPolicy) (session : AuthenticatedSession)
    (request : AuthorizationRequest) (actionDetail : String) :
    UseCase StorageError AuthorizationOutcome := do
  let now ← ask .clock
  match policy.evaluate session request now with
  | .ok () =>
    if request.sensitivity = .productionApproval then
      await (.audit (.append
        (decisionEvent now session actionDetail "granted" "production approval")))
      return .ok ⟨request⟩
    else return .ok ⟨request⟩
  | .error denial =>
    await (.audit (.append (decisionEvent now session actionDetail "denied" denial.display)))
    return .error ⟨denial⟩

/-! ## What it decides -/

/-- The role grants the capability, and for a production approval the session is no older than
the window. -/
structure Permitted (policy : ReauthPolicy) (session : AuthenticatedSession)
    (request : AuthorizationRequest) (now : UInt64) : Prop where
  grants : session.identity.role.grants request.capability = true
  fresh : request.sensitivity = .productionApproval →
    now.toNat - session.claims.issuedAtUnixSeconds.toNat ≤ policy.reauthWindowSeconds.toNat

theorem saturatingSub_toNat (a b : UInt64) : (saturatingSub a b).toNat = a.toNat - b.toNat := by
  unfold saturatingSub
  split
  · next h => exact UInt64.toNat_sub_of_le a b h
  · next h =>
    rw [UInt64.le_iff_toNat_le, Nat.not_le] at h
    exact (Nat.sub_eq_zero_of_le (Nat.le_of_lt h)).symm

section
variable {policy : ReauthPolicy} {session : AuthenticatedSession} {request : AuthorizationRequest}
  {now : UInt64}

theorem evaluate_ok_iff :
    policy.evaluate session request now = .ok () ↔ Permitted policy session request now := by
  unfold ReauthPolicy.evaluate AuthenticatedSession.can
  cases hgrants : session.identity.role.grants request.capability with
  | false =>
    refine iff_of_false (fun h => by cases h) fun h => ?_
    rw [h.grants] at hgrants
    cases hgrants
  | true =>
    have hage := saturatingSub_toNat now session.claims.issuedAtUnixSeconds
    simp only [Bool.true_eq_false, if_false]
    split
    · next hs =>
      split
      · next h =>
        rw [UInt64.lt_iff_toNat_lt, hage] at h
        refine iff_of_false (fun h => by cases h) fun hp => ?_
        exact absurd (hp.fresh hs) (Nat.not_le.mpr h)
      · next h =>
        rw [UInt64.lt_iff_toNat_lt, hage, Nat.not_lt] at h
        exact iff_of_true rfl ⟨hgrants, fun _ => h⟩
    · next hs => exact iff_of_true rfl ⟨hgrants, fun h => absurd h hs⟩

end

/-- A step under a clock that shows `t`. -/
def ExecAt (rt : Runtime) (faults : StoreCall → Prop) (t : UInt64) (s : Stores) :
    (op : PortCall) → Answer op → Stores → Prop
  | .clock, a, s' => a = t ∧ s' = s
  | op, a, s' => Exec rt faults s op a s'

/-- Exactly this event was appended. -/
def Appended (s s' : Stores) (event : AuditEvent) : Prop :=
  s' = { s with audit := ⟨s.audit.events ++ [event]⟩ }

/-- How the boundary can end at the time `t`. -/
inductive Decided (policy : ReauthPolicy) (session : AuthenticatedSession)
    (request : AuthorizationRequest) (actionDetail : String) (faults : StoreCall → Prop)
    (t : UInt64) (s s' : Stores) : Except StorageError AuthorizationOutcome → Prop
  | granted (hp : Permitted policy session request t) (hs : request.sensitivity = .standard)
      (hsame : s' = s) : Decided policy session request actionDetail faults t s s'
        (.ok (.ok ⟨request⟩))
  | approved (hp : Permitted policy session request t)
      (hs : request.sensitivity = .productionApproval)
      (ha : Appended s s' (decisionEvent t session actionDetail "granted" "production approval")) :
      Decided policy session request actionDetail faults t s s' (.ok (.ok ⟨request⟩))
  | denied (denial : Denial) (hp : ¬ Permitted policy session request t)
      (ha : Appended s s' (decisionEvent t session actionDetail "denied" denial.display)) :
      Decided policy session request actionDetail faults t s s' (.ok (.error ⟨denial⟩))
  | unrecorded (event : AuditEvent) (e : StorageError) (hf : faults (.audit (.append event)))
      (hsame : s' = s) : Decided policy session request actionDetail faults t s s' (.error e)

section
variable {policy : ReauthPolicy} {session : AuthenticatedSession} {request : AuthorizationRequest}
  {actionDetail : String} {rt : Runtime} {faults : StoreCall → Prop} {t : UInt64} {s s' : Stores}

/-- A decision behind an append: the append fails and its error is returned, or its event is
added. -/
theorem recorded_eval {event : AuditEvent} {outcome : AuthorizationOutcome}
    {r : Except StorageError AuthorizationOutcome}
    (he : (do
        await (.audit (.append event))
        return outcome : UseCase StorageError AuthorizationOutcome).run.Eval
          (ExecAt rt faults t) s r s') :
    (∃ e, r = .error e ∧ faults (.audit (.append event)) ∧ s' = s) ∨
      (r = .ok outcome ∧ Appended s s' event) := by
  rcases eval_seq.mp he with ⟨e, h, rfl⟩ | ⟨_, s₂, h, hreturn⟩
  · rcases eval_await.mp h with ⟨e', ⟨order, hr⟩ | ⟨hf, _, hs⟩, _⟩ | ⟨_, _, h⟩
    · cases (Prod.mk.inj hr).1
    · exact Or.inl ⟨e, rfl, hf, hs⟩
    · cases h
  · obtain ⟨rfl, rfl⟩ := eval_pure.mp hreturn
    rcases eval_await.mp h with ⟨_, _, h⟩ | ⟨_, ⟨order, hr⟩ | ⟨_, ⟨_, h⟩, _⟩, _⟩
    · cases h
    · exact Or.inr ⟨rfl, (Prod.mk.inj hr).2.symm⟩
    · cases h

theorem authorize_decides {r : Except StorageError AuthorizationOutcome}
    (he : (authorize policy session request actionDetail).run.Eval (ExecAt rt faults t) s r s') :
    Decided policy session request actionDetail faults t s s' r := by
  obtain ⟨now, s₁, ⟨hnow, hs⟩, he⟩ := he
  obtain rfl : now = t := hnow
  obtain rfl : s₁ = s := hs
  replace he : (match policy.evaluate session request now with
    | .ok () =>
      if request.sensitivity = .productionApproval then do
        await (.audit (.append
          (decisionEvent now session actionDetail "granted" "production approval")))
        return .ok ⟨request⟩
      else return .ok ⟨request⟩
    | .error denial => do
      await (.audit (.append (decisionEvent now session actionDetail "denied" denial.display)))
      return .error ⟨denial⟩ : UseCase StorageError AuthorizationOutcome).run.Eval
        (ExecAt rt faults now) s₁ r s' := he
  cases hpolicy : policy.evaluate session request now with
  | error denial =>
    rw [hpolicy] at he
    have hp : ¬ Permitted policy session request now := by
      rw [← evaluate_ok_iff, hpolicy]
      exact fun h => by cases h
    rcases recorded_eval he with ⟨e, rfl, hf, hsame⟩ | ⟨rfl, ha⟩
    · exact .unrecorded _ e hf hsame
    · exact .denied denial hp ha
  | ok u =>
    rw [hpolicy] at he
    have hp : Permitted policy session request now := evaluate_ok_iff.mp hpolicy
    by_cases hs : request.sensitivity = .productionApproval
    · simp only [hs, if_true] at he
      rcases recorded_eval he with ⟨e, rfl, hf, hsame⟩ | ⟨rfl, ha⟩
      · exact .unrecorded _ e hf hsame
      · exact .approved hp hs ha
    · simp only [hs, if_false] at he
      obtain ⟨rfl, hsame⟩ := eval_pure.mp he
      have hstandard : request.sensitivity = .standard := by
        cases hsens : request.sensitivity with
        | standard => rfl
        | productionApproval => exact absurd hsens hs
      exact .granted hp hstandard hsame

end

end Piteka.Application
