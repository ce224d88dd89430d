import Piteka.Safety.RequestLifecycle

/-!
# The intent of an approval

`ApproveRequest` says that the supplied intent must match the request's. No step
of `approve` compares them: the decision stores what the approver supplied, and a
call with another intent goes through whenever one with the right intent would. So
an approval binds the proposed intent when it supplies that intent, or when the
status or the version refuses it.
-/
namespace Piteka.Safety

set_option autoImplicit false

open Piteka.Interleaving Piteka.Interleaving.Program Piteka.Storage Piteka.Application

variable {rt : Runtime} {s s' : Stores}

/-- The request's row and version, the decisions and the audit log are as before. -/
structure ApprovalUnchanged (requestId : String) (s s' : Stores) : Prop where
  request : s'.request requestId = s.request requestId
  version : s'.requestVersion requestId = s.requestVersion requestId
  decisions : s'.decisions = s.decisions
  audit : s'.audit = s.audit

/-- The approval of `q` stores a decision with its intent, and refuses another one without effect. -/
structure BindsIntent (a : DecideArgs) (q : ActionRequest) (s : Stores)
    (r : Except (Stopped ActionRequestUseCaseError) Approved) (s' : Stores) : Prop where
  stored : ∀ x, r = .ok x →
    s'.decision (decisionIdOf a.requestId) = some x.decision ∧
      x.decision.intentIdHex = q.intentIdHex
  refused : a.intentIdHex ≠ q.intentIdHex →
    (∃ e, r = .error (.err e)) ∧ ApprovalUnchanged a.requestId s s'

/-! ## The status swap alone -/

/-- Alone, a status change of a stored request goes through when the status and the version are
the required ones, and is refused without effect otherwise. -/
theorem swapStatus_alone {verb : String} {required target : ActionRequestStatus} {id : String}
    {v : Int64} {q : ActionRequest} {r : Except (Stopped ActionRequestUseCaseError) Int64}
    (hq : s.request id = some q)
    (he : (swapStatus verb required target id v).run.Eval (Exec rt noFaults) s r s') :
    (q.status = required ∧ s.requestVersion id = v ∧ (∃ w, r = .ok w) ∧
        s'.request id = some { q with status := target }) ∨
      ((q.status ≠ required ∨ s.requestVersion id ≠ v) ∧ (∃ e, r = .error (.err e)) ∧ s' = s) := by
  obtain ⟨h, hr, hs⟩ := eval_iff_returns.mp he
  cases swapStatus_returns hr with
  | readFailed err =>
    obtain ⟨s₁, hx, _⟩ := hs
    cases (request_get_noFaults hx).1
  | notFound =>
    obtain ⟨s₁, hx, _⟩ := hs
    have hread := Except.ok.inj (request_get_noFaults hx).1
    rw [hq] at hread
    cases hread
  | invalidTransition q' hstatus =>
    obtain ⟨s₁, hx, hs⟩ := hs
    obtain ⟨hread, rfl⟩ := request_get_noFaults hx
    obtain rfl := Option.some.inj (hq.symm.trans (Except.ok.inj hread).symm)
    exact Or.inr ⟨Or.inl hstatus, ⟨_, rfl⟩, hs⟩
  | swapFailed q' hstatus err =>
    obtain ⟨s₁, _, s₂, hswap, _⟩ := hs
    obtain ⟨o, ho⟩ := request_swap_ok hswap
    cases ho
  | applied q' hstatus w =>
    obtain ⟨s₁, hx, s₂, hswap, hs⟩ := hs
    obtain ⟨hread, rfl⟩ := request_get_noFaults hx
    obtain rfl := Option.some.inj (hq.symm.trans (Except.ok.inj hread).symm)
    obtain rfl : s' = s₂ := hs
    obtain ⟨q', hq', hv, _, hafter, _⟩ := request_applied hswap
    obtain rfl := Option.some.inj (hq.symm.trans hq')
    exact Or.inl ⟨hstatus, hv, ⟨w, rfl⟩, hafter⟩
  | conflict q' hstatus w =>
    obtain ⟨s₁, hx, s₂, hswap, hs⟩ := hs
    obtain ⟨_, rfl⟩ := request_get_noFaults hx
    obtain ⟨rfl, _, _, hv, _⟩ := request_conflict hswap
    exact Or.inr ⟨Or.inr hv, ⟨_, rfl⟩, hs⟩
  | missing q' hstatus =>
    obtain ⟨s₁, hx, s₂, hswap, _⟩ := hs
    obtain ⟨_, rfl⟩ := request_get_noFaults hx
    have hnone := (request_missing hswap).2
    rw [hq] at hnone
    cases hnone

/-- Nothing that follows the swap touches the status again. -/
theorem recordDecision_keeps {d : ApprovalDecision} {event : AuditEvent} {id : String}
    {x : Option ActionRequest} {r : Except (Stopped ActionRequestUseCaseError) ActionRequest}
    (he : (recordDecision d event).run.Eval (Exec rt noFaults) s r s') (hs : s.request id = x) :
    s'.request id = x := by
  refine eval_keeps (Q := fun t => t.request id = x) (fun h op hn t a t' hx ht => ?_) he hs
  cases request_step (c := ⟨op, a⟩) hx id with
  | same hsame => exact (congrArg Prod.fst hsame).trans ht
  | insert q _ hc _ _ =>
    obtain rfl : op = .store (.requests (.insert q)) := congrArg Sigma.fst hc
    rcases recordDecision_next hn with ⟨_, h⟩ | ⟨_, h⟩ | ⟨_, h⟩ <;> cases h
  | swap q v st hc _ _ =>
    obtain rfl : op = .store (.requests (.compareAndSwap id v st)) := congrArg Sigma.fst hc
    rcases recordDecision_next hn with ⟨_, h⟩ | ⟨_, h⟩ | ⟨_, h⟩ <;> cases h

/-! ## The approval -/

/-- Alone, an approval of a stored request is refused without effect, or leaves it approved. -/
theorem approve_alone {a : DecideArgs} {q : ActionRequest}
    {r : Except (Stopped ActionRequestUseCaseError) Approved}
    (hq : s.request a.requestId = some q)
    (he : (approve rt a).run.Eval (Exec rt noFaults) s r s') :
    (q.status = .pending ∧ s.requestVersion a.requestId = a.expectedVersion ∧
        s'.request a.requestId = some { q with status := .approved }) ∨
      ((q.status ≠ .pending ∨ s.requestVersion a.requestId ≠ a.expectedVersion) ∧
        (∃ e, r = .error (.err e)) ∧ s' = s) := by
  obtain ⟨t, s₁, hclock, he⟩ := he
  obtain rfl : s₁ = s := hclock
  rcases eval_seq.mp he with ⟨e, h1, rfl⟩ | ⟨w, s₂, h1, h2⟩
  · rcases swapStatus_alone hq h1 with ⟨_, _, ⟨w, hw⟩, _⟩ | ⟨hcond, ⟨e', he'⟩, hsame⟩
    · cases hw
    · cases he'
      exact Or.inr ⟨hcond, ⟨e', rfl⟩, hsame⟩
  rcases swapStatus_alone hq h1 with ⟨hstatus, hv, _, hrow⟩ | ⟨_, ⟨e', he'⟩, _⟩
  swap
  · cases he'
  rcases eval_seq.mp h2 with ⟨e, h3, _⟩ | ⟨q', s₃, h3, h4⟩
  · exact Or.inl ⟨hstatus, hv, recordDecision_keeps h3 hrow⟩
  · obtain ⟨_, rfl⟩ := h4
    exact Or.inl ⟨hstatus, hv, recordDecision_keeps h3 hrow⟩

/-- The decision of an approval that succeeds is stored, with the intent that was supplied. -/
theorem approve_stores {a : DecideArgs} {x : Approved}
    (he : (approve rt a).run.Eval (Exec rt noFaults) s (.ok x) s') :
    s'.decision (decisionIdOf a.requestId) = some x.decision ∧
      x.decision.intentIdHex = a.intentIdHex := by
  obtain ⟨h, hr, hs⟩ := eval_iff_returns.mp he
  obtain ⟨t, q, q', w, event, _, _, rfl, rfl⟩ := approve_returns_ok hr
  obtain ⟨s₁, _, s₂, _, s₃, _, s₄, hins, s₅, haudit, s₆, hget, rfl⟩ := hs
  refine ⟨?_, rfl⟩
  rw [decision_frame hget (by simp), decision_frame haudit (by simp)]
  exact (decision_inserted hins).2

/-- An approval of a request with an intent binds that intent exactly when it supplies it, or the
status or the version refuses the call. -/
theorem approval_binds_iff {a : DecideArgs} {q : ActionRequest} {intent : String}
    {r : Except (Stopped ActionRequestUseCaseError) Approved}
    (hq : s.request a.requestId = some q) (hi : q.intentIdHex = some intent)
    (he : (approve rt a).run.Eval (Exec rt noFaults) s r s') :
    BindsIntent a q s r s' ↔ a.intentIdHex = some intent ∨ q.status ≠ .pending ∨
      s.requestVersion a.requestId ≠ a.expectedVersion := by
  rw [← hi]
  rcases approve_alone hq he with ⟨hstatus, hv, hrow⟩ | ⟨hcond, ⟨e, rfl⟩, rfl⟩
  · constructor
    · intro hb
      by_cases hsame : a.intentIdHex = q.intentIdHex
      · exact Or.inl hsame
      -- The refusal would have left the row pending.
      have hrefused := (hb.refused hsame).2.request
      rw [hrow, hq] at hrefused
      have hst := congrArg ActionRequest.status (Option.some.inj hrefused)
      rw [hstatus] at hst
      cases hst
    · rintro (hsame | hne | hne)
      · refine ⟨fun x hx => ?_, fun hne => absurd hsame hne⟩
        subst hx
        obtain ⟨hstored, hintent⟩ := approve_stores he
        exact ⟨hstored, hintent.trans hsame⟩
      · exact absurd hstatus hne
      · exact absurd hv hne
  · refine ⟨fun _ => Or.inr hcond, fun _ => ⟨fun x hx => ?_, fun _ => ?_⟩⟩
    · cases hx
    · exact ⟨⟨e, rfl⟩, rfl, rfl, rfl, rfl⟩

/-! ## Approvals of a request proposed with `i-1` -/

def approvedWith (intent : Option String) :
    Except (Stopped ActionRequestUseCaseError) Approved × Stores :=
  (approve sampleRuntime { sampleDecide "r-1" 1 with intentIdHex := intent }).run.alone
    (react sampleRuntime (.answering none)) proposed

theorem approvedWith_eval (intent : Option String) :
    (approve sampleRuntime { sampleDecide "r-1" 1 with intentIdHex := intent }).run.Eval
      (Exec sampleRuntime noFaults) proposed (approvedWith intent).1
      (approvedWith intent).2 :=
  alone_eval (react_sound _ _ _) _ _

theorem approval_binds_iff_proposed :
    BindsIntent (sampleDecide "r-1" 1) ((samplePropose "r-1").request 0) proposed
      (approvedWith (some "i-1")).1 (approvedWith (some "i-1")).2 :=
  (approval_binds_iff (by decide +kernel) rfl (approvedWith_eval (some "i-1"))).mpr (Or.inl rfl)

/-- The approval of `i-2` succeeds for the request that was proposed with `i-1`. -/
theorem other_intent_approved :
    proposed.request "r-1" = some ((samplePropose "r-1").request 0) ∧
      ((samplePropose "r-1").request 0).intentIdHex = some "i-1" ∧
      (approve sampleRuntime { sampleDecide "r-1" 1 with intentIdHex := some "i-2" }).run.Eval
        (Exec sampleRuntime noFaults) proposed (approvedWith (some "i-2")).1
        (approvedWith (some "i-2")).2 ∧
      (∃ x, (approvedWith (some "i-2")).1 = .ok x) ∧
      ((approvedWith (some "i-2")).2.decision "dec-r-1").map (·.intentIdHex) = some (some "i-2") ∧
      ¬ BindsIntent { sampleDecide "r-1" 1 with intentIdHex := some "i-2" }
        ((samplePropose "r-1").request 0) proposed (approvedWith (some "i-2")).1
        (approvedWith (some "i-2")).2 := by
  have hok : ∃ x, (approvedWith (some "i-2")).1 = .ok x := ⟨_, rfl⟩
  refine ⟨by decide +kernel, rfl, approvedWith_eval _, hok, by decide +kernel, fun hb => ?_⟩
  obtain ⟨x, hx⟩ := hok
  obtain ⟨⟨e, he⟩, _⟩ := hb.refused (by decide)
  rw [hx] at he
  cases he

end Piteka.Safety
