import Piteka.Application.DispatchEffects
import Piteka.Application.ReconciliationEffects
import Piteka.Application.Scenario
import Piteka.Safety.SingleDispatch
import Piteka.Safety.Swaps

/-!
# The mandate and its attempt

Every operation writes two stores. In a sequential session the state of the
mandate and the state of its attempt fit together after every call exactly if no
reservation presents the version of a spent mandate and no completion writes the
attempt of a mandate that it then does not move.
-/
namespace Piteka.Safety

set_option autoImplicit false

open Piteka.Interleaving Piteka.Interleaving.Program Piteka.Storage Piteka.Application

variable {rt : Runtime} {s₀ s s' : Stores} {m : String}

/-- The attempt of the mandate `m` is stored in the state `st`. -/
def AttemptIn (m : String) (st : ExecutionAttemptState) (s : Stores) : Prop :=
  ∃ x ∈ s.attempt (attemptIdOf m), x.state = st

instance (m : String) (st : ExecutionAttemptState) (s : Stores) : Decidable (AttemptIn m st s) :=
  inferInstanceAs (Decidable (∃ x ∈ _, _))

/-- The state of the mandate and the state of its attempt fit together. -/
def Agree (m : String) (s : Stores) : Prop :=
  (InState m "reserved" s ↔ AttemptIn m .dispatching s) ∧
    (InState m "consumed" s ↔ AttemptIn m .accepted s ∨ AttemptIn m .reconciledAccepted s) ∧
    (InState m "quarantined" s ↔ AttemptIn m .outcomeAmbiguous s) ∧
    (InState m "abandoned" s ↔ AttemptIn m .abandonedAmbiguous s)

instance (m : String) (s : Stores) : Decidable (Agree m s) :=
  inferInstanceAs (Decidable (_ ∧ _ ∧ _ ∧ _))

/-- The call works on the mandate `m` and its attempt. -/
def OnMandate (m : String) : Call → Prop
  | .reserve a => a.mandateIdHex = m
  | .completeDispatch c => c.mandateIdHex = m ∧ c.attemptIdHex = attemptIdOf m
  | .reconcile a => a.mandateIdHex = m
  | .abandonUnresolved a => a.mandateIdHex = m
  | _ => False

instance (m : String) : DecidablePred (OnMandate m)
  | .reserve _ | .reconcile _ | .abandonUnresolved _ => inferInstanceAs (Decidable (_ = _))
  | .completeDispatch _ => inferInstanceAs (Decidable (_ ∧ _))
  | .propose _ | .approve _ | .reject _ | .revoke _ | .reserveAndDispatch _ =>
    inferInstanceAs (Decidable False)

/-- The condition of one call on the state before it. -/
def KeepsAgreement (m : String) : Call → Stores → Prop
  | .reserve a, s => ApprovedIn s a.requestId →
    ∀ p ∈ s.mandate m, p.version = a.expectedMandateVersion → ¬ isSpentState p.state
  | .completeDispatch c, s => ∀ x ∈ s.attempt (attemptIdOf m), ∀ p ∈ s.mandate m,
    p.version = c.expectedMandateVersion ∨ p.state = c.target
  | _, _ => True

/-- The mandate `m` has been inserted as `issued` and has no attempt. -/
structure FreshlyIssued (m : String) (s : Stores) : Prop where
  issued : InState m "issued" s
  no_attempt : s.attempt (attemptIdOf m) = none
  unowned : ∀ k x, s.attempt k = some x → x.mandateIdHex ≠ m

/-- The pairs of states that agree and that a session passes through. -/
inductive Paired : String → Option ExecutionAttemptState → Prop
  | issued : Paired "issued" none
  | reserved : Paired "reserved" (some .dispatching)
  | consumed : Paired "consumed" (some .accepted)
  | reconciled : Paired "consumed" (some .reconciledAccepted)
  | quarantined : Paired "quarantined" (some .outcomeAmbiguous)
  | abandoned : Paired "abandoned" (some .abandonedAmbiguous)

/-- The invariant of a session whose calls have all met their conditions. -/
structure InStep (m : String) (s : Stores) : Prop where
  keyed : AttemptKeyed m s
  paired : ∃ p, s.mandate m = some p ∧
    Paired p.state ((s.attempt (attemptIdOf m)).map (·.state))

/-- Agreement of two states. -/
def StatesAgree (st : String) (o : Option ExecutionAttemptState) : Prop :=
  (st = "reserved" ↔ o = some .dispatching) ∧
    (st = "consumed" ↔ o = some .accepted ∨ o = some .reconciledAccepted) ∧
    (st = "quarantined" ↔ o = some .outcomeAmbiguous) ∧
    (st = "abandoned" ↔ o = some .abandonedAmbiguous)

instance (st : String) (o : Option ExecutionAttemptState) : Decidable (StatesAgree st o) :=
  inferInstanceAs (Decidable (_ ∧ _ ∧ _ ∧ _))

theorem Paired.agree {st : String} {o : Option ExecutionAttemptState} (h : Paired st o) :
    StatesAgree st o := by
  cases h <;> decide

/-- A mandate with an attempt is reserved and its attempt under way, or it is spent. -/
theorem Paired.of_some {st : String} {o : ExecutionAttemptState} (h : Paired st (some o)) :
    (¬ isSpentState st ∧ o = .dispatching) ∨ (isSpentState st ∧ o ≠ .dispatching) := by
  cases h <;> decide

theorem Paired.of_none {st : String} (h : Paired st none) : ¬ isSpentState st := by
  cases h
  decide

theorem inState_iff {p : MandateProjection} (hp : s.mandate m = some p) (st : String) :
    InState m st s ↔ p.state = st := by
  simp [InState, hp]

theorem attemptIn_iff (st : ExecutionAttemptState) :
    AttemptIn m st s ↔ (s.attempt (attemptIdOf m)).map (·.state) = some st := by
  simp [AttemptIn]

theorem agree_iff {p : MandateProjection} (hp : s.mandate m = some p) :
    Agree m s ↔ StatesAgree p.state ((s.attempt (attemptIdOf m)).map (·.state)) := by
  simp only [Agree, StatesAgree, inState_iff hp, attemptIn_iff]

theorem InStep.agree (h : InStep m s) : Agree m s := by
  obtain ⟨p, hp, hpair⟩ := h.paired
  exact (agree_iff hp).mpr hpair.agree

theorem FreshlyIssued.inStep (h : FreshlyIssued m s) : InStep m s where
  keyed := fun k x hk hx => absurd hx (h.unowned k x hk)
  paired := by
    obtain ⟨p, hp, hst⟩ := h.issued
    refine ⟨p, hp, ?_⟩
    rw [h.no_attempt, hst]
    exact .issued

/-- Attempts stay keyed when the row of `m` itself is written. -/
theorem keyed_of_set {x : ExecutionAttempt} (h : AttemptKeyed m s)
    (hset : AttemptSet s s' (attemptIdOf m) x) : AttemptKeyed m s' := by
  intro k y hk hm
  rw [hset k] at hk
  split at hk
  · assumption
  · exact h k y hk hm

theorem InStep.of_untouched (h : InStep m s) (hk : Untouched s s') : InStep m s' where
  keyed := fun k x hx hm => h.keyed k x ((hk.2 k).symm.trans hx) hm
  paired := by
    obtain ⟨p, hp, hpair⟩ := h.paired
    exact ⟨p, (hk.1 m).trans hp, (hk.2 _).symm ▸ hpair⟩

/-- Both rows are written, to states that go together. -/
theorem InStep.of_set (h : InStep m s) {p : MandateProjection} {x : ExecutionAttempt}
    (hp : s'.mandate m = some p) (hset : AttemptSet s s' (attemptIdOf m) x)
    (hpair : Paired p.state (some x.state)) : InStep m s' where
  keyed := keyed_of_set h.keyed hset
  paired := ⟨p, hp, by rw [hset.self]; exact hpair⟩

/-! ## One call -/

/-- The condition of a reservation, on the stored mandate. -/
theorem keepsAgreement_reserve {a : ReserveArgs} {p : MandateProjection} (hp : s.mandate m = some p) :
    KeepsAgreement m (.reserve a) s ↔
      (ApprovedIn s a.requestId → p.version = a.expectedMandateVersion → ¬ isSpentState p.state) := by
  simp [KeepsAgreement, hp]

/-- The condition of a completion, on the stored mandate. -/
theorem keepsAgreement_complete {c : CompleteArgs} {p : MandateProjection}
    (hp : s.mandate m = some p) :
    KeepsAgreement m (.completeDispatch c) s ↔
      ((s.attempt (attemptIdOf m)).isSome → p.version = c.expectedMandateVersion ∨ p.state = c.target) := by
  simp [KeepsAgreement, hp, Option.isSome_iff_exists]

theorem reserve_keeps {a : ReserveArgs} {r : Except DispatchError DispatchOutcome}
    (ha : a.mandateIdHex = m) (hi : InStep m s)
    (he : (reserve a).run.Eval (Exec rt noFaults) s r s') :
    (KeepsAgreement m (.reserve a) s ∧ InStep m s') ∨
      (¬ KeepsAgreement m (.reserve a) s ∧ ¬ Agree m s') := by
  subst ha
  obtain ⟨p, hp, hpair⟩ := hi.paired
  rw [keepsAgreement_reserve hp]
  cases reserve_effect he with
  | refused hq hk e => exact Or.inl ⟨fun h => absurd h hq, hi.of_untouched hk⟩
  | noMandate hq hnone hk =>
    rw [hp] at hnone
    cases hnone
  | replay hq p' hp' hv hs hk =>
    obtain rfl := Option.some.inj (hp.symm.trans hp')
    exact Or.inl ⟨fun _ hv' => absurd hv' hv, hi.of_untouched hk⟩
  | lost hq p' hp' hv hs hk =>
    obtain rfl := Option.some.inj (hp.symm.trans hp')
    exact Or.inl ⟨fun _ hv' => absurd hv' hv, hi.of_untouched hk⟩
  | taken hq p' hp' hv x hx hm hkeep e =>
    obtain rfl := Option.some.inj (hp.symm.trans hp')
    have hstate : (s'.attempt (attemptIdOf a.mandateIdHex)).map (·.state) = some x.state := by
      rw [hkeep, hx, Option.map_some]
    rw [hx, Option.map_some] at hpair
    rcases hpair.of_some with ⟨hs, ho⟩ | ⟨hs, ho⟩
    · refine Or.inl ⟨fun _ _ => hs, fun k y hk hy => ?_, p.swapped "reserved", hm, ?_⟩
      · exact hi.keyed k y ((hkeep k).symm.trans hk) hy
      · rw [hstate, ho]
        exact .reserved
    · refine Or.inr ⟨fun h => h hq hv hs, fun h => ho ?_⟩
      rw [agree_iff hm, hstate] at h
      exact Option.some.inj (h.1.mp rfl)
  | granted hq p' hp' hv hx hm now hset =>
    obtain rfl := Option.some.inj (hp.symm.trans hp')
    rw [hx, Option.map_none] at hpair
    exact Or.inl ⟨fun _ _ => hpair.of_none, hi.of_set hm hset .reserved⟩

/-- The state that a completion gives to its attempt. -/
def markedState (c : CompleteArgs) : ExecutionAttemptState :=
  if c.acceptedDeployment.isSome then .accepted else .outcomeAmbiguous

theorem marked_state (c : CompleteArgs) (x : ExecutionAttempt) :
    (c.marked x).state = markedState c := by
  unfold CompleteArgs.marked markedState
  cases c.acceptedDeployment <;> rfl

/-- The state given to the attempt goes with the completion's target and with no other state. -/
theorem paired_target (c : CompleteArgs) : Paired c.target (some (markedState c)) := by
  unfold CompleteArgs.target markedState
  split
  · exact .consumed
  · exact .quarantined

theorem target_of_agree {c : CompleteArgs} {st : String}
    (h : StatesAgree st (some (markedState c))) : st = c.target := by
  unfold CompleteArgs.target
  unfold markedState at h
  split at h
  · next hd =>
    rw [if_pos hd]
    exact h.2.1.mpr (Or.inl rfl)
  · next hd =>
    rw [if_neg hd]
    exact h.2.2.1.mpr rfl

theorem completeDispatch_keeps {c : CompleteArgs} {r : Except DispatchError Unit}
    (hc : c.mandateIdHex = m ∧ c.attemptIdHex = attemptIdOf m) (hi : InStep m s)
    (he : (completeDispatch c).run.Eval (Exec rt noFaults) s r s') :
    (KeepsAgreement m (.completeDispatch c) s ∧ InStep m s') ∨
      (¬ KeepsAgreement m (.completeDispatch c) s ∧ ¬ Agree m s') := by
  obtain ⟨rfl, hid⟩ := hc
  obtain ⟨p, hp, hpair⟩ := hi.paired
  have hpair' : Paired (p.swapped c.target).state (some (markedState c)) := paired_target c
  rw [keepsAgreement_complete hp]
  cases completeDispatch_effect he with
  | noAttempt hx hk e =>
    rw [hid] at hx
    refine Or.inl ⟨fun hsome => ?_, hi.of_untouched hk⟩
    rw [hx] at hsome
    cases hsome
  | noMandate x hx hnone =>
    rw [hp] at hnone
    cases hnone
  | closed x hx p' hp' hv hm hset =>
    obtain rfl := Option.some.inj (hp.symm.trans hp')
    rw [hid] at hset
    exact Or.inl ⟨fun _ => Or.inl hv, hi.of_set hm hset (marked_state c x ▸ hpair')⟩
  | stuck x hx p' hp' hv hm hset r =>
    obtain rfl := Option.some.inj (hp.symm.trans hp')
    rw [hid] at hset hx
    by_cases ht : p.state = c.target
    · refine Or.inl ⟨fun _ => Or.inr ht, hi.of_set hm hset ?_⟩
      rw [marked_state, ht]
      exact hpair'
    · refine Or.inr ⟨fun h => (h (by rw [hx]; rfl)).elim hv ht, fun h => ht ?_⟩
      rw [agree_iff hm, hset.self, Option.map_some, marked_state] at h
      exact target_of_agree h

/-- Closing the mandate writes the state that goes with the target. -/
theorem closed_keeps {v : Int64} {target : String} {x y : ExecutionAttempt} (hi : InStep m s)
    (hc : Closed m v target x y s s') (hpair : Paired target (some y.state)) : InStep m s' := by
  obtain ⟨p, _, _, _, hm⟩ := hc.mandate
  have hset := hc.set
  rw [hi.keyed _ _ hc.found hc.owner] at hset
  exact hi.of_set hm hset hpair

theorem call_keeps {c : Call} {r : c.Res} (hc : OnMandate m c) (hi : InStep m s)
    (he : (c.program rt).Eval (Exec rt noFaults) s r s') :
    (KeepsAgreement m c s ∧ InStep m s') ∨ (¬ KeepsAgreement m c s ∧ ¬ Agree m s') := by
  cases c with
  | reserve a => exact reserve_keeps hc hi he
  | completeDispatch c => exact completeDispatch_keeps hc hi he
  | reconcile a =>
    obtain rfl : a.mandateIdHex = m := hc
    refine Or.inl ⟨trivial, ?_⟩
    rcases reconcile_effect he with hk | ⟨x, d, hcl⟩
    · exact hi.of_untouched hk
    · exact closed_keeps hi hcl .reconciled
  | abandonUnresolved a =>
    obtain rfl : a.mandateIdHex = m := hc
    refine Or.inl ⟨trivial, ?_⟩
    rcases abandonUnresolved_effect he with hk | ⟨x, hcl⟩
    · exact hi.of_untouched hk
    · exact closed_keeps hi hcl .abandoned
  | propose a => exact hc.elim
  | approve a => exact hc.elim
  | reject a => exact hc.elim
  | revoke a => exact hc.elim
  | reserveAndDispatch a => exact hc.elim

/-- In a sequential session on a freshly issued mandate the two states agree after every call
exactly if every call meets its condition in the state before it. -/
theorem mandate_and_attempt_agree {log : List (Turn Call Stores)} (h₀ : FreshlyIssued m s₀)
    (session : Session (Exec rt noFaults) (Call.program rt) s₀ log s)
    (hcalls : ∀ t ∈ log, OnMandate m t.call) :
    (∀ t ∈ log, Agree m t.after) ↔ ∀ t ∈ log, KeepsAgreement m t.call t.before :=
  session.good_iff h₀.inStep (fun _ => InStep.agree)
    (fun _ _ _ _ hc hi he => call_keeps hc hi he) hcalls

/-! ## A completion with the wrong version -/

def sessionStart : Stores := afterApproval (Stores.empty.issued "m-1")

def sampleCompletion (deployment : Option UInt64) (expectedVersion : Int64) : CompleteArgs where
  attemptIdHex := "att-m-1"
  mandateIdHex := "m-1"
  intentIdHex := "i-1"
  providerAccepted := deployment.isSome
  deploymentId := deployment
  executorIdentity := "executor"
  expectedMandateVersion := expectedVersion

/-- A reservation, its completion as failed with the version `v`, and a reconciliation that
finds the deployment. -/
def lateSession (v : Int64) : List (Turn Call Stores) × Stores :=
  playedSession sampleRuntime sessionStart
    [(.reserve (sampleReserve "r-1" "m-1" 1), .answering none),
      (.completeDispatch (sampleCompletion none v), .answering none),
      (.reconcile ⟨"m-1", "operator", 3⟩, .answering (some 7))]

theorem sessionStart_freshlyIssued : FreshlyIssued "m-1" sessionStart where
  issued := by decide +kernel
  no_attempt := rfl
  unowned := fun k x hk => by cases hk

/-- The completion keeps the version from before the reservation: the attempt becomes ambiguous
and the mandate stays reserved. -/
theorem stale_completion_disagrees :
    FreshlyIssued "m-1" sessionStart ∧
      Session (Exec sampleRuntime noFaults) (Call.program sampleRuntime) sessionStart
        (lateSession 1).1 (lateSession 1).2 ∧
      (∀ t ∈ (lateSession 1).1, OnMandate "m-1" t.call) ∧
      InState "m-1" "reserved" (lateSession 1).2 ∧
      AttemptIn "m-1" .outcomeAmbiguous (lateSession 1).2 ∧
      ¬ ∀ t ∈ (lateSession 1).1, Agree "m-1" t.after := by
  refine ⟨sessionStart_freshlyIssued, playedSession_session _ _ _ _, ?_, by decide +kernel,
    by decide +kernel, by decide +kernel⟩
  decide +kernel

theorem mandate_and_attempt_agree_reconciled :
    (∀ t ∈ (lateSession 2).1, Agree "m-1" t.after) ↔
      ∀ t ∈ (lateSession 2).1, KeepsAgreement "m-1" t.call t.before :=
  mandate_and_attempt_agree sessionStart_freshlyIssued
    (playedSession_session sampleRuntime noFaults _ _) (by decide +kernel)

end Piteka.Safety
