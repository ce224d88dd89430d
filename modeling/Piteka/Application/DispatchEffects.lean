import Piteka.Application.DispatchPaths
import Piteka.Storage.Steps

/-!
# What a dispatch call does when it runs alone

The effect of `reserve` and of `completeDispatch` on their mandate and on the
attempts, without faults and with nothing in between. `reserve` compares versions
and never states; `completeDispatch` writes the attempt before it swaps the
mandate and keeps that write when the swap is refused.
-/
namespace Piteka.Application

set_option autoImplicit false

open Piteka.Interleaving Piteka.Interleaving.Program Piteka.Storage

variable {rt : Runtime} {s s' : Stores}

/-- The status check of `reserve`. -/
def ApprovedIn (s : Stores) (requestId : String) : Prop :=
  ∃ q, s.request requestId = some q ∧ q.status = .approved

inductive ReserveEffect (a : ReserveArgs) (s s' : Stores) :
    Except DispatchError DispatchOutcome → Prop
  | refused (hq : ¬ ApprovedIn s a.requestId) (hk : Untouched s s') (e : DispatchError) :
      ReserveEffect a s s' (.error e)
  | noMandate (hq : ApprovedIn s a.requestId) (hp : s.mandate a.mandateIdHex = none)
      (hk : Untouched s s') : ReserveEffect a s s' (.error (.mandateNotFound a.mandateIdHex))
  | replay (hq : ApprovedIn s a.requestId) (p : MandateProjection)
      (hp : s.mandate a.mandateIdHex = some p) (hv : p.version ≠ a.expectedMandateVersion)
      (hs : isSpentState p.state) (hk : Untouched s s') :
      ReserveEffect a s s' (.ok (.replayRejected (a.replayRejection p.state)))
  | lost (hq : ApprovedIn s a.requestId) (p : MandateProjection)
      (hp : s.mandate a.mandateIdHex = some p) (hv : p.version ≠ a.expectedMandateVersion)
      (hs : ¬ isSpentState p.state) (hk : Untouched s s') :
      ReserveEffect a s s' (.ok (.reservationFailed ⟨a.mandateIdHex, p.version⟩))
  | taken (hq : ApprovedIn s a.requestId) (p : MandateProjection)
      (hp : s.mandate a.mandateIdHex = some p) (hv : p.version = a.expectedMandateVersion)
      (x : ExecutionAttempt) (hx : s.attempt (attemptIdOf a.mandateIdHex) = some x)
      (hm : s'.mandate a.mandateIdHex = some (p.swapped "reserved"))
      (ha : ∀ k, s'.attempt k = s.attempt k) (e : StorageError) :
      ReserveEffect a s s' (.error (.storage e))
  | granted (hq : ApprovedIn s a.requestId) (p : MandateProjection)
      (hp : s.mandate a.mandateIdHex = some p) (hv : p.version = a.expectedMandateVersion)
      (hx : s.attempt (attemptIdOf a.mandateIdHex) = none)
      (hm : s'.mandate a.mandateIdHex = some (p.swapped "reserved")) (now : Int64)
      (ha : AttemptSet s s' (attemptIdOf a.mandateIdHex)
        { a.attempt now with state := .dispatching }) :
      ReserveEffect a s s' (.ok (.dispatched a.reserved))

/-- Up to its swap, `reserve` only reads. -/
theorem swapped_steps {a : ReserveArgs} {t : UInt64} {q : ActionRequest} {o : CasOutcome}
    {h : Path} (hs : Steps (Exec rt noFaults) s (a.swapped t q o ++ h) s') :
    s.request a.requestId = some q ∧ ∃ s₁, Exec rt noFaults s
      (.store (.mandates (.compareAndSwap a.mandateIdHex a.expectedMandateVersion "reserved")))
      (.ok o) s₁ ∧ Steps (Exec rt noFaults) s₁ h s' := by
  obtain ⟨s₁, hc, s₂, hr, s₃, hx, h1⟩ := hs
  obtain rfl : s₁ = s := hc
  obtain ⟨he, rfl⟩ := request_get_noFaults hr
  exact ⟨(Except.ok.inj he).symm, s₃, hx, h1⟩

theorem attemptIdOf_ne_empty (m : String) : attemptIdOf m ≠ "" := by
  intro h
  exact absurd (String.append_eq_empty_iff.mp h).1 (by decide)

/-- A granted swap, and the insertion that follows it. -/
theorem inserted_steps {a : ReserveArgs} {t : UInt64} {q : ActionRequest} {v : Int64}
    {r : StorageResult Unit} {h : Path}
    (hs : Steps (Exec rt noFaults) s (a.swapped t q (.applied v) ++
      ⟨.store (.attempts (.insert (a.attempt t.toInt64))), r⟩ :: h) s') :
    ∃ p s₁, s.request a.requestId = some q ∧ s.mandate a.mandateIdHex = some p ∧
      p.version = a.expectedMandateVersion ∧
      s₁.mandate a.mandateIdHex = some (p.swapped "reserved") ∧
      Steps (Exec rt noFaults) s₁ h s' ∧
      ((s.attempt (attemptIdOf a.mandateIdHex) = none ∧ r = .ok () ∧
          AttemptSet s s₁ (attemptIdOf a.mandateIdHex) (a.attempt t.toInt64)) ∨
        ∃ x e, s.attempt (attemptIdOf a.mandateIdHex) = some x ∧ r = .error e ∧
          ∀ k, s₁.attempt k = s.attempt k) := by
  obtain ⟨hq, s₁, hx, s₂, hi, h1⟩ := swapped_steps hs
  obtain ⟨p, hp, hv, _, hm⟩ := mandate_applied hx
  have hkeep : ∀ k, s₁.attempt k = s.attempt k := attempt_frame hx (by simp)
  have hm₂ : s₂.mandate a.mandateIdHex = s₁.mandate a.mandateIdHex :=
    mandate_frame hi (by simp) a.mandateIdHex
  refine ⟨p, s₂, hq, hp, hv, hm₂.trans hm, h1, ?_⟩
  rcases attempt_insert_noFaults hi (attemptIdOf_ne_empty _) with
    ⟨hnone, rfl, hset⟩ | ⟨y, e, hy, rfl⟩
  · exact Or.inl ⟨(hkeep _).symm.trans hnone, rfl, hset.after_frame hkeep⟩
  · exact Or.inr ⟨y, e, (hkeep _).symm.trans hy, rfl,
      fun k => ((untouched_of_error hi).2 k).trans (hkeep k)⟩

/-- Once its attempt is under way, a reservation has swapped the mandate and inserted the attempt. -/
theorem dispatching_steps {a : ReserveArgs} {t : UInt64} {q : ActionRequest} {v : Int64} {h : Path}
    (hs : Steps (Exec rt noFaults) s (a.swapped t q (.applied v) ++
      did (.attempts (.insert (a.attempt t.toInt64))) () ::
        did (.attempts (.updateState (attemptIdOf a.mandateIdHex) .dispatching)) () :: h) s') :
    ∃ p s₁, s.request a.requestId = some q ∧ s.mandate a.mandateIdHex = some p ∧
      p.version = a.expectedMandateVersion ∧ s.attempt (attemptIdOf a.mandateIdHex) = none ∧
      s₁.mandate a.mandateIdHex = some (p.swapped "reserved") ∧
      AttemptSet s s₁ (attemptIdOf a.mandateIdHex)
        { a.attempt t.toInt64 with state := .dispatching } ∧
      Steps (Exec rt noFaults) s₁ h s' := by
  obtain ⟨p, s₁, hreq, hp, hv, hm, ⟨s₂, hx, h1⟩, hi⟩ := inserted_steps hs
  rcases hi with ⟨hnone, _, hset⟩ | ⟨x, e, _, h, _⟩
  · rcases attempt_state_noFaults hx with ⟨_, _, e, h⟩ | ⟨y, hy, _, hset'⟩
    · cases h
    · obtain rfl := Option.some.inj (hset.self.symm.trans hy)
      have hmand : s₂.mandate a.mandateIdHex = s₁.mandate a.mandateIdHex :=
        mandate_frame hx (by simp) _
      exact ⟨p, s₂, hreq, hp, hv, hnone, hmand.trans hm, hset.again hset', h1⟩
  · cases h

/-- What a granted reservation has done, and what comes after it. -/
theorem granted_steps {a : ReserveArgs} {t : UInt64} {q : ActionRequest} {v : Int64} {h : Path}
    (hs : Steps (Exec rt noFaults) s (a.granted t q v ++ h) s') :
    ∃ p s₁, s.request a.requestId = some q ∧ s.mandate a.mandateIdHex = some p ∧
      p.version = a.expectedMandateVersion ∧ s.attempt (attemptIdOf a.mandateIdHex) = none ∧
      s₁.mandate a.mandateIdHex = some (p.swapped "reserved") ∧
      AttemptSet s s₁ (attemptIdOf a.mandateIdHex)
        { a.attempt t.toInt64 with state := .dispatching } ∧
      Steps (Exec rt noFaults) s₁ h s' := by
  rw [ReserveArgs.granted, List.append_assoc] at hs
  obtain ⟨p, s₁, hreq, hp, hv, hnone, hm, hset, s₂, hau, h1⟩ := dispatching_steps hs
  have hk : Untouched s₁ s₂ := untouched_of_ne hau (by simp) (by simp)
  exact ⟨p, s₂, hreq, hp, hv, hnone, (hk.1 _).trans hm, hset.of_frame hk.2, h1⟩

/-- Without faults, the one call of a reservation that fails inserts an attempt that exists. -/
theorem reserve_failed {a : ReserveArgs} {h : Path} {c : StoreCall} {e : StorageError}
    (hp : ReservePoint a h (.store c))
    (hs : Steps (Exec rt noFaults) s (h ++ [⟨.store c, .error e⟩]) s') :
    ReserveEffect a s s' (.error (.storage e)) := by
  generalize hc : PortCall.store c = op at hp
  cases hp with
  | clock => cases hc
  | readRequest t =>
    cases hc
    obtain ⟨s₁, _, s₂, hx, _⟩ := hs
    cases (request_get_noFaults hx).1
  | swap t q hq =>
    cases hc
    obtain ⟨s₁, _, s₂, _, s₃, hx, _⟩ := hs
    obtain ⟨o, ho⟩ := mandate_swap_noFaults hx
    cases ho
  | insert t q hq v =>
    cases hc
    obtain ⟨p, s₁, hreq, hp, hv, hm, hs₁, hi⟩ := inserted_steps hs
    obtain rfl : s' = s₁ := hs₁
    rcases hi with ⟨_, h, _⟩ | ⟨x, e', hx, _, hk⟩
    · cases h
    · exact .taken ⟨q, hreq, hq⟩ p hp hv x hx hm hk e
  | dispatching t q hq v =>
    cases hc
    rw [List.append_assoc, List.singleton_append] at hs
    obtain ⟨p, s₁, hreq, hp, hv, hm, ⟨s₂, hx, _⟩, hi⟩ := inserted_steps hs
    rcases hi with ⟨_, _, hset⟩ | ⟨x, e', _, h, _⟩
    · rcases attempt_state_noFaults hx with ⟨hnone, _⟩ | ⟨y, _, h, _⟩
      · have hself : s₁.attempt (attemptIdOf a.mandateIdHex) = some (a.attempt t.toInt64) :=
          hset.self
        rw [hnone] at hself
        cases hself
      · cases h
    · cases h
  | audit t q hq v =>
    cases hc
    rw [List.append_assoc] at hs
    obtain ⟨p, s₁, hreq, hp, hv, hm, ⟨s₂, _, s₃, hx, _⟩, hi⟩ := inserted_steps hs
    cases audit_noFaults hx
  | readMandate t q hq v =>
    cases hc
    obtain ⟨_, s₁, _, s₂, hx, _⟩ := swapped_steps hs
    cases (mandate_get_noFaults hx).1
  | replay t q hq v p hp =>
    cases hc
    rw [List.append_assoc] at hs
    obtain ⟨_, s₁, _, s₂, _, s₃, hx, _⟩ := swapped_steps hs
    cases audit_noFaults hx

theorem reserve_effect {a : ReserveArgs} {r : Except DispatchError DispatchOutcome}
    (he : (reserve a).run.Eval (Exec rt noFaults) s r s') : ReserveEffect a s s' r := by
  obtain ⟨h, hr, hs⟩ := eval_iff_returns.mp he
  cases reserve_returns hr with
  | failed _ _ _ hp => exact reserve_failed hp hs
  | notFound t =>
    obtain ⟨s₁, rfl, s₂, hx, rfl⟩ := hs
    obtain ⟨hq, rfl⟩ := request_get_noFaults hx
    refine .refused ?_ (.refl _) _
    rintro ⟨q, hq', _⟩
    rw [← Except.ok.inj hq] at hq'
    cases hq'
  | invalidTransition t q hst =>
    obtain ⟨s₁, rfl, s₂, hx, rfl⟩ := hs
    obtain ⟨hq, rfl⟩ := request_get_noFaults hx
    refine .refused ?_ (.refl _) _
    rintro ⟨q', hq', hst'⟩
    rw [← Except.ok.inj hq] at hq'
    cases hq'
    exact hst hst'
  | mandateNotFound t q hq =>
    obtain ⟨hreq, s₁, hx, rfl⟩ := swapped_steps (h := []) hs
    obtain ⟨rfl, hp⟩ := mandate_missing hx
    exact .noMandate ⟨q, hreq, hq⟩ hp (.refl _)
  | dispatched t q hq v =>
    rw [← List.append_nil (a.granted t q v)] at hs
    obtain ⟨p, s₁, hreq, hp, hv, hnone, hm, hset, hend⟩ := granted_steps hs
    obtain rfl : s' = s₁ := hend
    exact .granted ⟨q, hreq, hq⟩ p hp hv hnone hm t.toInt64 hset
  | replayRejected t q hq v p hp =>
    obtain ⟨hreq, s₁, hx, s₂, hg, s₃, hau, rfl⟩ := swapped_steps hs
    obtain ⟨rfl, p', hp', hv, _⟩ := mandate_conflict hx
    obtain ⟨hget, rfl⟩ := mandate_get_noFaults hg
    rw [hp'] at hget
    cases hget
    exact .replay ⟨q, hreq, hq⟩ p hp' hv hp (untouched_of_ne hau (by simp) (by simp))
  | reservationFailed t q hq v found hf =>
    obtain ⟨hreq, s₁, hx, s₂, hg, rfl⟩ := swapped_steps hs
    obtain ⟨rfl, p, hp, hv, rfl⟩ := mandate_conflict hx
    obtain ⟨hget, rfl⟩ := mandate_get_noFaults hg
    rw [hp] at hget
    cases hget
    exact .lost ⟨q, hreq, hq⟩ p hp hv (hf p rfl) (.refl _)

/-! ## Completion -/

namespace CompleteArgs

/-- The state to which a completion swaps the mandate. -/
def target (c : CompleteArgs) : String :=
  if c.acceptedDeployment.isSome then "consumed" else "quarantined"

/-- What a completion makes of the attempt before it swaps the mandate. -/
def marked (c : CompleteArgs) (x : ExecutionAttempt) : ExecutionAttempt :=
  match c.acceptedDeployment with
  | some d => { x with state := .accepted, githubDeploymentId := some d }
  | none => { x with state := .outcomeAmbiguous }

end CompleteArgs

inductive CompleteEffect (c : CompleteArgs) (s s' : Stores) : Except DispatchError Unit → Prop
  | noAttempt (hx : s.attempt c.attemptIdHex = none) (hk : Untouched s s') (e : DispatchError) :
      CompleteEffect c s s' (.error e)
  | noMandate (x : ExecutionAttempt) (hx : s.attempt c.attemptIdHex = some x)
      (hp : s.mandate c.mandateIdHex = none) (hm : s'.mandate c.mandateIdHex = none)
      (ha : AttemptSet s s' c.attemptIdHex (c.marked x)) :
      CompleteEffect c s s' (.error (.mandateNotFound c.mandateIdHex))
  | closed (x : ExecutionAttempt) (hx : s.attempt c.attemptIdHex = some x)
      (p : MandateProjection) (hp : s.mandate c.mandateIdHex = some p)
      (hv : p.version = c.expectedMandateVersion)
      (hm : s'.mandate c.mandateIdHex = some (p.swapped c.target))
      (ha : AttemptSet s s' c.attemptIdHex (c.marked x)) :
      CompleteEffect c s s' c.ambiguityReported
  | stuck (x : ExecutionAttempt) (hx : s.attempt c.attemptIdHex = some x)
      (p : MandateProjection) (hp : s.mandate c.mandateIdHex = some p)
      (hv : p.version ≠ c.expectedMandateVersion)
      (hm : s'.mandate c.mandateIdHex = some p)
      (ha : AttemptSet s s' c.attemptIdHex (c.marked x)) (r : Except DispatchError Unit) :
      CompleteEffect c s s' r

/-- What a completion has done when it comes to its swap. -/
structure Marked (c : CompleteArgs) (s s' : Stores) (x : ExecutionAttempt) : Prop where
  found : s.attempt c.attemptIdHex = some x
  mandate : s'.mandate c.mandateIdHex = s.mandate c.mandateIdHex
  set : AttemptSet s s' c.attemptIdHex (c.marked x)

theorem accepted_steps {c : CompleteArgs} {t d : UInt64} (hd : c.acceptedDeployment = some d)
    {h : Path} (hs : Steps (Exec rt noFaults) s
      ([ticked t, did (.attempts (.updateState c.attemptIdHex .accepted)) (),
        did (.attempts (.updateDeploymentId c.attemptIdHex d)) ()] ++ h) s') :
    ∃ x s₁, Marked c s s₁ x ∧ Steps (Exec rt noFaults) s₁ h s' := by
  obtain ⟨s₁, rfl, s₂, hx, s₃, hy, h1⟩ := hs
  rcases attempt_state_noFaults hx with ⟨_, _, e, h⟩ | ⟨x, hf, _, hset⟩
  · cases h
  rcases attempt_deployment_noFaults hy with ⟨_, _, e, h⟩ | ⟨y, hg, _, hset'⟩
  · cases h
  obtain rfl := Option.some.inj (hset.self.symm.trans hg)
  refine ⟨x, s₃, ⟨hf, ?_, ?_⟩, h1⟩
  · exact (mandate_frame hy (by simp) _).trans (mandate_frame hx (by simp) _)
  · have hset₃ := hset.again hset'
    simpa only [CompleteArgs.marked, hd] using hset₃

theorem ambiguous_steps {c : CompleteArgs} {t : UInt64} (hd : c.acceptedDeployment = none)
    {h : Path} (hs : Steps (Exec rt noFaults) s
      ([ticked t, did (.attempts (.updateState c.attemptIdHex .outcomeAmbiguous)) ()] ++ h) s') :
    ∃ x s₁, Marked c s s₁ x ∧ Steps (Exec rt noFaults) s₁ h s' := by
  obtain ⟨s₁, rfl, s₂, hx, h1⟩ := hs
  rcases attempt_state_noFaults hx with ⟨_, _, e, h⟩ | ⟨x, hf, _, hset⟩
  · cases h
  refine ⟨x, s₂, ⟨hf, mandate_frame hx (by simp) _, ?_⟩, h1⟩
  simpa only [CompleteArgs.marked, hd] using hset

/-- The swap of a completion. -/
theorem Marked.swapped {c : CompleteArgs} {x : ExecutionAttempt} {s₁ s₂ : Stores}
    (hm : Marked c s s₁ x) {v : Int64}
    (hx : Exec rt noFaults s₁
      (.store (.mandates (.compareAndSwap c.mandateIdHex c.expectedMandateVersion c.target)))
      (.ok (.applied v)) s₂) :
    ∃ p, s.mandate c.mandateIdHex = some p ∧ p.version = c.expectedMandateVersion ∧
      s₂.mandate c.mandateIdHex = some (p.swapped c.target) ∧
      AttemptSet s s₂ c.attemptIdHex (c.marked x) := by
  obtain ⟨p, hp, hv, _, hafter⟩ := mandate_applied hx
  exact ⟨p, hm.mandate.symm.trans hp, hv, hafter, hm.set.of_frame (attempt_frame hx (by simp))⟩

/-- The swap of a completion and the audit event after it. -/
theorem Marked.applied {c : CompleteArgs} {x : ExecutionAttempt} {s₁ s₂ : Stores}
    (hm : Marked c s s₁ x) {v : Int64}
    (hx : Exec rt noFaults s₁
      (.store (.mandates (.compareAndSwap c.mandateIdHex c.expectedMandateVersion c.target)))
      (.ok (.applied v)) s₂) (hk : Untouched s₂ s') : CompleteEffect c s s' c.ambiguityReported := by
  obtain ⟨p, hp, hv, hafter, hset⟩ := hm.swapped hx
  exact .closed x hm.found p hp hv ((hk.1 _).trans hafter) (hset.of_frame hk.2)

theorem Marked.conflict {c : CompleteArgs} {x : ExecutionAttempt} {s₁ s₂ : Stores}
    (hm : Marked c s s₁ x) {v : Int64}
    (hx : Exec rt noFaults s₁
      (.store (.mandates (.compareAndSwap c.mandateIdHex c.expectedMandateVersion c.target)))
      (.ok (.conflict v)) s₂) (r : Except DispatchError Unit) : CompleteEffect c s s₂ r := by
  obtain ⟨rfl, p, hp, hv, _⟩ := mandate_conflict hx
  exact .stuck x hm.found p (hm.mandate.symm.trans hp) hv hp hm.set r

theorem Marked.missing {c : CompleteArgs} {x : ExecutionAttempt} {s₁ s₂ : Stores}
    (hm : Marked c s s₁ x)
    (hx : Exec rt noFaults s₁
      (.store (.mandates (.compareAndSwap c.mandateIdHex c.expectedMandateVersion c.target)))
      (.ok .missing) s₂) :
    CompleteEffect c s s₂ (.error (.mandateNotFound c.mandateIdHex)) := by
  obtain ⟨rfl, hp⟩ := mandate_missing hx
  exact .noMandate x hm.found (hm.mandate.symm.trans hp) hp hm.set

/-- Without faults, the one call of a completion that fails is its first write, to an attempt that
is not there. -/
theorem completeDispatch_failed {c : CompleteArgs} {h : Path} {sc : StoreCall} {e : StorageError}
    (hp : CompletePoint c h (.store sc))
    (hs : Steps (Exec rt noFaults) s (h ++ [⟨.store sc, .error e⟩]) s') :
    CompleteEffect c s s' (.error (.storage e)) := by
  generalize hc : PortCall.store sc = op at hp
  cases hp with
  | clock => cases hc
  | accepted t d hd =>
    cases hc
    obtain ⟨s₁, rfl, s₂, hx, rfl⟩ := hs
    rcases attempt_state_noFaults hx with ⟨hnone, rfl, _⟩ | ⟨x, _, h, _⟩
    · exact .noAttempt hnone (.refl _) _
    · cases h
  | deployment t d hd =>
    cases hc
    obtain ⟨s₁, rfl, s₂, hx, s₃, hy, rfl⟩ := hs
    rcases attempt_state_noFaults hx with ⟨_, _, _, h⟩ | ⟨x, _, _, hset⟩
    · cases h
    rcases attempt_deployment_noFaults hy with ⟨hnone, _⟩ | ⟨y, _, h, _⟩
    · have hself := hset.self
      rw [hnone] at hself
      cases hself
    · cases h
  | consume t d hd =>
    cases hc
    obtain ⟨x, s₁, _, s₂, hx, _⟩ := accepted_steps hd hs
    obtain ⟨o, ho⟩ := mandate_swap_noFaults hx
    cases ho
  | consumeAudit t d hd v =>
    cases hc
    obtain ⟨x, s₁, _, s₂, _, s₃, hx, _⟩ := accepted_steps hd hs
    cases audit_noFaults hx
  | ambiguous t hd =>
    cases hc
    obtain ⟨s₁, rfl, s₂, hx, rfl⟩ := hs
    rcases attempt_state_noFaults hx with ⟨hnone, rfl, _⟩ | ⟨x, _, h, _⟩
    · exact .noAttempt hnone (.refl _) _
    · cases h
  | quarantine t hd =>
    cases hc
    obtain ⟨x, s₁, _, s₂, hx, _⟩ := ambiguous_steps hd hs
    obtain ⟨o, ho⟩ := mandate_swap_noFaults hx
    cases ho
  | quarantineAudit t hd v =>
    cases hc
    obtain ⟨x, s₁, _, s₂, _, s₃, hx, _⟩ := ambiguous_steps hd hs
    cases audit_noFaults hx

theorem completeDispatch_effect {c : CompleteArgs} {r : Except DispatchError Unit}
    (he : (completeDispatch c).run.Eval (Exec rt noFaults) s r s') : CompleteEffect c s s' r := by
  obtain ⟨h, hr, hs⟩ := eval_iff_returns.mp he
  have hcons : ∀ d, c.acceptedDeployment = some d → c.target = "consumed" := by
    intro d hd
    rw [CompleteArgs.target, hd]
    rfl
  have hquar : c.acceptedDeployment = none → c.target = "quarantined" := by
    intro hd
    rw [CompleteArgs.target, hd]
    rfl
  cases completeDispatch_returns hr with
  | failed _ _ _ hp => exact completeDispatch_failed hp hs
  | consumed t d hd v =>
    obtain ⟨x, s₁, hm, s₂, hx, s₃, hau, rfl⟩ := accepted_steps hd hs
    have hrep : c.ambiguityReported = .ok () := by
      rw [CompleteArgs.ambiguityReported, CompleteArgs.not_missing_of_accepted hd]
      rfl
    rw [← hcons d hd] at hx
    exact hrep ▸ hm.applied hx (untouched_of_ne hau (by simp) (by simp))
  | alreadyConsumed t d hd v =>
    obtain ⟨x, s₁, hm, s₂, hx, rfl⟩ := accepted_steps hd hs
    rw [← hcons d hd] at hx
    exact hm.conflict hx _
  | consumedMissing t d hd =>
    obtain ⟨x, s₁, hm, s₂, hx, rfl⟩ := accepted_steps hd hs
    rw [← hcons d hd] at hx
    exact hm.missing hx
  | quarantined t hd v =>
    obtain ⟨x, s₁, hm, s₂, hx, s₃, hau, rfl⟩ := ambiguous_steps hd hs
    rw [← hquar hd] at hx
    exact hm.applied hx (untouched_of_ne hau (by simp) (by simp))
  | swallowed t hd v =>
    obtain ⟨x, s₁, hm, s₂, hx, rfl⟩ := ambiguous_steps hd hs
    rw [← hquar hd] at hx
    exact hm.conflict hx _
  | quarantineMissing t hd =>
    obtain ⟨x, s₁, hm, s₂, hx, rfl⟩ := ambiguous_steps hd hs
    rw [← hquar hd] at hx
    exact hm.missing hx

end Piteka.Application
