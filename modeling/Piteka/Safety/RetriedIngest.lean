import Piteka.Application.IngestionEffects
import Piteka.Application.IngestionScenario

/-!
# Retry of a failed ingestion

An ingestion in which one store call fails returns an error, and the sender tries
again with the same delivery id. A failed check or a failed record leaves nothing
behind, so the retry is a first try. A failed audit event comes after the record:
the delivery is on file as seen, and no retry gets to the processor.
-/
namespace Piteka.Safety

set_option autoImplicit false

open Piteka.Interleaving Piteka.Interleaving.Program Piteka.Storage Piteka.Application
open WebhookIngestion

variable {cd : Codec} {x : GitHubWebhookPayload} {event : DeploymentStatusEvent} {s s' : Service}

/-- From `s'` the delivery fares as it would have from `s`. -/
structure Retryable (cd : Codec) (x : GitHubWebhookPayload) (s s' : Service) : Prop where
  unseen : s.1.webhookReceipt x.deliveryId = none → s'.1.webhookReceipt x.deliveryId = none
  returns : ∃ r t, (ingest cd x).run.Eval (ServiceExec cd.toRuntime noFaults) s' r t
  processed : s.1.webhookReceipt x.deliveryId = none →
    ∀ r t, (ingest cd x).run.Eval (ServiceExec cd.toRuntime noFaults) s' r t →
      ∃ b, r = .ok (.processed b (x.rawDigest cd.toRuntime))
  sameHandling : ∀ (processor : EventProcessor) r t,
    (handleWebhook cd processor x).Eval (ServiceExec cd.toRuntime noFaults) s' r t ↔
      (handleWebhook cd processor x).Eval (ServiceExec cd.toRuntime noFaults) s r t

/-- An accepted delivery can be retried from the state that it was tried from. -/
theorem retryable_unchanged (hx : accepted cd x = .ok event) : Retryable cd x s s where
  unseen h := h
  returns :=
    ⟨_, _, alone_eval (serviceReact_sound cd.toRuntime noFaults (.answering none)) _ s⟩
  processed hnone r t he := by
    obtain ⟨h, hr, hs⟩ := eval_iff_returns.mp he
    rcases ingest_effect hx (ingest_returns hr) hs with ⟨q, hq, _⟩ | ⟨_, h⟩
    · rw [hnone] at hq
      cases hq
    · exact h
  sameHandling _ _ _ := Iff.rfl

/-- An ingestion that comes to its audit event has found the delivery unseen and recorded it. -/
theorem audit_point_recorded {t : UInt64} {b : Bool} {t' : UInt64}
    (hs : Steps (ServiceExec cd.toRuntime noFaults) s
      (x.trackedPath cd.toRuntime event t b ++ atPorts [ticked t']) s') :
    s.1.webhookReceipt x.deliveryId = none ∧
      s'.1.webhookReceipt x.deliveryId = some (x.receipt cd.toRuntime t.toInt64) := by
  obtain ⟨u, h1, h2⟩ := steps_append.mp hs
  obtain ⟨v, h3, w, htrack, rfl⟩ := steps_append.mp h1
  obtain ⟨s₁, hget, s₂, hclock, s₃, hrec, hv⟩ := (steps_onLeft.mp h3).1
  obtain ⟨hnone, rfl⟩ := webhook_get_noFaults hget
  have hrow := (recorded_effect (unreliable_of_exec hrec)).2
  obtain ⟨s₄, hclock', hend⟩ := (steps_onLeft.mp h2).1
  have hsame : s'.1 = s₃ := by
    rw [show s'.1 = s₄ from hend, show s₄ = u.1 from hclock', htrack.2, show v.1 = s₃ from hv]
  rw [hsame]
  exact ⟨(Except.ok.inj hnone).symm, hrow⟩

/-- With one failed store call an ingestion returns an error, and it can be retried exactly if
the failed call is not the audit event. -/
theorem failed_ingest_retryable_iff {before : ServicePath} {sc : StoreCall} {e : StorageError}
    {r : Except WebhookError IngestionOutcome}
    (hf : EvalWithFault (ServiceExec cd.toRuntime noFaults) (ingest cd x).run s before
      (onLeft ⟨.store sc, .error e⟩) r s') :
    r = .error (.storage e) ∧ (Retryable cd x s s' ↔ ∀ ev, sc ≠ .audit (.append ev)) := by
  obtain ⟨rest, t, hr, hbefore, hafter⟩ := hf
  obtain ⟨rfl, rfl, hp⟩ := ingest_fault (ingest_returns hr)
  obtain rfl : s' = t := hafter
  refine ⟨rfl, ?_⟩
  cases hp with
  | get hx =>
    obtain rfl : s' = s := hbefore
    exact iff_of_true (retryable_unchanged hx) (by simp)
  | record hx t =>
    obtain ⟨⟨s₁, hget, s₂, hclock, hend⟩, htracker⟩ := steps_onLeft.mp hbefore
    have hsame : s' = s := by
      refine Prod.ext ?_ htracker
      rw [show s'.1 = s₂ from hend, show s₂ = s₁ from hclock, (webhook_get_noFaults hget).2]
    rw [hsame]
    exact iff_of_true (retryable_unchanged hx) (by simp)
  | audit hx t b t' =>
    obtain ⟨hnone, hsome⟩ := audit_point_recorded hbefore
    refine iff_of_false (fun hretry => ?_) (fun h => h _ rfl)
    rw [hretry.unseen hnone] at hsome
    cases hsome

/-! ## A swallowed delivery -/

theorem ingest_audit_failure_returns (hx : accepted cd x = .ok event) (t : UInt64) (b : Bool)
    (t' : UInt64) (e : StorageError) :
    Returns (ingest cd x).run
      (x.trackedPath cd.toRuntime event t b ++ atPorts [ticked t'] ++
        [onLeft ⟨.store (.audit (.append (x.ingestedEvent b t'.toInt64))), .error e⟩])
      (.error (.storage e)) := by
  unfold ingest
  rw [hx]
  exact .call (.call (.call (.call (.call (.call (.here _))))))

theorem seen_delivery_is_duplicate (hx : accepted cd x = .ok event) {q : WebhookReceipt}
    (hq : s.1.webhookReceipt x.deliveryId = some q) :
    (ingest cd x).run.Eval (ServiceExec cd.toRuntime noFaults) s (.ok .duplicate) s := by
  unfold ingest
  rw [hx]
  refine ⟨.ok (some q), s, ⟨Or.inl ⟨.asListed, ?_⟩, rfl⟩, rfl, rfl⟩
  exact Prod.ext (congrArg Except.ok hq) rfl

/-- After the failure of its audit event an unseen delivery is a duplicate. -/
theorem audit_failure_leads_to_duplicate (hx : accepted cd x = .ok event)
    (hnone : s.1.webhookReceipt x.deliveryId = none) (e : StorageError) :
    ∃ before ev s',
      EvalWithFault (ServiceExec cd.toRuntime noFaults) (ingest cd x).run s before
        (onLeft ⟨.store (.audit (.append ev)), .error e⟩) (.error (.storage e)) s' ∧
      (ingest cd x).run.Eval (ServiceExec cd.toRuntime noFaults) s' (.ok .duplicate) s' := by
  rcases s.1.webhookReceipts.record_cases (x.receipt cd.toRuntime 0) with
    ⟨h, _⟩ | ⟨q, hq, _⟩ | ⟨w, _, hrec, hget⟩
  · exact absurd h (deliveryId_ne_empty hx)
  · have hsome : s.1.webhookReceipt x.deliveryId = some q := hq
    rw [hnone] at hsome
    cases hsome
  let stored : Stores := { s.1 with webhookReceipts := w }
  let b := (s.2.record event.deploymentId event.updatedAt).1
  let tracker := (s.2.record event.deploymentId event.updatedAt).2
  have hsteps : Steps (ServiceExec cd.toRuntime noFaults) s
      (x.trackedPath cd.toRuntime event 0 b ++ atPorts [ticked 0]) (stored, tracker) := by
    have hgot : Exec cd.toRuntime noFaults s.1 (.store (.webhookReceipts (.get x.deliveryId)))
        (.ok none) s.1 := Or.inl ⟨.asListed, Prod.ext (congrArg Except.ok hnone) rfl⟩
    have hrecorded : Exec cd.toRuntime noFaults s.1
        (.store (.webhookReceipts (.record (x.receipt cd.toRuntime 0)))) (.ok .recorded) stored := by
      refine Or.inl ⟨.asListed, ?_⟩
      simp only [StoreCall.run, hrec, stored]
    refine steps_append.mpr ⟨(stored, tracker), steps_append.mpr ⟨(stored, s.2), ?_, ?_⟩, ?_⟩
    · exact steps_onLeft.mpr ⟨⟨s.1, hgot, s.1, rfl, stored, hrecorded, rfl⟩, rfl⟩
    · exact ⟨(stored, tracker), ⟨rfl, rfl⟩, rfl⟩
    · exact steps_onLeft.mpr ⟨⟨stored, rfl, rfl⟩, rfl⟩
  refine ⟨_, x.ingestedEvent b 0, (stored, tracker),
    ⟨[], _, ingest_audit_failure_returns hx 0 b 0 e, hsteps, rfl⟩, ?_⟩
  exact seen_delivery_is_duplicate hx (audit_point_recorded hsteps).2

theorem sample_accepted : accepted sampleCodec (samplePost "d-1" "success" 200) =
    .ok (sampleEvent "success" 200) := by
  decide +kernel

/-- The audit log fails once while delivery `d-1` is ingested: the ingestion returns the error,
and the retry of the delivery is a duplicate. -/
theorem audit_failure_swallows_delivery :
    ∃ before ev s',
      EvalWithFault (ServiceExec sampleCodec.toRuntime noFaults)
        (ingest sampleCodec (samplePost "d-1" "success" 200)).run
        (started (recording sampleAttempt)) before
        (onLeft ⟨.store (.audit (.append ev)), .error (.backend "down")⟩)
        (.error (.storage (.backend "down"))) s' ∧
      (started (recording sampleAttempt)).1.webhookReceipt "d-1" = none ∧
      (ingest sampleCodec (samplePost "d-1" "success" 200)).run.Eval
        (ServiceExec sampleCodec.toRuntime noFaults) s' (.ok .duplicate) s' := by
  obtain ⟨before, ev, s', hf, hdup⟩ :=
    audit_failure_leads_to_duplicate (s := started (recording sampleAttempt)) sample_accepted rfl
      (.backend "down")
  exact ⟨before, ev, s', hf, rfl, hdup⟩

/-- The replay check fails instead: then the delivery can be retried. -/
theorem failed_check_can_be_retried :
    Retryable sampleCodec (samplePost "d-1" "success" 200) (started (recording sampleAttempt))
      (started (recording sampleAttempt)) := by
  have hf : EvalWithFault (ServiceExec sampleCodec.toRuntime noFaults)
      (ingest sampleCodec (samplePost "d-1" "success" 200)).run
      (started (recording sampleAttempt)) []
      (onLeft ⟨.store (.webhookReceipts (.get "d-1")), .error (.backend "down")⟩)
      (.error (.storage (.backend "down"))) (started (recording sampleAttempt)) := by
    refine ⟨[], _, ?_, rfl, rfl⟩
    unfold ingest
    rw [sample_accepted]
    exact .call (.here _)
  exact (failed_ingest_retryable_iff hf).2.mpr (by simp)

end Piteka.Safety
