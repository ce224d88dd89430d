import Piteka.Application.WebhookIngestionPaths
import Piteka.Interleaving.Fault
import Piteka.Storage.Unreliable

/-!
# Effects of an ingestion that runs alone

Without faults an accepted delivery is a duplicate if its id is stored, and is
recorded and processed if it is not. A store call that fails ends the ingestion
where it stood.
-/
namespace Piteka.Application

set_option autoImplicit false

open Piteka.Interleaving Piteka.Interleaving.Program Piteka.Storage Piteka.Domain WebhookIngestion

variable {cd : Codec} {x : GitHubWebhookPayload} {event : DeploymentStatusEvent} {s s' : Service}

theorem deliveryId_ne_empty (hx : accepted cd x = .ok event) : x.deliveryId ≠ "" := by
  intro hnil
  have hblank : trimIsEmpty x.deliveryId = true := by
    rw [hnil]
    decide
  rw [accepted, if_pos hblank] at hx
  cases hx

theorem accepted_reports (hx : accepted cd x = .ok event) :
    x.eventType = "deployment_status" ∧ parseDeploymentStatus cd x.body = some event := by
  unfold accepted at hx
  split at hx
  · cases hx
  split at hx
  · cases hx
  next htype =>
  split at hx
  · cases hx
  next event' hparse =>
  obtain rfl := Except.ok.inj hx
  exact ⟨not_not.mp htype, hparse⟩

/-- What an accepted delivery comes to when no call fails. -/
theorem ingest_effect (hx : accepted cd x = .ok event) {h : ServicePath}
    {r : Except WebhookError IngestionOutcome} (hr : IngestResult cd x h r)
    (hs : Steps (ServiceExec cd.toRuntime noFaults) s h s') :
    (∃ q, s.1.webhookReceipt x.deliveryId = some q ∧ r = .ok .duplicate) ∨
      (s.1.webhookReceipt x.deliveryId = none ∧
        ∃ b, r = .ok (.processed b (x.rawDigest cd.toRuntime))) := by
  have hne := deliveryId_ne_empty hx
  cases hr with
  | refused hx' =>
    rw [hx] at hx'
    cases hx'
  | seen hx' q =>
    obtain ⟨t, hget, _⟩ := (steps_onLeft.mp hs).1
    exact Or.inl ⟨q, (Except.ok.inj (webhook_get_noFaults hget).1).symm, rfl⟩
  | raced hx' t =>
    obtain ⟨s₁, hget, s₂, hclock, s₃, hrec, _⟩ := (steps_onLeft.mp hs).1
    obtain ⟨hnone, rfl⟩ := webhook_get_noFaults hget
    obtain rfl : s₂ = s.1 := hclock
    rcases record_noFaults hrec hne with ⟨q, hq, _, _⟩ | ⟨_, ha⟩
    · have hsome : s.1.webhookReceipt x.deliveryId = some q := hq
      rw [← Except.ok.inj hnone] at hsome
      cases hsome
    · cases ha
  | processed hx' t b t' =>
    obtain ⟨u, h1, _⟩ := steps_append.mp hs
    obtain ⟨v, h2, _⟩ := steps_append.mp h1
    obtain ⟨s₁, hget, _⟩ := (steps_onLeft.mp h2).1
    exact Or.inr ⟨(Except.ok.inj (webhook_get_noFaults hget).1).symm, b, rfl⟩
  | failed h sc e hp =>
    obtain ⟨u, _, v, hf, _⟩ := steps_append.mp hs
    cases hp with
    | get => cases (webhook_get_noFaults hf.1).1
    | record _ t =>
      rcases record_noFaults hf.1 hne with ⟨_, _, ha, _⟩ | ⟨_, ha⟩
      · cases ha
      · cases ha
    | audit => cases audit_noFaults hf.1

/-! ## One fault -/

/-- The answered call is a store call that failed. -/
def ServiceFailure : (op : ServiceCall) × ServiceAnswer op → Prop
  | ⟨.inl op, a⟩ => Failure ⟨op, a⟩
  | ⟨.inr _, _⟩ => False

/-- Before a call of `ingest` no call of it has failed. -/
theorem IngestPoint.clean {h : ServicePath} {op : ServiceCall} (hp : IngestPoint cd x h op) :
    ∀ d ∈ h, ¬ ServiceFailure d := by
  cases hp <;>
    simp [onLeft, ServiceFailure, Failure, GitHubWebhookPayload.recordedPath,
      GitHubWebhookPayload.trackedPath]

/-- A store call that fails is the last call of its ingestion. -/
theorem ingest_fault {before rest : ServicePath} {sc : StoreCall} {e : StorageError}
    {r : Except WebhookError IngestionOutcome}
    (hr : IngestResult cd x (before ++ onLeft ⟨.store sc, .error e⟩ :: rest) r) :
    rest = [] ∧ r = .error (.storage e) ∧ IngestPoint cd x before (.inl (.store sc)) := by
  generalize hh : before ++ onLeft ⟨.store sc, .error e⟩ :: rest = h at hr
  have hfails : ServiceFailure (onLeft ⟨.store sc, .error e⟩) := trivial
  have hmem : ∃ d ∈ h, ServiceFailure d := by
    refine ⟨_, ?_, hfails⟩
    rw [← hh]
    exact List.mem_append_right _ List.mem_cons_self
  cases hr with
  | failed h' sc' e' hp =>
    obtain ⟨rfl, hc, rfl⟩ := fault_last hp.clean hfails hh.symm
    cases onLeft_inj.mp hc
    exact ⟨rfl, rfl, hp⟩
  | refused hx => simp at hmem
  | seen hx q => simp [onLeft, ServiceFailure, Failure] at hmem
  | raced hx t => simp [onLeft, ServiceFailure, Failure] at hmem
  | processed hx t b t' =>
    simp [onLeft, ServiceFailure, Failure, GitHubWebhookPayload.processedPath,
      GitHubWebhookPayload.recordedPath, GitHubWebhookPayload.trackedPath] at hmem

end Piteka.Application
