import Piteka.Application.EventTime
import Piteka.Application.WebhookScenario

/-!
# The asserted time of an observation

The parser takes every unsigned time, and the node keeps it as a signed word. Up to
2^63 the node asserts the time of the event; from there on it asserts another one,
before the epoch.
-/
namespace Piteka.Safety

set_option autoImplicit false

open Piteka.Interleaving Piteka.Interleaving.Program Piteka.Storage Piteka.Application

/-- The node asserts the time of the event, as an integer. -/
def Asserts (n : EvidenceNodeRecord) (event : DeploymentStatusEvent) : Prop :=
  n.assertedEventAtUnixSeconds.map Int64.toInt = some (event.updatedAt.toNat : Int)

/-- The asserted time is before the epoch. -/
def AssertsNegative (n : EvidenceNodeRecord) : Prop :=
  ∃ t, n.assertedEventAtUnixSeconds = some t ∧ t.toInt < 0

/-- The productions for some events, each at its start. -/
def productions {ι : Type} (cd : Codec) (events : ι → DeploymentStatusEvent) (i : ι) :
    Program PortCall Answer (Except ReceiptProductionError ReceiptProductionResult) :=
  (produceReceiptFromWebhook cd (events i)).run

/-- The one node of a production under the registry of observations is its observation. -/
theorem inserted_observation {cd : Codec} {event : DeploymentStatusEvent} {h : Path}
    {n : EvidenceNodeRecord}
    (hn : Next (produceReceiptFromWebhook cd event).run h (.store (.evidenceNodes (.insert n))))
    (hobs : n.registryId = "org.diewan.evidence.observation.v1") :
    ∃ x now, n = event.observationNode cd x now := by
  cases produceReceiptFromWebhook_next hn with
  | gap t x hu => exact absurd hobs (by simp [DeploymentStatusEvent.gapNode, createGapNode])
  | observation t x => exact ⟨x, t.toInt64, rfl⟩
  | claim t x => exact absurd hobs (by simp [DeploymentStatusEvent.claimNode, createClaimNode])

theorem observation_asserts_iff (cd : Codec) (event : DeploymentStatusEvent) (x : ExecutionAttempt)
    (now : Int64) :
    (Asserts (event.observationNode cd x now) event ↔ event.updatedAt.toNat < 2 ^ 63) ∧
      (AssertsNegative (event.observationNode cd x now) ↔ ¬ event.updatedAt.toNat < 2 ^ 63) := by
  have hnode : (event.observationNode cd x now).assertedEventAtUnixSeconds =
      some event.updatedAt.toInt64 := rfl
  constructor
  · rw [Asserts, hnode, Option.map_some, Option.some_inj]
    exact toInt64_eq_iff
  · simp only [AssertsNegative, hnode, Option.some.injEq, exists_eq_left']
    exact toInt64_neg_iff

section
variable {ι : Type} [DecidableEq ι] {cd : Codec} {events : ι → DeploymentStatusEvent}
  {faults : StoreCall → Prop} {s₀ s : Stores} {log : List (Event ι)}
  {p : ι → Program PortCall Answer (Except ReceiptProductionError ReceiptProductionResult)}

/-- Any number of productions at once, whichever calls fail: each stored observation. -/
theorem asserted_time_iff
    (run : Run (Exec cd.toRuntime faults) s₀ (productions cd events) log s p) {i : ι}
    {n : EvidenceNodeRecord} (hn : nodeInserted n ∈ history i log)
    (hobs : n.registryId = "org.diewan.evidence.observation.v1") :
    s.evidenceNode n.nodeIdHex = some n ∧
      (Asserts n (events i) ↔ (events i).updatedAt.toNat < 2 ^ 63) ∧
      (AssertsNegative n ↔ ¬ (events i).updatedAt.toNat < 2 ^ 63) := by
  obtain ⟨e, he, rfl, hcall⟩ := mem_history.mp hn
  refine ⟨node_stored run.trace he hcall, ?_⟩
  obtain ⟨l₁, l₂, rfl⟩ := List.append_of_mem he
  have hnext := run.at_entry.2
  rw [hcall] at hnext
  obtain ⟨x, now, rfl⟩ := inserted_observation hnext hobs
  exact observation_asserts_iff cd (events e.caller) x now

end

/-! ## The last unsigned time -/

/-- One production for the payload, run to its observation. -/
def observedRun (cd : Codec) (event : DeploymentStatusEvent) :
    Snapshot Unit Answer Stores fun _ => Except ReceiptProductionError ReceiptProductionResult :=
  Snapshot.play (react cd.toRuntime)
    ⟨[], recording sampleAttempt, productions cd fun _ => event⟩ (steps () 3 (.answering none))

theorem observedRun_run (cd : Codec) (event : DeploymentStatusEvent) :
    Run (Exec cd.toRuntime noFaults) (recording sampleAttempt) (productions cd fun _ => event)
      (observedRun cd event).log (observedRun cd event).state (observedRun cd event).pool :=
  play_run (c := ⟨[], _, _⟩) (react_sound _ noFaults) .start _

/-- The observation is stored, and this production stored it. -/
theorem observedRun_stores {cd : Codec} {event : DeploymentStatusEvent} {n : EvidenceNodeRecord}
    (hn : (observedRun cd event).state.evidenceNode n.nodeIdHex = some n) :
    nodeInserted n ∈ history () (observedRun cd event).log := by
  obtain ⟨l₁, e, l₂, hlog, hcall, _, _⟩ :=
    row_written (evidence_node_step · n.nodeIdHex) (observedRun_run cd event).trace rfl hn
  exact mem_history.mpr ⟨e, hlog ▸ List.mem_append_right _ List.mem_cons_self, rfl, hcall⟩

theorem asserted_time_iff_success :
    let event := sampleEvent "success" 200
    let n := event.observationNode sampleCodec sampleAttempt 0
    (observedRun sampleCodec event).state.evidenceNode n.nodeIdHex = some n ∧
      (Asserts n event ↔ event.updatedAt.toNat < 2 ^ 63) ∧
      (AssertsNegative n ↔ ¬ event.updatedAt.toNat < 2 ^ 63) :=
  asserted_time_iff (observedRun_run sampleCodec (sampleEvent "success" 200))
    (observedRun_stores (by decide +kernel)) rfl

def lastTime : UInt64 := 18446744073709551615

/-- The last unsigned time is read from the payload and stored as -1. -/
theorem last_time_wraps :
    let cd := codecReading [samplePayload "success" lastTime]
    let event := sampleEvent "success" lastTime
    let n := event.observationNode cd sampleAttempt 0
    parseDeploymentStatus cd (asBytes (compact (samplePayload "success" lastTime))) = some event ∧
      (observedRun cd event).state.evidenceNode n.nodeIdHex = some n ∧
      n.assertedEventAtUnixSeconds = some (-1) ∧ ¬ Asserts n event ∧ AssertsNegative n := by
  have hparsed : parseDeploymentStatus (codecReading [samplePayload "success" lastTime])
      (asBytes (compact (samplePayload "success" lastTime))) =
        some (sampleEvent "success" lastTime) := by
    unfold parseDeploymentStatus
    rw [codecReading_first]
    rfl
  refine ⟨hparsed, by decide +kernel, rfl, ?_, -1, rfl, by decide⟩
  intro h
  exact absurd (Option.some.inj h) (by decide)

end Piteka.Safety
