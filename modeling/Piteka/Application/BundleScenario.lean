import Piteka.Application.Tasks
import Piteka.Application.WebhookScenario

/-!
# Bundle scenarios

The codec of the webhook scenarios, extended by the digests of the texts that the
bundle of the sample delivery is made of.
-/
namespace Piteka.Application

set_option autoImplicit false

open Piteka.Interleaving Piteka.Storage

def sampleObservation : EvidenceNodeRecord :=
  (sampleEvent "success" 200).observationNode sampleCodec sampleAttempt 0

def sampleClaim : EvidenceNodeRecord :=
  (sampleEvent "success" 200).claimNode sampleCodec sampleAttempt 0

def sampleReceipt : ReceiptProjection :=
  (sampleEvent "success" 200).receipt sampleCodec sampleAttempt 0

def sampleManifest : Json :=
  assembleManifest sampleReceipt [sampleClaim] [sampleObservation] []

/-- SHA-256 at the texts of the sample bundle. -/
def bundleDigests : List (String × Nat) := [
  (compact (nodePayload sampleObservation),
    0x803ce358897c087ea70e34f1696f10435319ff3f658c6a70ddbfcbdcb4e7d968),
  (compact (nodePayload sampleClaim),
    0x54b6ab04e93f4607a3ea0abe90feef190afab10f8d6d1ad2f5deb8b713ca9c1e),
  (compact sampleManifest,
    0x41ce41539fea9f6ac4bcbfe8f1ece0be7b8142f58b80841312fbf8c2c845d259)]

def bundleCodec : Codec where
  toRuntime := {
    sampleRuntime with
    sha256 := fun bytes =>
      match (webhookDigests ++ bundleDigests).find? fun d =>
          (asBytes d.1).toList = bytes.toList with
      | some (_, digest) => digestBytes digest
      | none => sampleRuntime.sha256 bytes }
  toVec := sampleCodec.toVec
  fromSlice := sampleCodec.fromSlice
  parseFromRfc3339 := sampleCodec.parseFromRfc3339

/-- One processor and one assembly of the receipt that it produces. -/
def deliveredThenExported : Pair → Task
  | .first => .process (sampleDelivery "d-1" "success" 200)
  | .second => .assembleBundle "rcpt-att-m-1"

/-- The delivery is processed, then the bundle is assembled. -/
@[irreducible] def exportRun : Snapshot Pair Answer Stores fun i => (deliveredThenExported i).Res :=
  Snapshot.play (react bundleCodec.toRuntime)
    ⟨[], recording sampleAttempt, fun i => (deliveredThenExported i).program bundleCodec⟩
    (steps .first 8 (.answering none) ++ steps .second 8 (.answering none))

theorem exportRun_run (faults : StoreCall → Prop) :
    TaskRun bundleCodec faults deliveredThenExported (recording sampleAttempt) exportRun.log
      exportRun.state exportRun.pool := by
  unfold exportRun
  exact play_run (c := ⟨[], _, _⟩) (react_sound _ faults) .start _

/-- What the exporters read of the sample receipt. -/
def sampleCase : CaseFile where
  receipt := sampleReceipt
  dispatchNodes := [sampleClaim]
  targetNodes := [sampleObservation]
  gapNodes := []

/-- What the assembly has returned. -/
def exportResult : Option (Except BundleExportError BundleExport) :=
  (exportRun.pool .second).result?

/-- The run in one evaluation: what is stored and what is returned. -/
theorem exportRun_evaluated : caseFile exportRun.state "rcpt-att-m-1" = .ok sampleCase ∧
    exportResult = some (.ok (sampleCase.bundle bundleCodec)) ∧
    ∀ n ∈ sampleCase.nodes, exportRun.state.blob n.contentDigest = none := by
  decide +kernel

theorem exportRun_bundle : exportRun.pool .second = .ret (.ok (sampleCase.bundle bundleCodec)) :=
  Program.eq_ret_of_result? exportRun_evaluated.2.1

/-! ## The first key of a written object -/

theorem intercalate_head (sep x : String) (xs : List String) :
    ∃ tail, (sep.intercalate (x :: xs)).toList = x.toList ++ tail := by
  induction xs generalizing x with
  | nil => exact ⟨[], (List.append_nil _).symm⟩
  | cons y ys ih =>
    obtain ⟨tail, h⟩ := ih (x ++ sep ++ y)
    have hgo : sep.intercalate (x :: y :: ys) = sep.intercalate ((x ++ sep ++ y) :: ys) := rfl
    rw [hgo, h, String.toList_append, String.toList_append, List.append_assoc, List.append_assoc]
    exact ⟨_, rfl⟩

/-- An object is written with its least key first. -/
theorem compact_head {fields : List (String × Json)} {rest : List (String × String)}
    {key text : String} (h : (compactFields fields).foldr insertField [] = (key, text) :: rest) :
    ∃ tail, (compact (.object fields)).toList = '\x7b' :: '"' :: (key.toList ++ tail) := by
  obtain ⟨tail, ht⟩ := intercalate_head "," (quoted key ++ ":" ++ text)
    (rest.map fun f => quoted f.1 ++ ":" ++ f.2)
  unfold compact objectText
  rw [h, List.map_cons, String.toList_append, String.toList_append, ht]
  simp [quoted]

theorem record_head (n : EvidenceNodeRecord) :
    ∃ tail, (compact (nodePayload n)).toList = '\x7b' :: '"' :: 'a' :: tail := by
  have hsorted : ∃ fields, nodePayload n = .object fields ∧ ∃ text rest,
      (compactFields fields).foldr insertField [] = ("asserted_event_at", text) :: rest := by
    refine ⟨_, rfl, ?_⟩
    simp +decide [compactFields, insertField]
  obtain ⟨fields, hfields, text, rest, hsorted⟩ := hsorted
  obtain ⟨tail, ht⟩ := compact_head hsorted
  have hkey : "asserted_event_at".toList = 'a' :: "sserted_event_at".toList := by decide
  rw [hfields, ht, hkey]
  exact ⟨_, rfl⟩

end Piteka.Application
