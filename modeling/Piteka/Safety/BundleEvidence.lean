import Piteka.Safety.StableBundles

/-!
# The evidence that a bundle commits to

The content digest of a node is the hash of the payload that the node was created
from. The bundle stores another text for the node, its record, under another
digest. So a run puts nothing under the content digests that a manifest lists, and
the payloads can be fetched exactly when they had been put there before it.
-/
namespace Piteka.Safety

set_option autoImplicit false

open Piteka.Interleaving Piteka.Interleaving.Program Piteka.Storage Piteka.Application

/-- The blob store returns bytes for the digest, and they hash to it. -/
def Carried (cd : Codec) (s : Stores) (d : ContentDigest) : Prop :=
  ∃ bytes, s.blob d = some bytes ∧ ContentDigest.of cd.toRuntime bytes = d

/-- The payloads that are hashed when the nodes of a status are created. -/
def contents (cd : Codec) (event : DeploymentStatusEvent) : List (Array UInt8) :=
  [cd.toVec (claimPayload event.outcome), cd.toVec (observationPayload event)] ++
    if event.outcome = .unknown then
      [asBytes "GitHub deployment status is pending/inactive; outcome cannot be determined"]
    else []

/-- The bytes that a call puts as a blob. -/
def blobBytes {ι : Type} (e : Event ι) : Option (Array UInt8) :=
  match e.call.1 with
  | .store (.evidence (.put bytes)) => some bytes
  | _ => none

/-- The writer never writes the record of a node and a payload of the status alike. -/
def RecordsApart (cd : Codec) (event : DeploymentStatusEvent) : Prop :=
  ∀ n, nodeBytes cd n ∉ contents cd event

section
variable {ι : Type} [DecidableEq ι] {cd : Codec} {faults : StoreCall → Prop} {tasks : ι → Task}
  {s₀ s : Stores} {log : List (Event ι)} {p : (i : ι) → Program PortCall Answer (tasks i).Res}
  {event : DeploymentStatusEvent}

/-- No blob appears under a content digest of the status. -/
theorem content_blob (run : TaskRun cd faults tasks s₀ log s p) (hapart : RecordsApart cd event)
    (free : CollisionFree cd.toRuntime (contents cd event ++ log.filterMap blobBytes))
    {content bytes : Array UInt8} (hc : content ∈ contents cd event)
    (hb : s.blob (.of cd.toRuntime content) = some bytes) :
    s₀.blob (.of cd.toRuntime content) = some bytes := by
  cases h₀ : s₀.blob (.of cd.toRuntime content) with
  | some b =>
    have hsame := row_kept (blob_step · _) run.trace h₀
    exact hsame.symm.trans hb
  | none =>
    obtain ⟨l₁, e, l₂, rfl, hcall, hdigest, _⟩ := row_written (blob_step · _) run.trace h₀ hb
    have hput : bytes ∈ (l₁ ++ e :: l₂).filterMap blobBytes := by
      refine List.mem_filterMap.mpr ⟨e, List.mem_append_right _ List.mem_cons_self, ?_⟩
      rw [blobBytes, hcall]
    have hbytes : bytes = content :=
      free _ (List.mem_append_right _ hput) _ (List.mem_append_left _ hc)
        (congrArg ContentDigest.bytes hdigest)
    have hnext := run.at_entry.2
    rw [hcall] at hnext
    obtain ⟨n, hn⟩ := Task.blob_put_next hnext
    exact absurd (hn ▸ hbytes ▸ hc) (hapart n)

/-- The manifest of a produced receipt lists the digests of the payloads, one for each. -/
theorem produced_case (run : TaskRun cd faults tasks s₀ log s p) {q : ReceiptProjection}
    (hq : ProducedReceipt cd tasks log event q) {c : CaseFile}
    (hcase : caseFile s q.receiptIdHex = .ok c) :
    c.nodes.map (·.contentDigest) = (contents cd event).map (.of cd.toRuntime) := by
  have hstored : s.receipt q.receiptIdHex = some q := by
    obtain ⟨e, he, hcall, _⟩ := hq
    exact receipt_stored run.trace he hcall
  obtain ⟨x, now, rfl, hnodes⟩ := produced_nodes run hq
  obtain ⟨hreceipt, hd, ht, hg⟩ := caseFile_ok.mp hcase
  have hsame : c.receipt = event.receipt cd x now := Option.some.inj (hreceipt.symm.trans hstored)
  rw [hsame] at hd ht hg
  have hclaim : c.dispatchNodes = [event.claimNode cd x now] :=
    resolveTo_singleton (hnodes _ .claim) hd
  have hobservation : c.targetNodes = [event.observationNode cd x now] :=
    resolveTo_singleton (hnodes _ .observation) ht
  rw [CaseFile.nodes, hclaim, hobservation]
  by_cases hu : event.outcome = .unknown
  · have hids : (event.receipt cd x now).evidenceGaps =
        [(DeploymentStatusEvent.gapNode cd x now).nodeIdHex] := if_pos hu
    rw [hids] at hg
    rw [resolveTo_singleton (hnodes _ (.gap hu)) hg, contents, if_pos hu]
    rfl
  · have hids : (event.receipt cd x now).evidenceGaps = [] := if_neg hu
    rw [hids] at hg
    rw [List.forall₂_nil_left_iff.mp hg, contents, if_neg hu]
    rfl

end

/-- The payloads of the evidence that a bundle lists can be fetched and re-hashed exactly when
they were in the blob store before the run. -/
theorem evidence_carried_iff {ι : Type} [DecidableEq ι] {cd : Codec} {faults : StoreCall → Prop}
    {tasks : ι → Task} {s₀ s : Stores} {log : List (Event ι)}
    {p : (i : ι) → Program PortCall Answer (tasks i).Res} {event : DeploymentStatusEvent}
    {q : ReceiptProjection} {b : BundleExport} {j : ι}
    (run : TaskRun cd faults tasks s₀ log s p) (hapart : RecordsApart cd event)
    (free : CollisionFree cd.toRuntime (contents cd event ++ log.filterMap blobBytes))
    (hproduced : ProducedReceipt cd tasks log event q)
    (hassembled : Assembled q.receiptIdHex b (tasks j) (p j)) :
    ∃ c, caseFile s q.receiptIdHex = .ok c ∧ b = c.bundle cd ∧
      ((∀ n ∈ c.nodes, Carried cd s n.contentDigest) ↔
        ∀ content ∈ contents cd event, Carried cd s₀ (.of cd.toRuntime content)) := by
  have hexecuted : ExecutedIn log (history j log) := by
    intro y hy
    obtain ⟨e, he, _, hc⟩ := mem_history.mp hy
    exact ⟨e, he, hc⟩
  obtain ⟨c, hcase, hb, _⟩ :=
    assembleBundle_stands run.trace (assembled_returns hassembled (run.follows j)) hexecuted
  refine ⟨c, hcase, hb, ?_⟩
  have hlisted := produced_case run hproduced hcase
  calc (∀ n ∈ c.nodes, Carried cd s n.contentDigest)
      ↔ ∀ d ∈ c.nodes.map (·.contentDigest), Carried cd s d := List.forall_mem_map.symm
    _ ↔ ∀ content ∈ contents cd event, Carried cd s (.of cd.toRuntime content) := by
        rw [hlisted, List.forall_mem_map]
    _ ↔ ∀ content ∈ contents cd event, Carried cd s₀ (.of cd.toRuntime content) := by
        refine forall₂_congr fun content hc => ⟨?_, ?_⟩
        · rintro ⟨bytes, hblob, hhash⟩
          exact ⟨bytes, content_blob run hapart free hc hblob, hhash⟩
        · rintro ⟨bytes, hblob, hhash⟩
          exact ⟨bytes, row_kept (blob_step · _) run.trace hblob, hhash⟩

/-! ## A bundle without its evidence -/

theorem bundle_without_payload :
    Assembled "rcpt-att-m-1" (sampleCase.bundle bundleCodec) (deliveredThenExported .second)
        (exportRun.pool .second) ∧
      caseFile exportRun.state "rcpt-att-m-1" = .ok sampleCase ∧
      ∀ n ∈ sampleCase.nodes, ¬ Carried bundleCodec exportRun.state n.contentDigest := by
  obtain ⟨hcase, _, habsent⟩ := exportRun_evaluated
  refine ⟨sample_assembled, hcase, ?_⟩
  rintro n hn ⟨bytes, hblob, _⟩
  rw [habsent n hn] at hblob
  cases hblob

theorem sample_records_apart : RecordsApart bundleCodec (sampleEvent "success" 200) := by
  intro n hn
  obtain ⟨tail, hrecord⟩ := record_head n
  have hfirst : ∀ value : Json, nodeBytes bundleCodec n = bundleCodec.toVec value →
      (compact value).toList[2]? = some 'a' := by
    intro value h
    rw [← asBytes_injective h, hrecord]
    rfl
  simp only [contents, List.mem_append, List.mem_cons, List.not_mem_nil, or_false] at hn
  rcases hn with (h | h) | h
  · exact absurd (hfirst _ h) (by decide +kernel)
  · exact absurd (hfirst _ h) (by decide +kernel)
  · have hknown : (sampleEvent "success" 200).outcome ≠ .unknown := by decide
    rw [if_neg hknown] at h
    cases h

theorem sample_reports :
    (sampleDelivery "d-1" "success" 200).Reports bundleCodec (sampleEvent "success" 200) :=
  ⟨rfl, by decide +kernel⟩

theorem sample_produced : ProducedReceipt bundleCodec deliveredThenExported exportRun.log
    (sampleEvent "success" 200) sampleReceipt := by
  have run := exportRun_run noFaults
  have hstored := (caseFile_ok.mp exportRun_evaluated.1).1
  obtain ⟨l₁, e, l₂, hlog, hcall, _⟩ :=
    row_written (receipt_add_step · "rcpt-att-m-1") run.trace rfl hstored
  rw [hlog] at run
  refine ⟨e, hlog ▸ List.mem_append_right _ List.mem_cons_self, hcall, ?_⟩
  have hnext := run.at_entry.2
  rw [hcall] at hnext
  cases hcaller : e.caller with
  | first => exact .delivered sample_reports rfl
  | second =>
    rw [hcaller] at hnext
    cases assembleBundle_next hnext

/-- The texts that are hashed in the sample run have the digests of the tables. -/
theorem sample_collisionFree : CollisionFree bundleCodec.toRuntime
    (contents bundleCodec (sampleEvent "success" 200) ++ exportRun.log.filterMap blobBytes) := by
  let digests := [0xc047a1a73deae8c0a9e5886bacb7929f6703b18fc9e4997f2a9b5c2b11a75f20,
    0x3d484a1259189646f23ca3a2ac6099d7c32576f8d950ba7348d56aaa2355b1a9,
    0x54b6ab04e93f4607a3ea0abe90feef190afab10f8d6d1ad2f5deb8b713ca9c1e,
    0x803ce358897c087ea70e34f1696f10435319ff3f658c6a70ddbfcbdcb4e7d968]
  have hdistinct : (digests.map digestBytes).Nodup := by decide +kernel
  have hdigests : (contents bundleCodec (sampleEvent "success" 200) ++
      exportRun.log.filterMap blobBytes).map bundleCodec.sha256 = digests.map digestBytes := by
    decide +kernel
  intro a ha b hb
  exact List.inj_on_of_nodup_map (hdigests ▸ hdistinct) ha hb

/-- The hypotheses hold of the sample run, which starts without a blob. -/
theorem sample_payloads_missing : ∃ c, caseFile exportRun.state sampleReceipt.receiptIdHex = .ok c ∧
    ¬ ∀ n ∈ c.nodes, Carried bundleCodec exportRun.state n.contentDigest := by
  have hid : sampleReceipt.receiptIdHex = "rcpt-att-m-1" := by decide +kernel
  have hassembled := sample_assembled
  rw [← hid] at hassembled
  obtain ⟨c, hcase, _, hiff⟩ := evidence_carried_iff (exportRun_run noFaults) sample_records_apart
    sample_collisionFree sample_produced hassembled
  have hempty : ∀ d, (recording sampleAttempt).blob d = none := fun _ => rfl
  refine ⟨c, hcase, fun hall => ?_⟩
  obtain ⟨bytes, hblob, _⟩ := hiff.mp hall _ List.mem_cons_self
  rw [hempty] at hblob
  cases hblob

end Piteka.Safety
