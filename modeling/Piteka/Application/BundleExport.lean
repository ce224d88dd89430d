import Piteka.Application.ReceiptProduction
import Piteka.Storage.EvidenceSteps

/-!
# Bundle export

`assembleBundle` reads a receipt and the nodes it references, stores one blob for
each node and the manifest as a protocol object under its own digest;
`exportManifestBytes` gives the same manifest and stores nothing. Both refuse a
receipt with a reference that no stored node resolves.
-/
namespace Piteka.Application

set_option autoImplicit false

open Piteka.Interleaving Piteka.Storage

inductive BundleExportError where
  | storage (error : StorageError)
  | receiptNotFound (id : String)
  | mandateNotFound (id : String)
  | incompleteEvidence (required missing : List String)
  | serialization (message : String)
  deriving DecidableEq

instance : FromStorageError BundleExportError := ⟨.storage⟩

def BundleExportError.display : BundleExportError → String
  | .storage err => "storage error: " ++ err.display
  | .receiptNotFound id => "receipt `" ++ id ++ "` not found"
  | .mandateNotFound id => "mandate `" ++ id ++ "` not found"
  | .incompleteEvidence required missing =>
    "incomplete evidence: " ++ toString required.length ++ " required, " ++
      toString missing.length ++ " missing"
  | .serialization message => "serialization error: " ++ message

structure BundleExport where
  bundleIdHex : String
  receiptIdHex : String
  mandateIdHex : String
  evidenceNodeIds : List String
  evidenceGapIds : List String
  bundleDigest : ContentDigest
  deriving DecidableEq

/-! ## Reading -/

/-- The nodes found under the ids, and the ids under which there is none. -/
def readNodes : List String → UseCase BundleExportError (List EvidenceNodeRecord × List String)
  | [] => return ([], [])
  | id :: ids => do
    match ← await (.evidenceNodes (.get id)) with
    | some node => do
      let rest ← readNodes ids
      return (node :: rest.1, rest.2)
    | none => do
      let rest ← readNodes ids
      return (rest.1, id :: rest.2)

def fetchNodes (nodeIds : List String) : UseCase BundleExportError (List EvidenceNodeRecord) := do
  let found ← readNodes nodeIds
  if found.2 = [] then return found.1 else throw (.incompleteEvidence nodeIds found.2)

/-! ## The manifest -/

def evidenceEntry (node : EvidenceNodeRecord) : Json :=
  .object [
    ("node_id", .string node.nodeIdHex),
    ("registry_id", .string node.registryId),
    ("source", .string (sourceText node.source)),
    ("content_digest", .string node.contentDigest.toHex)]

def gapEntry (node : EvidenceNodeRecord) : Json :=
  .object [
    ("node_id", .string node.nodeIdHex),
    ("content_digest", .string node.contentDigest.toHex)]

def isPiteka : EvidenceSource → Bool
  | .piteka => true
  | _ => false

def isProvider : EvidenceSource → Bool
  | .provider _ => true
  | _ => false

def assembleManifest (receipt : ReceiptProjection)
    (dispatchNodes targetNodes gapNodes : List EvidenceNodeRecord) : Json :=
  .object [
    ("bundle_version", .string "0.1"),
    ("receipt", .object [
      ("receipt_id", .string receipt.receiptIdHex),
      ("mandate_id", .string receipt.mandateIdHex),
      ("intent_id", .string receipt.intentIdHex),
      ("attempt_id", .string receipt.attemptIdHex),
      ("outcome", .string (outcomeAsStr receipt.outcome)),
      ("created_at", .ofInt64 receipt.createdAtUnixSeconds)]),
    ("dispatch_evidence", .array (dispatchNodes.map evidenceEntry)),
    ("target_evidence", .array (targetNodes.map evidenceEntry)),
    ("evidence_gaps", .array (gapNodes.map gapEntry)),
    ("source_attribution", .object [
      ("piteka_claims", .ofNat (dispatchNodes.filter fun n => isPiteka n.source).length),
      ("provider_observations", .ofNat (targetNodes.filter fun n => isProvider n.source).length),
      ("verifier_conclusions", .ofNat 0)]),
    ("missing_evidence", .object [
      ("gap_count", .ofNat gapNodes.length),
      ("gaps", .ofStrings receipt.evidenceGaps)])]

def exportManifestBytes (cd : Codec) (receiptIdHex : String) :
    UseCase BundleExportError (Array UInt8) := do
  match ← await (.receipts (.get receiptIdHex)) with
  | none => throw (.receiptNotFound receiptIdHex)
  | some receipt => do
    let dispatchNodes ← fetchNodes receipt.dispatchEvidenceRefs
    let targetNodes ← fetchNodes receipt.targetEvidenceRefs
    let gapNodes ← fetchNodes receipt.evidenceGaps
    return cd.toVec (assembleManifest receipt dispatchNodes targetNodes gapNodes)

/-! ## The bundle -/

/-- What is stored as the blob of a node: the node record, with the digest of its content. -/
def nodePayload (node : EvidenceNodeRecord) : Json :=
  .object [
    ("node_id", .string node.nodeIdHex),
    ("registry_id", .string node.registryId),
    ("source", .string (sourceText node.source)),
    ("producer_identity", .string node.producerIdentity),
    ("collected_at", .ofInt64 node.collectedAtUnixSeconds),
    ("asserted_event_at", .ofOption .ofInt64 node.assertedEventAtUnixSeconds),
    ("content_digest", .string node.contentDigest.toHex),
    ("media_type", .string node.mediaType),
    ("disclosure_classification", .string node.disclosureClassification),
    ("relationships", .ofStrings node.relationships)]

def nodeBytes (cd : Codec) (node : EvidenceNodeRecord) : Array UInt8 := cd.toVec (nodePayload node)

def storeEvidenceBlob (cd : Codec) (node : EvidenceNodeRecord) :
    UseCase BundleExportError (ContentDigest × UInt64) := do
  let digest ← await (.evidence (.put (nodeBytes cd node)))
  return (digest, UInt64.ofNat (nodeBytes cd node).size)

def evidenceDescriptor (blobDigest : ContentDigest) (sizeBytes : UInt64) : EvidenceDescriptor where
  digest := blobDigest
  mediaType := "application/vnd.diewan.evidence-node+json"
  sizeBytes := sizeBytes

/-- The blobs of the nodes, one after the other: the bundle's ids and descriptors. -/
def storeEvidence (cd : Codec) :
    List EvidenceNodeRecord → UseCase BundleExportError (List String × List EvidenceDescriptor)
  | [] => return ([], [])
  | node :: nodes => do
    let stored ← storeEvidenceBlob cd node
    let rest ← storeEvidence cd nodes
    return ((node.nodeIdHex ++ ":" ++ stored.1.toHex) :: rest.1,
      evidenceDescriptor stored.1 stored.2 :: rest.2)

def putDescriptors : List EvidenceDescriptor → UseCase BundleExportError Unit
  | [] => return ()
  | descriptor :: descriptors => do
    await (.evidence (.putDescriptor descriptor))
    putDescriptors descriptors

def assembleBundle (cd : Codec) (receiptIdHex : String) :
    UseCase BundleExportError BundleExport := do
  match ← await (.receipts (.get receiptIdHex)) with
  | none => throw (.receiptNotFound receiptIdHex)
  | some receipt => do
    let dispatchNodes ← fetchNodes receipt.dispatchEvidenceRefs
    let targetNodes ← fetchNodes receipt.targetEvidenceRefs
    let gapNodes ← fetchNodes receipt.evidenceGaps
    let stored ← storeEvidence cd (dispatchNodes ++ targetNodes ++ gapNodes)
    let bundleBytes := cd.toVec (assembleManifest receipt dispatchNodes targetNodes gapNodes)
    let bundleDigest := ContentDigest.of cd.toRuntime bundleBytes
    let bundleIdHex := "bundle-" ++ bundleDigest.toHex
    await (.protocolObjects (.put
      { kind := "dispute_bundle", objectIdHex := bundleIdHex, bytes := bundleBytes }))
    putDescriptors stored.2
    return {
      bundleIdHex
      receiptIdHex := receipt.receiptIdHex
      mandateIdHex := receipt.mandateIdHex
      evidenceNodeIds := stored.1
      evidenceGapIds := receipt.evidenceGaps
      bundleDigest }

end Piteka.Application
