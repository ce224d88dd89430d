import Mathlib.Data.List.Sort
import Mathlib.Data.String.Basic
import Piteka.Application.BundleExportPaths
import Piteka.Table.Sorted

/-!
# The evidence feed

The feed is built anew from the stores at every pull: the receipts are listed by
their creation time and id, those that do not export are skipped, and the rest are
numbered by their position. A pull is taken as one step here, and query by query in
the feed server. Sequence numbers and
emission times are natural numbers here; they would need more than 2^63 receipts
to leave the 64 bits that they have in the feed.
-/
namespace Piteka.Application

set_option autoImplicit false

open Piteka.Interleaving Piteka.Storage

/-- A receipt id with its creation time. -/
abbrev Listing := String × Int64

/-- The order in which texts are sorted. -/
structure Collation where
  le : String → String → Bool
  total : ∀ a b, le a b ∨ le b a
  trans : ∀ {a b c}, le a b → le b c → le a c
  antisymm : ∀ {a b}, le a b → le b a → a = b

/-- The order of texts in memory: by their bytes, which is by their characters. -/
def byteOrder : Collation where
  le a b := decide (a ≤ b)
  total a b := by simpa only [decide_eq_true_eq] using le_total a b
  trans h h' := by simpa only [decide_eq_true_eq] using le_trans (of_decide_eq_true h) (of_decide_eq_true h')
  antisymm h h' := le_antisymm (of_decide_eq_true h) (of_decide_eq_true h')

/-- Oldest first, and by the id within one second. -/
def Collation.Le (c : Collation) (a b : Listing) : Prop :=
  a.2 < b.2 ∨ a.2 = b.2 ∧ c.le a.1 b.1

instance (c : Collation) : DecidableRel c.Le := fun a b =>
  inferInstanceAs (Decidable (a.2 < b.2 ∨ a.2 = b.2 ∧ c.le a.1 b.1))

/-! ## Signed exports -/

structure SignedPitekaExport where
  schemaVersion : UInt16
  sequence : Nat
  exportId : String
  revision : UInt32
  supersedesExportId : Option String
  tenantId : String
  emittedAt : Nat
  payload : Array UInt8
  payloadSha256 : Vector UInt8 32
  signingKeyId : String
  signature : Array UInt8
  deriving DecidableEq

/-- `to_be_bytes` of a number of the given width. -/
def toBeBytes (width n : Nat) : List UInt8 :=
  (List.range width).map fun i => UInt8.ofNat (n / 256 ^ (width - 1 - i))

def putText (value : String) : List UInt8 :=
  toBeBytes 4 (asBytes value).size ++ (asBytes value).toList

def signatureDomain : List UInt8 := (asBytes "diewan.piteka.evidence-feed.v1").toList ++ [0]

def SignedPitekaExport.signingBytes (e : SignedPitekaExport) : Array UInt8 :=
  (signatureDomain ++ toBeBytes 2 e.schemaVersion.toNat ++ toBeBytes 8 e.sequence ++
    putText e.exportId ++ toBeBytes 4 e.revision.toNat ++
    (match e.supersedesExportId with
      | some value => 1 :: putText value
      | none => [0]) ++
    putText e.tenantId ++ toBeBytes 8 e.emittedAt ++ e.payloadSha256.toList ++
    toBeBytes 8 e.payload.size ++ e.payload.toList).toArray

/-- The state of the feed server next to its stores. Signing is the deterministic function of
the key, and `collation` is that of the database. -/
structure FeedState where
  bearerToken : String
  collation : Collation
  sign : Array UInt8 → Array UInt8
  signingKeyId : String
  tenantId : String
  allowList : Option (List String)

namespace FeedState

variable (cd : Codec) (state : FeedState) (s : Stores)

def signedExport (sequence : Nat) (exportId : String) (emittedAt : Nat) (payload : Array UInt8) :
    SignedPitekaExport :=
  let unsigned : SignedPitekaExport := {
    schemaVersion := 1
    sequence
    exportId
    revision := 1
    supersedesExportId := none
    tenantId := state.tenantId
    emittedAt
    payload
    payloadSha256 := cd.sha256 payload
    signingKeyId := state.signingKeyId
    signature := #[] }
  { unsigned with signature := state.sign unsigned.signingBytes }

/-- The exports of the listed receipts behind those in `exports`; `lastEmitted` is the emission
time of the last one. What `exportManifestBytes` gives for a receipt is the text of its case file
(`exportManifestBytes_eval`). -/
def buildExports (exports : List SignedPitekaExport) (lastEmitted : Nat) :
    List Listing → List SignedPitekaExport
  | [] => exports
  | (receiptId, createdAt) :: ordered =>
    match (caseFile s receiptId).map (CaseFile.bytes cd) with
    | .error _ => buildExports exports lastEmitted ordered
    | .ok payload =>
      let emittedAt := max createdAt.toInt.toNat (lastEmitted + 1)
      let signed := state.signedExport cd (exports.length + 1) receiptId emittedAt payload
      buildExports (exports ++ [signed]) emittedAt ordered

end FeedState

/-- `ORDER BY created_at, receipt_id_hex` -/
def listIdsOrdered (c : Collation) (s : Stores) : List Listing :=
  (s.receipts.receipts.values.map fun r => (r.receiptIdHex, r.createdAtUnixSeconds)).insertionSort
    c.Le

/-- The listings of the given ids; every one of them must be stored. -/
def loadReceipts (s : Stores) : List String → Except String (List Listing)
  | [] => .ok []
  | id :: ids =>
    match s.receipt id with
    | none => .error ("receipt " ++ id ++ " not found")
    | some receipt =>
      (loadReceipts s ids).map fun pairs => (id, receipt.createdAtUnixSeconds) :: pairs

def FeedState.currentReceipts (state : FeedState) (s : Stores) : Except String (List Listing) :=
  match state.allowList with
  | some ids => (loadReceipts s ids).map fun pairs => pairs.insertionSort byteOrder.Le
  | none => .ok (listIdsOrdered state.collation s)

/-! ## Pages -/

inductive StatusCode where
  | unauthorized
  | badRequest
  | internalServerError
  deriving DecidableEq

structure FeedQuery where
  afterSequence : Nat
  limit : Nat

structure PitekaFeedPage where
  schemaVersion : UInt16
  exports : List SignedPitekaExport
  nextSequence : Nat
  deriving DecidableEq

/-- The token behind `Bearer `. -/
def presentedToken (authorization : Option String) : Option String :=
  authorization.bind fun value =>
    if "Bearer ".toList <+: value.toList then some (String.ofList (value.toList.drop 7)) else none

/-- All exports of the feed, of which a pull selects a page. -/
def FeedState.exports (cd : Codec) (state : FeedState) (s : Stores) :
    Except String (List SignedPitekaExport) :=
  (state.currentReceipts s).map (state.buildExports cd s [] 0)

def serveFeed (cd : Codec) (state : FeedState) (s : Stores) (authorization : Option String)
    (query : FeedQuery) : Except StatusCode PitekaFeedPage :=
  if presentedToken authorization ≠ some state.bearerToken then .error .unauthorized
  else if query.limit = 0 ∨ 1024 < query.limit then .error .badRequest
  else
    match state.exports cd s with
    | .error _ => .error .internalServerError
    | .ok exports =>
      let selected := (exports.filter fun e => query.afterSequence < e.sequence).take query.limit
      .ok {
        schemaVersion := 1
        exports := selected
        nextSequence := (selected.getLast?.map (·.sequence)).getD query.afterSequence }

/-! ## A resuming consumer -/

/-- The consumer's cursor and everything that it has been served. -/
structure FeedRun where
  stores : Stores
  nextSequence : Nat
  delivered : List SignedPitekaExport

/-- A step of the system: some atomic call of a store, such as the insertion of a receipt or of
a node, or a pull of the consumer. -/
inductive FeedEvent where
  | call (c : StoreCall)
  | pull (limit : Nat)

/-- The consumer presents the token and resumes behind the last page. -/
def pulled (cd : Codec) (state : FeedState) (f : FeedRun) (limit : Nat) :
    Except StatusCode PitekaFeedPage :=
  serveFeed cd state f.stores (some ("Bearer " ++ state.bearerToken))
    { afterSequence := f.nextSequence, limit }

/-- The consumer keeps the page that it has been answered with. -/
def FeedRun.receive (f : FeedRun) : Except StatusCode PitekaFeedPage → FeedRun
  | .error _ => f
  | .ok page => { f with nextSequence := page.nextSequence, delivered := f.delivered ++ page.exports }

def FeedRun.step (cd : Codec) (state : FeedState) (f : FeedRun) : FeedEvent → FeedRun
  | .call c => { f with stores := (c.run cd.toRuntime .asListed f.stores).2 }
  | .pull limit => f.receive (pulled cd state f limit)

end Piteka.Application
