import Piteka.Application.EvidenceFeed
import Piteka.Postgres.EvidenceNodes
import Piteka.Postgres.Rows
import Piteka.Storage.Ports

/-!
# The Postgres receipt store

The lists of a receipt are stored as JSON texts and read back leniently: a text
that is no list of texts reads as the empty list. Each method runs one statement,
so it is one atomic step on the table.
-/
namespace Piteka.Postgres

set_option autoImplicit false

open Piteka.Storage Piteka.Table
open Piteka.Application (Collation Listing)

structure ReceiptRow where
  receiptIdHex : String
  mandateIdHex : String
  outcome : String
  createdAt : Int64
  intentIdHex : Option String
  attemptIdHex : Option String
  dispatchEvidenceRefs : String
  targetEvidenceRefs : String
  evidenceGaps : String
  canonicalBytes : Option (Array UInt8)
  deriving DecidableEq

def ReceiptRow.listing (row : ReceiptRow) : Listing := (row.receiptIdHex, row.createdAt)

structure ReceiptTable where
  rows : Keyed String ReceiptRow (·.receiptIdHex)

def ReceiptTable.empty : ReceiptTable := ⟨.empty⟩

def outcomeToStr : ReceiptOutcome → String
  | .succeeded => "succeeded"
  | .failed => "failed"
  | .rejected => "rejected"
  | .unknown => "unknown"

def strToOutcome : String → ReceiptOutcome
  | "succeeded" => .succeeded
  | "failed" => .failed
  | "rejected" => .rejected
  | "unknown" => .unknown
  | _ => .unknown

@[simp] theorem strToOutcome_outcomeToStr (outcome : ReceiptOutcome) :
    strToOutcome (outcomeToStr outcome) = outcome := by
  cases outcome <;> rfl

/-- `serde_json::to_string` of a list, with its error as the stores report it. -/
def RowCodec.column (rc : RowCodec) (l : List String) : StorageResult String :=
  match rc.toText l with
  | .error e => .error (.backend e)
  | .ok text => .ok text

/-- `serde_json::from_str(..).unwrap_or_default()` -/
def RowCodec.listOr (rc : RowCodec) (text : String) : List String :=
  match rc.fromStr text with
  | .error _ => []
  | .ok l => l

namespace PgReceiptProjectionStore

/-- The values bound for a receipt, with the texts of its lists. -/
def bound (receipt : ReceiptProjection) (dispatchRefs targetRefs gaps : String) : ReceiptRow where
  receiptIdHex := receipt.receiptIdHex
  mandateIdHex := receipt.mandateIdHex
  outcome := outcomeToStr receipt.outcome
  createdAt := receipt.createdAtUnixSeconds
  intentIdHex := some receipt.intentIdHex
  attemptIdHex := some receipt.attemptIdHex
  dispatchEvidenceRefs := dispatchRefs
  targetEvidenceRefs := targetRefs
  evidenceGaps := gaps
  canonicalBytes := receipt.canonicalBytes

variable (rc : RowCodec) (t : ReceiptTable)

def insert (receipt : ReceiptProjection) : StorageResult Unit × ReceiptTable :=
  if receipt.receiptIdHex = "" then (.error (.emptyField "receipt_id_hex"), t)
  else
    match rc.column receipt.dispatchEvidenceRefs with
    | .error e => (.error e, t)
    | .ok dispatchRefs =>
      match rc.column receipt.targetEvidenceRefs with
      | .error e => (.error e, t)
      | .ok targetRefs =>
        match rc.column receipt.evidenceGaps with
        | .error e => (.error e, t)
        | .ok gaps =>
          let r := insertUnique t.rows (bound receipt dispatchRefs targetRefs gaps)
          (r.1, ⟨r.2⟩)

/-- The receipt that a row is read as; what the query was asked by is not read back. -/
def decode (receiptIdHex mandateIdHex : String) (row : ReceiptRow) : ReceiptProjection where
  receiptIdHex := receiptIdHex
  mandateIdHex := mandateIdHex
  -- receipts from before the second migration have NULL here
  intentIdHex := row.intentIdHex.getD ""
  attemptIdHex := row.attemptIdHex.getD ""
  outcome := strToOutcome row.outcome
  createdAtUnixSeconds := row.createdAt
  dispatchEvidenceRefs := rc.listOr row.dispatchEvidenceRefs
  targetEvidenceRefs := rc.listOr row.targetEvidenceRefs
  evidenceGaps := rc.listOr row.evidenceGaps
  canonicalBytes := row.canonicalBytes

def get (receiptIdHex : String) : StorageResult (Option ReceiptProjection) :=
  .ok ((t.rows.get receiptIdHex).map fun row => decode rc receiptIdHex row.mandateIdHex row)

def byMandate (scan : Scan ReceiptRow) (mandateIdHex : String) :
    StorageResult (List ReceiptProjection) :=
  .ok ((scan.orderedBy (·.createdAt)
    (t.rows.values.filter fun row => row.mandateIdHex = mandateIdHex)).map fun row =>
      decode rc row.receiptIdHex mandateIdHex row)

/-- `list_ids_ordered`: ids and creation times, oldest first. -/
def listIdsOrdered (scan : Scan ReceiptRow) (collation : Collation) : StorageResult (List Listing) :=
  .ok (((scan.order t.rows.values).insertionSort fun a b => collation.Le a.listing b.listing).map
    ReceiptRow.listing)

end PgReceiptProjectionStore

/-- The receipt of a row. -/
def ReceiptRow.receipt (rc : RowCodec) (row : ReceiptRow) : ReceiptProjection :=
  PgReceiptProjectionStore.decode rc row.receiptIdHex row.mandateIdHex row

/-- The table's answer to a call of the receipt store. -/
def ReceiptTable.answer (rc : RowCodec) (scan : Scan ReceiptRow) (t : ReceiptTable) :
    (c : ReceiptProjectionCall) → StorageResult (StoreCall.receipts c).Ok × ReceiptTable
  | .insert receipt => PgReceiptProjectionStore.insert rc t receipt
  | .get id => (PgReceiptProjectionStore.get rc t id, t)
  | .byMandate m => (PgReceiptProjectionStore.byMandate rc t scan m, t)

/-! ## The table as an image of the store -/

open PgReceiptProjectionStore

/-- The lists of the receipt are written, and read back as they were. -/
structure RowCodec.Carries (rc : RowCodec) (receipt : ReceiptProjection) : Prop where
  dispatch : rc.RoundTrips receipt.dispatchEvidenceRefs
  target : rc.RoundTrips receipt.targetEvidenceRefs
  gaps : rc.RoundTrips receipt.evidenceGaps

/-- The text of a list that is written. -/
def RowCodec.text (rc : RowCodec) (l : List String) : String :=
  match rc.toText l with
  | .error _ => ""
  | .ok text => text

/-- The row that a receipt is written as. -/
def receiptRow (rc : RowCodec) (receipt : ReceiptProjection) : ReceiptRow :=
  bound receipt (rc.text receipt.dispatchEvidenceRefs) (rc.text receipt.targetEvidenceRefs)
    (rc.text receipt.evidenceGaps)

/-- The rows are those of the receipts of the store, and each reads back as it was. -/
structure ReceiptTable.Represents (rc : RowCodec) (t : ReceiptTable)
    (s : InMemoryReceiptProjectionStore) : Prop where
  image : Keyed.Image (receiptRow rc) s.receipts.toKeyed t.rows
  carried : ∀ id receipt, s.receipts.get id = some receipt → rc.Carries receipt

/-- How the table's answer `a` relates to the answer `b` of the in-memory store. -/
def ReceiptsAgree : (c : ReceiptProjectionCall) → StorageResult (StoreCall.receipts c).Ok →
    StorageResult (StoreCall.receipts c).Ok → Prop
  | .insert _, a, b => SameVerdict a b
  | .get _, a, b => a = b
  | .byMandate _, .ok l, .ok l' => l.Perm l' ∧
      l.Pairwise fun x y => x.createdAtUnixSeconds ≤ y.createdAtUnixSeconds
  | .byMandate _, a, b => a = b

/-- A failure is related to itself. -/
theorem receiptsAgree_error (c : ReceiptProjectionCall) (e : StorageError) :
    ReceiptsAgree c (.error e) (.error e) := by
  cases c <;> exact rfl

section
variable {rc : RowCodec} {t : ReceiptTable} {s : InMemoryReceiptProjectionStore}

theorem column_of_roundTrips {l : List String} (h : rc.RoundTrips l) :
    rc.column l = .ok (rc.text l) ∧ rc.listOr (rc.text l) = l := by
  obtain ⟨text, hwrite, hread⟩ := h
  rw [RowCodec.column, RowCodec.text, hwrite]
  dsimp only
  rw [RowCodec.listOr, hread]
  exact ⟨rfl, rfl⟩

theorem decode_receiptRow {receipt : ReceiptProjection} (h : rc.Carries receipt) :
    decode rc receipt.receiptIdHex receipt.mandateIdHex (receiptRow rc receipt) = receipt := by
  have houtcome : strToOutcome (receiptRow rc receipt).outcome = receipt.outcome :=
    strToOutcome_outcomeToStr _
  rw [decode, houtcome]
  simp only [receiptRow, bound, Option.getD_some, (column_of_roundTrips h.dispatch).2,
    (column_of_roundTrips h.target).2, (column_of_roundTrips h.gaps).2]

theorem receipt_insert (h : t.Represents rc s) {receipt : ReceiptProjection}
    (hcarry : rc.Carries receipt) :
    SameVerdict (insert rc t receipt).1 (s.insert receipt).1 ∧
      (insert rc t receipt).2.Represents rc (s.insert receipt).2 := by
  have hkept : ∀ id r, (s.insert receipt).2.receipts.get id = some r → rc.Carries r := by
    intro id r hr
    rcases insertIndexed_cases "receipt_id_hex" "receipt projection" s.receipts receipt with
      ⟨e, heq⟩ | ⟨t', heq, _, hget⟩
    · rw [InMemoryReceiptProjectionStore.insert, heq] at hr
      exact h.carried id r hr
    · rw [InMemoryReceiptProjectionStore.insert, heq] at hr
      dsimp only at hr
      rw [hget] at hr
      split at hr
      · exact Option.some.inj hr ▸ hcarry
      · exact h.carried id r hr
  rw [PgReceiptProjectionStore.insert, (column_of_roundTrips hcarry.dispatch).1,
    (column_of_roundTrips hcarry.target).1, (column_of_roundTrips hcarry.gaps).1]
  by_cases hblank : receipt.receiptIdHex = ""
  · rw [if_pos hblank]
    rw [InMemoryReceiptProjectionStore.insert, insertIndexed, if_pos hblank]
    exact ⟨rfl, h⟩
  · rw [if_neg hblank]
    obtain ⟨hv, himage⟩ := insertUnique_indexed h.image (fun _ => rfl) "receipt_id_hex"
      "receipt projection" hblank
    exact ⟨hv, himage, hkept⟩

theorem receipt_get (h : t.Represents rc s) (id : String) : get rc t id = s.get id := by
  rw [PgReceiptProjectionStore.get, h.image.get_eq, InMemoryReceiptProjectionStore.get, Option.map_map]
  cases hs : s.receipts.get id with
  | none =>
    rw [show s.receipts.toKeyed.get id = none from hs]
    rfl
  | some receipt =>
    rw [show s.receipts.toKeyed.get id = some receipt from hs, ← s.receipts.keyed hs]
    exact congrArg (fun r => Except.ok (some r)) (decode_receiptRow (h.carried id receipt hs))

theorem receipt_byMandate (h : t.Represents rc s) (scan : Scan ReceiptRow) (m : String) :
    ∃ l, byMandate rc t scan m = .ok l ∧ l.Perm (s.receipts.byGroup m) ∧
      l.Pairwise fun x y => x.createdAtUnixSeconds ≤ y.createdAtUnixSeconds := by
  have hrows : (t.rows.values.filter fun row => row.mandateIdHex = m).Perm
      ((s.receipts.byGroup m).map (receiptRow rc)) :=
    h.image.group_perm (fun _ => rfl) (fun _ => rfl) m
  obtain ⟨l, hl, heq⟩ := exists_of_perm_map ((scan.orderedBy_perm (·.createdAt) _).trans hrows)
  have hsorted := scan.orderedBy_sorted (·.createdAt)
    (t.rows.values.filter fun row => row.mandateIdHex = m)
  rw [heq, List.pairwise_map] at hsorted
  refine ⟨l, ?_, hl, hsorted⟩
  rw [byMandate, heq, List.map_map]
  have hread : ∀ r ∈ l, ((fun row => decode rc row.receiptIdHex m row) ∘ receiptRow rc) r = id r := by
    intro r hr
    obtain ⟨hstored, hm⟩ := (s.receipts.mem_byGroup m r).mp (hl.mem_iff.mp hr)
    exact hm ▸ decode_receiptRow (h.carried _ r hstored)
  rw [List.map_congr_left hread, List.map_id]

end

/-- Each call on the table can be made on the in-memory store, with a related answer. -/
theorem receipts_answer {rc : RowCodec} {t : ReceiptTable} {s : Stores}
    (h : t.Represents rc s.receipts) (rt : Runtime) (scan : Scan ReceiptRow)
    {c : ReceiptProjectionCall} (hc : ∀ receipt, c = .insert receipt → rc.Carries receipt) :
    ∃ order, ReceiptsAgree c (t.answer rc scan c).1 ((StoreCall.receipts c).run rt order s).1 ∧
      (t.answer rc scan c).2.Represents rc ((StoreCall.receipts c).run rt order s).2.receipts := by
  cases c with
  | insert receipt => exact ⟨.asListed, receipt_insert h (hc receipt rfl)⟩
  | get id => exact ⟨.asListed, receipt_get h id, h⟩
  | byMandate m =>
    obtain ⟨l, hl, hperm, hsorted⟩ := receipt_byMandate h scan m
    refine ⟨.asListed, ?_, h⟩
    rw [show (t.answer rc scan (.byMandate m)).1 = .ok l from hl]
    exact ⟨hperm, hsorted⟩

end Piteka.Postgres
