import Piteka.Postgres.EvidenceNodes
import Piteka.Storage.Ports
import Piteka.Table.Query

/-!
# The Postgres delivery store

The primary key of a row is the delivery id; a conflicting insertion does nothing
and affects no row. Each method runs one statement, so it is one atomic step on
the table.
-/
namespace Piteka.Postgres

set_option autoImplicit false

open Piteka.Storage Piteka.Table Piteka.Text

structure DeliveryRow where
  deliveryId : String
  source : String
  rawDigest : String
  receivedAt : Int64
  deriving DecidableEq

structure DeliveryTable where
  rows : Keyed String DeliveryRow (·.deliveryId)

def DeliveryTable.empty : DeliveryTable := ⟨.empty⟩

namespace PgWebhookReceiptStore

/-- The values bound for a delivery. -/
def bound (receipt : WebhookReceipt) : DeliveryRow where
  deliveryId := receipt.deliveryId
  source := receipt.source
  rawDigest := receipt.rawDigest.toHex
  receivedAt := receipt.receivedAtUnixSeconds

variable (hex : Hex.Reader) (t : DeliveryTable)

/-- `INSERT … ON CONFLICT (delivery_id) DO NOTHING`; the answer tells whether a row was inserted. -/
def record (receipt : WebhookReceipt) : StorageResult WebhookRecordOutcome × DeliveryTable :=
  if receipt.deliveryId = "" then (.error (.emptyField "delivery_id"), t)
  else match t.rows.get receipt.deliveryId with
    | some _ => (.ok .duplicate, t)
    | none => (.ok .recorded, ⟨t.rows.insert (bound receipt)⟩)

def get (deliveryId : String) : StorageResult (Option WebhookReceipt) :=
  match t.rows.get deliveryId with
  | none => .ok none
  | some row =>
    match ContentDigest.fromHex hex row.rawDigest with
    | none => .error (.backend "stored webhook raw_digest is not valid hex")
    | some rawDigest =>
      .ok (some {
        deliveryId
        source := row.source
        rawDigest
        receivedAtUnixSeconds := row.receivedAt })

end PgWebhookReceiptStore

/-- The table's answer to a call of the delivery store. -/
def DeliveryTable.answer (hex : Hex.Reader) (t : DeliveryTable) :
    (c : WebhookReceiptCall) → StorageResult (StoreCall.webhookReceipts c).Ok × DeliveryTable
  | .record receipt => PgWebhookReceiptStore.record t receipt
  | .get id => (PgWebhookReceiptStore.get hex t id, t)

/-! ## The table as an image of the store -/

open PgWebhookReceiptStore

/-- The rows are those of the deliveries of the store. -/
abbrev DeliveryTable.Represents (t : DeliveryTable) (s : InMemoryWebhookReceiptStore) : Prop :=
  Keyed.Image bound s.receipts t.rows

section
variable {hex : Hex.Reader} {t : DeliveryTable} {s : InMemoryWebhookReceiptStore}

theorem delivery_record (h : t.Represents s) (receipt : WebhookReceipt) :
    (record t receipt).1 = (s.record receipt).1 ∧
      (record t receipt).2.Represents (s.record receipt).2 := by
  rw [record, InMemoryWebhookReceiptStore.record, h.get_eq]
  by_cases hblank : receipt.deliveryId = ""
  · rw [if_pos hblank, if_pos hblank]
    exact ⟨rfl, h⟩
  · rw [if_neg hblank, if_neg hblank]
    cases s.receipts.get receipt.deliveryId with
    | none => exact ⟨rfl, h.insert (fun _ => rfl) receipt⟩
    | some old => exact ⟨rfl, h⟩

theorem delivery_get (hhex : hex.Documented) (h : t.Represents s) (id : String) :
    get hex t id = s.get id := by
  rw [PgWebhookReceiptStore.get, h.get_eq, InMemoryWebhookReceiptStore.get]
  cases hs : s.receipts.get id with
  | none => rfl
  | some receipt =>
    rw [Option.map_some, ← s.receipts.keyed hs]
    dsimp only
    rw [show (bound receipt).rawDigest = receipt.rawDigest.toHex from rfl,
      ContentDigest.fromHex_toHex hhex]
    rfl

end

/-- Each call on the table can be made on the in-memory store, with the same answer. -/
theorem deliveries_answer {hex : Hex.Reader} (hhex : hex.Documented) {t : DeliveryTable} {s : Stores}
    (h : t.Represents s.webhookReceipts) (rt : Runtime) (c : WebhookReceiptCall) :
    (t.answer hex c).1 = ((StoreCall.webhookReceipts c).run rt .asListed s).1 ∧
      (t.answer hex c).2.Represents
        ((StoreCall.webhookReceipts c).run rt .asListed s).2.webhookReceipts := by
  cases c with
  | record receipt => exact delivery_record h receipt
  | get id => exact ⟨delivery_get hhex h id, h⟩

end Piteka.Postgres
