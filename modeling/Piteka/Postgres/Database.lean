import Piteka.Postgres.AuditLog
import Piteka.Postgres.Backends
import Piteka.Postgres.ExecutionAttempts
import Piteka.Postgres.ProtocolObjects
import Piteka.Postgres.ReceiptProjections
import Piteka.Postgres.WebhookReceipts

/-!
# The database

The tables that the stores of all processes share. A call is one statement, which is
one atomic step; it may fail in the database or on the way there and back, with or
without its effect. For the stores whose methods run a single statement, each call on
the tables is a call on the in-memory stores, with a related answer.
-/
namespace Piteka.Postgres

set_option autoImplicit false

open Piteka.Interleaving Piteka.Storage Piteka.Table
open Piteka.Application (Collation Listing)

structure Database where
  protocolObjects : ObjectTable
  mandates : MandateTable
  webhookReceipts : DeliveryTable
  evidenceNodes : NodeTable
  audit : AuditTable
  attempts : AttemptTable
  receipts : ReceiptTable

def Database.empty : Database where
  protocolObjects := .empty
  mandates := ⟨.empty⟩
  webhookReceipts := .empty
  evidenceNodes := .empty
  audit := .empty
  attempts := .empty
  receipts := .empty

/-- A statement of one of the stores, or a method that runs a single one. -/
inductive DatabaseCall where
  | protocolObjects (q : ObjectStatement)
  | mandates (q : MandateStatement)
  | webhookReceipts (c : WebhookReceiptCall)
  | evidenceNodes (c : EvidenceNodeCall)
  | audit (q : AuditStatement)
  | attempts (c : ExecutionAttemptCall)
  | receipts (c : ReceiptProjectionCall)
  | receiptIds (collation : Collation)

abbrev DatabaseCall.Rows : DatabaseCall → Type
  | .protocolObjects q => q.Rows
  | .mandates q => q.Rows
  | .webhookReceipts c => (StoreCall.webhookReceipts c).Ok
  | .evidenceNodes c => (StoreCall.evidenceNodes c).Ok
  | .audit q => q.Rows
  | .attempts c => (StoreCall.attempts c).Ok
  | .receipts c => (StoreCall.receipts c).Ok
  | .receiptIds _ => List Listing

abbrev DatabaseCall.Answer (c : DatabaseCall) : Type := StorageResult c.Rows

/-- The orders in which the rows of the queries are found. -/
structure Scans where
  nodes : Scan NodeRow
  attempts : Scan AttemptRow
  receipts : Scan ReceiptRow

def Scans.asListed : Scans := ⟨.asListed _, .asListed _, .asListed _⟩

namespace Database

variable (rc : RowCodec)

/-- A call that reaches the database. -/
def run (scans : Scans) (db : Database) : (c : DatabaseCall) → c.Answer × Database
  | .protocolObjects q =>
    let x := db.protocolObjects.run q
    (x.1, { db with protocolObjects := x.2 })
  | .mandates q =>
    let x := db.mandates.run q
    (x.1, { db with mandates := x.2 })
  | .webhookReceipts c =>
    let x := db.webhookReceipts.answer rc.hex c
    (x.1, { db with webhookReceipts := x.2 })
  | .evidenceNodes c =>
    let x := db.evidenceNodes.answer rc scans.nodes.order c
    (x.1, { db with evidenceNodes := x.2 })
  | .audit q =>
    let x := db.audit.run q
    (x.1, { db with audit := x.2 })
  | .attempts c =>
    let x := db.attempts.answer scans.attempts c
    (x.1, { db with attempts := x.2 })
  | .receipts c =>
    let x := db.receipts.answer rc scans.receipts c
    (x.1, { db with receipts := x.2 })
  | .receiptIds collation => (PgReceiptProjectionStore.listIdsOrdered db.receipts scans.receipts collation, db)

/-- A call that is answered. -/
def Answers (db : Database) (c : DatabaseCall) (a : c.Answer) (db' : Database) : Prop :=
  ∃ scans, db.run rc scans c = (a, db')

end Database

/-- One call: it is answered, or its error is, with or without its effect. -/
abbrev DatabaseExec (rc : RowCodec) (db : Database) (c : DatabaseCall) (a : c.Answer)
    (db' : Database) : Prop :=
  Faulty (Database.Answers rc) (fun _ => True) BackendFails db c a db'

theorem database_sound (rc : RowCodec) (scans : Scans) (db : Database) (c : DatabaseCall) :
    DatabaseExec rc db c (db.run rc scans c).1 (db.run rc scans c).2 := Or.inl ⟨scans, rfl⟩

/-! ## The tables against the in-memory stores -/

/-- The same call on the in-memory stores, for the stores with single statements. -/
def MemoryAnswers (rt : Runtime) (s : Stores) : (c : DatabaseCall) → c.Answer → Stores → Prop
  | .webhookReceipts c, a, s' => ∃ order, (StoreCall.webhookReceipts c).run rt order s = (a, s')
  | .attempts c, a, s' => ∃ order, (StoreCall.attempts c).run rt order s = (a, s')
  | .receipts c, a, s' => ∃ order, (StoreCall.receipts c).run rt order s = (a, s')
  | _, _, _ => False

abbrev MemoryExec (rt : Runtime) (s : Stores) (c : DatabaseCall) (a : c.Answer) (s' : Stores) : Prop :=
  Faulty (MemoryAnswers rt) (fun _ => True) BackendFails s c a s'

/-- The rows of three tables are those of the in-memory stores. -/
structure Database.Represents (rc : RowCodec) (db : Database) (s : Stores) : Prop where
  webhookReceipts : db.webhookReceipts.Represents s.webhookReceipts
  attempts : db.attempts.Represents s.attempts
  receipts : db.receipts.Represents rc s.receipts

/-- The call is one of the three stores, and the lists of an inserted receipt are carried. -/
def Represented (rc : RowCodec) : DatabaseCall → Prop
  | .webhookReceipts _ => True
  | .attempts _ => True
  | .receipts (.insert receipt) => rc.Carries receipt
  | .receipts _ => True
  | _ => False

/-- How the answer `a` of the tables relates to the answer `b` of the in-memory stores. -/
def DatabaseCall.Agrees : (c : DatabaseCall) → c.Answer → c.Answer → Prop
  | .attempts c, a, b => AttemptsAgree c a b
  | .receipts c, a, b => ReceiptsAgree c a b
  | _, a, b => a = b

theorem represents_empty (rc : RowCodec) : Database.empty.Represents rc .empty where
  webhookReceipts := Keyed.Image.empty
  attempts := Keyed.Image.empty
  receipts := ⟨Keyed.Image.empty, fun _ _ h => nomatch h⟩

theorem agrees_of_failed {c : DatabaseCall} {a : c.Answer} (h : BackendFails c a) : c.Agrees a a := by
  obtain ⟨message, rfl⟩ := h
  cases c with
  | attempts c => exact attemptsAgree_error c _
  | receipts c => exact receiptsAgree_error c _
  | _ => exact rfl

theorem tables_simulate {rc : RowCodec} (hhex : rc.hex.Documented) (rt : Runtime) :
    Simulates (Represented rc) (Database.Answers rc) (MemoryAnswers rt) (Database.Represents rc)
      DatabaseCall.Agrees where
  step {db s c a db'} hR hc hx := by
    obtain ⟨scans, hr⟩ := hx
    obtain ⟨rfl, rfl⟩ := Prod.mk.inj hr
    cases c with
    | webhookReceipts c =>
      obtain ⟨hanswer, hrows⟩ := deliveries_answer hhex hR.webhookReceipts rt c
      refine ⟨_, _, ⟨.asListed, rfl⟩, hanswer, hrows, ?_, ?_⟩
      · cases c <;> exact hR.attempts
      · cases c <;> exact hR.receipts
    | attempts c =>
      obtain ⟨order, hanswer, hrows⟩ := attempts_answer hR.attempts rt scans.attempts c
      refine ⟨_, _, ⟨order, rfl⟩, hanswer, ?_, hrows, ?_⟩
      · cases c <;> exact hR.webhookReceipts
      · cases c <;> exact hR.receipts
    | receipts c =>
      have hcarries : ∀ receipt, c = .insert receipt → rc.Carries receipt := by
        rintro receipt rfl
        exact hc
      obtain ⟨order, hanswer, hrows⟩ := receipts_answer hR.receipts rt scans.receipts hcarries
      refine ⟨_, _, ⟨order, rfl⟩, hanswer, ?_, ?_, hrows⟩
      · cases c <;> exact hR.webhookReceipts
      · cases c <;> exact hR.attempts
    | _ => exact hc.elim

end Piteka.Postgres
