import Piteka.Interleaving.Moment
import Piteka.Interleaving.Fallible
import Piteka.Storage.Methods

/-!
# The Postgres mandate store

Each SQL statement is one atomic step on the table; its primary key is the
mandate id. The columns are those that the methods bind and read. A statement may
fail in the database or on the way there and back, so an error leaves the table
as it was or as the statement makes it. The methods run their statements one
after the other with no transaction around them.
-/
namespace Piteka.Postgres

set_option autoImplicit false

open Piteka.Interleaving Piteka.Storage Piteka.Table

structure MandateTable where
  rows : Keyed String MandateProjection (·.mandateIdHex)

/-- The statements of the methods, with the values they bind. -/
inductive MandateStatement where
  /-- `INSERT INTO mandate_projections (mandate_id_hex, version, state) VALUES ($1, 1, $2)` -/
  | insertRow (mandateIdHex state : String)
  /-- `UPDATE mandate_projections SET version = version + 1, state = $3
  WHERE mandate_id_hex = $1 AND version = $2 RETURNING version` -/
  | updateRow (mandateIdHex : String) (expectedVersion : Int64) (newState : String)
  /-- `SELECT version, state FROM mandate_projections WHERE mandate_id_hex = $1` -/
  | selectRow (mandateIdHex : String)

abbrev MandateStatement.Rows : MandateStatement → Type
  | .insertRow _ _ => Unit
  | .updateRow _ _ _ => Option Int64
  | .selectRow _ => Option (Int64 × String)

abbrev MandateStatement.Answer (q : MandateStatement) : Type := StorageResult q.Rows

def sqlError (message : String) : StorageError := .backend message

namespace MandateTable

/-- The update leaves the key of the row. -/
theorem key_updated (state : String) (r : MandateProjection) :
    ({ r with version := r.version + 1, state := state } : MandateProjection).mandateIdHex =
      r.mandateIdHex := rfl

/-- A statement that reaches the table. The texts of the two errors stand for those of the driver. -/
def run (t : MandateTable) : (q : MandateStatement) → q.Answer × MandateTable
  | .insertRow m state =>
    match t.rows.get m with
    | some _ => (.error (sqlError "duplicate key value violates unique constraint"), t)
    | none => (.ok (), ⟨t.rows.insert ⟨m, 1, state⟩⟩)
  | .updateRow m expected state =>
    match t.rows.get m with
    | none => (.ok none, t)
    | some row =>
      if row.version ≠ expected then (.ok none, t)
      -- the sum is computed in BIGINT, which does not wrap
      else if row.version = Int64.maxValue then (.error (sqlError "bigint out of range"), t)
      else (.ok (some (row.version + 1)),
        ⟨t.rows.modify m (fun r => { r with version := r.version + 1, state := state })
          (key_updated state)⟩)
  | .selectRow m => (.ok ((t.rows.get m).map fun row => (row.version, row.state)), t)

/-- The in-memory store with the same rows. -/
def toMemory (t : MandateTable) : InMemoryMandateProjectionStore := ⟨t.rows⟩

end MandateTable

/-- One statement: it is answered, or its error is, with or without its effect. -/
def SqlExec (t : MandateTable) (q : MandateStatement) (a : q.Answer) (t' : MandateTable) : Prop :=
  t.run q = (a, t') ∨ ((∃ message, a = .error (sqlError message)) ∧ (t' = t ∨ t' = (t.run q).2))

theorem sql_sound (t : MandateTable) (q : MandateStatement) : SqlExec t q (t.run q).1 (t.run q).2 :=
  Or.inl rfl

inductive MandateMethod where
  | insert (mandateIdHex state : String)
  | get (mandateIdHex : String)
  | compareAndSwap (mandateIdHex : String) (expectedVersion : Int64) (newState : String)

abbrev MandateMethod.Ok : MandateMethod → Type
  | .insert _ _ => Unit
  | .get _ => Option MandateProjection
  | .compareAndSwap _ _ _ => CasOutcome

abbrev MandateMethod.Result (c : MandateMethod) : Type := StorageResult c.Ok

abbrev SqlProgram (α : Type) : Type :=
  ExceptT StorageError (Program MandateStatement MandateStatement.Answer) α

/-- A statement with `.await.map_err(backend)?`. -/
def execute (q : MandateStatement) : SqlProgram q.Rows := ExceptT.mk (.call q .ret)

namespace PgMandateProjectionStore

def insert (mandateIdHex state : String) : SqlProgram Unit :=
  if mandateIdHex = "" then throw (.emptyField "mandate_id_hex")
  else execute (.insertRow mandateIdHex state)

def get (mandateIdHex : String) : SqlProgram (Option MandateProjection) := do
  let row ← execute (.selectRow mandateIdHex)
  return row.map fun (version, state) => ⟨mandateIdHex, version, state⟩

def compareAndSwap (mandateIdHex : String) (expectedVersion : Int64) (newState : String) :
    SqlProgram CasOutcome := do
  -- exactly one caller with the matching version wins the conditional update
  let updated ← execute (.updateRow mandateIdHex expectedVersion newState)
  match updated with
  | some newVersion => return .applied newVersion
  | none =>
    -- no update: distinguish a version conflict from a missing projection
    match ← get mandateIdHex with
    | some current => return .conflict current.version
    | none => return .missing

end PgMandateProjectionStore

def MandateMethod.program : (c : MandateMethod) →
    Program MandateStatement MandateStatement.Answer c.Result
  | .insert m state => (PgMandateProjectionStore.insert m state).run
  | .get m => (PgMandateProjectionStore.get m).run
  | .compareAndSwap m v state => (PgMandateProjectionStore.compareAndSwap m v state).run

end Piteka.Postgres
