import Piteka.Interleaving.Moment
import Piteka.Interleaving.Simulation
import Piteka.Postgres.Rows
import Piteka.Storage.Methods

/-!
# The Postgres object store

A put inserts its row unless the id is taken, and then reads the bytes that are
stored under the id: two statements with no transaction around them, between which
others may put the same object. A statement may fail in the database or on the way
there and back, with or without its effect. Rows are never changed or deleted, and
that is why the two statements still act as one.
-/
namespace Piteka.Postgres

set_option autoImplicit false

open Piteka.Interleaving Piteka.Interleaving.Program Piteka.Storage Piteka.Table

structure ObjectTable where
  rows : Keyed String ProtocolObjectRecord (·.objectIdHex)

def ObjectTable.empty : ObjectTable := ⟨.empty⟩

/-- The statements of the methods, with the values they bind. -/
inductive ObjectStatement where
  /-- `INSERT INTO protocol_objects … ON CONFLICT (object_id_hex) DO NOTHING`, with the number of
  affected rows -/
  | insertRow (record : ProtocolObjectRecord)
  /-- `SELECT bytes FROM protocol_objects WHERE object_id_hex = $1`, of which a row must come -/
  | selectBytes (objectIdHex : String)
  /-- `SELECT kind, bytes FROM protocol_objects WHERE object_id_hex = $1` -/
  | selectRow (objectIdHex : String)

abbrev ObjectStatement.Rows : ObjectStatement → Type
  | .insertRow _ => Nat
  | .selectBytes _ => Array UInt8
  | .selectRow _ => Option (String × Array UInt8)

abbrev ObjectStatement.Answer (q : ObjectStatement) : Type := StorageResult q.Rows

namespace ObjectTable

/-- A statement that reaches the table. -/
def run (t : ObjectTable) : (q : ObjectStatement) → q.Answer × ObjectTable
  | .insertRow record =>
    match t.rows.get record.objectIdHex with
    | some _ => (.ok 0, t)
    | none => (.ok 1, ⟨t.rows.insert record⟩)
  | .selectBytes id =>
    match t.rows.get id with
    | some row => (.ok row.bytes, t)
    | none => (.error (sqlError "no rows returned by a query that expected to return at least one row"), t)
  | .selectRow id => (.ok ((t.rows.get id).map fun row => (row.kind, row.bytes)), t)

/-- The in-memory store with the same rows. -/
def toMemory (t : ObjectTable) : InMemoryProtocolObjectStore := ⟨t.rows⟩

/-- A statement that is answered. -/
def Answers (t : ObjectTable) (q : ObjectStatement) (a : q.Answer) (t' : ObjectTable) : Prop :=
  t.run q = (a, t')

end ObjectTable

/-- One statement: it is answered, or its error is, with or without its effect. -/
abbrev ObjectExec (t : ObjectTable) (q : ObjectStatement) (a : q.Answer) (t' : ObjectTable) : Prop :=
  Faulty ObjectTable.Answers (fun _ => True) BackendFails t q a t'

theorem statement_sound (t : ObjectTable) (q : ObjectStatement) :
    ObjectExec t q (t.run q).1 (t.run q).2 := Or.inl rfl

abbrev ObjectProgram (α : Type) : Type :=
  ExceptT StorageError (Program ObjectStatement ObjectStatement.Answer) α

/-- A statement with `.await.map_err(backend)?`. -/
abbrev objectQuery (q : ObjectStatement) : ObjectProgram q.Rows := tryCall q

namespace PgProtocolObjectStore

def put (record : ProtocolObjectRecord) : ObjectProgram Unit := do
  if record.objectIdHex = "" then
    throw (.emptyField "object_id_hex")
  let inserted ← objectQuery (.insertRow record)
  if inserted = 1 then
    return ()
  -- the row already existed: compare the bytes
  let existing ← objectQuery (.selectBytes record.objectIdHex)
  if existing = record.bytes then
    return ()
  else
    throw (.immutableViolation record.objectIdHex)

def get (objectIdHex : String) : ObjectProgram (Option ProtocolObjectRecord) := do
  let row ← objectQuery (.selectRow objectIdHex)
  return row.map fun (kind, bytes) => { kind, objectIdHex, bytes }

end PgProtocolObjectStore

inductive ObjectMethod where
  | put (record : ProtocolObjectRecord)
  | get (objectIdHex : String)

abbrev ObjectMethod.Result : ObjectMethod → Type
  | .put _ => StorageResult Unit
  | .get _ => StorageResult (Option ProtocolObjectRecord)

def ObjectMethod.program : (c : ObjectMethod) →
    Program ObjectStatement ObjectStatement.Answer c.Result
  | .put record => (PgProtocolObjectStore.put record).run
  | .get id => (PgProtocolObjectStore.get id).run

abbrev ObjectPath := List ((q : ObjectStatement) × q.Answer)

/-! ## Statements -/

/-- A row that is stored stays as it is, whatever statement is executed. -/
theorem row_kept {t t' : ObjectTable} {q : ObjectStatement} {a : q.Answer}
    (hx : ObjectExec t q a t') {id : String} {row : ProtocolObjectRecord}
    (hrow : t.rows.get id = some row) : t'.rows.get id = some row := by
  have hrun : ∀ {b : q.Answer}, t.run q = (b, t') → t'.rows.get id = some row := by
    intro b hr
    cases q with
    | insertRow record =>
      rw [ObjectTable.run] at hr
      cases htaken : t.rows.get record.objectIdHex with
      | some old =>
        rw [htaken] at hr
        exact (Prod.mk.inj hr).2 ▸ hrow
      | none =>
        rw [htaken] at hr
        obtain ⟨_, rfl⟩ := Prod.mk.inj hr
        have hne : id ≠ record.objectIdHex := by
          rintro rfl
          rw [htaken] at hrow
          cases hrow
        exact (t.rows.get_insert record id).trans ((if_neg hne).trans hrow)
    | selectBytes id' =>
      rw [ObjectTable.run] at hr
      cases hsel : t.rows.get id' with
      | some old =>
        rw [hsel] at hr
        exact (Prod.mk.inj hr).2 ▸ hrow
      | none =>
        rw [hsel] at hr
        exact (Prod.mk.inj hr).2 ▸ hrow
    | selectRow id' => exact (Prod.mk.inj hr).2 ▸ hrow
  rcases hx with hx | ⟨_, _, rfl | ⟨b, hx⟩⟩
  · exact hrun hx
  · exact hrow
  · exact hrun hx

/-- An answered insertion found the id free and took it, or found it taken. -/
theorem insert_answered {t t' : ObjectTable} {record : ProtocolObjectRecord} {n : Nat}
    (hx : ObjectExec t (.insertRow record) (.ok n) t') :
    (n = 1 ∧ t.rows.get record.objectIdHex = none ∧
      t'.rows.get record.objectIdHex = some record) ∨
      n = 0 ∧ (t.rows.get record.objectIdHex).isSome := by
  rcases hx with hr | ⟨_, ⟨_, he⟩, _⟩
  · rw [ObjectTable.Answers, ObjectTable.run] at hr
    cases hrow : t.rows.get record.objectIdHex with
    | some row =>
      rw [hrow] at hr
      exact Or.inr ⟨(Except.ok.inj (Prod.mk.inj hr).1).symm, rfl⟩
    | none =>
      rw [hrow] at hr
      obtain ⟨hn, rfl⟩ := Prod.mk.inj hr
      exact Or.inl ⟨(Except.ok.inj hn).symm, rfl, (t.rows.get_insert _ _).trans (if_pos rfl)⟩
  · cases he

theorem selectBytes_answered {t t' : ObjectTable} {id : String} {bytes : Array UInt8}
    (hx : ObjectExec t (.selectBytes id) (.ok bytes) t') :
    ∃ row, t.rows.get id = some row ∧ row.bytes = bytes := by
  rcases hx with hr | ⟨_, ⟨_, he⟩, _⟩
  · rw [ObjectTable.Answers, ObjectTable.run] at hr
    cases hrow : t.rows.get id with
    | some row =>
      rw [hrow] at hr
      exact ⟨row, rfl, Except.ok.inj (Prod.mk.inj hr).1⟩
    | none =>
      rw [hrow] at hr
      cases (Prod.mk.inj hr).1
  · cases he

theorem selectRow_answered {t t' : ObjectTable} {id : String} {row : Option (String × Array UInt8)}
    (hx : ObjectExec t (.selectRow id) (.ok row) t') :
    row = (t.rows.get id).map fun row => (row.kind, row.bytes) := by
  rcases hx with hr | ⟨_, ⟨_, he⟩, _⟩
  · exact (Except.ok.inj (Prod.mk.inj hr).1).symm
  · cases he

/-! ## Paths of the methods -/

/-- How a put that returns has been answered. -/
inductive PutReturns (record : ProtocolObjectRecord) : ObjectPath → StorageResult Unit → Prop
  | blank (h : record.objectIdHex = "") :
      PutReturns record [] (.error (.emptyField "object_id_hex"))
  | failed (e : StorageError) : PutReturns record [⟨.insertRow record, .error e⟩] (.error e)
  | inserted : PutReturns record [⟨.insertRow record, .ok 1⟩] (.ok ())
  | unread (n : Nat) (e : StorageError) : PutReturns record
      [⟨.insertRow record, .ok n⟩, ⟨.selectBytes record.objectIdHex, .error e⟩] (.error e)
  | compared (n : Nat) (hn : n ≠ 1) (bytes : Array UInt8) : PutReturns record
      [⟨.insertRow record, .ok n⟩, ⟨.selectBytes record.objectIdHex, .ok bytes⟩]
      (if bytes = record.bytes then .ok () else .error (.immutableViolation record.objectIdHex))

theorem put_returns {record : ProtocolObjectRecord} {h : ObjectPath} {r : StorageResult Unit}
    (hr : Returns (PgProtocolObjectStore.put record).run h r) :
    (record.objectIdHex ≠ "" ∨ h = []) ∧ PutReturns record h r := by
  unfold PgProtocolObjectStore.put at hr
  by_cases hblank : record.objectIdHex = ""
  · rw [if_pos hblank] at hr
    obtain ⟨rfl, rfl⟩ := returns_throw.mp hr
    exact ⟨Or.inr rfl, .blank hblank⟩
  rw [if_neg hblank] at hr
  refine ⟨Or.inl hblank, ?_⟩
  rcases returns_tryCall.mp hr with ⟨e, rfl, rfl⟩ | ⟨n, h, rfl, h1⟩
  · exact .failed e
  by_cases hn : n = 1
  · subst hn
    obtain ⟨rfl, rfl⟩ := returns_pure.mp h1
    exact .inserted
  rw [if_neg hn] at h1
  rcases returns_tryCall.mp h1 with ⟨e, rfl, rfl⟩ | ⟨bytes, h, rfl, h2⟩
  · exact .unread n e
  have hcompared : PutReturns record _ _ := .compared n hn bytes
  by_cases hb : bytes = record.bytes
  · rw [if_pos hb] at h2 hcompared
    obtain ⟨rfl, rfl⟩ := returns_pure.mp h2
    exact hcompared
  · rw [if_neg hb] at h2 hcompared
    obtain ⟨rfl, rfl⟩ := returns_throw.mp h2
    exact hcompared

end Piteka.Postgres
