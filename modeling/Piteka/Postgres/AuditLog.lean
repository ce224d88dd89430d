import Mathlib.Algebra.Group.Nat.Defs
import Piteka.Interleaving.Moment
import Piteka.Interleaving.Simulation
import Piteka.Postgres.Rows
import Piteka.Storage.Ports
import Piteka.Table.Sorted

/-!
# The Postgres audit log

The id of an event comes from the sequence of the table when the insertion runs, and
the row can be seen by others when it commits, so an append is two atomic steps.
Ids are natural numbers below 2^63; an id that was drawn for an insertion that then
failed is lost. Nothing changes or deletes a row.
-/
namespace Piteka.Postgres

set_option autoImplicit false

open Piteka.Interleaving Piteka.Interleaving.Program Piteka.Storage Piteka.Table

structure AuditRow where
  id : Nat
  occurredAt : Int64
  actor : Option String
  action : String
  decision : String
  detail : String
  deriving DecidableEq

structure AuditTable where
  rows : Keyed Nat AuditRow (·.id)
  /-- The last value drawn from the sequence of the ids. -/
  lastValue : Nat

def AuditTable.empty : AuditTable := ⟨.empty, 0⟩

/-- The values bound for an event, under the id drawn for it. -/
def auditRow (id : Nat) (event : AuditEvent) : AuditRow where
  id := id
  occurredAt := event.occurredAtUnixSeconds
  actor := event.actor
  action := event.action
  decision := event.decision
  detail := event.detail

/-- The event that a row is read as. -/
def AuditRow.event (row : AuditRow) : AuditEvent where
  occurredAtUnixSeconds := row.occurredAt
  actor := row.actor
  action := row.action
  decision := row.decision
  detail := row.detail

inductive AuditStatement where
  /-- The default of the id column: `nextval` -/
  | drawId
  /-- The commit of `INSERT INTO audit_events …` -/
  | insertRow (row : AuditRow)
  /-- `SELECT … FROM audit_events ORDER BY id DESC LIMIT $1` -/
  | selectRecent (limit : Nat)

abbrev AuditStatement.Rows : AuditStatement → Type
  | .drawId => Nat
  | .insertRow _ => Unit
  | .selectRecent _ => List AuditRow

abbrev AuditStatement.Answer (q : AuditStatement) : Type := StorageResult q.Rows

namespace AuditTable

/-- The rows, newest first. -/
def descending (t : AuditTable) : List AuditRow :=
  t.rows.values.insertionSort fun a b => b.id ≤ a.id

/-- A statement that reaches the table. -/
def run (t : AuditTable) : (q : AuditStatement) → q.Answer × AuditTable
  | .drawId =>
    if t.lastValue = 2 ^ 63 - 1 then
      (.error (sqlError "nextval: reached maximum value of sequence"), t)
    else (.ok (t.lastValue + 1), { t with lastValue := t.lastValue + 1 })
  | .insertRow row =>
    let r := insertUnique t.rows row
    (r.1, { t with rows := r.2 })
  | .selectRecent limit => (.ok (t.descending.take limit), t)

/-- A statement that is answered. -/
def Answers (t : AuditTable) (q : AuditStatement) (a : q.Answer) (t' : AuditTable) : Prop :=
  t.run q = (a, t')

/-- The rows in the order of their ids. -/
def ascending (t : AuditTable) : List AuditRow := t.descending.reverse

def events (t : AuditTable) : List AuditEvent := t.ascending.map AuditRow.event

end AuditTable

/-- One statement: it is answered, or its error is, with or without its effect. -/
abbrev AuditExec (t : AuditTable) (q : AuditStatement) (a : q.Answer) (t' : AuditTable) : Prop :=
  Faulty AuditTable.Answers (fun _ => True) BackendFails t q a t'

theorem auditStatement_sound (t : AuditTable) (q : AuditStatement) :
    AuditExec t q (t.run q).1 (t.run q).2 := Or.inl rfl

abbrev AuditProgram (α : Type) : Type :=
  ExceptT StorageError (Program AuditStatement AuditStatement.Answer) α

/-- A statement with `.await.map_err(backend)?`. -/
abbrev auditQuery (q : AuditStatement) : AuditProgram q.Rows := tryCall q

namespace PgAuditLog

def append (event : AuditEvent) : AuditProgram Unit := do
  let id ← auditQuery .drawId
  auditQuery (.insertRow (auditRow id event))

/-- `i64::try_from(limit).unwrap_or(i64::MAX)` -/
def limitOf (limit : Nat) : Nat := min limit (2 ^ 63 - 1)

def recent (limit : Nat) : AuditProgram (List AuditEvent) := do
  let rows ← auditQuery (.selectRecent (limitOf limit))
  -- insertion order
  return (rows.map AuditRow.event).reverse

end PgAuditLog

inductive AuditMethod where
  | append (event : AuditEvent)
  | recent (limit : Nat)

abbrev AuditMethod.Result : AuditMethod → Type
  | .append _ => StorageResult Unit
  | .recent _ => StorageResult (List AuditEvent)

def AuditMethod.program : (c : AuditMethod) → Program AuditStatement AuditStatement.Answer c.Result
  | .append event => (PgAuditLog.append event).run
  | .recent limit => (PgAuditLog.recent limit).run

/-! ## Statements -/

namespace AuditTable

variable {t t' : AuditTable}

theorem mem_ascending {row : AuditRow} : row ∈ t.ascending ↔ t.rows.get row.id = some row := by
  rw [ascending, List.mem_reverse, descending, List.mem_insertionSort, t.rows.mem_values]

/-- Ids are unique, so their order is strict. -/
theorem ascending_sorted (t : AuditTable) : t.ascending.Pairwise fun a b => a.id < b.id := by
  have htotal : Std.Total fun a b : AuditRow => b.id ≤ a.id := ⟨fun a b => Nat.le_total b.id a.id⟩
  have htrans : IsTrans AuditRow fun a b => b.id ≤ a.id := ⟨fun _ _ _ hab hbc => hbc.trans hab⟩
  have hle : t.descending.Pairwise fun a b => b.id ≤ a.id := List.pairwise_insertionSort _ _
  have hperm : t.descending.Perm t.rows.values := List.perm_insertionSort _ _
  have hne : t.descending.Pairwise fun a b => a.id ≠ b.id :=
    List.pairwise_map.mp ((hperm.map _).nodup_iff.mpr t.rows.keys_nodup)
  rw [ascending, List.pairwise_reverse]
  exact (hle.and hne).imp fun {a b} h => lt_of_le_of_ne h.1 h.2.symm

/-- One row is listed before another that was given a later id. -/
theorem listed_before {x y : AuditRow} (hx : x ∈ t.ascending) (hy : y ∈ t.ascending)
    (h : x.id < y.id) : [x.event, y.event].Sublist t.events := by
  have hpair : [x, y].Sublist t.ascending := by
    refine sublist_of_sorted (fun hab hba => by omega) ?_ t.ascending_sorted ?_
    · exact List.pairwise_pair.mpr h
    · intro z hz
      rcases List.mem_cons.mp hz with rfl | hz
      · exact hx
      · exact List.mem_singleton.mp hz ▸ hy
  exact hpair.map AuditRow.event

theorem events_sublist (h : ∀ id row, t.rows.get id = some row → t'.rows.get id = some row) :
    t.events.Sublist t'.events := by
  refine List.Sublist.map AuditRow.event (sublist_of_sorted (fun hab hba => by omega)
    t.ascending_sorted t'.ascending_sorted fun row hrow => ?_)
  exact mem_ascending.mpr (h _ _ (mem_ascending.mp hrow))

end AuditTable

section
variable {t t' : AuditTable} {q : AuditStatement} {a : q.Answer}

/-- What a statement that reaches the table keeps, a statement that may fail keeps. -/
theorem audit_keeps {Q : AuditTable → Prop} (keep : ∀ {b : q.Answer}, t.run q = (b, t') → Q t → Q t')
    (hx : AuditExec t q a t') (ht : Q t) : Q t' := by
  rcases hx with hr | ⟨_, _, rfl | ⟨b, hr⟩⟩
  · exact keep hr ht
  · exact ht
  · exact keep hr ht

theorem audit_row_kept (hx : AuditExec t q a t') {id : Nat} {row : AuditRow}
    (hrow : t.rows.get id = some row) : t'.rows.get id = some row := by
  refine audit_keeps (Q := fun t => t.rows.get id = some row) (fun {b} hr hrow => ?_) hx hrow
  cases q with
  | drawId =>
    rw [AuditTable.run] at hr
    split at hr <;> exact (Prod.mk.inj hr).2 ▸ hrow
  | insertRow new =>
    obtain ⟨_, rfl⟩ := Prod.mk.inj hr
    dsimp only
    rw [insertUnique]
    cases htaken : t.rows.get new.id with
    | some old => exact hrow
    | none =>
      have hne : id ≠ new.id := by
        rintro rfl
        rw [htaken] at hrow
        cases hrow
      exact (t.rows.get_insert new id).trans ((if_neg hne).trans hrow)
  | selectRecent limit => exact (Prod.mk.inj hr).2 ▸ hrow

/-- The sequence never goes back. -/
theorem lastValue_mono (hx : AuditExec t q a t') : t.lastValue ≤ t'.lastValue := by
  refine audit_keeps (Q := fun u => t.lastValue ≤ u.lastValue) (fun {b} hr hle => ?_) hx le_rfl
  cases q with
  | drawId =>
    rw [AuditTable.run] at hr
    split at hr
    · exact (Prod.mk.inj hr).2 ▸ hle
    · obtain ⟨_, rfl⟩ := Prod.mk.inj hr
      exact Nat.le_succ_of_le hle
  | insertRow new => exact (Prod.mk.inj hr).2 ▸ hle
  | selectRecent limit => exact (Prod.mk.inj hr).2 ▸ hle

theorem draw_answered {n : Nat} (hx : AuditExec t .drawId (.ok n) t') :
    t.lastValue < n ∧ n ≤ t'.lastValue := by
  rcases hx with hr | ⟨_, ⟨_, he⟩, _⟩
  · rw [AuditTable.Answers, AuditTable.run] at hr
    split at hr
    · cases (Prod.mk.inj hr).1
    · obtain ⟨hn, rfl⟩ := Prod.mk.inj hr
      obtain rfl := Except.ok.inj hn
      exact ⟨Nat.lt_succ_self _, le_rfl⟩
  · cases he

theorem insertRow_answered {row : AuditRow} (hx : AuditExec t (.insertRow row) (.ok ()) t') :
    t.rows.get row.id = none ∧ t'.rows.get row.id = some row := by
  rcases hx with hr | ⟨_, ⟨_, he⟩, _⟩
  · rw [AuditTable.Answers, AuditTable.run, insertUnique] at hr
    cases hfree : t.rows.get row.id with
    | some old =>
      rw [hfree] at hr
      cases (Prod.mk.inj hr).1
    | none =>
      rw [hfree] at hr
      obtain ⟨_, rfl⟩ := Prod.mk.inj hr
      exact ⟨rfl, (t.rows.get_insert row row.id).trans (if_pos rfl)⟩
  · cases he

theorem selectRecent_answered {limit : Nat} {rows : List AuditRow}
    (hx : AuditExec t (.selectRecent limit) (.ok rows) t') : rows = t.descending.take limit := by
  rcases hx with hr | ⟨_, ⟨_, he⟩, _⟩
  · exact (Except.ok.inj (Prod.mk.inj hr).1).symm
  · cases he

end

end Piteka.Postgres
