import Piteka.Postgres.ProtocolObjects
import Piteka.Application.Scenario

/-!
# Protocol objects on Postgres

Puts and gets of many callers, statement by statement, with statements that fail or
lose their answer. What a method returns is what the atomic method of the in-memory
store gives at a moment of the call, and the bytes that some caller has seen
confirmed are those that stay stored: no two callers are told different bytes.
-/
namespace Piteka.Safety

set_option autoImplicit false

open Piteka.Interleaving Piteka.Interleaving.Program Piteka.Storage Piteka.Postgres

variable {ι : Type}

abbrev ObjectEntry (ι : Type) := Entry ι ObjectStatement.Answer ObjectTable

/-- The method has told its caller that the object `id` has the bytes `bytes`. -/
def Confirms (id : String) (bytes : Array UInt8) : (c : ObjectMethod) → c.Result → Prop
  | .put record, .ok () => record.objectIdHex = id ∧ record.bytes = bytes
  | .get id', .ok (some record) => id' = id ∧ record.bytes = bytes
  | _, _ => False

/-- An error of the database or of the connection. -/
def IsBackend {α : Type} (r : StorageResult α) : Prop := ∃ message, r = .error (.backend message)

section
variable [DecidableEq ι]

/-- The backend failed, or the result is that of the atomic method at a moment of the call. A
put without an id is refused before its first statement. -/
def ObjectLinearized (i : ι) (s₀ : ObjectTable) (log : List (ObjectEntry ι)) :
    (c : ObjectMethod) → c.Result → Prop
  | .put record, r => IsBackend r ∨ record.objectIdHex = "" ∧ r = .error (.emptyField "object_id_hex") ∨
      Linearizable (fun t : ObjectTable => (t.toMemory.put record).1) i s₀ log r
  | .get id, r => IsBackend r ∨ Linearizable (fun t : ObjectTable => t.toMemory.get id) i s₀ log r

/-- A run of the given calls, each by a caller of its own. -/
abbrev ObjectRun (calls : ι → ObjectMethod) (s₀ : ObjectTable) (log : List (ObjectEntry ι))
    (s : ObjectTable)
    (p : (i : ι) → Program ObjectStatement ObjectStatement.Answer (calls i).Result) : Prop :=
  Run ObjectExec s₀ (fun i => (calls i).program) log s p

end

/-! ## One statement against the atomic method -/

theorem error_backend {t t' : ObjectTable} {q : ObjectStatement} {e : StorageError}
    (hx : ObjectExec t q (.error e) t') : ∃ message, e = .backend message := by
  rcases hx with hr | ⟨_, ⟨message, he⟩, _⟩
  · rw [ObjectTable.Answers] at hr
    cases q with
    | insertRow record =>
      rw [ObjectTable.run] at hr
      cases hrow : t.rows.get record.objectIdHex <;> rw [hrow] at hr <;> cases (Prod.mk.inj hr).1
    | selectBytes id =>
      rw [ObjectTable.run] at hr
      cases hrow : t.rows.get id with
      | none =>
        rw [hrow] at hr
        exact ⟨_, (Except.error.inj (Prod.mk.inj hr).1).symm⟩
      | some row =>
        rw [hrow] at hr
        cases (Prod.mk.inj hr).1
    | selectRow id => cases (Prod.mk.inj hr).1
  · exact ⟨message, Except.error.inj he⟩

theorem memory_put_free {t : ObjectTable} {record : ProtocolObjectRecord}
    (hne : record.objectIdHex ≠ "") (hfree : t.rows.get record.objectIdHex = none) :
    (t.toMemory.put record).1 = .ok () := by
  have hget : t.toMemory.objects.get record.objectIdHex = none := hfree
  rw [InMemoryProtocolObjectStore.put, if_neg hne, hget]

theorem memory_put_taken {t : ObjectTable} {record row : ProtocolObjectRecord}
    (hne : record.objectIdHex ≠ "") (htaken : t.rows.get record.objectIdHex = some row) :
    (t.toMemory.put record).1 = if row.bytes = record.bytes then .ok () else
      .error (.immutableViolation record.objectIdHex) := by
  have hget : t.toMemory.objects.get record.objectIdHex = some row := htaken
  rw [InMemoryProtocolObjectStore.put, if_neg hne, hget]
  dsimp only
  split <;> rfl

theorem memory_get {t : ObjectTable} (id : String) :
    ((t.rows.get id).map fun row => (row.kind, row.bytes)).map (fun (kind, bytes) =>
      ({ kind, objectIdHex := id, bytes } : ProtocolObjectRecord)) = t.rows.get id := by
  cases hrow : t.rows.get id with
  | none => rfl
  | some row =>
    rw [← t.rows.keyed hrow]
    rfl

/-! ## Runs -/

section
variable [DecidableEq ι] {calls : ι → ObjectMethod} {s₀ s : ObjectTable} {log : List (ObjectEntry ι)}
  {p : (i : ι) → Program ObjectStatement ObjectStatement.Answer (calls i).Result}

/-- A row stored after an entry of the run is there at its end. -/
theorem kept_to_end (run : ObjectRun calls s₀ log s p) {e : ObjectEntry ι} (he : e ∈ log)
    {id : String} {row : ProtocolObjectRecord} (hrow : e.after.rows.get id = some row) :
    s.rows.get id = some row := by
  obtain ⟨l₁, l₂, rfl⟩ := List.append_of_mem he
  exact run.trace.around.2.keeps (Q := fun t => t.rows.get id = some row)
    (fun hx hold => row_kept hx hold) hrow

/-- What a put that has returned has done, by the entries of the run. -/
inductive PutOutcome (i : ι) (log : List (ObjectEntry ι)) (record : ProtocolObjectRecord) :
    StorageResult Unit → Prop
  | blank (h : record.objectIdHex = "") : PutOutcome i log record (.error (.emptyField "object_id_hex"))
  | failed (message : String) : PutOutcome i log record (.error (.backend message))
  | inserted {e : ObjectEntry ι} (he : e ∈ log) (hi : e.caller = i) (hne : record.objectIdHex ≠ "")
      (hfree : e.before.rows.get record.objectIdHex = none)
      (hrow : e.after.rows.get record.objectIdHex = some record) : PutOutcome i log record (.ok ())
  | compared {e : ObjectEntry ι} (he : e ∈ log) (hi : e.caller = i) (hne : record.objectIdHex ≠ "")
      {row : ProtocolObjectRecord} (hrow : e.before.rows.get record.objectIdHex = some row)
      (hkept : e.after.rows.get record.objectIdHex = some row) :
      PutOutcome i log record (if row.bytes = record.bytes then .ok () else
        .error (.immutableViolation record.objectIdHex))

theorem put_outcome (run : ObjectRun calls s₀ log s p) {i : ι} {record : ProtocolObjectRecord}
    {r : StorageResult Unit}
    (hr : Returns (PgProtocolObjectStore.put record).run (history i log) r) :
    PutOutcome i log record r := by
  obtain ⟨hne, hpath⟩ := put_returns hr
  generalize hh : history i log = h at hne hpath
  cases hpath with
  | blank hblank => exact .blank hblank
  | failed e =>
    obtain ⟨_, _, _, _, hx⟩ := run.executed (hh ▸ List.mem_cons_self)
    obtain ⟨message, rfl⟩ := error_backend hx
    exact .failed message
  | inserted =>
    obtain ⟨e, he, hi, hc, hx⟩ := run.executed (hh ▸ List.mem_cons_self)
    have hne' := hne.resolve_right (List.cons_ne_nil _ _)
    rcases insert_answered hx with ⟨_, hfree, hrow⟩ | ⟨h0, _⟩
    · exact .inserted he hi hne' hfree hrow
    · cases h0
  | unread n e =>
    obtain ⟨_, _, _, _, hx⟩ := run.executed (hh ▸ List.mem_cons_of_mem _ List.mem_cons_self)
    obtain ⟨message, rfl⟩ := error_backend hx
    exact .failed message
  | compared n hn bytes =>
    obtain ⟨e, he, hi, hc, hx⟩ := run.executed (hh ▸ List.mem_cons_of_mem _ List.mem_cons_self)
    obtain ⟨row, hrow, rfl⟩ := selectBytes_answered hx
    exact .compared he hi (hne.resolve_right (List.cons_ne_nil _ _)) hrow (row_kept hx hrow)

/-- A get that has returned failed, or has read the row that the table had then. -/
theorem get_outcome (run : ObjectRun calls s₀ log s p) {i : ι} {id : String}
    {r : StorageResult (Option ProtocolObjectRecord)}
    (hr : Returns (PgProtocolObjectStore.get id).run (history i log) r) :
    IsBackend r ∨ ∃ e ∈ log, e.caller = i ∧ r = .ok (e.before.rows.get id) ∧
      ∀ row, e.before.rows.get id = some row → e.after.rows.get id = some row := by
  generalize hh : history i log = h at hr
  rcases returns_tryCall.mp hr with ⟨e, rfl, rfl⟩ | ⟨row, t, rfl, ht⟩
  · obtain ⟨_, _, _, _, hx⟩ := run.executed (hh ▸ List.mem_cons_self)
    obtain ⟨message, rfl⟩ := error_backend hx
    exact Or.inl ⟨message, rfl⟩
  · obtain ⟨rfl, rfl⟩ := returns_pure.mp ht
    obtain ⟨e, he, hi, _, hx⟩ := run.executed (hh ▸ List.mem_cons_self)
    rw [selectRow_answered hx, memory_get]
    exact Or.inr ⟨e, he, hi, rfl, fun row hrow => row_kept hx hrow⟩

theorem object_linearized (run : ObjectRun calls s₀ log s p) {i : ι} {c : ObjectMethod} {r : c.Result}
    (hr : Returns c.program (history i log) r) : ObjectLinearized i s₀ log c r := by
  cases c with
  | put record =>
    cases put_outcome run hr with
    | blank hblank => exact Or.inr (Or.inl ⟨hblank, rfl⟩)
    | failed message => exact Or.inl ⟨message, rfl⟩
    | inserted he hi hne hfree _ =>
      exact Or.inr (Or.inr ⟨_, hi ▸ run.linked.during he, memory_put_free hne hfree⟩)
    | compared he hi hne hrow _ =>
      exact Or.inr (Or.inr ⟨_, hi ▸ run.linked.during he, memory_put_taken hne hrow⟩)
  | get id =>
    rcases get_outcome run hr with hfail | ⟨e, he, hi, rfl, _⟩
    · exact Or.inl hfail
    · exact Or.inr ⟨_, hi ▸ run.linked.during he, rfl⟩

/-- What a caller has been told of an object is what is stored at the end. -/
theorem confirmed_stored (run : ObjectRun calls s₀ log s p) {i : ι} {c : ObjectMethod} {r : c.Result}
    (hr : Returns c.program (history i log) r) {id : String} {bytes : Array UInt8}
    (hc : Confirms id bytes c r) : ∃ row, s.rows.get id = some row ∧ row.bytes = bytes := by
  cases c with
  | put record =>
    cases put_outcome run hr with
    | blank => exact hc.elim
    | failed => exact hc.elim
    | inserted he _ _ _ hrow =>
      obtain ⟨rfl, rfl⟩ := hc
      exact ⟨record, kept_to_end run he hrow, rfl⟩
    | @compared e he _ _ row _ hrow =>
      by_cases hb : row.bytes = record.bytes
      · rw [if_pos hb] at hc
        obtain ⟨rfl, rfl⟩ := hc
        exact ⟨row, kept_to_end run he hrow, hb⟩
      · rw [if_neg hb] at hc
        exact hc.elim
  | get id' =>
    rcases get_outcome run hr with ⟨message, rfl⟩ | ⟨e, he, _, rfl, hkept⟩
    · exact hc.elim
    · cases hrow : e.before.rows.get id' with
      | none =>
        rw [hrow] at hc
        exact hc.elim
      | some row =>
        rw [hrow] at hc
        obtain ⟨rfl, rfl⟩ := hc
        exact ⟨row, kept_to_end run he (hkept row hrow), rfl⟩

/-- Over any run of puts and gets, with statements failing or losing their answers: every result
is a backend failure, the refusal of a blank id, or what the atomic method gives at a moment of the
call; and the bytes confirmed to any caller stay the stored ones, so no two callers are told
different bytes of one object. -/
theorem objects_immutable (run : ObjectRun calls s₀ log s p) :
    (∀ i r, p i = .ret r → ObjectLinearized i s₀ log (calls i) r) ∧
      ∀ i r id bytes, p i = .ret r → Confirms id bytes (calls i) r →
        ∃ row, s.rows.get id = some row ∧ row.bytes = bytes := by
  constructor
  · intro i r hp
    exact object_linearized run (run.returns hp)
  · intro i r id bytes hp hc
    exact confirmed_stored run (run.returns hp) hc

end

/-! ## Two puts of one id -/

def objectOf (bytes : Array UInt8) : ProtocolObjectRecord := ⟨"intent", "o-1", bytes⟩

def racingPuts : Application.Pair → ObjectMethod
  | .first => .put (objectOf #[1])
  | .second => .put (objectOf #[2])

def racingStart : Snapshot Application.Pair ObjectStatement.Answer ObjectTable
    fun i => (racingPuts i).Result :=
  ⟨[], .empty, fun i => (racingPuts i).program⟩

/-- Both insert, the second finds the row of the first and reads its bytes. -/
def racedPuts : Snapshot Application.Pair ObjectStatement.Answer ObjectTable
    fun i => (racingPuts i).Result :=
  racingStart.play (fun _ : Unit => ObjectTable.run) [(.first, ()), (.second, ()), (.second, ())]

theorem raced_puts_run :
    ObjectRun racingPuts .empty racedPuts.log racedPuts.state racedPuts.pool :=
  play_run (c := racingStart) (fun _ => statement_sound) .start _

example : racedPuts.pool .second = .ret (.error (.immutableViolation "o-1")) := rfl

theorem objects_immutable_raced :
    (∀ i r, racedPuts.pool i = .ret r →
        ObjectLinearized i ObjectTable.empty racedPuts.log (racingPuts i) r) ∧
      ∀ i r id bytes, racedPuts.pool i = .ret r → Confirms id bytes (racingPuts i) r →
        ∃ row, racedPuts.state.rows.get id = some row ∧ row.bytes = bytes :=
  objects_immutable raced_puts_run

end Piteka.Safety
