import Piteka.Postgres.Rows
import Piteka.Storage.Ports

/-!
# The Postgres attempt store

A row is the tuple of the values that the insertion binds; the boundary time of an
attempt has no column. Each method runs one statement, so it is one atomic step on
the table.
-/
namespace Piteka.Postgres

set_option autoImplicit false

open Piteka.Storage Piteka.Table

/-- The columns added by the second migration may be NULL. -/
structure AttemptRow where
  attemptIdHex : String
  mandateIdHex : String
  state : String
  createdAt : Int64
  intentIdHex : Option String
  reservationTokenDigest : Option String
  executorIdentity : Option String
  correlationKey : Option String
  githubDeploymentId : Option Int64
  deriving DecidableEq

structure AttemptTable where
  rows : Keyed String AttemptRow (·.attemptIdHex)

def AttemptTable.empty : AttemptTable := ⟨.empty⟩

def stateToStr : ExecutionAttemptState → String
  | .prepared => "prepared"
  | .dispatching => "dispatching"
  | .accepted => "accepted"
  | .rejected => "rejected"
  | .outcomeAmbiguous => "outcome_ambiguous"
  | .reconciledAccepted => "reconciled_accepted"
  | .reconciledNotAccepted => "reconciled_not_accepted"
  | .abandonedAmbiguous => "abandoned_ambiguous"

def strToState : String → ExecutionAttemptState
  | "prepared" => .prepared
  | "dispatching" => .dispatching
  | "accepted" => .accepted
  | "rejected" => .rejected
  | "outcome_ambiguous" => .outcomeAmbiguous
  | "reconciled_accepted" => .reconciledAccepted
  | "reconciled_not_accepted" => .reconciledNotAccepted
  | "abandoned_ambiguous" => .abandonedAmbiguous
  | _ => .outcomeAmbiguous

@[simp] theorem strToState_stateToStr (state : ExecutionAttemptState) :
    strToState (stateToStr state) = state := by
  cases state <;> rfl

namespace PgExecutionAttemptStore

/-- The values bound for an attempt. -/
def bound (attempt : ExecutionAttempt) : AttemptRow where
  attemptIdHex := attempt.attemptIdHex
  mandateIdHex := attempt.mandateIdHex
  state := stateToStr attempt.state
  createdAt := attempt.startedAtUnixSeconds
  intentIdHex := some attempt.intentIdHex
  reservationTokenDigest := some attempt.reservationTokenDigest
  executorIdentity := some attempt.executorIdentity
  correlationKey := some attempt.correlationKey
  githubDeploymentId := attempt.githubDeploymentId.map UInt64.toInt64

/-- The attempt that a row is read as; what the query was asked by is not read back. -/
def decode (attemptIdHex mandateIdHex : String) (githubDeploymentId : Option UInt64)
    (row : AttemptRow) : StorageResult ExecutionAttempt := do
  let intentIdHex ← notNull "intent_id_hex" row.intentIdHex
  let reservationTokenDigest ← notNull "reservation_token_digest" row.reservationTokenDigest
  let executorIdentity ← notNull "executor_identity" row.executorIdentity
  let correlationKey ← notNull "correlation_key" row.correlationKey
  return {
    attemptIdHex
    mandateIdHex
    intentIdHex
    reservationTokenDigest
    executorIdentity
    correlationKey
    startedAtUnixSeconds := row.createdAt
    dispatchBoundaryAtUnixSeconds := none
    state := strToState row.state
    githubDeploymentId }

variable (t : AttemptTable)

def insert (attempt : ExecutionAttempt) : StorageResult Unit × AttemptTable :=
  if attempt.attemptIdHex = "" then (.error (.emptyField "attempt_id_hex"), t)
  else
    let r := insertUnique t.rows (bound attempt)
    (r.1, ⟨r.2⟩)

def get (attemptIdHex : String) : StorageResult (Option ExecutionAttempt) :=
  match t.rows.get attemptIdHex with
  | none => .ok none
  | some row =>
    (decode attemptIdHex row.mandateIdHex (row.githubDeploymentId.map Int64.toUInt64) row).map some

/-- An `UPDATE` of the row under a key; it is an error that no row is affected. -/
def update (attemptIdHex : String) (set : AttemptRow → AttemptRow)
    (hset : ∀ row, (set row).attemptIdHex = row.attemptIdHex) : StorageResult Unit × AttemptTable :=
  match t.rows.get attemptIdHex with
  | none => (.error (.backend ("execution attempt `" ++ attemptIdHex ++ "` not found")), t)
  | some _ => (.ok (), ⟨t.rows.modify attemptIdHex set hset⟩)

def updateState (attemptIdHex : String) (newState : ExecutionAttemptState) :
    StorageResult Unit × AttemptTable :=
  update t attemptIdHex (fun row => { row with state := stateToStr newState }) fun _ => rfl

def updateDeploymentId (attemptIdHex : String) (deploymentId : UInt64) :
    StorageResult Unit × AttemptTable :=
  update t attemptIdHex (fun row => { row with githubDeploymentId := some deploymentId.toInt64 })
    fun _ => rfl

def byMandate (scan : Scan AttemptRow) (mandateIdHex : String) :
    StorageResult (List ExecutionAttempt) :=
  (scan.orderedBy (·.createdAt) (t.rows.values.filter fun row => row.mandateIdHex = mandateIdHex)).mapM
    fun row => decode row.attemptIdHex mandateIdHex (row.githubDeploymentId.map Int64.toUInt64) row

/-- `fetch_optional` takes the first of the rows found. -/
def byDeploymentId (scan : Scan AttemptRow) (deploymentId : UInt64) :
    StorageResult (Option ExecutionAttempt) :=
  match (scan.order t.rows.values).find? fun row => row.githubDeploymentId == some deploymentId.toInt64 with
  | none => .ok none
  | some row => (decode row.attemptIdHex row.mandateIdHex (some deploymentId) row).map some

end PgExecutionAttemptStore

/-- The table's answer to a call of the attempt store. -/
def AttemptTable.answer (scan : Scan AttemptRow) (t : AttemptTable) :
    (c : ExecutionAttemptCall) → StorageResult (StoreCall.attempts c).Ok × AttemptTable
  | .insert attempt => PgExecutionAttemptStore.insert t attempt
  | .get id => (PgExecutionAttemptStore.get t id, t)
  | .updateState id state => PgExecutionAttemptStore.updateState t id state
  | .updateDeploymentId id deployment => PgExecutionAttemptStore.updateDeploymentId t id deployment
  | .byMandate m => (PgExecutionAttemptStore.byMandate t scan m, t)
  | .byDeploymentId deployment => (PgExecutionAttemptStore.byDeploymentId t scan deployment, t)

/-! ## The table as an image of the store -/

open PgExecutionAttemptStore

/-- An attempt as it comes out of its row. -/
def withoutBoundary (attempt : ExecutionAttempt) : ExecutionAttempt :=
  { attempt with dispatchBoundaryAtUnixSeconds := none }

/-- The rows are those of the attempts of the store. -/
abbrev AttemptTable.Represents (t : AttemptTable) (s : InMemoryExecutionAttemptStore) : Prop :=
  Keyed.Image bound s.attempts.toKeyed t.rows

/-- How the table's answer `a` relates to the answer `b` of the in-memory store. -/
def AttemptsAgree : (c : ExecutionAttemptCall) → StorageResult (StoreCall.attempts c).Ok →
    StorageResult (StoreCall.attempts c).Ok → Prop
  | .insert _, a, b => SameVerdict a b
  | .get _, a, b => a = b.map (Option.map withoutBoundary)
  | .updateState _ _, a, b => a = b
  | .updateDeploymentId _ _, a, b => a = b
  | .byMandate _, .ok l, .ok l' => l.Perm (l'.map withoutBoundary) ∧
      l.Pairwise fun x y => x.startedAtUnixSeconds ≤ y.startedAtUnixSeconds
  | .byMandate _, a, b => a = b
  | .byDeploymentId _, a, b => a = b.map (Option.map withoutBoundary)

/-- A failure is related to itself. -/
theorem attemptsAgree_error (c : ExecutionAttemptCall) (e : StorageError) :
    AttemptsAgree c (.error e) (.error e) := by
  cases c <;> exact rfl

/-- A deployment id fits its column without loss. -/
theorem deployment_column (d : Option UInt64) :
    (d.map UInt64.toInt64).map Int64.toUInt64 = d := by
  cases d with
  | none => rfl
  | some d => rfl

theorem decode_attemptRow (attempt : ExecutionAttempt) :
    decode attempt.attemptIdHex attempt.mandateIdHex
      ((bound attempt).githubDeploymentId.map Int64.toUInt64) (bound attempt) =
      .ok (withoutBoundary attempt) := by
  have hstate : strToState (bound attempt).state = attempt.state := strToState_stateToStr _
  have hdeployment := deployment_column attempt.githubDeploymentId
  simp only [decode, bound, notNull] at hstate hdeployment ⊢
  rw [hstate, hdeployment]
  rfl

section
variable {t : AttemptTable} {s : InMemoryExecutionAttemptStore}

theorem attempt_insert (h : t.Represents s) (attempt : ExecutionAttempt) :
    SameVerdict (insert t attempt).1 (s.insert attempt).1 ∧
      (insert t attempt).2.Represents (s.insert attempt).2 := by
  rw [PgExecutionAttemptStore.insert, InMemoryExecutionAttemptStore.insert]
  by_cases hblank : attempt.attemptIdHex = ""
  · rw [if_pos hblank, insertIndexed, if_pos hblank]
    exact ⟨rfl, h⟩
  · rw [if_neg hblank]
    exact insertUnique_indexed h (fun _ => rfl) _ _ hblank

theorem attempt_get (h : t.Represents s) (id : String) :
    get t id = (s.get id).map (Option.map withoutBoundary) := by
  rw [PgExecutionAttemptStore.get, h.get_eq, InMemoryExecutionAttemptStore.get]
  cases hs : s.attempts.get id with
  | none =>
    rw [show s.attempts.toKeyed.get id = none from hs]
    rfl
  | some attempt =>
    rw [show s.attempts.toKeyed.get id = some attempt from hs, ← s.attempts.keyed hs]
    exact congrArg (Except.map some) (decode_attemptRow attempt)

/-- An update of the row and the change of the attempt. -/
theorem attempt_update (h : t.Represents s) (id : String) (set : AttemptRow → AttemptRow)
    (change : ExecutionAttempt → ExecutionAttempt)
    (hset : ∀ row, (set row).attemptIdHex = row.attemptIdHex)
    (hid : ∀ a, (change a).attemptIdHex = a.attemptIdHex)
    (hm : ∀ a, (change a).mandateIdHex = a.mandateIdHex)
    (hcomm : ∀ a, set (bound a) = bound (change a)) :
    let changed : StorageResult Unit × InMemoryExecutionAttemptStore :=
      match s.attempts.get id with
      | none => (.error (InMemoryExecutionAttemptStore.notFound id), s)
      | some _ => (.ok (), ⟨s.attempts.modify id change hid hm⟩)
    (update t id set hset).1 = changed.1 ∧ (update t id set hset).2.Represents changed.2 := by
  rw [update, h.get_eq]
  cases hs : s.attempts.get id with
  | none =>
    rw [show s.attempts.toKeyed.get id = none from hs]
    exact ⟨rfl, h⟩
  | some attempt =>
    rw [show s.attempts.toKeyed.get id = some attempt from hs]
    exact ⟨rfl, h.modify hid hset hcomm⟩

/-- Every row that a query by mandate finds is that of an attempt of the mandate. -/
theorem attempt_byMandate (h : t.Represents s) (scan : Scan AttemptRow) (m : String) :
    ∃ l, byMandate t scan m = .ok l ∧ l.Perm ((s.attempts.byGroup m).map withoutBoundary) ∧
      l.Pairwise fun x y => x.startedAtUnixSeconds ≤ y.startedAtUnixSeconds := by
  have hrows : (t.rows.values.filter fun row => row.mandateIdHex = m).Perm
      ((s.attempts.byGroup m).map bound) :=
    h.group_perm (fun _ => rfl) (fun _ => rfl) m
  obtain ⟨l, hl, heq⟩ := exists_of_perm_map ((scan.orderedBy_perm (·.createdAt) _).trans hrows)
  have hsorted := scan.orderedBy_sorted (·.createdAt)
    (t.rows.values.filter fun row => row.mandateIdHex = m)
  rw [heq, List.pairwise_map] at hsorted
  refine ⟨l.map withoutBoundary, ?_, hl.map _, List.pairwise_map.mpr hsorted⟩
  rw [byMandate, heq, List.mapM_map]
  apply mapM_ok
  intro attempt hmem
  have hgroup := (s.attempts.mem_byGroup m attempt).mp (hl.mem_iff.mp hmem)
  exact hgroup.2 ▸ decode_attemptRow attempt

theorem bound_deployment (d : UInt64) (attempt : ExecutionAttempt) :
    ((bound attempt).githubDeploymentId == some d.toInt64) =
      (attempt.githubDeploymentId == some d) := by
  rw [Bool.eq_iff_iff, beq_iff_eq, beq_iff_eq]
  constructor
  · intro h
    have hback := congrArg (Option.map Int64.toUInt64) h
    rw [bound, deployment_column] at hback
    exact hback
  · intro h
    rw [bound, h]
    rfl

/-- Of several attempts with one deployment id each store finds some first one. -/
theorem attempt_byDeploymentId (h : t.Represents s) (scan : Scan AttemptRow) (d : UInt64) :
    ∃ order : List ExecutionAttempt → List ExecutionAttempt, (∀ l, (order l).Perm l) ∧
      byDeploymentId t scan d = (s.byDeploymentId order d).map (Option.map withoutBoundary) := by
  have hrows : (scan.order t.rows.values).Perm (s.attempts.values.map bound) :=
    (scan.perm _).trans (h.values_perm fun _ => rfl)
  obtain ⟨l, hl, heq⟩ := exists_of_perm_map hrows
  refine ⟨fun l' => if l' = s.attempts.values then l else l', ?_, ?_⟩
  · intro l'
    dsimp only
    split
    · next h => exact h ▸ hl
    · exact .refl l'
  have hcolumn : (fun row : AttemptRow => row.githubDeploymentId == some d.toInt64) ∘ bound =
      fun a => a.githubDeploymentId == some d := funext (bound_deployment d)
  rw [byDeploymentId, heq, List.find?_map, hcolumn, InMemoryExecutionAttemptStore.byDeploymentId,
    if_pos rfl]
  cases hfind : l.find? fun a => a.githubDeploymentId == some d with
  | none => rfl
  | some attempt =>
    have hd := List.find?_some hfind
    rw [beq_iff_eq] at hd
    have hdecode := decode_attemptRow attempt
    rw [bound, deployment_column, hd] at hdecode
    exact congrArg (Except.map some) hdecode

end

/-- Each call on the table can be made on the in-memory store, with a related answer. -/
theorem attempts_answer {t : AttemptTable} {s : Stores} (h : t.Represents s.attempts) (rt : Runtime)
    (scan : Scan AttemptRow) (c : ExecutionAttemptCall) :
    ∃ order, AttemptsAgree c (t.answer scan c).1 ((StoreCall.attempts c).run rt order s).1 ∧
      (t.answer scan c).2.Represents ((StoreCall.attempts c).run rt order s).2.attempts := by
  cases c with
  | insert attempt => exact ⟨.asListed, attempt_insert h attempt⟩
  | get id => exact ⟨.asListed, attempt_get h id, h⟩
  | updateState id state =>
    exact ⟨.asListed, attempt_update h id (fun row => { row with state := stateToStr state })
      (fun a => { a with state := state }) (fun _ => rfl) (fun _ => rfl) (fun _ => rfl) fun _ => rfl⟩
  | updateDeploymentId id d =>
    exact ⟨.asListed, attempt_update h id
      (fun row => { row with githubDeploymentId := some d.toInt64 })
      (fun a => { a with githubDeploymentId := some d })
      (fun _ => rfl) (fun _ => rfl) (fun _ => rfl) fun _ => rfl⟩
  | byMandate m =>
    obtain ⟨l, hl, hperm, hsorted⟩ := attempt_byMandate h scan m
    refine ⟨.asListed, ?_, h⟩
    rw [show (t.answer scan (.byMandate m)).1 = .ok l from hl]
    exact ⟨hperm, hsorted⟩
  | byDeploymentId d =>
    obtain ⟨order, hperm, heq⟩ := attempt_byDeploymentId h scan d
    exact ⟨{ HashOrder.asListed with attempts := order, attempts_perm := hperm }, heq, h⟩

end Piteka.Postgres
