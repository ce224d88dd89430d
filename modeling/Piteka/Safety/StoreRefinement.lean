import Piteka.Postgres.Database
import Piteka.Safety.NodeRows

/-!
# The Postgres stores refine the in-memory stores

Whatever calls are made on the attempt, receipt and delivery tables, by any callers and
in any order, with calls that fail or lose their answers, the in-memory stores could
have been called in the same way with related answers. What the answers do not agree
on is the boundary time of an attempt, which has no column, the order of a listing,
which is by time, and the text of a refused insertion.
-/
namespace Piteka.Safety

set_option autoImplicit false

open Piteka.Interleaving Piteka.Interleaving.Program Piteka.Storage Piteka.Postgres

/-- Each trace of calls on the tables is one of calls on the in-memory stores, call by call. -/
theorem stores_refined {ι : Type} {rc : RowCodec} (hhex : rc.hex.Documented) (rt : Runtime)
    {db db' : Database} {s : Stores} {log : List (Entry ι DatabaseCall.Answer Database)}
    (h : db.Represents rc s) (ht : Trace (DatabaseExec rc) db log db')
    (hops : ∀ e ∈ log, Represented rc e.call.1) :
    ∃ (log' : List (Entry ι DatabaseCall.Answer Stores)) (s' : Stores),
      Trace (MemoryExec rt) s log' s' ∧ db'.Represents rc s' ∧
        List.Forall₂ (fun e f => e.caller = f.caller ∧ Alike DatabaseCall.Agrees e.call f.call)
          log log' :=
  ((tables_simulate hhex rt).faulty agrees_of_failed _).trace h ht hops

/-! ## An attempt and its receipt -/

def storedAttempt : ExecutionAttempt where
  attemptIdHex := "att-m-1"
  mandateIdHex := "m-1"
  intentIdHex := "i-1"
  reservationTokenDigest := "token"
  executorIdentity := "executor"
  correlationKey := "key"
  startedAtUnixSeconds := 100
  dispatchBoundaryAtUnixSeconds := some 101
  state := .dispatching
  githubDeploymentId := none

def insertedReceipt : ReceiptProjection where
  receiptIdHex := "rcpt-1"
  mandateIdHex := "m-1"
  intentIdHex := "i-1"
  attemptIdHex := "att-m-1"
  outcome := .succeeded
  createdAtUnixSeconds := 200
  dispatchEvidenceRefs := []
  targetEvidenceRefs := []
  evidenceGaps := []
  canonicalBytes := none

/-- An attempt is stored, given its deployment and read back, and its receipt is stored. -/
def storing : Program DatabaseCall DatabaseCall.Answer Unit :=
  .call (.attempts (.insert storedAttempt)) fun _ =>
  .call (.attempts (.updateDeploymentId "att-m-1" 7)) fun _ =>
  .call (.attempts (.byDeploymentId 7)) fun _ =>
  .call (.receipts (.insert insertedReceipt)) fun _ => .ret ()

def storingStart : Snapshot Unit DatabaseCall.Answer Database fun _ => Unit :=
  ⟨[], .empty, fun _ => storing⟩

def stored : Snapshot Unit DatabaseCall.Answer Database fun _ => Unit :=
  storingStart.play (fun _ : Unit => Database.run sampleRows .asListed)
    [((), ()), ((), ()), ((), ()), ((), ())]

theorem stored_run :
    Run (DatabaseExec sampleRows) .empty (fun _ => storing) stored.log stored.state stored.pool :=
  play_run (c := storingStart) (fun _ => database_sound sampleRows .asListed) .start _

theorem stored_represented : ∀ e ∈ stored.log, Represented sampleRows e.call.1 := by
  have hcarries : sampleRows.Carries insertedReceipt :=
    ⟨sampleRows_roundTrips, sampleRows_roundTrips, sampleRows_roundTrips⟩
  have hops : stored.log.map (fun e => e.call.1) =
      [.attempts (.insert storedAttempt), .attempts (.updateDeploymentId "att-m-1" 7),
        .attempts (.byDeploymentId 7), .receipts (.insert insertedReceipt)] := rfl
  have hall : ∀ op ∈ stored.log.map (fun e => e.call.1), Represented sampleRows op := by
    rw [hops]
    simpa [Represented] using hcarries
  exact fun e he => hall _ (List.mem_map_of_mem he)

theorem stores_refined_stored :
    ∃ (log' : List (Entry Unit DatabaseCall.Answer Stores)) (s' : Stores),
      Trace (MemoryExec Application.sampleRuntime) .empty log' s' ∧
        stored.state.Represents sampleRows s' ∧
        List.Forall₂ (fun e f => e.caller = f.caller ∧ Alike DatabaseCall.Agrees e.call f.call)
          stored.log log' :=
  stores_refined Text.Hex.Reader.standard_documented Application.sampleRuntime
    (represents_empty sampleRows) stored_run.trace stored_represented

end Piteka.Safety
