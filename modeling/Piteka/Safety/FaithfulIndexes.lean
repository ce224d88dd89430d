import Piteka.Application.Scenario
import Piteka.Storage.Ledgers

/-!
# Reading by mandate and by request

The attempt, receipt and decision stores keep their rows in one map and the ids of a
group in another. Whatever has been called, reading a group gives the current rows of
that group in the order of their accepted insertions, and a refused call leaves the
stores as they were.
-/
namespace Piteka.Safety

set_option autoImplicit false

open Piteka.Interleaving Piteka.Interleaving.Program Piteka.Storage Piteka.Application

/-- The three reads give the rows of the group, in the order of the ledgers. -/
structure FaithfulIndexes (s : Stores) (l : Ledgers) : Prop where
  attempts : ∀ m, s.attempts.byMandate m = .ok (l.attempts.filter fun a => a.mandateIdHex = m)
  receipts : ∀ m, s.receipts.byMandate m = .ok (l.receipts.filter fun r => r.mandateIdHex = m)
  decisions : ∀ r, s.decisions.byRequest r = .ok (l.decisions.filter fun d => d.requestId = r)

/-- The rows of the ledgers are the current ones, each once. -/
structure CurrentRows (s : Stores) (l : Ledgers) : Prop where
  attempts : ∀ a, a ∈ l.attempts ↔ s.attempt a.attemptIdHex = some a
  receipts : ∀ r, r ∈ l.receipts ↔ s.receipt r.receiptIdHex = some r
  decisions : ∀ d, d ∈ l.decisions ↔ s.decision d.decisionId = some d
  attemptsOnce : (l.attempts.map (·.attemptIdHex)).Nodup
  receiptsOnce : (l.receipts.map (·.receiptIdHex)).Nodup
  decisionsOnce : (l.decisions.map (·.decisionId)).Nodup

variable {rt : Runtime} {faults : StoreCall → Prop} {s s' : Stores} {l : Ledgers} {h : Path}

theorem faithful_of_kept (hk : Kept s l) : FaithfulIndexes s l where
  attempts m := congrArg Except.ok (hk.attempts.byGroup_eq m)
  receipts m := congrArg Except.ok (hk.receipts.byGroup_eq m)
  decisions r := congrArg Except.ok (hk.decisions.byGroup_eq r)

theorem current_of_kept (hk : Kept s l) : CurrentRows s l where
  attempts := hk.attempts.rows.mem_iff
  receipts := hk.receipts.rows.mem_iff
  decisions := hk.decisions.rows.mem_iff
  attemptsOnce := hk.attempts.rows.nodup
  receiptsOnce := hk.receipts.rows.nodup
  decisionsOnce := hk.decisions.rows.nodup

/-- For every sequence of calls, of these and of other stores, and whichever of them fail. -/
theorem indexes_faithful (hs : Steps (Exec rt faults) .empty h s) :
    FaithfulIndexes s (Ledgers.after h) ∧ CurrentRows s (Ledgers.after h) ∧
      ∀ sc e s', Exec rt faults s (.store sc) (.error e) s' → s' = s :=
  ⟨faithful_of_kept (kept_after hs), current_of_kept (kept_after hs),
    fun _ _ _ hx => unchanged_of_error hx⟩

/-! ## An insertion, its repetition and an update -/

def opened : ExecutionAttempt where
  attemptIdHex := "a-1"
  mandateIdHex := "m-1"
  intentIdHex := "i-1"
  reservationTokenDigest := "token"
  executorIdentity := "executor"
  correlationKey := "key"
  startedAtUnixSeconds := 0
  dispatchBoundaryAtUnixSeconds := none
  state := .prepared
  githubDeploymentId := none

def repeatedRun : Path :=
  [did (.attempts (.insert opened)) (),
    ⟨.store (.attempts (.insert opened)),
      .error (.backend "execution attempt `a-1` already exists")⟩,
    did (.attempts (.updateState "a-1" .dispatching)) ()]

def withOpened : Stores :=
  ((StoreCall.attempts (.insert opened)).run sampleRuntime .asListed .empty).2

def withUpdated : Stores :=
  ((StoreCall.attempts (.updateState "a-1" .dispatching)).run sampleRuntime .asListed
    withOpened).2

theorem repeatedRun_steps : Steps (Exec sampleRuntime noFaults) .empty repeatedRun withUpdated :=
  ⟨withOpened, Or.inl ⟨.asListed, rfl⟩, withOpened, Or.inl ⟨.asListed, rfl⟩,
    withUpdated, Or.inl ⟨.asListed, rfl⟩, rfl⟩

theorem indexes_faithful_repeated :
    withUpdated.attempts.byMandate "m-1" = .ok [{ opened with state := .dispatching }] :=
  (indexes_faithful repeatedRun_steps).1.attempts "m-1"

end Piteka.Safety
