import Piteka.Application.System
import Piteka.Interleaving.Schedule

/-!
# Scenarios

`World` holds the answers that come from outside in one step, so a schedule of
callers and worlds determines a run. The stores of a scenario are seeded with
rows as the approval flow and the mandate issuance leave them.
-/
namespace Piteka.Application

set_option autoImplicit false

open Piteka.Interleaving Piteka.Storage Piteka.Domain

variable {ι : Type}

/-- What the outside answers in one step. -/
structure World where
  clock : UInt64
  deployment : Option UInt64
  correlated : StorageResult (Option CorrelatedDeployment)

/-- The step in which the stores answer without fault and the outside as given. -/
def react (rt : Runtime) (w : World) (s : Stores) : (op : PortCall) → Answer op × Stores
  | .store c => c.run rt .asListed s
  | .clock => (w.clock, s)
  | .dispatchFn _ _ => (w.deployment, s)
  | .findCorrelatedDeployment _ => (w.correlated, s)

theorem react_sound (rt : Runtime) (faults : StoreCall → Prop) (w : World) (s : Stores)
    (op : PortCall) : Exec rt faults s op (react rt w s op).1 (react rt w s op).2 := by
  cases op with
  | store c => exact Or.inl ⟨.asListed, rfl⟩
  | clock => rfl
  | dispatchFn => rfl
  | findCorrelatedDeployment => rfl

/-- The snapshot that a schedule reaches. -/
def played [DecidableEq ι] (rt : Runtime) (calls : ι → Call) (s₀ : Stores)
    (turns : List (ι × World)) : Snapshot ι Answer Stores fun i => (calls i).Res :=
  Snapshot.play (react rt) ⟨[], s₀, pool rt calls⟩ turns

theorem played_run [DecidableEq ι] (rt : Runtime) (faults : StoreCall → Prop) (calls : ι → Call)
    (s₀ : Stores) (turns : List (ι × World)) :
    SystemRun rt faults calls s₀ (played rt calls s₀ turns).log (played rt calls s₀ turns).state
      (played rt calls s₀ turns).pool :=
  play_run (c := ⟨[], s₀, pool rt calls⟩) (react_sound rt faults) .start turns

/-- The sequential session of the given calls. -/
def playedSession (rt : Runtime) (s₀ : Stores) (turns : List (Call × World)) :
    List (Turn Call Stores) × Stores :=
  playSession (react rt) (Call.program rt) ([], s₀) turns

theorem playedSession_session (rt : Runtime) (faults : StoreCall → Prop) (s₀ : Stores)
    (turns : List (Call × World)) :
    Session (Exec rt faults) (Call.program rt) s₀ (playedSession rt s₀ turns).1
      (playedSession rt s₀ turns).2 :=
  playSession_session (react_sound rt faults) .start turns

/-! ## Seeds -/

/-- A clock at zero and a provider that answers with `deployment`. -/
def World.answering (deployment : Option UInt64) : World where
  clock := 0
  deployment := deployment
  correlated := .ok (deployment.map CorrelatedDeployment.mk)

/-- The caller `i` takes `n` steps in the world `w`. -/
def steps (i : ι) (n : Nat) (w : World) : List (ι × World) := List.replicate n (i, w)

/-- SHA-256 at the attempts that the scenarios dispatch. -/
def sampleDigests : List (String × Vector UInt8 32) :=
  [("att-m-1|m-1|i-1",
      #v[236, 160, 212, 151, 137, 7, 122, 97, 38, 131, 213, 34, 1, 56, 141, 121,
        207, 210, 86, 221, 23, 95, 75, 56, 80, 36, 194, 26, 172, 127, 69, 73]),
    ("att-m-2|m-2|i-1",
      #v[83, 176, 12, 162, 36, 55, 246, 75, 48, 6, 45, 183, 158, 120, 26, 224,
        60, 218, 170, 169, 35, 188, 209, 223, 152, 193, 161, 46, 198, 139, 141, 13]),
    ("att-m-1|m-1|i-2",
      #v[14, 98, 161, 82, 193, 146, 46, 56, 128, 158, 84, 18, 97, 219, 118, 188,
        167, 201, 179, 176, 13, 93, 103, 5, 3, 25, 150, 22, 195, 31, 106, 255])]

/-- SHA-256 from the table above, and `{:?}` without escapes. -/
def sampleRuntime : Runtime where
  sha256 bytes :=
    match sampleDigests.find? fun d => d.1.toUTF8.data = bytes with
    | some (_, digest) => digest
    | none => Vector.replicate 32 0
  debugOption
    | none => "None"
    | some value => "Some(\"" ++ value ++ "\")"

/-- The callers of a scenario with two of them. -/
inductive Pair where
  | first
  | second
  deriving DecidableEq

def sampleUser : UserId := ⟨"alice", by decide⟩

def samplePropose (requestId : String) : ProposeArgs := ⟨requestId, sampleUser, some "i-1"⟩

def sampleDecide (requestId : String) (expectedVersion : Int64) : DecideArgs :=
  ⟨requestId, sampleUser, some "i-1", expectedVersion⟩

def sampleRevoke (requestId : String) (expectedVersion : Int64) : RevokeArgs :=
  ⟨requestId, sampleUser, expectedVersion⟩

def sampleReserve (requestId mandateIdHex : String) (expectedVersion : Int64) : ReserveArgs where
  requestId := requestId
  mandateIdHex := mandateIdHex
  intentIdHex := "i-1"
  executorIdentity := "executor"
  reservationTokenDigest := "token"
  correlationKey := "key"
  expectedMandateVersion := expectedVersion

/-- Request `r-1` is proposed and approved. -/
def approvalCalls : Pair → Call
  | .first => .propose (samplePropose "r-1")
  | .second => .approve (sampleDecide "r-1" 1)

def afterApproval (s : Stores) : Stores :=
  (played sampleRuntime approvalCalls s
    (steps .first 3 (.answering none) ++ steps .second 6 (.answering none))).state

end Piteka.Application

namespace Piteka.Storage.Stores

/-- A mandate projection as its issuance leaves it. -/
def issued (s : Stores) (mandateIdHex : String) : Stores :=
  { s with mandates := ⟨s.mandates.projections.insert ⟨mandateIdHex, 1, "issued"⟩⟩ }

end Piteka.Storage.Stores
