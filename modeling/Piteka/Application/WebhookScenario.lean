import Piteka.Application.Scenario
import Piteka.Application.TerminalDeliveries

/-!
# Webhook scenarios

A codec for the scenarios: it writes compact JSON with sorted keys, reads the
sample bodies and knows SHA-256 at the texts that the scenarios hash. The sample
texts hold nothing that JSON escapes.
-/
namespace Piteka.Application

set_option autoImplicit false

open Piteka.Interleaving Piteka.Storage

/-! ## Compact JSON -/

def quoted (text : String) : String := "\"" ++ text ++ "\""

def insertField (field : String × String) : List (String × String) → List (String × String)
  | [] => [field]
  | f :: fields =>
    if field.1.toList < f.1.toList then field :: f :: fields else f :: insertField field fields

def objectText (fields : List (String × String)) : String :=
  "\x7b" ++ ",".intercalate
    ((fields.foldr insertField []).map fun f => quoted f.1 ++ ":" ++ f.2) ++ "\x7d"

def numberText : JsonNumber → String
  | .posInt n => toString n.toNat
  | .negInt n => toString n.toInt
  | .float _ => "0.0"

mutual

def compact : Json → String
  | .null => "null"
  | .bool value => if value then "true" else "false"
  | .number value => numberText value
  | .string value => quoted value
  | .array items => "[" ++ ",".intercalate (compactItems items) ++ "]"
  | .object fields => objectText (compactFields fields)

def compactItems : List Json → List String
  | [] => []
  | item :: items => compact item :: compactItems items

def compactFields : List (String × Json) → List (String × String)
  | [] => []
  | (key, value) :: fields => (key, compact value) :: compactFields fields

end

/-! ## Samples -/

def sampleAttempt : ExecutionAttempt where
  attemptIdHex := attemptIdOf "m-1"
  mandateIdHex := "m-1"
  intentIdHex := "i-1"
  reservationTokenDigest := "token"
  executorIdentity := "executor"
  correlationKey := "key"
  startedAtUnixSeconds := 0
  dispatchBoundaryAtUnixSeconds := none
  state := .accepted
  githubDeploymentId := some 42

def sampleEvent (state : String) (updatedAt : UInt64) : DeploymentStatusEvent where
  deploymentId := 42
  state := state
  description := none
  targetUrl := none
  updatedAt := updatedAt

def samplePayload (state : String) (updatedAt : UInt64) : Json :=
  .object [
    ("deployment", .object [("id", .ofUInt64 42)]),
    ("deployment_status", .object [("state", .string state), ("updated_at", .ofUInt64 updatedAt)])]

def sampleBody (state : String) (updatedAt : UInt64) : Array UInt8 :=
  asBytes (compact (samplePayload state updatedAt))

/-- The statuses that the sample deliveries report. -/
def sampleStatuses : List (String × UInt64) := [("failure", 100), ("error", 100), ("success", 200)]

/-- SHA-256 at the texts that the sample deliveries hash. -/
def webhookDigests : List (String × Nat) := [
  (observationPreimage sampleAttempt "success",
    0x256716596f60a71c55e4e175a250bc031fe077d95022cf3beb4ad07d9b777c70),
  (observationPreimage sampleAttempt "failure",
    0x1bfd37c78a7debfe292fe2b67756c6bef89f0e643a3aaa4f7232a54b4d6b1c13),
  (observationPreimage sampleAttempt "error",
    0x951c175ba1cadb5f1de3302539335ec6a83efc09cd81718895aedab20dde202b),
  (claimPreimage sampleAttempt .succeeded,
    0x65b7beaaab9e2a47207f6702f9112a0ec3ee1606501d7b02d4f1f80a35911864),
  (claimPreimage sampleAttempt .failed,
    0xf8e14df2630e5334cd4fa5adf61b7e4c3c1d12d3573059af538ca9ab73ce0607),
  (compact (claimPayload .succeeded),
    0xc047a1a73deae8c0a9e5886bacb7929f6703b18fc9e4997f2a9b5c2b11a75f20),
  (compact (claimPayload .failed),
    0x0a864bdd5f4f9c3f926b8ac155389643353c4cc10b24d1eeb419dd70c93cb984),
  (compact (observationPayload (sampleEvent "success" 200)),
    0x3d484a1259189646f23ca3a2ac6099d7c32576f8d950ba7348d56aaa2355b1a9),
  (compact (observationPayload (sampleEvent "failure" 100)),
    0x852c85ae550762ee81e6dfa1bc2b64902cca342135fba6e9c7080e944d53a6fa),
  (compact (observationPayload (sampleEvent "error" 100)),
    0x19c4b3aa41b48d34a0dcb97a4b1b8c542a74449fde4b020b7197491aa8ec4830),
  (compact (samplePayload "success" 200),
    0x57cfe5da2f6a79219508007b252eaeaac62d83a59492bf99ba2d2f50df79b52b),
  (compact (samplePayload "failure" 100),
    0xea2371baedf68abdfd6f5f2d295a096e862fb7c273181863dfaecc84b0b1e1b1),
  (compact (samplePayload "error" 100),
    0xb6afaac2da7223614ec06b7908a99421eb81405bd06dfd6d5b4ec1c6f7eae180)]

/-- The 32 bytes of a digest, most significant first. -/
def digestBytes (n : Nat) : Vector UInt8 32 :=
  Vector.ofFn fun i => UInt8.ofNat (n / 256 ^ (31 - i.val))

def sampleCodec : Codec where
  sha256 bytes :=
    match webhookDigests.find? fun d => (asBytes d.1).toList = bytes.toList with
    | some (_, digest) => digestBytes digest
    | none => sampleRuntime.sha256 bytes
  debugOption := sampleRuntime.debugOption
  toVec value := asBytes (compact value)
  fromSlice bytes :=
    (sampleStatuses.find? fun status => (sampleBody status.1 status.2).toList = bytes.toList).map
      fun status => samplePayload status.1 status.2
  parseFromRfc3339 _ := none

/-- The codec that reads the texts of these values. -/
def codecReading (values : List Json) : Codec :=
  { sampleCodec with
    fromSlice := fun bytes =>
      values.find? fun value => (asBytes (compact value)).toList = bytes.toList }

theorem codecReading_first (value : Json) (values : List Json) :
    (codecReading (value :: values)).fromSlice (asBytes (compact value)) = some value := by
  simp [codecReading]

theorem codecReading_second {a b : Json} (h : compact a ≠ compact b) :
    (codecReading [a, b]).fromSlice (asBytes (compact b)) = some b := by
  have hbytes : asBytes (compact a) ≠ asBytes (compact b) := fun heq => h (asBytes_injective heq)
  simp [codecReading, List.find?_cons, hbytes]

def sampleDelivery (deliveryId state : String) (updatedAt : UInt64) : Delivery where
  eventType := "deployment_status"
  payload := sampleBody state updatedAt
  deliveryId := deliveryId
  outOfOrder := false

/-- The stores with the one attempt `x`. -/
def recording (x : ExecutionAttempt) : Stores :=
  { Stores.empty with attempts := (Stores.empty.attempts.insert x).2 }

theorem recording_attempt {x : ExecutionAttempt} (hne : x.attemptIdHex ≠ "") (k : String) :
    (recording x).attempt k = if k = x.attemptIdHex then some x else none := by
  have hx : Exec sampleRuntime noFaults .empty (.store (.attempts (.insert x)))
      (Stores.empty.attempts.insert x).1 (recording x) := Or.inl ⟨.asListed, rfl⟩
  rcases attempt_insert_noFaults hx hne with ⟨_, _, hset⟩ | ⟨_, _, hsome, _⟩
  · exact hset k
  · cases hsome

theorem of_recording {x y : ExecutionAttempt} (hne : x.attemptIdHex ≠ "") {k : String}
    (h : (recording x).attempt k = some y) : y = x := by
  rw [recording_attempt hne] at h
  split at h
  · exact (Option.some.inj h).symm
  · cases h

end Piteka.Application
