import Piteka.Deploy.WellFormedEvent
import Piteka.GitHub.DeploymentRequest

/-!
# The event of a created deployment

What the provider sends to the consumer of the deployment that a request created:
the commit, the environment and the payload as they were sent, the default task, and
numbers of its own. Everything else in the event is the provider's.
-/
namespace Piteka.Deploy

set_option autoImplicit false

open Piteka.GitHub Piteka.Python Piteka.Storage Piteka.Text

mutual

/-- What the consumer's reader makes of a JSON value. -/
def ofJson : Json → Value
  | .null => .none
  | .bool b => .bool b
  | .number (.posInt n) => .int n.toNat
  | .number (.negInt n) => .int n.toInt
  | .number (.float bits) => .float bits
  | .string text => .str (lit text)
  | .array items => .list (ofJsonItems items)
  | .object fields => .dict (ofJsonFields fields)

def ofJsonItems : List Json → List Value
  | [] => []
  | item :: items => ofJson item :: ofJsonItems items

def ofJsonFields : List (String × Json) → Dict
  | [] => []
  | (key, value) :: fields => (lit key, ofJson value) :: ofJsonFields fields

end

/-- The event echoes what was sent in the body, under these two numbers. -/
def Echoes (body : Json) (event : Value) (n m : Int) : Prop :=
  ∃ ref environment payload deployment repository,
    body.get "ref" = some ref ∧ body.get "environment" = some environment ∧
    body.get "payload" = some payload ∧ Opens event deployment repository ∧
    HasId deployment n ∧ HasId repository m ∧
    Dict.get? deployment (lit "sha") = some (ofJson ref) ∧
    Dict.get? deployment (lit "ref") = some (ofJson ref) ∧
    Dict.get? deployment (lit "task") = some (.str (lit "deploy")) ∧
    Dict.get? deployment (lit "environment") = some (ofJson environment) ∧
    Dict.get? deployment (lit "payload") = some (ofJson payload)

/-- On both sides a text of hexadecimal digits is told by its bytes or by its code points. -/
theorem lowerHex_lit {k : Nat} {text : String} : LowerHex k (lit text) ↔
    (Ascii.bytes text).length = k ∧ (Ascii.bytes text).all Hex.isLowerDigit = true := by
  have hbound : ∀ p : Nat, (48 ≤ p ∧ p ≤ 57) ∨ (97 ≤ p ∧ p ≤ 102) → p < 128 := by omega
  have hbyte : ∀ b : UInt8, Hex.isLowerDigit b = true ↔
      (48 ≤ b.toNat ∧ b.toNat ≤ 57) ∨ (97 ≤ b.toNat ∧ b.toNat ≤ 102) := by
    intro b
    simp only [Hex.isLowerDigit, Bool.or_eq_true, Bool.and_eq_true, decide_eq_true_eq,
      UInt8.le_iff_toNat_le]
    exact Iff.rfl
  have hsame (h : ∀ b ∈ Ascii.bytes text, b.toNat < 128) : LowerHex k (lit text) ↔
      (Ascii.bytes text).length = k ∧ (Ascii.bytes text).all Hex.isLowerDigit = true := by
    rw [LowerHex, lit, Ascii.points_eq h, List.length_map, List.all_eq_true]
    simp only [List.forall_mem_map, hbyte]
  constructor
  · intro h
    exact (hsame (Ascii.bytes_lt_of_points fun p hp => hbound p (h.2 p hp))).mp h
  · intro h
    refine (hsame fun b hb => hbound b.toNat ?_).mpr h
    exact (hbyte b).mp (List.all_eq_true.mp h.2 b hb)

/-- The payload that the adapter sends is the one that the consumer asks for. -/
theorem correlationPayload_fields (attemptDigest : Vector UInt8 32) :
    ∃ payload, ofJson (correlationPayload attemptDigest) = .dict payload ∧
      PayloadFields (fun v => v.equalsOne = true) payload
        (lit (ContentDigest.toHex ⟨attemptDigest⟩)) := by
  refine ⟨_, rfl, ?_, ⟨.int 1, rfl, rfl⟩, ?_, lowerHex_lit.mpr (ContentDigest.toHex_digits _)⟩
  · intro key
    rw [Dict.hasKey_iff_mem]
    simp only [ofJsonFields, List.mem_cons, List.not_mem_nil, or_false,
      exists_eq_or_imp, exists_eq_left, eq_comm]
  · rfl

end Piteka.Deploy
