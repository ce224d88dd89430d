import Piteka.Application.ReceiptProduction

/-!
# The time of an event

The instant that a value of a payload stands for, an integer of either sign, and how
the 64-bit conversions of the parser and of the node's record relate to it.
-/
namespace Piteka.Application

set_option autoImplicit false

open Piteka.Storage

/-- The instant, in Unix seconds: a number as it is, a text by the reader of RFC 3339. -/
def instant (cd : Codec) : Json → Option Int
  | .number (.posInt n) => some n.toNat
  | .number (.negInt n) => some n.toInt
  | .string text => (cd.parseFromRfc3339 text).map Int64.toInt
  | _ => none

/-- The signed reading of a word, by its upper half. -/
theorem toInt_eq (n : Int64) :
    n.toInt = if 2 * n.toUInt64.toNat < 2 ^ 64 then (n.toUInt64.toNat : Int)
      else (n.toUInt64.toNat : Int) - (2 ^ 64 : Nat) :=
  BitVec.toInt_eq_toNat_cond n.toBitVec

theorem tryFromInt64_iff {n : Int64} {u : UInt64} :
    tryFromInt64 n = some u ↔ n.toInt = u.toNat := by
  have hn := toInt_eq n
  have hlt : n.toUInt64.toNat < 2 ^ 64 := n.toUInt64.toNat_lt
  have hu : u.toNat < 2 ^ 64 := u.toNat_lt
  unfold tryFromInt64
  by_cases hneg : n < 0
  · rw [if_pos hneg]
    have hint : n.toInt < 0 := Int64.lt_iff_toInt_lt.mp hneg
    exact iff_of_false (fun h => by cases h) (by omega)
  · rw [if_neg hneg, Option.some.injEq, ← UInt64.toNat_inj]
    have hpos : 0 ≤ n.toInt := Int.not_lt.mp fun h => hneg (Int64.lt_iff_toInt_lt.mpr h)
    split at hn <;> omega

/-- The parser yields the instant that the value stands for, if it is not negative. -/
theorem parseUpdatedAt_iff {cd : Codec} {v : Json} {u : UInt64} :
    parseUpdatedAt cd v = some u ↔ instant cd v = some (u.toNat : Int) := by
  cases v with
  | number x =>
    cases x with
    | posInt n =>
      simp only [parseUpdatedAt, Json.asU64, instant, Option.some.injEq, Int.natCast_inj]
      exact UInt64.toNat_inj.symm
    | negInt n =>
      simp only [parseUpdatedAt, Json.asU64, Json.asI64, instant, Option.some.injEq]
      exact tryFromInt64_iff
    | float bits => exact iff_of_false (fun h => by cases h) (fun h => by cases h)
  | string text =>
    simp only [parseUpdatedAt, Json.asU64, Json.asI64, Json.asStr, instant, Option.bind_eq_bind,
      Option.bind_some]
    cases cd.parseFromRfc3339 text with
    | none => exact iff_of_false (fun h => by cases h) (fun h => by cases h)
    | some n => exact tryFromInt64_iff.trans (Option.some_inj).symm
  | _ => exact iff_of_false (fun h => by cases h) (fun h => by cases h)

/-- A word keeps its value in the signed record exactly below the half. -/
theorem toInt64_eq_iff {u : UInt64} : u.toInt64.toInt = u.toNat ↔ u.toNat < 2 ^ 63 := by
  have hu := toInt_eq u.toInt64
  have hlt : u.toNat < 2 ^ 64 := u.toNat_lt
  rw [UInt64.toUInt64_toInt64] at hu
  split at hu <;> omega

/-- Every other word is negative there. -/
theorem toInt64_neg_iff {u : UInt64} : u.toInt64.toInt < 0 ↔ ¬ u.toNat < 2 ^ 63 := by
  have hu := toInt_eq u.toInt64
  have hlt : u.toNat < 2 ^ 64 := u.toNat_lt
  rw [UInt64.toUInt64_toInt64] at hu
  split at hu <;> omega

end Piteka.Application
