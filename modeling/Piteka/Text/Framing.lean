import Mathlib.Algebra.Group.Nat.Defs
import Mathlib.Data.List.Basic

/-!
# Length-prefixed bytes

Numbers in big-endian order at a fixed width, and byte strings behind the low 32
bits of their length. Both can be taken off the front of a message again, the
byte strings as long as they are shorter than 2^32, so a message that is a
sequence of them determines its parts.
-/
namespace Piteka.Text.Framing

set_option autoImplicit false

/-- The low `width` bytes of a number, the highest first. -/
def bigEndian : Nat → Nat → List UInt8
  | 0, _ => []
  | width + 1, n => bigEndian width (n / 256) ++ [UInt8.ofNat n]

@[simp] theorem bigEndian_length (width n : Nat) : (bigEndian width n).length = width := by
  induction width generalizing n with
  | zero => rfl
  | succ width ih => rw [bigEndian, List.length_append, ih, List.length_singleton]

theorem bigEndian_inj {width m n : Nat} (hm : m < 256 ^ width) (hn : n < 256 ^ width)
    (h : bigEndian width m = bigEndian width n) : m = n := by
  induction width generalizing m n with
  | zero => rw [Nat.lt_one_iff.mp hm, Nat.lt_one_iff.mp hn]
  | succ width ih =>
    obtain ⟨hhigh, hlow⟩ := List.append_inj' h rfl
    rw [Nat.pow_succ] at hm hn
    have hdiv : m / 256 = n / 256 :=
      ih (Nat.div_lt_of_lt_mul (by omega)) (Nat.div_lt_of_lt_mul (by omega)) hhigh
    have hmod : m % 256 = n % 256 := by
      have hbyte := congrArg UInt8.toNat (List.singleton_inj.mp hlow)
      simpa only [UInt8.toNat_ofNat'] using hbyte
    omega

/-- A number of a fixed width comes off the front. -/
theorem bigEndian_append_inj {w m n : Nat} (hm : m < 256 ^ w) (hn : n < 256 ^ w)
    {x y : List UInt8} (h : bigEndian w m ++ x = bigEndian w n ++ y) : m = n ∧ x = y := by
  obtain ⟨hnum, hrest⟩ := List.append_inj h (by rw [bigEndian_length, bigEndian_length])
  exact ⟨bigEndian_inj hm hn hnum, hrest⟩

/-- Bytes behind the low 32 bits of their length. -/
def framed (bytes : List UInt8) : List UInt8 := bigEndian 4 bytes.length ++ bytes

/-- Framed bytes come off the front, unless they are too long for their prefix. -/
theorem framed_append_inj {a b x y : List UInt8} (ha : a.length < 2 ^ 32) (hb : b.length < 2 ^ 32)
    (h : framed a ++ x = framed b ++ y) : a = b ∧ x = y := by
  rw [framed, framed, List.append_assoc, List.append_assoc] at h
  obtain ⟨hlen, hrest⟩ := bigEndian_append_inj ha hb h
  exact List.append_inj hrest hlen

end Piteka.Text.Framing
