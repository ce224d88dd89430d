import Mathlib.Data.List.Basic

/-!
# Base64 for URLs, without padding

Three bytes are four digits of six bits; one or two bytes that are left over are two or
three digits, whose last bits are zero. The reader refuses other last bits.
-/
namespace Piteka.Text.Base64

set_option autoImplicit false

/-- The digit of six bits. -/
def digit (n : Nat) : Char :=
  if n < 26 then Char.ofNat (65 + n)
  else if n < 52 then Char.ofNat (71 + n)
  else if n < 62 then Char.ofNat (n - 4)
  else if n = 62 then '-'
  else '_'

def value? (c : Char) : Option Nat :=
  if 65 ≤ c.toNat ∧ c.toNat ≤ 90 then some (c.toNat - 65)
  else if 97 ≤ c.toNat ∧ c.toNat ≤ 122 then some (c.toNat - 71)
  else if 48 ≤ c.toNat ∧ c.toNat ≤ 57 then some (c.toNat + 4)
  else if c = '-' then some 62
  else if c = '_' then some 63
  else none

def encode : List UInt8 → List Char
  | [] => []
  | [a] =>
    let v := a.toNat * 16
    [digit (v / 64), digit (v % 64)]
  | [a, b] =>
    let v := a.toNat * 1024 + b.toNat * 4
    [digit (v / 4096), digit (v / 64 % 64), digit (v % 64)]
  | a :: b :: c :: rest =>
    let v := a.toNat * 65536 + b.toNat * 256 + c.toNat
    digit (v / 262144) :: digit (v / 4096 % 64) :: digit (v / 64 % 64) :: digit (v % 64) :: encode rest

def decode : List Char → Option (List UInt8)
  | [] => some []
  | [_] => none
  | [x, y] => do
    let v := (← value? x) * 64 + (← value? y)
    if v % 16 = 0 then some [UInt8.ofNat (v / 16)] else none
  | [x, y, z] => do
    let v := (← value? x) * 4096 + (← value? y) * 64 + (← value? z)
    if v % 4 = 0 then some [UInt8.ofNat (v / 1024), UInt8.ofNat (v / 4 % 256)] else none
  | x :: y :: z :: w :: rest => do
    let v := (← value? x) * 262144 + (← value? y) * 4096 + (← value? z) * 64 + (← value? w)
    let bytes ← decode rest
    some (UInt8.ofNat (v / 65536) :: UInt8.ofNat (v / 256 % 256) :: UInt8.ofNat (v % 256) :: bytes)

theorem value?_digit {n : Nat} (h : n < 64) : value? (digit n) = some n := by
  have hall : ∀ n < 64, value? (digit n) = some n := by decide
  exact hall n h

/-- A byte is read back from a number that has it as a part. -/
theorem ofNat_part {n : Nat} {b : UInt8} (h : n = b.toNat) : UInt8.ofNat n = b := by
  rw [h, UInt8.ofNat_toNat]

theorem decode_encode (bytes : List UInt8) : decode (encode bytes) = some bytes := by
  induction bytes using encode.induct with
  | case1 => rfl
  | case2 a =>
    have ha := a.toNat_lt
    obtain ⟨v, hv⟩ : ∃ v, v = a.toNat * 16 := ⟨_, rfl⟩
    have hread : v / 64 * 64 + v % 64 = v := by omega
    simp only [encode, decode, ← hv]
    rw [value?_digit (by omega), value?_digit (by omega)]
    simp only [Option.bind_eq_bind, Option.bind_some, hread]
    rw [if_pos (by omega), ofNat_part (show v / 16 = a.toNat by omega)]
  | case3 a b =>
    have ha := a.toNat_lt
    have hb := b.toNat_lt
    obtain ⟨v, hv⟩ : ∃ v, v = a.toNat * 1024 + b.toNat * 4 := ⟨_, rfl⟩
    have hread : v / 4096 * 4096 + v / 64 % 64 * 64 + v % 64 = v := by omega
    simp only [encode, decode, ← hv]
    rw [value?_digit (by omega), value?_digit (by omega), value?_digit (by omega)]
    simp only [Option.bind_eq_bind, Option.bind_some, hread]
    rw [if_pos (by omega), ofNat_part (show v / 1024 = a.toNat by omega),
      ofNat_part (show v / 4 % 256 = b.toNat by omega)]
  | case4 a b c rest ih =>
    have ha := a.toNat_lt
    have hb := b.toNat_lt
    have hc := c.toNat_lt
    obtain ⟨v, hv⟩ : ∃ v, v = a.toNat * 65536 + b.toNat * 256 + c.toNat := ⟨_, rfl⟩
    have hread : v / 262144 * 262144 + v / 4096 % 64 * 4096 + v / 64 % 64 * 64 + v % 64 = v := by omega
    simp only [encode, decode, ← hv]
    rw [value?_digit (by omega), value?_digit (by omega), value?_digit (by omega), value?_digit (by omega), ih]
    simp only [Option.bind_eq_bind, Option.bind_some, hread]
    rw [ofNat_part (show v / 65536 = a.toNat by omega), ofNat_part (show v / 256 % 256 = b.toNat by omega),
      ofNat_part (show v % 256 = c.toNat by omega)]

/-- What is written is digits. -/
theorem mem_encode {c : Char} {bytes : List UInt8} (hc : c ∈ encode bytes) : ∃ n < 64, c = digit n := by
  induction bytes using encode.induct with
  | case1 => cases hc
  | case2 a =>
    have ha := a.toNat_lt
    obtain ⟨v, hv⟩ : ∃ v, v = a.toNat * 16 := ⟨_, rfl⟩
    simp only [encode, ← hv, List.mem_cons, List.not_mem_nil, or_false] at hc
    rcases hc with rfl | rfl
    · exact ⟨_, by omega, rfl⟩
    · exact ⟨_, by omega, rfl⟩
  | case3 a b =>
    have ha := a.toNat_lt
    have hb := b.toNat_lt
    obtain ⟨v, hv⟩ : ∃ v, v = a.toNat * 1024 + b.toNat * 4 := ⟨_, rfl⟩
    simp only [encode, ← hv, List.mem_cons, List.not_mem_nil, or_false] at hc
    rcases hc with rfl | rfl | rfl
    · exact ⟨_, by omega, rfl⟩
    · exact ⟨_, by omega, rfl⟩
    · exact ⟨_, by omega, rfl⟩
  | case4 a b c rest ih =>
    have ha := a.toNat_lt
    have hb := b.toNat_lt
    have hc' := c.toNat_lt
    obtain ⟨v, hv⟩ : ∃ v, v = a.toNat * 65536 + b.toNat * 256 + c.toNat := ⟨_, rfl⟩
    simp only [encode, ← hv, List.mem_cons] at hc
    rcases hc with rfl | rfl | rfl | rfl | hc
    · exact ⟨_, by omega, rfl⟩
    · exact ⟨_, by omega, rfl⟩
    · exact ⟨_, by omega, rfl⟩
    · exact ⟨_, by omega, rfl⟩
    · exact ih hc

/-- No digit is a separator. -/
theorem not_mem_encode {c : Char} (hc : value? c = none) (bytes : List UInt8) : c ∉ encode bytes := by
  intro hmem
  obtain ⟨n, hn, rfl⟩ := mem_encode hmem
  rw [value?_digit hn] at hc
  cases hc

end Piteka.Text.Base64
