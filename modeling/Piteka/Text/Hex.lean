import Mathlib.Data.List.Basic

/-!
# Hexadecimal text

Two digits a byte, the high half first. Reading takes digits of either case and
fails on an odd number of them; writing uses lower case. A reader that is given
from outside is `Documented` when it accepts what `decode` reads and nothing else.
-/
namespace Piteka.Text.Hex

set_option autoImplicit false

def digit? (c : Char) : Option Nat :=
  if 48 ≤ c.toNat ∧ c.toNat ≤ 57 then some (c.toNat - 48)
  else if 97 ≤ c.toNat ∧ c.toNat ≤ 102 then some (c.toNat - 87)
  else if 65 ≤ c.toNat ∧ c.toNat ≤ 70 then some (c.toNat - 55)
  else none

def byte? (hi lo : Char) : Option UInt8 := do
  let h ← digit? hi
  let l ← digit? lo
  return UInt8.ofNat (16 * h + l)

def decode : List Char → Option (List UInt8)
  | [] => some []
  | [_] => none
  | hi :: lo :: rest => do
    let b ← byte? hi lo
    let bytes ← decode rest
    return b :: bytes

/-- The byte is a digit of the lower case. -/
def isLowerDigit (b : UInt8) : Bool := (48 ≤ b && b ≤ 57) || (97 ≤ b && b ≤ 102)

def encodeByte (b : UInt8) : List Char :=
  [Nat.digitChar (b.toNat / 16), Nat.digitChar (b.toNat % 16)]

def encode (bytes : List UInt8) : List Char := bytes.flatMap encodeByte

/-- A reader of hexadecimal text, with the text of its error. -/
structure Reader where
  read : String → Except String (List UInt8)

/-- The reader accepts exactly the hexadecimal texts, with the bytes that they stand for. -/
def Reader.Documented (r : Reader) : Prop :=
  ∀ s bytes, r.read s = .ok bytes ↔ decode s.toList = some bytes

/-- The reader that the definitions above describe. -/
def Reader.standard : Reader where
  read s :=
    match decode s.toList with
    | some bytes => .ok bytes
    | none => .error "not hexadecimal"

theorem Reader.standard_documented : Reader.standard.Documented := by
  intro s bytes
  unfold standard
  cases h : decode s.toList <;> simp [h]

theorem decode_cons_cons {hi lo : Char} {rest : List Char} {bytes : List UInt8} :
    decode (hi :: lo :: rest) = some bytes ↔
      ∃ b tail, byte? hi lo = some b ∧ decode rest = some tail ∧ bytes = b :: tail := by
  simp only [decode, Option.bind_eq_bind, Option.bind_eq_some_iff, Option.pure_def,
    Option.some.injEq]
  constructor
  · rintro ⟨b, hb, tail, ht, rfl⟩
    exact ⟨b, tail, hb, ht, rfl⟩
  · rintro ⟨b, tail, hb, ht, rfl⟩
    exact ⟨b, hb, tail, ht, rfl⟩

theorem byte?_digits {hi lo : Char} {b : UInt8} (h : byte? hi lo = some b) :
    (digit? hi).isSome ∧ (digit? lo).isSome := by
  unfold byte? at h
  cases hh : digit? hi with
  | none => simp [hh] at h
  | some x =>
    cases hl : digit? lo with
    | none => simp [hh, hl] at h
    | some y => exact ⟨rfl, rfl⟩

/-- What reads as bytes consists of digits, two for each byte. -/
theorem decode_shape {digits : List Char} {bytes : List UInt8} (h : decode digits = some bytes) :
    digits.length = 2 * bytes.length ∧ ∀ c ∈ digits, (digit? c).isSome := by
  induction digits using decode.induct generalizing bytes with
  | case1 =>
    obtain rfl := Option.some.inj h
    exact ⟨rfl, fun c hc => absurd hc List.not_mem_nil⟩
  | case2 c => cases h
  | case3 hi lo rest ih =>
    obtain ⟨b, tail, hb, ht, rfl⟩ := decode_cons_cons.mp h
    obtain ⟨hlen, hdigits⟩ := ih ht
    obtain ⟨hhi, hlo⟩ := byte?_digits hb
    refine ⟨by simp only [List.length_cons, hlen]; omega, fun c hc => ?_⟩
    rcases List.mem_cons.mp hc with rfl | hc
    · exact hhi
    rcases List.mem_cons.mp hc with rfl | hc
    · exact hlo
    · exact hdigits c hc

theorem digit?_digitChar {n : Nat} (hn : n < 16) : digit? (Nat.digitChar n) = some n := by
  have hall : ∀ k < 16, digit? (Nat.digitChar k) = some k := by decide
  exact hall n hn

theorem byte?_encodeByte (b : UInt8) :
    byte? (Nat.digitChar (b.toNat / 16)) (Nat.digitChar (b.toNat % 16)) = some b := by
  have hb : b.toNat < 256 := b.toNat_lt
  rw [byte?, digit?_digitChar (by omega), digit?_digitChar (by omega)]
  simp only [Option.bind_eq_bind, Option.bind_some, Option.pure_def, Nat.div_add_mod]
  exact congrArg some (UInt8.ofNat_toNat)

/-- Written bytes read back. -/
theorem decode_encode (bytes : List UInt8) : decode (encode bytes) = some bytes := by
  induction bytes with
  | nil => rfl
  | cons b bytes ih => exact decode_cons_cons.mpr ⟨b, bytes, byte?_encodeByte b, ih, rfl⟩

theorem digitChar_toNat {n : Nat} (hn : n < 16) :
    (Nat.digitChar n).toNat = if n < 10 then 48 + n else 87 + n := by
  have hall : ∀ k < 16, (Nat.digitChar k).toNat = if k < 10 then 48 + k else 87 + k := by decide
  exact hall n hn

/-- The digits of the lower case, by their code points. -/
theorem lower_iff {c : Char} :
    (∃ n < 16, c = Nat.digitChar n) ↔
      (48 ≤ c.toNat ∧ c.toNat ≤ 57) ∨ (97 ≤ c.toNat ∧ c.toNat ≤ 102) := by
  constructor
  · rintro ⟨n, hn, rfl⟩
    rw [digitChar_toNat hn]
    split <;> omega
  · rintro (⟨hge, hle⟩ | ⟨hge, hle⟩)
    · refine ⟨c.toNat - 48, by omega, Char.toNat_inj.mp ?_⟩
      rw [digitChar_toNat (by omega), if_pos (by omega)]
      omega
    · refine ⟨c.toNat - 87, by omega, Char.toNat_inj.mp ?_⟩
      rw [digitChar_toNat (by omega), if_neg (by omega)]
      omega

theorem byte?_digitChar {m n : Nat} (hm : m < 16) (hn : n < 16) :
    byte? (Nat.digitChar m) (Nat.digitChar n) = some (UInt8.ofNat (16 * m + n)) := by
  rw [byte?, digit?_digitChar hm, digit?_digitChar hn]
  rfl

theorem encodeByte_ofNat {m n : Nat} (hm : m < 16) (hn : n < 16) :
    encodeByte (UInt8.ofNat (16 * m + n)) = [Nat.digitChar m, Nat.digitChar n] := by
  have hval : (UInt8.ofNat (16 * m + n)).toNat = 16 * m + n := by
    rw [UInt8.toNat_ofNat']
    omega
  rw [encodeByte, hval, show (16 * m + n) / 16 = m by omega, show (16 * m + n) % 16 = n by omega]

/-- Digits of the lower case read, two at a time, and are the text of what is read. -/
theorem decode_lower {digits : List Char} (heven : digits.length % 2 = 0)
    (hlower : ∀ c ∈ digits, ∃ n < 16, c = Nat.digitChar n) :
    ∃ bytes, decode digits = some bytes ∧ encode bytes = digits := by
  induction digits using decode.induct with
  | case1 => exact ⟨[], rfl, rfl⟩
  | case2 c => exact absurd heven (by simp)
  | case3 hi lo rest ih =>
    obtain ⟨m, hm, rfl⟩ := hlower hi (by simp)
    obtain ⟨n, hn, rfl⟩ := hlower lo (by simp)
    simp only [List.length_cons] at heven
    obtain ⟨bytes, hdecode, hencode⟩ := ih (by omega) fun c hc => hlower c (by simp [hc])
    refine ⟨UInt8.ofNat (16 * m + n) :: bytes,
      decode_cons_cons.mpr ⟨_, _, byte?_digitChar hm hn, hdecode, rfl⟩, ?_⟩
    rw [encode, List.flatMap_cons, encodeByte_ofNat hm hn, ← encode, hencode]
    rfl

/-- Texts of digits, two for each byte, are what reads. -/
theorem decode_isSome_iff {digits : List Char} :
    (decode digits).isSome ↔ digits.length % 2 = 0 ∧ ∀ c ∈ digits, (digit? c).isSome := by
  constructor
  · intro h
    obtain ⟨bytes, hbytes⟩ := Option.isSome_iff_exists.mp h
    obtain ⟨hlen, hdigits⟩ := decode_shape hbytes
    exact ⟨by omega, hdigits⟩
  · rintro ⟨heven, hdigits⟩
    induction digits using decode.induct with
    | case1 => rfl
    | case2 c => exact absurd heven (by simp)
    | case3 hi lo rest ih =>
      simp only [List.length_cons] at heven
      obtain ⟨h, hh⟩ := Option.isSome_iff_exists.mp (hdigits hi (by simp))
      obtain ⟨l, hl⟩ := Option.isSome_iff_exists.mp (hdigits lo (by simp))
      obtain ⟨bytes, hbytes⟩ :=
        Option.isSome_iff_exists.mp (ih (by omega) fun c hc => hdigits c (by simp [hc]))
      have hbyte : byte? hi lo = some (UInt8.ofNat (16 * h + l)) := by
        rw [byte?, hh, hl]
        rfl
      exact Option.isSome_iff_exists.mpr ⟨_, decode_cons_cons.mpr ⟨_, _, hbyte, hbytes, rfl⟩⟩

end Piteka.Text.Hex
