import Piteka.Text.Ascii
import Piteka.Text.Hex

/-!
# Percent-encoding

The serializer of form data keeps letters, digits and `*-._`, writes a space as `+`
and every other byte as `%` with two digits of the upper case. A percent-decoder
takes `%` with two digits for a byte and everything else as it stands, so what it
reads back has a `+` in the place of each space.
-/
namespace Piteka.Text.Percent

set_option autoImplicit false

/-- The bytes that the serializer keeps. -/
def kept (b : UInt8) : Bool :=
  (48 ≤ b && b ≤ 57) || (65 ≤ b && b ≤ 90) || (97 ≤ b && b ≤ 122) ||
    b == 42 || b == 45 || b == 46 || b == 95

def upperDigit (n : Nat) : Char := (Nat.digitChar n).toUpper

def serializeByte (b : UInt8) : List Char :=
  if kept b then [Ascii.charOf b]
  else if b = 32 then ['+']
  else ['%', upperDigit (b.toNat / 16), upperDigit (b.toNat % 16)]

def byteSerialize (bytes : List UInt8) : List Char := bytes.flatMap serializeByte

def percentDecode : List Char → List UInt8
  | '%' :: hi :: lo :: rest =>
    match Hex.byte? hi lo with
    | some b => b :: percentDecode rest
    | none => 37 :: percentDecode (hi :: lo :: rest)
  | c :: rest => String.utf8EncodeChar c ++ percentDecode rest
  | [] => []

/-- What a decoder reads where `b` was written. -/
def readBack (b : UInt8) : UInt8 := if b = 32 then 43 else b

theorem percentDecode_plain {c : Char} (h : c ≠ '%') (rest : List Char) :
    percentDecode (c :: rest) = String.utf8EncodeChar c ++ percentDecode rest := by
  rw [percentDecode]
  intro hi lo rest' hc
  exact absurd hc h

theorem byte?_upperDigits (b : UInt8) :
    Hex.byte? (upperDigit (b.toNat / 16)) (upperDigit (b.toNat % 16)) = some b := by
  have hdigit : ∀ n < 16, Hex.digit? (upperDigit n) = some n := by decide
  have hb : b.toNat < 256 := b.toNat_lt
  rw [Hex.byte?, hdigit _ (by omega), hdigit _ (by omega)]
  simp only [Option.bind_eq_bind, Option.bind_some, Option.pure_def, Nat.div_add_mod]
  exact congrArg some (UInt8.ofNat_toNat)

theorem kept_spec {b : UInt8} (h : kept b = true) :
    b.toNat < 128 ∧ b ≠ 32 ∧ Ascii.charOf b ≠ '%' := by
  simp only [kept, Bool.or_eq_true, Bool.and_eq_true, decide_eq_true_eq, beq_iff_eq,
    UInt8.le_iff_toNat_le, ← UInt8.toNat_inj, UInt8.reduceToNat] at h
  refine ⟨by omega, ?_, fun hpercent => ?_⟩
  · rintro rfl
    exact absurd h (by decide)
  · have hpoint : b.toNat = 37 := by rw [← Ascii.charOf_toNat, hpercent]; rfl
    omega

theorem percentDecode_serializeByte (b : UInt8) (rest : List Char) :
    percentDecode (serializeByte b ++ rest) = readBack b :: percentDecode rest := by
  unfold serializeByte readBack
  split
  · next hkept =>
    obtain ⟨hascii, hspace, hpercent⟩ := kept_spec hkept
    rw [List.singleton_append, percentDecode_plain hpercent, Ascii.bytes_char hascii, if_neg hspace]
    rfl
  · split
    · rw [List.singleton_append, percentDecode_plain (by decide)]
      rfl
    · simp only [List.cons_append, List.nil_append, percentDecode, byte?_upperDigits]

/-- What is written reads back, but for the spaces. -/
theorem percentDecode_byteSerialize (bytes : List UInt8) :
    percentDecode (byteSerialize bytes) = bytes.map readBack := by
  unfold byteSerialize
  induction bytes with
  | nil => rfl
  | cons b bytes ih => rw [List.flatMap_cons, percentDecode_serializeByte, ih, List.map_cons]

theorem readBack_eq_self {b : UInt8} : readBack b = b ↔ b ≠ 32 := by
  unfold readBack
  split
  · next h =>
    subst h
    decide
  · next h => exact iff_of_true rfl h

/-- Exactly the texts without a space read back. -/
theorem reads_back_iff {bytes : List UInt8} :
    percentDecode (byteSerialize bytes) = bytes ↔ 32 ∉ bytes := by
  rw [percentDecode_byteSerialize]
  induction bytes with
  | nil => simp
  | cons b bytes ih =>
    rw [List.map_cons, List.cons.injEq, ih, readBack_eq_self, List.mem_cons, not_or, ne_comm]

/-! ## The characters that are written -/

def isWritten (c : Char) : Bool :=
  (c.toNat < 128 && kept (UInt8.ofNat c.toNat)) || c == '+' || c == '%'

theorem isWritten_serializeByte (b : UInt8) : ∀ c ∈ serializeByte b, isWritten c = true := by
  have hdigit : ∀ n < 16, isWritten (upperDigit n) = true := by decide
  have hb : b.toNat < 256 := b.toNat_lt
  intro c hc
  unfold serializeByte at hc
  split at hc
  · next hkept =>
    obtain ⟨hascii, _⟩ := kept_spec hkept
    obtain rfl := List.mem_singleton.mp hc
    simp [isWritten, Ascii.charOf_toNat, hascii, hkept]
  split at hc
  · obtain rfl := List.mem_singleton.mp hc
    decide
  · simp only [List.mem_cons, List.not_mem_nil, or_false] at hc
    rcases hc with rfl | rfl | rfl
    · decide
    · exact hdigit _ (by omega)
    · exact hdigit _ (by omega)

theorem isWritten_byteSerialize (bytes : List UInt8) :
    ∀ c ∈ byteSerialize bytes, isWritten c = true := by
  intro c hc
  obtain ⟨b, _, hmem⟩ := List.mem_flatMap.mp hc
  exact isWritten_serializeByte b c hmem

/-- A text that decodes to the dots `dots` has been written for these dots. -/
theorem eq_of_decodes {bytes dots : List UInt8} (hdots : ∀ b ∈ dots, b = 46)
    (h : percentDecode (byteSerialize bytes) = dots) : bytes = dots := by
  rw [percentDecode_byteSerialize] at h
  subst h
  refine ((List.map_congr_left fun b hb => ?_).trans (List.map_id bytes)).symm
  have hdot := hdots _ (List.mem_map_of_mem hb)
  unfold readBack at hdot ⊢
  split at hdot
  · exact absurd hdot (by decide)
  · next hspace => rw [if_neg hspace]; rfl

end Piteka.Text.Percent
