import Piteka.Storage.Json
import Piteka.Text.Ascii

/-!
# Reading content addresses

The text of a content address is checked byte by byte before the hexadecimal
reader sees it. What `to_hex` writes is read back, and nothing else is.
-/
namespace Piteka.Storage

set_option autoImplicit false

open Piteka.Text

namespace ContentDigest

/-- The digest in a buffer of 32 bytes. -/
def ofBytes (bytes : List UInt8) : Option ContentDigest :=
  if h : bytes.length = 32 then some ⟨⟨bytes.toArray, h⟩⟩ else none

def fromHex (hex : Hex.Reader) (value : String) : Option ContentDigest :=
  if (Ascii.bytes value).length ≠ 64 ∨ (Ascii.bytes value).all Hex.isLowerDigit = false then none
  else
    match hex.read value with
    | .error _ => none
    | .ok bytes => ofBytes bytes

theorem ofBytes_toList (d : ContentDigest) : ofBytes d.bytes.toList = some d := by
  have hlen : d.bytes.toList.length = 32 := Vector.length_toList
  rw [ofBytes, dif_pos hlen]
  rfl

/-- A byte that passes for a digit of the lower case is the byte of one. -/
theorem isLowerDigit_spec {b : UInt8} (h : Hex.isLowerDigit b = true) :
    b.toNat < 128 ∧ ∃ n < 16, Ascii.charOf b = Nat.digitChar n := by
  simp only [Hex.isLowerDigit, Bool.or_eq_true, Bool.and_eq_true, decide_eq_true_eq,
    UInt8.le_iff_toNat_le] at h
  have hlow : (48 ≤ b.toNat ∧ b.toNat ≤ 57) ∨ (97 ≤ b.toNat ∧ b.toNat ≤ 102) := h
  refine ⟨by omega, Hex.lower_iff.mpr ?_⟩
  rwa [Ascii.charOf_toNat]

/-- The byte of a digit. -/
def digitByte (n : Nat) : UInt8 := UInt8.ofNat (Nat.digitChar n).toNat

theorem digitByte_spec {n : Nat} (hn : n < 16) :
    Ascii.charOf (digitByte n) = Nat.digitChar n ∧ Hex.isLowerDigit (digitByte n) ∧
      (digitByte n).toNat < 128 := by
  have hall : ∀ k < 16, Ascii.charOf (digitByte k) = Nat.digitChar k ∧
      Hex.isLowerDigit (digitByte k) ∧ (digitByte k).toNat < 128 := by decide
  exact hall n hn

def hexBytes (d : ContentDigest) : List UInt8 :=
  d.bytes.toList.flatMap fun b => [digitByte (b.toNat / 16), digitByte (b.toNat % 16)]

theorem mem_hexBytes {d : ContentDigest} {x : UInt8} (hx : x ∈ d.hexBytes) :
    ∃ n < 16, x = digitByte n := by
  obtain ⟨b, _, hb⟩ := List.mem_flatMap.mp hx
  have hlt : b.toNat < 256 := b.toNat_lt
  rcases List.mem_cons.mp hb with rfl | hb
  · exact ⟨b.toNat / 16, by omega, rfl⟩
  · exact ⟨b.toNat % 16, by omega, List.mem_singleton.mp hb⟩

theorem bytes_toHex (d : ContentDigest) : Ascii.bytes d.toHex = d.hexBytes := by
  have hchars : d.hexBytes.map Ascii.charOf = d.toHex.toList := by
    rw [d.toHex_toList, hexBytes, List.map_flatMap, Hex.encode]
    refine List.flatMap_congr fun b _ => ?_
    have hb : b.toNat < 256 := b.toNat_lt
    simp only [List.map_cons, List.map_nil, Hex.encodeByte,
      (digitByte_spec (show b.toNat / 16 < 16 by omega)).1,
      (digitByte_spec (show b.toNat % 16 < 16 by omega)).1]
  have hascii : ∀ x ∈ d.hexBytes, x.toNat < 128 := by
    intro x hx
    obtain ⟨n, hn, rfl⟩ := mem_hexBytes hx
    exact (digitByte_spec hn).2.2
  rw [← Ascii.bytes_ofList hascii, hchars, String.ofList_toList]

theorem length_hexBytes (d : ContentDigest) : d.hexBytes.length = 64 := by
  have hpairs : ∀ l : List UInt8, (l.flatMap fun b =>
      [digitByte (b.toNat / 16), digitByte (b.toNat % 16)]).length = 2 * l.length := by
    intro l
    induction l with
    | nil => rfl
    | cons b l ih =>
      rw [List.flatMap_cons, List.length_append, ih, List.length_cons, List.length_cons,
        List.length_cons, List.length_nil]
      omega
  rw [hexBytes, hpairs, Vector.length_toList]

/-- The text of a digest has 64 digits of the lower case. -/
theorem toHex_digits (d : ContentDigest) :
    (Ascii.bytes d.toHex).length = 64 ∧ (Ascii.bytes d.toHex).all Hex.isLowerDigit = true := by
  rw [bytes_toHex, List.all_eq_true]
  refine ⟨length_hexBytes d, fun x hx => ?_⟩
  obtain ⟨n, hn, rfl⟩ := mem_hexBytes hx
  exact (digitByte_spec hn).2.1

theorem read_toHex {hex : Hex.Reader} (hdoc : hex.Documented) (d : ContentDigest) :
    hex.read d.toHex = .ok d.bytes.toList := by
  refine (hdoc _ _).mpr ?_
  rw [d.toHex_toList, Hex.decode_encode]

theorem fromHex_toHex {hex : Hex.Reader} (hdoc : hex.Documented) (d : ContentDigest) :
    fromHex hex d.toHex = some d := by
  obtain ⟨hlen, hall⟩ := toHex_digits d
  simp only [fromHex, hlen, hall, read_toHex hdoc, ofBytes_toList]
  simp

/-- Sixty-four digits of the lower case are the text of a digest. -/
theorem toHex_of_digits {value : String} (hlen : value.toList.length = 64)
    (hlower : ∀ c ∈ value.toList, ∃ n < 16, c = Nat.digitChar n) :
    ∃ d : ContentDigest, value = d.toHex := by
  obtain ⟨bytes, hdecode, hencode⟩ := Hex.decode_lower (by rw [hlen]) hlower
  have hbytes : bytes.length = 32 := by
    have := (Hex.decode_shape hdecode).1
    omega
  refine ⟨⟨⟨bytes.toArray, hbytes⟩⟩, String.toList_inj.mp ?_⟩
  rw [toHex_toList]
  exact hencode.symm

/-- What `from_hex` lets through to the reader. -/
def PassesCheck (value : String) : Prop :=
  (Ascii.bytes value).length = 64 ∧ (Ascii.bytes value).all Hex.isLowerDigit = true

theorem fromHex_refused {hex : Hex.Reader} {value : String} (h : ¬ PassesCheck value) :
    fromHex hex value = none := by
  rw [fromHex, if_pos]
  by_contra hne
  rw [not_or, not_not, Bool.not_eq_false] at hne
  exact h hne

theorem toHex_of_passesCheck {value : String} (h : PassesCheck value) :
    ∃ d : ContentDigest, value = d.toHex := by
  obtain ⟨hlen, hall⟩ := h
  have hdigit := fun b hb => isLowerDigit_spec (List.all_eq_true.mp hall b hb)
  have hchars := Ascii.toList_eq fun b hb => (hdigit b hb).1
  refine toHex_of_digits (by rw [hchars, List.length_map, hlen]) fun c hc => ?_
  rw [hchars] at hc
  obtain ⟨b, hb, rfl⟩ := List.mem_map.mp hc
  exact (hdigit b hb).2

theorem fromHex_eq_some_iff {hex : Hex.Reader} (hdoc : hex.Documented) {value : String}
    {d : ContentDigest} : fromHex hex value = some d ↔ value = d.toHex := by
  constructor
  · intro h
    by_cases hc : PassesCheck value
    · obtain ⟨d', rfl⟩ := toHex_of_passesCheck hc
      rw [fromHex_toHex hdoc] at h
      rw [Option.some.inj h]
    · rw [fromHex_refused hc] at h
      cases h
  · rintro rfl
    exact fromHex_toHex hdoc d

end ContentDigest

end Piteka.Storage
