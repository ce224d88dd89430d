import Mathlib.Data.List.Basic

/-!
# Texts of ASCII bytes

A check of every byte of a text is a check of every character when it admits only
ASCII: the text then has one character for each byte.
-/
namespace Piteka.Text.Ascii

set_option autoImplicit false

/-- The UTF-8 bytes of a text. -/
def bytes (s : String) : List UInt8 := s.toUTF8.data.toList

def charOf (b : UInt8) : Char := Char.ofNat b.toNat

theorem bytes_inj {s t : String} (h : bytes s = bytes t) : s = t := by
  have hdata : s.toUTF8.data = t.toUTF8.data := Array.toList_inj.mp h
  exact String.toByteArray_inj.mp (ByteArray.ext hdata)

theorem charOf_toNat (b : UInt8) : (charOf b).toNat = b.toNat := by
  have hb : b.toNat < 256 := b.toNat_lt
  have hvalid : b.toNat.isValidChar := Or.inl (by omega)
  rw [charOf, Char.ofNat, dif_pos hvalid]
  rfl

theorem bytes_char {b : UInt8} (h : b.toNat < 128) : String.utf8EncodeChar (charOf b) = [b] := by
  have hval : (charOf b).val.toNat = b.toNat := charOf_toNat b
  have hsize : (charOf b).utf8Size = 1 := by
    rw [Char.utf8Size_eq_one_iff, UInt32.le_iff_toNat_le, hval]
    exact Nat.le_of_lt_succ h
  rw [String.utf8EncodeChar_eq_singleton hsize]
  refine congrArg (fun x => [x]) (UInt8.toNat_inj.mp ?_)
  rw [UInt32.toNat_toUInt8, hval]
  exact Nat.mod_eq_of_lt b.toNat_lt

theorem bytes_ofList {l : List UInt8} (h : ∀ b ∈ l, b.toNat < 128) :
    bytes (String.ofList (l.map charOf)) = l := by
  have hencoded : (l.map charOf).flatMap String.utf8EncodeChar = l := by
    induction l with
    | nil => rfl
    | cons b l ih =>
      rw [List.map_cons, List.flatMap_cons, bytes_char (h b List.mem_cons_self),
        ih fun c hc => h c (List.mem_cons_of_mem b hc)]
      rfl
  rw [bytes, String.toUTF8_eq_toByteArray, String.toByteArray_ofList, List.utf8Encode, hencoded,
    List.data_toByteArray]

theorem utf8ByteSize_ofList {l : List UInt8} (h : ∀ b ∈ l, b.toNat < 128) :
    (String.ofList (l.map charOf)).utf8ByteSize = l.length :=
  congrArg List.length (bytes_ofList h)

/-- A text of ASCII bytes has one character for each of them. -/
theorem toList_eq {s : String} (h : ∀ b ∈ bytes s, b.toNat < 128) :
    s.toList = (bytes s).map charOf := by
  have hs : String.ofList ((bytes s).map charOf) = s := bytes_inj (bytes_ofList h)
  rw [← hs, String.toList_ofList, hs]

/-- The code points of a text of ASCII bytes are its bytes. -/
theorem points_eq {s : String} (h : ∀ b ∈ bytes s, b.toNat < 128) :
    s.toList.map Char.toNat = (bytes s).map UInt8.toNat := by
  rw [toList_eq h, List.map_map]
  exact List.map_congr_left fun b _ => charOf_toNat b

theorem charOf_ofNat {c : Char} (h : c.toNat < 128) : charOf (UInt8.ofNat c.toNat) = c := by
  refine Char.toNat_inj.mp ?_
  rw [charOf_toNat, UInt8.toNat_ofNat']
  exact Nat.mod_eq_of_lt (by omega)

theorem bytes_lt_of_points {s : String} (h : ∀ p ∈ s.toList.map Char.toNat, p < 128) :
    ∀ b ∈ bytes s, b.toNat < 128 := by
  have hascii : ∀ b ∈ s.toList.map (fun c => UInt8.ofNat c.toNat), b.toNat < 128 := by
    intro b hb
    obtain ⟨c, hc, rfl⟩ := List.mem_map.mp hb
    have hlt : c.toNat < 128 := h c.toNat (List.mem_map_of_mem hc)
    rw [UInt8.toNat_ofNat', Nat.mod_eq_of_lt (by omega)]
    exact hlt
  have hchars : (s.toList.map fun c => UInt8.ofNat c.toNat).map charOf = s.toList := by
    rw [List.map_map]
    refine (List.map_congr_left fun c hc => ?_).trans (List.map_id _)
    exact charOf_ofNat (h c.toNat (List.mem_map_of_mem hc))
  have hbytes := bytes_ofList hascii
  rw [hchars, String.ofList_toList] at hbytes
  rw [hbytes]
  exact hascii

theorem bytes_eq_flatMap (s : String) : bytes s = s.toList.flatMap String.utf8EncodeChar := by
  have h : bytes (String.ofList s.toList) = s.toList.flatMap String.utf8EncodeChar := by
    rw [bytes, String.toUTF8_eq_toByteArray, String.toByteArray_ofList, List.utf8Encode,
      List.data_toByteArray]
  rwa [String.ofList_toList] at h

theorem le_toNat_ofNat {n : Nat} (h : 128 ≤ n) (hn : n < 256) : 128 ≤ (UInt8.ofNat n).toNat := by
  rw [UInt8.toNat_ofNat', Nat.mod_eq_of_lt hn]
  exact h

/-- A character outside ASCII has no ASCII byte. -/
theorem encodeChar_high {c : Char} (h : 128 ≤ c.toNat) :
    ∀ b ∈ String.utf8EncodeChar c, 128 ≤ b.toNat := by
  have hval : c.val.toNat = c.toNat := rfl
  intro b hb
  unfold String.utf8EncodeChar at hb
  simp only [hval] at hb
  rw [if_neg (by omega)] at hb
  split at hb
  · simp only [List.mem_cons, List.not_mem_nil, or_false] at hb
    rcases hb with rfl | rfl
    · exact le_toNat_ofNat (by omega) (by omega)
    · exact le_toNat_ofNat (by omega) (by omega)
  split at hb
  · simp only [List.mem_cons, List.not_mem_nil, or_false] at hb
    rcases hb with rfl | rfl | rfl
    · exact le_toNat_ofNat (by omega) (by omega)
    · exact le_toNat_ofNat (by omega) (by omega)
    · exact le_toNat_ofNat (by omega) (by omega)
  · simp only [List.mem_cons, List.not_mem_nil, or_false] at hb
    rcases hb with rfl | rfl | rfl | rfl
    · exact le_toNat_ofNat (by omega) (by omega)
    · exact le_toNat_ofNat (by omega) (by omega)
    · exact le_toNat_ofNat (by omega) (by omega)
    · exact le_toNat_ofNat (by omega) (by omega)

/-- An ASCII byte stands for its character. -/
theorem mem_bytes_iff {s : String} {b : UInt8} (hb : b.toNat < 128) :
    b ∈ bytes s ↔ charOf b ∈ s.toList := by
  rw [bytes_eq_flatMap, List.mem_flatMap]
  constructor
  · rintro ⟨c, hc, hmem⟩
    by_cases hascii : c.toNat < 128
    · rw [← charOf_ofNat hascii, bytes_char (by rw [UInt8.toNat_ofNat']; omega)] at hmem
      rw [List.mem_singleton.mp hmem, charOf_ofNat hascii]
      exact hc
    · have := encodeChar_high (by omega) b hmem
      omega
  · intro hc
    exact ⟨charOf b, hc, by rw [bytes_char hb]; exact List.mem_singleton_self b⟩

end Piteka.Text.Ascii
