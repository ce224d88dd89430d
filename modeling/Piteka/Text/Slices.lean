import Mathlib.Data.String.Basic

/-!
# Texts split at a byte

A text is split at an offset counted in UTF-8 bytes, if a character begins there or the
text ends. At any other offset it has no two halves.
-/
namespace Piteka.Text.Slices

set_option autoImplicit false

def splitChars : Nat → List Char → Option (List Char × List Char)
  | 0, cs => some ([], cs)
  | _ + 1, [] => none
  | n + 1, c :: cs =>
    if c.utf8Size ≤ n + 1 then
      (splitChars (n + 1 - c.utf8Size) cs).map fun p => (c :: p.1, p.2)
    else none

def splitAtByte (n : Nat) (s : String) : Option (String × String) :=
  (splitChars n s.toList).map fun p => (String.ofList p.1, String.ofList p.2)

/-- The offset is the one of a character or of the end. -/
def IsBoundary (s : String) (n : Nat) : Prop :=
  ∃ front back : String, s = front ++ back ∧ front.utf8ByteSize = n

theorem splitChars_eq_some_iff {n : Nat} {cs a b : List Char} :
    splitChars n cs = some (a, b) ↔ cs = a ++ b ∧ String.utf8Len a = n := by
  induction n, cs using splitChars.induct generalizing a with
  | case1 cs =>
    simp only [splitChars, Option.some.injEq, Prod.mk.injEq, String.utf8Len_eq_zero]
    constructor
    · rintro ⟨rfl, rfl⟩
      exact ⟨rfl, rfl⟩
    · rintro ⟨rfl, rfl⟩
      exact ⟨rfl, rfl⟩
  | case2 n =>
    refine iff_of_false (by simp [splitChars]) ?_
    rintro ⟨h, hlen⟩
    obtain ⟨rfl, rfl⟩ := List.append_eq_nil_iff.mp h.symm
    cases hlen
  | case3 n c cs hle ih =>
    simp only [splitChars, if_pos hle, Option.map_eq_some_iff, Prod.mk.injEq, Prod.exists]
    constructor
    · rintro ⟨a, b, h, rfl, rfl⟩
      obtain ⟨rfl, hlen⟩ := ih.mp h
      refine ⟨rfl, ?_⟩
      rw [String.utf8Len_cons, hlen]
      omega
    · rintro ⟨h, hlen⟩
      cases a with
      | nil => cases hlen
      | cons d a =>
        obtain ⟨rfl, rfl⟩ := List.cons.inj h
        rw [String.utf8Len_cons] at hlen
        exact ⟨a, b, ih.mpr ⟨rfl, by omega⟩, rfl, rfl⟩
  | case4 n c cs hlt =>
    refine iff_of_false (by simp [splitChars, hlt]) ?_
    rintro ⟨h, hlen⟩
    cases a with
    | nil => cases hlen
    | cons d a =>
      obtain ⟨rfl, _⟩ := List.cons.inj h
      rw [String.utf8Len_cons] at hlen
      omega

theorem splitAtByte_eq_some_iff {n : Nat} {s a b : String} :
    splitAtByte n s = some (a, b) ↔ s = a ++ b ∧ a.utf8ByteSize = n := by
  have hsize : a.utf8ByteSize = String.utf8Len a.toList := by
    rw [← String.utf8ByteSize_ofList, String.ofList_toList]
  rw [splitAtByte, Option.map_eq_some_iff, hsize]
  constructor
  · rintro ⟨⟨front, back⟩, h, heq⟩
    obtain ⟨rfl, rfl⟩ := Prod.mk.inj heq
    obtain ⟨hs, hlen⟩ := splitChars_eq_some_iff.mp h
    refine ⟨String.toList_inj.mp ?_, by rw [String.toList_ofList, hlen]⟩
    rw [String.toList_append, String.toList_ofList, String.toList_ofList, hs]
  · rintro ⟨rfl, hlen⟩
    refine ⟨(a.toList, b.toList), splitChars_eq_some_iff.mpr ⟨String.toList_append, hlen⟩, ?_⟩
    rw [String.ofList_toList, String.ofList_toList]

/-- There are halves exactly at a boundary. -/
theorem splitAtByte_isSome_iff {n : Nat} {s : String} :
    (splitAtByte n s).isSome ↔ IsBoundary s n := by
  rw [Option.isSome_iff_exists, Prod.exists]
  simp only [splitAtByte_eq_some_iff, IsBoundary]

end Piteka.Text.Slices
