import Piteka.Storage.Digest

/-!
# One text for each digest

The byte-wise check lets exactly the texts of digests through, so the reader behind
it never fails, and two texts of one digest are the same text.
-/
namespace Piteka.Safety

set_option autoImplicit false

open Piteka.Storage Piteka.Text

/-- Sixty-four characters, each a decimal digit or a letter from `a` to `f`. -/
def LowerHex64 (value : String) : Prop :=
  value.toList.length = 64 ∧
    ∀ c ∈ value.toList, ('0' ≤ c ∧ c ≤ '9') ∨ ('a' ≤ c ∧ c ≤ 'f')

theorem toHex_lower (d : ContentDigest) : LowerHex64 d.toHex := by
  have hshape := (Hex.decode_shape (Hex.decode_encode d.bytes.toList)).1
  rw [LowerHex64, d.toHex_toList]
  refine ⟨by rw [hshape, Vector.length_toList], fun c hc => Hex.lower_iff.mp ?_⟩
  obtain ⟨b, _, hb⟩ := List.mem_flatMap.mp hc
  have hlt : b.toNat < 256 := b.toNat_lt
  rcases List.mem_cons.mp hb with rfl | hb
  · exact ⟨b.toNat / 16, by omega, rfl⟩
  · exact ⟨b.toNat % 16, by omega, List.mem_singleton.mp hb⟩

theorem toHex_of_lower {value : String} (h : LowerHex64 value) :
    ∃ d : ContentDigest, value = d.toHex :=
  ContentDigest.toHex_of_digits h.1 fun c hc => Hex.lower_iff.mpr (h.2 c hc)

/-- For every text and every digest: only `to_hex` of the digest is read as the digest, a text
is refused exactly if it is not of 64 digits of the lower case, and the reader is never handed
a text that it refuses. -/
theorem canonical_digests {hex : Hex.Reader} (hdoc : hex.Documented) :
    (∀ s d, ContentDigest.fromHex hex s = some d ↔ s = d.toHex) ∧
      (∀ s, (ContentDigest.fromHex hex s).isSome ↔ ∃ d : ContentDigest, d.toHex = s) ∧
      (∀ s t d, ContentDigest.fromHex hex s = some d → ContentDigest.fromHex hex t = some d →
        s = t) ∧
      (∀ s, ContentDigest.fromHex hex s = none ↔ ¬ LowerHex64 s) ∧
      ∀ s, ContentDigest.PassesCheck s →
        ∃ bytes d, hex.read s = .ok bytes ∧ ContentDigest.ofBytes bytes = some d := by
  have hexact : ∀ s d, ContentDigest.fromHex hex s = some d ↔ s = d.toHex :=
    fun s d => ContentDigest.fromHex_eq_some_iff hdoc
  refine ⟨hexact, fun s => ?_, fun s t d hs ht => ?_, fun s => ?_, fun s hs => ?_⟩
  · rw [Option.isSome_iff_exists]
    exact exists_congr fun d => (hexact s d).trans eq_comm
  · rw [(hexact s d).mp hs, (hexact t d).mp ht]
  · constructor
    · intro hnone hlower
      obtain ⟨d, rfl⟩ := toHex_of_lower hlower
      rw [(hexact _ d).mpr rfl] at hnone
      cases hnone
    · intro hlower
      cases hd : ContentDigest.fromHex hex s with
      | none => rfl
      | some d =>
        rw [(hexact s d).mp hd] at hlower
        exact absurd (toHex_lower d) hlower
  · obtain ⟨d, rfl⟩ := ContentDigest.toHex_of_passesCheck hs
    exact ⟨_, d, ContentDigest.read_toHex hdoc d, d.ofBytes_toList⟩

theorem canonical_digests_standard :
    (ContentDigest.fromHex Hex.Reader.standard "AB" = none ↔ ¬ LowerHex64 "AB") ∧
      (ContentDigest.fromHex Hex.Reader.standard (ContentDigest.toHex ⟨Vector.replicate 32 7⟩) =
          some ⟨Vector.replicate 32 7⟩ ↔
        ContentDigest.toHex ⟨Vector.replicate 32 7⟩ =
          ContentDigest.toHex ⟨Vector.replicate 32 7⟩) :=
  ⟨(canonical_digests Hex.Reader.standard_documented).2.2.2.1 "AB",
    (canonical_digests Hex.Reader.standard_documented).1 _ _⟩

end Piteka.Safety
