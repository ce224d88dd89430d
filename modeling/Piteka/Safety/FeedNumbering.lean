import Piteka.Feed.Exports
import Piteka.Safety.FeedStability

/-!
# Feed numbers and emission clocks

The feed numbers its exports from one and clocks each of them behind the one before
it and not before its receipt was created. No word overflows on the way, and a list
that goes on has a feed that goes on. The facts are proved on natural numbers and
carried over to the words.
-/
namespace Piteka.Safety

set_option autoImplicit false

open Piteka.Storage Piteka.Application Piteka.Feed

variable {cd : Codec} {state : FeedState}

/-- The exports are emitted after `lastEmitted`, each later than the one before it. -/
theorem emit_later (l : List Published) (count lastEmitted : Nat) :
    (∀ e ∈ state.emit cd count lastEmitted l, lastEmitted < e.emittedAt) ∧
      (state.emit cd count lastEmitted l).Pairwise fun e f => e.emittedAt < f.emittedAt := by
  induction l generalizing count lastEmitted with
  | nil => exact ⟨fun e he => absurd he List.not_mem_nil, .nil⟩
  | cons x l ih =>
    obtain ⟨hlater, hsorted⟩ := ih (count + 1) (max x.1.2.toInt.toNat (lastEmitted + 1))
    constructor
    · intro e he
      rcases List.mem_cons.mp he with rfl | he
      · dsimp only [FeedState.signedExport]
        omega
      · have hlt := hlater e he
        omega
    · exact List.pairwise_cons.mpr ⟨hlater, hsorted⟩

/-- Each export is that of its receipt, and is not emitted before the receipt was created. -/
theorem emit_receipts (l : List Published) (count lastEmitted : Nat) :
    List.Forall₂ (fun x e => e.exportId = x.1.1 ∧ e.payload = x.2 ∧ max x.1.2.toInt 1 ≤ e.emittedAt)
      l (state.emit cd count lastEmitted l) := by
  induction l generalizing count lastEmitted with
  | nil => exact .nil
  | cons x l ih =>
    obtain ⟨⟨receiptId, createdAt⟩, payload⟩ := x
    refine .cons ⟨rfl, rfl, ?_⟩ (ih _ _)
    dsimp only [FeedState.signedExport]
    omega

theorem emit_sequences (l : List Published) (count lastEmitted : Nat) :
    (state.emit cd count lastEmitted l).map (·.sequence) = List.range' (count + 1) l.length := by
  induction l generalizing count lastEmitted with
  | nil => rfl
  | cons x l ih => exact congrArg ((count + 1) :: ·) (ih _ _)

/-- The exports of a list, on words. -/
structure Numbered {ε : Type} (manifest : String → Except ε (Array UInt8)) (ordered : List Listing)
    (exports : List Feed.SignedPitekaExport) : Prop where
  receipts : List.Forall₂
    (fun x e => e.exportId = x.1.1 ∧ e.payload = x.2 ∧ max x.1.2.toInt 1 ≤ e.emittedAt.toNat)
    (assembledBy manifest ordered) exports
  sequences : exports.map (·.sequence.toNat) = List.range' 1 exports.length
  increasing : exports.Pairwise fun e f => e.emittedAt < f.emittedAt

/-- The feed of any list of fewer than 2^63 receipts, whichever of them assemble, is numbered and
clocked without an overflow, and is the front of the feed of every extension of the list. -/
theorem feed_numbered {ε : Type} (manifest : String → Except ε (Array UInt8))
    {ordered : List Listing} (hlen : ordered.length < 2 ^ 63) :
    ∃ exports, buildExports cd state manifest [] 0 ordered = some exports ∧
      Numbered manifest ordered exports ∧
      ∀ later out, buildExports cd state manifest [] 0 (ordered ++ later) = some out →
        exports <+: out := by
  obtain ⟨exports, hexports, hwide⟩ : ∃ exports,
      buildExports cd state manifest [] 0 ordered = some exports ∧
        exports.map SignedPitekaExport.widen = state.emit cd 0 0 (assembledBy manifest ordered) :=
    buildExports_emit (Nat.pow_pos (by omega))
      (by rw [List.length_nil, Nat.zero_add]; exact hlen)
  have hcount : exports.length = (assembledBy manifest ordered).length := by
    rw [← List.length_map SignedPitekaExport.widen, hwide, length_emit]
  refine ⟨exports, hexports, ⟨?_, ?_, ?_⟩, ?_⟩
  · have hreceipts : List.Forall₂ _ _ (state.emit cd 0 0 (assembledBy manifest ordered)) :=
      emit_receipts _ 0 0
    rw [← hwide] at hreceipts
    exact List.forall₂_map_right_iff.mp hreceipts
  · have hsequences : (state.emit cd 0 0 (assembledBy manifest ordered)).map (·.sequence) = _ :=
      emit_sequences _ 0 0
    rw [← hwide, List.map_map] at hsequences
    rw [hcount]
    exact hsequences
  · have hsorted : (state.emit cd 0 0 (assembledBy manifest ordered)).Pairwise _ :=
      (emit_later _ 0 0).2
    rw [← hwide] at hsorted
    exact (List.pairwise_map.mp hsorted).imp UInt64.lt_iff_toNat_lt.mpr
  · intro later out hout
    obtain ⟨out', hout', hfront⟩ := buildExports_append hout
    obtain rfl := Option.some.inj (hexports.symm.trans hout')
    exact hfront

/-- Four receipts of which the second does not assemble; the first is older than any clock, and
the last two were created in one second. -/
def sampleListings : List Listing := [("r-a", -5), ("r-b", 3), ("r-c", 7), ("r-d", 7)]

def sampleManifest (receiptId : String) : Except String (Array UInt8) :=
  if receiptId = "r-b" then .error "incomplete evidence" else .ok (asBytes receiptId)

theorem feed_numbered_sample :
    ∃ exports, buildExports sampleCodec sampleFeed sampleManifest [] 0 sampleListings =
        some exports ∧
      Numbered sampleManifest sampleListings exports ∧
      ∀ later out, buildExports sampleCodec sampleFeed sampleManifest [] 0
        (sampleListings ++ later) = some out → exports <+: out :=
  feed_numbered sampleManifest (by decide)

example : (buildExports sampleCodec sampleFeed sampleManifest [] 0 sampleListings).map
    (List.map fun e => (e.exportId, e.sequence, e.emittedAt)) =
      some [("r-a", 1, 1), ("r-c", 2, 7), ("r-d", 3, 8)] := by
  decide +kernel

end Piteka.Safety
