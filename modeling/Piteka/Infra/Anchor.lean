import Piteka.Interleaving.Atomic
import Mathlib.Data.List.AList

/-!
# The local single-use seal store

The port's records and errors, and the two methods of the local adapter as they
compute under its lock. A poisoned lock is recovered in the source and no method
panics, so each call is one step. `commitment` and `consumedBy` are the two
write-once views of the map.
-/
namespace Piteka.Infra

set_option autoImplicit false

open Piteka.Interleaving

/-- A 32-byte digest used for seal ids, nullifiers, and commitments. -/
abbrev Digest32 := Vector UInt8 32

def localSealBackend : String := "csv-seal.local.v1"

structure AnchorRef where
  backend : String
  reference : Array UInt8
  deriving DecidableEq

structure ConsumptionProof where
  sealId : Digest32
  nullifier : Digest32
  commitment : Digest32
  backend : String
  deriving DecidableEq

inductive AnchorError where
  | sealNotFound
  | sealAlreadyConsumed
  | commitmentMismatch
  | sealAlreadyExists
  | backend (reason : String)
  deriving DecidableEq

structure SealState where
  commitment : Digest32
  consumedBy : Option Digest32

structure LocalCsvSealAnchor where
  seals : AList (fun _ : Digest32 => SealState)

inductive AnchorCall where
  | createSeal (sealId commitment : Digest32)
  | consumeSeal (sealId nullifier : Digest32)
  | anchorCommitment (bundleDigest : Digest32)

abbrev AnchorCall.Answer : AnchorCall → Type
  | .createSeal _ _ => Except AnchorError AnchorRef
  | .consumeSeal _ _ => Except AnchorError ConsumptionProof
  | .anchorCommitment _ => Except AnchorError AnchorRef

def AnchorCall.failed : (c : AnchorCall) → c.Answer → Bool
  | .createSeal _ _, a => !a.toBool
  | .consumeSeal _ _, a => !a.toBool
  | .anchorCommitment _, a => !a.toBool

namespace LocalCsvSealAnchor

def new : LocalCsvSealAnchor := ⟨∅⟩

def createSeal (s : LocalCsvSealAnchor) (sealId commitment : Digest32) :
    Except AnchorError AnchorRef × LocalCsvSealAnchor :=
  let created := .ok { backend := localSealBackend, reference := sealId.toArray }
  match s.seals.lookup sealId with
  | some existing =>
    -- re-creating a seal with the same commitment is idempotent
    if existing.commitment = commitment then (created, s) else (.error .sealAlreadyExists, s)
  | none =>
    (created, ⟨s.seals.insert sealId { commitment, consumedBy := none }⟩)

def consumeSeal (s : LocalCsvSealAnchor) (sealId nullifier : Digest32) :
    Except AnchorError ConsumptionProof × LocalCsvSealAnchor :=
  match s.seals.lookup sealId with
  | none => (.error .sealNotFound, s)
  | some state =>
    let proof := .ok
      { sealId, nullifier, commitment := state.commitment, backend := localSealBackend }
    match state.consumedBy with
    | some existing =>
      -- a different nullifier against a consumed seal is a double use
      if existing = nullifier then (proof, s) else (.error .sealAlreadyConsumed, s)
    | none => (proof, ⟨s.seals.insert sealId { state with consumedBy := some nullifier }⟩)

/-- The local backing witnesses the digest and keeps nothing of it. -/
def anchorCommitment (s : LocalCsvSealAnchor) (bundleDigest : Digest32) :
    Except AnchorError AnchorRef × LocalCsvSealAnchor :=
  (.ok { backend := localSealBackend, reference := bundleDigest.toArray }, s)

def step (s : LocalCsvSealAnchor) : (c : AnchorCall) → c.Answer × LocalCsvSealAnchor
  | .createSeal sealId commitment => s.createSeal sealId commitment
  | .consumeSeal sealId nullifier => s.consumeSeal sealId nullifier
  | .anchorCommitment bundleDigest => s.anchorCommitment bundleDigest

/-- The commitment a seal binds. -/
def commitment (s : LocalCsvSealAnchor) (sealId : Digest32) : Option Digest32 :=
  (s.seals.lookup sealId).map (·.commitment)

/-- The nullifier that has used a seal. -/
def consumedBy (s : LocalCsvSealAnchor) (sealId : Digest32) : Option Digest32 :=
  (s.seals.lookup sealId).bind (·.consumedBy)

theorem commitment_eq_some {s : LocalCsvSealAnchor} {sealId c : Digest32} :
    s.commitment sealId = some c ↔ ∃ st, s.seals.lookup sealId = some st ∧ st.commitment = c :=
  Option.map_eq_some_iff

theorem consumedBy_eq_some {s : LocalCsvSealAnchor} {sealId n : Digest32} :
    s.consumedBy sealId = some n ↔
      ∃ st, s.seals.lookup sealId = some st ∧ st.consumedBy = some n :=
  Option.bind_eq_some_iff

/-- A creation succeeds on a seal that binds the same commitment or does not exist yet. -/
theorem createSeal_cases {s s' : LocalCsvSealAnchor} {sealId c : Digest32}
    {a : Except AnchorError AnchorRef} (h : s.createSeal sealId c = (a, s')) :
    (a = .ok ⟨localSealBackend, sealId.toArray⟩ ∧ s.commitment sealId = some c ∧ s' = s) ∨
    (a = .ok ⟨localSealBackend, sealId.toArray⟩ ∧ s.seals.lookup sealId = none ∧
      s' = ⟨s.seals.insert sealId ⟨c, none⟩⟩) ∨
    (a = .error .sealAlreadyExists ∧ s' = s) := by
  unfold createSeal at h
  cases hs : s.seals.lookup sealId with
  | none =>
    simp only [hs, Prod.mk.injEq] at h
    exact Or.inr (Or.inl ⟨h.1.symm, rfl, h.2.symm⟩)
  | some st =>
    by_cases hc : st.commitment = c
    · simp only [hs, if_pos hc, Prod.mk.injEq] at h
      exact Or.inl ⟨h.1.symm, commitment_eq_some.mpr ⟨st, hs, hc⟩, h.2.symm⟩
    · simp only [hs, if_neg hc, Prod.mk.injEq] at h
      exact Or.inr (Or.inr ⟨h.1.symm, h.2.symm⟩)

/-- A consumption succeeds on a seal that the nullifier has used or that nobody has used. -/
theorem consumeSeal_cases {s s' : LocalCsvSealAnchor} {sealId n : Digest32}
    {a : Except AnchorError ConsumptionProof} (h : s.consumeSeal sealId n = (a, s')) :
    (∃ st, s.seals.lookup sealId = some st ∧
      a = .ok ⟨sealId, n, st.commitment, localSealBackend⟩ ∧
      (st.consumedBy = some n ∧ s' = s ∨
        st.consumedBy = none ∧ s' = ⟨s.seals.insert sealId ⟨st.commitment, some n⟩⟩)) ∨
    ((∃ reason, a = .error reason) ∧ s' = s) := by
  unfold consumeSeal at h
  cases hs : s.seals.lookup sealId with
  | none =>
    simp only [hs, Prod.mk.injEq] at h
    exact Or.inr ⟨⟨_, h.1.symm⟩, h.2.symm⟩
  | some st =>
    cases hn : st.consumedBy with
    | none =>
      simp only [hs, hn, Prod.mk.injEq] at h
      exact Or.inl ⟨st, rfl, h.1.symm, Or.inr ⟨hn, h.2.symm⟩⟩
    | some m =>
      by_cases hm : m = n
      · simp only [hs, hn, if_pos hm, Prod.mk.injEq] at h
        exact Or.inl ⟨st, rfl, h.1.symm, Or.inl ⟨hm ▸ hn, h.2.symm⟩⟩
      · simp only [hs, hn, if_neg hm, Prod.mk.injEq] at h
        exact Or.inr ⟨⟨_, h.1.symm⟩, h.2.symm⟩

/-- What one call can do to the map: nothing, add a seal, or mark an unused one as used. -/
theorem step_cases {s s' : LocalCsvSealAnchor} {c : AnchorCall} {a : c.Answer}
    (h : s.step c = (a, s')) :
    s' = s ∨
    (∃ sealId d, s.seals.lookup sealId = none ∧ s' = ⟨s.seals.insert sealId ⟨d, none⟩⟩) ∨
    ∃ sealId st n, s.seals.lookup sealId = some st ∧ st.consumedBy = none ∧
      s' = ⟨s.seals.insert sealId ⟨st.commitment, some n⟩⟩ := by
  cases c with
  | createSeal sealId d =>
    rcases createSeal_cases h with ⟨_, _, hs⟩ | ⟨_, hnone, hs⟩ | ⟨_, hs⟩
    · exact Or.inl hs
    · exact Or.inr (Or.inl ⟨sealId, d, hnone, hs⟩)
    · exact Or.inl hs
  | consumeSeal sealId n =>
    rcases consumeSeal_cases h with ⟨st, hst, _, ⟨_, hs⟩ | ⟨hfree, hs⟩⟩ | ⟨_, hs⟩
    · exact Or.inl hs
    · exact Or.inr (Or.inr ⟨sealId, st, n, hst, hfree, hs⟩)
    · exact Or.inl hs
  | anchorCommitment bundleDigest =>
    exact Or.inl (Prod.mk.inj h).2.symm

/-- A seal that exists stays, with its commitment and with the nullifier that has used it. -/
theorem step_kept {s s' : LocalCsvSealAnchor} {c : AnchorCall} {a : c.Answer}
    (h : s.step c = (a, s')) {sealId : Digest32} {st : SealState}
    (hst : s.seals.lookup sealId = some st) :
    ∃ st', s'.seals.lookup sealId = some st' ∧ st'.commitment = st.commitment ∧
      ∀ n, st.consumedBy = some n → st'.consumedBy = some n := by
  rcases step_cases h with rfl | ⟨sealId', d, hnone, rfl⟩ | ⟨sealId', st', n, hst', hfree, rfl⟩
  · exact ⟨st, hst, rfl, fun _ hn => hn⟩
  · have hne : sealId ≠ sealId' := by
      rintro rfl
      rw [hst] at hnone
      cases hnone
    exact ⟨st, (AList.lookup_insert_ne hne).trans hst, rfl, fun _ hn => hn⟩
  · by_cases hid : sealId = sealId'
    · subst hid
      obtain rfl := Option.some.inj (hst.symm.trans hst')
      refine ⟨_, AList.lookup_insert _, rfl, fun m hm => ?_⟩
      rw [hfree] at hm
      cases hm
    · exact ⟨st, (AList.lookup_insert_ne hid).trans hst, rfl, fun _ hn => hn⟩

theorem commitment_once : WriteOnce (Atomic step) commitment where
  kept h k v hv := by
    obtain ⟨st, hst, rfl⟩ := commitment_eq_some.mp hv
    obtain ⟨st', hst', hc, _⟩ := step_kept h hst
    exact commitment_eq_some.mpr ⟨st', hst', hc⟩

theorem consumedBy_once : WriteOnce (Atomic step) consumedBy where
  kept h k v hv := by
    obtain ⟨st, hst, hn⟩ := consumedBy_eq_some.mp hv
    obtain ⟨st', hst', _, hkeep⟩ := step_kept h hst
    exact consumedBy_eq_some.mpr ⟨st', hst', hkeep _ hn⟩

/-- Only a successful creation binds a commitment to a seal that had none. -/
theorem step_binds {s s' : LocalCsvSealAnchor} {c : AnchorCall} {a : c.Answer}
    (h : s.step c = (a, s')) {sealId d : Digest32} (hnone : s.commitment sealId = none)
    (hd : s'.commitment sealId = some d) :
    (⟨c, a⟩ : (c : AnchorCall) × c.Answer) =
      ⟨.createSeal sealId d, .ok ⟨localSealBackend, sealId.toArray⟩⟩ := by
  have hlookup : s.seals.lookup sealId = none := Option.map_eq_none_iff.mp hnone
  have hsame : s' ≠ s := by
    rintro rfl
    rw [hnone] at hd
    cases hd
  cases c with
  | createSeal sealId' d' =>
    rcases createSeal_cases h with ⟨_, _, hs⟩ | ⟨rfl, _, rfl⟩ | ⟨_, hs⟩
    · exact absurd hs hsame
    · obtain ⟨st, hst, hst'⟩ := commitment_eq_some.mp hd
      by_cases hid : sealId = sealId'
      · subst hid
        rw [AList.lookup_insert] at hst
        obtain rfl := Option.some.inj hst
        subst hst'
        rfl
      · rw [AList.lookup_insert_ne hid, hlookup] at hst
        cases hst
    · exact absurd hs hsame
  | consumeSeal sealId' n =>
    rcases consumeSeal_cases h with ⟨st, hst, _, ⟨_, hs⟩ | ⟨_, rfl⟩⟩ | ⟨_, hs⟩
    · exact absurd hs hsame
    · obtain ⟨st', hst', _⟩ := commitment_eq_some.mp hd
      have hne : sealId ≠ sealId' := by
        rintro rfl
        rw [hlookup] at hst
        cases hst
      rw [AList.lookup_insert_ne hne, hlookup] at hst'
      cases hst'
    · exact absurd hs hsame
  | anchorCommitment bundleDigest => exact absurd (Prod.mk.inj h).2.symm hsame

theorem createSeal_ok {s s' : LocalCsvSealAnchor} {sealId c : Digest32} {r : AnchorRef}
    (h : s.createSeal sealId c = (.ok r, s')) : s'.commitment sealId = some c := by
  rcases createSeal_cases h with ⟨_, hc, rfl⟩ | ⟨_, _, rfl⟩ | ⟨hr, _⟩
  · exact hc
  · exact commitment_eq_some.mpr ⟨_, AList.lookup_insert _, rfl⟩
  · cases hr

/-- What a proof says of its seal is in the store. -/
theorem consumeSeal_ok {s s' : LocalCsvSealAnchor} {sealId n : Digest32} {p : ConsumptionProof}
    (h : s.consumeSeal sealId n = (.ok p, s')) :
    p = ⟨sealId, n, p.commitment, localSealBackend⟩ ∧ s.commitment sealId = some p.commitment ∧
      s'.consumedBy sealId = some n := by
  rcases consumeSeal_cases h with ⟨st, hst, hp, hs⟩ | ⟨⟨_, hr⟩, _⟩
  · obtain rfl := Except.ok.inj hp
    refine ⟨rfl, commitment_eq_some.mpr ⟨st, hst, rfl⟩, consumedBy_eq_some.mpr ?_⟩
    rcases hs with ⟨hn, rfl⟩ | ⟨_, rfl⟩
    · exact ⟨st, hst, hn⟩
    · exact ⟨_, AList.lookup_insert _, rfl⟩
  · cases hr

theorem createSeal_again {s : LocalCsvSealAnchor} {sealId c : Digest32}
    (h : s.commitment sealId = some c) :
    s.createSeal sealId c = (.ok ⟨localSealBackend, sealId.toArray⟩, s) := by
  obtain ⟨st, hst, hc⟩ := commitment_eq_some.mp h
  simp [createSeal, hst, hc]

theorem consumeSeal_again {s : LocalCsvSealAnchor} {sealId c n : Digest32}
    (hc : s.commitment sealId = some c) (hn : s.consumedBy sealId = some n) :
    s.consumeSeal sealId n = (.ok ⟨sealId, n, c, localSealBackend⟩, s) := by
  obtain ⟨st, hst, hc'⟩ := commitment_eq_some.mp hc
  obtain ⟨st', hst', hn'⟩ := consumedBy_eq_some.mp hn
  obtain rfl := Option.some.inj (hst.symm.trans hst')
  simp [consumeSeal, hst, hn', hc']

/-- A refused call leaves the store as it was. -/
theorem step_failed {s s' : LocalCsvSealAnchor} {c : AnchorCall} {a : c.Answer}
    (h : s.step c = (a, s')) (hf : c.failed a = true) : s' = s := by
  cases c with
  | createSeal sealId d =>
    rcases createSeal_cases h with ⟨_, _, hs⟩ | ⟨rfl, _, _⟩ | ⟨_, hs⟩
    · exact hs
    · cases hf
    · exact hs
  | consumeSeal sealId n =>
    rcases consumeSeal_cases h with ⟨st, _, rfl, _⟩ | ⟨_, hs⟩
    · cases hf
    · exact hs
  | anchorCommitment bundleDigest => exact (Prod.mk.inj h).2.symm

end LocalCsvSealAnchor

end Piteka.Infra
