import Piteka.Application.FeedContents
import Piteka.Domain.Session

/-!
# The feed loop on 64-bit words

`build_exports` with the words that its counters have in the source, for any answers
to the assembly of a receipt. An addition that leaves the word ends the loop without
a result, as it panics in the source where overflows are checked. Below 2^63 listings
no addition does, and the loop marches in step with the one on natural numbers: it
exports the assembled receipts, numbered and clocked as `FeedState.emit` says.
-/
namespace Piteka.Feed

set_option autoImplicit false

open Piteka.Storage Piteka.Application Piteka.Text.Framing

/-- One export and its detached feed signature. -/
structure SignedPitekaExport where
  schemaVersion : UInt16
  sequence : UInt64
  exportId : String
  revision : UInt32
  supersedesExportId : Option String
  tenantId : String
  emittedAt : UInt64
  payload : Array UInt8
  payloadSha256 : Vector UInt8 32
  signingKeyId : String
  signature : Array UInt8
  deriving DecidableEq

def putText (value : String) : List UInt8 := framed (asBytes value).toList

/-- A text that may be absent, behind one byte that says so. -/
def putOptional : Option String → List UInt8
  | some value => 1 :: putText value
  | none => [0]

def putU64 (n : UInt64) : List UInt8 := bigEndian 8 n.toNat

namespace SignedPitekaExport

/-- Domain-separated signing preimage. -/
def signingBytes (e : SignedPitekaExport) : List UInt8 :=
  signatureDomain ++ (bigEndian 2 e.schemaVersion.toNat ++ (putU64 e.sequence ++
    (putText e.exportId ++ (bigEndian 4 e.revision.toNat ++ (putOptional e.supersedesExportId ++
      (putText e.tenantId ++ (putU64 e.emittedAt ++ (e.payloadSha256.toList ++
        (bigEndian 8 e.payload.size ++ e.payload.toList)))))))))

/-- The export with its numbers as natural numbers. -/
def widen (e : SignedPitekaExport) : Application.SignedPitekaExport where
  schemaVersion := e.schemaVersion
  sequence := e.sequence.toNat
  exportId := e.exportId
  revision := e.revision
  supersedesExportId := e.supersedesExportId
  tenantId := e.tenantId
  emittedAt := e.emittedAt.toNat
  payload := e.payload
  payloadSha256 := e.payloadSha256
  signingKeyId := e.signingKeyId
  signature := e.signature

end SignedPitekaExport

/-- A sum in 64 bits, if it has one. -/
def checkedAdd (a b : UInt64) : Option UInt64 :=
  if a.toNat + b.toNat < 2 ^ 64 then some (a + b) else none

section
variable {ε : Type} (cd : Codec) (state : FeedState) (manifest : String → Except ε (Array UInt8))

def signedExport (sequence : UInt64) (exportId : String) (emittedAt : UInt64)
    (payload : Array UInt8) : SignedPitekaExport :=
  let unsigned : SignedPitekaExport := {
    schemaVersion := 1
    sequence
    exportId
    revision := 1
    supersedesExportId := none
    tenantId := state.tenantId
    emittedAt
    payload
    payloadSha256 := cd.sha256 payload
    signingKeyId := state.signingKeyId
    signature := #[] }
  { unsigned with signature := state.sign unsigned.signingBytes.toArray }

/-- The exports of the listed receipts behind those in `exports`. `manifest` is what
`export_manifest_bytes` answers for a receipt; one that it refuses is skipped. -/
def buildExports (exports : List SignedPitekaExport) (lastEmitted : UInt64) :
    List Listing → Option (List SignedPitekaExport)
  | [] => some exports
  | (receiptId, createdAt) :: ordered =>
    match manifest receiptId with
    | .error _ => buildExports exports lastEmitted ordered
    | .ok payload => do
      let bumped ← checkedAdd lastEmitted 1
      let emittedAt := max (max createdAt 0).toUInt64 bumped
      let sequence ← checkedAdd (UInt64.ofNat exports.length) 1
      buildExports (exports ++ [signedExport cd state sequence receiptId emittedAt payload])
        emittedAt ordered

/-- The listings that assemble, with their manifests. -/
def assembledBy (ordered : List Listing) : List Published :=
  ordered.filterMap fun x => (manifest x.1).toOption.map fun payload => (x, payload)

end

/-! ## Words and naturals -/

theorem toBeBytes_eq (width n : Nat) : toBeBytes width n = bigEndian width n := by
  induction width generalizing n with
  | zero => rfl
  | succ width ih =>
    rw [bigEndian, ← ih, toBeBytes, toBeBytes, List.range_succ, List.map_append]
    congr 1
    · refine List.map_congr_left fun i hi => ?_
      have hlt : i < width := List.mem_range.mp hi
      have hexp : width + 1 - 1 - i = width - 1 - i + 1 := by omega
      rw [hexp, Nat.pow_succ, Nat.mul_comm, Nat.div_div_eq_div_mul]
    · simp

theorem widen_signingBytes (e : SignedPitekaExport) :
    e.widen.signingBytes = e.signingBytes.toArray := by
  have htext : ∀ value, Application.putText value = putText value := fun value => by
    rw [Application.putText, putText, framed, toBeBytes_eq, Array.length_toList]
  unfold Application.SignedPitekaExport.signingBytes SignedPitekaExport.signingBytes
  simp only [SignedPitekaExport.widen, toBeBytes_eq, htext, putU64, List.append_assoc]
  cases e.supersedesExportId with
  | none => rfl
  | some value => rfl

section
variable {ε : Type} {cd : Codec} {state : FeedState} {manifest : String → Except ε (Array UInt8)}

/-- Exports that carry the same numbers carry the same signature. -/
theorem widen_signedExport (sequence : UInt64) (exportId : String) (emittedAt : UInt64)
    (payload : Array UInt8) : (signedExport cd state sequence exportId emittedAt payload).widen =
      state.signedExport cd sequence.toNat exportId emittedAt.toNat payload := by
  unfold signedExport FeedState.signedExport
  dsimp only
  rw [← widen_signingBytes]
  rfl

/-- A sum that fits is the sum of the naturals. -/
theorem checkedAdd_of_fits {a b : UInt64} (h : a.toNat + b.toNat < 2 ^ 64) :
    checkedAdd a b = some (a + b) ∧ (a + b).toNat = a.toNat + b.toNat := by
  rw [checkedAdd, if_pos h, UInt64.toNat_add, Nat.mod_eq_of_lt h]
  exact ⟨rfl, rfl⟩

/-- The creation time of a receipt as a clock, and its bound. -/
theorem clock_toNat (t : Int64) :
    (max t 0).toUInt64.toNat = t.toInt.toNat ∧ t.toInt.toNat < 2 ^ 63 := by
  have hlt := Int64.toNatClampNeg_lt t
  rw [← Int64.toNat_toInt] at hlt
  refine ⟨?_, hlt⟩
  by_cases ht : t ≤ 0
  · have hneg : t.toInt ≤ 0 := Int64.le_iff_toInt_le.mp ht
    have hmax : max t 0 = 0 := if_pos ht
    rw [hmax, Int.toNat_of_nonpos hneg]
    rfl
  · have hpos : (0 : Int64) ≤ t := Int64.le_of_lt (Int64.not_le.mp ht)
    have hmax : max t 0 = t := if_neg ht
    rw [hmax, Int64.toNat_toUInt64_of_le hpos, Int64.toNat_toInt]

theorem toNat_max (a b : UInt64) : (max a b).toNat = max a.toNat b.toNat := by
  by_cases h : a ≤ b
  · have hnat : a.toNat ≤ b.toNat := UInt64.le_iff_toNat_le.mp h
    rw [show max a b = b from if_pos h, Nat.max_eq_right hnat]
  · have hnat : ¬ a.toNat ≤ b.toNat := fun hle => h (UInt64.le_iff_toNat_le.mpr hle)
    rw [show max a b = a from if_neg h, Nat.max_eq_left (by omega)]

/-- The number of an export after `n` others fits, and is one more. -/
theorem number_fits {n : Nat} (h : n < 2 ^ 63) :
    checkedAdd (UInt64.ofNat n) 1 = some (UInt64.ofNat n + 1) ∧
      (UInt64.ofNat n + 1).toNat = n + 1 := by
  have hone : (1 : UInt64).toNat = 1 := rfl
  have hn : (UInt64.ofNat n).toNat = n := by
    rw [UInt64.toNat_ofNat']
    exact Nat.mod_eq_of_lt (by omega)
  have hfits := checkedAdd_of_fits (a := UInt64.ofNat n) (b := 1) (by rw [hn, hone]; omega)
  rwa [hn, hone] at hfits

/-- The clock behind `lastEmitted` fits, and is that of the naturals. -/
theorem clock_fits {lastEmitted : UInt64} (h : lastEmitted.toNat < 2 ^ 64 - 1) (t : Int64) :
    checkedAdd lastEmitted 1 = some (lastEmitted + 1) ∧
      (max (max t 0).toUInt64 (lastEmitted + 1)).toNat =
        max t.toInt.toNat (lastEmitted.toNat + 1) := by
  have hone : (1 : UInt64).toNat = 1 := rfl
  obtain ⟨hsum, hbumped⟩ := checkedAdd_of_fits (a := lastEmitted) (b := 1) (by rw [hone]; omega)
  refine ⟨hsum, ?_⟩
  rw [toNat_max, (clock_toNat t).1, hbumped, hone]

/-- Below 2^63 listings the loop on words does not overflow and follows the one on naturals. The
clock runs ahead of the creation times by no more than the number of exports. -/
theorem buildExports_emit {ordered : List Listing} {exports : List SignedPitekaExport}
    {lastEmitted : UInt64} (hlast : lastEmitted.toNat < 2 ^ 63 + exports.length)
    (hlen : exports.length + ordered.length < 2 ^ 63) :
    ∃ out, buildExports cd state manifest exports lastEmitted ordered = some (exports ++ out) ∧
      out.map SignedPitekaExport.widen =
        state.emit cd exports.length lastEmitted.toNat (assembledBy manifest ordered) := by
  induction ordered generalizing exports lastEmitted with
  | nil => exact ⟨[], by rw [List.append_nil]; rfl, rfl⟩
  | cons x ordered ih =>
    obtain ⟨receiptId, createdAt⟩ := x
    rw [List.length_cons] at hlen
    unfold buildExports
    cases hm : manifest receiptId with
    | error e =>
      have hskip : assembledBy manifest ((receiptId, createdAt) :: ordered) =
          assembledBy manifest ordered := by
        rw [assembledBy, List.filterMap_cons, hm]
        rfl
      rw [hskip]
      exact ih hlast (by omega)
    | ok payload =>
      have htake : assembledBy manifest ((receiptId, createdAt) :: ordered) =
          ((receiptId, createdAt), payload) :: assembledBy manifest ordered := by
        rw [assembledBy, List.filterMap_cons, hm]
        rfl
      obtain ⟨hseq, hsequence⟩ := number_fits (n := exports.length) (by omega)
      have hbelow : lastEmitted.toNat < 2 ^ 64 - 1 := by omega
      obtain ⟨hbump, hemitted⟩ := clock_fits hbelow createdAt
      have hbound := (clock_toNat createdAt).2
      rw [hbump, hseq, htake]
      dsimp only [Option.bind_eq_bind, Option.bind_some]
      let signed := signedExport cd state (UInt64.ofNat exports.length + 1) receiptId
        (max (max createdAt 0).toUInt64 (lastEmitted + 1)) payload
      have hwithin : (max (max createdAt 0).toUInt64 (lastEmitted + 1)).toNat <
          2 ^ 63 + (exports ++ [signed]).length := by
        rw [hemitted, List.length_append, List.length_singleton]
        omega
      have hfits : (exports ++ [signed]).length + ordered.length < 2 ^ 63 := by
        rw [List.length_append, List.length_singleton]
        omega
      obtain ⟨out, hout, hwide⟩ := ih hwithin hfits
      refine ⟨_ :: out, by rw [hout, List.append_assoc]; rfl, ?_⟩
      rw [List.map_cons, hwide, widen_signedExport, hsequence, hemitted,
        List.length_append, List.length_singleton]
      rfl

/-- The exports that the loop begins with stay at its front. -/
theorem buildExports_extends {ordered : List Listing} {exports out : List SignedPitekaExport}
    {lastEmitted : UInt64}
    (h : buildExports cd state manifest exports lastEmitted ordered = some out) :
    exports <+: out := by
  induction ordered generalizing exports lastEmitted with
  | nil =>
    obtain rfl := Option.some.inj h
    exact List.prefix_rfl
  | cons x ordered ih =>
    unfold buildExports at h
    cases hm : manifest x.1 with
    | error e =>
      rw [hm] at h
      exact ih h
    | ok payload =>
      rw [hm] at h
      obtain ⟨bumped, _, h⟩ := Option.bind_eq_some_iff.mp h
      obtain ⟨sequence, _, h⟩ := Option.bind_eq_some_iff.mp h
      exact (List.prefix_append exports _).trans (ih h)

/-- The loop over a longer list has passed the loop over the shorter one. -/
theorem buildExports_append {ordered later : List Listing} {exports out : List SignedPitekaExport}
    {lastEmitted : UInt64}
    (h : buildExports cd state manifest exports lastEmitted (ordered ++ later) = some out) :
    ∃ out', buildExports cd state manifest exports lastEmitted ordered = some out' ∧
      out' <+: out := by
  induction ordered generalizing exports lastEmitted with
  | nil => exact ⟨exports, rfl, buildExports_extends h⟩
  | cons x ordered ih =>
    rw [List.cons_append] at h
    unfold buildExports at h ⊢
    cases hm : manifest x.1 with
    | error e =>
      rw [hm] at h
      exact ih h
    | ok payload =>
      rw [hm] at h
      obtain ⟨bumped, hbump, h⟩ := Option.bind_eq_some_iff.mp h
      obtain ⟨sequence, hseq, h⟩ := Option.bind_eq_some_iff.mp h
      dsimp only
      rw [hbump, hseq]
      exact ih h

/-- What a pull of the feed builds from its stores is built on words as well. -/
theorem buildExports_served {s : Stores} {ordered : List Listing}
    (hlen : ordered.length < 2 ^ 63) :
    ∃ out, buildExports cd state (fun id => (caseFile s id).map (CaseFile.bytes cd)) [] 0 ordered =
        some out ∧ out.map SignedPitekaExport.widen = state.buildExports cd s [] 0 ordered := by
  obtain ⟨out, hout, hwide⟩ : ∃ out,
      buildExports cd state (fun id => (caseFile s id).map (CaseFile.bytes cd)) [] 0 ordered =
        some ([] ++ out) ∧ out.map SignedPitekaExport.widen = state.emit cd 0 0
          (assembledBy (fun id => (caseFile s id).map (CaseFile.bytes cd)) ordered) :=
    buildExports_emit (Nat.pow_pos (by omega))
      (by rw [List.length_nil, Nat.zero_add]; exact hlen)
  have hsame : ∀ l, assembledBy (fun id => (caseFile s id).map (CaseFile.bytes cd)) l =
      assembled cd s l := by
    intro l
    induction l with
    | nil => rfl
    | cons x l ih =>
      unfold assembled
      rw [assembledBy, List.filterMap_cons]
      cases (caseFile s x.1).map (CaseFile.bytes cd) with
      | error e => exact ih
      | ok payload => exact congrArg ((x, payload) :: ·) ih
  refine ⟨out, hout, ?_⟩
  rw [hwide, hsame, buildExports_eq]
  rfl

end

end Piteka.Feed
