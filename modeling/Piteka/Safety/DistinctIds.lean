import Piteka.Application.WebhookScenario
import Piteka.Safety.SingleDispatch
import Piteka.Text.Separated

/-!
# Hashed texts that are told apart

Node ids and attempt digests are hashes of texts whose parts are joined with `|`.
The text of a node names the mandate twice, the second time behind `att-`, so nodes
of mandates whose ids have no `|` are told apart even though the first part has
its source glued to it. The text of an attempt digest has the intent id at its end,
and two dispatches have one text exactly if the mandate id of one overlaps that of
the other.
-/
namespace Piteka.Safety

set_option autoImplicit false

open Piteka.Interleaving Piteka.Storage Piteka.Application Piteka.Text.Separated

/-! ## Evidence nodes -/

/-- What the three constructors of evidence nodes are given next to the attempt. -/
inductive NodeContent where
  | observation (event : DeploymentStatusEvent)
  | claim (outcome : ReceiptOutcome)
  | gap (missingClass reason : String)

/-- What a node says about its mandate. -/
inductive NodeMeaning where
  | observed (state : String)
  | claimed (outcome : ReceiptOutcome)
  | missing (missingClass reason : String)

namespace NodeContent

def node (cd : Codec) (x : ExecutionAttempt) (collectedAt : Int64) :
    NodeContent → EvidenceNodeRecord
  | .observation event => createObservationNode cd x.mandateIdHex x.attemptIdHex event collectedAt
  | .claim outcome => createClaimNode cd x.mandateIdHex x.attemptIdHex outcome collectedAt
  | .gap missingClass reason =>
    createGapNode cd x.mandateIdHex x.attemptIdHex missingClass reason collectedAt

def meaning : NodeContent → NodeMeaning
  | .observation event => .observed event.state
  | .claim outcome => .claimed outcome
  | .gap missingClass reason => .missing missingClass reason

/-- The text that is hashed for the id of the node. -/
def text (x : ExecutionAttempt) : NodeContent → String
  | .observation event => observationPreimage x event.state
  | .claim outcome => claimPreimage x outcome
  | .gap missingClass reason => gapPreimage x.mandateIdHex x.attemptIdHex missingClass reason

/-- The class of a gap has no separator. -/
def PlainClass : NodeContent → Prop
  | .gap missingClass _ => '|' ∉ missingClass.toList
  | _ => True

theorem nodeIdHex_eq (cd : Codec) (x : ExecutionAttempt) (t : Int64) (c : NodeContent) :
    (c.node cd x t).nodeIdHex = nodeIdOf cd.toRuntime (c.text x) := by
  cases c with
  | observation event => rfl
  | claim outcome => rfl
  | gap missingClass reason => rfl

/-- The source that is glued to the mandate id; gaps have none. -/
def source : NodeContent → String
  | .observation _ => "github"
  | .claim _ => "piteka"
  | .gap _ _ => ""

def evidenceType : NodeContent → String
  | .observation _ => "deployment_status"
  | .claim _ => "outcome_claim"
  | .gap _ _ => "evidence_gap"

def rest : NodeContent → List Char
  | .observation event => event.state.toList
  | .claim outcome => (outcomeAsStr outcome).toList
  | .gap missingClass reason => missingClass.toList ++ '|' :: reason.toList

theorem text_toList (x : ExecutionAttempt) (c : NodeContent) :
    (c.text x).toList = (c.source.toList ++ x.mandateIdHex.toList) ++ '|' ::
      (x.attemptIdHex.toList ++ '|' :: (c.evidenceType.toList ++ '|' :: c.rest)) := by
  have hbar : "|".toList = ['|'] := rfl
  cases c with
  | observation event =>
    simp only [text, observationPreimage, nodePreimage, sourceText, source, evidenceType, rest,
      String.toList_append, hbar, List.append_assoc, List.cons_append, List.nil_append]
  | claim outcome =>
    simp only [text, claimPreimage, nodePreimage, sourceText, source, evidenceType, rest,
      String.toList_append, hbar, List.append_assoc, List.cons_append, List.nil_append]
  | gap missingClass reason =>
    have hnone : "".toList = [] := rfl
    simp only [text, gapPreimage, source, evidenceType, rest, String.toList_append, hbar, hnone,
      List.append_assoc, List.cons_append, List.nil_append]

theorem source_plain (c : NodeContent) : '|' ∉ c.source.toList := by
  cases c with
  | observation event => simp [source]
  | claim outcome => simp [source]
  | gap missingClass reason => simp [source]

theorem evidenceType_plain (c : NodeContent) : '|' ∉ c.evidenceType.toList := by
  cases c with
  | observation event => simp [evidenceType]
  | claim outcome => simp [evidenceType]
  | gap missingClass reason => simp [evidenceType]

end NodeContent

theorem outcomeAsStr_inj {o o' : ReceiptOutcome} (h : outcomeAsStr o = outcomeAsStr o') :
    o = o' := by
  cases o <;> cases o' <;> first | rfl | exact absurd h (by decide)

/-- The evidence type and the rest determine what a node says. -/
theorem meaning_of_rest {c c' : NodeContent} (hc : c.PlainClass) (hc' : c'.PlainClass)
    (htype : c.evidenceType.toList = c'.evidenceType.toList) (hrest : c.rest = c'.rest) :
    c.meaning = c'.meaning := by
  have htype := String.toList_inj.mp htype
  cases c with
  | observation event =>
    cases c' with
    | observation event' => exact congrArg NodeMeaning.observed (String.toList_inj.mp hrest)
    | claim outcome' => exact absurd htype (by simp [NodeContent.evidenceType])
    | gap missingClass' reason' => exact absurd htype (by simp [NodeContent.evidenceType])
  | claim outcome =>
    cases c' with
    | observation event' => exact absurd htype (by simp [NodeContent.evidenceType])
    | claim outcome' =>
      exact congrArg NodeMeaning.claimed (outcomeAsStr_inj (String.toList_inj.mp hrest))
    | gap missingClass' reason' => exact absurd htype (by simp [NodeContent.evidenceType])
  | gap missingClass reason =>
    cases c' with
    | observation event' => exact absurd htype (by simp [NodeContent.evidenceType])
    | claim outcome' => exact absurd htype (by simp [NodeContent.evidenceType])
    | gap missingClass' reason' =>
      obtain ⟨hclass, hreason⟩ := part_append_inj hc hc' hrest
      exact congrArg₂ NodeMeaning.missing (String.toList_inj.mp hclass)
        (String.toList_inj.mp hreason)

theorem attemptId_toList {x : ExecutionAttempt} (hx : x.attemptIdHex = attemptIdOf x.mandateIdHex) :
    x.attemptIdHex.toList = "att-".toList ++ x.mandateIdHex.toList := by
  rw [hx, attemptIdOf, String.toList_append]

/-- One hashed text has one mandate and one meaning: the source part stands before the first
separator, and the attempt id behind it gives the mandate. -/
theorem text_inj {x x' : ExecutionAttempt} {c c' : NodeContent}
    (hx : x.attemptIdHex = attemptIdOf x.mandateIdHex)
    (hx' : x'.attemptIdHex = attemptIdOf x'.mandateIdHex)
    (hm : '|' ∉ x.mandateIdHex.toList) (hm' : '|' ∉ x'.mandateIdHex.toList)
    (hc : c.PlainClass) (hc' : c'.PlainClass) (h : c.text x = c'.text x') :
    x.mandateIdHex = x'.mandateIdHex ∧ c.meaning = c'.meaning := by
  have hchars := congrArg String.toList h
  rw [NodeContent.text_toList, NodeContent.text_toList, attemptId_toList hx,
    attemptId_toList hx'] at hchars
  have hatt : '|' ∉ "att-".toList := by simp
  obtain ⟨_, htail⟩ := part_append_inj
    (List.not_mem_append c.source_plain hm) (List.not_mem_append c'.source_plain hm') hchars
  obtain ⟨hattempt, htail⟩ := part_append_inj
    (List.not_mem_append hatt hm) (List.not_mem_append hatt hm') htail
  obtain ⟨htype, hrest⟩ := part_append_inj c.evidenceType_plain c'.evidenceType_plain htail
  exact ⟨String.toList_inj.mp (List.append_cancel_left hattempt),
    meaning_of_rest hc hc' htype hrest⟩

/-- Two nodes with one id belong to one mandate and say the same about it. -/
theorem node_ids_distinct {cd : Codec} {x x' : ExecutionAttempt} {c c' : NodeContent}
    {t t' : Int64} (hx : x.attemptIdHex = attemptIdOf x.mandateIdHex)
    (hx' : x'.attemptIdHex = attemptIdOf x'.mandateIdHex)
    (hm : '|' ∉ x.mandateIdHex.toList) (hm' : '|' ∉ x'.mandateIdHex.toList)
    (hc : c.PlainClass) (hc' : c'.PlainClass)
    (free : CollisionFree cd.toRuntime ([c.text x, c'.text x'].map asBytes))
    (h : (c.node cd x t).nodeIdHex = (c'.node cd x' t').nodeIdHex) :
    x.mandateIdHex = x'.mandateIdHex ∧ c.meaning = c'.meaning := by
  rw [c.nodeIdHex_eq, c'.nodeIdHex_eq] at h
  have htext : c.text x = c'.text x' :=
    nodeIdOf_injOn free List.mem_cons_self (List.mem_cons_of_mem _ List.mem_cons_self) h
  exact text_inj hx hx' hm hm' hc hc' htext

/-- Reports of one state have one node id, whatever else they say and whenever they arrive. -/
theorem node_ids_distinct_success :
    sampleAttempt.mandateIdHex = sampleAttempt.mandateIdHex ∧
      (NodeContent.observation (sampleEvent "success" 200)).meaning =
        (NodeContent.observation (sampleEvent "success" 300)).meaning :=
  @node_ids_distinct sampleCodec sampleAttempt sampleAttempt (.observation (sampleEvent "success" 200))
    (.observation (sampleEvent "success" 300)) 5 9 rfl rfl (by decide) (by decide) trivial trivial
    (by decide +kernel) rfl

/-! ## Attempt digests -/

/-- The digest that an entry passes to the provider, under its caller's reservation. -/
def passing {ι : Type} (calls : ι → Call) (e : Event ι) : Option (ReserveArgs × Vector UInt8 32) :=
  match e.call.1, calls e.caller with
  | .dispatchFn _ digest, .reserveAndDispatch a => some (a, digest)
  | _, _ => none

/-- The attempt digests that the reservations of a run pass to the provider. -/
def passedDigests {ι : Type} (calls : ι → Call) (log : List (Event ι)) :
    List (ReserveArgs × Vector UInt8 32) :=
  log.filterMap (passing calls)

/-- The mandate and the intent of a dispatch. -/
def dispatchIds (a : ReserveArgs) : String × String := (a.mandateIdHex, a.intentIdHex)

/-- The text that is hashed for the attempt digest. -/
def digestText (a : ReserveArgs) : String :=
  attemptIdOf a.mandateIdHex ++ "|" ++ a.mandateIdHex ++ "|" ++ a.intentIdHex

/-- The mandate id of `b` goes on behind that of `a`, and the intent ids make up for it. -/
def Overlaps (a b : ReserveArgs) : Prop :=
  Overlap '|' a.mandateIdHex.toList a.intentIdHex.toList b.mandateIdHex.toList b.intentIdHex.toList

theorem computeAttemptDigest_eq (rt : Runtime) (a : ReserveArgs) :
    computeAttemptDigest rt (attemptIdOf a.mandateIdHex) a.mandateIdHex a.intentIdHex =
      rt.sha256 (asBytes (digestText a)) := by
  simp only [computeAttemptDigest, digestText, asBytes, String.toUTF8, String.toByteArray_append]

theorem digestText_toList (a : ReserveArgs) :
    (digestText a).toList =
      "att-".toList ++ doubled '|' a.mandateIdHex.toList a.intentIdHex.toList := by
  have hbar : "|".toList = ['|'] := rfl
  simp only [digestText, attemptIdOf, doubled, String.toList_append, hbar, List.append_assoc,
    List.cons_append, List.nil_append]

theorem digestText_eq_iff {a b : ReserveArgs} :
    digestText a = digestText b ↔ dispatchIds a = dispatchIds b ∨ Overlaps a b ∨ Overlaps b a := by
  rw [← String.toList_inj, digestText_toList, digestText_toList, List.append_right_inj,
    doubled_eq_iff, String.toList_inj, String.toList_inj, dispatchIds, dispatchIds, Prod.mk.injEq]
  rfl

theorem Overlaps.ids_ne {a b : ReserveArgs} (h : Overlaps a b) : dispatchIds a ≠ dispatchIds b := by
  intro hids
  exact Overlap.ne h (congrArg (fun ids => ids.1.toList) hids)

/-- A dispatch passes the digest of its own attempt to the provider. -/
theorem passed_eq {ι : Type} [DecidableEq ι] {rt : Runtime} {faults : StoreCall → Prop}
    {calls : ι → Call} {s₀ s : Stores} {log : List (Event ι)}
    {p : (i : ι) → Program PortCall Answer (calls i).Res}
    (run : SystemRun rt faults calls s₀ log s p) {a : ReserveArgs} {d : Vector UInt8 32}
    (ha : (a, d) ∈ passedDigests calls log) :
    d = computeAttemptDigest rt (attemptIdOf a.mandateIdHex) a.mandateIdHex a.intentIdHex := by
  obtain ⟨e, he, hpass⟩ := List.mem_filterMap.mp ha
  unfold passing at hpass
  split at hpass
  · next key digest b hop hc =>
    cases hpass
    obtain ⟨l₁, l₂, rfl⟩ := List.append_of_mem he
    have hn := run.at_entry.2
    rw [hop] at hn
    obtain ⟨a', t, q, v, hc', _, _, hcall⟩ := dispatchFn_next hn
    obtain rfl : a = a' := Call.reserveAndDispatch.inj (hc.symm.trans hc')
    exact (PortCall.dispatchFn.inj hcall).2
  · cases hpass

/-- Mandate ids without the separator do not overlap, so hexadecimal ids are told apart. -/
theorem plain_ids_identified {ι : Type} [DecidableEq ι] {rt : Runtime}
    {faults : StoreCall → Prop} {calls : ι → Call} {s₀ s : Stores} {log : List (Event ι)}
    {p : (i : ι) → Program PortCall Answer (calls i).Res}
    (run : SystemRun rt faults calls s₀ log s p) {a b : ReserveArgs} {d : Vector UInt8 32}
    (ha : (a, d) ∈ passedDigests calls log) (hb : (b, d) ∈ passedDigests calls log)
    (free : CollisionFree rt ([digestText a, digestText b].map asBytes))
    (hma : '|' ∉ a.mandateIdHex.toList) (hmb : '|' ∉ b.mandateIdHex.toList) :
    dispatchIds a = dispatchIds b := by
  have hd := passed_eq run ha
  rw [passed_eq run hb, computeAttemptDigest_eq, computeAttemptDigest_eq] at hd
  have htext : digestText b = digestText a := asBytes_injective (free _ (by simp) _ (by simp) hd)
  rcases digestText_eq_iff.mp htext with h | h | h
  · exact h.symm
  · exact absurd h (not_overlap hma)
  · exact absurd h (not_overlap hmb)

/-- Two dispatches with different ids pass different digests exactly if neither mandate id
overlaps the other. -/
theorem attempt_digest_identifies_iff {ι : Type} [DecidableEq ι] {rt : Runtime}
    {faults : StoreCall → Prop} {calls : ι → Call} {s₀ s : Stores} {log : List (Event ι)}
    {p : (i : ι) → Program PortCall Answer (calls i).Res}
    (run : SystemRun rt faults calls s₀ log s p) {a b : ReserveArgs} {d d' : Vector UInt8 32}
    (ha : (a, d) ∈ passedDigests calls log) (hb : (b, d') ∈ passedDigests calls log)
    (free : CollisionFree rt ([digestText a, digestText b].map asBytes)) :
    (d = computeAttemptDigest rt ("att-" ++ a.mandateIdHex) a.mandateIdHex a.intentIdHex ∧
      d' = computeAttemptDigest rt ("att-" ++ b.mandateIdHex) b.mandateIdHex b.intentIdHex) ∧
    ((dispatchIds a ≠ dispatchIds b → d ≠ d') ↔ ¬ (Overlaps a b ∨ Overlaps b a)) := by
  have hd := passed_eq run ha
  have hd' := passed_eq run hb
  refine ⟨⟨hd, hd'⟩, ?_⟩
  rw [computeAttemptDigest_eq] at hd hd'
  have htext : d = d' ↔ digestText a = digestText b := by
    rw [hd, hd']
    constructor
    · intro h
      exact asBytes_injective (free _ (by simp) _ (by simp) h)
    · intro h
      rw [h]
  rw [ne_eq d, htext, digestText_eq_iff]
  constructor
  · intro hdiff hover
    have hids : dispatchIds a ≠ dispatchIds b := by
      rcases hover with h | h
      · exact h.ids_ne
      · exact h.ids_ne.symm
    exact hdiff hids (Or.inr hover)
  · intro hnot hids h
    exact h.elim hids hnot

/-- Two dispatchers of the request `r-1`, each with a mandate and an intent of its own. -/
def idCalls (first second : String × String) : Pair → Call
  | .first => .reserveAndDispatch { sampleReserve "r-1" first.1 1 with intentIdHex := first.2 }
  | .second => .reserveAndDispatch { sampleReserve "r-1" second.1 1 with intentIdHex := second.2 }

/-- Both dispatchers come to the provider, one after the other. -/
def idRun (rt : Runtime) (first second : String × String) :
    Snapshot Pair Answer Stores fun i => (idCalls first second i).Res :=
  played rt (idCalls first second) (afterApproval ((Stores.empty.issued first.1).issued second.1))
    (steps .first 7 (.answering (some 7)) ++ steps .second 7 (.answering (some 8)))

/-- Mandates that do not overlap: what the theorem says of the two sample mandates. -/
theorem attempt_digest_identifies_iff_sample :
    ∃ a d b d', (a, d) ∈ passedDigests (idCalls ("m-1", "i-1") ("m-2", "i-1"))
        (idRun sampleRuntime ("m-1", "i-1") ("m-2", "i-1")).log ∧
      (b, d') ∈ passedDigests (idCalls ("m-1", "i-1") ("m-2", "i-1"))
        (idRun sampleRuntime ("m-1", "i-1") ("m-2", "i-1")).log ∧
      ((d = computeAttemptDigest sampleRuntime ("att-" ++ a.mandateIdHex) a.mandateIdHex
          a.intentIdHex ∧
        d' = computeAttemptDigest sampleRuntime ("att-" ++ b.mandateIdHex) b.mandateIdHex
          b.intentIdHex) ∧
      ((dispatchIds a ≠ dispatchIds b → d ≠ d') ↔ ¬ (Overlaps a b ∨ Overlaps b a))) := by
  have ha : (sampleReserve "r-1" "m-1" 1, computeAttemptDigest sampleRuntime "att-m-1" "m-1" "i-1") ∈
      passedDigests (idCalls ("m-1", "i-1") ("m-2", "i-1"))
        (idRun sampleRuntime ("m-1", "i-1") ("m-2", "i-1")).log := by decide +kernel
  have hb : (sampleReserve "r-1" "m-2" 1, computeAttemptDigest sampleRuntime "att-m-2" "m-2" "i-1") ∈
      passedDigests (idCalls ("m-1", "i-1") ("m-2", "i-1"))
        (idRun sampleRuntime ("m-1", "i-1") ("m-2", "i-1")).log := by decide +kernel
  exact ⟨_, _, _, _, ha, hb,
    attempt_digest_identifies_iff (played_run sampleRuntime noFaults _ _ _) ha hb
      (by decide +kernel)⟩

/-- SHA-256 at the text that two overlapping dispatches share. -/
def overlapRuntime : Runtime where
  sha256 bytes :=
    if "att-m-1|m-1|m-1|m-1|i-1".toUTF8.data = bytes then
      #v[137, 139, 63, 115, 35, 8, 255, 19, 198, 196, 173, 85, 71, 210, 143, 65,
        94, 160, 167, 46, 52, 163, 29, 54, 97, 47, 193, 122, 59, 63, 39, 185]
    else sampleRuntime.sha256 bytes
  debugOption := sampleRuntime.debugOption

/-- The mandate `m-1` with the intent `m-1|m-1|i-1`, and the mandate `m-1|m-1` with `i-1`. -/
abbrev overlapRun : Snapshot Pair Answer Stores fun i =>
    (idCalls ("m-1", "m-1|m-1|i-1") ("m-1|m-1", "i-1") i).Res :=
  idRun overlapRuntime ("m-1", "m-1|m-1|i-1") ("m-1|m-1", "i-1")

/-- The provider is given one digest for two dispatches that share neither mandate nor intent. -/
theorem overlapping_digests_collide :
    SystemRun overlapRuntime noFaults (idCalls ("m-1", "m-1|m-1|i-1") ("m-1|m-1", "i-1"))
      (afterApproval ((Stores.empty.issued "m-1").issued "m-1|m-1"))
      overlapRun.log overlapRun.state overlapRun.pool ∧
    ∃ a d b d', passedDigests (idCalls ("m-1", "m-1|m-1|i-1") ("m-1|m-1", "i-1")) overlapRun.log =
        [(a, d), (b, d')] ∧
      CollisionFree overlapRuntime ([digestText a, digestText b].map asBytes) ∧
      a.mandateIdHex = "m-1" ∧ a.intentIdHex = "m-1|m-1|i-1" ∧
      b.mandateIdHex = "m-1|m-1" ∧ b.intentIdHex = "i-1" ∧ d = d' := by
  refine ⟨played_run _ _ _ _ _, { sampleReserve "r-1" "m-1" 1 with intentIdHex := "m-1|m-1|i-1" },
    _, { sampleReserve "r-1" "m-1|m-1" 1 with intentIdHex := "i-1" }, _, rfl, ?_, rfl, rfl, rfl, rfl, ?_⟩
  · decide +kernel
  · decide +kernel

end Piteka.Safety
