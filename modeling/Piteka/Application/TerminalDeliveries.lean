import Piteka.Application.ReceiptProductionPaths

/-!
# Terminal deliveries

A delivery with a terminal status leaves no gap, so its production is three
insertions after the lookup of the attempt, each of which may be refused. The path
of a production whose lookup found the attempt is one of four.
-/
namespace Piteka.Application

set_option autoImplicit false

open Piteka.Interleaving Piteka.Interleaving.Program Piteka.Storage

/-- SHA-256 has no collision among the given inputs. -/
def CollisionFree (rt : Runtime) (inputs : List (Array UInt8)) : Prop :=
  ∀ a ∈ inputs, ∀ b ∈ inputs, rt.sha256 a = rt.sha256 b → a = b

instance (rt : Runtime) (inputs : List (Array UInt8)) : Decidable (CollisionFree rt inputs) :=
  inferInstanceAs (Decidable (∀ a ∈ inputs, ∀ b ∈ inputs, rt.sha256 a = rt.sha256 b → a = b))

def terminalStates : List String := ["success", "failure", "error"]

theorem mem_terminalStates {state : String} :
    state ∈ terminalStates ↔ isTerminalStatus state := by
  simp only [terminalStates, isTerminalStatus, List.mem_cons, List.not_mem_nil, or_false,
    Bool.or_eq_true, beq_iff_eq, or_assoc]

/-- A terminal status is a success or a failure. -/
theorem outcome_of_terminal {state : String} (ht : isTerminalStatus state) :
    mapGithubStateToOutcome state = .succeeded ∨ mapGithubStateToOutcome state = .failed := by
  have hmem := mem_terminalStates.mpr ht
  simp only [terminalStates, List.mem_cons, List.not_mem_nil, or_false] at hmem
  rcases hmem with rfl | rfl | rfl
  · exact Or.inl (by decide)
  · exact Or.inr (by decide)
  · exact Or.inr (by decide)

/-! ## Node ids -/

def observationPreimage (x : ExecutionAttempt) (state : String) : String :=
  nodePreimage (.provider "github") x.mandateIdHex x.attemptIdHex "deployment_status" state

def claimPreimage (x : ExecutionAttempt) (outcome : ReceiptOutcome) : String :=
  nodePreimage .piteka x.mandateIdHex x.attemptIdHex "outcome_claim" (outcomeAsStr outcome)

/-- A node id whose hashed text is `text`. -/
def nodeIdOf (rt : Runtime) (text : String) : String :=
  "ev-" ++ (ContentDigest.of rt (asBytes text)).toHex

theorem nodeIdOf_ne_empty (rt : Runtime) (text : String) : nodeIdOf rt text ≠ "" := by
  intro h
  exact absurd (String.append_eq_empty_iff.mp h).1 (by decide)

theorem receiptId_ne_empty (attemptIdHex : String) : "rcpt-" ++ attemptIdHex ≠ "" := by
  intro h
  exact absurd (String.append_eq_empty_iff.mp h).1 (by decide)

/-- The texts that are hashed for the node ids of an attempt's terminal deliveries. -/
def terminalTexts (x : ExecutionAttempt) : List String :=
  terminalStates.map (observationPreimage x) ++ [.succeeded, .failed].map (claimPreimage x)

theorem observation_mem {x : ExecutionAttempt} {state : String} (ht : isTerminalStatus state) :
    observationPreimage x state ∈ terminalTexts x :=
  List.mem_append_left _ (List.mem_map_of_mem (mem_terminalStates.mpr ht))

theorem claim_mem {x : ExecutionAttempt} {state : String} (ht : isTerminalStatus state) :
    claimPreimage x (mapGithubStateToOutcome state) ∈ terminalTexts x := by
  refine List.mem_append_right _ (List.mem_map_of_mem ?_)
  rcases outcome_of_terminal ht with h | h
  · rw [h]
    exact List.mem_cons_self
  · rw [h]
    exact List.mem_cons_of_mem _ List.mem_cons_self

/-- The source stands first in the hashed text, so an observation is never a claim. -/
theorem observation_ne_claim (x : ExecutionAttempt) (state : String) (outcome : ReceiptOutcome) :
    observationPreimage x state ≠ claimPreimage x outcome := by
  intro h
  have hlist := congrArg String.toList h
  simp only [observationPreimage, claimPreimage, nodePreimage, sourceText, String.toList_append]
    at hlist
  have hhead := congrArg List.head? hlist
  have hg : "github".toList = ['g', 'i', 't', 'h', 'u', 'b'] := by decide
  have hp : "piteka".toList = ['p', 'i', 't', 'e', 'k', 'a'] := by decide
  rw [hg, hp] at hhead
  simp at hhead

theorem nodeIdOf_injOn {rt : Runtime} {texts : List String}
    (free : CollisionFree rt (texts.map asBytes)) {a b : String} (ha : a ∈ texts) (hb : b ∈ texts)
    (h : nodeIdOf rt a = nodeIdOf rt b) : a = b := by
  have hhex := (String.append_right_inj "ev-").mp h
  have hdigest := congrArg ContentDigest.bytes (ContentDigest.toHex_injective hhex)
  exact asBytes_injective
    (free _ (List.mem_map_of_mem ha) _ (List.mem_map_of_mem hb) hdigest)

/-! ## Paths -/

/-- The production found the attempt `x` at the time `t`; then it was refused one of its
insertions, or it came to its audit event. -/
inductive TerminalPath (cd : Codec) (event : DeploymentStatusEvent) (x : ExecutionAttempt)
    (t : UInt64) : Path → Prop
  | noObservation (e : StorageError) : TerminalPath cd event x t
      [ticked t, did (.attempts (.byDeploymentId event.deploymentId)) (some x),
        ⟨.store (.evidenceNodes (.insert (event.observationNode cd x t.toInt64))), .error e⟩]
  | noClaim (e : StorageError) : TerminalPath cd event x t
      [ticked t, did (.attempts (.byDeploymentId event.deploymentId)) (some x),
        nodeInserted (event.observationNode cd x t.toInt64),
        ⟨.store (.evidenceNodes (.insert (event.claimNode cd x t.toInt64))), .error e⟩]
  | noReceipt (e : StorageError) : TerminalPath cd event x t
      [ticked t, did (.attempts (.byDeploymentId event.deploymentId)) (some x),
        nodeInserted (event.observationNode cd x t.toInt64),
        nodeInserted (event.claimNode cd x t.toInt64),
        ⟨.store (.receipts (.insert (event.receipt cd x t.toInt64))), .error e⟩]
  | audited (a : StorageResult Unit) : TerminalPath cd event x t
      [ticked t, did (.attempts (.byDeploymentId event.deploymentId)) (some x),
        nodeInserted (event.observationNode cd x t.toInt64),
        nodeInserted (event.claimNode cd x t.toInt64),
        receiptInserted (event.receipt cd x t.toInt64),
        ⟨.store (.audit (.append (event.producedEvent x t.toInt64))), a⟩]

variable {cd : Codec} {event : DeploymentStatusEvent} {x : ExecutionAttempt}

theorem outcome_known (hterm : isTerminalStatus event.state) : event.outcome ≠ .unknown := by
  rcases outcome_of_terminal hterm with h | h
  · rw [DeploymentStatusEvent.outcome, h]
    decide
  · rw [DeploymentStatusEvent.outcome, h]
    decide

theorem gapPath_of_terminal (hterm : isTerminalStatus event.state) (t : UInt64) :
    event.gapPath cd t x = [] := by
  rw [DeploymentStatusEvent.gapPath, if_neg (outcome_known hterm)]

/-- A terminal production fails in its lookup, finds no attempt, or goes on with the one it found. -/
theorem terminal_cases (hterm : isTerminalStatus event.state) {h : Path}
    {r : Except ReceiptProductionError ReceiptProductionResult} (hr : ProduceResult cd event h r) :
    (∃ t e, h = [ticked t, ⟨.store (.attempts (.byDeploymentId event.deploymentId)), .error e⟩]) ∨
      (∃ t, h = event.looked t none) ∨ ∃ t x, TerminalPath cd event x t h := by
  have hgap : ∀ t x, event.gapPath cd t x = [] := fun t x => gapPath_of_terminal hterm t
  cases hr with
  | failed h sc e hp =>
    cases hp with
    | lookup t => exact Or.inl ⟨t, e, rfl⟩
    | gap t y hu => exact absurd hu (outcome_known hterm)
    | observation t y =>
      rw [DeploymentStatusEvent.gapStored, hgap]
      exact Or.inr (Or.inr ⟨t, y, .noObservation e⟩)
    | claim t y =>
      rw [DeploymentStatusEvent.observed, hgap]
      exact Or.inr (Or.inr ⟨t, y, .noClaim e⟩)
    | receipt t y =>
      rw [DeploymentStatusEvent.claimed, hgap]
      exact Or.inr (Or.inr ⟨t, y, .noReceipt e⟩)
    | audit t y =>
      rw [DeploymentStatusEvent.receipted, hgap]
      exact Or.inr (Or.inr ⟨t, y, .audited (.error e)⟩)
  | notFound t => exact Or.inr (Or.inl ⟨t, rfl⟩)
  | produced t y =>
    rw [DeploymentStatusEvent.produced, hgap]
    exact Or.inr (Or.inr ⟨t, y, .audited (.ok ())⟩)

theorem TerminalPath.looked {t : UInt64} {h : Path} (hp : TerminalPath cd event x t h)
    (b : StorageResult (Option ExecutionAttempt)) :
    (⟨.store (.attempts (.byDeploymentId event.deploymentId)), b⟩ : Answered) ∈ h ↔
      b = .ok (some x) := by
  cases hp <;> simp

/-- The lookup answered with the attempt `x` each time it was made. -/
def Finds (event : DeploymentStatusEvent) (x : ExecutionAttempt) (h : Path) : Prop :=
  ∀ a, (⟨.store (.attempts (.byDeploymentId event.deploymentId)), a⟩ : Answered) ∈ h →
    a = .ok (some x)

theorem terminal_path (hterm : isTerminalStatus event.state) {h : Path}
    {r : Except ReceiptProductionError ReceiptProductionResult}
    (hr : ProduceResult cd event h r) (hf : Finds event x h) :
    ∃ t, TerminalPath cd event x t h := by
  rcases terminal_cases hterm hr with ⟨t, e, rfl⟩ | ⟨t, rfl⟩ | ⟨t, y, hp⟩
  · have he := hf (.error e) (by simp)
    cases he
  · have he := hf (.ok none) (by simp [DeploymentStatusEvent.looked])
    cases he
  · have he := hf (.ok (some y)) ((hp.looked _).mpr rfl)
    obtain rfl := Option.some.inj (Except.ok.inj he)
    exact ⟨t, hp⟩

namespace TerminalPath

variable {t : UInt64} {h : Path}

/-- The insertion of the observation is always tried. -/
theorem tries_observation (hp : TerminalPath cd event x t h) :
    ∃ a, ⟨.store (.evidenceNodes (.insert (event.observationNode cd x t.toInt64))), a⟩ ∈ h := by
  cases hp with
  | noObservation e => exact ⟨.error e, by simp⟩
  | noClaim e => exact ⟨.ok (), by simp⟩
  | noReceipt e => exact ⟨.ok (), by simp⟩
  | audited a => exact ⟨.ok (), by simp⟩

/-- A node that the production inserted is its observation or its claim; the claim comes second. -/
theorem of_node (hp : TerminalPath cd event x t h) {n : EvidenceNodeRecord}
    (hn : nodeInserted n ∈ h) :
    (n = event.observationNode cd x t.toInt64 ∨ n = event.claimNode cd x t.toInt64) ∧
      nodeInserted (event.observationNode cd x t.toInt64) ∈ h ∧
      ∃ a, ⟨.store (.evidenceNodes (.insert (event.claimNode cd x t.toInt64))), a⟩ ∈ h := by
  cases hp with
  | noObservation e => simp at hn
  | noClaim e => exact ⟨Or.inl (by simpa using hn), by simp, .error e, by simp⟩
  | noReceipt e => exact ⟨by simpa using hn, by simp, .ok (), by simp⟩
  | audited a => exact ⟨by simpa using hn, by simp, .ok (), by simp⟩

/-- After its claim the production tries the receipt. -/
theorem tries_receipt (hp : TerminalPath cd event x t h)
    (hn : nodeInserted (event.claimNode cd x t.toInt64) ∈ h) :
    ∃ a, ⟨.store (.receipts (.insert (event.receipt cd x t.toInt64))), a⟩ ∈ h := by
  cases hp with
  | noObservation e => simp at hn
  | noClaim e =>
    have heq : event.claimNode cd x t.toInt64 = event.observationNode cd x t.toInt64 := by
      simpa using hn
    cases congrArg EvidenceNodeRecord.source heq
  | noReceipt e => exact ⟨.error e, by simp⟩
  | audited a => exact ⟨.ok (), by simp⟩

theorem of_receipt (hp : TerminalPath cd event x t h) {q : ReceiptProjection}
    (hq : receiptInserted q ∈ h) :
    q = event.receipt cd x t.toInt64 ∧
      nodeInserted (event.observationNode cd x t.toInt64) ∈ h ∧
      nodeInserted (event.claimNode cd x t.toInt64) ∈ h := by
  cases hp with
  | noObservation e => simp at hq
  | noClaim e => simp at hq
  | noReceipt e => simp at hq
  | audited a => exact ⟨by simpa using hq, by simp, by simp⟩

end TerminalPath

end Piteka.Application
