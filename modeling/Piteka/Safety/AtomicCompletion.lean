import Piteka.Safety.MandateAttempt

/-!
# A completion and its swap

`completeDispatch` writes the attempt before it swaps the mandate, and a conflict or a
missing mandate does not undo the write; `reserve`, `reconcile` and `abandonUnresolved`
swap first. So the attempt survives a completion that does not close the mandate only if
it was already marked as that completion marks it, and a recorded deployment id survives
only a completion that names no other.
-/
namespace Piteka.Safety

set_option autoImplicit false

open Piteka.Interleaving Piteka.Interleaving.Program Piteka.Storage Piteka.Application

variable {rt : Runtime} {s s' : Stores} {c : CompleteArgs}

/-- The mandate is there with the version that the completion presents. -/
def SwapApplies (c : CompleteArgs) (s : Stores) : Prop :=
  ∃ p, s.mandate c.mandateIdHex = some p ∧ p.version = c.expectedMandateVersion

/-- What the attempt records of the dispatch: its state and the provider's deployment id. -/
def correlation (x : ExecutionAttempt) : ExecutionAttemptState × Option UInt64 :=
  (x.state, x.githubDeploymentId)

/-- Without an applied swap the attempt records what it did before, and whatever is swapped, no
recorded deployment id is replaced. -/
structure CompletesAtomically (c : CompleteArgs) (s s' : Stores) : Prop where
  unswapped : ¬ SwapApplies c s →
    (s'.attempt c.attemptIdHex).map correlation = (s.attempt c.attemptIdHex).map correlation
  kept : ∀ k x d, s.attempt k = some x → x.githubDeploymentId = some d →
    ∃ x', s'.attempt k = some x' ∧ x'.githubDeploymentId = some d

/-- The attempt stands where the completion would put it. -/
def AlreadyMarked (c : CompleteArgs) (x : ExecutionAttempt) : Prop :=
  match c.acceptedDeployment with
  | some d => x.state = .accepted ∧ x.githubDeploymentId = some d
  | none => x.state = .outcomeAmbiguous

/-- The completion's swap applies or its attempt is already marked, and it names no other
deployment id than the recorded one. -/
def CompletionFits (c : CompleteArgs) (s : Stores) : Prop :=
  ∀ x, s.attempt c.attemptIdHex = some x → (SwapApplies c s ∨ AlreadyMarked c x) ∧
    ∀ d d', x.githubDeploymentId = some d → c.acceptedDeployment = some d' → d' = d

theorem correlation_marked_iff (c : CompleteArgs) (x : ExecutionAttempt) :
    correlation (c.marked x) = correlation x ↔ AlreadyMarked c x := by
  unfold AlreadyMarked CompleteArgs.marked correlation
  cases c.acceptedDeployment with
  | none =>
    simp only [Prod.mk.injEq, and_true]
    exact eq_comm
  | some d =>
    simp only [Prod.mk.injEq]
    exact and_congr eq_comm eq_comm

/-- An ambiguous completion keeps the recorded id; an accepted one records its own. -/
theorem marked_deployment (c : CompleteArgs) (x : ExecutionAttempt) :
    (c.marked x).githubDeploymentId =
      if c.acceptedDeployment.isSome then c.acceptedDeployment else x.githubDeploymentId := by
  unfold CompleteArgs.marked
  cases c.acceptedDeployment with
  | none => rfl
  | some d => rfl

/-- Alone, a completion writes exactly its own attempt, if that is stored. -/
theorem completion_writes {r : Except DispatchError Unit}
    (he : (completeDispatch c).run.Eval (Exec rt noFaults) s r s') :
    (s.attempt c.attemptIdHex = none ∧ Untouched s s') ∨
      ∃ x, s.attempt c.attemptIdHex = some x ∧ AttemptSet s s' c.attemptIdHex (c.marked x) := by
  cases completeDispatch_effect he with
  | noAttempt hx hk => exact Or.inl ⟨hx, hk⟩
  | noMandate x hx _ _ ha => exact Or.inr ⟨x, hx, ha⟩
  | closed x hx _ _ _ _ ha => exact Or.inr ⟨x, hx, ha⟩
  | stuck x hx _ _ _ _ ha => exact Or.inr ⟨x, hx, ha⟩

/-- Writing the marked attempt loses a recorded id exactly when it is another one. -/
theorem kept_iff {x : ExecutionAttempt} (hx : s.attempt c.attemptIdHex = some x)
    (ha : AttemptSet s s' c.attemptIdHex (c.marked x)) :
    (∀ k y d, s.attempt k = some y → y.githubDeploymentId = some d →
        ∃ y', s'.attempt k = some y' ∧ y'.githubDeploymentId = some d) ↔
      ∀ d d', x.githubDeploymentId = some d → c.acceptedDeployment = some d' → d' = d := by
  constructor
  · intro hkept d d' hd hd'
    obtain ⟨y', hy', hid⟩ := hkept _ x d hx hd
    obtain rfl := Option.some.inj (ha.self.symm.trans hy')
    rw [marked_deployment, hd'] at hid
    exact Option.some.inj hid
  · intro hsame k y d hy hd
    by_cases hk : k = c.attemptIdHex
    · subst hk
      obtain rfl := Option.some.inj (hx.symm.trans hy)
      refine ⟨_, ha.self, ?_⟩
      rw [marked_deployment]
      cases hd' : c.acceptedDeployment with
      | none => exact hd
      | some d' => exact congrArg some (hsame d d' hd hd')
    · refine ⟨y, ?_, hd⟩
      rw [ha k, if_neg hk, hy]

/-- A completion is atomic with its swap exactly when its attempt is missing or fits it. -/
theorem completion_atomic_iff {r : Except DispatchError Unit}
    (he : (completeDispatch c).run.Eval (Exec rt noFaults) s r s') :
    CompletesAtomically c s s' ↔ CompletionFits c s := by
  rcases completion_writes he with ⟨hnone, hk⟩ | ⟨x, hx, ha⟩
  · constructor
    · intro _ x hx
      rw [hnone] at hx
      cases hx
    · intro _
      refine ⟨fun _ => by rw [hk.2], fun k x d hx hd => ⟨x, ?_, hd⟩⟩
      rw [hk.2, hx]
  have hmarked : (s'.attempt c.attemptIdHex).map correlation =
      (s.attempt c.attemptIdHex).map correlation ↔ AlreadyMarked c x := by
    rw [ha.self, hx, Option.map_some, Option.map_some, Option.some.injEq]
    exact correlation_marked_iff c x
  constructor
  · intro h y hy
    obtain rfl := Option.some.inj (hx.symm.trans hy)
    refine ⟨?_, (kept_iff hx ha).mp h.kept⟩
    by_cases hswap : SwapApplies c s
    · exact Or.inl hswap
    · exact Or.inr (hmarked.mp (h.unswapped hswap))
  · intro h
    obtain ⟨hfit, hsame⟩ := h x hx
    refine ⟨fun hswap => hmarked.mpr ?_, (kept_iff hx ha).mpr hsame⟩
    rcases hfit with hs | hm
    · exact absurd hs hswap
    · exact hm

/-! ## A completion that comes twice -/

/-- The mandate is reserved, and its dispatch completed as accepted with the id 7. -/
def completedSession : List (Turn Call Stores) × Stores :=
  playedSession sampleRuntime sessionStart
    [(.reserve (sampleReserve "r-1" "m-1" 1), .answering none),
      (.completeDispatch (sampleCompletion (some 7) 2), .answering none)]

/-- The same completion again, as the provider answered it a second time. -/
def repeatedCompletion (d : UInt64) : Except DispatchError Unit × Stores :=
  (completeDispatch (sampleCompletion (some d) 2)).run.alone (react sampleRuntime (.answering none))
    completedSession.2

theorem repeatedCompletion_eval (d : UInt64) :
    (completeDispatch (sampleCompletion (some d) 2)).run.Eval (Exec sampleRuntime noFaults)
      completedSession.2 (repeatedCompletion d).1 (repeatedCompletion d).2 :=
  alone_eval (react_sound _ _ _) _ _

theorem completion_atomic_iff_repeated :
    CompletesAtomically (sampleCompletion (some 7) 2) completedSession.2
      (repeatedCompletion 7).2 := by
  refine (completion_atomic_iff (repeatedCompletion_eval 7)).mpr fun x hx => ?_
  have hx' : correlation x = (.accepted, some 7) := by
    have hrow : (completedSession.2.attempt "att-m-1").map correlation =
        some (.accepted, some 7) := by decide +kernel
    rw [show completedSession.2.attempt "att-m-1" = some x from hx] at hrow
    exact Option.some.inj hrow
  obtain ⟨hstate, hid⟩ := Prod.mk.inj hx'
  refine ⟨Or.inr ⟨hstate, hid⟩, fun d d' hd hd' => ?_⟩
  rw [hid] at hd
  exact (Option.some.inj hd').symm.trans (Option.some.inj hd)

/-- The second completion names the id 8. Its swap meets a conflict, and the id 7 is gone. -/
theorem repeated_completion_replaces :
    Session (Exec sampleRuntime noFaults) (Call.program sampleRuntime) sessionStart
        completedSession.1 completedSession.2 ∧
      (completeDispatch (sampleCompletion (some 8) 2)).run.Eval (Exec sampleRuntime noFaults)
        completedSession.2 (repeatedCompletion 8).1 (repeatedCompletion 8).2 ∧
      (repeatedCompletion 8).1 = .error (.alreadyConsumed "m-1") ∧
      (completedSession.2.attempt "att-m-1").map correlation = some (.accepted, some 7) ∧
      ((repeatedCompletion 8).2.attempt "att-m-1").map correlation = some (.accepted, some 8) ∧
      ¬ SwapApplies (sampleCompletion (some 8) 2) completedSession.2 ∧
      ¬ CompletesAtomically (sampleCompletion (some 8) 2) completedSession.2
        (repeatedCompletion 8).2 := by
  have hbefore : (completedSession.2.attempt "att-m-1").map correlation =
      some (.accepted, some 7) := by decide +kernel
  have hafter : ((repeatedCompletion 8).2.attempt "att-m-1").map correlation =
      some (.accepted, some 8) := by decide +kernel
  have hstale : ¬ SwapApplies (sampleCompletion (some 8) 2) completedSession.2 := by
    rintro ⟨p, hp, hv⟩
    have hrow : (completedSession.2.mandate "m-1").map (·.version) = some 3 := by decide +kernel
    rw [show completedSession.2.mandate "m-1" = some p from hp] at hrow
    rw [Option.map_some, hv] at hrow
    exact absurd hrow (by decide)
  refine ⟨playedSession_session _ _ _ _, repeatedCompletion_eval 8, by decide +kernel, hbefore,
    hafter, hstale, fun h => ?_⟩
  have hsame := h.unswapped hstale
  rw [show (sampleCompletion (some 8) 2).attemptIdHex = "att-m-1" from rfl, hbefore, hafter] at hsame
  exact absurd hsame (by decide)

end Piteka.Safety
