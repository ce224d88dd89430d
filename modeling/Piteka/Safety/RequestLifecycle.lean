import Piteka.Application.Scenario
import Piteka.Safety.Swaps
import Mathlib.Data.List.Chain

/-!
# The lifecycle of a request

Approvers, rejecters and revokers of one pending request. Each reads the status
and swaps it later with the version its caller supplied. The statuses follow the
one-way automaton, one decision wins and the stored decision agrees with the
status, exactly in the runs in which every swap that presents the stored version
still finds the status that its caller had to read.
-/
namespace Piteka.Safety

set_option autoImplicit false

open Piteka.Interleaving Piteka.Interleaving.Program Piteka.Storage Piteka.Application

variable {ι : Type} {rt : Runtime} {faults : StoreCall → Prop} {calls : ι → Call}
  {s₀ s : Stores} {log : List (Event ι)} {p : (i : ι) → Program PortCall Answer (calls i).Res}
  {r : String}

/-- The status that a caller must have read before it sets this one. -/
def requiredFor : ActionRequestStatus → Option ActionRequestStatus
  | .pending => none
  | .approved => some .pending
  | .rejected => some .pending
  | .revoked => some .approved

/-- The edges of the lifecycle. -/
def LifecycleEdge (st st' : ActionRequestStatus) : Prop := requiredFor st' = some st

/-- Every caller approves, rejects or revokes the request `r`. -/
def OnlyDeciders (r : String) (calls : ι → Call) : Prop :=
  ∀ i, ∃ v required target, (calls i).swapping = some (r, v, required, target)

/-- A swap that presents the stored version finds the status that its caller had to read. -/
def SwapsOnlyRequired (r : String) (log : List (Event ι)) : Prop :=
  ∀ e ∈ log, ∀ q ∈ e.before.request r, ∀ target ∈ presentedStatus r e,
    requiredFor target = some q.status

instance (r : String) (log : List (Event ι)) : Decidable (SwapsOnlyRequired r log) :=
  inferInstanceAs (Decidable (∀ e ∈ log, ∀ q ∈ e.before.request r, _))

/-- An approval or a rejection that has returned `Ok`. -/
def HasDecided : (c : Call) → Program PortCall Answer c.Res → Prop
  | .approve _, .ret (.ok _) => True
  | .reject _, .ret (.ok _) => True
  | _, _ => False

/-- Every stored decision about `r` agrees with the status. -/
def DecisionsAgree (r : String) (s : Stores) : Prop :=
  ∀ k d, s.decision k = some d → d.requestId = r →
    (d.decision = "rejected" → HasStatus r .rejected s) ∧
      (d.decision = "approved" → HasStatus r .approved s ∨ HasStatus r .revoked s)

/-- The statuses follow the automaton, at most one decision returns `Ok`, and the decisions
agree with the status, also before all calls have returned. -/
def OneWay (r : String) (calls : ι → Call) (log : List (Event ι)) (s : Stores)
    (p : (i : ι) → Program PortCall Answer (calls i).Res) : Prop :=
  (.pending :: statusTransitions r log <+: [.pending, .rejected] ∨
    .pending :: statusTransitions r log <+: [.pending, .approved, .revoked]) ∧
    (∀ i j, HasDecided (calls i) (p i) → HasDecided (calls j) (p j) → i = j) ∧
    DecisionsAgree r s

theorem lifecycle_cases {l : List ActionRequestStatus}
    (h : (ActionRequestStatus.pending :: l).IsChain LifecycleEdge) :
    l = [] ∨ l = [.rejected] ∨ l = [.approved] ∨ l = [.approved, .revoked] := by
  rcases l with _ | ⟨a, l⟩
  · exact Or.inl rfl
  obtain ⟨ha, hl⟩ := List.isChain_cons_cons.mp h
  cases a with
  | pending => cases ha
  | revoked => cases ha
  | rejected =>
    rcases l with _ | ⟨b, l⟩
    · exact Or.inr (Or.inl rfl)
    have hb := (List.isChain_cons_cons.mp hl).1
    cases b <;> cases hb
  | approved =>
    rcases l with _ | ⟨b, l⟩
    · exact Or.inr (Or.inr (Or.inl rfl))
    obtain ⟨hb, hl⟩ := List.isChain_cons_cons.mp hl
    cases b with
    | revoked =>
      rcases l with _ | ⟨c, l⟩
      · exact Or.inr (Or.inr (Or.inr rfl))
      have hc := (List.isChain_cons_cons.mp hl).1
      cases c <;> cases hc
    | _ => cases hb

theorem lifecycle_isChain_iff {l : List ActionRequestStatus} :
    (ActionRequestStatus.pending :: l).IsChain LifecycleEdge ↔
      .pending :: l <+: [.pending, .rejected] ∨
        .pending :: l <+: [.pending, .approved, .revoked] := by
  constructor
  · intro h
    rcases lifecycle_cases h with rfl | rfl | rfl | rfl <;> decide
  · have h₁ : [ActionRequestStatus.pending, .rejected].IsChain LifecycleEdge :=
      .cons_cons rfl (.singleton _)
    have h₂ : [ActionRequestStatus.pending, .approved, .revoked].IsChain LifecycleEdge :=
      .cons_cons rfl (.cons_cons rfl (.singleton _))
    rintro (⟨t, h⟩ | ⟨t, h⟩)
    · exact List.IsChain.left_of_append (h ▸ h₁)
    · exact List.IsChain.left_of_append (h ▸ h₂)

/-- A decision text goes with the status that its caller sets. -/
theorem deciding_text {c : Call} {a : DecideArgs} {target : ActionRequestStatus}
    {decision : String} (hc : c.deciding = some (a, target, decision)) :
    (decision = "approved" → target = .approved) ∧ (decision = "rejected" → target = .rejected) := by
  cases c with
  | approve b =>
    cases hc
    exact ⟨fun _ => rfl, fun h => absurd h (by decide)⟩
  | reject b =>
    cases hc
    exact ⟨fun h => absurd h (by decide), fun _ => rfl⟩
  | _ => cases hc

/-- A decision that has returned `Ok` has moved the request itself. -/
theorem moved_of_hasDecided {c : Call} {q : Program PortCall Answer c.Res} {h : Path}
    (hc : ∃ v required target, c.swapping = some (r, v, required, target)) (hq : HasDecided c q)
    (hf : (c.program rt).Follows h q) :
    ∃ v w st, st ≠ .revoked ∧
      did (.requests (.compareAndSwap r v st)) (.applied w) ∈ h := by
  obtain ⟨v, required, target, hc⟩ := hc
  cases c with
  | approve a =>
    cases hc
    rcases q with ⟨e | x⟩ | _
    · exact hq.elim
    · obtain ⟨t, q, q', w, event, _, _, _, rfl⟩ := approve_returns_ok hf
      exact ⟨a.expectedVersion, w, .approved, by decide,
        by simp [DecideArgs.decided, statusPath]⟩
    · exact hq.elim
  | reject a =>
    cases hc
    rcases q with ⟨e | x⟩ | _
    · exact hq.elim
    · obtain ⟨t, q, q', w, event, _, _, _, rfl⟩ := reject_returns_ok hf
      exact ⟨a.expectedVersion, w, .rejected, by decide,
        by simp [DecideArgs.decided, statusPath]⟩
    · exact hq.elim
  | _ => exact hq.elim

section
variable [DecidableEq ι]

/-- Without faults the condition says that every status swap follows an edge. -/
theorem swapsOnlyRequired_iff (run : SystemRun rt noFaults calls s₀ log s p) :
    SwapsOnlyRequired r log ↔ ∀ e ∈ log, ∀ st, appliedStatus r e = some st →
      ∀ st', HasStatus r st' e.before → LifecycleEdge st' st := by
  constructor
  · rintro hcond e he st hst _ ⟨q, hq, rfl⟩
    exact hcond e he q hq st (hasStatus_of_applied (run.exec_of_mem he) hst).1
  · intro hedge e he q hq st hst
    have hstored : (e.before.request r).isSome := Option.isSome_of_mem hq
    have happ := applied_of_presentedStatus (run.exec_of_mem he) hstored hst
    exact hedge e he st happ q.status ⟨q, hq, rfl⟩

/-- Every decision about `r` was stored by a caller that had moved the request accordingly. -/
theorem decision_backed (run : SystemRun rt faults calls s₀ log s p)
    (h₀ : ∀ k d, s₀.decision k = some d → d.requestId ≠ r) :
    ∀ k d, s.decision k = some d → d.requestId = r → ∃ e ∈ log, ∃ st,
      appliedStatus r e = some st ∧ (d.decision = "approved" → st = .approved) ∧
        (d.decision = "rejected" → st = .rejected) := by
  refine run.invariant (I := fun log s => ∀ k d, s.decision k = some d → d.requestId = r →
    ∃ e ∈ log, ∃ st, appliedStatus r e = some st ∧ (d.decision = "approved" → st = .approved) ∧
      (d.decision = "rejected" → st = .rejected)) (fun k d hk hr => absurd hr (h₀ k d hk)) ?_
  intro log s p i op a s' run ih hn hx k d hk hr
  cases decision_step (c := ⟨op, a⟩) hx k with
  | same h =>
    obtain ⟨e, he, hbacked⟩ := ih k d (h ▸ hk) hr
    exact ⟨e, List.mem_append_left _ he, hbacked⟩
  | insert x hi hc hb ha =>
    cases hc
    obtain ⟨b, target, decision, t, q, w, hdec, _, hh, rfl⟩ := decision_insert_next hn
    obtain rfl := Option.some.inj (ha.symm.trans hk)
    have hmem : did (.requests (.compareAndSwap b.requestId b.expectedVersion target)) (.applied w) ∈
        history i log := by
      rw [hh]
      simp [statusPath]
    obtain ⟨e, he, _, hcall⟩ := mem_history.mp hmem
    have hbr : b.requestId = r := hr
    rw [hbr] at hcall
    exact ⟨e, List.mem_append_left _ he, target, appliedStatus_of_call hcall, deciding_text hdec⟩

/-- The status at the end is the last one to which the request was moved. -/
theorem hasStatus_last (run : SystemRun rt faults calls s₀ log s p) (h₀ : HasStatus r .pending s₀) :
    HasStatus r ((.pending :: statusTransitions r log).getLast (List.cons_ne_nil _ _)) s := by
  refine run.linked.has_last (fun s st => HasStatus r st s) ?_ ?_ h₀
  · rintro e he hnone st ⟨q, hq, hst⟩
    exact ⟨q, request_same (run.exec_of_mem he) hq hnone, hst⟩
  · intro e he st hst
    exact (hasStatus_of_applied (run.exec_of_mem he) hst).2.2

/-- A request moved along the automaton ends where the stored decision says. -/
theorem decisionsAgree_of_chain (run : SystemRun rt faults calls s₀ log s p)
    (h₀ : HasStatus r .pending s₀) (hd₀ : ∀ k d, s₀.decision k = some d → d.requestId ≠ r)
    (hchain : (ActionRequestStatus.pending :: statusTransitions r log).IsChain LifecycleEdge) :
    DecisionsAgree r s := by
  intro k d hk hr
  obtain ⟨e, he, st, hst, happroved, hrejected⟩ := decision_backed run hd₀ k d hk hr
  have hmem : st ∈ statusTransitions r log := List.mem_filterMap.mpr ⟨e, he, hst⟩
  have hlast := hasStatus_last run h₀
  rcases lifecycle_cases hchain with h | h | h | h <;> simp only [h] at hmem hlast
  · cases hmem
  · obtain rfl := List.mem_singleton.mp hmem
    exact ⟨fun _ => hlast, fun ha => absurd (happroved ha) (by decide)⟩
  · obtain rfl := List.mem_singleton.mp hmem
    exact ⟨fun hj => absurd (hrejected hj) (by decide), fun _ => Or.inl hlast⟩
  · refine ⟨fun hj => ?_, fun _ => Or.inr hlast⟩
    rw [hrejected hj] at hmem
    exact absurd hmem (by decide)

/-- Two decisions that returned `Ok` have both moved the request out of `Pending`. -/
theorem decided_once (hcalls : OnlyDeciders r calls) (run : SystemRun rt faults calls s₀ log s p)
    (hchain : (ActionRequestStatus.pending :: statusTransitions r log).IsChain LifecycleEdge)
    {i j : ι} (hi : HasDecided (calls i) (p i)) (hj : HasDecided (calls j) (p j)) : i = j := by
  have hlen : (log.filterMap fun e => (appliedStatus r e).filter (· ≠ .revoked)).length ≤ 1 := by
    rw [← List.filter_filterMap]
    rcases lifecycle_cases hchain with h | h | h | h <;>
      rw [show log.filterMap (appliedStatus r) = _ from h] <;> decide
  obtain ⟨v, w, st, hst, hvi⟩ := moved_of_hasDecided (hcalls i) hi (run.follows i)
  obtain ⟨v', w', st', hst', hvj⟩ := moved_of_hasDecided (hcalls j) hj (run.follows j)
  refine caller_unique (once_of_length_filterMap hlen) hvi hvj ?_ ?_
  · intro e hce
    rw [appliedStatus_of_call hce]
    simpa using hst
  · intro f hcf
    rw [appliedStatus_of_call hcf]
    simpa using hst'

/-- The lifecycle of a pending request is one-way exactly in the runs in which every status
swap that presents the stored version finds the status that its caller had to read. -/
theorem request_one_way (hcalls : OnlyDeciders r calls) (h₀ : HasStatus r .pending s₀)
    (hd₀ : ∀ k d, s₀.decision k = some d → d.requestId ≠ r)
    (run : SystemRun rt noFaults calls s₀ log s p) :
    OneWay r calls log s p ↔ SwapsOnlyRequired r log := by
  rw [swapsOnlyRequired_iff run, ← statusTransitions_isChain_iff run h₀]
  constructor
  · intro h
    exact lifecycle_isChain_iff.mpr h.1
  · intro hchain
    exact ⟨lifecycle_isChain_iff.mp hchain, fun i j hi hj => decided_once hcalls run hchain hi hj,
      decisionsAgree_of_chain run h₀ hd₀ hchain⟩

/-- An approver with the stored version and a rejecter with the version after it. -/
def decidingCalls : Pair → Call
  | .first => .approve (sampleDecide "r-1" 1)
  | .second => .reject (sampleDecide "r-1" 2)

def proposed : Stores :=
  (played sampleRuntime (fun _ : Unit => .propose (samplePropose "r-1")) Stores.empty
    (steps () 3 (.answering none))).state

/-- Both read the request as pending before either swaps. -/
def decidingRun : Snapshot Pair Answer Stores fun i => (decidingCalls i).Res :=
  played sampleRuntime decidingCalls proposed
    (steps .first 2 (.answering none) ++ steps .second 2 (.answering none) ++ steps .first 4 (.answering none) ++
      steps .second 4 (.answering none))

theorem deciding_onlyDeciders : OnlyDeciders "r-1" decidingCalls
  | .first => ⟨_, _, _, rfl⟩
  | .second => ⟨_, _, _, rfl⟩

/-- The request is approved and then rejected; the stored decision says approved. -/
theorem approved_then_rejected :
    SystemRun sampleRuntime noFaults decidingCalls proposed decidingRun.log decidingRun.state
        decidingRun.pool ∧
      HasStatus "r-1" .pending proposed ∧
      statusTransitions "r-1" decidingRun.log = [.approved, .rejected] ∧
      (∀ i, ∃ x, decidingRun.pool i = .ret x) ∧
      (decidingRun.state.decision "dec-r-1").map (·.decision) = some "approved" ∧
      HasStatus "r-1" .rejected decidingRun.state ∧
      ¬ OneWay "r-1" decidingCalls decidingRun.log decidingRun.state decidingRun.pool := by
  have htrans : statusTransitions "r-1" decidingRun.log = [.approved, .rejected] := by decide +kernel
  have hreturned : ∀ i, ∃ x, decidingRun.pool i = .ret x := fun
    | .first => ⟨_, rfl⟩
    | .second => ⟨_, rfl⟩
  refine ⟨played_run _ _ _ _ _, by decide +kernel, htrans, hreturned, by decide +kernel,
    by decide +kernel, fun h => ?_⟩
  have hone := h.1
  rw [htrans] at hone
  exact absurd hone (by decide)

theorem request_one_way_two :
    OneWay "r-1" decidingCalls decidingRun.log decidingRun.state decidingRun.pool ↔
      SwapsOnlyRequired "r-1" decidingRun.log :=
  request_one_way deciding_onlyDeciders (by decide +kernel)
    (fun k d hk => absurd hk (by
      rw [Stores.decision, show proposed.decisions = Stores.empty.decisions from rfl]
      exact fun h => by cases h))
    (played_run sampleRuntime noFaults _ _ _)

end

end Piteka.Safety
