import Piteka.Application.Points
import Piteka.Application.Scenario
import Piteka.Storage.Steps

/-!
# One dispatch for each mandate

The attempt key is derived from the mandate id and an attempt is never deleted,
so in a whole run one caller at most inserts the attempt of a mandate. The
provider closure runs only after that insertion. Nothing here uses the mandate's
state or version: the callers, their versions and the storage faults are arbitrary.
-/
namespace Piteka.Safety

set_option autoImplicit false

open Piteka.Interleaving Piteka.Storage Piteka.Application

variable {ι : Type}

/-- The entry inserted an attempt under the key `k`. -/
def InsertsAttempt (k : String) (e : Event ι) : Prop :=
  ∃ x : ExecutionAttempt, x.attemptIdHex = k ∧ e.call = did (.attempts (.insert x)) ()

/-- The reservation under which the entry invoked the provider closure. -/
def invoking (calls : ι → Call) (e : Event ι) : Option ReserveArgs :=
  match e.call.1, calls e.caller with
  | .dispatchFn _ _, .reserveAndDispatch a => some a
  | _, _ => none

/-- The reservations under which the provider closure was invoked, in order. -/
def invocations (calls : ι → Call) (log : List (Event ι)) : List ReserveArgs :=
  log.filterMap (invoking calls)

theorem invoking_eq_some {calls : ι → Call} {e : Event ι} {a : ReserveArgs}
    (h : invoking calls e = some a) :
    calls e.caller = .reserveAndDispatch a ∧ ∃ key digest, e.call.1 = .dispatchFn key digest := by
  unfold invoking at h
  split at h
  · next key digest b hop hc =>
    obtain rfl := Option.some.inj h
    exact ⟨hc, key, digest, hop⟩
  · cases h

/-- Attempts of the mandate `m` are stored under the key derived from `m` only. -/
def AttemptKeyed (m : String) (s : Stores) : Prop :=
  ∀ k x, s.attempt k = some x → x.mandateIdHex = m → k = attemptIdOf m

variable {rt : Runtime} {faults : StoreCall → Prop} {calls : ι → Call} {s₀ s : Stores}
  {log : List (Event ι)} {p : (i : ι) → Program PortCall Answer (calls i).Res}

/-- An attempt row is never deleted. -/
theorem attempt_persists {e : Event ι} (hx : Exec rt faults e.before e.call.1 e.call.2 e.after)
    {k : String} (hk : (e.before.attempt k).isSome) : (e.after.attempt k).isSome := by
  cases attempt_step hx k with
  | same h => rw [h, hk]
  | insert a hi hc hb ha => rw [ha, Option.isSome_some]
  | state a st hc hb ha => rw [ha, Option.isSome_some]
  | deployment a d hc hb ha => rw [ha, Option.isSome_some]

/-- A successful insertion found the key free and leaves it taken. -/
theorem insertsAttempt_step {e : Event ι} {k : String}
    (hx : Exec rt faults e.before e.call.1 e.call.2 e.after) (he : InsertsAttempt k e) :
    e.before.attempt k = none ∧ (e.after.attempt k).isSome := by
  obtain ⟨x, rfl, hc⟩ := he
  rw [hc] at hx
  obtain ⟨hb, ha⟩ := attempt_inserted hx
  exact ⟨hb, by rw [ha, Option.isSome_some]⟩

section
variable [DecidableEq ι]

/-- In a whole run the attempt of a mandate is inserted at most once. -/
theorem insertsAttempt_once (run : SystemRun rt faults calls s₀ log s p) (k : String) :
    log.Pairwise fun e e' => InsertsAttempt k e → ¬ InsertsAttempt k e' := by
  refine run.linked.once (Q := fun s => (s.attempt k).isSome) ?_ ?_
  · intro e he hE
    obtain ⟨hb, ha⟩ := insertsAttempt_step (run.exec_of_mem he) hE
    exact ⟨by rw [hb]; exact Bool.false_ne_true, ha⟩
  · intro e he hk
    exact attempt_persists (run.exec_of_mem he) hk

/-- A caller that stands at the provider closure has inserted the attempt itself. -/
theorem inserted_before_invoking {i : ι} {key : String} {digest : Vector UInt8 32}
    (hn : (pool rt calls i).Next (history i log) (.dispatchFn key digest)) :
    ∃ a x, calls i = .reserveAndDispatch a ∧ x.attemptIdHex = attemptIdOf a.mandateIdHex ∧
      did (.attempts (.insert x)) () ∈ history i log ∧
      ∀ k d y, (⟨.dispatchFn k d, y⟩ : Answered) ∉ history i log := by
  obtain ⟨a, t, q, v, hc, _, hh, _⟩ := dispatchFn_next hn
  rw [hh]
  refine ⟨a, a.attempt t.toInt64, hc, rfl, a.inserted_mem_granted, ?_⟩
  intro k d y
  simp [ReserveArgs.granted, ReserveArgs.swapped]

/-- Two callers that have inserted the attempt of one key are the same. -/
theorem inserter_unique (run : SystemRun rt faults calls s₀ log s p) {k : String} {i j : ι}
    {x y : ExecutionAttempt} (hx : x.attemptIdHex = k) (hy : y.attemptIdHex = k)
    (hi : did (.attempts (.insert x)) () ∈ history i log)
    (hj : did (.attempts (.insert y)) () ∈ history j log) : i = j :=
  caller_unique (insertsAttempt_once run k) hi hj (fun _ he => ⟨x, hx, he⟩) fun _ hf => ⟨y, hy, hf⟩

/-- A later invocation for the same mandate would need a second insertion of its attempt. -/
theorem invoking_mandate_ne (run : SystemRun rt faults calls s₀ log s p) {i : ι} {op : PortCall}
    (hn : (pool rt calls i).Next (history i log) op) {x : Answer op} {s' : Stores} {e : Event ι}
    (he : e ∈ log) {a b : ReserveArgs} (ha : invoking calls e = some a)
    (hb : invoking calls ⟨i, ⟨op, x⟩, s, s'⟩ = some b) : a.mandateIdHex ≠ b.mandateIdHex := by
  intro hm
  obtain ⟨hca, key, digest, hop⟩ := invoking_eq_some ha
  obtain ⟨hcb, key', digest', hop'⟩ := invoking_eq_some hb
  dsimp only at hop' hcb
  subst hop'
  obtain ⟨l₁, l₂, rfl⟩ := List.append_of_mem he
  have hna := run.at_entry.2
  rw [hop] at hna
  obtain ⟨a₁, x₁, hc₁, hx₁, hins₁, _⟩ := inserted_before_invoking hna
  obtain ⟨b₁, x₂, hc₂, hx₂, hins₂, hfresh⟩ := inserted_before_invoking hn
  obtain rfl : a = a₁ := Call.reserveAndDispatch.inj (hca.symm.trans hc₁)
  obtain rfl : b = b₁ := Call.reserveAndDispatch.inj (hcb.symm.trans hc₂)
  rw [hm] at hx₁
  have hi : e.caller = i := inserter_unique run hx₁ hx₂ (mem_history_append hins₁ _) hins₂
  obtain ⟨y, hcall⟩ := answer_mem_history he hop
  rw [hi] at hcall
  exact hfresh key digest y hcall

/-- The provider closure is invoked for pairwise different mandates. -/
theorem invocations_mandates_nodup (run : SystemRun rt faults calls s₀ log s p) :
    ((invocations calls log).map (·.mandateIdHex)).Nodup := by
  have hpair : log.Pairwise fun e e' => ∀ a ∈ invoking calls e, ∀ b ∈ invoking calls e',
      a.mandateIdHex ≠ b.mandateIdHex := by
    refine run.invariant (I := fun log _ => log.Pairwise _) List.Pairwise.nil ?_
    intro log s p i op x s' run ih hn _
    refine List.pairwise_append.mpr ⟨ih, List.pairwise_singleton _ _, ?_⟩
    intro e he e' he' a ha b hb
    obtain rfl := List.mem_singleton.mp he'
    exact invoking_mandate_ne run hn he ha hb
  exact List.pairwise_map.mpr (hpair.filterMap (invoking calls) fun e e' h a ha b hb => h a ha b hb)

/-- Attempts stay keyed by their mandate: `reserve` is the only writer of new rows. -/
theorem attemptKeyed_kept (run : SystemRun rt faults calls s₀ log s p) {m : String}
    (h₀ : AttemptKeyed m s₀) : AttemptKeyed m s := by
  refine run.invariant (I := fun _ s => AttemptKeyed m s) h₀ ?_
  intro log s p i op a s' run ih hn hx k x hk hm
  cases attempt_step (c := ⟨op, a⟩) hx k with
  | same h => exact ih k x (h ▸ hk) hm
  | insert y hi hc hb ha =>
    cases hc
    obtain ⟨r, t, q, v, _, _, _, rfl⟩ := attempt_insert_next hn
    obtain rfl := Option.some.inj (ha.symm.trans hk)
    rw [← hi, ← hm]
    rfl
  | state y st hc hb ha =>
    obtain rfl := Option.some.inj (ha.symm.trans hk)
    exact ih k y hb hm
  | deployment y d hc hb ha =>
    obtain rfl := Option.some.inj (ha.symm.trans hk)
    exact ih k y hb hm

/-- For one mandate the provider closure is invoked at most once in a whole run, and at
most one attempt row exists. -/
theorem single_dispatch (run : SystemRun rt faults calls s₀ log s p) (m : String)
    (h₀ : AttemptKeyed m s₀) :
    ((invocations calls log).filter (·.mandateIdHex = m)).length ≤ 1 ∧
      (s.attempts.attempts.byGroup m).length ≤ 1 := by
  constructor
  · have hnodup := invocations_mandates_nodup run
    have hcount := List.nodup_iff_count_le_one.mp hnodup m
    rw [List.count_eq_countP, List.countP_map, List.countP_eq_length_filter] at hcount
    exact hcount
  · have hkeyed := attemptKeyed_kept run h₀
    exact Table.Indexed.length_byGroup_le_one _ fun hk hm => hkeyed _ _ hk hm

theorem attemptKeyed_of_empty {m : String} (h : s.attempts = Stores.empty.attempts) :
    AttemptKeyed m s := by
  intro k x hk
  rw [Stores.attempt, h] at hk
  cases hk

/-- Two dispatchers of one mandate, the second with a guessed version. -/
def racingCalls : Pair → Call
  | .first => .reserveAndDispatch (sampleReserve "r-1" "m-1" 1)
  | .second => .reserveAndDispatch (sampleReserve "r-1" "m-1" 2)

/-- The second dispatcher swaps the mandate between the first one's swap and insertion. -/
def racingTurns : List (Pair × World) :=
  steps .first 3 (.answering none) ++ steps .second 9 (.answering (some 7)) ++ steps .first 9 (.answering (some 8))

theorem single_dispatch_race :
    let c := played sampleRuntime racingCalls (afterApproval (Stores.empty.issued "m-1"))
      racingTurns
    ((invocations racingCalls c.log).filter (·.mandateIdHex = "m-1")).length ≤ 1 ∧
      (c.state.attempts.attempts.byGroup "m-1").length ≤ 1 :=
  single_dispatch (played_run _ noFaults _ _ _) "m-1" (attemptKeyed_of_empty rfl)

/-- Under one request the provider closure is invoked for pairwise different mandates, each
time by a caller that has read the request as approved. -/
theorem dispatch_per_mandate (run : SystemRun rt faults calls s₀ log s p) (r : String) :
    (((invocations calls log).filter (·.requestId = r)).map (·.mandateIdHex)).Nodup ∧
      ∀ e ∈ log, ∀ a ∈ invoking calls e, a.requestId = r →
        ∃ f ∈ log, f.caller = e.caller ∧ ∃ q : ActionRequest, q.status = .approved ∧
          f.call = did (.requests (.get r)) (some q) := by
  constructor
  · have hsub : (((invocations calls log).filter (·.requestId = r)).map (·.mandateIdHex)).Sublist
        ((invocations calls log).map (·.mandateIdHex)) := List.filter_sublist.map _
    exact hsub.nodup (invocations_mandates_nodup run)
  · intro e he a ha hr
    obtain ⟨hc, key, digest, hop⟩ := invoking_eq_some ha
    obtain ⟨l₁, l₂, rfl⟩ := List.append_of_mem he
    have hn := run.at_entry.2
    rw [hop] at hn
    obtain ⟨b, t, q, v, hc', hq, hh, _⟩ := dispatchFn_next hn
    obtain rfl : a = b := Call.reserveAndDispatch.inj (hc.symm.trans hc')
    have hmem : did (.requests (.get a.requestId)) (some q) ∈ history e.caller l₁ := by
      rw [hh]
      exact a.read_mem_granted
    obtain ⟨f, hf, hfc, hcall⟩ := mem_history.mp hmem
    exact ⟨f, List.mem_append_left _ hf, hfc, q, hq, hr ▸ hcall⟩

/-- Two dispatchers under one request, each on its own mandate. -/
def sharingCalls : Pair → Call
  | .first => .reserveAndDispatch (sampleReserve "r-1" "m-1" 1)
  | .second => .reserveAndDispatch (sampleReserve "r-1" "m-2" 1)

def sharingStart : Stores := afterApproval ((Stores.empty.issued "m-1").issued "m-2")

def sharingRun : Snapshot Pair Answer Stores fun i => (sharingCalls i).Res :=
  played sampleRuntime sharingCalls sharingStart
    (steps .first 12 (.answering (some 7)) ++ steps .second 12 (.answering (some 8)))

/-- One approved request lets the provider closure run twice. -/
theorem two_dispatches_under_one_approval :
    SystemRun sampleRuntime noFaults sharingCalls sharingStart sharingRun.log sharingRun.state
        sharingRun.pool ∧
      ¬ ((invocations sharingCalls sharingRun.log).filter (·.requestId = "r-1")).length ≤ 1 :=
  ⟨played_run _ _ _ _ _, by decide +kernel⟩

theorem dispatch_per_mandate_shared :
    (((invocations sharingCalls sharingRun.log).filter (·.requestId = "r-1")).map
        (·.mandateIdHex)).Nodup ∧
      ∀ e ∈ sharingRun.log, ∀ a ∈ invoking sharingCalls e, a.requestId = "r-1" →
        ∃ f ∈ sharingRun.log, f.caller = e.caller ∧ ∃ q : ActionRequest, q.status = .approved ∧
          f.call = did (.requests (.get "r-1")) (some q) :=
  dispatch_per_mandate (played_run sampleRuntime noFaults _ _ _) "r-1"

end

end Piteka.Safety
