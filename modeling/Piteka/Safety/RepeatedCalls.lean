import Piteka.Api.Refusals
import Piteka.Application.Scenario

/-!
# Repeated calls with one idempotency key

The handlers do not look at the key, so a call that repeats another is carried out
on its own. It leaves the stores alone and answers as the first one did exactly if
the checks refuse both with the same response.
-/
namespace Piteka.Safety

set_option autoImplicit false

open Piteka.Interleaving Piteka.Storage Piteka.Application Piteka.Api

section
variable {ι : Type} [DecidableEq ι]

/-- The entries of one caller. -/
def own (i : ι) (log : List (Event ι)) : List (Event ι) := log.filter fun e => e.caller = i

theorem history_own (i : ι) (log : List (Event ι)) :
    history i log = (own i log).map (·.call) := by
  induction log with
  | nil => rfl
  | cons e log ih =>
    unfold history own at ih ⊢
    by_cases hi : e.caller = i
    · simp [hi, ih]
    · simp [hi, ih]

/-- A run of API calls and of any other programs over the same stores. -/
abbrev ApiRun (rt : Runtime) (programs : ι → ApiProgram) (s₀ : Stores) (log : List (Event ι))
    (s : Stores) (p : ι → ApiProgram) : Prop :=
  Run (Exec rt noFaults) s₀ programs log s p

/-- The calls are of one endpoint, with one key and one body. -/
structure Repeats (first second : ApiCall) : Prop where
  key : ∃ k, first.idempotencyKey = some k ∧ second.idempotencyKey = some k
  mutation : second.mutation = first.mutation

/-- The second call has changed no store and has been answered as the first. -/
structure Honoured (log : List (Event ι)) (second : ι) (answer repeated : ApiResult) : Prop where
  unchanged : ∀ e ∈ log, e.caller = second → e.after = e.before
  same : repeated = answer

variable {rt : Runtime} {programs p : ι → ApiProgram} {s₀ s : Stores} {log : List (Event ι)}

theorem call_settled (run : ApiRun rt programs s₀ log s p) {i : ι} {c : ApiCall} {r : ApiResult}
    (hc : programs i = c.program rt) (hr : p i = .ret r) : Settled c (own i log) r := by
  have hreturns := run.returns hr
  rw [hc, history_own] at hreturns
  refine settled hreturns fun e he => ?_
  exact run.exec_of_mem (List.mem_of_mem_filter he)

/-- The key is honoured exactly if both calls are refused with one response, each in the states in
which it made its own calls. -/
theorem repeated_call_iff (run : ApiRun rt programs s₀ log s p) {i j : ι} {c c' : ApiCall}
    {r r' : ApiResult} (hrepeats : Repeats c c') (hi : programs i = c.program rt)
    (hj : programs j = c'.program rt) (hr : p i = .ret r) (hr' : p j = .ret r') :
    Honoured log j r r' ↔ ∃ response, c.refusal ((own i log).map (·.before)) = some response ∧
      c'.refusal ((own j log).map (·.before)) = some response := by
  constructor
  · rintro ⟨hsame, rfl⟩
    cases call_settled run hj hr' with
    | carried _ hchange _ =>
      obtain ⟨e, he, hne⟩ := hchange
      obtain ⟨hmem, hcaller⟩ := List.mem_filter.mp he
      exact absurd (hsame e hmem (of_decide_eq_true hcaller)) hne
    | refused response href hresponse _ =>
      cases call_settled run hi hr with
      | carried _ _ hno => exact absurd hresponse (hno c' _ _ hrepeats.mutation href)
      | refused response' href' hresponse' _ =>
        obtain rfl := Except.ok.inj (hresponse'.symm.trans hresponse)
        exact ⟨_, href', href⟩
  · rintro ⟨response, href, href'⟩
    cases call_settled run hj hr' with
    | carried hnone _ _ =>
      rw [hnone] at href'
      cases href'
    | refused second hsecond hresponse' hsame =>
      obtain rfl := Option.some.inj (hsecond.symm.trans href')
      cases call_settled run hi hr with
      | carried hnone _ _ =>
        rw [hnone] at href
        cases href
      | refused first hfirst hresponse _ =>
        obtain rfl := Option.some.inj (hfirst.symm.trans href)
        refine ⟨fun e he hcaller => ?_, hresponse'.trans hresponse.symm⟩
        exact hsame e (List.mem_filter.mpr ⟨he, decide_eq_true hcaller⟩)

end

/-! One proposal is sent twice, and an approval of a request that is not there. -/

def repeatedCall (m : Mutation) : Pair → ApiCall
  | .first => ⟨some "key-1", "r-1", m⟩
  | .second => ⟨some "key-1", "r-2", m⟩

def repeatedStart (m : Mutation) : Snapshot Pair Answer Stores fun _ => ApiResult :=
  ⟨[], .empty, fun i => (repeatedCall m i).program sampleRuntime⟩

/-- The second call begins when the first has returned. -/
def repeatedPlay (m : Mutation) (n : Nat) : Snapshot Pair Answer Stores fun _ => ApiResult :=
  (repeatedStart m).play (react sampleRuntime)
    (steps .first n (.answering none) ++ steps .second n (.answering none))

theorem repeatedPlay_run (m : Mutation) (n : Nat) :
    ApiRun sampleRuntime (fun i => (repeatedCall m i).program sampleRuntime) .empty
      (repeatedPlay m n).log (repeatedPlay m n).state (repeatedPlay m n).pool :=
  play_run (c := repeatedStart m) (react_sound sampleRuntime noFaults) .start _

theorem repeatedCall_repeats (m : Mutation) :
    Repeats (repeatedCall m .first) (repeatedCall m .second) :=
  ⟨⟨"key-1", rfl, rfl⟩, rfl⟩

def sampleProposal : Mutation := .propose ⟨"alice", some "i-1"⟩

theorem sampleProposal_first : (repeatedPlay sampleProposal 3).pool .first =
    respond (shown 201 ⟨"r-1", "alice", some "i-1", .pending, 0⟩ []) := rfl

theorem sampleProposal_second : (repeatedPlay sampleProposal 3).pool .second =
    respond (shown 201 ⟨"r-2", "alice", some "i-1", .pending, 0⟩ []) := rfl

theorem repeated_proposal_creates :
    ¬ ∀ (programs p : Pair → ApiProgram) (s₀ s : Stores) (log : List (Event Pair)) (i j : Pair)
      (c c' : ApiCall) (r r' : ApiResult), ApiRun sampleRuntime programs s₀ log s p →
      Repeats c c' → programs i = c.program sampleRuntime → programs j = c'.program sampleRuntime →
      p i = .ret r → p j = .ret r' → Honoured log j r r' := by
  intro h
  have honoured := h _ _ _ _ _ .first .second _ _ _ _ (repeatedPlay_run sampleProposal 3)
    (repeatedCall_repeats sampleProposal) rfl rfl sampleProposal_first sampleProposal_second
  exact absurd (Except.ok.inj honoured.same) (by decide)

def unknownApproval : Mutation := .approve "r-9" ⟨"alice", none, 1⟩

def unknownRequest : Response := (ApiError.notFound "action request" "r-9").intoResponse

theorem unknown_approval_honoured :
    Honoured (repeatedPlay unknownApproval 2).log .second (.ok unknownRequest)
      (.ok unknownRequest) :=
  (repeated_call_iff (repeatedPlay_run unknownApproval 2) (repeatedCall_repeats unknownApproval)
    (i := .first) (j := .second) rfl rfl rfl rfl).mpr ⟨unknownRequest, rfl, rfl⟩

end Piteka.Safety
