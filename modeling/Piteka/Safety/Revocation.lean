import Piteka.Application.Points
import Piteka.Application.Scenario
import Piteka.Safety.SingleDispatch

/-!
# Revocation and running dispatches

`reserve` reads the request's status once, as its first store call, and never
again. A revocation that has returned stops every dispatcher that has not read
the status yet, and no other: a provider closure that still runs afterwards
belongs to a caller that had read `Approved` before the status was swapped.
-/
namespace Piteka.Safety

set_option autoImplicit false

open Piteka.Interleaving Piteka.Storage Piteka.Application

variable {ι : Type} [DecidableEq ι] {rt : Runtime} {faults : StoreCall → Prop} {calls : ι → Call}
  {s₀ s : Stores} {log : List (Event ι)} {p : (i : ι) → Program PortCall Answer (calls i).Res}

def IsRevoked (r : String) (s : Stores) : Prop :=
  ∃ q, s.request r = some q ∧ q.status = .revoked

/-- Only revocations swap statuses. -/
def OnlyRevokes (calls : ι → Call) : Prop :=
  ∀ i, (∃ a, calls i = .revoke a) ∨ ∃ a, calls i = .reserveAndDispatch a

omit [DecidableEq ι] in
theorem onlyRevokes_target (hcalls : OnlyRevokes calls) {i : ι} {r : String} {v : Int64}
    {required target : ActionRequestStatus}
    (hs : (calls i).swapping = some (r, v, required, target)) : target = .revoked := by
  rcases hcalls i with ⟨a, ha⟩ | ⟨a, ha⟩
  · rw [ha] at hs
    cases hs
    rfl
  · rw [ha] at hs
    cases hs

/-- A revoked request stays revoked. -/
theorem isRevoked_kept (hcalls : OnlyRevokes calls) (run : SystemRun rt faults calls s₀ log s p)
    (r : String) {e : Event ι} (he : e ∈ log) (hr : IsRevoked r e.before) : IsRevoked r e.after := by
  obtain ⟨q, hq, hst⟩ := hr
  have hx := run.exec_of_mem he
  obtain ⟨l₁, l₂, rfl⟩ := List.append_of_mem he
  have hn := run.at_entry.2
  cases request_step hx r with
  | same h => exact ⟨q, (congrArg Prod.fst h).trans hq, hst⟩
  | insert q' hid hc hb ha => rw [hq] at hb; cases hb
  | swap q' v st hc hb ha =>
    rw [hc] at hn
    obtain ⟨required, t, q'', hsw, _, _⟩ := request_swap_next hn
    obtain rfl := onlyRevokes_target hcalls hsw
    exact ⟨_, congrArg Prod.fst ha, rfl⟩

/-- A revocation that has returned `Ok` has swapped the status itself. -/
theorem swapped_of_revoked {c : Call} {a : RevokeArgs} (hc : c = .revoke a) {h : Path}
    {x : c.Value} (hr : (c.program rt).Returns h (.ok x)) :
    ∃ w, did (.requests (.compareAndSwap a.requestId a.expectedVersion .revoked)) (.applied w) ∈ h := by
  subst hc
  obtain ⟨t, q, q', w, event, _, _, _, rfl⟩ := revoke_returns_ok hr
  exact ⟨w, by simp [statusPath]⟩

/-- When a revocation has returned `Ok`, a caller that still stands at the provider closure
had read the request as approved before the revocation swapped the status. -/
theorem read_before_revocation (hcalls : OnlyRevokes calls)
    (run : SystemRun rt faults calls s₀ log s p) {i j : ι} {a : RevokeArgs} {b : ReserveArgs}
    (hi : calls i = .revoke a) (hj : calls j = .reserveAndDispatch b)
    (hr : b.requestId = a.requestId) {x : (calls i).Value} (hp : p i = .ret (.ok x))
    {key : String} {digest : Vector UInt8 32}
    {k : Option UInt64 → Program PortCall Answer (calls j).Res}
    (hstand : p j = .call (.dispatchFn key digest) k) :
    ∃ l₁ f l₂ g l₃, log = l₁ ++ f :: l₂ ++ g :: l₃ ∧
      (f.caller = j ∧ ∃ q : ActionRequest, q.status = .approved ∧
        f.call = did (.requests (.get a.requestId)) (some q)) ∧
      g.caller = i ∧ ∃ w, g.call = did
        (.requests (.compareAndSwap a.requestId a.expectedVersion .revoked)) (.applied w) := by
  obtain ⟨w, hw⟩ := swapped_of_revoked hi (run.returns hp)
  obtain ⟨g, hg, hgi, hgc⟩ := mem_history.mp hw
  have hn : (pool rt calls j).Next (history j log) (.dispatchFn key digest) :=
    ⟨k, hstand ▸ run.follows j⟩
  obtain ⟨b', t, q, v, hc, hq, hh, _⟩ := dispatchFn_next hn
  obtain rfl : b = b' := Call.reserveAndDispatch.inj (hj.symm.trans hc)
  have hread : did (.requests (.get b.requestId)) (some q) ∈ history j log := by
    rw [hh]
    exact b.read_mem_granted
  obtain ⟨f, hf, hfj, hfc⟩ := mem_history.mp hread
  rw [hr] at hfc
  obtain ⟨l₁, l₂, rfl⟩ := List.append_of_mem hg
  have hx := run.exec_of_mem hg
  rw [hgc] at hx
  obtain ⟨q₀, _, _, _, hafter, _⟩ := request_applied hx
  have hrevoked : IsRevoked a.requestId g.after := ⟨_, hafter, rfl⟩
  rcases List.mem_append.mp hf with hf₁ | hf₂
  · obtain ⟨l₃, l₄, rfl⟩ := List.append_of_mem hf₁
    exact ⟨l₃, f, l₄, g, l₂, rfl, ⟨hfj, q, hq, hfc⟩, hgi, w, hgc⟩
  rcases List.mem_cons.mp hf₂ with rfl | hf₃
  · rw [hfc] at hgc
    cases hgc
  · -- The read would have come after the swap and found the request revoked.
    have hlater : IsRevoked a.requestId f.before := by
      refine run.linked.around.2.keeps_mem (fun e he hQ => ?_) hrevoked hf₃
      have hmem : e ∈ l₁ ++ g :: l₂ := List.mem_append_right _ (List.mem_cons_of_mem _ he)
      exact isRevoked_kept hcalls run a.requestId hmem hQ
    obtain ⟨q₁, hq₁, hst⟩ := hlater
    have hxf := run.exec_of_mem hf
    rw [hfc] at hxf
    have hread := request_read hxf
    rw [hq₁] at hread
    cases hread
    rw [hq] at hst
    cases hst

/-- A dispatcher and a revocation of the same request. -/
def overtakenCalls : Pair → Call
  | .first => .reserveAndDispatch (sampleReserve "r-1" "m-1" 1)
  | .second => .revoke (sampleRevoke "r-1" 2)

/-- The revocation runs from start to end between the dispatcher's status check and its swap. -/
def overtakenRun : Snapshot Pair Answer Stores fun i => (overtakenCalls i).Res :=
  played sampleRuntime overtakenCalls (afterApproval (Stores.empty.issued "m-1"))
    (steps .first 2 (.answering none) ++ steps .second 5 (.answering none) ++ steps .first 4 (.answering none))

/-- The revocation has returned `Ok`, no closure has run yet, and the next step runs one. -/
theorem invocation_after_revocation :
    SystemRun sampleRuntime noFaults overtakenCalls (afterApproval (Stores.empty.issued "m-1"))
        overtakenRun.log overtakenRun.state overtakenRun.pool ∧
      (∃ x, overtakenRun.pool .second = .ret (.ok x)) ∧
      invocations overtakenCalls overtakenRun.log = [] ∧
      ((invocations overtakenCalls
        (overtakenRun.turn (react sampleRuntime) .first (.answering (some 7))).log).map
          (·.requestId)) = ["r-1"] :=
  ⟨played_run _ _ _ _ _, ⟨_, rfl⟩, by decide +kernel, by decide +kernel⟩

theorem overtaken_onlyRevokes : OnlyRevokes overtakenCalls
  | .first => Or.inr ⟨_, rfl⟩
  | .second => Or.inl ⟨_, rfl⟩

theorem read_before_revocation_overtaken :
    ∃ l₁ f l₂ g l₃, overtakenRun.log = l₁ ++ f :: l₂ ++ g :: l₃ ∧
      (f.caller = .first ∧ ∃ q : ActionRequest, q.status = .approved ∧
        f.call = did (.requests (.get "r-1")) (some q)) ∧
      g.caller = .second ∧ ∃ w, g.call = did
        (.requests (.compareAndSwap "r-1" 2 .revoked)) (.applied w) :=
  read_before_revocation overtaken_onlyRevokes (played_run sampleRuntime noFaults _ _ _)
    (i := .second) (j := .first) rfl rfl rfl rfl rfl

end Piteka.Safety
