import Piteka.Safety.SingleDispatch
import Piteka.Safety.Swaps

/-!
# The dispatch boundary

A dispatcher swaps the mandate a second time once the provider has answered, with
the version that follows its own reservation. Only a reservation that is applied
between these two swaps can take that version away: the other dispatchers never
reach a completion. In a run without such a reservation every completion swap is
applied and leaves the mandate in the state that belongs to the provider's answer.
-/
namespace Piteka.Safety

set_option autoImplicit false

open Piteka.Interleaving Piteka.Interleaving.Program Piteka.Storage Piteka.Application

variable {ι : Type} {rt : Runtime} {faults : StoreCall → Prop} {calls : ι → Call}
  {s₀ s : Stores} {log : List (Event ι)} {p : (i : ι) → Program PortCall Answer (calls i).Res}
  {m : String}

/-- Every caller dispatches the mandate `m`. -/
def OnlyDispatchers (m : String) (calls : ι → Call) : Prop :=
  ∀ i, ∃ a, calls i = .reserveAndDispatch a ∧ a.mandateIdHex = m

/-- The entry asks to swap the mandate `m` after a provider call. -/
def Completing (m : String) (e : Event ι) : Prop :=
  ∃ x ∈ mandateSwap e, x.1 = m ∧ x.2.2 ≠ "reserved"

instance (m : String) (e : Event ι) : Decidable (Completing m e) :=
  inferInstanceAs (Decidable (∃ x ∈ _, _))

/-- No reservation presents the stored version between the reservation of a caller and its
completion swap. -/
def Undisturbed (m : String) (log : List (Event ι)) : Prop :=
  log.Triplewise fun e g f =>
    e.caller = f.caller → Presents m "reserved" e → Completing m f → ¬ Presents m "reserved" g

instance [DecidableEq ι] (m : String) (log : List (Event ι)) : Decidable (Undisturbed m log) :=
  inferInstanceAs (Decidable (log.Triplewise _))

/-- What the provider closure returned in an entry. -/
def providerAnswer (e : Event ι) : Option (Option UInt64) :=
  match e.call with
  | ⟨.dispatchFn _ _, d⟩ => some d
  | _ => none

/-- The state that belongs to an answer of the provider. -/
def closingState (d : Option UInt64) : String := if d.isSome then "consumed" else "quarantined"

/-- The call has failed with `AlreadyConsumed`. -/
def FailedConsumed : (c : Call) → Program PortCall Answer c.Res → Prop
  | .reserveAndDispatch _, .ret (.error (.alreadyConsumed _)) => True
  | _, _ => False

/-- The call has returned the outcome `DispatchFailed`. -/
def ReportedFailed : (c : Call) → Program PortCall Answer c.Res → Prop
  | .reserveAndDispatch _, .ret (.ok (.dispatchFailed _ _ _)) => True
  | _, _ => False

/-- The boundary in one run: every completion swap of a caller whose provider closure answered
is applied, with the state that belongs to the answer, and the results say so. -/
structure BoundaryKept (m : String) (calls : ι → Call) (log : List (Event ι))
    (p : (i : ι) → Program PortCall Answer (calls i).Res) : Prop where
  closed : ∀ c ∈ log, ∀ d, providerAnswer c = some d → ∀ f ∈ log, f.caller = c.caller →
    Completing m f →
    appliedState m f = some (closingState d) ∧ InState m (closingState d) f.after
  not_consumed : ∀ i, ¬ FailedConsumed (calls i) (p i)
  quarantined : ∀ i, ReportedFailed (calls i) (p i) →
    ∃ f ∈ log, f.caller = i ∧ appliedState m f = some "quarantined"

/-- A completion of `m` by a dispatcher: its own reservation, insertion and provider call. -/
structure Completion (rt : Runtime) (m : String) (a : ReserveArgs) (h : Path) (v : Int64)
    (st : String) (d : Option UInt64) : Prop where
  mandate : a.mandateIdHex = m
  version : v = a.expectedMandateVersion + 1
  state : st = closingState d
  reserved : ∃ w, did (.mandates (.compareAndSwap m a.expectedMandateVersion "reserved"))
    (.applied w) ∈ h
  inserted : ∃ x : ExecutionAttempt, x.attemptIdHex = attemptIdOf m ∧
    did (.attempts (.insert x)) () ∈ h
  answered : ∀ k g d', (⟨.dispatchFn k g, d'⟩ : Answered) ∈ h → d' = d
  first : ∀ v' st' r, (⟨.store (.mandates (.compareAndSwap m v' st')), r⟩ : Answered) ∈ h →
    st' = "reserved"

/-- The only swap before the provider call is the reservation. -/
theorem granted_swap {a : ReserveArgs} {t : UInt64} {q : ActionRequest} {v w : Int64} {st : String}
    {r : StorageResult CasOutcome}
    (hmem : (⟨.store (.mandates (.compareAndSwap m w st)), r⟩ : Answered) ∈ a.granted t q v) :
    st = "reserved" := by
  simp [ReserveArgs.granted, ReserveArgs.swapped] at hmem
  exact hmem.1.2.2

theorem completion_of_invoked {a : ReserveArgs} {t : UInt64} {q : ActionRequest} {v : Int64}
    {d : Option UInt64} {l : Path}
    (hl : ∀ c ∈ l, (∀ x, c.1 ≠ .store (.mandates x)) ∧ ∀ k g, c.1 ≠ .dispatchFn k g) :
    Completion rt a.mandateIdHex a (a.invoked rt t q v d ++ l) (a.expectedMandateVersion + 1)
      (closingState d) d where
  mandate := rfl
  version := rfl
  state := rfl
  reserved :=
    ⟨v, List.mem_append_left _ (List.mem_append_left _ a.reserved_mem_granted)⟩
  inserted :=
    ⟨a.attempt t.toInt64, rfl, List.mem_append_left _ (List.mem_append_left _ a.inserted_mem_granted)⟩
  answered := by
    intro k g d' hmem
    rcases List.mem_append.mp hmem with h | h
    · simp only [ReserveArgs.invoked, ReserveArgs.granted, ReserveArgs.swapped,
        ReserveArgs.dispatchCall] at h
      simp at h
      exact h.2
    · exact absurd rfl ((hl _ h).2 k g)
  first := by
    intro v' st' r hmem
    rcases List.mem_append.mp hmem with h | h
    · rcases List.mem_append.mp h with h | h
      · exact granted_swap h
      · simp [ReserveArgs.dispatchCall] at h
    · exact absurd rfl ((hl _ h).1 _)

theorem completion_of_swap {c : Call} {h : Path} {v : Int64} {st : String}
    (hc : ∃ a, c = .reserveAndDispatch a ∧ a.mandateIdHex = m)
    (hs : MandateSwap rt c h m v st) (hst : st ≠ "reserved") :
    ∃ a d, c = .reserveAndDispatch a ∧ Completion rt m a h v st d := by
  obtain ⟨a, rfl, rfl⟩ := hc
  generalize hm : a.mandateIdHex = m at hs
  cases hs with
  | reserve hc t q hq => exact absurd rfl hst
  | consume hc t d hd =>
    cases hc with
    | dispatched _ t' q hq w d' =>
      obtain rfl : d' = some d := by simpa using hd
      exact ⟨a, some d, rfl, completion_of_invoked (by simp)⟩
  | quarantine hc t hd =>
    cases hc with
    | dispatched _ t' q hq w d' =>
      obtain rfl : d' = none := by simpa using hd
      exact ⟨a, none, rfl, completion_of_invoked (by simp)⟩

theorem providerAnswer_eq_some {c : Event ι} {d : Option UInt64} (h : providerAnswer c = some d) :
    ∃ k g, c.call = ⟨.dispatchFn k g, d⟩ := by
  unfold providerAnswer at h
  split at h
  · next k g d' hc =>
    cases h
    exact ⟨k, g, hc⟩
  · cases h

/-- A call that fails with `AlreadyConsumed` has met a conflict at its swap to `consumed`. -/
theorem conflict_of_failedConsumed {c : Call} {q : Program PortCall Answer c.Res} {h : Path}
    (hc : ∃ a, c = .reserveAndDispatch a ∧ a.mandateIdHex = m) (hq : FailedConsumed c q)
    (hf : (c.program rt).Follows h q) :
    ∃ v w, did (.mandates (.compareAndSwap m v "consumed")) (.conflict w) ∈ h := by
  obtain ⟨a, rfl, rfl⟩ := hc
  rcases q with ⟨e | x⟩ | _
  · cases e with
    | alreadyConsumed y =>
      generalize hres : (Except.error (.alreadyConsumed y) : Except DispatchError _) = r at hf
      cases reserveAndDispatch_returns hf with
      | refused hr _ => cases hr <;> cases hres
      | completed => cases hres
      | failed t q hq v d hr =>
        cases hres
        generalize hres : (Except.error (.alreadyConsumed y) : Except DispatchError Unit) = r at hr
        cases hr with
        | alreadyConsumed t' d' hd w =>
          refine ⟨a.expectedMandateVersion + 1, w, List.mem_append_right _ ?_⟩
          simp [CompleteArgs.acceptedPath, ReserveArgs.completion]
        | quarantined t' hd w =>
          rw [ReserveArgs.completion_reported] at hres
          cases hres
        | swallowed t' hd w =>
          rw [ReserveArgs.completion_reported] at hres
          cases hres
        | failed => cases hres
        | consumed => cases hres
        | consumedMissing => cases hres
        | quarantineMissing => cases hres
    | _ => exact hq.elim
  · exact hq.elim
  · exact hq.elim

/-- A completion of an ambiguous outcome that succeeds has passed its swap. -/
theorem quarantine_of_completed {c : CompleteArgs} {h : Path} {x : Unit}
    (hr : CompleteResult c h (.ok x)) (hd : c.acceptedDeployment = none) :
    ∃ o, did (.mandates (.compareAndSwap c.mandateIdHex c.expectedMandateVersion "quarantined")) o
      ∈ h := by
  generalize hres : (Except.ok x : Except DispatchError Unit) = r at hr
  cases hr with
  | consumed t d hd' v =>
    rw [hd] at hd'
    cases hd'
  | quarantined t _ v => exact ⟨.applied v, by simp [CompleteArgs.ambiguousPath]⟩
  | swallowed t _ v => exact ⟨.conflict v, by simp [CompleteArgs.ambiguousPath]⟩
  | failed => cases hres
  | alreadyConsumed => cases hres
  | consumedMissing => cases hres
  | quarantineMissing => cases hres

/-- A call that reports `DispatchFailed` has passed its swap to `quarantined`. -/
theorem swap_of_reportedFailed {c : Call} {q : Program PortCall Answer c.Res} {h : Path}
    (hc : ∃ a, c = .reserveAndDispatch a ∧ a.mandateIdHex = m) (hq : ReportedFailed c q)
    (hf : (c.program rt).Follows h q) :
    ∃ o v, did (.mandates (.compareAndSwap m v "quarantined")) o ∈ h := by
  obtain ⟨a, rfl, rfl⟩ := hc
  rcases q with ⟨e | x⟩ | _
  · exact hq.elim
  · cases x with
    | dispatchFailed m' k e =>
      generalize hres : (Except.ok (.dispatchFailed m' k e) :
        Except DispatchError DispatchOutcome) = r at hf
      cases reserveAndDispatch_returns hf with
      | refused hr _ => cases hr <;> cases hres
      | failed => cases hres
      | completed t q hq v d hr =>
        cases d with
        | some d => cases hres
        | none =>
          have hmem := quarantine_of_completed hr (ReserveArgs.completion_accepted a none)
          exact hmem.imp fun o ho => ⟨a.expectedMandateVersion + 1, List.mem_append_right _ ho⟩
    | _ => exact hq.elim
  · exact hq.elim

/-- A caller at a completion swap of `m` comes from its own reservation of `m`. -/
theorem completion_next (hcalls : OnlyDispatchers m calls) {i : ι} {h : Path} {op : PortCall}
    {x : Answer op} {s s' : Stores} (hn : (pool rt calls i).Next h op)
    (hf : Completing m ⟨i, ⟨op, x⟩, s, s'⟩) :
    ∃ a v st d, calls i = .reserveAndDispatch a ∧
      op = .store (.mandates (.compareAndSwap m v st)) ∧ Completion rt m a h v st d := by
  obtain ⟨⟨_, v, st⟩, hsw, rfl, hst⟩ := hf
  obtain rfl : op = _ := mandateSwap_eq_some hsw
  obtain ⟨a, d, hc, hcomp⟩ := completion_of_swap (hcalls i) (mandate_swap_next hn) hst
  exact ⟨a, v, st, d, hc, rfl, hcomp⟩

section
variable [DecidableEq ι]

/-- The completion swap of a mandate is asked for at most once: its caller has inserted the
attempt, and an attempt is inserted once. -/
theorem completing_once (hcalls : OnlyDispatchers m calls)
    (run : SystemRun rt faults calls s₀ log s p) :
    log.Pairwise fun g f => Completing m g → ¬ Completing m f := by
  refine run.invariant (I := fun log _ => log.Pairwise _) List.Pairwise.nil ?_
  intro log s p i op x s' run ih hn _
  refine List.pairwise_append.mpr ⟨ih, List.pairwise_singleton _ _, ?_⟩
  intro g hg f hf hgc hfc
  obtain rfl := List.mem_singleton.mp hf
  obtain ⟨l₁, l₂, rfl⟩ := List.append_of_mem hg
  obtain ⟨_, w, st', d', _, _, hcg⟩ := completion_next hcalls run.at_entry.2 hgc
  obtain ⟨_, v, st, d, _, _, hcf⟩ := completion_next hcalls hn hfc
  obtain ⟨y, hy, hmy⟩ := hcg.inserted
  obtain ⟨z, hz, hmz⟩ := hcf.inserted
  have hi : g.caller = i := inserter_unique run hy hz (mem_history_append hmy _) hmz
  obtain ⟨⟨_, w', st''⟩, hsw, rfl, hst⟩ := hgc
  obtain ⟨r, hcall⟩ := answer_mem_history hg (mandateSwap_eq_some hsw)
  rw [hi] at hcall
  exact hst (hcf.first w' st'' r hcall)

/-- In an undisturbed run a completion swap presents the stored version. -/
theorem completion_presents (hcalls : OnlyDispatchers m calls) {l : List (Event ι)} {f : Event ι}
    {l₃ : List (Event ι)} (run : SystemRun rt faults calls s₀ (l ++ f :: l₃) s p)
    (hquiet : Undisturbed m (l ++ f :: l₃)) (hf : Completing m f) :
    ∃ a st d, calls f.caller = .reserveAndDispatch a ∧
      Completion rt m a (history f.caller l) (a.expectedMandateVersion + 1) st d ∧
      Presents m st f := by
  obtain ⟨a, v, st, d, hc, hop, hcomp⟩ := completion_next hcalls run.at_entry.2 hf
  obtain rfl := hcomp.version
  obtain ⟨w, hres⟩ := hcomp.reserved
  obtain ⟨⟨p', hrun⟩, _⟩ := run.at_entry
  obtain ⟨e, he, hi, hce, hx⟩ := hrun.executed hres
  obtain ⟨l₁, l₂, rfl⟩ := List.append_of_mem he
  obtain ⟨q, hq, hv, _, hafter⟩ := mandate_applied hx
  have hpres : Presents m "reserved" e := ⟨q, hq, by rw [mandateSwap, hce, hv]⟩
  have hstay : ∀ g ∈ l₂, g.before.mandate m = some (q.swapped "reserved") →
      g.after.mandate m = some (q.swapped "reserved") := by
    intro g hg hgb
    obtain ⟨l₄, l₅, rfl⟩ := List.append_of_mem hg
    have hnot : ¬ Presents m "reserved" g := triplewise_between hquiet hg hi hpres hf
    have hrun : SystemRun rt faults calls s₀ ((l₁ ++ e :: l₄) ++ g :: (l₅ ++ f :: l₃)) s p := by
      simpa using run
    rcases mandate_entry hrun m with hs | ⟨q', st', hb, ha, hcg, hsw⟩
    · exact hs.trans hgb
    · have hst' : st' ≠ "reserved" := by
        rintro rfl
        exact hnot (presents_of_call hcg hb)
      have hgc : Completing m g := ⟨(m, q'.version, st'), by rw [mandateSwap, hcg]; rfl, rfl, hst'⟩
      have honce := completing_once hcalls run
      have hgf := (List.pairwise_append.mp honce).2.2 g
        (List.mem_append_right _ (List.mem_cons_of_mem _ hg)) f List.mem_cons_self
      exact absurd hf (hgf hgc)
  have hlink := run.linked.around.1.around.2
  have hbefore : f.before.mandate m = some (q.swapped "reserved") :=
    hlink.keeps (Q := fun s => s.mandate m = some (q.swapped "reserved")) hstay hafter
  refine ⟨a, st, d, hc, hcomp, q.swapped "reserved", hbefore, ?_⟩
  rw [mandateSwap, hop, ← hv]
  rfl

/-- In an undisturbed run without faults a completion swap is applied. -/
theorem completion_applied (hcalls : OnlyDispatchers m calls) {l₁ l₂ : List (Event ι)}
    {f : Event ι} (run : SystemRun rt noFaults calls s₀ (l₁ ++ f :: l₂) s p)
    (hquiet : Undisturbed m (l₁ ++ f :: l₂)) (hf : Completing m f) :
    ∃ a w st d, Completion rt m a (history f.caller l₁) (a.expectedMandateVersion + 1) st d ∧
      f.call = did (.mandates (.compareAndSwap m w st)) (.applied (w + 1)) ∧
      InState m st f.after := by
  obtain ⟨a, st, d, _, hcomp, hpres⟩ := completion_presents hcalls run hquiet hf
  have hx := run.exec_of_mem (List.mem_append_right _ List.mem_cons_self)
  obtain ⟨q, _, hcall, hafter⟩ := applied_of_presents hx hpres
  exact ⟨a, q.version, st, d, hcomp, hcall, _, hafter, rfl⟩

/-- What a caller's history says of a completion swap, once it is in the log. -/
theorem completion_logged (hcalls : OnlyDispatchers m calls)
    (run : SystemRun rt noFaults calls s₀ log s p) (hquiet : Undisturbed m log) {i : ι} {v : Int64}
    {st : String} {o : CasOutcome} (hst : st ≠ "reserved")
    (hmem : did (.mandates (.compareAndSwap m v st)) o ∈ history i log) :
    o = .applied (v + 1) ∧ ∃ f ∈ log, f.caller = i ∧ appliedState m f = some st := by
  obtain ⟨f, hf, hi, hcall⟩ := mem_history.mp hmem
  have hfc : Completing m f := ⟨(m, v, st), by rw [mandateSwap, hcall]; rfl, rfl, hst⟩
  obtain ⟨l₁, l₂, rfl⟩ := List.append_of_mem hf
  obtain ⟨a, w, st', d, _, hcall', _⟩ := completion_applied hcalls run hquiet hfc
  rw [hcall] at hcall'
  cases hcall'
  exact ⟨rfl, f, hf, hi, appliedState_of_call hcall⟩

/-- A provider answer stands before the completion swap of its caller. -/
theorem answered_before (hcalls : OnlyDispatchers m calls) {l₁ l₂ : List (Event ι)}
    {c f : Event ι} (run : SystemRun rt faults calls s₀ (l₁ ++ f :: l₂) s p)
    (hf : Completing m f) (hc : c ∈ l₁ ++ f :: l₂) (hi : f.caller = c.caller)
    {k : String} {g : Vector UInt8 32} {d : Option UInt64} (hcall : c.call = ⟨.dispatchFn k g, d⟩) :
    c.call ∈ history f.caller l₁ := by
  rcases List.mem_append.mp hc with hc | hc
  · exact mem_history.mpr ⟨c, hc, hi.symm, rfl⟩
  rcases List.mem_cons.mp hc with rfl | hc
  · obtain ⟨x, hx, _⟩ := hf
    rw [mandateSwap, hcall] at hx
    cases hx
  · obtain ⟨l₃, l₄, rfl⟩ := List.append_of_mem hc
    have hrun : SystemRun rt faults calls s₀ ((l₁ ++ f :: l₃) ++ c :: l₄) s p := by
      simpa using run
    have hn := hrun.at_entry.2
    rw [hcall] at hn
    obtain ⟨a, t, q, w, _, _, hh, _⟩ := dispatchFn_next hn
    obtain ⟨⟨_, v, st⟩, hsw, rfl, hst⟩ := hf
    have hmem : f ∈ l₁ ++ f :: l₃ := List.mem_append_right _ List.mem_cons_self
    obtain ⟨r, hfh⟩ := answer_mem_history hmem (mandateSwap_eq_some hsw)
    rw [hi, hh] at hfh
    exact absurd (granted_swap hfh) hst

/-- In a run without faults in which no reservation comes between a dispatcher's reservation and
its completion swap, the provider call always closes the mandate. -/
theorem boundary_kept (hcalls : OnlyDispatchers m calls)
    (run : SystemRun rt noFaults calls s₀ log s p) (hquiet : Undisturbed m log) :
    BoundaryKept m calls log p where
  closed := by
    intro c hc d hd f hf hi hfc
    obtain ⟨k, g, hcall⟩ := providerAnswer_eq_some hd
    obtain ⟨l₁, l₂, rfl⟩ := List.append_of_mem hf
    have hbefore := answered_before hcalls run hfc hc hi hcall
    obtain ⟨a, w, st, d', hcomp, hfcall, hafter⟩ := completion_applied hcalls run hquiet hfc
    rw [hcall] at hbefore
    obtain rfl := hcomp.answered k g d hbefore
    obtain rfl := hcomp.state
    exact ⟨appliedState_of_call hfcall, hafter⟩
  not_consumed := by
    intro i hi
    obtain ⟨v, w, hmem⟩ := conflict_of_failedConsumed (hcalls i) hi (run.follows i)
    obtain ⟨ho, _⟩ := completion_logged hcalls run hquiet (by decide) hmem
    cases ho
  quarantined := by
    intro i hi
    obtain ⟨o, v, hmem⟩ := swap_of_reportedFailed (hcalls i) hi (run.follows i)
    exact (completion_logged hcalls run hquiet (by decide) hmem).2

/-! ## Two dispatchers -/

/-- The second dispatcher, with `calls .second`, comes between the first one's provider call and
its completion. -/
def boundaryRun (calls : Pair → Call) (d : Option UInt64) :
    Snapshot Pair Answer Stores fun i => (calls i).Res :=
  played sampleRuntime calls (afterApproval (Stores.empty.issued "m-1"))
    (steps .first 7 (.answering d) ++ steps .second 4 (.answering none) ++ steps .first 5 (.answering none))

/-- With the version guessed, the second dispatcher takes the mandate away from the first: an
accepted deployment ends in `AlreadyConsumed`, and a failed one is reported as `DispatchFailed`,
while the mandate stays reserved. -/
theorem reservation_overtakes_completion :
    OnlyDispatchers "m-1" racingCalls ∧
      (∀ d, SystemRun sampleRuntime noFaults racingCalls
        (afterApproval (Stores.empty.issued "m-1")) (boundaryRun racingCalls d).log
        (boundaryRun racingCalls d).state (boundaryRun racingCalls d).pool) ∧
      (boundaryRun racingCalls (some 7)).pool .first = .ret (.error (.alreadyConsumed "m-1")) ∧
      InState "m-1" "reserved" (boundaryRun racingCalls (some 7)).state ∧
      (boundaryRun racingCalls none).pool .first =
        .ret (.ok (.dispatchFailed "m-1" "att-m-1" "provider rejected or timeout")) ∧
      transitions "m-1" (boundaryRun racingCalls none).log = ["reserved", "reserved"] ∧
      ∀ d ∈ [some 7, none], ¬ BoundaryKept "m-1" racingCalls (boundaryRun racingCalls d).log
        (boundaryRun racingCalls d).pool := by
  have hconsumed : (boundaryRun racingCalls (some 7)).pool .first =
      .ret (.error (.alreadyConsumed "m-1")) := rfl
  have hfailed : (boundaryRun racingCalls none).pool .first =
      .ret (.ok (.dispatchFailed "m-1" "att-m-1" "provider rejected or timeout")) := rfl
  have htrans : transitions "m-1" (boundaryRun racingCalls none).log =
      ["reserved", "reserved"] := by decide +kernel
  refine ⟨fun | .first => ⟨_, rfl, rfl⟩ | .second => ⟨_, rfl, rfl⟩, fun d => played_run _ _ _ _ _, hconsumed,
    by decide +kernel, hfailed, htrans, ?_⟩
  intro d hd hkept
  rcases List.mem_pair.mp hd with rfl | rfl
  · refine hkept.not_consumed .first ?_
    rw [hconsumed]
    trivial
  · obtain ⟨f, hf, _, hst⟩ := hkept.quarantined .first (by rw [hfailed]; trivial)
    have hmem : "quarantined" ∈ transitions "m-1" (boundaryRun racingCalls none).log :=
      List.mem_filterMap.mpr ⟨f, hf, hst⟩
    rw [htrans] at hmem
    exact absurd hmem (by decide)

/-- Two dispatchers that both present the version of the issue. -/
def staleCalls : Pair → Call := fun _ => .reserveAndDispatch (sampleReserve "r-1" "m-1" 1)

theorem boundary_kept_stale :
    BoundaryKept "m-1" staleCalls (boundaryRun staleCalls (some 7)).log
      (boundaryRun staleCalls (some 7)).pool :=
  boundary_kept (fun _ => ⟨_, rfl, rfl⟩) (played_run sampleRuntime noFaults _ _ _)
    (by decide +kernel)

end

end Piteka.Safety
