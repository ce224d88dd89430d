import Piteka.Postgres.MandateProjections
import Piteka.Application.Scenario

/-!
# Mandate swaps on Postgres

A swap that finds no row to update reads the row in a second statement, and other
callers may have written it in between. What it returns is then what the atomic
swap gives at that read, unless the row has meanwhile come to the expected
version: the atomic swap would be applied there, and this one reports a conflict
with the very version it expected. That read is the only one that goes wrong.
-/
namespace Piteka.Safety

set_option autoImplicit false

open Piteka.Interleaving Piteka.Storage Piteka.Postgres

abbrev MandatePath := List ((q : MandateStatement) × q.Answer)

/-- How a failed update is reported, from the row that the second statement finds. -/
def classified : Option (Int64 × String) → CasOutcome
  | some (version, _) => .conflict version
  | none => .missing

/-- How far a swap has come, by the statements that have been answered. -/
inductive SwapPath (m : String) (v : Int64) (state : String) :
    MandatePath → Program MandateStatement MandateStatement.Answer (StorageResult CasOutcome) → Prop
  | start (k : _) : SwapPath m v state [] (.call (.updateRow m v state) k)
  | failed (e : StorageError) :
      SwapPath m v state [⟨.updateRow m v state, .error e⟩] (.ret (.error e))
  | applied (w : Int64) :
      SwapPath m v state [⟨.updateRow m v state, .ok (some w)⟩] (.ret (.ok (.applied w)))
  | unmatched (k : _) :
      SwapPath m v state [⟨.updateRow m v state, .ok none⟩] (.call (.selectRow m) k)
  | unread (e : StorageError) :
      SwapPath m v state [⟨.updateRow m v state, .ok none⟩, ⟨.selectRow m, .error e⟩]
        (.ret (.error e))
  | read (row : Option (Int64 × String)) :
      SwapPath m v state [⟨.updateRow m v state, .ok none⟩, ⟨.selectRow m, .ok row⟩]
        (.ret (.ok (classified row)))

theorem swap_path {m state : String} {v : Int64} {h : MandatePath}
    {q : Program MandateStatement MandateStatement.Answer (StorageResult CasOutcome)}
    (hf : (PgMandateProjectionStore.compareAndSwap m v state).run.Follows h q) :
    SwapPath m v state h q := by
  rcases Program.follows_call.mp hf with ⟨rfl, rfl⟩ | ⟨x, t, rfl, ht⟩
  · exact .start _
  cases x with
  | error e =>
    obtain ⟨rfl, rfl⟩ := Program.follows_ret.mp ht
    exact .failed e
  | ok updated =>
    cases updated with
    | some w =>
      obtain ⟨rfl, rfl⟩ := Program.follows_ret.mp ht
      exact .applied w
    | none =>
      rcases Program.follows_call.mp ht with ⟨rfl, rfl⟩ | ⟨y, u, rfl, hu⟩
      · exact .unmatched _
      cases y with
      | error e =>
        obtain ⟨rfl, rfl⟩ := Program.follows_ret.mp hu
        exact .unread e
      | ok row =>
        cases row with
        | none =>
          obtain ⟨rfl, rfl⟩ := Program.follows_ret.mp hu
          exact .read none
        | some row =>
          obtain ⟨rfl, rfl⟩ := Program.follows_ret.mp hu
          exact .read (some row)

/-! ## The statements against the atomic swap -/

theorem memory_conflict_ne {s : InMemoryMandateProjectionStore} {m state : String} {v c : Int64}
    (h : (s.compareAndSwap m v state).1 = .ok (.conflict c)) : c ≠ v := by
  rcases s.swap_cases m v state with ⟨_, hs⟩ | ⟨row, _, hv, hs⟩ | ⟨row, t, _, _, hs, _⟩
  · rw [hs] at h
    cases h
  · rw [hs] at h
    cases h
    exact hv
  · rw [hs] at h
    cases h

theorem update_applied {t t' : MandateTable} {m state : String} {v w : Int64}
    (hx : SqlExec t (.updateRow m v state) (.ok (some w)) t') :
    t.toMemory.compareAndSwap m v state = (.ok (.applied w), t'.toMemory) := by
  rcases hx with hr | ⟨⟨_, he⟩, _⟩
  · unfold MandateTable.run at hr
    dsimp only at hr
    cases hrow : t.rows.get m with
    | none =>
      rw [hrow] at hr
      cases hr
    | some row =>
      rw [hrow] at hr
      dsimp only at hr
      by_cases hv : row.version ≠ v
      · rw [if_pos hv] at hr
        cases hr
      rw [if_neg hv] at hr
      by_cases hmax : row.version = Int64.maxValue
      · rw [if_pos hmax] at hr
        cases hr
      rw [if_neg hmax] at hr
      obtain ⟨hw, rfl⟩ := Prod.mk.inj hr
      obtain rfl := Option.some.inj (Except.ok.inj hw)
      unfold MandateTable.toMemory InMemoryMandateProjectionStore.compareAndSwap
      dsimp only
      rw [hrow]
      exact if_neg hv
  · cases he

theorem select_answered {t t' : MandateTable} {m : String} {row : Option (Int64 × String)}
    (hx : SqlExec t (.selectRow m) (.ok row) t') :
    row = (t.rows.get m).map fun x => (x.version, x.state) := by
  rcases hx with hr | ⟨⟨_, he⟩, _⟩
  · exact (Except.ok.inj (Prod.mk.inj hr).1).symm
  · cases he

/-- Where the row has another version, the atomic swap reports it the same way. -/
theorem memory_classified {t : MandateTable} {m : String} {v : Int64} (state : String)
    (hne : ∀ x ∈ t.rows.get m, x.version ≠ v) :
    (t.toMemory.compareAndSwap m v state).1 =
      .ok (classified ((t.rows.get m).map fun x => (x.version, x.state))) := by
  unfold MandateTable.toMemory InMemoryMandateProjectionStore.compareAndSwap
  cases hrow : t.rows.get m with
  | none => rfl
  | some x =>
    have hv : x.version ≠ v := hne x hrow
    simp only [if_pos hv, Option.map_some, classified]

/-! ## Runs -/

section
variable {ι : Type} [DecidableEq ι]

abbrev MandateEntry (ι : Type) := Entry ι MandateStatement.Answer MandateTable

/-- A swap that returns an outcome returns what the atomic swap gives at a moment of the call, and
never a conflict with the version it expected. -/
def Linearized (i : ι) (s₀ : MandateTable) (log : List (MandateEntry ι)) :
    (c : MandateMethod) → c.Result → Prop
  | .compareAndSwap m v state, .ok o =>
    Linearizable (fun t : MandateTable => (t.toMemory.compareAndSwap m v state).1) i s₀ log (.ok o) ∧
      ∀ c, o = .conflict c → c ≠ v
  | _, _ => True

/-- If the statement is the completed read of a swap, the row does not have the expected version. -/
def ReadsOther (e : MandateEntry ι) : MandateMethod → Prop
  | .compareAndSwap _ v _ => ∀ m row, e.call = ⟨.selectRow m, .ok row⟩ →
    ∀ x ∈ e.before.rows.get m, x.version ≠ v
  | _ => True

/-- A run of the given calls, each by a caller of its own. -/
abbrev MandateRun (calls : ι → MandateMethod) (s₀ : MandateTable) (log : List (MandateEntry ι))
    (s : MandateTable)
    (p : (i : ι) → Program MandateStatement MandateStatement.Answer (calls i).Result) : Prop :=
  Run SqlExec s₀ (fun i => (calls i).program) log s p

variable {calls : ι → MandateMethod} {s₀ s : MandateTable} {log : List (MandateEntry ι)}
  {p : (i : ι) → Program MandateStatement MandateStatement.Answer (calls i).Result}

theorem swap_linearized (run : MandateRun calls s₀ log s p) {i : ι} {m state : String} {v : Int64}
    {o : CasOutcome} (hf : SwapPath m v state (history i log) (.ret (.ok o)))
    (hreads : ∀ e ∈ log, e.caller = i → ReadsOther e (.compareAndSwap m v state)) :
    Linearized i s₀ log (.compareAndSwap m v state) (.ok o) := by
  have hlin : Linearizable (fun t : MandateTable => (t.toMemory.compareAndSwap m v state).1)
      i s₀ log (.ok o) := by
    generalize hh : history i log = h at hf
    cases hf with
    | applied w =>
      obtain ⟨e, he, rfl, _, hx⟩ := run.executed (hh ▸ List.mem_cons_self)
      exact ⟨e.before, run.linked.during he, congrArg Prod.fst (update_applied hx)⟩
    | read row =>
      obtain ⟨e, he, rfl, hc, hx⟩ :=
        run.executed (hh ▸ List.mem_cons_of_mem _ List.mem_cons_self)
      have hne := hreads e he rfl m row hc
      rw [select_answered hx]
      exact ⟨e.before, run.linked.during he, memory_classified state hne⟩
  refine ⟨hlin, fun c hc => ?_⟩
  obtain ⟨t, _, ht⟩ := hlin
  subst hc
  exact memory_conflict_ne ht

/-- The outcome of a swap that has read its row is what that read found. -/
theorem read_returned {m m' state : String} {v : Int64} {h : MandatePath}
    {q : Program MandateStatement MandateStatement.Answer (StorageResult CasOutcome)}
    {row : Option (Int64 × String)} (hf : SwapPath m v state h q)
    (hmem : ⟨.selectRow m', .ok row⟩ ∈ h) : q = .ret (.ok (classified row)) := by
  cases hf with
  | start => cases hmem
  | failed => simp at hmem
  | applied => simp at hmem
  | unmatched => simp at hmem
  | unread => simp at hmem
  | read row' =>
    simp only [List.mem_cons, List.not_mem_nil, or_false] at hmem
    rcases hmem with h | h
    · cases h
    · cases h
      rfl

/-- In every run the returned outcomes are those of an atomic swap exactly if no completed read of
a swap finds the row at the version that the swap expected. -/
theorem swaps_linearizable_iff (run : MandateRun calls s₀ log s p) :
    (∀ i r, p i = .ret r → Linearized i s₀ log (calls i) r) ↔
      ∀ e ∈ log, ReadsOther e (calls e.caller) := by
  constructor
  · intro hlin e he
    have hmem : e.call ∈ history e.caller log := mem_history.mpr ⟨e, he, rfl, rfl⟩
    have hx := run.exec_of_mem he
    have hf := run.follows e.caller
    have hl := hlin e.caller
    revert hf hl
    generalize p e.caller = q
    revert q
    generalize calls e.caller = c
    intro q hf hl
    cases c with
    | insert => trivial
    | get => trivial
    | compareAndSwap m v state =>
      intro m' row hc x hrow hv
      rw [hc] at hmem hx
      have hq := read_returned (swap_path hf) hmem
      have hrow' : row = some (x.version, x.state) := by
        rw [select_answered hx, Option.mem_def.mp hrow, Option.map_some]
      exact (hl _ hq).2 x.version (by rw [hrow', classified]) hv
  · intro hreads i r hp
    have hf := run.follows i
    have hr : ∀ e ∈ log, e.caller = i → ReadsOther e (calls i) := by
      rintro e he rfl
      exact hreads e he
    rw [hp] at hf
    clear hp
    revert r
    generalize calls i = c at hr
    intro r hf
    cases c with
    | insert => trivial
    | get => trivial
    | compareAndSwap m v state =>
      cases r with
      | error e => trivial
      | ok o => exact swap_linearized run (swap_path hf) hr

end

/-! ## A swap overtaken by the issuance of its mandate -/

def lateIssueCalls : Application.Pair → MandateMethod
  | .first => .compareAndSwap "m-1" 1 "reserved"
  | .second => .insert "m-1" "issued"

def lateIssueStart : Snapshot Application.Pair MandateStatement.Answer MandateTable
    fun i => (lateIssueCalls i).Result :=
  ⟨[], ⟨.empty⟩, fun i => (lateIssueCalls i).program⟩

/-- The update finds no row, the row is inserted, the read finds it at version 1. -/
def lateIssue : Snapshot Application.Pair MandateStatement.Answer MandateTable
    fun i => (lateIssueCalls i).Result :=
  lateIssueStart.play (fun _ : Unit => MandateTable.run) [(.first, ()), (.second, ()), (.first, ())]

theorem late_issue_run :
    MandateRun lateIssueCalls ⟨.empty⟩ lateIssue.log lateIssue.state lateIssue.pool :=
  play_run (c := lateIssueStart) (fun _ => sql_sound) .start _

theorem late_issue_conflict : lateIssue.pool .first = .ret (.ok (.conflict 1)) := rfl

theorem conflict_with_expected :
    ¬ ∀ (calls : Application.Pair → MandateMethod) (s₀ : MandateTable)
      (log : List (MandateEntry Application.Pair)) (s : MandateTable)
      (p : (i : Application.Pair) →
        Program MandateStatement MandateStatement.Answer (calls i).Result),
      MandateRun calls s₀ log s p → ∀ i r, p i = .ret r → Linearized i s₀ log (calls i) r := by
  intro h
  have hlin := h _ _ _ _ _ late_issue_run .first _ late_issue_conflict
  exact hlin.2 1 rfl rfl

theorem late_issue_read :
    ¬ ∀ e ∈ lateIssue.log, ReadsOther e (lateIssueCalls e.caller) := by
  intro h
  have hlin := (swaps_linearizable_iff late_issue_run).mpr h .first _ late_issue_conflict
  exact hlin.2 1 rfl rfl

end Piteka.Safety
