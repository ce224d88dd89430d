import Piteka.Interleaving.Program
import Mathlib.Logic.Function.Basic

/-!
# Interleaved runs

Any number of callers share one state. A step lets one caller make its next
atomic call; nothing restricts the order in which the callers step. The log of a
run keeps for every step the caller, the answered call and the states around it.
A caller's own part of the log is a path through its program (`Run.follows`), so
what a caller does next is a fact about its program alone, whatever the others
do. Invariants of the shared state and the log follow by induction on the run.
-/
namespace Piteka.Interleaving

set_option autoImplicit false

structure Entry (ι : Type) {Op : Type} (Ans : Op → Type) (σ : Type) where
  caller : ι
  call : (op : Op) × Ans op
  before : σ
  after : σ

variable {ι Op σ : Type} {Ans : Op → Type} {Res : ι → Type}

/-- The answered calls of one caller, oldest first. -/
def history [DecidableEq ι] (i : ι) (log : List (Entry ι Ans σ)) : List ((op : Op) × Ans op) :=
  log.filterMap fun e => if e.caller = i then some e.call else none

theorem mem_history [DecidableEq ι] {i : ι} {log : List (Entry ι Ans σ)}
    {c : (op : Op) × Ans op} :
    c ∈ history i log ↔ ∃ e ∈ log, e.caller = i ∧ e.call = c := by
  simp only [history, List.mem_filterMap, Option.ite_none_right_eq_some, Option.some.injEq]

theorem mem_history_append [DecidableEq ι] {i : ι} {l₁ : List (Entry ι Ans σ)}
    {c : (op : Op) × Ans op} (hc : c ∈ history i l₁) (l₂ : List (Entry ι Ans σ)) :
    c ∈ history i (l₁ ++ l₂) := by
  obtain ⟨e, he, hi, hcall⟩ := mem_history.mp hc
  exact mem_history.mpr ⟨e, List.mem_append_left _ he, hi, hcall⟩

/-- The call of an entry, under the operation that is known of it. -/
theorem answer_mem_history [DecidableEq ι] {log : List (Entry ι Ans σ)} {e : Entry ι Ans σ}
    (he : e ∈ log) {op : Op} (hop : e.call.1 = op) :
    ∃ a, (⟨op, a⟩ : (op : Op) × Ans op) ∈ history e.caller log := by
  subst hop
  exact ⟨e.call.2, mem_history.mpr ⟨e, he, rfl, rfl⟩⟩

theorem history_snoc_self [DecidableEq ι] (log : List (Entry ι Ans σ)) (e : Entry ι Ans σ) :
    history e.caller (log ++ [e]) = history e.caller log ++ [e.call] := by
  simp [history]

theorem history_snoc_ne [DecidableEq ι] {i : ι} (log : List (Entry ι Ans σ))
    {e : Entry ι Ans σ} (hi : e.caller ≠ i) : history i (log ++ [e]) = history i log := by
  simp [history, hi]

/-- The entry of a caller's call, among the entries before it and after it. -/
theorem history_split [DecidableEq ι] {i : ι} {log : List (Entry ι Ans σ)}
    {h₁ h₂ : List ((op : Op) × Ans op)} {c : (op : Op) × Ans op} (h : history i log = h₁ ++ c :: h₂) :
    ∃ l₁ e l₂, log = l₁ ++ e :: l₂ ∧ e.caller = i ∧ e.call = c ∧ history i l₁ = h₁ ∧ history i l₂ = h₂ := by
  obtain ⟨l₁, l', rfl, h1, hrest⟩ := List.filterMap_eq_append_iff.mp h
  obtain ⟨l₃, e, l₂, rfl, hnone, he, h2⟩ := List.filterMap_eq_cons_iff.mp hrest
  obtain ⟨hi, hcall⟩ := Option.ite_none_right_eq_some.mp he
  refine ⟨l₁ ++ l₃, e, l₂, (List.append_assoc ..).symm, hi, Option.some.inj hcall, ?_, h2⟩
  rw [history, List.filterMap_append, h1, List.filterMap_eq_nil_iff.mpr hnone, List.append_nil]

/-- Runs from the state `s₀` with the callers `p₀`: the log, the state reached and
what is left of each caller. -/
inductive Run [DecidableEq ι] (exec : σ → (op : Op) → Ans op → σ → Prop) (s₀ : σ)
    (p₀ : (i : ι) → Program Op Ans (Res i)) :
    List (Entry ι Ans σ) → σ → ((i : ι) → Program Op Ans (Res i)) → Prop
  | start : Run exec s₀ p₀ [] s₀ p₀
  | step {log : List (Entry ι Ans σ)} {s s' : σ} {p : (i : ι) → Program Op Ans (Res i)}
      {i : ι} {op : Op} {k : Ans op → Program Op Ans (Res i)} {a : Ans op} :
      Run exec s₀ p₀ log s p → p i = .call op k → exec s op a s' →
      Run exec s₀ p₀ (log ++ [⟨i, ⟨op, a⟩, s, s'⟩]) s' (Function.update p i (k a))

section
variable [DecidableEq ι] {exec : σ → (op : Op) → Ans op → σ → Prop} {s₀ s : σ}
  {p₀ p : (i : ι) → Program Op Ans (Res i)} {log : List (Entry ι Ans σ)}

/-- A caller's own calls are a path through its program. -/
theorem Run.follows (run : Run exec s₀ p₀ log s p) (i : ι) :
    (p₀ i).Follows (history i log) (p i) := by
  induction run with
  | start => exact .here _
  | @step log s s' p j op k a _ hp _ ih =>
    by_cases hj : j = i
    · subst hj
      have hf := ih
      rw [hp] at hf
      have hh := history_snoc_self log ⟨j, ⟨op, a⟩, s, s'⟩
      dsimp only at hh
      rw [hh, Function.update_self]
      exact hf.snoc a
    · rw [history_snoc_ne log hj, Function.update_of_ne (Ne.symm hj)]
      exact ih

/-- The induction of a run: what is left of the stepping caller is reached by its
own history, so a proof may use which calls its program makes at that point. -/
theorem Run.invariant {I : List (Entry ι Ans σ) → σ → Prop}
    (run : Run exec s₀ p₀ log s p) (start : I [] s₀)
    (step : ∀ (log : List (Entry ι Ans σ)) (s : σ) (p : (i : ι) → Program Op Ans (Res i))
      (i : ι) (op : Op) (a : Ans op) (s' : σ),
      Run exec s₀ p₀ log s p → I log s →
      (p₀ i).Next (history i log) op → exec s op a s' →
      I (log ++ [⟨i, ⟨op, a⟩, s, s'⟩]) s') : I log s := by
  induction run with
  | start => exact start
  | step run hp hx ih =>
    have hf := run.follows
    exact step _ _ _ _ _ _ _ run ih ⟨_, hp ▸ hf _⟩ hx

/-- A caller that has returned has made exactly the calls of a complete path. -/
theorem Run.returns (run : Run exec s₀ p₀ log s p) {i : ι} {r : Res i} (hp : p i = .ret r) :
    (p₀ i).Returns (history i log) r := by
  have hf := run.follows i
  rwa [hp] at hf

/-- A caller that is left to itself ends a run as its evaluation says. -/
theorem Run.finish (run : Run exec s₀ p₀ log s p) {i : ι} {r : Res i} {s' : σ}
    (he : (p i).Eval exec s r s') : ∃ log' p', Run exec s₀ p₀ log' s' p' ∧ p' i = .ret r := by
  generalize hq : p i = q at he
  induction q generalizing log s p with
  | ret a =>
    obtain ⟨rfl, rfl⟩ := he
    exact ⟨log, p, run, hq⟩
  | call op k ih =>
    obtain ⟨a, t, hx, he⟩ := he
    exact ih a (.step run hq hx) (Function.update_self ..) he

/-- A caller that is left to itself can make the calls of a path that can be executed. -/
theorem Run.walk (run : Run exec s₀ p₀ log s p) {i : ι} {h : List ((op : Op) × Ans op)}
    {q : Program Op Ans (Res i)} {s' : σ} (hf : (p i).Follows h q) (hs : Program.Steps exec s h s') :
    ∃ log' p', Run exec s₀ p₀ log' s' p' ∧ history i log' = history i log ++ h := by
  generalize hp : p i = r at hf
  induction hf generalizing log s p with
  | here =>
    obtain rfl := hs
    exact ⟨log, p, run, (List.append_nil _).symm⟩
  | @call op k a h q _ ih =>
    obtain ⟨t, hx, hs⟩ := hs
    obtain ⟨log', p', run', hh⟩ := ih (.step run hp hx) hs (Function.update_self ..)
    refine ⟨log', p', run', hh.trans ?_⟩
    rw [show history i (log ++ [⟨i, ⟨op, a⟩, s, t⟩]) = history i log ++ [⟨op, a⟩] from
      history_snoc_self log ⟨i, ⟨op, a⟩, s, t⟩, List.append_assoc]
    rfl

theorem Run.exec_of_mem (run : Run exec s₀ p₀ log s p) {e : Entry ι Ans σ} (he : e ∈ log) :
    exec e.before e.call.1 e.call.2 e.after := by
  induction run with
  | start => cases he
  | step _ _ hx ih =>
    rcases List.mem_append.mp he with h | h
    · exact ih h
    · simp only [List.mem_singleton] at h
      subst h
      exact hx

/-- The calls of a caller's history have been executed. -/
theorem Run.executed (run : Run exec s₀ p₀ log s p) {i : ι} {c : (op : Op) × Ans op}
    (hc : c ∈ history i log) :
    ∃ e ∈ log, e.caller = i ∧ e.call = c ∧ exec e.before c.1 c.2 e.after := by
  obtain ⟨e, he, hi, rfl⟩ := mem_history.mp hc
  exact ⟨e, he, hi, rfl, run.exec_of_mem he⟩

/-- The entry with its states seen through `view`. -/
def Entry.seen {τ : Type} (view : τ → σ) (e : Entry ι Ans τ) : Entry ι Ans σ :=
  ⟨e.caller, e.call, view e.before, view e.after⟩

/-- Where every call on the seen state can be made on the whole one, every run is a seen run. -/
theorem Run.of_view {τ : Type} {exec' : τ → (op : Op) → Ans op → τ → Prop} (view : τ → σ)
    (sim : ∀ {x : τ} {op : Op} {a : Ans op} {s' : σ}, exec (view x) op a s' →
      ∃ x', exec' x op a x' ∧ view x' = s')
    {x₀ : τ} (run : Run exec (view x₀) p₀ log s p) :
    ∃ log' x, Run exec' x₀ p₀ log' x p ∧ view x = s ∧ log'.map (Entry.seen view) = log := by
  induction run with
  | start => exact ⟨[], x₀, .start, rfl, rfl⟩
  | step _ hp hx ih =>
    obtain ⟨log', x, run', rfl, rfl⟩ := ih
    obtain ⟨x', hx', rfl⟩ := sim hx
    exact ⟨_, x', .step run' hp hx', rfl, List.map_append⟩

end

end Piteka.Interleaving
