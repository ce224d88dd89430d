import Piteka.Interleaving.Trace

/-!
# Moments of a call

A call of several atomic steps may be overtaken between them. `During` are the
states from the first step of a caller to its last one; a result that a single
atomic operation gives in one of them is linearizable.
-/
namespace Piteka.Interleaving

set_option autoImplicit false

variable {ι Op σ ρ : Type} {Ans : Op → Type} [DecidableEq ι]

/-- The state `t` lies between the start of the first step of `i` and the end of its last one. -/
def During (i : ι) (s₀ : σ) (log : List (Entry ι Ans σ)) (t : σ) : Prop :=
  ∃ l₁ l₂, log = l₁ ++ l₂ ∧ Linked s₀ l₁ t ∧
    (history i l₁ ≠ [] ∨ ∃ e l, l₂ = e :: l ∧ e.caller = i) ∧
    (history i l₂ ≠ [] ∨ ∃ l e, l₁ = l ++ [e] ∧ e.caller = i)

/-- The operation `spec` gives the result `r` at a moment of the call of `i`. -/
def Linearizable (spec : σ → ρ) (i : ι) (s₀ : σ) (log : List (Entry ι Ans σ)) (r : ρ) : Prop :=
  ∃ t, During i s₀ log t ∧ spec t = r

theorem history_ne_nil {i : ι} {log : List (Entry ι Ans σ)} {e : Entry ι Ans σ} (he : e ∈ log)
    (hi : e.caller = i) : history i log ≠ [] :=
  List.ne_nil_of_mem (mem_history.mpr ⟨e, he, hi, rfl⟩)

/-- The state before a step of the call is a moment of it. -/
theorem Linked.during {s₀ s : σ} {log : List (Entry ι Ans σ)} (hl : Linked s₀ log s)
    {e : Entry ι Ans σ} (he : e ∈ log) : During e.caller s₀ log e.before := by
  obtain ⟨l₁, l₂, rfl⟩ := List.append_of_mem he
  exact ⟨l₁, e :: l₂, rfl, hl.around.1, Or.inr ⟨e, l₂, rfl, rfl⟩,
    Or.inl (history_ne_nil List.mem_cons_self rfl)⟩

end Piteka.Interleaving
