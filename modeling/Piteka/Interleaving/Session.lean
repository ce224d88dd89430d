import Piteka.Interleaving.Program

/-!
# Sequential sessions

Calls that run alone, one after the other. A session keeps for every call the
states around it. `Session.good_iff` is its rule for exact conditions: when one
call from a state of the invariant either meets its condition and keeps the
invariant or ends badly, a session goes well exactly if all its calls meet theirs.
-/
namespace Piteka.Interleaving

set_option autoImplicit false

structure Turn (κ σ : Type) where
  call : κ
  before : σ
  after : σ

variable {κ Op σ : Type} {Ans : Op → Type} {Res : κ → Type}

inductive Session (exec : σ → (op : Op) → Ans op → σ → Prop)
    (prog : (k : κ) → Program Op Ans (Res k)) (s₀ : σ) : List (Turn κ σ) → σ → Prop
  | start : Session exec prog s₀ [] s₀
  | call {log : List (Turn κ σ)} {s s' : σ} {k : κ} {r : Res k} :
      Session exec prog s₀ log s → (prog k).Eval exec s r s' →
      Session exec prog s₀ (log ++ [⟨k, s, s'⟩]) s'

section
variable {exec : σ → (op : Op) → Ans op → σ → Prop} {prog : (k : κ) → Program Op Ans (Res k)}
  {s₀ s : σ} {log : List (Turn κ σ)}

theorem Session.good_iff {I Good : σ → Prop} {Allowed : κ → Prop} {Meets : κ → σ → Prop}
    (session : Session exec prog s₀ log s) (start : I s₀) (good : ∀ s, I s → Good s)
    (step : ∀ k s r s', Allowed k → I s → (prog k).Eval exec s r s' →
      (Meets k s ∧ I s') ∨ (¬ Meets k s ∧ ¬ Good s'))
    (allowed : ∀ t ∈ log, Allowed t.call) :
    (∀ t ∈ log, Good t.after) ↔ ∀ t ∈ log, Meets t.call t.before := by
  have main : ((∀ t ∈ log, Good t.after) ↔ ∀ t ∈ log, Meets t.call t.before) ∧
      ((∀ t ∈ log, Meets t.call t.before) → I s) := by
    induction session with
    | start => simp [start]
    | @call log s s' k r session he ih =>
      obtain ⟨hiff, hinv⟩ := ih fun t ht => allowed t (List.mem_append_left _ ht)
      have hk : Allowed k := allowed ⟨k, s, s'⟩ (List.mem_append_right _ (List.mem_singleton.mpr rfl))
      simp only [List.mem_append, List.mem_singleton, or_imp, forall_and, forall_eq]
      rw [hiff]
      constructor
      · refine and_congr_right fun hmeets => ?_
        rcases step k s r s' hk (hinv hmeets) he with ⟨hm, hi⟩ | ⟨hm, hg⟩
        · exact iff_of_true (good s' hi) hm
        · exact iff_of_false hg hm
      · intro ⟨hmeets, hm⟩
        rcases step k s r s' hk (hinv hmeets) he with ⟨_, hi⟩ | ⟨hn, _⟩
        · exact hi
        · exact absurd hm hn
  exact main.1

end

end Piteka.Interleaving
