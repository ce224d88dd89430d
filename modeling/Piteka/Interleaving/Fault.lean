import Piteka.Interleaving.Layer

/-!
# Evaluation with one fault

A program runs alone and one of its calls fails: the call is answered with the fault
and leaves the state as it is, every other call is executed. What the program does
with the answer is its own affair; one that stops at the first failure makes no
call after it.
-/
namespace Piteka.Interleaving

set_option autoImplicit false

variable {Op Op' σ τ α : Type} {Ans : Op → Type} {Ans' : Op' → Type}

namespace Program

theorem steps_append {exec : σ → (op : Op) → Ans op → σ → Prop} {s s' : σ}
    {h₁ h₂ : List ((op : Op) × Ans op)} :
    Steps exec s (h₁ ++ h₂) s' ↔ ∃ t, Steps exec s h₁ t ∧ Steps exec t h₂ s' := by
  induction h₁ generalizing s with
  | nil =>
    constructor
    · intro h
      exact ⟨s, rfl, h⟩
    · rintro ⟨t, rfl, h⟩
      exact h
  | cons c h₁ ih =>
    constructor
    · rintro ⟨u, hx, h⟩
      obtain ⟨t, h1, h2⟩ := ih.mp h
      exact ⟨t, ⟨u, hx, h1⟩, h2⟩
    · rintro ⟨t, ⟨u, hx, h1⟩, h2⟩
      exact ⟨u, hx, ih.mpr ⟨t, h1, h2⟩⟩

/-- What every call of a path keeps holds at its end. -/
theorem steps_keep {exec : σ → (op : Op) → Ans op → σ → Prop} {Q : σ → Prop}
    {h : List ((op : Op) × Ans op)}
    (keep : ∀ c ∈ h, ∀ s s', exec s c.1 c.2 s' → Q s → Q s') {s s' : σ} (hs : Steps exec s h s')
    (hq : Q s) : Q s' := by
  induction h generalizing s with
  | nil => exact hs ▸ hq
  | cons c h ih =>
    obtain ⟨t, hx, hs⟩ := hs
    have ht : Q t := keep c List.mem_cons_self s t hx hq
    exact ih (fun d hd => keep d (List.mem_cons_of_mem c hd)) hs ht

/-- A path of calls that leave the state as it is. -/
theorem steps_same {exec : σ → (op : Op) → Ans op → σ → Prop} {s : σ} {h : List ((op : Op) × Ans op)}
    (hx : ∀ c ∈ h, exec s c.1 c.2 s) : Steps exec s h s := by
  induction h with
  | nil => rfl
  | cons c h ih => exact ⟨s, hx c List.mem_cons_self, ih fun d hd => hx d (List.mem_cons_of_mem c hd)⟩

/-- Calls of the first component are executed beside a second one that stays as it is. -/
theorem steps_onLeft {exec : σ → (op : Op) → Ans op → σ → Prop}
    {exec' : τ → (op : Op') → Ans' op → τ → Prop} {s s' : σ × τ} {h : List ((op : Op) × Ans op)} :
    Steps (Both exec exec') s (h.map onLeft) s' ↔ Steps exec s.1 h s'.1 ∧ s'.2 = s.2 := by
  induction h generalizing s with
  | nil => exact Prod.ext_iff
  | cons c h ih =>
    constructor
    · rintro ⟨t, hx, hs⟩
      obtain ⟨h1, h2⟩ := ih.mp hs
      exact ⟨⟨t.1, hx.1, h1⟩, h2.trans hx.2⟩
    · rintro ⟨⟨t, hx, h1⟩, h2⟩
      exact ⟨(t, s.2), ⟨hx, rfl⟩, ih.mpr ⟨h1, h2⟩⟩

/-- `p` runs alone from `s`; after the calls `before` the call `c` fails, all others are executed. -/
def EvalWithFault (exec : σ → (op : Op) → Ans op → σ → Prop) (p : Program Op Ans α) (s : σ)
    (before : List ((op : Op) × Ans op)) (c : (op : Op) × Ans op) (r : α) (s' : σ) : Prop :=
  ∃ rest t, Returns p (before ++ c :: rest) r ∧ Steps exec s before t ∧ Steps exec t rest s'

theorem next_of_returns {p : Program Op Ans α} {h t : List ((op : Op) × Ans op)}
    {c : (op : Op) × Ans op} {r : α} (hr : Returns p (h ++ c :: t) r) : Next p h c.1 := by
  induction p generalizing h with
  | ret a =>
    obtain ⟨hnil, _⟩ := returns_ret.mp hr
    cases h <;> cases hnil
  | call op k ih =>
    obtain ⟨a, u, heq, hu⟩ := returns_call.mp hr
    cases h with
    | nil =>
      obtain ⟨rfl, _⟩ := List.cons.inj heq
      exact ⟨k, .here _⟩
    | cons d h =>
      obtain ⟨rfl, rfl⟩ := List.cons.inj heq
      obtain ⟨k', hk⟩ := ih a hu
      exact ⟨k', .call hk⟩

end Program

/-- In a path that ends with its only failure, the failure is where the path ends. -/
theorem fault_last {C : Type} {Fails : C → Prop} {h before rest : List C} {c d : C}
    (clean : ∀ x ∈ h, ¬ Fails x) (hc : Fails c) (he : h ++ [d] = before ++ c :: rest) :
    before = h ∧ c = d ∧ rest = [] := by
  rcases List.eq_nil_or_concat rest with rfl | ⟨rest, x, rfl⟩
  · obtain ⟨rfl, hd⟩ := List.append_inj' he rfl
    exact ⟨rfl, (List.singleton_inj.mp hd).symm, rfl⟩
  · rw [List.concat_eq_append, ← List.cons_append, ← List.append_assoc] at he
    obtain ⟨rfl, _⟩ := List.append_inj' he rfl
    exact absurd hc (clean c (List.mem_append_right _ List.mem_cons_self))

end Piteka.Interleaving
