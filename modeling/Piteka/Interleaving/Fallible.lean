import Piteka.Interleaving.Program
import Mathlib.Control.Basic

/-!
# Programs that may fail

A program with an early error is a program over `Except`, sequenced by `ExceptT`.
The lemmas say where a sequence stands, how it returns and how it evaluates, with
the failure of its first part as a case of its own.
-/
namespace Piteka.Interleaving

set_option autoImplicit false

namespace Program

variable {Op σ ε α β : Type} {Ans : Op → Type} {h : List ((op : Op) × Ans op)} {op : Op}

theorem next_pure {x : α} : ¬ Next (pure x : ExceptT ε (Program Op Ans) α).run h op := next_ret

theorem next_throw {e : ε} : ¬ Next (throw e : ExceptT ε (Program Op Ans) α).run h op := next_ret

theorem returns_pure {x : α} {r : Except ε α} :
    Returns (pure x : ExceptT ε (Program Op Ans) α).run h r ↔ h = [] ∧ r = .ok x := returns_ret

theorem returns_throw {e : ε} {r : Except ε α} :
    Returns (throw e : ExceptT ε (Program Op Ans) α).run h r ↔ h = [] ∧ r = .error e :=
  returns_ret

/-- A sequence makes a call of its first part, or has completed it. -/
theorem next_seq {p : ExceptT ε (Program Op Ans) α} {f : α → ExceptT ε (Program Op Ans) β}
    (hn : Next (p >>= f).run h op) :
    Next p.run h op ∨ ∃ h₁ h₂ x, h = h₁ ++ h₂ ∧ Returns p.run h₁ (.ok x) ∧ Next (f x).run h₂ op := by
  rcases next_bind hn with hp | ⟨h₁, h₂, a, he, h1, h2⟩
  · exact Or.inl hp
  · cases a with
    | error e => exact absurd h2 next_ret
    | ok x => exact Or.inr ⟨h₁, h₂, x, he, h1, h2⟩

theorem returns_seq {p : ExceptT ε (Program Op Ans) α} {f : α → ExceptT ε (Program Op Ans) β}
    {r : Except ε β} (hr : Returns (p >>= f).run h r) :
    (∃ e, Returns p.run h (.error e) ∧ r = .error e) ∨
      ∃ h₁ h₂ x, h = h₁ ++ h₂ ∧ Returns p.run h₁ (.ok x) ∧ Returns (f x).run h₂ r := by
  obtain ⟨h₁, h₂, a, he, h1, h2⟩ := returns_bind hr
  cases a with
  | error e =>
    obtain ⟨rfl, hr⟩ := returns_ret.mp h2
    rw [List.append_nil] at he
    exact Or.inl ⟨e, he ▸ h1, hr⟩
  | ok x => exact Or.inr ⟨h₁, h₂, x, he, h1, h2⟩

section
variable {exec : σ → (op : Op) → Ans op → σ → Prop} {s s' : σ}

theorem eval_pure {x : α} {r : Except ε α} :
    (pure x : ExceptT ε (Program Op Ans) α).run.Eval exec s r s' ↔ r = .ok x ∧ s' = s := Iff.rfl

theorem eval_throw {e : ε} {r : Except ε α} :
    (throw e : ExceptT ε (Program Op Ans) α).run.Eval exec s r s' ↔ r = .error e ∧ s' = s :=
  Iff.rfl

/-- Alone, the first part of a sequence fails, or the second goes on from where it ended. -/
theorem eval_seq {p : ExceptT ε (Program Op Ans) α} {f : α → ExceptT ε (Program Op Ans) β}
    {r : Except ε β} :
    (p >>= f).run.Eval exec s r s' ↔
      (∃ e, p.run.Eval exec s (.error e) s' ∧ r = .error e) ∨
        ∃ x t, p.run.Eval exec s (.ok x) t ∧ (f x).run.Eval exec t r s' := by
  refine eval_bind.trans ⟨?_, ?_⟩
  · rintro ⟨a, t, h1, h2⟩
    cases a with
    | error e =>
      obtain ⟨rfl, rfl⟩ := h2
      exact Or.inl ⟨e, h1, rfl⟩
    | ok x => exact Or.inr ⟨x, t, h1, h2⟩
  · rintro (⟨e, h1, rfl⟩ | ⟨x, t, h1, h2⟩)
    · exact ⟨.error e, s', h1, rfl, rfl⟩
    · exact ⟨.ok x, t, h1, h2⟩

/-- A sequence behind a first part that can only succeed with `x` and end in `t`. -/
theorem eval_seq_ok {p : ExceptT ε (Program Op Ans) α} {x : α} {t : σ}
    (hp : ∀ {r s'}, p.run.Eval exec s r s' ↔ r = .ok x ∧ s' = t)
    {f : α → ExceptT ε (Program Op Ans) β} {r : Except ε β} :
    (p >>= f).run.Eval exec s r s' ↔ (f x).run.Eval exec t r s' := by
  rw [eval_seq]
  constructor
  · rintro (⟨e, he, _⟩ | ⟨y, u, hy, h⟩)
    · cases (hp.mp he).1
    · obtain ⟨hxy, rfl⟩ := hp.mp hy
      obtain rfl := Except.ok.inj hxy
      exact h
  · intro h
    exact Or.inr ⟨x, t, hp.mpr ⟨rfl, rfl⟩, h⟩

theorem eval_seq_error {p : ExceptT ε (Program Op Ans) α} {e : ε} {t : σ}
    (hp : ∀ {r s'}, p.run.Eval exec s r s' ↔ r = .error e ∧ s' = t)
    {f : α → ExceptT ε (Program Op Ans) β} {r : Except ε β} :
    (p >>= f).run.Eval exec s r s' ↔ r = .error e ∧ s' = t := by
  rw [eval_seq]
  constructor
  · rintro (⟨e', he, rfl⟩ | ⟨y, u, hy, _⟩)
    · obtain ⟨hee, rfl⟩ := hp.mp he
      rw [Except.error.inj hee]
      exact ⟨rfl, rfl⟩
    · cases (hp.mp hy).1
  · rintro ⟨rfl, rfl⟩
    exact Or.inl ⟨e, hp.mpr ⟨rfl, rfl⟩, rfl⟩

end

/-! ### Calls that may fail -/

section
variable {Rows : Op → Type}

/-- A call whose error ends the program. -/
def tryCall (op : Op) : ExceptT ε (Program Op fun op => Except ε (Rows op)) (Rows op) :=
  ExceptT.mk (.call op .ret)

theorem returns_tryCall {f : Rows op → ExceptT ε (Program Op fun op => Except ε (Rows op)) β}
    {h : List ((op : Op) × Except ε (Rows op))} {r : Except ε β} :
    Returns (tryCall op >>= f).run h r ↔ (∃ e, h = [⟨op, .error e⟩] ∧ r = .error e) ∨
      ∃ x t, h = ⟨op, .ok x⟩ :: t ∧ Returns (f x).run t r := by
  constructor
  · intro hr
    obtain ⟨a, t, rfl, ht⟩ := returns_call.mp hr
    cases a with
    | error e =>
      obtain ⟨rfl, rfl⟩ := returns_ret.mp ht
      exact Or.inl ⟨e, rfl, rfl⟩
    | ok x => exact Or.inr ⟨x, t, rfl, ht⟩
  · rintro (⟨e, rfl, rfl⟩ | ⟨x, t, rfl, ht⟩)
    · exact returns_call.mpr ⟨_, [], rfl, .here _⟩
    · exact returns_call.mpr ⟨_, t, rfl, ht⟩

end

end Program

end Piteka.Interleaving
