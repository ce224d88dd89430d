import Mathlib.Data.List.Basic

/-!
# Programs of atomic calls

A caller is a finite tree: it returns, or it makes one atomic call and goes on
with the answer. The tree fixes the order of the calls and nothing else; what a
call does to the shared state and which answers it may give are parameters of
the semantics. `Follows` records the answered calls of one caller from its start
to what is left of it, and `Eval` is the evaluation of a caller that runs alone.
-/
namespace Piteka.Interleaving

set_option autoImplicit false

inductive Program (Op : Type) (Ans : Op → Type) (α : Type) where
  | ret (a : α)
  | call (op : Op) (k : Ans op → Program Op Ans α)

namespace Program

variable {Op : Type} {Ans : Op → Type} {α β σ : Type}

def bind : Program Op Ans α → (α → Program Op Ans β) → Program Op Ans β
  | .ret a, f => f a
  | .call op k, f => .call op fun x => (k x).bind f

instance : Monad (Program Op Ans) where
  pure := .ret
  bind := bind

theorem bind_bind {γ : Type} (p : Program Op Ans α) (f : α → Program Op Ans β)
    (g : β → Program Op Ans γ) : (p.bind f).bind g = p.bind fun a => (f a).bind g := by
  induction p with
  | ret a => rfl
  | call op k ih => exact congrArg (call op) (funext fun x => ih x)

theorem bind_ret (p : Program Op Ans α) : p.bind .ret = p := by
  induction p with
  | ret a => rfl
  | call op k ih => exact congrArg (call op) (funext fun x => ih x)

instance : LawfulMonad (Program Op Ans) :=
  LawfulMonad.mk' (Program Op Ans) bind_ret (fun _ _ => rfl) bind_bind

/-- `Follows p h q`: after exactly the answered calls `h`, the program `p` has become `q`. -/
inductive Follows : Program Op Ans α → List ((op : Op) × Ans op) → Program Op Ans α → Prop
  | here (p : Program Op Ans α) : Follows p [] p
  | call {op : Op} {k : Ans op → Program Op Ans α} {a : Ans op}
      {h : List ((op : Op) × Ans op)} {q : Program Op Ans α} :
      Follows (k a) h q → Follows (.call op k) (⟨op, a⟩ :: h) q

theorem follows_ret {a : α} {h : List ((op : Op) × Ans op)} {q : Program Op Ans α} :
    Follows (.ret a) h q ↔ h = [] ∧ q = .ret a := by
  constructor
  · intro hf
    cases hf
    exact ⟨rfl, rfl⟩
  · rintro ⟨rfl, rfl⟩
    exact .here _

/-- A program that stands at a call has made no call yet, or has made exactly that one first. -/
theorem follows_call {op : Op} {k : Ans op → Program Op Ans α}
    {h : List ((op : Op) × Ans op)} {q : Program Op Ans α} :
    Follows (.call op k) h q ↔
      (h = [] ∧ q = .call op k) ∨ ∃ a t, h = ⟨op, a⟩ :: t ∧ Follows (k a) t q := by
  constructor
  · intro hf
    cases hf with
    | here => exact Or.inl ⟨rfl, rfl⟩
    | call hf => exact Or.inr ⟨_, _, rfl, hf⟩
  · rintro (⟨rfl, rfl⟩ | ⟨a, t, rfl, hf⟩)
    · exact .here _
    · exact .call hf

theorem Follows.snoc {p : Program Op Ans α} {h : List ((op : Op) × Ans op)} {op : Op}
    {k : Ans op → Program Op Ans α} (hf : Follows p h (.call op k)) (a : Ans op) :
    Follows p (h ++ [⟨op, a⟩]) (k a) := by
  generalize hq : Program.call op k = q at hf
  induction hf with
  | here =>
    subst hq
    exact .call (.here _)
  | call _ ih => exact .call (ih hq)

/-- A path of the first part of a sequence is one of the sequence. -/
theorem Follows.bind {p q : Program Op Ans α} {h : List ((op : Op) × Ans op)} (hf : Follows p h q)
    (f : α → Program Op Ans β) : Follows (p.bind f) h (q.bind f) := by
  induction hf with
  | here => exact .here _
  | call _ ih => exact .call ih

/-- A path through a sequence stays in the first part, or completes it and goes on in the second. -/
theorem follows_bind {p : Program Op Ans α} {f : α → Program Op Ans β}
    {h : List ((op : Op) × Ans op)} {q : Program Op Ans β} (hf : Follows (p.bind f) h q) :
    (∃ p', Follows p h p' ∧ q = p'.bind f) ∨
      ∃ h₁ h₂ a, h = h₁ ++ h₂ ∧ Follows p h₁ (.ret a) ∧ Follows (f a) h₂ q := by
  induction p generalizing h with
  | ret a => exact Or.inr ⟨[], h, a, rfl, .here _, hf⟩
  | call op k ih =>
    rcases follows_call.mp hf with ⟨rfl, rfl⟩ | ⟨a, t, rfl, ht⟩
    · exact Or.inl ⟨.call op k, .here _, rfl⟩
    · rcases ih a ht with ⟨p', hp', rfl⟩ | ⟨h₁, h₂, b, rfl, h1, h2⟩
      · exact Or.inl ⟨p', .call hp', rfl⟩
      · exact Or.inr ⟨⟨op, a⟩ :: h₁, h₂, b, rfl, .call h1, h2⟩

/-- After the calls `h`, the next call of `p` is `op`. -/
def Next (p : Program Op Ans α) (h : List ((op : Op) × Ans op)) (op : Op) : Prop :=
  ∃ k, Follows p h (.call op k)

/-- The calls `h` bring `p` to its end, with result `r`. -/
def Returns (p : Program Op Ans α) (h : List ((op : Op) × Ans op)) (r : α) : Prop :=
  Follows p h (.ret r)

theorem next_ret {a : α} {h : List ((op : Op) × Ans op)} {op : Op} :
    ¬ Next (.ret a : Program Op Ans α) h op := by
  rintro ⟨k, hf⟩
  obtain ⟨_, hq⟩ := follows_ret.mp hf
  cases hq

theorem next_call {op op' : Op} {k : Ans op → Program Op Ans α}
    {h : List ((op : Op) × Ans op)} :
    Next (.call op k) h op' ↔ (h = [] ∧ op' = op) ∨ ∃ a t, h = ⟨op, a⟩ :: t ∧ Next (k a) t op' := by
  constructor
  · rintro ⟨k', hf⟩
    rcases follows_call.mp hf with ⟨rfl, hq⟩ | ⟨a, t, rfl, ht⟩
    · cases hq
      exact Or.inl ⟨rfl, rfl⟩
    · exact Or.inr ⟨a, t, rfl, k', ht⟩
  · rintro (⟨rfl, rfl⟩ | ⟨a, t, rfl, k', ht⟩)
    · exact ⟨k, .here _⟩
    · exact ⟨k', .call ht⟩

theorem Next.bind {p : Program Op Ans α} {h : List ((op : Op) × Ans op)} {op : Op} (hn : Next p h op)
    (f : α → Program Op Ans β) : Next (p.bind f) h op := by
  obtain ⟨k, hf⟩ := hn
  exact ⟨_, hf.bind f⟩

theorem returns_ret {a r : α} {h : List ((op : Op) × Ans op)} :
    Returns (.ret a : Program Op Ans α) h r ↔ h = [] ∧ r = a := by
  rw [Returns, follows_ret, ret.injEq]

theorem returns_call {op : Op} {k : Ans op → Program Op Ans α}
    {h : List ((op : Op) × Ans op)} {r : α} :
    Returns (.call op k) h r ↔ ∃ a t, h = ⟨op, a⟩ :: t ∧ Returns (k a) t r := by
  rw [Returns, follows_call]
  constructor
  · rintro (⟨_, hq⟩ | ht)
    · cases hq
    · exact ht
  · exact Or.inr

theorem next_bind {p : Program Op Ans α} {f : α → Program Op Ans β}
    {h : List ((op : Op) × Ans op)} {op : Op} (hn : Next (p.bind f) h op) :
    Next p h op ∨ ∃ h₁ h₂ a, h = h₁ ++ h₂ ∧ Returns p h₁ a ∧ Next (f a) h₂ op := by
  obtain ⟨k, hf⟩ := hn
  rcases follows_bind hf with ⟨p', hp, hq⟩ | ⟨h₁, h₂, a, he, h1, h2⟩
  · cases p' with
    | ret a =>
      refine Or.inr ⟨h, [], a, (List.append_nil h).symm, hp, k, ?_⟩
      rw [show f a = .call op k from hq.symm]
      exact .here _
    | call op' k' =>
      cases hq
      exact Or.inl ⟨k', hp⟩
  · exact Or.inr ⟨h₁, h₂, a, he, h1, k, h2⟩

theorem returns_bind {p : Program Op Ans α} {f : α → Program Op Ans β}
    {h : List ((op : Op) × Ans op)} {r : β} (hr : Returns (p.bind f) h r) :
    ∃ h₁ h₂ a, h = h₁ ++ h₂ ∧ Returns p h₁ a ∧ Returns (f a) h₂ r := by
  rcases follows_bind hr with ⟨p', hp, hq⟩ | ⟨h₁, h₂, a, he, h1, h2⟩
  · cases p' with
    | ret a =>
      refine ⟨h, [], a, (List.append_nil h).symm, hp, ?_⟩
      rw [show f a = .ret r from hq.symm]
      exact .here _
    | call => cases hq
  · exact ⟨h₁, h₂, a, he, h1, h2⟩

/-- The evaluation of a program that runs alone on the shared state. -/
def Eval (exec : σ → (op : Op) → Ans op → σ → Prop) :
    Program Op Ans α → σ → α → σ → Prop
  | .ret a, s, r, s' => r = a ∧ s' = s
  | .call op k, s, r, s' => ∃ a s₁, exec s op a s₁ ∧ (k a).Eval exec s₁ r s'

theorem eval_bind {exec : σ → (op : Op) → Ans op → σ → Prop} {p : Program Op Ans α}
    {f : α → Program Op Ans β} {s s' : σ} {r : β} :
    (p.bind f).Eval exec s r s' ↔ ∃ a t, p.Eval exec s a t ∧ (f a).Eval exec t r s' := by
  induction p generalizing s with
  | ret a =>
    constructor
    · intro h
      exact ⟨a, s, ⟨rfl, rfl⟩, h⟩
    · rintro ⟨_, _, ⟨rfl, rfl⟩, h⟩
      exact h
  | call op k ih =>
    constructor
    · rintro ⟨x, t, hx, h⟩
      obtain ⟨a, t', h1, h2⟩ := (ih x).mp h
      exact ⟨a, t', ⟨x, t, hx, h1⟩, h2⟩
    · rintro ⟨a, t', ⟨x, t, hx, h1⟩, h2⟩
      exact ⟨x, t, hx, (ih x).mpr ⟨a, t', h1, h2⟩⟩

/-- The answered calls `h`, executed one after the other. -/
def Steps (exec : σ → (op : Op) → Ans op → σ → Prop) :
    σ → List ((op : Op) × Ans op) → σ → Prop
  | s, [], s' => s' = s
  | s, c :: h, s' => ∃ t, exec s c.1 c.2 t ∧ Steps exec t h s'

/-- A program that runs alone takes one of its complete paths. -/
theorem eval_iff_returns {exec : σ → (op : Op) → Ans op → σ → Prop} {p : Program Op Ans α}
    {s s' : σ} {r : α} :
    p.Eval exec s r s' ↔ ∃ h, Returns p h r ∧ Steps exec s h s' := by
  induction p generalizing s with
  | ret a =>
    constructor
    · rintro ⟨rfl, rfl⟩
      exact ⟨[], .here _, rfl⟩
    · rintro ⟨h, hr, hs⟩
      obtain ⟨rfl, rfl⟩ := returns_ret.mp hr
      exact ⟨rfl, hs⟩
  | call op k ih =>
    constructor
    · rintro ⟨a, t, hx, he⟩
      obtain ⟨h, hr, hs⟩ := (ih a).mp he
      exact ⟨⟨op, a⟩ :: h, .call hr, t, hx, hs⟩
    · rintro ⟨h, hr, hs⟩
      obtain ⟨a, h, rfl, h1⟩ := returns_call.mp hr
      obtain ⟨t, hx, h2⟩ := hs
      exact ⟨a, t, hx, (ih a).mpr ⟨h, h1, h2⟩⟩

/-- What every call of the program keeps holds when it ends. -/
theorem eval_keeps {exec : σ → (op : Op) → Ans op → σ → Prop} {Q : σ → Prop}
    {p : Program Op Ans α} (keep : ∀ h op, Next p h op → ∀ s a s', exec s op a s' → Q s → Q s')
    {s s' : σ} {r : α} (he : p.Eval exec s r s') (hs : Q s) : Q s' := by
  induction p generalizing s with
  | ret a => exact he.2 ▸ hs
  | call op k ih =>
    obtain ⟨a, t, hx, he⟩ := he
    have ht : Q t := keep [] op (next_call.mpr (Or.inl ⟨rfl, rfl⟩)) s a t hx hs
    exact ih a (fun h op hn => keep (⟨_, a⟩ :: h) op (next_call.mpr (Or.inr ⟨a, h, rfl, hn⟩))) he ht

/-- Alone from `s`, the program only reads: it returns `r` and nothing else, and `s` stays. -/
def Yields (exec : σ → (op : Op) → Ans op → σ → Prop) (p : Program Op Ans α) (s : σ) (r : α) :
    Prop :=
  ∀ r' s', p.Eval exec s r' s' ↔ r' = r ∧ s' = s

/-- A program whose calls are answered alike from two states, and change neither, returns
the same from both. -/
theorem eval_alike {τ : Type} {exec : σ → (op : Op) → Ans op → σ → Prop}
    {exec' : τ → (op : Op) → Ans op → τ → Prop} {s : σ} {t : τ} {p : Program Op Ans α}
    (alike : ∀ h op, Next p h op → ∀ a s', exec s op a s' → s' = s ∧ exec' t op a t) {r : α} {s' : σ}
    (he : p.Eval exec s r s') : s' = s ∧ p.Eval exec' t r t := by
  induction p with
  | ret a => exact ⟨he.2, he.1, rfl⟩
  | call op k ih =>
    obtain ⟨a, s₁, hx, he⟩ := he
    obtain ⟨rfl, hx'⟩ := alike [] op (next_call.mpr (Or.inl ⟨rfl, rfl⟩)) a s₁ hx
    obtain ⟨hs, he'⟩ := ih a (fun h op hn => alike (⟨_, a⟩ :: h) op
      (next_call.mpr (Or.inr ⟨a, h, rfl, hn⟩))) he
    exact ⟨hs, a, t, hx', he'⟩

theorem Yields.transfer {τ : Type} {exec : σ → (op : Op) → Ans op → σ → Prop}
    {exec' : τ → (op : Op) → Ans op → τ → Prop} {s : σ} {t : τ} {p : Program Op Ans α} {r : α}
    (hy : Yields exec p s r)
    (forth : ∀ h op, Next p h op → ∀ a s', exec s op a s' → s' = s ∧ exec' t op a t)
    (back : ∀ h op, Next p h op → ∀ a t', exec' t op a t' → t' = t ∧ exec s op a s) :
    Yields exec' p t r := by
  intro r' t'
  constructor
  · intro he
    obtain ⟨rfl, he'⟩ := eval_alike back he
    exact ⟨((hy _ _).mp he').1, rfl⟩
  · rintro ⟨rfl, rfl⟩
    exact (eval_alike forth ((hy _ _).mpr ⟨rfl, rfl⟩)).2

end Program

end Piteka.Interleaving
