import Piteka.Interleaving.Trace

/-!
# Calls carried out by programs

`expand f` replaces every call of a program by the program that `f` gives for it. A
path through the expanded program is a path through the original one, each of its
calls carried out completely (`Realizes`), and then a part of the program of the
next call. So a fact about the original program holds of the expanded one once it
is known what the programs of its calls do.
-/
namespace Piteka.Interleaving

set_option autoImplicit false

namespace Program

variable {Op Op' α β : Type} {Ans : Op → Type} {Ans' : Op' → Type}

def expand (f : (op : Op) → Program Op' Ans' (Ans op)) : Program Op Ans α → Program Op' Ans' α
  | .ret a => .ret a
  | .call op k => (f op).bind fun a => (k a).expand f

/-- The calls `g` carry out the answered calls `h`, one after the other. -/
inductive Realizes (f : (op : Op) → Program Op' Ans' (Ans op)) :
    List ((op : Op) × Ans op) → List ((op : Op') × Ans' op) → Prop
  | nil : Realizes f [] []
  | cons {op : Op} {a : Ans op} {h : List ((op : Op) × Ans op)} {g g' : List ((op : Op') × Ans' op)}
      (first : Returns (f op) g a) (rest : Realizes f h g') : Realizes f (⟨op, a⟩ :: h) (g ++ g')

variable {f : (op : Op) → Program Op' Ans' (Ans op)} {p : Program Op Ans α}
  {h : List ((op : Op) × Ans op)} {g : List ((op : Op') × Ans' op)}

theorem next_expand {op' : Op'} (hn : Next (p.expand f) g op') :
    ∃ h g₁ g₂ op, g = g₁ ++ g₂ ∧ Realizes f h g₁ ∧ Next p h op ∧ Next (f op) g₂ op' := by
  induction p generalizing g with
  | ret a => exact absurd hn next_ret
  | call op k ih =>
    rcases next_bind hn with h1 | ⟨g₁, g₂, a, rfl, h1, h2⟩
    · exact ⟨[], [], g, op, rfl, .nil, next_call.mpr (Or.inl ⟨rfl, rfl⟩), h1⟩
    · obtain ⟨h, g₃, g₄, op₁, rfl, hreal, hp, hf⟩ := ih a h2
      refine ⟨⟨op, a⟩ :: h, g₁ ++ g₃, g₄, op₁, (List.append_assoc ..).symm, .cons h1 hreal, ?_, hf⟩
      exact next_call.mpr (Or.inr ⟨a, h, rfl, hp⟩)

theorem returns_expand {r : α} (hr : Returns (p.expand f) g r) :
    ∃ h, Realizes f h g ∧ Returns p h r := by
  induction p generalizing g with
  | ret a =>
    obtain ⟨rfl, rfl⟩ := returns_ret.mp hr
    exact ⟨[], .nil, .here _⟩
  | call op k ih =>
    obtain ⟨g₁, g₂, a, rfl, h1, h2⟩ := returns_bind hr
    obtain ⟨h, hreal, hp⟩ := ih a h2
    exact ⟨⟨op, a⟩ :: h, .cons h1 hreal, .call hp⟩

/-- Each call of the original path has been carried out, after the calls before it. -/
theorem Realizes.around {c : (op : Op) × Ans op} {h₁ h₂ : List ((op : Op) × Ans op)}
    (hreal : Realizes f (h₁ ++ c :: h₂) g) :
    ∃ g₁ g₂ g₃, g = g₁ ++ (g₂ ++ g₃) ∧ Realizes f h₁ g₁ ∧ Returns (f c.1) g₂ c.2 ∧
      Realizes f h₂ g₃ := by
  induction h₁ generalizing g with
  | nil =>
    cases hreal with
    | cons first rest => exact ⟨[], _, _, rfl, .nil, first, rest⟩
  | cons d h₁ ih =>
    cases hreal with
    | @cons op a _ g₀ _ first rest =>
      obtain ⟨g₁, g₂, g₃, rfl, h1, h2, h3⟩ := ih rest
      exact ⟨g₀ ++ g₁, g₂, g₃, (List.append_assoc ..).symm, .cons first h1, h2, h3⟩

theorem Realizes.carried {c : (op : Op) × Ans op} (hreal : Realizes f h g) (hc : c ∈ h) :
    ∃ g', Returns (f c.1) g' c.2 ∧ ∀ d ∈ g', d ∈ g := by
  obtain ⟨h₁, h₂, rfl⟩ := List.append_of_mem hc
  obtain ⟨g₁, g₂, g₃, rfl, _, h2, _⟩ := hreal.around
  exact ⟨g₂, h2, fun d hd => List.mem_append_right _ (List.mem_append_left _ hd)⟩

/-- A call of the expanded program was made in carrying out a call of the original one. -/
theorem Realizes.source {d : (op : Op') × Ans' op} (hreal : Realizes f h g) (hd : d ∈ g) :
    ∃ c ∈ h, ∃ g', Returns (f c.1) g' c.2 ∧ d ∈ g' := by
  induction hreal with
  | nil => cases hd
  | @cons op a h g₁ g₂ first rest ih =>
    rcases List.mem_append.mp hd with hd | hd
    · exact ⟨⟨op, a⟩, List.mem_cons_self, g₁, first, hd⟩
    · obtain ⟨c, hc, hg⟩ := ih hd
      exact ⟨c, List.mem_cons_of_mem _ hc, hg⟩

end Program

end Piteka.Interleaving
