import Piteka.Interleaving.Trace
import Mathlib.Data.List.Forall2

/-!
# One object answering as another

A concrete object simulates an abstract one when each of its calls can be made on the
abstract object too, with an answer that is related to its own, and the states stay
related. Then whatever calls are made, in any order and by any callers, the concrete
log is one of the abstract object up to related answers. Calls that may fail, with or
without their effect, fail alike on both.
-/
namespace Piteka.Interleaving

set_option autoImplicit false

variable {ι Op σ τ : Type} {Ans : Op → Type}

/-- One operation with two related answers. -/
inductive Alike (A : (op : Op) → Ans op → Ans op → Prop) :
    (op : Op) × Ans op → (op : Op) × Ans op → Prop
  | of {op : Op} {a b : Ans op} (h : A op a b) : Alike A ⟨op, a⟩ ⟨op, b⟩

/-- An object whose calls may fail; a call that fails may have had its effect. -/
def Faulty (exec : σ → (op : Op) → Ans op → σ → Prop) (faults : Op → Prop)
    (failed : (op : Op) → Ans op → Prop) (s : σ) (op : Op) (a : Ans op) (s' : σ) : Prop :=
  exec s op a s' ∨ faults op ∧ failed op a ∧ (s' = s ∨ ∃ b, exec s op b s')

/-- Every allowed call on the concrete object can be made on the abstract one. -/
structure Simulates (allowed : Op → Prop) (exec : σ → (op : Op) → Ans op → σ → Prop)
    (exec' : τ → (op : Op) → Ans op → τ → Prop) (R : σ → τ → Prop)
    (A : (op : Op) → Ans op → Ans op → Prop) : Prop where
  step : ∀ {s t op a s'}, R s t → allowed op → exec s op a s' →
    ∃ b t', exec' t op b t' ∧ A op a b ∧ R s' t'

namespace Simulates

variable {allowed : Op → Prop} {exec : σ → (op : Op) → Ans op → σ → Prop}
  {exec' : τ → (op : Op) → Ans op → τ → Prop} {R : σ → τ → Prop}
  {A : (op : Op) → Ans op → Ans op → Prop}

theorem faulty (sim : Simulates allowed exec exec' R A) {failed : (op : Op) → Ans op → Prop}
    (same : ∀ {op a}, failed op a → A op a a) (faults : Op → Prop) :
    Simulates allowed (Faulty exec faults failed) (Faulty exec' faults failed) R A where
  step {s t op a s'} hR hop hx := by
    rcases hx with hx | ⟨hfault, hfail, rfl | ⟨b, hx⟩⟩
    · obtain ⟨b, t', hx', hA, hR'⟩ := sim.step hR hop hx
      exact ⟨b, t', Or.inl hx', hA, hR'⟩
    · exact ⟨a, t, Or.inr ⟨hfault, hfail, Or.inl rfl⟩, same hfail, hR⟩
    · obtain ⟨b', t', hx', _, hR'⟩ := sim.step hR hop hx
      exact ⟨a, t', Or.inr ⟨hfault, hfail, Or.inr ⟨b', hx'⟩⟩, same hfail, hR'⟩

/-- Each trace of the concrete object is one of the abstract object, with related answers. -/
theorem trace (sim : Simulates allowed exec exec' R A) {s s' : σ} {t : τ}
    {log : List (Entry ι Ans σ)} (hR : R s t) (ht : Trace exec s log s')
    (hops : ∀ e ∈ log, allowed e.call.1) :
    ∃ (log' : List (Entry ι Ans τ)) (t' : τ), Trace exec' t log' t' ∧ R s' t' ∧
      List.Forall₂ (fun e f => e.caller = f.caller ∧ Alike A e.call f.call) log log' := by
  induction log generalizing s t with
  | nil =>
    obtain rfl : s' = s := ht.linked
    exact ⟨[], t, ⟨rfl, fun e he => absurd he List.not_mem_nil⟩, hR, .nil⟩
  | cons e log ih =>
    obtain ⟨rfl, hlinked⟩ := ht.linked
    have hx := ht.executed e List.mem_cons_self
    obtain ⟨b, t₁, hx', hA, hR'⟩ := sim.step hR (hops e List.mem_cons_self) hx
    have hrest : Trace exec e.after log s' :=
      ⟨hlinked, fun f hf => ht.executed f (List.mem_cons_of_mem e hf)⟩
    obtain ⟨log', t', ht', hend, halike⟩ :=
      ih hR' hrest fun f hf => hops f (List.mem_cons_of_mem e hf)
    refine ⟨⟨e.caller, ⟨e.call.1, b⟩, t, t₁⟩ :: log', t', ⟨⟨rfl, ht'.linked⟩, ?_⟩, hend, ?_⟩
    · intro f hf
      rcases List.mem_cons.mp hf with rfl | hf
      · exact hx'
      · exact ht'.executed f hf
    · exact .cons ⟨rfl, .of hA⟩ halike

end Simulates

end Piteka.Interleaving
