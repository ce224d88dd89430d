import Piteka.Interleaving.Fault
import Piteka.Storage.Paths

/-!
# Use cases that stop at the first failure

A use case that treats every store call with `?` makes no call after one that
failed. The rules follow the construction of the use case: what its parts have,
their sequence has.
-/
namespace Piteka.Storage

set_option autoImplicit false

open Piteka.Interleaving Piteka.Interleaving.Program

variable {ε α β : Type} [FromStorageError ε]

/-- A store call that fails is the last call, and its error is what the use case returns. -/
def FailsFast (p : UseCase ε α) : Prop :=
  ∀ (before rest : Path) (sc : StoreCall) (e : StorageError) (r : Except ε α),
    Returns p.run (before ++ ⟨.store sc, .error e⟩ :: rest) r →
      rest = [] ∧ r = .error (FromStorageError.ofStorage e)

theorem failsFast_pure {x : α} : FailsFast (pure x : UseCase ε α) := by
  intro before rest sc e r hr
  obtain ⟨hnil, _⟩ := returns_pure.mp hr
  simp at hnil

theorem failsFast_throw {e' : ε} : FailsFast (throw e' : UseCase ε α) := by
  intro before rest sc e r hr
  obtain ⟨hnil, _⟩ := returns_throw.mp hr
  simp at hnil

theorem failsFast_await {c : StoreCall} : FailsFast (await c : UseCase ε c.Ok) := by
  intro before rest sc e r hr
  rcases returns_await_last.mp hr with ⟨e', heq, rfl⟩ | ⟨x, heq, _⟩
  · cases before with
    | nil =>
      obtain ⟨hc, rfl⟩ := List.cons.inj heq
      cases hc
      exact ⟨rfl, rfl⟩
    | cons d before => simp at heq
  · cases before with
    | nil =>
      obtain ⟨hc, _⟩ := List.cons.inj heq
      cases hc
    | cons d before => simp at heq

/-- A call that is not made to a store. -/
theorem failsFast_ask {c : PortCall} (hc : ∀ sc, c ≠ .store sc) :
    FailsFast (ask c : UseCase ε (Answer c)) := by
  intro before rest sc e r hr
  obtain ⟨a, t, heq, ht⟩ := returns_call.mp hr
  obtain ⟨rfl, _⟩ := returns_ret.mp ht
  cases before with
  | nil =>
    obtain ⟨hd, _⟩ := List.cons.inj heq
    exact absurd (congrArg Sigma.fst hd).symm (hc sc)
  | cons d before => simp at heq

theorem FailsFast.seq {p : UseCase ε α} {f : α → UseCase ε β} (hp : FailsFast p)
    (hf : ∀ x, FailsFast (f x)) : FailsFast (p >>= f) := by
  intro before rest sc e r hr
  rcases returns_seq hr with ⟨e', h1, rfl⟩ | ⟨h₁, h₂, x, heq, h1, h2⟩
  · obtain ⟨hrest, he⟩ := hp _ _ _ _ _ h1
    cases he
    exact ⟨hrest, rfl⟩
  · rcases List.append_eq_append_iff.mp heq with ⟨t, rfl, ht⟩ | ⟨t, rfl, rfl⟩
    · cases t with
      | nil =>
        rw [List.nil_append] at ht
        rw [← ht] at h2
        exact hf x [] _ _ _ _ h2
      | cons c t =>
        obtain ⟨rfl, rfl⟩ := List.cons.inj ht
        cases (hp _ _ _ _ _ h1).2
    · exact hf x _ _ _ _ _ h2

theorem failsFast_nowSeconds : FailsFast (nowSeconds : UseCase ε Int64) :=
  (failsFast_ask (by simp)).seq fun _ => failsFast_pure

end Piteka.Storage
