import Piteka.Interleaving.Fallible
import Piteka.Storage.Ports

/-!
# Paths through a use case

Which calls a use case makes next, and how it returns, one port call at a time.
A store call that fails ends the use case with the storage error, so every path
that goes on has the call's success in it.
-/
namespace Piteka.Storage

set_option autoImplicit false

open Piteka.Interleaving Piteka.Interleaving.Program

abbrev Path := List ((op : PortCall) × Answer op)

/-- The clock was read. -/
abbrev ticked (t : UInt64) : (op : PortCall) × Answer op := ⟨.clock, t⟩

/-- A store call succeeded with the answer `x`. -/
abbrev did (c : StoreCall) (x : c.Ok) : (op : PortCall) × Answer op := ⟨.store c, .ok x⟩

variable {ε α β : Type} {h : Path} {op : PortCall}

/-- Failure of a store call, as the use case's error. -/
def Failed [FromStorageError ε] (c : StoreCall) (h : Path) (r : Except ε α) : Prop :=
  ∃ e, h = [⟨.store c, .error e⟩] ∧ r = .error (FromStorageError.ofStorage e)

theorem next_await [FromStorageError ε] {c : StoreCall} {f : c.Ok → UseCase ε α} :
    Next (await c >>= f).run h op ↔ (h = [] ∧ op = .store c) ∨
      ∃ x t, h = did c x :: t ∧ Next (f x).run t op := by
  refine next_call.trans (or_congr_right ⟨?_, ?_⟩)
  · rintro ⟨a, t, rfl, ht⟩
    cases a with
    | error e => exact absurd ht next_ret
    | ok x => exact ⟨x, t, rfl, ht⟩
  · rintro ⟨x, t, rfl, ht⟩
    exact ⟨.ok x, t, rfl, ht⟩

theorem returns_await [FromStorageError ε] {c : StoreCall} {f : c.Ok → UseCase ε α}
    {r : Except ε α} :
    Returns (await c >>= f).run h r ↔ Failed c h r ∨
      ∃ x t, h = did c x :: t ∧ Returns (f x).run t r := by
  refine returns_call.trans ⟨?_, ?_⟩
  · rintro ⟨a, t, rfl, ht⟩
    cases a with
    | error e =>
      obtain ⟨rfl, hr⟩ := returns_ret.mp ht
      exact Or.inl ⟨e, rfl, hr⟩
    | ok x => exact Or.inr ⟨x, t, rfl, ht⟩
  · rintro (⟨e, rfl, rfl⟩ | ⟨x, t, rfl, ht⟩)
    · exact ⟨.error e, [], rfl, returns_ret.mpr ⟨rfl, rfl⟩⟩
    · exact ⟨.ok x, t, rfl, ht⟩

/-- A store call in tail position. -/
theorem next_await_last [FromStorageError ε] {c : StoreCall} :
    Next (await c : UseCase ε c.Ok).run h op ↔ h = [] ∧ op = .store c := by
  refine next_call.trans (or_iff_left ?_)
  rintro ⟨a, t, _, ht⟩
  cases a <;> exact next_ret ht

theorem returns_await_last [FromStorageError ε] {c : StoreCall} {r : Except ε c.Ok} :
    Returns (await c).run h r ↔ Failed c h r ∨ ∃ x, h = [did c x] ∧ r = .ok x := by
  refine returns_call.trans ⟨?_, ?_⟩
  · rintro ⟨a, t, rfl, ht⟩
    cases a with
    | error e =>
      obtain ⟨rfl, hr⟩ := returns_ret.mp ht
      exact Or.inl ⟨e, rfl, hr⟩
    | ok x =>
      obtain ⟨rfl, hr⟩ := returns_ret.mp ht
      exact Or.inr ⟨x, rfl, hr⟩
  · rintro (⟨e, rfl, rfl⟩ | ⟨x, rfl, rfl⟩)
    · exact ⟨.error e, [], rfl, returns_ret.mpr ⟨rfl, rfl⟩⟩
    · exact ⟨.ok x, [], rfl, returns_ret.mpr ⟨rfl, rfl⟩⟩

theorem next_ask {c : PortCall} {f : Answer c → UseCase ε α} :
    Next (ask c >>= f).run h op ↔ (h = [] ∧ op = c) ∨
      ∃ a t, h = ⟨c, a⟩ :: t ∧ Next (f a).run t op :=
  next_call

theorem returns_ask {c : PortCall} {f : Answer c → UseCase ε α} {r : Except ε α} :
    Returns (ask c >>= f).run h r ↔ ∃ a t, h = ⟨c, a⟩ :: t ∧ Returns (f a).run t r :=
  returns_call

theorem next_nowSeconds {f : Int64 → UseCase ε α} :
    Next (nowSeconds >>= f).run h op ↔ (h = [] ∧ op = .clock) ∨
      ∃ a t, h = ticked a :: t ∧ Next (f a.toInt64).run t op :=
  next_call

theorem returns_nowSeconds {f : Int64 → UseCase ε α} {r : Except ε α} :
    Returns (nowSeconds >>= f).run h r ↔
      ∃ a t, h = ticked a :: t ∧ Returns (f a.toInt64).run t r :=
  returns_call

/-- A caught use case makes its own calls; what comes after sees its result. -/
theorem next_caught {ε' : Type} {p : UseCase ε α} {f : Except ε α → UseCase ε' β}
    (hn : Next (caught p >>= f).run h op) :
    Next p.run h op ∨ ∃ h₁ h₂ r, h = h₁ ++ h₂ ∧ Returns p.run h₁ r ∧ Next (f r).run h₂ op := by
  rcases next_seq hn with hp | ⟨h₁, h₂, r, rfl, h1, h2⟩
  · rcases next_bind hp with hp | ⟨_, _, _, rfl, _, h3⟩
    · exact Or.inl hp
    · exact absurd h3 next_ret
  · obtain ⟨g₁, g₂, r', rfl, h3, h4⟩ := returns_bind h1
    obtain ⟨rfl, hr⟩ := returns_ret.mp h4
    obtain rfl := Except.ok.inj hr
    rw [List.append_nil]
    exact Or.inr ⟨g₁, h₂, r, rfl, h3, h2⟩

theorem returns_caught {ε' : Type} {p : UseCase ε α} {f : Except ε α → UseCase ε' β}
    {r : Except ε' β} (hr : Returns (caught p >>= f).run h r) :
    ∃ h₁ h₂ x, h = h₁ ++ h₂ ∧ Returns p.run h₁ x ∧ Returns (f x).run h₂ r := by
  rcases returns_seq hr with ⟨e, h1, _⟩ | ⟨h₁, h₂, x, rfl, h1, h2⟩
  · obtain ⟨_, _, _, _, _, h4⟩ := returns_bind h1
    obtain ⟨_, hr⟩ := returns_ret.mp h4
    cases hr
  · obtain ⟨g₁, g₂, x', rfl, h3, h4⟩ := returns_bind h1
    obtain ⟨rfl, hx⟩ := returns_ret.mp h4
    obtain rfl := Except.ok.inj hx
    rw [List.append_nil]
    exact ⟨g₁, h₂, x, rfl, h3, h2⟩

/-! ## Evaluation -/

section
variable {exec : Stores → (op : PortCall) → Answer op → Stores → Prop} {s s' : Stores}

theorem eval_await [FromStorageError ε] {c : StoreCall} {r : Except ε c.Ok} :
    (await c).run.Eval exec s r s' ↔
      (∃ e, exec s (.store c) (.error e) s' ∧ r = .error (FromStorageError.ofStorage e)) ∨
        ∃ x, exec s (.store c) (.ok x) s' ∧ r = .ok x := by
  constructor
  · rintro ⟨a, t, hx, h⟩
    cases a with
    | error e =>
      obtain ⟨rfl, rfl⟩ := h
      exact Or.inl ⟨e, hx, rfl⟩
    | ok x =>
      obtain ⟨rfl, rfl⟩ := h
      exact Or.inr ⟨x, hx, rfl⟩
  · rintro (⟨e, hx, rfl⟩ | ⟨x, hx, rfl⟩)
    · exact ⟨.error e, s', hx, rfl, rfl⟩
    · exact ⟨.ok x, s', hx, rfl, rfl⟩

/-- A caught use case ends somewhere, and what comes after sees its result. -/
theorem eval_caught {ε' : Type} {p : UseCase ε α} {f : Except ε α → UseCase ε' β}
    {r : Except ε' β} : (caught p >>= f).run.Eval exec s r s' ↔
      ∃ x t, p.run.Eval exec s x t ∧ (f x).run.Eval exec t r s' := by
  constructor
  · intro h
    rcases eval_seq.mp h with ⟨e, h1, _⟩ | ⟨x, t, h1, h2⟩
    · obtain ⟨_, _, _, h3, _⟩ := eval_bind.mp h1
      cases h3
    · obtain ⟨x', t', h3, h4, rfl⟩ := eval_bind.mp h1
      obtain rfl := Except.ok.inj h4
      exact ⟨x, t, h3, h2⟩
  · rintro ⟨x, t, h1, h2⟩
    exact eval_seq.mpr (Or.inr ⟨x, t, eval_bind.mpr ⟨x, t, h1, rfl, rfl⟩, h2⟩)

/-- A store call that answers `x` and leads to `t`, whatever order a map is walked in. -/
theorem eval_await_ok [FromStorageError ε] {rt : Runtime} {c : StoreCall} {x : c.Ok} {t : Stores}
    (hrun : ∀ order, c.run rt order s = (.ok x, t)) {r : Except ε c.Ok} :
    (await c).run.Eval (Exec rt noFaults) s r s' ↔ r = .ok x ∧ s' = t := by
  rw [eval_await]
  constructor
  · rintro (⟨e, ⟨order, h⟩ | ⟨hf, _⟩, _⟩ | ⟨y, ⟨order, h⟩ | ⟨hf, _⟩, rfl⟩)
    · rw [hrun order] at h
      cases (Prod.mk.inj h).1
    · exact absurd hf id
    · rw [hrun order] at h
      obtain ⟨hy, rfl⟩ := Prod.mk.inj h
      obtain rfl := Except.ok.inj hy
      exact ⟨rfl, rfl⟩
    · exact absurd hf id
  · rintro ⟨rfl, rfl⟩
    exact Or.inr ⟨x, Or.inl ⟨.asListed, hrun _⟩, rfl⟩

end

end Piteka.Storage
