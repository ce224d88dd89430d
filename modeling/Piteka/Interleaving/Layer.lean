import Piteka.Interleaving.Fallible
import Piteka.Interleaving.Trace

/-!
# Two components side by side

Calls to two components that share no state. A program over the calls of the first
component runs unchanged beside the second (`lift`), and the part of a log that
concerns the first component is a trace of that component alone (`Trace.left`), so
facts about its traces hold whatever is called on the other side.
-/
namespace Piteka.Interleaving

set_option autoImplicit false

variable {ι Op Op' σ τ α ε : Type} {Ans : Op → Type} {Ans' : Op' → Type}

/-- The answers of the component that is called. -/
@[reducible] def OneOf (Ans : Op → Type) (Ans' : Op' → Type) : Op ⊕ Op' → Type
  | .inl op => Ans op
  | .inr op => Ans' op

/-- A call changes the state of its own component. -/
def Both (exec : σ → (op : Op) → Ans op → σ → Prop) (exec' : τ → (op : Op') → Ans' op → τ → Prop)
    (s : σ × τ) : (op : Op ⊕ Op') → OneOf Ans Ans' op → σ × τ → Prop
  | .inl op, a, s' => exec s.1 op a s'.1 ∧ s'.2 = s.2
  | .inr op, a, s' => exec' s.2 op a s'.2 ∧ s'.1 = s.1

/-- An answered call of the first component. -/
def onLeft (c : (op : Op) × Ans op) : (op : Op ⊕ Op') × OneOf Ans Ans' op := ⟨.inl c.1, c.2⟩

theorem onLeft_inj {c d : (op : Op) × Ans op} :
    (onLeft c : (op : Op ⊕ Op') × OneOf Ans Ans' op) = onLeft d ↔ c = d := by
  constructor
  · intro h
    cases c
    cases d
    cases h
    rfl
  · exact congrArg onLeft

theorem onLeft_mem_map {c : (op : Op) × Ans op} {h : List ((op : Op) × Ans op)} :
    (onLeft c : (op : Op ⊕ Op') × OneOf Ans Ans' op) ∈ h.map onLeft ↔ c ∈ h :=
  List.mem_map_of_injective fun _ _ => onLeft_inj.mp

namespace Program

def lift : Program Op Ans α → Program (Op ⊕ Op') (OneOf Ans Ans') α
  | .ret a => .ret a
  | .call op k => .call (.inl op) fun a => (k a).lift

theorem next_lift {p : Program Op Ans α} {h : List ((op : Op ⊕ Op') × OneOf Ans Ans' op)}
    {op : Op ⊕ Op'} :
    Next p.lift h op ↔ ∃ h' op', h = h'.map onLeft ∧ op = .inl op' ∧ Next p h' op' := by
  induction p generalizing h with
  | ret a =>
    refine iff_of_false next_ret ?_
    rintro ⟨_, _, _, _, hn⟩
    exact next_ret hn
  | call op₁ k ih =>
    refine next_call.trans ⟨?_, ?_⟩
    · rintro (⟨rfl, rfl⟩ | ⟨a, t, rfl, hn⟩)
      · exact ⟨[], op₁, rfl, rfl, next_call.mpr (Or.inl ⟨rfl, rfl⟩)⟩
      · obtain ⟨h', op', rfl, rfl, hn'⟩ := (ih a).mp hn
        exact ⟨⟨op₁, a⟩ :: h', op', rfl, rfl, next_call.mpr (Or.inr ⟨a, h', rfl, hn'⟩)⟩
    · rintro ⟨h', op', rfl, rfl, hn⟩
      rcases next_call.mp hn with ⟨rfl, rfl⟩ | ⟨a, t, rfl, hn'⟩
      · exact Or.inl ⟨rfl, rfl⟩
      · exact Or.inr ⟨a, t.map onLeft, rfl, (ih a).mpr ⟨t, op', rfl, rfl, hn'⟩⟩

theorem returns_lift {p : Program Op Ans α} {h : List ((op : Op ⊕ Op') × OneOf Ans Ans' op)}
    {r : α} : Returns p.lift h r ↔ ∃ h', h = h'.map onLeft ∧ Returns p h' r := by
  induction p generalizing h with
  | ret a =>
    refine returns_ret.trans ⟨?_, ?_⟩
    · rintro ⟨rfl, rfl⟩
      exact ⟨[], rfl, .here _⟩
    · rintro ⟨h', rfl, hr⟩
      obtain ⟨rfl, rfl⟩ := returns_ret.mp hr
      exact ⟨rfl, rfl⟩
  | call op k ih =>
    refine returns_call.trans ⟨?_, ?_⟩
    · rintro ⟨a, t, rfl, hr⟩
      obtain ⟨h', rfl, hr'⟩ := (ih a).mp hr
      exact ⟨⟨op, a⟩ :: h', rfl, .call hr'⟩
    · rintro ⟨h', rfl, hr⟩
      obtain ⟨a, t, rfl, hr'⟩ := returns_call.mp hr
      exact ⟨a, t.map onLeft, rfl, (ih a).mpr ⟨t, rfl, hr'⟩⟩

/-- Alone, a lifted program does what it does without the second component. -/
theorem eval_lift {exec : σ → (op : Op) → Ans op → σ → Prop}
    {exec' : σ → (op : Op ⊕ Op') → OneOf Ans Ans' op → σ → Prop}
    (same : ∀ s op a s', exec' s (.inl op) a s' ↔ exec s op a s') {p : Program Op Ans α} {s s' : σ} {r : α} :
    (p.lift : Program (Op ⊕ Op') (OneOf Ans Ans') α).Eval exec' s r s' ↔ p.Eval exec s r s' := by
  induction p generalizing s with
  | ret a => exact Iff.rfl
  | call op k ih =>
    constructor
    · rintro ⟨a, t, hx, he⟩
      exact ⟨a, t, (same s op a t).mp hx, (ih a).mp he⟩
    · rintro ⟨a, t, hx, he⟩
      exact ⟨a, t, (same s op a t).mpr hx, (ih a).mpr he⟩

/-! ### Programs that may fail -/

/-- A part of a program that calls the first component only. -/
def liftT (p : ExceptT ε (Program Op Ans) α) : ExceptT ε (Program (Op ⊕ Op') (OneOf Ans Ans')) α :=
  ExceptT.mk p.run.lift

theorem next_liftT {β : Type} {p : ExceptT ε (Program Op Ans) α}
    {f : α → ExceptT ε (Program (Op ⊕ Op') (OneOf Ans Ans')) β}
    {h : List ((op : Op ⊕ Op') × OneOf Ans Ans' op)} {op : Op ⊕ Op'}
    (hn : Next (liftT p >>= f).run h op) :
    (∃ h' op', h = h'.map onLeft ∧ op = .inl op' ∧ Next p.run h' op') ∨
      ∃ h₁ h₂ x, h = h₁.map onLeft ++ h₂ ∧ Returns p.run h₁ (.ok x) ∧ Next (f x).run h₂ op := by
  rcases next_seq hn with h1 | ⟨_, h₂, x, rfl, h1, h2⟩
  · exact Or.inl (next_lift.mp h1)
  · obtain ⟨h₁, rfl, h1'⟩ := returns_lift.mp h1
    exact Or.inr ⟨h₁, h₂, x, rfl, h1', h2⟩

theorem returns_liftT {β : Type} {p : ExceptT ε (Program Op Ans) α}
    {f : α → ExceptT ε (Program (Op ⊕ Op') (OneOf Ans Ans')) β}
    {h : List ((op : Op ⊕ Op') × OneOf Ans Ans' op)} {r : Except ε β}
    (hr : Returns (liftT p >>= f).run h r) :
    (∃ h₁ e, h = h₁.map onLeft ∧ Returns p.run h₁ (.error e) ∧ r = .error e) ∨
      ∃ h₁ h₂ x, h = h₁.map onLeft ++ h₂ ∧ Returns p.run h₁ (.ok x) ∧ Returns (f x).run h₂ r := by
  rcases returns_seq hr with ⟨e, h1, rfl⟩ | ⟨_, h₂, x, rfl, h1, h2⟩
  · obtain ⟨h₁, rfl, h1'⟩ := returns_lift.mp h1
    exact Or.inl ⟨h₁, e, rfl, h1', rfl⟩
  · obtain ⟨h₁, rfl, h1'⟩ := returns_lift.mp h1
    exact Or.inr ⟨h₁, h₂, x, rfl, h1', h2⟩

end Program

/-! ## Logs -/

/-- The entry of the first component, if that is the one called. -/
def Entry.left? (e : Entry ι (OneOf Ans Ans') (σ × τ)) : Option (Entry ι Ans σ) :=
  match e.call with
  | ⟨.inl op, a⟩ => some ⟨e.caller, ⟨op, a⟩, e.before.1, e.after.1⟩
  | ⟨.inr _, _⟩ => none

/-- The part of a log that concerns the first component. -/
def lefts (log : List (Entry ι (OneOf Ans Ans') (σ × τ))) : List (Entry ι Ans σ) :=
  log.filterMap Entry.left?

theorem Entry.left?_eq_some {e : Entry ι (OneOf Ans Ans') (σ × τ)} {f : Entry ι Ans σ} :
    e.left? = some f ↔ e.caller = f.caller ∧ e.call = onLeft f.call ∧
      e.before.1 = f.before ∧ e.after.1 = f.after := by
  obtain ⟨i, ⟨op, a⟩, s, s'⟩ := e
  obtain ⟨j, ⟨op', b⟩, t, t'⟩ := f
  cases op with
  | inl op =>
    simp only [left?, Option.some.injEq, Entry.mk.injEq, onLeft, Sigma.mk.injEq, Sum.inl.injEq]
  | inr op => simp [left?, onLeft]

theorem mem_lefts {log : List (Entry ι (OneOf Ans Ans') (σ × τ))} {f : Entry ι Ans σ} :
    f ∈ lefts log ↔ ∃ e ∈ log, e.left? = some f := List.mem_filterMap

section
variable {exec : σ → (op : Op) → Ans op → σ → Prop} {exec' : τ → (op : Op') → Ans' op → τ → Prop}
  {s s' : σ × τ} {log : List (Entry ι (OneOf Ans Ans') (σ × τ))}

private theorem Linked.left (hl : Linked s log s')
    (hx : ∀ e ∈ log, Both exec exec' e.before e.call.1 e.call.2 e.after) :
    Linked s.1 (lefts log) s'.1 := by
  induction log generalizing s with
  | nil => exact congrArg Prod.fst hl
  | cons e log ih =>
    obtain ⟨rfl, hl⟩ := hl
    have htail := ih hl fun f hf => hx f (List.mem_cons_of_mem e hf)
    have he := hx e List.mem_cons_self
    obtain ⟨i, ⟨op, a⟩, t, t'⟩ := e
    cases op with
    | inl op => exact ⟨rfl, htail⟩
    | inr op => exact he.2 ▸ htail

/-- The part of a trace that concerns the first component is a trace of that component. -/
theorem Trace.left (ht : Trace (Both exec exec') s log s') : Trace exec s.1 (lefts log) s'.1 where
  linked := ht.linked.left ht.executed
  executed f hf := by
    obtain ⟨e, he, hef⟩ := mem_lefts.mp hf
    have hx := ht.executed e he
    obtain ⟨i, ⟨op, a⟩, t, t'⟩ := e
    cases op with
    | inl op =>
      obtain rfl := Option.some.inj hef
      exact hx.1
    | inr op => cases hef

end

theorem mem_history_lefts [DecidableEq ι] {i : ι} {log : List (Entry ι (OneOf Ans Ans') (σ × τ))}
    {c : (op : Op) × Ans op} : c ∈ history i (lefts log) ↔ onLeft c ∈ history i log := by
  simp only [mem_history, mem_lefts]
  constructor
  · rintro ⟨f, ⟨e, he, hf⟩, rfl, rfl⟩
    obtain ⟨hi, hc, _⟩ := Entry.left?_eq_some.mp hf
    exact ⟨e, he, hi, hc⟩
  · rintro ⟨e, he, rfl, hc⟩
    exact ⟨⟨e.caller, c, e.before.1, e.after.1⟩,
      ⟨e, he, Entry.left?_eq_some.mpr ⟨rfl, hc, rfl, rfl⟩⟩, rfl, rfl⟩

/-- The caller of an entry of the first component stood at its call. -/
theorem Run.next_of_left [DecidableEq ι] {Res : ι → Type}
    {exec : σ → (op : Op) → Ans op → σ → Prop} {exec' : τ → (op : Op') → Ans' op → τ → Prop}
    {s₀ s : σ × τ} {p₀ p : (i : ι) → Program (Op ⊕ Op') (OneOf Ans Ans') (Res i)}
    {log : List (Entry ι (OneOf Ans Ans') (σ × τ))} (run : Run (Both exec exec') s₀ p₀ log s p)
    {f : Entry ι Ans σ} (hf : f ∈ lefts log) :
    ∃ h, (p₀ f.caller).Next h (.inl f.call.1) := by
  obtain ⟨e, he, hef⟩ := mem_lefts.mp hf
  obtain ⟨l₁, l₂, rfl⟩ := List.append_of_mem he
  obtain ⟨hi, hc, _⟩ := Entry.left?_eq_some.mp hef
  have hnext := run.at_entry.2
  rw [hc, hi] at hnext
  exact ⟨_, hnext⟩

end Piteka.Interleaving
