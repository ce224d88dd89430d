import Piteka.Interleaving.Trace

/-!
# Atomic objects and write-once views

An object that is locked for each call answers from its state alone (`Atomic`).
A view of the state is write-once when no call changes or removes a value it
shows. Then all values that a trace shows under one key are the same one, and
the first of them has an entry that wrote it.
-/
namespace Piteka.Interleaving

set_option autoImplicit false

variable {ι Op σ K V : Type} {Ans : Op → Type}

/-- The calls of an object that computes each answer and its next state in one step. -/
def Atomic (step : σ → (op : Op) → Ans op × σ) (s : σ) (op : Op) (a : Ans op) (s' : σ) : Prop :=
  step s op = (a, s')

/-- The log of calls that are served one after the other, and the state after them. -/
def serve (step : σ → (op : Op) → Ans op × σ) (s : σ) :
    List (ι × Op) → List (Entry ι Ans σ) × σ
  | [] => ([], s)
  | (i, op) :: calls =>
    let x := step s op
    let rest := serve step x.2 calls
    (⟨i, ⟨op, x.1⟩, s, x.2⟩ :: rest.1, rest.2)

theorem serve_trace (step : σ → (op : Op) → Ans op × σ) (s : σ) (calls : List (ι × Op)) :
    Trace (Atomic step) s (serve step s calls).1 (serve step s calls).2 := by
  induction calls generalizing s with
  | nil => exact ⟨rfl, fun e he => absurd he List.not_mem_nil⟩
  | cons c calls ih =>
    obtain ⟨hl, hx⟩ := ih (step s c.2).2
    refine ⟨⟨rfl, hl⟩, fun e he => ?_⟩
    rcases List.mem_cons.mp he with rfl | he
    · exact rfl
    · exact hx e he

theorem Trace.snoc {exec : σ → (op : Op) → Ans op → σ → Prop} {s s' : σ}
    {log : List (Entry ι Ans σ)} (ht : Trace exec s log s') {op : Op} {a : Ans op} {t : σ}
    (hx : exec s' op a t) (i : ι) : Trace exec s (log ++ [⟨i, ⟨op, a⟩, s', t⟩]) t := by
  refine ⟨linked_append.mpr ⟨s', ht.linked, rfl, rfl⟩, fun e he => ?_⟩
  rcases List.mem_append.mp he with he | he
  · exact ht.executed e he
  · obtain rfl := List.mem_singleton.mp he
    exact hx

structure WriteOnce (exec : σ → (op : Op) → Ans op → σ → Prop) (view : σ → K → Option V) :
    Prop where
  kept : ∀ {s op a s'}, exec s op a s' → ∀ {k v}, view s k = some v → view s' k = some v

namespace WriteOnce

variable {exec : σ → (op : Op) → Ans op → σ → Prop} {view : σ → K → Option V} {s s' : σ}
  {log : List (Entry ι Ans σ)} {k : K} {v w : V}

theorem keeps (once : WriteOnce exec view) (ht : Trace exec s log s') (hv : view s k = some v) :
    view s' k = some v :=
  ht.keeps (Q := fun t => view t k = some v) (fun hx => once.kept hx) hv

/-- What an entry leaves shown is shown at the end. -/
theorem shown (once : WriteOnce exec view) (ht : Trace exec s log s') {e : Entry ι Ans σ}
    (he : e ∈ log) (hv : view e.after k = some v) : view s' k = some v := by
  obtain ⟨l₁, l₂, rfl⟩ := List.append_of_mem he
  exact once.keeps ht.around.2 hv

theorem agree (once : WriteOnce exec view) (ht : Trace exec s log s') {e f : Entry ι Ans σ}
    (he : e ∈ log) (hf : f ∈ log) (hv : view e.after k = some v) (hw : view f.after k = some w) :
    v = w :=
  Option.some.inj ((once.shown ht he hv).symm.trans (once.shown ht hf hw))

/-- A value that was not there at the start was written by one entry, and no entry before that
one left any value under the key. -/
theorem writer (once : WriteOnce exec view) (ht : Trace exec s log s') (hs : view s k = none)
    (hv : view s' k = some v) :
    ∃ l₁ e l₂, log = l₁ ++ e :: l₂ ∧ view e.before k = none ∧ view e.after k = some v ∧
      ∀ f ∈ l₁, view f.after k = none := by
  have hnot : ¬ (view s k).isSome := by simp [hs]
  obtain ⟨l₁, e, l₂, rfl, hb, ha⟩ :=
    ht.linked.enters (Q := fun t => (view t k).isSome) hnot (by simp [hv])
  obtain ⟨w, hw⟩ := Option.isSome_iff_exists.mp ha
  have hend : view s' k = some w := once.keeps ht.around.2 hw
  obtain rfl := Option.some.inj (hend.symm.trans hv)
  refine ⟨l₁, e, l₂, rfl, Option.not_isSome_iff_eq_none.mp hb, hw, fun f hf => ?_⟩
  by_contra hne
  obtain ⟨u, hu⟩ := Option.ne_none_iff_exists'.mp hne
  have hbefore : view e.before k = some u := once.shown ht.around.1 hf hu
  rw [hbefore] at hb
  exact hb rfl

end WriteOnce

end Piteka.Interleaving
