import Piteka.Interleaving.Trace
import Mathlib.Data.List.Induction
import Mathlib.Logic.Function.Iterate

/-!
# Versioned cells

A cell is created once with a first version and then changed by swaps that name
the version they expect. `CellStep` is the law of one entry of a log; versions
are any type with a successor. From the law alone a cell is the end of a linear
history: its version counts the swaps and its value is the last one written. Two
swaps expect different versions as long as the successor has not come round.
-/
namespace Piteka.Interleaving

set_option autoImplicit false

/-- What one entry asked of a cell and was answered. -/
inductive CellEvent (N V : Type) where
  | other
  | created (value : V)
  | swapped (expected new : N) (value : V)
  | refused (expected : N) (current : Option N)

namespace CellEvent

variable {N V : Type}

def written : CellEvent N V → Option V
  | .created v => some v
  | .swapped _ _ v => some v
  | .other => none
  | .refused _ _ => none

def consumed : CellEvent N V → Option N
  | .swapped n _ _ => some n
  | .other => none
  | .created _ => none
  | .refused _ _ => none

end CellEvent

/-- The law of a versioned cell for one entry, with the cell before and after it. -/
inductive CellStep {N V : Type} (first : N) (next : N → N) :
    CellEvent N V → Option (N × V) → Option (N × V) → Prop
  | other (c : Option (N × V)) : CellStep first next .other c c
  | created (v : V) : CellStep first next (.created v) none (some (first, v))
  | swapped (n : N) (u v : V) :
      CellStep first next (.swapped n (next n) v) (some (n, u)) (some (next n, v))
  | conflict (n c : N) (u : V) (h : c ≠ n) :
      CellStep first next (.refused n (some c)) (some (c, u)) (some (c, u))
  | missing (n : N) : CellStep first next (.refused n none) none none

section
variable {ι Op σ N V : Type} {Ans : Op → Type}

/-- The values written to the cell, oldest first. -/
def writes (event : Entry ι Ans σ → CellEvent N V) (log : List (Entry ι Ans σ)) : List V :=
  log.filterMap fun e => (event e).written

/-- The versions that swaps have consumed, oldest first. -/
def consumptions (event : Entry ι Ans σ → CellEvent N V) (log : List (Entry ι Ans σ)) : List N :=
  log.filterMap fun e => (event e).consumed

/-- The versions in the order in which swaps consume them. -/
def versions (first : N) (next : N → N) (n : Nat) : List N :=
  (List.range n).map fun k => next^[k] first

theorem writes_snoc (event : Entry ι Ans σ → CellEvent N V) (log : List (Entry ι Ans σ))
    (e : Entry ι Ans σ) : writes event (log ++ [e]) = writes event log ++ (event e).written.toList := by
  rw [writes, List.filterMap_append, ← writes]
  cases h : (event e).written <;> simp [h]

theorem consumptions_snoc (event : Entry ι Ans σ → CellEvent N V) (log : List (Entry ι Ans σ))
    (e : Entry ι Ans σ) :
    consumptions event (log ++ [e]) = consumptions event log ++ (event e).consumed.toList := by
  rw [consumptions, List.filterMap_append, ← consumptions]
  cases h : (event e).consumed <;> simp [h]

theorem versions_succ (first : N) (next : N → N) (n : Nat) :
    versions first next (n + 1) = versions first next n ++ [next^[n] first] := by
  rw [versions, List.range_succ, List.map_append]
  rfl

structure VersionedLog (first : N) (next : N → N) (cell : σ → Option (N × V))
    (event : Entry ι Ans σ → CellEvent N V) (s : σ) (log : List (Entry ι Ans σ)) (s' : σ) :
    Prop where
  linked : Linked s log s'
  lawful : ∀ e ∈ log, CellStep first next (event e) (cell e.before) (cell e.after)

namespace VersionedLog

variable {first : N} {next : N → N} {cell : σ → Option (N × V)}
  {event : Entry ι Ans σ → CellEvent N V} {s s' : σ} {log : List (Entry ι Ans σ)}

theorem around {l₁ l₂ : List (Entry ι Ans σ)} {e : Entry ι Ans σ}
    (vl : VersionedLog first next cell event s (l₁ ++ e :: l₂) s') :
    VersionedLog first next cell event s l₁ e.before ∧
      CellStep first next (event e) (cell e.before) (cell e.after) :=
  ⟨⟨vl.linked.around.1, fun f hf => vl.lawful f (List.mem_append_left _ hf)⟩,
    vl.lawful e (by simp)⟩

/-- The linear history of a cell: nothing was written and it does not exist, or its version is
the successor of the first one for every swap and its value the last one written. -/
theorem history (vl : VersionedLog first next cell event s log s') (hs : cell s = none) :
    (cell s' = none ∧ writes event log = [] ∧ consumptions event log = []) ∨
    ∃ v, cell s' = some (next^[(consumptions event log).length] first, v) ∧
      (writes event log).getLast? = some v ∧
      consumptions event log = versions first next (consumptions event log).length := by
  induction log using List.reverseRecOn generalizing s' with
  | nil =>
    have hend : s' = s := vl.linked
    exact Or.inl ⟨hend ▸ hs, rfl, rfl⟩
  | append_singleton log e ih =>
    obtain ⟨hlog, hstep⟩ := vl.around
    have hend : s' = e.after := vl.linked.around.2
    rw [← hend] at hstep
    have hhist := ih hlog
    rw [writes_snoc, consumptions_snoc]
    generalize cell e.before = c at hstep hhist
    generalize cell s' = c' at hstep ⊢
    generalize event e = ev at hstep
    cases hstep with
    | other => simpa [CellEvent.written, CellEvent.consumed] using hhist
    | conflict n c u h => simpa [CellEvent.written, CellEvent.consumed] using hhist
    | missing n => simpa [CellEvent.written, CellEvent.consumed] using hhist
    | created v =>
      rcases hhist with ⟨_, hw, hc⟩ | ⟨_, h, _⟩
      · rw [hw, hc]
        exact Or.inr ⟨v, rfl, rfl, rfl⟩
      · cases h
    | swapped n u v =>
      rcases hhist with ⟨h, _⟩ | ⟨w, h, _, hc⟩
      · cases h
      · obtain ⟨rfl, rfl⟩ := Prod.mk.inj (Option.some.inj h)
        refine Or.inr ⟨v, ?_, List.getLast?_concat .., ?_⟩
        · simp only [CellEvent.consumed, Option.toList_some, List.length_append,
            List.length_singleton, Function.iterate_succ_apply']
        · rw [CellEvent.consumed, Option.toList_some, List.length_append, List.length_singleton,
            versions_succ, ← hc]

theorem consumptions_eq (vl : VersionedLog first next cell event s log s') (hs : cell s = none) :
    consumptions event log = versions first next (consumptions event log).length := by
  rcases vl.history hs with ⟨_, _, hc⟩ | ⟨_, _, _, hc⟩
  · rw [hc]
    rfl
  · exact hc

/-- A version is consumed once, as long as the successor gives new versions. -/
theorem consumed_once (vl : VersionedLog first next cell event s log s') (hs : cell s = none)
    (fresh : (versions first next (consumptions event log).length).Nodup) :
    log.Pairwise fun e f => ∀ n, (event e).consumed = some n → (event f).consumed ≠ some n := by
  rw [← vl.consumptions_eq hs, consumptions, List.Nodup, List.pairwise_filterMap] at fresh
  exact fresh.imp fun h n hn hn' => h n hn n hn' rfl

end VersionedLog

end

end Piteka.Interleaving
