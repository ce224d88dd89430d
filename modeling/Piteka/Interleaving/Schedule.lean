import Piteka.Interleaving.Run
import Piteka.Interleaving.Session

/-!
# Runs by schedule

A schedule names the caller of each step and what the outside world answers in
it. Playing a schedule computes the log, the state and what is left of the
callers; every play is a run (`play_run`), so a concrete run is given by its
schedule. `Program.alone` evaluates one program with nothing in between, and
`playSession` a sequence of them.
-/
namespace Piteka.Interleaving

set_option autoImplicit false

variable {ι Op σ ω α : Type} {Ans : Op → Type} {Res : ι → Type}

structure Snapshot (ι : Type) {Op : Type} (Ans : Op → Type) (σ : Type) (Res : ι → Type) where
  log : List (Entry ι Ans σ)
  state : σ
  pool : (i : ι) → Program Op Ans (Res i)

/-- One turn of a caller; a caller that has returned lets its turn pass. -/
def Snapshot.turn [DecidableEq ι] (react : ω → σ → (op : Op) → Ans op × σ)
    (c : Snapshot ι Ans σ Res) (i : ι) (w : ω) : Snapshot ι Ans σ Res :=
  match c.pool i with
  | .ret _ => c
  | .call op k =>
    let x := react w c.state op
    { log := c.log ++ [⟨i, ⟨op, x.1⟩, c.state, x.2⟩]
      state := x.2
      pool := Function.update c.pool i (k x.1) }

def Snapshot.play [DecidableEq ι] (react : ω → σ → (op : Op) → Ans op × σ)
    (c : Snapshot ι Ans σ Res) : List (ι × ω) → Snapshot ι Ans σ Res
  | [] => c
  | t :: turns => (c.turn react t.1 t.2).play react turns

section
variable [DecidableEq ι] {exec : σ → (op : Op) → Ans op → σ → Prop} {s₀ : σ}
  {p₀ : (i : ι) → Program Op Ans (Res i)} {react : ω → σ → (op : Op) → Ans op × σ}

theorem turn_run (sound : ∀ w s op, exec s op (react w s op).1 (react w s op).2)
    {c : Snapshot ι Ans σ Res} (run : Run exec s₀ p₀ c.log c.state c.pool) (i : ι) (w : ω) :
    Run exec s₀ p₀ (c.turn react i w).log (c.turn react i w).state (c.turn react i w).pool := by
  unfold Snapshot.turn
  cases hp : c.pool i with
  | ret a => exact run
  | call op k => exact .step run hp (sound w c.state op)

/-- Every play of a schedule is a run. -/
theorem play_run (sound : ∀ w s op, exec s op (react w s op).1 (react w s op).2)
    {c : Snapshot ι Ans σ Res} (run : Run exec s₀ p₀ c.log c.state c.pool)
    (turns : List (ι × ω)) :
    Run exec s₀ p₀ (c.play react turns).log (c.play react turns).state
      (c.play react turns).pool := by
  induction turns generalizing c with
  | nil => exact run
  | cons t turns ih => exact ih (turn_run sound run t.1 t.2)

end

namespace Program

/-- The result of a program that has returned. -/
def result? : Program Op Ans α → Option α
  | .ret a => some a
  | .call _ _ => none

theorem eq_ret_of_result? {p : Program Op Ans α} {a : α} (h : p.result? = some a) : p = .ret a := by
  cases p with
  | ret b =>
    obtain rfl := Option.some.inj h
    rfl
  | call op k => cases h

/-- The result and the final state of a program that runs alone. -/
def alone (react : σ → (op : Op) → Ans op × σ) : Program Op Ans α → σ → α × σ
  | .ret a, s => (a, s)
  | .call op k, s =>
    let x := react s op
    (k x.1).alone react x.2

theorem alone_eval {exec : σ → (op : Op) → Ans op → σ → Prop}
    {react : σ → (op : Op) → Ans op × σ}
    (sound : ∀ s op, exec s op (react s op).1 (react s op).2) (p : Program Op Ans α) (s : σ) :
    p.Eval exec s (p.alone react s).1 (p.alone react s).2 := by
  induction p generalizing s with
  | ret a => exact ⟨rfl, rfl⟩
  | call op k ih => exact ⟨_, _, sound s op, ih _ _⟩

end Program

/-- A session goes on with the given calls, each with what the outside answers in it. -/
def playSession {κ : Type} {Res : κ → Type} (react : ω → σ → (op : Op) → Ans op × σ)
    (prog : (k : κ) → Program Op Ans (Res k)) (c : List (Turn κ σ) × σ) :
    List (κ × ω) → List (Turn κ σ) × σ
  | [] => c
  | t :: turns =>
    let s' := ((prog t.1).alone (react t.2) c.2).2
    playSession react prog (c.1 ++ [⟨t.1, c.2, s'⟩], s') turns

theorem playSession_session {κ : Type} {Res : κ → Type}
    {exec : σ → (op : Op) → Ans op → σ → Prop} {react : ω → σ → (op : Op) → Ans op × σ}
    (sound : ∀ w s op, exec s op (react w s op).1 (react w s op).2)
    {prog : (k : κ) → Program Op Ans (Res k)} {s₀ : σ} {c : List (Turn κ σ) × σ}
    (session : Session exec prog s₀ c.1 c.2) (turns : List (κ × ω)) :
    Session exec prog s₀ (playSession react prog c turns).1 (playSession react prog c turns).2 := by
  induction turns generalizing c with
  | nil => exact session
  | cons t turns ih => exact ih (session.call (Program.alone_eval (sound t.2) _ _))

end Piteka.Interleaving
