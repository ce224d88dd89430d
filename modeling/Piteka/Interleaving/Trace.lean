import Piteka.Interleaving.Run
import Mathlib.Data.List.Pairwise
import Mathlib.Data.List.Triplewise

/-!
# The log as a trace of states

Each entry of a log starts in the state where the one before it ended, so facts
about single entries add up: what every entry keeps holds from where it first
held on, and an event that needs a condition to be false and makes it true for
good happens at most once.
-/
namespace Piteka.Interleaving

set_option autoImplicit false

variable {ι Op σ : Type} {Ans : Op → Type} {Res : ι → Type}

/-- Each entry starts in the state where the one before it ended. -/
def Linked : σ → List (Entry ι Ans σ) → σ → Prop
  | s, [], s' => s' = s
  | s, e :: log, s' => e.before = s ∧ Linked e.after log s'

theorem linked_append {s s' : σ} {l₁ l₂ : List (Entry ι Ans σ)} :
    Linked s (l₁ ++ l₂) s' ↔ ∃ t, Linked s l₁ t ∧ Linked t l₂ s' := by
  induction l₁ generalizing s with
  | nil =>
    constructor
    · intro h
      exact ⟨s, rfl, h⟩
    · rintro ⟨t, rfl, h⟩
      exact h
  | cons e l₁ ih =>
    constructor
    · intro h
      obtain ⟨t, h1, h2⟩ := ih.mp h.2
      exact ⟨t, ⟨h.1, h1⟩, h2⟩
    · rintro ⟨t, h1, h2⟩
      exact ⟨h1.1, ih.mpr ⟨t, h1.2, h2⟩⟩

/-- The part before an entry ends where the entry starts. -/
theorem Linked.around {s s' : σ} {l₁ l₂ : List (Entry ι Ans σ)} {e : Entry ι Ans σ}
    (hl : Linked s (l₁ ++ e :: l₂) s') : Linked s l₁ e.before ∧ Linked e.after l₂ s' := by
  obtain ⟨t, h1, h2, h3⟩ := linked_append.mp hl
  subst h2
  exact ⟨h1, h3⟩

/-- What every entry keeps holds at the end when it held at the start. -/
theorem Linked.keeps {s s' : σ} {log : List (Entry ι Ans σ)} {Q : σ → Prop}
    (hl : Linked s log s') (keep : ∀ e ∈ log, Q e.before → Q e.after) (hs : Q s) : Q s' := by
  induction log generalizing s with
  | nil =>
    have he : s' = s := hl
    exact he ▸ hs
  | cons e log ih =>
    obtain ⟨rfl, hl⟩ := hl
    have he : Q e.after := keep e List.mem_cons_self hs
    exact ih hl (fun f hf => keep f (List.mem_cons_of_mem _ hf)) he

/-- What holds at the end and did not at the start was brought about by one of the entries. -/
theorem Linked.enters {s s' : σ} {log : List (Entry ι Ans σ)} {Q : σ → Prop}
    (hl : Linked s log s') (hs : ¬ Q s) (hs' : Q s') :
    ∃ l₁ e l₂, log = l₁ ++ e :: l₂ ∧ ¬ Q e.before ∧ Q e.after := by
  induction log generalizing s with
  | nil =>
    have he : s' = s := hl
    exact absurd (he ▸ hs') hs
  | cons e log ih =>
    obtain ⟨rfl, hl⟩ := hl
    by_cases he : Q e.after
    · exact ⟨[], e, log, rfl, hs, he⟩
    · obtain ⟨l₁, f, l₂, rfl, hf⟩ := ih hl he
      exact ⟨e :: l₁, f, l₂, rfl, hf⟩

/-- What every entry keeps holds before each entry when it held at the start. -/
theorem Linked.keeps_mem {s s' : σ} {log : List (Entry ι Ans σ)} {Q : σ → Prop}
    (hl : Linked s log s') (keep : ∀ e ∈ log, Q e.before → Q e.after) (hs : Q s)
    {e : Entry ι Ans σ} (he : e ∈ log) : Q e.before := by
  obtain ⟨l₁, l₂, rfl⟩ := List.append_of_mem he
  have hl₁ := hl.around.1
  exact hl₁.keeps (fun f hf => keep f (List.mem_append_left _ hf)) hs

/-- What a call makes known and the later ones keep known holds at the end. -/
theorem Linked.known {s s' : σ} {log : List (Entry ι Ans σ)} {K : (op : Op) × Ans op → σ → Prop}
    (hl : Linked s log s') (learn : ∀ e ∈ log, K e.call e.after)
    (keep : ∀ e ∈ log, ∀ c, K c e.before → K c e.after) {e : Entry ι Ans σ} (he : e ∈ log) :
    K e.call s' := by
  obtain ⟨l₁, l₂, rfl⟩ := List.append_of_mem he
  have hl₂ := hl.around.2
  refine hl₂.keeps (Q := K e.call) (fun f hf => ?_) (learn e he)
  exact keep f (List.mem_append_right _ (List.mem_cons_of_mem e hf)) e.call

/-- An event that needs `Q` false and leaves `Q` true happens at most once while `Q` is kept. -/
theorem Linked.once {s s' : σ} {log : List (Entry ι Ans σ)} {Q : σ → Prop}
    {E : Entry ι Ans σ → Prop} (hl : Linked s log s')
    (enter : ∀ e ∈ log, E e → ¬ Q e.before ∧ Q e.after)
    (keep : ∀ e ∈ log, Q e.before → Q e.after) :
    log.Pairwise fun e e' => E e → ¬ E e' := by
  induction log generalizing s with
  | nil => exact List.Pairwise.nil
  | cons e log ih =>
    obtain ⟨rfl, hl⟩ := hl
    have keep' : ∀ f ∈ log, Q f.before → Q f.after :=
      fun f hf => keep f (List.mem_cons_of_mem _ hf)
    refine List.Pairwise.cons ?_ (ih hl (fun f hf => enter f (List.mem_cons_of_mem _ hf)) keep')
    intro f hf hE hF
    have hQ : Q f.before := hl.keeps_mem keep' (enter e List.mem_cons_self hE).2 hf
    exact (enter f (List.mem_cons_of_mem _ hf) hF).1 hQ

/-- An event that happens at most once in a list happens at one place of it. -/
theorem unique_of_once {α : Type} {E : α → Prop} {l : List α}
    (once : l.Pairwise fun x y => E x → ¬ E y) {x y : α} (hx : x ∈ l) (hy : y ∈ l)
    (hEx : E x) (hEy : E y) : x = y := by
  induction l with
  | nil => cases hx
  | cons z l ih =>
    obtain ⟨hz, hl⟩ := List.pairwise_cons.mp once
    rcases List.mem_cons.mp hx with rfl | hx'
    · rcases List.mem_cons.mp hy with rfl | hy'
      · rfl
      · exact absurd hEy (hz y hy' hEx)
    · rcases List.mem_cons.mp hy with rfl | hy'
      · exact absurd hEx (hz x hx' hEy)
      · exact ih hl hx' hy'

/-- Two callers that have both made a call of which a run has at most one are the same. -/
theorem caller_unique [DecidableEq ι] {log : List (Entry ι Ans σ)} {E : Entry ι Ans σ → Prop}
    (once : log.Pairwise fun e f => E e → ¬ E f) {i j : ι} {c d : (op : Op) × Ans op}
    (hc : c ∈ history i log) (hd : d ∈ history j log) (hE : ∀ e, e.call = c → E e)
    (hF : ∀ f, f.call = d → E f) : i = j := by
  obtain ⟨e, he, rfl, hec⟩ := mem_history.mp hc
  obtain ⟨f, hf, rfl, hfd⟩ := mem_history.mp hd
  rw [unique_of_once once he hf (hE e hec) (hF f hfd)]

theorem once_of_length_filterMap {α β : Type} {f : α → Option β} {l : List α}
    (hlen : (l.filterMap f).length ≤ 1) :
    l.Pairwise fun x y => (f x).isSome → ¬ (f y).isSome := by
  induction l with
  | nil => exact List.Pairwise.nil
  | cons x l ih =>
    cases hf : f x with
    | none =>
      rw [List.filterMap_cons_none hf] at hlen
      refine List.pairwise_cons.mpr ⟨fun y _ hx => ?_, ih hlen⟩
      rw [hf] at hx
      cases hx
    | some z =>
      rw [List.filterMap_cons_some hf, List.length_cons] at hlen
      have hnil : l.filterMap f = [] := List.length_eq_zero_iff.mp (by omega)
      refine List.pairwise_cons.mpr ⟨fun y hy _ => ?_, ih (by rw [hnil]; exact Nat.zero_le 1)⟩
      rw [List.filterMap_eq_nil_iff.mp hnil y hy]
      exact Bool.false_ne_true

instance decidableTriplewise {α : Type} (R : α → α → α → Prop)
    [∀ x y z, Decidable (R x y z)] : (l : List α) → Decidable (l.Triplewise R)
  | [] => isTrue .nil
  | x :: l =>
    have := decidableTriplewise R l
    decidable_of_iff (l.Pairwise (R x) ∧ l.Triplewise R) List.triplewise_cons.symm

theorem triplewise_between {α : Type} {R : α → α → α → Prop} {l₁ l₂ l₃ : List α} {x y z : α}
    (h : (l₁ ++ x :: l₂ ++ z :: l₃).Triplewise R) (hy : y ∈ l₂) : R x y z := by
  rw [List.append_assoc, List.cons_append] at h
  have hx : (l₂ ++ z :: l₃).Pairwise (R x) :=
    (List.triplewise_cons.mp (List.triplewise_append.mp h).2.1).1
  exact (List.pairwise_append.mp hx).2.2 y hy z List.mem_cons_self

/-- The values written in a trace, with the first value in front: they form a chain in `R`
exactly when every write steps in `R` from the value it overwrites. -/
theorem Linked.chain_iff {β : Type} {s s' : σ} {log : List (Entry ι Ans σ)}
    {f : Entry ι Ans σ → Option β} {R : β → β → Prop} {b₀ : β} (hl : Linked s log s')
    (has : σ → β → Prop) (unique : ∀ {t b b'}, has t b → has t b' → b = b')
    (skip : ∀ e ∈ log, f e = none → ∀ b, has e.before b → has e.after b)
    (write : ∀ e ∈ log, ∀ b, f e = some b → has e.after b) (h₀ : has s b₀) :
    (b₀ :: log.filterMap f).IsChain R ↔
      ∀ e ∈ log, ∀ b, f e = some b → ∀ b', has e.before b' → R b' b := by
  induction log generalizing s b₀ with
  | nil => exact ⟨fun _ e he => absurd he List.not_mem_nil, fun _ => List.IsChain.singleton b₀⟩
  | cons e log ih =>
    obtain ⟨rfl, hl⟩ := hl
    have skip' := fun g hg => skip g (List.mem_cons_of_mem e hg)
    have write' := fun g hg => write g (List.mem_cons_of_mem e hg)
    cases hf : f e with
    | none =>
      have hafter : has e.after b₀ := skip e List.mem_cons_self hf b₀ h₀
      rw [List.filterMap_cons_none hf, ih hl skip' write' hafter]
      constructor
      · intro h g hg b hb
        rcases List.mem_cons.mp hg with rfl | hg
        · rw [hf] at hb
          cases hb
        · exact h g hg b hb
      · intro h g hg
        exact h g (List.mem_cons_of_mem e hg)
    | some b =>
      have hafter : has e.after b := write e List.mem_cons_self b hf
      rw [List.filterMap_cons_some hf, List.isChain_cons_cons, ih hl skip' write' hafter]
      constructor
      · rintro ⟨hR, h⟩ g hg c hc b' hb'
        rcases List.mem_cons.mp hg with rfl | hg
        · rw [hf] at hc
          cases hc
          exact unique h₀ hb' ▸ hR
        · exact h g hg c hc b' hb'
      · intro h
        exact ⟨h e List.mem_cons_self b hf b₀ h₀, fun g hg => h g (List.mem_cons_of_mem e hg)⟩

/-- The last value written is the one at the end of the trace. -/
theorem Linked.has_last {β : Type} {s s' : σ} {log : List (Entry ι Ans σ)}
    {f : Entry ι Ans σ → Option β} {b₀ : β} (hl : Linked s log s') (has : σ → β → Prop)
    (skip : ∀ e ∈ log, f e = none → ∀ b, has e.before b → has e.after b)
    (write : ∀ e ∈ log, ∀ b, f e = some b → has e.after b) (h₀ : has s b₀) :
    has s' ((b₀ :: log.filterMap f).getLast (List.cons_ne_nil _ _)) := by
  induction log generalizing s b₀ with
  | nil =>
    have he : s' = s := hl
    exact he ▸ h₀
  | cons e log ih =>
    obtain ⟨rfl, hl⟩ := hl
    have skip' := fun g hg => skip g (List.mem_cons_of_mem e hg)
    have write' := fun g hg => write g (List.mem_cons_of_mem e hg)
    cases hf : f e with
    | none =>
      have hafter : has e.after b₀ := skip e List.mem_cons_self hf b₀ h₀
      simpa only [List.filterMap_cons_none hf] using ih hl skip' write' hafter
    | some b =>
      have hafter : has e.after b := write e List.mem_cons_self b hf
      simpa only [List.filterMap_cons_some hf, List.getLast_cons_cons] using
        ih hl skip' write' hafter

/-- A linked log whose entries have been executed. -/
structure Trace (exec : σ → (op : Op) → Ans op → σ → Prop) (s : σ) (log : List (Entry ι Ans σ))
    (s' : σ) : Prop where
  linked : Linked s log s'
  executed : ∀ e ∈ log, exec e.before e.call.1 e.call.2 e.after

theorem Trace.mono {exec exec' : σ → (op : Op) → Ans op → σ → Prop} {s s' : σ}
    {log : List (Entry ι Ans σ)} (ht : Trace exec s log s')
    (weaker : ∀ {t op a t'}, exec t op a t' → exec' t op a t') : Trace exec' s log s' :=
  ⟨ht.linked, fun e he => weaker (ht.executed e he)⟩

theorem Trace.around {exec : σ → (op : Op) → Ans op → σ → Prop} {s s' : σ}
    {l₁ l₂ : List (Entry ι Ans σ)} {e : Entry ι Ans σ} (ht : Trace exec s (l₁ ++ e :: l₂) s') :
    Trace exec s l₁ e.before ∧ Trace exec e.after l₂ s' := by
  obtain ⟨h1, h2⟩ := ht.linked.around
  refine ⟨⟨h1, fun f hf => ?_⟩, ⟨h2, fun f hf => ?_⟩⟩
  · exact ht.executed f (List.mem_append_left _ hf)
  · exact ht.executed f (List.mem_append_right _ (List.mem_cons_of_mem e hf))

/-- What one executed call keeps, a trace keeps. -/
theorem Trace.keeps {exec : σ → (op : Op) → Ans op → σ → Prop} {s s' : σ}
    {log : List (Entry ι Ans σ)} {Q : σ → Prop} (ht : Trace exec s log s')
    (keep : ∀ {t op a t'}, exec t op a t' → Q t → Q t') (hs : Q s) : Q s' :=
  ht.linked.keeps (fun e he => keep (ht.executed e he)) hs

section
variable [DecidableEq ι] {exec : σ → (op : Op) → Ans op → σ → Prop} {s₀ s : σ}
  {p₀ p : (i : ι) → Program Op Ans (Res i)} {log : List (Entry ι Ans σ)}

theorem Run.linked (run : Run exec s₀ p₀ log s p) : Linked s₀ log s := by
  induction run with
  | start => rfl
  | @step log s s' p i op k a _ _ _ ih => exact linked_append.mpr ⟨s, ih, rfl, rfl⟩

/-- Before each entry of a run there was a run, and its caller stood at the entry's call. -/
theorem Run.at_entry {l₁ l₂ : List (Entry ι Ans σ)} {e : Entry ι Ans σ}
    (run : Run exec s₀ p₀ (l₁ ++ e :: l₂) s p) :
    (∃ p', Run exec s₀ p₀ l₁ e.before p') ∧
      (p₀ e.caller).Next (history e.caller l₁) e.call.1 := by
  generalize hlog : l₁ ++ e :: l₂ = log at run
  induction run generalizing l₂ with
  | start => exact absurd hlog (by simp)
  | @step log s s' p i op k a run hp _ ih =>
    rcases List.eq_nil_or_concat l₂ with rfl | ⟨l₃, f, rfl⟩
    · obtain ⟨rfl, he⟩ := List.append_inj' hlog rfl
      obtain rfl := List.singleton_inj.mp he
      have hf := run.follows i
      exact ⟨⟨p, run⟩, k, hp ▸ hf⟩
    · rw [List.concat_eq_append, ← List.cons_append, ← List.append_assoc] at hlog
      exact ih (List.append_inj' hlog rfl).1

theorem Run.trace (run : Run exec s₀ p₀ log s p) : Trace exec s₀ log s :=
  ⟨run.linked, fun _ he => run.exec_of_mem he⟩

end

end Piteka.Interleaving
