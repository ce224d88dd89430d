import Mathlib.Data.List.Basic

/-!
# Parts behind a separator

Parts that are joined with a separator and are not escaped. A part that does not
contain the separator comes off the front again. A part that stands twice at the
front is found too, unless a longer one stands there twice as well; `Overlap` says
what the rest of the sequence then is.
-/
namespace Piteka.Text.Separated

set_option autoImplicit false

variable {α : Type} {sep : α}

/-- A part without the separator comes off the front. -/
theorem part_append_inj {a b x y : List α} (ha : sep ∉ a) (hb : sep ∉ b)
    (h : a ++ sep :: x = b ++ sep :: y) : a = b ∧ x = y := by
  induction a generalizing b with
  | nil =>
    cases b with
    | nil => exact ⟨rfl, (List.cons.inj h).2⟩
    | cons c b => exact absurd ((List.cons.inj h).1 ▸ List.mem_cons_self) hb
  | cons c a ih =>
    cases b with
    | nil => exact absurd ((List.cons.inj h).1 ▸ List.mem_cons_self) ha
    | cons d b =>
      obtain ⟨hcd, htail⟩ := List.cons.inj h
      obtain ⟨hab, hrest⟩ := ih (fun hc => ha (List.mem_cons_of_mem _ hc))
        (fun hc => hb (List.mem_cons_of_mem _ hc)) htail
      exact ⟨List.cons_eq_cons.mpr ⟨hcd, hab⟩, hrest⟩

/-- A part that stands twice at the front, and the rest. -/
def doubled (sep : α) (a x : List α) : List α := a ++ sep :: (a ++ sep :: x)

/-- `b` goes on behind `a` with a part `w`, and the rest `x` makes up for it. -/
def Overlap (sep : α) (a x b y : List α) : Prop :=
  ∃ w, b = a ++ sep :: w ∧ a ++ sep :: x = w ++ sep :: (b ++ sep :: y)

theorem Overlap.ne {a x b y : List α} (h : Overlap sep a x b y) : a ≠ b := by
  obtain ⟨w, rfl, _⟩ := h
  intro hab
  have hlen := congrArg List.length hab
  rw [List.length_append, List.length_cons] at hlen
  omega

theorem Overlap.doubled_eq {a x b y : List α} (h : Overlap sep a x b y) :
    doubled sep a x = doubled sep b y := by
  obtain ⟨w, hb, hrest⟩ := h
  have hleft : doubled sep b y = a ++ sep :: (w ++ sep :: (b ++ sep :: y)) := by
    rw [doubled, hb, List.append_assoc]
    rfl
  rw [hleft, ← hrest]
  rfl

/-- Two sequences that are one but for their names: the shorter of the doubled parts stands
in front of the longer one. -/
theorem overlap_of_append {a x b y c : List α} (hb : b = a ++ c) (hne : a ≠ b)
    (h : doubled sep a x = doubled sep b y) : Overlap sep a x b y := by
  have hrest : sep :: (a ++ sep :: x) = c ++ sep :: (b ++ sep :: y) := by
    have hsame : a ++ (sep :: (a ++ sep :: x)) = a ++ (c ++ sep :: (b ++ sep :: y)) := by
      rw [← List.append_assoc a c, ← hb]
      exact h
    exact List.append_cancel_left hsame
  cases c with
  | nil => exact absurd (hb.trans (List.append_nil a)).symm hne
  | cons s w =>
    obtain ⟨rfl, htail⟩ := List.cons.inj hrest
    exact ⟨w, hb, htail⟩

/-- Two doubled parts make one sequence exactly if they are the same with the same rest, or one
of them overlaps the other. -/
theorem doubled_eq_iff {a x b y : List α} :
    doubled sep a x = doubled sep b y ↔
      (a = b ∧ x = y) ∨ Overlap sep a x b y ∨ Overlap sep b y a x := by
  constructor
  · intro h
    by_cases hab : a = b
    · subst hab
      have hrest := (List.cons.inj (List.append_cancel_left h)).2
      exact Or.inl ⟨rfl, (List.cons.inj (List.append_cancel_left hrest)).2⟩
    · refine Or.inr ?_
      rcases List.append_eq_append_iff.mp h with ⟨c, hb, _⟩ | ⟨c, ha, _⟩
      · exact Or.inl (overlap_of_append hb hab h)
      · exact Or.inr (overlap_of_append ha (Ne.symm hab) h.symm)
  · rintro (⟨rfl, rfl⟩ | h | h)
    · rfl
    · exact h.doubled_eq
    · exact h.doubled_eq.symm

/-- A part without the separator overlaps no other. -/
theorem not_overlap {a x b y : List α} (hb : sep ∉ b) : ¬ Overlap sep a x b y := by
  rintro ⟨w, rfl, _⟩
  exact hb (List.mem_append_right _ List.mem_cons_self)

end Piteka.Text.Separated
