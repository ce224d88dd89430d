import Mathlib.Data.List.Sort

/-!
# Prefixes of sorted lists

Two sorted lists, in which equal elements stand together, and one with the elements of
the other as often. The first `n` elements of the smaller list still come first in the
larger one exactly when every new element belongs behind them.
-/
namespace Piteka.Table

set_option autoImplicit false

variable {α : Type} {r : α → α → Prop}

/-- Sorted, with equal elements next to each other. -/
def Grouped (r : α → α → Prop) (l : List α) : Prop := l.Pairwise fun a b => a = b ∨ r a b

theorem Grouped.of_cons {a : α} {l : List α} (h : Grouped r (a :: l)) : Grouped r l :=
  List.Pairwise.of_cons h

theorem Grouped.head {a b : α} {l : List α} (h : Grouped r (a :: l)) (hb : b ∈ l) : a = b ∨ r a b :=
  List.rel_of_pairwise_cons h hb

/-- The least of two sorted lists is the same when what is new stands behind it. -/
theorem head_eq_of_new_after (asymm : ∀ {a b}, r a b → ¬ r b a) {a b : α} {l l' : List α}
    (hs : Grouped r (a :: l)) (hs' : Grouped r (b :: l')) (ha : a ∈ b :: l')
    (hb : b ∈ a :: l ∨ r a b) : b = a := by
  rcases List.mem_cons.mp ha with rfl | ha'
  · rfl
  rcases hs'.head ha' with rfl | hba
  · rfl
  rcases hb with hb | hab
  · rcases List.mem_cons.mp hb with rfl | hb'
    · rfl
    · rcases hs.head hb' with rfl | hab
      · rfl
      · exact absurd hba (asymm hab)
  · exact absurd hba (asymm hab)

/-- A sorted list is a part of every sorted list that has its elements. -/
theorem sublist_of_sorted (asymm : ∀ {a b}, r a b → ¬ r b a) {l l' : List α} (hs : l.Pairwise r)
    (hs' : l'.Pairwise r) (hsub : ∀ x ∈ l, x ∈ l') : l.Sublist l' := by
  have hanti : Std.Antisymm r := ⟨fun _ _ hab hba => absurd hba (asymm hab)⟩
  have hirrefl : Std.Irrefl r := ⟨fun _ haa => asymm haa haa⟩
  exact List.sublist_of_subperm_of_pairwise (List.subperm_of_subset hs.nodup hsub) hs hs'

theorem take_prefix_iff [BEq α] [LawfulBEq α] (asymm : ∀ {a b}, r a b → ¬ r b a) {l l' : List α}
    (hs : Grouped r l) (hs' : Grouped r l') (hcount : ∀ x ∈ l, l'.count x = l.count x) (n : Nat) :
    l.take n <+: l' ↔ ∀ x ∈ l', x ∉ l → ∀ y ∈ l.take n, r y x := by
  constructor
  · rintro ⟨rest, rfl⟩ x hx hnew y hy
    rcases List.mem_append.mp hx with hx | hx
    · exact absurd (List.mem_of_mem_take hx) hnew
    · rcases (List.pairwise_append.mp hs').2.2 y hy x hx with rfl | hyx
      · exact absurd (List.mem_of_mem_take hy) hnew
      · exact hyx
  · intro hnew
    induction l generalizing l' n with
    | nil => simp
    | cons a l ih =>
      cases n with
      | zero => simp
      | succ n =>
        have ha : a ∈ l' := by
          rw [← List.count_pos_iff, hcount a List.mem_cons_self]
          exact List.count_pos_iff.mpr List.mem_cons_self
        cases l' with
        | nil => cases ha
        | cons b l' =>
          have hb : b ∈ a :: l ∨ r a b := by
            by_cases hmem : b ∈ a :: l
            · exact Or.inl hmem
            · exact Or.inr (hnew b List.mem_cons_self hmem a List.mem_cons_self)
          obtain rfl := head_eq_of_new_after asymm hs hs' ha hb
          have htail : ∀ x ∈ b :: l, l'.count x = l.count x := by
            intro x hx
            have hx' := hcount x hx
            simp only [List.count_cons] at hx'
            omega
          rw [List.take_succ_cons, List.cons_prefix_cons]
          refine ⟨rfl, ih hs.of_cons hs'.of_cons (fun x hx => htail x (List.mem_cons_of_mem b hx)) n
            fun x hx hxl y hy => ?_⟩
          have hnot : x ∉ b :: l := by
            intro hmem
            have hpos := List.count_pos_iff.mpr hx
            rw [htail x hmem] at hpos
            exact hxl (List.count_pos_iff.mp hpos)
          exact hnew x (List.mem_cons_of_mem b hx) hnot y (List.mem_cons_of_mem b hy)

/-- The front of a sorted list repeats an element exactly if one before its last place is there
more than once. -/
theorem nodup_take_iff [BEq α] [LawfulBEq α] (asymm : ∀ {a b}, r a b → ¬ r b a) {l : List α}
    (hs : Grouped r l) (n : Nat) :
    (l.take (n + 1)).Nodup ↔ ∀ x ∈ l.take n, l.count x = 1 := by
  induction l generalizing n with
  | nil => simp
  | cons a l ih =>
    cases n with
    | zero => simp
    | succ n =>
      -- A second `a` would stand right behind the first.
      have hnext : a ∈ l → a ∈ l.take (n + 1) := by
        intro hmem
        cases l with
        | nil => cases hmem
        | cons b l =>
          rcases List.mem_cons.mp hmem with rfl | hmem'
          · exact List.mem_cons_self
          rcases hs.head List.mem_cons_self with rfl | hab
          · exact List.mem_cons_self
          rcases hs.of_cons.head hmem' with rfl | hba
          · exact List.mem_cons_self
          · exact absurd hba (asymm hab)
      rw [List.take_succ_cons, List.nodup_cons, ih hs.of_cons]
      constructor
      · rintro ⟨ha, hrest⟩ x hx
        have hal : a ∉ l := fun hmem => ha (hnext hmem)
        rcases List.mem_cons.mp hx with rfl | hx
        · rw [List.count_cons_self, List.count_eq_zero_of_not_mem hal]
        · have hne : a ≠ x := fun he => hal (he ▸ List.mem_of_mem_take hx)
          rw [List.count_cons_of_ne hne, hrest x hx]
      · intro hall
        have hal : a ∉ l := by
          have h := hall a List.mem_cons_self
          rw [List.count_cons_self] at h
          exact List.count_eq_zero.mp (by omega)
        refine ⟨fun hmem => hal (List.mem_of_mem_take hmem), fun x hx => ?_⟩
        have hne : a ≠ x := fun he => hal (he ▸ List.mem_of_mem_take hx)
        have h := hall x (List.mem_cons_of_mem a hx)
        rwa [List.count_cons_of_ne hne] at h

end Piteka.Table
