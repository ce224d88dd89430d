import Mathlib.Data.List.AList
import Mathlib.Data.List.Induction

/-!
# Maps collected from rows

A map that is collected from a list of rows holds for each key the last row that has
it. What is read from such a map depends on the order of the rows exactly where the
rows of one key differ.
-/
namespace Piteka.Table

set_option autoImplicit false

variable {K V : Type} {key : V → K} {rows : List V} {k : K} {v : V}
  {p : V → Bool}

/-- Each row is inserted under its key, in the place of an earlier one. -/
def collect [DecidableEq K] (key : V → K) (rows : List V) : AList (fun _ : K => V) :=
  rows.foldl (fun m v => m.insert (key v) v) ∅

/-- The row is the last one that has the key. -/
def IsLast (key : V → K) (rows : List V) (k : K) (v : V) : Prop :=
  ∃ before after, rows = before ++ v :: after ∧ key v = k ∧ ∀ w ∈ after, key w ≠ k

/-- The last row that has the key has the property. -/
def LastHas (key : V → K) (rows : List V) (k : K) (p : V → Bool) : Prop :=
  ∃ v, IsLast key rows k v ∧ p v = true

/-- The key has rows, and they all have the property. -/
structure EachHas (key : V → K) (rows : List V) (k : K) (p : V → Bool) : Prop where
  some : ∃ v ∈ rows, key v = k
  all : ∀ v ∈ rows, key v = k → p v = true

/-- A row that has the key lacks the property. -/
def SomeLacks (key : V → K) (rows : List V) (k : K) (p : V → Bool) : Prop :=
  ∃ v ∈ rows, key v = k ∧ p v = false

theorem isLast_append_singleton {w : V} :
    IsLast key (rows ++ [w]) k v ↔ (key w = k ∧ w = v) ∨ (key w ≠ k ∧ IsLast key rows k v) := by
  constructor
  · rintro ⟨before, after, heq, hv, hafter⟩
    rcases List.eq_nil_or_concat after with rfl | ⟨after, w', rfl⟩
    · obtain ⟨_, rfl⟩ := List.append_inj' heq rfl |>.imp_right List.singleton_inj.mp
      exact Or.inl ⟨hv, rfl⟩
    · rw [List.concat_eq_append, ← List.cons_append, ← List.append_assoc] at heq
      obtain ⟨rfl, h⟩ := List.append_inj' heq rfl
      obtain rfl := List.singleton_inj.mp h
      rw [List.concat_eq_append] at hafter
      refine Or.inr ⟨hafter w (by simp), before, after, rfl, hv, fun x hx => ?_⟩
      exact hafter x (List.mem_append_left _ hx)
  · rintro (⟨hw, rfl⟩ | ⟨hw, before, after, rfl, hv, hafter⟩)
    · exact ⟨rows, [], rfl, hw, by simp⟩
    · refine ⟨before, after ++ [w], by simp, hv, fun x hx => ?_⟩
      rcases List.mem_append.mp hx with hx | hx
      · exact hafter x hx
      · rw [List.mem_singleton.mp hx]
        exact hw

theorem lookup_collect [DecidableEq K] :
    (collect key rows).lookup k = some v ↔ IsLast key rows k v := by
  induction rows using List.reverseRecOn with
  | nil =>
    refine iff_of_false (by simp [collect]) ?_
    rintro ⟨before, after, heq, _⟩
    simp at heq
  | append_singleton rows w ih =>
    have hcollect : collect key (rows ++ [w]) = (collect key rows).insert (key w) w := by
      simp [collect]
    rw [hcollect, isLast_append_singleton]
    by_cases hw : key w = k
    · subst hw
      simp [AList.lookup_insert]
    · rw [AList.lookup_insert_ne (Ne.symm hw), ih]
      simp [hw]

theorem IsLast.mem (h : IsLast key rows k v) : v ∈ rows ∧ key v = k := by
  obtain ⟨before, after, rfl, hv, _⟩ := h
  exact ⟨by simp, hv⟩

theorem exists_isLast (h : ∃ v ∈ rows, key v = k) : ∃ v, IsLast key rows k v := by
  induction rows using List.reverseRecOn with
  | nil => simp at h
  | append_singleton rows w ih =>
    by_cases hw : key w = k
    · exact ⟨w, isLast_append_singleton.mpr (Or.inl ⟨hw, rfl⟩)⟩
    · obtain ⟨v, hv, hk⟩ := h
      have hrows : v ∈ rows := by
        rcases List.mem_append.mp hv with hv | hv
        · exact hv
        · rw [List.mem_singleton.mp hv] at hk
          exact absurd hk hw
      obtain ⟨u, hu⟩ := ih ⟨v, hrows, hk⟩
      exact ⟨u, isLast_append_singleton.mpr (Or.inr ⟨hw, hu⟩)⟩

theorem EachHas.lastHas (h : EachHas key rows k p) : LastHas key rows k p := by
  obtain ⟨v, hv⟩ := exists_isLast h.some
  obtain ⟨hmem, hk⟩ := hv.mem
  exact ⟨v, hv, h.all v hmem hk⟩

theorem LastHas.exists_row (h : LastHas key rows k p) : ∃ v ∈ rows, key v = k ∧ p v = true := by
  obtain ⟨v, hv, hp⟩ := h
  obtain ⟨hmem, hk⟩ := hv.mem
  exact ⟨v, hmem, hk, hp⟩

theorem eachHas_iff : EachHas key rows k p ↔ LastHas key rows k p ∧ ¬ SomeLacks key rows k p := by
  constructor
  · intro h
    refine ⟨h.lastHas, ?_⟩
    rintro ⟨v, hv, hk, hp⟩
    rw [h.all v hv hk] at hp
    cases hp
  · rintro ⟨hlast, hlacks⟩
    obtain ⟨v, hv, hk, _⟩ := hlast.exists_row
    refine ⟨⟨v, hv, hk⟩, fun w hw hkw => ?_⟩
    cases hp : p w with
    | true => rfl
    | false => exact absurd ⟨w, hw, hkw, hp⟩ hlacks

theorem EachHas.perm {rows' : List V} (h : EachHas key rows k p) (hperm : rows'.Perm rows) :
    EachHas key rows' k p where
  some := by
    obtain ⟨v, hv, hk⟩ := h.some
    exact ⟨v, hperm.mem_iff.mpr hv, hk⟩
  all := fun v hv hk => h.all v (hperm.mem_iff.mp hv) hk

/-! ## The most and the least favourable order -/

theorem isLast_append {later : List V} :
    IsLast key (rows ++ later) k v ↔
      IsLast key later k v ∨ (∀ w ∈ later, key w ≠ k) ∧ IsLast key rows k v := by
  induction later using List.reverseRecOn with
  | nil =>
    have hnil : ¬ IsLast key [] k v := by
      intro h
      cases h.mem.1
    simp [hnil]
  | append_singleton later w ih =>
    rw [← List.append_assoc, isLast_append_singleton, isLast_append_singleton, ih]
    simp only [List.mem_append, List.mem_singleton, or_imp, forall_and, forall_eq]
    tauto

/-- The rows with the property moved to the end. -/
def favourable (p : V → Bool) (rows : List V) : List V :=
  rows.filter (fun v => !p v) ++ rows.filter p

theorem favourable_perm : (favourable p rows).Perm rows :=
  List.perm_append_comm.trans (List.filter_append_perm p rows)

theorem lastHas_favourable (h : ∃ v ∈ rows, key v = k ∧ p v = true) :
    LastHas key (favourable p rows) k p := by
  obtain ⟨v, hv, hk, hp⟩ := h
  have hrow : ∃ u ∈ rows.filter p, key u = k := ⟨v, List.mem_filter.mpr ⟨hv, hp⟩, hk⟩
  obtain ⟨u, hu⟩ := exists_isLast hrow
  exact ⟨u, isLast_append.mpr (Or.inl hu), (List.mem_filter.mp hu.mem.1).2⟩

theorem not_lastHas_unfavourable (h : SomeLacks key rows k p) :
    ¬ LastHas key (favourable (fun v => !p v) rows) k p := by
  rintro ⟨v, hv, hp⟩
  obtain ⟨w, hw, hk, hlacks⟩ := h
  have hmem : w ∈ rows.filter fun v => !p v := List.mem_filter.mpr ⟨hw, by simp [hlacks]⟩
  rcases isLast_append.mp hv with hv | ⟨hnone, _⟩
  · have hnot := (List.mem_filter.mp hv.mem.1).2
    simp [hp] at hnot
  · exact hnone w hmem hk

end Piteka.Table
