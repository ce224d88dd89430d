import Piteka.Table.Keyed

/-!
# Tables against lists

A table lists `l` when its rows are those of `l`, each under its own key. The list
has the order of the insertions, which the map itself does not keep. For an indexed
table the index keeps the order inside each group.
-/
namespace Piteka.Table

set_option autoImplicit false

variable {K G V : Type} [DecidableEq K] [DecidableEq G] {key : V → K} {group : V → G}
  {l : List V} {v : V} {k : K}

/-- A change of the row under a key, in the list. -/
def changeAt (key : V → K) (k : K) (f : V → V) (l : List V) : List V :=
  l.map fun v => if key v = k then f v else v

theorem mem_changeAt {f : V → V} : v ∈ changeAt key k f l ↔
    (∃ w ∈ l, key w = k ∧ f w = v) ∨ (v ∈ l ∧ key v ≠ k) := by
  unfold changeAt
  rw [List.mem_map]
  constructor
  · rintro ⟨w, hw, hv⟩
    split at hv
    · next hk => exact Or.inl ⟨w, hw, hk, hv⟩
    · next hk =>
      obtain rfl := hv
      exact Or.inr ⟨hw, hk⟩
  · rintro (⟨w, hw, hk, rfl⟩ | ⟨hv, hk⟩)
    · exact ⟨w, hw, if_pos hk⟩
    · exact ⟨v, hv, if_neg hk⟩

/-- What the change keeps stays, row by row. -/
theorem map_changeAt {β : Type} {f : V → V} {g : V → β} (hg : ∀ v, g (f v) = g v) :
    (changeAt key k f l).map g = l.map g := by
  unfold changeAt
  rw [List.map_map]
  refine List.map_congr_left fun v _ => ?_
  rw [Function.comp_apply]
  split
  · exact hg v
  · rfl

theorem filter_changeAt {f : V → V} {p : V → Bool} (hp : ∀ v, p (f v) = p v) :
    (changeAt key k f l).filter p = changeAt key k f (l.filter p) := by
  unfold changeAt
  rw [List.filter_map]
  refine congrArg _ (List.filter_congr fun v _ => ?_)
  rw [Function.comp_apply]
  split
  · exact hp v
  · rfl

/-- The rows of the table are those of the list, and no two have one key. -/
structure Keyed.Lists (t : Keyed K V key) (l : List V) : Prop where
  mem_iff : ∀ v, v ∈ l ↔ t.get (key v) = some v
  nodup : (l.map key).Nodup

namespace Keyed.Lists

variable {t : Keyed K V key}

theorem empty : (Keyed.empty : Keyed K V key).Lists [] where
  mem_iff v := by simp
  nodup := List.nodup_nil

theorem get_mem (h : t.Lists l) (hv : t.get k = some v) : v ∈ l := by
  have hk : key v = k := t.keyed hv
  rw [h.mem_iff, hk, hv]

theorem insert (h : t.Lists l) (fresh : t.get (key v) = none) : (t.insert v).Lists (l ++ [v]) := by
  have hout : key v ∉ l.map key := by
    rintro hmem
    obtain ⟨w, hw, hk⟩ := List.mem_map.mp hmem
    rw [h.mem_iff, hk, fresh] at hw
    cases hw
  constructor
  · intro w
    rw [List.mem_append, List.mem_singleton, get_insert]
    split
    · next hk =>
      have hw : w ∉ l := fun hw => hout (hk ▸ List.mem_map_of_mem hw)
      rw [or_iff_right hw, Option.some.injEq, eq_comm]
    · next hk =>
      rw [← h.mem_iff]
      exact or_iff_left fun hwv => hk (congrArg key hwv)
  · rw [List.map_append]
    exact List.nodup_append'.mpr ⟨h.nodup, List.nodup_singleton _,
      List.disjoint_singleton.mpr hout⟩

theorem modify (h : t.Lists l) {f : V → V} (hf : ∀ v, key (f v) = key v) :
    (t.modify k f hf).Lists (changeAt key k f l) := by
  constructor
  · intro w
    rw [mem_changeAt, get_modify]
    split
    · next hk =>
      rw [Option.map_eq_some_iff, or_iff_left (fun hw => hw.2 hk)]
      constructor
      · rintro ⟨u, hu, rfl, hfu⟩
        exact ⟨u, (h.mem_iff u).mp hu, hfu⟩
      · rintro ⟨u, hu, hfu⟩
        exact ⟨u, h.get_mem hu, t.keyed hu, hfu⟩
    · next hk =>
      rw [h.mem_iff]
      constructor
      · rintro (⟨u, _, hu, rfl⟩ | ⟨hw, _⟩)
        · exact absurd ((hf u).trans hu) hk
        · exact hw
      · exact fun hw => Or.inr ⟨hw, hk⟩
  · rw [map_changeAt hf]
    exact h.nodup

theorem values_perm (h : t.Lists l) : t.values.Perm l := by
  refine (List.perm_ext_iff_of_nodup (List.Nodup.of_map key t.keys_nodup)
    (List.Nodup.of_map key h.nodup)).mpr fun v => ?_
  rw [t.mem_values, h.mem_iff]

end Keyed.Lists

/-- The rows are listed, and the index has the keys of each group in the order of the list. -/
structure Indexed.Lists (t : Indexed K G V key group) (l : List V) : Prop where
  rows : t.toKeyed.Lists l
  keysOf_eq : ∀ g, t.keysOf g = (l.filter fun v => group v = g).map key

namespace Indexed.Lists

variable {t : Indexed K G V key group}

theorem empty : (Indexed.empty : Indexed K G V key group).Lists [] where
  rows := Keyed.Lists.empty
  keysOf_eq _ := rfl

theorem insertNew (h : t.Lists l) (fresh : t.get (key v) = none) :
    (t.insertNew v fresh).Lists (l ++ [v]) where
  rows := h.rows.insert fresh
  keysOf_eq g := by
    rw [keysOf_insertNew, h.keysOf_eq, h.keysOf_eq, List.filter_append, List.map_append]
    split
    · next hg => simp [hg]
    · next hg => simp [Ne.symm hg]

theorem modify (h : t.Lists l) {f : V → V} (hk : ∀ v, key (f v) = key v)
    (hg : ∀ v, group (f v) = group v) : (t.modify k f hk hg).Lists (changeAt key k f l) where
  rows := h.rows.modify hk
  keysOf_eq g := by
    rw [filter_changeAt (fun v => by rw [hg]), map_changeAt hk]
    exact h.keysOf_eq g

/-- Reading a group through the index gives its rows in the order of the list. -/
theorem byGroup_eq (h : t.Lists l) (g : G) : t.byGroup g = l.filter fun v => group v = g := by
  rw [byGroup, h.keysOf_eq, List.filterMap_map]
  have hget : ∀ v ∈ l.filter fun v => group v = g, (t.get ∘ key) v = some v :=
    fun v hv => (h.rows.mem_iff v).mp (List.mem_of_mem_filter hv)
  rw [List.filterMap_congr hget, List.filterMap_some]

end Indexed.Lists

end Piteka.Table
