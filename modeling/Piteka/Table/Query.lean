import Piteka.Table.Ordered
import Mathlib.Data.List.Perm.Basic
import Mathlib.Data.List.Sort

/-!
# Queries on tables

The rows of a query come in an order of the database's choosing, or sorted by a
column and in any order among the rows that are equal in it. A table is the image
of another when it has the image of each of its rows under the same key; both then
answer a query with the same rows, up to the image and the order.
-/
namespace Piteka.Table

set_option autoImplicit false

/-- The order in which the rows of a query are found. -/
structure Scan (V : Type) where
  order : List V → List V
  perm : ∀ l, (order l).Perm l

def Scan.asListed (V : Type) : Scan V where
  order := id
  perm _ := .refl _

/-- `ORDER BY` a column, with rows of one value in the order in which they are found. -/
def Scan.orderedBy {V T : Type} [LE T] [DecidableLE T] (scan : Scan V) (column : V → T)
    (l : List V) : List V :=
  (scan.order l).insertionSort fun a b => column a ≤ column b

namespace Scan

variable {V T : Type} [LE T] [DecidableLE T]

theorem orderedBy_perm (scan : Scan V) (column : V → T) (l : List V) :
    (scan.orderedBy column l).Perm l :=
  (List.perm_insertionSort _ _).trans (scan.perm l)

theorem orderedBy_sorted [Std.IsLinearPreorder T] (scan : Scan V) (column : V → T) (l : List V) :
    (scan.orderedBy column l).Pairwise fun a b => column a ≤ column b := by
  have htotal : Std.Total fun a b : V => column a ≤ column b := ⟨fun _ _ => Std.le_total⟩
  have htrans : IsTrans V fun a b => column a ≤ column b := ⟨fun _ _ _ => Std.le_trans⟩
  exact List.pairwise_insertionSort (fun a b => column a ≤ column b) (scan.order l)

end Scan

/-- A sort by a column keeps the order of the rows that are equal in it. -/
theorem filter_insertionSort {V T : Type} [LE T] [DecidableLE T] [DecidableEq T] [Std.IsLinearPreorder T]
    (column : V → T) (l : List V) (x : T) :
    ((l.insertionSort fun a b => column a ≤ column b).filter fun v => column v = x) =
      l.filter fun v => column v = x := by
  have hequal : (l.filter fun v => column v = x).Pairwise fun a b => column a ≤ column b := by
    refine List.pairwise_of_forall_mem_list fun a ha b hb => ?_
    rw [of_decide_eq_true (List.mem_filter.mp ha).2, of_decide_eq_true (List.mem_filter.mp hb).2]
    exact Std.le_refl x
  have hsub := (List.sublist_insertionSort hequal List.filter_sublist).filter fun v => column v = x
  rw [List.filter_filter] at hsub
  simp only [Bool.and_self] at hsub
  have hlength := ((List.perm_insertionSort (fun a b => column a ≤ column b) l).filter
    fun v => column v = x).length_eq
  exact (hsub.eq_of_length hlength.symm).symm

theorem mapM_cons_ok {V W ε : Type} {f : V → Except ε W} {v : V} {l : List V} {xs : List W}
    (h : (v :: l).mapM f = .ok xs) : ∃ w ws, f v = .ok w ∧ l.mapM f = .ok ws ∧ xs = w :: ws := by
  rw [List.mapM_cons] at h
  cases hv : f v with
  | error e =>
    rw [hv] at h
    cases h
  | ok w =>
    cases hl : l.mapM f with
    | error e =>
      rw [hv, hl] at h
      cases h
    | ok ws =>
      rw [hv, hl] at h
      exact ⟨w, ws, rfl, rfl, (Except.ok.inj h).symm⟩

/-- Each member of the list that is read comes from a row that is read as it. -/
theorem mem_of_mapM_ok {V W ε : Type} {f : V → Except ε W} {l : List V} {xs : List W}
    (h : l.mapM f = .ok xs) {x : W} (hx : x ∈ xs) : ∃ v ∈ l, f v = .ok x := by
  induction l generalizing xs with
  | nil =>
    obtain rfl := Except.ok.inj h
    cases hx
  | cons v l ih =>
    obtain ⟨w, ws, hv, hl, rfl⟩ := mapM_cons_ok h
    rcases List.mem_cons.mp hx with rfl | hx
    · exact ⟨v, List.mem_cons_self, hv⟩
    · obtain ⟨u, hu, hfu⟩ := ih hl hx
      exact ⟨u, List.mem_cons_of_mem v hu, hfu⟩

/-- What is read of a row as the row has it is read of the list as the rows have it. -/
theorem map_of_mapM_ok {V W U ε : Type} {f : V → Except ε W} {g : W → U} {g' : V → U}
    (hg : ∀ v x, f v = .ok x → g x = g' v) {l : List V} {xs : List W} (h : l.mapM f = .ok xs) :
    xs.map g = l.map g' := by
  induction l generalizing xs with
  | nil =>
    obtain rfl := Except.ok.inj h
    rfl
  | cons v l ih =>
    obtain ⟨w, ws, hv, hl, rfl⟩ := mapM_cons_ok h
    rw [List.map_cons, List.map_cons, hg v w hv, ih hl]

/-- A query whose rows all decode. -/
theorem mapM_ok {V W ε : Type} {f : V → Except ε W} {g : V → W} {l : List V}
    (h : ∀ v ∈ l, f v = .ok (g v)) : l.mapM f = .ok (l.map g) := by
  induction l with
  | nil => rfl
  | cons v l ih =>
    rw [List.mapM_cons, h v List.mem_cons_self, ih fun w hw => h w (List.mem_cons_of_mem v hw)]
    rfl

/-- An order of the images comes from an order of the rows. -/
theorem exists_of_perm_map {V W : Type} {f : V → W} {l : List V} {l' : List W}
    (h : l'.Perm (l.map f)) : ∃ l₁ : List V, l₁.Perm l ∧ l' = l₁.map f := by
  have himage : List.Forall₂ (fun w v => w = f v) (l.map f) l := by
    rw [List.forall₂_map_left_iff]
    exact List.forall₂_same.mpr fun _ _ => rfl
  obtain ⟨l₁, hl, hperm⟩ := List.perm_comp_forall₂ h himage
  have heq : List.Forall₂ Eq l' (l₁.map f) := List.forall₂_map_right_iff.mpr hl
  exact ⟨l₁, hperm, List.forall₂_eq_eq_eq ▸ heq⟩

/-! ## Images -/

/-- The rows of `t'` are the images of those of `t`, under the same keys. -/
structure Keyed.Image {K V W : Type} [DecidableEq K] {key : V → K} {key' : W → K} (f : V → W)
    (t : Keyed K V key) (t' : Keyed K W key') : Prop where
  get_eq : ∀ k, t'.get k = (t.get k).map f

namespace Keyed.Image

variable {K V W : Type} [DecidableEq K] {key : V → K} {key' : W → K} {f : V → W}
  {t : Keyed K V key} {t' : Keyed K W key'}

theorem empty : Keyed.Image f (Keyed.empty : Keyed K V key) (Keyed.empty : Keyed K W key') where
  get_eq _ := rfl

theorem insert (h : Keyed.Image f t t') (hkey : ∀ v, key' (f v) = key v) (v : V) :
    Keyed.Image f (t.insert v) (t'.insert (f v)) where
  get_eq k := by
    rw [get_insert, get_insert, hkey]
    split
    · rfl
    · exact h.get_eq k

theorem modify (h : Keyed.Image f t t') {g : V → V} {g' : W → W} {k : K}
    (hg : ∀ v, key (g v) = key v) (hg' : ∀ w, key' (g' w) = key' w)
    (hcomm : ∀ v, g' (f v) = f (g v)) : Keyed.Image f (t.modify k g hg) (t'.modify k g' hg') where
  get_eq k' := by
    rw [get_modify, get_modify]
    split
    · rw [h.get_eq, Option.map_map, Option.map_map]
      exact congrArg (fun h => (t.get k).map h) (funext hcomm)
    · exact h.get_eq k'

/-- Both tables hold the same rows, whatever order each lists them in. -/
theorem values_perm (h : Keyed.Image f t t') (hkey : ∀ v, key' (f v) = key v) :
    t'.values.Perm (t.values.map f) := by
  have hkeys : ((t.values.map f).map key').Nodup := by
    rw [List.map_map, show key' ∘ f = key from funext hkey]
    exact t.keys_nodup
  refine (List.perm_ext_iff_of_nodup (List.Nodup.of_map key' t'.keys_nodup)
    (List.Nodup.of_map key' hkeys)).mpr fun w => ?_
  rw [t'.mem_values, h.get_eq, Option.map_eq_some_iff, List.mem_map]
  constructor
  · rintro ⟨v, hv, rfl⟩
    exact ⟨v, (t.mem_values v).mpr ((t.keyed hv).symm ▸ hv), rfl⟩
  · rintro ⟨v, hv, rfl⟩
    rw [hkey]
    exact ⟨v, (t.mem_values v).mp hv, rfl⟩

end Keyed.Image

theorem Indexed.nodup_byGroup {K G V : Type} [DecidableEq K] [DecidableEq G] {key : V → K}
    {group : V → G} (t : Indexed K G V key group) (g : G) : (t.byGroup g).Nodup := by
  refine List.Nodup.filterMap (fun k k' v hv hv' => ?_) (t.nodup g)
  have hk : key v = k := t.keyed hv
  have hk' : key v = k' := t.keyed hv'
  exact hk.symm.trans hk'

/-- A query by a column finds the images of the rows of the group. -/
theorem Keyed.Image.group_perm {K G V W : Type} [DecidableEq K] [DecidableEq G] {key : V → K}
    {group : V → G} {key' : W → K} {f : V → W} {t : Indexed K G V key group} {t' : Keyed K W key'}
    (h : Keyed.Image f t.toKeyed t') (hkey : ∀ v, key' (f v) = key v) {column : W → G}
    (hcolumn : ∀ v, column (f v) = group v) (g : G) :
    (t'.values.filter fun w => column w = g).Perm ((t.byGroup g).map f) := by
  have hgroup : (t.toKeyed.values.filter fun v => group v = g).Perm (t.byGroup g) := by
    refine (List.perm_ext_iff_of_nodup ?_ ?_).mpr fun v => ?_
    · exact (List.Nodup.of_map key t.toKeyed.keys_nodup).filter _
    · exact t.nodup_byGroup g
    · rw [List.mem_filter, decide_eq_true_eq, t.toKeyed.mem_values, t.mem_byGroup]
  have hfilter : (t.toKeyed.values.map f).filter (fun w => column w = g) =
      (t.toKeyed.values.filter fun v => group v = g).map f := by
    rw [List.filter_map]
    refine congrArg _ (List.filter_congr fun v _ => ?_)
    rw [Function.comp_apply, hcolumn]
  have hvalues := (h.values_perm hkey).filter fun w => column w = g
  rw [hfilter] at hvalues
  exact hvalues.trans (hgroup.map f)

/-! ## Tables of given rows -/

section
variable {K G V W : Type} [DecidableEq K] [DecidableEq G] {key : V → K} {group : V → G}

theorem find?_eq_some_of_nodup {l : List V} (hl : (l.map key).Nodup) {k : K} {v : V} :
    (l.find? fun w => key w = k) = some v ↔ v ∈ l ∧ key v = k := by
  constructor
  · intro h
    have hkey := List.find?_some h
    exact ⟨List.mem_of_find?_eq_some h, of_decide_eq_true hkey⟩
  · rintro ⟨hv, rfl⟩
    have hfound : (l.find? fun w => key w = key v).isSome :=
      List.find?_isSome.mpr ⟨v, hv, by simp⟩
    obtain ⟨w, hw⟩ := Option.isSome_iff_exists.mp hfound
    have hkey := List.find?_some hw
    rw [hw, List.inj_on_of_nodup_map hl (List.mem_of_find?_eq_some hw) hv (of_decide_eq_true hkey)]

/-- The rows of a list are those of a table, under their keys. -/
theorem exists_indexed (group : V → G) {l : List V} (hl : (l.map key).Nodup) :
    ∃ t : Indexed K G V key group, ∀ k v, t.get k = some v ↔ v ∈ l ∧ key v = k := by
  suffices h : ∃ t : Indexed K G V key group, ∀ k, t.get k = l.find? fun v => key v = k by
    obtain ⟨t, ht⟩ := h
    exact ⟨t, fun k v => by rw [ht, find?_eq_some_of_nodup hl]⟩
  induction l with
  | nil => exact ⟨.empty, fun _ => rfl⟩
  | cons v l ih =>
    obtain ⟨t, ht⟩ := ih (List.nodup_cons.mp hl).2
    have fresh : t.get (key v) = none := by
      rw [ht, List.find?_eq_none]
      intro w hw hkey
      exact (List.nodup_cons.mp hl).1 (List.mem_map.mpr ⟨w, hw, of_decide_eq_true hkey⟩)
    refine ⟨t.insertNew v fresh, fun k => ?_⟩
    rw [Indexed.get_insertNew, List.find?_cons, ht]
    by_cases hk : k = key v
    · rw [if_pos hk, decide_eq_true hk.symm]
    · rw [if_neg hk, decide_eq_false (Ne.symm hk)]

/-- The rows that are read as rows of another kind make a table of that kind. -/
theorem exists_image {key' : W → K} (group : V → G) (t' : Keyed K W key') {read : W → Option V}
    (hread : ∀ w v, read w = some v → key v = key' w) :
    ∃ t : Indexed K G V key group, ∀ k, t.get k = (t'.get k).bind read := by
  have hnodup : ((t'.values.filterMap read).map key).Nodup := by
    refine List.pairwise_map.mpr ((List.pairwise_map.mp t'.keys_nodup).filterMap _ ?_)
    intro w w' hne v hv v' hv' he
    exact hne ((hread w v hv).symm.trans (he.trans (hread w' v' hv')))
  obtain ⟨t, ht⟩ := exists_indexed group hnodup
  refine ⟨t, fun k => Option.ext fun v => ?_⟩
  rw [ht, List.mem_filterMap, Option.bind_eq_some_iff]
  constructor
  · rintro ⟨⟨w, hw, hv⟩, rfl⟩
    exact ⟨w, hread w v hv ▸ (t'.mem_values w).mp hw, hv⟩
  · rintro ⟨w, hw, hv⟩
    have hk : key' w = k := t'.keyed hw
    exact ⟨⟨w, (t'.mem_values w).mpr (hk.symm ▸ hw), hv⟩, (hread w v hv).trans hk⟩

end

end Piteka.Table
