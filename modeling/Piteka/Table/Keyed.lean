import Mathlib.Data.List.AList

/-!
# Keyed tables with a secondary index

`Keyed` is a map whose rows are stored under their own key. `Indexed` adds an
index from a group to the keys of the rows in it; that the index lists exactly
these keys, each once, is carried by the table, so a stale or partial index
cannot be built. The order of the rows in the map has no meaning; the order of
the keys in a group is the order of their insertion.
-/
namespace Piteka.Table

set_option autoImplicit false

structure Keyed (K V : Type) [DecidableEq K] (key : V → K) where
  rows : AList (fun _ : K => V)
  keyed : ∀ {k : K} {v : V}, rows.lookup k = some v → key v = k

namespace Keyed

variable {K V : Type} [DecidableEq K] {key : V → K}

def empty : Keyed K V key where
  rows := ∅
  keyed h := by simp at h

def get (t : Keyed K V key) (k : K) : Option V := t.rows.lookup k

/-- The rows, in one of the orders in which the map may list them. -/
def values (t : Keyed K V key) : List V := t.rows.entries.map Sigma.snd

private theorem lookup_insert_iff (rows : AList (fun _ : K => V)) (k k' : K) (v : V) :
    (rows.insert k v).lookup k' = if k' = k then some v else rows.lookup k' := by
  split
  · next h => rw [h, AList.lookup_insert]
  · next h => exact AList.lookup_insert_ne h

def insert (t : Keyed K V key) (v : V) : Keyed K V key where
  rows := t.rows.insert (key v) v
  keyed {k w} h := by
    rw [lookup_insert_iff] at h
    split at h
    · next hk =>
      obtain rfl := Option.some.inj h
      exact hk.symm
    · exact t.keyed h

def modifyRow (rows : AList (fun _ : K => V)) (k : K) (f : V → V) : AList (fun _ : K => V) :=
  match rows.lookup k with
  | none => rows
  | some v => rows.insert k (f v)

private theorem lookup_modifyRow (rows : AList (fun _ : K => V)) (k k' : K) (f : V → V) :
    (modifyRow rows k f).lookup k' =
      if k' = k then (rows.lookup k).map f else rows.lookup k' := by
  unfold modifyRow
  cases hv : rows.lookup k with
  | none =>
    by_cases h : k' = k
    · rw [if_pos h, h, Option.map_none]
      exact hv
    · rw [if_neg h]
  | some v => exact lookup_insert_iff rows k k' (f v)

/-- Change the row under a key in place; the change keeps the key. -/
def modify (t : Keyed K V key) (k : K) (f : V → V) (hf : ∀ v, key (f v) = key v) :
    Keyed K V key where
  rows := modifyRow t.rows k f
  keyed {k' w} h := by
    rw [lookup_modifyRow] at h
    split at h
    · next hk =>
      obtain ⟨v, hv, rfl⟩ := Option.map_eq_some_iff.mp h
      rw [hf, t.keyed hv, hk]
    · exact t.keyed h

@[simp] theorem get_empty (k : K) : (empty : Keyed K V key).get k = none := rfl

theorem mem_values (t : Keyed K V key) (v : V) : v ∈ t.values ↔ t.get (key v) = some v := by
  unfold values get
  rw [List.mem_map]
  constructor
  · rintro ⟨⟨k, w⟩, hmem, rfl⟩
    have hw : t.rows.lookup k = some w := AList.mem_lookup_iff.mpr hmem
    rw [t.keyed hw, hw]
  · intro hv
    exact ⟨⟨key v, v⟩, AList.mem_lookup_iff.mp hv, rfl⟩

/-- No two listed rows have the same key. -/
theorem keys_nodup (t : Keyed K V key) : (t.values.map key).Nodup := by
  have hkeys : t.values.map key = t.rows.keys := by
    unfold values AList.keys List.keys
    rw [List.map_map]
    refine List.map_congr_left fun ⟨k, v⟩ hmem => ?_
    exact t.keyed (AList.mem_lookup_iff.mpr hmem)
  rw [hkeys]
  exact t.rows.keys_nodup

theorem get_insert (t : Keyed K V key) (v : V) (k : K) :
    (t.insert v).get k = if k = key v then some v else t.get k :=
  lookup_insert_iff t.rows (key v) k v

theorem get_modify (t : Keyed K V key) (k k' : K) (f : V → V) (hf : ∀ v, key (f v) = key v) :
    (t.modify k f hf).get k' = if k' = k then (t.get k).map f else t.get k' :=
  lookup_modifyRow t.rows k k' f

end Keyed

structure Indexed (K G V : Type) [DecidableEq K] [DecidableEq G] (key : V → K) (group : V → G)
    extends Keyed K V key where
  index : AList (fun _ : G => List K)
  indexed : ∀ {g : G} {k : K}, k ∈ (index.lookup g).getD [] ↔
    ∃ v, rows.lookup k = some v ∧ group v = g
  nodup : ∀ g : G, ((index.lookup g).getD []).Nodup

namespace Indexed

variable {K G V : Type} [DecidableEq K] [DecidableEq G] {key : V → K} {group : V → G}

def empty : Indexed K G V key group where
  toKeyed := Keyed.empty
  index := ∅
  indexed := by simp [Keyed.empty]
  nodup g := by simp

abbrev get (t : Indexed K G V key group) (k : K) : Option V := t.toKeyed.get k

/-- The keys of a group, in the order of their insertion. -/
def keysOf (t : Indexed K G V key group) (g : G) : List K := (t.index.lookup g).getD []

/-- The rows of a group, read through the index. -/
def byGroup (t : Indexed K G V key group) (g : G) : List V := (t.keysOf g).filterMap t.get

omit [DecidableEq K] in
private theorem pushed (index : AList (fun _ : G => List K)) (g g' : G) (k : K) :
    ((index.insert g ((index.lookup g).getD [] ++ [k])).lookup g').getD [] =
      if g' = g then (index.lookup g).getD [] ++ [k] else (index.lookup g').getD [] := by
  split
  · next h => rw [h, AList.lookup_insert, Option.getD_some]
  · next h => rw [AList.lookup_insert_ne h]

/-- Insert a row under a fresh key and push the key to the row's group. -/
def insertNew (t : Indexed K G V key group) (v : V) (fresh : t.get (key v) = none) :
    Indexed K G V key group where
  toKeyed := t.toKeyed.insert v
  index := t.index.insert (group v) ((t.index.lookup (group v)).getD [] ++ [key v])
  indexed {g k} := by
    have hrows : (t.toKeyed.insert v).rows.lookup k =
        if k = key v then some v else t.rows.lookup k := t.toKeyed.get_insert v k
    rw [pushed, hrows]
    by_cases hk : k = key v
    · have hnone : t.rows.lookup k = none := hk ▸ fresh
      have hout : k ∉ (t.index.lookup g).getD [] := by
        rw [t.indexed, hnone]
        simp
      by_cases hg : g = group v
      · simp [hk, hg]
      · simp [hk, hg, Ne.symm hg, hk ▸ hout]
    · by_cases hg : g = group v
      · subst hg
        simp only [if_true, List.mem_append, List.mem_singleton, hk, or_false]
        exact t.indexed
      · simp only [if_neg hk, if_neg hg]
        exact t.indexed
  nodup g := by
    rw [pushed]
    split
    · next hg =>
      have hout : key v ∉ (t.index.lookup (group v)).getD [] := by
        rw [t.indexed, show t.rows.lookup (key v) = none from fresh]
        simp
      exact List.nodup_append'.mpr ⟨t.nodup _, List.nodup_singleton _,
        List.disjoint_singleton.mpr hout⟩
    · exact t.nodup g

/-- Change a row in place; the change keeps the key and the group. -/
def modify (t : Indexed K G V key group) (k : K) (f : V → V) (hk : ∀ v, key (f v) = key v)
    (hg : ∀ v, group (f v) = group v) : Indexed K G V key group where
  toKeyed := t.toKeyed.modify k f hk
  index := t.index
  indexed {g k'} := by
    have hrows : (t.toKeyed.modify k f hk).rows.lookup k' =
        if k' = k then (t.rows.lookup k).map f else t.rows.lookup k' :=
      t.toKeyed.get_modify k k' f hk
    rw [t.indexed, hrows]
    split
    · next h =>
      subst h
      cases t.rows.lookup k' <;> simp [hg]
    · rfl
  nodup := t.nodup

@[simp] theorem get_empty (k : K) : (empty : Indexed K G V key group).get k = none := rfl

theorem get_insertNew (t : Indexed K G V key group) (v : V) (fresh : t.get (key v) = none)
    (k : K) : (t.insertNew v fresh).get k = if k = key v then some v else t.get k :=
  t.toKeyed.get_insert v k

theorem get_modify (t : Indexed K G V key group) (k k' : K) (f : V → V)
    (hk : ∀ v, key (f v) = key v) (hg : ∀ v, group (f v) = group v) :
    (t.modify k f hk hg).get k' = if k' = k then (t.get k).map f else t.get k' :=
  t.toKeyed.get_modify k k' f hk

theorem keysOf_insertNew (t : Indexed K G V key group) (v : V) (fresh : t.get (key v) = none)
    (g : G) : (t.insertNew v fresh).keysOf g =
      if g = group v then t.keysOf (group v) ++ [key v] else t.keysOf g :=
  pushed t.index (group v) g (key v)

/-- Reading a group through the index finds exactly the rows of that group. -/
theorem mem_byGroup (t : Indexed K G V key group) (g : G) (v : V) :
    v ∈ t.byGroup g ↔ t.get (key v) = some v ∧ group v = g := by
  simp only [byGroup, List.mem_filterMap]
  constructor
  · rintro ⟨k, hk, hv⟩
    obtain ⟨w, hw, hg⟩ := t.indexed.mp hk
    obtain rfl := Option.some.inj (hv.symm.trans hw)
    exact ⟨t.keyed hv ▸ hv, hg⟩
  · rintro ⟨hv, hg⟩
    exact ⟨key v, t.indexed.mpr ⟨v, hv, hg⟩, hv⟩

/-- A group whose rows all have one key has at most one row. -/
theorem length_byGroup_le_one (t : Indexed K G V key group) {g : G} {k : K}
    (hk : ∀ {k' : K} {v : V}, t.get k' = some v → group v = g → k' = k) :
    (t.byGroup g).length ≤ 1 := by
  have hkeys : ∀ k' ∈ t.keysOf g, k' = k := by
    intro k' h
    obtain ⟨v, hv, hg⟩ := t.indexed.mp h
    exact hk hv hg
  have hrep : t.keysOf g = List.replicate (t.keysOf g).length k :=
    List.eq_replicate_iff.mpr ⟨rfl, hkeys⟩
  have hlen : (t.keysOf g).length ≤ 1 := by
    have hnodup := t.nodup g
    rw [show (t.index.lookup g).getD [] = t.keysOf g from rfl, hrep] at hnodup
    exact List.nodup_replicate.mp hnodup
  exact le_trans (List.length_filterMap_le _ _) hlen

end Indexed

end Piteka.Table
