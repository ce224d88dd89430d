import Piteka.Application.Scenario
import Piteka.Storage.Ledgers

/-!
# Listing the action requests

The in-memory store keeps its requests in a hash map and lists them in the order of
that map. Every accepted request is listed once, as it is now; the order is that of
the insertions, whichever way the map is walked, only up to one request.
-/
namespace Piteka.Safety

set_option autoImplicit false

open Piteka.Interleaving Piteka.Interleaving.Program Piteka.Storage Piteka.Application

variable {rt : Runtime} {faults : StoreCall → Prop} {s : Stores} {h : Path}

/-- Whatever order the map is walked in, the rows are listed. -/
def ListsRows (s : Stores) (rows : List ActionRequest) : Prop :=
  ∀ order : HashOrder, s.requests.list order.requests = .ok rows

theorem arranged_perm {values rows : List ActionRequest} (hp : rows.Perm values)
    (l : List ActionRequest) : (if l = values then rows else l).Perm l := by
  split
  · next h => exact h ▸ hp
  · exact .refl l

/-- The order that lists these values in another order. -/
def HashOrder.arranging {values rows : List ActionRequest} (hp : rows.Perm values) : HashOrder :=
  { HashOrder.asListed with
    requests := fun l => if l = values then rows else l
    requests_perm := arranged_perm hp }

theorem list_arranging {rows : List ActionRequest} (hp : rows.Perm s.requests.requests.values) :
    s.requests.list (HashOrder.arranging hp).requests = .ok rows :=
  congrArg Except.ok (if_pos rfl)

theorem reverse_ne {α : Type} {l : List α} (hnodup : l.Nodup) (hlen : 1 < l.length) :
    l.reverse ≠ l := by
  intro h
  cases l with
  | nil => cases hlen
  | cons a l =>
    have hlast : (a :: l).getLast? = some a := by
      rw [← h, List.getLast?_reverse, List.head?_cons]
    have hne : l ≠ [] := by
      rintro rfl
      exact absurd hlen (by simp)
    rw [List.getLast?_cons, List.getLast?_eq_some_getLast hne, Option.getD_some] at hlast
    exact (List.nodup_cons.mp hnodup).1 (Option.some.inj hlast ▸ List.getLast_mem hne)

/-- For every sequence of calls, of these and of other stores, and whichever of them fail. -/
theorem listed_in_insertion_order_iff (hs : Steps (Exec rt faults) .empty h s) :
    (∀ order : HashOrder, ∃ rows, s.requests.list order.requests = .ok rows ∧
        rows.Perm (Ledgers.after h).requests) ∧
      (∀ q, q ∈ (Ledgers.after h).requests ↔ s.request q.requestId = some q) ∧
      ((Ledgers.after h).requests.map (·.requestId)).Nodup ∧
      (ListsRows s (Ledgers.after h).requests ↔ (Ledgers.after h).requests.length ≤ 1) := by
  have hl := (kept_after hs).requests
  have hperm := hl.values_perm
  refine ⟨fun order => ⟨_, rfl, (order.requests_perm _).trans hperm⟩, hl.mem_iff, hl.nodup, ?_⟩
  constructor
  · intro hlists
    by_contra hlen
    have hrev : (Ledgers.after h).requests.reverse.Perm s.requests.requests.values :=
      (List.reverse_perm _).trans hperm.symm
    have hlisted := (list_arranging hrev).symm.trans (hlists _)
    exact reverse_ne (List.Nodup.of_map _ hl.nodup) (Nat.lt_of_not_le hlen)
      (Except.ok.inj hlisted)
  · intro hlen order
    have hp := (order.requests_perm s.requests.requests.values).trans hperm
    have heq : order.requests s.requests.requests.values = (Ledgers.after h).requests := by
      cases hrows : (Ledgers.after h).requests with
      | nil =>
        rw [hrows] at hp
        exact hp.eq_nil
      | cons q rest =>
        rw [hrows, List.length_cons] at hlen
        obtain rfl : rest = [] := List.length_eq_zero_iff.mp (by omega)
        rw [hrows] at hp
        exact hp.eq_singleton
    exact congrArg Except.ok heq

/-! ## Two requests -/

def firstRequest : ActionRequest := ⟨"r-1", "alice", none, .pending, 0⟩

def secondRequest : ActionRequest := ⟨"r-2", "bob", none, .pending, 0⟩

def twoInserts : Path :=
  [did (.requests (.insert firstRequest)) (), did (.requests (.insert secondRequest)) ()]

def withFirst : Stores :=
  ((StoreCall.requests (.insert firstRequest)).run sampleRuntime .asListed .empty).2

def withBoth : Stores :=
  ((StoreCall.requests (.insert secondRequest)).run sampleRuntime .asListed withFirst).2

theorem twoInserts_steps : Steps (Exec sampleRuntime noFaults) .empty twoInserts withBoth :=
  ⟨withFirst, Or.inl ⟨.asListed, rfl⟩, withBoth, Or.inl ⟨.asListed, rfl⟩, rfl⟩

theorem listed_in_insertion_order_iff_two :
    ((Ledgers.after twoInserts).requests = [firstRequest, secondRequest]) ∧
      (ListsRows withBoth [firstRequest, secondRequest] ↔
        [firstRequest, secondRequest].length ≤ 1) :=
  ⟨rfl, (listed_in_insertion_order_iff twoInserts_steps).2.2.2⟩

/-- Both insertions are accepted, and the map may list the second request first. -/
theorem second_listed_first :
    Steps (Exec sampleRuntime noFaults) .empty twoInserts withBoth ∧
      withBoth.requests.list HashOrder.asListed.requests = .ok [secondRequest, firstRequest] ∧
      ¬ ListsRows withBoth [firstRequest, secondRequest] := by
  have hlisted : withBoth.requests.list HashOrder.asListed.requests =
      .ok [secondRequest, firstRequest] := rfl
  refine ⟨twoInserts_steps, hlisted, fun h => ?_⟩
  have hsame := Except.ok.inj (hlisted.symm.trans (h .asListed))
  exact absurd hsame (by decide)

end Piteka.Safety
