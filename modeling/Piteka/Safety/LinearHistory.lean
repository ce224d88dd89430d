import Mathlib.Algebra.Group.Nat.Defs
import Piteka.Application.Scenario
import Piteka.Interleaving.Atomic
import Piteka.Interleaving.Versioned
import Piteka.Storage.Steps

/-!
# The swaps of a key form one history

Mandate projections and action requests as versioned cells. The version of a
mandate is a field of its row; the version of a request lies in a second map and
is 1 while that map has no entry, which agrees with the rows because only a swap
of a stored request fills it. Versions are `i64`: the history is linear in the
integers as long as a key has seen fewer than 2^63 - 1 swaps, and the bound is
exact, since one more swap takes the counter from its maximum to its minimum.
-/
namespace Piteka.Safety

set_option autoImplicit false

open Piteka.Interleaving Piteka.Storage Piteka.Application

variable {ι : Type} {rt : Runtime} {faults : StoreCall → Prop}

/-! ## The two kinds of cells -/

def swapEvent {V : Type} (expected : Int64) (value : V) : CasOutcome → CellEvent Int64 V
  | .applied newVersion => .swapped expected newVersion value
  | .conflict currentVersion => .refused expected (some currentVersion)
  | .missing => .refused expected none

def mandateCell (m : String) (s : Stores) : Option (Int64 × String) :=
  (s.mandate m).map fun p => (p.version, p.state)

def requestCell (r : String) (s : Stores) : Option (Int64 × ActionRequestStatus) :=
  (s.request r).map fun q => (s.requestVersion r, q.status)

/-- What an entry asked of the mandate `m` and was answered. -/
def mandateEvent (m : String) (e : Event ι) : CellEvent Int64 String :=
  match e.call with
  | ⟨.store (.mandates (.insert m' state)), .ok ()⟩ => if m' = m then .created state else .other
  | ⟨.store (.mandates (.compareAndSwap m' v state)), .ok o⟩ =>
    if m' = m then swapEvent v state o else .other
  | _ => .other

/-- What an entry asked of the request `r` and was answered. -/
def requestEvent (r : String) (e : Event ι) : CellEvent Int64 ActionRequestStatus :=
  match e.call with
  | ⟨.store (.requests (.insert q)), .ok ()⟩ =>
    if q.requestId = r then .created q.status else .other
  | ⟨.store (.requests (.compareAndSwap r' v status)), .ok o⟩ =>
    if r' = r then swapEvent v status o else .other
  | _ => .other

theorem mandateEvent_cases (m : String) (e : Event ι) :
    mandateEvent m e = .other ∨
    (∃ state, mandateEvent m e = .created state ∧
      e.call = ⟨.store (.mandates (.insert m state)), .ok ()⟩) ∨
    ∃ v state o, mandateEvent m e = swapEvent v state o ∧
      e.call = ⟨.store (.mandates (.compareAndSwap m v state)), .ok o⟩ := by
  unfold mandateEvent
  split
  · next m' state hc =>
    by_cases hm : m' = m
    · subst hm
      exact Or.inr (Or.inl ⟨state, if_pos rfl, hc⟩)
    · exact Or.inl (if_neg hm)
  · next m' v state o hc =>
    by_cases hm : m' = m
    · subst hm
      exact Or.inr (Or.inr ⟨v, state, o, if_pos rfl, hc⟩)
    · exact Or.inl (if_neg hm)
  · exact Or.inl rfl

theorem requestEvent_cases (r : String) (e : Event ι) :
    requestEvent r e = .other ∨
    (∃ q, q.requestId = r ∧ requestEvent r e = .created q.status ∧
      e.call = ⟨.store (.requests (.insert q)), .ok ()⟩) ∨
    ∃ v status o, requestEvent r e = swapEvent v status o ∧
      e.call = ⟨.store (.requests (.compareAndSwap r v status)), .ok o⟩ := by
  unfold requestEvent
  split
  · next q hc =>
    by_cases hq : q.requestId = r
    · exact Or.inr (Or.inl ⟨q, hq, if_pos hq, hc⟩)
    · exact Or.inl (if_neg hq)
  · next r' v status o hc =>
    by_cases hr : r' = r
    · subst hr
      exact Or.inr (Or.inr ⟨v, status, o, if_pos rfl, hc⟩)
    · exact Or.inl (if_neg hr)
  · exact Or.inl rfl

/-- A call of another kind or of another mandate leaves the cell alone. -/
theorem mandate_other {e : Event ι} (hx : Exec rt faults e.before e.call.1 e.call.2 e.after)
    {m : String} (ho : mandateEvent m e = .other) : mandateCell m e.after = mandateCell m e.before := by
  rcases mandate_step hx m with h | ⟨state, hc, _, _⟩ | ⟨p, state, hc, _, _⟩
  · rw [mandateCell, h, mandateCell]
  · simp [mandateEvent, hc] at ho
  · simp [mandateEvent, hc, swapEvent] at ho

theorem request_other {e : Event ι} (hx : Exec rt faults e.before e.call.1 e.call.2 e.after)
    {r : String} (ho : requestEvent r e = .other) : requestCell r e.after = requestCell r e.before := by
  rcases request_step hx r with h | ⟨q, hq, hc, _, _⟩ | ⟨q, v, status, hc, _, _⟩
  · obtain ⟨h1, h2⟩ := Prod.mk.inj h
    rw [requestCell, h1, h2, requestCell]
  · simp [requestEvent, hc, hq] at ho
  · simp [requestEvent, hc, swapEvent] at ho

/-- A request that is not stored has no entry in the map of versions. -/
def Unversioned (s : Stores) : Prop := ∀ r, s.request r = none → s.requestVersion r = 1

theorem unversioned_step {s s' : Stores} {c : Answered} (hx : Exec rt faults s c.1 c.2 s')
    (hs : Unversioned s) : Unversioned s' := by
  intro r hr
  rcases request_step hx r with h | ⟨q, _, _, _, ha⟩ | ⟨q, v, status, _, _, ha⟩
  · obtain ⟨h1, h2⟩ := Prod.mk.inj h
    rw [h2]
    exact hs r (h1 ▸ hr)
  · rw [(Prod.mk.inj ha).1] at hr
    cases hr
  · rw [(Prod.mk.inj ha).1] at hr
    cases hr

theorem mandate_lawful {e : Event ι} (hx : Exec rt faults e.before e.call.1 e.call.2 e.after)
    (m : String) :
    CellStep 1 (· + 1) (mandateEvent m e) (mandateCell m e.before) (mandateCell m e.after) := by
  rcases mandateEvent_cases m e with ho | ⟨state, hev, hc⟩ | ⟨v, state, o, hev, hc⟩
  · rw [mandate_other hx ho, ho]
    exact .other _
  · rw [hc] at hx
    obtain ⟨hb, ha⟩ := mandate_inserted hx
    rw [hev, mandateCell, hb, mandateCell, ha]
    exact .created state
  · rw [hc] at hx
    rw [hev]
    cases o with
    | applied w =>
      obtain ⟨p, hp, rfl, rfl, ha⟩ := mandate_applied hx
      rw [mandateCell, hp, mandateCell, ha]
      exact .swapped p.version p.state state
    | conflict c =>
      obtain ⟨hsame, p, hp, hne, rfl⟩ := mandate_conflict hx
      rw [hsame, mandateCell, hp]
      exact .conflict v p.version p.state hne
    | missing =>
      obtain ⟨hsame, hp⟩ := mandate_missing hx
      rw [hsame, mandateCell, hp]
      exact .missing v

theorem request_lawful {e : Event ι} (hx : Exec rt faults e.before e.call.1 e.call.2 e.after)
    (hu : Unversioned e.before) (r : String) :
    CellStep 1 (· + 1) (requestEvent r e) (requestCell r e.before) (requestCell r e.after) := by
  rcases requestEvent_cases r e with ho | ⟨q, rfl, hev, hc⟩ | ⟨v, status, o, hev, hc⟩
  · rw [request_other hx ho, ho]
    exact .other _
  · rw [hc] at hx
    obtain ⟨hb, ha, hver⟩ := request_inserted hx
    rw [hev, requestCell, hb, requestCell, ha, hver, hu _ hb]
    exact .created q.status
  · rw [hc] at hx
    rw [hev]
    cases o with
    | applied w =>
      obtain ⟨q, hq, rfl, rfl, ha, hver⟩ := request_applied hx
      rw [requestCell, hq, requestCell, ha, hver]
      exact .swapped _ q.status status
    | conflict c =>
      obtain ⟨hsame, q, hq, hne, rfl⟩ := request_conflict hx
      rw [hsame, requestCell, hq]
      exact .conflict v _ q.status hne
    | missing =>
      obtain ⟨hsame, hq⟩ := request_missing hx
      rw [hsame, requestCell, hq]
      exact .missing v

/-! ## The history of one key -/

/-- One key of a store with versioned swaps, over a whole run that has ended in `s`. -/
structure LinearHistory {V : Type} (cell : Stores → Option (Int64 × V))
    (event : Event ι → CellEvent Int64 V) (log : List (Event ι)) (s : Stores) : Prop where
  startsAtOne : ∀ e ∈ log, ∀ v, event e = .created v →
    cell e.before = none ∧ cell e.after = some (1, v)
  grows : ∀ e ∈ log, ∀ n n' v, event e = .swapped n n' v →
    ∃ u, cell e.before = some (n, u) ∧ n'.toInt = n.toInt + 1 ∧ cell e.after = some (n', v)
  consumedOnce : log.Pairwise fun e f =>
    ∀ n, (event e).consumed = some n → (event f).consumed ≠ some n
  counted : ∀ n v, cell s = some (n, v) → ((consumptions event log).length : Int) = n.toInt - 1
  lastWritten : ∀ n v, cell s = some (n, v) → (writes event log).getLast? = some v
  refusedKeeps : ∀ e ∈ log, ∀ n c, event e = .refused n c → e.after = e.before
  conflictTrue : ∀ e ∈ log, ∀ n c, event e = .refused n (some c) →
    c ≠ n ∧ ∃ u, cell e.before = some (c, u)
  missingTrue : ∀ e ∈ log, ∀ n, event e = .refused n none → cell e.before = none
  otherKeeps : ∀ e ∈ log, event e = .other → cell e.after = cell e.before

theorem iterate_eq_ofNat (k : Nat) : (· + 1)^[k] (1 : Int64) = Int64.ofNat (k + 1) := by
  induction k with
  | zero => rfl
  | succ k ih =>
    rw [Function.iterate_succ_apply', ih, Int64.ofNat_add (k + 1) 1]
    rfl

theorem iterate_toInt {k : Nat} (hk : k < 2 ^ 63 - 1) :
    ((· + 1)^[k] (1 : Int64)).toInt = (k : Int) + 1 := by
  rw [iterate_eq_ofNat, Int64.toInt_ofNat_of_lt (by omega)]
  rfl

theorem versions_nodup {n : Nat} (hn : n ≤ 2 ^ 63 - 1) :
    (versions (1 : Int64) (· + 1) n).Nodup := by
  refine List.Nodup.map_on (fun i hi j hj hij => ?_) List.nodup_range
  have hi' := List.mem_range.mp hi
  have hj' := List.mem_range.mp hj
  have h := congrArg Int64.toInt hij
  rw [iterate_toInt (by omega), iterate_toInt (by omega)] at h
  omega

section
variable {V : Type} {cell : Stores → Option (Int64 × V)} {event : Event ι → CellEvent Int64 V}
  {s₀ s : Stores} {log l₁ l₂ : List (Event ι)} {e : Event ι}

/-- The version that a swap consumes counts the swaps before it. -/
theorem swapped_grows (vl : VersionedLog 1 (· + 1) cell event s₀ (l₁ ++ e :: l₂) s)
    (h₀ : cell s₀ = none) (few : (consumptions event (l₁ ++ e :: l₂)).length < 2 ^ 63 - 1)
    {n n' : Int64} {v : V} (hev : event e = .swapped n n' v) :
    ∃ u, cell e.before = some (n, u) ∧ n'.toInt = n.toInt + 1 ∧ cell e.after = some (n', v) := by
  obtain ⟨hbefore, hstep⟩ := vl.around
  have hlen : (consumptions event l₁).length + 1 < 2 ^ 63 - 1 := by
    rw [consumptions, List.filterMap_append, List.length_append,
      List.filterMap_cons_some (by rw [hev]; rfl), List.length_cons] at few
    rw [consumptions]
    omega
  rw [hev] at hstep
  generalize hb : cell e.before = c at hstep
  generalize ha : cell e.after = c' at hstep
  cases hstep with
  | swapped _ u _ =>
    refine ⟨u, rfl, ?_, rfl⟩
    rcases hbefore.history h₀ with ⟨hnone, _⟩ | ⟨w, hw, _⟩
    · rw [hnone] at hb
      cases hb
    · obtain ⟨rfl, _⟩ := Prod.mk.inj (Option.some.inj (hw.symm.trans hb))
      rw [← Function.iterate_succ_apply' (· + 1), iterate_toInt hlen, iterate_toInt (by omega)]
      omega

/-- A lawful key whose refusals change nothing has a linear history below the bound. -/
theorem linear_history (vl : VersionedLog 1 (· + 1) cell event s₀ log s) (h₀ : cell s₀ = none)
    (refused : ∀ e ∈ log, ∀ n c, event e = .refused n c → e.after = e.before)
    (few : (consumptions event log).length < 2 ^ 63 - 1) : LinearHistory cell event log s where
  startsAtOne e he v hev := by
    have hstep := vl.lawful e he
    rw [hev] at hstep
    generalize cell e.before = c at hstep
    generalize cell e.after = c' at hstep
    cases hstep
    exact ⟨rfl, rfl⟩
  grows e he n n' v hev := by
    obtain ⟨l₁, l₂, rfl⟩ := List.append_of_mem he
    exact swapped_grows vl h₀ few hev
  consumedOnce := vl.consumed_once h₀ (versions_nodup (by omega))
  counted n v hs := by
    rcases vl.history h₀ with ⟨hnone, _⟩ | ⟨w, hw, _⟩
    · rw [hnone] at hs
      cases hs
    · obtain ⟨rfl, _⟩ := Prod.mk.inj (Option.some.inj (hw.symm.trans hs))
      rw [iterate_toInt few]
      omega
  lastWritten n v hs := by
    rcases vl.history h₀ with ⟨hnone, _⟩ | ⟨w, hw, hlast, _⟩
    · rw [hnone] at hs
      cases hs
    · obtain ⟨_, rfl⟩ := Prod.mk.inj (Option.some.inj (hw.symm.trans hs))
      exact hlast
  refusedKeeps := refused
  conflictTrue e he n c hev := by
    have hstep := vl.lawful e he
    rw [hev] at hstep
    generalize cell e.before = b at hstep
    generalize cell e.after = b' at hstep
    cases hstep with
    | conflict _ _ u h => exact ⟨h, u, rfl⟩
  missingTrue e he n hev := by
    have hstep := vl.lawful e he
    rw [hev] at hstep
    generalize cell e.before = b at hstep
    generalize cell e.after = b' at hstep
    cases hstep
    rfl
  otherKeeps e he hev := by
    have hstep := vl.lawful e he
    rw [hev] at hstep
    generalize cell e.before = b at hstep
    generalize cell e.after = b' at hstep
    cases hstep
    rfl

end

section
variable {log : List (Event ι)} {s : Stores}

theorem mandate_versioned (ht : Trace (Exec rt faults) .empty log s) (m : String) :
    VersionedLog 1 (· + 1) (mandateCell m) (mandateEvent m) .empty log s :=
  ⟨ht.linked, fun e he => mandate_lawful (ht.executed e he) m⟩

theorem request_versioned (ht : Trace (Exec rt faults) .empty log s) (r : String) :
    VersionedLog 1 (· + 1) (requestCell r) (requestEvent r) .empty log s := by
  refine ⟨ht.linked, fun e he => request_lawful (ht.executed e he) ?_ r⟩
  exact ht.linked.keeps_mem (fun f hf => unversioned_step (ht.executed f hf)) (fun _ _ => rfl) he

theorem mandate_refused (ht : Trace (Exec rt faults) .empty log s) {m : String} {e : Event ι}
    (he : e ∈ log) {n : Int64} {c : Option Int64} (hev : mandateEvent m e = .refused n c) :
    e.after = e.before := by
  have hx := ht.executed e he
  rcases mandateEvent_cases m e with ho | ⟨state, hev', _⟩ | ⟨v, state, o, hev', hc⟩
  · rw [ho] at hev
    cases hev
  · rw [hev'] at hev
    cases hev
  · rw [hc] at hx
    rw [hev'] at hev
    cases o with
    | applied w => cases hev
    | conflict w => exact (mandate_conflict hx).1
    | missing => exact (mandate_missing hx).1

theorem request_refused (ht : Trace (Exec rt faults) .empty log s) {r : String} {e : Event ι}
    (he : e ∈ log) {n : Int64} {c : Option Int64} (hev : requestEvent r e = .refused n c) :
    e.after = e.before := by
  have hx := ht.executed e he
  rcases requestEvent_cases r e with ho | ⟨q, _, hev', _⟩ | ⟨v, status, o, hev', hc⟩
  · rw [ho] at hev
    cases hev
  · rw [hev'] at hev
    cases hev
  · rw [hc] at hx
    rw [hev'] at hev
    cases o with
    | applied w => cases hev
    | conflict w => exact (request_conflict hx).1
    | missing => exact (request_missing hx).1

/-- Any calls of any callers from the empty stores: each mandate and each request has a linear
history, as long as it has been swapped fewer than 2^63 - 1 times. -/
theorem swaps_are_linear (ht : Trace (Exec rt faults) .empty log s) :
    (∀ m, (consumptions (mandateEvent m) log).length < 2 ^ 63 - 1 →
      LinearHistory (mandateCell m) (mandateEvent m) log s) ∧
    ∀ r, (consumptions (requestEvent r) log).length < 2 ^ 63 - 1 →
      LinearHistory (requestCell r) (requestEvent r) log s :=
  ⟨fun m => linear_history (mandate_versioned ht m) rfl fun _ he _ _ => mandate_refused ht he,
    fun r => linear_history (request_versioned ht r) rfl fun _ he _ _ => request_refused ht he⟩

end

/-- A mandate is issued, reserved, and asked for once more under its old version. -/
def contested : List (Event Unit) × Stores :=
  serve (react sampleRuntime (.answering none)) .empty
    [((), .store (.mandates (.insert "m-1" "issued"))),
      ((), .store (.mandates (.compareAndSwap "m-1" 1 "reserved"))),
      ((), .store (.mandates (.compareAndSwap "m-1" 1 "revoked")))]

theorem contested_linear :
    contested.1.map (mandateEvent "m-1") =
      [.created "issued", .swapped 1 2 "reserved", .refused 1 (some 2)] ∧
    LinearHistory (mandateCell "m-1") (mandateEvent "m-1") contested.1 contested.2 := by
  have hrun : Trace (Exec sampleRuntime noFaults) .empty contested.1 contested.2 :=
    (serve_trace _ _ _).mono fun h => by
      obtain ⟨rfl, rfl⟩ := Prod.mk.inj h
      exact react_sound sampleRuntime noFaults _ _ _
  exact ⟨rfl, (swaps_are_linear hrun).1 "m-1" (by decide)⟩

/-- For every number there is a run that has swapped the mandate so often; the versions wrap. -/
theorem swapped_often (rt : Runtime) (k : Nat) :
    ∃ (log : List (Event Unit)) (s : Stores), Trace (Exec rt noFaults) .empty log s ∧
      (consumptions (mandateEvent "m-1") log).length = k ∧
      mandateCell "m-1" s = some (Int64.ofNat (k + 1), "issued") := by
  induction k with
  | zero =>
    have hstart : Trace (Exec rt noFaults) .empty ([] : List (Event Unit)) .empty :=
      ⟨rfl, fun e he => absurd he List.not_mem_nil⟩
    have hx : Exec rt noFaults .empty (.store (.mandates (.insert "m-1" "issued"))) (.ok ())
        (Stores.empty.issued "m-1") := Or.inl ⟨.asListed, rfl⟩
    exact ⟨_, _, hstart.snoc hx (), rfl, rfl⟩
  | succ k ih =>
    obtain ⟨log, s, ht, hlen, hcell⟩ := ih
    obtain ⟨p, hp, hpc⟩ := Option.map_eq_some_iff.mp hcell
    obtain ⟨hv, -⟩ := Prod.mk.inj hpc
    rcases s.mandates.swap_cases "m-1" p.version "issued" with
      ⟨hnone, _⟩ | ⟨p', hp', hne, _⟩ | ⟨p', t, hp', _, h, hget⟩
    · rw [Stores.mandate, hnone] at hp
      cases hp
    · obtain rfl := Option.some.inj (hp'.symm.trans hp)
      exact absurd rfl hne
    · obtain rfl := Option.some.inj (hp'.symm.trans hp)
      have hx : Exec rt noFaults s (.store (.mandates (.compareAndSwap "m-1" p'.version "issued")))
          (.ok (.applied (p'.version + 1))) { s with mandates := t } :=
        Or.inl ⟨.asListed, by simp only [StoreCall.run, h]⟩
      refine ⟨_, _, ht.snoc hx (), ?_, ?_⟩
      · rw [consumptions_snoc, List.length_append, hlen]
        rfl
      · simp only [mandateCell, Stores.mandate, hget, if_true, Option.map_some, hv]
        rw [Int64.ofNat_add (k + 1) 1]
        rfl

theorem last_version_wraps :
    ¬ ∀ (rt : Runtime) (log : List (Event Unit)) (s : Stores),
      Trace (Exec rt noFaults) .empty log s →
      (consumptions (mandateEvent "m-1") log).length < 2 ^ 63 →
      LinearHistory (mandateCell "m-1") (mandateEvent "m-1") log s := by
  intro h
  obtain ⟨log, s, ht, hlen, hcell⟩ := swapped_often sampleRuntime (2 ^ 63 - 1)
  have hcount := (h sampleRuntime log s ht (by omega)).counted _ _ hcell
  rw [hlen] at hcount
  exact absurd hcount (by decide)

end Piteka.Safety
