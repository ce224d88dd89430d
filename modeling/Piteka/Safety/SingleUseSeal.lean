import Piteka.Infra.Anchor

/-!
# A seal is used at most once

For calls of the local seal store in any order and by any number of callers:
the proofs handed out for one seal are one proof, with the commitment of the
first creation that succeeded; commitments and consumptions are final; a
successful call repeats itself; a refused call changes nothing. The log starts
from the empty store and is not bounded.
-/
namespace Piteka.Safety

set_option autoImplicit false

open Piteka.Interleaving Piteka.Infra Piteka.Infra.LocalCsvSealAnchor

section
variable {ι : Type}

abbrev AnchorEntry (ι : Type) := Entry ι AnchorCall.Answer LocalCsvSealAnchor

/-- The entry has handed out the proof. -/
def Proved (e : AnchorEntry ι) (p : ConsumptionProof) : Prop :=
  ∃ sealId nullifier, e.call = ⟨.consumeSeal sealId nullifier, .ok p⟩

/-- The entry is a creation of the seal that succeeded. -/
def Created (e : AnchorEntry ι) (sealId commitment : Digest32) : Prop :=
  ∃ r, e.call = ⟨.createSeal sealId commitment, .ok r⟩

structure SealedOnce (log : List (AnchorEntry ι)) : Prop where
  named : ∀ e ∈ log, ∀ sealId n p, e.call = ⟨.consumeSeal sealId n, .ok p⟩ →
    p.sealId = sealId ∧ p.nullifier = n
  oneProof : ∀ e ∈ log, ∀ f ∈ log, ∀ p q, Proved e p → Proved f q → p.sealId = q.sealId → p = q
  firstCommitment : ∀ l₁ e l₂ p, log = l₁ ++ e :: l₂ → Proved e p →
    ∃ l₀ c l₁', l₁ = l₀ ++ c :: l₁' ∧ Created c p.sealId p.commitment ∧
      ∀ f ∈ l₀, ∀ d, ¬ Created f p.sealId d
  commitmentFixed : ∀ l₁ e l₂, log = l₁ ++ e :: l₂ → ∀ sealId c,
    e.before.commitment sealId = some c → ∀ f ∈ e :: l₂, f.after.commitment sealId = some c
  notReopened : ∀ l₁ e l₂, log = l₁ ++ e :: l₂ → ∀ sealId n,
    e.before.consumedBy sealId = some n → ∀ f ∈ e :: l₂, f.after.consumedBy sealId = some n
  repeated : ∀ l₁ e l₂ f l₃, log = l₁ ++ e :: l₂ ++ f :: l₃ → f.call.1 = e.call.1 →
    e.call.1.failed e.call.2 = false → f.call = e.call
  refused : ∀ e ∈ log, e.call.1.failed e.call.2 = true → e.after = e.before

variable {s s' : LocalCsvSealAnchor} {log l₁ l₂ : List (AnchorEntry ι)} {e f : AnchorEntry ι}

theorem created_commitment (ht : Trace (Atomic step) s log s') (he : e ∈ log)
    {sealId c : Digest32} (hc : Created e sealId c) : e.after.commitment sealId = some c := by
  obtain ⟨r, hcall⟩ := hc
  have hx := ht.executed e he
  rw [hcall] at hx
  exact createSeal_ok hx

/-- A proof names the seal and the nullifier of the store it came from. -/
theorem proved_facts (ht : Trace (Atomic step) s log s') (he : e ∈ log) {p : ConsumptionProof}
    (hp : Proved e p) :
    p.backend = localSealBackend ∧ e.before.commitment p.sealId = some p.commitment ∧
      e.after.consumedBy p.sealId = some p.nullifier := by
  obtain ⟨sealId, n, hcall⟩ := hp
  have hx := ht.executed e he
  rw [hcall] at hx
  obtain ⟨heq, hc, hn⟩ := consumeSeal_ok hx
  rw [heq]
  exact ⟨rfl, hc, hn⟩

theorem proved_unique (ht : Trace (Atomic step) s log s') (he : e ∈ log) (hf : f ∈ log)
    {p q : ConsumptionProof} (hp : Proved e p) (hq : Proved f q) (hid : p.sealId = q.sealId) :
    p = q := by
  obtain ⟨hbackend, hc, hn⟩ := proved_facts ht he hp
  obtain ⟨hbackend', hc', hn'⟩ := proved_facts ht hf hq
  have hcommit := commitment_once.agree ht he hf
    (commitment_once.kept (ht.executed e he) hc)
    (commitment_once.kept (ht.executed f hf) (hid ▸ hc'))
  have hnull := consumedBy_once.agree ht he hf hn (hid ▸ hn')
  cases p
  cases q
  dsimp only at *
  subst hid hcommit hnull hbackend hbackend'
  rfl

/-- A seal that binds a commitment was created with it before any other creation succeeded. -/
theorem first_creation (ht : Trace (Atomic step) new log s') {sealId c : Digest32}
    (hc : s'.commitment sealId = some c) :
    ∃ l₀ e l₁, log = l₀ ++ e :: l₁ ∧ Created e sealId c ∧ ∀ f ∈ l₀, ∀ d, ¬ Created f sealId d := by
  obtain ⟨l₀, e, l₁, rfl, hb, ha, hnone⟩ := commitment_once.writer ht rfl hc
  refine ⟨l₀, e, l₁, rfl, ⟨_, step_binds (ht.executed e (by simp)) hb ha⟩, ?_⟩
  intro f hf d hd
  have hcreated := created_commitment ht.around.1 hf hd
  rw [hnone f hf] at hcreated
  cases hcreated

/-- What a write-once view shows before an entry it shows after each entry from there on. -/
theorem view_fixed {view : LocalCsvSealAnchor → Digest32 → Option Digest32}
    (once : WriteOnce (Atomic step) view) (ht : Trace (Atomic step) s (l₁ ++ e :: l₂) s')
    {sealId v : Digest32} (hv : view e.before sealId = some v) (hf : f ∈ e :: l₂) :
    view f.after sealId = some v := by
  have hafter : view e.after sealId = some v :=
    once.kept (ht.executed e (by simp)) hv
  rcases List.mem_cons.mp hf with rfl | hf
  · exact hafter
  · have hx := ht.executed f (by simp [hf])
    obtain ⟨l₃, l₄, rfl⟩ := List.append_of_mem hf
    have hbefore : view f.before sealId = some v := once.keeps ht.around.2.around.1 hafter
    exact once.kept hx hbefore

/-- A call that has succeeded gives the same answer again and changes nothing then. -/
theorem step_again (ht : Trace (Atomic step) s log s') (he : e ∈ log)
    (hok : e.call.1.failed e.call.2 = false) : s'.step e.call.1 = (e.call.2, s') := by
  have hx := ht.executed e he
  obtain ⟨l₁, l₂, rfl⟩ := List.append_of_mem he
  have hrest := ht.around.2
  obtain ⟨i, ⟨c, a⟩, t, t'⟩ := e
  cases c with
  | createSeal sealId d =>
    cases a with
    | error reason => cases hok
    | ok r =>
      have hc : s'.commitment sealId = some d := commitment_once.keeps hrest (createSeal_ok hx)
      rcases createSeal_cases hx with ⟨hr, _⟩ | ⟨hr, _⟩ | ⟨hr, _⟩
      · rw [hr]
        exact createSeal_again hc
      · rw [hr]
        exact createSeal_again hc
      · cases hr
  | consumeSeal sealId n =>
    cases a with
    | error reason => cases hok
    | ok p =>
      obtain ⟨hp, hc, hn⟩ := consumeSeal_ok hx
      have hc' : s'.commitment sealId = some p.commitment :=
        commitment_once.keeps hrest (commitment_once.kept hx hc)
      have hn' : s'.consumedBy sealId = some n := consumedBy_once.keeps hrest hn
      rw [hp]
      exact consumeSeal_again hc' hn'
  | anchorCommitment bundleDigest =>
    obtain ⟨rfl, _⟩ := Prod.mk.inj hx
    rfl

theorem answer_repeated (ht : Trace (Atomic step) s (l₁ ++ f :: l₂) s') (he : e ∈ l₁)
    (hop : f.call.1 = e.call.1) (hok : e.call.1.failed e.call.2 = false) : f.call = e.call := by
  have hagain := step_again ht.around.1 he hok
  have hx := ht.executed f (by simp)
  obtain ⟨i, ⟨c, a⟩, t, t'⟩ := e
  obtain ⟨j, ⟨c', a'⟩, u, u'⟩ := f
  dsimp only at hop
  subst hop
  obtain ⟨rfl, _⟩ := Prod.mk.inj (hx.symm.trans hagain)
  rfl

/-- Every run of the seal store, whatever the callers ask and in whatever order. -/
theorem sealed_once (ht : Trace (Atomic step) new log s') : SealedOnce log where
  named e he sealId n p hcall := by
    have hx := ht.executed e he
    rw [hcall] at hx
    rw [(consumeSeal_ok hx).1]
    exact ⟨rfl, rfl⟩
  oneProof _ he _ hf _ _ hp hq hid := proved_unique ht he hf hp hq hid
  firstCommitment := by
    rintro l₁ e l₂ p rfl hp
    exact first_creation ht.around.1 (proved_facts ht (by simp) hp).2.1
  commitmentFixed := by
    rintro l₁ e l₂ rfl sealId c hc f hf
    exact view_fixed commitment_once ht hc hf
  notReopened := by
    rintro l₁ e l₂ rfl sealId n hn f hf
    exact view_fixed consumedBy_once ht hn hf
  repeated := by
    rintro l₁ e l₂ f l₃ rfl hop hok
    exact answer_repeated ht (by simp) hop hok
  refused _ he hf := step_failed (ht.executed _ he) hf

end

/-- A seal that is created, used, created again and asked for by a second nullifier. -/
def doubleUse : List (Unit × AnchorCall) :=
  let id : Digest32 := Vector.replicate 32 1
  let other : Digest32 := Vector.replicate 32 9
  [((), .createSeal id id), ((), .consumeSeal id id), ((), .createSeal id id),
    ((), .consumeSeal id other)]

theorem double_use_refused :
    ((serve step new doubleUse).1.map fun e => e.call.1.failed e.call.2) =
      [false, false, false, true] ∧ SealedOnce (serve step new doubleUse).1 :=
  ⟨by decide, sealed_once (serve_trace step new doubleUse)⟩

end Piteka.Safety
