import Piteka.Postgres.DeploymentScenario

/-!
# Requests to the provider

Dispatchers and demos, each in its own process, ask the provider for deployments. The
only thing they have in common is the attempts table, whose rows are never deleted and
whose key is derived from the mandate.
-/
namespace Piteka.Safety

set_option autoImplicit false

open Piteka.Interleaving Piteka.Interleaving.Program Piteka.Storage Piteka.Application Piteka.Postgres
  Piteka.Table

section
variable {ι : Type} {cd : Codec} {rc : RowCodec} {processes : ι → Process} {db db' : Database}

/-- The mandate under which the entry asks the provider for a deployment. -/
def askedFor (rt : Runtime) (processes : ι → Process) (e : DeployEntry ι) : Option String :=
  match e.call.1 with
  | .inl _ => none
  | .inr c => if c.asksProvider then (processes e.caller).mandate rt else none

/-- The entry has stored an attempt under the id. -/
def StoresAttempt (id : String) (e : Entry ι DatabaseCall.Answer Database) : Prop :=
  ∃ x : ExecutionAttempt, x.attemptIdHex = id ∧ e.call = ⟨.attempts (.insert x), .ok ()⟩

/-- An insertion that is answered found no row, and leaves one. -/
theorem storesAttempt_step {e : Entry ι DatabaseCall.Answer Database} {id : String}
    (hx : DatabaseExec rc e.before e.call.1 e.call.2 e.after) (he : StoresAttempt id e) :
    e.before.attempts.rows.get id = none ∧ (e.after.attempts.rows.get id).isSome := by
  obtain ⟨x, rfl, hc⟩ := he
  rw [hc] at hx
  obtain ⟨scans, hr⟩ := exec_ok hx
  obtain ⟨ha, hafter⟩ := Prod.mk.inj hr
  obtain ⟨hfree, hrow⟩ := insert_known (Prod.ext ha rfl)
  refine ⟨hfree, ?_⟩
  rw [← hafter]
  exact Option.isSome_iff_exists.mpr ⟨_, hrow⟩

theorem attempt_kept {id : String} (h : db.Extends db') (hid : (db.attempts.rows.get id).isSome) :
    (db'.attempts.rows.get id).isSome := by
  obtain ⟨row, hrow⟩ := Option.isSome_iff_exists.mp hid
  obtain ⟨row', hrow', _⟩ := h.attempt id row hrow
  exact Option.isSome_iff_exists.mpr ⟨row', hrow'⟩

theorem askedFor_eq_some {rt : Runtime} {e : DeployEntry ι} {m : String}
    (h : askedFor rt processes e = some m) :
    ∃ c, e.call.1 = .inr c ∧ c.asksProvider ∧ (processes e.caller).mandate rt = some m := by
  unfold askedFor at h
  split at h
  · cases h
  · next c hc =>
    split at h
    · next hasks => exact ⟨c, hc, hasks, h⟩
    · cases h

variable [DecidableEq ι] {log : List (DeployEntry ι)} {p : (i : ι) → DeployProgram (processes i).Res}

theorem storesAttempt_once (run : DeploymentRun cd rc processes db log db' p) (id : String) :
    (lefts log).Pairwise fun e f => StoresAttempt id e → ¬ StoresAttempt id f := by
  have ht : Trace (DatabaseExec rc) db (lefts log) db' := run.trace.left
  refine ht.linked.once (Q := fun db => (db.attempts.rows.get id).isSome) (fun e he hE => ?_) fun e he hid => ?_
  · obtain ⟨hfree, hrow⟩ := storesAttempt_step (ht.executed e he) hE
    exact ⟨by rw [hfree]; exact Bool.false_ne_true, hrow⟩
  · exact attempt_kept (exec_extends (deployed_neverReissues run e he) (ht.executed e he)) hid

/-- A process that asks for a mandate is the one that has stored the attempt of the mandate. -/
theorem asking_inserted (run : DeploymentRun cd rc processes db log db' p) {e : DeployEntry ι} (he : e ∈ log)
    {c : OwnCall} (hc : e.call.1 = .inr c) (hasks : c.asksProvider) :
    (processes e.caller).Asks c ∧ ∃ m x, (processes e.caller).mandate cd.toRuntime = some m ∧
      x.attemptIdHex = attemptIdOf m ∧ onLeft ⟨.attempts (.insert x), .ok ()⟩ ∈ history e.caller log := by
  obtain ⟨l₁, l₂, rfl⟩ := List.append_of_mem he
  have hn := run.at_entry.2
  rw [hc] at hn
  obtain ⟨hown, ⟨m, x, hm, hx, hins⟩, _⟩ := process_asking hn (asks_of_provider hn hasks)
  exact ⟨hown, m, x, hm, hx, mem_history_append hins _⟩

/-- Who asks after an entry that has asked for `m` is not at `m`. -/
theorem asking_mandate_ne (run : DeploymentRun cd rc processes db log db' p) {i : ι} {c : OwnCall}
    (hn : Next ((processes i).program cd) (history i log) (.inr c)) (hasks : c.asksProvider)
    {e : DeployEntry ι} (he : e ∈ log) {m : String} (hm : askedFor cd.toRuntime processes e = some m) :
    (processes i).mandate cd.toRuntime ≠ some m := by
  intro hi
  obtain ⟨c', hc', hasks', hm'⟩ := askedFor_eq_some hm
  obtain ⟨hown, m₁, x, hm₁, hx, hins⟩ := asking_inserted run he hc' hasks'
  obtain ⟨_, ⟨m₂, y, hm₂, hy, hins'⟩, hfirst⟩ := process_asking hn (asks_of_provider hn hasks)
  obtain rfl : m = m₁ := Option.some.inj (hm'.symm.trans hm₁)
  obtain rfl : m = m₂ := Option.some.inj (hi.symm.trans hm₂)
  have hcaller : e.caller = i :=
    caller_unique (storesAttempt_once run (attemptIdOf m)) (mem_history_lefts.mpr hins)
      (mem_history_lefts.mpr hins') (fun _ hf => ⟨x, hx, hf⟩) fun _ hf => ⟨y, hy, hf⟩
  have hmem : e.call ∈ history i log := hcaller ▸ mem_history.mpr ⟨e, he, rfl, rfl⟩
  exact hfirst e.call hmem c' hc' (hcaller ▸ hown)

/-- Over any run of processes on one database, statements failing or losing their answers and
processes stopping anywhere: the provider is asked for pairwise different mandates, and only for
mandates whose attempt was not there at the start and is stored at the end. -/
theorem provider_asked_once (run : DeploymentRun cd rc processes db log db' p) :
    (log.filterMap (askedFor cd.toRuntime processes)).Nodup ∧
      ∀ e ∈ log, ∀ c, e.call.1 = .inr c → c.asksProvider → ∃ m,
        askedFor cd.toRuntime processes e = some m ∧ db.attempts.rows.get (attemptIdOf m) = none ∧
          (db'.attempts.rows.get (attemptIdOf m)).isSome := by
  constructor
  · have hpair : log.Pairwise fun e f => ∀ m ∈ askedFor cd.toRuntime processes e,
        ∀ m' ∈ askedFor cd.toRuntime processes f, m ≠ m' := by
      refine run.invariant (I := fun log _ => log.Pairwise _) List.Pairwise.nil ?_
      rintro log ⟨db₁, ⟨⟩⟩ p i op a s' run ih hn _
      refine List.pairwise_append.mpr ⟨ih, List.pairwise_singleton _ _, ?_⟩
      intro e he f hf m hm m' hm' hne
      obtain rfl := List.mem_singleton.mp hf
      obtain ⟨c, hc, hasks, hmandate⟩ := askedFor_eq_some hm'
      dsimp only at hc hmandate
      subst hc
      exact asking_mandate_ne run hn hasks he hm (hne ▸ hmandate)
    exact hpair.filterMap _ fun e f h m hm m' hm' => h m hm m' hm'
  · intro e he c hc hasks
    obtain ⟨_, m, x, hm, hx, hins⟩ := asking_inserted run he hc hasks
    obtain ⟨f, hf, _, hcall⟩ := mem_history.mp (mem_history_lefts.mpr hins)
    have ht : Trace (DatabaseExec rc) db (lefts log) db' := run.trace.left
    obtain ⟨hfree, _⟩ := storesAttempt_step (ht.executed f hf) ⟨x, hx, hcall⟩
    refine ⟨m, ?_, ?_, ?_⟩
    · rw [askedFor, hc]
      dsimp only
      rw [if_pos hasks, hm]
    · by_contra hrow
      have hkept := ht.linked.keeps_mem (Q := fun db => (db.attempts.rows.get (attemptIdOf m)).isSome)
        (fun g hg => attempt_kept (exec_extends (deployed_neverReissues run g hg) (ht.executed g hg)))
        (Option.isSome_iff_ne_none.mpr hrow) hf
      rw [hfree] at hkept
      cases hkept
    · obtain ⟨row, hrow, _⟩ := deployed_knows run hins
      exact Option.isSome_iff_exists.mpr ⟨row, hx ▸ hrow⟩

end

example : dispatched.log.filterMap (askedFor sampleCodec.toRuntime dispatchers) = ["m-1"] := by decide

/-- Of two dispatchers of one mandate the second is turned away. -/
theorem provider_asked_once_dispatched :
    (dispatched.log.filterMap (askedFor sampleCodec.toRuntime dispatchers)).Nodup ∧
      ∀ e ∈ dispatched.log, ∀ c, e.call.1 = .inr c → c.asksProvider → ∃ m,
        askedFor sampleCodec.toRuntime dispatchers e = some m ∧
          issuedDatabase.attempts.rows.get (attemptIdOf m) = none ∧
          (dispatched.state.1.attempts.rows.get (attemptIdOf m)).isSome :=
  provider_asked_once dispatched_run

end Piteka.Safety
