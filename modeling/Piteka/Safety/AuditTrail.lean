import Piteka.Postgres.AuditLog
import Piteka.Application.Scenario

/-!
# The audit trail on Postgres

Appends and reads of many callers, statement by statement, with statements that fail
or lose their answer. The ids of two appends may be drawn in one order and their rows
become visible in the other, so a later read may find an event before one that an
earlier read already had. What does hold is that nothing acknowledged is lost, nothing
listed moves against what is listed with it, and appends that do not overlap are
listed in the order in which they were made.
-/
namespace Piteka.Safety

set_option autoImplicit false

open Piteka.Interleaving Piteka.Interleaving.Program Piteka.Storage Piteka.Postgres

variable {ι : Type} [DecidableEq ι]

abbrev AuditEntry (ι : Type) := Entry ι AuditStatement.Answer AuditTable

/-- A run of the given calls, each by a caller of its own. -/
abbrev AuditRun (calls : ι → AuditMethod) (s₀ : AuditTable) (log : List (AuditEntry ι))
    (s : AuditTable)
    (p : (i : ι) → Program AuditStatement AuditStatement.Answer (calls i).Result) : Prop :=
  Run AuditExec s₀ (fun i => (calls i).program) log s p

/-- The append of the caller has succeeded within the log. -/
def Acknowledged (calls : ι → AuditMethod) (log : List (AuditEntry ι)) (i : ι)
    (event : AuditEvent) : Prop :=
  calls i = .append event ∧ Returns (PgAuditLog.append event).run (history i log) (.ok ())

/-- The id that a caller has drawn. -/
def drawnId : List ((q : AuditStatement) × q.Answer) → Nat
  | ⟨.drawId, .ok id⟩ :: _ => id
  | _ => 0

/-- What holds of a run from `s₀` to `s`. -/
structure AuditTrail (calls : ι → AuditMethod) (s₀ : AuditTable) (log : List (AuditEntry ι))
    (s : AuditTable) : Prop where
  /-- What was listed at any time is listed in the same order ever after. -/
  grows : ∀ e ∈ log, e.before.events.Sublist s.events
  kept : ∀ i event, Acknowledged calls log i event → event ∈ s.events
  /-- An acknowledged append is stored under the id drawn for it, which no other has drawn. -/
  stored : ∀ i event, Acknowledged calls log i event →
    s.rows.get (drawnId (history i log)) = some (auditRow (drawnId (history i log)) event)
  distinct : ∀ i j event event', i ≠ j → Acknowledged calls log i event →
    Acknowledged calls log j event' → drawnId (history i log) ≠ drawnId (history j log)
  /-- Each acknowledged append has a place of its own. -/
  apart : ∀ i j event event', i ≠ j → Acknowledged calls log i event →
    Acknowledged calls log j event' →
    [event, event'].Sublist s.events ∨ [event', event].Sublist s.events
  /-- An append acknowledged before another made its first step comes first. -/
  ordered : ∀ l₁ l₂ i j event event', log = l₁ ++ l₂ → Acknowledged calls l₁ i event →
    history j l₁ = [] → Acknowledged calls log j event' → [event, event'].Sublist s.events
  /-- A read returns the last events at a moment of the call. -/
  read : ∀ i limit events, calls i = .recent limit →
    Returns (PgAuditLog.recent limit).run (history i log) (.ok events) →
    Linearizable (fun t : AuditTable => (InMemoryAuditLog.mk t.events).recent
      (PgAuditLog.limitOf limit)) i s₀ log (.ok events)

theorem append_returns {event : AuditEvent} {h : List ((q : AuditStatement) × q.Answer)}
    (hr : Returns (PgAuditLog.append event).run h (.ok ())) :
    ∃ id, h = [⟨.drawId, .ok id⟩, ⟨.insertRow (auditRow id event), .ok ()⟩] := by
  rcases returns_tryCall.mp hr with ⟨e, _, he⟩ | ⟨id, t, rfl, ht⟩
  · cases he
  · obtain ⟨a, u, rfl, hu⟩ := returns_call.mp ht
    obtain ⟨rfl, rfl⟩ := returns_ret.mp hu
    exact ⟨id, rfl⟩

/-- The last events, of the rows listed newest first. -/
theorem recent_of_descending (t : AuditTable) (n : Nat) :
    ((t.descending.take n).map AuditRow.event).reverse =
      t.events.drop (t.events.length - n) := by
  rw [AuditTable.events, AuditTable.ascending, ← List.map_reverse, List.reverse_take,
    ← List.map_drop, List.length_map, List.length_reverse]

section
variable {calls : ι → AuditMethod} {s₀ s : AuditTable} {log : List (AuditEntry ι)}
  {p : (i : ι) → Program AuditStatement AuditStatement.Answer (calls i).Result}

/-- An id drawn later in a run is greater. -/
theorem drawn_later (run : AuditRun calls s₀ log s p) {l₁ l₂ : List (AuditEntry ι)}
    {d d' : AuditEntry ι} (hlog : log = l₁ ++ d :: l₂) (hd' : d' ∈ l₂) {id id' : Nat}
    (hid : d.call = ⟨.drawId, .ok id⟩) (hid' : d'.call = ⟨.drawId, .ok id'⟩) : id < id' := by
  subst hlog
  have hx := run.exec_of_mem (List.mem_append_right l₁ List.mem_cons_self)
  have hmem' := List.mem_append_right l₁ (List.mem_cons_of_mem d hd')
  have hx' := run.exec_of_mem hmem'
  rw [hid] at hx
  rw [hid'] at hx'
  have hafter : id ≤ d.after.lastValue := (draw_answered hx).2
  have hbefore : id ≤ d'.before.lastValue := by
    refine run.linked.around.2.keeps_mem (Q := fun t => id ≤ t.lastValue) ?_ hafter hd'
    intro f hf hle
    have hfx := run.exec_of_mem (List.mem_append_right l₁ (List.mem_cons_of_mem d hf))
    exact hle.trans (lastValue_mono hfx)
  exact hbefore.trans_lt (draw_answered hx').1

/-- An acknowledged append has drawn an id and stored its row under it, for good. -/
theorem acknowledged_row (run : AuditRun calls s₀ log s p) {l₁ l₂ : List (AuditEntry ι)}
    (hlog : log = l₁ ++ l₂) {i : ι} {event : AuditEvent} (hack : Acknowledged calls l₁ i event) :
    (∃ d ∈ l₁, d.caller = i ∧ d.call = ⟨.drawId, .ok (drawnId (history i l₁))⟩) ∧
      auditRow (drawnId (history i l₁)) event ∈ s.ascending := by
  subst hlog
  obtain ⟨id, hh⟩ := append_returns hack.2
  rw [show drawnId (history i l₁) = id by rw [hh]; rfl]
  obtain ⟨d, hd, hi, hc⟩ := mem_history.mp (hh ▸ List.mem_cons_self)
  obtain ⟨e, he, _, hce⟩ := mem_history.mp (hh ▸ List.mem_cons_of_mem _ List.mem_cons_self)
  refine ⟨⟨d, hd, hi, hc⟩, AuditTable.mem_ascending.mpr ?_⟩
  have hx := run.exec_of_mem (List.mem_append_left l₂ he)
  rw [hce] at hx
  obtain ⟨l₃, l₄, hl⟩ := List.append_of_mem (List.mem_append_left l₂ he)
  have hrest := (hl ▸ run.trace).around.2
  exact hrest.keeps (Q := fun t => t.rows.get id = some (auditRow id event))
    (fun hx hold => audit_row_kept hx hold) (insertRow_answered hx).2

/-- Of two acknowledged appends, one has drawn its id first. -/
theorem drawn_apart (run : AuditRun calls s₀ log s p) {i j : ι} {event event' : AuditEvent} (hij : i ≠ j)
    (hack : Acknowledged calls log i event) (hack' : Acknowledged calls log j event') :
    drawnId (history i log) < drawnId (history j log) ∨ drawnId (history j log) < drawnId (history i log) := by
  obtain ⟨⟨d, hd, rfl, hc⟩, _⟩ := acknowledged_row run (List.append_nil log).symm hack
  obtain ⟨⟨d', hd', rfl, hc'⟩, _⟩ := acknowledged_row run (List.append_nil log).symm hack'
  obtain ⟨l₁, l₂, hlog⟩ := List.append_of_mem hd
  rcases List.mem_append.mp (hlog ▸ hd') with hleft | hright
  · obtain ⟨l₃, l₄, rfl⟩ := List.append_of_mem hleft
    rw [List.append_assoc, List.cons_append] at hlog
    exact Or.inr (drawn_later run hlog (List.mem_append_right l₄ List.mem_cons_self) hc' hc)
  · rcases List.mem_cons.mp hright with rfl | hright
    · exact absurd rfl hij
    · exact Or.inl (drawn_later run hlog hright hc hc')

theorem audit_trail (run : AuditRun calls s₀ log s p) : AuditTrail calls s₀ log s where
  grows e he := by
    refine AuditTable.events_sublist fun id row hrow => ?_
    have hafter := audit_row_kept (run.exec_of_mem he) hrow
    obtain ⟨l₁, l₂, rfl⟩ := List.append_of_mem he
    exact run.trace.around.2.keeps (Q := fun t => t.rows.get id = some row)
      (fun hx hold => audit_row_kept hx hold) hafter
  kept i event hack := by
    obtain ⟨_, hrow⟩ := acknowledged_row run (List.append_nil log).symm hack
    exact List.mem_map_of_mem hrow
  stored i event hack := by
    obtain ⟨_, hrow⟩ := acknowledged_row run (List.append_nil log).symm hack
    exact AuditTable.mem_ascending.mp hrow
  distinct i j event event' hij hack hack' := by
    rcases drawn_apart run hij hack hack' with hlt | hlt
    · exact hlt.ne
    · exact hlt.ne'
  apart i j event event' hij hack hack' := by
    obtain ⟨_, hrow⟩ := acknowledged_row run (List.append_nil log).symm hack
    obtain ⟨_, hrow'⟩ := acknowledged_row run (List.append_nil log).symm hack'
    rcases drawn_apart run hij hack hack' with hlt | hlt
    · exact Or.inl (AuditTable.listed_before hrow hrow' hlt)
    · exact Or.inr (AuditTable.listed_before hrow' hrow hlt)
  ordered l₁ l₂ i j event event' hlog hack hnone hack' := by
    obtain ⟨⟨d, hd, _, hc⟩, hrow⟩ := acknowledged_row run hlog hack
    obtain ⟨⟨d', hd', rfl, hc'⟩, hrow'⟩ := acknowledged_row run (List.append_nil log).symm hack'
    have hlate : d' ∈ l₂ := by
      rw [hlog] at hd'
      refine (List.mem_append.mp hd').resolve_left fun hearly => ?_
      have hmem : d'.call ∈ history d'.caller l₁ := mem_history.mpr ⟨d', hearly, rfl, rfl⟩
      rw [hnone] at hmem
      cases hmem
    obtain ⟨l₃, l₄, hl₁⟩ := List.append_of_mem hd
    have hlog' : log = l₃ ++ d :: (l₄ ++ l₂) := by
      rw [hlog, hl₁, List.append_assoc, List.cons_append]
    exact AuditTable.listed_before hrow hrow' (drawn_later run hlog' (List.mem_append_right l₄ hlate) hc hc')
  read i limit events _ hr := by
    rcases returns_tryCall.mp hr with ⟨e, _, he⟩ | ⟨rows, t, hh, ht⟩
    · cases he
    obtain ⟨rfl, he⟩ := returns_pure.mp ht
    obtain rfl := Except.ok.inj he
    obtain ⟨e, he, rfl, _, hx⟩ := run.executed (hh ▸ List.mem_cons_self)
    refine ⟨e.before, run.linked.during he, ?_⟩
    rw [selectRecent_answered hx, recent_of_descending]
    rfl

end

/-! ## Two overlapping appends and a read -/

def eventOf (action : String) : AuditEvent := ⟨100, some "operator", action, "allowed", ""⟩

def overlappingCalls : Fin 3 → AuditMethod
  | 0 => .append (eventOf "propose")
  | 1 => .append (eventOf "approve")
  | 2 => .recent 10

def overlappingStart : Snapshot (Fin 3) AuditStatement.Answer AuditTable
    fun i => (overlappingCalls i).Result :=
  ⟨[], .empty, fun i => (overlappingCalls i).program⟩

/-- The first append draws its id first, and its row becomes visible after the read. -/
def overlapping : Snapshot (Fin 3) AuditStatement.Answer AuditTable
    fun i => (overlappingCalls i).Result :=
  overlappingStart.play (fun _ : Unit => AuditTable.run) [(0, ()), (1, ()), (1, ()), (2, ()), (0, ())]

theorem overlapping_run :
    AuditRun overlappingCalls .empty overlapping.log overlapping.state overlapping.pool :=
  play_run (c := overlappingStart) (fun _ => auditStatement_sound) .start _

theorem audit_trail_overlapping :
    AuditTrail overlappingCalls .empty overlapping.log overlapping.state :=
  audit_trail overlapping_run

/-- The read has found the event of the second append only. -/
example : overlapping.pool 2 = .ret (.ok [eventOf "approve"]) := rfl

example : overlapping.state.events = [eventOf "propose", eventOf "approve"] := by decide +kernel

end Piteka.Safety
