import Piteka.Application.Observation

/-!
# Complete observation queries

A query looks at the last health row of each source only. Its verdict is the one that
all the rows warrant, unless an earlier row without a completed cursor is masked by
the last one, and it depends on the order of the rows exactly if a source has rows of
both kinds and nothing else is missing.
-/
namespace Piteka.Safety

set_option autoImplicit false

open Piteka.Application Piteka.Table

section
variable (port : ObservationPort) (q : ObservationQuery)

/-- All that the query asks for is there. -/
def Warranted : Prop :=
  ∃ observations rows, Reached port q observations rows ∧ ∀ o ∈ observations,
    o.retractionStatus = "active" ∧ EachHas (·.sourceId) rows o.sourceId SourceHealth.collected

/-- Every observation is active and the last row of its source is collected, but one of the
sources has an earlier row that is not. -/
def Masked : Prop :=
  ∃ observations rows, Reached port q observations rows ∧
    (∀ o ∈ observations, o.retractionStatus = "active" ∧
      LastHas (·.sourceId) rows o.sourceId SourceHealth.collected) ∧
    ∃ o ∈ observations, SomeLacks (·.sourceId) rows o.sourceId SourceHealth.collected

/-- The verdict is the same for every order of the rows. -/
def OrderFree : Prop :=
  ∀ rows, port.sourceHealth q.tenantId = .ok rows → ∀ rows' : List SourceHealth,
    rows'.Perm rows → (query (port.withHealth rows') q).isComplete = (query port q).isComplete

/-- Every observation is active and its source has a collected row, but one of the sources also
has a row that is not. -/
def OrderDecides : Prop :=
  ∃ observations rows, Reached port q observations rows ∧
    (∀ o ∈ observations, o.retractionStatus = "active" ∧
      ∃ h ∈ rows, h.sourceId = o.sourceId ∧ h.collected = true) ∧
    ∃ o ∈ observations, SomeLacks (·.sourceId) rows o.sourceId SourceHealth.collected

end

section
variable {port : ObservationPort} {q : ObservationQuery} {observations : List Observation}
  {rows rows' : List SourceHealth}

theorem complete_of_warranted (h : Warranted port q) : (query port q).isComplete = true := by
  obtain ⟨observations, rows, hreached, hall⟩ := h
  rw [hreached.complete_iff]
  intro o ho
  obtain ⟨hactive, heach⟩ := hall o ho
  exact ⟨hactive, heach.lastHas⟩

/-- The verdict fails to be warranted only where it is complete. -/
theorem verdict_iff : ((query port q).isComplete = true ↔ Warranted port q) ↔ ¬ Masked port q := by
  constructor
  · rintro hiff ⟨observations, rows, hreached, hlast, o, ho, hlacks⟩
    obtain ⟨observations', rows', hreached', hall⟩ := hiff.mp (hreached.complete_iff.mpr hlast)
    obtain ⟨rfl, rfl⟩ := hreached.unique hreached'
    obtain ⟨_, heach⟩ := hall o ho
    exact (eachHas_iff.mp heach).2 hlacks
  · intro hmasked
    refine ⟨fun hcomplete => ?_, complete_of_warranted⟩
    obtain ⟨observations, rows, hreached⟩ := reached_of_complete hcomplete
    have hlast := hreached.complete_iff.mp hcomplete
    refine ⟨observations, rows, hreached, fun o ho => ?_⟩
    obtain ⟨hactive, hlastRow⟩ := hlast o ho
    refine ⟨hactive, eachHas_iff.mpr ⟨hlastRow, fun hlacks => ?_⟩⟩
    exact hmasked ⟨observations, rows, hreached, hlast, o, ho, hlacks⟩

/-- Where the order does not decide, a collected row for every source is enough, in any order. -/
theorem complete_of_collected (hfree : ¬ OrderDecides port q)
    (hreached : Reached port q observations rows)
    (hrow : ∀ o ∈ observations, o.retractionStatus = "active" ∧
      ∃ h ∈ rows, h.sourceId = o.sourceId ∧ h.collected = true)
    (hperm : rows'.Perm rows) : (query (port.withHealth rows') q).isComplete = true := by
  rw [(hreached.withHealth rows').complete_iff]
  intro o ho
  obtain ⟨hactive, h, hmem, hsource, hcollected⟩ := hrow o ho
  have heach : EachHas (·.sourceId) rows o.sourceId SourceHealth.collected := by
    refine ⟨⟨h, hmem, hsource⟩, fun h' hmem' hsource' => ?_⟩
    cases hlacks : h'.collected with
    | true => rfl
    | false =>
      exact absurd ⟨observations, rows, hreached, hrow, o, ho, h', hmem', hsource', hlacks⟩ hfree
  exact ⟨hactive, (heach.perm hperm).lastHas⟩

/-- A complete query has a collected row for every source. -/
theorem collected_of_complete (hreached : Reached port q observations rows)
    (hcomplete : (query port q).isComplete = true) :
    ∀ o ∈ observations, o.retractionStatus = "active" ∧
      ∃ h ∈ rows, h.sourceId = o.sourceId ∧ h.collected = true := by
  intro o ho
  obtain ⟨hactive, hlast⟩ := hreached.complete_iff.mp hcomplete o ho
  exact ⟨hactive, hlast.exists_row⟩

theorem withHealth_eq (hreached : Reached port q observations rows) :
    query (port.withHealth rows) q = query port q := by
  rw [hreached.query_eq, (hreached.withHealth rows).query_eq]

theorem orderFree_of_not_decides (hfree : ¬ OrderDecides port q) : OrderFree port q := by
  intro rows hrows rows' hperm
  rw [Bool.eq_iff_iff]
  constructor
  · intro hcomplete
    obtain ⟨observations, rows'', hreached'⟩ := reached_of_complete hcomplete
    have hreached : Reached port q observations rows :=
      ⟨hreached'.tenant, hreached'.observation, hreached'.lineage, hreached'.found, hrows⟩
    obtain rfl : rows'' = rows' := (Except.ok.inj hreached'.health).symm
    rw [← withHealth_eq hreached]
    refine complete_of_collected hfree hreached (fun o ho => ?_) (List.Perm.refl rows)
    obtain ⟨hactive, h, hmem, hrow⟩ := collected_of_complete hreached' hcomplete o ho
    exact ⟨hactive, h, hperm.mem_iff.mp hmem, hrow⟩
  · intro hcomplete
    obtain ⟨observations, rows'', hreached⟩ := reached_of_complete hcomplete
    obtain rfl : rows = rows'' := Except.ok.inj (hrows.symm.trans hreached.health)
    exact complete_of_collected hfree hreached (collected_of_complete hreached hcomplete) hperm

theorem not_orderFree_of_decides (h : OrderDecides port q) : ¬ OrderFree port q := by
  obtain ⟨observations, rows, hreached, hrow, o, ho, hlacks⟩ := h
  intro hfree
  have hbest : (query (port.withHealth (favourable SourceHealth.collected rows)) q).isComplete =
      true := by
    rw [(hreached.withHealth _).complete_iff]
    intro o ho
    obtain ⟨hactive, hcollected⟩ := hrow o ho
    exact ⟨hactive, lastHas_favourable hcollected⟩
  have hworst : (query (port.withHealth
      (favourable (fun h => !h.collected) rows)) q).isComplete = true := by
    rw [hfree rows hreached.health _ favourable_perm, ← hfree rows hreached.health _ favourable_perm]
    exact hbest
  obtain ⟨_, hlast⟩ := (hreached.withHealth _).complete_iff.mp hworst o ho
  exact not_lastHas_unfavourable hlacks hlast

end

theorem observation_complete_iff (port : ObservationPort) (q : ObservationQuery) :
    (((query port q).isComplete = true ↔ Warranted port q) ↔ ¬ Masked port q) ∧
      (OrderFree port q ↔ ¬ OrderDecides port q) :=
  ⟨verdict_iff, fun hfree hdecides => not_orderFree_of_decides hdecides hfree,
    orderFree_of_not_decides⟩

/-! One source with two rows: a run that did not complete, and then one that did. -/

def sampleObserved : Observation where
  observationId := "obs-1"
  sourceId := "github"
  sourceEventId := "deployment-1"
  sourceEventType := "deployment_status"
  subjectRefs := ["mandate-1"]
  assertedEventTime := some 10
  observedAt := 11
  normalizedProfileId := "github.deployment.v1"
  normalizedProfileVersion := 1
  normalizedPayloadDigestHex := "abababababababababababababababababababababababababababababababab"
  authenticityMaterialRefs := []
  collectionRunId := "run-1"
  supersedes := none
  retractionStatus := "active"
  visibilityScope := "tenant"

def sampleRow (completed : Option Int64) : SourceHealth :=
  ⟨"github", "github", "GitHub", some 9, completed, some 11⟩

def shadowingPort : ObservationPort :=
  ⟨fun _ _ => .ok [sampleObserved], fun _ => .ok [sampleRow none, sampleRow (some 12)]⟩

theorem shadowed_row_complete :
    ¬ ∀ port q, (query port q).isComplete = true ↔ Warranted port q := by
  intro h
  have hcomplete : (query shadowingPort ⟨"tenant-a", "obs-1"⟩).isComplete = true := by decide
  obtain ⟨observations, rows, hreached, hall⟩ := (h _ _).mp hcomplete
  obtain rfl := Except.ok.inj hreached.lineage
  obtain rfl := Except.ok.inj hreached.health
  obtain ⟨_, heach⟩ := hall sampleObserved (List.mem_singleton_self _)
  exact absurd (heach.all (sampleRow none) List.mem_cons_self rfl) (by decide)

end Piteka.Safety
