/-
The stale flag of a topology after a batch of events.

A topology that is created is announced by an event that clears the flag, so that
it is not shown as stale when it is first loaded. The subscriber clears the flag
of every topology of the network then, and drops what else the batch asks for.
-/
import Netvisor.Topology.SubscriberFacts

namespace Netvisor

open TopologySubscriber

namespace EntityEvent

/-- The creation of the topology. -/
def creates (topology : Topology) (event : EntityEvent) : Bool :=
  event.entityType == .topology && event.operation == .created && event.entityId == topology.id

/-- An event of its network, other than its creation, asks for the topology to be marked as stale. -/
def asks (topology : Topology) (event : EntityEvent) : Bool :=
  event.networkId == some topology.base.networkId && event.triggersStale && !event.creates topology

end EntityEvent

/-- The flag from before to after a batch. -/
structure FlagKept (events : List EntityEvent) (topology topology' : Topology) : Prop where
  marked : topology.base.isStale = false →
    (topology'.base.isStale = true ↔ ∃ event ∈ events, event.asks topology = true)
  cleared : topology.base.isStale = true → topology'.base.isStale = false →
    ∃ event ∈ events, event.creates topology = true

/-- Something is created in the network, and the flag of its topologies is cleared. -/
def Clears (events : List EntityEvent) (topology : Topology) : Prop :=
  ∃ event ∈ concerning topology.base.networkId events, event.triggersStale = false ∧ event.clearsStale = true

/-- If the batch clears the flag then the topology is the one created, or it is not stale and nothing
asks. Otherwise it is stale, or what asks are not only updates of topologies and its own creation. -/
structure FlagSettled (events : List EntityEvent) (topology : Topology) : Prop where
  clears : Clears events topology → if topology.base.isStale then ∃ event ∈ events, event.creates topology = true
    else ∀ event ∈ events, event.asks topology = false
  marks : ¬ Clears events topology → topology.base.isStale = false →
    ((∃ event ∈ concerning topology.base.networkId events, event.triggersStale = true) ↔
      ∃ event ∈ events, event.asks topology = true)

section

variable [TopologyService] {s : TopologyDb} {events : List EntityEvent} {id : Uuid} {topology : Topology}

theorem isStale_changed : (changed s events topology).base.isStale = true ↔
    ¬ Clears events topology ∧ (topology.base.isStale = true ∨
      ∃ event ∈ concerning topology.base.networkId events, event.triggersStale = true) := by
  have hclears : (changesOf topology.base.networkId events).clearStale = true ↔ Clears events topology :=
    clearStale_changesOf
  rw [← shouldMarkStale_changesOf, ← hclears]
  show (changesOf topology.base.networkId events).stale topology.base.isStale = true ↔ _
  unfold TopologyChanges.stale
  split
  · next h => simp [h]
  · next h => split <;> simp_all

theorem flagKept_changed_iff : FlagKept events topology (changed s events topology) ↔
    FlagSettled events topology := by
  by_cases hc : Clears events topology
  · have hfresh : (changed s events topology).base.isStale = false := by
      rw [← Bool.not_eq_true, isStale_changed]
      exact fun h => h.1 hc
    constructor
    · rintro ⟨hmarked, hcleared⟩
      refine ⟨fun _ => ?_, fun hno => absurd hc hno⟩
      split
      · next h => exact hcleared h hfresh
      · next h =>
        intro event hmem
        by_contra hasks
        have := (hmarked (by simpa using h)).mpr ⟨event, hmem, by simpa using hasks⟩
        rw [hfresh] at this
        cases this
    · rintro ⟨hclears, -⟩
      have hclears := hclears hc
      refine ⟨fun h => ?_, fun h _ => ?_⟩
      · rw [h] at hclears
        rw [hfresh]
        simpa using hclears
      · rw [h] at hclears
        exact hclears
  · have hstale (h : topology.base.isStale = true) : (changed s events topology).base.isStale = true :=
      isStale_changed.mpr ⟨hc, .inl h⟩
    have hfresh (h : topology.base.isStale = false) : (changed s events topology).base.isStale = true ↔
        ∃ event ∈ concerning topology.base.networkId events, event.triggersStale = true := by
      rw [isStale_changed]
      simp [hc, h]
    constructor
    · rintro ⟨hmarked, -⟩
      exact ⟨fun h => absurd h hc, fun _ h => (hfresh h).symm.trans (hmarked h)⟩
    · rintro ⟨-, hmarks⟩
      refine ⟨fun h => (hfresh h).trans (hmarks hc h), fun h h' => ?_⟩
      rw [hstale h] at h'
      cases h'

/-- **The flags are not mixed up** exactly when no other topology of the network is created in the
batch while this one is stale or asked to be, and what asks is not only the update of a topology. -/
theorem flag_kept_iff (h : s.topologies.get id = some topology) :
    ∃ s' topology', handleEvents events s = .ok () s' ∧ s'.topologies.get id = some topology' ∧
      (FlagKept events topology topology' ↔ FlagSettled events topology) := by
  obtain ⟨s', hrun, hget⟩ := get_handleEvents h
  exact ⟨s', changed s events topology, hrun, hget, flagKept_changed_iff⟩

end

/-- A batch of one service that was created, in the network of a topology. -/
theorem flag_kept_of_creation :
    let service : TopologyService := ⟨fun _ => .unknown, fun _ => ([], [])⟩
    let topology : Topology := { id := 7, base := { networkId := 10, isStale := false } }
    let event : EntityEvent :=
      { entityType := .service, entityId := 3, networkId := some 10, operation := .created,
        metadata := { triggerStale := some true, suppressLogs := some false } }
    ∃ s' topology', handleEvents [event] { topologies := ⟨[topology], by decide⟩ } = .ok () s' ∧
      s'.topologies.get 7 = some topology' ∧
          (FlagKept [event] topology topology' ↔ FlagSettled [event] topology) := by
  intro service topology event
  exact flag_kept_iff rfl

/-- Creating topology 8 clears the flag of topology 7. -/
theorem creation_clears_other :
    let service : TopologyService := ⟨fun _ => .unknown, fun _ => ([], [])⟩
    let topology : Topology := { id := 7, base := { networkId := 10 } }
    let event : EntityEvent :=
      { entityType := .topology, entityId := 8, networkId := some 10, operation := .created,
        metadata := { clearStale := some true } }
    ∃ s' topology', handleEvents [event] { topologies := ⟨[topology], by decide⟩ } = .ok () s' ∧
      s'.topologies.get 7 = some topology' ∧ ¬ FlagKept [event] topology topology' := by
  intro service topology event
  refine ⟨_, _, handleEvents_eq _ _, rfl, fun h => ?_⟩
  obtain ⟨event', hmem, hcreates⟩ := h.cleared rfl rfl
  cases List.mem_singleton.mp hmem
  exact absurd hcreates (by decide)

end Netvisor
