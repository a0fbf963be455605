/-
The events the services publish about entities, and a subscriber that collects
them for a while: what is delivered waits in a batch, and a timer hands the batch
over without the events that repeat an earlier one.

What an event says of the entity itself, beyond its type, is left out.
-/
import Netvisor.Auth.Entity
import Netvisor.Tags.Service

namespace Netvisor

inductive EntityOperation
  | get | getAll | created | updated | deleted
deriving DecidableEq, Repr

/-- The keys the services write. -/
structure EventMetadata where
  triggerStale : Option Bool := none
  suppressLogs : Option Bool := none
  clearStale : Option Bool := none
deriving DecidableEq, Repr

structure EntityEvent where
  id : Uuid := Uuid.nil
  entityType : EntityDiscriminants
  entityId : Uuid
  networkId : Option Uuid := none
  organizationId : Option Uuid := none
  operation : EntityOperation
  timestamp : DateTime := 0
  authentication : AuthenticatedEntity := .system
  metadata : EventMetadata := {}
deriving Repr

namespace EntityEvent

/-- `PartialEq for EntityEvent`: neither the type of the entity nor the event's own id and time count. -/
def eq (e other : EntityEvent) : Bool :=
  e.entityId == other.entityId && e.networkId == other.networkId && e.organizationId == other.organizationId &&
    e.operation == other.operation && e.authentication == other.authentication && e.metadata == other.metadata

/-- What two events that are taken for one agree on. -/
structure Alike (e other : EntityEvent) : Prop where
  entityId : e.entityId = other.entityId
  networkId : e.networkId = other.networkId
  organizationId : e.organizationId = other.organizationId
  operation : e.operation = other.operation
  authentication : e.authentication = other.authentication
  metadata : e.metadata = other.metadata

theorem eq_iff {e other : EntityEvent} : e.eq other = true ↔ Alike e other := by
  simp only [eq, Bool.and_eq_true, beq_iff_eq]
  constructor
  · rintro ⟨⟨⟨⟨⟨h1, h2⟩, h3⟩, h4⟩, h5⟩, h6⟩
    exact ⟨h1, h2, h3, h4, h5, h6⟩
  · rintro ⟨h1, h2, h3, h4, h5, h6⟩
    exact ⟨⟨⟨⟨⟨h1, h2⟩, h3⟩, h4⟩, h5⟩, h6⟩

/-- The loop of `flush_batch` that drops an event equal to one it has kept. -/
def unique (events : List EntityEvent) : List EntityEvent := events.eraseDupsBy eq

end EntityEvent

/-! ## What is kept of a batch -/

namespace EntityEvent

theorem alike_refl (e : EntityEvent) : Alike e e := ⟨rfl, rfl, rfl, rfl, rfl, rfl⟩

theorem unique_cons {e : EntityEvent} {events : List EntityEvent} :
    unique (e :: events) = e :: unique (events.filter fun b => b.eq e = false) :=
  List.eraseDupsBy_cons

theorem mem_of_mem_unique {e : EntityEvent} : ∀ {events}, e ∈ unique events → e ∈ events
  | [], h => h
  | a :: as, h => by
    rw [unique_cons] at h
    rcases List.mem_cons.mp h with rfl | h
    · exact List.mem_cons_self
    · exact List.mem_cons_of_mem _ (List.mem_of_mem_filter (mem_of_mem_unique h))
termination_by events => events.length
decreasing_by exact Nat.lt_succ_of_le (List.length_filter_le _ _)

/-- An event that is dropped is like one that is kept. -/
theorem exists_alike_mem_unique {e : EntityEvent} : ∀ {events}, e ∈ events → ∃ kept ∈ unique events, Alike e kept
  | [], h => absurd h (by simp)
  | a :: as, h => by
    rw [unique_cons]
    by_cases ha : e.eq a = true
    · exact ⟨a, List.mem_cons_self, eq_iff.mp ha⟩
    rcases List.mem_cons.mp h with rfl | h
    · exact absurd (eq_iff.mpr (alike_refl e)) ha
    have hmem : e ∈ as.filter fun b => b.eq a = false := List.mem_filter.mpr ⟨h, by simpa using ha⟩
    obtain ⟨kept, hkept, halike⟩ := exists_alike_mem_unique hmem
    exact ⟨kept, List.mem_cons_of_mem _ hkept, halike⟩
termination_by events => events.length
decreasing_by exact Nat.lt_succ_of_le (List.length_filter_le _ _)

end EntityEvent

end Netvisor
