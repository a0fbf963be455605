/-
The daemon's discovery buffer: entities wait in it, keyed by the id the
daemon gave them, until the server confirms them.

In ServerPoll mode the server reads the pending entries (`getPending`),
processes them and sends the created entities back (`markSubnetCreated`,
`markHostCreated`); reading does not remove anything.
-/
import Netvisor.Hosts.Api
import Netvisor.Lib.Assoc

namespace Netvisor

/-- An entity between its discovery and the server's confirmation. -/
inductive BufferedEntity (α : Type)
  /-- Discovered, not confirmed. -/
  | pending (data : α)
  /-- Confirmed with the server's data, whose id may differ after deduplication. -/
  | created (pendingId : Uuid) (actual : α)
deriving Repr

namespace BufferedEntity

variable {α : Type}

def isPending : BufferedEntity α → Bool
  | pending _ => true
  | created _ _ => false

def isCreated : BufferedEntity α → Bool
  | pending _ => false
  | created _ _ => true

def getData : BufferedEntity α → α
  | pending data => data
  | created _ actual => actual

end BufferedEntity

/-- A snapshot of the pending entities. -/
structure BufferedEntities where
  hosts : List DiscoveryHostRequest
  subnets : List Subnet
deriving DecidableEq, Repr

structure EntityBuffer where
  subnets : Assoc Uuid (BufferedEntity Subnet) := ∅
  hosts : Assoc Uuid (BufferedEntity DiscoveryHostRequest) := ∅

namespace EntityBuffer

def pushSubnet (b : EntityBuffer) (subnet : Subnet) : EntityBuffer :=
  { b with subnets := b.subnets.insert subnet.id (.pending subnet) }

/-- The new buffer, and the id mapping if the id changed. -/
def markSubnetCreated (b : EntityBuffer) (pendingId : Uuid) (actual : Subnet) :
    Option (Uuid × Uuid) × EntityBuffer :=
  match b.subnets.lookup pendingId with
  | some _ =>
    (if pendingId != actual.id then some (pendingId, actual.id) else none,
      { b with subnets := b.subnets.insert pendingId (.created pendingId actual) })
  | none => (none, b)

/-- Children of a pending entry are merged into it. -/
def pushHost (b : EntityBuffer) (host : DiscoveryHostRequest) : EntityBuffer :=
  match b.hosts.lookup host.host.id with
  | some (.pending existing) =>
    { b with hosts := b.hosts.insert host.host.id (.pending (existing.extend host)) }
  | some (.created _ _) | none => { b with hosts := b.hosts.insert host.host.id (.pending host) }

def markHostCreated (b : EntityBuffer) (pendingId : Uuid) (actual : HostResponse) : EntityBuffer :=
  match b.hosts.lookup pendingId with
  | some (.pending _) =>
    { b with hosts := b.hosts.insert pendingId (.created pendingId
        { host := actual.toHost
          interfaces := actual.interfaces
          ports := actual.ports
          services := actual.services
          ifEntries := actual.ifEntries }) }
  | some (.created _ _) | none => b

/-- The first lock-held section of `getPending`. -/
def pendingHosts (b : EntityBuffer) : List DiscoveryHostRequest :=
  (b.hosts.values.filter BufferedEntity.isPending).map BufferedEntity.getData

/-- The second lock-held section of `getPending`. -/
def pendingSubnets (b : EntityBuffer) : List Subnet :=
  (b.subnets.values.filter BufferedEntity.isPending).map BufferedEntity.getData

def getPending (b : EntityBuffer) : BufferedEntities where
  hosts := b.pendingHosts
  subnets := b.pendingSubnets

def clearAll (_ : EntityBuffer) : EntityBuffer := {}

end EntityBuffer

/-! ## Pending hosts -/

namespace EntityBuffer

/-- The pending entry at `id`, if there is one. -/
def pendingAt (b : EntityBuffer) (id : Uuid) : Option DiscoveryHostRequest :=
  match b.hosts.lookup id with
  | some (.pending r) => some r
  | _ => none

theorem pendingAt_eq_some {b : EntityBuffer} {id : Uuid} {r : DiscoveryHostRequest} :
    b.pendingAt id = some r ↔ b.hosts.lookup id = some (.pending r) := by
  unfold pendingAt
  split
  · next h => simp [h]
  · next h =>
    simp only [reduceCtorEq, false_iff]
    exact h r

theorem mem_pendingHosts {b : EntityBuffer} {r : DiscoveryHostRequest} :
    r ∈ b.pendingHosts ↔ ∃ id, b.pendingAt id = some r := by
  simp only [pendingHosts, List.mem_map, List.mem_filter, Assoc.mem_values, pendingAt_eq_some]
  constructor
  · rintro ⟨e, ⟨⟨id, hid⟩, hp⟩, rfl⟩
    cases e with
    | pending data => exact ⟨id, hid⟩
    | created _ _ => cases hp
  · rintro ⟨id, hid⟩
    exact ⟨.pending r, ⟨⟨id, hid⟩, rfl⟩, rfl⟩

/-- What `pushHost` leaves at each id: at the pushed one an entry with the old
entry's children added to the new ones. -/
theorem pendingAt_pushHost (b : EntityBuffer) (host : DiscoveryHostRequest) (id : Uuid) :
    (b.pushHost host).pendingAt id =
      if id = host.host.id then
        match b.pendingAt id with
        | some existing => some (existing.extend host)
        | none => some host
      else b.pendingAt id := by
  unfold pushHost
  by_cases he : id = host.host.id
  · subst he
    cases h : b.hosts.lookup host.host.id with
    | none => simp [pendingAt, h]
    | some e => cases e <;> simp [pendingAt, h]
  · cases h : b.hosts.lookup host.host.id with
    | none => simp [pendingAt, he]
    | some e => cases e <;> simp [pendingAt, he]

/-- A confirmation takes the entry out of the pending ones and touches no other. -/
theorem pendingAt_markHostCreated (b : EntityBuffer) (pendingId id : Uuid) (actual : HostResponse) :
    (b.markHostCreated pendingId actual).pendingAt id = if id = pendingId then none else b.pendingAt id := by
  unfold markHostCreated
  by_cases he : id = pendingId
  · subst he
    cases h : b.hosts.lookup id with
    | none => simp [pendingAt, h]
    | some e => cases e <;> simp [pendingAt, h]
  · cases h : b.hosts.lookup pendingId with
    | none => simp [he]
    | some e => cases e <;> simp [pendingAt, he]

@[simp] theorem pendingAt_pushSubnet (b : EntityBuffer) (subnet : Subnet) (id : Uuid) :
    (b.pushSubnet subnet).pendingAt id = b.pendingAt id := rfl

@[simp] theorem pendingAt_markSubnetCreated (b : EntityBuffer) (pendingId id : Uuid) (actual : Subnet) :
    (b.markSubnetCreated pendingId actual).2.pendingAt id = b.pendingAt id := by
  unfold markSubnetCreated
  split <;> rfl

@[simp] theorem pendingAt_clearAll (b : EntityBuffer) (id : Uuid) : b.clearAll.pendingAt id = none := rfl

end EntityBuffer

end Netvisor
