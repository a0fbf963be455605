/-
Neighbor resolution: what an interface table entry heard from its neighbor over
LLDP or CDP is looked up among the hosts and entries of the network.

`HostService` resolves the entries of a network when it hears on the event bus
that a discovery session completed.
-/
import Netvisor.Daemons.Subscriber
import Netvisor.Hosts.Service

namespace Netvisor

/-! ## Looking a neighbor up -/

namespace LldpResolver

variable (parseMac : String → Option MacAddress) (db : Db)

/-- By MAC address, where the text parses as one. -/
def findHostByMac (mac : String) (networkId : Uuid) : Option Uuid :=
  (parseMac mac).bind fun macAddr =>
    (db.interfaces.rows.find? fun i => i.base.networkId == networkId && i.base.macAddress == some macAddr).map
      (·.base.hostId)

def findHostByIp (ip : IpAddr) (networkId : Uuid) : Option Uuid :=
  (db.interfaces.rows.find? fun i => i.base.networkId == networkId && i.base.ipAddress == ip).map (·.base.hostId)

def findHostByIfName (name : String) (networkId : Uuid) : Option Uuid :=
  (db.ifEntries.rows.find? fun e => e.base.networkId == networkId && e.base.ifDescr == name).map (·.base.hostId)

def findHostByChassisId (chassisId : String) (networkId : Uuid) : Option Uuid :=
  (db.hosts.rows.find? fun h => h.base.networkId == networkId && h.base.chassisId == some chassisId).map (·.id)

def findIfEntryByMac (mac : String) (hostId : Uuid) : Option Uuid :=
  (parseMac mac).bind fun macAddr =>
    (db.ifEntries.rows.find? fun e => e.base.hostId == hostId && e.base.macAddress == some macAddr).map (·.id)

def findIfEntryByName (name : String) (hostId : Uuid) : Option Uuid :=
  (db.ifEntries.rows.find? fun e => e.base.hostId == hostId && e.base.ifDescr == name).map (·.id)

/-- The entry of the interface of the host that has the address. -/
def findIfEntryByIp (ip : IpAddr) (hostId : Uuid) : Option Uuid :=
  (db.interfaces.rows.find? fun i => i.base.hostId == hostId && i.base.ipAddress == ip).bind fun i =>
    (db.ifEntries.rows.find? fun e => e.base.interfaceId == some i.id).map (·.id)

end LldpResolver

open LldpResolver

def LldpChassisId.resolveHostId (parseMac : String → Option MacAddress) (db : Db) (networkId : Uuid) :
    LldpChassisId → Option Uuid
  | .macAddress mac => findHostByMac parseMac db mac networkId
  | .networkAddress ip => findHostByIp db ip networkId
  | .interfaceName name => findHostByIfName db name networkId
  | .chassisComponent id | .locallyAssigned id => findHostByChassisId db id networkId
  | .interfaceAlias _ | .portComponent _ => none

def LldpPortId.resolveIfEntryId (parseMac : String → Option MacAddress) (db : Db) (hostId : Uuid) :
    LldpPortId → Option Uuid
  | .macAddress mac => findIfEntryByMac parseMac db mac hostId
  | .interfaceName name | .interfaceAlias name => findIfEntryByName db name hostId
  | .networkAddress ip => findIfEntryByIp db ip hostId
  | .portComponent _ | .agentCircuitId _ | .locallyAssigned _ => none

/-- Data of a neighbor that is not resolved. -/
def IfEntry.isUnresolved (e : IfEntry) : Bool :=
  (e.base.lldpChassisId.isSome || e.base.cdpDeviceId.isSome || e.base.cdpAddress.isSome) && e.base.neighbor.isNone

structure LldpResolutionStats where
  total : Nat := 0
  hostsResolved : Nat := 0
  portsResolved : Nat := 0
deriving DecidableEq, Repr

def LldpResolutionStats.count (stats : LldpResolutionStats) (neighbor : Option Neighbor) : LldpResolutionStats :=
  let stats := { stats with total := stats.total + 1 }
  match neighbor with
  | some (.ifEntry _) =>
    { stats with hostsResolved := stats.hostsResolved + 1, portsResolved := stats.portsResolved + 1 }
  | some (.host _) => { stats with hostsResolved := stats.hostsResolved + 1 }
  | none => stats

/-! ## Resolving the entries of a network -/

namespace HostService

variable (parseMac : String → Option MacAddress)

/-- The neighbor of an entry: its port if that is found, else its host. CDP
counts where there is no LLDP data. -/
def resolvedNeighbor (db : Db) (networkId : Uuid) (e : IfEntry) : Option Neighbor :=
  match e.base.lldpChassisId, e.base.cdpDeviceId with
  | some chassisId, _ =>
    (chassisId.resolveHostId parseMac db networkId).map fun hostId =>
      match e.base.lldpPortId.bind (LldpPortId.resolveIfEntryId parseMac db hostId) with
      | some remoteIfEntryId => .ifEntry remoteIfEntryId
      | none => .host hostId
  | none, some deviceId => (findHostByChassisId db deviceId networkId).map .host
  | none, none => none

def unresolvedEntries (db : Db) (networkId : Uuid) : List IfEntry :=
  db.ifEntries.select (fun e => e.base.networkId == networkId && e.isUnresolved) IfEntry.createdAt

def resolveEntry (networkId : Uuid) (stats : LldpResolutionStats) (e : IfEntry) : Store LldpResolutionStats := do
  let neighbor := resolvedNeighbor parseMac (← get) networkId e
  if neighbor.isSome then
    let _ ← CrudService.update IfEntry.display { e with base.neighbor := neighbor }
  return stats.count neighbor

def resolveLldpLinks (networkId : Uuid) : Store LldpResolutionStats := do
  let unresolved := unresolvedEntries (← get) networkId
  unresolved.foldlM (resolveEntry parseMac networkId) {}

/-! ## The subscriber -/

variable (registry : DaemonService.Registry)

def eventFilter : EventFilter := .discoveryOnly (some [.complete])

/-- A session of a daemon in ServerPoll mode completed: its network is
resolved, and it is no error if that fails. -/
def handleEvent (event : DiscoveryUpdatePayload) : Store Unit :=
  match registry.daemons event.daemonId with
  | .error e => throw (.internal e)
  | .ok none => return ()
  | .ok (some daemon) =>
    if daemon.mode != .serverPoll || daemon.isUnreachable then return ()
    else if event.phase == .complete then do
      let _ ← Program.attempt (resolveLldpLinks parseMac event.networkId)
    else return ()

/-- What publishing an event makes the service do. -/
def onPublished (event : DiscoveryUpdatePayload) : Store Unit :=
  if eventFilter.matchesDiscovery event then handleEvent parseMac registry event else return ()

/-- Nothing of the network is left to resolve. -/
def Resolved (db : Db) (networkId : Uuid) : Prop :=
  ∀ e ∈ unresolvedEntries db networkId, resolvedNeighbor parseMac db networkId e = none

instance (db : Db) (networkId : Uuid) : Decidable (Resolved parseMac db networkId) :=
  inferInstanceAs (Decidable (∀ _ ∈ _, _))

/-- Where nothing is left to resolve, resolving changes nothing. -/
theorem after_resolveLldpLinks {db : Db} {networkId : Uuid} (h : Resolved parseMac db networkId) :
    Program.after (resolveLldpLinks parseMac networkId) db = db := by
  have hloop : Program.wp (resolveLldpLinks parseMac networkId) (fun _ t => t = db) (fun _ t => t = db) db := by
    simp only [resolveLldpLinks, Program.wp_bind, Program.wp_get]
    have hI := Program.wp_foldlM_all (E := fun _ t => t = db) (f := resolveEntry parseMac networkId)
      (I := fun _ _ rest t => t = db ∧ ∀ e ∈ rest, resolvedNeighbor parseMac db networkId e = none)
      (l := unresolvedEntries db networkId) (b := {}) ?_ ⟨rfl, h⟩
    · exact hI.mono (fun _ _ ht => ht.1) fun _ _ ht => ht
    · rintro _ stats e rest t ⟨rfl, hrest⟩
      have he := hrest e List.mem_cons_self
      simp only [resolveEntry, Program.wp_bind, Program.wp_get, he, Option.isSome_none, Bool.false_eq_true, if_false,
        Program.wp_pure]
      exact ⟨trivial, fun e he => hrest e (List.mem_cons_of_mem _ he)⟩
  exact Program.wp_after.mp hloop

variable {registry} {event : DiscoveryUpdatePayload} {daemon : Daemon}

/-- In DaemonPoll mode nothing is resolved. -/
theorem onPublished_of_daemonPoll {db : Db} (hd : registry.daemons event.daemonId = .ok (some daemon))
    (hmode : daemon.mode = .daemonPoll) : Program.after (onPublished parseMac registry event) db = db := by
  unfold onPublished handleEvent
  split
  · simp only [hd, hmode]
    rfl
  · rfl

theorem onPublished_of_resolved {db : Db} (hd : registry.daemons event.daemonId = .ok (some daemon))
    (h : event.phase = .complete → Resolved parseMac db event.networkId) :
    Program.after (onPublished parseMac registry event) db = db := by
  unfold onPublished handleEvent
  simp only [hd]
  split
  · split
    · rfl
    · split
      · next hphase =>
        have hr := after_resolveLldpLinks parseMac (h (by simpa using hphase))
        rw [← Program.wp_after (P := fun t => t = db)] at hr ⊢
        simp only [Program.wp_bind, Program.wp_attempt]
        exact hr
      · rfl
  · rfl

end HostService

end Netvisor
