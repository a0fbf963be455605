/-
The enforcement of a plan: networks and hosts beyond its limits are deleted,
daemons are put on standby or taken off it, and scheduled discoveries are made
ad hoc, one statement after another.
-/
import Netvisor.Crud.Rows
import Netvisor.Daemons.Subscriber
import Netvisor.Discovery.Scheduling

namespace Netvisor

/-- What plans limit, and the organizations that have them. -/
structure BillingTables where
  organizations : Table Organization Organization.id := {}
  networks : Table Network Network.id := {}
  hosts : Table Host Host.id := {}
  daemons : Table Daemon Daemon.id := {}
  discoveries : Table Discovery Discovery.id := {}

namespace BillingTables

variable (d : BillingTables)

def networksOf (organizationId : Uuid) : List Network :=
  d.networks.select (fun n => n.organizationId == organizationId) (·.createdAt)

def hostsOn (networkIds : List Uuid) : List Host :=
  d.hosts.select (fun h => networkIds.contains h.base.networkId) (·.createdAt)

def daemonsOn (networkIds : List Uuid) : List Daemon :=
  d.daemons.select (fun x => networkIds.contains x.networkId) (·.createdAt)

def discoveriesOn (networkIds : List Uuid) : List Discovery :=
  d.discoveries.select (fun x => networkIds.contains x.base.networkId) (·.createdAt)

def hasNetwork (networkId : Uuid) : Bool := (d.networks.get networkId).isSome

/-! ## Deleting, with what goes along -/

def deleteDiscoveries (ids : List Uuid) : BillingTables :=
  { d with discoveries := d.discoveries.filter fun x => !ids.contains x.id }

def deleteDaemons (ids : List Uuid) : BillingTables :=
  { d with
    daemons := d.daemons.filter fun x => !ids.contains x.id
    discoveries := d.discoveries.filter fun x => !ids.contains x.base.daemonId }

/-- A daemon stays when its host goes. -/
def deleteHosts (ids : List Uuid) : BillingTables := { d with hosts := d.hosts.filter fun h => !ids.contains h.id }

def deleteNetworks (ids : List Uuid) : BillingTables :=
  let daemonIds := (d.daemons.rows.filter fun x => ids.contains x.networkId).map (·.id)
  { d with
    networks := d.networks.filter fun n => !ids.contains n.id
    hosts := d.hosts.filter fun h => !ids.contains h.base.networkId
    daemons := d.daemons.filter fun x => !ids.contains x.networkId
    discoveries := d.discoveries.filter fun x =>
      !ids.contains x.base.networkId && !daemonIds.contains x.base.daemonId }

/-! ## The tables as those of the services -/

def networkRows : Rows BillingTables Network.id where
  name := "networks"
  table := networks
  put networks d := { d with networks }
  table_put _ _ := rfl
  put_table _ := rfl
  put_put _ _ _ := rfl

def hostRows : Rows BillingTables Host.id where
  name := "hosts"
  table := hosts
  put hosts d := { d with hosts }
  table_put _ _ := rfl
  put_table _ := rfl
  put_put _ _ _ := rfl

def daemonRows : Rows BillingTables Daemon.id where
  name := "daemons"
  table := daemons
  put daemons d := { d with daemons }
  table_put _ _ := rfl
  put_table _ := rfl
  put_put _ _ _ := rfl

def discoveryRows : Rows BillingTables Discovery.id where
  name := "discovery"
  table := discoveries
  put discoveries d := { d with discoveries }
  table_put _ _ := rfl
  put_table _ := rfl
  put_put _ _ _ := rfl

theorem not_mem_filter {T : Type} {key : T → Uuid} {t : Table T key} {ids : List Uuid} {r : T}
    (h : r ∈ (t.filter fun x => !ids.contains (key x)).rows) : key r ∉ ids := by
  have hkept := (Table.mem_filter.mp h).2
  simpa using hkept

end BillingTables

open BillingTables

def networkService : Crud BillingTables Network :=
  networkRows.crud
    (fun network d =>
      if (d.organizations.get network.organizationId).isNone then
        some (missingReference "networks" "networks_organization_id_fkey")
      else none)
    .network (fun network => network.name ++ ": " ++ toString network.id)
    (fun id now network => { network with id, createdAt := now }) (fun ids d => d.deleteNetworks ids) not_mem_filter

def hostService : Crud BillingTables Host :=
  hostRows.crud
    (fun host d => if d.hasNetwork host.base.networkId then none else some
      (missingReference "hosts" "hosts_network_id_fkey"))
    .host (fun host => "\"" ++ host.base.name ++ "\": " ++ toString host.id)
    (fun id now host => { host with id, createdAt := now, updatedAt := now })
    (fun ids d => d.deleteHosts ids) not_mem_filter

def daemonService : Crud BillingTables Daemon :=
  daemonRows.crud
    (fun daemon d => if d.hasNetwork daemon.networkId then none else some
      (missingReference "daemons" "daemons_network_id_fkey"))
    .daemon (fun daemon => daemon.url ++ ": " ++ toString daemon.id)
    (fun id now daemon => { daemon with id, createdAt := now, updatedAt := now }) (fun ids d => d.deleteDaemons ids)
    not_mem_filter

def discoveryService : Crud BillingTables Discovery :=
  discoveryRows.crud
    (fun discovery d =>
      if !d.hasNetwork discovery.base.networkId then some (missingReference "discovery" "discovery_network_id_fkey")
      else if (d.daemons.get discovery.base.daemonId).isNone then
        some (missingReference "discovery" "discovery_daemon_id_fkey")
      else none)
    .discovery (fun discovery => "Discovery " ++ discovery.base.name ++ ": " ++ toString discovery.id)
    (fun id now discovery => { discovery with id, createdAt := now, updatedAt := now })
    (fun ids d => d.deleteDiscoveries ids)
    not_mem_filter

namespace PlanConfig

variable (config : PlanConfig)

/-- The networks there may be, if they are limited and no more can be bought. -/
def networkCap : Option Nat :=
  match config.includedNetworks, config.networkCents with
  | some limit, none => some limit
  | _, _ => none

/-- The hosts there may be, if they are limited and no more can be bought. -/
def hostCap : Option Nat :=
  match config.includedHosts, config.hostCents with
  | some limit, none => some limit
  | _, _ => none

end PlanConfig

namespace BillingService

/-- 1. The networks after the first ones are deleted; the others are what the rest is about. -/
def trimNetworks (config : PlanConfig) (networks : List Network) : Writes BillingTables (List Uuid) := do
  match config.networkCap with
  | some limit =>
    (networks.drop limit).forM fun network => networkService.deleteById network.id
    return (networks.take limit).map (·.id)
  | none => return networks.map (·.id)

/-- 2. -/
def setStandby (plan : BillingPlan) (daemons : List Daemon) : Writes BillingTables Unit :=
  if !plan.features.daemonPoll then
    daemons.forM fun daemon => do
      if daemon.mode == .daemonPoll && !daemon.standby then
        let _ ← daemonService.save { daemon with standby := true } none none
  else
    daemons.forM fun daemon => do
      if daemon.standby then
        let _ ← daemonService.save { daemon with standby := false } none none

/-- A scheduled discovery is made ad hoc. -/
def convert (discovery : Discovery) : Writes BillingTables Unit := do
  match discovery.base.runType with
  | .scheduled _ lastRun _ =>
    let _ ← discoveryService.save { discovery with base.runType := .adHoc lastRun } (some discovery.base.tags) none
  | _ => return ()

/-- 3. -/
def unschedule (plan : BillingPlan) (networkIds : List Uuid) : Writes BillingTables Unit := do
  if !plan.scheduledDiscovery then
    let discoveries ← discoveryService.getAll fun d => d.discoveriesOn networkIds
    discoveries.forM convert

/-- The hosts to delete, `kept` of those without a daemon being kept so far. -/
def toDelete (included : Nat) (daemonHostIds : List Uuid) (kept : Nat) : List Host → List Uuid
  | [] => []
  | host :: hosts =>
    let isDaemonHost := daemonHostIds.contains host.id
    if kept < included || isDaemonHost then
      toDelete included daemonHostIds (if !isDaemonHost then kept + 1 else kept) hosts
    else host.id :: toDelete included daemonHostIds kept hosts

/-- Latest change first. -/
def byUpdate (hosts : List Host) : List Host := hosts.insertionSort fun a b => b.updatedAt ≤ a.updatedAt

/-- 4. -/
def trimHosts (config : PlanConfig) (networkIds daemonHostIds : List Uuid) : Writes BillingTables Unit := do
  match config.hostCap with
  | some included =>
    let hosts ← hostService.getAll fun d => d.hostsOn networkIds
    if hosts.length > included then
      (toDelete included daemonHostIds 0 (byUpdate hosts)).forM hostService.deleteById
  | none => return ()

def enforcePlanRestrictions (organizationId : Uuid) (plan : BillingPlan) (config : PlanConfig) :
    Writes BillingTables Unit := do
  let networks ← networkService.getAll fun d => d.networksOf organizationId
  let networkIds ← trimNetworks config networks
  let daemons ← daemonService.getAll fun d => d.daemonsOn networkIds
  let daemonHostIds := daemons.map (·.hostId)
  setStandby plan daemons
  unschedule plan networkIds
  trimHosts config networkIds daemonHostIds

end BillingService

end Netvisor
