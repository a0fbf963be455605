/-
`DaemonService`: processing what a daemon discovered and reports.

In DaemonPoll mode the daemon sends every host, subnet and session update to an
endpoint of its own. In ServerPoll mode the server asks for them, and one
answer holds the latest update and everything that is pending.
-/
import Netvisor.Daemon.BufferPolling
import Netvisor.Hosts.Resolution
import Netvisor.Subnets.Service

namespace Netvisor

/-- What the clock and `Uuid::new_v4` give while one message is processed.
`saved` is the id of the row of a session it ends, unless the storage fails. -/
structure Supply where
  now : DateTime := 0
  drawn : List Uuid := []
  saved : Option Uuid := none
deriving DecidableEq, Repr

/-- The database without what is left of a supply. -/
def Db.stored (db : Db) : Db := { db with now := 0, drawn := [] }

/-- Run `p` with the supply, which is gone afterwards. -/
def Supply.run {α : Type} (supply : Supply) (p : Store α) : Store α := fun db =>
  match p { db with now := supply.now, drawn := supply.drawn } with
  | .ok a t => .ok a t.stored
  | .error e t => .error e t.stored

/-- The tables, and the discovery sessions in memory. -/
structure Server where
  db : Db := {}
  discovery : DiscoveryService := {}

/-- What a daemon has to tell. -/
inductive Message
  | host (request : DiscoveryHostRequest)
  | subnet (subnet : Subnet)
  | update (update : DiscoveryUpdatePayload)

/-- Hosts and subnets, each with the supply it is processed with. -/
structure SuppliedEntities where
  hosts : List (Supply × DiscoveryHostRequest) := []
  subnets : List (Supply × Subnet) := []

def SuppliedEntities.isEmpty (entities : SuppliedEntities) : Bool :=
  entities.hosts.isEmpty && entities.subnets.isEmpty

/-- The answer to a poll. -/
structure PollResponse where
  progress : Option (Supply × DiscoveryUpdatePayload) := none
  entities : SuppliedEntities := {}

namespace DaemonService

open BufferPolling (CreatedEntitiesPayload)

/-! ## Processing -/

/-- Process one entity after the other: those that fail are skipped. -/
def processEach {α β : Type} (pendingId : α → Uuid) (create : α → Store β) (entities : List (Supply × α)) :
    Store (List (Uuid × β)) := do
  let outcomes ← entities.mapM fun entity => do
    match ← Program.attempt (entity.1.run (create entity.2)) with
    | .ok actual => return some (pendingId entity.2, actual)
    | .error _ => return none
  return outcomes.reduceOption

def processDiscoveryEntities (hostLimit : Option Nat) (entities : SuppliedEntities) :
    Store CreatedEntitiesPayload := do
  let createdHosts ← processEach (fun request => request.host.id) (HostService.discoverHost hostLimit) entities.hosts
  let createdSubnets ← processEach Subnet.id SubnetService.create entities.subnets
  return { subnets := createdSubnets, hosts := createdHosts }

variable (parseMac : String → Option MacAddress) (registry : Registry) (daemon : Daemon)

/-- `update_session`. The event of a terminal update reaches the hosts before
the queue moves on; the next session is announced as pending, which they do not
listen to. -/
def processDiscoveryProgress (supply : Supply) (update : DiscoveryUpdatePayload) (s : Server) : Server :=
  match s.discovery.updateSession update supply.now with
  | (discovery, none) => { s with discovery }
  | (discovery, some finishing) =>
    { db := Program.after (HostService.onPublished parseMac registry finishing.session) s.db
      discovery := discovery.finishUpdate finishing supply.now supply.saved }

/-! ## DaemonPoll mode -/

def createHostDiscovery (supply : Supply) (request : DiscoveryHostRequest) : Store HostResponse := do
  if request.host.base.networkId != daemon.networkId then
    throw (.forbidden "Daemon cannot create hosts on networks it's not assigned to")
  else
    let created ← processDiscoveryEntities none { hosts := [(supply, request)] }
    match created.hosts with
    | (_, hostResponse) :: _ => return hostResponse
    | [] => throw (.internal "No host returned from processor")

def createSubnet (supply : Supply) (subnet : Subnet) : Store Subnet := do
  if !subnet.isValid then throw (.validation "Subnet validation failed")
  else if daemon.networkId == subnet.base.networkId then supply.run (SubnetService.create subnet)
  else throw (.validation "Subnet is on a different network")

def receiveDiscoveryUpdate (supply : Supply) (update : DiscoveryUpdatePayload) (s : Server) : Except Error Server :=
  if update.networkId != daemon.networkId then .error (.forbidden "Cannot send updates for a different network")
  else if update.daemonId != daemon.id then .error (.forbidden "Cannot send updates for a different daemon")
  else .ok (processDiscoveryProgress parseMac registry supply update s)

/-- What a message to its endpoint leaves. -/
def receive (s : Server) : Supply × Message → Server
  | (supply, .host request) => { s with db := Program.after (createHostDiscovery daemon supply request) s.db }
  | (supply, .subnet subnet) => { s with db := Program.after (createSubnet daemon supply subnet) s.db }
  | (supply, .update update) =>
    match receiveDiscoveryUpdate parseMac registry daemon supply update s with
    | .ok t => t
    | .error _ => s

/-! ## ServerPoll mode -/

/-- The update in the answer to a poll, if there is one. -/
def processProgress (progress : Option (Supply × DiscoveryUpdatePayload)) (s : Server) : Server :=
  match progress with
  | some (supply, update) => processDiscoveryProgress parseMac registry supply update s
  | none => s

/-- The part of `poll_daemon` that processes the answer. -/
def processPollResponse (response : PollResponse) (s : Server) : Server :=
  let s := processProgress parseMac registry response.progress s
  if response.entities.isEmpty then s
  else { s with db := Program.after (processDiscoveryEntities none response.entities) s.db }

def hostsOf (messages : List (Supply × Message)) : List (Supply × DiscoveryHostRequest) :=
  messages.filterMap fun
    | (supply, .host request) => some (supply, request)
    | _ => none

def subnetsOf (messages : List (Supply × Message)) : List (Supply × Subnet) :=
  messages.filterMap fun
    | (supply, .subnet subnet) => some (supply, subnet)
    | _ => none

def updatesOf (messages : List (Supply × Message)) : List (Supply × DiscoveryUpdatePayload) :=
  messages.filterMap fun
    | (supply, .update update) => some (supply, update)
    | _ => none

/-- The answer to a poll that comes when these messages are due. -/
def response (messages : List (Supply × Message)) : PollResponse where
  progress := (updatesOf messages).getLast?
  entities := { hosts := hostsOf messages, subnets := subnetsOf messages }

end DaemonService

end Netvisor
