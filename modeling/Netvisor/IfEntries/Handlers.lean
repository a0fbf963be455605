/-
The endpoints of interface table entries, and what they check of the references
of an entry: its interface is one of its host, and its neighbor is another
device of the network.

The checks are made of the entry as it was sent. An update gives it the id of
the path afterwards, and the MAC address of the stored entry, if that has one.
-/
import Netvisor.Bindings.Handlers
import Netvisor.Hosts.Service

namespace Netvisor

/-- What `Display` says of a `ValidationError` that is only a code. -/
def validationErrorText (code : String) : String := "Validation error: " ++ code ++ " [\x7b\x7d]"

namespace IfEntryService

variable (db : Db) (entry : IfEntry)

def validateInterfaceId : Except String Unit :=
  match entry.base.interfaceId with
  | none => .ok ()
  | some interfaceId =>
    match db.interfaces.get interfaceId with
    | none => .error "interface_id references a non-existent Interface"
    | some interface =>
      if interface.base.hostId != entry.base.hostId then
        .error "interface_id must reference an Interface on the same host"
      else
        match entry.base.macAddress, interface.base.macAddress with
        | some ifEntryMac, some interfaceMac =>
          if ifEntryMac != interfaceMac then
            .error "interface_id references an Interface with a different MAC address"
          else .ok ()
        | _, _ => .ok ()

def validateNeighborEntry : Except String Unit :=
  match entry.base.neighbor with
  | some (.ifEntry neighborId) =>
    if neighborId == entry.id then .error "IfEntry cannot connect to itself"
    else
      match db.ifEntries.get neighborId with
      | none => .error "neighbor IfEntry references a non-existent IfEntry"
      | some neighborEntry =>
        if neighborEntry.base.hostId == entry.base.hostId then
          .error "neighbor IfEntry must be on a different host"
        else if neighborEntry.base.networkId != entry.base.networkId then
          .error "neighbor IfEntry must be in the same network"
        else .ok ()
  | some (.host _) | none => .ok ()

def validateRelationships : Except String Unit := do
  validateInterfaceId db entry
  validateNeighborEntry db entry

end IfEntryService

namespace IfEntryHandlers

section Checks

variable (db : Db) (entry : IfEntry)

/-- The host of the entry is on its network; that there is one is left to the database. -/
def validateIfEntryNetworkConsistency : Except String Unit :=
  match db.hosts.get entry.base.hostId with
  | some host =>
    if host.base.networkId != entry.base.networkId then .error "Host is on a different network" else .ok ()
  | none => .ok ()

def validateNeighborHost : Except String Unit :=
  match entry.base.neighbor with
  | some (.host neighborHostId) =>
    if neighborHostId == entry.base.hostId then .error "IfEntry cannot have a neighbor pointing to its own host"
    else
      match db.hosts.get neighborHostId with
      | none => .error "neighbor references a non-existent host"
      | some neighborHost =>
        if neighborHost.base.networkId != entry.base.networkId then .error "neighbor host must be in the same network"
        else .ok ()
  | some (.ifEntry _) | none => .ok ()

def validateIfEntry : Except String Unit := do
  validateIfEntryNetworkConsistency db entry
  (IfEntryService.validateRelationships db entry).mapError validationErrorText
  validateNeighborHost db entry

end Checks

/-- `CrudHandlers::validate`. -/
def validateEntity (entry : IfEntry) : Option String :=
  if entry.base.ifDescr.isEmpty then
    some "if_entries validation failed: base.if_descr: Interface description is required"
  else none

def check (result : Except String Unit) : Store Unit :=
  match result with
  | .error message => throw (.validation message)
  | .ok () => return ()

/-- What an update leaves as it is: the MAC address, once it is set. -/
def preserveImmutableFields (entry existing : IfEntry) : IfEntry :=
  { entry with
    id := existing.id
    createdAt := existing.createdAt
    base.macAddress := existing.base.macAddress <|> entry.base.macAddress }

open BindingHandlers (validateNetworkAccess)

def createIfEntry (networkIds : List Uuid) (entry : IfEntry) : Store IfEntry := do
  check (validateIfEntry (← get) entry)
  validate (validateEntity entry)
  validateNetworkAccess entry.base.networkId networkIds
  CrudService.create entry

def updateIfEntry (networkIds : List Uuid) (id : Uuid) (entry : IfEntry) : Store IfEntry := do
  check (validateIfEntry (← get) entry)
  match ← Storable.getById (α := IfEntry) id with
  | none => throw (.notFound "ifTable Entry" id)
  | some existing =>
    let entry := preserveImmutableFields entry existing
    validate (validateEntity entry)
    validateNetworkAccess existing.base.networkId networkIds
    validateNetworkAccess entry.base.networkId networkIds
    CrudService.update IfEntry.display entry

end IfEntryHandlers

end Netvisor
