/-
The database, one table for each kind of entity, and the generic storage over
it: `create`, `update`, `delete`, and the queries.

A statement that breaks a constraint fails and changes nothing; the statements
before it stay, since no transaction is around them. Rows of `services` hold no
bindings, these are in their own table.
-/
import Netvisor.Entities
import Netvisor.Lib.Program
import Netvisor.Lib.Table

namespace Netvisor

/-- The unique constraints of the tables. -/
inductive Constraint
  | hostsPkey
  | subnetsPkey
  | interfacesPkey
  | interfacesHostSubnetIp
  | portsPkey
  | portsHostNumberProtocol
  | servicesPkey
  | bindingsPkey
  | ifEntriesPkey
  | ifEntriesHostIndex
deriving DecidableEq, Repr

def Constraint.name : Constraint → String
  | hostsPkey => "hosts_pkey"
  | subnetsPkey => "subnets_pkey"
  | interfacesPkey => "interfaces_pkey"
  | interfacesHostSubnetIp => "interfaces_host_id_subnet_id_ip_address_key"
  | portsPkey => "ports_pkey"
  | portsHostNumberProtocol => "ports_host_id_port_number_protocol_key"
  | servicesPkey => "services_pkey"
  | bindingsPkey => "bindings_pkey"
  | ifEntriesPkey => "if_entries_pkey"
  | ifEntriesHostIndex => "if_entries_host_id_if_index_key"

def Constraint.friendlyMessage (c : Constraint) : String :=
  match c with
  | portsPkey | portsHostNumberProtocol => "A port with this number and protocol already exists on this host"
  | interfacesPkey | interfacesHostSubnetIp => "An interface with this IP address already exists on this host"
  | _ => "A record with these values already exists (" ++ c.name ++ ")"

/-- What the database says, which an `UPDATE` does not rephrase. -/
def Constraint.databaseMessage (c : Constraint) : String :=
  "error returned from database: duplicate key value violates unique constraint \"" ++ c.name ++ "\""

inductive Error
  /-- `ValidationError`, answered with 400. -/
  | validation (message : String)
  /-- 409. -/
  | conflict (message : String)
  /-- 403. -/
  | forbidden (message : String)
  | accessDenied (networkId : Uuid)
  /-- 404. -/
  | notFound (entity : String) (id : Uuid)
  | bulkEmpty
  /-- A reference to a row that does not exist. -/
  | foreignKey (table : String)
  /-- Any other error, answered with 500. -/
  | internal (message : String)
deriving DecidableEq, Repr

def Error.text : Error → String
  | .validation message | .conflict message | .forbidden message | .internal message => message
  | .accessDenied _ => "You don't have access to this Network"
  | .notFound entity id => entity ++ " with ID '" ++ toString id ++ "' not found"
  | .bulkEmpty => "No IDs provided for bulk operation"
  | .foreignKey table => "insert or update on table '" ++ table ++ "' violates foreign key constraint"

structure Db where
  networks : List Uuid := []
  snmpCredentials : List Uuid := []
  hosts : Table Host Host.id := {}
  subnets : Table Subnet Subnet.id := {}
  interfaces : Table Interface Interface.id := {}
  ports : Table Port Port.id := {}
  services : Table Service Service.id := {}
  bindings : Table Binding Binding.id := {}
  ifEntries : Table IfEntry IfEntry.id := {}
  now : DateTime := 0
  /-- The ids `Uuid::new_v4` gives next. -/
  drawn : List Uuid := []

abbrev Store := EStateM Error Db

/-- `Uuid::new_v4`. -/
def newV4 : Store Uuid := do
  let db ← get
  set { db with drawn := db.drawn.tail }
  return db.drawn.headD Uuid.nil

/-- Fail with what a check found wrong. -/
def validate (message : Option String) : Store Unit :=
  match message with
  | some message => throw (.validation message)
  | none => return ()

/-- An entity with a table of its own. -/
class Storable (α : Type) where
  tableName : String
  id : α → Uuid
  createdAt : α → DateTime
  /-- The columns of the table. -/
  row : α → α
  /-- The entity as `T::new` makes it of a base. -/
  stamp : Uuid → DateTime → α → α
  table : Db → Table α id
  setTable : Table α id → Db → Db
  primaryKey : Constraint
  /-- The other unique constraint, and the rows it rules out. -/
  unique : Option (Constraint × (α → α → Bool))
  /-- The rows the entity refers to exist. -/
  references : Db → α → Bool

namespace Storable

variable {α : Type} [Storable α]

/-- The constraint the entity would break next to the rows with other ids. -/
def broken (db : Db) (entity : α) : Option Constraint :=
  match unique (α := α) with
  | some (c, clash) =>
    if (table db).rows.any fun x => id x != id entity && clash x entity then some c else none
  | none => none

/-- `INSERT`. -/
def create (entity : α) : Store α := do
  let db ← get
  match (table db).insert (row entity), broken db entity with
  | none, _ => throw (.validation (primaryKey (α := α)).friendlyMessage)
  | some _, some c => throw (.validation c.friendlyMessage)
  | some t, none =>
    if references db entity then
      set (setTable t db)
      return entity
    else throw (.foreignKey (tableName (α := α)))

/-- `UPDATE`, which is no error if the row is missing. -/
def update (entity : α) : Store α := do
  let db ← get
  if ((table (α := α) db).get (id entity)).isNone then return entity
  else
    match broken db entity with
    | some c => throw (.internal c.databaseMessage)
    | none =>
      if references db entity then
        set (setTable ((table db).update (row entity)) db)
        return entity
      else throw (.foreignKey (tableName (α := α)))

def getById (i : Uuid) : Store (Option α) := do
  let db ← get
  return (table (α := α) db).get i

/-- `SELECT … ORDER BY created_at ASC`. -/
def getAll (p : α → Bool) : Store (List α) := do
  let db ← get
  return (table (α := α) db).select p createdAt

/-- `T::new`. -/
def new (entity : α) : Store α := do
  let id ← newV4
  let now := (← get).now
  return stamp id now entity

/-- A nil id stands for a new one. -/
def orNew (entity : α) : Store α := if id entity == Uuid.nil then new entity else pure entity

end Storable

/-! ## What the services of all entities have -/

namespace CrudService

variable {α : Type} [Storable α]

def create (entity : α) : Store α := do
  let entity ← Storable.orNew entity
  Storable.create entity

/-- Updating needs the row, which `display` describes where it is missing. -/
def update (display : α → String) (entity : α) : Store α := do
  match ← Storable.getById (α := α) (Storable.id entity) with
  | none => throw (.internal ("Could not find " ++ display entity))
  | some _ => Storable.update entity

end CrudService

/-! ## The tables -/

namespace Db

variable (db : Db)

def hasNetwork (id : Uuid) : Bool := db.networks.contains id

def hasHost (id : Uuid) : Bool := (db.hosts.get id).isSome

def hasInterface (id : Uuid) : Bool := (db.interfaces.get id).isSome

def hasPort (id : Uuid) : Bool := (db.ports.get id).isSome

def hasService (id : Uuid) : Bool := (db.services.get id).isSome

end Db

instance : Storable Host where
  tableName := "hosts"
  id := Host.id
  createdAt := Host.createdAt
  row := id
  stamp id now x := { x with id, createdAt := now, updatedAt := now }
  table := Db.hosts
  setTable hosts db := { db with hosts }
  primaryKey := .hostsPkey
  unique := none
  references db host :=
    db.hasNetwork host.base.networkId && host.base.snmpCredentialId.all db.snmpCredentials.contains

instance : Storable Subnet where
  tableName := "subnets"
  id := Subnet.id
  createdAt := Subnet.createdAt
  row := id
  stamp id now x := { x with id, createdAt := now, updatedAt := now }
  table := Db.subnets
  setTable subnets db := { db with subnets }
  primaryKey := .subnetsPkey
  unique := none
  references db subnet := db.hasNetwork subnet.base.networkId

instance : Storable Interface where
  tableName := "interfaces"
  id := Interface.id
  createdAt := Interface.createdAt
  row := id
  stamp id now x := { x with id, createdAt := now, updatedAt := now }
  table := Db.interfaces
  setTable interfaces db := { db with interfaces }
  primaryKey := .interfacesPkey
  unique := some (.interfacesHostSubnetIp, fun i other =>
    i.base.hostId == other.base.hostId && i.base.subnetId == other.base.subnetId
      && i.base.ipAddress == other.base.ipAddress)
  references db i :=
    db.hasNetwork i.base.networkId && db.hasHost i.base.hostId && (db.subnets.get i.base.subnetId).isSome

instance : Storable Port where
  tableName := "ports"
  id := Port.id
  createdAt := Port.createdAt
  row := id
  stamp id now x := { x with id, createdAt := now, updatedAt := now }
  table := Db.ports
  setTable ports db := { db with ports }
  primaryKey := .portsPkey
  unique := some (.portsHostNumberProtocol, fun p other => p.base.hostId == other.base.hostId && p.eq other)
  references db p := db.hasNetwork p.base.networkId && db.hasHost p.base.hostId

instance : Storable Service where
  tableName := "services"
  id := Service.id
  createdAt := Service.createdAt
  row s := { s with base.bindings := [] }
  stamp id now s := { s with id, createdAt := now, updatedAt := now }
  table := Db.services
  setTable services db := { db with services }
  primaryKey := .servicesPkey
  unique := none
  references db s := db.hasNetwork s.base.networkId && db.hasHost s.base.hostId

instance : Storable Binding where
  tableName := "bindings"
  id := Binding.id
  createdAt := Binding.createdAt
  row := id
  stamp id now x := { x with id, createdAt := now, updatedAt := now }
  table := Db.bindings
  setTable bindings db := { db with bindings }
  primaryKey := .bindingsPkey
  unique := none
  references db b :=
    db.hasNetwork b.base.networkId && db.hasService b.base.serviceId && b.portId.all db.hasPort
      && b.interfaceId.all db.hasInterface

instance : Storable IfEntry where
  tableName := "if_entries"
  id := IfEntry.id
  createdAt := IfEntry.createdAt
  row := id
  stamp id now x := { x with id, createdAt := now, updatedAt := now }
  table := Db.ifEntries
  setTable ifEntries db := { db with ifEntries }
  primaryKey := .ifEntriesPkey
  unique := some (.ifEntriesHostIndex, fun e other =>
    e.base.hostId == other.base.hostId && e.base.ifIndex == other.base.ifIndex)
  references db e :=
    db.hasNetwork e.base.networkId && db.hasHost e.base.hostId && e.base.interfaceId.all db.hasInterface
      && e.base.neighbor.all fun
        | .ifEntry id => (db.ifEntries.get id).isSome
        | .host id => db.hasHost id

namespace Db

variable (db : Db)

/-- The bindings of a service. -/
def bindingsOf (serviceId : Uuid) : List Binding :=
  db.bindings.select (fun b => b.base.serviceId == serviceId) Binding.createdAt

/-- A row of `services` with its bindings. -/
def hydrate (s : Service) : Service := { s with base.bindings := db.bindingsOf s.id }

/-- The services of a host, oldest first. -/
def servicesOf (hostId : Uuid) : List Service :=
  (db.services.select (fun s => s.base.hostId == hostId) Service.createdAt).map db.hydrate

/-- The services of a host by position, without their bindings. -/
def servicesByPosition (hostId : Uuid) : List Service :=
  db.services.select (fun s => s.base.hostId == hostId) (·.base.position)

/-- The interfaces of a host, by position. -/
def interfacesOf (hostId : Uuid) : List Interface :=
  db.interfaces.select (fun i => i.base.hostId == hostId) (·.base.position)

def portsOf (hostId : Uuid) : List Port := db.ports.select (fun p => p.base.hostId == hostId) Port.createdAt

/-- The interface table entries of a host, by index. -/
def ifEntriesOf (hostId : Uuid) : List IfEntry :=
  db.ifEntries.select (fun e => e.base.hostId == hostId) (·.base.ifIndex.toInt)

/-- `DELETE` from `bindings`. -/
def deleteBindings (ids : List Uuid) : Db :=
  { db with bindings := db.bindings.filter fun b => !ids.contains b.id }

/-- `DELETE` from `services`, which takes the bindings along. -/
def deleteService (id : Uuid) : Db :=
  { db with
    services := db.services.filter fun s => s.id != id
    bindings := db.bindings.filter fun b => b.base.serviceId != id }

/-- `DELETE` from `hosts`: the children go along, with what is bound to them,
and what else refers to them refers to nothing. -/
def deleteHost (id : Uuid) : Db :=
  let interfaces := db.interfaces.filter fun i => i.base.hostId != id
  let ports := db.ports.filter fun p => p.base.hostId != id
  let services := db.services.filter fun s => s.base.hostId != id
  let ifEntries := db.ifEntries.filter fun e => e.base.hostId != id
  { db with
    hosts := db.hosts.filter fun h => h.id != id
    interfaces, ports, services
    bindings := db.bindings.filter fun b =>
      (services.get b.base.serviceId).isSome && b.portId.all (fun p => (ports.get p).isSome)
        && b.interfaceId.all fun i => (interfaces.get i).isSome
    ifEntries := ifEntries.modify (fun e =>
      { e with
        base.interfaceId := e.base.interfaceId.filter fun i => (interfaces.get i).isSome
        base.neighbor := e.base.neighbor.filter fun
          | .ifEntry i => (ifEntries.get i).isSome
          | .host h => h != id }) fun _ => rfl }

end Db

end Netvisor
