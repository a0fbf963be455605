/-
The tables behind a discovery: the hosts of a network, its organization and
users, its daemons, and the SNMP credentials the scan is given.
-/
import Netvisor.Auth.Accounts
import Netvisor.Daemons.Subscriber
import Netvisor.Storage

namespace Netvisor

/-! ## SNMP credentials -/

structure SnmpCredential where
  id : Uuid := Uuid.nil
  organizationId : Uuid := Uuid.nil
  name : String := ""
  version : SnmpVersion := .v2c
  /-- The secret, which the responses of its own endpoints redact. -/
  community : String := ""
deriving DecidableEq, Repr

/-- `SnmpQueryCredential::from`. -/
def SnmpCredential.query (credential : SnmpCredential) : SnmpQueryCredential where
  version := credential.version
  community := credential.community

/-- What stands for a community in a sanitized credential. -/
def redacted : String := "********"

def SnmpQueryCredential.sanitized (credential : SnmpQueryCredential) : SnmpQueryCredential where
  version := credential.version
  community := redacted

namespace SnmpCredentialMapping

/-- There is a default or an override. -/
def isEnabled (mapping : SnmpCredentialMapping) : Bool :=
  mapping.defaultCredential.isSome || !mapping.ipOverrides.isEmpty

def sanitized (mapping : SnmpCredentialMapping) : SnmpCredentialMapping where
  defaultCredential := mapping.defaultCredential.map SnmpQueryCredential.sanitized
  ipOverrides := mapping.ipOverrides.map fun o => { ip := o.ip, credential := o.credential.sanitized }

end SnmpCredentialMapping

def DiscoveryType.sanitized : DiscoveryType → DiscoveryType
  | network subnetIds hostNamingFallback snmpCredentials probeRawSocketPorts =>
    network subnetIds hostNamingFallback snmpCredentials.sanitized probeRawSocketPorts
  | other => other

/-! ## Tables -/

/-- The networks and SNMP credentials that `db` refers to are those of the
tables beside it. -/
structure Tables where
  db : Db := {}
  accounts : Accounts := {}
  daemons : Table Daemon Daemon.id := {}
  snmpCredentials : Table SnmpCredential SnmpCredential.id := {}

namespace Tables

variable (tables : Tables)

/-- `db` with the networks and SNMP credentials there are. -/
def referred : Db :=
  { tables.db with
    networks := tables.accounts.networks.rows.map Network.id
    snmpCredentials := tables.snmpCredentials.rows.map SnmpCredential.id }

/-- The tables after a program left `db`. -/
def left (db : Db) : Tables :=
  { tables with
    db := { db with networks := tables.db.networks, snmpCredentials := tables.db.snmpCredentials } }

/-- The credential of the network, if it has one. -/
def networkCredential (networkId : Uuid) : Option SnmpQueryCredential :=
  ((tables.accounts.networks.get networkId).bind (·.snmpCredentialId)).bind fun id =>
    (tables.snmpCredentials.get id).map SnmpCredential.query

/-- The credential of a host, for each address the host has on the network. -/
def hostOverrides (networkId : Uuid) (host : Host) : List SnmpIpOverride :=
  match host.base.snmpCredentialId.bind tables.snmpCredentials.get with
  | some credential =>
    ((tables.db.interfaces.select (fun i => i.base.networkId == networkId) Interface.createdAt).filter
      fun i => i.base.hostId == host.id).map fun i => { ip := i.base.ipAddress, credential := credential.query }
  | none => []

def buildCredentialsForDiscovery (networkId : Uuid) : SnmpCredentialMapping where
  defaultCredential := tables.networkCredential networkId
  ipOverrides :=
    (tables.db.hosts.select (fun h => h.base.networkId == networkId) Host.createdAt).flatMap
      (tables.hostOverrides networkId)

end Tables

end Netvisor
