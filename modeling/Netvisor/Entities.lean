/-
The entities of the server: hosts with their interfaces, ports, services and
interface table entries, bindings, and subnets, with the notions of equality
the server compares them by. `=` on these types is structural; the
`PartialEq` of the source is `eq`.
-/
import Mathlib.Algebra.GroupWithZero.Nat
import Mathlib.Data.List.Basic

namespace Netvisor

def Uuid := BitVec 128
deriving DecidableEq, Repr

instance (n : Nat) : OfNat Uuid n := ⟨BitVec.ofNat 128 n⟩

/-- The hyphenated form, in groups of 8, 4, 4, 4 and 12 digits. -/
instance : ToString Uuid where
  toString id :=
    let hex := (List.range 32).map fun i => Nat.digitChar (BitVec.toNat id / 16 ^ (31 - i) % 16)
    let group (start len : Nat) := String.ofList ((hex.drop start).take len)
    "-".intercalate [group 0 8, group 8 4, group 12 4, group 16 4, group 20 12]

def Uuid.nil : Uuid := 0

/-- A UTC time stamp, in nanoseconds. -/
abbrev DateTime := Int

inductive IpAddr
  | v4 (addr : BitVec 32)
  | v6 (addr : BitVec 128)
deriving DecidableEq, Repr

abbrev MacAddress := BitVec 48

/-! ## Where an entity comes from -/

inductive SnmpVersion
  | v2c
  | v3
deriving DecidableEq, Repr

structure SnmpQueryCredential where
  version : SnmpVersion
  community : String
deriving DecidableEq, Repr

structure SnmpIpOverride where
  ip : IpAddr
  credential : SnmpQueryCredential
deriving DecidableEq, Repr

structure SnmpCredentialMapping where
  defaultCredential : Option SnmpQueryCredential := none
  ipOverrides : List SnmpIpOverride := []
deriving DecidableEq, Repr

inductive HostNamingFallback
  | ip
  | bestService
deriving DecidableEq, Repr

inductive DiscoveryType
  | selfReport (hostId : Uuid)
  | network (subnetIds : Option (List Uuid)) (hostNamingFallback : HostNamingFallback)
      (snmpCredentials : SnmpCredentialMapping) (probeRawSocketPorts : Bool)
  | docker (hostId : Uuid) (hostNamingFallback : HostNamingFallback)
deriving DecidableEq, Repr

/-- The credentials a scan is given. -/
def DiscoveryType.snmpCredentials : DiscoveryType → Option SnmpCredentialMapping
  | network _ _ snmpCredentials _ => some snmpCredentials
  | _ => none

inductive MatchReason
  | reason (text : String)
  | container (text : String) (reasons : List MatchReason)
deriving Repr

mutual
def MatchReason.decideEq : (r r' : MatchReason) → Decidable (r = r')
  | .reason s, .reason s' => decidable_of_iff (s = s') (by simp)
  | .container s rs, .container s' rs' =>
    match decEq s s', MatchReason.decideEqs rs rs' with
    | .isTrue h, .isTrue h' => .isTrue (by rw [h, h'])
    | .isFalse h, _ => .isFalse (by simp [h])
    | _, .isFalse h => .isFalse (by simp [h])
  | .reason _, .container _ _ => .isFalse (by simp)
  | .container _ _, .reason _ => .isFalse (by simp)

def MatchReason.decideEqs : (rs rs' : List MatchReason) → Decidable (rs = rs')
  | [], [] => .isTrue rfl
  | r :: rs, r' :: rs' =>
    match MatchReason.decideEq r r', MatchReason.decideEqs rs rs' with
    | .isTrue h, .isTrue h' => .isTrue (by rw [h, h'])
    | .isFalse h, _ => .isFalse (by simp [h])
    | _, .isFalse h => .isFalse (by simp [h])
  | [], _ :: _ => .isFalse (by simp)
  | _ :: _, [] => .isFalse (by simp)
end

instance : DecidableEq MatchReason := MatchReason.decideEq

inductive MatchConfidence
  | notApplicable
  | low
  | medium
  | high
  | certain
deriving DecidableEq, Repr

def MatchConfidence.rank : MatchConfidence → Nat
  | notApplicable => 0
  | low => 1
  | medium => 2
  | high => 3
  | certain => 4

structure MatchDetails where
  reason : MatchReason
  confidence : MatchConfidence
deriving DecidableEq, Repr

structure DiscoveryMetadata where
  discoveryType : DiscoveryType
  daemonId : Uuid
  date : DateTime
deriving DecidableEq, Repr

inductive EntitySource
  | manual
  | system
  | discovery (metadata : List DiscoveryMetadata)
  | discoveryWithMatch (metadata : List DiscoveryMetadata) (details : MatchDetails)
  | unknown
deriving DecidableEq, Repr

def maxDiscoveryMetadataEntries : Nat := 10

namespace EntitySource

def isFromDiscovery : EntitySource → Bool
  | discovery _ => true
  | discoveryWithMatch _ _ => true
  | _ => false

/-- New entries are prepended, so this keeps the newest. -/
def capMetadata : EntitySource → EntitySource
  | discovery metadata => discovery (metadata.take maxDiscoveryMetadataEntries)
  | discoveryWithMatch metadata details => discoveryWithMatch (metadata.take maxDiscoveryMetadataEntries) details
  | source => source

end EntitySource

/-! ## Hosts, interfaces and ports -/

structure HostVirtualization where
  vmName : Option String
  vmId : Option String
  serviceId : Uuid
deriving DecidableEq, Repr

structure HostBase where
  name : String := ""
  networkId : Uuid := Uuid.nil
  hostname : Option String := none
  description : Option String := none
  source : EntitySource := .unknown
  virtualization : Option HostVirtualization := none
  hidden : Bool := false
  tags : List Uuid := []
  sysDescr : Option String := none
  sysObjectId : Option String := none
  sysLocation : Option String := none
  sysContact : Option String := none
  managementUrl : Option String := none
  chassisId : Option String := none
  snmpCredentialId : Option Uuid := none
deriving DecidableEq, Repr

structure Host where
  id : Uuid := Uuid.nil
  createdAt : DateTime := 0
  updatedAt : DateTime := 0
  base : HostBase := {}
deriving DecidableEq, Repr

def Host.eq (h other : Host) : Bool := h.id == other.id

structure InterfaceBase where
  networkId : Uuid := Uuid.nil
  hostId : Uuid := Uuid.nil
  subnetId : Uuid := Uuid.nil
  ipAddress : IpAddr := .v4 0
  macAddress : Option MacAddress := none
  name : Option String := none
  position : Int := 0
deriving DecidableEq, Repr

structure Interface where
  id : Uuid := Uuid.nil
  createdAt : DateTime := 0
  updatedAt : DateTime := 0
  base : InterfaceBase := {}
deriving DecidableEq, Repr

def Interface.eq (i other : Interface) : Bool :=
  (i.base.ipAddress == other.base.ipAddress && i.base.subnetId == other.base.subnetId)
    || (i.base.macAddress == other.base.macAddress
        && i.base.macAddress.isSome && other.base.macAddress.isSome)
    || i.id == other.id

inductive TransportProtocol
  | udp
  | tcp
deriving DecidableEq, Repr

/-- What `PortType::config` reads off a port type, named or custom; port
types are compared by it. -/
structure PortConfig where
  number : BitVec 16 := 0
  protocol : TransportProtocol := .udp
deriving DecidableEq, Repr

structure PortBase where
  hostId : Uuid := Uuid.nil
  networkId : Uuid := Uuid.nil
  portType : PortConfig := {}
deriving DecidableEq, Repr

structure Port where
  id : Uuid := Uuid.nil
  createdAt : DateTime := 0
  updatedAt : DateTime := 0
  base : PortBase := {}
deriving DecidableEq, Repr

def Port.eq (p other : Port) : Bool := p.base.portType == other.base.portType

def Port.withHost (p : Port) (hostId networkId : Uuid) : Port :=
  { p with base.hostId := hostId, base.networkId := networkId }

/-- The remote end of a port of a device. -/
inductive Neighbor
  | ifEntry (id : Uuid)
  | host (id : Uuid)
deriving DecidableEq, Repr

/-- How a neighbor names itself over LLDP. -/
inductive LldpChassisId
  | chassisComponent (id : String)
  | interfaceAlias (name : String)
  | portComponent (id : String)
  | macAddress (mac : String)
  | networkAddress (ip : IpAddr)
  | interfaceName (name : String)
  | locallyAssigned (id : String)
deriving DecidableEq, Repr

/-- How a neighbor names its port over LLDP. -/
inductive LldpPortId
  | interfaceAlias (name : String)
  | portComponent (id : String)
  | macAddress (mac : String)
  | networkAddress (ip : IpAddr)
  | interfaceName (name : String)
  | agentCircuitId (id : String)
  | locallyAssigned (id : String)
deriving DecidableEq, Repr

/-- `ifAdminStatus` of the interface table. -/
inductive IfAdminStatus
  | up
  | down
  | testing
deriving DecidableEq, Repr

def IfAdminStatus.ofInt : Int → IfAdminStatus
  | 1 => .up
  | 2 => .down
  | 3 => .testing
  | _ => .up

/-- `ifOperStatus` of the interface table. -/
inductive IfOperStatus
  | up
  | down
  | testing
  | unknown
  | dormant
  | notPresent
  | lowerLayerDown
deriving DecidableEq, Repr

def IfOperStatus.ofInt : Int → IfOperStatus
  | 1 => .up
  | 2 => .down
  | 3 => .testing
  | 4 => .unknown
  | 5 => .dormant
  | 6 => .notPresent
  | 7 => .lowerLayerDown
  | _ => .unknown

structure IfEntryBase where
  hostId : Uuid := Uuid.nil
  networkId : Uuid := Uuid.nil
  ifIndex : BitVec 32 := 0
  ifDescr : String := ""
  ifAlias : Option String := none
  ifType : BitVec 32 := 1
  speedBps : Option (BitVec 64) := none
  adminStatus : IfAdminStatus := .up
  operStatus : IfOperStatus := .up
  macAddress : Option MacAddress := none
  interfaceId : Option Uuid := none
  neighbor : Option Neighbor := none
  lldpChassisId : Option LldpChassisId := none
  lldpPortId : Option LldpPortId := none
  lldpSysName : Option String := none
  lldpPortDesc : Option String := none
  lldpMgmtAddr : Option IpAddr := none
  lldpSysDesc : Option String := none
  cdpDeviceId : Option String := none
  cdpPortId : Option String := none
  cdpPlatform : Option String := none
  cdpAddress : Option IpAddr := none
deriving DecidableEq, Repr

/-- A row of a device's interface table. -/
structure IfEntry where
  id : Uuid := Uuid.nil
  createdAt : DateTime := 0
  updatedAt : DateTime := 0
  base : IfEntryBase := {}
deriving DecidableEq, Repr

/-! ## Services and their bindings -/

inductive BindingType
  /-- The service is present at the interface, on no particular port. -/
  | interface (interfaceId : Uuid)
  /-- The service listens on the port, on all interfaces if none is given. -/
  | port (portId : Uuid) (interfaceId : Option Uuid)
deriving DecidableEq, Repr

structure BindingBase where
  serviceId : Uuid := Uuid.nil
  networkId : Uuid := Uuid.nil
  bindingType : BindingType := .port Uuid.nil (some Uuid.nil)
deriving DecidableEq, Repr

structure Binding where
  id : Uuid := Uuid.nil
  createdAt : DateTime := 0
  updatedAt : DateTime := 0
  base : BindingBase := {}
deriving DecidableEq, Repr

namespace Binding

def eq (b other : Binding) : Bool := b.base.bindingType == other.base.bindingType

def interfaceId (b : Binding) : Option Uuid :=
  match b.base.bindingType with
  | .interface interfaceId => some interfaceId
  | .port _ interfaceId => interfaceId

def portId (b : Binding) : Option Uuid :=
  match b.base.bindingType with
  | .interface _ => none
  | .port portId _ => some portId

def withService (b : Binding) (serviceId networkId : Uuid) : Binding :=
  { b with base.serviceId := serviceId, base.networkId := networkId }

end Binding

/-- What the server asks of a registered service definition. -/
structure ServiceDefinition where
  id : String := ""
  isGeneric : Bool := false
  isGateway : Bool := false
  isOpenPorts : Bool := false
deriving DecidableEq, Repr

structure DockerVirtualization where
  containerName : Option String := none
  containerId : Option String := none
  serviceId : Uuid := Uuid.nil
deriving DecidableEq, Repr

structure ServiceBase where
  hostId : Uuid := Uuid.nil
  networkId : Uuid := Uuid.nil
  serviceDefinition : ServiceDefinition := {}
  name : String := ""
  bindings : List Binding := []
  virtualization : Option DockerVirtualization := none
  source : EntitySource := .unknown
  tags : List Uuid := []
  position : Int := 0
deriving DecidableEq, Repr

structure Service where
  id : Uuid := Uuid.nil
  createdAt : DateTime := 0
  updatedAt : DateTime := 0
  base : ServiceBase := {}
deriving DecidableEq, Repr

def Service.portIds (s : Service) : List Uuid := s.base.bindings.filterMap Binding.portId

/-- The same service: on one host and network with one definition, and for
generic definitions one container or a shared port. -/
def Service.eq (s other : Service) : Bool :=
  if s.id == other.id then true
  else if s.base.hostId != other.base.hostId || s.base.networkId != other.base.networkId then false
  else if s.base.serviceDefinition.id != other.base.serviceDefinition.id then false
  else if !s.base.serviceDefinition.isGeneric then true
  else if s.base.serviceDefinition.isGateway || s.base.serviceDefinition.isOpenPorts then true
  else
    let hasSharedPorts := s.portIds.any fun p => other.portIds.contains p
    match s.base.virtualization, other.base.virtualization with
    | some dv, some otherDv =>
      match dv.containerId, otherDv.containerId with
      | some cid, some otherCid => cid == otherCid
      | some _, none => false
      | none, some _ => false
      | none, none =>
        match dv.containerName, otherDv.containerName with
        | some cname, some otherCname => cname == otherCname
        | _, _ => hasSharedPorts
    | _, _ => hasSharedPorts

/-! ## Subnets -/

structure IpCidr where
  address : IpAddr
  networkLength : Nat
deriving DecidableEq, Repr

inductive SubnetType
  | internet | remote
  | gateway | vpnTunnel | dmz
  | lan | wiFi | ioT | guest
  | dockerBridge | macVlan | ipVlan | management | storage
  | unknown | none
deriving DecidableEq, Repr

structure SubnetBase where
  cidr : IpCidr
  networkId : Uuid
  name : String := ""
  description : Option String := none
  subnetType : SubnetType := .unknown
  source : EntitySource := .manual
  tags : List Uuid := []
deriving DecidableEq, Repr

structure Subnet where
  id : Uuid := Uuid.nil
  createdAt : DateTime := 0
  updatedAt : DateTime := 0
  base : SubnetBase
deriving DecidableEq, Repr

def Subnet.eq (s other : Subnet) : Bool :=
  (s.base.cidr == other.base.cidr && s.base.networkId == other.base.networkId) || s.id == other.id

end Netvisor
