/-
The discovery of containers: what the daemon makes of the containers Docker
lists and inspects, up to the hosts it sends to the server.

A container is listed and inspected by two calls, whose answers are put next to
each other by their places. A container on a bridge is processed as a host of
its own that turns out to be the daemon's host: its services get the ports it
publishes there beside those they were recognized at.

Hash maps are given as lists, in the order they are gone through.
-/
import Netvisor.Daemon.DeepScan
import Netvisor.Daemon.SelfReport
import Netvisor.Hosts.Api
import Netvisor.IfEntries.AddressTexts
import Netvisor.Lib.Assoc
import Netvisor.Services.Discovery

namespace Netvisor

def PortType.newUdp (number : BitVec 16) : PortType where
  config := { number, protocol := .udp }

/-! ## What Docker says -/

inductive PortTypeEnum
  | empty
  | tcp
  | udp
  | sctp
deriving DecidableEq, Repr

/-- A port of a container and where on the host it is published, if it is. -/
structure PortSummary where
  ip : Option String := none
  privatePort : BitVec 16
  publicPort : Option (BitVec 16) := none
  typ : Option PortTypeEnum := none
deriving DecidableEq, Repr

/-- An entry of the list of containers. -/
structure ContainerSummary where
  id : Option String := none
  ports : Option (List PortSummary) := none
deriving DecidableEq, Repr

/-- The place of a container in one of its networks. -/
structure EndpointSettings where
  ipAddress : Option String := none
  macAddress : Option String := none
deriving DecidableEq, Repr

/-- What the inspection of a container gives. -/
structure ContainerInspectResponse where
  id : Option String := none
  name : Option String := none
  /-- Of the host configuration. -/
  networkMode : Option String := none
  /-- Of the configuration: the keys of a map. -/
  exposedPorts : Option (List String) := none
  /-- Of the network settings, by the names of the networks. -/
  networks : Option (List (String × EndpointSettings)) := none
deriving DecidableEq, Repr

namespace Docker

open SelfReport (subnetFor attached)

variable (draws : Draws) (parseMac : String → Option MacAddress)

/-! ## Listing and inspecting -/

/-- Every container that has an id is inspected; the first inspection that fails is the failure of all. -/
def inspectAll {ε : Type} (inspectContainer : String → Except ε ContainerInspectResponse) :
    List ContainerSummary → Except ε (List ContainerInspectResponse)
  | [] => .ok []
  | summary :: summaries =>
    match summary.id with
    | none => inspectAll inspectContainer summaries
    | some id => do
      let container ← inspectContainer id
      let containers ← inspectAll inspectContainer summaries
      return container :: containers

/-- The inspections next to the summaries, by their places. -/
def getContainersAndSummaries {ε : Type} (inspectContainer : String → Except ε ContainerInspectResponse)
    (containerSummaries : List ContainerSummary) :
    Except ε (List (ContainerInspectResponse × ContainerSummary)) := do
  let inspectedContainers ← inspectAll inspectContainer containerSummaries
  return inspectedContainers.zip containerSummaries

def isHostNetworking (container : ContainerInspectResponse) : Bool := container.networkMode.getD "" == "host"

/-! ## Ports -/

/-- `entry(k).or_default().push(v)` -/
def pushAt {κ ν : Type} [DecidableEq κ] (m : Assoc κ (List ν)) (k : κ) (v : ν) : Assoc κ (List ν) :=
  m.insert k (m.getD k [] ++ [v])

/-- The port types of a transport protocol that services can be found at. -/
def portTypeOf : PortTypeEnum → Option (BitVec 16 → PortType)
  | .tcp => some .newTcp
  | .udp => some .newUdp
  | .empty | .sctp => none

structure ContainerPorts where
  hostIpToHostPorts : Assoc IpAddr (List PortType) := ∅
  containerIpsToContainerPorts : Assoc IpAddr (List PortType) := ∅
  hostToContainerPortMap : Assoc (IpAddr × BitVec 16) (BitVec 16) := ∅

/-- Where on the host the port is published. -/
def PortSummary.published (p : PortSummary) : Option (IpAddr × BitVec 16) :=
  match p.ip, p.publicPort with
  | some ip, some publicPort => (IpAddr.parse ip).map fun ip => (ip, publicPort)
  | _, _ => none

def ContainerPorts.add (containerIps : List IpAddr) (m : ContainerPorts) (p : PortSummary) : ContainerPorts :=
  match p.typ.bind portTypeOf with
  | none => m
  | some portType =>
    let m := { m with
      containerIpsToContainerPorts := containerIps.foldl (fun ports ip => pushAt ports ip (portType p.privatePort))
        m.containerIpsToContainerPorts }
    match PortSummary.published p with
    | none => m
    | some (ip, publicPort) =>
      { m with
        hostIpToHostPorts := pushAt m.hostIpToHostPorts ip (portType publicPort)
        hostToContainerPortMap := m.hostToContainerPortMap.insert (ip, publicPort) p.privatePort }

def getPortsFromContainer (containerSummary : ContainerSummary) (pairs : List (Interface × Subnet)) :
    ContainerPorts :=
  (containerSummary.ports.getD []).foldl (ContainerPorts.add (pairs.map fun p => p.1.base.ipAddress)) {}

/-! ## Interfaces -/

/-- The interface of a container in a network, if its address is in a known subnet. -/
def endpointInterface (subnets : List Subnet) (n : Nat) (networkName : String) (endpoint : EndpointSettings) :
    Option (Interface × Subnet) :=
  (endpoint.ipAddress.bind IpAddr.parse).bind fun ipAddress =>
    (subnetFor subnets ipAddress).map fun subnet =>
      ({ id := draws.newV4 n
         createdAt := draws.now n
         updatedAt := draws.now n
         base :=
           { networkId := subnet.base.networkId
             hostId := Uuid.nil
             subnetId := subnet.id
             ipAddress
             macAddress := endpoint.macAddress.bind parseMac
             name := some networkName } }, subnet)

/-- The interfaces in all networks. The `n`-th draw is the first. -/
def endpointInterfaces (subnets : List Subnet) : Nat → List (String × EndpointSettings) → List (Interface × Subnet)
  | _, [] => []
  | n, (networkName, endpoint) :: networks =>
    match endpointInterface draws parseMac subnets n networkName endpoint with
    | some pair => pair :: endpointInterfaces subnets (n + 1) networks
    | none => endpointInterfaces subnets n networks

/-- The interfaces of the host that are in known subnets. -/
def hostInterfacesAndSubnets (subnets : List Subnet) (hostInterfaces : List Interface) : List (Interface × Subnet) :=
  hostInterfaces.filterMap fun i => (subnetFor subnets i.base.ipAddress).map fun s => (attached i s, s)

/-- The interfaces of a container, and after them those of the host. -/
def interfacesOf (subnets : List Subnet) (hostInterfaces : List Interface) (n : Nat)
    (container : ContainerInspectResponse) : List (Interface × Subnet) :=
  (if isHostNetworking container then hostInterfacesAndSubnets subnets hostInterfaces
    else endpointInterfaces draws parseMac subnets n (container.networks.getD [])) ++
    hostInterfacesAndSubnets subnets hostInterfaces

/-- By the ids of the containers. The `n`-th draw is the first. -/
def getContainerInterfaces (subnets : List Subnet) (hostInterfaces : List Interface) :
    Nat → List (ContainerInspectResponse × ContainerSummary) → Assoc String (List (Interface × Subnet)) →
      Assoc String (List (Interface × Subnet))
  | _, [], m => m
  | n, (container, _) :: containers, m =>
    let own := if isHostNetworking container then 0
      else (endpointInterfaces draws parseMac subnets n (container.networks.getD [])).length
    let pairs := interfacesOf draws parseMac subnets hostInterfaces n container
    getContainerInterfaces subnets hostInterfaces (n + own) containers (match container.id with
      | some id => m.insert id pairs
      | none => m)

/-! ## A host at an interface -/

/-- What the configuration and the session give while a host is processed. -/
structure ScanSession where
  /-- Drawn for the host. -/
  hostId : Uuid := Uuid.nil
  daemonId : Uuid := Uuid.nil
  networkId : Uuid := Uuid.nil
  gatewayIps : List IpAddr := []
  discoveryType : DiscoveryType
  hostNamingFallback : HostNamingFallback := .bestService
  now : DateTime := 0

/-- The hostname, or the best service, or the address. -/
def hostName (hostname : Option String) (hostNamingFallback : HostNamingFallback) (bestServiceName : Option String)
    (ip : IpAddr) : String :=
  match hostname, hostNamingFallback, bestServiceName with
  | some hostname, _, _ => hostname
  | none, .bestService, some bestServiceName => bestServiceName
  | none, .ip, _ => ip.display
  | none, .bestService, none => ip.display

variable [ServiceRegistry] [TextRules] [OuiDatabase]

def ScanSession.scanned (session : ScanSession) (params : ServiceMatchBaselineParams) (hostname : Option String) :
    ScannedHost where
  host :=
    { id := session.hostId
      base :=
        { name := "Unknown Device"
          networkId := session.networkId
          hostname := hostname
          source := .discovery
            [{ discoveryType := session.discoveryType, daemonId := session.daemonId, date := session.now }] } }
  baselineParams := params
  gatewayIps := session.gatewayIps
  daemonId := session.daemonId
  networkId := session.networkId
  discoveryType := session.discoveryType

/-- The host at the interface with the services that are found there. -/
def processHost (session : ScanSession) (params : ServiceMatchBaselineParams) (hostname : Option String) :
    DiscoveryHostRequest :=
  let scanned := session.scanned params hostname
  let found := discoverServices draws scanned
  let bestServiceName := (found.1.find? fun s => !s.base.serviceDefinition.isGeneric).map
    fun s => s.base.serviceDefinition.id
  let name := hostName hostname session.hostNamingFallback bestServiceName params.interface.base.ipAddress
  { host := { scanned.host with base.name := name }
    interfaces := [params.interface]
    ports := found.2
    services := found.1 }

/-- How many ids are drawn for it. -/
def ScanSession.drawn (session : ScanSession) (params : ServiceMatchBaselineParams) (hostname : Option String) : Nat :=
  ((session.scanned params hostname).tryAll draws).drawn +
    ((session.scanned params hostname).tryAll draws).unboundPorts.length

/-! ## Bindings from the Docker context -/

def allInterfacesIp : IpAddr := .v4 0

/-- A container at one of its interfaces. -/
structure BridgeContext where
  interface : Interface
  /-- All interfaces of the container and of the host. -/
  pairs : List (Interface × Subnet)
  /-- The ports of the container that are reached at the interface. -/
  containerPorts : List PortType
  /-- The ports of the host that are published, by the addresses they are published on. -/
  hostPorts : List (IpAddr × List PortType)

/-- A service's bindings, and the ports of the host. -/
structure Wiring where
  bindings : List Binding
  ports : List Port
  drawn : Nat

namespace BridgeContext

variable (c : BridgeContext)

/-- Add the interfaces that are not there yet. -/
def allInterfaces (interfaces : List Interface) : List Interface :=
  c.pairs.foldl (fun interfaces p => if interfaces.any fun i => i.eq p.1 then interfaces else interfaces ++ [p.1])
    interfaces

def dockerBridgeSubnetIds : List Uuid :=
  (c.pairs.filter fun p => p.2.base.subnetType == .dockerBridge).map fun p => p.2.id

/-- A port of the container that the service has not been recognized at. -/
def bindContainerPort (w : Wiring) (containerPort : PortType) : Wiring :=
  match w.ports.find? fun p => p.base.portType == containerPort.config with
  | some p =>
    if (w.bindings.filterMap Binding.portId).contains p.id then w
    else
      { w with
        bindings := w.bindings ++ [Binding.newServiceless draws w.drawn (.port p.id (some c.interface.id))]
        drawn := w.drawn + 1 }
  | none => w

/-- The binding is to the port on an interface that is not on a Docker bridge. -/
def isNonDocker (interfaces : List Interface) (portId : Uuid) (b : Binding) : Bool :=
  b.portId == some portId &&
    match b.interfaceId.bind fun id => interfaces.find? fun i => i.id == id with
    | some i => !c.dockerBridgeSubnetIds.contains i.base.subnetId
    | none => false

/-- The interfaces that are not on a Docker bridge, as they are in the list. -/
def nonDockerInterfaces (interfaces : List Interface) : List Interface :=
  (c.pairs.filter fun p => p.2.base.subnetType != .dockerBridge).filterMap fun p =>
    interfaces.find? fun i => i.eq p.1

/-- A port that is published on the address: bound to the interface with the address, or to all of them. -/
def bindHostPort (interfaces : List Interface) (ip : IpAddr) (w : Wiring) (portType : PortType) : Wiring :=
  let existing := w.ports.find? fun p => p.base.portType == portType.config
  let port := existing.getD (Port.newHostless draws w.drawn portType)
  let drawn := if existing.isSome then w.drawn else w.drawn + 1
  match interfaces.find? fun i => i.base.ipAddress == ip with
  | some hostInterface =>
    { bindings := w.bindings ++ [Binding.newServiceless draws drawn (.port port.id (some hostInterface.id))]
      ports := w.ports ++ [port]
      drawn := drawn + 1 }
  | none =>
    if ip = allInterfacesIp then
      let existingNonDockerBindings :=
        if existing.isSome then (w.bindings.filter (c.isNonDocker interfaces port.id)).map Binding.id else []
      let added := (c.nonDockerInterfaces interfaces).mapIdx fun k i =>
        Binding.newServiceless draws (drawn + k) (.port port.id (some i.id))
      { bindings := (w.bindings.filter fun b => !existingNonDockerBindings.contains b.id) ++ added
        ports := w.ports ++ [port]
        drawn := drawn + added.length }
    else { w with drawn }

/-- An interface binding is implied by a port binding at the interface. -/
def dropSuperseded (bindings : List Binding) : List Binding :=
  let interfaceIdsWithPortBinding := (bindings.filter fun b => b.portId.isSome).filterMap Binding.interfaceId
  bindings.filter fun b => b.portId.isSome || !interfaceIdsWithPortBinding.contains (b.interfaceId.getD Uuid.nil)

/-- One service after the other; the ports are those of the host. -/
def bindService (interfaces : List Interface) (ports : List Port) (drawn : Nat) (bindings : List Binding) : Wiring :=
  let w := c.containerPorts.foldl (c.bindContainerPort draws) { bindings, ports, drawn }
  let w := c.hostPorts.foldl (fun w published => published.2.foldl (c.bindHostPort draws interfaces published.1) w) w
  { w with bindings := dropSuperseded w.bindings }

/-- All services, and with them the ports of the host and how many ids are drawn by then. -/
def bindServices (interfaces : List Interface) : List Port → Nat → List Service → List Service × List Port × Nat
  | ports, drawn, [] => ([], ports, drawn)
  | ports, drawn, service :: services =>
    let w := c.bindService draws interfaces ports drawn service.base.bindings
    let rest := bindServices interfaces w.ports w.drawn services
    ({ service with base.bindings := w.bindings } :: rest.1, rest.2)

def bound (drawn : Nat) (request : DiscoveryHostRequest) : List Service × List Port × Nat :=
  c.bindServices draws (c.allInterfaces request.interfaces) request.ports drawn request.services

/-- What is known from the Docker context is added to the host; it is the one the daemon runs on. -/
def complete (hostId : Uuid) (drawn : Nat) (request : DiscoveryHostRequest) : DiscoveryHostRequest :=
  let bound := c.bound draws drawn request
  { request with
    host.id := hostId, interfaces := c.allInterfaces request.interfaces, ports := bound.2.1, services := bound.1 }

/-- How many ids are drawn for the host. -/
def drawn (drawn : Nat) (request : DiscoveryHostRequest) : Nat := (c.bound draws drawn request).2.2

end BridgeContext

/-! ## Containers -/

/-- What is found on the way, when the container is processed at one of its interfaces. -/
structure Attempt where
  cancelled : Bool := false
  /-- What the endpoints in the container answered, or the failure to ask. -/
  endpointResponses : Except String (List EndpointResponse) := .ok []
  /-- `None` if the configuration or the session cannot be read. -/
  session : Option ScanSession

/-- `trim_start_matches("/")` -/
def trimSlashes (name : String) : String := String.ofList (name.toList.dropWhile (· == '/'))

def virtualizationOf (container : ContainerInspectResponse) (dockerServiceId : Uuid) : DockerVirtualization where
  containerName := container.name.map trimSlashes
  containerId := container.id
  serviceId := dockerServiceId

/-- What is sent from the first interface at which the container can be processed, and how many ids are drawn for it.
`iterate` is the order of a hash map. -/
def processAtInterfaces (hostId dockerServiceId : Uuid) (container : ContainerInspectResponse)
    (ports : ContainerPorts) (iterate : List (IpAddr × List PortType) → List (IpAddr × List PortType))
    (pairs : List (Interface × Subnet)) (attempt : Nat → Attempt) :
    Nat → List (Interface × Subnet) → Except String (Option (DiscoveryHostRequest × Nat))
  | _, [] => .ok none
  | n, (interface, subnet) :: rest =>
    if (attempt n).cancelled then .error "Discovery was cancelled"
    else
      let scan := if container.name.isSome then (attempt n).endpointResponses else .ok []
      match scan, (attempt n).session with
      | .error e, _ => .error e
      | .ok _, none => processAtInterfaces hostId dockerServiceId container ports iterate pairs attempt (n + 1) rest
      | .ok endpointResponses, some session =>
        let containerPorts := ports.containerIpsToContainerPorts.getD interface.base.ipAddress []
        let params : ServiceMatchBaselineParams :=
          { subnet, interface, allPorts := containerPorts, endpointResponses
            virtualization := some (virtualizationOf container dockerServiceId) }
        let c : BridgeContext :=
          { interface, pairs, containerPorts
            hostPorts := iterate (ports.hostIpToHostPorts.entries.map fun e => (e.1, e.2)) }
        let found := processHost draws session params none
        let drawn := session.drawn draws params none
        .ok (some (c.complete draws hostId drawn found, c.drawn draws drawn found))

/-- What is sent to the server about a container that is not in host networking mode. -/
def processBridgeModeContainer (hostId dockerServiceId : Uuid) (container : ContainerInspectResponse)
    (containerSummary : ContainerSummary)
    (iterate : List (IpAddr × List PortType) → List (IpAddr × List PortType))
    (pairs : List (Interface × Subnet)) (attempt : Nat → Attempt) :
    Except String (Option (DiscoveryHostRequest × Nat)) :=
  processAtInterfaces draws hostId dockerServiceId container (getPortsFromContainer containerSummary pairs) iterate
    pairs attempt 0 pairs

/-- What is sent about a container in host networking mode, where exposed ports are open at the host. `scan` is what
their endpoints answered. -/
def processHostModeContainer (parsePort : String → Option PortType) (hostId dockerServiceId : Uuid)
    (container : ContainerInspectResponse)
    (scan : List PortType → Except String (List EndpointResponse)) (pairs : List (Interface × Subnet))
    (session : Nat → Option ScanSession) : Except String (Option DiscoveryHostRequest) :=
  match container.exposedPorts with
  | none => .ok none
  | some exposedPorts => do
    let openPorts := exposedPorts.filterMap parsePort
    let endpointResponses ← scan openPorts
    return pairs.zipIdx.findSome? fun ((interface, subnet), n) => (session n).map fun session =>
      let request := processHost draws session
        { subnet, interface, allPorts := openPorts, endpointResponses
          virtualization := some (virtualizationOf container dockerServiceId) } none
      { request with host.id := hostId }

/-- How a container is processed: at the host, behind a bridge, or not at all. -/
inductive Processing
  | hostMode (containerId : String)
  | bridgeMode (containerId : String)
  | skipped
deriving DecidableEq, Repr

/-- A container is processed with a summary of the same id only. -/
def processSingleContainer (container : ContainerInspectResponse) (containerSummary : ContainerSummary) : Processing :=
  match container.id with
  | none => .skipped
  | some containerId =>
    if containerId ≠ containerSummary.id.getD "" then .skipped
    else if isHostNetworking container then .hostMode containerId
    else .bridgeMode containerId

end Docker

end Netvisor
