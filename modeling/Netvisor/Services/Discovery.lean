/-
The services a daemon finds on a host it has scanned.

Definitions are tried one after another, the generic ones last. A service that
is found binds the ports its pattern has matched, which are then not left for
the definitions after it; what no service binds stays open on the host.
-/
import Netvisor.Services.Patterns

namespace Netvisor

/-- What `Uuid::new_v4` and `Utc::now` give, in the order of the calls. -/
structure Draws where
  newV4 : Nat → Uuid
  now : Nat → DateTime

variable (draws : Draws)

def Port.newHostless (n : Nat) (portType : PortType) : Port where
  id := draws.newV4 n
  createdAt := draws.now n
  updatedAt := draws.now n
  base := { portType := portType.config }

/-- One port after another. -/
def Port.newHostlessAll (n : Nat) (portTypes : List PortType) : List Port :=
  portTypes.mapIdx fun i portType => newHostless draws (n + i) portType

def Binding.newServiceless (n : Nat) (bindingType : BindingType) : Binding where
  id := draws.newV4 n
  createdAt := draws.now n
  updatedAt := draws.now n
  base := { bindingType }

def Service.new (n : Nat) (base : ServiceBase) : Service where
  id := draws.newV4 n
  createdAt := draws.now n
  updatedAt := draws.now n
  base := base

variable [ServiceRegistry] [TextRules] [OuiDatabase]

/-! ## One definition -/

/-- Confidence is not applicable for generic services. -/
def ServiceDefinition.matchDetails (s : ServiceDefinition) (details : MatchDetails) : MatchDetails :=
  if s.isGeneric then
    { reason := .container "Generic service" [details.reason], confidence := .notApplicable }
  else details

/-- A generic service in a container is named as the container. -/
def ServiceDefinition.serviceName (s : ServiceDefinition) (virtualization : Option DockerVirtualization) : String :=
  if s.isGeneric then (virtualization.bind DockerVirtualization.containerName).getD s.id else s.id

/-- What is found of a definition, with its ports and endpoint. The `n`-th draw is the first. -/
def Service.fromDiscovery (n : Nat) (s : RegisteredService) (params : DiscoverySessionServiceMatchParams) :
    Option (Service × List Port × Option Endpoint) :=
  match s.pattern.matches params with
  | .ok result =>
    let interface := params.baselineParams.interface
    let virtualization := params.baselineParams.virtualization
    let ports := Port.newHostlessAll draws n result.ports
    let bindings :=
      if result.ports.isEmpty then [Binding.newServiceless draws n (.interface interface.id)]
      else ports.mapIdx fun i p => Binding.newServiceless draws (n + ports.length + i)
        (.port p.id (some interface.id))
    let service := Service.new draws (n + ports.length + bindings.length)
      { hostId := params.hostId
        networkId := params.networkId
        serviceDefinition := params.serviceParams.serviceDefinition
        name := s.definition.serviceName virtualization
        virtualization := virtualization
        bindings := bindings
        source := .discoveryWithMatch
          [{ discoveryType := params.discoveryType, daemonId := params.daemonId, date := draws.now n }]
          (s.definition.matchDetails result.details) }
    some (service, ports, result.endpoint)
  | .error _ => none

/-! ## All of them -/

/-- Non-generic services first, the catch-all for open ports last. -/
def RegisteredService.priority (s : RegisteredService) : Nat :=
  if !s.definition.isGeneric then 0
  else if s.definition.id == "Unclaimed Open Ports" then 3
  else if s.definition.id == "Docker Container" || s.definition.id == "Gateway" then 2
  else 1

def sortedServiceDefinitions : List RegisteredService :=
  ServiceRegistry.all.insertionSort fun a b => a.priority ≤ b.priority

/-- What is known of the host, and of the session it is scanned in. -/
structure ScannedHost where
  host : Host
  baselineParams : ServiceMatchBaselineParams
  gatewayIps : List IpAddr := []
  daemonId : Uuid := Uuid.nil
  networkId : Uuid := Uuid.nil
  discoveryType : DiscoveryType

/-- What the definitions tried so far have come to. -/
structure Findings where
  services : List Service := []
  hostPorts : List Port := []
  unboundPorts : List PortType
  containerMatched : Bool := false
  drawn : Nat := 0

def ScannedHost.findings (h : ScannedHost) : Findings where
  unboundPorts := h.baselineParams.allPorts

def ScannedHost.params (h : ScannedHost) (f : Findings) (s : RegisteredService) :
    DiscoverySessionServiceMatchParams where
  hostId := h.host.id
  gatewayIps := h.gatewayIps
  daemonId := h.daemonId
  networkId := h.networkId
  discoveryType := h.discoveryType
  baselineParams := h.baselineParams
  serviceParams :=
    { serviceDefinition := s.definition
      matchedServices := f.services
      unboundPorts := f.unboundPorts }

/-- A container with an id is no other service. -/
def Service.isIdentifiedContainer (s : Service) : Bool :=
  (s.base.virtualization.bind DockerVirtualization.containerId).isSome

/-- Add what is found. Its ports are not open to the services after it. -/
def Findings.add (f : Findings) (service : Service) (ports : List Port) : Findings :=
  let boundPortTypes := ports.map fun p => p.base.portType
  { services := f.services ++ [service]
    hostPorts := f.hostPorts ++ ports
    unboundPorts := f.unboundPorts.filter fun p => !boundPortTypes.contains p.config
    containerMatched := f.containerMatched || service.isIdentifiedContainer
    drawn := f.drawn + ports.length + service.base.bindings.length + 1 }

/-- Once a container is matched, what is drawn for another service is lost with it. -/
def ScannedHost.tryDefinition (h : ScannedHost) (f : Findings) (s : RegisteredService) : Findings :=
  match Service.fromDiscovery draws f.drawn s (h.params f s) with
  | some (service, ports, _) => if f.containerMatched then f else f.add service ports
  | none => f

/-- The confidence in a service, and whether it has a logo. -/
def Service.certainty (s : Service) : Nat :=
  match s.base.source with
  | .discoveryWithMatch _ details =>
    let hasLogo := ServiceRegistry.all.any fun r => r.definition.id == s.base.serviceDefinition.id && r.hasLogo
    details.confidence.rank + if hasLogo then 1 else 0
  | _ => MatchConfidence.notApplicable.rank

def ScannedHost.tryAll (h : ScannedHost) : Findings :=
  sortedServiceDefinitions.foldl (h.tryDefinition draws) h.findings

/-- The services of the host, the most certain ones first, and its ports. -/
def discoverServices (h : ScannedHost) : List Service × List Port :=
  let f := h.tryAll draws
  (f.services.insertionSort fun a b => b.certainty ≤ a.certainty,
    f.hostPorts ++ Port.newHostlessAll draws f.drawn f.unboundPorts)

end Netvisor
