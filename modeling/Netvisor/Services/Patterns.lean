/-
What a service is recognized by on a scanned host: patterns, the evidence a
pattern that matches returns, and the ports and endpoints a pattern says have to
be scanned.
-/
import Mathlib.Data.List.Infix
import Mathlib.Order.Lattice
import Netvisor.Hosts.Service
import Netvisor.Lib.Sorting

namespace Netvisor

/-! ## Ports and endpoints -/

/-- A port type, which has a name of its own if it is not custom. -/
structure PortType where
  config : PortConfig
  isCustom : Bool := true
deriving DecidableEq, Repr

/-- Greater with the number, then with the protocol. -/
def PortConfig.rank (p : PortConfig) : Nat := 2 * p.number.toNat + (if p.protocol = .tcp then 1 else 0)

theorem PortConfig.rank_injective : Function.Injective rank := by
  rintro ⟨n, p⟩ ⟨m, q⟩ h
  have hnumber : n.toNat = m.toNat := by
    simp only [rank] at h
    split at h <;> split at h <;> omega
  have hn : n = m := BitVec.eq_of_toNat_eq hnumber
  subst hn
  cases p <;> cases q <;> first | rfl | simp [rank] at h

instance : LinearOrder PortConfig := LinearOrder.lift' PortConfig.rank PortConfig.rank_injective

namespace PortType

/-- Port types are compared by their configurations. -/
def eq (p other : PortType) : Bool := p.config == other.config

def display (p : PortType) : String := p.config.display

def number (p : PortType) : Nat := p.config.number.toNat

def http : PortType where
  config := { number := 80, protocol := .tcp }
  isCustom := false

/-- Sorted by number and protocol, without repetitions. -/
def sortDedup (ports : List PortType) : List PortType := Sorting.sortDedup config ports

end PortType

inductive ApplicationProtocol
  | http
  | https
deriving DecidableEq, Repr

structure Endpoint where
  protocol : ApplicationProtocol := .http
  ip : Option IpAddr := none
  portType : PortType
  path : String
deriving DecidableEq, Repr

/-- Endpoints are compared by all but their addresses and transport protocols. -/
def Endpoint.eq (e other : Endpoint) : Bool :=
  e.protocol == other.protocol && e.portType.config.number == other.portType.config.number && e.path == other.path

def Endpoint.forPattern (portType : PortType) (path : String) : Endpoint where
  portType := portType
  path := path

structure EndpointResponse where
  endpoint : Endpoint
  body : String := ""
  headers : List (String × String) := []
  status : BitVec 16 := 200
deriving DecidableEq, Repr

/-- The range of statuses from `first` on, without `last`. -/
structure StatusRange where
  first : BitVec 16
  last : BitVec 16
deriving DecidableEq, Repr

def StatusRange.contains (r : StatusRange) (status : BitVec 16) : Bool := r.first ≤ status && status < r.last

def StatusRange.display (r : StatusRange) : String := toString r.first.toNat ++ ".." ++ toString r.last.toNat

/-- Where a pattern gives no range. -/
def StatusRange.successful : StatusRange where
  first := 200
  last := 400

/-! ## Texts -/

def SubnetType.name : SubnetType → String
  | internet => "Internet"
  | remote => "Remote"
  | gateway => "Gateway"
  | vpnTunnel => "VPN"
  | dmz => "DMZ"
  | lan => "LAN"
  | wiFi => "WiFi"
  | ioT => "IoT"
  | guest => "Guest"
  | dockerBridge => "Docker Bridge"
  | macVlan => "MacVLAN"
  | ipVlan => "IpVLAN"
  | management => "Management"
  | storage => "Storage"
  | unknown => "Unknown"
  | none => "No Subnet"

def IpCidr.display (c : IpCidr) : String := c.address.display ++ "/" ++ toString c.networkLength

/-- An address of the same family whose network part is that of the range. -/
def IpCidr.contains (c : IpCidr) (ip : IpAddr) : Bool :=
  match c.address, ip with
  | .v4 net, .v4 addr => net >>> (32 - c.networkLength) == addr >>> (32 - c.networkLength)
  | .v6 net, .v6 addr => net >>> (128 - c.networkLength) == addr >>> (128 - c.networkLength)
  | _, _ => false

/-- Operations on Unicode texts. -/
class TextRules where
  toLowercase : String → String
  trim : String → String
  isAlphanumeric : Char → Bool

/-- What they do to ASCII texts. -/
@[reducible] def TextRules.ascii : TextRules where
  toLowercase s := String.ofList (s.toList.map Char.toLower)
  trim s := String.ofList ((s.toList.dropWhile Char.isWhitespace).reverse.dropWhile Char.isWhitespace).reverse
  isAlphanumeric := Char.isAlphanum

/-- The vendors of MAC addresses, if the database of them can be loaded. -/
class OuiDatabase where
  lookup : Option (MacAddress → Option String)

def containsText (s text : String) : Bool := decide (text.toList <:+: s.toList)

/-- The variants are displayed by their names. -/
def MatchReason.display : MatchReason → String
  | reason _ => "Reason"
  | container _ _ => "Container"

/-! ## What patterns are matched with -/

structure ServiceMatchBaselineParams where
  subnet : Subnet
  interface : Interface
  allPorts : List PortType := []
  endpointResponses : List EndpointResponse := []
  virtualization : Option DockerVirtualization := none
deriving DecidableEq, Repr

structure ServiceMatchServiceParams where
  serviceDefinition : ServiceDefinition := {}
  matchedServices : List Service := []
  unboundPorts : List PortType := []
deriving DecidableEq, Repr

structure DiscoverySessionServiceMatchParams where
  hostId : Uuid := Uuid.nil
  gatewayIps : List IpAddr := []
  daemonId : Uuid := Uuid.nil
  networkId : Uuid := Uuid.nil
  discoveryType : DiscoveryType
  baselineParams : ServiceMatchBaselineParams
  serviceParams : ServiceMatchServiceParams
deriving DecidableEq, Repr

inductive Pattern
  | anyOf (patterns : List Pattern)
  | allOf (patterns : List Pattern)
  | protected not (pattern : Pattern)
  | protected port (portType : PortType)
  | protected endpoint (portType : PortType) (path body : String) (status : Option StatusRange)
  | protected header (portType : Option PortType) (header value : String) (status : Option StatusRange)
  | subnetIsType (subnetType : SubnetType)
  | isGateway
  | macVendor (vendor : String)
  | protected custom (holds : DiscoverySessionServiceMatchParams → Bool)
      (ports : DiscoverySessionServiceMatchParams → List PortType) (reason noMatchReason : String)
      (confidence : MatchConfidence)
  | dockerContainer
  | protected none

structure MatchResult where
  ports : List PortType := []
  endpoint : Option Endpoint := none
  macVendor : Option String := none
  details : MatchDetails
deriving DecidableEq, Repr

/-- What a service definition registers for the discovery. -/
structure RegisteredService where
  definition : ServiceDefinition
  pattern : Pattern
  hasLogo : Bool := false

/-- `inventory` collects the service definitions of the program. -/
class ServiceRegistry where
  all : List RegisteredService

namespace Pattern

/-! ## Scanning -/

mutual
/-- The ports to scan. -/
def ports : Pattern → List PortType
  | .port p => [p]
  | anyOf ps | allOf ps => portsOf ps
  | _ => []

def portsOf : List Pattern → List PortType
  | [] => []
  | p :: ps => p.ports ++ portsOf ps
end

mutual
/-- The endpoints to scan. -/
def endpoints : Pattern → List Endpoint
  | .endpoint p path _ none => [.forPattern p path]
  | .header (some p) _ _ _ => [.forPattern p "/"]
  | .header none _ _ _ => [.forPattern .http "/"]
  | anyOf ps | allOf ps => endpointsOf ps
  | _ => []

def endpointsOf : List Pattern → List Endpoint
  | [] => []
  | p :: ps => p.endpoints ++ endpointsOf ps
end

/-! ## Leaves -/

abbrev Outcome := Except String MatchResult

variable (params : DiscoverySessionServiceMatchParams)

def matched (ports : List PortType) (reason : String) (confidence : MatchConfidence) : MatchResult where
  ports := ports
  details := { reason := .reason reason, confidence }

section

variable [ServiceRegistry]

/-- Another service is looked for at the port. -/
def usedElsewhere (p : PortType) : Bool :=
  (ServiceRegistry.all.filter fun s => s.definition.id != params.serviceParams.serviceDefinition.id).any fun s =>
    s.pattern.ports.any p.eq

def matchPort (p : PortType) : Outcome :=
  match params.serviceParams.unboundPorts.find? p.eq with
  | some matchedPort =>
    if p.isCustom && !usedElsewhere params p then
      .ok (matched [matchedPort] ("Port " ++ p.display ++
        " is open and is not used in other service match patterns") .medium)
    else .ok (matched [matchedPort] ("Port " ++ p.display ++ " is open") .low)
  | none => .error ("Port " ++ p.display ++ " is not open")

end

def responded (response : EndpointResponse) (reason : String) : MatchResult where
  ports := [response.endpoint.portType]
  endpoint := some response.endpoint
  details := { reason := .reason reason, confidence := .high }

def statusReason (text : String) (status : Option StatusRange) (response : EndpointResponse) : List String :=
  match status with
  | some range => [text ++ toString response.status.toNat ++ " was in range " ++ range.display]
  | none => []

section

variable [TextRules]

def respondsWithHeader (p : Option PortType) (header value : String) (status : Option StatusRange)
    (actual : EndpointResponse) : Bool :=
  p.all actual.endpoint.portType.eq && (status.getD .successful).contains actual.status
    && actual.headers.any fun (name, text) => TextRules.toLowercase name == TextRules.toLowercase header
      && containsText (TextRules.toLowercase text) (TextRules.toLowercase value)

def matchHeader (p : Option PortType) (header value : String) (status : Option StatusRange) : Outcome :=
  match params.baselineParams.endpointResponses.find? (respondsWithHeader p header value status) with
  | some actual =>
    let reason := " and ".intercalate
      (("header " ++ header ++ " contained \"" ++ value ++ "\"") :: statusReason "status code " status actual)
    .ok (responded actual (match p with
      | some p => "Response from " ++ toString p.number ++ " " ++ reason
      | none => "Response " ++ reason))
  | none => .error ("Could not find an header response on port " ++ toString (p.getD .http).number)

def respondsWithBody (p : PortType) (path body : String) (status : Option StatusRange)
    (actual : EndpointResponse) : Bool :=
  let endpoint := Endpoint.forPattern p path
  (actual.endpoint.protocol == endpoint.protocol && actual.endpoint.portType.eq endpoint.portType
      && actual.endpoint.path == endpoint.path)
    && (status.getD .successful).contains actual.status
    && containsText (TextRules.toLowercase actual.body) (TextRules.toLowercase body)

def matchEndpoint (p : PortType) (path body : String) (status : Option StatusRange) : Outcome :=
  match params.baselineParams.endpointResponses.find? (respondsWithBody p path body status) with
  | some actual =>
    let reason := " and ".intercalate
      (("contained \"" ++ body ++ "\" in body") :: statusReason "status code was " status actual)
    .ok (responded actual ("Response for " ++ params.baselineParams.interface.base.ipAddress.display ++ ":" ++
      toString p.number ++ path ++ " " ++ reason))
  | none => .error ("Could not find an endpoint response containing " ++ body)

def normalize (s : String) : String :=
  String.ofList ((TextRules.toLowercase (TextRules.trim s)).toList.filter TextRules.isAlphanumeric)

variable [OuiDatabase]

def matchMacVendor (vendor : String) : Outcome :=
  match params.baselineParams.interface.base.macAddress, OuiDatabase.lookup with
  | none, _ =>
    .error ("Interface " ++ params.baselineParams.interface.base.ipAddress.display ++ " does not have a mac address")
  | some _, none => .error "Could not load Oui database"
  | some mac, some lookup =>
    match lookup mac with
    | none => .error "Could not find vendor for mac address in Oui database"
    | some companyName =>
      if normalize vendor == normalize companyName then
        .ok { matched [] ("Mac address is from vendor " ++ companyName) .medium with macVendor := some companyName }
      else .error ("Mac address is not from vendor " ++ normalize vendor)

end

/-- The last octet or segment of an address that is common for gateways. -/
def endsLikeGateway : IpAddr → Bool
  | .v4 addr => addr.toNat % 256 == 1 || addr.toNat % 256 == 254
  | .v6 addr => addr.toNat % 65536 == 1 || addr.toNat % 65536 == 254

def matchIsGateway : Outcome :=
  let subnet := params.baselineParams.subnet
  let ip := params.baselineParams.interface.base.ipAddress
  let gatewayIpsInSubnet := params.gatewayIps.filter subnet.base.cidr.contains
  if gatewayIpsInSubnet.contains ip then
    .ok (matched [] ("Host IP address is in routing table of daemon " ++ toString params.daemonId) .high)
  else if endsLikeGateway ip && gatewayIpsInSubnet.length == 0 then
    .ok (matched [] ("No other gateways in subnet " ++ subnet.base.cidr.display ++
      " and IP address ends in 1 or 254") .high)
  else
    .error ("IP address is not in routing table, and does not end in 1 or 254 with no other gateways identified in " ++
      "subnet")

def matchSubnetIsType (subnetType : SubnetType) : Outcome :=
  let subnet := params.baselineParams.subnet
  if subnet.base.subnetType == subnetType then
    .ok (matched [] ("Subnet " ++ subnet.base.cidr.display ++ " is type " ++ subnetType.name) .low)
  else .error ("Subnet " ++ subnet.base.cidr.display ++ " is not type " ++ subnetType.name)

def matchDockerContainer : Outcome :=
  match params.baselineParams.virtualization with
  | some _ => .ok (matched [] "Service is running in docker container" .low)
  | none => .error "Service is not running in a docker container"

/-! ## Composites -/

def matchNot : Outcome → Outcome
  | .ok result => .error result.details.reason.display
  | .error e => .ok (matched [] e .low)

/-- What the children of a composite have come to. -/
structure Collected where
  ports : List PortType := []
  endpoint : Option Endpoint := none
  macVendor : Option String := none
  anyMatched : Bool := false
  allMatched : Bool := true
  confidence : MatchConfidence := .low
  matchedConfidences : List MatchConfidence := []
  reasons : List MatchReason := []
  noMatchErrors : String := ""

def Collected.add (c : Collected) : Outcome → Collected
  | .ok result =>
    { c with
      anyMatched := true
      ports := c.ports ++ result.ports
      reasons := c.reasons ++ [result.details.reason]
      endpoint := c.endpoint <|> result.endpoint
      macVendor := c.macVendor <|> result.macVendor
      confidence := if result.details.confidence.rank > c.confidence.rank then result.details.confidence else c.confidence
      matchedConfidences := c.matchedConfidences ++ [result.details.confidence] }
  | .error e => { c with allMatched := false, noMatchErrors := c.noMatchErrors ++ ", " ++ e }

def collect (outcomes : List Outcome) : Collected := outcomes.foldl Collected.add {}

/-- More than three matches raise a low confidence. -/
def boosted (confidences : List MatchConfidence) : MatchConfidence :=
  let maxConfidence := ((confidences.insertionSort fun a b => a.rank ≤ b.rank).getLast?).getD .low
  if confidences.length > 3 then
    match maxConfidence with
    | .low => .medium
    | .medium => .high
    | c => c
  else maxConfidence

def matchAnyOf (outcomes : List Outcome) : Outcome :=
  let c := collect outcomes
  if c.anyMatched then
    .ok
      { ports := PortType.sortDedup c.ports
        endpoint := none
        macVendor := none
        details := { reason := .container "Any of" c.reasons, confidence := c.confidence } }
  else .error c.noMatchErrors

def matchAllOf (outcomes : List Outcome) : Outcome :=
  let c := collect outcomes
  if c.allMatched then
    .ok
      { ports := PortType.sortDedup c.ports
        endpoint := none
        macVendor := none
        details := { reason := .container "All of" c.reasons, confidence := boosted c.matchedConfidences } }
  else .error c.noMatchErrors

/-! ## Matching -/

variable [ServiceRegistry] [TextRules] [OuiDatabase]

mutual
def «matches» : Pattern → Outcome
  | .port p => matchPort params p
  | .header p header value status => matchHeader params p header value status
  | .endpoint p path body status => matchEndpoint params p path body status
  | macVendor vendor => matchMacVendor params vendor
  | .not p => matchNot p.matches
  | anyOf ps => matchAnyOf (matchesOf ps)
  | allOf ps => matchAllOf (matchesOf ps)
  | isGateway => matchIsGateway params
  | subnetIsType subnetType => matchSubnetIsType params subnetType
  | .custom holds ports reason noMatchReason confidence =>
    if holds params then .ok (matched (ports params) reason confidence) else .error noMatchReason
  | dockerContainer => matchDockerContainer params
  | .none => .error "No match pattern provided"

def matchesOf : List Pattern → List Outcome
  | [] => []
  | p :: ps => p.matches :: matchesOf ps
end

end Pattern

end Netvisor
