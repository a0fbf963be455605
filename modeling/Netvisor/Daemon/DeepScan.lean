/-
The deep scan of a host, and what a responsiveness check changes about it.

A host that was not found by ARP is checked for responsiveness on a few ports
first. The ports this finds are left out of the full scan and are open as those
it finds; but whether a port closes a connection at once, which it does where it
waits for TLS, is kept of the ports of the full scan only. The endpoints of the
others are asked for over HTTP first.
-/
import Mathlib.Data.Prod.Lex
import Mathlib.Data.String.Basic
import Netvisor.Services.Discovery

namespace Netvisor

/-! ## The host -/

structure Page where
  status : BitVec 16 := 200
  headers : List (String × String) := []
  body : String := ""
deriving DecidableEq, Repr

/-- How a host answers a scan. -/
structure HostState where
  ip : IpAddr
  /-- Of the ports that accept a connection, whether it is closed at once. -/
  connect : BitVec 16 → Option Bool
  connect_zero : connect 0 = none
  /-- The UDP ports that answer their probes. -/
  udpPorts : List PortType := []
  get : ApplicationProtocol → BitVec 16 → String → Option Page := fun _ _ _ => none

def PortType.newTcp (number : BitVec 16) : PortType where
  config := { number, protocol := .tcp }

/-- Of the named ports. -/
def PortType.isHttps (p : PortType) : Bool :=
  !p.isCustom && p.config.protocol == .tcp && [443, 8443, 9443, 10443].contains p.config.number

def PortType.isRawSocket (p : PortType) : Bool := 9100 ≤ p.config.number && p.config.number ≤ 9107

def Endpoint.useIp (e : Endpoint) (ip : IpAddr) : Endpoint := { e with ip := some ip }

/-! ## The registry -/

section Registry

variable [ServiceRegistry]

def allDiscoveryPorts : List PortType := PortType.sortDedup (ServiceRegistry.all.flatMap fun s => s.pattern.ports)

/-- Endpoints are sorted and compared by protocol, number and path. -/
def Endpoint.sortKey (e : Endpoint) : Nat ×ₗ Nat ×ₗ String :=
  toLex (match e.protocol with
    | .http => 0
    | .https => 1, toLex (e.portType.number, e.path))

def allDiscoveryEndpoints : List Endpoint :=
  Sorting.sortDedup Endpoint.sortKey (ServiceRegistry.all.flatMap fun s => s.pattern.endpoints)

def endpointOnlyPorts : List PortType :=
  PortType.sortDedup ((allDiscoveryEndpoints.map (·.portType)).filter fun p => !allDiscoveryPorts.any (·.eq p))

end Registry

/-! ## The scans -/

/-- The ports that are open, with whether to use HTTPS. -/
def HostState.scanTcpPorts (host : HostState) (ports : List (BitVec 16)) : List (PortType × Bool) :=
  ports.filterMap fun n => (host.connect n).map fun closed => (.newTcp n, closed || (PortType.newTcp n).isHttps)

/-- One endpoint for each port and path. -/
def uniqueEndpoints (endpoints : List Endpoint) : List Endpoint :=
  endpoints.foldl (fun unique e =>
    if unique.any fun u => u.portType.number == e.portType.number && u.path == e.path then unique else unique ++ [e])
      []

def urls (useHttps : Bool) : List ApplicationProtocol := if useHttps then [.https, .http] else [.http, .https]

/-- The first URL that gives a page. -/
def HostState.probe (host : HostState) (e : Endpoint) (urls : List ApplicationProtocol) : Option EndpointResponse :=
  (urls.findSome? fun protocol => host.get protocol e.portType.config.number e.path).map fun page =>
    { endpoint := e.useIp host.ip, body := page.body, headers := page.headers, status := page.status }

/-- Add the ports that are not there. -/
def addMissing (ports added : List PortType) : List PortType :=
  added.foldl (fun ports p => if ports.any (·.eq p) then ports else ports ++ [p]) ports

/-- What a deep scan finds. -/
structure DeepScan where
  openPorts : List PortType
  useHttpsPorts : BitVec 16 → Bool
  /-- The endpoints, with the URLs to try. -/
  probed : List (Endpoint × List ApplicationProtocol)
  endpointResponses : List EndpointResponse

section Scan

variable [ServiceRegistry] (host : HostState) (probeRawSocketPorts : Bool)

/-- The scan from the open TCP ports on. -/
def HostState.scanFurther (tcpPorts : List PortType) (useHttpsPorts : BitVec 16 → Bool) : DeepScan :=
  let openPorts := tcpPorts ++ host.udpPorts
  let portsToCheck := PortType.sortDedup (openPorts ++ endpointOnlyPorts)
  let endpoints := uniqueEndpoints (allDiscoveryEndpoints.filter fun e =>
    (probeRawSocketPorts || !e.portType.isRawSocket) && portsToCheck.any (·.eq e.portType))
  let probed := endpoints.map fun e => (e, urls (useHttpsPorts e.portType.config.number))
  let endpointResponses := probed.filterMap fun (e, urls) => host.probe e urls
  { openPorts := PortType.sortDedup (addMissing openPorts (endpointResponses.map (·.endpoint.portType)))
    useHttpsPorts, probed, endpointResponses }

/-- `1..=65535`. -/
def tcpPortNumbers : List (BitVec 16) := (List.range 65535).map fun (n : Nat) => BitVec.ofNat 16 (n + 1)

/-- The ports the responsiveness check finds, where it checks these. -/
def HostState.responsivenessPorts (checked : List (BitVec 16)) : List (BitVec 16) :=
  (host.scanTcpPorts checked).map (·.1.config.number)

/-- The full scan leaves out the ports that are known. Chunk by chunk it comes
to the same. -/
def HostState.fullScan (checked : List (BitVec 16)) : List (PortType × Bool) :=
  host.scanTcpPorts (tcpPortNumbers.filter fun n => !(host.responsivenessPorts checked).contains n)

/-- What the full scan says of a port, or false. -/
def HostState.useHttpsPorts (checked : List (BitVec 16)) (n : BitVec 16) : Bool :=
  (((host.fullScan checked).find? (·.1.config.number == n)).map (·.2)).getD false

/-- The ports the responsiveness check found are merged with those of the full
scan. -/
def HostState.openTcpPorts (checked : List (BitVec 16)) : List PortType :=
  PortType.sortDedup (addMissing ((host.fullScan checked).map (·.1)) ((host.responsivenessPorts checked).map .newTcp))

/-- The deep scan of a host that was checked for responsiveness on some ports,
or on none. -/
def HostState.deepScan (checked : List (BitVec 16)) : DeepScan :=
  host.scanFurther probeRawSocketPorts (host.openTcpPorts checked) (host.useHttpsPorts checked)

end Scan

/-! ## Two scans of a host -/

section Same

variable [ServiceRegistry] [TextRules] [OuiDatabase]

/-- The host as the services are matched with it. -/
def ScannedHost.scanned (h : ScannedHost) (scan : DeepScan) : ScannedHost :=
  { h with
    baselineParams.allPorts := scan.openPorts
    baselineParams.endpointResponses := scan.endpointResponses }

/-- Two scans that find the same. -/
structure DeepScan.Same (a b : DeepScan) : Prop where
  openPorts : a.openPorts = b.openPorts
  useHttpsPorts : a.useHttpsPorts = b.useHttpsPorts
  probed : a.probed = b.probed
  endpointResponses : a.endpointResponses = b.endpointResponses
  services : ∀ (draws : Draws) (h : ScannedHost),
    discoverServices draws (h.scanned a) = discoverServices draws (h.scanned b)

theorem DeepScan.same_of_eq {a b : DeepScan} (h : a = b) : a.Same b := by
  subst h
  exact ⟨rfl, rfl, rfl, rfl, fun _ _ => rfl⟩

end Same

section Found

variable {host : HostState} {checked : List (BitVec 16)} {n : BitVec 16}

theorem mem_scanTcpPorts {ports : List (BitVec 16)} {p : PortType} {useHttps : Bool} :
    (p, useHttps) ∈ host.scanTcpPorts ports ↔
      p.config.number ∈ ports ∧ p = .newTcp p.config.number ∧ host.connect p.config.number = some useHttps := by
  simp only [HostState.scanTcpPorts, List.mem_filterMap, Option.map_eq_some_iff, Prod.mk.injEq]
  constructor
  · rintro ⟨n, hn, closed, hc, rfl, rfl⟩
    exact ⟨hn, rfl, by rw [PortType.isHttps]; simpa [PortType.newTcp] using hc⟩
  · rintro ⟨hn, hp, hc⟩
    exact ⟨_, hn, useHttps, hc, hp.symm, by simp [PortType.isHttps, PortType.newTcp]⟩

theorem mem_responsivenessPorts :
    n ∈ host.responsivenessPorts checked ↔ n ∈ checked ∧ (host.connect n).isSome := by
  simp only [HostState.responsivenessPorts, List.mem_map, Prod.exists]
  constructor
  · rintro ⟨p, useHttps, hp, rfl⟩
    obtain ⟨hn, -, hc⟩ := mem_scanTcpPorts.mp hp
    exact ⟨hn, by rw [hc]; rfl⟩
  · rintro ⟨hn, hc⟩
    obtain ⟨closed, hc⟩ := Option.isSome_iff_exists.mp hc
    exact ⟨.newTcp n, closed, mem_scanTcpPorts.mpr ⟨hn, rfl, hc⟩, rfl⟩

theorem mem_tcpPortNumbers : n ∈ tcpPortNumbers ↔ n ≠ 0 := by
  simp only [tcpPortNumbers, List.mem_map, List.mem_range]
  constructor
  · rintro ⟨k, hk, rfl⟩ h
    have hzero : (BitVec.ofNat 16 (k + 1)).toNat = 0 := by rw [h]; rfl
    rw [BitVec.toNat_ofNat] at hzero
    omega
  · intro h
    have hpos : n.toNat ≠ 0 := fun h0 => h (BitVec.eq_of_toNat_eq h0)
    have hlt := n.isLt
    refine ⟨n.toNat - 1, by omega, BitVec.eq_of_toNat_eq ?_⟩
    rw [BitVec.toNat_ofNat]
    omega

/-- What the full scan finds. -/
theorem mem_fullScan {p : PortType} {useHttps : Bool} : (p, useHttps) ∈ host.fullScan checked ↔
    p.config.number ∉ checked ∧ p = .newTcp p.config.number ∧ host.connect p.config.number = some useHttps := by
  rw [HostState.fullScan, mem_scanTcpPorts, List.mem_filter, mem_tcpPortNumbers]
  simp only [Bool.not_eq_true', List.contains_eq_mem, decide_eq_false_iff_not, mem_responsivenessPorts]
  constructor
  · rintro ⟨⟨-, hnot⟩, hp, hc⟩
    exact ⟨fun hmem => hnot ⟨hmem, by rw [hc]; rfl⟩, hp, hc⟩
  · rintro ⟨hnot, hp, hc⟩
    refine ⟨⟨fun h0 => ?_, fun h => hnot h.1⟩, hp, hc⟩
    rw [h0, host.connect_zero] at hc
    cases hc

theorem mem_addMissing {ports added : List PortType} {p : PortType} (h : p ∈ addMissing ports added) :
    p ∈ ports ∨ p ∈ added := by
  induction added generalizing ports with
  | nil => exact .inl h
  | cons q added ih =>
    rw [addMissing, List.foldl_cons] at h
    rcases ih h with h | h
    · split at h
      · exact .inl h
      · rcases List.mem_append.mp h with h | h
        · exact .inl h
        · exact .inr (by simp [List.mem_singleton.mp h])
    · exact .inr (List.mem_cons_of_mem _ h)

theorem mem_map_addMissing {ports added : List PortType} {c : PortConfig} :
    c ∈ (addMissing ports added).map (·.config) ↔ c ∈ ports.map (·.config) ∨ c ∈ added.map (·.config) := by
  induction added generalizing ports with
  | nil => simp [addMissing]
  | cons q added ih =>
    rw [addMissing, List.foldl_cons]
    refine ih.trans ?_
    split
    · next hany =>
      obtain ⟨r, hr, heq⟩ := List.any_eq_true.mp hany
      have hconfig : r.config = q.config := by simpa [PortType.eq] using heq
      have hq : c = q.config → c ∈ ports.map (·.config) := by
        rintro rfl
        exact List.mem_map.mpr ⟨r, hr, hconfig⟩
      rw [List.map_cons, List.mem_cons]
      tauto
    · simp only [List.map_append, List.map_cons, List.map_nil, List.mem_append, List.mem_cons, List.not_mem_nil]
      tauto

/-- A port uses HTTPS where the full scan finds that it closes at once. -/
theorem useHttpsPorts_eq (checked : List (BitVec 16)) (n : BitVec 16) :
    host.useHttpsPorts checked n = (decide (n ∉ checked) && (host.connect n).getD false) := by
  rw [HostState.useHttpsPorts]
  cases hfind : (host.fullScan checked).find? (·.1.config.number == n) with
  | some x =>
    obtain ⟨hnot, -, hc⟩ := mem_fullScan.mp (List.mem_of_find?_eq_some hfind)
    have hn : x.1.config.number = n := by simpa using List.find?_some hfind
    rw [hn] at hnot hc
    simp [hnot, hc]
  | none =>
    by_cases hnot : n ∈ checked
    · simp [hnot]
    · cases hc : host.connect n with
      | none => simp
      | some closed =>
        have hmem : (PortType.newTcp n, closed) ∈ host.fullScan checked := mem_fullScan.mpr ⟨hnot, rfl, hc⟩
        have hne := List.find?_eq_none.mp hfind _ hmem
        simp [PortType.newTcp] at hne

/-- The open TCP ports do not depend on what was checked. -/
theorem openTcpPorts_eq (checked other : List (BitVec 16)) :
    host.openTcpPorts checked = host.openTcpPorts other := by
  have hform (checked : List (BitVec 16)) (p : PortType) (hp : p ∈ addMissing ((host.fullScan checked).map (·.1))
      ((host.responsivenessPorts checked).map .newTcp)) : p = { config := p.config } := by
    rcases mem_addMissing hp with hp | hp
    · obtain ⟨x, hx, rfl⟩ := List.mem_map.mp hp
      obtain ⟨-, hx, -⟩ := mem_fullScan.mp hx
      rw [hx]
      rfl
    · obtain ⟨n, -, rfl⟩ := List.mem_map.mp hp
      rfl
  have hkeys (checked : List (BitVec 16)) (c : PortConfig) : c ∈ (addMissing ((host.fullScan checked).map (·.1))
      ((host.responsivenessPorts checked).map .newTcp)).map PortType.config ↔
        c.protocol = .tcp ∧ (host.connect c.number).isSome := by
    rw [mem_map_addMissing]
    constructor
    · rintro (hc | hc)
      · obtain ⟨p, hp, rfl⟩ := List.mem_map.mp hc
        obtain ⟨x, hx, rfl⟩ := List.mem_map.mp hp
        obtain ⟨-, hx, hconnect⟩ := mem_fullScan.mp hx
        exact ⟨by rw [hx]; rfl, by rw [hconnect]; rfl⟩
      · obtain ⟨p, hp, rfl⟩ := List.mem_map.mp hc
        obtain ⟨n, hn, rfl⟩ := List.mem_map.mp hp
        exact ⟨rfl, (mem_responsivenessPorts.mp hn).2⟩
    · rintro ⟨hprotocol, hconnect⟩
      have hc : (PortType.newTcp c.number).config = c := by
        obtain ⟨number, protocol⟩ := c
        subst hprotocol
        rfl
      by_cases hmem : c.number ∈ checked
      · right
        refine List.mem_map.mpr ⟨.newTcp c.number, List.mem_map_of_mem ?_, hc⟩
        exact mem_responsivenessPorts.mpr ⟨hmem, hconnect⟩
      · left
        obtain ⟨closed, hclosed⟩ := Option.isSome_iff_exists.mp hconnect
        have hfound : (PortType.newTcp c.number, closed) ∈ host.fullScan checked :=
          mem_fullScan.mpr ⟨hmem, rfl, hclosed⟩
        exact List.mem_map.mpr ⟨_, List.mem_map_of_mem hfound, hc⟩
  exact Sorting.sortDedup_congr (f := fun c => { config := c }) (hform checked) (hform other)
    fun c => (hkeys checked c).trans (hkeys other c).symm

end Found

theorem useHttpsPorts_scanFurther [ServiceRegistry] (host : HostState) (raw : Bool) (tcpPorts : List PortType)
    (flags : BitVec 16 → Bool) : (host.scanFurther raw tcpPorts flags).useHttpsPorts = flags := rfl

theorem useHttpsPorts_deepScan [ServiceRegistry] (host : HostState) (raw : Bool) (checked : List (BitVec 16))
    (n : BitVec 16) : (host.deepScan raw checked).useHttpsPorts n =
      (decide (n ∉ checked) && (host.connect n).getD false) := by
  rw [HostState.deepScan, useHttpsPorts_scanFurther, useHttpsPorts_eq]

/-- **Two deep scans of a host find the same exactly when no port that one of
them knew before, and the other did not, closes a connection at once.** -/
theorem deepScan_same_iff [ServiceRegistry] [TextRules] [OuiDatabase] (host : HostState) (raw : Bool)
    (checked other : List (BitVec 16)) : (host.deepScan raw checked).Same (host.deepScan raw other) ↔
      ∀ n, (n ∈ checked ↔ n ∉ other) → host.connect n ≠ some true := by
  constructor
  · intro h n hn hclosed
    have hflag := congrFun h.useHttpsPorts n
    rw [useHttpsPorts_deepScan, useHttpsPorts_deepScan, hclosed] at hflag
    by_cases hmem : n ∈ other
    · have hnot : n ∉ checked := fun hc => hn.mp hc hmem
      simp [hmem, hnot] at hflag
    · simp [hmem, hn.mpr hmem] at hflag
  · intro h
    have hflags : host.useHttpsPorts checked = host.useHttpsPorts other := by
      funext n
      rw [useHttpsPorts_eq, useHttpsPorts_eq]
      by_cases hn : n ∈ checked ↔ n ∉ other
      · have hopen := h n hn
        cases hc : host.connect n with
        | none => simp
        | some closed => cases closed with
          | false => simp
          | true => exact absurd hc hopen
      · have hsame : n ∈ checked ↔ n ∈ other := by tauto
        simp [hsame]
    refine DeepScan.same_of_eq ?_
    rw [HostState.deepScan, HostState.deepScan, hflags, openTcpPorts_eq checked other]

/-- A host with a port that waits for TLS. -/
def tlsHost : HostState where
  ip := .v4 0xC0A80105
  connect n := if n = 8006 then some true else none
  connect_zero := by decide

/-- Whether the port uses HTTPS depends on which probe finds it. -/
theorem tlsHost_not_same :
    let _ : ServiceRegistry := ⟨[]⟩
    let _ : TextRules := .ascii
    let _ : OuiDatabase := ⟨none⟩
    ¬(tlsHost.deepScan false [8006]).Same (tlsHost.deepScan false []) := by
  intro _ _ _ h
  have hflag := congrFun h.useHttpsPorts 8006
  rw [useHttpsPorts_deepScan, useHttpsPorts_deepScan] at hflag
  exact absurd hflag (by decide)

end Netvisor
