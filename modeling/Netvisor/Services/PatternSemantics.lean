/-
What patterns mean: a pattern matches if the formula it is holds for what its
leaves say, and the ports of a composite are those of its children that match.

An endpoint or a vendor is evidence of a leaf. Composites collect it and then
leave it out, so it is lost as soon as such a leaf matches below one.
-/
import Netvisor.Services.Patterns

namespace Netvisor.Pattern

variable [ServiceRegistry] [TextRules] [OuiDatabase] (params : DiscoverySessionServiceMatchParams)

/-! ## The formula -/

/-- The vendor of the interface, if it is known. -/
def vendor : Option String :=
  params.baselineParams.interface.base.macAddress.bind fun mac => OuiDatabase.lookup.bind fun lookup => lookup mac

def gatewayIpsInSubnet : List IpAddr := params.gatewayIps.filter params.baselineParams.subnet.base.cidr.contains

mutual
/-- The formula of the tree, with what the leaves say about a host. -/
def holds : Pattern → Bool
  | anyOf ps => anyHolds ps
  | allOf ps => allHold ps
  | .not p => !p.holds
  | .port p => params.serviceParams.unboundPorts.any p.eq
  | .endpoint p path body status => params.baselineParams.endpointResponses.any (respondsWithBody p path body status)
  | .header p header value status =>
    params.baselineParams.endpointResponses.any (respondsWithHeader p header value status)
  | subnetIsType subnetType => params.baselineParams.subnet.base.subnetType == subnetType
  | isGateway =>
    let ip := params.baselineParams.interface.base.ipAddress
    (gatewayIpsInSubnet params).contains ip || (endsLikeGateway ip && (gatewayIpsInSubnet params).isEmpty)
  | macVendor expected => (vendor params).any fun companyName => normalize expected == normalize companyName
  | .custom holds _ _ _ _ => holds params
  | dockerContainer => params.baselineParams.virtualization.isSome
  | .none => false

def anyHolds : List Pattern → Bool
  | [] => false
  | p :: ps => p.holds || anyHolds ps

def allHold : List Pattern → Bool
  | [] => true
  | p :: ps => p.holds && allHold ps
end

omit [ServiceRegistry] in
theorem anyHolds_eq (ps : List Pattern) : anyHolds params ps = ps.any (holds params) := by
  induction ps with
  | nil => rfl
  | cons p ps ih => rw [anyHolds, ih, List.any_cons]

omit [ServiceRegistry] in
theorem allHold_eq (ps : List Pattern) : allHold params ps = ps.all (holds params) := by
  induction ps with
  | nil => rfl
  | cons p ps ih => rw [allHold, ih, List.all_cons]

theorem matchesOf_eq (ps : List Pattern) :
    matchesOf params ps = ps.map («matches» params) := by
  induction ps with
  | nil => rfl
  | cons p ps ih => rw [matchesOf, ih, List.map_cons]

/-! ## What composites collect -/

section Collect

omit [ServiceRegistry] [TextRules] [OuiDatabase]

variable {outcomes : List Outcome}

def Outcome.ports : Outcome → List PortType
  | .ok result => result.ports
  | .error _ => []

/-- What a fold collects that goes on from `c`. -/
theorem foldl_add (c : Collected) :
    (outcomes.foldl Collected.add c).ports = c.ports ++ outcomes.flatMap Outcome.ports ∧
    (outcomes.foldl Collected.add c).anyMatched = (c.anyMatched || outcomes.any Except.isOk) ∧
    (outcomes.foldl Collected.add c).allMatched = (c.allMatched && outcomes.all Except.isOk) := by
  induction outcomes generalizing c with
  | nil => simp
  | cons outcome outcomes ih =>
    obtain ⟨hports, hany, hall⟩ := ih (c.add outcome)
    rw [List.foldl_cons, hports, hany, hall]
    cases outcome with
    | ok result => simp [Collected.add, Outcome.ports, Except.isOk, Except.toBool]
    | error e => simp [Collected.add, Outcome.ports, Except.isOk, Except.toBool]

theorem ports_collect : (collect outcomes).ports = outcomes.flatMap Outcome.ports := (foldl_add {}).1

theorem anyMatched_collect : (collect outcomes).anyMatched = outcomes.any Except.isOk := (foldl_add {}).2.1

theorem allMatched_collect : (collect outcomes).allMatched = outcomes.all Except.isOk := (foldl_add {}).2.2

theorem isOk_matchAnyOf : (matchAnyOf outcomes).isOk = outcomes.any Except.isOk := by
  simp only [matchAnyOf, anyMatched_collect]
  cases outcomes.any Except.isOk <;> rfl

theorem isOk_matchAllOf : (matchAllOf outcomes).isOk = outcomes.all Except.isOk := by
  simp only [matchAllOf, allMatched_collect]
  cases outcomes.all Except.isOk <;> rfl

/-- The ports of what matched, and no other evidence. -/
def Outcome.Unites (outcomes : List Outcome) (outcome : Outcome) : Prop :=
  ∀ result, outcome = .ok result →
    result.ports = PortType.sortDedup (outcomes.flatMap Outcome.ports) ∧ result.endpoint = none ∧
      result.macVendor = none

theorem unites_matchAnyOf : Outcome.Unites outcomes (matchAnyOf outcomes) := by
  intro result h
  simp only [matchAnyOf] at h
  split at h
  · cases h
    exact ⟨congrArg PortType.sortDedup ports_collect, rfl, rfl⟩
  · cases h

theorem unites_matchAllOf : Outcome.Unites outcomes (matchAllOf outcomes) := by
  intro result h
  simp only [matchAllOf] at h
  split at h
  · cases h
    exact ⟨congrArg PortType.sortDedup ports_collect, rfl, rfl⟩
  · cases h

theorem isOk_matchNot {outcome : Outcome} : (matchNot outcome).isOk = !outcome.isOk := by
  cases outcome <;> rfl

end Collect

/-! ## Truth -/

omit [TextRules] [OuiDatabase] in
theorem isOk_matchPort (p : PortType) : (matchPort params p).isOk = params.serviceParams.unboundPorts.any p.eq := by
  rw [← List.isSome_find?]
  cases hfind : params.serviceParams.unboundPorts.find? p.eq with
  | none => simp only [matchPort, hfind, Option.isSome_none]; rfl
  | some matchedPort =>
    simp only [matchPort, hfind, Option.isSome_some]
    split <;> rfl

omit [ServiceRegistry] [OuiDatabase] in
theorem isOk_matchEndpoint (p : PortType) (path body : String) (status : Option StatusRange) :
    (matchEndpoint params p path body status).isOk =
      params.baselineParams.endpointResponses.any (respondsWithBody p path body status) := by
  rw [matchEndpoint, ← List.isSome_find?]
  cases params.baselineParams.endpointResponses.find? (respondsWithBody p path body status) <;> rfl

omit [ServiceRegistry] [OuiDatabase] in
theorem isOk_matchHeader (p : Option PortType) (header value : String) (status : Option StatusRange) :
    (matchHeader params p header value status).isOk =
      params.baselineParams.endpointResponses.any (respondsWithHeader p header value status) := by
  rw [matchHeader, ← List.isSome_find?]
  cases params.baselineParams.endpointResponses.find? (respondsWithHeader p header value status) <;> rfl

omit [ServiceRegistry] in
theorem isOk_matchMacVendor (expected : String) : (matchMacVendor params expected).isOk =
    (vendor params).any fun companyName => normalize expected == normalize companyName := by
  rw [matchMacVendor, vendor]
  cases params.baselineParams.interface.base.macAddress with
  | none => rfl
  | some mac =>
    cases OuiDatabase.lookup with
    | none => rfl
    | some lookup =>
      simp only [Option.bind_some]
      cases lookup mac with
      | none => rfl
      | some companyName =>
        simp only [Option.any_some]
        cases normalize expected == normalize companyName <;> rfl

omit [ServiceRegistry] in
theorem isOk_matchIsGateway : (matchIsGateway params).isOk = isGateway.holds params := by
  have hempty : (gatewayIpsInSubnet params).isEmpty = ((gatewayIpsInSubnet params).length == 0) := by
    cases gatewayIpsInSubnet params <;> rfl
  simp only [holds, hempty]
  simp only [matchIsGateway, gatewayIpsInSubnet]
  split
  · next h => rw [h]; rfl
  · next h =>
    rw [Bool.not_eq_true] at h
    rw [h, Bool.false_or]
    split
    · next hlike => rw [hlike]; rfl
    · next hlike => rw [Bool.not_eq_true] at hlike; rw [hlike]; rfl

mutual
theorem isOk_matches : ∀ p : Pattern, (p.matches params).isOk = p.holds params
  | anyOf ps => by rw [«matches», isOk_matchAnyOf, holds, any_isOk_matches ps, anyHolds_eq]
  | allOf ps => by rw [«matches», isOk_matchAllOf, holds, all_isOk_matches ps, allHold_eq]
  | .not p => by rw [«matches», isOk_matchNot, holds, isOk_matches p]
  | .port p => isOk_matchPort params p
  | .endpoint p path body status => isOk_matchEndpoint params p path body status
  | .header p header value status => isOk_matchHeader params p header value status
  | macVendor expected => isOk_matchMacVendor params expected
  | isGateway => isOk_matchIsGateway params
  | subnetIsType subnetType => by
    rw [«matches», matchSubnetIsType, holds]
    cases params.baselineParams.subnet.base.subnetType == subnetType <;> rfl
  | .custom constraint _ _ _ _ => by
    rw [«matches», holds]
    cases constraint params <;> rfl
  | dockerContainer => by
    rw [«matches», matchDockerContainer, holds]
    cases params.baselineParams.virtualization <;> rfl
  | .none => rfl

theorem any_isOk_matches : ∀ ps : List Pattern, (matchesOf params ps).any Except.isOk = ps.any (holds params)
  | [] => rfl
  | p :: ps => by rw [matchesOf, List.any_cons, List.any_cons, isOk_matches p, any_isOk_matches ps]

theorem all_isOk_matches : ∀ ps : List Pattern, (matchesOf params ps).all Except.isOk = ps.all (holds params)
  | [] => rfl
  | p :: ps => by rw [matchesOf, List.all_cons, List.all_cons, isOk_matches p, all_isOk_matches ps]
end

/-! ## Evidence -/

/-- The parts of a composite. -/
def children : Pattern → List Pattern
  | anyOf ps | allOf ps => ps
  | .not p => [p]
  | _ => []

def isComposite : Pattern → Bool
  | anyOf _ | allOf _ | .not _ => true
  | _ => false

/-- A leaf whose match is evidenced by a response or a vendor. -/
def evidenced : Pattern → Bool
  | .endpoint .. | .header .. | macVendor _ => true
  | _ => false

/-- What a pattern is to return for its tree. -/
structure Faithful (p : Pattern) : Prop where
  truth : (p.matches params).isOk = p.holds params
  /-- The ports of a composite increase by number and protocol. -/
  sorted : ∀ result, p.matches params = .ok result → p.isComposite = true →
    result.ports.Pairwise fun a b => a.config < b.config
  union : ∀ result, p.matches params = .ok result → p.isComposite = true → ∀ config,
    config ∈ result.ports.map PortType.config ↔
      ∃ child ∈ p.children, ∃ r, child.matches params = .ok r ∧ config ∈ r.ports.map PortType.config
  endpoint : ∀ result, p.matches params = .ok result → ∀ child ∈ p.children, ∀ r, child.matches params = .ok r →
    r.endpoint.isSome = true → result.endpoint.isSome = true
  macVendor : ∀ result, p.matches params = .ok result → ∀ child ∈ p.children, ∀ r, child.matches params = .ok r →
    r.macVendor.isSome = true → result.macVendor.isSome = true

/-- Where the formula of a composite holds, it has none through a leaf with evidence. -/
def Unevidenced (p : Pattern) : Prop :=
  p.holds params = true → ∀ child ∈ p.children, child.holds params = true → child.evidenced = false

variable {params} {p : Pattern} {result : MatchResult}

theorem holds_of_ok (h : p.matches params = .ok result) : p.holds params = true := by
  rw [← isOk_matches, h]
  rfl

theorem ok_of_holds (h : p.holds params = true) : ∃ result, p.matches params = .ok result := by
  rw [← isOk_matches] at h
  cases hmatches : p.matches params with
  | ok result => exact ⟨result, rfl⟩
  | error e =>
    rw [hmatches] at h
    cases h

/-- A match has other evidence than ports if and only if it is that of such a leaf. -/
theorem evidence_iff (h : p.matches params = .ok result) :
    (result.endpoint.isSome = true ∨ result.macVendor.isSome = true) ↔ p.evidenced = true := by
  cases p with
  | anyOf ps =>
    obtain ⟨-, hendpoint, hvendor⟩ := unites_matchAnyOf result h
    simp [hendpoint, hvendor, evidenced]
  | allOf ps =>
    obtain ⟨-, hendpoint, hvendor⟩ := unites_matchAllOf result h
    simp [hendpoint, hvendor, evidenced]
  | not p =>
    rw [«matches»] at h
    cases hmatches : p.matches params with
    | ok r => rw [hmatches] at h; cases h
    | error e =>
      rw [hmatches] at h
      cases h
      simp [matched, evidenced]
  | port p =>
    rw [«matches», matchPort] at h
    split at h
    · split at h <;> cases h <;> simp [matched, evidenced]
    · cases h
  | endpoint p path body status =>
    rw [«matches», matchEndpoint] at h
    split at h
    · cases h
      simp [responded, evidenced]
    · cases h
  | header p header value status =>
    rw [«matches», matchHeader] at h
    split at h
    · cases h
      simp [responded, evidenced]
    · cases h
  | subnetIsType subnetType =>
    simp only [«matches», matchSubnetIsType] at h
    split at h
    · cases h
      simp [matched, evidenced]
    · cases h
  | isGateway =>
    simp only [«matches», matchIsGateway] at h
    split at h
    · cases h
      simp [matched, evidenced]
    · split at h
      · cases h
        simp [matched, evidenced]
      · cases h
  | macVendor vendor =>
    rw [«matches», matchMacVendor] at h
    split at h
    · cases h
    · cases h
    · split at h
      · cases h
      · split at h
        · cases h
          simp [evidenced]
        · cases h
  | custom holds ports reason noMatchReason confidence =>
    rw [«matches»] at h
    split at h
    · cases h
      simp [matched, evidenced]
    · cases h
  | dockerContainer =>
    rw [«matches», matchDockerContainer] at h
    split at h
    · cases h
      simp [matched, evidenced]
    · cases h
  | none => cases h

omit [ServiceRegistry] [TextRules] [OuiDatabase] in
theorem mem_flatMap_ports {outcomes : List Outcome} {config : PortConfig} :
    config ∈ (outcomes.flatMap Outcome.ports).map PortType.config ↔
      ∃ r, Except.ok r ∈ outcomes ∧ config ∈ r.ports.map PortType.config := by
  simp only [List.map_flatMap, List.mem_flatMap]
  constructor
  · rintro ⟨outcome, hmem, hconfig⟩
    cases outcome with
    | ok r => exact ⟨r, hmem, hconfig⟩
    | error e => simp [Outcome.ports] at hconfig
  · rintro ⟨r, hmem, hconfig⟩
    exact ⟨.ok r, hmem, hconfig⟩

/-- What a composite returns of its children. -/
theorem unites (h : p.matches params = .ok result) (hcomposite : p.isComposite = true) :
    result.ports = PortType.sortDedup ((p.children.map («matches» params)).flatMap Outcome.ports) ∧
      result.endpoint = none ∧ result.macVendor = none := by
  cases p with
  | anyOf ps => exact matchesOf_eq params ps ▸ unites_matchAnyOf result h
  | allOf ps => exact matchesOf_eq params ps ▸ unites_matchAllOf result h
  | not p =>
    rw [«matches»] at h
    cases hmatches : p.matches params with
    | ok r => rw [hmatches] at h; cases h
    | error e =>
      rw [hmatches] at h
      cases h
      simp only [children, List.map_cons, hmatches, List.map_nil]
      exact ⟨rfl, rfl, rfl⟩
  | _ => cases hcomposite

variable (params p) in
/-- **A pattern is faithful to its tree if and only if it loses no evidence**: no leaf with an endpoint or a vendor matches
directly below it where it is a composite that matches. -/
theorem faithful_iff_unevidenced : Faithful params p ↔ Unevidenced params p := by
  constructor
  · intro h hholds child hchild hchildHolds
    obtain ⟨result, hresult⟩ := ok_of_holds hholds
    obtain ⟨r, hr⟩ := ok_of_holds hchildHolds
    have hcomposite : p.isComposite = true := by
      cases p <;> first | rfl | cases hchild
    obtain ⟨-, hendpoint, hvendor⟩ := unites hresult hcomposite
    rw [Bool.eq_false_iff]
    intro hevidenced
    rcases (evidence_iff hr).mpr hevidenced with hsome | hsome
    · have := h.endpoint result hresult child hchild r hr hsome
      rw [hendpoint] at this
      cases this
    · have := h.macVendor result hresult child hchild r hr hsome
      rw [hvendor] at this
      cases this
  · intro h
    have hnone (result : MatchResult) (hresult : p.matches params = .ok result) (child : Pattern)
      (hchild : child ∈ p.children)
        (r : MatchResult) (hr : child.matches params = .ok r) :
        ¬ (r.endpoint.isSome = true ∨ r.macVendor.isSome = true) := by
      rw [evidence_iff hr, h (holds_of_ok hresult) child hchild (holds_of_ok hr)]
      exact Bool.false_ne_true
    refine ⟨isOk_matches params p, fun result hresult hcomposite => ?_,
      fun result hresult hcomposite config => ?_, ?_, ?_⟩
    · rw [(unites hresult hcomposite).1]
      exact Sorting.pairwise_sortDedup
    · rw [(unites hresult hcomposite).1, PortType.sortDedup, Sorting.mem_map_sortDedup, mem_flatMap_ports]
      simp only [List.mem_map]
      constructor
      · rintro ⟨r, ⟨child, hchild, hr⟩, hconfig⟩
        exact ⟨child, hchild, r, hr, hconfig⟩
      · rintro ⟨child, hchild, r, hr, hconfig⟩
        exact ⟨r, ⟨child, hchild, hr⟩, hconfig⟩
    · exact fun result hresult child hchild r hr hsome => absurd (.inl hsome) (hnone result hresult child hchild r hr)
    · exact fun result hresult child hchild r hr hsome => absurd (.inr hsome) (hnone result hresult child hchild r hr)

/-! ## A print server -/

section PrintServer

omit [ServiceRegistry] [TextRules] [OuiDatabase]

@[reducible] def noServices : ServiceRegistry where
  all := []

@[reducible] def noVendors : OuiDatabase where
  lookup := none

def ipp : PortType where
  config := { number := 631, protocol := .tcp }
  isCustom := false

def cups : Pattern := allOf [.port ipp, .endpoint .http "/" "CUPS" none]

def printServer : DiscoverySessionServiceMatchParams where
  discoveryType := .network none .ip { defaultCredential := none, ipOverrides := [] } false
  baselineParams :=
    { subnet := { base := { cidr := { address := .v4 0xC0A80000, networkLength := 24 }, networkId := Uuid.nil } }
      interface := { base := { ipAddress := .v4 0xC0A80014 } }
      allPorts := [.http, ipp]
      endpointResponses := [{ endpoint := .forPattern .http "/", body := "Home - CUPS 2.4" }] }
  serviceParams := { unboundPorts := [.http, ipp] }

/-- The server is recognized by its page, and the match does not say so. -/
theorem cups_loses_its_endpoint :
    let _ := noServices; let _ := TextRules.ascii; let _ := noVendors
    ¬ Faithful printServer cups := by
  let _ := noServices
  let _ := TextRules.ascii
  let _ := noVendors
  show ¬ Faithful printServer cups
  intro h
  obtain ⟨result, hresult⟩ : ∃ result, cups.matches printServer = .ok result := ok_of_holds (by decide +kernel)
  obtain ⟨r, hr⟩ : ∃ r, (Pattern.endpoint .http "/" "CUPS" none).matches printServer = .ok r :=
    ok_of_holds (by decide +kernel)
  have hsome : r.endpoint.isSome = true := by
    rw [«matches», matchEndpoint] at hr
    split at hr
    · cases hr
      rfl
    · cases hr
  have hkept := h.endpoint result hresult _ (List.mem_of_getElem? (i := 1) rfl) r hr hsome
  rw [(unites hresult rfl).2.1] at hkept
  cases hkept

end PrintServer

end Netvisor.Pattern
