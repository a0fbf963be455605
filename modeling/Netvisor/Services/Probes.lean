/-
What a pattern compares with, and what is scanned for it.

The ports and endpoints to scan are collected from the leaves outside of
negations. An endpoint with a range of statuses is not collected, and for a
header at a port only the page at the root is, while a response for any path is
looked at.
-/
import Mathlib.Data.Fintype.EquivFin
import Netvisor.Services.PatternSemantics

namespace Netvisor.Pattern

/-! ## Leaves -/

mutual
/-- At any depth. -/
def leaves : Pattern → List Pattern
  | anyOf ps | allOf ps => leavesOf ps
  | .not p => p.leaves
  | p => [p]

def leavesOf : List Pattern → List Pattern
  | [] => []
  | p :: ps => p.leaves ++ leavesOf ps
end

mutual
/-- Those that are below no negation. -/
def positives : Pattern → List Pattern
  | anyOf ps | allOf ps => positivesOf ps
  | .not _ => []
  | p => [p]

def positivesOf : List Pattern → List Pattern
  | [] => []
  | p :: ps => p.positives ++ positivesOf ps
end

mutual
theorem positives_subset : ∀ p : Pattern, p.positives ⊆ p.leaves
  | anyOf ps | allOf ps => positivesOf_subset ps
  | .not _ => List.nil_subset _
  | .port _ | .endpoint .. | .header .. | subnetIsType _ | isGateway | macVendor _ | .custom .. | dockerContainer | .none =>
    List.Subset.refl _

theorem positivesOf_subset : ∀ ps : List Pattern, positivesOf ps ⊆ leavesOf ps
  | [] => List.nil_subset _
  | p :: ps => by
    rw [positivesOf, leavesOf]
    exact List.append_subset.mpr ⟨List.subset_append_of_subset_left _ (positives_subset p),
      List.subset_append_of_subset_right _ (positivesOf_subset ps)⟩
end

mutual
theorem mem_ports {p : PortType} : ∀ T : Pattern, p ∈ T.ports ↔ .port p ∈ T.positives
  | anyOf ps | allOf ps => mem_portsOf ps
  | .port _ | .not _ | .endpoint .. | .header .. | subnetIsType _ | isGateway | macVendor _ | .custom .. | dockerContainer
  | .none => by simp [ports, positives]

theorem mem_portsOf {p : PortType} : ∀ ps : List Pattern, p ∈ portsOf ps ↔ .port p ∈ positivesOf ps
  | [] => by simp [portsOf, positivesOf]
  | p :: ps => by rw [portsOf, positivesOf, List.mem_append, List.mem_append, mem_ports p, mem_portsOf ps]
end

/-- A leaf that has an endpoint scanned. -/
def Scans (leaf : Pattern) (e : Endpoint) : Prop :=
  (∃ p path body, leaf = .endpoint p path body none ∧ e = .forPattern p path) ∨
    ∃ p header value status, leaf = .header p header value status ∧ e = .forPattern (p.getD .http) "/"

mutual
theorem mem_endpoints {e : Endpoint} : ∀ T : Pattern, e ∈ T.endpoints ↔ ∃ leaf ∈ T.positives, leaf.Scans e
  | anyOf ps | allOf ps => mem_endpointsOf ps
  | .endpoint _ _ _ status => by cases status <;> simp [endpoints, positives, Scans]
  | .header p _ _ _ => by cases p <;> simp [endpoints, positives, Scans]
  | .port _ | .not _ | subnetIsType _ | isGateway | macVendor _ | .custom .. | dockerContainer
  | .none => by simp [endpoints, positives, Scans]

theorem mem_endpointsOf {e : Endpoint} :
    ∀ ps : List Pattern, e ∈ endpointsOf ps ↔ ∃ leaf ∈ positivesOf ps, leaf.Scans e
  | [] => by simp [endpointsOf, positivesOf]
  | p :: ps => by
    rw [endpointsOf, positivesOf, List.mem_append, mem_endpoints p, mem_endpointsOf ps]
    simp only [List.mem_append, or_and_right, exists_or]
end

/-- A leaf is not a composite. -/
def Leaf (p : Pattern) : Prop := p.isComposite = false

mutual
theorem leaf_of_mem_leaves : ∀ T : Pattern, ∀ leaf ∈ T.leaves, leaf.Leaf
  | anyOf ps | allOf ps => leaf_of_mem_leavesOf ps
  | .not p => leaf_of_mem_leaves p
  | .port _ | .endpoint .. | .header .. | subnetIsType _ | isGateway | macVendor _ | .custom .. | dockerContainer | .none =>
    fun _ h => List.mem_singleton.mp h ▸ rfl

theorem leaf_of_mem_leavesOf : ∀ ps : List Pattern, ∀ leaf ∈ leavesOf ps, leaf.Leaf
  | [], _, h => by simp [leavesOf] at h
  | p :: ps, leaf, h => by
    rw [leavesOf, List.mem_append] at h
    rcases h with h | h
    · exact leaf_of_mem_leaves p leaf h
    · exact leaf_of_mem_leavesOf ps leaf h
end

/-! ## Observations -/

/-- Two observations of a host that agree on all but the network, and there on what is scanned for the pattern. -/
structure Agree (T : Pattern) (a b : DiscoverySessionServiceMatchParams) : Prop where
  inputs : b = { a with
    baselineParams := { a.baselineParams with
      allPorts := b.baselineParams.allPorts, endpointResponses := b.baselineParams.endpointResponses }
    serviceParams := { a.serviceParams with unboundPorts := b.serviceParams.unboundPorts } }
  ports : ∀ p ∈ T.ports, a.serviceParams.unboundPorts.any p.eq = b.serviceParams.unboundPorts.any p.eq
  responses : ∀ e ∈ T.endpoints, ∀ r, r.endpoint.eq e = true →
    (r ∈ a.baselineParams.endpointResponses ↔ r ∈ b.baselineParams.endpointResponses)

/-- A leaf looks for the port. -/
def comparesWithPort (p : PortType) : Pattern → Bool
  | .port q => q.eq p
  | _ => false

/-- A leaf looks at the responses for the endpoint. -/
def comparesWithEndpoint (e : Endpoint) : Pattern → Bool
  | .endpoint p path _ _ => e.protocol == .http && e.portType.eq p && e.path == path
  | .header p _ _ _ => p.all e.portType.eq
  | _ => false

/-- All that a leaf at any depth compares with is scanned. -/
structure Contained (T : Pattern) : Prop where
  ports : ∀ leaf ∈ T.leaves, ∀ p, leaf.comparesWithPort p = true → ∃ q ∈ T.ports, p.eq q = true
  endpoints : ∀ leaf ∈ T.leaves, ∀ e, leaf.comparesWithEndpoint e = true → ∃ e' ∈ T.endpoints, e.eq e' = true

/-- No custom leaf, and no header at any port. -/
def plain : Pattern → Bool
  | .custom .. | .header none .. => false
  | _ => true

/-- Where a leaf is negated or has a range of statuses, another one has the same scanned. No header is looked for. -/
structure Probed (T : Pattern) : Prop where
  port : ∀ p, .port p ∈ T.leaves → ∃ q, .port q ∈ T.positives ∧ q.config = p.config
  endpoint : ∀ p path body status, .endpoint p path body status ∈ T.leaves →
    ∃ q text, .endpoint q path text none ∈ T.positives ∧ q.config.number = p.config.number
  header : ∀ p header value status, .header p header value status ∉ T.leaves

variable [TextRules] [OuiDatabase] {T : Pattern} {a b : DiscoverySessionServiceMatchParams}

mutual
/-- A pattern reads a host through its leaves. -/
theorem holds_congr : ∀ T : Pattern, (∀ leaf ∈ T.leaves, leaf.holds a = leaf.holds b) → T.holds a = T.holds b
  | anyOf ps, h => (holdsOf_congr ps h).1
  | allOf ps, h => (holdsOf_congr ps h).2
  | .not p, h => congrArg Bool.not (holds_congr p h)
  | .port _, h | .endpoint .., h | .header .., h | subnetIsType _, h | isGateway, h | macVendor _, h | .custom .., h
  | dockerContainer, h | .none, h => h _ (List.mem_singleton_self _)

theorem holdsOf_congr : ∀ ps : List Pattern, (∀ leaf ∈ leavesOf ps, leaf.holds a = leaf.holds b) →
    anyHolds a ps = anyHolds b ps ∧ allHold a ps = allHold b ps
  | [], _ => ⟨rfl, rfl⟩
  | p :: ps, h => by
    have hp : p.holds a = p.holds b := holds_congr p fun leaf hleaf => h leaf (List.mem_append_left _ hleaf)
    obtain ⟨hany, hall⟩ := holdsOf_congr ps fun leaf hleaf => h leaf (List.mem_append_right _ hleaf)
    rw [anyHolds, anyHolds, allHold, allHold, hp, hany, hall]
    exact ⟨rfl, rfl⟩
end

omit [TextRules] [OuiDatabase] in
/-- The responses that a leaf may look at are the same. -/
theorem Agree.any_eq (h : Agree T a b) {reads : EndpointResponse → Bool}
    (hreads : ∀ r, reads r = true → ∃ e ∈ T.endpoints, r.endpoint.eq e = true) :
    a.baselineParams.endpointResponses.any reads = b.baselineParams.endpointResponses.any reads := by
  rw [Bool.eq_iff_iff, List.any_eq_true, List.any_eq_true]
  constructor
  · rintro ⟨r, hr, hread⟩
    obtain ⟨e, he, heq⟩ := hreads r hread
    exact ⟨r, (h.responses e he r heq).mp hr, hread⟩
  · rintro ⟨r, hr, hread⟩
    obtain ⟨e, he, heq⟩ := hreads r hread
    exact ⟨r, (h.responses e he r heq).mpr hr, hread⟩

theorem Probed.holds_leaf (h : Probed T) (hplain : ∀ leaf ∈ T.leaves, leaf.plain = true) (hagree : Agree T a b)
    {leaf : Pattern} (hleaf : leaf ∈ T.leaves) : leaf.holds a = leaf.holds b := by
  have hcomposite := leaf_of_mem_leaves T leaf hleaf
  have hinputs := hagree.inputs
  cases leaf with
  | anyOf | allOf | not => cases hcomposite
  | port p =>
    obtain ⟨q, hq, hconfig⟩ := h.port p hleaf
    have hports := hagree.ports q ((mem_ports T).mpr hq)
    have heq : q.eq = p.eq := by
      funext r
      rw [PortType.eq, PortType.eq, hconfig]
    rwa [heq] at hports
  | endpoint p path body status =>
    refine hagree.any_eq fun r hr => ?_
    obtain ⟨q, text, hq, hnumber⟩ := h.endpoint p path body status hleaf
    refine ⟨.forPattern q path, (mem_endpoints T).mpr ⟨_, hq, .inl ⟨q, path, text, rfl, rfl⟩⟩, ?_⟩
    simp only [respondsWithBody, Endpoint.forPattern, PortType.eq, Bool.and_eq_true, beq_iff_eq] at hr
    obtain ⟨⟨⟨⟨hprotocol, hport⟩, hpath⟩, -⟩, -⟩ := hr
    simp only [Endpoint.eq, Endpoint.forPattern, hprotocol, hport, hpath, hnumber, beq_self_eq_true, Bool.and_self]
  | header p header value status => exact absurd hleaf (h.header p header value status)
  | custom => cases hplain _ hleaf
  | macVendor | isGateway | subnetIsType | dockerContainer => rw [hinputs]; rfl
  | none => rfl

omit [TextRules] [OuiDatabase] in
theorem Contained.probed (h : Contained T) (hplain : ∀ leaf ∈ T.leaves, leaf.plain = true) : Probed T := by
  have hheader (p : Option PortType) (header value : String) (status : Option StatusRange) :
      .header p header value status ∉ T.leaves := by
    intro hleaf
    -- a response for a path that is not scanned
    obtain ⟨path, hpath⟩ := Infinite.exists_notMem_finset (T.endpoints.map Endpoint.path).toFinset
    cases p with
    | none => cases hplain _ hleaf
    | some p =>
      obtain ⟨e, he, heq⟩ := h.endpoints _ hleaf (.forPattern p path)
        (by simp [comparesWithEndpoint, PortType.eq, Endpoint.forPattern])
      simp only [Endpoint.eq, Bool.and_eq_true, beq_iff_eq] at heq
      exact hpath (List.mem_toFinset.mpr (List.mem_map.mpr ⟨e, he, heq.2.symm⟩))
  refine ⟨fun p hleaf => ?_, fun p path body status hleaf => ?_, hheader⟩
  · obtain ⟨q, hq, heq⟩ := h.ports _ hleaf p (by simp [comparesWithPort, PortType.eq])
    exact ⟨q, (mem_ports T).mp hq, (beq_iff_eq.mp heq).symm⟩
  · obtain ⟨e, he, heq⟩ := h.endpoints _ hleaf (.forPattern p path)
      (by simp [comparesWithEndpoint, PortType.eq, Endpoint.forPattern])
    obtain ⟨leaf, hmem, ⟨q, path', text, rfl, rfl⟩ | ⟨q, header, value, status, rfl, rfl⟩⟩ := (mem_endpoints T).mp he
    · simp only [Endpoint.eq, Endpoint.forPattern, Bool.and_eq_true, beq_iff_eq] at heq
      obtain ⟨⟨-, hnumber⟩, rfl⟩ := heq
      exact ⟨q, text, hmem, hnumber.symm⟩
    · exact absurd (positives_subset T hmem) (hheader q header value status)

omit [TextRules] [OuiDatabase] in
theorem Probed.contained (h : Probed T) : Contained T := by
  refine ⟨fun leaf hleaf p hp => ?_, fun leaf hleaf e he => ?_⟩
  · cases leaf with
    | port q =>
      obtain ⟨q', hq', hconfig⟩ := h.port q hleaf
      have hp : q.config = p.config := beq_iff_eq.mp hp
      exact ⟨q', (mem_ports T).mpr hq', beq_iff_eq.mpr (hp.symm.trans hconfig.symm)⟩
    | _ => cases hp
  · cases leaf with
    | endpoint p path body status =>
      obtain ⟨q, text, hq, hnumber⟩ := h.endpoint p path body status hleaf
      refine ⟨.forPattern q path, (mem_endpoints T).mpr ⟨_, hq, .inl ⟨q, path, text, rfl, rfl⟩⟩, ?_⟩
      simp only [comparesWithEndpoint, PortType.eq, Bool.and_eq_true, beq_iff_eq] at he
      obtain ⟨⟨hprotocol, hport⟩, hpath⟩ := he
      simp only [Endpoint.eq, Endpoint.forPattern, hprotocol, hport, hpath, hnumber, beq_self_eq_true, Bool.and_self]
    | header p header value status => exact absurd hleaf (h.header p header value status)
    | _ => cases he

variable [ServiceRegistry]

/-- **What a pattern reads is what is scanned if and only if each leaf has it scanned**: none is negated and none has a
range of statuses without another one for the same port or page, and none looks for a header. -/
theorem reads_scanned_iff_probed (hplain : ∀ leaf ∈ T.leaves, leaf.plain = true) :
    ((∀ a b, Agree T a b → (T.matches a).isOk = (T.matches b).isOk) ∧ Contained T) ↔ Probed T := by
  constructor
  · exact fun h => h.2.probed hplain
  · intro h
    refine ⟨fun a b hagree => ?_, h.contained⟩
    rw [isOk_matches, isOk_matches]
    exact holds_congr T fun leaf hleaf => h.holds_leaf hplain hagree hleaf

omit [TextRules] [OuiDatabase] [ServiceRegistry]

/-- CUPS is recognized by what is scanned for it. -/
theorem cups_reads_scanned :
    let _ := noServices; let _ := TextRules.ascii; let _ := noVendors
    (∀ a b, Agree cups a b → (cups.matches a).isOk = (cups.matches b).isOk) ∧ Contained cups := by
  let _ := noServices
  let _ := TextRules.ascii
  let _ := noVendors
  have hleaves : cups.leaves = [.port ipp, .endpoint .http "/" "CUPS" none] := rfl
  have hpositives : cups.positives = cups.leaves := rfl
  have hplain : ∀ leaf ∈ cups.leaves, leaf.plain = true := by
    rw [hleaves]
    intro leaf hleaf
    cases hleaf with
    | head => rfl
    | tail _ hleaf => exact List.mem_singleton.mp hleaf ▸ rfl
  refine (reads_scanned_iff_probed hplain).mpr ⟨fun p hp => ⟨p, hp, rfl⟩, fun p path body status hp => ?_, ?_⟩
  · rw [hleaves] at hp
    cases hp with
    | tail _ hp =>
      cases hp with
      | head => exact ⟨.http, "CUPS", List.mem_cons_of_mem _ (List.mem_singleton_self _), rfl⟩
      | tail _ hp => cases hp
  · simp [hleaves]

def http9000 : PortType where
  config := { number := 9000, protocol := .tcp }
  isCustom := false

def minio : Pattern := .endpoint http9000 "/minio/health/live" "" (some { first := 200, last := 300 })

/-- A host that answers for the path of the health check. -/
def storageServer : DiscoverySessionServiceMatchParams :=
  { printServer with
    baselineParams := { printServer.baselineParams with
      allPorts := [http9000], endpointResponses := [{ endpoint := .forPattern http9000 "/minio/health/live" }] }
    serviceParams := { unboundPorts := [http9000] } }

/-- The same without the answer. -/
def silentServer : DiscoverySessionServiceMatchParams :=
  { storageServer with
    baselineParams := { storageServer.baselineParams with endpointResponses := [] } }

/-- Nothing is scanned for MinIO, and a response decides it. -/
theorem minio_reads_unscanned :
    let _ := noServices; let _ := TextRules.ascii; let _ := noVendors
    (∀ leaf ∈ minio.leaves, leaf.plain = true) ∧
      ¬ ∀ a b, Agree minio a b → (minio.matches a).isOk = (minio.matches b).isOk := by
  let _ := noServices
  let _ := TextRules.ascii
  let _ := noVendors
  refine ⟨fun leaf hleaf => List.mem_singleton.mp hleaf ▸ rfl, fun h => ?_⟩
  have hagree : Agree minio storageServer silentServer :=
    ⟨rfl, fun _ hp => absurd hp List.not_mem_nil, fun _ he => absurd he List.not_mem_nil⟩
  have hsame := h storageServer silentServer hagree
  rw [isOk_matches, isOk_matches] at hsame
  revert hsame
  decide +kernel

end Netvisor.Pattern
