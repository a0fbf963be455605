/-
The ports of the services that are found on a host.

A port that a pattern looks for itself, and one that a catch-all takes, is still
open. A response counts as evidence whoever has bound the port it came from, so
two services that are recognized at one port both bind it.
-/
import Netvisor.Lib.Transition
import Netvisor.Services.Discovery
import Netvisor.Services.Probes

namespace Netvisor

namespace Pattern

variable [TextRules] [OuiDatabase] (params : DiscoverySessionServiceMatchParams)

/-! ## Evidence of a match -/

mutual
/-- The responses that a pattern that matches is recognized by. -/
def evidence : Pattern → List EndpointResponse
  | anyOf ps => if anyHolds params ps then evidenceOf ps else []
  | allOf ps => if allHold params ps then evidenceOf ps else []
  | .endpoint p path body status =>
    (params.baselineParams.endpointResponses.find? (respondsWithBody p path body status)).toList
  | .header p header value status =>
    (params.baselineParams.endpointResponses.find? (respondsWithHeader p header value status)).toList
  | _ => []

def evidenceOf : List Pattern → List EndpointResponse
  | [] => []
  | p :: ps => p.evidence ++ evidenceOf ps
end

mutual
theorem evidence_subset : ∀ T : Pattern, T.evidence params ⊆ params.baselineParams.endpointResponses
  | anyOf ps | allOf ps => by
    rw [evidence]
    split
    · exact evidenceOf_subset ps
    · exact List.nil_subset _
  | .endpoint .. | .header .. => fun _ hr => List.mem_of_find?_eq_some (Option.mem_toList.mp hr)
  | .port _ | .not _ | subnetIsType _ | isGateway | macVendor _ | .custom .. | dockerContainer | .none =>
    List.nil_subset _

theorem evidenceOf_subset : ∀ ps : List Pattern, evidenceOf params ps ⊆ params.baselineParams.endpointResponses
  | [] => List.nil_subset _
  | p :: ps => by
    rw [evidenceOf]
    exact List.append_subset.mpr ⟨evidence_subset p, evidenceOf_subset ps⟩
end

/-- A custom leaf takes ports that are open to it. -/
def Prudent : Pattern → Prop
  | .custom _ ports _ _ _ => ∀ params, (ports params).Sublist params.serviceParams.unboundPorts
  | _ => True

def configs (ports : List PortType) : List PortConfig := ports.map PortType.config

/-- The ports are those of the responses, and others only if they are open. -/
structure Evidenced (ports : List PortType) (responses : List EndpointResponse) : Prop where
  open_or_evidence : ∀ config ∈ configs ports, config ∈ configs params.serviceParams.unboundPorts ∨
    ∃ r ∈ responses, r.endpoint.portType.config = config
  evidence : ∀ r ∈ responses, r.endpoint.portType.config ∈ configs ports

variable {params}

section

omit [TextRules] [OuiDatabase]

theorem Evidenced.of_subset {ports : List PortType} (h : ports ⊆ params.serviceParams.unboundPorts) :
    Evidenced params ports [] where
  open_or_evidence _ hconfig := .inl (List.map_subset _ h hconfig)
  evidence _ hr := by cases hr

theorem Evidenced.nil : Evidenced params [] [] := .of_subset (List.nil_subset _)

theorem Evidenced.response (r : EndpointResponse) : Evidenced params [r.endpoint.portType] [r] where
  open_or_evidence config hconfig := .inr ⟨r, List.mem_singleton_self r, (List.mem_singleton.mp hconfig).symm⟩
  evidence r' hr' := by
    rw [List.mem_singleton.mp hr']
    exact List.mem_singleton_self _

theorem Evidenced.append {ports ports' : List PortType} {responses responses' : List EndpointResponse}
    (h : Evidenced params ports responses) (h' : Evidenced params ports' responses') :
    Evidenced params (ports ++ ports') (responses ++ responses') where
  open_or_evidence config hconfig := by
    rw [configs, List.map_append, List.mem_append] at hconfig
    rcases hconfig with hconfig | hconfig
    · exact (h.open_or_evidence config hconfig).imp_right fun ⟨r, hr, heq⟩ => ⟨r, List.mem_append_left _ hr, heq⟩
    · exact (h'.open_or_evidence config hconfig).imp_right fun ⟨r, hr, heq⟩ => ⟨r, List.mem_append_right _ hr, heq⟩
  evidence r hr := by
    rw [configs, List.map_append, List.mem_append]
    exact (List.mem_append.mp hr).imp (h.evidence r) (h'.evidence r)

/-- A composite that matches has the evidence of its parts. -/
theorem Evidenced.composite {outcomes : List Outcome} {outcome : Outcome} {responses : List EndpointResponse}
    {holds : Bool}
    (h : Evidenced params (outcomes.flatMap Outcome.ports) responses) (hunites : outcome.Unites outcomes)
    (hholds : outcome.isOk = holds) : Evidenced params outcome.ports (if holds then responses else []) := by
  cases outcome with
  | error e =>
    cases hholds
    exact .nil
  | ok result =>
    cases hholds
    have hports (config : PortConfig) :
        config ∈ configs result.ports ↔ config ∈ configs (outcomes.flatMap Outcome.ports) := by
      rw [(hunites result rfl).1]
      exact Sorting.mem_map_sortDedup
    exact ⟨fun config hconfig => h.open_or_evidence config ((hports config).mp hconfig),
      fun r hr => (hports _).mpr (h.evidence r hr)⟩

end

variable [ServiceRegistry] (params)

mutual
/-- The ports of a match are those of its evidence, and others only if they are open. -/
theorem evidenced_matches :
    ∀ T : Pattern, (∀ leaf ∈ T.leaves, leaf.Prudent) → Evidenced params (T.matches params).ports (T.evidence params)
  | anyOf ps, h => by
    have hholds : (matchAnyOf (matchesOf params ps)).isOk = anyHolds params ps := isOk_matches params (anyOf ps)
    exact (evidenced_matchesOf ps h).composite unites_matchAnyOf hholds
  | allOf ps, h => by
    have hholds : (matchAllOf (matchesOf params ps)).isOk = allHold params ps := isOk_matches params (allOf ps)
    exact (evidenced_matchesOf ps h).composite unites_matchAllOf hholds
  | .not p, _ => by
    simp only [«matches», evidence]
    cases p.matches params <;> exact .nil
  | .port p, _ => by
    simp only [«matches», evidence]
    cases hfind : params.serviceParams.unboundPorts.find? p.eq with
    | none =>
      simp only [matchPort, hfind]
      exact .nil
    | some matchedPort =>
      have hopen : [matchedPort] ⊆ params.serviceParams.unboundPorts := by
        simpa using List.mem_of_find?_eq_some hfind
      simp only [matchPort, hfind]
      split <;> exact .of_subset hopen
  | .endpoint p path body status, _ => by
    rw [«matches», evidence, matchEndpoint]
    cases params.baselineParams.endpointResponses.find? (respondsWithBody p path body status) with
    | none => exact .nil
    | some r => exact .response r
  | .header p header value status, _ => by
    rw [«matches», evidence, matchHeader]
    cases params.baselineParams.endpointResponses.find? (respondsWithHeader p header value status) with
    | none => exact .nil
    | some r => exact .response r
  | .custom holds ports _ _ _, h => by
    have hprudent : (ports params).Sublist params.serviceParams.unboundPorts := h _ (List.mem_singleton_self _) params
    simp only [«matches», evidence]
    split
    · exact .of_subset hprudent.subset
    · exact .nil
  | subnetIsType subnetType, _ => by
    simp only [«matches», evidence, matchSubnetIsType]
    split <;> exact .nil
  | isGateway, _ => by
    simp only [«matches», evidence, matchIsGateway]
    split
    · exact .nil
    · split <;> exact .nil
  | macVendor vendor, _ => by
    simp only [«matches», evidence, matchMacVendor]
    split
    · exact .nil
    · exact .nil
    · split
      · exact .nil
      · split <;> exact .nil
  | dockerContainer, _ => by
    simp only [«matches», evidence, matchDockerContainer]
    split <;> exact .nil
  | .none, _ => .nil

theorem evidenced_matchesOf : ∀ ps : List Pattern, (∀ leaf ∈ leavesOf ps, leaf.Prudent) →
    Evidenced params ((matchesOf params ps).flatMap Outcome.ports) (evidenceOf params ps)
  | [], _ => .nil
  | p :: ps, h =>
    have hp := evidenced_matches p fun leaf hleaf => h leaf (List.mem_append_left _ hleaf)
    have hps := evidenced_matchesOf ps fun leaf hleaf => h leaf (List.mem_append_right _ hleaf)
    hp.append hps
end

omit [ServiceRegistry] [TextRules] [OuiDatabase] in
theorem nodup_of_unites {outcomes : List Outcome} {outcome : Outcome} (h : outcome.Unites outcomes) :
    (configs outcome.ports).Nodup := by
  cases outcome with
  | error e => exact List.nodup_nil
  | ok result =>
    show (configs result.ports).Nodup
    rw [(h result rfl).1]
    exact Sorting.nodup_sortDedup

/-- No port twice, where none is open twice. -/
theorem nodup_ports (T : Pattern) (hprudent : ∀ leaf ∈ T.leaves, leaf.Prudent)
    (hopen : (configs params.serviceParams.unboundPorts).Nodup) : (configs (T.matches params).ports).Nodup := by
  cases T with
  | anyOf ps => exact nodup_of_unites unites_matchAnyOf
  | allOf ps => exact nodup_of_unites unites_matchAllOf
  | not p =>
    simp only [«matches»]
    cases p.matches params <;> exact List.nodup_nil
  | port p =>
    cases hfind : params.serviceParams.unboundPorts.find? p.eq with
    | none =>
      simp only [«matches», matchPort, hfind]
      exact List.nodup_nil
    | some matchedPort =>
      simp only [«matches», matchPort, hfind]
      split <;> exact List.nodup_singleton _
  | endpoint p path body status =>
    rw [«matches», matchEndpoint]
    cases params.baselineParams.endpointResponses.find? (respondsWithBody p path body status) with
    | none => exact List.nodup_nil
    | some r => exact List.nodup_singleton _
  | header p header value status =>
    rw [«matches», matchHeader]
    cases params.baselineParams.endpointResponses.find? (respondsWithHeader p header value status) with
    | none => exact List.nodup_nil
    | some r => exact List.nodup_singleton _
  | custom holds ports _ _ _ =>
    have hsublist : (ports params).Sublist params.serviceParams.unboundPorts :=
      hprudent _ (List.mem_singleton_self _) params
    simp only [«matches»]
    split
    · exact hopen.sublist (hsublist.map _)
    · exact List.nodup_nil
  | subnetIsType subnetType =>
    simp only [«matches», matchSubnetIsType]
    split <;> exact List.nodup_nil
  | isGateway =>
    simp only [«matches», matchIsGateway]
    split
    · exact List.nodup_nil
    · split <;> exact List.nodup_nil
  | macVendor vendor =>
    simp only [«matches», matchMacVendor]
    split
    · exact List.nodup_nil
    · exact List.nodup_nil
    · split
      · exact List.nodup_nil
      · split <;> exact List.nodup_nil
  | dockerContainer =>
    simp only [«matches», matchDockerContainer]
    split <;> exact List.nodup_nil
  | none => exact List.nodup_nil

end Pattern

/-! ## One definition -/

def portConfigs (ports : List Port) : List PortConfig := ports.map fun p => p.base.portType

variable {draws : Draws}

theorem portConfigs_newHostlessAll (n : Nat) (portTypes : List PortType) :
    portConfigs (Port.newHostlessAll draws n portTypes) = Pattern.configs portTypes := by
  induction portTypes generalizing n with
  | nil => rfl
  | cons p portTypes ih =>
    have hrest := ih (n + 1)
    simp only [portConfigs, Port.newHostlessAll, Pattern.configs, List.mapIdx_cons, List.map_cons] at hrest ⊢
    rw [← hrest]
    simp only [Nat.add_assoc, Nat.add_comm 1]
    rfl

theorem ids_newHostlessAll (n : Nat) (portTypes : List PortType) :
    (Port.newHostlessAll draws n portTypes).map Port.id = (List.range' n portTypes.length).map draws.newV4 := by
  induction portTypes generalizing n with
  | nil => rfl
  | cons p portTypes ih =>
    have hrest := ih (n + 1)
    simp only [Port.newHostlessAll, List.mapIdx_cons, List.map_cons, List.length_cons, List.range'_succ] at hrest ⊢
    rw [← hrest]
    simp only [Nat.add_assoc, Nat.add_comm 1]
    rfl

@[simp] theorem length_newHostlessAll (n : Nat) (portTypes : List PortType) :
    (Port.newHostlessAll draws n portTypes).length = portTypes.length := List.length_mapIdx

theorem filterMap_portId_mapIdx {bind : Nat → Port → Binding} (hbind : ∀ i p, (bind i p).portId = some p.id)
    (ports : List Port) :
    (ports.mapIdx bind).filterMap Binding.portId = ports.map Port.id := by
  induction ports generalizing bind with
  | nil => rfl
  | cons p ports ih =>
    rw [List.mapIdx_cons, List.filterMap_cons_some (hbind 0 p), List.map_cons, ih fun i p => hbind (i + 1) p]

variable [ServiceRegistry] [TextRules] [OuiDatabase]

/-- A service that is found has the ports of the match, and is bound to them. -/
theorem fromDiscovery_eq_some {n : Nat} {s : RegisteredService} {params : DiscoverySessionServiceMatchParams}
    {service : Service} {ports : List Port} {endpoint : Option Endpoint}
    (h : Service.fromDiscovery draws n s params = some (service, ports, endpoint)) :
    ports = Port.newHostlessAll draws n (s.pattern.matches params).ports ∧ service.portIds = ports.map Port.id := by
  rw [Service.fromDiscovery] at h
  cases hmatches : s.pattern.matches params with
  | error e =>
    rw [hmatches] at h
    cases h
  | ok result =>
    simp only [hmatches, Option.some.injEq, Prod.mk.injEq] at h
    obtain ⟨rfl, rfl, -⟩ := h
    refine ⟨rfl, ?_⟩
    simp only [Service.portIds, Service.new]
    cases hports : result.ports with
    | nil => rfl
    | cons p portTypes =>
      rw [List.isEmpty_cons, if_neg Bool.false_ne_true]
      exact filterMap_portId_mapIdx (fun _ _ => rfl) _

/-- A definition is found where its pattern matches. -/
theorem exists_fromDiscovery (draws : Draws) {n : Nat} {s : RegisteredService}
    {params : DiscoverySessionServiceMatchParams}
    (h : (s.pattern.matches params).isOk = true) : ∃ found, Service.fromDiscovery draws n s params = some found := by
  rw [Service.fromDiscovery]
  cases hmatches : s.pattern.matches params with
  | ok result => exact ⟨_, rfl⟩
  | error e =>
    rw [hmatches] at h
    cases h

/-! ## A step -/

variable {h : ScannedHost} {f : Findings} {s : RegisteredService}

/-- What trying a definition does. -/
theorem tryDefinition_cases (draws : Draws) (h : ScannedHost) (f : Findings) (s : RegisteredService) :
    (h.tryDefinition draws f s = f ∧ (f.containerMatched = false → (s.pattern.matches (h.params f s)).isOk = false)) ∨
    (f.containerMatched = false ∧ ∃ service, h.tryDefinition draws f s =
        f.add service (Port.newHostlessAll draws f.drawn (s.pattern.matches (h.params f s)).ports) ∧
      service.portIds = (Port.newHostlessAll draws f.drawn
          (s.pattern.matches (h.params f s)).ports).map Port.id) := by
  rw [ScannedHost.tryDefinition]
  cases hfound : Service.fromDiscovery draws f.drawn s (h.params f s) with
  | none =>
    refine .inl ⟨rfl, fun _ => Bool.eq_false_iff.mpr fun hok => ?_⟩
    obtain ⟨found, hsome⟩ := exists_fromDiscovery draws (n := f.drawn) hok
    rw [hsome] at hfound
    cases hfound
  | some found =>
    obtain ⟨service, ports, endpoint⟩ := found
    obtain ⟨rfl, hbound⟩ := fromDiscovery_eq_some hfound
    cases hmatched : f.containerMatched with
    | true => exact .inl ⟨rfl, fun hfalse => by cases hfalse⟩
    | false => exact .inr ⟨rfl, service, rfl, hbound⟩

/-! ## Whose ports are whose -/

/-- The ports of the host are those of its services, one after another, under ids of their own. -/
structure Booked (draws : Draws) (f : Findings) (booked : List (Service × List Port)) : Prop where
  services : f.services = booked.map Prod.fst
  hostPorts : f.hostPorts = booked.flatMap Prod.snd
  bound : ∀ b ∈ booked, b.1.portIds = b.2.map Port.id
  drawn : ∃ indices : List Nat, indices.Nodup ∧ (∀ i ∈ indices, i < f.drawn) ∧
    f.hostPorts.map Port.id = indices.map draws.newV4

theorem Booked.tryDefinition {booked : List (Service × List Port)} (hbooked : Booked draws f booked) (h : ScannedHost)
    (s : RegisteredService) : ∃ booked, Booked draws (h.tryDefinition draws f s) booked := by
  rcases tryDefinition_cases draws h f s with ⟨heq, -⟩ | ⟨-, service, heq, hbound⟩
  · exact ⟨booked, heq.symm ▸ hbooked⟩
  · rw [heq]
    generalize (s.pattern.matches (h.params f s)).ports = portTypes at hbound
    refine ⟨booked ++ [(service, Port.newHostlessAll draws f.drawn portTypes)], ?_, ?_, ?_, ?_⟩
    · rw [List.map_append, ← hbooked.services]
      rfl
    · rw [List.flatMap_append, ← hbooked.hostPorts, List.flatMap_singleton]
      rfl
    · intro b hb
      rcases List.mem_append.mp hb with hb | hb
      · exact hbooked.bound b hb
      · rw [List.mem_singleton.mp hb]
        exact hbound
    · obtain ⟨indices, hnodup, hlt, hids⟩ := hbooked.drawn
      refine ⟨indices ++ List.range' f.drawn portTypes.length, ?_, ?_, ?_⟩
      · refine List.nodup_append'.mpr ⟨hnodup, List.nodup_range' .., fun i hi hi' => ?_⟩
        have := hlt i hi
        rw [List.mem_range'_1] at hi'
        omega
      · intro i hi
        rw [List.mem_append, List.mem_range'_1] at hi
        simp only [Findings.add, length_newHostlessAll]
        rcases hi with hi | hi
        · have := hlt i hi
          omega
        · omega
      · rw [Findings.add, List.map_append, List.map_append, hids, ids_newHostlessAll]

theorem Booked.foldl {booked : List (Service × List Port)} (hbooked : Booked draws f booked) (h : ScannedHost) :
    ∀ definitions : List RegisteredService, ∃ booked,
        Booked draws (definitions.foldl (h.tryDefinition draws) f) booked := by
  intro definitions
  induction definitions generalizing f booked with
  | nil => exact ⟨booked, hbooked⟩
  | cons s definitions ih =>
    obtain ⟨booked', hbooked'⟩ := hbooked.tryDefinition h s
    exact ih hbooked'

theorem booked_tryAll (draws : Draws) (h : ScannedHost) : ∃ booked, Booked draws (h.tryAll draws) booked := by
  have hnone : Booked draws h.findings [] :=
    ⟨rfl, rfl, fun _ hb => absurd hb List.not_mem_nil, [], List.nodup_nil,
      fun _ hi => absurd hi List.not_mem_nil, rfl⟩
  exact hnone.foldl h sortedServiceDefinitions

/-! ## Each port once -/

/-- The open ports are bound by a service or left, one or the other. -/
def Apportioned (h : ScannedHost) (f : Findings) : Prop :=
  (portConfigs f.hostPorts ++ Pattern.configs f.unboundPorts).Perm (Pattern.configs h.baselineParams.allPorts)

/-- What the definition is recognized by has come from ports that are not bound yet. -/
def Unclaimed (h : ScannedHost) (f : Findings) (s : RegisteredService) : Prop :=
  f.containerMatched = false →
    ∀ r ∈ s.pattern.evidence (h.params f s), r.endpoint.portType.config ∈ Pattern.configs f.unboundPorts

omit [ServiceRegistry] [TextRules] [OuiDatabase] in
/-- Ports that are taken off the open ones are added to the bound ones. -/
theorem perm_append_filter {bound taken left : List PortConfig} (hleft : left.Nodup) (htaken : taken.Nodup)
    (hsub : taken ⊆ left) :
    ((bound ++ taken) ++ left.filter fun c => !taken.contains c).Perm (bound ++ left) := by
  have hsame : taken.Perm (left.filter fun c => taken.contains c) := by
    refine (List.perm_ext_iff_of_nodup htaken (hleft.filter _)).mpr fun c => ?_
    rw [List.mem_filter, List.contains_iff_mem]
    exact ⟨fun hc => ⟨hsub hc, hc⟩, And.right⟩
  rw [List.append_assoc]
  exact ((hsame.append_right _).trans (List.filter_append_perm _ left)).append_left bound

omit [ServiceRegistry] [TextRules] [OuiDatabase] in
theorem configs_filter (types : List PortType) (taken : List PortConfig) :
    Pattern.configs (types.filter fun p => !taken.contains p.config) =
      (Pattern.configs types).filter fun c => !taken.contains c := by
  rw [Pattern.configs, Pattern.configs, List.filter_map]
  rfl

instance : Decidable (Unclaimed h f s) := inferInstanceAs (Decidable (_ → _))

/-- What is given about the host: its open ports are different, and its responses come from them. -/
structure Scannable (h : ScannedHost) : Prop where
  distinct : (Pattern.configs h.baselineParams.allPorts).Nodup
  responses : ∀ r ∈ h.baselineParams.endpointResponses,
    r.endpoint.portType.config ∈ Pattern.configs h.baselineParams.allPorts

def Prudent (s : RegisteredService) : Prop := ∀ leaf ∈ s.pattern.leaves, leaf.Prudent

theorem Apportioned.tryDefinition (happortioned : Apportioned h f) (hscannable : Scannable h) (hprudent : Prudent s)
    (hunclaimed : Unclaimed h f s) : Apportioned h (h.tryDefinition draws f s) := by
  rcases tryDefinition_cases draws h f s with ⟨heq, -⟩ | ⟨hcontainer, service, heq, -⟩
  · rwa [heq]
  · have hnodup := happortioned.nodup_iff.mpr hscannable.distinct
    have hleft := hnodup.of_append_right
    have htaken := Pattern.nodup_ports (h.params f s) s.pattern hprudent hleft
    have hsub : Pattern.configs (s.pattern.matches (h.params f s)).ports ⊆ Pattern.configs f.unboundPorts := by
      intro config hconfig
      rcases (Pattern.evidenced_matches (h.params f s) s.pattern hprudent).open_or_evidence config hconfig with
        hopen | ⟨r, hr, rfl⟩
      · exact hopen
      · exact hunclaimed hcontainer r hr
    rw [heq]
    simp only [Apportioned, Findings.add, configs_filter]
    show (portConfigs (f.hostPorts ++ _) ++ _).Perm _
    rw [portConfigs, List.map_append]
    show ((portConfigs f.hostPorts ++ portConfigs _) ++ List.filter (fun c => !(portConfigs _).contains c) _).Perm _
    rw [portConfigs_newHostlessAll]
    exact (perm_append_filter hleft htaken hsub).trans happortioned

theorem unclaimed_of_nodup (happortioned : Apportioned h f) (hscannable : Scannable h) (hprudent : Prudent s)
    (hnodup : (portConfigs (h.tryDefinition draws f s).hostPorts).Nodup) : Unclaimed h f s := by
  intro hcontainer r hr
  have hmem := (Pattern.evidenced_matches (h.params f s) s.pattern hprudent).evidence r hr
  rcases tryDefinition_cases draws h f s with ⟨-, herror⟩ | ⟨-, service, heq, -⟩
  · have hok := herror hcontainer
    cases hmatches : s.pattern.matches (h.params f s) with
    | ok result =>
      rw [hmatches] at hok
      cases hok
    | error e =>
      rw [hmatches] at hmem
      cases hmem
  · rw [heq, Findings.add, portConfigs, List.map_append] at hnodup
    have hbound : r.endpoint.portType.config ∉ portConfigs f.hostPorts := by
      intro hbound
      refine List.disjoint_of_nodup_append hnodup hbound ?_
      show _ ∈ portConfigs _
      rwa [portConfigs_newHostlessAll]
    have hresponse := hscannable.responses r (Pattern.evidence_subset _ _ hr)
    exact (List.mem_append.mp (happortioned.mem_iff.mpr hresponse)).resolve_left hbound

/-! ## All definitions -/

/-- The ports of the host are its open ports, and those a service is bound to are its own. -/
structure BindsOnce (openPorts : List PortType) (found : List Service × List Port) : Prop where
  ports : (portConfigs found.2).Perm (Pattern.configs openPorts)
  bindings : ∀ s ∈ found.1, ∀ id ∈ s.portIds, ∃ p ∈ found.2, p.id = id
  exclusive : found.1.Pairwise fun s t => ∀ p ∈ found.2, ∀ q ∈ found.2, p.id ∈ s.portIds → q.id ∈ t.portIds →
    p.base.portType ≠ q.base.portType

/-- The UUIDs that are drawn for a host. -/
def ScannedHost.drawn (h : ScannedHost) (draws : Draws) : List Uuid :=
  (List.range ((h.tryAll draws).drawn + (h.tryAll draws).unboundPorts.length)).map draws.newV4

/-- Every definition is tried while it is unclaimed what it is recognized by. -/
def AllUnclaimed (draws : Draws) (h : ScannedHost) : Prop :=
  Transition.Along (fun f s => some (h.tryDefinition draws f s)) (Unclaimed h) h.findings sortedServiceDefinitions

instance : Decidable (AllUnclaimed draws h) := inferInstanceAs (Decidable (Transition.Along ..))

theorem hostPorts_prefix_foldl (h : ScannedHost) (definitions : List RegisteredService) :
    f.hostPorts <+: (definitions.foldl (h.tryDefinition draws) f).hostPorts := by
  induction definitions generalizing f with
  | nil => exact List.prefix_refl _
  | cons s definitions ih =>
    have hstep : f.hostPorts <+: (h.tryDefinition draws f s).hostPorts := by
      rcases tryDefinition_cases draws h f s with ⟨heq, -⟩ | ⟨-, service, heq, -⟩
      · rw [heq]
      · rw [heq]
        exact List.prefix_append _ _
    exact hstep.trans ih

theorem Apportioned.foldl (hscannable : Scannable h) {definitions : List RegisteredService}
    (happortioned : Apportioned h f)
    (hprudent : ∀ s ∈ definitions, Prudent s)
    (hrun : Transition.Along (fun f s => some (h.tryDefinition draws f s)) (Unclaimed h) f definitions) :
    Apportioned h (definitions.foldl (h.tryDefinition draws) f) := by
  induction definitions generalizing f with
  | nil => exact happortioned
  | cons s definitions ih =>
    obtain ⟨hunclaimed, hrest⟩ := Transition.every_cons.mp hrun _ rfl
    have hs := hprudent s List.mem_cons_self
    exact ih (happortioned.tryDefinition hscannable hs hunclaimed)
      (fun s' hs' => hprudent s' (List.mem_cons_of_mem _ hs')) hrest

/-- If no port is bound twice in the end, nothing has been claimed on the way. -/
theorem Apportioned.along (hscannable : Scannable h) {definitions : List RegisteredService}
    (happortioned : Apportioned h f)
    (hprudent : ∀ s ∈ definitions, Prudent s)
    (hnodup : (portConfigs (definitions.foldl (h.tryDefinition draws) f).hostPorts).Nodup) :
    Transition.Along (fun f s => some (h.tryDefinition draws f s)) (Unclaimed h) f definitions := by
  induction definitions generalizing f with
  | nil => trivial
  | cons s definitions ih =>
    refine Transition.every_cons.mpr fun t ht => ?_
    cases ht
    have hs := hprudent s List.mem_cons_self
    have hnext : (portConfigs (h.tryDefinition draws f s).hostPorts).Nodup :=
      hnodup.sublist ((hostPorts_prefix_foldl h definitions).sublist.map _)
    have hunclaimed := unclaimed_of_nodup happortioned hscannable hs hnext
    exact ⟨hunclaimed, ih (happortioned.tryDefinition hscannable hs hunclaimed)
      (fun s' hs' => hprudent s' (List.mem_cons_of_mem _ hs')) hnodup⟩

omit [ServiceRegistry] [TextRules] [OuiDatabase] in
theorem apportioned_findings (h : ScannedHost) : Apportioned h h.findings := List.Perm.refl _

omit [ServiceRegistry] [TextRules] [OuiDatabase] in
/-- The ports of two services are different ones. -/
theorem Booked.exclusive {booked : List (Service × List Port)} (hbooked : Booked draws f booked) {ports : List Port}
    (hinit : f.hostPorts <+: ports) (hids : (ports.map Port.id).Nodup) (hnodup : (portConfigs ports).Nodup) :
    f.services.Pairwise fun s t => ∀ p ∈ ports, ∀ q ∈ ports, p.id ∈ s.portIds → q.id ∈ t.portIds →
      p.base.portType ≠ q.base.portType := by
  have hown {b : Service × List Port} (hb : b ∈ booked) {p : Port} (hp : p ∈ ports) (hbound : p.id ∈ b.1.portIds) :
      p ∈ b.2 := by
    rw [hbooked.bound b hb] at hbound
    obtain ⟨p', hp', heq⟩ := List.mem_map.mp hbound
    have hp'_ports : p' ∈ ports := hinit.subset (hbooked.hostPorts ▸ List.mem_flatMap.mpr ⟨b, hb, hp'⟩)
    rwa [← List.inj_on_of_nodup_map hids hp'_ports hp heq]
  have hdisjoint : booked.Pairwise fun b c => List.Disjoint (portConfigs b.2) (portConfigs c.2) := by
    have hhost := hnodup.sublist (hinit.sublist.map _)
    rw [hbooked.hostPorts, List.map_flatMap] at hhost
    exact (List.nodup_flatMap.mp hhost).2
  rw [hbooked.services, List.pairwise_map]
  refine hdisjoint.imp_of_mem fun hb hc hbc p hp q hq hs ht heq => ?_
  exact hbc (List.mem_map_of_mem (hown hb hp hs)) (heq ▸ List.mem_map_of_mem (hown hc hq ht))

theorem portConfigs_found : portConfigs (discoverServices draws h).2 =
    portConfigs (h.tryAll draws).hostPorts ++ Pattern.configs (h.tryAll draws).unboundPorts := by
  rw [discoverServices, portConfigs, List.map_append]
  exact congrArg _ (portConfigs_newHostlessAll ..)

/-- The ports are created under different ids. -/
theorem nodup_ids_found (hdraws : (h.drawn draws).Nodup) : ((discoverServices draws h).2.map Port.id).Nodup := by
  obtain ⟨booked, hbooked⟩ := booked_tryAll draws h
  obtain ⟨indices, hnodup, hlt, hids⟩ := hbooked.drawn
  rw [discoverServices, List.map_append, hids, ids_newHostlessAll, ← List.map_append]
  refine List.Nodup.map_on (fun i hi j hj heq => ?_)
    (List.nodup_append'.mpr ⟨hnodup, List.nodup_range' .., fun i hi hi' => ?_⟩)
  · have hrange {i : Nat}
      (hi : i ∈ indices ++ List.range' (h.tryAll draws).drawn (h.tryAll draws).unboundPorts.length) :
        i ∈ List.range ((h.tryAll draws).drawn + (h.tryAll draws).unboundPorts.length) := by
      rw [List.mem_range]
      rcases List.mem_append.mp hi with hi | hi
      · have := hlt i hi
        omega
      · rw [List.mem_range'_1] at hi
        omega
    exact List.inj_on_of_nodup_map hdraws (hrange hi) (hrange hj) heq
  · have := hlt i hi
    rw [List.mem_range'_1] at hi'
    omega

/-- **The services of a host bind each port once if and only if each is recognized by responses from ports that no service
before it has bound.** -/
theorem bindsOnce_iff_allUnclaimed (hscannable : Scannable h) (hregistry : ∀ s ∈ ServiceRegistry.all, Prudent s)
    (hdraws : (h.drawn draws).Nodup) :
    BindsOnce h.baselineParams.allPorts (discoverServices draws h) ↔ AllUnclaimed draws h := by
  have hprudent : ∀ s ∈ sortedServiceDefinitions, Prudent s := fun s hs =>
    hregistry s ((List.perm_insertionSort _ _).mem_iff.mp hs)
  constructor
  · intro hbinds
    have hnodup : (portConfigs (discoverServices draws h).2).Nodup := hbinds.ports.nodup_iff.mpr hscannable.distinct
    rw [portConfigs_found] at hnodup
    exact (apportioned_findings h).along hscannable hprudent hnodup.of_append_left
  · intro hrun
    have happortioned : Apportioned h (h.tryAll draws) := (apportioned_findings h).foldl hscannable hprudent hrun
    have hports : (portConfigs (discoverServices draws h).2).Perm (Pattern.configs h.baselineParams.allPorts) := by
      rw [portConfigs_found]
      exact happortioned
    obtain ⟨booked, hbooked⟩ := booked_tryAll draws h
    have hsorted : (discoverServices draws h).1.Perm (h.tryAll draws).services := List.perm_insertionSort _ _
    have hinit : (h.tryAll draws).hostPorts <+: (discoverServices draws h).2 := List.prefix_append _ _
    refine ⟨hports, fun s hs id hid => ?_, ?_⟩
    · rw [hsorted.mem_iff, hbooked.services, List.mem_map] at hs
      obtain ⟨b, hb, rfl⟩ := hs
      rw [hbooked.bound b hb, List.mem_map] at hid
      obtain ⟨p, hp, heq⟩ := hid
      exact ⟨p, hinit.subset (hbooked.hostPorts ▸ List.mem_flatMap.mpr ⟨b, hb, hp⟩), heq⟩
    · have hexclusive := hbooked.exclusive hinit (nodup_ids_found hdraws) (hports.nodup_iff.mpr hscannable.distinct)
      exact (hsorted.symm.pairwise_iff fun hst p hp q hq hs ht heq => hst q hq p hp ht hs heq.symm).mp hexclusive

/-! ## A blog -/

section Blog

omit [ServiceRegistry] [TextRules] [OuiDatabase]

def grafana : RegisteredService where
  definition := { id := "Grafana" }
  pattern := .endpoint .http "/" "grafana.com" none
  hasLogo := true

def wordPress : RegisteredService where
  definition := { id := "WordPress" }
  pattern := .endpoint .http "/" "wp-content" none
  hasLogo := true

def openPorts : RegisteredService where
  definition := { id := "Unclaimed Open Ports", isGeneric := true, isOpenPorts := true }
  pattern := .custom (fun params => !params.serviceParams.unboundPorts.isEmpty)
    (fun params => params.serviceParams.unboundPorts)
    "Has unbound open ports" "No unbound ports remaining" .notApplicable

@[reducible] def blogServices : ServiceRegistry where
  all := [grafana, wordPress, openPorts]

def ssh : PortType where
  config := { number := 22, protocol := .tcp }
  isCustom := false

/-- A blog, with what its page says. -/
def blog (body : String) : ScannedHost where
  host := { id := 1 }
  baselineParams :=
    { Pattern.printServer.baselineParams with
      allPorts := [.http, ssh]
      endpointResponses := [{ endpoint := .forPattern .http "/", body }] }
  discoveryType := .network none .ip {} false

def counting : Draws where
  newV4 n := BitVec.ofNat 128 (n + 1)
  now _ := 0

theorem scannable_blog (body : String) : Scannable (blog body) where
  distinct := by
    show [PortType.http.config, ssh.config].Nodup
    decide
  responses r hr := by
    rw [List.mem_singleton.mp hr]
    exact List.mem_cons_self

theorem prudent_blogServices : ∀ s ∈ blogServices.all, Prudent s := by
  intro s hs leaf hleaf
  have hs : s ∈ [grafana, wordPress, openPorts] := hs
  simp only [List.mem_cons, List.not_mem_nil, or_false] at hs
  rcases hs with rfl | rfl | rfl <;> rw [List.mem_singleton.mp hleaf]
  · trivial
  · trivial
  · exact fun _ => List.Sublist.refl _

/-- A page that only shows a blog. -/
theorem blog_binds_once :
    let _ := blogServices; let _ := TextRules.ascii; let _ := Pattern.noVendors
    let h := blog "/wp-content/themes"
    BindsOnce h.baselineParams.allPorts (discoverServices counting h) := by
  let _ := blogServices
  let _ := TextRules.ascii
  let _ := Pattern.noVendors
  have hdraws : ((blog "/wp-content/themes").drawn counting).Nodup := by decide +kernel
  have hunclaimed : AllUnclaimed counting (blog "/wp-content/themes") := by decide +kernel
  exact (bindsOnce_iff_allUnclaimed (scannable_blog "/wp-content/themes") prudent_blogServices hdraws).mpr hunclaimed

/-- A blog with a link to another service is both, at one port. -/
theorem linking_blog_binds_twice :
    let _ := blogServices; let _ := TextRules.ascii; let _ := Pattern.noVendors
    let h := blog "/wp-content/themes https://grafana.com"
    Scannable h ∧ (∀ s ∈ ServiceRegistry.all, Prudent s) ∧ (h.drawn counting).Nodup ∧
      ¬ BindsOnce h.baselineParams.allPorts (discoverServices counting h) := by
  let _ := blogServices
  let _ := TextRules.ascii
  let _ := Pattern.noVendors
  have hscannable := scannable_blog "/wp-content/themes https://grafana.com"
  have hdraws : ((blog "/wp-content/themes https://grafana.com").drawn counting).Nodup := by decide +kernel
  refine ⟨hscannable, prudent_blogServices, hdraws, fun hbinds => ?_⟩
  have hnodup : (portConfigs (discoverServices counting (blog "/wp-content/themes https://grafana.com")).2).Nodup :=
    hbinds.ports.nodup_iff.mpr hscannable.distinct
  have htwice : ¬ (portConfigs
      (discoverServices counting (blog "/wp-content/themes https://grafana.com")).2).Nodup := by
    decide +kernel
  exact htwice hnodup

end Blog

end Netvisor
