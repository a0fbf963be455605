/-
What is sent about the containers that Docker runs.

The host of a container on a bridge is the one found at an interface, with every
service listening where the container's ports are reached. Containers and
summaries are put together by their places, which goes wrong from the first
container on that is listed without an id.
-/
import Netvisor.Daemon.ContainerBindings
import Netvisor.Services.DiscoveredPorts

namespace Netvisor.Docker

variable {draws : Draws} {interfaces : List Interface}

/-! ## The host at the interface -/

section Host

variable [ServiceRegistry] [TextRules] [OuiDatabase]

/-- What is found of a definition is bound at the interface, under ids of its own. -/
theorem bindings_fromDiscovery {n : Nat} {s : RegisteredService} {params : DiscoverySessionServiceMatchParams}
    {service : Service} {ports : List Port} {endpoint : Option Endpoint}
    (h : Service.fromDiscovery draws n s params = some (service, ports, endpoint)) :
    (∀ b ∈ service.base.bindings, b.interfaceId = some params.baselineParams.interface.id) ∧
    service.base.bindings.map Binding.id =
      (List.range' (n + ports.length) service.base.bindings.length).map draws.newV4 := by
  rw [Service.fromDiscovery] at h
  cases hmatches : s.pattern.matches params with
  | error e =>
    rw [hmatches] at h
    cases h
  | ok result =>
    simp only [hmatches, Option.some.injEq, Prod.mk.injEq] at h
    obtain ⟨rfl, rfl, -⟩ := h
    simp only [Service.new]
    split
    · next hempty =>
      rw [List.isEmpty_iff.mp hempty]
      refine ⟨fun b hb => ?_, rfl⟩
      rw [List.mem_singleton.mp hb]
      rfl
    · refine ⟨fun b hb => ?_, ?_⟩
      · obtain ⟨k, hk, rfl⟩ := List.mem_mapIdx.mp hb
        rfl
      · refine List.ext_getElem (by simp) fun k hk hk' => ?_
        simp [Binding.newServiceless]

/-- What the services found so far are bound to, and where the open ports are. -/
structure Recorded (draws : Draws) (h : ScannedHost) (f : Findings) : Prop where
  atInterface : ∀ s ∈ f.services, ∀ b ∈ s.base.bindings, b.interfaceId = some h.baselineParams.interface.id
  drawn : ∀ s ∈ f.services, ∃ indices : List Nat, indices.Nodup ∧ (∀ k ∈ indices, k < f.drawn) ∧
    s.base.bindings.map Binding.id = indices.map draws.newV4
  ports : ∀ t ∈ h.baselineParams.allPorts, t ∈ f.unboundPorts ∨ ∃ p ∈ f.hostPorts, p.base.portType = t.config

theorem Recorded.tryDefinition {h : ScannedHost} {f : Findings} (hrecorded : Recorded draws h f)
    (s : RegisteredService) : Recorded draws h (h.tryDefinition draws f s) := by
  rw [ScannedHost.tryDefinition]
  cases hfound : Service.fromDiscovery draws f.drawn s (h.params f s) with
  | none => exact hrecorded
  | some found =>
    obtain ⟨service, ports, endpoint⟩ := found
    obtain ⟨hat, hids⟩ := bindings_fromDiscovery hfound
    cases hmatched : f.containerMatched with
    | true => exact hrecorded
    | false =>
      change Recorded draws h (f.add service ports)
      refine ⟨fun s' hs' => ?_, fun s' hs' => ?_, fun t ht => ?_⟩
      · rcases List.mem_append.mp hs' with hs' | hs'
        · exact hrecorded.atInterface s' hs'
        · rw [List.mem_singleton.mp hs']
          exact hat
      · rcases List.mem_append.mp hs' with hs' | hs'
        · obtain ⟨indices, hnodup, hlt, hindices⟩ := hrecorded.drawn s' hs'
          exact ⟨indices, hnodup, fun k hk => Nat.lt_succ_of_lt (Nat.lt_add_right _ (Nat.lt_add_right _ (hlt k hk))),
            hindices⟩
        · rw [List.mem_singleton.mp hs']
          exact ⟨_, List.nodup_range' .., fun k hk => Nat.lt_succ_of_lt (List.mem_range'_1.mp hk).2, hids⟩
      · rcases hrecorded.ports t ht with hunbound | ⟨p, hp, hconfig⟩
        · by_cases hbound : t.config ∈ ports.map fun p => p.base.portType
          · obtain ⟨p, hp, hconfig⟩ := List.mem_map.mp hbound
            exact .inr ⟨p, List.mem_append_right _ hp, hconfig⟩
          · refine .inl (List.mem_filter.mpr ⟨hunbound, ?_⟩)
            rw [Bool.not_eq_true', List.contains_eq_mem, decide_eq_false_iff_not]
            exact hbound
        · exact .inr ⟨p, List.mem_append_left _ hp, hconfig⟩

theorem recorded_tryAll (h : ScannedHost) :
    Recorded draws h (h.tryAll draws) := by
  have hfold (definitions : List RegisteredService) (f : Findings) (hf : Recorded draws h f) :
      Recorded draws h (definitions.foldl (h.tryDefinition draws) f) := by
    induction definitions generalizing f with
    | nil => exact hf
    | cons s definitions ih => exact ih _ (hf.tryDefinition s)
  exact hfold _ _ ⟨fun _ hs => (by cases hs), fun _ hs => (by cases hs), fun t ht => .inl ht⟩

/-- What is found at an interface is wired there, and the open ports are among the ports. -/
theorem wired_processHost (session : ScanSession) (params : ServiceMatchBaselineParams) (hostname : Option String)
    (hdraws : Distinct draws (session.drawn draws params hostname)) (hinterface : params.interface ∈ interfaces) :
    Wired draws interfaces
      { bindings := [], ports := (processHost draws session params hostname).ports
        drawn := session.drawn draws params hostname } ∧
    (∀ t ∈ params.allPorts, ∃ p ∈ (processHost draws session params hostname).ports, p.base.portType = t.config) ∧
    ∀ s ∈ (processHost draws session params hostname).services,
      Wired draws interfaces
        { bindings := s.base.bindings, ports := (processHost draws session params hostname).ports
          drawn := session.drawn draws params hostname } ∧
      ∀ b ∈ s.base.bindings, b.interfaceId = some params.interface.id := by
  have hrecorded : Recorded draws _ ((session.scanned params hostname).tryAll draws) := recorded_tryAll _
  obtain ⟨booked, hbooked⟩ := booked_tryAll draws (session.scanned params hostname)
  have hnodup : ((processHost draws session params hostname).ports.map Port.id).Nodup :=
    nodup_ids_found hdraws
  have hports : Wired draws interfaces
      { bindings := [], ports := (processHost draws session params hostname).ports
        drawn := session.drawn draws params hostname } := by
    refine ⟨fun p hp q hq heq => List.inj_on_of_nodup_map hnodup hp hq heq, fun _ hb => (by cases hb),
      fun _ hb => (by cases hb), List.nodup_nil, fun p hp => ?_, fun _ hb => (by cases hb)⟩
    rcases List.mem_append.mp hp with hp | hp
    · obtain ⟨indices, -, hlt, hids⟩ := hbooked.drawn
      have hmem := List.mem_map_of_mem (f := Port.id) hp
      rw [hids, List.mem_map] at hmem
      obtain ⟨k, hk, heq⟩ := hmem
      exact ⟨k, Nat.lt_add_right _ (hlt k hk), heq.symm⟩
    · have hmem := List.mem_map_of_mem (f := Port.id) hp
      rw [ids_newHostlessAll, List.mem_map] at hmem
      obtain ⟨k, hk, heq⟩ := hmem
      rw [List.mem_range'_1] at hk
      exact ⟨k, hk.2, heq.symm⟩
  refine ⟨hports, fun t ht => ?_, fun s hs => ?_⟩
  · rcases hrecorded.ports t ht with hunbound | ⟨p, hp, hconfig⟩
    · have hmem : t.config ∈ portConfigs (Port.newHostlessAll draws
          ((session.scanned params hostname).tryAll draws).drawn
          ((session.scanned params hostname).tryAll draws).unboundPorts) := by
        rw [portConfigs_newHostlessAll]
        exact List.mem_map_of_mem hunbound
      obtain ⟨p, hp, hconfig⟩ := List.mem_map.mp hmem
      exact ⟨p, List.mem_append_right _ hp, hconfig⟩
    · exact ⟨p, List.mem_append_left _ hp, hconfig⟩
  · have hs : s ∈ ((session.scanned params hostname).tryAll draws).services :=
      (List.perm_insertionSort _ _).mem_iff.mp hs
    refine ⟨⟨hports.functional, fun b hb id hid => ?_, fun b hb => ⟨_, hinterface, hrecorded.atInterface s hs b hb⟩,
      ?_, hports.drawnPorts, fun b hb => ?_⟩, hrecorded.atInterface s hs⟩
    · rw [hbooked.services, List.mem_map] at hs
      obtain ⟨booking, hbooking, rfl⟩ := hs
      have hmem : id ∈ booking.1.portIds := List.mem_filterMap.mpr ⟨b, hb, hid⟩
      rw [hbooked.bound _ hbooking, List.mem_map] at hmem
      obtain ⟨p, hp, heq⟩ := hmem
      refine ⟨p, List.mem_append_left _ ?_, heq⟩
      rw [hbooked.hostPorts]
      exact List.mem_flatMap.mpr ⟨booking, hbooking, hp⟩
    · obtain ⟨indices, hnodup, hlt, hindices⟩ := hrecorded.drawn s hs
      change (s.base.bindings.map Binding.id).Nodup
      rw [hindices]
      exact List.Nodup.map_on (fun i hi j hj => hdraws.inj (Nat.lt_add_right _ (hlt i hi))
        (Nat.lt_add_right _ (hlt j hj))) hnodup
    · obtain ⟨indices, -, hlt, hindices⟩ := hrecorded.drawn s hs
      have hmem := List.mem_map_of_mem (f := Binding.id) hb
      rw [hindices, List.mem_map] at hmem
      obtain ⟨k, hk, heq⟩ := hmem
      exact ⟨k, Nat.lt_add_right _ (hlt k hk), heq.symm⟩

end Host

/-! ## Ports and interfaces of a container -/

/-- The container has the port, of a transport protocol that services are found at. -/
def Exposes (summary : ContainerSummary) (p : PortSummary) (portType : BitVec 16 → PortType) : Prop :=
  p ∈ summary.ports.getD [] ∧ p.typ.bind portTypeOf = some portType

theorem mem_pushAt {κ ν : Type} [DecidableEq κ] {m : Assoc κ (List ν)} {k k' : κ} {v v' : ν} :
    v' ∈ (pushAt m k v).getD k' [] ↔ v' ∈ m.getD k' [] ∨ k' = k ∧ v' = v := by
  rw [pushAt, Assoc.getD_insert]
  split
  · next heq => simp [heq]
  · next hne => simp [hne]

theorem mem_foldl_pushAt {κ ν : Type} [DecidableEq κ] {m : Assoc κ (List ν)} {ks : List κ} {k' : κ} {v v' : ν} :
    v' ∈ (ks.foldl (fun m k => pushAt m k v) m).getD k' [] ↔ v' ∈ m.getD k' [] ∨ k' ∈ ks ∧ v' = v := by
  induction ks generalizing m with
  | nil => simp
  | cons k ks ih =>
    rw [List.foldl_cons, ih, mem_pushAt, List.mem_cons]
    tauto

/-- What one more port adds at an address of the container. -/
theorem mem_containerPorts_add {containerIps : List IpAddr} {m : ContainerPorts} {p : PortSummary} {ip : IpAddr}
    {t : PortType} :
    t ∈ (ContainerPorts.add containerIps m p).containerIpsToContainerPorts.getD ip [] ↔
      t ∈ m.containerIpsToContainerPorts.getD ip [] ∨
        ip ∈ containerIps ∧ ∃ portType, p.typ.bind portTypeOf = some portType ∧ t = portType p.privatePort := by
  rw [ContainerPorts.add]
  cases htyp : p.typ.bind portTypeOf with
  | none => simp
  | some portType =>
    have hfold : t ∈ (containerIps.foldl (fun m k => pushAt m k (portType p.privatePort))
          m.containerIpsToContainerPorts).getD ip [] ↔
        t ∈ m.containerIpsToContainerPorts.getD ip [] ∨ ip ∈ containerIps ∧ t = portType p.privatePort :=
      mem_foldl_pushAt
    cases PortSummary.published p with
    | none => simpa using hfold
    | some place => simpa using hfold

/-- What one more port adds at an address of the host. -/
theorem mem_hostPorts_add {containerIps : List IpAddr} {m : ContainerPorts} {p : PortSummary} {ip : IpAddr}
    {t : PortType} :
    t ∈ (ContainerPorts.add containerIps m p).hostIpToHostPorts.getD ip [] ↔
      t ∈ m.hostIpToHostPorts.getD ip [] ∨ ∃ portType, p.typ.bind portTypeOf = some portType ∧
        ∃ publicPort, PortSummary.published p = some (ip, publicPort) ∧ t = portType publicPort := by
  rw [ContainerPorts.add]
  cases htyp : p.typ.bind portTypeOf with
  | none => simp
  | some portType =>
    cases PortSummary.published p with
    | none => simp
    | some place =>
      have hpush : t ∈ (pushAt m.hostIpToHostPorts place.1 (portType place.2)).getD ip [] ↔
          t ∈ m.hostIpToHostPorts.getD ip [] ∨ ip = place.1 ∧ t = portType place.2 := mem_pushAt
      constructor
      · intro h
        rcases hpush.mp h with h | ⟨rfl, rfl⟩
        · exact .inl h
        · exact .inr ⟨portType, rfl, place.2, rfl, rfl⟩
      · rintro (h | ⟨_, hportType, publicPort, hplace, rfl⟩)
        · exact hpush.mpr (.inl h)
        · obtain rfl := Option.some.inj hportType
          obtain rfl := Option.some.inj hplace
          exact hpush.mpr (.inr ⟨rfl, rfl⟩)

theorem mem_containerPorts_foldl {containerIps : List IpAddr} {l : List PortSummary} {m : ContainerPorts}
    {ip : IpAddr} {t : PortType} :
    t ∈ (l.foldl (ContainerPorts.add containerIps) m).containerIpsToContainerPorts.getD ip [] ↔
      t ∈ m.containerIpsToContainerPorts.getD ip [] ∨ ip ∈ containerIps ∧ ∃ p ∈ l, ∃ portType,
        p.typ.bind portTypeOf = some portType ∧ t = portType p.privatePort := by
  induction l generalizing m with
  | nil => simp
  | cons p l ih =>
    rw [List.foldl_cons, ih, mem_containerPorts_add, or_assoc, ← and_or_left]
    simp only [List.mem_cons, exists_eq_or_imp]

theorem mem_hostPorts_foldl {containerIps : List IpAddr} {l : List PortSummary} {m : ContainerPorts} {ip : IpAddr}
    {t : PortType} :
    t ∈ (l.foldl (ContainerPorts.add containerIps) m).hostIpToHostPorts.getD ip [] ↔
      t ∈ m.hostIpToHostPorts.getD ip [] ∨ ∃ p ∈ l, ∃ portType, p.typ.bind portTypeOf = some portType ∧
        ∃ publicPort, PortSummary.published p = some (ip, publicPort) ∧ t = portType publicPort := by
  induction l generalizing m with
  | nil => simp
  | cons p l ih =>
    rw [List.foldl_cons, ih, mem_hostPorts_add, or_assoc]
    simp only [List.mem_cons, exists_eq_or_imp]

/-- Where a port of a container is reached: inside at the interface, and on the host where it is published. -/
inductive Reached (summary : ContainerSummary) (interface : Interface) (listeners : IpAddr → List Interface) :
    PortConfig → Uuid → Prop
  | inside {p : PortSummary} {portType : BitVec 16 → PortType} (hp : Exposes summary p portType) :
      Reached summary interface listeners (portType p.privatePort).config interface.id
  | published {p : PortSummary} {portType : BitVec 16 → PortType} {ip : IpAddr} {publicPort : BitVec 16} {i : Interface}
      (hp : Exposes summary p portType) (hip : PortSummary.published p = some (ip, publicPort))
      (hi : i ∈ listeners ip) : Reached summary interface listeners (portType publicPort).config i.id

theorem mem_containerPorts {summary : ContainerSummary} {pairs : List (Interface × Subnet)} {ip : IpAddr}
    {t : PortType} (hip : ip ∈ pairs.map fun p => p.1.base.ipAddress) :
    t ∈ (getPortsFromContainer summary pairs).containerIpsToContainerPorts.getD ip [] ↔
      ∃ p portType, Exposes summary p portType ∧ t = portType p.privatePort := by
  rw [getPortsFromContainer, mem_containerPorts_foldl]
  constructor
  · rintro (h | ⟨-, p, hp, portType, htyp, rfl⟩)
    · cases h
    · exact ⟨p, portType, ⟨hp, htyp⟩, rfl⟩
  · rintro ⟨p, portType, ⟨hp, htyp⟩, rfl⟩
    exact .inr ⟨hip, p, hp, portType, htyp, rfl⟩

theorem mem_hostPorts {summary : ContainerSummary} {pairs : List (Interface × Subnet)} {ip : IpAddr} {t : PortType} :
    t ∈ (getPortsFromContainer summary pairs).hostIpToHostPorts.getD ip [] ↔
      ∃ p portType publicPort, Exposes summary p portType ∧ PortSummary.published p = some (ip, publicPort) ∧
        t = portType publicPort := by
  rw [getPortsFromContainer, mem_hostPorts_foldl]
  constructor
  · rintro (h | ⟨p, hp, portType, htyp, publicPort, hpublished, rfl⟩)
    · cases h
    · exact ⟨p, portType, publicPort, ⟨hp, htyp⟩, hpublished, rfl⟩
  · rintro ⟨p, portType, publicPort, ⟨hp, htyp⟩, hpublished, rfl⟩
    exact .inr ⟨p, hp, portType, htyp, publicPort, hpublished, rfl⟩

/-- Gone through in some order, a map of lists gives what is looked up in it. -/
theorem exists_mem_entries {κ ν : Type} [DecidableEq κ] {m : Assoc κ (List ν)} {l : List (κ × List ν)}
    (hl : l.Perm (m.entries.map fun e => (e.1, e.2))) {k : κ} {v : ν} :
    (∃ e ∈ l, e.1 = k ∧ v ∈ e.2) ↔ v ∈ m.getD k [] := by
  constructor
  · rintro ⟨e, he, rfl, hv⟩
    obtain ⟨e', he', rfl⟩ := List.mem_map.mp (hl.mem_iff.mp he)
    rw [Assoc.getD, Assoc.mem_entries_iff.mp he', Option.getD_some]
    exact hv
  · intro hv
    rw [Assoc.getD] at hv
    cases hlookup : m.lookup k with
    | none =>
      rw [hlookup] at hv
      cases hv
    | some vs =>
      rw [hlookup] at hv
      exact ⟨(k, vs), hl.mem_iff.mpr (List.mem_map.mpr ⟨_, Assoc.mem_entries_iff.mpr hlookup, rfl⟩), rfl, hv⟩

/-- What the context adds is where the container's ports are reached. -/
theorem added_iff_reached {c : BridgeContext} {summary : ContainerSummary}
    {iterate : List (IpAddr × List PortType) → List (IpAddr × List PortType)} (hiterate : ∀ l, (iterate l).Perm l)
    (hinterface : ∃ s, (c.interface, s) ∈ c.pairs)
    (hcontainerPorts : c.containerPorts = (getPortsFromContainer summary c.pairs).containerIpsToContainerPorts.getD
      c.interface.base.ipAddress [])
    (hhostPorts : c.hostPorts = iterate
      ((getPortsFromContainer summary c.pairs).hostIpToHostPorts.entries.map fun e => (e.1, e.2)))
    (config : PortConfig) (id : Uuid) :
    c.Added interfaces config id ↔ Reached summary c.interface (c.listenersAt interfaces) config id := by
  obtain ⟨subnet, hpair⟩ := hinterface
  have hip : c.interface.base.ipAddress ∈ c.pairs.map fun p => p.1.base.ipAddress := List.mem_map.mpr ⟨_, hpair, rfl⟩
  have hentries {ip : IpAddr} {t : PortType} :
      (∃ published ∈ c.hostPorts, published.1 = ip ∧ t ∈ published.2) ↔
        t ∈ (getPortsFromContainer summary c.pairs).hostIpToHostPorts.getD ip [] :=
    exists_mem_entries (by rw [hhostPorts]; exact hiterate _)
  constructor
  · rintro (⟨t, ht, rfl, rfl⟩ | ⟨published, hpublished, t, ht, rfl, i, hi, rfl⟩)
    · rw [hcontainerPorts, mem_containerPorts hip] at ht
      obtain ⟨p, portType, hp, rfl⟩ := ht
      exact .inside hp
    · obtain ⟨p, portType, publicPort, hp, hplace, rfl⟩ := mem_hostPorts.mp
        (hentries.mp ⟨published, hpublished, rfl, ht⟩)
      exact .published hp hplace hi
  · rintro (hp | ⟨hp, hplace, hi⟩)
    · exact .inl ⟨_, by rw [hcontainerPorts, mem_containerPorts hip]; exact ⟨_, _, hp, rfl⟩, rfl, rfl⟩
    · obtain ⟨published, hpublished, rfl, ht⟩ := hentries.mpr (mem_hostPorts.mpr ⟨_, _, _, hp, hplace, rfl⟩)
      exact .inr ⟨published, hpublished, _, ht, rfl, _, hi, rfl⟩

/-! ## The interfaces that are sent -/

/-- Each interface is taken once, and those that are left out equal one that is there. -/
structure Taken (pairs : List (Interface × Subnet)) (l l' : List Interface) : Prop where
  distinct : l'.Pairwise fun i j => i.eq j = false
  kept : l ⊆ l'
  known : ∀ i ∈ l', i ∈ l ∨ ∃ s, (i, s) ∈ pairs
  all : ∀ p ∈ pairs, ∃ i ∈ l', i.eq p.1 = true

theorem taken_foldl {pairs : List (Interface × Subnet)} {l : List Interface}
    (hdistinct : l.Pairwise fun i j => i.eq j = false) :
    Taken pairs l (pairs.foldl
      (fun interfaces p => if interfaces.any fun i => i.eq p.1 then interfaces else interfaces ++ [p.1]) l) := by
  induction pairs generalizing l with
  | nil => exact ⟨hdistinct, List.Subset.refl _, fun i hi => .inl hi, fun p hp => (by cases hp)⟩
  | cons p pairs ih =>
    rw [List.foldl_cons]
    split
    · next hany =>
      have htaken := ih hdistinct
      obtain ⟨i, hi, heq⟩ := List.any_eq_true.mp hany
      refine ⟨htaken.distinct, htaken.kept, fun j hj => ?_, fun q hq => ?_⟩
      · rcases htaken.known j hj with hj | ⟨s, hs⟩
        · exact .inl hj
        · exact .inr ⟨s, List.mem_cons_of_mem _ hs⟩
      · rcases List.mem_cons.mp hq with rfl | hq
        · exact ⟨i, htaken.kept hi, heq⟩
        · exact htaken.all q hq
    · next hany =>
      have hnone : ∀ i ∈ l, i.eq p.1 = false := by simpa using hany
      have hdistinct' : (l ++ [p.1]).Pairwise fun i j => i.eq j = false :=
        List.pairwise_append.mpr ⟨hdistinct, List.pairwise_singleton .., by simpa using hnone⟩
      have htaken := ih hdistinct'
      refine ⟨htaken.distinct, fun i hi => htaken.kept (List.mem_append_left _ hi), fun j hj => ?_, fun q hq => ?_⟩
      · rcases htaken.known j hj with hj | ⟨s, hs⟩
        · rcases List.mem_append.mp hj with hj | hj
          · exact .inl hj
          · exact .inr ⟨p.2, by rw [List.mem_singleton.mp hj]; exact List.mem_cons_self⟩
        · exact .inr ⟨s, List.mem_cons_of_mem _ hs⟩
      · rcases List.mem_cons.mp hq with rfl | hq
        · exact ⟨q.1, htaken.kept (List.mem_append_right _ (List.mem_singleton_self _)), Interface.eq_refl _⟩
        · exact htaken.all q hq

/-- An interface next to the subnet its address is in. -/
def Placed (subnets : List Subnet) (p : Interface × Subnet) : Prop := p.2 ∈ subnets ∧ p.1.base.subnetId = p.2.id

theorem placed_endpointInterfaces {parseMac : String → Option MacAddress} {subnets : List Subnet} {n : Nat}
    {networks : List (String × EndpointSettings)} {p : Interface × Subnet}
    (hp : p ∈ endpointInterfaces draws parseMac subnets n networks) : Placed subnets p := by
  induction networks generalizing n with
  | nil => cases hp
  | cons network networks ih =>
    rw [endpointInterfaces] at hp
    cases hendpoint : endpointInterface draws parseMac subnets n network.1 network.2 with
    | none =>
      rw [hendpoint] at hp
      exact ih hp
    | some pair =>
      rw [hendpoint] at hp
      rcases List.mem_cons.mp hp with rfl | hp
      · rw [endpointInterface, Option.bind_eq_some_iff] at hendpoint
        obtain ⟨ip, -, hsubnet⟩ := hendpoint
        obtain ⟨subnet, hfor, rfl⟩ := Option.map_eq_some_iff.mp hsubnet
        exact ⟨(SelfReport.subnetFor_eq_some hfor).1, rfl⟩
      · exact ih hp

theorem placed_hostInterfacesAndSubnets {subnets : List Subnet} {hostInterfaces : List Interface}
    {p : Interface × Subnet} (hp : p ∈ hostInterfacesAndSubnets subnets hostInterfaces) : Placed subnets p := by
  obtain ⟨i, -, hsubnet⟩ := List.mem_filterMap.mp hp
  obtain ⟨subnet, hfor, rfl⟩ := Option.map_eq_some_iff.mp hsubnet
  exact ⟨(SelfReport.subnetFor_eq_some hfor).1, rfl⟩

theorem placed_interfacesOf {parseMac : String → Option MacAddress} {subnets : List Subnet}
    {hostInterfaces : List Interface} {n : Nat} {container : ContainerInspectResponse} {p : Interface × Subnet}
    (hp : p ∈ interfacesOf draws parseMac subnets hostInterfaces n container) : Placed subnets p := by
  rcases List.mem_append.mp hp with hp | hp
  · split at hp
    · exact placed_hostInterfacesAndSubnets hp
    · exact placed_endpointInterfaces hp
  · exact placed_hostInterfacesAndSubnets hp

section Host

variable [ServiceRegistry] [TextRules] [OuiDatabase]

/-- The host that is sent: the one that was found, on the daemon's host, with every interface of the container and of
the host, and with the services listening in more places. -/
structure Sent (c : BridgeContext) (A : List Interface → PortConfig → Uuid → Prop) (hostId : Uuid)
    (found request : DiscoveryHostRequest) : Prop where
  host : request.host = { found.host with id := hostId }
  distinct : request.interfaces.Pairwise fun i j => i.eq j = false
  known : ∀ i ∈ request.interfaces, ∃ s, (i, s) ∈ c.pairs
  all : ∀ p ∈ c.pairs, ∃ i ∈ request.interfaces, i.eq p.1 = true
  ports : found.ports ⊆ request.ports
  functional : ∀ p ∈ request.ports, ∀ q ∈ request.ports, p.id = q.id → p = q
  services : List.Forall₂ (Bound (A request.interfaces) request.interfaces found.ports request.ports) found.services
    request.services

omit [ServiceRegistry] [TextRules] [OuiDatabase] in
theorem Sent.congr {c : BridgeContext} {A B : List Interface → PortConfig → Uuid → Prop} {hostId : Uuid}
    {found request : DiscoveryHostRequest} (h : Sent c A hostId found request)
    (hAB : ∀ interfaces config id, A interfaces config id ↔ B interfaces config id) :
    Sent c B hostId found request where
  host := h.host
  distinct := h.distinct
  known := h.known
  all := h.all
  ports := h.ports
  functional := h.functional
  services := h.services.imp fun _ _ hbound => hbound.congr (hAB request.interfaces)

theorem sent_complete {c : BridgeContext} {subnets : List Subnet}
    (htypes : ∀ s ∈ subnets, ∀ t ∈ subnets, s.id = t.id → s.base.subnetType = t.base.subnetType)
    (hplaced : ∀ p ∈ c.pairs, Placed subnets p) (session : ScanSession) (params : ServiceMatchBaselineParams)
    (hostId : Uuid) (hinterface : params.interface = c.interface) (hpair : ∃ s, (c.interface, s) ∈ c.pairs)
    (hports : params.allPorts = c.containerPorts)
    (hdraws : Distinct draws
      (c.drawn draws (session.drawn draws params none) (processHost draws session params none))) :
    Sent c c.Added hostId (processHost draws session params none)
      (c.complete draws hostId (session.drawn draws params none) (processHost draws session params none)) := by
  have htaken : Taken c.pairs [c.interface] (c.allInterfaces [c.interface]) := taken_foldl (List.pairwise_singleton ..)
  have hmem : c.interface ∈ c.allInterfaces [c.interface] := htaken.kept (List.mem_singleton_self _)
  have hknown : ∀ i ∈ c.allInterfaces [c.interface], ∃ s, (i, s) ∈ c.pairs := by
    intro i hi
    rcases htaken.known i hi with hi | hi
    · rw [List.mem_singleton.mp hi]
      exact hpair
    · exact hi
  have hsound : c.Sound (c.allInterfaces [c.interface]) :=
    ⟨htaken.distinct, hknown, fun p hp => (hplaced p hp).2,
      fun p hp q hq => htypes p.2 (hplaced p hp).1 q.2 (hplaced q hq).1⟩
  have hinterfaces : (processHost draws session params none).interfaces = [c.interface] := by rw [← hinterface]; rfl
  have hbound : c.bound draws (session.drawn draws params none) (processHost draws session params none) =
      c.bindServices draws (c.allInterfaces [c.interface]) (processHost draws session params none).ports
        (session.drawn draws params none) (processHost draws session params none).services := by
    rw [BridgeContext.bound, hinterfaces]
  rw [BridgeContext.drawn, hbound] at hdraws
  have hdrawn := @BridgeContext.drawn_le_bindServices draws (c.allInterfaces [c.interface]) c
    (processHost draws session params none).services (processHost draws session params none).ports
    (session.drawn draws params none)
  have hparams : params.interface ∈ c.allInterfaces [c.interface] := by
    rw [hinterface]
    exact hmem
  obtain ⟨hwired, hcovered, hservices⟩ := wired_processHost session params none (hdraws.mono hdrawn) hparams
  rw [hports] at hcovered
  rw [hinterface] at hservices
  obtain ⟨hsub, ⟨drawn, hfinal⟩, hservices⟩ := BridgeContext.bound_bindServices hdraws hsound hmem hwired hcovered
    hservices le_rfl
  rw [← hbound] at hsub hfinal hservices
  have hcomplete : (c.complete draws hostId (session.drawn draws params none)
      (processHost draws session params none)).interfaces = c.allInterfaces [c.interface] := by
    rw [BridgeContext.complete, hinterfaces]
  constructor
  case host => rfl
  case ports => exact hsub
  case functional => exact hfinal.functional
  all_goals rw [hcomplete]
  case distinct => exact htaken.distinct
  case known => exact hknown
  case all => exact htaken.all
  case services => exact hservices

/-- The container is processed at the first of its interfaces where there is a session. -/
theorem eq_complete_of_processAtInterfaces {hostId dockerServiceId : Uuid} {container : ContainerInspectResponse}
    {ports : ContainerPorts} {iterate : List (IpAddr × List PortType) → List (IpAddr × List PortType)}
    {pairs rest : List (Interface × Subnet)} {attempt : Nat → Attempt} {n drawn : Nat} {request : DiscoveryHostRequest}
    (h : processAtInterfaces draws hostId dockerServiceId container ports iterate pairs attempt n rest =
      .ok (some (request, drawn))) :
    ∃ k session, ∃ params : ServiceMatchBaselineParams, ∃ c : BridgeContext, c.pairs = pairs ∧
      c.interface = params.interface ∧ c.containerPorts = params.allPorts ∧
      c.hostPorts = iterate (ports.hostIpToHostPorts.entries.map fun e => (e.1, e.2)) ∧
      rest[k]? = some (params.interface, params.subnet) ∧
      (∀ j < k, (attempt (n + j)).session = none) ∧ (attempt (n + k)).session = some session ∧
      params.allPorts = ports.containerIpsToContainerPorts.getD params.interface.base.ipAddress [] ∧
      params.virtualization = some (virtualizationOf container dockerServiceId) ∧
      request = c.complete draws hostId (session.drawn draws params none) (processHost draws session params none) ∧
      drawn = c.drawn draws (session.drawn draws params none) (processHost draws session params none) := by
  induction rest generalizing n with
  | nil => cases h
  | cons pair rest ih =>
    rw [processAtInterfaces] at h
    split at h
    · cases h
    dsimp only at h
    generalize (if container.name.isSome then (attempt n).endpointResponses else .ok []) = scan at h
    cases scan with
    | error e => cases h
    | ok endpointResponses =>
      cases hsession : (attempt n).session with
      | none =>
        rw [hsession] at h
        obtain ⟨k, session, params, c, hpairs, hinterface, hcontainerPorts, hhostPorts, hk, hbefore, hat, hrest⟩ := ih h
        refine ⟨k + 1, session, params, c, hpairs, hinterface, hcontainerPorts, hhostPorts, hk, fun j hj => ?_, ?_,
          hrest⟩
        · cases j with
          | zero => exact hsession
          | succ j =>
            rw [Nat.add_comm j, ← Nat.add_assoc]
            exact hbefore j (Nat.lt_of_succ_lt_succ hj)
        · rw [Nat.add_comm k, ← Nat.add_assoc]
          exact hat
      | some session =>
        rw [hsession] at h
        refine ⟨0, session,
          { subnet := pair.2, interface := pair.1, endpointResponses
            allPorts := ports.containerIpsToContainerPorts.getD pair.1.base.ipAddress []
            virtualization := some (virtualizationOf container dockerServiceId) },
          { interface := pair.1, pairs
            containerPorts := ports.containerIpsToContainerPorts.getD pair.1.base.ipAddress []
            hostPorts := iterate (ports.hostIpToHostPorts.entries.map fun e => (e.1, e.2)) },
          rfl, rfl, rfl, rfl, rfl, fun j hj => absurd hj (Nat.not_lt_zero j), hsession, rfl, rfl, ?_⟩
        have hsent := Option.some.inj (Except.ok.inj h)
        exact ⟨(congrArg Prod.fst hsent).symm, (congrArg Prod.snd hsent).symm⟩

/-- What is sent about a container on a bridge. Its services listen where they were recognized and where the ports of
the container are reached, and nowhere else. -/
theorem sent_processBridgeModeContainer {endpointDraws : Draws} {parseMac : String → Option MacAddress}
    {subnets : List Subnet} {hostInterfaces : List Interface} {n : Nat} {container : ContainerInspectResponse}
    {summary : ContainerSummary} {iterate : List (IpAddr × List PortType) → List (IpAddr × List PortType)}
    {hostId dockerServiceId : Uuid} {attempt : Nat → Attempt} {request : DiscoveryHostRequest} {drawn : Nat}
    (hiterate : ∀ l, (iterate l).Perm l)
    (htypes : ∀ s ∈ subnets, ∀ t ∈ subnets, s.id = t.id → s.base.subnetType = t.base.subnetType)
    (h : processBridgeModeContainer draws hostId dockerServiceId container summary iterate
      (interfacesOf endpointDraws parseMac subnets hostInterfaces n container) attempt = .ok (some (request, drawn)))
    (hdraws : Distinct draws drawn) :
    ∃ k session, ∃ params : ServiceMatchBaselineParams, ∃ c : BridgeContext,
      c.pairs = interfacesOf endpointDraws parseMac subnets hostInterfaces n container ∧
      c.pairs[k]? = some (c.interface, params.subnet) ∧ params.interface = c.interface ∧
      (∀ j < k, (attempt j).session = none) ∧ (attempt k).session = some session ∧
      params.virtualization = some (virtualizationOf container dockerServiceId) ∧
      (∀ t, t ∈ params.allPorts ↔ ∃ p portType, Exposes summary p portType ∧ t = portType p.privatePort) ∧
      Sent c (fun interfaces => Reached summary c.interface (c.listenersAt interfaces)) hostId
        (processHost draws session params none) request := by
  obtain ⟨k, session, params, c, hpairs, hinterface, hcontainerPorts, hhostPorts, hk, hbefore, hat, hports,
    hvirtualization, rfl, rfl⟩ := eq_complete_of_processAtInterfaces h
  rw [Nat.zero_add] at hat
  rw [← hpairs, ← hinterface] at hk
  rw [← hinterface] at hports
  rw [← hpairs] at hhostPorts
  have hpair : ∃ s, (c.interface, s) ∈ c.pairs := ⟨params.subnet, List.mem_of_getElem? hk⟩
  have hplaced : ∀ p ∈ c.pairs, Placed subnets p := by
    intro p hp
    rw [hpairs] at hp
    exact placed_interfacesOf hp
  have hsent := sent_complete htypes hplaced session params hostId hinterface.symm hpair hcontainerPorts.symm hdraws
  rw [← hpairs] at hports
  refine ⟨k, session, params, c, hpairs, hk, hinterface.symm, fun j hj => ?_, hat, hvirtualization, fun t => ?_,
    hsent.congr fun interfaces config id =>
      added_iff_reached hiterate hpair (hcontainerPorts.trans hports) hhostPorts config id⟩
  · rw [← Nat.zero_add j]
    exact hbefore j hj
  · obtain ⟨s, hs⟩ := hpair
    rw [hports]
    exact mem_containerPorts (List.mem_map.mpr ⟨_, hs, rfl⟩)

end Host

/-! ## A shop -/

section Shop

def lan : Subnet where
  id := 10
  base := { cidr := { address := .v4 0xC0A80000, networkLength := 24 }, networkId := Uuid.nil, subnetType := .lan }

def bridge : Subnet where
  id := 11
  base :=
    { cidr := { address := .v4 0xAC110000, networkLength := 16 }
      networkId := Uuid.nil
      subnetType := .dockerBridge }

/-- The web page of the shop is published on all interfaces. -/
def shopSummary : ContainerSummary where
  id := some "f00d"
  ports := some [{ ip := some "0.0.0.0", privatePort := 80, publicPort := some 8080, typ := some .tcp }]

def shop : ContainerInspectResponse where
  id := some "f00d"
  name := some "/shop"
  networks := some [("bridge", { ipAddress := some "172.17.0.2" })]

def shopPairs : List (Interface × Subnet) :=
  interfacesOf counting (fun _ => none) [lan, bridge] [{ id := 7, base := { ipAddress := .v4 0xC0A80014 } }] 100 shop

def shopRequest : Except String (Option (DiscoveryHostRequest × Nat)) :=
  let _ := blogServices; let _ := TextRules.ascii; let _ := Pattern.noVendors
  processBridgeModeContainer counting 1 2 shop shopSummary id shopPairs fun _ =>
    { session := some { discoveryType := .network none .ip {} false } }

theorem shopRequest_sent : shopRequest.toOption.join.any (fun sent => sent.2 < 100) = true := by decide +kernel

theorem distinct_counting {n : Nat} (hn : n < 2 ^ 64) : Distinct counting n := by
  refine List.Nodup.map_on (fun i hi j hj heq => ?_) List.nodup_range
  rw [List.mem_range] at hi hj
  have hsame := congrArg BitVec.toNat heq
  simp only [counting, BitVec.toNat_ofNat] at hsame
  omega

/-- The shop listens inside at its own port, and on the host where it is published. -/
theorem sent_shop : ∃ request drawn, shopRequest = .ok (some (request, drawn)) ∧ ∃ c : BridgeContext, ∃ found,
    c.pairs = shopPairs ∧
      Sent c (fun interfaces => Reached shopSummary c.interface (c.listenersAt interfaces)) 1 found request := by
  obtain ⟨sent, hsent, hdrawn⟩ := (Option.any_eq_true _ _).mp shopRequest_sent
  have hrequest : shopRequest = .ok (some (sent.1, sent.2)) := by
    cases hresult : shopRequest with
    | error e =>
      rw [hresult] at hsent
      cases hsent
    | ok result =>
      rw [hresult] at hsent
      exact congrArg Except.ok (Option.join_eq_some_iff.mp hsent |> Option.some.inj)
  have hdistinct : Distinct counting sent.2 := distinct_counting (lt_trans (of_decide_eq_true hdrawn) (by decide))
  let _ := blogServices
  let _ := TextRules.ascii
  let _ := Pattern.noVendors
  obtain ⟨_, session, params, c, hpairs, -, -, -, -, -, -, hall⟩ := sent_processBridgeModeContainer
    (fun l => List.Perm.refl l) (by decide) hrequest hdistinct
  exact ⟨sent.1, sent.2, hrequest, c, _, hpairs, hall⟩

end Shop

/-! ## Containers and their summaries -/

section Summaries

variable {ε : Type} {inspectContainer : String → Except ε ContainerInspectResponse}
  {summaries later : List ContainerSummary} {containers : List ContainerInspectResponse}

theorem forall₂_inspectAll (h : inspectAll inspectContainer summaries = .ok containers) :
    List.Forall₂ (fun id container => inspectContainer id = .ok container) (summaries.filterMap ContainerSummary.id)
      containers := by
  induction summaries generalizing containers with
  | nil =>
    obtain rfl := Except.ok.inj h
    exact .nil
  | cons summary summaries ih =>
    rw [inspectAll] at h
    cases hid : summary.id with
    | none =>
      rw [hid] at h
      rw [List.filterMap_cons_none hid]
      exact ih h
    | some id =>
      rw [hid] at h
      rw [List.filterMap_cons_some hid]
      cases hinspect : inspectContainer id with
      | error e =>
        simp only [hinspect] at h
        cases h
      | ok container =>
        cases hrest : inspectAll inspectContainer summaries with
        | error e =>
          simp only [hinspect, hrest] at h
          cases h
        | ok rest =>
          simp only [hinspect, hrest] at h
          obtain rfl := Except.ok.inj h
          exact .cons hinspect (ih hrest)

variable (hinspect : ∀ id container, inspectContainer id = .ok container → container.id = some id)
include hinspect

/-- Next to summaries that come earlier, containers are skipped. -/
theorem skipped_of_later (hids : (summaries.filterMap ContainerSummary.id).Nodup)
    (hempty : ∀ s ∈ summaries, s.id ≠ some "") (hlater : later <:+ summaries.tail)
    (hcontainers : List.Forall₂ (fun id container => inspectContainer id = .ok container)
      (later.filterMap ContainerSummary.id) containers) :
    ∀ p ∈ containers.zip summaries, processSingleContainer p.1 p.2 = .skipped := by
  induction summaries generalizing later containers with
  | nil =>
    intro p hp
    rw [List.zip_nil_right] at hp
    cases hp
  | cons summary summaries ih =>
    generalize hlaterIds : later.filterMap ContainerSummary.id = ids at hcontainers
    cases hcontainers with
    | nil =>
      intro p hp
      cases hp
    | @cons id container ids containers hcontainer hcontainers =>
      obtain ⟨before, s, rest, rfl, hbefore, hid, rfl⟩ := List.filterMap_eq_cons_iff.mp hlaterIds
      have hs : s ∈ summaries := hlater.subset (List.mem_append_right _ List.mem_cons_self)
      have hne : ¬ id = summary.id.getD "" := by
        rintro rfl
        cases hsummary : summary.id with
        | none =>
          rw [hsummary] at hid
          exact hempty s (List.mem_cons_of_mem _ hs) hid
        | some id' =>
          rw [hsummary, Option.getD_some] at hid
          rw [List.filterMap_cons_some hsummary, List.nodup_cons] at hids
          exact hids.1 (List.mem_filterMap.mpr ⟨s, hs, hid⟩)
      have hrest : rest <:+ summaries.tail := by
        have hsuffix : s :: rest <:+ summaries := (List.suffix_append before (s :: rest)).trans hlater
        obtain ⟨before, rfl⟩ := hsuffix
        cases before with
        | nil => exact List.suffix_refl _
        | cons _ before => exact ⟨before ++ [s], by simp⟩
      have hnodup : (summaries.filterMap ContainerSummary.id).Nodup :=
        hids.sublist ((List.sublist_cons_self summary summaries).filterMap _)
      intro p hp
      rw [List.zip_cons_cons] at hp
      rcases List.mem_cons.mp hp with rfl | hp
      · rw [processSingleContainer, hinspect id container hcontainer]
        exact if_pos hne
      · exact ih hnodup (fun s hs => hempty s (List.mem_cons_of_mem _ hs)) hrest hcontainers p hp

/-- The containers that are processed are those before the first one that is listed without an id. -/
theorem processed_getContainersAndSummaries {pairs : List (ContainerInspectResponse × ContainerSummary)}
    (hids : (summaries.filterMap ContainerSummary.id).Nodup) (hempty : ∀ s ∈ summaries, s.id ≠ some "")
    (h : getContainersAndSummaries inspectContainer summaries = .ok pairs) :
    List.Forall₂ (fun s p => p.2 = s ∧ ∃ id, s.id = some id ∧ inspectContainer id = .ok p.1)
      (summaries.takeWhile fun s => s.id.isSome)
      (pairs.filter fun p => processSingleContainer p.1 p.2 != .skipped) := by
  cases hall : inspectAll inspectContainer summaries with
  | error e =>
    simp only [getContainersAndSummaries, hall] at h
    cases h
  | ok containers =>
    simp only [getContainersAndSummaries, hall] at h
    obtain rfl := Except.ok.inj h
    have hcontainers := forall₂_inspectAll hall
    clear h hall
    induction summaries generalizing containers with
    | nil =>
      rw [List.zip_nil_right]
      exact .nil
    | cons summary summaries ih =>
      have hnodup : (summaries.filterMap ContainerSummary.id).Nodup :=
        hids.sublist ((List.sublist_cons_self summary summaries).filterMap _)
      cases hid : summary.id with
      | none =>
        rw [List.filterMap_cons_none hid] at hcontainers
        have hskipped := skipped_of_later hinspect hids hempty (List.suffix_refl _) hcontainers
        rw [List.takeWhile_cons, hid, List.filter_eq_nil_iff.mpr fun p hp => by simpa using hskipped p hp]
        exact .nil
      | some id =>
        rw [List.filterMap_cons_some hid] at hcontainers
        cases hcontainers with
        | @cons _ container _ containers hcontainer hcontainers =>
          have hprocessed : (processSingleContainer container summary != .skipped) = true := by
            rw [processSingleContainer, hinspect id container hcontainer, hid]
            simp only [Option.getD_some, ne_eq, not_true_eq_false, if_false]
            split <;> rfl
          rw [List.zip_cons_cons, List.takeWhile_cons, hid, List.filter_cons, if_pos hprocessed]
          exact .cons ⟨rfl, id, hid, hcontainer⟩
            (ih hnodup (fun s hs => hempty s (List.mem_cons_of_mem _ hs)) containers hcontainers)

omit hinspect in
/-- Where the second container is listed without an id, the third one is not processed. -/
theorem processed_first : List.Forall₂ (fun s p => p.2 = s ∧ ∃ id, s.id = some id ∧
      (Except.ok { id := some id } : Except Unit ContainerInspectResponse) = .ok p.1)
    [({ id := some "f00d" } : ContainerSummary)]
    ((([{ id := some "f00d" }, { id := some "beef" }] : List ContainerInspectResponse).zip
      [{ id := some "f00d" }, {}, { id := some "beef" }]).filter
        fun p => processSingleContainer p.1 p.2 != .skipped) :=
  @processed_getContainersAndSummaries Unit (fun id => .ok { id := some id })
    [{ id := some "f00d" }, {}, { id := some "beef" }]
    (fun id container h => (congrArg ContainerInspectResponse.id (Except.ok.inj h)).symm) _ (by decide) (by decide) rfl

end Summaries

end Netvisor.Docker
