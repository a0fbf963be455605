/-
What the edge builder does: an edge goes between listed interfaces, only those
that are not visible keep one from being drawn, and the hosts that run containers
are the ones with a bridge to group on.
-/
import Netvisor.Topology.EdgeBuilder

namespace Netvisor

namespace TopologyContext

variable {ctx : TopologyContext}

theorem getInterface_of_mem {i : Interface} (hi : i ∈ ctx.interfaces.rows) : ctx.interfaces.get i.id = some i :=
  Table.get_eq_some.mpr ⟨hi, rfl⟩

theorem getSubnetFromInterfaceId_of_mem {i : Interface} (hi : i ∈ ctx.interfaces.rows) :
    ctx.getSubnetFromInterfaceId i.id = ctx.getSubnetById i.base.subnetId := by
  simp only [getSubnetFromInterfaceId, getInterface_of_mem hi, bind, Option.bind_some]

theorem listed_of_getSubnetFromInterfaceId {id : Uuid} {subnet : Subnet}
    (h : ctx.getSubnetFromInterfaceId id = some subnet) : ∃ i ∈ ctx.interfaces.rows, i.id = id := by
  simp only [getSubnetFromInterfaceId, bind, Option.bind_eq_some_iff] at h
  obtain ⟨i, hi, -⟩ := h
  exact ⟨i, Table.get_eq_some.mp hi⟩

end TopologyContext

namespace EdgeBuilder

variable {ctx : TopologyContext} {visible : Uuid → Bool} {e : Edge} {source target anchor : Uuid}
  {edgeType : EdgeType}
  {label : Option String}

/-! ## What is drawn -/

theorem draw_eq_some (h : draw ctx source target anchor edgeType label = some e) :
    (e.source = source ∧ e.target = target) ∧ (∃ i ∈ ctx.interfaces.rows, i.id = source) ∧
      ∃ i ∈ ctx.interfaces.rows, i.id = anchor := by
  simp only [draw, determineInterfaceHandles, bind, Option.bind_eq_some_iff] at h
  obtain ⟨handles, ⟨sourceSubnet, hsource, targetSubnet, htarget, -⟩, hdrawn⟩ := h
  cases hdrawn
  exact ⟨⟨rfl, rfl⟩, TopologyContext.listed_of_getSubnetFromInterfaceId hsource,
    TopologyContext.listed_of_getSubnetFromInterfaceId htarget⟩

theorem draw_isSome (hsource : (ctx.getSubnetFromInterfaceId source).isSome = true)
    (hanchor : (ctx.getSubnetFromInterfaceId anchor).isSome = true) :
    (draw ctx source target anchor edgeType label).isSome = true := by
  obtain ⟨sourceSubnet, hsource⟩ := Option.isSome_iff_exists.mp hsource
  obtain ⟨targetSubnet, hanchor⟩ := Option.isSome_iff_exists.mp hanchor
  simp only [draw, determineInterfaceHandles, hsource, hanchor, bind, Option.bind_some, pure]
  rfl

/-- The interfaces at the ends of an edge are visible. -/
def EndsVisible (ctx : TopologyContext) (visible : Uuid → Bool) (e : Edge) : Prop :=
  ∀ i ∈ ctx.interfaces.rows, i.id = e.source ∨ i.id = e.target → visible i.id = true

theorem EndsVisible.of_draw (hvisible : EndsVisible ctx visible e)
    (h : draw ctx source target anchor edgeType label = some e) :
    visible source = true ∧ (target = anchor → visible target = true) := by
  obtain ⟨⟨hsource, htarget⟩, ⟨i, hi, hisource⟩, j, hj, hjanchor⟩ := draw_eq_some h
  refine ⟨hisource ▸ hvisible i hi (.inl (hisource.trans hsource.symm)), fun heq => ?_⟩
  have hjtarget : j.id = target := hjanchor.trans heq.symm
  exact hjtarget ▸ hvisible j hj (.inr (hjtarget.trans htarget.symm))

/-! ## Nothing but visibility drops an edge -/

theorem mem_createInterfaceEdges (hvisible : EndsVisible ctx visible e)
    (h : e ∈ createInterfaceEdges ctx fun _ => true) :
    e ∈ createInterfaceEdges ctx visible := by
  simp only [createInterfaceEdges, List.mem_flatMap] at h ⊢
  obtain ⟨host, hhost, h⟩ := h
  refine ⟨host, hhost, ?_⟩
  split at h
  · next originInterface horigin =>
    obtain ⟨i, hi, hdraw⟩ := List.mem_filterMap.mp h
    refine List.mem_filterMap.mpr ⟨i, ?_, hdraw⟩
    obtain ⟨hi, hne⟩ := List.mem_filter.mp hi
    split at hdraw
    · cases hdraw
    · obtain ⟨hsource, htarget⟩ := hvisible.of_draw hdraw
      exact List.mem_filter.mpr ⟨hi, by simpa [hsource, htarget rfl] using hne⟩
  · cases h

theorem edgeFromServiceBindings_eq_some {sourceBindingId targetBindingId : Uuid} {group : Group}
    (hvisible : EndsVisible ctx visible e)
    (h : edgeFromServiceBindings ctx (fun _ => true) sourceBindingId targetBindingId group = some e) :
    edgeFromServiceBindings ctx visible sourceBindingId targetBindingId group = some e := by
  unfold edgeFromServiceBindings at h ⊢
  split at h
  · next sourceInterface targetInterface _ _ =>
    rw [Bool.and_self, if_pos rfl] at h
    obtain ⟨hsource, htarget⟩ := hvisible.of_draw h
    simp only [hsource, htarget rfl, Bool.and_self, if_true]
    exact h
  · cases h

theorem mem_createGroupEdges (hvisible : EndsVisible ctx visible e) (h : e ∈ createGroupEdges ctx fun _ => true) :
    e ∈ createGroupEdges ctx visible := by
  simp only [createGroupEdges, List.mem_flatMap] at h ⊢
  obtain ⟨group, hgroup, h⟩ := h
  refine ⟨group, hgroup, ?_⟩
  cases htype : group.groupType with
  | requestPath =>
    rw [htype] at h
    obtain ⟨pair, hpair, hedge⟩ := List.mem_filterMap.mp h
    exact List.mem_filterMap.mpr ⟨pair, hpair, edgeFromServiceBindings_eq_some hvisible hedge⟩
  | hubAndSpoke =>
    rw [htype] at h
    cases hids : group.bindingIds with
    | nil =>
      rw [hids] at h
      cases h
    | cons hub spokes =>
      rw [hids] at h
      obtain ⟨spoke, hspoke, hedge⟩ := List.mem_filterMap.mp h
      exact List.mem_filterMap.mpr ⟨spoke, hspoke, edgeFromServiceBindings_eq_some hvisible hedge⟩

theorem mem_createVmHostEdges (hvisible : EndsVisible ctx visible e) (h : e ∈ createVmHostEdges ctx fun _ => true) :
    e ∈ createVmHostEdges ctx visible := by
  simp only [createVmHostEdges, List.mem_flatMap] at h ⊢
  obtain ⟨host, hhost, h⟩ := h
  refine ⟨host, hhost, ?_⟩
  cases hvirtualization : host.base.virtualization with
  | none =>
    rw [hvirtualization] at h
    cases h
  | some virtualization =>
    rw [hvirtualization] at h
    obtain ⟨i, hi, hdraw⟩ := List.mem_filterMap.mp h
    refine List.mem_filterMap.mpr ⟨i, hi, ?_⟩
    simp only [bind, Option.bind_eq_some_iff, if_true] at hdraw ⊢
    obtain ⟨proxmoxServiceInterfaceId, hlookup, hdraw⟩ := hdraw
    exact ⟨proxmoxServiceInterfaceId, hlookup, by rw [(hvisible.of_draw hdraw).1, if_pos rfl, hdraw]⟩

theorem containerEdge_eq_some {x : Service × Host × Interface} {cs : Uuid} (hvisible : EndsVisible ctx visible e)
    (h : containerEdge ctx (fun _ => true) x cs = some e) : containerEdge ctx visible x cs = some e := by
  simp only [containerEdge, bind, Option.bind_eq_some_iff] at h ⊢
  obtain ⟨containerized, hservice, interfaceId, hfind, edge, hdraw, hedge⟩ := h
  cases hedge
  obtain ⟨hsource, htarget⟩ := hvisible.of_draw hdraw
  exact ⟨containerized, hservice, interfaceId, hfind, e, hdraw, by simp [hsource, htarget rfl]⟩

theorem mem_createContainerizedServiceEdges {groupDockerBridgesByHost : Bool} (hvisible : EndsVisible ctx visible e)
    (h : e ∈ (createContainerizedServiceEdges ctx (fun _ => true) groupDockerBridgesByHost).1) :
    e ∈ (createContainerizedServiceEdges ctx visible groupDockerBridgesByHost).1 := by
  simp only [createContainerizedServiceEdges, List.mem_flatMap] at h ⊢
  obtain ⟨x, hx, h⟩ := h
  refine ⟨x, hx, ?_⟩
  cases groupDockerBridgesByHost with
  | true =>
    rw [if_pos rfl] at h ⊢
    cases hbridge : groupingBridge ctx x with
    | none =>
      rw [hbridge] at h
      cases h
    | some grouped =>
      rw [hbridge] at h
      simp only [if_true, List.mem_singleton] at h
      subst h
      obtain ⟨s, host, originInterface⟩ := x
      simp only [groupingBridge] at hbridge
      split at hbridge
      · obtain ⟨edge, hdraw, hgrouped⟩ := Option.map_eq_some_iff.mp hbridge
        cases hgrouped
        simp [(hvisible.of_draw hdraw).1]
      · cases hbridge
  | false =>
    simp only [Bool.false_eq_true, if_false] at h ⊢
    obtain ⟨cs, hcs, hedge⟩ := List.mem_filterMap.mp h
    exact List.mem_filterMap.mpr ⟨cs, hcs, containerEdge_eq_some hvisible hedge⟩

theorem mem_createPhysicalLinkEdges (hvisible : EndsVisible ctx visible e)
    (h : e ∈ createPhysicalLinkEdges ctx fun _ => true) : e ∈ createPhysicalLinkEdges ctx visible := by
  obtain ⟨link, hlink, h⟩ := List.mem_filterMap.mp h
  refine List.mem_filterMap.mpr ⟨link, hlink, ?_⟩
  simp only [bind, Option.bind_eq_some_iff] at h ⊢
  obtain ⟨sourceInterfaceId, hs, targetEntry, hentry, targetInterfaceId, ht, hdraw⟩ := h
  rw [Bool.and_self, if_pos rfl] at hdraw
  obtain ⟨hsource, htarget⟩ := hvisible.of_draw hdraw
  exact ⟨sourceInterfaceId, hs, targetEntry, hentry, targetInterfaceId, ht,
    by rw [hsource, htarget rfl, Bool.and_self, if_pos rfl, hdraw]⟩

/-- **An edge whose ends are visible is drawn.** -/
theorem mem_allEdges (hvisible : EndsVisible ctx visible e) (h : e ∈ allEdges ctx fun _ => true) :
    e ∈ allEdges ctx visible := by
  simp only [allEdges, List.mem_append] at h ⊢
  rcases h with (((h | h) | h) | h) | h
  · exact .inl (.inl (.inl (.inl (mem_createInterfaceEdges hvisible h))))
  · exact .inl (.inl (.inl (.inr (mem_createGroupEdges hvisible h))))
  · exact .inl (.inl (.inr (mem_createVmHostEdges hvisible h)))
  · exact .inl (.inr (mem_createContainerizedServiceEdges hvisible h))
  · exact .inr (mem_createPhysicalLinkEdges hvisible h)

/-! ## The hosts that run containers -/

/-- A service of the host runs listed containers, and the host is on a known subnet that is no docker bridge. -/
structure Containerizes (ctx : TopologyContext) (hostId : Uuid) : Prop where
  service : ∃ s ∈ ctx.services.rows, s.base.hostId = hostId ∧
    ∃ c ∈ ctx.services.rows, c.base.virtualization.map DockerVirtualization.serviceId = some s.id
  origin : ∃ i ∈ ctx.interfaces.rows, i.base.hostId = hostId ∧
    ∃ subnet, ctx.getSubnetById i.base.subnetId = some subnet ∧ subnet.base.subnetType ≠ .dockerBridge

theorem mem_keys_containerizedServiceIds {id : Uuid} :
    id ∈ (containerizedServiceIds ctx).keys ↔
      ∃ c ∈ ctx.services.rows, c.base.virtualization.map DockerVirtualization.serviceId = some id := by
  have hfold : containerizedServiceIds ctx = ctx.services.rows.foldl (fun m s =>
      s.base.virtualization.elim m fun docker =>
        let entry := m.getD docker.serviceId []
        m.insert docker.serviceId (if s.id ∈ entry then entry else entry ++ [s.id])) ∅ := by
    unfold containerizedServiceIds
    congr
    funext m s
    cases s.base.virtualization <;> rfl
  rw [hfold]
  suffices ∀ (services : List Service) (m : Assoc Uuid (List Uuid)),
      id ∈ (services.foldl (fun m s => s.base.virtualization.elim m fun docker =>
        let entry := m.getD docker.serviceId []
        m.insert docker.serviceId (if s.id ∈ entry then entry else entry ++ [s.id])) m).keys ↔
      id ∈ m.keys ∨ ∃ c ∈ services, c.base.virtualization.map DockerVirtualization.serviceId = some id by
    exact (this ctx.services.rows ∅).trans (or_iff_right List.not_mem_nil)
  intro services
  induction services with
  | nil => exact fun m => (or_iff_left (by simp)).symm
  | cons s services ih =>
    intro m
    rw [List.foldl_cons, ih]
    cases hvirtualization : s.base.virtualization with
    | none => simp [hvirtualization]
    | some docker =>
      have hinsert : ∀ v, id ∈ (AList.insert docker.serviceId v m).keys ↔ id = docker.serviceId ∨ id ∈ m.keys :=
        fun v => AList.mem_insert m
      simp only [Option.elim_some, hinsert, List.mem_cons, exists_eq_or_imp, hvirtualization, Option.map_some,
        Option.some.injEq]
      rw [or_assoc, or_left_comm, eq_comm]

theorem getFirstNonDockerBridgeInterfaceForHost_eq_some {hostId : Uuid} {i : Interface}
    (h : ctx.getFirstNonDockerBridgeInterfaceForHost hostId = some i) :
    i ∈ ctx.interfaces.rows ∧ i.base.hostId = hostId ∧
      ∃ subnet, ctx.getSubnetById i.base.subnetId = some subnet ∧ subnet.base.subnetType ≠ .dockerBridge := by
  have hmem := List.mem_of_find?_eq_some h
  have hp := List.find?_some h
  rw [Bool.and_eq_true, beq_iff_eq] at hp
  refine ⟨hmem, hp.1, ?_⟩
  cases hsubnet : ctx.getSubnetById i.base.subnetId with
  | none => simp [hsubnet] at hp
  | some subnet => exact ⟨subnet, rfl, by simpa [hsubnet, SubnetType.isDockerBridge] using hp.2⟩

theorem exists_getFirstNonDockerBridgeInterfaceForHost {hostId : Uuid} {i : Interface} {subnet : Subnet}
    (hi : i ∈ ctx.interfaces.rows) (hhost : i.base.hostId = hostId)
    (hsubnet : ctx.getSubnetById i.base.subnetId = some subnet) (htype : subnet.base.subnetType ≠ .dockerBridge) :
    ∃ origin, ctx.getFirstNonDockerBridgeInterfaceForHost hostId = some origin := by
  rw [← Option.isSome_iff_exists, TopologyContext.getFirstNonDockerBridgeInterfaceForHost, List.find?_isSome]
  exact ⟨i, hi, by simp [hhost, hsubnet, SubnetType.isDockerBridge, htype]⟩

/-- A host that containerizes has an entry among the docker hosts. -/
theorem exists_dockerHost {host : Host} (hhost : ctx.getHostById host.id = some host)
    (h : Containerizes ctx host.id) : ∃ x ∈ dockerHosts ctx, x.2.1 = host := by
  obtain ⟨s, hs, hsHost, hcontainers⟩ := h.service
  obtain ⟨i, hi, hiHost, subnet, hsubnet, htype⟩ := h.origin
  obtain ⟨origin, horigin⟩ := exists_getFirstNonDockerBridgeInterfaceForHost hi hiHost hsubnet htype
  refine ⟨(s, host, origin), List.mem_filterMap.mpr ⟨s, List.mem_filter.mpr ⟨hs, ?_⟩, ?_⟩, rfl⟩
  · simpa using mem_keys_containerizedServiceIds.mpr hcontainers
  · simp only [hsHost, hhost, horigin, bind, Option.bind_some, pure]

theorem containerizes_of_mem {x : Service × Host × Interface} (hx : x ∈ dockerHosts ctx) :
    Containerizes ctx x.2.1.id ∧
        (x.2.2 ∈ ctx.interfaces.rows ∧ ∃ subnet, ctx.getSubnetById x.2.2.base.subnetId = some subnet) := by
  obtain ⟨s, hs, hx⟩ := List.mem_filterMap.mp hx
  obtain ⟨hs, hkeys⟩ := List.mem_filter.mp hs
  simp only [bind, Option.bind_eq_some_iff, pure, Option.some.injEq] at hx
  obtain ⟨host, hhost, origin, horigin, rfl⟩ := hx
  obtain ⟨hmem, hiHost, subnet, hsubnet, htype⟩ := getFirstNonDockerBridgeInterfaceForHost_eq_some horigin
  have hid : s.base.hostId = host.id := (Table.get_eq_some.mp hhost).2.symm
  exact ⟨⟨⟨s, hs, hid, mem_keys_containerizedServiceIds.mp (by simpa using hkeys)⟩,
    ⟨origin, hmem, hiHost, subnet, hsubnet, htype⟩⟩, hmem, subnet, hsubnet⟩

/-! ## The bridge to group on -/

theorem mem_containerSubnets {host : Host} {id : Uuid} :
    id ∈ containerSubnets ctx host ↔ ∃ i ∈ ctx.interfaces.rows, i.base.hostId = host.id ∧
      ∃ subnet, ctx.getSubnetById i.base.subnetId = some subnet ∧ subnet.base.subnetType = .dockerBridge ∧
          subnet.id = id := by
  simp only [containerSubnets, TopologyContext.getInterfacesForHost, List.mem_filterMap, List.mem_filter, beq_iff_eq,
    Option.ite_none_right_eq_some, Option.some.injEq]
  constructor
  · rintro ⟨subnet, ⟨i, ⟨hi, hhost⟩, hsubnet⟩, htype, hid⟩
    exact ⟨i, hi, hhost, subnet, hsubnet, htype, hid⟩
  · rintro ⟨i, hi, hhost, subnet, hsubnet, htype, hid⟩
    exact ⟨subnet, ⟨i, ⟨hi, hhost⟩, hsubnet⟩, htype, hid⟩

theorem isSome_getSubnetById_of_mem {host : Host} {id : Uuid} (h : id ∈ containerSubnets ctx host) :
    (ctx.getSubnetById id).isSome = true := by
  obtain ⟨i, -, -, subnet, hsubnet, -, rfl⟩ := mem_containerSubnets.mp h
  exact Option.isSome_iff_exists.mpr ⟨subnet, Table.get_eq_some.mpr ⟨(Table.get_eq_some.mp hsubnet).1, rfl⟩⟩

theorem groupingBridge_listed {x : Service × Host × Interface} {id : Uuid} {edge : Edge}
    (h : groupingBridge ctx x = some (id, edge)) : (ctx.getSubnetById id).isSome = true := by
  obtain ⟨s, host, originInterface⟩ := x
  simp only [groupingBridge] at h
  split at h
  · next firstInterfaceId firstSubnetId _ hsubnet =>
    obtain ⟨_, -, hgrouped⟩ := Option.map_eq_some_iff.mp h
    cases hgrouped
    exact isSome_getSubnetById_of_mem (List.mem_of_head? hsubnet)
  · cases h

/-- A docker host with a bridge is grouped on one. -/
theorem isSome_groupingBridge {x : Service × Host × Interface} (hx : x ∈ dockerHosts ctx) {i : Interface}
    (hi : i ∈ ctx.interfaces.rows) (hhost : i.base.hostId = x.2.1.id) (hbridge : isOnDockerBridge ctx i = true) :
    (groupingBridge ctx x).isSome = true := by
  obtain ⟨-, horigin, originSubnet, horiginSubnet⟩ := containerizes_of_mem hx
  obtain ⟨s, host, originInterface⟩ := x
  obtain ⟨subnet, hsubnet, htype⟩ : ∃ subnet, ctx.getSubnetById i.base.subnetId = some subnet ∧
      subnet.base.subnetType = .dockerBridge := by
    unfold isOnDockerBridge at hbridge
    split at hbridge
    · next subnet hsubnet => exact ⟨subnet, hsubnet, beq_iff_eq.mp hbridge⟩
    · cases hbridge
  have hsubnetId : subnet.id = i.base.subnetId := (Table.get_eq_some.mp hsubnet).2
  have hmemSubnet : i.base.subnetId ∈ containerSubnets ctx host :=
    mem_containerSubnets.mpr ⟨i, hi, hhost, subnet, hsubnet, htype, hsubnetId⟩
  have hmemInterface : i.id ∈ containerSubnetInterfaceIds ctx host :=
    List.mem_filterMap.mpr ⟨i, List.mem_filter.mpr ⟨hi, beq_iff_eq.mpr hhost⟩, if_pos hmemSubnet⟩
  obtain ⟨firstInterfaceId, hfirstInterface⟩ :=
    Option.isSome_iff_exists.mp (List.isSome_head?.mpr (List.ne_nil_of_mem hmemInterface))
  obtain ⟨firstSubnetId, hfirstSubnet⟩ :=
    Option.isSome_iff_exists.mp (List.isSome_head?.mpr (List.ne_nil_of_mem hmemSubnet))
  simp only [groupingBridge, hfirstInterface, hfirstSubnet, Option.isSome_map]
  refine draw_isSome ?_ ?_
  · rw [TopologyContext.getSubnetFromInterfaceId_of_mem horigin, horiginSubnet]
    rfl
  · obtain ⟨j, hj, hjid⟩ := List.mem_filterMap.mp (List.mem_of_head? hfirstInterface)
    obtain ⟨hjsubnet, hjid⟩ := Option.ite_none_right_eq_some.mp hjid
    cases hjid
    rw [TopologyContext.getSubnetFromInterfaceId_of_mem (List.mem_filter.mp hj).1]
    exact isSome_getSubnetById_of_mem hjsubnet

theorem lookup_dockerBridgeHostSubnetIdToGroupOn {hostId : Uuid} :
    (((dockerBridgeHostSubnetIdToGroupOn ctx true).lookup hostId).isSome = true ↔
      ∃ x ∈ dockerHosts ctx, x.2.1.id = hostId ∧ (groupingBridge ctx x).isSome = true) ∧
    ∀ id, (dockerBridgeHostSubnetIdToGroupOn ctx true).lookup hostId = some id →
        (ctx.getSubnetById id).isSome = true := by
  have hfold : dockerBridgeHostSubnetIdToGroupOn ctx true = (dockerHosts ctx).foldl (fun m x =>
      (groupingBridge ctx x).elim m fun grouped =>
        if m.lookup x.2.1.id = none then m.insert x.2.1.id grouped.1 else m) ∅ := by
    rw [dockerBridgeHostSubnetIdToGroupOn, if_pos rfl]
    congr
    funext m x
    cases groupingBridge ctx x <;> rfl
  rw [hfold]
  suffices ∀ (hosts : List (Service × Host × Interface)) (m : Assoc Uuid Uuid),
      (∀ id, m.lookup hostId = some id → (ctx.getSubnetById id).isSome = true) →
      let m' := hosts.foldl (fun m x => (groupingBridge ctx x).elim m fun grouped =>
        if m.lookup x.2.1.id = none then m.insert x.2.1.id grouped.1 else m) m
      ((m'.lookup hostId).isSome = true ↔ (m.lookup hostId).isSome = true ∨
        ∃ x ∈ hosts, x.2.1.id = hostId ∧ (groupingBridge ctx x).isSome = true) ∧
      ∀ id, m'.lookup hostId = some id → (ctx.getSubnetById id).isSome = true by
    obtain ⟨hsome, hlisted⟩ := this (dockerHosts ctx) ∅ fun id h => by cases h
    exact ⟨hsome.trans (or_iff_right (by rw [AList.lookup_empty]; exact Bool.false_ne_true)), hlisted⟩
  intro hosts
  induction hosts with
  | nil => exact fun m hm => ⟨(or_iff_left (by simp)).symm, hm⟩
  | cons x hosts ih =>
    intro m hm
    cases hbridge : groupingBridge ctx x with
    | none =>
      obtain ⟨hsome, hlisted⟩ := ih m hm
      simp only [List.foldl_cons, hbridge, Option.elim_none]
      refine ⟨hsome.trans (or_congr_right ?_), hlisted⟩
      simp [hbridge]
    | some grouped =>
      obtain ⟨subnetId, edge⟩ := grouped
      have hm' : ∀ id, (if m.lookup x.2.1.id = none then m.insert x.2.1.id subnetId else m).lookup hostId = some id →
          (ctx.getSubnetById id).isSome = true := by
        intro id h
        split at h
        · rw [Assoc.lookup_insert_if] at h
          split at h
          · cases h
            exact groupingBridge_listed hbridge
          · exact hm id h
        · exact hm id h
      obtain ⟨hsome, hlisted⟩ := ih _ hm'
      simp only [List.foldl_cons, hbridge, Option.elim_some]
      refine ⟨hsome.trans ?_, hlisted⟩
      simp only [List.mem_cons, exists_eq_or_imp, hbridge, Option.isSome_some, and_true, ← or_assoc]
      refine or_congr_left ?_
      by_cases hhost : x.2.1.id = hostId
      · subst hhost
        split
        · simp
        · next hne => simpa using Option.isSome_iff_ne_none.mpr hne
      · split
        · rw [Assoc.lookup_insert_if, if_neg (Ne.symm hhost)]
          simp [hhost]
        · simp [hhost]

/-- **The hosts that have a bridge to group on are those that run containers.** -/
theorem isSome_lookup_iff {host : Host} (hhost : ctx.getHostById host.id = some host) {i : Interface}
    (hi : i ∈ ctx.interfaces.rows) (hiHost : i.base.hostId = host.id) (hbridge : isOnDockerBridge ctx i = true) :
    ((dockerBridgeHostSubnetIdToGroupOn ctx true).lookup host.id).isSome = true ↔ Containerizes ctx host.id := by
  rw [lookup_dockerBridgeHostSubnetIdToGroupOn.1]
  constructor
  · rintro ⟨x, hx, hid, -⟩
    exact hid ▸ (containerizes_of_mem hx).1
  · intro h
    obtain ⟨x, hx, hxHost⟩ := exists_dockerHost hhost h
    have hid : x.2.1.id = host.id := congrArg Host.id hxHost
    exact ⟨x, hx, hid, isSome_groupingBridge hx hi (hiHost.trans hid.symm) hbridge⟩

end EdgeBuilder

end Netvisor
