/-
Which interfaces have a node, as the planner decides it and as the edge builder
takes it to be.

The planner shows an interface that a service is bound to, also by a binding to all
interfaces, if its host is listed and, where bridges are grouped by host, the host
has one to group on. The edge builder asks for a binding to the interface itself and
for nothing else.
-/
import Netvisor.Topology.EdgeBuilderFacts
import Netvisor.Topology.OptimizerFacts

namespace Netvisor

/-- A child with the id is among the nodes. -/
def HasInterfaceNode (nodes : List Node) (id : Uuid) : Prop := ∃ n ∈ nodes, n.isSubnet = false ∧ n.id = id

instance (nodes : List Node) (id : Uuid) : Decidable (HasInterfaceNode nodes id) :=
  inferInstanceAs (Decidable (∃ n ∈ nodes, n.isSubnet = false ∧ n.id = id))

theorem hasInterfaceNode_iff {nodes : List Node} {id : Uuid} :
    HasInterfaceNode nodes id ↔ ∃ box, (some box, id) ∈ nodes.map Node.placement := by
  simp only [HasInterfaceNode, List.mem_map, Node.placement, Prod.mk.injEq]
  constructor
  · rintro ⟨n, hn, hsubnet, hid⟩
    cases htype : n.nodeType with
    | subnetNode _ => simp [Node.isSubnet, htype] at hsubnet
    | interfaceNode subnetId _ _ _ => exact ⟨subnetId, n, hn, by simp [Node.column, htype], hid⟩
  · rintro ⟨box, n, hn, hbox, hid⟩
    refine ⟨n, hn, ?_, hid⟩
    cases htype : n.nodeType with
    | subnetNode _ => simp [Node.column, htype] at hbox
    | interfaceNode _ _ _ _ => simp [Node.isSubnet, htype]

namespace TopologyContext

variable (ctx : TopologyContext)

/-- A listed service has a binding to the interface. -/
def IsBound (i : Interface) : Prop := ∃ s ∈ ctx.services.rows, some i.id ∈ s.toBoundInterfaceIds

/-- A listed service has a binding to all interfaces. -/
def HasOpenBinding : Prop := ∃ s ∈ ctx.services.rows, none ∈ s.toBoundInterfaceIds

/-- Its host is listed, and runs containers if bridges are grouped and the interface is on one. -/
def IsPlaced (i : Interface) : Prop :=
  (ctx.getHostById i.base.hostId).isSome = true ∧
    (ctx.options.request.groupDockerBridgesByHost = true → EdgeBuilder.isOnDockerBridge ctx i = true →
      EdgeBuilder.Containerizes ctx i.base.hostId)

variable {ctx} {forces : Forces} {quality : Quality} {i : Interface}

theorem interfaceWillHaveNode_iff : ctx.interfaceWillHaveNode i.id = true ↔ ctx.IsBound i := by
  simp only [interfaceWillHaveNode, getServicesBoundToInterface, IsBound, Bool.not_eq_true',
    List.isEmpty_eq_false_iff_exists_mem, List.mem_filter, List.any_eq_true, beq_iff_eq, exists_eq_right]

theorem isEmpty_interfaceBoundServices :
    (SubnetLayoutPlanner.interfaceBoundServices ctx i).isEmpty = false ↔ ctx.IsBound i ∨ ctx.HasOpenBinding := by
  simp only [SubnetLayoutPlanner.interfaceBoundServices, List.isEmpty_eq_false_iff_exists_mem, List.mem_filter,
    List.any_eq_true, IsBound, HasOpenBinding, Service.toBoundInterfaceIds, List.mem_map]
  constructor
  · rintro ⟨s, hs, b, hb, hto⟩
    cases hid : b.interfaceId with
    | none => exact .inr ⟨s, hs, b, hb, hid⟩
    | some id =>
      rw [hid, beq_iff_eq] at hto
      exact .inl ⟨s, hs, b, hb, hto ▸ hid⟩
  · rintro (⟨s, hs, b, hb, hid⟩ | ⟨s, hs, b, hb, hid⟩)
    · exact ⟨s, hs, b, hb, by simp [hid]⟩
    · exact ⟨s, hs, b, hb, by simp [hid]⟩

theorem subnetTypeOf_eq_dockerBridge :
    (SubnetLayoutPlanner.subnetTypeOf ctx i == .dockerBridge) = EdgeBuilder.isOnDockerBridge ctx i := by
  unfold SubnetLayoutPlanner.subnetTypeOf EdgeBuilder.isOnDockerBridge
  cases ctx.getSubnetById i.base.subnetId <;> rfl

/-! ## The nodes of a graph -/

/-- The box that the graph has the interface in. -/
def boxIn (ctx : TopologyContext) (i : Interface) : Option Uuid :=
  SubnetLayoutPlanner.shownIn ctx ctx.options.request.groupDockerBridgesByHost
    (EdgeBuilder.dockerBridgeHostSubnetIdToGroupOn ctx ctx.options.request.groupDockerBridgesByHost) i

/-- **The nodes of a graph are the interfaces that are shown, in one box each, and the boxes.** -/
theorem placement_buildGraph (ctx : TopologyContext) (forces : Forces) (quality : Quality) :
    ∃ subnets : List Uuid,
      (subnets.Nodup ∧ ∀ i ∈ ctx.interfaces.rows, ∀ box, ctx.boxIn i = some box →
        (ctx.getSubnetById box).isSome = true → box ∈ subnets) ∧
      (((ctx.buildGraph forces quality).1).map Node.placement).Perm
        ((subnets.map fun id => (none, id)) ++
          ctx.interfaces.rows.filterMap fun i => (ctx.boxIn i).map fun box => (some box, i.id)) := by
  rw [buildGraph, TopologyOptimizer.map_placement_optimizeGraph, List.map_append,
    SubnetLayoutPlanner.placement_createSubnetNodes, SubnetLayoutPlanner.subnetLayouts, Assoc.keys_mapKey]
  have hchildren := SubnetLayoutPlanner.placement_groupChildrenBySubnet ctx ctx.options.request.groupDockerBridgesByHost
    (EdgeBuilder.dockerBridgeHostSubnetIdToGroupOn ctx ctx.options.request.groupDockerBridgesByHost)
    (EdgeBuilder.allEdges ctx ctx.interfaceWillHaveNode)
  refine ⟨_, ⟨(AList.keys_nodup _).filter _, fun i hi box hbox hlisted => ?_⟩,
    (SubnetLayoutPlanner.placement_childNodes.trans hchildren).append_left _⟩
  refine List.mem_filter.mpr ⟨?_, hlisted⟩
  have hmem := hchildren.mem_iff.mpr (List.mem_filterMap.mpr ⟨i, hi, congrArg (Option.map _) hbox⟩)
  obtain ⟨e, he, hmem⟩ := List.mem_flatMap.mp hmem
  obtain ⟨c, -, hc⟩ := List.mem_map.mp hmem
  have hkey : e.1 = box := Option.some.inj (Prod.mk.inj hc).1
  exact hkey ▸ List.mem_keys_of_mem he

theorem hasInterfaceNode_buildGraph (hi : i ∈ ctx.interfaces.rows) :
    HasInterfaceNode (ctx.buildGraph forces quality).1 i.id ↔ (ctx.boxIn i).isSome = true := by
  obtain ⟨subnets, -, hperm⟩ := placement_buildGraph ctx forces quality
  rw [hasInterfaceNode_iff]
  simp only [hperm.mem_iff, List.mem_append, List.mem_map, List.mem_filterMap, Option.map_eq_some_iff, Prod.mk.injEq,
    reduceCtorEq, false_and, and_false, exists_false, false_or, Option.some.injEq]
  constructor
  · rintro ⟨box, j, hj, box', hbox, -, hid⟩
    rw [← ctx.interfaces.eq_of_key hj hi hid, hbox]
    rfl
  · intro hbox
    obtain ⟨box, hbox⟩ := Option.isSome_iff_exists.mp hbox
    exact ⟨box, i, hi, box, hbox, rfl, rfl⟩

theorem isSome_boxIn (hi : i ∈ ctx.interfaces.rows) :
    (ctx.boxIn i).isSome = true ↔ (ctx.IsBound i ∨ ctx.HasOpenBinding) ∧ ctx.IsPlaced i := by
  rw [← isEmpty_interfaceBoundServices, IsPlaced, boxIn, SubnetLayoutPlanner.shownIn]
  cases hhost : ctx.getHostById i.base.hostId with
  | none => simp [bind]
  | some host =>
    have hid : host.id = i.base.hostId := (Table.get_eq_some.mp hhost).2
    have hget : ctx.getHostById host.id = some host := hid ▸ hhost
    have hlookup := fun hbridge => EdgeBuilder.isSome_lookup_iff hget hi hid.symm hbridge
    simp only [bind, Option.bind_some, Option.isSome_some, true_and]
    cases hempty : (SubnetLayoutPlanner.interfaceBoundServices ctx i).isEmpty with
    | true => simp
    | false =>
      simp only [Bool.false_eq_true, if_false, SubnetLayoutPlanner.boxOf, subnetTypeOf_eq_dockerBridge, true_and]
      cases hgroup : ctx.options.request.groupDockerBridgesByHost with
      | false => simp
      | true =>
        cases hbridge : EdgeBuilder.isOnDockerBridge ctx i with
        | false => simp
        | true => simpa [hid] using hlookup hbridge

/-! ## Agreement -/

/-- Planner and edge builder have the same interfaces in view. -/
structure NodesAgree (ctx : TopologyContext) (forces : Forces) (quality : Quality) : Prop where
  same : ∀ i ∈ ctx.interfaces.rows,
    (ctx.interfaceWillHaveNode i.id = true ↔ HasInterfaceNode (ctx.buildGraph forces quality).1 i.id)
  /-- An edge of the graph is between nodes. -/
  ends : ∀ e ∈ (ctx.buildGraph forces quality).2, ∀ i ∈ ctx.interfaces.rows, i.id = e.source ∨ i.id = e.target →
    ∃ n ∈ (ctx.buildGraph forces quality).1, n.id = i.id
  /-- An edge that would be drawn if everything was visible is drawn if its ends have nodes. -/
  drawn : ∀ e ∈ EdgeBuilder.allEdges ctx (fun _ => true),
    EdgeBuilder.EndsVisible ctx (fun id => (ctx.buildGraph forces quality).1.any fun n =>
      !n.isSubnet && n.id == id) e →
    e ∈ EdgeBuilder.allEdges ctx ctx.interfaceWillHaveNode

/-- **Planner and edge builder agree exactly where each interface that a service is bound to is placed, and each
one that is placed is bound to if there are bindings to all.** -/
theorem nodesAgree_iff (ctx : TopologyContext) (forces : Forces) (quality : Quality) :
    ctx.NodesAgree forces quality ↔
      ∀ i ∈ ctx.interfaces.rows, (ctx.IsBound i → ctx.IsPlaced i) ∧
        (ctx.HasOpenBinding → ctx.IsPlaced i → ctx.IsBound i) := by
  constructor
  · intro h i hi
    have hsame := h.same i hi
    rw [interfaceWillHaveNode_iff, hasInterfaceNode_buildGraph hi, isSome_boxIn hi] at hsame
    exact ⟨fun hbound => (hsame.mp hbound).2, fun hopen hplaced => hsame.mpr ⟨.inr hopen, hplaced⟩⟩
  · intro h
    have hsame : ∀ i ∈ ctx.interfaces.rows,
        (ctx.interfaceWillHaveNode i.id = true ↔ HasInterfaceNode (ctx.buildGraph forces quality).1 i.id) := by
      intro i hi
      obtain ⟨hplaced, hbound⟩ := h i hi
      rw [interfaceWillHaveNode_iff, hasInterfaceNode_buildGraph hi, isSome_boxIn hi]
      constructor
      · exact fun hb => ⟨.inl hb, hplaced hb⟩
      · rintro ⟨hb | hopen, hp⟩
        · exact hb
        · exact hbound hopen hp
    refine ⟨hsame, ?_, fun e he hends => EdgeBuilder.mem_allEdges (fun i hi hend => ?_) he⟩
    · intro e he i _ hend
      have hkept := (List.mem_filter.mp he).2
      simp only [Bool.and_eq_true, List.any_eq_true, beq_iff_eq] at hkept
      rcases hend with hend | hend
      · exact hend ▸ hkept.1
      · exact hend ▸ hkept.2
    · have hnode := hends i hi hend
      simp only [List.any_eq_true, Bool.and_eq_true, Bool.not_eq_true', beq_iff_eq] at hnode
      exact (hsame i hi).mpr hnode

/-- A host on two subnets, with a service that listens on all interfaces. -/
def listeningEverywhere : TopologyContext where
  hosts := ⟨[{ id := 1 }], by decide⟩
  interfaces := ⟨[{ id := 11, base := { hostId := 1, subnetId := 21 } },
    { id := 12, base := { hostId := 1, subnetId := 22 } }], by decide⟩
  subnets := ⟨[{ id := 21, base := { cidr := ⟨.v4 0, 24⟩, networkId := 1, subnetType := .lan } },
    { id := 22, base := { cidr := ⟨.v4 0, 24⟩, networkId := 1, subnetType := .lan } }], by decide⟩
  services := ⟨[{ id := 31, base :=
    { hostId := 1, bindings := [{ id := 41, base := { bindingType := .port 51 none } }] } }], by decide⟩

/-- The planner shows both interfaces, the edge builder takes neither to be shown. -/
theorem listeningEverywhere_not_nodesAgree : ¬ listeningEverywhere.NodesAgree {} {} := by
  intro h
  have hnode : HasInterfaceNode (listeningEverywhere.buildGraph {} {}).1 11 := by decide +kernel
  have hwill : listeningEverywhere.interfaceWillHaveNode 11 = false := by decide
  have hsame := h.same { id := 11, base := { hostId := 1, subnetId := 21 } } (by decide)
  rw [hwill] at hsame
  exact Bool.false_ne_true (hsame.mpr hnode)

end TopologyContext

end Netvisor
