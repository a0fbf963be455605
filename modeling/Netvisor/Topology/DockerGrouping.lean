/-
Grouping docker bridges by host: what it does to the interfaces that have a node.

An interface on a bridge is moved to the box that its host is grouped on. A host has
such a box if one of its services runs listed containers and the host is on another
subnet too; the interfaces of the other hosts are left out.
-/
import Netvisor.Topology.Visibility

namespace Netvisor

/-- The ids of the children. -/
def interfaceNodeIds (nodes : List Node) : List Uuid := (nodes.filter fun n => !n.isSubnet).map Node.id

/-- The children with the id, in the box of a subnet that has a node. -/
def boxedNodes (nodes : List Node) (id : Uuid) : List Node :=
  nodes.filter fun n => n.id == id &&
    match n.column with
    | some (subnetId, _) => nodes.any fun m => m.isSubnet && m.id == subnetId
    | none => false

namespace TopologyContext

/-- The same rows, with docker bridges grouped by host or not. -/
def grouping (ctx : TopologyContext) (groupDockerBridgesByHost : Bool) : TopologyContext :=
  { ctx with options.request.groupDockerBridgesByHost := groupDockerBridgesByHost }

/-- Grouping changes the boxes of interfaces only. -/
structure Regroups (ctx : TopologyContext) (forces : Forces) (quality : Quality) : Prop where
  same : (interfaceNodeIds ((ctx.grouping true).buildGraph forces quality).1).Perm
    (interfaceNodeIds ((ctx.grouping false).buildGraph forces quality).1)
  once : ∀ grouped, ∀ i ∈ ctx.interfaces.rows, EdgeBuilder.isOnDockerBridge ctx i = true →
    HasInterfaceNode ((ctx.grouping false).buildGraph forces quality).1 i.id →
    (boxedNodes ((ctx.grouping grouped).buildGraph forces quality).1 i.id).length = 1

variable {ctx : TopologyContext} {forces : Forces} {quality : Quality} {i : Interface} {grouped : Bool}

theorem interfaceNodeIds_eq {nodes : List Node} :
    interfaceNodeIds nodes = (nodes.map Node.placement).filterMap fun p => p.1.map fun _ => p.2 := by
  induction nodes with
  | nil => rfl
  | cons n nodes ih =>
    simp only [interfaceNodeIds] at ih
    rw [interfaceNodeIds, List.filter_cons, List.map_cons, List.filterMap_cons, ← ih]
    cases htype : n.nodeType <;> simp [Node.isSubnet, Node.placement, Node.column, htype]

theorem interfaceNodeIds_buildGraph :
    (interfaceNodeIds (ctx.buildGraph forces quality).1).Perm
      ((ctx.interfaces.rows.filter fun i => (ctx.boxIn i).isSome).map Interface.id) := by
  obtain ⟨subnets, -, hperm⟩ := placement_buildGraph ctx forces quality
  rw [interfaceNodeIds_eq]
  refine (hperm.filterMap _).trans (List.Perm.of_eq ?_)
  rw [List.filterMap_append, List.filterMap_map, List.filterMap_filterMap]
  have hboxes : (subnets.filterMap ((fun p : Option Uuid × Uuid => p.1.map fun _ => p.2) ∘ fun id => (none, id))) =
      [] :=
    List.filterMap_eq_nil_iff.mpr fun _ _ => rfl
  rw [hboxes, List.nil_append]
  induction ctx.interfaces.rows with
  | nil => rfl
  | cons i interfaces ih =>
    rw [List.filterMap_cons, List.filter_cons, ih]
    cases ctx.boxIn i <;> rfl

/-- The boxes of shown interfaces on bridges have nodes. -/
theorem isSome_getSubnetById_box (hbridge : EdgeBuilder.isOnDockerBridge ctx i = true) {box : Uuid}
    (hbox : ctx.boxIn i = some box) : (ctx.getSubnetById box).isSome = true := by
  simp only [boxIn, SubnetLayoutPlanner.shownIn, bind, Option.bind_eq_some_iff] at hbox
  obtain ⟨host, -, hbox⟩ := hbox
  split at hbox
  · cases hbox
  · rw [SubnetLayoutPlanner.boxOf, subnetTypeOf_eq_dockerBridge, hbridge, Bool.and_true] at hbox
    cases hgroup : ctx.options.request.groupDockerBridgesByHost with
    | true =>
      rw [hgroup, if_pos rfl] at hbox
      exact EdgeBuilder.lookup_dockerBridgeHostSubnetIdToGroupOn.2 box hbox
    | false =>
      rw [hgroup, if_neg Bool.false_ne_true] at hbox
      cases hbox
      unfold EdgeBuilder.isOnDockerBridge at hbridge
      split at hbridge
      · next subnet hsubnet => rw [hsubnet]; rfl
      · cases hbridge

/-- A child in the box of a subnet with a node, as a placement. -/
theorem length_boxedNodes {nodes : List Node} {id : Uuid} :
    (boxedNodes nodes id).length = (nodes.map Node.placement).countP fun p =>
      p.2 == id && p.1.any fun box => (nodes.map Node.placement).contains (none, box) := by
  rw [boxedNodes, ← List.countP_eq_length_filter, List.countP_map]
  refine List.countP_congr fun n _ => ?_
  have hbox : ∀ box, (nodes.any fun m => m.isSubnet && m.id == box) =
      (nodes.map Node.placement).contains (none, box) := by
    intro box
    rw [Bool.eq_iff_iff, List.contains_iff_mem, List.any_eq_true, List.mem_map]
    refine exists_congr fun m => and_congr_right fun _ => ?_
    cases htype : m.nodeType <;> simp [Node.isSubnet, Node.placement, Node.column, htype]
  cases hcolumn : n.column with
  | none => simp [Node.placement, hcolumn]
  | some column => simp only [Function.comp_apply, Node.placement, hcolumn, Option.map_some, Option.any_some, hbox]

theorem length_boxedNodes_buildGraph (hi : i ∈ ctx.interfaces.rows)
    (hbridge : EdgeBuilder.isOnDockerBridge ctx i = true) (hbox : (ctx.boxIn i).isSome = true) :
    (boxedNodes (ctx.buildGraph forces quality).1 i.id).length = 1 := by
  obtain ⟨box, hbox⟩ := Option.isSome_iff_exists.mp hbox
  obtain ⟨subnets, ⟨-, hsubnets⟩, hperm⟩ := placement_buildGraph ctx forces quality
  have hmem : box ∈ subnets := hsubnets i hi box hbox (isSome_getSubnetById_box hbridge hbox)
  have hnode : (((ctx.buildGraph forces quality).1).map Node.placement).contains (none, box) = true := by
    rw [List.contains_iff_mem, hperm.mem_iff, List.mem_append]
    exact .inl (List.mem_map_of_mem hmem)
  have hrows := ctx.interfaces.perm_get_filter (k := i.id)
  rw [getInterface_of_mem hi, Option.toList_some, List.singleton_append] at hrows
  rw [length_boxedNodes, hperm.countP_eq, List.countP_append, ((hrows.symm.filterMap _).countP_eq _),
    List.filterMap_cons, hbox, Option.map_some, List.countP_cons, Option.any_some, hnode]
  have hsubnetNodes : ((subnets.map fun id => ((none : Option Uuid), id)).countP fun p =>
      p.2 == i.id && p.1.any fun box => (((ctx.buildGraph forces quality).1).map Node.placement).contains (none,
          box)) = 0 := by
    rw [List.countP_eq_zero]
    intro p hp
    obtain ⟨id, -, rfl⟩ := List.mem_map.mp hp
    simp
  have hothers : (((ctx.interfaces.filter fun r => !decide (r.id = i.id)).rows.filterMap fun i =>
      (ctx.boxIn i).map fun box => (some box, i.id)).countP fun p =>
      p.2 == i.id && p.1.any fun box => (((ctx.buildGraph forces quality).1).map Node.placement).contains (none,
          box)) = 0 := by
    rw [List.countP_eq_zero]
    intro p hp
    obtain ⟨j, hj, hjp⟩ := List.mem_filterMap.mp hp
    obtain ⟨box, -, rfl⟩ := Option.map_eq_some_iff.mp hjp
    have hne : j.id ≠ i.id := by simpa using (Table.mem_filter.mp hj).2
    simp [hne]
  rw [hsubnetNodes, hothers]
  simp

/-! ## When nothing is lost -/

theorem isSome_boxIn_grouping (hi : i ∈ ctx.interfaces.rows) :
    ((ctx.grouping grouped).boxIn i).isSome = true ↔
      (ctx.getHostById i.base.hostId).isSome = true ∧ (ctx.IsBound i ∨ ctx.HasOpenBinding) ∧
        (grouped = true → EdgeBuilder.isOnDockerBridge ctx i = true →
          EdgeBuilder.Containerizes ctx i.base.hostId) := by
  have hsome : ((ctx.grouping grouped).boxIn i).isSome = true ↔
      (ctx.IsBound i ∨ ctx.HasOpenBinding) ∧ (ctx.grouping grouped).IsPlaced i := isSome_boxIn hi
  have hcontainerizes : EdgeBuilder.Containerizes (ctx.grouping grouped) i.base.hostId ↔
      EdgeBuilder.Containerizes ctx i.base.hostId := ⟨fun h => ⟨h.1, h.2⟩, fun h => ⟨h.1, h.2⟩⟩
  rw [hsome, IsPlaced, hcontainerizes]
  exact and_left_comm

/-- **Grouping loses no interface exactly where the host of each interface on a docker bridge that a service is bound
to runs containers.** -/
theorem regroups_iff (ctx : TopologyContext) (forces : Forces) (quality : Quality) :
    ctx.Regroups forces quality ↔
      ∀ i ∈ ctx.interfaces.rows, EdgeBuilder.isOnDockerBridge ctx i = true →
        (ctx.getHostById i.base.hostId).isSome = true → (ctx.IsBound i ∨ ctx.HasOpenBinding) →
        EdgeBuilder.Containerizes ctx i.base.hostId := by
  constructor
  · intro h i hi hbridge hhost hbound
    have hungrouped : ((ctx.grouping false).boxIn i).isSome = true :=
      (isSome_boxIn_grouping hi).mpr ⟨hhost, hbound, fun hfalse => absurd hfalse Bool.false_ne_true⟩
    have hid : i.id ∈ interfaceNodeIds ((ctx.grouping false).buildGraph forces quality).1 :=
      interfaceNodeIds_buildGraph.mem_iff.mpr (List.mem_map_of_mem (List.mem_filter.mpr ⟨hi, hungrouped⟩))
    obtain ⟨j, hj, hji⟩ := List.mem_map.mp (interfaceNodeIds_buildGraph.mem_iff.mp (h.same.mem_iff.mpr hid))
    obtain ⟨hjrows, hjgrouped⟩ := List.mem_filter.mp hj
    have hij : j = i := ctx.interfaces.eq_of_key hjrows hi hji
    subst hij
    exact ((isSome_boxIn_grouping hi).mp hjgrouped).2.2 rfl hbridge
  · intro h
    have hsame : ∀ grouped, ∀ i ∈ ctx.interfaces.rows,
        ((ctx.grouping grouped).boxIn i).isSome = ((ctx.grouping false).boxIn i).isSome := by
      intro grouped i hi
      rw [Bool.eq_iff_iff, isSome_boxIn_grouping hi, isSome_boxIn_grouping hi]
      constructor
      · exact fun ⟨hhost, hbound, _⟩ => ⟨hhost, hbound, fun hfalse => absurd hfalse Bool.false_ne_true⟩
      · exact fun ⟨hhost, hbound, _⟩ => ⟨hhost, hbound, fun _ hbridge => h i hi hbridge hhost hbound⟩
    refine ⟨?_, fun grouped i hi hbridge hnode => ?_⟩
    · refine interfaceNodeIds_buildGraph.trans (List.Perm.trans (List.Perm.of_eq ?_) interfaceNodeIds_buildGraph.symm)
      exact congrArg _ (List.filter_congr (hsame true))
    · have hbox : ((ctx.grouping grouped).boxIn i).isSome = true := by
        rw [hsame grouped i hi]
        exact (@hasInterfaceNode_buildGraph (ctx.grouping false) forces quality i hi).mp hnode
      exact @length_boxedNodes_buildGraph (ctx.grouping grouped) forces quality i hi hbridge hbox

/-- A host that is on a docker bridge only. -/
def bridgeOnly : TopologyContext where
  hosts := .single { id := 1 }
  interfaces := .single { id := 11, base := { hostId := 1, subnetId := 21 } }
  subnets := .single { id := 21, base := { cidr := ⟨.v4 0, 24⟩, networkId := 1, subnetType := .dockerBridge } }
  services := .single
    { id := 31, base := { hostId := 1, bindings := [{ id := 41, base := { bindingType := .interface 11 } }] } }

/-- Grouped, its interface has no node. -/
theorem bridgeOnly_not_regroups : ¬ bridgeOnly.Regroups {} {} := by
  intro h
  have hgrouped : interfaceNodeIds ((bridgeOnly.grouping true).buildGraph {} {}).1 = [] := by decide +kernel
  have hungrouped : interfaceNodeIds ((bridgeOnly.grouping false).buildGraph {} {}).1 = [11] := by decide +kernel
  have hsame := h.same
  rw [hgrouped, hungrouped] at hsame
  exact List.cons_ne_nil _ _ (List.nil_perm.mp hsame)

end TopologyContext

end Netvisor
