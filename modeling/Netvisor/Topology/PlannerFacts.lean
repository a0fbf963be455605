/-
What the layout planner does: every child gets a cell of its own, and every
interface that is shown goes to one box.
-/
import Mathlib.Data.Finset.Card
import Mathlib.Data.Finset.Prod
import Netvisor.Lib.Sorting
import Netvisor.Topology.Optimizer

namespace Netvisor

namespace ChildNodePlanner

/-! ## The search for a cell -/

variable {w h n size radius : Nat} {i : Int} {grid : Grid} {ideal cell : Nat × Nat}

theorem mem_around : i ∈ around radius ↔ -(radius : Int) ≤ i ∧ i ≤ radius := by
  simp only [around, List.mem_map, List.mem_range]
  constructor
  · rintro ⟨k, hk, rfl⟩
    omega
  · rintro ⟨hlow, hhigh⟩
    exact ⟨(i + radius).toNat, by omega, by omega⟩

theorem clampTo_lt (hsize : 0 < size) : clampTo size i < size := by
  simp only [clampTo]
  omega

theorem clampTo_of_lt {k : Nat} (hk : k < size) (hi : i = k) : clampTo size i = k := by
  simp only [clampTo]
  omega

/-- The cells are cells of the grid, and each holds one child. -/
structure Grid.Fits (w h : Nat) (grid : Grid) : Prop where
  nodup : (grid.map Prod.fst).Nodup
  inside : ∀ cell ∈ grid.map Prod.fst, cell.1 < w ∧ cell.2 < h

theorem findSlot_fits (hw : 0 < w) (hh : 0 < h) (hfind : findSlot w h grid ideal = some cell) :
    (cell.1 < w ∧ cell.2 < h) ∧ cell ∉ grid.map Prod.fst := by
  obtain ⟨radius, -, hradius⟩ := List.exists_of_findSome?_eq_some hfind
  have hfree := List.find?_some hradius
  have hmem := List.mem_of_find?_eq_some hradius
  simp only [List.mem_flatMap, List.mem_map] at hmem
  obtain ⟨dy, -, dx, -, rfl⟩ := hmem
  exact ⟨⟨clampTo_lt hw, clampTo_lt hh⟩, by simpa using hfree⟩

/-- The search reaches every cell. -/
theorem findSlot_isSome (hideal : ideal.1 < w ∧ ideal.2 < h) (hcell : cell.1 < w ∧ cell.2 < h)
    (hfree : cell ∉ grid.map Prod.fst) : ∃ found, findSlot w h grid ideal = some found := by
  rw [← Option.isSome_iff_exists, findSlot, List.findSome?_isSome_iff]
  refine ⟨max w h - 1, List.mem_range.mpr (by omega), ?_⟩
  rw [List.find?_isSome]
  refine ⟨cell, ?_, by simpa using hfree⟩
  have hdx : (cell.1 : Int) - ideal.1 ∈ around (max w h - 1) := mem_around.mpr (by omega)
  have hdy : (cell.2 : Int) - ideal.2 ∈ around (max w h - 1) := mem_around.mpr (by omega)
  refine List.mem_flatMap.mpr ⟨_, hdy, List.mem_map.mpr ⟨_, hdx, Prod.ext ?_ ?_⟩⟩
  · exact clampTo_of_lt hcell.1 (by omega)
  · exact clampTo_of_lt hcell.2 (by omega)

theorem Grid.Fits.exists_free (hfits : grid.Fits w h) (hlt : grid.length < w * h) :
    ∃ cell : Nat × Nat, (cell.1 < w ∧ cell.2 < h) ∧ cell ∉ grid.map Prod.fst := by
  have hcard : (grid.map Prod.fst).toFinset.card < (Finset.range w ×ˢ Finset.range h).card := by
    rw [List.toFinset_card_of_nodup hfits.nodup, List.length_map, Finset.card_product, Finset.card_range,
      Finset.card_range]
    exact hlt
  obtain ⟨cell, hcell, hfree⟩ := Finset.exists_mem_notMem_of_card_lt_card hcard
  rw [Finset.mem_product, Finset.mem_range, Finset.mem_range] at hcell
  exact ⟨cell, hcell, fun hmem => hfree (List.mem_toFinset.mpr hmem)⟩

theorem Grid.Fits.placeChild (hfits : grid.Fits w h) (hlt : grid.length < w * h) (child : SubnetChild) (ideal : Ixy) :
    (placeChild w h grid child ideal).Fits w h ∧
      (placeChild w h grid child ideal).map Prod.snd = grid.map Prod.snd ++ [child] := by
  obtain ⟨free, hcell, hfree⟩ := hfits.exists_free hlt
  have hw : 0 < w := by omega
  have hh : 0 < h := by omega
  have hideal : clampTo w ideal.x < w ∧ clampTo h ideal.y < h := ⟨clampTo_lt hw, clampTo_lt hh⟩
  obtain ⟨found, hfound⟩ : ∃ found, findSlot w h grid (clampTo w ideal.x, clampTo h ideal.y) = some found :=
    findSlot_isSome hideal hcell hfree
  obtain ⟨hinside, hnew⟩ := findSlot_fits hw hh hfound
  simp only [ChildNodePlanner.placeChild, hfound]
  refine ⟨⟨?_, ?_⟩, by simp⟩
  · rw [List.map_append, List.nodup_append]
    refine ⟨hfits.nodup, List.nodup_singleton _, ?_⟩
    rintro a ha b hb rfl
    rw [List.mem_singleton.mp hb] at ha
    exact hnew ha
  · intro cell hcell
    rw [List.map_append, List.mem_append] at hcell
    rcases hcell with hcell | hcell
    · exact hfits.inside cell hcell
    · rw [List.mem_singleton.mp hcell]
      exact hinside

theorem Grid.Fits.foldl (ideal : SubnetChild × Ixy → Ixy) (sorted : List (SubnetChild × Ixy)) (hfits : grid.Fits w h)
    (hle : grid.length + sorted.length ≤ w * h) :
    (sorted.foldl (fun grid c => ChildNodePlanner.placeChild w h grid c.1 (ideal c)) grid).Fits w h ∧
      (sorted.foldl (fun grid c => ChildNodePlanner.placeChild w h grid c.1 (ideal c)) grid).map Prod.snd =
        grid.map Prod.snd ++ sorted.map Prod.fst := by
  induction sorted generalizing grid with
  | nil => exact ⟨hfits, by simp⟩
  | cons c sorted ih =>
    rw [List.length_cons] at hle
    obtain ⟨hnext, hchildren⟩ := hfits.placeChild (by omega) c.1 (ideal c)
    have hlength := congrArg List.length hchildren
    rw [List.length_map, List.length_append, List.length_map, List.length_singleton] at hlength
    obtain ⟨hlast, hall⟩ := ih hnext (by omega)
    refine ⟨hlast, ?_⟩
    rw [List.foldl_cons, hall, hchildren, List.map_cons, List.append_assoc, List.singleton_append]

/-! ## The size of the grid -/

theorem le_gridWidth_mul_gridHeight : n ≤ gridWidth n * gridHeight n := by
  have hpos : 0 < gridWidth n := by
    simp only [gridWidth]
    omega
  have hlt : n < gridWidth n * ((n + gridWidth n - 1) / gridWidth n) + 1 := by
    have := Nat.lt_mul_div_succ (n + gridWidth n - 1) hpos
    rw [Nat.mul_add, Nat.mul_one] at this
    omega
  calc n ≤ gridWidth n * ((n + gridWidth n - 1) / gridWidth n) := by omega
    _ ≤ gridWidth n * gridHeight n := Nat.mul_le_mul_left _ (Nat.le_max_left _ _)

variable (forces : Forces) (ctx : TopologyContext) (children : List SubnetChild)

/-- **Every child gets a cell, and no two get one.** -/
theorem arrange_fits :
    (arrange forces ctx children).Fits (gridWidth children.length) (gridHeight children.length) ∧
      ((arrange forces ctx children).map Prod.snd).Perm children := by
  have hperm := (children.map fun c => (c, forces.force ctx children c)).perm_insertionSort placedBefore
  have hlength := hperm.length_eq
  rw [List.length_map] at hlength
  have hempty : Grid.Fits (gridWidth children.length) (gridHeight children.length) [] :=
    ⟨List.nodup_nil, fun cell hcell => (List.not_mem_nil hcell).elim⟩
  obtain ⟨hfits, hall⟩ := hempty.foldl
    (fun c => forces.ideal ((children.map fun c => (c, forces.force ctx children c)).map (·.2)) c.2
      (gridWidth children.length) (gridHeight children.length))
    ((children.map fun c => (c, forces.force ctx children c)).insertionSort placedBefore)
    (by rw [hlength, List.length_nil, Nat.zero_add]; exact le_gridWidth_mul_gridHeight)
  refine ⟨hfits, ?_⟩
  have hchildren := hperm.map Prod.fst
  rw [List.map_map] at hchildren
  rw [List.map_nil, List.nil_append] at hall
  unfold arrange
  rw [hall]
  simpa [Function.comp_def] using hchildren

theorem map_id_calculateAnchorBasedPositions (padding : Uxy) :
    ((calculateAnchorBasedPositions forces ctx children padding).map Prod.fst).Perm
    (children.map SubnetChild.id) := by
  have hperm := (arrange_fits forces ctx children).2.map SubnetChild.id
  rw [List.map_map] at hperm
  simpa only [calculateAnchorBasedPositions, List.map_map, Function.comp_def] using hperm

end ChildNodePlanner

/-! ## Which box an interface is in -/

/-- The box of a child, and its own id. -/
def Node.placement (n : Node) : Option Uuid × Uuid := (n.column.map Prod.fst, n.id)

namespace SubnetLayoutPlanner

variable {ctx : TopologyContext} {forces : Forces}

theorem partitionChildren_perm (subnetId : Uuid) (children : List SubnetChild) :
    ((partitionChildren ctx subnetId children).1 ++ (partitionChildren ctx subnetId children).2).Perm children := by
  unfold partitionChildren
  split
  · rw [List.partition_eq_filter_filter]
    exact (List.filter_append_perm _ _).trans (List.perm_insertionSort _ _)
  · rfl

theorem lookup_layoutZone {children : List SubnetChild} {child : SubnetChild} (hchild : child ∈ children) :
    ∃ layout, ((layoutZone ctx forces children).1).lookup child.id = some layout := by
  have hne : children.isEmpty = false := by cases children with
    | nil => cases hchild
    | cons _ _ => rfl
  rw [← Option.isSome_iff_exists, List.lookup_isSome_iff]
  simp only [layoutZone, hne, Bool.false_eq_true, if_false]
  have hperm := ChildNodePlanner.map_id_calculateAnchorBasedPositions forces ctx children nodePadding
  have hmem := hperm.mem_iff.mpr (List.mem_map_of_mem hchild)
  obtain ⟨entry, hentry, hid⟩ := List.mem_map.mp hmem
  exact ⟨entry, hentry, by simp [hid]⟩

theorem placement_zoneNodes {subnetId : Uuid} {isInfra : Bool} {offset : Nat} {children : List SubnetChild}
    {positions : List (Uuid × NodeLayout)}
    (h : ∀ child ∈ children, ∃ layout, positions.lookup child.id = some layout) :
    (zoneNodes subnetId isInfra offset children positions).map Node.placement =
      children.map fun c => (some subnetId, c.id) := by
  induction children with
  | nil => rfl
  | cons child children ih =>
    obtain ⟨layout, hlayout⟩ := h child List.mem_cons_self
    have ih := ih fun c hc => h c (List.mem_cons_of_mem child hc)
    simp only [zoneNodes] at ih
    simp only [zoneNodes, List.filterMap_cons, hlayout, Option.map_some, List.map_cons, ih, Node.placement,
      Node.column]

/-- **Every child of a box gets one node.** -/
theorem placement_calculateSubnetSize {subnetId : Uuid} {children : List SubnetChild} :
    (((calculateSubnetSize ctx forces subnetId children).2).map Node.placement).Perm
      (children.map fun c => (some subnetId, c.id)) := by
  simp only [calculateSubnetSize, List.map_append]
  rw [placement_zoneNodes fun child => lookup_layoutZone, placement_zoneNodes fun child => lookup_layoutZone,
    ← List.map_append]
  exact (partitionChildren_perm subnetId children).map fun c => (some subnetId, c.id)

theorem placement_childNodes {m : Assoc Uuid (List SubnetChild)} :
    ((childNodes ctx forces m).map Node.placement).Perm
      (m.entries.flatMap fun e => e.2.map fun c => (some e.1, c.id)) := by
  rw [childNodes, List.map_flatMap]
  exact List.Perm.flatMap_left _ fun _ _ => placement_calculateSubnetSize

/-! ## The interfaces that are shown -/

variable (ctx) (groupDockerBridgesByHost : Bool) (dockerBridgeHostSubnetIdToGroupOn : Assoc Uuid Uuid)

/-- The box that an interface has a node in. -/
def shownIn (interface : Interface) : Option Uuid := do
  let host ← ctx.getHostById interface.base.hostId
  if (interfaceBoundServices ctx interface).isEmpty then none
  else boxOf ctx groupDockerBridgesByHost dockerBridgeHostSubnetIdToGroupOn interface host

variable {ctx groupDockerBridgesByHost dockerBridgeHostSubnetIdToGroupOn}

theorem placement_addChild {grouping : Grouping} {interface : Interface} :
    ((addChild ctx groupDockerBridgesByHost dockerBridgeHostSubnetIdToGroupOn grouping
        interface).childrenBySubnet.entries.flatMap fun e => e.2.map fun c => (some e.1, c.id)).Perm
      (((shownIn ctx groupDockerBridgesByHost dockerBridgeHostSubnetIdToGroupOn interface).toList.map fun box =>
          (some box, interface.id)) ++
        grouping.childrenBySubnet.entries.flatMap fun e => e.2.map fun c => (some e.1, c.id)) := by
  unfold addChild shownIn
  cases ctx.getHostById interface.base.hostId with
  | none => rfl
  | some host =>
    by_cases hservices : (interfaceBoundServices ctx interface).isEmpty = true
    · simp [hservices]
    · cases hbox : boxOf ctx groupDockerBridgesByHost dockerBridgeHostSubnetIdToGroupOn interface host with
      | none => simp [hservices, hbox]
      | some subnetId =>
        simp only [hservices, Bool.false_eq_true, if_false, hbox, bind, Option.bind]
        refine Assoc.perm_flatMap_insert (fun (k : Uuid) (v : List SubnetChild) => v.map fun c => (some k, c.id))
          (d := []) rfl ?_
        rw [List.map_append]
        rfl

/-- **Every interface that is shown goes to one box.** -/
theorem placement_groupChildrenBySubnet (ctx : TopologyContext) (groupDockerBridgesByHost : Bool)
    (dockerBridgeHostSubnetIdToGroupOn : Assoc Uuid Uuid) (allEdges : List Edge) :
    ((groupChildrenBySubnet ctx groupDockerBridgesByHost dockerBridgeHostSubnetIdToGroupOn
        allEdges).childrenBySubnet.entries.flatMap fun e => e.2.map fun c => (some e.1, c.id)).Perm
      (ctx.interfaces.rows.filterMap fun i =>
        (shownIn ctx groupDockerBridgesByHost dockerBridgeHostSubnetIdToGroupOn i).map fun box =>
          (some box, i.id)) := by
  have hfold : ∀ (interfaces : List Interface) (grouping : Grouping),
      ((interfaces.foldl (addChild ctx groupDockerBridgesByHost dockerBridgeHostSubnetIdToGroupOn)
          grouping).childrenBySubnet.entries.flatMap fun e => e.2.map fun c => (some e.1, c.id)).Perm
        ((interfaces.filterMap fun i =>
            (shownIn ctx groupDockerBridgesByHost dockerBridgeHostSubnetIdToGroupOn i).map fun box =>
              (some box, i.id)) ++
          grouping.childrenBySubnet.entries.flatMap fun e => e.2.map fun c => (some e.1, c.id)) := by
    intro interfaces
    induction interfaces with
    | nil => exact fun grouping => List.Perm.refl _
    | cons i interfaces ih =>
      intro grouping
      refine (ih _).trans ((placement_addChild.append_left _).trans ?_)
      rw [List.filterMap_cons]
      cases shownIn ctx groupDockerBridgesByHost dockerBridgeHostSubnetIdToGroupOn i with
      | none => exact List.Perm.refl _
      | some box => exact List.perm_middle
  have hrows := hfold ctx.interfaces.rows { edges := allEdges }
  rwa [show (∅ : Assoc Uuid (List SubnetChild)).entries = [] from rfl, List.flatMap_nil, List.append_nil] at hrows

/-! ## The subnets that have a node -/

variable {layouts : Assoc Uuid SubnetLayout}

/-- The rows hold the subnets that have a layout. -/
theorem map_id_subnetRows :
    ((calculateSubnetGridPositionsByLayer ctx layouts).flatten.map Prod.fst).Perm
      ((ctx.subnets.rows.filter fun s => (layouts.lookup s.id).isSome).map Subnet.id) := by
  simp only [calculateSubnetGridPositionsByLayer, ← List.flatMap_def, List.map_flatMap, List.map_map,
    Function.comp_def]
  have hgroups : ∀ sorted : List (Subnet × SubnetLayout),
      (((sorted.map fun x => x.1.base.subnetType.verticalOrder).dedup.insertionSort (· ≤ ·)).flatMap fun layer =>
        (sorted.filter fun x => x.1.base.subnetType.verticalOrder == layer).map fun x => x.1.id).Perm
        (sorted.map fun x => x.1.id) := by
    intro sorted
    have hperm := (Sorting.perm_groups (f := fun x => x.1.base.subnetType.verticalOrder) (l := sorted)
      (List.perm_insertionSort (· ≤ ·) _)).map fun x => x.1.id
    rwa [List.map_flatMap] at hperm
  refine (hgroups _).trans ?_
  rw [List.map_filterMap]
  refine ((List.perm_insertionSort layerBefore ctx.subnets.rows).filterMap _).trans (List.Perm.of_eq ?_)
  induction ctx.subnets.rows with
  | nil => rfl
  | cons s subnets ih =>
    rw [List.filterMap_cons, List.filter_cons, ih]
    cases layouts.lookup s.id <;> rfl

end SubnetLayoutPlanner

namespace PlannerUtils

theorem map_fst_placeRows {padding : Uxy} {y : Nat} {rows : List (List (Uuid × NodeLayout))} :
    (placeRows padding y rows).map Prod.fst = rows.flatten.map Prod.fst := by
  induction rows generalizing y with
  | nil => rfl
  | cons row rows ih =>
    rw [placeRows, List.flatten_cons, List.map_append]
    split
    · next hempty => rw [ih, List.isEmpty_iff.mp hempty, List.map_nil, List.nil_append]
    · have hrow : (row.zip (Spacing.stack padding.x padding.x (row.map (·.2.size.x)))).map (fun x => x.1.1) =
          row.map Prod.fst := by
        have hlen : row.length ≤ (Spacing.stack padding.x padding.x (row.map (·.2.size.x))).length := by
          rw [Spacing.length_stack, List.length_map]
        have hzip := List.map_fst_zip hlen
        rw [← Function.comp_def Prod.fst Prod.fst, ← List.map_map, hzip]
      rw [List.map_append, ih, List.map_map]
      exact congrArg (· ++ _) hrow

end PlannerUtils

namespace SubnetLayoutPlanner

variable {ctx : TopologyContext} {forces : Forces} {layouts : Assoc Uuid SubnetLayout}

theorem map_fst_calculateContainerSize (padding : Uxy) :
    ((PlannerUtils.calculateContainerSize
      (calculateSubnetGridPositionsByLayer ctx layouts) padding).map Prod.fst).Perm
      ((ctx.subnets.rows.filter fun s => (layouts.lookup s.id).isSome).map Subnet.id) := by
  have hfst : (PlannerUtils.calculateContainerSize
    (calculateSubnetGridPositionsByLayer ctx layouts) padding).map Prod.fst =
      (calculateSubnetGridPositionsByLayer ctx layouts).flatten.map Prod.fst := by
    rw [PlannerUtils.calculateContainerSize, List.map_map, ← PlannerUtils.map_fst_placeRows]
    rfl
  rw [hfst]
  exact map_id_subnetRows

theorem isSome_position (padding : Uxy) {id : Uuid} {layout : SubnetLayout}
    (hlayout : layouts.lookup id = some layout) :
    ((PlannerUtils.calculateContainerSize
      (calculateSubnetGridPositionsByLayer ctx layouts) padding).lookup id).isSome =
      (ctx.getSubnetById id).isSome := by
  rw [Bool.eq_iff_iff, List.lookup_isSome_iff, TopologyContext.getSubnetById, Table.get_isSome]
  constructor
  · rintro ⟨entry, hentry, hid⟩
    have hmem := (map_fst_calculateContainerSize padding).mem_iff.mp (List.mem_map_of_mem hentry)
    obtain ⟨s, hs, hsid⟩ := List.mem_map.mp hmem
    have hid : id = entry.1 := beq_iff_eq.mp hid
    exact ⟨s, (List.mem_filter.mp hs).1, hsid.trans hid.symm⟩
  · rintro ⟨s, hs, rfl⟩
    have hmem : s.id ∈ (ctx.subnets.rows.filter fun s => (layouts.lookup s.id).isSome).map Subnet.id :=
      List.mem_map_of_mem (List.mem_filter.mpr ⟨hs, by rw [hlayout]; rfl⟩)
    obtain ⟨entry, hentry, hid⟩ := List.mem_map.mp ((map_fst_calculateContainerSize padding).mem_iff.mpr hmem)
    exact ⟨entry, hentry, by simp [hid]⟩

/-- **Every listed subnet that has a layout gets one node.** -/
theorem placement_createSubnetNodes {consolidatedDockerSubnets : Assoc Uuid (List Uuid)} :
    (createSubnetNodes ctx layouts consolidatedDockerSubnets).map Node.placement =
      (layouts.keys.filter fun id => (ctx.getSubnetById id).isSome).map fun id => (none, id) := by
  have hentries : ∀ e ∈ layouts.entries, layouts.lookup e.1 = some e.2 := fun e he => Assoc.mem_entries_iff.mp he
  unfold createSubnetNodes AList.keys List.keys
  revert hentries
  generalize layouts.entries = entries
  induction entries with
  | nil => exact fun _ => rfl
  | cons e entries ih =>
    intro hentries
    have hfirst : _ = (ctx.getSubnetById e.1).isSome := isSome_position subnetPadding (hentries e List.mem_cons_self)
    have ih := ih fun e he => hentries e (List.mem_cons_of_mem _ he)
    simp only at ih ⊢
    rw [List.filterMap_cons, List.map_cons, List.filter_cons, ← hfirst]
    cases (PlannerUtils.calculateContainerSize
      (calculateSubnetGridPositionsByLayer ctx layouts) subnetPadding).lookup e.1 with
    | none => exact ih
    | some position =>
      rw [Option.map_some, Option.isSome_some, if_pos rfl, List.map_cons, List.map_cons, ih]
      rfl

end SubnetLayoutPlanner

end Netvisor
