/-
No two boxes of subnets overlap. The planner puts them in rows, with the padding
between those of a row and between the rows, and the optimizer keeps them apart.
-/
import Netvisor.Topology.SubnetCompression

namespace Netvisor

open Spacing Spacing.Span

/-! ## The rows of the planner -/

namespace ChildNodePlanner

theorem le_maximum {sizes : List Nat} {size : Nat} (h : size ∈ sizes) : size ≤ maximum sizes := by
  have hfold : ∀ (sizes : List Nat) (m : Nat), m ≤ sizes.foldl max m ∧ ∀ size ∈ sizes, size ≤ sizes.foldl max m := by
    intro sizes
    induction sizes with
    | nil => exact fun m => ⟨le_refl m, nofun⟩
    | cons s sizes ih =>
      intro m
      obtain ⟨hstart, hall⟩ := ih (max m s)
      refine ⟨(le_max_left m s).trans hstart, fun size hsize => ?_⟩
      rcases List.mem_cons.mp hsize with rfl | hsize
      · exact (le_max_right m size).trans hstart
      · exact hall size hsize
  exact (hfold sizes 0).2 size h

end ChildNodePlanner

def NodeLayout.span (l : NodeLayout) : Span := ⟨l.position.x, l.size.x⟩

def Node.layout (n : Node) : NodeLayout := { size := n.size, position := n.position }

namespace PlannerUtils

/-- One is beside the other in a row, or they are in different rows. -/
def Beside (padding : Uxy) (a b : NodeLayout) : Prop :=
  (a.position.y = b.position.y ∧ Apart padding.x a.span b.span) ∨
    a.position.y + a.size.y + padding.y ≤ b.position.y ∨ b.position.y + b.size.y + padding.y ≤ a.position.y

/-- The boxes of a row as they are placed. -/
def placeRow (gap start y : Int) (row : List (Uuid × NodeLayout)) : List (Uuid × NodeLayout) :=
  (row.zip (stack gap start (row.map (·.2.size.x)))).map fun ((id, layout), span) =>
    (id, { layout with position := { x := span.start, y := y } })

theorem Beside.symm {padding : Uxy} {a b : NodeLayout} (h : Beside padding a b) : Beside padding b a := by
  rcases h with ⟨hy, hapart⟩ | h
  · exact .inl ⟨hy.symm, hapart.symm⟩
  · exact .inr h.symm

variable {padding : Uxy} {gap start y : Int} {row : List (Uuid × NodeLayout)} {rows : List (List (Uuid × NodeLayout))}

theorem placeRow_cons (entry : Uuid × NodeLayout) : placeRow gap start y (entry :: row) =
    (entry.1, { entry.2 with position := { x := start, y } }) :: placeRow gap (start + entry.2.size.x + gap) y row :=
    rfl

theorem mem_placeRow {a : Uuid × NodeLayout} (hgap : 0 ≤ gap) (ha : a ∈ placeRow gap start y row) :
    start ≤ a.2.position.x ∧ a.2.position.y = y ∧ ∃ layout, (a.1, layout) ∈ row ∧ layout.size = a.2.size := by
  induction row generalizing start with
  | nil => cases ha
  | cons entry row ih =>
    rw [placeRow_cons] at ha
    rcases List.mem_cons.mp ha with rfl | ha
    · exact ⟨le_refl start, rfl, entry.2, List.mem_cons_self, rfl⟩
    · obtain ⟨hstart, hy, layout, hlayout, hsize⟩ := ih ha
      exact ⟨by omega, hy, layout, List.mem_cons_of_mem _ hlayout, hsize⟩

theorem pairwise_placeRow (hgap : 0 ≤ gap) :
    (placeRow gap start y row).Pairwise fun a b => Before gap a.2.span b.2.span := by
  induction row generalizing start with
  | nil => exact List.Pairwise.nil
  | cons entry row ih =>
    rw [placeRow_cons]
    exact List.pairwise_cons.mpr ⟨fun b hb => (mem_placeRow hgap hb).1, ih⟩

theorem mem_placeRows {y : Nat} {a : Uuid × NodeLayout} (ha : a ∈ placeRows padding y rows) :
    (y : Int) ≤ a.2.position.y ∧ ∃ layout, (a.1, layout) ∈ rows.flatten ∧ layout.size = a.2.size := by
  induction rows generalizing y with
  | nil => cases ha
  | cons row rows ih =>
    rw [placeRows] at ha
    split at ha
    · obtain ⟨hy, layout, hlayout, hsize⟩ := ih ha
      exact ⟨hy, layout, List.mem_append_right row hlayout, hsize⟩
    · rcases List.mem_append.mp ha with ha | ha
      · obtain ⟨-, hy, layout, hlayout, hsize⟩ := mem_placeRow (Int.natCast_nonneg padding.x) ha
        exact ⟨le_of_eq hy.symm, layout, List.mem_append_left _ hlayout, hsize⟩
      · obtain ⟨hy, layout, hlayout, hsize⟩ := ih ha
        exact ⟨by omega, layout, List.mem_append_right row hlayout, hsize⟩

theorem pairwise_placeRows {y : Nat} : (placeRows padding y rows).Pairwise fun a b => Beside padding a.2 b.2 := by
  induction rows generalizing y with
  | nil => exact List.Pairwise.nil
  | cons row rows ih =>
    rw [placeRows]
    split
    · exact ih
    refine List.pairwise_append.mpr ⟨?_, ih, fun a ha b hb => ?_⟩
    · refine (pairwise_placeRow (Int.natCast_nonneg padding.x)).imp_of_mem fun {a b} ha hb hbefore => ?_
      have hya := (mem_placeRow (Int.natCast_nonneg padding.x) ha).2.1
      have hyb := (mem_placeRow (Int.natCast_nonneg padding.x) hb).2.1
      exact .inl ⟨hya.trans hyb.symm, .inl hbefore⟩
    · -- the rows below begin under the highest box of this one
      obtain ⟨-, hya, layout, hlayout, hsize⟩ := mem_placeRow (Int.natCast_nonneg padding.x) ha
      have hyb := (mem_placeRows hb).1
      have hmax : a.2.size.y ≤ ChildNodePlanner.maximum (row.map (·.2.size.y)) :=
        ChildNodePlanner.le_maximum (List.mem_map.mpr ⟨_, hlayout, by rw [hsize]⟩)
      refine .inr (.inl ?_)
      omega

end PlannerUtils

namespace SubnetLayoutPlanner

variable {ctx : TopologyContext} {forces : Forces} {layouts : Assoc Uuid SubnetLayout}
  {consolidatedDockerSubnets : Assoc Uuid (List Uuid)} {childrenBySubnet : Assoc Uuid (List SubnetChild)} {n : Node}

/-- The rows hold the sizes of the layouts. -/
theorem size_of_mem_rows {id : Uuid} {layout : NodeLayout}
    (h : (id, layout) ∈ (calculateSubnetGridPositionsByLayer ctx layouts).flatten) :
    ∃ l, layouts.lookup id = some l ∧ l.size = layout.size := by
  simp only [calculateSubnetGridPositionsByLayer, List.mem_flatten, List.mem_map] at h
  obtain ⟨_, ⟨_, -, rfl⟩, hmem⟩ := h
  obtain ⟨⟨s, l⟩, hsorted, heq⟩ := List.mem_map.mp hmem
  obtain ⟨rfl, rfl⟩ := Prod.mk.inj heq
  obtain ⟨s', -, hs'⟩ := List.mem_filterMap.mp (List.mem_filter.mp hsorted).1
  obtain ⟨l', hl', heq'⟩ := Option.map_eq_some_iff.mp hs'
  obtain ⟨rfl, rfl⟩ := Prod.mk.inj heq'
  exact ⟨l', hl', rfl⟩

/-- Every box is where its row says. -/
theorem mem_placeRows_of_mem (hn : n ∈ createSubnetNodes ctx layouts consolidatedDockerSubnets) :
    (n.id, n.layout) ∈
      PlannerUtils.placeRows subnetPadding subnetPadding.y (calculateSubnetGridPositionsByLayer ctx layouts) := by
  simp only [createSubnetNodes, List.mem_filterMap, Option.map_eq_some_iff] at hn
  obtain ⟨⟨id, l⟩, hentry, position, hposition, rfl⟩ := hn
  obtain ⟨before, after, hsplit, -⟩ := List.lookup_eq_some_iff.mp hposition
  have hmem : (id, position) ∈ PlannerUtils.calculateContainerSize
      (calculateSubnetGridPositionsByLayer ctx layouts) subnetPadding := by
    rw [hsplit]
    exact List.mem_append_right before List.mem_cons_self
  obtain ⟨⟨id', placed⟩, hplaced, heq⟩ := List.mem_map.mp hmem
  obtain ⟨rfl, rfl⟩ := Prod.mk.inj heq
  obtain ⟨-, layout, hlayout, hsize⟩ := PlannerUtils.mem_placeRows hplaced
  obtain ⟨l', hl', hsize'⟩ := size_of_mem_rows hlayout
  have hl : layouts.lookup id' = some l := Assoc.mem_entries_iff.mp hentry
  rw [hl] at hl'
  obtain rfl := Option.some.inj hl'
  have hplacedSize : placed.size = l.size := hsize.symm.trans hsize'.symm
  rw [Node.layout, ← hplacedSize]
  exact hplaced

theorem map_id_createSubnetNodes : (createSubnetNodes ctx layouts consolidatedDockerSubnets).map Node.id =
    layouts.keys.filter fun id => (ctx.getSubnetById id).isSome := by
  have hplacement : (createSubnetNodes ctx layouts consolidatedDockerSubnets).map Node.placement =
      (layouts.keys.filter fun id => (ctx.getSubnetById id).isSome).map fun id => (none, id) :=
    placement_createSubnetNodes
  have hids := congrArg (List.map Prod.snd) hplacement
  rw [List.map_map, List.map_map] at hids
  exact hids.trans (List.map_id' _)

theorem isSubnet_createSubnetNodes (hn : n ∈ createSubnetNodes ctx layouts consolidatedDockerSubnets) :
    n.isSubnet = true := by
  simp only [createSubnetNodes, List.mem_filterMap, Option.map_eq_some_iff] at hn
  obtain ⟨_, -, _, -, rfl⟩ := hn
  rfl

theorem isSubnet_childNodes (hn : n ∈ childNodes ctx forces childrenBySubnet) : n.isSubnet = false := by
  have hzone : ∀ subnetId isInfra offset children positions,
      n ∈ zoneNodes subnetId isInfra offset children positions → n.isSubnet = false := by
    intro subnetId isInfra offset children positions hn
    simp only [zoneNodes, List.mem_filterMap, Option.map_eq_some_iff] at hn
    obtain ⟨_, -, _, -, rfl⟩ := hn
    rfl
  obtain ⟨entry, -, hn⟩ := List.mem_flatMap.mp hn
  rcases List.mem_append.mp hn with hn | hn
  · exact hzone _ _ _ _ _ hn
  · exact hzone _ _ _ _ _ hn

open SubnetPositioner in
theorem shapes_createSubnetNodes :
    Shapes ((createSubnetNodes ctx layouts consolidatedDockerSubnets).map Node.inColumn)
    (childNodes ctx forces childrenBySubnet) where
  subnets n hn := by
    obtain ⟨m, hm, rfl⟩ := List.mem_map.mp hn
    have hsubnet : m.isSubnet = true := isSubnet_createSubnetNodes hm
    exact hsubnet
  nodup := by
    rw [← map_id_of_shapes rfl, map_id_createSubnetNodes]
    exact List.Nodup.filter _ layouts.nodupKeys
  children n hn := isSubnet_childNodes hn

/-- The boxes are beside one another as they are created. -/
theorem pairwise_createSubnetNodes : (createSubnetNodes ctx layouts consolidatedDockerSubnets).Pairwise fun a b =>
    PlannerUtils.Beside subnetPadding a.layout b.layout := by
  have hnodup : ((createSubnetNodes ctx layouts consolidatedDockerSubnets).map Node.id).Nodup := by
    rw [map_id_createSubnetNodes]
    exact List.Nodup.filter _ layouts.nodupKeys
  have : Std.Symm fun a b : Uuid × NodeLayout => PlannerUtils.Beside subnetPadding a.2 b.2 :=
    ⟨fun a b hab => hab.symm⟩
  refine (List.pairwise_map.mp hnodup).imp_of_mem fun {a b} ha hb hne => ?_
  exact PlannerUtils.pairwise_placeRows.forall (mem_placeRows_of_mem ha) (mem_placeRows_of_mem hb)
    fun heq => hne (congrArg Prod.fst heq)

open SubnetPositioner in
/-- The boxes of a row are the padding apart as they are created. -/
theorem rows_createSubnetNodes :
    SubnetRows ((createSubnetNodes ctx layouts consolidatedDockerSubnets).map Node.inColumn)
    (childNodes ctx forces childrenBySubnet) Spaced
    (createSubnetNodes ctx layouts consolidatedDockerSubnets ++ childNodes ctx forces childrenBySubnet) := by
  refine ⟨_, rfl, rfl, pairwise_createSubnetNodes.imp fun {a b} hab hrow => ?_⟩
  rcases hab with ⟨-, hapart⟩ | hbelow
  · exact .inl hapart
  · simp only [subnetPadding, Node.layout] at hbelow
    omega

end SubnetLayoutPlanner

/-! ## The final layout -/

namespace TopologyOptimizer

open SubnetPositioner

variable {ctx : TopologyContext} {quality : Quality} {edges : List Edge} {shapes children nodes : List Node}

theorem rows_optimizeSubnets {n : Nat} (hshapes : Shapes shapes children)
    (h : SubnetRows shapes children Spaced nodes) :
    SubnetRows shapes children Spaced (optimizeSubnets ctx quality edges n nodes) := by
  induction n generalizing nodes with
  | zero => exact h
  | succ n ih =>
    rw [optimizeSubnets]
    split
    · exact ih (h.optimizePositions hshapes)
    · exact h.optimizePositions hshapes

/-- What children are moved in at the end: the boxes in their rows, and the children as they were. -/
theorem exists_optimizeGraph (hshapes : Shapes shapes children) (h : SubnetRows shapes children Spaced nodes) :
    ∃ subnets, (optimizeGraph ctx quality edges nodes).1 =
      ChildPositioner.compressVerticalSpacing (subnets ++ children) ∧
      subnets.map Node.inColumn = shapes ∧
      subnets.Pairwise fun a b => a.position.y = b.position.y → Apart 77 a.span b.span := by
  have hoptimized : SubnetRows shapes children Spaced (optimizeSubnets ctx quality edges 20 nodes) :=
    rows_optimizeSubnets hshapes h
  have hcompressed : SubnetRows shapes children (fun a b => Apart 77 a.span b.span)
      (compressHorizontalSpacing ctx edges (optimizeSubnets ctx quality edges 20 nodes)) :=
    hoptimized.compressHorizontalSpacing hshapes
  obtain ⟨subnets, hnodes, hmap, happart⟩ := hcompressed
  exact ⟨subnets, by rw [optimizeGraph, hnodes], hmap, happart⟩

theorem filter_isSubnet_optimizeGraph (hshapes : Shapes shapes children)
    (h : SubnetRows shapes children Spaced nodes) :
    ((optimizeGraph ctx quality edges nodes).1.filter Node.isSubnet).map Node.inColumn = shapes ∧
      ((optimizeGraph ctx quality edges nodes).1.filter Node.isSubnet).Pairwise fun a b =>
        a.position.y = b.position.y → Apart 77 a.span b.span := by
  obtain ⟨subnets, hnodes, hmap, happart⟩ := exists_optimizeGraph hshapes h
  rw [hnodes, ChildPositioner.filter_isSubnet_compressVerticalSpacing, filter_isSubnet hshapes hmap]
  exact ⟨hmap, happart⟩

end TopologyOptimizer

theorem rectanglesOverlap_eq_false {p q : Ixy} {d e : Uxy} : rectanglesOverlap p d q e = false ↔
    p.x + d.x ≤ q.x ∨ q.x + e.x ≤ p.x ∨ p.y + d.y ≤ q.y ∨ q.y + e.y ≤ p.y := by
  simp only [rectanglesOverlap, Bool.not_eq_false', Bool.or_eq_true, decide_eq_true_eq, or_assoc]

/-- **No two boxes of subnets overlap in the final layout, whatever their sizes and
the edges are, and there is one box for each listed subnet with a layout, as it
was created but for its place in the row.** -/
theorem subnetBoxes_disjoint (ctx : TopologyContext) (forces : Forces) (quality : Quality) (edges : List Edge)
    (layouts : Assoc Uuid SubnetLayout) (consolidatedDockerSubnets : Assoc Uuid (List Uuid))
    (childrenBySubnet : Assoc Uuid (List SubnetChild)) :
    let subnetNodes := SubnetLayoutPlanner.createSubnetNodes ctx layouts consolidatedDockerSubnets
    let boxes := (TopologyOptimizer.optimizeGraph ctx quality edges
      (subnetNodes ++ SubnetLayoutPlanner.childNodes ctx forces childrenBySubnet)).1.filter Node.isSubnet
    boxes.Pairwise (fun a b => rectanglesOverlap a.position a.size b.position b.size = false) ∧
      boxes.map Node.inColumn = subnetNodes.map Node.inColumn ∧
      boxes.map Node.id = layouts.keys.filter (fun id => (ctx.getSubnetById id).isSome) ∧
          (boxes.map Node.id).Nodup := by
  intro subnetNodes boxes
  have hbeside : subnetNodes.Pairwise fun a b => PlannerUtils.Beside subnetPadding a.layout b.layout :=
    SubnetLayoutPlanner.pairwise_createSubnetNodes
  obtain ⟨hcolumns, happart⟩ : boxes.map Node.inColumn = subnetNodes.map Node.inColumn ∧
      boxes.Pairwise fun a b => a.position.y = b.position.y → Apart 77 a.span b.span :=
    TopologyOptimizer.filter_isSubnet_optimizeGraph SubnetLayoutPlanner.shapes_createSubnetNodes
      SubnetLayoutPlanner.rows_createSubnetNodes
  -- the rows are where they were
  have hrows : boxes.Pairwise fun a b : Node =>
      a.position.y = b.position.y ∨ a.position.y + a.size.y ≤ b.position.y ∨
          b.position.y + b.size.y ≤ a.position.y := by
    have hcreated : (subnetNodes.map Node.inColumn).Pairwise fun a b : Node =>
        a.position.y = b.position.y ∨ a.position.y + a.size.y ≤ b.position.y ∨
          b.position.y + b.size.y ≤ a.position.y := by
      refine List.pairwise_map.mpr (hbeside.imp fun {a b} hab => ?_)
      rcases hab with ⟨hrow, -⟩ | hbelow
      · exact .inl hrow
      · simp only [subnetPadding, Node.inColumn, Node.layout] at hbelow ⊢
        omega
    rw [← hcolumns] at hcreated
    exact List.pairwise_map.mp hcreated
  have hids : boxes.map Node.id = subnetNodes.map Node.id := by
    rw [SubnetPositioner.map_id_of_shapes hcolumns, ← SubnetPositioner.map_id_of_shapes rfl]
  rw [hids, SubnetLayoutPlanner.map_id_createSubnetNodes]
  refine ⟨(happart.and hrows).imp fun {a b} hab => ?_, hcolumns, rfl, List.Nodup.filter _ layouts.nodupKeys⟩
  obtain ⟨hbesides, hrow⟩ := hab
  rw [rectanglesOverlap_eq_false]
  rcases hrow with hrow | hbelow
  · rcases hbesides hrow with hbefore | hbefore
    · simp only [Before, stop, Node.span] at hbefore
      omega
    · simp only [Before, stop, Node.span] at hbefore
      omega
  · omega

end Netvisor
