/-
The children of a box do not overlap, and none reaches out of it.

The planner puts them in the cells of two grids side by side, with the padding
between columns and between rows, and sizes the box to hold both. Compression
moves them up only, and no further than the topmost of the box, so it makes the
columns shorter and keeps what is beside one another apart.
-/
import Netvisor.Topology.SubnetBoxes

namespace Netvisor

open Spacing Spacing.Span

/-- The stretch from top to bottom. -/
def NodeLayout.vspan (l : NodeLayout) : Span := ⟨l.position.y, l.size.y⟩

/-- In one column, or in columns beside one another, with the padding between them. -/
def Gridded (a b : NodeLayout) : Prop :=
  (a.position.x = b.position.x ∧ Apart nodePadding.y a.vspan b.vspan) ∨ Apart nodePadding.x a.span b.span

theorem Gridded.symm {a b : NodeLayout} (h : Gridded a b) : Gridded b a := by
  rcases h with ⟨hx, hapart⟩ | hapart
  · exact .inl ⟨hx.symm, hapart.symm⟩
  · exact .inr hapart.symm

/-- The padding all around, and nothing reaches over it. -/
structure NodeLayout.Fits (l : NodeLayout) (size : Uxy) : Prop where
  left : nodePadding.x ≤ l.position.x
  right : l.position.x + l.size.x + nodePadding.x ≤ size.x
  top : nodePadding.y ≤ l.position.y
  bottom : l.position.y + l.size.y + nodePadding.y ≤ size.y

/-- A layout in the coordinates of the box, if its part begins at the offset. -/
def NodeLayout.shifted (offset : Nat) (l : NodeLayout) : NodeLayout := { l with position.x := l.position.x + offset }

theorem Gridded.shifted {a b : NodeLayout} (h : Gridded a b) (offset : Nat) :
    Gridded (a.shifted offset) (b.shifted offset) := by
  rcases h with ⟨hx, hapart⟩ | hapart
  · refine .inl ⟨?_, hapart⟩
    simp only [NodeLayout.shifted, hx]
  · refine .inr ?_
    simp only [Apart, Before, stop, NodeLayout.span, NodeLayout.shifted] at hapart ⊢
    omega

/-- The node of a child is in the box, in the part it belongs to. -/
structure Node.Inside (layout : SubnetLayout) (isInfra : Bool) (n : Node) : Prop where
  left : 0 ≤ n.position.x
  right : n.position.x + n.size.x ≤ layout.size.x
  top : 0 ≤ n.position.y
  bottom : n.position.y + n.size.y ≤ layout.size.y
  part : if isInfra then n.position.x + n.size.x ≤ layout.infraWidth else layout.infraWidth ≤ n.position.x

/-! ## A grid -/

namespace ChildNodePlanner

variable {grid : Grid} {a b : (Nat × Nat) × SubnetChild}

/-- The layout of a cell. -/
def cellLayout (grid : Grid) (x : (Nat × Nat) × SubnetChild) : NodeLayout :=
  { size := x.2.size, position := cellPosition grid nodePadding x.1 }

theorem width_le_colWidth (ha : a ∈ grid) : a.2.size.x ≤ colWidth grid a.1.1 :=
  le_maximum (List.mem_map.mpr ⟨a, List.mem_filter.mpr ⟨ha, beq_self_eq_true _⟩, rfl⟩)

theorem height_le_rowHeight (ha : a ∈ grid) : a.2.size.y ≤ rowHeight grid a.1.2 :=
  le_maximum (List.mem_map.mpr ⟨a, List.mem_filter.mpr ⟨ha, beq_self_eq_true _⟩, rfl⟩)

theorem before_of_column_lt (ha : a ∈ grid) (h : a.1.1 < b.1.1) :
    Before nodePadding.x (cellLayout grid a).span (cellLayout grid b).span := by
  have hwidth := width_le_colWidth ha
  have hcolumns : Before nodePadding.x
      ⟨cursor nodePadding.x nodePadding.x (colWidth grid) a.1.1, colWidth grid a.1.1⟩
      ⟨cursor nodePadding.x nodePadding.x (colWidth grid) b.1.1, colWidth grid b.1.1⟩ :=
    cursor_before (Int.natCast_nonneg _) h
  simp only [Before, stop, NodeLayout.span, cellLayout, cellPosition] at *
  omega

theorem before_of_row_lt (ha : a ∈ grid) (h : a.1.2 < b.1.2) :
    Before nodePadding.y (cellLayout grid a).vspan (cellLayout grid b).vspan := by
  have hheight := height_le_rowHeight ha
  have hrows : Before nodePadding.y
      ⟨cursor nodePadding.y nodePadding.y (rowHeight grid) a.1.2, rowHeight grid a.1.2⟩
      ⟨cursor nodePadding.y nodePadding.y (rowHeight grid) b.1.2, rowHeight grid b.1.2⟩ :=
    cursor_before (Int.natCast_nonneg _) h
  simp only [Before, stop, NodeLayout.vspan, cellLayout, cellPosition] at *
  omega

/-- Children in different cells. -/
theorem gridded_cellLayout (ha : a ∈ grid) (hb : b ∈ grid) (hne : a.1 ≠ b.1) :
    Gridded (cellLayout grid a) (cellLayout grid b) := by
  rcases Nat.lt_trichotomy a.1.1 b.1.1 with hlt | hcolumn | hlt
  · exact .inr (.inl (before_of_column_lt ha hlt))
  · have hx : (cellLayout grid a).position.x = (cellLayout grid b).position.x := by
      simp only [cellLayout, cellPosition, hcolumn]
    rcases Nat.lt_trichotomy a.1.2 b.1.2 with hlt | hrow | hlt
    · exact .inl ⟨hx, .inl (before_of_row_lt ha hlt)⟩
    · exact absurd (Prod.ext hcolumn hrow) hne
    · exact .inl ⟨hx, .inr (before_of_row_lt hb hlt)⟩
  · exact .inr (.inr (before_of_column_lt hb hlt))

/-- The container holds every cell. -/
theorem fits_cellLayout (ha : a ∈ grid) :
    (cellLayout grid a).Fits
    (PlannerUtils.calculateContainerSizeFromLayouts (grid.map (cellLayout grid)) nodePadding) := by
  have hmem : cellLayout grid a ∈ grid.map (cellLayout grid) := List.mem_map_of_mem ha
  have hne : (grid.map (cellLayout grid)).isEmpty = false := by
    cases hgrid : grid.map (cellLayout grid) with
    | nil =>
      rw [hgrid] at hmem
      cases hmem
    | cons => rfl
  have hleft : (nodePadding.x : Int) ≤ (cellLayout grid a).position.x := start_le_cursor (Int.natCast_nonneg _)
  have htop : (nodePadding.y : Int) ≤ (cellLayout grid a).position.y := start_le_cursor (Int.natCast_nonneg _)
  have hright := le_maximum (List.mem_map_of_mem
    (f := fun l : NodeLayout => Int.toNat (l.position.x + l.size.x + nodePadding.x)) hmem)
  have hbottom := le_maximum (List.mem_map_of_mem
    (f := fun l : NodeLayout => Int.toNat (l.position.y + l.size.y + nodePadding.y)) hmem)
  simp only [PlannerUtils.calculateContainerSizeFromLayouts, hne, Bool.false_eq_true, if_false]
  exact ⟨hleft, by simp only; omega, htop, by simp only; omega⟩

end ChildNodePlanner

/-! ## The two parts of a box -/

namespace SubnetLayoutPlanner

variable {ctx : TopologyContext} {forces : Forces} {subnetId : Uuid} {isInfra : Bool} {offset : Nat}
  {children : List SubnetChild} {c : SubnetChild} {n : Node} {l : NodeLayout}

theorem layoutZone_of_mem (hc : c ∈ children) :
    (layoutZone ctx forces children).1 =
      (ChildNodePlanner.arrange forces ctx children).map (fun x =>
        (x.2.id, ChildNodePlanner.cellLayout (ChildNodePlanner.arrange forces ctx children) x)) ∧
    (layoutZone ctx forces children).2 = PlannerUtils.calculateContainerSizeFromLayouts
      ((ChildNodePlanner.arrange forces ctx children).map
        (ChildNodePlanner.cellLayout (ChildNodePlanner.arrange forces ctx children))) nodePadding := by
  have hne : children.isEmpty = false := by
    cases children with
    | nil => cases hc
    | cons => rfl
  simp only [layoutZone, hne, Bool.false_eq_true, if_false, ChildNodePlanner.calculateAnchorBasedPositions,
    List.map_map]
  exact ⟨rfl, rfl⟩

/-- A child is laid out in the cell it was arranged in. -/
theorem exists_cell (hnodup : (children.map SubnetChild.id).Nodup) (hc : c ∈ children)
    (hl : (layoutZone ctx forces children).1.lookup c.id = some l) :
    ∃ cell, (cell, c) ∈ ChildNodePlanner.arrange forces ctx children ∧
      l = ChildNodePlanner.cellLayout (ChildNodePlanner.arrange forces ctx children) (cell, c) := by
  rw [(layoutZone_of_mem hc).1] at hl
  obtain ⟨before, after, hsplit, -⟩ := List.lookup_eq_some_iff.mp hl
  have hmem : (c.id, l) ∈ (ChildNodePlanner.arrange forces ctx children).map (fun x =>
      (x.2.id, ChildNodePlanner.cellLayout (ChildNodePlanner.arrange forces ctx children) x)) := by
    rw [hsplit]
    exact List.mem_append_right before List.mem_cons_self
  obtain ⟨⟨cell, c'⟩, hcell, heq⟩ := List.mem_map.mp hmem
  obtain ⟨hid, rfl⟩ := Prod.mk.inj heq
  have hc' : c' ∈ children :=
    (ChildNodePlanner.arrange_fits forces ctx children).2.mem_iff.mp (List.mem_map_of_mem (f := Prod.snd) hcell)
  obtain rfl : c' = c := List.inj_on_of_nodup_map hnodup hc' hc hid
  exact ⟨cell, hcell, rfl⟩

theorem gridded_of_lookup {c' : SubnetChild} {l' : NodeLayout} (hnodup : (children.map SubnetChild.id).Nodup)
    (hc : c ∈ children) (hc' : c' ∈ children) (hne : c.id ≠ c'.id)
    (hl : (layoutZone ctx forces children).1.lookup c.id = some l)
    (hl' : (layoutZone ctx forces children).1.lookup c'.id = some l') : Gridded l l' := by
  obtain ⟨cell, hcell, rfl⟩ := exists_cell hnodup hc hl
  obtain ⟨cell', hcell', rfl⟩ := exists_cell hnodup hc' hl'
  refine ChildNodePlanner.gridded_cellLayout hcell hcell' fun heq => hne ?_
  have hcells := (ChildNodePlanner.arrange_fits forces ctx children).1.nodup
  exact congrArg (fun x => x.2.id) (List.inj_on_of_nodup_map hcells hcell hcell' heq)

theorem fits_of_lookup (hnodup : (children.map SubnetChild.id).Nodup) (hc : c ∈ children)
    (hl : (layoutZone ctx forces children).1.lookup c.id = some l) :
    l.Fits (layoutZone ctx forces children).2 ∧ l.size = c.size := by
  obtain ⟨cell, hcell, rfl⟩ := exists_cell hnodup hc hl
  rw [(layoutZone_of_mem hc).2]
  exact ⟨ChildNodePlanner.fits_cellLayout hcell, rfl⟩

/-- Where the children of a part are. -/
theorem bounds_zoneNodes (hnodup : (children.map SubnetChild.id).Nodup)
    (hn : n ∈ zoneNodes subnetId isInfra offset children (layoutZone ctx forces children).1) :
    ∃ hostId interfaceId, n.nodeType = .interfaceNode subnetId hostId interfaceId isInfra ∧
      offset + nodePadding.x ≤ n.position.x ∧
      n.position.x + n.size.x + nodePadding.x ≤ offset + (layoutZone ctx forces children).2.x ∧
      nodePadding.y ≤ n.position.y ∧
      n.position.y + n.size.y + nodePadding.y ≤ (layoutZone ctx forces children).2.y := by
  simp only [zoneNodes, List.mem_filterMap, Option.map_eq_some_iff] at hn
  obtain ⟨c, hc, l, hl, rfl⟩ := hn
  obtain ⟨⟨hleft, hright, htop, hbottom⟩, hsize⟩ := fits_of_lookup hnodup hc hl
  rw [hsize] at hright hbottom
  refine ⟨c.hostId, c.interfaceId, rfl, ?_, ?_, htop, hbottom⟩
  · simp only
    omega
  · simp only
    omega

theorem pairwise_zoneNodes (hnodup : (children.map SubnetChild.id).Nodup) :
    (zoneNodes subnetId isInfra offset children (layoutZone ctx forces children).1).Pairwise fun a b =>
      Gridded a.layout b.layout := by
  refine List.pairwise_filterMap.mpr ((List.pairwise_map.mp hnodup).imp_of_mem fun {c c'} hc hc' hne => ?_)
  intro a ha b hb
  obtain ⟨l, hl, rfl⟩ := Option.map_eq_some_iff.mp ha
  obtain ⟨l', hl', rfl⟩ := Option.map_eq_some_iff.mp hb
  have hgridded := (gridded_of_lookup hnodup hc hc' hne hl hl').shifted offset
  rw [NodeLayout.shifted, NodeLayout.shifted, (fits_of_lookup hnodup hc hl).2, (fits_of_lookup hnodup hc' hl').2]
    at hgridded
  exact hgridded

/-- The other part begins where the infrastructure ends. -/
theorem infraOffset_eq :
    (if 0 < (((layoutZone ctx forces children).1.map (·.2.position.x)).dedup.length) then
      (layoutZone ctx forces children).2.x else 0) = (layoutZone ctx forces children).2.x := by
  cases children with
  | nil => rfl
  | cons c children =>
    refine if_pos (List.length_pos_of_ne_nil ?_)
    obtain ⟨l, hl⟩ : ∃ l, (layoutZone ctx forces (c :: children)).1.lookup c.id = some l :=
      lookup_layoutZone List.mem_cons_self
    obtain ⟨before, after, hsplit, -⟩ := List.lookup_eq_some_iff.mp hl
    rw [hsplit]
    intro hnil
    have hmem : l.position.x ∈ ((before ++ (c.id, l) :: after).map (·.2.position.x)).dedup := by
      rw [List.mem_dedup]
      exact List.mem_map.mpr ⟨_, List.mem_append_right before List.mem_cons_self, rfl⟩
    rw [hnil] at hmem
    cases hmem

theorem partitionChildren_nodup (hnodup : (children.map SubnetChild.id).Nodup) :
    ((partitionChildren ctx subnetId children).1.map SubnetChild.id).Nodup ∧
      ((partitionChildren ctx subnetId children).2.map SubnetChild.id).Nodup := by
  have hperm : ((partitionChildren ctx subnetId children).1 ++
      (partitionChildren ctx subnetId children).2).Perm children :=
    partitionChildren_perm subnetId children
  have hboth := (hperm.map SubnetChild.id).nodup_iff.mpr hnodup
  rw [List.map_append] at hboth
  exact ⟨hboth.of_append_left, hboth.of_append_right⟩

/-- **The children of a box are in a grid, each in its part of the box.** -/
theorem calculateSubnetSize_spec (hnodup : (children.map SubnetChild.id).Nodup) :
    ((calculateSubnetSize ctx forces subnetId children).2.Pairwise fun a b => Gridded a.layout b.layout) ∧
      ∀ n ∈ (calculateSubnetSize ctx forces subnetId children).2, ∃ hostId interfaceId isInfra,
        n.nodeType = .interfaceNode subnetId hostId interfaceId isInfra ∧
        n.Inside (calculateSubnetSize ctx forces subnetId children).1 isInfra := by
  obtain ⟨hinfra, hregular⟩ : ((partitionChildren ctx subnetId children).1.map SubnetChild.id).Nodup ∧
      ((partitionChildren ctx subnetId children).2.map SubnetChild.id).Nodup := partitionChildren_nodup hnodup
  simp only [calculateSubnetSize, infraOffset_eq]
  generalize (partitionChildren ctx subnetId children).1 = infra at *
  generalize (partitionChildren ctx subnetId children).2 = regular at *
  have hpadding : nodePadding.x = 50 := rfl
  refine ⟨List.pairwise_append.mpr ⟨pairwise_zoneNodes hinfra, pairwise_zoneNodes hregular, fun a ha b hb => ?_⟩,
    fun n hn => ?_⟩
  · obtain ⟨-, -, -, -, hright, -⟩ := bounds_zoneNodes hinfra ha
    obtain ⟨-, -, -, hleft, -⟩ := bounds_zoneNodes hregular hb
    refine .inr (.inl ?_)
    simp only [Before, stop, NodeLayout.span, Node.layout]
    omega
  · rcases List.mem_append.mp hn with hn | hn
    · obtain ⟨hostId, interfaceId, htype, hleft, hright, htop, hbottom⟩ := bounds_zoneNodes hinfra hn
      exact ⟨hostId, interfaceId, true, htype, {
        left := by omega
        right := by simp only; omega
        top := by omega
        bottom := by simp only; omega
        part := by simp only [if_true]; omega }⟩
    · obtain ⟨hostId, interfaceId, htype, hleft, hright, htop, hbottom⟩ := bounds_zoneNodes hregular hn
      exact ⟨hostId, interfaceId, false, htype, {
        left := by omega
        right := by simp only; omega
        top := by omega
        bottom := by simp only; omega
        part := by simp only [Bool.false_eq_true, if_false]; omega }⟩

end SubnetLayoutPlanner

/-! ## Compression -/

/-- The box that a child is in. -/
def Node.box (n : Node) : Option Uuid := n.column.map Prod.fst

namespace ChildPositioner

variable {nodes : List Node} {key : Uuid × Int} {x y : Node × Nat}

theorem pairwise_indices : nodes.zipIdx.Pairwise fun x y => x.2 ≠ y.2 := by
  have hnodup : (nodes.zipIdx.map Prod.snd).Nodup := by
    rw [List.zipIdx_map_snd]
    exact List.nodup_range'
  exact List.pairwise_map.mp hnodup

theorem mem_columnOf : x ∈ columnOf nodes key ↔ x ∈ nodes.zipIdx ∧ x.1.column = some key := by
  rw [columnOf, (List.perm_insertionSort _ _).mem_iff, List.mem_filter, beq_iff_eq]

theorem nodup_columnOf : ((columnOf nodes key).map Prod.snd).Nodup := by
  refine ((List.perm_insertionSort _ _).map Prod.snd).nodup_iff.mpr ?_
  exact List.pairwise_map.mpr (pairwise_indices.sublist List.filter_sublist)

/-- The topmost child of the box is in it, and the others are not above it. -/
theorem minY_spec (hx : x ∈ nodes.zipIdx) (hcolumn : x.1.column = some key) :
    minY nodes key.1 ≤ x.1.position.y ∧ ∃ n ∈ nodes, n.box = some key.1 ∧ n.position.y = minY nodes key.1 := by
  have hmem : x.1.position.y ∈ (nodes.filter fun n => n.column.map (·.1) == some key.1).map (·.position.y) := by
    refine List.mem_map.mpr ⟨x.1, List.mem_filter.mpr ⟨?_, by rw [hcolumn]; simp⟩, rfl⟩
    rw [← List.zipIdx_map_fst 0 nodes]
    exact List.mem_map_of_mem hx
  obtain ⟨m, hm⟩ := Option.isSome_iff_exists.mp (List.isSome_min?_of_mem hmem)
  obtain ⟨hmin, hle⟩ := List.min?_eq_some_iff.mp hm
  rw [minY, hm, Option.getD_some]
  obtain ⟨n, hn, hy⟩ := List.mem_map.mp hmin
  obtain ⟨hn, hbox⟩ := List.mem_filter.mp hn
  exact ⟨hle _ hmem, n, hn, beq_iff_eq.mp hbox, hy⟩

/-- In a column the children are apart. -/
def Columned (nodes : List Node) : Prop :=
  nodes.Pairwise fun a b => ∀ key, a.column = some key → b.column = some key →
    Apart nodePadding.y a.layout.vspan b.layout.vspan

theorem pairwise_columnOf (h : Columned nodes) :
    ((columnOf nodes key).map fun x => x.1.layout.vspan).Pairwise (Before nodePadding.y) := by
  have hsorted : (columnOf nodes key).Pairwise fun x y => x.1.position.y ≤ y.1.position.y :=
    List.pairwise_insertionSort (fun x y : Node × Nat => x.1.position.y ≤ y.1.position.y) _
  have hzip : nodes.zipIdx.Pairwise fun x y => ∀ key, x.1.column = some key → y.1.column = some key →
      Apart nodePadding.y x.1.layout.vspan y.1.layout.vspan := by
    rw [Columned, ← List.zipIdx_map_fst 0 nodes] at h
    exact List.pairwise_map.mp h
  have : Std.Symm fun x y : Node × Nat => ∀ key, x.1.column = some key → y.1.column = some key →
      Apart nodePadding.y x.1.layout.vspan y.1.layout.vspan := ⟨fun x y hxy key hx hy => (hxy key hy hx).symm⟩
  refine List.pairwise_map.mpr ((hsorted.and (List.pairwise_map.mp nodup_columnOf)).imp_of_mem ?_)
  intro x y hx hy ⟨hle, hne⟩
  obtain ⟨hx, hxcolumn⟩ := mem_columnOf.mp hx
  obtain ⟨hy, hycolumn⟩ := mem_columnOf.mp hy
  have hapart := hzip.forall hx hy (fun heq => hne (by rw [heq])) key hxcolumn hycolumn
  exact hapart.before (by decide) hle

/-- The children of a column with where they come to be. -/
def placements (nodes : List Node) (key : Uuid × Int) : List ((Node × Nat) × Span) :=
  (columnOf nodes key).zip (stack nodePadding.y (minY nodes key.1) ((columnOf nodes key).map (·.1.size.y)))

theorem map_fst_placements : (placements nodes key).map Prod.fst = columnOf nodes key :=
  List.map_fst_zip (by rw [length_stack, List.length_map])

theorem map_snd_placements : (placements nodes key).map Prod.snd =
    stack nodePadding.y (minY nodes key.1) ((columnOf nodes key).map (·.1.size.y)) :=
  List.map_snd_zip (by rw [length_stack, List.length_map])

theorem lookup_compressedColumn {span : Span} (h : (x, span) ∈ placements nodes key) :
    (compressedColumn nodes key).lookup x.2 = some span := by
  have hcompressed : compressedColumn nodes key = (placements nodes key).map fun p => (p.1.2, p.2) := by
    rw [compressedColumn, List.zip_map_left]
    rfl
  have hnodup : ((compressedColumn nodes key).map Prod.fst).Nodup := by
    rw [hcompressed, List.map_map]
    have hfst : (placements nodes key).map (Prod.fst ∘ fun p => (p.1.2, p.2)) =
        (columnOf nodes key).map Prod.snd := by
      rw [← map_fst_placements, List.map_map]
      rfl
    rw [hfst]
    exact nodup_columnOf
  rw [Assoc.lookup_eq_some_iff hnodup, hcompressed]
  exact List.mem_map.mpr ⟨_, h, rfl⟩

/-- A child is moved up, and not above the topmost of its box. -/
theorem exists_placement (h : Columned nodes) (hx : x ∈ nodes.zipIdx) (hcolumn : x.1.column = some key) :
    ∃ span, (x, span) ∈ placements nodes key ∧ raised nodes x = { x.1 with position.y := span.start } ∧
      span.length = x.1.size.y ∧ minY nodes key.1 ≤ span.start ∧ span.start ≤ x.1.position.y := by
  have hmem : x ∈ (placements nodes key).map Prod.fst := by
    rw [map_fst_placements]
    exact mem_columnOf.mpr ⟨hx, hcolumn⟩
  obtain ⟨⟨_, span⟩, hplaced, rfl⟩ := List.mem_map.mp hmem
  have hstart : ∀ s ∈ (columnOf nodes key).map (fun x => x.1.layout.vspan), minY nodes key.1 ≤ s.start := by
    intro s hs
    obtain ⟨y, hy, rfl⟩ := List.mem_map.mp hs
    obtain ⟨hy, hycolumn⟩ := mem_columnOf.mp hy
    exact (minY_spec hy hycolumn).1
  have hle := stack_le hstart (pairwise_columnOf h)
  rw [List.map_map] at hle
  have hpair := (List.forall₂_iff_zip.mp (List.forall₂_map_right_iff.mp hle).flip).2 hplaced
  refine ⟨span, hplaced, ?_, hpair.2, start_le_of_mem_stack (by decide) (List.of_mem_zip hplaced).2, hpair.1⟩
  rw [raised, hcolumn, Option.bind_some, lookup_compressedColumn hplaced]

/-- Two children of a column. -/
theorem apart_raised (h : Columned nodes) (hx : x ∈ nodes.zipIdx) (hy : y ∈ nodes.zipIdx) (hne : x.2 ≠ y.2)
    (hxcolumn : x.1.column = some key) (hycolumn : y.1.column = some key) :
    Apart nodePadding.y (raised nodes x).layout.vspan (raised nodes y).layout.vspan := by
  obtain ⟨s, hs, hxraised, hslength, -⟩ := exists_placement h hx hxcolumn
  obtain ⟨t, ht, hyraised, htlength, -⟩ := exists_placement h hy hycolumn
  have hstack : ((placements nodes key).map Prod.snd).Pairwise (Before nodePadding.y) := by
    rw [map_snd_placements]
    exact pairwise_stack (by decide)
  have hapart : (placements nodes key).Pairwise fun p q => Apart nodePadding.y p.2 q.2 :=
    (List.pairwise_map.mp hstack).imp .inl
  have : Std.Symm fun p q : (Node × Nat) × Span => Apart nodePadding.y p.2 q.2 := ⟨fun p q hpq => hpq.symm⟩
  have hst := hapart.forall hs ht fun heq => hne (congrArg (fun p => p.1.2) heq)
  rw [hxraised, hyraised]
  simp only [Apart, Before, stop, NodeLayout.vspan, Node.layout, hslength, htlength] at hst ⊢
  exact hst

theorem column_raised (nodes : List Node) (x : Node × Nat) :
    (raised nodes x).box = x.1.box ∧ (raised nodes x).layout.span = x.1.layout.span ∧
    (raised nodes x).nodeType = x.1.nodeType := by
  unfold raised
  split
  · refine ⟨?_, rfl, rfl⟩
    unfold Node.box Node.column
    cases x.1.nodeType <;> rfl
  · exact ⟨rfl, rfl, rfl⟩

/-- In a box the children are in a grid. -/
def InGrids (nodes : List Node) : Prop :=
  nodes.Pairwise fun a b => ∀ subnetId, a.box = some subnetId → b.box = some subnetId → Gridded a.layout b.layout

theorem box_of_column {n : Node} (h : n.column = some key) : n.box = some key.1 ∧ n.position.x = key.2 := by
  refine ⟨by rw [Node.box, h]; rfl, ?_⟩
  unfold Node.column at h
  split at h
  · rw [← Option.some.inj h]
  · cases h

theorem column_of_box {n : Node} {subnetId : Uuid} (h : n.box = some subnetId) :
    n.column = some (subnetId, n.position.x) := by
  obtain ⟨key, hkey, rfl⟩ := Option.map_eq_some_iff.mp h
  rw [hkey, (box_of_column hkey).2]

theorem InGrids.columned (h : InGrids nodes) : Columned nodes := by
  refine h.imp fun {a b} hab key ha hb => ?_
  obtain ⟨habox, hax⟩ := box_of_column ha
  obtain ⟨hbbox, hbx⟩ := box_of_column hb
  rcases hab key.1 habox hbbox with ⟨-, hapart⟩ | hapart
  · exact hapart
  · have hpadding : nodePadding.x = 50 := rfl
    simp only [Apart, Before, stop, NodeLayout.span, Node.layout, hax, hbx] at hapart
    omega

/-- **Children of one box do not overlap after compression.** -/
theorem pairwise_compressVerticalSpacing (h : InGrids nodes) :
    (compressVerticalSpacing nodes).Pairwise fun a b => ∀ subnetId, a.box = some subnetId → b.box = some subnetId →
      rectanglesOverlap a.position a.size b.position b.size = false := by
  have hzip : nodes.zipIdx.Pairwise fun x y => ∀ subnetId, x.1.box = some subnetId → y.1.box = some subnetId →
      Gridded x.1.layout y.1.layout := by
    have hgrids := h
    rw [InGrids, ← List.zipIdx_map_fst 0 nodes] at hgrids
    exact List.pairwise_map.mp hgrids
  rw [compressVerticalSpacing_eq]
  refine List.pairwise_map.mpr ((hzip.and pairwise_indices).imp_of_mem fun {x y} hx hy hxy subnetId hxbox hybox => ?_)
  obtain ⟨hgridded, hne⟩ := hxy
  obtain ⟨hxbox', hxspan, -⟩ := column_raised nodes x
  obtain ⟨hybox', hyspan, -⟩ := column_raised nodes y
  rw [hxbox'] at hxbox
  rw [hybox'] at hybox
  rw [rectanglesOverlap_eq_false]
  rcases hgridded subnetId hxbox hybox with ⟨hcolumn, -⟩ | hapart
  · have hycolumn : y.1.column = some (subnetId, x.1.position.x) := by
      have hcolumn : x.1.position.x = y.1.position.x := hcolumn
      rw [hcolumn]
      exact column_of_box hybox
    have hapart := apart_raised h.columned hx hy hne (column_of_box hxbox) hycolumn
    simp only [Apart, Before, stop, NodeLayout.vspan, Node.layout] at hapart
    omega
  · rw [← hxspan, ← hyspan] at hapart
    simp only [Apart, Before, stop, NodeLayout.span, Node.layout] at hapart
    omega

/-- **What was inside its box stays inside.** -/
theorem inside_compressVerticalSpacing {layout : Uuid → SubnetLayout} (h : InGrids nodes)
    (hinside : ∀ n ∈ nodes, ∀ subnetId hostId interfaceId isInfra,
      n.nodeType = .interfaceNode subnetId hostId interfaceId isInfra → n.Inside (layout subnetId) isInfra) :
    ∀ n ∈ compressVerticalSpacing nodes, ∀ subnetId hostId interfaceId isInfra,
      n.nodeType = .interfaceNode subnetId hostId interfaceId isInfra → n.Inside (layout subnetId) isInfra := by
  intro n hn subnetId hostId interfaceId isInfra htype
  rw [compressVerticalSpacing_eq] at hn
  obtain ⟨x, hx, rfl⟩ := List.mem_map.mp hn
  have hmem : x.1 ∈ nodes := by
    rw [← List.zipIdx_map_fst 0 nodes]
    exact List.mem_map_of_mem hx
  rw [(column_raised nodes x).2.2] at htype
  have hcolumn : x.1.column = some (subnetId, x.1.position.x) := by
    unfold Node.column
    rw [htype]
  obtain ⟨left, right, top, bottom, part⟩ := hinside x.1 hmem subnetId hostId interfaceId isInfra htype
  obtain ⟨span, -, hraised, -, hstart, hle⟩ := exists_placement h.columned hx hcolumn
  -- the topmost of the box is inside it
  obtain ⟨-, m, hm, hmbox, hmin⟩ := minY_spec hx hcolumn
  have htop : 0 ≤ m.position.y := by
    cases hmtype : m.nodeType with
    | interfaceNode subnetId' hostId' interfaceId' isInfra' =>
      exact (hinside m hm subnetId' hostId' interfaceId' isInfra' hmtype).top
    | subnetNode infraWidth =>
      simp [Node.box, Node.column, hmtype] at hmbox
  rw [hraised]
  exact ⟨left, right, by simp only; omega, by simp only; omega, part⟩

end ChildPositioner

/-! ## The final layout -/

namespace SubnetLayoutPlanner

variable {ctx : TopologyContext} {forces : Forces} {m : Assoc Uuid (List SubnetChild)} {n : Node}

/-- Where the nodes of the children come from. -/
theorem mem_childNodes (hset : ∀ subnetId children, m.lookup subnetId = some children →
    (children.map SubnetChild.id).Nodup)
    (hn : n ∈ childNodes ctx forces m) : ∃ subnetId hostId interfaceId isInfra,
      n.nodeType = .interfaceNode subnetId hostId interfaceId isInfra ∧
      n.Inside (calculateSubnetSize ctx forces subnetId (m.getD subnetId [])).1 isInfra := by
  obtain ⟨⟨subnetId, children⟩, hentry, hn⟩ := List.mem_flatMap.mp hn
  have hlookup : m.lookup subnetId = some children := Assoc.mem_entries_iff.mp hentry
  obtain ⟨hostId, interfaceId, isInfra, htype, hinside⟩ :=
    (calculateSubnetSize_spec (hset subnetId children hlookup)).2 n hn
  refine ⟨subnetId, hostId, interfaceId, isInfra, htype, ?_⟩
  rw [Assoc.getD, hlookup]
  exact hinside

theorem box_of_mem {subnetId : Uuid} {children : List SubnetChild} (hnodup : (children.map SubnetChild.id).Nodup)
    (hn : n ∈ (calculateSubnetSize ctx forces subnetId children).2) : n.box = some subnetId := by
  obtain ⟨hostId, interfaceId, isInfra, htype, -⟩ := (calculateSubnetSize_spec hnodup).2 n hn
  rw [Node.box, Node.column, htype]
  rfl

theorem inGrids_childNodes
    (hset : ∀ subnetId children, m.lookup subnetId = some children → (children.map SubnetChild.id).Nodup) :
    ChildPositioner.InGrids (childNodes ctx forces m) := by
  have hset' : ∀ entry ∈ m.entries, (entry.2.map SubnetChild.id).Nodup :=
    fun entry hentry => hset entry.1 entry.2 (Assoc.mem_entries_iff.mp hentry)
  refine List.pairwise_flatMap.mpr ⟨fun entry hentry => ?_, ?_⟩
  · exact (calculateSubnetSize_spec (hset' entry hentry)).1.imp fun hab _ _ _ => hab
  · have hkeys : m.entries.Pairwise fun e e' => e.1 ≠ e'.1 := List.pairwise_map.mp m.nodupKeys
    refine hkeys.imp_of_mem fun {e e'} he he' hne a ha b hb subnetId habox hbbox => ?_
    rw [box_of_mem (hset' e he) ha] at habox
    rw [box_of_mem (hset' e' he') hb] at hbbox
    exact absurd ((Option.some.inj habox).trans (Option.some.inj hbbox).symm) hne

end SubnetLayoutPlanner

/-- **Every child is placed exactly once, no two children of one box overlap in the
final layout, and each lies in its part of the box that was computed.** -/
theorem children_lossless (ctx : TopologyContext) (forces : Forces) (quality : Quality) (edges : List Edge)
    (consolidatedDockerSubnets : Assoc Uuid (List Uuid)) {m : Assoc Uuid (List SubnetChild)}
    (hset : ∀ subnetId children, m.lookup subnetId = some children → (children.map SubnetChild.id).Nodup) :
    let nodes := (TopologyOptimizer.optimizeGraph ctx quality edges
      (SubnetLayoutPlanner.createSubnetNodes ctx (SubnetLayoutPlanner.subnetLayouts ctx forces m)
        consolidatedDockerSubnets ++ SubnetLayoutPlanner.childNodes ctx forces m)).1
    ((nodes.filter fun n => !n.isSubnet).map Node.placement).Perm
        (m.entries.flatMap fun e => e.2.map fun c => (some e.1, c.id)) ∧
      nodes.Pairwise (fun a b => ∀ subnetId, a.box = some subnetId → b.box = some subnetId →
        rectanglesOverlap a.position a.size b.position b.size = false) ∧
      ∀ n ∈ nodes, ∀ subnetId hostId interfaceId isInfra,
        n.nodeType = .interfaceNode subnetId hostId interfaceId isInfra →
        n.Inside (SubnetLayoutPlanner.calculateSubnetSize ctx forces subnetId (m.getD subnetId [])).1 isInfra := by
  intro nodes
  obtain ⟨subnets, hnodes, hmap, -⟩ : ∃ subnets, nodes =
      ChildPositioner.compressVerticalSpacing (subnets ++ SubnetLayoutPlanner.childNodes ctx forces m) ∧ _ ∧ _ :=
    TopologyOptimizer.exists_optimizeGraph SubnetLayoutPlanner.shapes_createSubnetNodes
      SubnetLayoutPlanner.rows_createSubnetNodes
  have hshapes : SubnetPositioner.Shapes
      ((SubnetLayoutPlanner.createSubnetNodes ctx (SubnetLayoutPlanner.subnetLayouts ctx forces m)
        consolidatedDockerSubnets).map Node.inColumn) (SubnetLayoutPlanner.childNodes ctx forces m) :=
    SubnetLayoutPlanner.shapes_createSubnetNodes
  have hsubnets : ∀ n ∈ subnets, n.isSubnet = true := fun n hn =>
    SubnetPositioner.isSubnet_of_shapes hshapes hmap hn
  have hbox : ∀ n ∈ subnets, n.box = none := fun n hn => by
    rw [Node.box, ChildPositioner.column_of_isSubnet (hsubnets n hn)]
    rfl
  have hgrids : ChildPositioner.InGrids (subnets ++ SubnetLayoutPlanner.childNodes ctx forces m) := by
    refine List.pairwise_append.mpr ⟨?_, SubnetLayoutPlanner.inGrids_childNodes hset,
      fun a ha b _ subnetId habox => ?_⟩
    · refine List.pairwise_of_forall_mem_list fun a ha b _ subnetId habox => ?_
      rw [hbox a ha] at habox
      cases habox
    · rw [hbox a ha] at habox
      cases habox
  refine ⟨?_, ?_, ?_⟩
  · have hkept : (nodes.filter fun n => !n.isSubnet).map Node.unplaced =
        (SubnetLayoutPlanner.childNodes ctx forces m).map Node.unplaced := by
      have hfilter : ∀ l : List Node, (l.filter fun n => !n.isSubnet).map Node.unplaced =
          (l.map Node.unplaced).filter fun n => !n.isSubnet := fun l => by
        rw [List.filter_map]
        rfl
      rw [hfilter, hnodes, ChildPositioner.map_unplaced_compressVerticalSpacing, ← hfilter, List.filter_append,
        List.filter_eq_nil_iff.mpr fun n hn => by simp [hsubnets n hn],
        List.filter_eq_self.mpr fun n hn => by simp [hshapes.children n hn], List.nil_append]
    have hplacement := congrArg (List.map Node.placement) hkept
    simp only [List.map_map, Function.comp_def, Node.placement_unplaced] at hplacement
    rw [hplacement]
    exact SubnetLayoutPlanner.placement_childNodes
  · rw [hnodes]
    exact ChildPositioner.pairwise_compressVerticalSpacing hgrids
  · rw [hnodes]
    refine ChildPositioner.inside_compressVerticalSpacing hgrids fun n hn subnetId hostId interfaceId isInfra htype =>
      ?_
    rcases List.mem_append.mp hn with hn | hn
    · have hsubnet := hsubnets n hn
      rw [Node.isSubnet, htype] at hsubnet
      cases hsubnet
    · obtain ⟨subnetId', hostId', interfaceId', isInfra', htype', hinside⟩ :=
        SubnetLayoutPlanner.mem_childNodes hset hn
      rw [htype] at htype'
      cases htype'
      exact hinside

/-- A subnet with a name server. -/
def nameServed : TopologyContext where
  hosts := .single { id := 1 }
  interfaces := ⟨[{ id := 11, base := { hostId := 1, subnetId := 21 } },
    { id := 12, base := { hostId := 1, subnetId := 21 } }, { id := 13, base := { hostId := 1, subnetId := 21 } }],
    by decide⟩
  subnets := .single { id := 21, base := { cidr := ⟨.v4 0, 24⟩, networkId := 1, subnetType := .lan } }
  services := .single
    { id := 31, base := { hostId := 1, bindings := [{ id := 41, base := { bindingType := .interface 11 } }] } }
  category := fun _ => .dns

def servedChildren : Assoc Uuid (List SubnetChild) :=
  (∅ : Assoc Uuid (List SubnetChild)).insert 21 [{ id := 11, interfaceId := some 11, size := { x := 250, y := 100 } },
    { id := 12, interfaceId := some 12, size := { x := 250, y := 75 } },
    { id := 13, interfaceId := some 13, size := { x := 250, y := 125 } }]

theorem children_lossless_nameServed :
    ((TopologyOptimizer.optimizeGraph nameServed {} []
      (SubnetLayoutPlanner.createSubnetNodes nameServed
        (SubnetLayoutPlanner.subnetLayouts nameServed {} servedChildren) ∅ ++
        SubnetLayoutPlanner.childNodes nameServed {} servedChildren)).1).Pairwise fun a b =>
      ∀ subnetId, a.box = some subnetId → b.box = some subnetId →
        rectanglesOverlap a.position a.size b.position b.size = false := by
  refine (children_lossless nameServed {} {} [] ∅ fun subnetId children hchildren => ?_).2.1
  have hone : servedChildren.entries.all fun e => decide (e.2.map SubnetChild.id).Nodup := by decide
  simpa using List.all_eq_true.mp hone ⟨subnetId, children⟩ (Assoc.mem_entries_iff.mpr hchildren)

end Netvisor
