/-
The compression of rows and the last snapping: boxes of subnets that are spaced
stay apart, and so no two of them overlap in the final layout.
-/
import Netvisor.Topology.SubnetSpacing

namespace Netvisor

open Spacing Spacing.Span

namespace SubnetPositioner

/-! ## The slots of a row -/

/-- A slot but for where it is. -/
def Slot.shape (s : Slot) : Uuid × Nat := (s.id, s.span.length)

/-- Each slot is before those after it. -/
def Spread (slots : List Slot) : Prop := slots.Pairwise fun a b => Before 101 a.span b.span

/-- The positions are those of the slots, moved. -/
def PlacedAs (slots moved : List Slot) (positions : List (Uuid × Int)) : Prop :=
  positions = moved.map (fun s => (s.id, s.span.start)) ∧ moved.map Slot.shape = slots.map Slot.shape

variable {slots segment moved : List Slot} {positions : List (Uuid × Int)} {left right : Option Slot}

theorem PlacedAs.append {slots' moved' : List Slot} {positions' : List (Uuid × Int)}
    (h : PlacedAs slots moved positions)
    (h' : PlacedAs slots' moved' positions') :
    PlacedAs (slots ++ slots') (moved ++ moved') (positions ++ positions') := by
  obtain ⟨rfl, hshape⟩ := h
  obtain ⟨rfl, hshape'⟩ := h'
  refine ⟨by rw [List.map_append], ?_⟩
  rw [List.map_append, List.map_append, hshape, hshape']

/-- Spans of these lengths are where slots are moved to. -/
theorem exists_placedAs (spans : List Span) (h : spans.map Span.length = slots.map (·.span.length)) :
    ∃ moved, PlacedAs slots moved ((slots.map Slot.id).zip (spans.map Span.start)) ∧ moved.map Slot.span = spans := by
  induction slots generalizing spans with
  | nil =>
    obtain rfl := List.map_eq_nil_iff.mp h
    exact ⟨[], ⟨rfl, rfl⟩, rfl⟩
  | cons s slots ih =>
    cases spans with
    | nil => cases h
    | cons span spans =>
      rw [List.map_cons, List.map_cons, List.cons.injEq] at h
      obtain ⟨hlength, hrest⟩ := h
      obtain ⟨moved, ⟨hpositions, hshape⟩, hspans⟩ := ih spans hrest
      refine ⟨{ s with span } :: moved, ⟨?_, ?_⟩, by rw [List.map_cons, hspans]⟩
      · rw [List.map_cons, List.map_cons, List.zip_cons_cons, List.map_cons, hpositions]
      · rw [List.map_cons, List.map_cons, hshape, Slot.shape, Slot.shape, hlength]

theorem spread_iff : Spread slots ↔ (slots.map Slot.span).Pairwise (Before 101) := List.pairwise_map.symm

theorem Spread.of_before (h : (slots.map Slot.span).Pairwise (Before padding)) : Spread slots :=
  spread_iff.mpr (h.imp fun hbefore => by
    simp only [Before, padding] at *
    omega)

/-- What is compressed toward the left stays off the slot on the right. -/
theorem exists_unlessReaching (h : Spread (left.toList ++ slots ++ right.toList)) {compressed : List (Uuid × Int)}
    (hplaced : PlacedAs slots moved compressed) (hmoved : Spread (left.toList ++ moved)) :
    ∃ moved, PlacedAs slots moved (unlessReaching right slots compressed) ∧
      Spread (left.toList ++ moved ++ right.toList) := by
  cases right with
  | none => exact ⟨moved, hplaced, by simpa using hmoved⟩
  | some right =>
    obtain ⟨rfl, hshape⟩ := hplaced
    rcases slots.eq_nil_or_concat with rfl | ⟨slots, last, rfl⟩
    · obtain rfl := List.map_eq_nil_iff.mp hshape
      exact ⟨[], ⟨rfl, rfl⟩, h⟩
    · rcases moved.eq_nil_or_concat with rfl | ⟨moved, last', rfl⟩
      · simp at hshape
      · simp only [List.concat_eq_append] at h hshape hmoved ⊢
        have hlast : last'.span.length = last.span.length := by
          rw [List.map_append, List.map_append] at hshape
          have hlasts := (List.append_inj' hshape rfl).2
          rw [List.map_singleton, List.map_singleton, List.cons.injEq] at hlasts
          exact (Prod.ext_iff.mp hlasts.1).2
        simp only [unlessReaching, List.map_append, List.map_singleton, List.getLast?_append, List.getLast?_singleton,
          Option.some_or]
        split
        · exact ⟨slots ++ [last], ⟨by rw [List.map_append, List.map_singleton], rfl⟩, h⟩
        · next hroom =>
          refine ⟨moved ++ [last'], ⟨by rw [List.map_append, List.map_singleton], hshape⟩, ?_⟩
          have hlastBefore : last'.span.stop + padding ≤ right.span.start := by
            simp only [stop, hlast]
            omega
          refine List.pairwise_append.mpr ⟨hmoved, List.pairwise_singleton _ _, fun s hs t ht => ?_⟩
          obtain rfl := List.mem_singleton.mp ht
          rw [Spread, ← List.append_assoc] at hmoved
          rw [← List.append_assoc] at hs
          -- it is the last one, or before it
          rcases List.mem_append.mp hs with hs | hs
          · have hbefore := (List.pairwise_append.mp hmoved).2.2 s hs last' (List.mem_singleton.mpr rfl)
            simp only [Before, stop, padding] at *
            omega
          · rw [List.mem_singleton.mp hs]
            simp only [Before, padding] at *
            omega

theorem Spread.left_append (h : Spread (slots ++ segment)) : Spread slots := (List.pairwise_append.mp h).1

/-- A segment between two locked slots. -/
theorem exists_compressSegment (h : Spread (left.toList ++ segment ++ right.toList)) :
    ∃ moved, PlacedAs segment moved (compressSegment left right segment) ∧
      Spread (left.toList ++ moved ++ right.toList) := by
  cases left with
  | none =>
    cases segment with
    | nil => exact exists_unlessReaching h ⟨rfl, rfl⟩ List.Pairwise.nil
    | cons s slots =>
      obtain ⟨moved, hplaced, hspans⟩ := exists_placedAs
        (stack padding s.span.start ((s :: slots).map (·.span.length))) map_length_stack
      refine exists_unlessReaching h hplaced (Spread.of_before ?_)
      rw [Option.toList_none, List.nil_append, hspans]
      exact pairwise_stack (by decide)
  | some left =>
    have hlength : (pull padding (left.span.stop + padding) (segment.map Slot.span)).map Span.length =
        segment.map (·.span.length) := by
      rw [← Function.comp_def Span.length Slot.span, ← List.map_map]
      exact (List.forall₂_eq_eq_eq ▸ List.forall₂_map_left_iff.mpr (List.forall₂_map_right_iff.mpr
        (pull_le.imp fun _ _ hle => hle.2)))
    obtain ⟨moved, hplaced, hspans⟩ := exists_placedAs _ hlength
    refine exists_unlessReaching h hplaced (spread_iff.mpr ?_)
    rw [Option.toList_some, List.singleton_append, List.map_cons, hspans]
    exact pairwise_pull (by decide) (by decide) (spread_iff.mp h.left_append) (le_refl _) rfl

/-- **A row is compressed without its slots running into each other.** -/
theorem exists_compressTowardLocked (h : Spread (left.toList ++ segment ++ slots)) :
    ∃ moved, PlacedAs (segment ++ slots) moved (compressTowardLocked left segment slots) ∧
      Spread (left.toList ++ moved) := by
  induction slots generalizing left segment with
  | nil =>
    have hsegment : Spread (left.toList ++ segment ++ none.toList) := h
    obtain ⟨moved, hplaced, hmoved⟩ := exists_compressSegment hsegment
    refine ⟨moved, ?_, by simpa using hmoved⟩
    rwa [List.append_nil]
  | cons s slots ih =>
    rw [compressTowardLocked]
    split
    · have hsegment : Spread (left.toList ++ segment ++ (some s).toList) := by
        rw [← List.singleton_append, ← List.append_assoc] at h
        exact h.left_append
      obtain ⟨moved, hplaced, hmoved⟩ := exists_compressSegment hsegment
      have hrest : Spread ((some s).toList ++ [] ++ slots) := (List.pairwise_append.mp h).2.1
      obtain ⟨moved', hplaced', hmoved'⟩ := ih hrest
      have hlocked : PlacedAs [s] [s] [(s.id, s.span.start)] := ⟨rfl, rfl⟩
      refine ⟨moved ++ s :: moved', hplaced.append (hlocked.append hplaced'), ?_⟩
      -- what is after the locked slot is behind what is before it
      rw [← List.append_assoc]
      refine List.pairwise_append.mpr ⟨hmoved.left_append, hmoved', fun a ha b hb => ?_⟩
      have has : Before 101 a.span s.span := (List.pairwise_append.mp hmoved).2.2 a ha s (List.mem_singleton.mpr rfl)
      rcases List.mem_cons.mp hb with rfl | hb
      · exact has
      · exact has.trans (by decide) ((List.pairwise_cons.mp hmoved').1 b hb)
    · have hlonger : Spread (left.toList ++ (segment ++ [s]) ++ slots) := by simpa using h
      obtain ⟨moved, hplaced, hmoved⟩ := ih hlonger
      exact ⟨moved, by simpa using hplaced, hmoved⟩

/-! ## The layers -/

variable {shapes children subnets nodes : List Node} {n : Node} {layer lockedSubnets : List Uuid} {y : Int}

/-- A box that is moved to its position, if there is one for it. -/
def relocated (positions : List (Uuid × Int)) (n : Node) : Node :=
  match positions.lookup n.id with
  | some x => { n with position.x := x }
  | none => n

theorem inColumn_relocated : (relocated positions n).inColumn = n.inColumn := by
  unfold relocated
  split <;> rfl

theorem applyPositions_append (hnodup : (subnets.map Node.id).Nodup) (hpositions : (positions.map Prod.fst).Nodup)
    (hids : ∀ id ∈ positions.map Prod.fst, id ∈ subnets.map Node.id) :
    applyPositions (subnets ++ children) positions = subnets.map (relocated positions) ++ children := by
  induction positions generalizing subnets with
  | nil =>
    have hsame : subnets.map (relocated []) = subnets := List.map_id' subnets
    rw [hsame]
    rfl
  | cons p positions ih =>
    rw [List.map_cons, List.nodup_cons] at hpositions
    have hmap : (subnets.map (shift p.1 p.2)).map Node.id = subnets.map Node.id := by
      rw [List.map_map]
      exact List.map_congr_left fun m _ => (Node.eq_of_inColumn inColumn_shift).1
    have hfirst : p.1 ∈ subnets.map Node.id := hids p.1 List.mem_cons_self
    rw [applyPositions, List.foldl_cons, moveTo_append hnodup hfirst]
    have ih := @ih (subnets.map (shift p.1 p.2)) (by rwa [hmap]) hpositions.2
      (by rw [hmap]; exact fun id hid => hids id (List.mem_cons_of_mem p.1 hid))
    rw [applyPositions] at ih
    rw [ih, List.map_map]
    refine congrArg (· ++ children) (List.map_congr_left fun m _ => ?_)
    obtain ⟨id, x⟩ := p
    rw [Function.comp_apply, relocated, relocated, (Node.eq_of_inColumn inColumn_shift).1, shift, List.lookup_cons]
    by_cases hm : m.id = id
    · have hnone : positions.lookup m.id = none := by
        rw [List.lookup_eq_none_iff]
        intro q hq
        rw [bne_iff_ne, hm]
        intro heq
        exact hpositions.1 (List.mem_map.mpr ⟨q, hq, heq.symm⟩)
      rw [hnone, if_pos hm, beq_iff_eq.mpr hm]
    · rw [if_neg hm, beq_eq_false_iff_ne.mpr hm]

/-- The layer of a height, of boxes of these shapes. -/
structure IsLayer (shapes : List Node) (y : Int) (layer : List Uuid) : Prop where
  nodup : layer.Nodup
  mem : ∀ n ∈ shapes, n.id ∈ layer ↔ n.position.y = y
  ids : ∀ id ∈ layer, id ∈ shapes.map Node.id

theorem isLayer_groupSubnetsByLayer (hshapes : Shapes shapes children) (hmap : subnets.map Node.inColumn = shapes)
    (hlayer : layer ∈ groupSubnetsByLayer (subnets ++ children) (subnetIds (subnets ++ children))) :
    ∃ y, IsLayer shapes y layer := by
  have hids := map_id_of_shapes hmap
  have hnodup : (subnets.map Node.id).Nodup := by
    rw [hids]
    exact hshapes.nodup
  rw [subnetIds_append hshapes hmap] at hlayer
  have hplaced : ((subnets.map Node.id).filterMap fun id =>
      (findNode (subnets ++ children) id).map fun n => (id, n.position.y)) =
      subnets.map fun n => (n.id, n.position.y) := by
    rw [List.filterMap_map, ← List.filterMap_eq_map]
    refine List.filterMap_congr fun n hn => ?_
    rw [Function.comp_apply, findNode_append hnodup hn]
    rfl
  simp only [groupSubnetsByLayer, hplaced, List.mem_map] at hlayer
  obtain ⟨y, -, rfl⟩ := hlayer
  have hmem : ∀ id, id ∈ ((subnets.map fun n => (n.id, n.position.y)).filter (·.2 == y)).map Prod.fst ↔
      ∃ n ∈ subnets, n.id = id ∧ n.position.y = y := by
    intro id
    simp only [List.mem_map, List.mem_filter, beq_iff_eq]
    constructor
    · rintro ⟨_, ⟨⟨n, hn, rfl⟩, hy⟩, rfl⟩
      exact ⟨n, hn, rfl, hy⟩
    · rintro ⟨n, hn, rfl, hy⟩
      exact ⟨_, ⟨⟨n, hn, rfl⟩, hy⟩, rfl⟩
  refine ⟨y, ?_, fun m hm => ?_, fun id hid => ?_⟩
  · refine (List.filter_sublist.map Prod.fst).nodup ?_
    rwa [List.map_map]
  · rw [← hmap] at hm
    obtain ⟨n, hn, rfl⟩ := List.mem_map.mp hm
    rw [hmem]
    constructor
    · rintro ⟨n', hn', hid, hy⟩
      have hid : n'.id = n.id := hid
      rw [List.inj_on_of_nodup_map hnodup hn' hn hid] at hy
      exact hy
    · exact fun hy => ⟨n, hn, rfl, hy⟩
  · obtain ⟨n, hn, rfl, -⟩ := (hmem id).mp hid
    rw [← hids]
    exact List.mem_map_of_mem hn

/-- The slots of a layer are its boxes. -/
theorem mem_slotsOf (hnodup : (subnets.map Node.id).Nodup) {s : Slot}
    (hlayer : ∀ id ∈ layer, id ∈ subnets.map Node.id) :
    s ∈ slotsOf (subnets ++ children) layer lockedSubnets ↔
      ∃ n ∈ subnets, n.id ∈ layer ∧ s = ⟨n.id, n.span, lockedSubnets.contains n.id⟩ := by
  simp only [slotsOf, (List.perm_insertionSort _ _).mem_iff, List.mem_filterMap, Option.map_eq_some_iff]
  constructor
  · rintro ⟨id, hid, m, hm, rfl⟩
    obtain ⟨n, hn, rfl⟩ := List.mem_map.mp (hlayer id hid)
    rw [findNode_append hnodup hn] at hm
    obtain rfl := Option.some.inj hm
    exact ⟨n, hn, hid, rfl⟩
  · rintro ⟨n, hn, hid, rfl⟩
    exact ⟨n.id, hid, n, findNode_append hnodup hn, rfl⟩

theorem map_id_slotsOf (hnodup : (subnets.map Node.id).Nodup) (hlayer : ∀ id ∈ layer, id ∈ subnets.map Node.id) :
    ((slotsOf (subnets ++ children) layer lockedSubnets).map Slot.id).Perm layer := by
  refine ((List.perm_insertionSort _ _).map Slot.id).trans (List.Perm.of_eq ?_)
  induction layer with
  | nil => rfl
  | cons id layer ih =>
    obtain ⟨n, hn, hid⟩ := List.mem_map.mp (hlayer id List.mem_cons_self)
    have hfound : findNode (subnets ++ children) id = some n := hid ▸ findNode_append hnodup hn
    rw [List.filterMap_cons, hfound, Option.map_some, List.map_cons,
      ih fun i hi => hlayer i (List.mem_cons_of_mem id hi)]

/-- The slots of a layer are spread if its boxes are apart. -/
theorem spread_slotsOf (hnodup : (subnets.map Node.id).Nodup) (hlayer : layer.Nodup)
    (hids : ∀ id ∈ layer, id ∈ subnets.map Node.id)
    (happart : ∀ a ∈ subnets, ∀ b ∈ subnets, a.id ≠ b.id → a.id ∈ layer → b.id ∈ layer → Apart 101 a.span b.span) :
    Spread (slotsOf (subnets ++ children) layer lockedSubnets) := by
  have hslots : ((slotsOf (subnets ++ children) layer lockedSubnets).map Slot.id).Nodup :=
    (map_id_slotsOf hnodup hids).nodup_iff.mpr hlayer
  have hsorted : (slotsOf (subnets ++ children) layer lockedSubnets).Pairwise fun a b =>
      a.span.start ≤ b.span.start :=
    List.pairwise_insertionSort (fun a b : Slot => a.span.start ≤ b.span.start) _
  refine ((List.pairwise_map.mp hslots).and hsorted).imp_of_mem fun ha hb h => ?_
  obtain ⟨n, hn, hnid, rfl⟩ := (mem_slotsOf hnodup hids).mp ha
  obtain ⟨m, hm, hmid, rfl⟩ := (mem_slotsOf hnodup hids).mp hb
  exact (happart n hn m hm h.1 hnid hmid).before (by decide) h.2

theorem exists_placedAs_compressLayer (hspread : Spread slots) :
    ∃ moved, PlacedAs slots moved
      (if slots.any (·.isLocked) then compressTowardLocked none [] slots else compressTowardLeft slots) ∧
      Spread moved := by
  split
  · exact exists_compressTowardLocked hspread
  · have hsegment : Spread (none.toList ++ slots ++ none.toList) := by simpa using hspread
    obtain ⟨moved, hplaced, hmoved⟩ := exists_compressSegment hsegment
    exact ⟨moved, hplaced, by simpa using hmoved⟩

/-- A box of the layer is moved to where its slot is. -/
theorem exists_span_relocated (hnodup : (subnets.map Node.id).Nodup) (hlayer : layer.Nodup)
    (hids : ∀ id ∈ layer, id ∈ subnets.map Node.id)
    (hplaced : PlacedAs (slotsOf (subnets ++ children) layer lockedSubnets) moved positions) (hn : n ∈ subnets)
    (hnid : n.id ∈ layer) : ∃ s ∈ moved, s.id = n.id ∧ (relocated positions n).span = s.span := by
  obtain ⟨rfl, hshape⟩ := hplaced
  have hslot : (⟨n.id, n.span, lockedSubnets.contains n.id⟩ : Slot) ∈ slotsOf (subnets ++
      children) layer lockedSubnets :=
    (mem_slotsOf hnodup hids).mpr ⟨n, hn, hnid, rfl⟩
  have hmem := List.mem_map_of_mem (f := Slot.shape) hslot
  rw [← hshape] at hmem
  obtain ⟨s, hs, hsshape⟩ := List.mem_map.mp hmem
  rw [Slot.shape, Slot.shape, Prod.mk.injEq] at hsshape
  obtain ⟨hid, hlength⟩ := hsshape
  have hkeys : ((moved.map fun s => (s.id, s.span.start)).map Prod.fst).Nodup := by
    have hfst := congrArg (List.map Prod.fst) hshape
    rw [List.map_map, List.map_map] at hfst
    rw [List.map_map]
    exact hfst ▸ (map_id_slotsOf hnodup hids).nodup_iff.mpr hlayer
  have hlookup : (moved.map fun s => (s.id, s.span.start)).lookup n.id = some s.span.start :=
    (Assoc.lookup_eq_some_iff hkeys).mpr (List.mem_map.mpr ⟨s, hs, by rw [hid]⟩)
  refine ⟨s, hs, hid, ?_⟩
  have hwidth : n.size.x = s.span.length := hlength.symm
  rw [relocated, hlookup]
  simp only [Node.span, hwidth]

/-- **Compressing a layer keeps its boxes apart.** -/
theorem SubnetRows.compressLayer (hshapes : Shapes shapes children) (hlayer : IsLayer shapes y layer)
    (h : SubnetRows shapes children (fun a b => Apart 101 a.span b.span) nodes) :
    SubnetRows shapes children (fun a b => Apart 101 a.span b.span) (compressLayer lockedSubnets nodes layer) := by
  rw [SubnetPositioner.compressLayer]
  split
  · exact h
  obtain ⟨subnets, rfl, hmap, happart⟩ := h
  have hids := map_id_of_shapes hmap
  have hnodup : (subnets.map Node.id).Nodup := by
    rw [hids]
    exact hshapes.nodup
  have hmem : ∀ n ∈ subnets, n.id ∈ layer ↔ n.position.y = y := by
    intro n hn
    exact hlayer.mem n.inColumn (hmap ▸ List.mem_map_of_mem hn)
  have hlayerIds : ∀ id ∈ layer, id ∈ subnets.map Node.id := hids ▸ hlayer.ids
  have hspread : Spread (slotsOf (subnets ++ children) layer lockedSubnets) := by
    have : Std.Symm fun a b : Node => a.position.y = b.position.y → Apart 101 a.span b.span :=
      ⟨fun a b hab hy => (hab hy.symm).symm⟩
    refine spread_slotsOf hnodup hlayer.nodup hlayerIds fun a ha b hb hne hamem hbmem => ?_
    refine happart.forall ha hb (fun heq => hne (by rw [heq])) ?_
    rw [(hmem a ha).mp hamem, (hmem b hb).mp hbmem]
  obtain ⟨moved, hplaced, hmoved⟩ := exists_placedAs_compressLayer hspread
  dsimp only
  generalize (if (slotsOf (subnets ++ children) layer lockedSubnets).any (·.isLocked) then
    compressTowardLocked none [] (slotsOf (subnets ++ children) layer lockedSubnets)
    else compressTowardLeft (slotsOf (subnets ++ children) layer lockedSubnets)) = positions at hplaced ⊢
  have hpositions : positions.map Prod.fst = (slotsOf (subnets ++ children) layer lockedSubnets).map Slot.id := by
    obtain ⟨rfl, hshape⟩ := hplaced
    have hfst := congrArg (List.map Prod.fst) hshape
    rw [List.map_map, List.map_map] at hfst
    rwa [List.map_map]
  have hperm : (positions.map Prod.fst).Perm layer := by
    rw [hpositions]
    exact map_id_slotsOf hnodup hlayerIds
  rw [applyPositions_append hnodup (hperm.nodup_iff.mpr hlayer.nodup)
    fun id hid => hlayerIds id (hperm.mem_iff.mp hid)]
  refine SubnetRows.of_map hshapes hmap happart (fun _ => inColumn_relocated) fun a ha b hb hne hrow hab => ?_
  by_cases hamem : a.id ∈ layer
  · have hbmem : b.id ∈ layer := (hmem b hb).mpr (hrow ▸ (hmem a ha).mp hamem)
    obtain ⟨s, hs, hsid, hspan⟩ := exists_span_relocated hnodup hlayer.nodup hlayerIds hplaced ha hamem
    obtain ⟨t, ht, htid, hspan'⟩ := exists_span_relocated hnodup hlayer.nodup hlayerIds hplaced hb hbmem
    rw [hspan, hspan']
    have : Std.Symm fun a b : Slot => Apart 101 a.span b.span := ⟨fun a b hab => hab.symm⟩
    have hapart : moved.Pairwise fun a b => Apart 101 a.span b.span := hmoved.imp .inl
    exact hapart.forall hs ht fun heq => hne (by rw [← hsid, ← htid, heq])
  · -- a row that is not compressed
    have hbmem : b.id ∉ layer := fun hbmem => hamem ((hmem a ha).mpr (hrow ▸ (hmem b hb).mp hbmem))
    have hkept : ∀ m : Node, m.id ∉ layer → relocated positions m = m := by
      intro m hm
      have hnone : positions.lookup m.id = none := by
        rw [List.lookup_eq_none_iff]
        intro p hp
        rw [bne_iff_ne]
        intro heq
        exact hm (hperm.mem_iff.mp (List.mem_map.mpr ⟨p, hp, heq.symm⟩))
      rw [relocated, hnone]
    rw [hkept a hamem, hkept b hbmem]
    exact hab

variable {ctx : TopologyContext} {quality : Quality} {edges : List Edge}

theorem SubnetRows.compressHorizontalSpacing (hshapes : Shapes shapes children)
    (h : SubnetRows shapes children Spaced nodes) :
    SubnetRows shapes children (fun a b => Apart 77 a.span b.span) (compressHorizontalSpacing ctx edges nodes) := by
  obtain ⟨subnets, rfl, hmap, hspaced⟩ := h
  have hlayers : SubnetRows shapes children (fun a b => Apart 101 a.span b.span)
      ((groupSubnetsByLayer (subnets ++ children) (subnetIds (subnets ++ children))).foldl
        (SubnetPositioner.compressLayer (findLockedSubnets ctx edges (subnets ++ children))) (subnets ++
          children)) := by
    refine foldl_keeps _ (fun nodes hnodes layer hlayer => ?_)
      ⟨subnets, rfl, hmap, hspaced.imp fun hab hrow => (hab hrow).apart⟩
    obtain ⟨y, hy⟩ := isLayer_groupSubnetsByLayer hshapes hmap hlayer
    exact hnodes.compressLayer hshapes hy
  obtain ⟨moved, hnodes, hmap', happart⟩ := hlayers
  rw [SubnetPositioner.compressHorizontalSpacing, hnodes, List.map_append]
  have hchildren : (children.map fun n =>
    if n.isSubnet then { n with position.x := snapToGrid n.position.x } else n) =
      children := by
    refine (List.map_congr_left fun n hn => ?_).trans (List.map_id' children)
    rw [hshapes.children n hn]
    rfl
  have hmoved : (moved.map fun n => if n.isSubnet then { n with position.x := snapToGrid n.position.x } else n) =
      moved.map snapped := by
    refine List.map_congr_left fun n hn => ?_
    rw [isSubnet_of_shapes hshapes hmap' hn]
    rfl
  rw [hchildren, hmoved]
  exact SubnetRows.of_map hshapes hmap' happart (fun _ => inColumn_snapped) fun _ _ _ _ _ _ hab => Apart.snapped hab

end SubnetPositioner

namespace ChildPositioner

variable {nodes : List Node} {x : Node × Nat}

theorem isSubnet_raised : (raised nodes x).isSubnet = x.1.isSubnet := by
  unfold raised
  split <;> rfl

theorem column_of_isSubnet {n : Node} (h : n.isSubnet = true) : n.column = none := by
  unfold Node.isSubnet at h
  unfold Node.column
  split at h
  · next hnode => rw [hnode]
  · cases h

theorem raised_of_isSubnet (h : x.1.isSubnet = true) : raised nodes x = x.1 := by
  rw [raised, column_of_isSubnet h]
  rfl

/-- Children are moved up, and the boxes are not. -/
theorem filter_isSubnet_compressVerticalSpacing :
    (compressVerticalSpacing nodes).filter Node.isSubnet = nodes.filter Node.isSubnet := by
  have hfst : nodes.filter Node.isSubnet = (nodes.zipIdx.filter fun x => x.1.isSubnet).map Prod.fst := by
    rw [← Function.comp_def Node.isSubnet Prod.fst, ← List.filter_map, List.zipIdx_map_fst]
  have hfilter : nodes.zipIdx.filter (Node.isSubnet ∘ raised nodes) = nodes.zipIdx.filter fun x => x.1.isSubnet :=
    List.filter_congr fun x _ => isSubnet_raised
  rw [compressVerticalSpacing_eq, List.filter_map, hfilter, hfst]
  exact List.map_congr_left fun x hx => raised_of_isSubnet (List.mem_filter.mp hx).2

end ChildPositioner

end Netvisor
