/-
The boxes of subnets stay apart: they are laid out in rows with the padding
between them, and the optimizer moves them along their rows only.

What a sweep moves it puts at least the padding away from the others of the row.
Snapping to the grid takes up to 12 from that on each side, once: what is on the
grid is not snapped further. So two boxes of a row that neither has moved since
are 101 apart on the grid, compression keeps 101, and the last snapping leaves 77.
-/
import Netvisor.Topology.OptimizerFacts

namespace Netvisor

open Spacing Spacing.Span

/-- A node but for its place in the row. -/
def Node.inColumn (n : Node) : Node := { n with position.x := 0 }

def Node.span (n : Node) : Span := ⟨n.position.x, n.size.x⟩

theorem Node.eq_of_inColumn {a b : Node} (h : a.inColumn = b.inColumn) :
    a.id = b.id ∧ a.position.y = b.position.y ∧ a.size = b.size := by
  have hid : a.inColumn.id = b.inColumn.id := by rw [h]
  have hy : a.inColumn.position.y = b.inColumn.position.y := by rw [h]
  have hsize : a.inColumn.size = b.inColumn.size := by rw [h]
  exact ⟨hid, hy, hsize⟩

namespace SubnetPositioner

/-! ## Nodes and their ids -/

/-- The boxes but for where they are in their rows, before the children: what the
optimizer keeps while it moves the boxes. -/
structure Shapes (shapes children : List Node) : Prop where
  subnets : ∀ n ∈ shapes, n.isSubnet = true
  nodup : (shapes.map Node.id).Nodup
  children : ∀ n ∈ children, n.isSubnet = false

/-- The boxes have these shapes, and those in one row are related. -/
def SubnetRows (shapes children : List Node) (R : Node → Node → Prop) (nodes : List Node) : Prop :=
  ∃ subnets, nodes = subnets ++ children ∧ subnets.map Node.inColumn = shapes ∧
    subnets.Pairwise fun a b => a.position.y = b.position.y → R a b

/-- Move the nodes with the id. -/
def shift (id : Uuid) (x : Int) (n : Node) : Node := if n.id = id then { n with position.x := x } else n

variable {shapes children subnets nodes : List Node} {id : Uuid} {x : Int} {n : Node} {R S : Node → Node → Prop}

theorem inColumn_shift : (shift id x n).inColumn = n.inColumn := by
  unfold shift
  split <;> rfl

theorem map_inColumn_map {f : Node → Node} (hf : ∀ n, (f n).inColumn = n.inColumn) :
    (subnets.map f).map Node.inColumn = subnets.map Node.inColumn := by
  rw [List.map_map]
  exact List.map_congr_left fun n _ => hf n

theorem map_id_of_shapes (h : subnets.map Node.inColumn = shapes) : subnets.map Node.id = shapes.map Node.id := by
  rw [← h, List.map_map]
  rfl

theorem isSubnet_of_shapes (hshapes : Shapes shapes children) (h : subnets.map Node.inColumn = shapes)
    (hn : n ∈ subnets) :
    n.isSubnet = true :=
  hshapes.subnets n.inColumn (h ▸ List.mem_map_of_mem hn)

theorem filter_isSubnet (hshapes : Shapes shapes children) (h : subnets.map Node.inColumn = shapes) :
    (subnets ++ children).filter Node.isSubnet = subnets := by
  rw [List.filter_append, List.filter_eq_self.mpr fun n hn => isSubnet_of_shapes hshapes h hn,
    List.filter_eq_nil_iff.mpr fun n hn => by simp [hshapes.children n hn], List.append_nil]

/-- With different ids, moving the first node with an id moves those with it. -/
theorem moveTo_append (hnodup : (subnets.map Node.id).Nodup) (hid : id ∈ subnets.map Node.id) :
    moveTo id x (subnets ++ children) = subnets.map (shift id x) ++ children := by
  induction subnets with
  | nil => cases hid
  | cons n subnets ih =>
    rw [List.map_cons, List.nodup_cons] at hnodup
    rw [List.cons_append, moveTo, List.map_cons, List.cons_append]
    by_cases hn : n.id = id
    · have hrest : subnets.map (shift id x) = subnets := by
        refine (List.map_congr_left fun m hm => if_neg fun hm' => hnodup.1 ?_).trans (List.map_id' subnets)
        rw [hn, ← hm']
        exact List.mem_map_of_mem hm
      rw [if_pos hn, hrest, shift, if_pos hn]
    · have hid : id ∈ subnets.map Node.id := by
        rcases List.mem_cons.mp hid with h | h
        · exact absurd h.symm hn
        · exact h
      rw [if_neg hn, ih hnodup.2 hid, shift, if_neg hn]

theorem findNode_append (hnodup : (subnets.map Node.id).Nodup) (hn : n ∈ subnets) :
    findNode (subnets ++ children) n.id = some n := by
  induction subnets with
  | nil => cases hn
  | cons m subnets ih =>
    rw [List.map_cons, List.nodup_cons] at hnodup
    rw [findNode, List.cons_append, List.find?_cons]
    rcases List.mem_cons.mp hn with rfl | hn
    · simp
    · have hne : (m.id == n.id) = false := by
        rw [beq_eq_false_iff_ne]
        intro heq
        exact hnodup.1 (heq ▸ List.mem_map_of_mem hn)
      rw [hne]
      exact ih hnodup.2 hn

/-- What holds of two boxes with different ids. -/
theorem pairwise_of_nodup (hnodup : (subnets.map Node.id).Nodup) (hR : subnets.Pairwise R)
    (himp : ∀ a ∈ subnets, ∀ b ∈ subnets, a.id ≠ b.id → R a b → S a b) : subnets.Pairwise S := by
  have hids : subnets.Pairwise fun a b => a.id ≠ b.id := List.pairwise_map.mp hnodup
  exact (hids.and hR).imp_of_mem fun {a b} ha hb h => himp a ha b hb h.1 h.2

theorem SubnetRows.of_map {f : Node → Node} (hshapes : Shapes shapes children)
    (hmap : subnets.map Node.inColumn = shapes)
    (hR : subnets.Pairwise fun a b => a.position.y = b.position.y → R a b) (hf : ∀ n, (f n).inColumn = n.inColumn)
    (himp : ∀ a ∈ subnets, ∀ b ∈ subnets, a.id ≠ b.id → a.position.y = b.position.y → R a b → S (f a) (f b)) :
    SubnetRows shapes children S (subnets.map f ++ children) := by
  have hnodup : (subnets.map Node.id).Nodup := by
    rw [map_id_of_shapes hmap]
    exact hshapes.nodup
  have hy : ∀ n, (f n).position.y = n.position.y := fun n => (Node.eq_of_inColumn (hf n)).2.1
  refine ⟨subnets.map f, rfl, (map_inColumn_map hf).trans hmap, List.pairwise_map.mpr ?_⟩
  refine pairwise_of_nodup hnodup hR fun a ha b hb hne hab hrow => ?_
  rw [hy, hy] at hrow
  exact himp a ha b hb hne hrow (hab hrow)

/-! ## The sweeps -/

/-- The padding apart, or nearly and on the grid. -/
def Spaced (a b : Node) : Prop :=
  Apart padding a.span b.span ∨ Apart 101 a.span b.span ∧ gridSize ∣ a.position.x ∧ gridSize ∣ b.position.x

theorem Spaced.symm {a b : Node} (h : Spaced a b) : Spaced b a := by
  rcases h with h | ⟨h, ha, hb⟩
  · exact .inl h.symm
  · exact .inr ⟨h.symm, hb, ha⟩

theorem Spaced.apart {a b : Node} (h : Spaced a b) : Apart 101 a.span b.span := by
  rcases h with h | ⟨h, -⟩
  · exact h.mono (by decide)
  · exact h

theorem hasOverlap_eq_false {others : List Span} {width : Nat} :
    hasOverlap others width x = false ↔ ∀ o ∈ others, Apart padding ⟨x, width⟩ o := by
  simp only [hasOverlap, List.any_eq_false, Bool.and_eq_true, decide_eq_true_eq, not_and_or, not_lt]
  refine forall₂_congr fun o _ => ?_
  simp only [Apart, Before, stop]
  omega

/-- Going through a list and picking the new one or keeping the old one. -/
theorem foldl_picks {α : Type} {step : Option α → α → Option α} (xs : List α)
    (hstep : ∀ best x, step best x = some x ∨ step best x = best ∧ best.isSome) :
    ∀ best, xs ≠ [] ∨ best.isSome → ∃ b, xs.foldl step best = some b ∧ (b ∈ xs ∨ best = some b) := by
  induction xs with
  | nil =>
    intro best hbest
    obtain ⟨b, hb⟩ := Option.isSome_iff_exists.mp (hbest.resolve_left fun hne => hne rfl)
    exact ⟨b, hb, .inr hb⟩
  | cons x xs ih =>
    intro best _
    rw [List.foldl_cons]
    rcases hstep best x with hx | ⟨hkept, hsome⟩
    · obtain ⟨b, hb, hmem⟩ := ih (step best x) (.inr (by rw [hx]; rfl))
      refine ⟨b, hb, .inl ?_⟩
      rcases hmem with hmem | hmem
      · exact List.mem_cons_of_mem x hmem
      · rw [hx] at hmem
        rw [Option.some.inj hmem]
        exact List.mem_cons_self
    · rw [hkept]
      obtain ⟨b, hb, hmem⟩ := ih best (.inr hsome)
      exact ⟨b, hb, hmem.imp_left (List.mem_cons_of_mem x)⟩

theorem closest_mem (proposedX : Int) {xs : List Int} (hne : xs ≠ []) :
    ∃ b, closest proposedX xs = some b ∧ b ∈ xs := by
  obtain ⟨b, hb, hmem⟩ : ∃ b, closest proposedX xs = some b ∧ (b ∈ xs ∨ none = some b) := by
    refine foldl_picks xs (fun best x => ?_) none (.inl hne)
    cases best with
    | none => exact .inl rfl
    | some b =>
      by_cases hcloser : (proposedX - x).natAbs < (proposedX - b).natAbs
      · exact .inl (if_pos hcloser)
      · exact .inr ⟨if_neg hcloser, rfl⟩
  exact ⟨b, hb, hmem.resolve_right nofun⟩

/-- **Where a box is put, it is the padding away from the others.** -/
theorem apart_applyNonOverlapConstraint {positioned : Assoc Uuid Int} {proposedX : Int}
    (hnode : findNode nodes id = some n) {o : Span}
    (ho : o ∈ otherSubnets nodes id n.position.y positioned) :
    Apart padding ⟨applyNonOverlapConstraint nodes id proposedX positioned, n.size.x⟩ o := by
  revert o
  rw [← hasOverlap_eq_false]
  simp only [applyNonOverlapConstraint, hnode]
  generalize otherSubnets nodes id n.position.y positioned = others
  split
  · next hoverlap =>
    have hne : others ≠ [] := by
      rintro rfl
      cases hoverlap
    obtain ⟨o, ho, hbefore⟩ := @exists_room padding others hne n.size.x
    have hfree : hasOverlap others n.size.x (o.start - n.size.x - padding) = false :=
      hasOverlap_eq_false.mpr fun o' ho' => .inl (hbefore o' ho')
    have hmem : o.start - n.size.x - padding ∈
        (candidates others n.size.x).filter fun x => !hasOverlap others n.size.x x :=
      List.mem_filter.mpr ⟨List.mem_append_left _ (List.mem_map_of_mem ho), by rw [hfree]; rfl⟩
    obtain ⟨best, hbest, hfree⟩ := closest_mem proposedX (List.ne_nil_of_mem hmem)
    rw [hbest, Option.getD_some]
    simpa using (List.mem_filter.mp hfree).2
  · next hoverlap => simpa using hoverlap

/-- What was positioned in a sweep is where it was put. -/
def Recorded (positioned : Assoc Uuid Int) (subnets : List Node) : Prop :=
  ∀ n ∈ subnets, ∀ x, positioned.lookup n.id = some x → n.position.x = x

theorem mem_otherSubnets {positioned : Assoc Uuid Int} (hrecorded : Recorded positioned subnets) {y : Int} {o : Node}
    (ho : o ∈ subnets) (hsubnet : o.isSubnet = true) (hne : o.id ≠ id) (hy : o.position.y = y) :
    o.span ∈ otherSubnets (subnets ++ children) id y positioned := by
  have hx : (positioned.lookup o.id).getD o.position.x = o.position.x := by
    cases hlookup : positioned.lookup o.id with
    | none => rfl
    | some x => exact (hrecorded o ho x hlookup).symm
  rw [otherSubnets, (List.perm_insertionSort _ _).mem_iff, List.mem_map]
  refine ⟨o, List.mem_filter.mpr ⟨List.mem_append_left _ ho, by simp [hsubnet, hne, hy]⟩, ?_⟩
  rw [hx, Node.span]

variable {ctx : TopologyContext} {quality : Quality} {edges : List Edge}

/-- The boxes in the middle of a sweep of a row. -/
def Swept (shapes children : List Node) (state : List Node × Assoc Uuid Int) : Prop :=
  ∃ subnets, state.1 = subnets ++ children ∧ subnets.map Node.inColumn = shapes ∧
    (subnets.Pairwise fun a b => a.position.y = b.position.y → Spaced a b) ∧ Recorded state.2 subnets

theorem Swept.optimizeSubnet {state : List Node × Assoc Uuid Int} {layers : List (List Uuid)} {layerIdx : Nat}
    {downSweep : Bool} (hshapes : Shapes shapes children) (h : Swept shapes children state)
    (hid : id ∈ shapes.map Node.id) :
    Swept shapes children (optimizeSubnet edges layers layerIdx downSweep state id) := by
  obtain ⟨nodes, positioned⟩ := state
  obtain ⟨subnets, rfl, hmap, hspaced, hrecorded⟩ := h
  have hids := map_id_of_shapes hmap
  have hnodup : (subnets.map Node.id).Nodup := by
    rw [hids]
    exact hshapes.nodup
  rw [← hids] at hid
  obtain ⟨n, hn, rfl⟩ := List.mem_map.mp hid
  simp only [SubnetPositioner.optimizeSubnet] at hrecorded ⊢
  generalize calculateBarycenterPosition (subnets ++ children) edges n.id layers layerIdx downSweep = proposedX
  have hfound : findNode (subnets ++ children) n.id = some n := findNode_append hnodup hn
  have hput : ∀ o ∈ subnets, o.id ≠ n.id → o.position.y = n.position.y →
      Apart padding
        ⟨applyNonOverlapConstraint (subnets ++ children) n.id proposedX positioned, n.size.x⟩ o.span := by
    intro o ho hne hy
    exact apart_applyNonOverlapConstraint hfound
      (mem_otherSubnets hrecorded ho (isSubnet_of_shapes hshapes hmap ho) hne hy)
  generalize applyNonOverlapConstraint (subnets ++ children) n.id proposedX positioned = constrainedX at hput ⊢
  have heq : ∀ a ∈ subnets, a.id = n.id → a = n := by
    intro a ha hid
    exact List.inj_on_of_nodup_map hnodup ha hn hid
  refine ⟨subnets.map (shift n.id constrainedX), moveTo_append hnodup (List.mem_map_of_mem hn),
    (map_inColumn_map fun _ => inColumn_shift).trans hmap, ?_, ?_⟩
  · rw [List.pairwise_map]
    refine pairwise_of_nodup hnodup hspaced fun a ha b hb hne hab hrow => ?_
    have hy : ∀ m, (shift n.id constrainedX m).position.y = m.position.y :=
      fun m => (Node.eq_of_inColumn inColumn_shift).2.1
    rw [hy, hy] at hrow
    by_cases ha' : a.id = n.id
    · obtain rfl := heq a ha ha'
      have hb' : b.id ≠ a.id := Ne.symm hne
      rw [shift, shift, if_pos rfl, if_neg hb']
      exact .inl (hput b hb hb' hrow.symm)
    · by_cases hb' : b.id = n.id
      · obtain rfl := heq b hb hb'
        rw [shift, shift, if_pos rfl, if_neg ha']
        exact .inl (hput a ha ha' hrow).symm
      · rw [shift, shift, if_neg ha', if_neg hb']
        exact hab hrow
  · intro m hm x hx
    obtain ⟨a, ha, rfl⟩ := List.mem_map.mp hm
    have hid : (shift n.id constrainedX a).id = a.id := (Node.eq_of_inColumn inColumn_shift).1
    rw [hid] at hx
    by_cases ha' : a.id = n.id
    · rw [ha', AList.lookup_insert] at hx
      rw [shift, if_pos ha']
      exact Option.some.inj hx
    · rw [AList.lookup_insert_ne ha'] at hx
      rw [shift, if_neg ha']
      exact hrecorded a ha x hx

theorem SubnetRows.optimizeLayer {layers : List (List Uuid)} {downSweep : Bool} {layerIdx : Nat}
    (hshapes : Shapes shapes children) (hlayers : ∀ layer ∈ layers, ∀ id ∈ layer, id ∈ shapes.map Node.id)
    (h : SubnetRows shapes children Spaced nodes) :
    SubnetRows shapes children Spaced (optimizeLayer edges layers downSweep nodes layerIdx) := by
  have hfold : ∀ ids : List Uuid, (∀ id ∈ ids, id ∈ shapes.map Node.id) → ∀ state, Swept shapes children state →
      Swept shapes children (ids.foldl (SubnetPositioner.optimizeSubnet edges layers layerIdx downSweep) state) := by
    intro ids
    induction ids with
    | nil => exact fun _ state hstate => hstate
    | cons id ids ih =>
      intro hids state hstate
      exact ih (fun i hi => hids i (List.mem_cons_of_mem id hi)) _
        (hstate.optimizeSubnet hshapes (hids id List.mem_cons_self))
  obtain ⟨subnets, rfl, hmap, hspaced⟩ := h
  have hlayer : ∀ id ∈ layers.getD layerIdx [], id ∈ shapes.map Node.id := by
    intro id hid
    rw [List.getD_eq_getElem?_getD] at hid
    cases hget : layers[layerIdx]? with
    | none =>
      rw [hget] at hid
      cases hid
    | some layer =>
      rw [hget] at hid
      exact hlayers layer (List.mem_of_getElem? hget) id hid
  obtain ⟨moved, hnodes, hmap', hspaced', -⟩ := hfold _ hlayer (subnets ++ children, ∅)
    ⟨subnets, rfl, hmap, hspaced, fun _ _ _ hx => by cases hx⟩
  exact ⟨moved, hnodes, hmap', hspaced'⟩

/-- What each step keeps, all of them keep. -/
theorem foldl_keeps {α : Type} {P : List Node → Prop} {step : List Node → α → List Node} (l : List α)
    (hstep : ∀ nodes, P nodes → ∀ a ∈ l, P (step nodes a)) (h : P nodes) : P (l.foldl step nodes) := by
  induction l generalizing nodes with
  | nil => exact h
  | cons a l ih =>
    exact ih (fun nodes hnodes b hb => hstep nodes hnodes b (List.mem_cons_of_mem a hb))
      (hstep nodes h a List.mem_cons_self)

theorem SubnetRows.sweeps {layers : List (List Uuid)} {n : Nat} (hshapes : Shapes shapes children)
    (hlayers : ∀ layer ∈ layers, ∀ id ∈ layer, id ∈ shapes.map Node.id)
    (h : SubnetRows shapes children Spaced nodes) :
    SubnetRows shapes children Spaced (sweeps quality edges layers n nodes) := by
  induction n generalizing nodes with
  | zero => exact h
  | succ n ih =>
    have hsweep : SubnetRows shapes children Spaced (sweep edges layers nodes) :=
      foldl_keeps _ (fun _ hnodes _ _ => hnodes.optimizeLayer hshapes hlayers)
        (foldl_keeps _ (fun _ hnodes _ _ => hnodes.optimizeLayer hshapes hlayers) h)
    rw [SubnetPositioner.sweeps]
    split
    · exact ih hsweep
    · exact hsweep

/-! ## The grid -/

theorem gridSize_dvd_snapToGrid : gridSize ∣ snapToGrid x := Dvd.intro_left _ rfl

theorem snapToGrid_bounds : snapToGrid x ≤ x + 12 ∧ x ≤ snapToGrid x + 12 := by
  simp only [snapToGrid, gridSize]
  omega

theorem snapToGrid_of_dvd (h : gridSize ∣ x) : snapToGrid x = x := by
  obtain ⟨k, rfl⟩ := h
  simp only [snapToGrid, gridSize]
  omega

def snapped (n : Node) : Node := { n with position.x := snapToGrid n.position.x }

theorem inColumn_snapped : (snapped n).inColumn = n.inColumn := rfl

theorem snapped_snapped : snapped (snapped n) = snapped n := by
  simp only [snapped, snapToGrid_of_dvd gridSize_dvd_snapToGrid]

theorem Apart.snapped {gap : Int} {a b : Node} (h : Apart gap a.span b.span) :
    Apart (gap - 24) (snapped a).span (snapped b).span :=
  h.nudge (d := 12) snapToGrid_bounds snapToGrid_bounds rfl rfl

theorem Spaced.snapped {a b : Node} (h : Spaced a b) : Spaced (snapped a) (snapped b) := by
  refine .inr ⟨?_, gridSize_dvd_snapToGrid, gridSize_dvd_snapToGrid⟩
  rcases h with h | ⟨h, ha, hb⟩
  · exact Apart.snapped h
  · simpa only [SubnetPositioner.snapped, Node.span, snapToGrid_of_dvd ha, snapToGrid_of_dvd hb] using h

theorem snapSubnet_append (hnodup : (subnets.map Node.id).Nodup) (hid : id ∈ subnets.map Node.id) :
    snapSubnet (subnets ++ children) id = subnets.map (fun m => if m.id = id then snapped m else m) ++ children := by
  obtain ⟨n, hn, rfl⟩ := List.mem_map.mp hid
  rw [snapSubnet, findNode_append hnodup hn]
  simp only
  rw [moveTo_append hnodup hid]
  refine congrArg (· ++ children) (List.map_congr_left fun m hm => ?_)
  rw [shift]
  by_cases heq : m.id = n.id
  · rw [if_pos heq, if_pos heq, List.inj_on_of_nodup_map hnodup hm hn heq]
    rfl
  · rw [if_neg heq, if_neg heq]

/-- Every box with one of the ids is snapped; that it may be snapped twice does not matter. -/
theorem foldl_snapSubnet (ids : List Uuid) (hnodup : (subnets.map Node.id).Nodup)
    (hids : ∀ id ∈ ids, id ∈ subnets.map Node.id) :
    ids.foldl snapSubnet (subnets ++ children) =
      subnets.map (fun m => if m.id ∈ ids then snapped m else m) ++ children := by
  induction ids generalizing subnets with
  | nil => simp
  | cons id ids ih =>
    have hmap : (subnets.map fun m => if m.id = id then snapped m else m).map Node.id = subnets.map Node.id := by
      rw [List.map_map]
      refine List.map_congr_left fun m _ => ?_
      rw [Function.comp_apply]
      split <;> rfl
    rw [List.foldl_cons, snapSubnet_append hnodup (hids id List.mem_cons_self),
      ih (by rwa [hmap]) (by rw [hmap]; exact fun i hi => hids i (List.mem_cons_of_mem id hi)), List.map_map]
    refine congrArg (· ++ children) (List.map_congr_left fun m _ => ?_)
    have hid : (snapped m).id = m.id := rfl
    by_cases hm : m.id = id
    · by_cases hmem : id ∈ ids
      · simp [hm, hid, hmem, snapped_snapped]
      · simp [hm, hid, hmem]
    · simp [hm]

theorem subnetIds_append (hshapes : Shapes shapes children) (hmap : subnets.map Node.inColumn = shapes) :
    subnetIds (subnets ++ children) = subnets.map Node.id := by
  rw [subnetIds, filter_isSubnet hshapes hmap]

theorem mem_of_mem_layer {ids layer : List Uuid} (hlayer : layer ∈ groupSubnetsByLayer nodes ids) (hid : id ∈ layer) :
    id ∈ ids := by
  simp only [groupSubnetsByLayer, List.mem_map] at hlayer
  obtain ⟨y, -, rfl⟩ := hlayer
  simp only [List.mem_map, List.mem_filter, List.mem_filterMap, Option.map_eq_some_iff] at hid
  obtain ⟨_, ⟨⟨i, hi, n, -, rfl⟩, -⟩, rfl⟩ := hid
  exact hi

theorem SubnetRows.optimizePositions (hshapes : Shapes shapes children)
    (h : SubnetRows shapes children Spaced nodes) :
    SubnetRows shapes children Spaced (optimizePositions ctx quality edges nodes) := by
  obtain ⟨subnets, rfl, hmap, hspaced⟩ := h
  have hids : subnetIds (subnets ++ children) = shapes.map Node.id := by
    rw [subnetIds_append hshapes hmap, map_id_of_shapes hmap]
  rw [SubnetPositioner.optimizePositions, hids]
  split
  · exact ⟨subnets, rfl, hmap, hspaced⟩
  · have hsweeps : SubnetRows shapes children Spaced
        (SubnetPositioner.sweeps quality (edges.filter fun e => !ctx.edgeIsIntraSubnet e)
          (groupSubnetsByLayer (subnets ++ children) (shapes.map Node.id)) 10 (subnets ++ children)) :=
      SubnetRows.sweeps hshapes (fun layer hlayer id hid => mem_of_mem_layer hlayer hid) ⟨subnets, rfl, hmap, hspaced⟩
    obtain ⟨swept, hnodes, hmap', hspaced'⟩ := hsweeps
    dsimp only
    rw [hnodes]
    have hnodup : (swept.map Node.id).Nodup := by
      rw [map_id_of_shapes hmap']
      exact hshapes.nodup
    rw [foldl_snapSubnet _ hnodup (by rw [map_id_of_shapes hmap']; exact fun _ hid => hid)]
    have hall : (swept.map fun m => if m.id ∈ shapes.map Node.id then snapped m else m) = swept.map snapped := by
      refine List.map_congr_left fun m hm => if_pos ?_
      rw [← map_id_of_shapes hmap']
      exact List.mem_map_of_mem hm
    rw [hall]
    exact SubnetRows.of_map hshapes hmap' hspaced' (fun _ => inColumn_snapped) fun _ _ _ _ _ _ hab => hab.snapped

end SubnetPositioner

end Netvisor
