/-
The optimizer only moves nodes: it adds none, drops none and changes nothing
about a node but its position.
-/
import Netvisor.Topology.PlannerFacts

namespace Netvisor

/-- A node but for its position. -/
def Node.unplaced (n : Node) : Node := { n with position := {} }

theorem Node.placement_unplaced {n : Node} : n.unplaced.placement = n.placement := by
  unfold unplaced placement column
  cases n.nodeType <;> rfl

namespace SubnetPositioner

variable {ctx : TopologyContext} {quality : Quality} {edges : List Edge} {nodes : List Node}

theorem map_unplaced_moveTo {id : Uuid} {x : Int} :
    (moveTo id x nodes).map Node.unplaced = nodes.map Node.unplaced := by
  induction nodes with
  | nil => rfl
  | cons n nodes ih =>
    rw [moveTo]
    split
    · rfl
    · rw [List.map_cons, List.map_cons, ih]

/-- What each step keeps, all of them keep. -/
theorem map_unplaced_foldl {α : Type*} {step : List Node → α → List Node} (l : List α)
    (h : ∀ nodes a, (step nodes a).map Node.unplaced = nodes.map Node.unplaced) :
    (l.foldl step nodes).map Node.unplaced = nodes.map Node.unplaced := by
  induction l generalizing nodes with
  | nil => rfl
  | cons a l ih => rw [List.foldl_cons, ih, h]

theorem map_unplaced_optimizeLayer {layers : List (List Uuid)} {downSweep : Bool} {layerIdx : Nat} :
    (optimizeLayer edges layers downSweep nodes layerIdx).map Node.unplaced = nodes.map Node.unplaced := by
  have hfold : ∀ (ids : List Uuid) (state : List Node × Assoc Uuid Int),
      ((ids.foldl (optimizeSubnet edges layers layerIdx downSweep) state).1).map Node.unplaced =
        state.1.map Node.unplaced := by
    intro ids
    induction ids with
    | nil => exact fun state => rfl
    | cons id ids ih =>
      intro state
      rw [List.foldl_cons, ih, optimizeSubnet, map_unplaced_moveTo]
  exact hfold _ _

theorem map_unplaced_sweeps {layers : List (List Uuid)} {n : Nat} :
    (sweeps quality edges layers n nodes).map Node.unplaced = nodes.map Node.unplaced := by
  induction n generalizing nodes with
  | zero => rfl
  | succ n ih =>
    have hsweep : (sweep edges layers nodes).map Node.unplaced = nodes.map Node.unplaced := by
      rw [sweep, map_unplaced_foldl _ fun _ _ => map_unplaced_optimizeLayer,
        map_unplaced_foldl _ fun _ _ => map_unplaced_optimizeLayer]
    rw [sweeps]
    split
    · rw [ih, hsweep]
    · exact hsweep

theorem map_unplaced_optimizePositions :
    (optimizePositions ctx quality edges nodes).map Node.unplaced = nodes.map Node.unplaced := by
  rw [optimizePositions]
  split
  · rfl
  · rw [map_unplaced_foldl _ fun nodes id => ?_, map_unplaced_sweeps]
    rw [snapSubnet]
    split
    · exact map_unplaced_moveTo
    · rfl

theorem map_unplaced_compressLayer {lockedSubnets layer : List Uuid} :
    (compressLayer lockedSubnets nodes layer).map Node.unplaced = nodes.map Node.unplaced := by
  rw [compressLayer]
  split
  · rfl
  · exact map_unplaced_foldl _ fun _ _ => map_unplaced_moveTo

theorem map_unplaced_compressHorizontalSpacing :
    (compressHorizontalSpacing ctx edges nodes).map Node.unplaced = nodes.map Node.unplaced := by
  rw [compressHorizontalSpacing, List.map_map]
  refine (List.map_congr_left fun n _ => ?_).trans (map_unplaced_foldl _ fun _ _ => map_unplaced_compressLayer)
  rw [Function.comp_apply]
  split <;> rfl

end SubnetPositioner

namespace ChildPositioner

variable {nodes : List Node} {x : Node × Nat}

/-- Where the compression of its column leaves a node. -/
def raised (nodes : List Node) (x : Node × Nat) : Node :=
  match x.1.column.bind fun key => (compressedColumn nodes key).lookup x.2 with
  | some span => { x.1 with position.y := span.start }
  | none => x.1

theorem compressVerticalSpacing_eq : compressVerticalSpacing nodes = nodes.zipIdx.map (raised nodes) := rfl

theorem unplaced_raised : (raised nodes x).unplaced = x.1.unplaced := by
  unfold raised
  split <;> rfl

theorem map_unplaced_compressVerticalSpacing :
    (compressVerticalSpacing nodes).map Node.unplaced = nodes.map Node.unplaced := by
  have hfst : (nodes.zipIdx.map fun x => x.1.unplaced) = nodes.map Node.unplaced := by
    rw [← Function.comp_def Node.unplaced Prod.fst, ← List.map_map, List.zipIdx_map_fst]
  rw [compressVerticalSpacing_eq, List.map_map, ← hfst]
  exact List.map_congr_left fun x _ => unplaced_raised

end ChildPositioner

namespace TopologyOptimizer

variable {ctx : TopologyContext} {quality : Quality} {edges : List Edge} {nodes : List Node}

theorem map_unplaced_optimizeSubnets {n : Nat} :
    (optimizeSubnets ctx quality edges n nodes).map Node.unplaced = nodes.map Node.unplaced := by
  induction n generalizing nodes with
  | zero => rfl
  | succ n ih =>
    rw [optimizeSubnets]
    split
    · rw [ih, SubnetPositioner.map_unplaced_optimizePositions]
    · exact SubnetPositioner.map_unplaced_optimizePositions

/-- **The optimizer keeps every node, and changes its position only.** -/
theorem map_unplaced_optimizeGraph :
    ((optimizeGraph ctx quality edges nodes).1).map Node.unplaced = nodes.map Node.unplaced := by
  rw [optimizeGraph, ChildPositioner.map_unplaced_compressVerticalSpacing,
    SubnetPositioner.map_unplaced_compressHorizontalSpacing, map_unplaced_optimizeSubnets]

theorem map_placement_optimizeGraph :
    ((optimizeGraph ctx quality edges nodes).1).map Node.placement = nodes.map Node.placement := by
  have h : (((optimizeGraph ctx quality edges nodes).1).map Node.unplaced).map Node.placement =
      (nodes.map Node.unplaced).map Node.placement := by rw [map_unplaced_optimizeGraph]
  simpa only [List.map_map, Function.comp_def, Node.placement_unplaced] using h

end TopologyOptimizer

end Netvisor
