/-
The layout optimizer: `SubnetPositioner`, which moves the boxes of subnets along
their rows, and `ChildPositioner`, which moves children up in their boxes.

Whether a layout got better is computed in floating point and is left open
(`Quality`).
-/
import Netvisor.Topology.EdgeBuilder
import Netvisor.Topology.Planner

namespace Netvisor

/-- What is computed in floating point. -/
structure Quality where
  /-- The edges got shorter, by a pixel or more. -/
  shortened : List Node → List Node → List Edge → Bool := fun _ _ _ => false
  /-- The layout got better, by enough to go on. -/
  improved : List Node → List Node → List Edge → Bool := fun _ _ _ => false
  /-- The handles that make the shortest path. -/
  optimalHandles : Node → Node → EdgeHandle × EdgeHandle := fun _ _ => (.top, .bottom)

namespace Node

def isSubnet (n : Node) : Bool :=
  match n.nodeType with
  | .subnetNode _ => true
  | .interfaceNode .. => false

/-- The column of a box that a child is in. -/
def column (n : Node) : Option (Uuid × Int) :=
  match n.nodeType with
  | .interfaceNode subnetId .. => some (subnetId, n.position.x)
  | .subnetNode _ => none

end Node

/-- One is not to the left or the right of the other, nor above or below. -/
def rectanglesOverlap (p₁ : Ixy) (d₁ : Uxy) (p₂ : Ixy) (d₂ : Uxy) : Bool :=
  !(decide (p₁.x + d₁.x ≤ p₂.x) || decide (p₂.x + d₂.x ≤ p₁.x) || decide (p₁.y + d₁.y ≤ p₂.y)
    || decide (p₂.y + d₂.y ≤ p₁.y))

/-! ## Subnets -/

namespace SubnetPositioner

open Spacing

def gridSize : Int := 25

def padding : Int := 125

def snapToGrid (value : Int) : Int := (2 * value + gridSize) / (2 * gridSize) * gridSize

def findNode (nodes : List Node) (id : Uuid) : Option Node := nodes.find? (·.id == id)

/-- Move the first node with the id. -/
def moveTo (id : Uuid) (x : Int) : List Node → List Node
  | [] => []
  | n :: nodes => if n.id = id then { n with position.x := x } :: nodes else n :: moveTo id x nodes

def subnetIds (nodes : List Node) : List Uuid := (nodes.filter Node.isSubnet).map Node.id

/-- By their height, from above. -/
def groupSubnetsByLayer (nodes : List Node) (subnetIds : List Uuid) : List (List Uuid) :=
  let placed := subnetIds.filterMap fun id => (findNode nodes id).map fun n => (id, n.position.y)
  ((placed.map (·.2)).dedup.insertionSort (· ≤ ·)).map fun y => (placed.filter (·.2 == y)).map (·.1)

/-! ### Barycenters -/

def calculateEdgeWeight (edge : Edge) : Nat :=
  if edge.sourceHandle.isHorizontal && edge.targetHandle.isHorizontal then 0
  else if edge.isMultiHop then 0
  else if edge.sourceHandle.isHorizontal || edge.targetHandle.isHorizontal then 1
  else 100

/-- Where a handle is on a node of this width. -/
def handleOffset (handle : EdgeHandle) (width : Nat) : Int :=
  match handle with
  | .left => 0
  | .right => width
  | .top | .bottom => (width / 2 : Nat)

/-- Where an edge wants the subnet to be, and how much. -/
def desiredPosition (nodes : List Node) (subnetId : Uuid) (layers : List (List Uuid)) (layerIdx : Nat)
    (downSweep : Bool) (edge : Edge) : Option (Int × Nat) := do
  let sourceSubnet := TopologyContext.getNodeSubnet edge.source nodes
  let targetSubnet := TopologyContext.getNodeSubnet edge.target nodes
  let (myNodeId, otherNodeId, otherSubnet, myHandle, otherHandle) ←
    if sourceSubnet = some subnetId then
      some (edge.source, edge.target, targetSubnet, edge.sourceHandle, edge.targetHandle)
    else if targetSubnet = some subnetId then
      some (edge.target, edge.source, sourceSubnet, edge.targetHandle, edge.sourceHandle)
    else none
  let otherSubnetId ← otherSubnet
  let otherIdx ← layers.findIdx? (·.contains otherSubnetId)
  if (if downSweep then otherIdx < layerIdx else layerIdx < otherIdx) ∧ 0 < calculateEdgeWeight edge then
    let myNode ← findNode nodes myNodeId
    let otherNode ← findNode nodes otherNodeId
    let otherSubnetNode ← findNode nodes otherSubnetId
    -- The position of a child is relative to its box.
    let otherLeft := if otherNode.isSubnet then otherNode.position.x else otherSubnetNode.position.x + otherNode.position.x
    let myLeft := if myNode.isSubnet then 0 else myNode.position.x
    some (otherLeft + handleOffset otherHandle otherNode.size.x - myLeft - handleOffset myHandle myNode.size.x,
      calculateEdgeWeight edge)
  else none

/-- The first value at which half of the weight is reached. -/
def reachHalf (totalWeight : Nat) : Nat → List (Int × Nat) → Option Int
  | _, [] => none
  | cumulativeWeight, (pos, weight) :: values =>
    if totalWeight ≤ 2 * (cumulativeWeight + weight) then some pos
    else reachHalf totalWeight (cumulativeWeight + weight) values

def calculateWeightedMedian (values : List (Int × Nat)) : Option Int :=
  reachHalf (values.map (·.2)).sum 0 (values.insertionSort fun a b => a.1 ≤ b.1)

def calculateBarycenterPosition (nodes : List Node) (edges : List Edge) (subnetId : Uuid)
    (layers : List (List Uuid)) (layerIdx : Nat) (downSweep : Bool) : Int :=
  match findNode nodes subnetId with
  | none => 0
  | some currentSubnet =>
    (calculateWeightedMedian
      (edges.filterMap (desiredPosition nodes subnetId layers layerIdx downSweep))).getD currentSubnet.position.x

/-! ### Sweeps -/

/-- The others of the row, from the left. -/
def otherSubnets (nodes : List Node) (subnetId : Uuid) (y : Int) (alreadyPositioned : Assoc Uuid Int) : List Span :=
  ((nodes.filter fun other => other.isSubnet && other.id != subnetId && other.position.y == y).map fun other =>
    (⟨(alreadyPositioned.lookup other.id).getD other.position.x, other.size.x⟩ : Span)).insertionSort
      fun a b => a.start ≤ b.start

def hasOverlap (others : List Span) (width : Nat) (x : Int) : Bool :=
  others.any fun other =>
    decide (x < other.start + other.length + padding) && decide (other.start < x + width + padding)

/-- To the left of each, and to the right. -/
def candidates (others : List Span) (width : Nat) : List Int :=
  others.map (fun other => other.start - width - padding) ++ others.map fun other =>
    other.start + other.length + padding

/-- The first of the nearest. -/
def closest (proposedX : Int) (xs : List Int) : Option Int :=
  xs.foldl (fun best x =>
    match best with
    | none => some x
    | some b => if (proposedX - x).natAbs < (proposedX - b).natAbs then some x else some b) none

def applyNonOverlapConstraint (nodes : List Node) (subnetId : Uuid) (proposedX : Int)
    (alreadyPositioned : Assoc Uuid Int) : Int :=
  match findNode nodes subnetId with
  | none => proposedX
  | some currentSubnet =>
    let width := currentSubnet.size.x
    let others := otherSubnets nodes subnetId currentSubnet.position.y alreadyPositioned
    if hasOverlap others width proposedX then
      (closest proposedX ((candidates others width).filter fun x => !hasOverlap others width x)).getD proposedX
    else proposedX

variable (ctx : TopologyContext) (quality : Quality) (edges : List Edge)

def optimizeSubnet (layers : List (List Uuid)) (layerIdx : Nat) (downSweep : Bool)
    (state : List Node × Assoc Uuid Int)
    (subnetId : Uuid) : List Node × Assoc Uuid Int :=
  let optimalX := calculateBarycenterPosition state.1 edges subnetId layers layerIdx downSweep
  let constrainedX := applyNonOverlapConstraint state.1 subnetId optimalX state.2
  (moveTo subnetId constrainedX state.1, state.2.insert subnetId constrainedX)

def optimizeLayer (layers : List (List Uuid)) (downSweep : Bool) (nodes : List Node) (layerIdx : Nat) : List Node :=
  ((layers.getD layerIdx []).foldl (optimizeSubnet edges layers layerIdx downSweep) (nodes, ∅)).1

/-- Down, each layer as the ones above it say, and up again. -/
def sweep (layers : List (List Uuid)) (nodes : List Node) : List Node :=
  let down := (List.range' 1 (layers.length - 1)).foldl (optimizeLayer edges layers true) nodes
  (List.range (layers.length - 1)).reverse.foldl (optimizeLayer edges layers false) down

def sweeps (layers : List (List Uuid)) : Nat → List Node → List Node
  | 0, nodes => nodes
  | maxIterations + 1, nodes =>
    let swept := sweep edges layers nodes
    if quality.shortened nodes swept edges then sweeps layers maxIterations swept else swept

def snapSubnet (nodes : List Node) (subnetId : Uuid) : List Node :=
  match findNode nodes subnetId with
  | some subnet => moveTo subnetId (snapToGrid subnet.position.x) nodes
  | none => nodes

def optimizePositions (nodes : List Node) : List Node :=
  let ids := subnetIds nodes
  if ids.isEmpty then nodes
  else
    let interSubnetEdges := edges.filter fun e => !ctx.edgeIsIntraSubnet e
    ids.foldl snapSubnet (sweeps quality interSubnetEdges (groupSubnetsByLayer nodes ids) 10 nodes)

/-! ### Compression -/

/-- Those with an edge that does not leave by the sides. -/
def findLockedSubnets (nodes : List Node) : List Uuid :=
  (edges.filter fun edge => !ctx.edgeIsIntraSubnet edge && !edge.isMultiHop
    && !(edge.sourceHandle.isHorizontal && edge.targetHandle.isHorizontal)).flatMap fun edge =>
      (TopologyContext.getNodeSubnet edge.source nodes).toList ++
      (TopologyContext.getNodeSubnet edge.target nodes).toList

/-- A subnet of a row. -/
structure Slot where
  id : Uuid
  span : Span
  isLocked : Bool

/-- One after the other, from where the first of them is. -/
def compressTowardLeft (slots : List Slot) : List (Uuid × Int) :=
  match slots with
  | [] => []
  | first :: _ =>
    (slots.map Slot.id).zip ((stack padding first.span.start (slots.map (·.span.length))).map Span.start)

/-- The positions, unless the last reaches a locked subnet. -/
def unlessReaching (rightAnchor : Option Slot) (slots : List Slot) (compressed : List (Uuid × Int)) :
    List (Uuid × Int) :=
  match rightAnchor, slots.getLast?, compressed.getLast? with
  | some right, some last, some (_, lastX) =>
    if right.span.start < lastX + last.span.length + padding then slots.map fun s => (s.id, s.span.start)
    else compressed
  | _, _, _ => compressed

/-- Between locked subnets: toward the left one if there is one. -/
def compressSegment (leftAnchor rightAnchor : Option Slot) (slots : List Slot) : List (Uuid × Int) :=
  match leftAnchor with
  | some left =>
    unlessReaching rightAnchor slots
      ((slots.map Slot.id).zip ((pull padding (left.span.stop + padding) (slots.map Slot.span)).map Span.start))
  | none => unlessReaching rightAnchor slots (compressTowardLeft slots)

/-- Segment by segment, with the locked subnets between them where they are. -/
def compressTowardLocked : Option Slot → List Slot → List Slot → List (Uuid × Int)
  | leftAnchor, segment, [] => compressSegment leftAnchor none segment
  | leftAnchor, segment, s :: slots =>
    if s.isLocked then
      compressSegment leftAnchor (some s) segment ++ (s.id, s.span.start) :: compressTowardLocked (some s) [] slots
    else compressTowardLocked leftAnchor (segment ++ [s]) slots

/-- The subnets of a row, from the left. -/
def slotsOf (nodes : List Node) (layer lockedSubnets : List Uuid) : List Slot :=
  (layer.filterMap fun id => (findNode nodes id).map fun n =>
    (⟨id, ⟨n.position.x, n.size.x⟩, lockedSubnets.contains id⟩ : Slot)).insertionSort fun a b =>
    a.span.start ≤ b.span.start

def applyPositions (nodes : List Node) (newPositions : List (Uuid × Int)) : List Node :=
  newPositions.foldl (fun nodes p => moveTo p.1 p.2 nodes) nodes

def compressLayer (lockedSubnets : List Uuid) (nodes : List Node) (layer : List Uuid) : List Node :=
  if layer.length < 2 then nodes
  else
    let slots := slotsOf nodes layer lockedSubnets
    applyPositions nodes
      (if slots.any (·.isLocked) then compressTowardLocked none [] slots else compressTowardLeft slots)

def compressHorizontalSpacing (nodes : List Node) : List Node :=
  let lockedSubnets := findLockedSubnets ctx edges nodes
  let compressed := (groupSubnetsByLayer nodes (subnetIds nodes)).foldl (compressLayer lockedSubnets) nodes
  compressed.map fun n => if n.isSubnet then { n with position.x := snapToGrid n.position.x } else n

end SubnetPositioner

/-! ## Children -/

namespace ChildPositioner

open Spacing

/-- The children of a column with their indices, from above. -/
def columnOf (nodes : List Node) (key : Uuid × Int) : List (Node × Nat) :=
  (nodes.zipIdx.filter fun x => x.1.column == some key).insertionSort fun a b => a.1.position.y ≤ b.1.position.y

/-- Where the topmost child of a box is. -/
def minY (nodes : List Node) (subnetId : Uuid) : Int :=
  (((nodes.filter fun n => n.column.map (·.1) == some subnetId).map (·.position.y)).min?).getD 0

/-- By index, where the children of a column come to be. -/
def compressedColumn (nodes : List Node) (key : Uuid × Int) : List (Nat × Span) :=
  ((columnOf nodes key).map (·.2)).zip
    (stack nodePadding.y (minY nodes key.1) ((columnOf nodes key).map (·.1.size.y)))

def compressVerticalSpacing (nodes : List Node) : List Node :=
  nodes.zipIdx.map fun x =>
    match x.1.column.bind fun key => (compressedColumn nodes key).lookup x.2 with
    | some span => { x.1 with position.y := span.start }
    | none => x.1

def fixIntraSubnetHandles (ctx : TopologyContext) (quality : Quality) (edges : List Edge) (nodes : List Node) :
    List Edge :=
  edges.map fun edge =>
    match nodes.find? (·.id == edge.source), nodes.find? (·.id == edge.target) with
    | some source, some target =>
      if ctx.edgeIsIntraSubnet edge then
        { edge with
          sourceHandle := (quality.optimalHandles source target).1
          targetHandle := (quality.optimalHandles source target).2 }
      else edge
    | _, _ => edge

end ChildPositioner

/-! ## The whole -/

namespace TopologyOptimizer

variable (ctx : TopologyContext) (quality : Quality) (edges : List Edge)

def optimizeSubnets : Nat → List Node → List Node
  | 0, nodes => nodes
  | maxGlobalIterations + 1, nodes =>
    let optimized := SubnetPositioner.optimizePositions ctx quality edges nodes
    if quality.improved nodes optimized edges then optimizeSubnets maxGlobalIterations optimized else optimized

def optimizeGraph (nodes : List Node) : List Node × List Edge :=
  let optimized := optimizeSubnets ctx quality edges 20 nodes
  let compressed := ChildPositioner.compressVerticalSpacing
    (SubnetPositioner.compressHorizontalSpacing ctx edges optimized)
  (compressed, ChildPositioner.fixIntraSubnetHandles ctx quality edges compressed)

end TopologyOptimizer

/-! ## The graph -/

/-- The nodes of a graph, and its edges, before the handles of an older graph are kept. -/
def TopologyContext.buildGraph (ctx : TopologyContext) (forces : Forces) (quality : Quality) :
    List Node × List Edge :=
  let groupDockerBridgesByHost := ctx.options.request.groupDockerBridgesByHost
  let grouping := SubnetLayoutPlanner.groupChildrenBySubnet ctx groupDockerBridgesByHost
    (EdgeBuilder.createContainerizedServiceEdges ctx ctx.interfaceWillHaveNode groupDockerBridgesByHost).2
    (EdgeBuilder.allEdges ctx ctx.interfaceWillHaveNode)
  let subnetNodes := SubnetLayoutPlanner.createSubnetNodes ctx
    (SubnetLayoutPlanner.subnetLayouts ctx forces grouping.childrenBySubnet) grouping.consolidatedDockerSubnets
  let (nodes, edges) := TopologyOptimizer.optimizeGraph ctx quality grouping.edges
    (subnetNodes ++ SubnetLayoutPlanner.childNodes ctx forces grouping.childrenBySubnet)
  (nodes, EdgeBuilder.addEdgesToGraph nodes edges)

end Netvisor
