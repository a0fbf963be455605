/-
The layout planner: `ChildAnchorPlanner`, `ChildNodePlanner` and
`SubnetLayoutPlanner`, which give every interface that is shown a node in the box
of a subnet, and every subnet that has some a node.

How strongly a child is drawn where is computed in floating point from its edges
and is left open (`Forces`); it decides which cell of the grid a child gets.
-/
import Mathlib.Data.Nat.Sqrt
import Netvisor.Lib.Assoc
import Netvisor.Lib.Spacing
import Netvisor.Topology.Context

namespace Netvisor

/-! ## Layouts -/

structure NodeLayout where
  size : Uxy
  position : Ixy
deriving DecidableEq, Repr

structure SubnetLayout where
  size : Uxy
  infraWidth : Nat
deriving DecidableEq, Repr

structure SubnetChild where
  id : Uuid
  header : Option String := none
  hostId : Uuid := Uuid.nil
  interfaceId : Option Uuid := none
  size : Uxy
  edges : List Edge := []
deriving DecidableEq, Repr

def nodePadding : Uxy := { x := 50, y := 50 }

def subnetPadding : Uxy := { x := 125, y := 125 }

/-- A row for each service, with another for its ports unless they are hidden. -/
def Uxy.subnetChildSizeFromServiceCount (services : List Service) (interfaceId : Uuid) (hasHeader hidePorts : Bool) :
    Uxy where
  x := 250
  y := (services.map fun s =>
      let bindingsWithPorts := (s.base.bindings.filter fun b =>
        (match b.interfaceId with
          | some i => i == interfaceId
          | none => true) && b.portId.isSome).length
      50 + if hidePorts && 0 < bindingsWithPorts then 0 else 25).sum
    + 25 + if hasHeader then 25 else 0

/-! ## Anchors -/

namespace ChildAnchorPlanner

variable (ctx : TopologyContext) (interfaceId : Uuid)

def involves (edge : Edge) : Bool := edge.source == interfaceId || edge.target == interfaceId

def relevantHandle (edge : Edge) : EdgeHandle :=
  if edge.source = interfaceId then edge.sourceHandle else edge.targetHandle

/-- Edges to other subnets leave by both of the handles. -/
def wouldEdgesCrossMiddle (handle opposite : EdgeHandle) (edges : List Edge) : Bool :=
  let leaving := (edges.filter (involves interfaceId)).filter fun edge =>
    let otherInterface := if edge.source = interfaceId then edge.target else edge.source
    (ctx.getSubnetFromInterfaceId interfaceId).map Subnet.id !=
    (ctx.getSubnetFromInterfaceId otherInterface).map Subnet.id
  (leaving.any fun edge => relevantHandle interfaceId edge == handle)
    && leaving.any fun edge => relevantHandle interfaceId edge == opposite

def determineOverrideHandle (handles : List EdgeHandle) (isInfra : Bool) (edges : List Edge) : Option EdgeHandle :=
  let hasOpposingVertical := handles.contains .top && handles.contains .bottom
  let hasOpposingHorizontal := handles.contains .left && handles.contains .right
  let subnetNodeCount :=
    match ctx.getSubnetFromInterfaceId interfaceId with
    | some subnet => (ctx.interfaces.rows.filter (·.base.subnetId == subnet.id)).length
    | none => 0
  if hasOpposingVertical && 3 ≤ subnetNodeCount && wouldEdgesCrossMiddle ctx interfaceId .top .bottom edges then
    some (if isInfra then .left else .right)
  else if hasOpposingHorizontal && 3 ≤
    subnetNodeCount && wouldEdgesCrossMiddle ctx interfaceId .left .right edges then
    some (if handles.count .top ≤ handles.count .bottom then .bottom else .top)
  else none

/-- The edges as they are changed, and those of the interface. -/
def planAnchors (edges : List Edge) : List Edge × List Edge :=
  let isInterSubnet edge := involves interfaceId edge && !ctx.edgeIsIntraSubnet edge
  let handles := (edges.filter isInterSubnet).map (relevantHandle interfaceId)
  let edges :=
    match determineOverrideHandle ctx interfaceId handles (ctx.isInterfaceInfra interfaceId) edges with
    | some handle =>
      edges.map fun edge =>
        if isInterSubnet edge then { edge with sourceHandle := handle, targetHandle := handle } else edge
    | none => edges
  (edges, edges.filter (involves interfaceId))

end ChildAnchorPlanner

/-! ## The grid of children -/

/-- What is computed in floating point. -/
structure Forces where
  /-- The force on a child, among the children it is laid out with. -/
  force : TopologyContext → List SubnetChild → SubnetChild → Ixy := fun _ _ _ => {}
  /-- Where in a grid of this width and height a force points, of all forces. -/
  ideal : List Ixy → Ixy → Nat → Nat → Ixy := fun _ _ _ _ => {}

namespace ChildNodePlanner

/-- The occupied cells of a grid, by column and row. -/
abbrev Grid := List ((Nat × Nat) × SubnetChild)

def isVmProvider (child : SubnetChild) : Bool :=
  child.edges.any fun e =>
    match e.edgeType with
    | .hostVirtualization _ => child.interfaceId == some e.source
    | _ => false

/-- Providers of virtual machines first, then by the strength of the force. -/
def placedBefore (a b : SubnetChild × Ixy) : Prop :=
  (isVmProvider a.1 = true ∧ isVmProvider b.1 = false) ∨
    (isVmProvider a.1 = isVmProvider b.1 ∧ max b.2.x.natAbs b.2.y.natAbs ≤ max a.2.x.natAbs a.2.y.natAbs)

instance : DecidableRel placedBefore := fun _ _ => inferInstanceAs (Decidable (_ ∨ _))

def clampTo (size : Nat) (i : Int) : Nat := (max 0 (min i (size - 1 : Nat))).toNat

/-- The offsets up to a radius. -/
def around (radius : Nat) : List Int := (List.range (2 * radius + 1)).map fun (k : Nat) => (k : Int) - radius

/-- The first free cell around the ideal one, nearer ones first. -/
def findSlot (gridW gridH : Nat) (grid : Grid) (ideal : Nat × Nat) : Option (Nat × Nat) :=
  (List.range (max gridW gridH)).findSome? fun radius =>
    ((around radius).flatMap fun dy => (around radius).map fun dx =>
      (clampTo gridW (ideal.1 + dx), clampTo gridH (ideal.2 + dy))).find? fun cell => !(grid.map (·.1)).contains cell

def placeChild (gridW gridH : Nat) (grid : Grid) (child : SubnetChild) (ideal : Ixy) : Grid :=
  match findSlot gridW gridH grid (clampTo gridW ideal.x, clampTo gridH ideal.y) with
  | some cell => grid ++ [(cell, child)]
  | none => grid

def maximum (sizes : List Nat) : Nat := sizes.foldl max 0

def colWidth (grid : Grid) (col : Nat) : Nat := maximum ((grid.filter (·.1.1 == col)).map (·.2.size.x))

def rowHeight (grid : Grid) (row : Nat) : Nat := maximum ((grid.filter (·.1.2 == row)).map (·.2.size.y))

/-- Columns and rows follow one another, as wide and high as their largest child. -/
def cellPosition (grid : Grid) (padding : Uxy) (cell : Nat × Nat) : Ixy where
  x := Spacing.cursor padding.x padding.x (colWidth grid) cell.1
  y := Spacing.cursor padding.y padding.y (rowHeight grid) cell.2

/-- The least number of columns of a square that is large enough. -/
def gridWidth (n : Nat) : Nat := max (if n.sqrt * n.sqrt = n then n.sqrt else n.sqrt + 1) 1

def gridHeight (n : Nat) : Nat := max ((n + gridWidth n - 1) / gridWidth n) 1

def arrange (forces : Forces) (ctx : TopologyContext) (children : List SubnetChild) : Grid :=
  let gridW := gridWidth children.length
  let gridH := gridHeight children.length
  let directed := children.map fun c => (c, forces.force ctx children c)
  (directed.insertionSort placedBefore).foldl (fun grid (child, force) =>
    placeChild gridW gridH grid child (forces.ideal (directed.map (·.2)) force gridW gridH)) []

/-- Where each child goes, in the coordinates of its part of the box. -/
def calculateAnchorBasedPositions (forces : Forces) (ctx : TopologyContext) (children : List SubnetChild)
    (padding : Uxy) : List (Uuid × NodeLayout) :=
  let grid := arrange forces ctx children
  grid.map fun (cell, child) => (child.id, { size := child.size, position := cellPosition grid padding cell })

end ChildNodePlanner

namespace PlannerUtils

/-- As far as the layouts reach, and the padding. -/
def calculateContainerSizeFromLayouts (layouts : List NodeLayout) (padding : Uxy) : Uxy :=
  if layouts.isEmpty then { x := padding.x * 2, y := padding.y * 2 }
  else
    { x := ChildNodePlanner.maximum (layouts.map fun l => Int.toNat (l.position.x + l.size.x + padding.x))
      y := ChildNodePlanner.maximum (layouts.map fun l => Int.toNat (l.position.y + l.size.y + padding.y)) }

/-- Rows one below the other; nothing is left for an empty one. -/
def placeRows (padding : Uxy) : Nat → List (List (Uuid × NodeLayout)) → List (Uuid × NodeLayout)
  | _, [] => []
  | y, row :: rows =>
    if row.isEmpty then placeRows padding y rows
    else
      (row.zip (Spacing.stack padding.x padding.x (row.map (·.2.size.x)))).map (fun ((id, layout), span) =>
        (id, { layout with position := { x := span.start, y := y } })) ++
      placeRows padding (y + ChildNodePlanner.maximum (row.map (·.2.size.y)) + padding.y) rows

def calculateContainerSize (rows : List (List (Uuid × NodeLayout))) (padding : Uxy) : List (Uuid × Ixy) :=
  (placeRows padding padding.y rows).map fun (id, layout) => (id, layout.position)

end PlannerUtils

/-! ## The boxes of subnets -/

namespace SubnetLayoutPlanner

/-- What is said of the service a virtual machine runs on. -/
def virtualizationHeader (ctx : TopologyContext) (host : Host) (service : Service) : String :=
  let hostInterfaces := ctx.getInterfacesForHost host.id
  let hostInterfaceSubnetIds := hostInterfaces.map (·.base.subnetId)
  let serviceInterfaceSubnetIds :=
    (service.base.bindings.filterMap fun b => ctx.getInterfaceById b.interfaceId).map (·.base.subnetId)
  let text := "VM: " ++ service.base.name
  match (hostInterfaceSubnetIds.dedup.filter fun id => serviceInterfaceSubnetIds.contains id).head? with
  | some first =>
    match hostInterfaces.find? (·.base.subnetId == first) with
    | some interface =>
      if hostInterfaceSubnetIds.count first = 1 ∧ serviceInterfaceSubnetIds.count first = 1 then
        let on := ((ctx.getHostById service.base.hostId).map (·.base.name)).getD (ctx.ipText interface.base.ipAddress)
        if on = service.base.name then text else text ++ " on " ++ on
      else text
    | none => text
  | none => text

/-- The host, unless it is clear from the services or from an edge. -/
def hostHeader (ctx : TopologyContext) (interface : Interface) (host : Host) : Option String :=
  let firstServiceNameMatchesHostName :=
    match ctx.getServicesForHost host.id with
    | firstService :: _ => firstService.base.name == host.base.name
    | [] => false
  let interfacesWithNode :=
    (ctx.getInterfacesForHost host.id).filter fun i => !(ctx.getServicesBoundToInterface i.id).isEmpty
  if ctx.ipText interface.base.ipAddress ≠ host.base.name ∧ firstServiceNameMatchesHostName = false
      ∧ host.base.name ≠ "Unknown Device" ∧ host.base.name ≠ "" ∧ interfacesWithNode.length < 2 then
    some host.base.name
  else none

def determineSubnetChildHeaderText (ctx : TopologyContext) (interface : Interface) (host : Host)
    (subnetType : SubnetType) : Option String :=
  let virtualizedBy :=
    if subnetType = .dockerBridge && ctx.options.request.hideVmTitleOnDockerContainer then none
    else ctx.getHostIsVirtualizedBy host.id
  match virtualizedBy with
  | some service => some (virtualizationHeader ctx host service)
  | none =>
    let originInterfaceWillHaveNode :=
      match ctx.getFirstNonDockerBridgeInterfaceForHost host.id with
      | some originInterface => ctx.interfaceWillHaveNode originInterface.id
      | none => false
    if subnetType = .dockerBridge && !originInterfaceWillHaveNode then
      -- Nothing else names the containers of a host that is not shown.
      if host.base.name ≠ "Unknown Device" ∧ host.base.name ≠ "" then some ("Docker @ " ++ host.base.name)
      else
        ((ctx.getInterfacesForHost host.id).find? fun i =>
          match ctx.getSubnetFromInterfaceId i.id with
          | some subnet => subnet.base.subnetType != .dockerBridge
          | none => false).map fun i => "Docker @ " ++ ctx.ipText i.base.ipAddress
    else hostHeader ctx interface host

/-- A binding without an interface is to all of them. -/
def interfaceBoundServices (ctx : TopologyContext) (interface : Interface) : List Service :=
  ctx.services.rows.filter fun s => s.base.bindings.any fun b =>
    match b.interfaceId with
    | some bindingInterfaceId => bindingInterfaceId == interface.id
    | none => true

structure Grouping where
  edges : List Edge
  childrenBySubnet : Assoc Uuid (List SubnetChild) := ∅
  /-- By host and the bridge it is grouped on. -/
  dockerSubnetsByHost : Assoc (Uuid × Uuid) (List Uuid) := ∅

def childOf (ctx : TopologyContext) (interface : Interface) (host : Host) (subnetType : SubnetType)
    (edges : List Edge) : SubnetChild :=
  let headerText := determineSubnetChildHeaderText ctx interface host subnetType
  { id := interface.id
    hostId := host.id
    size := Uxy.subnetChildSizeFromServiceCount (interfaceBoundServices ctx interface) interface.id headerText.isSome
      ctx.options.request.hidePorts
    header := headerText
    interfaceId := some interface.id
    edges }

variable (ctx : TopologyContext) (groupDockerBridgesByHost : Bool)
  (dockerBridgeHostSubnetIdToGroupOn : Assoc Uuid Uuid)

def subnetTypeOf (interface : Interface) : SubnetType :=
  match ctx.getSubnetById interface.base.subnetId with
  | some subnet => subnet.base.subnetType
  | none => .none

/-- The subnet that the node of an interface goes to. -/
def boxOf (interface : Interface) (host : Host) : Option Uuid :=
  if groupDockerBridgesByHost && subnetTypeOf ctx interface == .dockerBridge then
    dockerBridgeHostSubnetIdToGroupOn.lookup host.id
  else some interface.base.subnetId

def addChild (grouping : Grouping) (interface : Interface) : Grouping :=
  match ctx.getHostById interface.base.hostId with
  | none => grouping
  | some host =>
    if (interfaceBoundServices ctx interface).isEmpty then grouping
    else
      let (allEdges, edges) := ChildAnchorPlanner.planAnchors ctx interface.id grouping.edges
      let child := childOf ctx interface host (subnetTypeOf ctx interface) edges
      match boxOf ctx groupDockerBridgesByHost dockerBridgeHostSubnetIdToGroupOn interface host with
      | some subnetId =>
        { edges := allEdges
          childrenBySubnet := grouping.childrenBySubnet.insert subnetId
            (grouping.childrenBySubnet.getD subnetId [] ++ [child])
          dockerSubnetsByHost :=
            if groupDockerBridgesByHost && subnetTypeOf ctx interface == .dockerBridge then
              grouping.dockerSubnetsByHost.insert (host.id, subnetId)
                (grouping.dockerSubnetsByHost.getD (host.id, subnetId) [] ++ [interface.base.subnetId])
            else grouping.dockerSubnetsByHost }
      | none => { grouping with edges := allEdges }

def groupChildrenBySubnet (allEdges : List Edge) : Grouping :=
  ctx.interfaces.rows.foldl (addChild ctx groupDockerBridgesByHost dockerBridgeHostSubnetIdToGroupOn)
    { edges := allEdges }

/-- By the bridge that is grouped on, the bridges that are. -/
def Grouping.consolidatedDockerSubnets (grouping : Grouping) : Assoc Uuid (List Uuid) :=
  grouping.dockerSubnetsByHost.entries.foldl (fun m entry => m.insert entry.1.2 entry.2.dedup) ∅

/-! ## Laying out a box -/

variable (forces : Forces)

/-- Infrastructure, and the rest. -/
def partitionChildren (subnetId : Uuid) (children : List SubnetChild) : List SubnetChild × List SubnetChild :=
  match ctx.getSubnetById subnetId with
  | some subnet =>
    let infrastructureInterfaceIds := ctx.getInterfacesWithInfraService subnet
    (children.insertionSort fun a b => a.size.y ≤ b.size.y).partition fun c =>
      infrastructureInterfaceIds.contains c.interfaceId
  | none => ([], children)

def layoutZone (children : List SubnetChild) : List (Uuid × NodeLayout) × Uxy :=
  if children.isEmpty then ([], { x := 0, y := 0 })
  else
    let positions := ChildNodePlanner.calculateAnchorBasedPositions forces ctx children nodePadding
    (positions, PlannerUtils.calculateContainerSizeFromLayouts (positions.map (·.2)) nodePadding)

def zoneNodes (subnetId : Uuid) (isInfra : Bool) (offset : Nat) (children : List SubnetChild)
    (positions : List (Uuid × NodeLayout)) : List Node :=
  children.filterMap fun child => (positions.lookup child.id).map fun layout =>
    { id := child.id
      nodeType := .interfaceNode subnetId child.hostId child.interfaceId isInfra
      position := { x := layout.position.x + offset, y := layout.position.y }
      size := child.size
      header := child.header }

/-- The infrastructure to the left, with a box around both zones. -/
def calculateSubnetSize (subnetId : Uuid) (children : List SubnetChild) : SubnetLayout × List Node :=
  let (infrastructureChildren, regularChildren) := partitionChildren ctx subnetId children
  let (regularChildPositions, regularGridSize) := layoutZone ctx forces regularChildren
  let (infraChildPositions, infraGridSize) := layoutZone ctx forces infrastructureChildren
  let infraCols := (infraChildPositions.map (·.2.position.x)).dedup.length
  ({ size := { x := regularGridSize.x + infraGridSize.x, y := max regularGridSize.y infraGridSize.y }
     infraWidth := infraGridSize.x },
   zoneNodes subnetId true 0 infrastructureChildren infraChildPositions ++
     zoneNodes subnetId false (if 0 < infraCols then infraGridSize.x else 0) regularChildren regularChildPositions)

def childNodes (childrenBySubnet : Assoc Uuid (List SubnetChild)) : List Node :=
  childrenBySubnet.entries.flatMap fun entry => (calculateSubnetSize ctx forces entry.1 entry.2).2

def subnetLayouts (childrenBySubnet : Assoc Uuid (List SubnetChild)) : Assoc Uuid SubnetLayout :=
  childrenBySubnet.mapKey fun subnetId children => (calculateSubnetSize ctx forces subnetId children).1

/-! ## Laying out the boxes -/

def layerBefore (a b : Subnet) : Prop :=
  a.base.subnetType.verticalOrder < b.base.subnetType.verticalOrder ∨
    (a.base.subnetType.verticalOrder = b.base.subnetType.verticalOrder ∧
      (a.base.subnetType.horizontalOrder < b.base.subnetType.horizontalOrder ∨
        (a.base.subnetType.horizontalOrder = b.base.subnetType.horizontalOrder ∧ ¬ b.base.name < a.base.name)))

instance : DecidableRel layerBefore := fun _ _ => inferInstanceAs (Decidable (_ ∨ _))

def calculateSubnetGridPositionsByLayer (layouts : Assoc Uuid SubnetLayout) : List (List (Uuid × NodeLayout)) :=
  let sorted := (ctx.subnets.rows.insertionSort layerBefore).filterMap fun s =>
    (layouts.lookup s.id).map fun layout => (s, layout)
  let layers := (sorted.map fun x => x.1.base.subnetType.verticalOrder).dedup.insertionSort (· ≤ ·)
  layers.map fun layer =>
    (sorted.filter fun x => x.1.base.subnetType.verticalOrder == layer).map fun x =>
      (x.1.id, { size := x.2.size, position := {} })

def createSubnetNodes (layouts : Assoc Uuid SubnetLayout) (consolidatedDockerSubnets : Assoc Uuid (List Uuid)) :
    List Node :=
  let positions := PlannerUtils.calculateContainerSize (calculateSubnetGridPositionsByLayer ctx layouts) subnetPadding
  layouts.entries.filterMap fun entry => (positions.lookup entry.1).map fun position =>
    { id := entry.1
      nodeType := .subnetNode entry.2.infraWidth
      position
      size := entry.2.size
      header := (consolidatedDockerSubnets.lookup entry.1).map fun consolidatedSubnetIds =>
        "Docker Bridge: (" ++
          ", ".intercalate ((ctx.subnets.rows.filter fun s => consolidatedSubnetIds.contains s.id).map
          fun s => ctx.cidrText s.base.cidr) ++ ")" }

end SubnetLayoutPlanner

end Netvisor
