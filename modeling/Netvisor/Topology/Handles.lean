/-
Which handles the edges of a graph have when it is drawn again over an older one:
those of the older graph's edge with the same ends, at nodes that as many edges
leave as before.

Ends do not tell apart the edges between two nodes, so where these were stored with
different handles all of them get those of one.
-/
import Mathlib.Data.List.Induction
import Netvisor.Topology.Optimizer

namespace Netvisor

/-! ## Graphs -/

/-- A graph: its edges are between its nodes. -/
structure Graph where
  nodes : List Node
  edges : List Edge
  ends : ∀ e ∈ edges, (∃ n ∈ nodes, n.id = e.source) ∧ ∃ n ∈ nodes, n.id = e.target

/-- The graph of the nodes and the edges among them. -/
def Graph.ofEdges (nodes : List Node) (edges : List Edge) : Graph where
  nodes := nodes
  edges := EdgeBuilder.addEdgesToGraph nodes edges
  ends e he := by
    simp only [EdgeBuilder.addEdgesToGraph, List.mem_filter, Bool.and_eq_true, List.any_eq_true, beq_iff_eq] at he
    exact he.2

namespace Edge

def ends (e : Edge) : Uuid × Uuid := (e.source, e.target)

def handles (e : Edge) : EdgeHandle × EdgeHandle := (e.sourceHandle, e.targetHandle)

def withHandles (e : Edge) (handles : EdgeHandle × EdgeHandle) : Edge :=
  { e with sourceHandle := handles.1, targetHandle := handles.2 }

/-- The edge without what changes from one graph to the next. -/
def shape (e : Edge) : Edge := { e with id := Uuid.nil, sourceHandle := .top, targetHandle := .top }

variable {e : Edge} {h h' : EdgeHandle × EdgeHandle}

@[simp] theorem handles_withHandles : (e.withHandles h).handles = h := rfl

@[simp] theorem shape_withHandles : (e.withHandles h).shape = e.shape := rfl

@[simp] theorem withHandles_withHandles : (e.withHandles h).withHandles h' = e.withHandles h' := rfl

@[simp] theorem source_shape : e.shape.source = e.source := rfl

theorem ends_eq_of_shape_eq {o : Edge} (hs : e.shape = o.shape) : e.ends = o.ends := by
  have hsource := congrArg Edge.source hs
  have htarget := congrArg Edge.target hs
  exact Prod.ext hsource htarget

end Edge

namespace TopologyService

/-- The edges of an older graph by their ends. -/
def oldEdgesMap (oldEdges : List Edge) : Assoc (Uuid × Uuid) Edge :=
  oldEdges.foldl (fun m edge => m.insert edge.ends edge) ∅

/-- How many edges leave a node. -/
def edgeCount (edges : List Edge) (node : Uuid) : Nat := edges.countP (·.source == node)

/-- The places of the edges that get other handles, with these. -/
def edgesToUpdate (old graph : Graph) : List (Nat × EdgeHandle × EdgeHandle) :=
  graph.nodes.flatMap fun node =>
    if old.nodes.any (·.id == node.id) && edgeCount old.edges node.id == edgeCount graph.edges node.id then
      (graph.edges.zipIdx.filter fun x => x.1.source == node.id).filterMap fun x =>
        ((oldEdgesMap old.edges).lookup x.1.ends).map fun oldEdge => (x.2, oldEdge.handles)
    else []

def applyUpdates (updates : List (Nat × EdgeHandle × EdgeHandle)) (edges : List Edge) : List Edge :=
  updates.foldl (fun edges update => edges.modify update.1 fun edge => edge.withHandles update.2) edges

/-- The edges of a graph that is drawn over an older one. -/
def preserveHandles (old graph : Graph) : List Edge := applyUpdates (edgesToUpdate old graph) graph.edges

/-- The whole: the graph of the entities, with the handles of the graph that was there. -/
def buildGraphOver (ctx : TopologyContext) (forces : Forces) (quality : Quality) (oldNodes : List Node)
    (oldEdges : List Edge) :
    List Node × List Edge :=
  let (nodes, edges) := ctx.buildGraph forces quality
  (nodes, preserveHandles (Graph.ofEdges oldNodes oldEdges) (Graph.ofEdges nodes edges))

/-! ## What an update does -/

section Updates

variable {updates : List (Nat × EdgeHandle × EdgeHandle)} {edges : List Edge} {e : Edge} {k : Uuid × Uuid}

/-- An edge has the last handles that it is given. -/
theorem getElem?_applyUpdates (updates : List (Nat × EdgeHandle × EdgeHandle)) (edges : List Edge) (i : Nat) :
    (applyUpdates updates edges)[i]? = edges[i]?.map fun e => (updates.reverse.lookup i).elim e e.withHandles := by
  induction updates generalizing edges with
  | nil => simp [applyUpdates]
  | cons update rest ih =>
    have hcons : applyUpdates (update :: rest) edges =
      applyUpdates rest (edges.modify update.1 fun edge => edge.withHandles update.2) := rfl
    rw [hcons, ih, List.reverse_cons, List.lookup_append, List.getElem?_modify, Option.map_eq_map, Option.map_map]
    congr 1
    funext e
    obtain ⟨j, handles⟩ := update
    cases hrest : rest.reverse.lookup i with
    | some h => by_cases hi : j = i <;> simp [hi]
    | none =>
      by_cases hi : j = i
      · simp [hi]
      · have hne : (i == j) = false := beq_eq_false_iff_ne.mpr (Ne.symm hi)
        simp [hi, List.lookup_cons, hne]

/-- The last edge with the ends. -/
theorem lookup_oldEdgesMap (edges : List Edge) (k : Uuid × Uuid) :
    (oldEdgesMap edges).lookup k = edges.reverse.find? fun e => e.ends == k := by
  induction edges using List.reverseRecOn with
  | nil => rfl
  | append_singleton edges e ih =>
    have happend : oldEdgesMap (edges ++ [e]) = (oldEdgesMap edges).insert e.ends e := by
      rw [oldEdgesMap, List.foldl_append]
      rfl
    rw [happend, Assoc.lookup_insert_if, List.reverse_append, List.reverse_singleton, List.singleton_append,
      List.find?_cons, ih]
    by_cases hk : k = e.ends
    · simp [hk]
    · have hne : (e.ends == k) = false := beq_eq_false_iff_ne.mpr fun he => hk he.symm
      rw [if_neg hk, hne]

/-- The edge that the handles of an edge are taken from. -/
def keptFrom (old graph : Graph) (e : Edge) : Option Edge :=
  if edgeCount old.edges e.source =
    edgeCount graph.edges e.source then (oldEdgesMap old.edges).lookup e.ends else none

variable {old graph : Graph} {o : Edge}

theorem mem_of_lookup_oldEdgesMap (h : (oldEdgesMap edges).lookup k = some o) : o ∈ edges ∧ o.ends = k := by
  rw [lookup_oldEdgesMap] at h
  have hmem := List.mem_of_find?_eq_some h
  have hends := List.find?_some h
  exact ⟨List.mem_reverse.mp hmem, beq_iff_eq.mp hends⟩

theorem exists_lookup_oldEdgesMap (he : e ∈ edges) : ∃ o, (oldEdgesMap edges).lookup e.ends = some o := by
  rw [← Option.isSome_iff_exists, lookup_oldEdgesMap, List.find?_isSome]
  exact ⟨e, List.mem_reverse.mpr he, beq_self_eq_true _⟩

theorem mem_of_lookup {i : Nat} {h : EdgeHandle × EdgeHandle} (hl : updates.reverse.lookup i = some h) :
    (i, h) ∈ updates := by
  obtain ⟨l₁, l₂, hl, -⟩ := List.lookup_eq_some_iff.mp hl
  rw [← List.mem_reverse, hl]
  exact List.mem_append_right _ List.mem_cons_self

theorem exists_lookup {i : Nat} {h : EdgeHandle × EdgeHandle} (hmem : (i, h) ∈ updates) :
    ∃ h', updates.reverse.lookup i = some h' := by
  rw [← Option.isSome_iff_exists, List.lookup_isSome_iff]
  exact ⟨(i, h), List.mem_reverse.mpr hmem, beq_self_eq_true i⟩

theorem mem_edgesToUpdate {i : Nat} {h : EdgeHandle × EdgeHandle} :
    (i, h) ∈ edgesToUpdate old graph ↔ ∃ e, graph.edges[i]? = some e ∧
    (keptFrom old graph e).map Edge.handles = some h := by
  simp only [edgesToUpdate, List.mem_flatMap, List.mem_ite_nil_right, Bool.and_eq_true, beq_iff_eq,
    List.mem_filterMap, List.mem_filter, Option.map_eq_some_iff, Prod.mk.injEq, keptFrom]
  constructor
  · rintro ⟨node, -, ⟨-, hcount⟩, ⟨e, j⟩, ⟨he, hsource⟩, o, ho, rfl, rfl⟩
    refine ⟨e, List.mem_zipIdx_iff_getElem?.mp he, o, ?_, rfl⟩
    rw [if_pos (hsource ▸ hcount), ho]
  · rintro ⟨e, he, o, ho, rfl⟩
    split at ho
    · next hcount =>
      -- the node is in both graphs, since an edge of each leaves it
      obtain ⟨node, hnode, hid⟩ := (graph.ends e (List.mem_of_getElem? he)).1
      obtain ⟨hold, hends⟩ := mem_of_lookup_oldEdgesMap ho
      obtain ⟨node', hnode', hid'⟩ := (old.ends o hold).1
      have hsource : o.source = e.source := congrArg Prod.fst hends
      refine ⟨node, hnode, ⟨List.any_eq_true.mpr ⟨node', hnode', ?_⟩, hid ▸ hcount⟩, (e, i),
        ⟨List.mem_zipIdx_iff_getElem?.mpr he, hid.symm⟩, o, ho, rfl, rfl⟩
      rw [beq_iff_eq, hid', hid, hsource]
    · cases ho

/-- **Each edge has the handles of the older edge with its ends, if its node has as many edges as before.** -/
theorem preserveHandles_eq_map (old graph : Graph) : preserveHandles old graph =
    graph.edges.map fun e => ((keptFrom old graph e).map Edge.handles).elim e e.withHandles := by
  refine List.ext_getElem? fun i => ?_
  rw [preserveHandles, getElem?_applyUpdates, List.getElem?_map]
  cases he : graph.edges[i]? with
  | none => rfl
  | some e =>
    have hlookup : (edgesToUpdate old graph).reverse.lookup i = (keptFrom old graph e).map Edge.handles := by
      refine Option.ext fun h => ⟨fun hl => ?_, fun hk => ?_⟩
      · obtain ⟨e', he', hk⟩ := mem_edgesToUpdate.mp (mem_of_lookup hl)
        rw [he, Option.some.injEq] at he'
        rwa [he']
      · have hmem := mem_edgesToUpdate.mpr ⟨e, he, hk⟩
        obtain ⟨h', hl⟩ := exists_lookup hmem
        obtain ⟨e', he', hk'⟩ := mem_edgesToUpdate.mp (mem_of_lookup hl)
        rw [he, Option.some.injEq] at he'
        rw [hl, ← hk', ← hk, he']
    rw [Option.map_some, Option.map_some, hlookup]

/-- What is stored of a graph is the graph: all its edges are drawn over the next time. -/
theorem ofEdges_buildGraphOver (ctx : TopologyContext) (forces : Forces) (quality : Quality) (oldNodes : List Node)
    (oldEdges : List Edge) :
    (Graph.ofEdges (buildGraphOver ctx forces quality oldNodes oldEdges).1
      (buildGraphOver ctx forces quality oldNodes oldEdges).2).edges =
      (buildGraphOver ctx forces quality oldNodes oldEdges).2 := by
  simp only [Graph.ofEdges, EdgeBuilder.addEdgesToGraph, List.filter_eq_self]
  intro e' he'
  simp only [buildGraphOver, preserveHandles_eq_map, List.mem_map] at he'
  obtain ⟨e, he, rfl⟩ := he'
  have hends := (List.mem_filter.mp he).2
  cases (keptFrom _ _ e).map Edge.handles with
  | none => exact hends
  | some h => exact hends

end Updates

end TopologyService

/-! ## What the user stored -/

/-- A graph drawn over an older one, with the same edges and perhaps more. -/
structure Redrawn where
  old : Graph
  graph : Graph
  contains : (old.edges.map Edge.shape).Subperm (graph.edges.map Edge.shape)

/-- The edges come out with the handles that were stored for them. -/
structure KeepsHandles (old graph result : List Edge) : Prop where
  carries : ∀ e ∈ result, ∀ o ∈ old, e.shape = o.shape → e.handles = o.handles
  /-- Handles of other edges are not given to an edge. -/
  own : ∀ e ∈ result, (∀ o ∈ old, e.shape ≠ o.shape) → e ∈ graph

namespace Redrawn

open TopologyService

variable {r : Redrawn} {e o : Edge}

/-- As many edges leave the node as before. -/
def Settled (r : Redrawn) (node : Uuid) : Prop := edgeCount r.old.edges node = edgeCount r.graph.edges node

/-- Ends tell which handles were stored, and the graph is drawn with those of nodes that have other edges. -/
structure Agrees (r : Redrawn) : Prop where
  parallel : ∀ o ∈ r.old.edges, ∀ o' ∈ r.old.edges, r.Settled o.source → o.ends = o'.ends → o.handles = o'.handles
  changed : ∀ o ∈ r.old.edges, ∀ e ∈ r.graph.edges, ¬ r.Settled o.source → e.shape = o.shape → e.handles = o.handles

/-- The edge again, in the new graph. -/
theorem exists_shape_eq (r : Redrawn) (ho : o ∈ r.old.edges) : ∃ e ∈ r.graph.edges, e.shape = o.shape := by
  have hmem := r.contains.subset (List.mem_map.mpr ⟨o, ho, rfl⟩)
  exact List.mem_map.mp hmem

theorem edgeCount_eq_length (edges : List Edge) (node : Uuid) :
    edgeCount edges node = ((edges.map Edge.shape).filter (·.source == node)).length := by
  rw [edgeCount, List.countP_eq_length_filter, List.filter_map, List.length_map]
  rfl

/-- A node that as many edges leave as before has the edges that it had. -/
theorem Settled.exists_old (hsettled : r.Settled e.source) (he : e ∈ r.graph.edges) :
    ∃ o ∈ r.old.edges, o.shape = e.shape := by
  have hsub := r.contains.filter (·.source == e.source)
  rw [Settled, edgeCount_eq_length, edgeCount_eq_length] at hsettled
  have hperm := hsub.perm_of_length_le hsettled.ge
  have hmem : e.shape ∈ (r.graph.edges.map Edge.shape).filter (·.source == e.source) :=
    List.mem_filter.mpr ⟨List.mem_map.mpr ⟨e, he, rfl⟩, beq_self_eq_true _⟩
  obtain ⟨o, ho, hshape⟩ := List.mem_map.mp (List.mem_filter.mp (hperm.mem_iff.mpr hmem)).1
  exact ⟨o, ho, hshape⟩

theorem keptFrom_eq_lookup (hsettled : r.Settled e.source) :
    keptFrom r.old r.graph e = (oldEdgesMap r.old.edges).lookup e.ends :=
  if_pos hsettled

theorem keptFrom_of_not_settled (hsettled : ¬ r.Settled e.source) : keptFrom r.old r.graph e = none := if_neg hsettled

theorem keptFrom_of_settled (hsettled : r.Settled e.source) (ho : o ∈ r.old.edges) (hends : e.ends = o.ends) :
    ∃ o' ∈ r.old.edges, o'.ends = e.ends ∧ keptFrom r.old r.graph e = some o' := by
  obtain ⟨o', hlookup⟩ := exists_lookup_oldEdgesMap ho
  obtain ⟨hmem, hends'⟩ := mem_of_lookup_oldEdgesMap hlookup
  refine ⟨o', hmem, hends'.trans hends.symm, ?_⟩
  rw [keptFrom_eq_lookup hsettled, hends, hlookup]

theorem mem_preserveHandles {e' : Edge} : e' ∈ preserveHandles r.old r.graph ↔
    ∃ e ∈ r.graph.edges, ((keptFrom r.old r.graph e).map Edge.handles).elim e e.withHandles = e' := by
  rw [preserveHandles_eq_map, List.mem_map]

theorem shape_kept (h : Option (EdgeHandle × EdgeHandle)) (e : Edge) : (h.elim e e.withHandles).shape = e.shape := by
  cases h with
  | none => rfl
  | some h => rfl

/-- Of an edge at a node with the edges that it had, the handles are those of an edge with its ends. -/
theorem KeepsHandles.handles_eq (hkeeps : KeepsHandles r.old.edges r.graph.edges (preserveHandles r.old r.graph))
    (ho : o ∈ r.old.edges) (hsettled : r.Settled o.source) :
    ((oldEdgesMap r.old.edges).lookup o.ends).map Edge.handles = some o.handles := by
  obtain ⟨e, he, hshape⟩ := r.exists_shape_eq ho
  have hends := Edge.ends_eq_of_shape_eq hshape
  have hsource : e.source = o.source := congrArg Prod.fst hends
  obtain ⟨o', -, -, hkept⟩ := keptFrom_of_settled (hsource ▸ hsettled) ho hends
  have hresult := mem_preserveHandles.mpr ⟨e, he, rfl⟩
  have hcarries := hkeeps.carries _ hresult o ho ((shape_kept _ e).trans hshape)
  rw [hkept, Option.map_some, Option.elim_some, Edge.handles_withHandles] at hcarries
  rw [keptFrom_eq_lookup (hsource ▸ hsettled), hends] at hkept
  rw [hkept, Option.map_some, hcarries]

theorem Agrees.keepsHandles (hagrees : r.Agrees) :
    KeepsHandles r.old.edges r.graph.edges (preserveHandles r.old r.graph) where
  carries e' he' o ho hshape := by
    obtain ⟨e, he, rfl⟩ := mem_preserveHandles.mp he'
    rw [shape_kept] at hshape
    have hends := Edge.ends_eq_of_shape_eq hshape
    have hsource : e.source = o.source := congrArg Prod.fst hends
    by_cases hsettled : r.Settled e.source
    · obtain ⟨o', ho', hends', hkept⟩ := keptFrom_of_settled hsettled ho hends
      rw [hkept, Option.map_some, Option.elim_some, Edge.handles_withHandles]
      exact (hagrees.parallel o ho o' ho' (hsource ▸ hsettled) (hends.symm.trans hends'.symm)).symm
    · rw [keptFrom_of_not_settled hsettled]
      exact hagrees.changed o ho e he (hsource ▸ hsettled) hshape
  own e' he' hnew := by
    obtain ⟨e, he, rfl⟩ := mem_preserveHandles.mp he'
    by_cases hsettled : r.Settled e.source
    · obtain ⟨o, ho, hshape⟩ := hsettled.exists_old he
      exact absurd ((shape_kept _ e).trans hshape.symm) (hnew o ho)
    · rw [keptFrom_of_not_settled hsettled]
      exact he

/-- **Drawing a graph again keeps the handles of its edges exactly when edges with the same ends
were stored with the same handles and the nodes with other edges are drawn with those stored.** -/
theorem keepsHandles_iff_agrees (r : Redrawn) :
    KeepsHandles r.old.edges r.graph.edges (preserveHandles r.old r.graph) ↔ r.Agrees := by
  refine ⟨fun h => ⟨fun o ho o' ho' hsettled hends => ?_, fun o ho e he hsettled hshape => ?_⟩, Agrees.keepsHandles⟩
  · have hsource : o.source = o'.source := congrArg Prod.fst hends
    have hfirst := KeepsHandles.handles_eq h ho hsettled
    have hsecond := KeepsHandles.handles_eq h ho' (hsource ▸ hsettled)
    rw [hends, hsecond, Option.some.injEq] at hfirst
    exact hfirst.symm
  · have hsource : e.source = o.source := congrArg Prod.fst (Edge.ends_eq_of_shape_eq hshape)
    have hkept := keptFrom_of_not_settled (r := r) (e := e) (hsource ▸ hsettled)
    have hresult : e ∈ preserveHandles r.old r.graph := mem_preserveHandles.mpr ⟨e, he, by rw [hkept]; rfl⟩
    exact h.carries e hresult o ho hshape

/-- Where the edges are the same and no more, only edges with the same ends can get wrong handles. -/
theorem agrees_iff_of_length_le (hlength : r.graph.edges.length ≤ r.old.edges.length) :
    r.Agrees ↔ ∀ o ∈ r.old.edges, ∀ o' ∈ r.old.edges, o.ends = o'.ends → o.handles = o'.handles := by
  have hperm := r.contains.perm_of_length_le (by simpa using hlength)
  have hsettled (node : Uuid) : r.Settled node := by
    rw [Settled, edgeCount_eq_length, edgeCount_eq_length]
    exact (hperm.filter _).length_eq
  constructor
  · intro h o ho o' ho' hends
    exact h.parallel o ho o' ho' (hsettled _) hends
  · intro h
    exact ⟨fun o ho o' ho' _ => h o ho o' ho', fun o _ e _ hchanged => absurd (hsettled _) hchanged⟩

end Redrawn

/-! ## Two paths through the same interfaces -/

def pathNodes : List Node :=
  [{ nodeType := .interfaceNode 1 2 (some 11) false, id := 11 },
    { nodeType := .interfaceNode 1 3 (some 12) false, id := 12 }]

/-- An edge of a group. -/
def path (id groupId : Uuid) (handles : EdgeHandle × EdgeHandle) : Edge :=
  { id, source := 11, target := 12, edgeType := .requestPath groupId 51 61, sourceHandle :=
    handles.1, targetHandle := handles.2 }

/-- The paths of two groups, the first of which the user has moved to the sides, drawn again with other ids. -/
def pathsAgain : Redrawn where
  old := { nodes := pathNodes, edges := [path 21 5 (.left, .right), path 22 6 (.bottom, .top)], ends := by decide }
  graph := { nodes := pathNodes, edges := [path 31 5 (.bottom, .top), path 32 6 (.bottom, .top)], ends := by decide }
  contains := (List.Perm.of_eq (by decide)).subperm

/-- The first path gets the handles of the second. -/
theorem first_path_loses_handles : ¬ KeepsHandles pathsAgain.old.edges pathsAgain.graph.edges
    (TopologyService.preserveHandles pathsAgain.old pathsAgain.graph) := by
  intro h
  have hresult : path 31 5 (.bottom, .top) ∈ TopologyService.preserveHandles pathsAgain.old pathsAgain.graph := by
    decide
  have hcarries := h.carries _ hresult (path 21 5 (.left, .right)) (by decide) (by decide)
  exact absurd hcarries (by decide)

end Netvisor
