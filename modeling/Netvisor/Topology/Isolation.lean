/-
Which topologies an edit may change, and what it may fill them with: those of
the networks of the user, with entities of the network of the topology.

The network that is checked is the one the request names. It is also the one the
entities are fetched from, and nothing compares it with that of the topology.
-/
import Netvisor.Auth.AccountsFacts
import Netvisor.Topology.Handlers

namespace Netvisor

open Program (after wp)

/-! ## The first element that passes -/

namespace TopologyHandlers

section ModifyFirst

variable {α : Type} {p : α → Bool} {f : α → α} {l l' : List α}

theorem modifyFirst_eq_none (h : modifyFirst p f l = none) : l.find? p = none := by
  induction l with
  | nil => rfl
  | cons x xs ih =>
    rw [modifyFirst] at h
    split at h
    · cases h
    · next hx =>
      rw [List.find?_cons_of_neg hx]
      exact ih (Option.map_eq_none_iff.mp h)

theorem modifyFirst_eq_self_iff (h : modifyFirst p f l = some l') : l' = l ↔ ∀ x, l.find? p = some x → f x = x := by
  induction l generalizing l' with
  | nil => cases h
  | cons x xs ih =>
    rw [modifyFirst] at h
    split at h
    · next hx =>
      cases h
      simp [List.find?_cons_of_pos hx]
    · next hx =>
      obtain ⟨ys, hys, rfl⟩ := Option.map_eq_some_iff.mp h
      rw [List.find?_cons_of_neg hx, ← ih hys]
      simp

end ModifyFirst

end TopologyHandlers

/-! ## What an edit may change -/

inductive TopologyEdit
  | refresh (request : TopologyRebuildRequest)
  | rebuild (request : TopologyRebuildRequest)
  | updateNodePosition (request : TopologyNodePositionUpdate)
  | updateEdgeHandles (request : TopologyEdgeHandleUpdate)
  | updateNodeResize (request : TopologyNodeResizeUpdate)
  | updateMetadata (request : TopologyMetadataUpdate)
deriving DecidableEq, Repr

/-- From `s` to `t`, nothing but the topology with the id changes, which is of one of the networks,
and if its entities change they are of its network. -/
structure Isolated (networkIds : List Uuid) (id : Uuid) (s t : TopologyDb) : Prop where
  frame : t = { s with topologies := t.topologies }
  others : ∀ x, x.id ≠ id → (x ∈ t.topologies.rows ↔ x ∈ s.topologies.rows)
  topology : Option.Rel (fun x y => y = x ∨ (x.base.networkId ∈ networkIds ∧
      (y.base.entities = x.base.entities ∨ ∀ n ∈ y.base.entities.networkIds, n = x.base.networkId)))
    (s.topologies.get id) (t.topologies.get id)

section

variable {s : TopologyDb} {id : Uuid} {topology : Topology} {networkIds : List Uuid}

theorem Isolated.refl : Isolated networkIds id s s where
  frame := rfl
  others _ _ := Iff.rfl
  topology := by
    cases s.topologies.get id with
    | none => exact .none
    | some x => exact .some (.inl rfl)

/-- After the topology is replaced. -/
theorem isolated_update_iff {y : Topology} (hget : s.topologies.get id = some topology)
    (hyid : y.id = id) : Isolated networkIds id s { s with topologies := s.topologies.update y } ↔
      (y = topology ∨ (topology.base.networkId ∈ networkIds ∧ (y.base.entities = topology.base.entities ∨
        ∀ n ∈ y.base.entities.networkIds, n = topology.base.networkId))) := by
  have hnew := Table.get_update_self hget hyid
  constructor
  · intro hisolated
    have htop := hisolated.topology
    rw [hget, show _ = some y from hnew] at htop
    obtain htop | htop := htop
    exact htop
  · intro hrow
    refine ⟨rfl, fun x hx => Table.mem_update_of_ne (hyid ▸ hx), ?_⟩
    rw [hget, show _ = some y from hnew]
    exact .some hrow

end

namespace TopologyEdit

variable [TopologyService]

/-- The endpoint that answers the request. -/
def run : TopologyEdit → AuthenticatedEntity → Uuid → TopologyStore Unit
  | refresh request, entity, id => TopologyHandlers.refresh entity id request
  | rebuild request, entity, id => TopologyHandlers.rebuild entity id request
  | updateNodePosition request, entity, id => TopologyHandlers.updateNodePosition entity id request
  | updateEdgeHandles request, entity, id => TopologyHandlers.updateEdgeHandles entity id request
  | updateNodeResize request, entity, id => TopologyHandlers.updateNodeResize entity id request
  | updateMetadata request, entity, id => TopologyHandlers.updateMetadata entity id request

/-- The network the request names. -/
def networkId : TopologyEdit → Uuid
  | refresh request | rebuild request => request.networkId
  | updateNodePosition request => request.networkId
  | updateEdgeHandles request => request.networkId
  | updateNodeResize request => request.networkId
  | updateMetadata request => request.networkId

/-- The request says what is stored, or names a node or an edge that is not there. -/
def Repeats (s : TopologyDb) (topology : Topology) : TopologyEdit → Prop
  | refresh request => topology.base.options = request.options ∧
      topology.base.entities = s.getEntityData request.networkId request.options
  | rebuild request =>
    let entities := s.getEntityData request.networkId request.options
    topology.base.options = request.options ∧ topology.base.entities = entities ∧
      (topology.base.nodes, topology.base.edges) = TopologyService.buildGraph
        { options := request.options, entities, oldNodes := request.nodes, oldEdges := request.edges } ∧
      topology.base.removed = {} ∧ topology.base.isStale = false ∧ topology.base.lastRefreshed = s.db.now
  | updateNodePosition request => ∀ node, topology.base.nodes.find? (fun n => n.id == request.nodeId) = some node →
      node.position = request.position
  | updateEdgeHandles request => ∀ edge, topology.base.edges.find? (fun e => e.id == request.edgeId) = some edge →
      edge.sourceHandle = request.sourceHandle ∧ edge.targetHandle = request.targetHandle
  | updateNodeResize request => ∀ node, topology.base.nodes.find? (fun n => n.id == request.nodeId) = some node →
      node.size = request.size ∧ node.position = request.position
  | updateMetadata request => topology.base.name = request.name ∧ topology.base.parentId = request.parentId

/-- The entities the request fetches, if it does, are those of the network of the topology, or
those it has already, or none. -/
def FillsOwn (s : TopologyDb) (topology : Topology) : TopologyEdit → Prop
  | refresh request | rebuild request =>
    let entities := s.getEntityData request.networkId request.options
    entities = topology.base.entities ∨ entities.networkIds = [] ∨ request.networkId = topology.base.networkId
  | _ => True

/-- When an edit touches no topology it may not. -/
def Sound (s : TopologyDb) (entity : AuthenticatedEntity) (id : Uuid) (edit : TopologyEdit) : Prop :=
  PermissionRequirement.member.authorized entity = none → edit.networkId ∈ entity.networkIds →
    ∀ topology, s.topologies.get id = some topology →
      edit.Repeats s topology ∨ (topology.base.networkId ∈ entity.networkIds ∧ edit.FillsOwn s topology)

/-! ## What an edit does -/

variable {s : TopologyDb} {entity : AuthenticatedEntity} {id n networkId : Uuid} {topology : Topology}
  {edit : TopologyEdit}

/-- Entities are fetched from one network. -/
theorem network_of_getEntityData {options : TopologyOptions}
    (h : n ∈ (s.getEntityData networkId options).networkIds) :
    n = networkId := by
  have hselect : ∀ {α κ : Type} [DecidableEq κ] {key : α → κ} {t : Table α key} {p : α → Bool} {f : α → Int}
    {g : α → Uuid},
      n ∈ (t.select p f).map g → (∀ x, p x = true → g x = networkId) → n = networkId := by
    intro α κ _ key t p f g hn hall
    obtain ⟨x, hx, rfl⟩ := List.mem_map.mp hn
    exact hall x (Table.mem_select.mp hx).2
  simp only [TopologyDb.getEntityData, SetEntitiesParams.networkIds, List.mem_append] at h
  rcases h with ((((((h | h) | h) | h) | h) | h) | h) | h
  · exact hselect h (by simp +contextual)
  · obtain ⟨x, hx, rfl⟩ := List.mem_map.mp h
    obtain ⟨y, hy, rfl⟩ := List.mem_map.mp (List.mem_filter.mp hx).1
    exact beq_iff_eq.mp (Table.mem_select.mp hy).2
  · exact hselect h (by simp)
  · exact hselect h (by simp)
  · exact hselect h (by simp)
  · exact hselect h (by simp)
  · exact hselect h (by simp)
  · exact hselect h (by simp)

/-- What comes of editing a topology: the same or an error if and only if the request repeats
what is stored, and entities of the network of the topology if and only if it fills in those. -/
structure Outcome (topology : Topology) (repeats fillsOwn : Prop) (result : Except ApiError Topology) : Prop where
  error : ∀ e, result = .error e → repeats
  id : ∀ y, result = .ok y → y.id = topology.id
  same : ∀ y, result = .ok y → (y = topology ↔ repeats)
  entities : ∀ y, result = .ok y →
    ((y.base.entities = topology.base.entities ∨ ∀ n ∈ y.base.entities.networkIds, n = topology.base.networkId) ↔
      fillsOwn)

omit [TopologyService] in
/-- The topology of the path is replaced by what comes of editing it, or nothing changes. -/
theorem isolated_editTopology_iff {f : TopologyDb → Topology → Except ApiError Topology}
    (repeats fillsOwn : Topology → Prop)
    (h : ∀ topology, Outcome topology (repeats topology) (fillsOwn topology) (f s topology)) :
    Isolated entity.networkIds id s (after (TopologyHandlers.editTopology entity networkId id f) s) ↔
      (PermissionRequirement.member.authorized entity = none → networkId ∈ entity.networkIds →
        ∀ topology, s.topologies.get id = some topology →
          repeats topology ∨ (topology.base.networkId ∈ entity.networkIds ∧ fillsOwn topology)) := by
  refine (Program.wp_after (P := fun t => Isolated entity.networkIds id s t)).symm.trans (Program.wp.iff ?_)
  unfold TopologyHandlers.editTopology
  simp only [Program.wp_bind, wp_authorize, Program.wp_ite, Program.wp_throw, Program.wp_get, Bool.not_eq_true',
    List.contains_eq_mem, decide_eq_false_iff_not, Decidable.not_not]
  refine ⟨fun hauthorized => ⟨fun hnot => iff_of_true .refl fun _ hmem => absurd hmem hnot, fun hmem => ?_⟩,
    fun e he => iff_of_true .refl fun hnone => by rw [he] at hnone; cases hnone⟩
  simp only [hauthorized, hmem, true_implies]
  split
  · next hmissing => exact iff_of_true .refl fun topology hget => by rw [hmissing] at hget; cases hget
  next topology hget =>
  have hsimp : (∀ x, s.topologies.get id = some x → repeats x ∨ (x.base.networkId ∈ entity.networkIds ∧ fillsOwn x)) ↔
      (repeats topology ∨ (topology.base.networkId ∈ entity.networkIds ∧ fillsOwn topology)) := by
    simp [hget]
  rw [hsimp]
  obtain ⟨herror, hid, hsame, hentities⟩ := h topology
  split
  · next e he => exact iff_of_true .refl (.inl (herror e he))
  next y hy =>
  have hyid : y.id = id := (hid y hy).trans (Table.get_eq_some.mp hget).2
  simp only [TopologyHandlers.update, Program.wp_bind, Program.wp_get, hyid, hget, Program.wp_set, Program.wp_pure]
  rw [← hsame y hy, ← hentities y hy]
  exact isolated_update_iff hget hyid

theorem fetched_iff {options : TopologyOptions} :
    (∀ n ∈ (s.getEntityData networkId options).networkIds, n = topology.base.networkId) ↔
      (s.getEntityData networkId options).networkIds = [] ∨ networkId = topology.base.networkId := by
  constructor
  · intro h
    rcases List.eq_nil_or_concat (s.getEntityData networkId options).networkIds with hnil | ⟨rest, n, hcons⟩
    · exact .inl hnil
    · have hn : n ∈ (s.getEntityData networkId options).networkIds := by rw [hcons]; simp
      exact .inr ((network_of_getEntityData hn).symm.trans (h n hn))
  · rintro (hnil | hsame) n hn
    · rw [hnil] at hn
      cases hn
    · exact (network_of_getEntityData hn).trans hsame

omit [TopologyService] in
/-- An edit that leaves the entities alone. -/
theorem Outcome.of_graph {result : Except ApiError Topology} {repeats : Prop}
    (herror : ∀ e, result = .error e → repeats)
    (hok : ∀ y, result = .ok y → y.id = topology.id ∧ y.base.entities = topology.base.entities ∧
      (y = topology ↔ repeats)) :
    Outcome topology repeats True result where
  error := herror
  id y hy := (hok y hy).1
  same y hy := (hok y hy).2.2
  entities y hy := iff_of_true (.inl (hok y hy).2.1) trivial

omit [TopologyService] in
theorem editNode_outcome {nodeId : Uuid} {f : Node → Node} {P : Node → Prop} (hf : ∀ node, f node = node ↔ P node) :
    Outcome topology (∀ node, topology.base.nodes.find? (fun x => x.id == nodeId) = some node → P node) True
      (TopologyHandlers.editNode nodeId f topology) := by
  unfold TopologyHandlers.editNode
  split
  · next hnone =>
    refine .of_graph (fun _ _ node hnode => ?_) fun _ hy => by cases hy
    rw [TopologyHandlers.modifyFirst_eq_none hnone] at hnode
    cases hnode
  · next nodes hnodes =>
    refine .of_graph (fun _ he => by cases he) fun y hy => ?_
    cases hy
    refine ⟨rfl, rfl, ?_⟩
    simp only [← hf]
    rw [← TopologyHandlers.modifyFirst_eq_self_iff hnodes]
    refine ⟨fun h => congrArg (fun x => x.base.nodes) h, ?_⟩
    rintro rfl
    rfl

theorem updateNodePosition_outcome {request : TopologyNodePositionUpdate} : Outcome topology
    ((updateNodePosition request).Repeats s topology) True
    (TopologyHandlers.editNode request.nodeId (fun node => { node with position := request.position }) topology) := by
  refine editNode_outcome fun node => ⟨fun h => (congrArg Node.position h).symm, fun h => ?_⟩
  rw [← h]

theorem updateNodeResize_outcome {request : TopologyNodeResizeUpdate} : Outcome topology
    ((updateNodeResize request).Repeats s topology) True (TopologyHandlers.editNode request.nodeId
      (fun node => { node with size := request.size, position := request.position }) topology) := by
  refine editNode_outcome fun node => ⟨fun h => ⟨(congrArg Node.size h).symm, (congrArg Node.position h).symm⟩, ?_⟩
  rintro ⟨hsize, hposition⟩
  rw [← hsize, ← hposition]

theorem updateEdgeHandles_outcome {request : TopologyEdgeHandleUpdate} : Outcome topology
    ((updateEdgeHandles request).Repeats s topology) True
    (match TopologyHandlers.modifyFirst (fun e => e.id == request.edgeId)
        (fun e => { e with sourceHandle := request.sourceHandle, targetHandle := request.targetHandle })
        topology.base.edges with
    | none => .error (.notFound ("Edge " ++ toString request.edgeId ++ " not found in topology"))
    | some edges => .ok { topology with base.edges := edges }) := by
  split
  · next hnone =>
    refine .of_graph (fun _ _ edge hedge => ?_) fun _ hy => by cases hy
    rw [TopologyHandlers.modifyFirst_eq_none hnone] at hedge
    cases hedge
  · next edges hedges =>
    refine .of_graph (fun _ he => by cases he) fun y hy => ?_
    cases hy
    refine ⟨rfl, rfl, ?_⟩
    have hself : (∀ e, topology.base.edges.find? (fun e => e.id == request.edgeId) = some e →
        { e with sourceHandle := request.sourceHandle, targetHandle := request.targetHandle } = e) ↔
          (updateEdgeHandles request).Repeats s topology := by
      refine forall₂_congr fun e _ => ?_
      constructor
      · intro h
        exact ⟨(congrArg Edge.sourceHandle h).symm, (congrArg Edge.targetHandle h).symm⟩
      · rintro ⟨hsource, htarget⟩
        rw [← hsource, ← htarget]
    rw [← hself, ← TopologyHandlers.modifyFirst_eq_self_iff hedges]
    refine ⟨fun h => congrArg (fun x => x.base.edges) h, ?_⟩
    rintro rfl
    rfl

theorem refresh_outcome {request : TopologyRebuildRequest} : Outcome topology ((refresh request).Repeats s topology)
    ((refresh request).FillsOwn s topology) (.ok ({ topology with base.options := request.options }.setEntities
      (s.getEntityData request.networkId request.options))) where
  error _ he := by cases he
  id y hy := by
    cases hy
    rfl
  same y hy := by
    cases hy
    constructor
    · intro h
      exact ⟨(congrArg (fun x => x.base.options) h).symm, (congrArg (fun x => x.base.entities) h).symm⟩
    · rintro ⟨hoptions, hentities⟩
      rw [← hentities, ← hoptions]
      rfl
  entities y hy := by
    cases hy
    exact or_congr_right fetched_iff

omit [TopologyService] in
theorem rebuilt_eq_self_iff {options : TopologyOptions} {entities : SetEntitiesParams} {nodes : List Node}
    {edges : List Edge}
    {now : DateTime} :
    (({ topology with base.options := options }.setEntities entities).setGraph nodes edges).clearStale now =
    topology ↔
      topology.base.options = options ∧ topology.base.entities = entities ∧
        (topology.base.nodes, topology.base.edges) = (nodes, edges) ∧ topology.base.removed = {} ∧
          topology.base.isStale = false ∧ topology.base.lastRefreshed = now := by
  constructor
  · intro h
    rw [← h]
    exact ⟨rfl, rfl, rfl, rfl, rfl, rfl⟩
  · obtain ⟨id, createdAt, updatedAt, base⟩ := topology
    obtain ⟨name, _, networkId, tags, parentId, _, _, _, _, _, isLocked, lockedAt, lockedBy, _⟩ := base
    rintro ⟨rfl, rfl, ⟨⟩, rfl, rfl, rfl⟩
    rfl

theorem rebuild_outcome {request : TopologyRebuildRequest} : Outcome topology ((rebuild request).Repeats s topology)
    ((rebuild request).FillsOwn s topology)
    (let entities := s.getEntityData request.networkId request.options
    let (nodes, edges) := TopologyService.buildGraph
      { options := request.options, entities, oldNodes := request.nodes, oldEdges := request.edges }
    .ok ((({ topology with base.options := request.options }.setEntities entities).setGraph nodes edges).clearStale
      s.db.now)) where
  error _ he := by cases he
  id y hy := by
    cases hy
    rfl
  same y hy := by
    cases hy
    exact rebuilt_eq_self_iff
  entities y hy := by
    cases hy
    exact or_congr_right fetched_iff

theorem updateMetadata_outcome {request : TopologyMetadataUpdate} : Outcome topology
    ((updateMetadata request).Repeats s topology) True
    (.ok { topology with base.name := request.name, base.parentId := request.parentId }) := by
  refine .of_graph (fun _ he => by cases he) fun y hy => ?_
  cases hy
  refine ⟨rfl, rfl, ?_⟩
  constructor
  · intro h
    exact ⟨(congrArg (fun x => x.base.name) h).symm, (congrArg (fun x => x.base.parentId) h).symm⟩
  · rintro ⟨hname, hparent⟩
    rw [← hname, ← hparent]

theorem updateMetadata_isolated_iff {request : TopologyMetadataUpdate} :
    Isolated entity.networkIds id s (after ((updateMetadata request).run entity id) s) ↔
      (updateMetadata request).Sound s entity id := by
  rw [run, TopologyHandlers.updateMetadata, isolated_editTopology_iff _ _ fun _ => updateMetadata_outcome]
  exact Iff.rfl

omit [TopologyService] in
/-- Locking and unlocking check the network of the topology itself. -/
theorem changeLock_isolated {change : TopologyDb → Topology → Topology}
    (h : ∀ topology, (change s topology).id = topology.id ∧
      (change s topology).base.entities = topology.base.entities) :
    wp (TopologyHandlers.changeLock entity id change) (fun _ t => Isolated entity.networkIds id s t)
      (fun _ t => Isolated entity.networkIds id s t) s := by
  unfold TopologyHandlers.changeLock
  simp only [Program.wp_bind, Program.wp_get]
  split
  · exact Isolated.refl
  next topology hget =>
  have hid : (change s topology).id = id := (h topology).1.trans (Table.get_eq_some.mp hget).2
  simp only [Program.wp_ite, Program.wp_throw, TopologyHandlers.update, Program.wp_bind, Program.wp_get, hid, hget,
    Program.wp_set, Program.wp_pure, Bool.not_eq_true', List.contains_eq_mem, decide_eq_false_iff_not,
      Decidable.not_not]
  exact ⟨fun _ => .refl, fun hmem => (isolated_update_iff hget hid).mpr (.inr ⟨hmem, .inl (h topology).2⟩)⟩

omit [TopologyService] in
theorem lock_isolated : Isolated entity.networkIds id s (after (TopologyHandlers.lock entity id) s) := by
  refine (Program.wp_after (P := fun t => Isolated entity.networkIds id s t)).mp ?_
  simp only [TopologyHandlers.lock, Program.wp_bind, wp_authorize]
  refine ⟨fun _ => ?_, fun _ _ => .refl⟩
  split
  · exact Isolated.refl
  · exact changeLock_isolated fun _ => ⟨rfl, rfl⟩

omit [TopologyService] in
theorem unlock_isolated : Isolated entity.networkIds id s (after (TopologyHandlers.unlock entity id) s) := by
  refine (Program.wp_after (P := fun t => Isolated entity.networkIds id s t)).mp ?_
  simp only [TopologyHandlers.unlock, Program.wp_bind, wp_authorize]
  exact ⟨fun _ => changeLock_isolated fun _ => ⟨rfl, rfl⟩, fun _ _ => .refl⟩

/-- **An edit leaves other tenants' topologies alone**, and fills one only with entities of its own
network, exactly if the topology of the path is of one of the user's networks and the entities
fetched for the network of the request are of the topology's, or the edit changes nothing. -/
theorem isolated_iff (edit : TopologyEdit) (s : TopologyDb) (entity : AuthenticatedEntity) (id : Uuid) :
    Isolated entity.networkIds id s (after (edit.run entity id) s) ↔ edit.Sound s entity id := by
  cases edit with
  | refresh request =>
    rw [run, TopologyHandlers.refresh, isolated_editTopology_iff _ _ fun _ => refresh_outcome]
    exact Iff.rfl
  | rebuild request =>
    rw [run, TopologyHandlers.rebuild, isolated_editTopology_iff _ _ fun _ => rebuild_outcome]
    exact Iff.rfl
  | updateNodePosition request =>
    rw [run, TopologyHandlers.updateNodePosition, isolated_editTopology_iff _ _ fun _ => updateNodePosition_outcome]
    exact Iff.rfl
  | updateEdgeHandles request =>
    rw [run, TopologyHandlers.updateEdgeHandles, isolated_editTopology_iff _ _ fun _ => updateEdgeHandles_outcome]
    exact Iff.rfl
  | updateNodeResize request =>
    rw [run, TopologyHandlers.updateNodeResize, isolated_editTopology_iff _ _ fun _ => updateNodeResize_outcome]
    exact Iff.rfl
  | updateMetadata request => exact updateMetadata_isolated_iff

omit [TopologyService] in
/-- A member renames a topology of a network of someone else, by naming one of its own. -/
theorem foreign_metadata :
    let topology : Topology := { id := 7, base := { name := "Lab", networkId := 20 } }
    let entity := AuthenticatedEntity.user 1 2 .member [10] true
    ¬ Isolated entity.networkIds 7 { topologies := ⟨[topology], by decide⟩ }
      (after (@run ⟨fun _ => .unknown,
        fun _ => ([], [])⟩ (updateMetadata { networkId := 10, name := "Mine" }) entity 7)
        { topologies := ⟨[topology], by decide⟩ }) := by
  intro topology entity h
  let service : TopologyService := ⟨fun _ => .unknown, fun _ => ([], [])⟩
  rcases updateMetadata_isolated_iff.mp h rfl (by decide) topology rfl with hrepeats | ⟨hnetwork, -⟩
  · exact absurd hrepeats.1 (by decide)
  · exact absurd hnetwork (by decide)

end TopologyEdit

end Netvisor
