/-
Edits of topologies that come between one another, and between the statements of
the subscriber.

Whoever changes a topology reads its row, looks whether it is still there and
writes the row back whole. Each write is labelled with what it changes and the
row it was worked out from.
-/
import Netvisor.Lib.Process
import Netvisor.Lib.Transition
import Netvisor.Topology.SubscriberFacts

namespace Netvisor

open Process (statement query Does)

/-- What a write sets. -/
inductive TopologyChange
  | nodePosition (nodeId : Uuid) (position : Ixy)
  | nodeResize (nodeId : Uuid) (size : Uxy) (position : Ixy)
  | edgeHandles (edgeId : Uuid) (sourceHandle targetHandle : EdgeHandle)
  | metadata (name : String) (parentId : Option Uuid)
  | lock (lockedBy : Uuid) (now : DateTime)
  | unlock
  | events (changes : TopologyChanges) (fetched : SetEntitiesParams)

namespace TopologyChange

def apply : TopologyChange → Topology → Except ApiError Topology
  | nodePosition nodeId position => TopologyHandlers.editNode nodeId fun node => { node with position }
  | nodeResize nodeId size position => TopologyHandlers.editNode nodeId fun node => { node with size, position }
  | edgeHandles edgeId sourceHandle targetHandle => fun topology =>
    match TopologyHandlers.modifyFirst (fun e => e.id == edgeId) (fun e => { e with sourceHandle, targetHandle })
        topology.base.edges with
    | none => .error (.notFound ("Edge " ++ toString edgeId ++ " not found in topology"))
    | some edges => .ok { topology with base.edges := edges }
  | metadata name parentId => fun topology => .ok { topology with base.name := name, base.parentId := parentId }
  | lock lockedBy now => fun topology => .ok (topology.lock lockedBy now)
  | unlock => fun topology => .ok topology.unlock
  | events changes fetched => fun topology => .ok (changes.apply fetched topology)

/-- The change made to a row; where there is no such node or edge, nothing. -/
def set (change : TopologyChange) (topology : Topology) : Topology :=
  match change.apply topology with
  | .ok changed => changed
  | .error _ => topology

end TopologyChange

/-- A row to be written: what is set, and what it was worked out from. -/
structure RowWrite where
  change : TopologyChange
  copy : Topology

def RowWrite.row (w : RowWrite) : Topology := w.change.set w.copy

/-- Statements of which the writes say what they write. -/
abbrev TopologySteps := Process (Option RowWrite) ApiError TopologyDb

/-! ## Requests -/

/-- A request to change a part of a topology. -/
inductive UserEdit
  | updateNodePosition (request : TopologyNodePositionUpdate)
  | updateNodeResize (request : TopologyNodeResizeUpdate)
  | updateEdgeHandles (request : TopologyEdgeHandleUpdate)
  | updateMetadata (request : TopologyMetadataUpdate)
  | lock
  | unlock
deriving DecidableEq, Repr

namespace TopologySteps

/-- `CrudService::update`. -/
def update (w : RowWrite) : TopologySteps Unit := do
  match ← query none fun s => s.topologies.get w.row.id with
  | none => .fail (.internalError ("Could not find " ++ toString w.row))
  | some _ => statement (some w) (modify fun s => { s with topologies := s.topologies.update w.row })

/-- Write what a change makes of a row. -/
def save (change : TopologyChange) (copy : Topology) : TopologySteps Unit :=
  match change.apply copy with
  | .error e => .fail e
  | .ok _ => update { change, copy }

def authorize (entity : AuthenticatedEntity) : TopologySteps Unit :=
  match PermissionRequirement.member.authorized entity with
  | some e => .fail e
  | none => pure ()

def editTopology (entity : AuthenticatedEntity) (networkId id : Uuid) (change : TopologyChange) :
    TopologySteps Unit := do
  authorize entity
  if !entity.networkIds.contains networkId then .fail (.forbidden "You don't have access to this topology's network")
  else
    match ← query none fun s => s.topologies.get id with
    | none => .fail (.notFound ("Topology " ++ toString id ++ " not found"))
    | some topology => save change topology

def changeLock (entity : AuthenticatedEntity) (id : Uuid) (change : DateTime → TopologyChange) :
    TopologySteps Unit := do
  match ← query none fun s => (s.topologies.get id, s.db.now) with
  | (none, _) => .fail (.notFound ("Could not find topology " ++ toString id))
  | (some topology, now) =>
    if !entity.networkIds.contains topology.base.networkId then
      .fail (.forbidden "You don't have access to this topology")
    else save (change now) topology

end TopologySteps

namespace UserEdit

/-- The endpoint that answers the request. -/
def handle : UserEdit → AuthenticatedEntity → Uuid → TopologyStore Unit
  | updateNodePosition request, entity, id => TopologyHandlers.updateNodePosition entity id request
  | updateNodeResize request, entity, id => TopologyHandlers.updateNodeResize entity id request
  | updateEdgeHandles request, entity, id => TopologyHandlers.updateEdgeHandles entity id request
  | updateMetadata request, entity, id => TopologyHandlers.updateMetadata entity id request
  | lock, entity, id => do let _ ← TopologyHandlers.lock entity id
  | unlock, entity, id => do let _ ← TopologyHandlers.unlock entity id

/-- The statements it issues. -/
def steps : UserEdit → AuthenticatedEntity → Uuid → TopologySteps Unit
  | updateNodePosition request, entity, id =>
    TopologySteps.editTopology entity request.networkId id (.nodePosition request.nodeId request.position)
  | updateNodeResize request, entity, id =>
    TopologySteps.editTopology entity request.networkId id (.nodeResize request.nodeId request.size request.position)
  | updateEdgeHandles request, entity, id =>
    TopologySteps.editTopology entity request.networkId id
      (.edgeHandles request.edgeId request.sourceHandle request.targetHandle)
  | updateMetadata request, entity, id =>
    TopologySteps.editTopology entity request.networkId id (.metadata request.name request.parentId)
  | lock, entity, id => do
    TopologySteps.authorize entity
    match entity.userId with
    | none => .fail (.forbidden "User context required")
    | some userId => TopologySteps.changeLock entity id (.lock userId)
  | unlock, entity, id => do
    TopologySteps.authorize entity
    TopologySteps.changeLock entity id fun _ => .unlock

end UserEdit

/-! ## The subscriber -/

namespace TopologySubscriber

variable [TopologyService]

def applyStepsTo (networkId : Uuid) (changes : TopologyChanges) : TopologySteps Unit := do
  let topologies ← query none fun s =>
    s.topologies.select (fun topology => topology.base.networkId == networkId) Topology.createdAt
  let entities ← query none fun s => s.getEntityData networkId {}
  topologies.forM fun topology => do
    let services ← query none fun s => s.getServiceData networkId topology.base.options
    TopologySteps.save (.events changes { entities with services }) topology

/-- The statements that handle a batch of events. -/
def steps (events : List EntityEvent) : TopologySteps Unit :=
  (collect events).entries.forM fun ⟨networkId, changes⟩ => applyStepsTo networkId changes

end TopologySubscriber

/-! ## One request alone -/

namespace TopologyChange

variable {change : TopologyChange} {topology changed : Topology}

theorem editNode_id {nodeId : Uuid} {f : Node → Node}
    (h : TopologyHandlers.editNode nodeId f topology = .ok changed) :
    changed.id = topology.id := by
  unfold TopologyHandlers.editNode at h
  split at h
  · cases h
  · cases h
    rfl

theorem apply_id (h : change.apply topology = .ok changed) : changed.id = topology.id := by
  cases change with
  | nodePosition nodeId position => exact editNode_id h
  | nodeResize nodeId size position => exact editNode_id h
  | edgeHandles edgeId sourceHandle targetHandle =>
    simp only [apply] at h
    split at h
    · cases h
    · cases h
      rfl
  | metadata | lock | unlock | events =>
    cases h
    rfl

theorem set_id (change : TopologyChange) (topology : Topology) : (change.set topology).id = topology.id := by
  unfold set
  split
  · next h => exact apply_id h
  · rfl

end TopologyChange

namespace TopologySteps

theorem run_update (w : RowWrite) : (update w).run = (do let _ ← TopologyHandlers.update w.row) := by
  funext s
  rw [update, Process.run_query_bind]
  simp only [TopologyHandlers.update, bind, EStateM.bind, Program.run_get]
  cases s.topologies.get w.row.id <;> rfl

theorem run_save (change : TopologyChange) (copy : Topology) : (save change copy).run =
    match change.apply copy with
    | .error e => throw e
    | .ok row => (do let _ ← TopologyHandlers.update row) := by
  unfold save
  cases h : change.apply copy with
  | error e => rfl
  | ok row =>
    dsimp only
    rw [run_update, RowWrite.row, TopologyChange.set, h]

theorem run_authorize (entity : AuthenticatedEntity) :
    (authorize entity).run = Netvisor.authorize .member entity := by
  unfold authorize Netvisor.authorize
  cases PermissionRequirement.member.authorized entity <;> rfl

theorem run_editTopology (entity : AuthenticatedEntity) (networkId id : Uuid) (change : TopologyChange) :
    (editTopology entity networkId id change).run =
      TopologyHandlers.editTopology entity networkId id fun _ => change.apply := by
  unfold editTopology TopologyHandlers.editTopology
  rw [Process.run_bind, run_authorize]
  congr 1
  funext _
  rw [Process.run_ite]
  congr 1
  funext s
  rw [Process.run_query_bind]
  simp only [bind, EStateM.bind, Program.run_get]
  cases s.topologies.get id with
  | none => rfl
  | some topology =>
    dsimp only
    rw [run_save]
    cases change.apply topology <;> rfl

theorem run_changeLock (entity : AuthenticatedEntity) (id : Uuid) (change : DateTime → TopologyChange)
    {f : TopologyDb → Topology → Topology} (h : ∀ s topology, (change s.db.now).apply topology = .ok (f s topology)) :
    (changeLock entity id change).run = (do let _ ← TopologyHandlers.changeLock entity id f) := by
  funext s
  rw [changeLock, Process.run_query_bind]
  simp only [TopologyHandlers.changeLock, bind, EStateM.bind, Program.run_get]
  cases s.topologies.get id with
  | none => rfl
  | some topology =>
    dsimp only
    rw [Process.run_ite, run_save, h]
    split <;> rfl

end TopologySteps

/-- A request that nothing comes between is the one the endpoint answers. -/
theorem UserEdit.run_steps (edit : UserEdit) (entity : AuthenticatedEntity) (id : Uuid) :
    (edit.steps entity id).run = edit.handle entity id := by
  cases edit with
  | updateNodePosition request => exact TopologySteps.run_editTopology _ _ _ _
  | updateNodeResize request => exact TopologySteps.run_editTopology _ _ _ _
  | updateEdgeHandles request => exact TopologySteps.run_editTopology _ _ _ _
  | updateMetadata request => exact TopologySteps.run_editTopology _ _ _ _
  | lock =>
    simp only [steps, handle, TopologyHandlers.lock, Process.run_bind, TopologySteps.run_authorize, bind_assoc]
    congr 1
    funext _
    cases entity.userId with
    | none => rfl
    | some userId => exact TopologySteps.run_changeLock _ _ _ fun _ _ => rfl
  | unlock =>
    simp only [steps, handle, TopologyHandlers.unlock, Process.run_bind, TopologySteps.run_authorize, bind_assoc]
    congr 1
    funext _
    exact TopologySteps.run_changeLock _ _ _ fun _ _ => rfl

section

variable [TopologyService]

open TopologySubscriber

theorem run_applyStepsTo (networkId : Uuid) (changes : TopologyChanges) :
    (applyStepsTo networkId changes).run = applyToNetwork networkId changes := by
  funext s
  have hloop (topologies : List Topology) (t : Table Topology Topology.id) :
      (topologies.forM fun topology => do
        let services ← query none fun s : TopologyDb => s.getServiceData networkId topology.base.options
        TopologySteps.save (.events changes { s.getEntityData networkId {} with services }) topology).run
        { s with topologies := t } =
      (topologies.forM fun topology => do
        let _ ← TopologyHandlers.update (changes.apply (fetch s networkId topology.base.options) topology))
        { s with topologies := t } := by
    induction topologies generalizing t with
    | nil => rfl
    | cons topology topologies ih =>
      have hbody : (do
            let services ← query none fun s : TopologyDb => s.getServiceData networkId topology.base.options
            TopologySteps.save (.events changes { s.getEntityData networkId {} with services }) topology
          : TopologySteps Unit).run { s with topologies := t } =
          (do let _ ← TopologyHandlers.update (changes.apply (fetch s networkId topology.base.options) topology) :
            TopologyStore Unit) { s with topologies := t } := by
        rw [Process.run_query_bind, TopologySteps.run_save]
        rfl
      rw [List.forM, List.forM, Process.run_bind]
      refine Program.bind_congr_at hbody fun _ t' ht' => ?_
      obtain ⟨topologies', rfl⟩ : ∃ topologies', t' = { s with topologies := topologies' } := by
        simp only [TopologyHandlers.update, bind, EStateM.bind, Program.run_get] at ht'
        cases hget : t.get (changes.apply (fetch s networkId topology.base.options) topology).id with
        | none =>
          rw [hget] at ht'
          cases ht'
        | some old =>
          rw [hget] at ht'
          cases ht'
          exact ⟨_, rfl⟩
      exact ih topologies'
  exact hloop _ s.topologies

/-- A batch that nothing comes between is handled as it is alone. -/
theorem run_steps (events : List EntityEvent) : (TopologySubscriber.steps events).run = handleEvents events := by
  unfold TopologySubscriber.steps handleEvents
  rw [Process.run_forM]
  congr 1
  funext ⟨networkId, changes⟩
  exact run_applyStepsTo networkId changes

end

/-! ## Whoever comes between -/

/-- The change made to the row as it is, rather than to the copy. -/
def RowWrite.commit (w : RowWrite) (topologies : Table Topology Topology.id) : Table Topology Topology.id :=
  match topologies.get w.copy.id with
  | none => topologies
  | some topology => topologies.update (w.change.set topology)

/-- Requests under way, and the batch of events that is handled, one at a time. -/
structure Editing where
  store : TopologyDb
  edits : List (TopologySteps Unit) := []
  batch : TopologySteps Unit := pure ()
  /-- The topologies after every acknowledged change was made to what the one before had left. -/
  expected : Table Topology Topology.id := store.topologies

namespace Editing

inductive Action
  | request (entity : AuthenticatedEntity) (id : Uuid) (edit : UserEdit)
  /-- The next statement of a request. -/
  | issue (i : Nat)
  | flush (pending : List EntityEvent)
  /-- The next statement of the batch. -/
  | issueBatch
  /-- The entities of the networks change. -/
  | entities (world : TopologyDb)

/-- Issue the next statement of a process. -/
def issue (s : Editing) : TopologySteps Unit → Option (Editing × TopologySteps Unit)
  | .stmt label after next =>
    some ({ s with
      store := after s.store
      expected := match label with
        | none => s.expected
        | some w => w.commit s.expected }, next s.store)
  | _ => none

variable [TopologyService]

def step (s : Editing) : Action → Option Editing
  | .request entity id edit => some { s with edits := s.edits ++ [edit.steps entity id] }
  | .issue i =>
    match s.edits[i]? with
    | none => none
    | some p => (s.issue p).map fun (s, p) => { s with edits := s.edits.set i p }
  | .flush pending =>
    match s.batch.phase with
    | some _ => none
    | none => some { s with batch := TopologySubscriber.steps (EntityEvent.unique pending) }
  | .issueBatch => (s.issue s.batch).map fun (s, p) => { s with batch := p }
  | .entities world => some { s with store := { world with topologies := s.store.topologies } }

/-- If the next statement writes then the row is as it was read, but for what the write sets. -/
def Current (s : Editing) (p : TopologySteps Unit) : Prop :=
  ∀ w, p.phase = some (some w) → ∀ topology, s.store.topologies.get w.copy.id = some topology →
    w.change.set w.copy = w.change.set topology

/-- Only reads that are still current are written back. -/
def WritesCurrent (s : Editing) : Action → Prop
  | .issue i => ∀ p, s.edits[i]? = some p → s.Current p
  | .issueBatch => s.Current s.batch
  | _ => True

/-- The rows are what the acknowledged changes make of them. -/
def NothingLost (s : Editing) : Prop := s.store.topologies = s.expected

/-! ### What the statements do -/

/-- Reads leave the topologies alone, and a write replaces the row it says. -/
def Labelled : Option RowWrite → TopologyDb → TopologyDb → Prop
  | none, s, t => t = s
  | some w, s, t => t = { s with topologies := s.topologies.update w.row }

omit [TopologyService] in
theorem does_update (w : RowWrite) : Does Labelled (TopologySteps.update w) := by
  unfold TopologySteps.update
  refine (Process.does_query fun _ => rfl).bind fun found => ?_
  cases found with
  | none => exact Process.does_fail _
  | some _ => exact Process.does_statement fun _ => rfl

omit [TopologyService] in
theorem does_save (change : TopologyChange) (copy : Topology) : Does Labelled (TopologySteps.save change copy) := by
  unfold TopologySteps.save
  cases change.apply copy with
  | error e => exact Process.does_fail _
  | ok row => exact does_update _

omit [TopologyService] in
theorem does_authorize (entity : AuthenticatedEntity) : Does Labelled (TopologySteps.authorize entity) := by
  unfold TopologySteps.authorize
  cases PermissionRequirement.member.authorized entity with
  | some e => exact Process.does_fail _
  | none => exact Process.does_pure _

omit [TopologyService] in
theorem does_editTopology (entity : AuthenticatedEntity) (networkId id : Uuid) (change : TopologyChange) :
    Does Labelled (TopologySteps.editTopology entity networkId id change) := by
  unfold TopologySteps.editTopology
  refine (does_authorize entity).bind fun _ => ?_
  split
  · exact Process.does_fail _
  refine (Process.does_query fun _ => rfl).bind fun found => ?_
  cases found with
  | none => exact Process.does_fail _
  | some topology => exact does_save _ _

omit [TopologyService] in
theorem does_changeLock (entity : AuthenticatedEntity) (id : Uuid) (change : DateTime → TopologyChange) :
    Does Labelled (TopologySteps.changeLock entity id change) := by
  unfold TopologySteps.changeLock
  refine (Process.does_query fun _ => rfl).bind fun found => ?_
  split
  · exact Process.does_fail _
  · split
    · exact Process.does_fail _
    · exact does_save _ _

omit [TopologyService] in
theorem does_steps (edit : UserEdit) (entity : AuthenticatedEntity) (id : Uuid) :
    Does Labelled (edit.steps entity id) := by
  cases edit with
  | updateNodePosition | updateNodeResize | updateEdgeHandles | updateMetadata => exact does_editTopology _ _ _ _
  | lock =>
    refine (does_authorize entity).bind fun _ => ?_
    split
    · exact Process.does_fail _
    · exact does_changeLock _ _ _
  | unlock => exact (does_authorize entity).bind fun _ => does_changeLock _ _ _

theorem does_batch (events : List EntityEvent) : Does Labelled (TopologySubscriber.steps events) := by
  refine Process.Does.forM (fun ⟨networkId, changes⟩ => ?_) _
  refine (Process.does_query fun _ => rfl).bind fun topologies => ?_
  refine (Process.does_query fun _ => rfl).bind fun entities => ?_
  exact Process.Does.forM (fun topology => (Process.does_query fun _ => rfl).bind fun _ => does_save _ _) _

/-! ### Runs -/

/-- Every process does what its labels say, and nothing is lost so far. -/
structure Sound (s : Editing) : Prop where
  nothingLost : s.NothingLost
  edits : ∀ p ∈ s.edits, Does Labelled p
  batch : Does Labelled s.batch

omit [TopologyService] in
/-- A row is lost by exactly the writes whose read is out of date. -/
theorem commit_iff (w : RowWrite) (topologies : Table Topology Topology.id) :
    topologies.update w.row = w.commit topologies ↔
      ∀ topology, topologies.get w.copy.id = some topology → w.change.set w.copy = w.change.set topology := by
  have hid : w.row.id = w.copy.id := TopologyChange.set_id _ _
  unfold RowWrite.commit
  cases hget : topologies.get w.copy.id with
  | none => simpa using Table.update_missing (hid ▸ hget)
  | some topology =>
    have hid' : (w.change.set topology).id = w.copy.id :=
      (TopologyChange.set_id _ _).trans (Table.get_eq_some.mp hget).2
    constructor
    · rintro h _ ⟨⟩
      have hleft := Table.get_update_self hget hid
      rw [h, Table.get_update_self hget hid'] at hleft
      exact (Option.some.inj hleft).symm
    · intro h
      exact congrArg topologies.update (h topology rfl)

omit [TopologyService] in
theorem issue_spec {s t : Editing} {p q : TopologySteps Unit} (hlost : s.NothingLost) (hp : Does Labelled p)
    (h : s.issue p = some (t, q)) :
    (t.NothingLost ↔ s.Current p) ∧ Does Labelled q ∧ t.edits = s.edits ∧ t.batch = s.batch := by
  cases p with
  | ret | fail => cases h
  | stmt label after next =>
    obtain ⟨hdoes, hnext⟩ := hp s.store
    cases h
    refine ⟨?_, hnext, rfl, rfl⟩
    cases label with
    | none =>
      have hsame : after s.store = s.store := hdoes
      refine iff_of_true ?_ fun w hw => (by cases hw)
      show (after s.store).topologies = s.expected
      rw [hsame]
      exact hlost
    | some w =>
      have hwrite : after s.store = { s.store with topologies := s.store.topologies.update w.row } := hdoes
      have hcommit : (after s.store).topologies = w.commit s.expected ↔
          ∀ topology, s.store.topologies.get w.copy.id = some topology →
              w.change.set w.copy = w.change.set topology := by
        rw [hwrite, ← hlost]
        exact commit_iff w s.store.topologies
      refine hcommit.trans ⟨?_, fun h => h w rfl⟩
      rintro h _ ⟨⟩
      exact h

/-- One step loses nothing exactly if what it writes back is current. -/
theorem step_spec {s t : Editing} {a : Action} (hs : Sound s) (h : s.step a = some t) :
    (t.NothingLost ↔ s.WritesCurrent a) ∧ (∀ p ∈ t.edits, Does Labelled p) ∧ Does Labelled t.batch := by
  obtain ⟨hlost, hedits, hbatch⟩ := hs
  cases a with
  | request entity id edit =>
    cases h
    refine ⟨iff_of_true hlost trivial, fun p hp => ?_, hbatch⟩
    rcases List.mem_append.mp hp with hp | hp
    · exact hedits p hp
    · rw [List.mem_singleton.mp hp]
      exact does_steps edit entity id
  | issue i =>
    simp only [step] at h
    cases hget : s.edits[i]? with
    | none =>
      rw [hget] at h
      cases h
    | some p =>
      rw [hget] at h
      obtain ⟨⟨t', q⟩, hissue, rfl⟩ := Option.map_eq_some_iff.mp h
      obtain ⟨hiff, hq, hsame, hsame'⟩ := issue_spec hlost (hedits p (List.mem_of_getElem? hget)) hissue
      refine ⟨hiff.trans ⟨?_, fun h => h p hget⟩, fun r hr => ?_, hsame' ▸ hbatch⟩
      · rintro hcurrent r hr
        rw [hget] at hr
        cases hr
        exact hcurrent
      · rcases List.mem_or_eq_of_mem_set hr with hr | rfl
        · exact hedits r (hsame ▸ hr)
        · exact hq
  | flush pending =>
    simp only [step] at h
    split at h
    · cases h
    · cases h
      exact ⟨iff_of_true hlost trivial, hedits, does_batch _⟩
  | issueBatch =>
    obtain ⟨⟨t', q⟩, hissue, rfl⟩ := Option.map_eq_some_iff.mp h
    obtain ⟨hiff, hq, hsame, -⟩ := issue_spec hlost hbatch hissue
    exact ⟨hiff, hsame ▸ hedits, hq⟩
  | entities world =>
    cases h
    exact ⟨iff_of_true hlost trivial, hedits, hbatch⟩

/-- **No edit is lost**, however requests and batches interleave, exactly as long as nothing but what a writer
sets has changed since it read the row. -/
theorem nothing_lost_iff (store : TopologyDb) (actions : List Action) :
    Transition.Visits step NothingLost { store } actions ↔ Transition.Along step WritesCurrent { store } actions := by
  have hstart : Sound { store } := ⟨rfl, fun _ h => (by cases h), Process.does_pure ()⟩
  refine Transition.visits_iff_along ?_ (fun s hs => hs.nothingLost) ?_ hstart
  · intro s a t hs hok hstep
    obtain ⟨hiff, hedits, hbatch⟩ := step_spec hs hstep
    exact ⟨hiff.mpr hok, hedits, hbatch⟩
  · intro s a t hs hstep hP
    exact (step_spec hs hstep).1.mp hP

omit [TopologyService] in
/-- Two members edit a topology, one its name and one the position of a node: the name is set back. -/
theorem rename_lost :
    let service : TopologyService := ⟨fun _ => .unknown, fun _ => ([], [])⟩
    let topology : Topology :=
      { id := 7, base := { name := "Lab", networkId := 10, nodes := [{ nodeType := .subnetNode 1, id := 3 }] } }
    let entity := AuthenticatedEntity.user 1 2 .member [10] true
    ¬ Transition.Visits step NothingLost { store := { topologies := ⟨[topology], by decide⟩ } }
      [.request entity 7 (.updateMetadata { networkId := 10, name := "Office" }),
        .request entity 7 (.updateNodePosition { networkId := 10, nodeId := 3, position := { x := 1, y := 1 } }),
        .issue 0, .issue 1, .issue 0, .issue 1, .issue 0, .issue 1] := by
  intro service topology entity h
  have hname := h.2.mono (S := fun _ _ t => (t.store.topologies.get 7).map (fun topology => topology.base.name) =
    (t.expected.get 7).map fun topology => topology.base.name) fun _ _ _ _ hlost =>
      congrArg (fun topologies => (topologies.get 7).map fun topology => topology.base.name) hlost
  exact absurd hname (by decide +kernel)

end Editing

end Netvisor
