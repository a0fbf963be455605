/-
What a batch of events does to each topology: one lemma for each accumulator,
then the batch as a change of every topology by the changes of its network.
-/
import Netvisor.Topology.Subscriber

namespace Netvisor

open EntityEvent (unique Alike)

/-! ## Lists of ids -/

theorem mem_pushAbsent {ids listed : List Uuid} {i : Uuid} : i ∈ pushAbsent ids listed ↔ i ∈ listed ∨ i ∈ ids := by
  induction ids generalizing listed with
  | nil => simp [pushAbsent]
  | cons id ids ih =>
    have hstep : pushAbsent (id :: ids) listed =
        pushAbsent ids (if listed.contains id then listed else listed ++ [id]) := rfl
    rw [hstep, ih]
    split
    · next h =>
      have hid : id ∈ listed := by simpa using h
      simp only [List.mem_cons]
      constructor
      · tauto
      · rintro (h | rfl | h)
        · exact .inl h
        · exact .inl hid
        · exact .inr h
    · simp only [List.mem_append, List.mem_cons, List.not_mem_nil, or_false]
      tauto

/-- What is pushed is listed once, and what was listed stays as it is. -/
theorem count_pushAbsent {ids listed : List Uuid} {i : Uuid} :
    (pushAbsent ids listed).count i = if i ∈ listed then listed.count i else if i ∈ ids then 1 else 0 := by
  induction ids generalizing listed with
  | nil =>
    show listed.count i = _
    split
    · rfl
    · next h => simpa using List.count_eq_zero.mpr h
  | cons id ids ih =>
    have hstep : pushAbsent (id :: ids) listed =
        pushAbsent ids (if listed.contains id then listed else listed ++ [id]) := rfl
    rw [hstep, ih]
    by_cases hid : i = id
    · subst hid
      by_cases hi : i ∈ listed
      · simp [hi]
      · simp [hi, List.count_eq_zero.mpr hi]
    · have hone : [id].count i = 0 := List.count_eq_zero.mpr (by simpa using hid)
      split
      · simp [hid]
      · simp [hid, hone]

/-! ## What the events of a network add up to -/

/-- The events that are folded into the topologies of a network. -/
def concerning (networkId : Uuid) (events : List EntityEvent) : List EntityEvent :=
  events.filter fun event => event.networkId == some networkId && !event.updatesTopology

def changesOf (networkId : Uuid) (events : List EntityEvent) : TopologyChanges :=
  (concerning networkId events).foldl TopologyChanges.add {}

section

variable {networkId : Uuid} {events : List EntityEvent} {event : EntityEvent} {k : EntityKind} {i : Uuid}

theorem mem_concerning : event ∈ concerning networkId events ↔
    event ∈ events ∧ event.networkId = some networkId ∧ event.updatesTopology = false := by
  simp [concerning]

theorem concerning_cons : concerning networkId (event :: events) =
    if event.networkId = some networkId ∧ event.updatesTopology = false then event :: concerning networkId events
    else concerning networkId events := by
  rw [concerning, List.filter_cons]
  by_cases h : event.networkId = some networkId ∧ event.updatesTopology = false
  · simp [h, concerning]
  · rw [if_neg h, if_neg (by simpa using h)]
    rfl

namespace TopologyChanges

variable {changes : TopologyChanges}

theorem updated_foldl_add :
    (events.foldl add changes).updated k = (changes.updated k || events.any (·.updates k)) := by
  induction events generalizing changes with
  | nil => simp
  | cons event events ih => rw [List.foldl_cons, ih, List.any_cons, ← Bool.or_assoc]; rfl

theorem shouldMarkStale_foldl_add :
    (events.foldl add changes).shouldMarkStale = (changes.shouldMarkStale || events.any (·.triggersStale)) := by
  induction events generalizing changes with
  | nil => simp
  | cons event events ih => rw [List.foldl_cons, ih, List.any_cons, ← Bool.or_assoc]; rfl

theorem clearStale_foldl_add : (events.foldl add changes).clearStale =
    (changes.clearStale || events.any fun event => !event.triggersStale && event.clearsStale) := by
  induction events generalizing changes with
  | nil => simp
  | cons event events ih => rw [List.foldl_cons, ih, List.any_cons, ← Bool.or_assoc]; rfl

theorem mem_removed_foldl_add : i ∈ (events.foldl add changes).removed k ↔
    i ∈ changes.removed k ∨ ∃ event ∈ events, event.removes k = true ∧ event.entityId = i := by
  induction events generalizing changes with
  | nil => simp
  | cons event events ih =>
    have hadd : i ∈ (changes.add event).removed k ↔
        i ∈ changes.removed k ∨ (event.removes k = true ∧ event.entityId = i) := by
      simp only [add]
      split
      · next h => simp [mem_pushAbsent, h, eq_comm]
      · next h => simp [h]
    rw [List.foldl_cons, ih, hadd]
    simp only [List.mem_cons, exists_eq_or_imp, or_assoc]

end TopologyChanges

theorem updated_changesOf : (changesOf networkId events).updated k = true ↔
    ∃ event ∈ concerning networkId events, event.updates k = true := by
  simp [changesOf, TopologyChanges.updated_foldl_add, List.any_eq_true]

theorem shouldMarkStale_changesOf : (changesOf networkId events).shouldMarkStale = true ↔
    ∃ event ∈ concerning networkId events, event.triggersStale = true := by
  simp [changesOf, TopologyChanges.shouldMarkStale_foldl_add, List.any_eq_true]

theorem clearStale_changesOf : (changesOf networkId events).clearStale = true ↔
    ∃ event ∈ concerning networkId events, event.triggersStale = false ∧ event.clearsStale = true := by
  simp [changesOf, TopologyChanges.clearStale_foldl_add, List.any_eq_true]

theorem mem_removed_changesOf : i ∈ (changesOf networkId events).removed k ↔
    ∃ event ∈ concerning networkId events, event.removes k = true ∧ event.entityId = i := by
  simp [changesOf, TopologyChanges.mem_removed_foldl_add]

theorem refreshes_changesOf : (changesOf networkId events).refreshes k = true ↔
    (∃ event ∈ concerning networkId events, event.updates k = true) ∧
      ∀ event ∈ concerning networkId events, event.removes k = false := by
  rw [TopologyChanges.refreshes, Bool.and_eq_true, updated_changesOf, List.isEmpty_iff,
    List.eq_nil_iff_forall_not_mem]
  refine and_congr_right fun _ => ?_
  simp only [mem_removed_changesOf, not_exists, not_and]
  constructor
  · intro h event hmem
    by_contra hne
    exact h event.entityId event hmem (by simpa using hne) rfl
  · intro h i event hmem hr
    rw [h event hmem] at hr
    cases hr

end

theorem getD_record (updates : Assoc Uuid TopologyChanges) (event : EntityEvent) (networkId : Uuid) :
    (record updates event).getD networkId {} =
      if event.networkId = some networkId ∧ event.updatesTopology = false then (updates.getD networkId {}).add event
      else updates.getD networkId {} := by
  unfold record
  cases hn : event.networkId with
  | none => simp
  | some n =>
    cases ht : event.updatesTopology with
    | true => simp
    | false =>
      simp only [Bool.false_eq_true, if_false, Assoc.getD_insert, Option.some.injEq, and_true, eq_comm]
      split
      · next h => rw [h]
      · rfl

theorem getD_foldl_record (updates : Assoc Uuid TopologyChanges) (events : List EntityEvent) (networkId : Uuid) :
    (events.foldl record updates).getD networkId {} =
      (concerning networkId events).foldl TopologyChanges.add (updates.getD networkId {}) := by
  induction events generalizing updates with
  | nil => rfl
  | cons event events ih =>
    rw [List.foldl_cons, ih, getD_record, concerning_cons]
    split <;> rfl

theorem getD_collect (networkId : Uuid) (events : List EntityEvent) :
    (collect events).getD networkId {} = changesOf networkId events :=
  getD_foldl_record ∅ events networkId

/-! ## A batch as a change of every topology -/

namespace TopologyHandlers

theorem update_present {topology : Topology} {s : TopologyDb} (h : (s.topologies.get topology.id).isSome = true) :
    update topology s = .ok topology { s with topologies := s.topologies.update topology } := by
  obtain ⟨old, hold⟩ := Option.isSome_iff_exists.mp h
  unfold update
  simp only [bind, EStateM.bind, Program.run_get, hold]
  rfl

/-- Saving a changed version of each of some topologies. -/
theorem forM_update {f : Topology → Topology} (hid : ∀ topology, (f topology).id = topology.id) :
    ∀ (topologies : List Topology) (s : TopologyDb),
      (∀ topology ∈ topologies, (s.topologies.get topology.id).isSome = true) →
      (topologies.forM fun topology => do let _ ← update (f topology)) s =
        .ok () { s with topologies := topologies.foldl (fun t topology => t.update (f topology)) s.topologies }
  | [], _, _ => rfl
  | topology :: topologies, s, h => by
    have hfirst : ((s.topologies.get (f topology).id).isSome) = true := by
      rw [hid]
      exact h topology List.mem_cons_self
    have hrest : ∀ x ∈ topologies, ((s.topologies.update (f topology)).get x.id).isSome = true := by
      intro x hx
      rw [Table.get_update]
      have := h x (List.mem_cons_of_mem _ hx)
      split
      · rwa [Option.isSome_map]
      · exact this
    rw [List.forM]
    simp only [bind, EStateM.bind, update_present hfirst]
    exact forM_update hid topologies _ hrest

end TopologyHandlers

namespace TopologyChanges

variable {changes : TopologyChanges} {fetched : SetEntitiesParams} {topology : Topology}

@[simp] theorem apply_id : (changes.apply fetched topology).id = topology.id := rfl

@[simp] theorem apply_networkId : (changes.apply fetched topology).base.networkId = topology.base.networkId := rfl

@[simp] theorem apply_options : (changes.apply fetched topology).base.options = topology.base.options := rfl

theorem apply_empty : ({} : TopologyChanges).apply fetched topology = topology := rfl

end TopologyChanges

namespace TopologySubscriber

variable [TopologyService] {s : TopologyDb} {events : List EntityEvent}

/-- A topology after a batch of events. -/
def changed (s : TopologyDb) (events : List EntityEvent) (topology : Topology) : Topology :=
  (changesOf topology.base.networkId events).apply (fetch s topology.base.networkId topology.base.options) topology

theorem changed_id (s : TopologyDb) (events : List EntityEvent) (topology : Topology) :
    (changed s events topology).id = topology.id := rfl

/-- A topology after the changes of a network. -/
def changedIn (s : TopologyDb) (networkId : Uuid) (changes : TopologyChanges) (topology : Topology) : Topology :=
  if topology.base.networkId = networkId then changes.apply (fetch s networkId topology.base.options) topology
  else topology

theorem changedIn_id (s : TopologyDb) (networkId : Uuid) (changes : TopologyChanges) (topology : Topology) :
    (changedIn s networkId changes topology).id = topology.id := by
  unfold changedIn
  split <;> rfl

theorem applyToNetwork_eq (s : TopologyDb) (networkId : Uuid) (changes : TopologyChanges) :
    applyToNetwork networkId changes s = .ok () { s with
      topologies := s.topologies.modify (changedIn s networkId changes) (changedIn_id s networkId changes) } := by
  have hrows : ∀ topology ∈ s.topologies.select (fun topology =>
    topology.base.networkId == networkId) Topology.createdAt,
      topology ∈ s.topologies.rows := fun topology h => (Table.mem_select.mp h).1
  have hpresent : ∀ topology ∈ s.topologies.select (fun topology => topology.base.networkId == networkId)
      Topology.createdAt, (s.topologies.get topology.id).isSome = true :=
    fun topology h => Table.get_isSome.mpr ⟨topology, hrows topology h, rfl⟩
  have hid (topology : Topology) :
      (changes.apply (fetch s networkId topology.base.options) topology).id = topology.id := rfl
  refine (TopologyHandlers.forM_update hid _ s hpresent).trans ?_
  rw [Table.foldl_update hid _ hrows Table.nodup_select]
  congr 2
  refine Table.modify_congr _ _ fun topology hmem => ?_
  simp [Table.mem_select, hmem, changedIn]

/-- The networks one after another; each topology is of one of them at most. -/
theorem forM_applyToNetwork : ∀ (updates : List ((_ : Uuid) × TopologyChanges)) (s : TopologyDb), updates.NodupKeys →
    (updates.forM fun ⟨networkId, changes⟩ => applyToNetwork networkId changes) s = .ok () { s with
      topologies := s.topologies.modify (fun topology =>
        ((updates.dlookup topology.base.networkId).getD {}).apply
          (fetch s topology.base.networkId topology.base.options) topology) (fun _ => rfl) }
  | [], s, _ => by
    have hself : s.topologies.modify (fun topology =>
        TopologyChanges.apply {} (fetch s topology.base.networkId topology.base.options) topology) (fun _ => rfl) =
        s.topologies :=
      Table.modify_self _ fun topology _ => TopologyChanges.apply_empty
    exact congrArg (fun topologies => EStateM.Result.ok () { s with topologies }) hself.symm
  | ⟨networkId, changes⟩ :: updates, s, h => by
    rw [List.nodupKeys_cons] at h
    obtain ⟨hnew, hrest⟩ := h
    rw [List.forM]
    simp only [bind, EStateM.bind, applyToNetwork_eq]
    rw [forM_applyToNetwork updates _ hrest]
    congr 2
    refine (Table.modify_modify (changedIn_id s networkId changes) _).trans
      (Table.modify_congr _ _ fun topology _ => ?_)
    by_cases hn : topology.base.networkId = networkId
    · subst hn
      have hstep : changedIn s topology.base.networkId changes topology =
          changes.apply (fetch s topology.base.networkId topology.base.options) topology := if_pos rfl
      have hnone : updates.dlookup topology.base.networkId = none := List.dlookup_eq_none.mpr hnew
      rw [hstep, List.dlookup_cons_eq]
      simp only [TopologyChanges.apply_networkId, hnone]
      exact TopologyChanges.apply_empty
    · have hstep : changedIn s networkId changes topology = topology := if_neg hn
      rw [hstep, List.dlookup_cons_ne updates ⟨networkId, changes⟩ hn]
      rfl

/-- **What a batch of events does**: every topology takes the changes of its network, and nothing else happens. -/
theorem handleEvents_eq (s : TopologyDb) (events : List EntityEvent) :
    handleEvents events s = .ok ()
      { s with topologies := s.topologies.modify (changed s events) (changed_id s events) } := by
  refine (forM_applyToNetwork _ s (collect events).nodupKeys).trans ?_
  congr 2
  refine Table.modify_congr _ _ fun topology _ => ?_
  exact congrArg (TopologyChanges.apply · _ topology) (getD_collect topology.base.networkId events)

theorem get_handleEvents {id : Uuid} {topology : Topology} (h : s.topologies.get id = some topology) :
    ∃ s', handleEvents events s = .ok () s' ∧ s'.topologies.get id = some (changed s events topology) :=
  ⟨_, handleEvents_eq s events,
    (Table.get_modify (changed_id s events)).trans (congrArg (Option.map (changed s events)) h)⟩

end TopologySubscriber

end Netvisor
