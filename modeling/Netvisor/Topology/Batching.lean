/-
Events in batches, compared with the same events one by one.

A batch drops an event that equals an earlier one, whatever the types of their
entities, and folds the rest: a flag that is cleared stays cleared whatever comes
after, and a kind of which something is removed is not refreshed.
-/
import Netvisor.Lib.Transition
import Netvisor.Topology.Staleness

namespace Netvisor

open EntityEvent (unique)
open TopologySubscriber

/-! ## Copies of entities -/

namespace SetEntitiesParams

/-- The entities of a kind are the ones fetched. -/
def Holds (entities fetched : SetEntitiesParams) : EntityKind → Prop
  | .host => entities.hosts = fetched.hosts
  | .interface => entities.interfaces = fetched.interfaces
  | .service => entities.services = fetched.services
  | .subnet => entities.subnets = fetched.subnets
  | .group => entities.groups = fetched.groups
  | .port => entities.ports = fetched.ports
  | .binding => entities.bindings = fetched.bindings
  | .ifEntry => entities.ifEntries = fetched.ifEntries

variable {entities fetched : SetEntitiesParams} {p q : EntityKind → Bool}

theorem refresh_refresh :
    (entities.refresh p fetched).refresh q fetched = entities.refresh (fun k => p k || q k) fetched := by
  simp only [refresh]
  congr 1 <;> split <;> simp_all

/-- Two refreshments from the same source differ in the kinds only one of them takes. -/
theorem refresh_eq_refresh_iff :
    entities.refresh p fetched = entities.refresh q fetched ↔ ∀ k, p k = q k ∨ entities.Holds fetched k := by
  have hite {α : Type} {a b : α} {c d : Bool} :
      (if c then a else b) = (if d then a else b) ↔ c = d ∨ b = a := by
    cases c <;> cases d <;> simp [eq_comm]
  simp only [refresh, mk.injEq, hite, and_true]
  constructor
  · rintro ⟨h1, h2, h3, h4, h5, h6, h7, h8⟩ k
    cases k <;> assumption
  · intro h
    exact ⟨h .host, h .service, h .subnet, h .group, h .port, h .binding, h .interface, h .ifEntry⟩

end SetEntitiesParams

/-! ## One by one -/

/-- What an event asks of the flag, if anything. -/
def EntityEvent.flag (event : EntityEvent) : Option Bool :=
  if event.triggersStale then some true else if event.clearsStale then some false else none

/-- The last event of the network that asks something of the flag decides. -/
def lastFlag (networkId : Uuid) (events : List EntityEvent) : Option Bool :=
  ((concerning networkId events).filterMap EntityEvent.flag).getLast?

/-- A kind is refreshed by the events of it that remove nothing. -/
def refreshedBy (networkId : Uuid) (events : List EntityEvent) (k : EntityKind) : Bool :=
  (concerning networkId events).any fun event => event.updates k && !event.removes k

theorem lastFlag_cons (networkId : Uuid) (event : EntityEvent) (es : List EntityEvent) (isStale : Bool) :
    (lastFlag networkId (event :: es)).getD isStale = (lastFlag networkId es).getD
      (if event.networkId = some networkId ∧ event.updatesTopology = false then event.flag.getD isStale
      else isStale) := by
  unfold lastFlag
  rw [concerning_cons]
  split
  · rw [List.filterMap_cons]
    cases event.flag with
    | none => rfl
    | some flag =>
      rw [List.getLast?_cons]
      cases ((concerning networkId es).filterMap EntityEvent.flag).getLast? <;> rfl
  · rfl

theorem refreshedBy_cons (networkId : Uuid) (event : EntityEvent) (es : List EntityEvent) :
    refreshedBy networkId (event :: es) =
      if event.networkId = some networkId ∧ event.updatesTopology = false then
        fun k => (event.updates k && !event.removes k) || refreshedBy networkId es k
      else refreshedBy networkId es := by
  funext k
  unfold refreshedBy
  rw [concerning_cons]
  split <;> rfl

theorem lastFlag_eq_none {networkId : Uuid} {es : List EntityEvent} :
    lastFlag networkId es = none ↔ ∀ event ∈ concerning networkId es, event.flag = none := by
  rw [lastFlag, List.getLast?_eq_none_iff, List.filterMap_eq_nil_iff]

section

variable [TopologyService] {s : TopologyDb} {events : List EntityEvent} {event : EntityEvent} {topology : Topology}

/-- A topology after the events have been delivered one by one. -/
def changedBy (s : TopologyDb) (events : List EntityEvent) (topology : Topology) : Topology :=
  events.foldl (fun topology event => changed s [event] topology) topology

theorem changedBy_id (s : TopologyDb) : ∀ (events : List EntityEvent) (topology : Topology),
    (changedBy s events topology).id = topology.id
  | [], _ => rfl
  | event :: events, topology => changedBy_id s events (changed s [event] topology)

theorem forM_handleEvents : ∀ (events : List EntityEvent) (s : TopologyDb),
    (events.forM fun event => handleEvents [event]) s =
      .ok () { s with topologies := s.topologies.modify (changedBy s events) (changedBy_id s events) }
  | [], s => by
    have hself : s.topologies.modify (changedBy s []) (changedBy_id s []) = s.topologies :=
      Table.modify_self _ fun _ _ => rfl
    exact congrArg (fun topologies => EStateM.Result.ok () { s with topologies }) hself.symm
  | event :: events, s => by
    rw [List.forM]
    simp only [bind, EStateM.bind, handleEvents_eq]
    rw [forM_handleEvents events]
    congr 2
    exact Table.modify_modify (changed_id s [event]) (changedBy_id s events)

/-! ### The effect of one event after the other -/

variable {networkId : Uuid} {es : List EntityEvent}

/-- Other networks' events, and updates of topologies, change nothing. -/
theorem changed_of_not_concerning
    (h : ¬ (event.networkId = some topology.base.networkId ∧ event.updatesTopology = false)) :
    changed s [event] topology = topology := by
  have hnone : changesOf topology.base.networkId [event] = {} := by
    rw [changesOf, concerning_cons, if_neg h]
    rfl
  rw [changed, hnone]
  rfl

theorem changed_of_concerning
    (h : event.networkId = some topology.base.networkId ∧ event.updatesTopology = false) :
    changed s [event] topology = { topology with
      base.removed := topology.base.removed.push fun k => if event.removes k then [event.entityId] else []
      base.isStale := event.flag.getD topology.base.isStale
      base.entities := topology.base.entities.refresh (fun k => event.updates k && !event.removes k)
        (fetch s topology.base.networkId topology.base.options) } := by
  have hone : changesOf topology.base.networkId [event] = TopologyChanges.add {} event := by
    rw [changesOf, concerning_cons, if_pos h]
    rfl
  have hremoved : (TopologyChanges.add {} event).removed = fun k =>
      if event.removes k then [event.entityId] else [] :=
    rfl
  have hstale (isStale : Bool) : (TopologyChanges.add {} event).stale isStale = event.flag.getD isStale := by
    simp only [TopologyChanges.stale, TopologyChanges.add, EntityEvent.flag, Bool.false_or]
    cases event.triggersStale <;> cases event.clearsStale <;> rfl
  have hrefreshes : (TopologyChanges.add {} event).refreshes = fun k => event.updates k && !event.removes k := by
    funext k
    simp only [TopologyChanges.refreshes, TopologyChanges.add, Bool.false_or]
    cases event.removes k <;> rfl
  rw [changed, hone, TopologyChanges.apply, hstale, hrefreshes, hremoved]

/-- The flag and the copies after events one by one. -/
theorem changedBy_eq (s : TopologyDb) : ∀ (es : List EntityEvent) (topology : Topology),
    changedBy s es topology = { topology with
      base.removed := (changedBy s es topology).base.removed
      base.isStale := (lastFlag topology.base.networkId es).getD topology.base.isStale
      base.entities := topology.base.entities.refresh (refreshedBy topology.base.networkId es)
        (fetch s topology.base.networkId topology.base.options) }
  | [], _ => rfl
  | event :: es, topology => by
    have hstep : changedBy s (event :: es) topology = changedBy s es (changed s [event] topology) := rfl
    rw [lastFlag_cons, refreshedBy_cons, hstep]
    by_cases h : event.networkId = some topology.base.networkId ∧ event.updatesTopology = false
    · rw [if_pos h, if_pos h, ← SetEntitiesParams.refresh_refresh]
      rw [changedBy_eq s es, changed_of_concerning h]
    · rw [if_neg h, if_neg h, changed_of_not_concerning h]
      exact changedBy_eq s es topology

/-- Each id that is removed is listed once more, unless it was listed. -/
theorem count_removed_changedBy (s : TopologyDb) (k : EntityKind) (i : Uuid) :
    ∀ (es : List EntityEvent) (topology : Topology), ((changedBy s es topology).base.removed.ofKind k).count i =
      if i ∈ topology.base.removed.ofKind k then (topology.base.removed.ofKind k).count i
      else if ∃ event ∈ concerning topology.base.networkId es, event.removes k = true ∧
        event.entityId = i then 1 else 0
  | [], topology => by
    show (topology.base.removed.ofKind k).count i = _
    split
    · rfl
    · next h => simpa [concerning] using List.count_eq_zero.mpr h
  | event :: es, topology => by
    have hstep : changedBy s (event :: es) topology = changedBy s es (changed s [event] topology) := rfl
    rw [hstep, concerning_cons]
    by_cases h : event.networkId = some topology.base.networkId ∧ event.updatesTopology = false
    · rw [if_pos h, count_removed_changedBy s k i es, changed_of_concerning h]
      simp only [Removed.ofKind_push, mem_pushAbsent, count_pushAbsent, List.mem_cons, exists_eq_or_imp]
      by_cases hi : i ∈ topology.base.removed.ofKind k
      · simp [hi]
      · cases hr : event.removes k
        · simp [hi]
        · by_cases hid : event.entityId = i
          · simp [hi, hid]
          · simp [hi, hid, Ne.symm hid]
    · rw [if_neg h, changed_of_not_concerning h]
      exact count_removed_changedBy s k i es topology

end

/-! ## The effect of a batch -/

/-- The topologies differ at most in the order of what is listed as removed. -/
structure SameEffect (topology topology' : Topology) : Prop where
  rest : topology' = { topology with base.removed := topology'.base.removed }
  removed : ∀ k, (topology.base.removed.ofKind k).Perm (topology'.base.removed.ofKind k)

/-- Something asks for staleness. -/
def Marks (events : List EntityEvent) (topology : Topology) : Prop :=
  ∃ event ∈ concerning topology.base.networkId events, event.triggersStale = true

/-- What the events one by one do to the topology, those do that are kept of them as a batch. -/
structure Lossless [TopologyService] (s : TopologyDb) (events : List EntityEvent) (topology : Topology) : Prop where
  /-- If the flag is cleared last then it is cleared, or there was nothing to clear. -/
  clears : lastFlag topology.base.networkId events = some false →
    Clears (unique events) topology ∨ (topology.base.isStale = false ∧ ¬ Marks (unique events) topology)
  /-- If staleness is asked for last then nothing clears the flag. -/
  marks : lastFlag topology.base.networkId events = some true →
    ¬ Clears (unique events) topology ∧ (topology.base.isStale = true ∨ Marks (unique events) topology)
  /-- What is removed is listed already, or an event that removes it is kept. -/
  removes : ∀ event ∈ concerning topology.base.networkId events, ∀ k, event.removes k = true →
    event.entityId ∈ topology.base.removed.ofKind k ∨
      ∃ kept ∈ concerning topology.base.networkId (unique events), kept.removes k = true ∧
        kept.entityId = event.entityId
  /-- A kind that an event updates is updated by one that is kept, and none of it is removed, or its copies
  are as they are stored. -/
  updates : ∀ event ∈ concerning topology.base.networkId events, ∀ k, event.updates k = true →
    event.removes k = false →
    ((∃ kept ∈ concerning topology.base.networkId (unique events), kept.updates k = true) ∧
      ∀ kept ∈ concerning topology.base.networkId (unique events), kept.removes k = false) ∨
    topology.base.entities.Holds (fetch s topology.base.networkId topology.base.options) k

theorem mem_concerning_of_unique {networkId : Uuid} {events : List EntityEvent} {event : EntityEvent}
    (h : event ∈ concerning networkId (unique events)) : event ∈ concerning networkId events := by
  obtain ⟨hmem, hrest⟩ := mem_concerning.mp h
  exact mem_concerning.mpr ⟨EntityEvent.mem_of_mem_unique hmem, hrest⟩

section

variable [TopologyService] {s : TopologyDb} {events : List EntityEvent} {topology topology' : Topology}

theorem flag_eq_iff :
    (lastFlag topology.base.networkId events).getD topology.base.isStale =
      (changed s (unique events) topology).base.isStale ↔
    (lastFlag topology.base.networkId events = some false →
      Clears (unique events) topology ∨ (topology.base.isStale = false ∧ ¬ Marks (unique events) topology)) ∧
    (lastFlag topology.base.networkId events = some true →
      ¬ Clears (unique events) topology ∧ (topology.base.isStale = true ∨ Marks (unique events) topology)) := by
  have hstale : (changed s (unique events) topology).base.isStale = true ↔
      ¬ Clears (unique events) topology ∧ (topology.base.isStale = true ∨ Marks (unique events) topology) :=
        isStale_changed
  cases hlast : lastFlag topology.base.networkId events with
  | none =>
    have hnone := lastFlag_eq_none.mp hlast
    have hmarks : ¬ Marks (unique events) topology := by
      rintro ⟨event, hmem, hasks⟩
      have := hnone event (mem_concerning_of_unique hmem)
      simp [EntityEvent.flag, hasks] at this
    have hclears : ¬ Clears (unique events) topology := by
      rintro ⟨event, hmem, hfirst, hclears⟩
      have := hnone event (mem_concerning_of_unique hmem)
      simp [EntityEvent.flag, hfirst, hclears] at this
    simp only [Option.getD_none, reduceCtorEq, false_implies, and_self, iff_true]
    rw [Bool.eq_iff_iff, hstale]
    simp [hmarks, hclears]
  | some flag =>
    rw [Option.getD_some, Bool.eq_iff_iff, hstale]
    cases flag with
    | true => simp
    | false =>
      simp only [Bool.false_eq_true, false_iff, not_and_or, not_or, not_not, Bool.not_eq_true, true_implies,
        Option.some.injEq, false_implies, and_true]

omit [TopologyService] in
theorem entities_eq_iff {fetched : SetEntitiesParams} :
    topology.base.entities.refresh (refreshedBy topology.base.networkId events) fetched =
      topology.base.entities.refresh (changesOf topology.base.networkId (unique events)).refreshes fetched ↔
    ∀ event ∈ concerning topology.base.networkId events, ∀ k, event.updates k = true → event.removes k = false →
      ((∃ kept ∈ concerning topology.base.networkId (unique events), kept.updates k = true) ∧
        ∀ kept ∈ concerning topology.base.networkId (unique events), kept.removes k = false) ∨
      topology.base.entities.Holds fetched k := by
  have hby {k : EntityKind} : refreshedBy topology.base.networkId events k = true ↔
      ∃ event ∈ concerning topology.base.networkId events, event.updates k = true ∧ event.removes k = false := by
    simp [refreshedBy]
  rw [SetEntitiesParams.refresh_eq_refresh_iff]
  constructor
  · intro h event hmem k hupdates hremoves
    refine (h k).imp_left fun heq => ?_
    rw [← refreshes_changesOf, ← heq, hby]
    exact ⟨event, hmem, hupdates, hremoves⟩
  · intro h k
    by_cases hone : refreshedBy topology.base.networkId events k = true
    · obtain ⟨event, hmem, hupdates, hremoves⟩ := hby.mp hone
      refine (h event hmem k hupdates hremoves).imp_left fun hkept => ?_
      rw [hone, refreshes_changesOf.mpr hkept]
    · refine .inl ?_
      rw [Bool.eq_iff_iff]
      refine ⟨fun h => absurd h hone, fun hbatch => absurd (hby.mpr ?_) hone⟩
      obtain ⟨⟨kept, hmem, hupdates⟩, hnone⟩ := refreshes_changesOf.mp hbatch
      exact ⟨kept, mem_concerning_of_unique hmem, hupdates, hnone kept hmem⟩

theorem removed_perm_iff (s : TopologyDb) (events : List EntityEvent)
    (hperm : ∀ k, (topology.base.removed.ofKind k).Perm (topology'.base.removed.ofKind k))
    (hnetwork : topology'.base.networkId = topology.base.networkId) :
    (∀ k, ((changed s (unique events) topology).base.removed.ofKind k).Perm
      ((changedBy s events topology').base.removed.ofKind k)) ↔
    ∀ event ∈ concerning topology.base.networkId events, ∀ k, event.removes k = true →
      event.entityId ∈ topology.base.removed.ofKind k ∨
        ∃ kept ∈ concerning topology.base.networkId (unique events),
          kept.removes k = true ∧ kept.entityId = event.entityId := by
  have hcount (k : EntityKind) (i : Uuid) : ((changed s (unique events) topology).base.removed.ofKind k).count i =
      if i ∈ topology.base.removed.ofKind k then (topology.base.removed.ofKind k).count i
      else if ∃ kept ∈ concerning topology.base.networkId (unique events), kept.removes k = true ∧
        kept.entityId = i then 1
      else 0 := by
    show ((topology.base.removed.push (changesOf topology.base.networkId (unique events)).removed).ofKind k).count i =
      _
    simp only [Removed.ofKind_push, count_pushAbsent, mem_removed_changesOf]
  have hcount' (k : EntityKind) (i : Uuid) : ((changedBy s events topology').base.removed.ofKind k).count i =
      if i ∈ topology.base.removed.ofKind k then (topology.base.removed.ofKind k).count i
      else if ∃ event ∈ concerning topology.base.networkId events, event.removes k = true ∧ event.entityId = i then 1
      else 0 := by
    rw [count_removed_changedBy, hnetwork, (hperm k).count_eq]
    simp only [(hperm k).mem_iff]
  simp only [List.perm_iff_count, hcount, hcount']
  constructor
  · intro h event hmem k hremoves
    by_contra hno
    obtain ⟨hi, hkept⟩ := not_or.mp hno
    have hone := h k event.entityId
    rw [if_neg hi, if_neg hi, if_neg hkept, if_pos ⟨event, hmem, hremoves, rfl⟩] at hone
    cases hone
  · intro h k i
    split
    · rfl
    next hi =>
    refine if_congr ⟨?_, ?_⟩ rfl rfl
    · rintro ⟨kept, hmem, hkept⟩
      exact ⟨kept, mem_concerning_of_unique hmem, hkept⟩
    · rintro ⟨event, hmem, hremoves, rfl⟩
      exact (h event hmem k hremoves).resolve_left hi

/-- A batch and the same events one by one leave a topology the same exactly if the batch is lossless for it. -/
theorem sameEffect_iff (h : SameEffect topology topology') :
    SameEffect (changed s (unique events) topology) (changedBy s events topology') ↔ Lossless s events topology := by
  have hremoved := removed_perm_iff s events h.removed (by rw [h.rest])
  obtain ⟨removed, rfl⟩ : ∃ removed, topology' = { topology with base.removed := removed } := ⟨_, h.rest⟩
  have hby := changedBy_eq s events { topology with base.removed := removed }
  constructor
  · rintro ⟨hrest, hperm⟩
    rw [hby] at hrest
    have hflag : (lastFlag topology.base.networkId events).getD topology.base.isStale =
        (changed s (unique events) topology).base.isStale := congrArg (·.base.isStale) hrest
    have hentities : topology.base.entities.refresh (refreshedBy topology.base.networkId events)
          (fetch s topology.base.networkId topology.base.options) =
        (changed s (unique events) topology).base.entities := congrArg (·.base.entities) hrest
    obtain ⟨hclears, hmarks⟩ := flag_eq_iff.mp hflag
    exact ⟨hclears, hmarks, hremoved.mp hperm, entities_eq_iff.mp hentities⟩
  · rintro ⟨hclears, hmarks, hremoves, hupdates⟩
    refine ⟨?_, hremoved.mpr hremoves⟩
    have hflag := (flag_eq_iff (s := s)).mpr ⟨hclears, hmarks⟩
    have hentities := entities_eq_iff.mpr hupdates
    rw [hby]
    dsimp only
    rw [hflag, hentities]
    rfl

end

/-! ## Runs -/

section

variable [TopologyService]

/-- The topologies after a batch is flushed, beside those after its events came one by one. -/
def Flush.step (topologies : Table Topology Topology.id × Table Topology Topology.id) (flush : Flush) :
    Option (Table Topology Topology.id × Table Topology Topology.id) :=
  some ((Program.after (flushBatch flush.pending) { flush.world with topologies := topologies.1 }).topologies,
    (Program.after (flush.pending.forM fun event => handleEvents [event])
      { flush.world with topologies := topologies.2 }).topologies)

/-- Each topology is there in both, and the same but for the order of what is listed as removed. -/
def Agree (topologies : Table Topology Topology.id × Table Topology Topology.id) : Prop :=
  ∀ id, Option.Rel SameEffect (topologies.1.get id) (topologies.2.get id)

def Flush.Lossless (topologies : Table Topology Topology.id × Table Topology Topology.id) (flush : Flush) : Prop :=
  ∀ topology ∈ topologies.1.rows, Netvisor.Lossless flush.world flush.pending topology

omit [TopologyService] in
theorem SameEffect.refl (topology : Topology) : SameEffect topology topology := ⟨rfl, fun _ => .rfl⟩

omit [TopologyService] in
theorem agree_refl (topologies : Table Topology Topology.id) : Agree (topologies, topologies) := by
  intro id
  show Option.Rel SameEffect (topologies.get id) (topologies.get id)
  cases topologies.get id with
  | none => exact .none
  | some topology => exact .some (.refl topology)

theorem get_step {topologies t : Table Topology Topology.id × Table Topology Topology.id} {flush : Flush}
    (h : flush.step topologies = some t) (id : Uuid) :
    t.1.get id = (topologies.1.get id).map (changed flush.world (unique flush.pending)) ∧
      t.2.get id = (topologies.2.get id).map (changedBy flush.world flush.pending) := by
  have hbatch := handleEvents_eq { flush.world with topologies := topologies.1 } (unique flush.pending)
  have hone := forM_handleEvents flush.pending { flush.world with topologies := topologies.2 }
  cases h
  constructor
  · show (Program.after (handleEvents (unique flush.pending)) _).topologies.get id = _
    rw [Program.after, hbatch]
    exact Table.get_modify (changed_id _ _)
  · show (Program.after (flush.pending.forM fun event => handleEvents [event]) _).topologies.get id = _
    rw [Program.after, hone]
    exact Table.get_modify (changedBy_id _ _)

theorem agree_step_iff {topologies t : Table Topology Topology.id × Table Topology Topology.id} {flush : Flush}
    (hagree : Agree topologies) (h : flush.step topologies = some t) : Agree t ↔ flush.Lossless topologies := by
  have hrel (id : Uuid) : Option.Rel SameEffect (t.1.get id) (t.2.get id) ↔
      ∀ topology, topologies.1.get id = some topology → Lossless flush.world flush.pending topology := by
    obtain ⟨h1, h2⟩ := get_step h id
    rw [h1, h2]
    have hid := hagree id
    cases hid1 : topologies.1.get id with
    | none =>
      rw [hid1] at hid
      cases hid2 : topologies.2.get id with
      | none => simp
      | some topology' =>
        rw [hid2] at hid
        cases hid
    | some topology =>
      rw [hid1] at hid
      cases hid2 : topologies.2.get id with
      | none =>
        rw [hid2] at hid
        cases hid
      | some topology' =>
        rw [hid2] at hid
        cases hid with
        | some hsame =>
          constructor
          · rintro ⟨⟩ _ ⟨⟩
            next hsame' => exact (sameEffect_iff hsame).mp hsame'
          · intro hlossless
            exact .some ((sameEffect_iff hsame).mpr (hlossless topology rfl))
  constructor
  · intro ht topology hmem
    have hget : topologies.1.get topology.id = some topology := Table.get_eq_some.mpr ⟨hmem, rfl⟩
    exact (hrel topology.id).mp (ht topology.id) topology hget
  · intro hlossless id
    exact (hrel id).mpr fun topology hget => hlossless topology (Table.get_eq_some.mp hget).1

/-- An event that is dropped from a batch asks for what a kept event of the entity asks for. -/
def Represented (events : List EntityEvent) : Prop :=
  ∀ event ∈ events, ∃ kept ∈ unique events, kept.entityId = event.entityId ∧ kept.operation = event.operation ∧
    kept.triggersStale = event.triggersStale

omit [TopologyService] in
theorem represented (events : List EntityEvent) : Represented events := by
  intro event hmem
  obtain ⟨kept, hkept, halike⟩ := EntityEvent.exists_alike_mem_unique hmem
  refine ⟨kept, hkept, halike.entityId.symm, halike.operation.symm, ?_⟩
  simp only [EntityEvent.triggersStale, halike.metadata]

/-- **Batching loses no change**, wherever the flushes fall, exactly if every batch is lossless for each
topology it finds. -/
theorem batches_agree_iff (topologies : Table Topology Topology.id) (flushes : List Flush) :
    ((∀ flush ∈ flushes, Represented flush.pending) ∧
      Transition.Visits Flush.step Agree (topologies, topologies) flushes) ↔
    Transition.Along Flush.step (fun t flush => flush.Lossless t) (topologies, topologies) flushes := by
  have hruns : Transition.Visits Flush.step Agree (topologies, topologies) flushes ↔
      Transition.Along Flush.step (fun t flush => flush.Lossless t) (topologies, topologies) flushes :=
    Transition.visits_iff_along (fun _ _ _ hI hok hstep => (agree_step_iff hI hstep).mpr hok) (fun _ h => h)
      (fun _ _ _ hI hstep hagree => (agree_step_iff hI hstep).mp hagree) (agree_refl topologies)
  rw [hruns]
  exact and_iff_right fun flush _ => represented flush.pending

end

/-- A topology is created, and a host of the network of another is removed right after: that the other is stale
by then gets lost. -/
theorem creation_hides_removal :
    let service : TopologyService := ⟨fun _ => .unknown, fun _ => ([], [])⟩
    let topology : Topology := { id := 7, base := { networkId := 10, isStale := false } }
    let topologies : Table Topology Topology.id := ⟨[topology], by decide⟩
    let creation : EntityEvent :=
      { entityType := .topology, entityId := 8, networkId := some 10, operation := .created,
        metadata := { clearStale := some true } }
    let removal : EntityEvent :=
      { entityType := .host, entityId := 3, networkId := some 10, operation := .deleted,
        metadata := { triggerStale := some true, suppressLogs := some false } }
    ¬ Transition.Visits Flush.step Agree (topologies, topologies)
      [{ world := {}, pending := [creation, removal] }] := by
  intro service topology topologies creation removal h
  obtain ⟨hagree, -⟩ := Transition.every_cons.mp h.2 _ rfl
  have hlossless := (agree_step_iff (agree_refl topologies) rfl).mp hagree topology (by decide)
  refine (hlossless.marks (by decide)).1 ⟨creation, ?_, by decide, by decide⟩
  exact mem_concerning.mpr ⟨List.mem_cons_self, by decide, by decide⟩

end Netvisor
