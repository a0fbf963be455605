/-
What was removed since a topology was drawn: the ids are listed, and the copies
kept so that they can still be named, until the topology is rebuilt.

Whether to refresh the copies of a kind is decided by the removals of the batch,
not by those that are pending.
-/
import Netvisor.Auth.AccountsFacts
import Netvisor.Lib.Transition
import Netvisor.Topology.SubscriberFacts

namespace Netvisor

open EntityEvent (unique)
open TopologySubscriber

/-- The topologies, and all events since one of them was drawn. -/
structure Drawn where
  topologies : Table Topology Topology.id
  history : List EntityEvent := []

/-- The events say that the entity was deleted. -/
def Deleted (events : List EntityEvent) (k : EntityKind) (i : Uuid) : Prop :=
  ∃ event ∈ events, event.removes k = true ∧ event.entityId = i

instance {events : List EntityEvent} {k : EntityKind} {i : Uuid} : Decidable (Deleted events k i) :=
  inferInstanceAs (Decidable (∃ event ∈ events, event.removes k = true ∧ event.entityId = i))

theorem deleted_append {events events' : List EntityEvent} {k : EntityKind} {i : Uuid} :
    Deleted (events ++ events') k i ↔ Deleted events k i ∨ Deleted events' k i := by
  simp only [Deleted, List.mem_append, or_and_right, exists_or]

/-- What was drawn and has been deleted is listed once, and there is a copy of it. -/
def Kept (snapshot : SetEntitiesParams) (history : List EntityEvent) (topology : Topology) : Prop :=
  ∀ k, ∀ i ∈ snapshot.idsOf k, Deleted history k i →
    (topology.base.removed.ofKind k).count i = 1 ∧ i ∈ topology.base.entities.idsOf k

section

variable [TopologyService]

def Drawn.flush (d : Drawn) (f : Flush) : Option Drawn :=
  some {
    topologies := (Program.after (flushBatch f.pending) { f.world with topologies := d.topologies }).topologies
    history := d.history ++ f.pending }

/-- A batch keeps what is pending: a deletion that is reported reaches the topology while it has a copy, and a kind
of which the batch deletes nothing is refreshed only from tables that have everything of it that was deleted. -/
structure Preserves (snapshot : SetEntitiesParams) (history : List EntityEvent) (f : Flush) (topology : Topology) :
    Prop where
  listed : ∀ k, ∀ i ∈ snapshot.idsOf k, Deleted f.pending k i →
    i ∈ topology.base.removed.ofKind k ∨ Deleted (concerning topology.base.networkId (unique f.pending)) k i
  copied : ∀ k, ∀ i ∈ snapshot.idsOf k, Deleted f.pending k i →
    (∃ i, Deleted (concerning topology.base.networkId (unique f.pending)) k i) ∨
      (∀ event ∈ concerning topology.base.networkId (unique f.pending), event.updates k = false) →
    i ∈ topology.base.entities.idsOf k
  refreshed : ∀ k, (¬ ∃ i, Deleted (concerning topology.base.networkId (unique f.pending)) k i) →
    (∃ event ∈ concerning topology.base.networkId (unique f.pending), event.updates k = true) →
    ∀ i ∈ snapshot.idsOf k, Deleted (history ++ f.pending) k i →
      i ∈ (fetch f.world topology.base.networkId topology.base.options).idsOf k

variable {snapshot : SetEntitiesParams} {history : List EntityEvent} {f : Flush} {topology : Topology}

theorem count_removed_changed (k : EntityKind) (i : Uuid) :
    ((changed f.world (unique f.pending) topology).base.removed.ofKind k).count i =
      if i ∈ topology.base.removed.ofKind k then (topology.base.removed.ofKind k).count i
      else if Deleted (concerning topology.base.networkId (unique f.pending)) k i then 1 else 0 := by
  show ((topology.base.removed.push
    (changesOf topology.base.networkId (unique f.pending)).removed).ofKind k).count i = _
  simp only [Removed.ofKind_push, count_pushAbsent, mem_removed_changesOf]
  rfl

theorem nodup_removed_changed (h : ∀ k, (topology.base.removed.ofKind k).Nodup) (k : EntityKind) :
    ((changed f.world (unique f.pending) topology).base.removed.ofKind k).Nodup := by
  rw [List.nodup_iff_count_le_one]
  intro i
  rw [count_removed_changed]
  split
  · exact List.nodup_iff_count_le_one.mp (h k) i
  · split <;> omega

theorem idsOf_changed (k : EntityKind) :
    (changed f.world (unique f.pending) topology).base.entities.idsOf k =
      if (changesOf topology.base.networkId (unique f.pending)).refreshes k then
        (fetch f.world topology.base.networkId topology.base.options).idsOf k
      else topology.base.entities.idsOf k :=
  SetEntitiesParams.idsOf_refresh _ _ _ k

omit [TopologyService] in
theorem refreshes_iff {k : EntityKind} : (changesOf topology.base.networkId (unique f.pending)).refreshes k = true ↔
    (¬ ∃ i, Deleted (concerning topology.base.networkId (unique f.pending)) k i) ∧
      ∃ event ∈ concerning topology.base.networkId (unique f.pending), event.updates k = true := by
  rw [refreshes_changesOf, and_comm]
  refine and_congr_left fun _ => ?_
  constructor
  · rintro h ⟨i, event, hmem, hremoves, -⟩
    rw [h event hmem] at hremoves
    cases hremoves
  · intro h event hmem
    by_contra hremoves
    exact h ⟨event.entityId, event, hmem, by simpa using hremoves, rfl⟩

theorem kept_changed_iff (hkept : Kept snapshot history topology)
    (hnodup : ∀ k, (topology.base.removed.ofKind k).Nodup) :
    Kept snapshot (history ++ f.pending) (changed f.world (unique f.pending) topology) ↔
      Preserves snapshot history f topology := by
  constructor
  · intro h
    refine ⟨fun k i hi hdeleted => ?_, fun k i hi hdeleted hquiet => ?_, fun k hnone hupdates i hi hdeleted => ?_⟩
    · have hcount := (h k i hi (deleted_append.mpr (.inr hdeleted))).1
      by_contra hno
      obtain ⟨hlisted, hbatch⟩ := not_or.mp hno
      rw [count_removed_changed, if_neg hlisted, if_neg hbatch] at hcount
      cases hcount
    · have hcopy := (h k i hi (deleted_append.mpr (.inr hdeleted))).2
      have hno : ¬ (changesOf topology.base.networkId (unique f.pending)).refreshes k = true := by
        rw [refreshes_iff]
        rintro ⟨hnone, event, hmem, hupdates⟩
        rcases hquiet with hsome | hquiet
        · exact hnone hsome
        · rw [hquiet event hmem] at hupdates
          cases hupdates
      rwa [idsOf_changed, if_neg hno] at hcopy
    · have hcopy := (h k i hi hdeleted).2
      rwa [idsOf_changed, if_pos (refreshes_iff.mpr ⟨hnone, hupdates⟩)] at hcopy
  · rintro ⟨hlisted, hcopied, hrefreshed⟩ k i hi hdeleted
    constructor
    · rw [count_removed_changed]
      split
      · next hmem =>
        exact List.count_eq_one_of_mem (hnodup k) hmem
      · next hmem =>
        rcases deleted_append.mp hdeleted with hold | hnew
        · have hone := (hkept k i hi hold).1
          rw [List.count_eq_zero.mpr hmem] at hone
          cases hone
        · rw [if_pos ((hlisted k i hi hnew).resolve_left hmem)]
    · rw [idsOf_changed]
      split
      · next hr =>
        obtain ⟨hnone, hupdates⟩ := refreshes_iff.mp hr
        exact hrefreshed k hnone hupdates i hi hdeleted
      · next hr =>
        rcases deleted_append.mp hdeleted with hold | hnew
        · exact (hkept k i hi hold).2
        · refine hcopied k i hi hnew ?_
          by_contra hno
          obtain ⟨hnone, hupdates⟩ := not_or.mp hno
          refine hr (refreshes_iff.mpr ⟨hnone, ?_⟩)
          push Not at hupdates
          simpa using hupdates

/-! ## Runs -/

/-- What is known of the topology along a run: besides the property, nothing is listed twice. -/
def Drawn.Holds (snapshot : SetEntitiesParams) (id : Uuid) (d : Drawn) : Prop :=
  ∀ topology, d.topologies.get id = some topology →
    Kept snapshot d.history topology ∧ ∀ k, (topology.base.removed.ofKind k).Nodup

theorem get_flush {d t : Drawn} (h : d.flush f = some t) (id : Uuid) :
    t.history = d.history ++ f.pending ∧
      t.topologies.get id = (d.topologies.get id).map (changed f.world (unique f.pending)) := by
  have hbatch := handleEvents_eq { f.world with topologies := d.topologies } (unique f.pending)
  cases h
  refine ⟨rfl, ?_⟩
  show (Program.after (handleEvents (unique f.pending)) _).topologies.get id = _
  rw [Program.after, hbatch]
  exact Table.get_modify (changed_id _ _)

theorem rebuild_clears {id : Uuid} {entity : AuthenticatedEntity} {request : TopologyRebuildRequest}
    {s s' : TopologyDb}
    (h : TopologyHandlers.rebuild entity id request s = .ok () s') :
    ∃ rebuilt, s'.topologies.get id = some rebuilt ∧ rebuilt.base.removed = {} := by
  have hwp : Program.wp (TopologyHandlers.rebuild entity id request)
      (fun _ t => ∃ rebuilt, t.topologies.get id = some rebuilt ∧ rebuilt.base.removed = {}) (fun _ _ => True) s := by
    unfold TopologyHandlers.rebuild TopologyHandlers.editTopology
    simp only [Program.wp_bind, wp_authorize, Program.wp_ite, Program.wp_throw, Program.wp_get]
    refine ⟨fun _ => ⟨fun _ => trivial, fun _ => ?_⟩, fun _ _ => trivial⟩
    split
    · trivial
    next topology hget =>
    have hid : topology.id = id := (Table.get_eq_some.mp hget).2
    simp only [TopologyHandlers.update, Program.wp_bind, Program.wp_get, Topology.clearStale, Topology.setGraph,
      Topology.setEntities, hid, hget, Program.wp_set, Program.wp_pure]
    exact ⟨_, Table.get_update_self hget rfl, rfl⟩
  rw [Program.wp, h] at hwp
  exact hwp

/-- From when a topology was drawn, or rebuilt, **what has been deleted since is listed and can be named** after every
batch exactly if every batch preserves it. -/
theorem pending_removals_kept_iff {topologies : Table Topology Topology.id} {id : Uuid} {topology : Topology}
    (h : topologies.get id = some topology) (hdrawn : topology.base.removed = {}) (flushes : List Flush) :
    ((∀ entity request s s', TopologyHandlers.rebuild entity id request s = .ok () s' →
        ∃ rebuilt, s'.topologies.get id = some rebuilt ∧ rebuilt.base.removed = {}) ∧
      Transition.Visits Drawn.flush
        (fun d => ∀ topology', d.topologies.get id = some topology' → Kept topology.base.entities d.history topology')
        { topologies } flushes) ↔
    Transition.Along Drawn.flush
      (fun d f => ∀ topology', d.topologies.get id = some topology' →
        Preserves topology.base.entities d.history f topology') { topologies } flushes := by
  have hstart : Drawn.Holds topology.base.entities id { topologies } := by
    intro topology' hget
    obtain rfl : topology = topology' := Option.some.inj (h.symm.trans hget)
    constructor
    · rintro k i - ⟨event, hmem, -⟩
      cases hmem
    · intro k
      rw [hdrawn]
      cases k <;> exact List.nodup_nil
  rw [and_iff_right fun entity request s s' => rebuild_clears]
  refine Transition.visits_iff_along ?_ (fun d hd topology' hget => (hd topology' hget).1) ?_ hstart
  · intro d f t hd hok hstep topology' hget
    obtain ⟨hhistory, hget'⟩ := get_flush hstep id
    obtain ⟨before, hbefore, rfl⟩ := Option.map_eq_some_iff.mp (hget'.symm.trans hget)
    obtain ⟨hkept, hnodup⟩ := hd before hbefore
    rw [hhistory]
    exact ⟨(kept_changed_iff hkept hnodup).mpr (hok before hbefore), nodup_removed_changed hnodup⟩
  · intro d f t hd hstep hP before hbefore
    obtain ⟨hhistory, hget'⟩ := get_flush hstep id
    obtain ⟨hkept, hnodup⟩ := hd before hbefore
    have hafter := hP _ (by rw [hget', hbefore]; rfl)
    rw [hhistory] at hafter
    exact (kept_changed_iff hkept hnodup).mp hafter

end

/-- A batch that deletes the only host of a topology. -/
theorem removal_of_host_kept :
    let service : TopologyService := ⟨fun _ => .unknown, fun _ => ([], [])⟩
    let topology : Topology := { id := 7, base := { networkId := 10, entities := { hosts := [{ id := 3 }] } } }
    let topologies : Table Topology Topology.id := ⟨[topology], by decide⟩
    let removal : EntityEvent :=
      { entityType := .host, entityId := 3, networkId := some 10, operation := .deleted,
        metadata := { triggerStale := some true, suppressLogs := some false } }
    ((∀ entity request s s', TopologyHandlers.rebuild entity 7 request s = .ok () s' →
        ∃ rebuilt, s'.topologies.get 7 = some rebuilt ∧ rebuilt.base.removed = {}) ∧
      Transition.Visits Drawn.flush
        (fun d => ∀ topology', d.topologies.get 7 = some topology' → Kept topology.base.entities d.history topology')
        { topologies } [{ world := {}, pending := [removal] }]) ↔
    Transition.Along Drawn.flush
      (fun d f => ∀ topology', d.topologies.get 7 = some topology' →
        Preserves topology.base.entities d.history f topology') { topologies }
      [{ world := {}, pending := [removal] }] := by
  intro service topology topologies removal
  exact pending_removals_kept_iff rfl rfl _

/-- A host is deleted, and another is changed later: the copy of the first is gone. -/
theorem later_update_drops_copy :
    let service : TopologyService := ⟨fun _ => .unknown, fun _ => ([], [])⟩
    let topology : Topology :=
      { id := 7, base := { networkId := 10, entities := { hosts := [{ id := 3 }, { id := 4 }] } } }
    let topologies : Table Topology Topology.id := ⟨[topology], by decide⟩
    let removal : EntityEvent :=
      { entityType := .host, entityId := 3, networkId := some 10, operation := .deleted,
        metadata := { triggerStale := some true, suppressLogs := some false } }
    let update : EntityEvent :=
      { entityType := .host, entityId := 4, networkId := some 10, operation := .updated,
        metadata := { triggerStale := some false, suppressLogs := some false } }
    let world : TopologyDb := { db := { hosts := ⟨[{ id := 4, base := { networkId := 10 } }], by decide⟩ } }
    ¬ Transition.Visits Drawn.flush
      (fun d => ∀ topology', d.topologies.get 7 = some topology' → Kept topology.base.entities d.history topology')
      { topologies } [{ world, pending := [removal] }, { world, pending := [update] }] := by
  intro service topology topologies removal update world h
  obtain ⟨-, hsecond⟩ := Transition.every_cons.mp h.2 _ rfl
  obtain ⟨hkept, -⟩ := Transition.every_cons.mp hsecond _ rfl
  have hcopy := (hkept _ rfl .host 3 (by decide) ⟨removal, List.mem_cons_self, by decide, rfl⟩).2
  exact absurd hcopy (by decide +kernel)

end Netvisor
