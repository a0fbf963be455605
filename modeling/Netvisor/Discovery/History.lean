/-
The history of sessions: a session that is over leaves one row, and does not
come back.

The one guard is the time stamp a removed session leaves behind, which makes
`update_session` drop a late update. It is asked for terminal updates only, and
both the stall cleanup and the eviction of old time stamps erase it. A late
update that is not dropped creates its session anew, and that session can then
finish a second time.
-/
import Netvisor.Discovery.SessionsFacts

namespace Netvisor

open DiscoveryService (Within)

namespace DiscoveryService

/-- The sessions that have a historical row, once for each row. -/
def recorded (v : DiscoveryService) : List Uuid := (v.discoveries.filterMap (·.results)).map (·.sessionId)

/-- The ids `removed` are gone for good, with at most one row each, and no
other session has a row. -/
structure Archived (v : DiscoveryService) (removed : List Uuid) : Prop where
  among : ∀ id ∈ v.recorded, id ∈ removed
  once : v.recorded.Nodup
  gone : ∀ id ∈ removed, v.getSession id = none

variable {v w : DiscoveryService} {now : DateTime} {removed : List Uuid}

theorem Archived.init : Archived {} [] where
  among _ h := by cases h
  once := List.nodup_nil
  gone _ h := by cases h

theorem recorded_eq (h : w.discoveries = v.discoveries) : w.recorded = v.recorded := by
  rw [recorded, h, recorded]

theorem recorded_createHistorical {session : DiscoveryUpdatePayload} {name : String} {saved : Option Uuid} :
    ((v.createHistorical session name now saved).recorded).Sublist (session.sessionId :: v.recorded) := by
  cases saved with
  | none => exact List.sublist_cons_self _ _
  | some id => exact List.Sublist.refl _

theorem recorded_finishUpdate {f : Finishing} {saved : Option Uuid} :
    ((v.finishUpdate f now saved).recorded).Sublist (f.session.sessionId :: v.recorded) := by
  rw [recorded_eq discoveries_finishUpdate]
  exact recorded_createHistorical

theorem recorded_failStalled {saved : Uuid → Option Uuid} {stalled session : DiscoveryUpdatePayload}
    (h : v.getSession stalled.sessionId = some session) (hid : session.sessionId = stalled.sessionId) :
    ((v.failStalled now saved stalled).recorded).Sublist (stalled.sessionId :: v.recorded) := by
  simp only [failStalled, h, hid]
  refine recorded_createHistorical.trans ?_
  refine .trans (.cons_cons _ (List.Sublist.refl _)) ?_
  rw [recorded_eq]
  simp only [dropCancellation_frame, send_frame, forget_frame, dequeue_frame, removeSession_frame]

/-! ## What keeps the archive -/

/-- No row, and none of the removed sessions back. -/
theorem Archived.of_le (h : Archived v removed) (hrows : w.discoveries = v.discoveries)
    (hget : ∀ id ∈ removed, v.getSession id = none → w.getSession id = none) : Archived w removed where
  among := by
    rw [recorded_eq hrows]
    exact h.among
  once := by
    rw [recorded_eq hrows]
    exact h.once
  gone id hid := hget id hid (h.gone id hid)

theorem Archived.within (h : Archived v removed) (hrows : w.discoveries = v.discoveries) (hw : Within w v) :
    Archived w removed := by
  refine h.of_le hrows fun id _ hnone => Option.eq_none_iff_forall_ne_some.mpr fun session hs => ?_
  rw [hw.getSession id session hs] at hnone
  cases hnone

/-- A stored session is removed, with or without a row. -/
theorem Archived.record {id : Uuid} (h : Archived v removed) (hstored : (v.getSession id).isSome = true)
    (hrows : w.recorded.Sublist (id :: v.recorded)) (hid : w.getSession id = none)
    (hget : ∀ id, v.getSession id = none → w.getSession id = none) : Archived w (id :: removed) where
  among x hx := by
    rcases List.mem_cons.mp (hrows.subset hx) with rfl | hx
    · exact List.mem_cons_self
    · exact List.mem_cons_of_mem _ (h.among x hx)
  once := by
    refine hrows.nodup (List.nodup_cons.mpr ⟨fun hmem => ?_, h.once⟩)
    rw [h.gone id (h.among id hmem)] at hstored
    cases hstored
  gone x hx := by
    rcases List.mem_cons.mp hx with rfl | hx
    · exact hid
    · exact hget x (h.gone x hx)

theorem Archived.congr {removed' : List Uuid} (h : Archived v removed) (heq : ∀ id, id ∈ removed' ↔ id ∈ removed) :
    Archived v removed' where
  among id hid := (heq id).mpr (h.among id hid)
  once := h.once
  gone id hid := h.gone id ((heq id).mp hid)

end DiscoveryService

namespace Sessions

open DiscoveryService (Archived recorded)

/-- At most one row for each session, and no update brings a removed one back. -/
def OverOnce (s : State) (a : Action) (t : State) : Prop :=
  t.service.recorded.Nodup ∧
    match a with
    | .updateSession _ _ => ∀ id ∈ s.removed, t.service.getSession id = none ∧
        ∀ daemonId, id ∈ t.service.queue daemonId → id ∈ s.service.queue daemonId
    | _ => True

/-- A late update, of a session that is removed, is terminal and finds the
session's time stamp. -/
def LateIgnored (s : State) : Action → Prop
  | .updateSession _ update => update.sessionId ∈ s.removed →
      update.phase.isTerminal = true ∧ (s.service.lastUpdated update.sessionId).isSome = true
  | _ => True

instance (s : State) : (a : Action) → Decidable (LateIgnored s a)
  | .updateSession .. => inferInstanceAs (Decidable (_ → _ ∧ _))
  | .tick _ | .startSession .. | .finishUpdate _ | .cancelSession _ | .cleanupOldSessions _
  | .cleanupStalledSessions _ | .getPendingWork _ | .pullCancellation _ | .resume .. => .isTrue trivial

theorem mem_gone {v w : DiscoveryService} {ids : List Uuid} {id : Uuid} :
    id ∈ gone v w ids ↔ id ∈ ids ∧ (v.getSession id).isSome = true ∧ w.getSession id = none := by
  simp only [gone, List.mem_filter, Bool.and_eq_true, Option.isNone_iff_eq_none]

theorem archived_gone {v w : DiscoveryService} {removed ids : List Uuid} (h : Archived w removed) :
    Archived w (gone v w ids ++ removed) where
  among id hid := List.mem_append_right _ (h.among id hid)
  once := h.once
  gone id hid := by
    rcases List.mem_append.mp hid with hid | hid
    · exact (mem_gone.mp hid).2.2
    · exact h.gone id hid

/-- The third pass removes every session it records. -/
theorem archived_removeStalled {v : DiscoveryService} {now : DateTime} {saved : Uuid → Option Uuid}
    {stalled : List DiscoveryUpdatePayload} {removed : List Uuid} (hk : v.Keyed) (h : Archived v removed) :
    Archived (v.removeStalled now saved stalled)
      (gone v (v.removeStalled now saved stalled) (stalled.map (·.sessionId)) ++ removed) := by
  refine (DiscoveryService.removeStalled_induction
    (P := fun w => Within w v ∧ Archived w (gone v w (stalled.map (·.sessionId)) ++ removed)) hk
    ⟨.of_eq rfl rfl, archived_gone h⟩ (fun w x session hx hs hid hr ⟨hw, hA⟩ => ?_) fun w ⟨hw, hA⟩ => ?_).2
  · refine ⟨hr.within.trans hw, ?_⟩
    have hgone : (w.failStalled now saved x).getSession x.sessionId = none := by rw [hr.getSession, if_pos rfl]
    have hnone (id : Uuid) (hn : w.getSession id = none) : (w.failStalled now saved x).getSession id = none := by
      rw [hr.getSession, hn, ite_self]
    refine (hA.record (by rw [hs]; rfl) (DiscoveryService.recorded_failStalled hs hid) hgone hnone).congr
      fun id => ?_
    simp only [List.mem_append, List.mem_cons, mem_gone, hr.getSession]
    by_cases hidx : id = x.sessionId
    · have hv := hw.getSession _ session hs
      simp [hidx, hv, List.mem_map.mpr ⟨x, hx, rfl⟩]
    · simp [hidx]
  · exact ⟨.trans (v := w) (.of_eq rfl rfl) hw, hA.within rfl (.of_eq rfl rfl)⟩

variable {s t : State} {a : Action}

theorem archived_resumes {saved : Uuid → Option Uuid} {call : Call} (hB : Base s)
    (h : Archived s.service s.removed) (hs : Resumes s saved call t) : Archived t.service t.removed := by
  cases hs with
  | startRead => exact h
  | startQueue => exact h.of_le (by simp) fun id _ hn => by simpa using hn
  | cancelPending hf => exact archived_gone (h.within (by simp) DiscoveryService.removes_cancelPending.within)
  | cancelActive => exact h.within rfl (.of_eq rfl rfl)
  | request => exact h.within rfl (.of_eq rfl rfl)
  | removeStalled hf => exact archived_removeStalled hB.keyed h
  | workPick hf hwork => exact h
  | workNone => exact h
  | handOut hf =>
    refine h.of_le (by simp) fun id _ hn => ?_
    rw [DiscoveryService.getSession_transitionSessionToStarting, hn, Option.map_none, ite_self]

theorem archived_section (hB : Base s) (h : Archived s.service s.removed) (hlate : LateIgnored s a)
    (hs : Section s a t) : Archived t.service t.removed := by
  cases hs with
  | tick => exact h
  | skip => exact h
  | startSession hf hfresh =>
    refine h.of_le (by simp) fun id hid hn => ?_
    rw [DiscoveryService.getSession_setSession, if_neg, hn]
    rintro rfl
    exact (Fresh.of_mentions hfresh).removed hid
  | @updateSession sender update hf haccepts =>
    refine h.of_le (by simp) fun id hid hn => ?_
    rw [DiscoveryService.getSession_updateSession, if_neg, hn]
    rintro ⟨rfl, hignores⟩
    obtain ⟨hterm, hseen⟩ := hlate hid
    simp [DiscoveryService.ignores, hn, hterm, hseen] at hignores
  | @finishUpdate sender f saved hf =>
    obtain ⟨hstored, -⟩ := hB.finishing sender f hf
    refine h.record (by rw [hstored]; rfl) DiscoveryService.recorded_finishUpdate ?_ fun id hn => ?_
    · rw [DiscoveryService.getSession_finishUpdate, if_pos rfl]
    · rw [DiscoveryService.getSession_finishUpdate, hn, Option.map_none, ite_self, ite_self]
  | cancelSession hf hok hcall => exact h
  | cleanupOldSessions hf =>
    exact h.within (DiscoveryService.cleanupOldSessions_induction
      (P := fun v => v.discoveries = s.service.discoveries) hB.keyed rfl
      fun v id session _ _ _ hv => DiscoveryService.removeOld_frame.2.trans hv)
      (DiscoveryService.cleanupOldSessions_within hB.keyed)
  | cleanupStalledSessions hf hperm => exact h
  | getPendingWork hf hidle => exact h
  | pullCancellation => exact h.within rfl (.of_eq rfl rfl)
  | @resume i saved call t hcall hr =>
    have hB' : Base { s with calls := s.calls.eraseIdx i } := hB.of_getSession rfl rfl
    exact archived_resumes hB' h hr

/-! ## Late updates -/

theorem overOnce_of_lateIgnored (hB : Base s) (h : Archived s.service s.removed) (hlate : LateIgnored s a)
    (hs : step s a = some t) : OverOnce s a t := by
  have hA := archived_section hB h hlate (.of_step hs)
  refine ⟨hA.once, ?_⟩
  cases a with
  | updateSession sender update =>
    obtain ⟨-, -, rfl⟩ := step_updateSession hs
    refine fun id hid => ⟨hA.gone id hid, fun daemonId hq => ?_⟩
    rw [DiscoveryService.queue_updateSession] at hq
    split at hq
    · next hc =>
      rcases List.mem_append.mp hq with hq | hq
      · exact hq
      · obtain rfl := List.mem_singleton.mp hq
        obtain ⟨hterm, hseen⟩ := hlate hid
        simp [DiscoveryService.creates, DiscoveryService.ignores, hterm, hseen, h.gone _ hid] at hc
    · exact hq
  | _ => trivial

/-- A late update that is not dropped is stored. -/
theorem lateIgnored_of_overOnce (hs : step s a = some t) (hover : OverOnce s a t) : LateIgnored s a := by
  cases a with
  | updateSession sender update =>
    obtain ⟨-, -, rfl⟩ := step_updateSession hs
    intro hid
    have hnone := (hover.2 _ hid).1
    rw [DiscoveryService.getSession_updateSession] at hnone
    split at hnone
    · cases hnone
    · next hignores =>
      simp only [true_and, Bool.not_eq_false, DiscoveryService.ignores, Bool.and_eq_true] at hignores
      exact ⟨hignores.1.2, hignores.2⟩
  | _ => trivial

/-- **Over once.** A run keeps one row for each session and brings none back
exactly if every late update is terminal and finds the session's time stamp. -/
theorem overOnce_iff_lateIgnored (as : List Action) :
    Transition.Every step OverOnce {} as ↔ Transition.Along step LateIgnored {} as :=
  Transition.every_iff_along (I := fun s => Base s ∧ Archived s.service s.removed)
    (fun _ _ _ ⟨hB, hA⟩ hlate ht => ⟨hB.step ht, archived_section hB hA hlate (.of_step ht)⟩)
    (fun _ _ _ ⟨hB, hA⟩ hlate ht => overOnce_of_lateIgnored hB hA hlate ht)
    (fun _ _ _ _ ht hover => lateIgnored_of_overOnce ht hover)
    ⟨.init, .init⟩

/-- A finished session is reported as scanning once more, by a duplicate that
comes late, and finishes again. -/
theorem resurrected_by_late_update :
    ¬ Transition.Every step OverOnce {}
      [.updateSession ⟨.daemonPoll, 4, 5⟩ { sessionId := 7, daemonId := 4, networkId := 5, phase := .scanning },
        .updateSession ⟨.daemonPoll, 4, 5⟩ { sessionId := 7, daemonId := 4, networkId := 5, phase := .complete },
        .finishUpdate (some 1),
        .updateSession ⟨.daemonPoll, 4, 5⟩ { sessionId := 7, daemonId := 4, networkId := 5, phase := .scanning },
        .updateSession ⟨.daemonPoll, 4, 5⟩ { sessionId := 7, daemonId := 4, networkId := 5, phase := .complete },
        .finishUpdate (some 2)] := by
  rintro ⟨-, -, -, -, -, ⟨hrows, -⟩, -⟩
  exact absurd hrows (by decide)

end Sessions

end Netvisor
