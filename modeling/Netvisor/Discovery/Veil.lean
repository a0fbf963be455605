/-
What somebody can tell of the sessions who may access some of the networks, and
is not to learn the SNMP communities of the others: two session services that
look the same to them keep doing so, whatever is done to both.

A payload carries the credentials of its session. Nothing the service does
depends on them, and nothing it shows is put together from two payloads.
-/
import Mathlib.Data.List.InsertIdx
import Netvisor.Discovery.Handlers
import Netvisor.Discovery.ServiceFacts

namespace Netvisor

/-! ## Sanitized and veiled -/

/-- The discovery type without the communities, unless it is of one of the networks. -/
def DiscoveryType.veiled (networkIds : List Uuid) (networkId : Uuid) (t : DiscoveryType) : DiscoveryType :=
  if networkIds.contains networkId then t else t.sanitized

theorem DiscoveryType.veiled_of_mem {networkIds : List Uuid} {networkId : Uuid} {t : DiscoveryType}
    (h : networkIds.contains networkId = true) : t.veiled networkIds networkId = t := if_pos h

theorem DiscoveryType.veiled_of_not_mem {networkIds : List Uuid} {networkId : Uuid} {t : DiscoveryType}
    (h : ¬networkIds.contains networkId = true) : t.veiled networkIds networkId = t.sanitized := if_neg h

theorem DiscoveryType.display_veiled (networkIds : List Uuid) (networkId : Uuid) (t : DiscoveryType) :
    (t.veiled networkIds networkId).display = t.display := by
  unfold veiled
  split
  · rfl
  · cases t <;> rfl

namespace DiscoveryUpdatePayload

def veiled (networkIds : List Uuid) (p : DiscoveryUpdatePayload) : DiscoveryUpdatePayload :=
  { p with discoveryType := p.discoveryType.veiled networkIds p.networkId }

def sanitized (p : DiscoveryUpdatePayload) : DiscoveryUpdatePayload :=
  { p with discoveryType := p.discoveryType.sanitized }

theorem veiled_of_mem {networkIds : List Uuid} {p : DiscoveryUpdatePayload}
    (h : networkIds.contains p.networkId = true) : p.veiled networkIds = p := by
  unfold veiled
  rw [DiscoveryType.veiled_of_mem h]

theorem veiled_of_not_mem {networkIds : List Uuid} {p : DiscoveryUpdatePayload}
    (h : ¬networkIds.contains p.networkId = true) : p.veiled networkIds = p.sanitized := by
  unfold veiled
  rw [DiscoveryType.veiled_of_not_mem h]
  rfl

end DiscoveryUpdatePayload

def RunType.veiled (networkIds : List Uuid) (networkId : Uuid) : RunType → RunType
  | historical results =>
    historical { results with discoveryType := results.discoveryType.veiled networkIds networkId }
  | runType => runType

def RunType.sanitized : RunType → RunType
  | historical results => historical results.sanitized
  | runType => runType

def Discovery.sanitized (d : Discovery) : Discovery :=
  { d with
    base.discoveryType := d.base.discoveryType.sanitized
    base.runType := d.base.runType.sanitized }

def Discovery.veiled (networkIds : List Uuid) (d : Discovery) : Discovery :=
  { d with
    base.discoveryType := d.base.discoveryType.veiled networkIds d.base.networkId
    base.runType := d.base.runType.veiled networkIds d.base.networkId }

theorem Discovery.veiled_of_mem {networkIds : List Uuid} {d : Discovery}
    (h : networkIds.contains d.base.networkId = true) : d.veiled networkIds = d := by
  have hrun : d.base.runType.veiled networkIds d.base.networkId = d.base.runType := by
    unfold RunType.veiled
    split
    · next results hresults => rw [DiscoveryType.veiled_of_mem h, hresults]
    · rfl
  unfold Discovery.veiled
  rw [DiscoveryType.veiled_of_mem h, hrun]

theorem Discovery.veiled_of_not_mem {networkIds : List Uuid} {d : Discovery}
    (h : ¬networkIds.contains d.base.networkId = true) : d.veiled networkIds = d.sanitized := by
  unfold Discovery.veiled Discovery.sanitized
  rw [DiscoveryType.veiled_of_not_mem h]
  congr 2
  unfold RunType.veiled RunType.sanitized
  cases d.base.runType with
  | historical results =>
    simp only [DiscoveryType.veiled_of_not_mem h]
    rfl
  | _ => rfl

def Finishing.veiled (networkIds : List Uuid) (f : Finishing) : Finishing :=
  { f with session := f.session.veiled networkIds }

/-- What is picked from two lists is the same if it is veiled as it is. -/
theorem filter_eq_of_veiled {α : Type} {veil : α → α} {p : α → Bool} {l l' : List α}
    (hl : ∀ x ∈ l, p x = true → veil x = x) (hl' : ∀ x ∈ l', p x = true → veil x = x)
    (hp : ∀ x, p (veil x) = p x) (h : l.map veil = l'.map veil) : l.filter p = l'.filter p := by
  have hfilter (l : List α) (hl : ∀ x ∈ l, p x = true → veil x = x) : l.filter p = (l.map veil).filter p := by
    have hpicked : ∀ x ∈ l.filter p, veil x = x := fun x hx =>
      hl x (List.mem_filter.mp hx).1 (List.mem_filter.mp hx).2
    rw [List.filter_map, Function.comp_def]
    simp only [hp]
    exact (List.map_id'' (fun x => rfl) _).symm.trans (List.map_congr_left fun x hx => (hpicked x hx).symm)
  rw [hfilter l hl, hfilter l' hl', h]

namespace DiscoveryService

/-- The services look the same, apart from what they publish on the event bus. -/
structure Alike (networkIds : List Uuid) (s t : DiscoveryService) : Prop where
  sessions : Assoc.map (·.veiled networkIds) s.sessions = Assoc.map (·.veiled networkIds) t.sessions
  daemonSessions : s.daemonSessions = t.daemonSessions
  daemonPullCancellations : s.daemonPullCancellations = t.daemonPullCancellations
  sessionLastUpdated : s.sessionLastUpdated = t.sessionLastUpdated
  discoveries : s.discoveries.map (·.veiled networkIds) = t.discoveries.map (·.veiled networkIds)
  updates : s.updates.map (·.veiled networkIds) = t.updates.map (·.veiled networkIds)

namespace Alike

variable {networkIds : List Uuid} {s t : DiscoveryService} {p q : DiscoveryUpdatePayload} {daemonId sessionId : Uuid}
  {now : DateTime} {saved : Option Uuid}

/-! ## Reading -/

theorem getSession (h : Alike networkIds s t) (sessionId : Uuid) :
    (s.getSession sessionId).map (·.veiled networkIds) = (t.getSession sessionId).map (·.veiled networkIds) := by
  have hlookup := congrArg (AList.lookup sessionId) h.sessions
  rw [Assoc.lookup_map, Assoc.lookup_map] at hlookup
  exact hlookup

/-- A session is in neither, or looks the same in both. -/
theorem getSession_cases (h : Alike networkIds s t) (sessionId : Uuid) :
    (s.getSession sessionId = none ∧ t.getSession sessionId = none) ∨
      ∃ p q, s.getSession sessionId = some p ∧ t.getSession sessionId = some q ∧
        p.veiled networkIds = q.veiled networkIds := by
  have hget := h.getSession sessionId
  cases hs : s.getSession sessionId with
  | none =>
    rw [hs, Option.map_none] at hget
    exact .inl ⟨rfl, Option.map_eq_none_iff.mp hget.symm⟩
  | some p =>
    rw [hs, Option.map_some] at hget
    obtain ⟨q, hq, heq⟩ := Option.map_eq_some_iff.mp hget.symm
    exact .inr ⟨p, q, rfl, hq, heq.symm⟩

theorem queue (h : Alike networkIds s t) : s.queue daemonId = t.queue daemonId := by
  unfold DiscoveryService.queue
  rw [h.daemonSessions]

theorem isSome_getSession (h : Alike networkIds s t) (sessionId : Uuid) :
    (s.getSession sessionId).isSome = (t.getSession sessionId).isSome := by
  rcases h.getSession_cases sessionId with ⟨hs, ht⟩ | ⟨p, q, hs, ht, -⟩ <;> simp only [hs, ht, Option.isSome_some]

theorem isActive (h : Alike networkIds s t) (sessionId : Uuid) : s.isActive sessionId = t.isActive sessionId := by
  unfold DiscoveryService.isActive
  rcases h.getSession_cases sessionId with ⟨hs, ht⟩ | ⟨p, q, hs, ht, heq⟩
  · rw [hs, ht]
  · have hphase : p.phase = q.phase := (congrArg DiscoveryUpdatePayload.phase heq :)
    rw [hs, ht]
    dsimp only
    rw [hphase]

theorem hasActiveSessionForDaemon (h : Alike networkIds s t) :
    s.hasActiveSessionForDaemon daemonId = t.hasActiveSessionForDaemon daemonId := by
  unfold DiscoveryService.hasActiveSessionForDaemon
  rw [h.queue, funext h.isActive]

theorem getSessionsForDaemon (h : Alike networkIds s t) (daemonId : Uuid) :
    (s.getSessionsForDaemon daemonId).map (·.veiled networkIds) =
      (t.getSessionsForDaemon daemonId).map (·.veiled networkIds) := by
  have hpending (l : List DiscoveryUpdatePayload) : (l.filter (·.phase == .pending)).map (·.veiled networkIds) =
      (l.map (·.veiled networkIds)).filter (·.phase == .pending) := by
    rw [List.filter_map]
    rfl
  unfold DiscoveryService.getSessionsForDaemon
  rw [hpending, hpending, List.map_filterMap, List.map_filterMap, h.queue]
  have hget : (fun id => (s.getSession id).map (·.veiled networkIds)) =
      fun id => (t.getSession id).map (·.veiled networkIds) := funext h.getSession
  rw [hget]

/-! ## Writing one map -/

theorem setSession (h : Alike networkIds s t) (hp : p.veiled networkIds = q.veiled networkIds) :
    Alike networkIds (s.setSession p) (t.setSession q) := by
  have hid : p.sessionId = q.sessionId := (congrArg DiscoveryUpdatePayload.sessionId hp :)
  refine { h with sessions := ?_ }
  dsimp only [DiscoveryService.setSession]
  rw [Assoc.map_insert, Assoc.map_insert, h.sessions, hp, hid]

theorem removeSession (h : Alike networkIds s t) (sessionId : Uuid) :
    Alike networkIds (s.removeSession sessionId) (t.removeSession sessionId) := by
  refine { h with sessions := ?_ }
  dsimp only [DiscoveryService.removeSession]
  rw [Assoc.map_erase, Assoc.map_erase, h.sessions]

theorem setPhase (h : Alike networkIds s t) (sessionId : Uuid) (phase : DiscoveryPhase) :
    Alike networkIds (s.setPhase sessionId phase) (t.setPhase sessionId phase) := by
  have hmodify (m : Assoc Uuid DiscoveryUpdatePayload) :
      Assoc.map (·.veiled networkIds) (m.modify sessionId fun r => { r with phase }) =
        (Assoc.map (·.veiled networkIds) m).modify sessionId fun r => { r with phase } :=
        Assoc.map_modify fun _ => rfl
  refine { h with sessions := ?_ }
  dsimp only [DiscoveryService.setPhase]
  rw [hmodify, hmodify, h.sessions]

theorem enqueue (h : Alike networkIds s t) (daemonId sessionId : Uuid) :
    Alike networkIds (s.enqueue daemonId sessionId) (t.enqueue daemonId sessionId) := by
  refine { h with daemonSessions := ?_ }
  dsimp only [DiscoveryService.enqueue]
  rw [h.queue, h.daemonSessions]

theorem dequeue (h : Alike networkIds s t) (daemonId sessionId : Uuid) :
    Alike networkIds (s.dequeue daemonId sessionId) (t.dequeue daemonId sessionId) :=
  { h with daemonSessions := congrArg (Assoc.modify daemonId _) h.daemonSessions }

theorem setCancellation (h : Alike networkIds s t) (daemonId sessionId : Uuid) :
    Alike networkIds (s.setCancellation daemonId sessionId) (t.setCancellation daemonId sessionId) :=
  { h with daemonPullCancellations := congrArg (AList.insert daemonId _) h.daemonPullCancellations }

theorem clearCancellation (h : Alike networkIds s t) (daemonId : Uuid) :
    Alike networkIds (s.clearCancellation daemonId) (t.clearCancellation daemonId) :=
  { h with daemonPullCancellations := congrArg (AList.erase daemonId) h.daemonPullCancellations }

theorem touch (h : Alike networkIds s t) (sessionId : Uuid) (now : DateTime) :
    Alike networkIds (s.touch sessionId now) (t.touch sessionId now) :=
  { h with sessionLastUpdated := congrArg (AList.insert sessionId _) h.sessionLastUpdated }

theorem forget (h : Alike networkIds s t) (sessionId : Uuid) : Alike networkIds (s.forget sessionId)
    (t.forget sessionId) :=
  { h with sessionLastUpdated := congrArg (AList.erase sessionId) h.sessionLastUpdated }

theorem publishDiscovery (h : Alike networkIds s t) (p q : DiscoveryUpdatePayload) :
    Alike networkIds (s.publishDiscovery p) (t.publishDiscovery q) :=
  { h with }

theorem send (h : Alike networkIds s t) (hp : p.veiled networkIds = q.veiled networkIds) :
    Alike networkIds (s.send p) (t.send q) := by
  refine { h with updates := ?_ }
  dsimp only [DiscoveryService.send]
  rw [List.map_cons, List.map_cons, h.updates, hp]

theorem createHistorical (h : Alike networkIds s t) (hp : p.veiled networkIds = q.veiled networkIds) (name : String)
    (now : DateTime) (saved : Option Uuid) :
    Alike networkIds (s.createHistorical p name now saved) (t.createHistorical q name now saved) := by
  cases saved with
  | none => exact h
  | some id =>
    -- the row is put together from the session, whose network it takes
    have hrow (p : DiscoveryUpdatePayload) : Discovery.veiled networkIds
          ⟨id, p.startedAt.getD now, now, ⟨p.discoveryType, .historical p, name, p.daemonId, p.networkId, []⟩⟩ =
        ⟨id, (p.veiled networkIds).startedAt.getD now, now, ⟨(p.veiled networkIds).discoveryType,
          .historical (p.veiled networkIds), name, (p.veiled networkIds).daemonId, (p.veiled networkIds).networkId,
          []⟩⟩ := rfl
    refine { h with discoveries := ?_ }
    dsimp only [DiscoveryService.createHistorical]
    rw [List.map_cons, List.map_cons, hrow, hrow, hp, h.discoveries]

/-! ## Starting and updating -/

theorem startQueued (h : Alike networkIds s t) (hp : p.veiled networkIds = q.veiled networkIds) (running : Bool) :
    Alike networkIds (s.startQueued p running) (t.startQueued q running) := by
  have hdaemon : p.daemonId = q.daemonId := (congrArg DiscoveryUpdatePayload.daemonId hp :)
  have hid : p.sessionId = q.sessionId := (congrArg DiscoveryUpdatePayload.sessionId hp :)
  unfold DiscoveryService.startQueued
  rw [hdaemon, hid]
  cases running with
  | true => exact (h.enqueue _ _).send hp
  | false => exact ((h.enqueue _ _).publishDiscovery _ _).send hp

/-- Overwriting a session leaves the same, and the same to finish. -/
theorem applyUpdate (h : Alike networkIds s t) (hp : p.veiled networkIds = q.veiled networkIds)
    {old old' : DiscoveryUpdatePayload} (hold : old.veiled networkIds = old'.veiled networkIds) :
    Alike networkIds (s.applyUpdate p old).1 (t.applyUpdate q old').1 ∧
      (s.applyUpdate p old).2.map (·.veiled networkIds) = (t.applyUpdate q old').2.map (·.veiled networkIds) := by
  have hphase : p.phase = q.phase := (congrArg DiscoveryUpdatePayload.phase hp :)
  have hdaemon : old.daemonId = old'.daemonId := (congrArg DiscoveryUpdatePayload.daemonId hold :)
  have hnetwork : old.networkId = old'.networkId := (congrArg DiscoveryUpdatePayload.networkId hold :)
  unfold DiscoveryService.applyUpdate
  rw [hphase, hdaemon, hnetwork]
  split
  · refine ⟨((h.send hp).setSession hp).publishDiscovery _ _, ?_⟩
    simp only [Option.map_some, Finishing.veiled, hp]
  · exact ⟨(h.send hp).setSession hp, rfl⟩

/-- Both drop an update, or neither does. -/
theorem ignores (h : Alike networkIds s t) (hp : p.sanitized = q.sanitized) : s.ignores p = t.ignores q := by
  have hid : p.sessionId = q.sessionId := (congrArg DiscoveryUpdatePayload.sessionId hp :)
  have hphase : p.phase = q.phase := (congrArg DiscoveryUpdatePayload.phase hp :)
  unfold DiscoveryService.ignores DiscoveryService.lastUpdated
  rw [← Option.not_isSome, ← Option.not_isSome, h.isSome_getSession, h.sessionLastUpdated, hid, hphase]

/-- An update that is not dropped has to look the same. -/
theorem updateSession (h : Alike networkIds s t) (hp : p.sanitized = q.sanitized)
    (hveiled : s.ignores p = false → p.veiled networkIds = q.veiled networkIds) (now : DateTime) :
    Alike networkIds (s.updateSession p now).1 (t.updateSession q now).1 ∧
      (s.updateSession p now).2.map (·.veiled networkIds) = (t.updateSession q now).2.map (·.veiled networkIds) := by
  have hid : p.sessionId = q.sessionId := (congrArg DiscoveryUpdatePayload.sessionId hp :)
  have hdaemon : p.daemonId = q.daemonId := (congrArg DiscoveryUpdatePayload.daemonId hp :)
  have hphase : p.phase = q.phase := (congrArg DiscoveryUpdatePayload.phase hp :)
  have htouch := h.touch q.sessionId now
  have hseen : s.lastUpdated q.sessionId = t.lastUpdated q.sessionId := by
    unfold DiscoveryService.lastUpdated
    rw [h.sessionLastUpdated]
  unfold DiscoveryService.ignores at hveiled
  rw [hid, hphase, hseen] at hveiled
  unfold DiscoveryService.updateSession
  rw [hid, hdaemon, hphase, hseen]
  dsimp only
  rcases htouch.getSession_cases q.sessionId with ⟨hs, ht⟩ | ⟨old, old', hs, ht, hold⟩
  · have hnone : (s.getSession q.sessionId).isNone = true := by
      rw [Option.isNone_iff_eq_none]
      exact hs
    rw [hs, ht]
    dsimp only
    split
    · exact ⟨htouch, rfl⟩
    · next hkept =>
      have hsame : p.veiled networkIds = q.veiled networkIds := by
        apply hveiled
        rw [hnone, Bool.true_and]
        exact Bool.eq_false_iff.mpr hkept
      exact ((htouch.enqueue _ _).setSession hsame).applyUpdate hsame hsame
  · have hsome : (s.getSession q.sessionId).isNone = false := by
      rw [Option.isNone_eq_false_iff, Option.isSome_iff_exists]
      exact ⟨old, hs⟩
    rw [hs, ht]
    exact htouch.applyUpdate (hveiled (by rw [hsome, Bool.false_and, Bool.false_and])) hold

/-! ## Finishing -/

theorem advanceQueue (h : Alike networkIds s t) (daemonId : Uuid) :
    Alike networkIds (s.advanceQueue daemonId).1 (t.advanceQueue daemonId).1 ∧
      (s.advanceQueue daemonId).2.map (·.veiled networkIds) =
      (t.advanceQueue daemonId).2.map (·.veiled networkIds) := by
  unfold DiscoveryService.advanceQueue
  rw [h.queue]
  split
  · exact ⟨h.setPhase _ _, h.getSession _⟩
  · exact ⟨h, rfl⟩

theorem finishSession (h : Alike networkIds s t) (hp : p.veiled networkIds = q.veiled networkIds) (now : DateTime)
    (saved : Option Uuid) :
    Alike networkIds (s.finishSession p now saved).1 (t.finishSession q now saved).1 ∧
      (s.finishSession p now saved).2.map (·.veiled networkIds) =
        (t.finishSession q now saved).2.map (·.veiled networkIds) := by
  have hid : p.sessionId = q.sessionId := (congrArg DiscoveryUpdatePayload.sessionId hp :)
  have hdaemon : p.daemonId = q.daemonId := (congrArg DiscoveryUpdatePayload.daemonId hp :)
  have hname : p.discoveryType.display = q.discoveryType.display := by
    have hdisplay : (p.veiled networkIds).discoveryType.display = (q.veiled networkIds).discoveryType.display := by
      rw [hp]
    exact (DiscoveryType.display_veiled ..).symm.trans (hdisplay.trans (DiscoveryType.display_veiled ..))
  unfold DiscoveryService.finishSession
  rw [hid, hdaemon, hname]
  have hrecorded := (h.clearCancellation q.daemonId).createHistorical hp q.discoveryType.display now saved
  obtain ⟨hservice, hnext⟩ := (hrecorded.dequeue q.daemonId q.sessionId).advanceQueue q.daemonId
  exact ⟨hservice.removeSession q.sessionId, hnext⟩

theorem finishUpdate (h : Alike networkIds s t) {f f' : Finishing} (hf : f.veiled networkIds = f'.veiled networkIds)
    (now : DateTime) (saved : Option Uuid) :
    Alike networkIds (s.finishUpdate f now saved) (t.finishUpdate f' now saved) := by
  have hp : f.session.veiled networkIds = f'.session.veiled networkIds := (congrArg Finishing.session hf :)
  obtain ⟨hservice, -⟩ := h.finishSession hp now saved
  unfold DiscoveryService.finishUpdate
  generalize s.finishSession f.session now saved = finished at hservice
  generalize t.finishSession f'.session now saved = finished' at hservice
  obtain ⟨s', next⟩ := finished
  obtain ⟨t', next'⟩ := finished'
  -- the next session is only announced
  cases next <;> cases next' <;> exact { hservice with }

/-! ## Cancelling -/

theorem cancelPending (h : Alike networkIds s t) (hp : p.veiled networkIds = q.veiled networkIds) :
    Alike networkIds (s.cancelPending p) (t.cancelPending q) := by
  have hid : p.sessionId = q.sessionId := (congrArg DiscoveryUpdatePayload.sessionId hp :)
  have hdaemon : p.daemonId = q.daemonId := (congrArg DiscoveryUpdatePayload.daemonId hp :)
  unfold DiscoveryService.cancelPending
  rw [hid, hdaemon]
  exact ((h.removeSession _).dequeue _ _).send hp

theorem requestCancellation (h : Alike networkIds s t) (hdaemon : p.daemonId = q.daemonId)
    (hid : p.sessionId = q.sessionId) :
    Alike networkIds (s.requestCancellation p) (t.requestCancellation q) := by
  unfold DiscoveryService.requestCancellation
  rw [hid, hdaemon]
  exact (h.publishDiscovery _ _).setCancellation _ _

/-- There are sessions to act on that look the same, or there is none in either. -/
theorem cancelSession_cases (h : Alike networkIds s t) (sessionId : Uuid) :
    (∃ p q, s.cancelSession sessionId = .ok (some p) ∧ t.cancelSession sessionId = .ok (some q) ∧
        p.veiled networkIds = q.veiled networkIds) ∨
      (∀ p, s.cancelSession sessionId ≠ .ok (some p)) ∧ ∀ q, t.cancelSession sessionId ≠ .ok (some q) := by
  unfold DiscoveryService.cancelSession
  rcases h.getSession_cases sessionId with ⟨hs, ht⟩ | ⟨p, q, hs, ht, heq⟩
  · rw [hs, ht]
    exact .inr ⟨by simp, by simp⟩
  · have hphase : p.phase = q.phase := (congrArg DiscoveryUpdatePayload.phase heq :)
    rw [hs, ht]
    dsimp only
    rw [hphase]
    cases q.phase with
    | pending | started | scanning => exact .inl ⟨p, q, rfl, rfl, heq⟩
    | starting | complete | failed | cancelled => exact .inr ⟨by simp, by simp⟩

/-! ## Cleaning up -/

theorem oldSessions (h : Alike networkIds s t) (cutoff : DateTime) : s.oldSessions cutoff = t.oldSessions cutoff := by
  have hveiled (s : DiscoveryService) : s.oldSessions cutoff =
      ((Assoc.map (·.veiled networkIds) s.sessions).entries.filter fun e =>
        e.2.finishedAt.any fun finishedAt => decide (finishedAt < cutoff)).map (·.1) := by
    unfold DiscoveryService.oldSessions Assoc.map
    rw [List.filter_map, List.map_map]
    refine congrArg (List.map _) (List.filter_congr fun e _ => ?_)
    change _ = Option.any _ e.2.finishedAt
    cases e.2.finishedAt <;> rfl
  rw [hveiled s, hveiled t, h.sessions]

theorem removeOld (h : Alike networkIds s t) (sessionId : Uuid) :
    Alike networkIds (s.removeOld sessionId) (t.removeOld sessionId) := by
  unfold DiscoveryService.removeOld
  rcases h.getSession_cases sessionId with ⟨hs, ht⟩ | ⟨p, q, hs, ht, heq⟩
  · rw [hs, ht]
    exact h
  · have hid : p.sessionId = q.sessionId := (congrArg DiscoveryUpdatePayload.sessionId heq :)
    have hdaemon : p.daemonId = q.daemonId := (congrArg DiscoveryUpdatePayload.daemonId heq :)
    rw [hs, ht]
    dsimp only
    rw [hid, hdaemon]
    exact ((h.removeSession _).clearCancellation _).dequeue _ _

theorem cleanupOldSessions (h : Alike networkIds s t) (now : DateTime) (maxAgeHours : Int) :
    Alike networkIds (s.cleanupOldSessions now maxAgeHours) (t.cleanupOldSessions now maxAgeHours) := by
  unfold DiscoveryService.cleanupOldSessions
  rw [h.oldSessions]
  exact List.foldl_rel h fun sessionId _ _ _ h => h.removeOld sessionId

theorem dropCancellation (h : Alike networkIds s t) (daemonId sessionId : Uuid) :
    Alike networkIds (s.dropCancellation daemonId sessionId) (t.dropCancellation daemonId sessionId) := by
  unfold DiscoveryService.dropCancellation DiscoveryService.cancellation
  rw [h.daemonPullCancellations]
  split
  · split
    · exact h.clearCancellation daemonId
    · exact h
  · exact h

/-- Of a stalled session only the id is used. -/
theorem failStalled (h : Alike networkIds s t) (hid : p.sessionId = q.sessionId) (now : DateTime)
    (saved : Uuid → Option Uuid) : Alike networkIds (s.failStalled now saved p) (t.failStalled now saved q) := by
  unfold DiscoveryService.failStalled
  rw [hid]
  rcases h.getSession_cases q.sessionId with ⟨hs, ht⟩ | ⟨session, session', hs, ht, heq⟩
  · rw [hs, ht]
    exact h
  · have hown : session.sessionId = session'.sessionId := (congrArg DiscoveryUpdatePayload.sessionId heq :)
    have hdaemon : session.daemonId = session'.daemonId := (congrArg DiscoveryUpdatePayload.daemonId heq :)
    have hfailed (message : String) :
        DiscoveryUpdatePayload.veiled networkIds
            { session with phase := .failed, error := some message, finishedAt := some now } =
          DiscoveryUpdatePayload.veiled networkIds
            { session' with phase := .failed, error := some message, finishedAt := some now } :=
      (congrArg (fun r : DiscoveryUpdatePayload =>
        { r with phase := .failed, error := some message, finishedAt := some now }) heq :)
    rw [hs, ht]
    dsimp only
    rw [hown, hdaemon] at hfailed ⊢
    have hremoved := ((h.removeSession q.sessionId).dequeue session'.daemonId session'.sessionId).forget session'.sessionId
    exact ((hremoved.send (hfailed _)).dropCancellation _ _).createHistorical (hfailed _) _ _ _

theorem evictTombstones (h : Alike networkIds s t) (now : DateTime) :
    Alike networkIds (s.evictTombstones now) (t.evictTombstones now) := by
  refine { h with sessionLastUpdated := ?_ }
  dsimp only [DiscoveryService.evictTombstones]
  rw [h.sessionLastUpdated]
  simp only [h.isSome_getSession]

theorem removeStalled (h : Alike networkIds s t) {stalled stalled' : List DiscoveryUpdatePayload}
    (hids : stalled.map (·.sessionId) = stalled'.map (·.sessionId)) (now : DateTime) (saved : Uuid → Option Uuid) :
    Alike networkIds (s.removeStalled now saved stalled) (t.removeStalled now saved stalled') := by
  refine Alike.evictTombstones ?_ now
  induction stalled generalizing s t stalled' with
  | nil =>
    rw [List.map_nil, eq_comm, List.map_eq_nil_iff] at hids
    rw [hids]
    exact h
  | cons p stalled ih =>
    cases stalled' with
    | nil => cases hids
    | cons q stalled' =>
      rw [List.map_cons, List.map_cons, List.cons.injEq] at hids
      exact ih (h.failStalled hids.1 now saved) hids.2

/-! ## Requests of daemons -/

theorem transitionSessionToStarting (h : Alike networkIds s t) (sessionId : Uuid) :
    Alike networkIds (s.transitionSessionToStarting sessionId) (t.transitionSessionToStarting sessionId) := by
  unfold DiscoveryService.transitionSessionToStarting
  rcases h.getSession_cases sessionId with ⟨hs, ht⟩ | ⟨p, q, hs, ht, heq⟩
  · rw [hs, ht]
    exact h
  · have hphase : p.phase = q.phase := (congrArg DiscoveryUpdatePayload.phase heq :)
    rw [hs, ht]
    dsimp only
    rw [hphase]
    split
    · exact h.setPhase sessionId .starting
    · exact h

theorem pullCancellationForDaemon (h : Alike networkIds s t) (daemonId : Uuid) :
    Alike networkIds (s.pullCancellationForDaemon daemonId).2 (t.pullCancellationForDaemon daemonId).2 :=
  h.clearCancellation daemonId

/-! ## Rows -/

theorem getById (h : Alike networkIds s t) (id : Uuid) :
    (s.getById id).map (·.veiled networkIds) = (t.getById id).map (·.veiled networkIds) := by
  have hveiled (s : DiscoveryService) : (s.getById id).map (·.veiled networkIds) =
      (s.discoveries.map (·.veiled networkIds)).find? fun d => d.id == id := by
    rw [List.find?_map]
    rfl
  rw [hveiled s, hveiled t, h.discoveries]

theorem updateRow (h : Alike networkIds s t) {d d' : Discovery} (hd : d.veiled networkIds = d'.veiled networkIds) :
    Alike networkIds (s.updateRow d) (t.updateRow d') := by
  have hveiled (s : DiscoveryService) (d : Discovery) : (s.updateRow d).discoveries.map (·.veiled networkIds) =
      (s.discoveries.map (·.veiled networkIds)).map fun row =>
        if row.id == (d.veiled networkIds).id then d.veiled networkIds else row := by
    simp only [DiscoveryService.updateRow, List.map_map]
    refine List.map_congr_left fun row _ => ?_
    simp only [Function.comp_apply]
    split
    · next heq => exact (if_pos heq).symm
    · next hne => exact (if_neg hne).symm
  exact { h with discoveries := by rw [hveiled, hveiled, h.discoveries, hd] }

theorem storeRow (h : Alike networkIds s t) {d d' : Discovery} (hd : d.veiled networkIds = d'.veiled networkIds) :
    Alike networkIds (s.storeRow d) (t.storeRow d') := by
  have hid : d.id = d'.id := (congrArg Discovery.id hd :)
  have hget := h.getById d'.id
  unfold DiscoveryService.storeRow
  rw [hid]
  cases hs : s.getById d'.id with
  | none =>
    rw [hs, Option.map_none, eq_comm, Option.map_eq_none_iff] at hget
    rw [hget]
    refine { h with discoveries := ?_ }
    dsimp only
    rw [List.map_cons, List.map_cons, hd, h.discoveries]
  | some row =>
    rw [hs, Option.map_some, eq_comm, Option.map_eq_some_iff] at hget
    obtain ⟨row', ht, -⟩ := hget
    rw [ht]
    exact h.updateRow hd

theorem deleteRow (h : Alike networkIds s t) (id : Uuid) : Alike networkIds (s.deleteRow id) (t.deleteRow id) := by
  have hveiled (s : DiscoveryService) : (s.deleteRow id).discoveries.map (·.veiled networkIds) =
      (s.discoveries.map (·.veiled networkIds)).filter fun row => row.id != id := by
    rw [List.filter_map]
    rfl
  exact { h with discoveries := by rw [hveiled, hveiled, h.discoveries] }

theorem updateDiscovery (h : Alike networkIds s t) {d d' : Discovery}
    (hd : d.veiled networkIds = d'.veiled networkIds) :
    (∃ e, s.updateDiscovery d = .error e ∧ t.updateDiscovery d' = .error e) ∨
      ∃ s' t', s.updateDiscovery d = .ok s' ∧ t.updateDiscovery d' = .ok t' ∧ Alike networkIds s' t' := by
  have hid : d.id = d'.id := (congrArg Discovery.id hd :)
  have hname : d.base.name = d'.base.name := (congrArg (fun d : Discovery => d.base.name) hd :)
  have hget := h.getById d'.id
  unfold DiscoveryService.updateDiscovery
  rw [hid]
  cases hs : s.getById d'.id with
  | none =>
    rw [hs, Option.map_none, eq_comm, Option.map_eq_none_iff] at hget
    refine .inl ⟨_, rfl, ?_⟩
    simp only [hget, toString, hid, hname]
  | some row =>
    rw [hs, Option.map_some, eq_comm, Option.map_eq_some_iff] at hget
    obtain ⟨row', ht, -⟩ := hget
    rw [ht]
    exact .inr ⟨_, _, rfl, rfl, h.updateRow hd⟩

end Alike

end DiscoveryService

/-! ## The sessions -/

namespace Sessions

/-- A cleanup uses only the ids of its sessions, and any observer may know these. -/
def Call.veiled (networkIds : List Uuid) : Call → Call
  | startRead session => startRead (session.veiled networkIds)
  | startQueue session running => startQueue (session.veiled networkIds) running
  | cancelPending cancelled => cancelPending (cancelled.veiled networkIds)
  | cancelActive cancelled => cancelActive (cancelled.veiled networkIds)
  | cleanupStalled now stalled requests =>
    cleanupStalled now (stalled.map (·.sanitized)) (requests.map (·.sanitized))
  | workCheck daemonId => workCheck daemonId
  | workPick daemonId work => workPick daemonId (work.veiled networkIds)

/-- The communities taken out of what a section is given. -/
def Action.sanitized : Action → Action
  | updateSession sender update => updateSession sender update.sanitized
  | cleanupStalledSessions stalled => cleanupStalledSessions (stalled.map (·.sanitized))
  | a => a

namespace State

/-- The states look the same, apart from what is history. -/
structure Alike (networkIds : List Uuid) (s t : State) : Prop where
  service : s.service.Alike networkIds t.service
  now : s.now = t.now
  finishing : s.finishing.map (·.2.veiled networkIds) = t.finishing.map (·.2.veiled networkIds)
  calls : s.calls.map (·.veiled networkIds) = t.calls.map (·.veiled networkIds)

namespace Alike

variable {networkIds : List Uuid} {s t s' t' : State}

/-- One more call in both. -/
theorem push (h : Alike networkIds s t) {c c' : Call} (hc : c.veiled networkIds = c'.veiled networkIds) :
    Alike networkIds { s with calls := c :: s.calls } { t with calls := c' :: t.calls } :=
  { h with calls := by rw [List.map_cons, List.map_cons, hc, h.calls] }

theorem resume (h : Alike networkIds s t) {saved : Uuid → Option Uuid} {c c' : Call}
    (hc : c.veiled networkIds = c'.veiled networkIds) (hs : Sessions.resume s saved c = some s')
    (ht : Sessions.resume t saved c' = some t') : Alike networkIds s' t' := by
  cases c with
  | startRead session =>
    cases c' with
    | startRead session' =>
      have hp : session.veiled networkIds = session'.veiled networkIds := by injection hc
      have hdaemon : session.daemonId = session'.daemonId := (congrArg DiscoveryUpdatePayload.daemonId hp :)
      cases hs
      cases ht
      refine h.push ?_
      simp only [Call.veiled, hp, h.service.queue, hdaemon]
    | _ => cases hc
  | startQueue session running =>
    cases c' with
    | startQueue session' running' =>
      injection hc with hp hrunning
      cases hs
      cases ht
      rw [hrunning]
      exact { h with service := h.service.startQueued hp running' }
    | _ => cases hc
  | cancelPending cancelled =>
    cases c' with
    | cancelPending cancelled' =>
      have hp : cancelled.veiled networkIds = cancelled'.veiled networkIds := by injection hc
      simp only [Sessions.resume] at hs ht
      split at hs <;> cases hs
      split at ht <;> cases ht
      exact { h with service := h.service.cancelPending hp }
    | _ => cases hc
  | cancelActive cancelled =>
    cases c' with
    | cancelActive cancelled' =>
      have hp : cancelled.veiled networkIds = cancelled'.veiled networkIds := by injection hc
      have hdaemon : cancelled.daemonId = cancelled'.daemonId := (congrArg DiscoveryUpdatePayload.daemonId hp :)
      have hid : cancelled.sessionId = cancelled'.sessionId := (congrArg DiscoveryUpdatePayload.sessionId hp :)
      cases hs
      cases ht
      exact { h with service := h.service.requestCancellation hdaemon hid }
    | _ => cases hc
  | cleanupStalled now stalled requests =>
    cases c' with
    | cleanupStalled now' stalled' requests' =>
      injection hc with hnow hstalled hrequests
      cases requests with
      | nil =>
        rw [List.map_nil, eq_comm, List.map_eq_nil_iff] at hrequests
        rw [hrequests] at ht
        have hids : stalled.map (·.sessionId) = stalled'.map (·.sessionId) := by
          have := congrArg (List.map DiscoveryUpdatePayload.sessionId) hstalled
          rw [List.map_map, List.map_map] at this
          exact this
        simp only [Sessions.resume] at hs ht
        split at hs <;> cases hs
        split at ht <;> cases ht
        rw [hnow]
        exact { h with service := h.service.removeStalled hids now' saved }
      | cons session requests =>
        cases requests' with
        | nil => cases hrequests
        | cons session' requests' =>
          rw [List.map_cons, List.map_cons, List.cons.injEq] at hrequests
          have hdaemon : session.daemonId = session'.daemonId :=
            (congrArg DiscoveryUpdatePayload.daemonId hrequests.1 :)
          have hid : session.sessionId = session'.sessionId :=
            (congrArg DiscoveryUpdatePayload.sessionId hrequests.1 :)
          cases hs
          cases ht
          refine { h with service := h.service.requestCancellation hdaemon hid, calls := ?_ }
          rw [List.map_cons, List.map_cons, h.calls]
          simp only [Call.veiled, hnow, hstalled, hrequests.2]
    | _ => cases hc
  | workCheck daemonId =>
    cases c' with
    | workCheck daemonId' =>
      injection hc with hdaemon
      have hwork := h.service.getSessionsForDaemon daemonId'
      simp only [Sessions.resume] at hs ht
      split at hs
      · cases hs
      split at ht
      · cases ht
      rw [hdaemon] at hs
      generalize s.service.getSessionsForDaemon daemonId' = pending at hs hwork
      generalize t.service.getSessionsForDaemon daemonId' = pending' at ht hwork
      cases pending with
      | nil =>
        rw [List.map_nil, eq_comm, List.map_eq_nil_iff] at hwork
        subst hwork
        cases hs
        cases ht
        exact h
      | cons work pending =>
        cases pending' with
        | nil => cases hwork
        | cons work' pending' =>
          rw [List.map_cons, List.map_cons, List.cons.injEq] at hwork
          cases hs
          cases ht
          refine h.push ?_
          rw [Call.veiled, Call.veiled, hwork.1]
    | _ => cases hc
  | workPick daemonId work =>
    cases c' with
    | workPick daemonId' work' =>
      injection hc with hdaemon hp
      have hid : work.sessionId = work'.sessionId := (congrArg DiscoveryUpdatePayload.sessionId hp :)
      simp only [Sessions.resume] at hs ht
      split at hs <;> cases hs
      split at ht <;> cases ht
      rw [hid]
      exact { h with service := h.service.transitionSessionToStarting work'.sessionId }
    | _ => cases hc

/-- A session is stored that looks the same. -/
theorem store (h : Alike networkIds s t) {p q : DiscoveryUpdatePayload}
    (hp : p.veiled networkIds = q.veiled networkIds) :
    Alike networkIds { s with service := s.service.setSession p, calls := .startRead p :: s.calls }
      { t with service := t.service.setSession q, calls := .startRead q :: t.calls } :=
  { h with
    service := h.service.setSession hp
    calls := by rw [List.map_cons, List.map_cons, h.calls, Call.veiled, Call.veiled, hp] }

theorem cancelSession (h : Alike networkIds s t) {sessionId : Uuid}
    (hs : Sessions.step s (.cancelSession sessionId) = some s')
    (ht : Sessions.step t (.cancelSession sessionId) = some t') : Alike networkIds s' t' := by
  simp only [Sessions.step] at hs ht
  split at hs
  · cases hs
  split at ht
  · cases ht
  rcases h.service.cancelSession_cases sessionId with ⟨p, q, hp, hq, heq⟩ | ⟨hno, hno'⟩
  · have hphase : p.phase = q.phase := (congrArg DiscoveryUpdatePayload.phase heq :)
    have hcancelled (now : DateTime) :
        (DiscoveryService.cancelledUpdate sessionId p 0 now).veiled networkIds =
          (DiscoveryService.cancelledUpdate sessionId q 0 now).veiled networkIds :=
      (congrArg (fun r => DiscoveryService.cancelledUpdate sessionId r 0 now) heq :)
    rw [hp] at hs
    rw [hq] at ht
    cases hs
    cases ht
    refine h.push ?_
    rw [hphase, h.now]
    split
    · rw [Call.veiled, Call.veiled, hcancelled]
    · rw [Call.veiled, Call.veiled, hcancelled]
  · split at hs
    · next hp => exact absurd hp (hno _)
    all_goals
      cases hs
      split at ht
      · next hq => exact absurd hq (hno' _)
      all_goals
        cases ht
        exact h

/-- A section is given the same in both, and an update that looks the same if it is not dropped. -/
theorem step (h : Alike networkIds s t) {a a' : Action} (ha : a.sanitized = a'.sanitized)
    (hupdate : ∀ sender update sender' update', a = .updateSession sender update →
      a' = .updateSession sender' update' →
      s.service.ignores update = false → update.veiled networkIds = update'.veiled networkIds)
    (hs : Sessions.step s a = some s') (ht : Sessions.step t a' = some t') : Alike networkIds s' t' := by
  cases a with
  | tick elapsed =>
    cases a' with
    | tick elapsed' =>
      injection ha with helapsed
      cases hs
      cases ht
      exact { h with now := by rw [h.now, helapsed] }
    | _ => cases ha
  | startSession discovery sessionId snmpCredentials =>
    cases a' with
    | startSession discovery' sessionId' snmpCredentials' =>
      injection ha with hdiscovery hid hcredentials
      simp only [Sessions.step] at hs ht
      split at hs <;> cases hs
      split at ht <;> cases ht
      rw [hdiscovery, hid, hcredentials]
      exact h.store rfl
    | _ => cases ha
  | updateSession sender update =>
    cases a' with
    | updateSession sender' update' =>
      have hp : update.sanitized = update'.sanitized := by injection ha
      obtain ⟨hservice, hfinishing⟩ := h.service.updateSession hp (hupdate _ _ _ _ rfl rfl) t.now
      simp only [Sessions.step, h.now] at hs ht
      split at hs <;> cases hs
      split at ht <;> cases ht
      refine { h with service := hservice, now := rfl, finishing := ?_ }
      rw [Option.map_map, Option.map_map]
      exact hfinishing
    | _ => cases ha
  | finishUpdate saved =>
    cases a' with
    | finishUpdate saved' =>
      injection ha with hsaved
      have hfinishing := h.finishing
      simp only [Sessions.step] at hs ht
      split at hs <;> cases hs
      next hf =>
      split at ht <;> cases ht
      next hf' =>
      rw [hf, hf', Option.map_some, Option.map_some, Option.some.injEq] at hfinishing
      rw [h.now, hsaved]
      exact { h with service := h.service.finishUpdate hfinishing t.now saved', now := rfl, finishing := rfl }
    | _ => cases ha
  | cancelSession sessionId =>
    cases a' with
    | cancelSession sessionId' =>
      injection ha with hid
      subst hid
      exact h.cancelSession hs ht
    | _ => cases ha
  | cleanupOldSessions maxAgeHours =>
    cases a' with
    | cleanupOldSessions maxAgeHours' =>
      injection ha with hage
      simp only [Sessions.step] at hs ht
      split at hs <;> cases hs
      split at ht <;> cases ht
      rw [h.now, hage]
      exact { h with service := h.service.cleanupOldSessions t.now maxAgeHours', now := rfl }
    | _ => cases ha
  | cleanupStalledSessions stalled =>
    cases a' with
    | cleanupStalledSessions stalled' =>
      have hstalled : stalled.map (·.sanitized) = stalled'.map (·.sanitized) := by injection ha
      have hempty : stalled.isEmpty = stalled'.isEmpty := by
        rw [← List.isEmpty_map, hstalled, List.isEmpty_map]
      simp only [Sessions.step, hempty] at hs ht
      split at hs
      · cases hs
      split at ht
      · cases ht
      split at hs
      · next hnone =>
        rw [if_pos hnone] at ht
        cases hs
        cases ht
        exact h
      · next hsome =>
        rw [if_neg hsome] at ht
        cases hs
        cases ht
        refine h.push ?_
        rw [Call.veiled, Call.veiled, hstalled, h.now]
    | _ => cases ha
  | getPendingWork daemonId =>
    cases a' with
    | getPendingWork daemonId' =>
      injection ha with hdaemon
      subst hdaemon
      simp only [Sessions.step, h.service.hasActiveSessionForDaemon] at hs ht
      split at hs
      · cases hs
      split at ht
      · cases ht
      split at hs
      · next hactive =>
        rw [if_pos hactive] at ht
        cases hs
        cases ht
        exact h
      · next hfree =>
        rw [if_neg hfree] at ht
        cases hs
        cases ht
        exact h.push rfl
    | _ => cases ha
  | pullCancellation daemonId =>
    cases a' with
    | pullCancellation daemonId' =>
      injection ha with hdaemon
      cases hs
      cases ht
      rw [hdaemon]
      exact { h with service := h.service.pullCancellationForDaemon daemonId' }
    | _ => cases ha
  | resume i saved =>
    cases a' with
    | resume i' saved' =>
      injection ha with hi hsaved
      subst hi hsaved
      have hcalls := congrArg (fun l : List Call => l[i]?) h.calls
      rw [List.getElem?_map, List.getElem?_map] at hcalls
      simp only [Sessions.step] at hs ht
      split at hs
      · next c hc =>
        split at ht
        · next c' hc' =>
          rw [hc, hc', Option.map_some, Option.map_some, Option.some.injEq] at hcalls
          have hrest : Alike networkIds { s with calls := s.calls.eraseIdx i }
              { t with calls := t.calls.eraseIdx i } :=
            { h with calls := by rw [← List.eraseIdx_map, ← List.eraseIdx_map, h.calls] }
          exact hrest.resume hcalls hs ht
        · cases ht
      · cases hs
    | _ => cases ha

end Alike

end State

end Sessions

end Netvisor
