/-
`update_session` with its fallible calls failing: what a terminal update
leaves behind, and what a retry of it does.

The sections of `Netvisor.Discovery.Service` are the parts of one call in
which nothing fails. Here the call is one piece, and the outcome of each call
it makes is given: two of them end it before the session is removed.
-/
import Netvisor.Discovery.History

namespace Netvisor.DiscoveryService

/-- The outcomes of the calls `update_session` makes for a terminal update. -/
structure Calls where
  /-- `publish_discovery` of the terminal update. -/
  published : Except String Unit := .ok ()
  /-- `network_service.get_by_id`: the organization of the network. -/
  network : Except String (Option Uuid) := .ok none
  /-- `organization_service.get_by_id`: whether it has had its first discovery. -/
  organization : Except String (Option Bool) := .ok none
  /-- `discovery_storage.create`: the id of the new row. -/
  saved : Option Uuid := none
  /-- `publish_entity` of the new row. -/
  recorded : Except String Unit := .ok ()
  /-- `publish_discovery` of the next session. -/
  announced : Except String Unit := .ok ()

/-- How a call of `update_session` ended: its result, the service, and the
organization whose first completed discovery it emitted. -/
structure Updated where
  result : Except String Unit
  service : DiscoveryService
  firstDiscoveryCompleted : Option Uuid := none

variable (s : DiscoveryService)

/-- The part up to `*session = update.clone()`: the update stored, and the
session it found, unless it is dropped. -/
def storeUpdate (update : DiscoveryUpdatePayload) (now : DateTime) :
    DiscoveryService × Option DiscoveryUpdatePayload :=
  let alreadySeen := (s.lastUpdated update.sessionId).isSome
  let s := s.touch update.sessionId now
  match s.getSession update.sessionId with
  | some old => ((s.send update).setSession update, some old)
  | none =>
    if update.phase.isTerminal && alreadySeen then (s, none)
    else
      let s := (s.enqueue update.daemonId update.sessionId).setSession update
      ((s.send update).setSession update, some update)

/-- The organization to emit `FirstDiscoveryCompleted` for; a failed lookup emits nothing. -/
def firstDiscoveryCompleted (session : DiscoveryUpdatePayload) (calls : Calls) : Option Uuid :=
  match session.phase, session.discoveryType, calls.network, calls.organization with
  | .complete, .network .., .ok (some organizationId), .ok (some notOnboarded) =>
    if notOnboarded then some organizationId else none
  | _, _, _, _ => none

/-- From the historical row on: its event may fail, and then nothing is removed. -/
def completeSession (f : Finishing) (now : DateTime) (calls : Calls) : Except String Unit × DiscoveryService :=
  let s := s.clearCancellation f.session.daemonId
  let s := s.createHistorical f.session f.session.discoveryType.display now calls.saved
  match calls.saved, calls.recorded with
  | some _, .error e => (.error e, s)
  | _, _ =>
    let s := s.dequeue f.session.daemonId f.session.sessionId
    let advanced := s.advanceQueue f.session.daemonId
    let s := advanced.1.removeSession f.session.sessionId
    match advanced.2, calls.announced with
    | some _, .error e => (.error e, s)
    | some next, .ok _ =>
      (.ok (), s.publishDiscovery (.new next.sessionId f.daemonId f.networkId next.discoveryType))
    | none, _ => (.ok (), s)

/-- The whole of `update_session`. -/
def updateSessionWith (update : DiscoveryUpdatePayload) (now : DateTime) (calls : Calls) : Updated :=
  match s.storeUpdate update now with
  | (s, none) => { result := .ok (), service := s }
  | (s, some old) =>
    if update.phase.isTerminal then
      match calls.published with
      | .error e => { result := .error e, service := s }
      | .ok _ =>
        let s := s.publishDiscovery update
        let f : Finishing := { session := update, daemonId := old.daemonId, networkId := old.networkId }
        let completed := s.completeSession f now calls
        { result := completed.1
          service := completed.2
          firstDiscoveryCompleted := firstDiscoveryCompleted update calls }
    else { result := .ok (), service := s }

variable {s} {update old : DiscoveryUpdatePayload} {f : Finishing} {now : DateTime} {calls : Calls} {id : Uuid}

theorem storeUpdate_stored (h : s.getSession update.sessionId = some old) :
    s.storeUpdate update now = (((s.touch update.sessionId now).send update).setSession update, some old) := by
  have htouch : (s.touch update.sessionId now).getSession = s.getSession := rfl
  simp only [storeUpdate, htouch, h]

theorem storeUpdate_ignored (h : s.ignores update = true) :
    s.storeUpdate update now = (s.touch update.sessionId now, none) := by
  have htouch : (s.touch update.sessionId now).getSession = s.getSession := rfl
  simp only [ignores, Bool.and_eq_true, Option.isNone_iff_eq_none] at h
  simp only [storeUpdate, htouch, h.1.1, h.1.2, h.2, Bool.and_self, if_true]

/-! ## The call as its sections -/

/-- The event of the historical row fails: the call ends with the session still stored. -/
def Calls.breakOff (calls : Calls) : Bool := calls.saved.isSome && !calls.recorded.isOk

theorem completeSession_breakOff (h : calls.breakOff = true) :
    (s.completeSession f now calls).2 =
      (s.clearCancellation f.session.daemonId).createHistorical f.session f.session.discoveryType.display now
        calls.saved := by
  obtain ⟨hsaved, hrecorded⟩ := Bool.and_eq_true_iff.mp h
  unfold completeSession
  cases hs : calls.saved with
  | none =>
    rw [hs] at hsaved
    cases hsaved
  | some row =>
    cases hr : calls.recorded with
    | ok _ =>
      rw [hr] at hrecorded
      cases hrecorded
    | error e => rfl

/-- Otherwise it leaves the maps and the rows as `finishUpdate` does. -/
theorem completeSession_frame (h : calls.breakOff = false) :
    (s.completeSession f now calls).2.getSession = (s.finishUpdate f now calls.saved).getSession ∧
    (s.completeSession f now calls).2.queue = (s.finishUpdate f now calls.saved).queue ∧
    (s.completeSession f now calls).2.lastUpdated = (s.finishUpdate f now calls.saved).lastUpdated ∧
    (s.completeSession f now calls).2.discoveries = (s.finishUpdate f now calls.saved).discoveries := by
  simp only [finishUpdate_frame, finishSession]
  unfold completeSession
  cases hs : calls.saved with
  | none =>
    simp only
    split <;> exact ⟨rfl, rfl, rfl, rfl⟩
  | some row =>
    cases hr : calls.recorded with
    | error e => simp [Calls.breakOff, hs, hr, Except.isOk, Except.toBool] at h
    | ok _ =>
      simp only
      split <;> exact ⟨rfl, rfl, rfl, rfl⟩

theorem completeSession_eq (hrecorded : calls.recorded = .ok ()) (hannounced : calls.announced = .ok ()) :
    s.completeSession f now calls = (.ok (), s.finishUpdate f now calls.saved) := by
  unfold completeSession finishUpdate finishSession
  rw [hrecorded, hannounced]
  cases calls.saved <;> (simp only; split <;> simp_all)

/-- When nothing fails the call is its two sections. -/
theorem updateSessionWith_eq (hpublished : calls.published = .ok ()) (hrecorded : calls.recorded = .ok ())
    (hannounced : calls.announced = .ok ()) :
    (s.updateSessionWith update now calls).result = .ok () ∧
    (s.updateSessionWith update now calls).service =
      match s.updateSession update now with
      | (t, some f) => t.finishUpdate f now calls.saved
      | (t, none) => t := by
  unfold updateSessionWith storeUpdate updateSession applyUpdate
  simp only [hpublished, completeSession_eq hrecorded hannounced]
  cases (s.touch update.sessionId now).getSession update.sessionId with
  | some old => cases update.phase.isTerminal <;> exact ⟨rfl, rfl⟩
  | none => cases update.phase.isTerminal <;> cases (s.lastUpdated update.sessionId).isSome <;> exact ⟨rfl, rfl⟩

/-! ## What is left of a finished session -/

/-- The session is stored nowhere and waits in no queue. -/
def Absent (s : DiscoveryService) (sessionId : Uuid) : Prop :=
  s.getSession sessionId = none ∧ ∀ daemonId, sessionId ∉ s.queue daemonId

/-- The terminal update leaves nothing of its session, and a retry of it adds
no second row to the one it recorded. -/
def Releases (s : DiscoveryService) (update : DiscoveryUpdatePayload) (now : DateTime) (calls : Calls) : Prop :=
  let t := (s.updateSessionWith update now calls).service
  t.Absent update.sessionId ∧ ∀ later retry, (t.updateSessionWith update later retry).service.recorded.count
    update.sessionId ≤ s.recorded.count update.sessionId + 1

/-- Neither event fails, and only the queue of the daemon the update names holds the session. -/
structure Unhindered (s : DiscoveryService) (update : DiscoveryUpdatePayload) (calls : Calls) : Prop where
  published : calls.published.isOk = true
  recorded : calls.breakOff = false
  queued : ∀ daemonId, update.sessionId ∈ s.queue daemonId → daemonId = update.daemonId

/-- The service with the update stored and announced. -/
def announced (s : DiscoveryService) (update : DiscoveryUpdatePayload) (now : DateTime) : DiscoveryService :=
  (((s.touch update.sessionId now).send update).setSession update).publishDiscovery update

/-- A terminal update of a stored session, by the call that fails. -/
theorem updateSessionWith_stored (hold : s.getSession update.sessionId = some old)
    (hterminal : update.phase.isTerminal = true) :
    (s.updateSessionWith update now calls).service =
      if calls.published.isOk then
        ((s.announced update now).completeSession
          { session := update, daemonId := old.daemonId, networkId := old.networkId } now calls).2
      else ((s.touch update.sessionId now).send update).setSession update := by
  simp only [updateSessionWith, storeUpdate_stored hold, hterminal, if_true]
  cases calls.published <;> rfl

theorem recorded_completeSession :
    ((s.completeSession f now calls).2.recorded).Sublist (f.session.sessionId :: s.recorded) := by
  cases h : calls.breakOff with
  | true =>
    rw [completeSession_breakOff h]
    exact recorded_createHistorical
  | false =>
    rw [recorded_eq (completeSession_frame h).2.2.2]
    exact recorded_finishUpdate

theorem getSession_announced : (s.announced update now).getSession update.sessionId = some update :=
  getSession_setSession.trans (if_pos rfl)

theorem lastUpdated_announced : (s.announced update now).lastUpdated update.sessionId = some now :=
  Assoc.lookup_insert_if.trans (if_pos rfl)

/-- A retry of an update that left nothing of its session is dropped. -/
theorem recorded_retry {t : DiscoveryService} (hterminal : update.phase.isTerminal = true)
    (hgone : t.getSession update.sessionId = none) (hseen : (t.lastUpdated update.sessionId).isSome = true) :
    (t.updateSessionWith update now calls).service.recorded = t.recorded := by
  have hignored : t.ignores update = true := by simp [ignores, hgone, hterminal, hseen]
  simp only [updateSessionWith, storeUpdate_ignored hignored]
  rfl

/-- **When a terminal update lets its daemon go.** -/
theorem releases_iff (hold : s.getSession update.sessionId = some old) (hterminal : update.phase.isTerminal = true) :
    s.Releases update now calls ↔ s.Unhindered update calls := by
  have hstored : (s.updateSessionWith update now calls).service =
      if calls.published.isOk then
        ((s.announced update now).completeSession
          { session := update, daemonId := old.daemonId, networkId := old.networkId } now calls).2
      else ((s.touch update.sessionId now).send update).setSession update :=
    updateSessionWith_stored hold hterminal
  constructor
  · rintro ⟨⟨hgone, hqueue⟩, -⟩
    rw [hstored] at hgone hqueue
    cases hpublished : calls.published.isOk with
    | false =>
      -- the early return leaves the terminal update in the map
      rw [hpublished, if_neg Bool.false_ne_true, getSession_setSession, if_pos rfl] at hgone
      cases hgone
    | true =>
      rw [hpublished, if_pos rfl] at hgone hqueue
      cases hbreak : calls.breakOff with
      | true =>
        rw [completeSession_breakOff hbreak] at hgone
        simp only [createHistorical_frame, clearCancellation_frame, getSession_announced] at hgone
        cases hgone
      | false =>
        refine ⟨hpublished, hbreak, fun daemonId hmem => ?_⟩
        by_contra hne
        refine hqueue daemonId ?_
        rw [(completeSession_frame hbreak).2.1, queue_finishUpdate, if_neg hne]
        exact hmem
  · rintro ⟨hpublished, hbreak, hqueued⟩
    rw [hpublished, if_pos rfl] at hstored
    have hgone : (s.updateSessionWith update now calls).service.getSession update.sessionId = none := by
      rw [hstored, (completeSession_frame hbreak).1, getSession_finishUpdate, if_pos rfl]
    refine ⟨⟨hgone, fun daemonId hmem => ?_⟩, fun later retry => ?_⟩
    · rw [hstored, (completeSession_frame hbreak).2.1, queue_finishUpdate] at hmem
      split at hmem
      · simp at hmem
      · next hne => exact hne (hqueued daemonId hmem)
    · have hseen : ((s.updateSessionWith update now calls).service.lastUpdated update.sessionId).isSome = true := by
        rw [hstored, (completeSession_frame hbreak).2.2.1, lastUpdated_finishUpdate, lastUpdated_announced]
        rfl
      rw [recorded_retry hterminal hgone hseen, hstored]
      have hrows : (s.announced update now).recorded = s.recorded := recorded_eq rfl
      have hsub : ((s.announced update now).completeSession
          { session := update, daemonId := old.daemonId, networkId := old.networkId } now calls).2.recorded.Sublist
          (update.sessionId :: s.recorded) := hrows ▸ recorded_completeSession
      calc _ ≤ (update.sessionId :: s.recorded).count update.sessionId := hsub.count_le update.sessionId
        _ = s.recorded.count update.sessionId + 1 := List.count_cons_self

/-- Session 7 of daemon 4, scanning, at the head of its queue before session 8. -/
def scanning : DiscoveryService :=
  let session : DiscoveryUpdatePayload := { sessionId := 7, daemonId := 4, networkId := 5, phase := .scanning }
  (((({} : DiscoveryService).setSession session).setSession { sessionId := 8, daemonId := 4, networkId := 5 }).enqueue
    4 7).enqueue 4 8

theorem queue_scanning {daemonId : Uuid} : scanning.queue daemonId = if daemonId = 4 then [7, 8] else [] := by
  simp only [scanning, enqueue, queue, Assoc.getD_insert]
  split <;> rfl

theorem released_by_own_update :
    scanning.Releases { sessionId := 7, daemonId := 4, networkId := 5, phase := .complete } 10 {} :=
  (releases_iff rfl rfl).mpr
    { published := rfl
      recorded := rfl
      queued := fun daemonId hmem => by
        by_contra hne
        rw [queue_scanning, if_neg hne] at hmem
        cases hmem }

/-- Daemon 6 of the same network finishes the session under its own id: the
queue of daemon 4 still starts with it, before session 8. -/
theorem kept_queued_by_foreign_update :
    ¬ scanning.Releases { sessionId := 7, daemonId := 6, networkId := 5, phase := .complete } 10 {} := by
  intro h
  exact h.1.2 4 (by decide +kernel)

end Netvisor.DiscoveryService
