/-
What each section of `DiscoveryService` leaves in the maps: the stored
sessions, the queues, the time stamps, the cancellations and the rows.
-/
import Netvisor.Discovery.Service

namespace Netvisor.DiscoveryService

variable {s : DiscoveryService} {id daemonId sessionId : Uuid} {now : DateTime}

/-! ## Starting a session -/

@[simp] theorem getSession_setSession {session : DiscoveryUpdatePayload} :
    (s.setSession session).getSession id = if id = session.sessionId then some session else s.getSession id :=
  Assoc.lookup_insert_if

@[simp] theorem setSession_frame {session : DiscoveryUpdatePayload} :
    (s.setSession session).queue = s.queue ∧ (s.setSession session).lastUpdated = s.lastUpdated ∧
    (s.setSession session).cancellation = s.cancellation ∧ (s.setSession session).discoveries = s.discoveries :=
  ⟨rfl, rfl, rfl, rfl⟩

@[simp] theorem queue_startQueued {session : DiscoveryUpdatePayload} {running : Bool} :
    (s.startQueued session running).queue id =
      if id = session.daemonId then s.queue session.daemonId ++ [session.sessionId] else s.queue id := by
  cases running <;> exact Assoc.getD_insert

@[simp] theorem startQueued_frame {session : DiscoveryUpdatePayload} {running : Bool} :
    (s.startQueued session running).getSession = s.getSession ∧
    (s.startQueued session running).lastUpdated = s.lastUpdated ∧
    (s.startQueued session running).cancellation = s.cancellation ∧
    (s.startQueued session running).discoveries = s.discoveries := by
  cases running <;> exact ⟨rfl, rfl, rfl, rfl⟩

/-! ## Updating a session -/

/-- The update is dropped: terminal, of a session seen before and not stored. -/
def ignores (s : DiscoveryService) (update : DiscoveryUpdatePayload) : Bool :=
  (s.getSession update.sessionId).isNone && update.phase.isTerminal && (s.lastUpdated update.sessionId).isSome

/-- The update creates its session. -/
def creates (s : DiscoveryService) (update : DiscoveryUpdatePayload) : Bool :=
  (s.getSession update.sessionId).isNone && !s.ignores update

variable {update : DiscoveryUpdatePayload}

/-- The first section by its three outcomes: dropped, created, overwritten. -/
theorem updateSession_eq : s.updateSession update now =
    if s.ignores update then (s.touch update.sessionId now, none)
    else if s.creates update then
      (((s.touch update.sessionId now).enqueue update.daemonId update.sessionId).setSession update).applyUpdate
        update update
    else (s.touch update.sessionId now).applyUpdate update ((s.getSession update.sessionId).getD update) := by
  have htouch : (s.touch update.sessionId now).getSession = s.getSession := rfl
  cases h : s.getSession update.sessionId with
  | some old => simp [updateSession, creates, ignores, h, htouch]
  | none =>
    cases hp : update.phase.isTerminal <;> cases hl : (s.lastUpdated update.sessionId).isSome <;>
      simp [updateSession, creates, ignores, h, htouch, hp, hl]

theorem getSession_applyUpdate {old : DiscoveryUpdatePayload} :
    (s.applyUpdate update old).1.getSession id = if id = update.sessionId then some update else s.getSession id := by
  unfold applyUpdate
  split <;> exact getSession_setSession

@[simp] theorem applyUpdate_frame {old : DiscoveryUpdatePayload} :
    (s.applyUpdate update old).1.queue = s.queue ∧ (s.applyUpdate update old).1.lastUpdated = s.lastUpdated ∧
    (s.applyUpdate update old).1.cancellation = s.cancellation ∧
    (s.applyUpdate update old).1.discoveries = s.discoveries := by
  unfold applyUpdate
  split <;> exact ⟨rfl, rfl, rfl, rfl⟩

theorem getSession_updateSession :
    (s.updateSession update now).1.getSession id =
      if id = update.sessionId ∧ s.ignores update = false then some update else s.getSession id := by
  rw [updateSession_eq]
  split
  · next h => simp [h]; rfl
  · next h =>
    split
    · simp only [getSession_applyUpdate, getSession_setSession, h, and_true]
      split <;> rfl
    · simp only [getSession_applyUpdate, h, and_true]
      rfl

theorem queue_updateSession :
    (s.updateSession update now).1.queue id =
      if s.creates update ∧ id = update.daemonId then s.queue id ++ [update.sessionId] else s.queue id := by
  rw [updateSession_eq]
  split
  · next h => simp [creates, h]; rfl
  · split
    · next h =>
      simp only [applyUpdate_frame, setSession_frame, h, true_and]
      refine Assoc.getD_insert.trans ?_
      split
      · next he => rw [he]; rfl
      · rfl
    · next h => simp [h]; rfl

theorem lastUpdated_updateSession :
    (s.updateSession update now).1.lastUpdated id = if id = update.sessionId then some now else s.lastUpdated id := by
  have ht : (s.touch update.sessionId now).lastUpdated id =
      if id = update.sessionId then some now else s.lastUpdated id := Assoc.lookup_insert_if
  rw [← ht, updateSession_eq]
  split
  · rfl
  · split
    · simp; rfl
    · simp

@[simp] theorem updateSession_frame :
    (s.updateSession update now).1.cancellation = s.cancellation ∧
    (s.updateSession update now).1.discoveries = s.discoveries := by
  rw [updateSession_eq]
  split
  · exact ⟨rfl, rfl⟩
  · split
    · simp only [applyUpdate_frame, setSession_frame]
      exact ⟨rfl, rfl⟩
    · simp only [applyUpdate_frame]
      exact ⟨rfl, rfl⟩

/-- A terminal update that is not dropped goes on, with the daemon and network
the session had. -/
theorem finishing_updateSession :
    (s.updateSession update now).2 =
      if update.phase.isTerminal ∧ s.ignores update = false then
        some
          { session := update
            daemonId := ((s.getSession update.sessionId).getD update).daemonId
            networkId := ((s.getSession update.sessionId).getD update).networkId }
      else none := by
  rw [updateSession_eq]
  unfold applyUpdate
  split
  · next h => simp [h]
  · next h =>
    simp only [Bool.not_eq_true] at h
    split
    · next hc =>
      have hnone : s.getSession update.sessionId = none := by
        simp only [creates, Bool.and_eq_true, Option.isNone_iff_eq_none] at hc
        exact hc.1
      simp only [h, hnone, Option.getD_none, and_true]
      split <;> rfl
    · simp only [h, and_true]
      split <;> rfl

/-! ## Removing a session -/

/-- The stored session `sessionId` is taken out of the map and of the queue of `daemonId`. -/
structure Removes (s t : DiscoveryService) (sessionId daemonId : Uuid) : Prop where
  getSession : ∀ id, t.getSession id = if id = sessionId then none else s.getSession id
  queue : ∀ id, t.queue id = if id = daemonId then (s.queue id).filter (· != sessionId) else s.queue id

theorem queue_dequeue :
    (s.dequeue daemonId sessionId).queue id =
      if id = daemonId then (s.queue id).filter (· != sessionId) else s.queue id := by
  refine (Assoc.getD_modify rfl).trans ?_
  split
  · next h => rw [h]; rfl
  · rfl

@[simp] theorem dequeue_frame :
    (s.dequeue daemonId sessionId).getSession = s.getSession ∧
    (s.dequeue daemonId sessionId).lastUpdated = s.lastUpdated ∧
    (s.dequeue daemonId sessionId).cancellation = s.cancellation ∧
    (s.dequeue daemonId sessionId).discoveries = s.discoveries := ⟨rfl, rfl, rfl, rfl⟩

@[simp] theorem getSession_removeSession :
    (s.removeSession sessionId).getSession id = if id = sessionId then none else s.getSession id :=
  Assoc.lookup_erase_if

@[simp] theorem removeSession_frame :
    (s.removeSession sessionId).queue = s.queue ∧ (s.removeSession sessionId).lastUpdated = s.lastUpdated ∧
    (s.removeSession sessionId).cancellation = s.cancellation ∧
    (s.removeSession sessionId).discoveries = s.discoveries := ⟨rfl, rfl, rfl, rfl⟩

theorem removes_cancelPending {cancelled : DiscoveryUpdatePayload} :
    Removes s (s.cancelPending cancelled) cancelled.sessionId cancelled.daemonId where
  getSession _ := getSession_removeSession
  queue _ := queue_dequeue

@[simp] theorem cancelPending_frame {cancelled : DiscoveryUpdatePayload} :
    (s.cancelPending cancelled).lastUpdated = s.lastUpdated ∧
    (s.cancelPending cancelled).cancellation = s.cancellation ∧
    (s.cancelPending cancelled).discoveries = s.discoveries := ⟨rfl, rfl, rfl⟩

/-- The session that heads the queue once the finished one has left it. -/
def nextSession (s : DiscoveryService) (f : Finishing) : Option Uuid :=
  ((s.queue f.session.daemonId).filter (· != f.session.sessionId)).head?

@[simp] theorem createHistorical_frame {session : DiscoveryUpdatePayload} {name : String} {saved : Option Uuid} :
    (s.createHistorical session name now saved).getSession = s.getSession ∧
    (s.createHistorical session name now saved).queue = s.queue ∧
    (s.createHistorical session name now saved).lastUpdated = s.lastUpdated ∧
    (s.createHistorical session name now saved).cancellation = s.cancellation := by
  cases saved <;> exact ⟨rfl, rfl, rfl, rfl⟩

@[simp] theorem clearCancellation_frame :
    (s.clearCancellation daemonId).getSession = s.getSession ∧ (s.clearCancellation daemonId).queue = s.queue ∧
    (s.clearCancellation daemonId).lastUpdated = s.lastUpdated ∧
    (s.clearCancellation daemonId).discoveries = s.discoveries := ⟨rfl, rfl, rfl, rfl⟩

@[simp] theorem cancellation_clearCancellation :
    (s.clearCancellation daemonId).cancellation id = if id = daemonId then none else s.cancellation id :=
  Assoc.lookup_erase_if

@[simp] theorem getSession_setPhase {phase : DiscoveryPhase} :
    (s.setPhase sessionId phase).getSession id =
      if id = sessionId then (s.getSession sessionId).map fun session => { session with phase }
      else s.getSession id :=
  Assoc.lookup_modify

theorem getSession_advanceQueue :
    (s.advanceQueue daemonId).1.getSession id =
      if (s.queue daemonId).head? = some id then
        (s.getSession id).map fun session => { session with phase := .pending }
      else s.getSession id := by
  unfold advanceQueue
  cases h : (s.queue daemonId).head? with
  | none => rfl
  | some next =>
    simp only [getSession_setPhase, Option.some.injEq, eq_comm (a := id)]
    split
    · next he => rw [he]
    · rfl

@[simp] theorem advanceQueue_frame :
    (s.advanceQueue daemonId).1.queue = s.queue ∧ (s.advanceQueue daemonId).1.lastUpdated = s.lastUpdated ∧
    (s.advanceQueue daemonId).1.cancellation = s.cancellation ∧
    (s.advanceQueue daemonId).1.discoveries = s.discoveries := by
  unfold advanceQueue
  split <;> exact ⟨rfl, rfl, rfl, rfl⟩

variable {f : Finishing} {saved : Option Uuid}

theorem finishUpdate_frame :
    (s.finishUpdate f now saved).getSession = (s.finishSession f.session now saved).1.getSession ∧
    (s.finishUpdate f now saved).queue = (s.finishSession f.session now saved).1.queue ∧
    (s.finishUpdate f now saved).lastUpdated = (s.finishSession f.session now saved).1.lastUpdated ∧
    (s.finishUpdate f now saved).cancellation = (s.finishSession f.session now saved).1.cancellation ∧
    (s.finishUpdate f now saved).discoveries = (s.finishSession f.session now saved).1.discoveries := by
  unfold finishUpdate
  split
  · next h =>
    rw [h]
    exact ⟨rfl, rfl, rfl, rfl, rfl⟩
  · next h =>
    rw [h]
    exact ⟨rfl, rfl, rfl, rfl, rfl⟩

theorem getSession_finishUpdate :
    (s.finishUpdate f now saved).getSession id =
      if id = f.session.sessionId then none
      else if s.nextSession f = some id then
        (s.getSession id).map fun session => { session with phase := .pending }
      else s.getSession id := by
  simp only [finishUpdate_frame, finishSession, getSession_removeSession, getSession_advanceQueue, queue_dequeue,
    if_true, dequeue_frame, createHistorical_frame, clearCancellation_frame, nextSession]
  rfl

theorem queue_finishUpdate :
    (s.finishUpdate f now saved).queue id =
      if id = f.session.daemonId then (s.queue id).filter (· != f.session.sessionId) else s.queue id := by
  simp only [finishUpdate_frame, finishSession, removeSession_frame, advanceQueue_frame, queue_dequeue,
    createHistorical_frame, clearCancellation_frame]

@[simp] theorem lastUpdated_finishUpdate : (s.finishUpdate f now saved).lastUpdated = s.lastUpdated := by
  simp only [finishUpdate_frame, finishSession, removeSession_frame, advanceQueue_frame, dequeue_frame,
    createHistorical_frame, clearCancellation_frame]

theorem cancellation_finishUpdate :
    (s.finishUpdate f now saved).cancellation id = if id = f.session.daemonId then none else s.cancellation id := by
  simp only [finishUpdate_frame, finishSession, removeSession_frame, advanceQueue_frame, dequeue_frame,
    createHistorical_frame, cancellation_clearCancellation]

theorem discoveries_finishUpdate :
    (s.finishUpdate f now saved).discoveries =
      (s.createHistorical f.session f.session.discoveryType.display now saved).discoveries := by
  simp only [finishUpdate_frame, finishSession, removeSession_frame, advanceQueue_frame, dequeue_frame]
  cases saved <;> rfl

/-! ## Cleanups -/

theorem removes_removeOld {session : DiscoveryUpdatePayload} (h : s.getSession sessionId = some session)
    (hid : session.sessionId = sessionId) : Removes s (s.removeOld sessionId) sessionId session.daemonId := by
  simp only [removeOld, h, hid]
  refine ⟨fun id => ?_, fun id => ?_⟩
  · simp only [dequeue_frame, clearCancellation_frame, getSession_removeSession]
  · simp only [queue_dequeue, clearCancellation_frame, removeSession_frame]

theorem removeOld_absent (h : s.getSession sessionId = none) : s.removeOld sessionId = s := by
  simp only [removeOld, h]

@[simp] theorem removeOld_frame :
    (s.removeOld sessionId).lastUpdated = s.lastUpdated ∧ (s.removeOld sessionId).discoveries = s.discoveries := by
  unfold removeOld
  split <;> exact ⟨rfl, rfl⟩

@[simp] theorem requestCancellation_frame {cancelled : DiscoveryUpdatePayload} :
    (s.requestCancellation cancelled).getSession = s.getSession ∧
    (s.requestCancellation cancelled).queue = s.queue ∧
    (s.requestCancellation cancelled).lastUpdated = s.lastUpdated ∧
    (s.requestCancellation cancelled).discoveries = s.discoveries := ⟨rfl, rfl, rfl, rfl⟩

@[simp] theorem forget_frame :
    (s.forget sessionId).getSession = s.getSession ∧ (s.forget sessionId).queue = s.queue ∧
    (s.forget sessionId).cancellation = s.cancellation ∧ (s.forget sessionId).discoveries = s.discoveries :=
  ⟨rfl, rfl, rfl, rfl⟩

@[simp] theorem lastUpdated_forget :
    (s.forget sessionId).lastUpdated id = if id = sessionId then none else s.lastUpdated id :=
  Assoc.lookup_erase_if

@[simp] theorem send_frame :
    (s.send update).getSession = s.getSession ∧ (s.send update).queue = s.queue ∧
    (s.send update).lastUpdated = s.lastUpdated ∧ (s.send update).cancellation = s.cancellation ∧
    (s.send update).discoveries = s.discoveries := ⟨rfl, rfl, rfl, rfl, rfl⟩

@[simp] theorem dropCancellation_frame :
    (s.dropCancellation daemonId sessionId).getSession = s.getSession ∧
    (s.dropCancellation daemonId sessionId).queue = s.queue ∧
    (s.dropCancellation daemonId sessionId).lastUpdated = s.lastUpdated ∧
    (s.dropCancellation daemonId sessionId).discoveries = s.discoveries := by
  unfold dropCancellation
  split
  · split <;> exact ⟨rfl, rfl, rfl, rfl⟩
  · exact ⟨rfl, rfl, rfl, rfl⟩

variable {isSaved : Uuid → Option Uuid} {stalled session : DiscoveryUpdatePayload}

theorem failStalled_absent (h : s.getSession stalled.sessionId = none) : s.failStalled now isSaved stalled = s := by
  simp only [failStalled, h]

theorem removes_failStalled (h : s.getSession stalled.sessionId = some session)
    (hid : session.sessionId = stalled.sessionId) :
    Removes s (s.failStalled now isSaved stalled) stalled.sessionId session.daemonId := by
  simp only [failStalled, h, hid]
  refine ⟨fun id => ?_, fun id => ?_⟩
  · simp only [createHistorical_frame, dropCancellation_frame, send_frame, forget_frame, dequeue_frame,
      getSession_removeSession]
  · simp only [createHistorical_frame, dropCancellation_frame, send_frame, forget_frame, queue_dequeue,
      removeSession_frame]

theorem lastUpdated_failStalled (h : s.getSession stalled.sessionId = some session)
    (hid : session.sessionId = stalled.sessionId) :
    (s.failStalled now isSaved stalled).lastUpdated id =
      if id = stalled.sessionId then none else s.lastUpdated id := by
  simp only [failStalled, h, hid, createHistorical_frame, dropCancellation_frame, send_frame, lastUpdated_forget,
    dequeue_frame, removeSession_frame]

@[simp] theorem evictTombstones_frame :
    (s.evictTombstones now).getSession = s.getSession ∧ (s.evictTombstones now).queue = s.queue ∧
    (s.evictTombstones now).cancellation = s.cancellation ∧
    (s.evictTombstones now).discoveries = s.discoveries := ⟨rfl, rfl, rfl, rfl⟩

theorem lastUpdated_evictTombstones :
    (s.evictTombstones now).lastUpdated id =
      (s.lastUpdated id).filter fun ts => (s.getSession id).isSome || decide (now - ts < stallThreshold) :=
  Assoc.lookup_filter

/-! ## Dispatch -/

theorem getSession_transitionSessionToStarting :
    (s.transitionSessionToStarting sessionId).getSession id =
      if id = sessionId then
        (s.getSession id).map fun session =>
          if session.phase = .pending then { session with phase := .starting } else session
      else s.getSession id := by
  unfold transitionSessionToStarting
  by_cases hid : id = sessionId
  · subst hid
    cases h : s.getSession id with
    | none => simp [h]
    | some session => by_cases hp : session.phase = .pending <;> simp [h, hp]
  · cases h : s.getSession sessionId with
    | none => simp [hid]
    | some session => by_cases hp : session.phase = .pending <;> simp [hid, hp]

@[simp] theorem transitionSessionToStarting_frame :
    (s.transitionSessionToStarting sessionId).queue = s.queue ∧
    (s.transitionSessionToStarting sessionId).lastUpdated = s.lastUpdated ∧
    (s.transitionSessionToStarting sessionId).cancellation = s.cancellation ∧
    (s.transitionSessionToStarting sessionId).discoveries = s.discoveries := by
  unfold transitionSessionToStarting
  split
  · split <;> exact ⟨rfl, rfl, rfl, rfl⟩
  · exact ⟨rfl, rfl, rfl, rfl⟩

@[simp] theorem pullCancellationForDaemon_frame :
    (s.pullCancellationForDaemon daemonId).2.getSession = s.getSession ∧
    (s.pullCancellationForDaemon daemonId).2.queue = s.queue ∧
    (s.pullCancellationForDaemon daemonId).2.lastUpdated = s.lastUpdated ∧
    (s.pullCancellationForDaemon daemonId).2.discoveries = s.discoveries := ⟨rfl, rfl, rfl, rfl⟩

theorem mem_getSessionsForDaemon {session : DiscoveryUpdatePayload} :
    session ∈ s.getSessionsForDaemon daemonId ↔
      session.phase = .pending ∧ ∃ id ∈ s.queue daemonId, s.getSession id = some session := by
  simp only [getSessionsForDaemon, List.mem_filter, List.mem_filterMap, beq_iff_eq, and_comm]

/-! ## Keys and owners -/

/-- Every session is stored under its own id. -/
def Keyed (s : DiscoveryService) : Prop := ∀ id session, s.getSession id = some session → session.sessionId = id

/-- The daemon a stored session belongs to. -/
def owner (s : DiscoveryService) (id : Uuid) : Option Uuid := (s.getSession id).map (·.daemonId)

theorem owner_eq_some : s.owner id = some daemonId ↔ ∃ session, s.getSession id = some session ∧
    session.daemonId = daemonId := Option.map_eq_some_iff

theorem Removes.owner {t : DiscoveryService} (h : Removes s t sessionId daemonId) :
    t.owner id = if id = sessionId then none else s.owner id := by
  unfold DiscoveryService.owner
  rw [h.getSession]
  split <;> rfl

theorem Removes.keyed {t : DiscoveryService} (h : Removes s t sessionId daemonId) (hk : s.Keyed) : t.Keyed := by
  intro id session hs
  rw [h.getSession] at hs
  split at hs
  · cases hs
  · exact hk id session hs

theorem owner_updateSession :
    (s.updateSession update now).1.owner id =
      if id = update.sessionId ∧ s.ignores update = false then some update.daemonId else s.owner id := by
  unfold owner
  rw [getSession_updateSession]
  split <;> rfl

theorem owner_finishUpdate :
    (s.finishUpdate f now saved).owner id = if id = f.session.sessionId then none else s.owner id := by
  unfold owner
  rw [getSession_finishUpdate]
  split
  · rfl
  · split
    · cases s.getSession id <;> rfl
    · rfl

@[simp] theorem owner_transitionSessionToStarting :
    (s.transitionSessionToStarting sessionId).owner id = s.owner id := by
  unfold owner
  rw [getSession_transitionSessionToStarting]
  split
  · cases s.getSession id with
    | none => rfl
    | some session =>
      simp only [Option.map_some]
      split <;> rfl
  · rfl

theorem Keyed.setSession {session : DiscoveryUpdatePayload} (h : s.Keyed) : (s.setSession session).Keyed := by
  intro id x hx
  rw [getSession_setSession] at hx
  split at hx
  · next hid =>
    cases hx
    exact hid.symm
  · exact h id x hx

theorem Keyed.updateSession (h : s.Keyed) : (s.updateSession update now).1.Keyed := by
  intro id x hx
  rw [getSession_updateSession] at hx
  split at hx
  · next hid =>
    cases hx
    exact hid.1.symm
  · exact h id x hx

theorem Keyed.finishUpdate (h : s.Keyed) : (s.finishUpdate f now saved).Keyed := by
  intro id x hx
  rw [getSession_finishUpdate] at hx
  split at hx
  · cases hx
  · split at hx
    · obtain ⟨y, hy, rfl⟩ := Option.map_eq_some_iff.mp hx
      exact h id y hy
    · exact h id x hx

theorem Keyed.transitionSessionToStarting (h : s.Keyed) : (s.transitionSessionToStarting sessionId).Keyed := by
  intro id x hx
  rw [getSession_transitionSessionToStarting] at hx
  split at hx
  · obtain ⟨y, hy, rfl⟩ := Option.map_eq_some_iff.mp hx
    split
    · exact h id y hy
    · exact h id y hy
  · exact h id x hx

/-! ## Inductions over the cleanups -/

/-- What every removal of an old session keeps, the cleanup keeps. -/
theorem cleanupOldSessions_induction {P : DiscoveryService → Prop} {maxAgeHours : Int} (hk : s.Keyed) (hP : P s)
    (step : ∀ (t : DiscoveryService) id session, id ∈ s.oldSessions (now - hours maxAgeHours) →
      t.getSession id = some session → Removes t (t.removeOld id) id session.daemonId → P t → P (t.removeOld id)) :
    P (s.cleanupOldSessions now maxAgeHours) := by
  suffices h : Keyed (s.cleanupOldSessions now maxAgeHours) ∧ P (s.cleanupOldSessions now maxAgeHours) from h.2
  unfold cleanupOldSessions
  refine List.foldlRecOn _ _ (motive := fun t => Keyed t ∧ P t) ⟨hk, hP⟩ fun t ⟨hkt, hPt⟩ id hid => ?_
  cases h : t.getSession id with
  | none => rw [removeOld_absent h]; exact ⟨hkt, hPt⟩
  | some session =>
    have hr := removes_removeOld h (hkt id session h)
    exact ⟨hr.keyed hkt, step t id session hid h hr hPt⟩

/-- What failing a stalled session and dropping tombstones keep, the third pass keeps. -/
theorem removeStalled_induction {P : DiscoveryService → Prop} {stalled : List DiscoveryUpdatePayload}
    (hk : s.Keyed) (hP : P s)
    (step : ∀ (t : DiscoveryService) x session, x ∈ stalled → t.getSession x.sessionId = some session →
      session.sessionId = x.sessionId → Removes t (t.failStalled now isSaved x) x.sessionId session.daemonId →
      P t → P (t.failStalled now isSaved x))
    (evict : ∀ t : DiscoveryService, P t → P (t.evictTombstones now)) :
    P (s.removeStalled now isSaved stalled) := by
  refine evict _ (And.right (a := Keyed (stalled.foldl (fun s => s.failStalled now isSaved) s)) ?_)
  refine List.foldlRecOn _ _ (motive := fun t => Keyed t ∧ P t) ⟨hk, hP⟩ fun t ⟨hkt, hPt⟩ x hx => ?_
  cases h : t.getSession x.sessionId with
  | none => rw [failStalled_absent h]; exact ⟨hkt, hPt⟩
  | some session =>
    have hr : Removes t (t.failStalled now isSaved x) x.sessionId session.daemonId :=
      removes_failStalled h (hkt _ session h)
    exact ⟨hr.keyed hkt, step t x session hx h (hkt _ session h) hr hPt⟩

/-! ## What the stall cleanup removes -/

theorem mem_stalledSessions : session ∈ s.stalledSessions now ↔
    ∃ id, s.getSession id = some session ∧ s.isStalled now id session = true := by
  simp only [stalledSessions, List.mem_map, List.mem_filter]
  constructor
  · rintro ⟨⟨id, x⟩, ⟨hmem, hst⟩, rfl⟩
    exact ⟨id, Assoc.mem_entries_iff.mp hmem, hst⟩
  · rintro ⟨id, hid, hst⟩
    exact ⟨⟨id, session⟩, ⟨Assoc.mem_entries_iff.mpr hid, hst⟩, rfl⟩

theorem getSession_failStalled :
    (s.failStalled now isSaved stalled).getSession id =
      if id = stalled.sessionId then none else s.getSession id := by
  unfold failStalled
  cases h : s.getSession stalled.sessionId with
  | none =>
    simp only
    split
    · next hid => rw [hid, h]
    · rfl
  | some session =>
    simp only [createHistorical_frame, dropCancellation_frame, send_frame, forget_frame, dequeue_frame,
      getSession_removeSession]

theorem getSession_foldl_failStalled : ∀ {l : List DiscoveryUpdatePayload} {s : DiscoveryService},
    (l.foldl (fun s => s.failStalled now isSaved) s).getSession id =
      if ∃ x ∈ l, x.sessionId = id then none else s.getSession id
  | [], _ => by simp
  | x :: l, s => by
    rw [List.foldl_cons, getSession_foldl_failStalled, getSession_failStalled]
    by_cases hx : id = x.sessionId
    · simp [hx]
    · simp [hx, Ne.symm hx]

/-- Run alone, the cleanup removes the stalled sessions and no other. -/
theorem getSession_cleanupStalledSessions (hk : s.Keyed) :
    (s.cleanupStalledSessions now isSaved).getSession id =
      if ∃ x, s.getSession id = some x ∧ s.isStalled now id x = true then none else s.getSession id := by
  have hiff : (∃ x ∈ s.stalledSessions now, x.sessionId = id) ↔
      ∃ x, s.getSession id = some x ∧ s.isStalled now id x = true := by
    constructor
    · rintro ⟨x, hx, rfl⟩
      obtain ⟨k, hk', hst⟩ := mem_stalledSessions.mp hx
      obtain rfl := hk k x hk'
      exact ⟨x, hk', hst⟩
    · rintro ⟨x, hx, hst⟩
      exact ⟨x, mem_stalledSessions.mpr ⟨id, hx, hst⟩, hk id x hx⟩
  unfold cleanupStalledSessions
  split
  · next h =>
    rw [h] at hiff
    rw [if_neg (fun hex => by simpa using hiff.mpr hex)]
  · rw [removeStalled, evictTombstones_frame.1, getSession_foldl_failStalled]
    simp only [hiff]
    congr 1
    exact congrFun (List.foldlRecOn _ _ (motive := fun v : DiscoveryService => v.getSession = s.getSession) rfl
      fun _ hv _ _ => requestCancellation_frame.1.trans hv) id

/-! ## Sections that only remove -/

/-- Every session and queue entry of `w` is one of `v`, unchanged. -/
structure Within (w v : DiscoveryService) : Prop where
  getSession : ∀ id session, w.getSession id = some session → v.getSession id = some session
  queue : ∀ daemonId, w.queue daemonId ⊆ v.queue daemonId

theorem Within.of_eq {v w : DiscoveryService} (hg : w.getSession = v.getSession) (hq : w.queue = v.queue) :
    Within w v where
  getSession id session h := hg ▸ h
  queue daemonId := by
    rw [hq]
    exact List.Subset.refl _

theorem Within.trans {u v w : DiscoveryService} (h : Within u v) (h' : Within v w) : Within u w where
  getSession id session hs := h'.getSession id session (h.getSession id session hs)
  queue daemonId := List.Subset.trans (h.queue daemonId) (h'.queue daemonId)

theorem Removes.within {t : DiscoveryService} (h : Removes s t sessionId daemonId) : Within t s where
  getSession id session hs := by
    rw [h.getSession] at hs
    split at hs
    · cases hs
    · exact hs
  queue id := by
    rw [h.queue]
    split
    · exact List.filter_sublist.subset
    · exact List.Subset.refl _

theorem cleanupOldSessions_within {maxAgeHours : Int} (hk : s.Keyed) :
    Within (s.cleanupOldSessions now maxAgeHours) s :=
  cleanupOldSessions_induction (P := fun v => Within v s) hk (.of_eq rfl rfl)
    fun _ _ _ _ _ hr hw => hr.within.trans hw

theorem removeStalled_within {stalled : List DiscoveryUpdatePayload} (hk : s.Keyed) :
    Within (s.removeStalled now isSaved stalled) s :=
  removeStalled_induction (P := fun v => Within v s) hk (.of_eq rfl rfl)
    (fun _ _ _ _ _ _ hr hw => hr.within.trans hw) fun t hw => Within.trans (v := t) (.of_eq rfl rfl) hw

end Netvisor.DiscoveryService
