/-
Getting a daemon back: the stall cleanup removes a session that has shown no
sign of life for longer than the threshold, and a user can cancel one that has
started.

The cleanup goes by the time of the last update, and without one by the start
the daemon reported. A session that was dispatched and of which the daemon
never reported has neither, and while it is starting it cannot be cancelled
either. That session is the only kind that keeps its daemon for ever.
-/
import Netvisor.Discovery.SessionsFacts

namespace Netvisor.Sessions

open DiscoveryService (Keyed)

/-- The cleanup removes the session once no update has come for the threshold. -/
def TimesOut (s : State) (id : Uuid) : Prop :=
  ∀ later, s.now + stallThreshold < later → ∀ saved,
    (s.service.cleanupStalledSessions later saved).getSession id = none

/-- Cancelling removes the session or leaves a cancellation for its daemon. -/
def Cancels (s : State) (id daemonId : Uuid) : Prop :=
  ∃ v, s.service.cancelAlone id s.now = .ok v ∧
    (v.getSession id = none ∨ v.cancellation daemonId = some (true, id))

/-- Every session that takes its daemon can be got rid of. -/
def NoDaemonBlocked (s : State) : Prop :=
  ∀ id session, s.service.getSession id = some session → session.phase.isActive = true →
    TimesOut s id ∨ Cancels s id session.daemonId

/-- The session was dispatched, and no update for it is on record. -/
def Unreported (s : State) (id : Uuid) (session : DiscoveryUpdatePayload) : Prop :=
  session.phase = .starting ∧ s.service.lastUpdated id = none

/-! ## Time stamps -/

/-- A session with a start was updated, and no update lies in the future. -/
structure Stamped (v : DiscoveryService) (now : DateTime) : Prop where
  updated : ∀ id session, v.getSession id = some session → session.startedAt.isSome = true →
    (v.lastUpdated id).isSome = true
  past : ∀ id ts, v.lastUpdated id = some ts → ts ≤ now

variable {v w : DiscoveryService} {now : DateTime}

theorem Stamped.init : Stamped {} 0 where
  updated _ _ h := by cases h
  past _ _ h := by cases h

/-- Phases, removals and new sessions without a start do not matter. -/
theorem Stamped.of_le (h : Stamped v now)
    (hget : ∀ id session, w.getSession id = some session →
      session.startedAt = none ∨ ∃ old, v.getSession id = some old ∧ old.startedAt = session.startedAt)
    (hlast : w.lastUpdated = v.lastUpdated) : Stamped w now where
  updated id session hs hstart := by
    rw [hlast]
    rcases hget id session hs with hnone | ⟨old, hold, heq⟩
    · rw [hnone] at hstart
      cases hstart
    · exact h.updated id old hold (heq ▸ hstart)
  past := by
    rw [hlast]
    exact h.past

theorem Stamped.within (h : Stamped v now) (hw : DiscoveryService.Within w v)
    (hlast : w.lastUpdated = v.lastUpdated) : Stamped w now :=
  h.of_le (fun id session hs => .inr ⟨session, hw.getSession id session hs, rfl⟩) hlast

theorem Stamped.update {update : DiscoveryUpdatePayload} (h : Stamped v now) :
    Stamped (v.updateSession update now).1 now where
  updated id session hs hstart := by
    rw [DiscoveryService.lastUpdated_updateSession]
    rw [DiscoveryService.getSession_updateSession] at hs
    split
    · rfl
    · next hne =>
      rw [if_neg (fun hu => hne hu.1)] at hs
      exact h.updated id session hs hstart
  past id ts hts := by
    rw [DiscoveryService.lastUpdated_updateSession] at hts
    split at hts
    · cases hts
      exact Int.le_refl _
    · exact h.past id ts hts

theorem Stamped.finish {f : Finishing} {saved : Option Uuid} (h : Stamped v now) :
    Stamped (v.finishUpdate f now saved) now := by
  refine h.of_le (fun id session hs => ?_) (by simp)
  rw [DiscoveryService.getSession_finishUpdate] at hs
  split at hs
  · cases hs
  · split at hs
    · obtain ⟨old, hold, rfl⟩ := Option.map_eq_some_iff.mp hs
      exact .inr ⟨old, hold, rfl⟩
    · exact .inr ⟨session, hs, rfl⟩

theorem Stamped.transition {sessionId : Uuid} (h : Stamped v now) :
    Stamped (v.transitionSessionToStarting sessionId) now := by
  refine h.of_le (fun id session hs => ?_) (by simp)
  rw [DiscoveryService.getSession_transitionSessionToStarting] at hs
  split at hs
  · obtain ⟨old, hold, rfl⟩ := Option.map_eq_some_iff.mp hs
    refine .inr ⟨old, hold, ?_⟩
    split <;> rfl
  · exact .inr ⟨session, hs, rfl⟩

theorem Stamped.removeStalled {checkedAt : DateTime} {saved : Uuid → Option Uuid}
    {stalled : List DiscoveryUpdatePayload}
    (hk : v.Keyed) (h : Stamped v now) : Stamped (v.removeStalled checkedAt saved stalled) now := by
  refine DiscoveryService.removeStalled_induction (P := fun v => Stamped v now) hk h
    (fun v x session _ hs hid hr hv => ?_) fun v hv => ?_
  · have hlast (id : Uuid) :
        (v.failStalled checkedAt saved x).lastUpdated id = if id = x.sessionId then none else v.lastUpdated id :=
      DiscoveryService.lastUpdated_failStalled hs hid
    refine ⟨fun id y hy hstart => ?_, fun id ts hts => ?_⟩
    · rw [hlast]
      rw [hr.getSession] at hy
      split at hy
      · cases hy
      · next hne =>
        rw [if_neg hne]
        exact hv.updated id y hy hstart
    · rw [hlast] at hts
      split at hts
      · cases hts
      · exact hv.past id ts hts
  · refine ⟨fun id y hy hstart => ?_, fun id ts hts => ?_⟩
    · rw [DiscoveryService.evictTombstones_frame.1] at hy
      obtain ⟨ts, hts⟩ := Option.isSome_iff_exists.mp (hv.updated id y hy hstart)
      rw [DiscoveryService.lastUpdated_evictTombstones, hts, hy]
      simp
    · rw [DiscoveryService.lastUpdated_evictTombstones, Option.filter_eq_some_iff] at hts
      exact hv.past id ts hts.1

theorem Stamped.resumes {s t : State} {saved : Uuid → Option Uuid} {call : Call} (hB : Base s)
    (h : Stamped s.service s.now) (hs : Resumes s saved call t) : Stamped t.service t.now := by
  cases hs with
  | startRead => exact h
  | startQueue => exact h.of_le (fun id session hs => .inr ⟨session, by simpa using hs, rfl⟩) (by simp)
  | cancelPending hf => exact Stamped.within h DiscoveryService.removes_cancelPending.within rfl
  | cancelActive => exact Stamped.within h (.of_eq rfl rfl) rfl
  | request => exact Stamped.within h (.of_eq rfl rfl) rfl
  | removeStalled hf => exact Stamped.removeStalled hB.keyed h
  | workPick hf hwork => exact h
  | workNone => exact h
  | handOut hf => exact Stamped.transition h

theorem Stamped.section {s t : State} {a : Action} (hB : Base s) (h : Stamped s.service s.now)
    (hs : Section s a t) : Stamped t.service t.now := by
  cases hs with
  | @tick elapsed =>
    exact ⟨h.updated, fun id ts hts =>
      Int.le_trans (h.past id ts hts) (Int.le_add_of_nonneg_right (Int.natCast_nonneg _))⟩
  | skip => exact h
  | startSession hf hfresh =>
    refine h.of_le (fun id session hs => ?_) (by simp)
    rw [DiscoveryService.getSession_setSession] at hs
    split at hs
    · cases hs
      exact .inl rfl
    · exact .inr ⟨session, hs, rfl⟩
  | updateSession hf haccepts => exact Stamped.update h
  | finishUpdate hf => exact Stamped.finish h
  | cancelSession hf hok hcall => exact h
  | cleanupOldSessions hf =>
    refine h.within (DiscoveryService.cleanupOldSessions_within hB.keyed) ?_
    exact DiscoveryService.cleanupOldSessions_induction (P := fun v => v.lastUpdated = s.service.lastUpdated)
      hB.keyed rfl fun v id session _ _ _ hv => DiscoveryService.removeOld_frame.1.trans hv
  | cleanupStalledSessions hf hperm => exact h
  | getPendingWork hf hidle => exact h
  | pullCancellation => exact h.within (.of_eq rfl rfl) rfl
  | @resume i saved call t hcall hr =>
    have hB' : Base { s with calls := s.calls.eraseIdx i } := hB.of_getSession rfl rfl
    exact Stamped.resumes hB' h hr

/-! ## Getting rid of a session -/

theorem timesOut_of_lastUpdated {s : State} {id : Uuid} {session : DiscoveryUpdatePayload} {ts : DateTime}
    (hk : s.service.Keyed) (h : Stamped s.service s.now) (hs : s.service.getSession id = some session)
    (hactive : session.phase.isActive = true) (hts : s.service.lastUpdated id = some ts) : TimesOut s id := by
  intro later hlater saved
  rw [DiscoveryService.getSession_cleanupStalledSessions hk]
  refine if_pos ⟨session, hs, ?_⟩
  have hpast : (ts : Int) ≤ s.now := h.past id ts hts
  have hphase : session.phase.isTerminal = false := by
    simp only [DiscoveryPhase.isActive, Bool.and_eq_true, Bool.not_eq_true'] at hactive
    exact hactive.1
  simp only [DiscoveryService.isStalled, hphase, hts, Bool.not_false, Bool.true_and, decide_eq_true_eq]
  exact Int.lt_sub_left_of_add_lt (Int.lt_of_le_of_lt (Int.add_le_add_right hpast _) hlater)

theorem cancels_of_running {s : State} {id : Uuid} {session : DiscoveryUpdatePayload}
    (hs : s.service.getSession id = some session) (hactive : session.phase.isActive = true)
    (hphase : session.phase ≠ .starting) : Cancels s id session.daemonId := by
  have hcases : session.phase = .started ∨ session.phase = .scanning := by
    cases hp : session.phase <;> simp_all [DiscoveryPhase.isActive, DiscoveryPhase.isTerminal]
  refine ⟨s.service.requestCancellation (DiscoveryService.cancelledUpdate id session 0 s.now), ?_, .inr ?_⟩
  · rcases hcases with hp | hp <;>
      simp [DiscoveryService.cancelAlone, DiscoveryService.cancelSession, hs, hp]
  · exact AList.lookup_insert _

/-- Nothing gets rid of an unreported session. -/
theorem not_released {s : State} {id : Uuid} {session : DiscoveryUpdatePayload} (hk : s.service.Keyed)
    (h : Stamped s.service s.now) (hs : s.service.getSession id = some session)
    (hun : Unreported s id session) : ¬ (TimesOut s id ∨ Cancels s id session.daemonId) := by
  obtain ⟨hphase, hlast⟩ := hun
  have hstart : session.startedAt = none := by
    by_contra hne
    have := h.updated id session hs (Option.isSome_iff_ne_none.mpr hne)
    rw [hlast] at this
    cases this
  rintro (htime | ⟨v, hv, -⟩)
  · have hgone := htime (s.now + stallThreshold + 1) (Int.lt_succ _) fun _ => none
    rw [DiscoveryService.getSession_cleanupStalledSessions hk, if_neg, hs] at hgone
    · cases hgone
    · rintro ⟨x, hx, hst⟩
      cases hs.symm.trans hx
      simp [DiscoveryService.isStalled, hlast, hstart] at hst
  · simp [DiscoveryService.cancelAlone, DiscoveryService.cancelSession, hs, hphase] at hv

/-- **Which daemons are blocked.** In every state of every run, a session that
takes its daemon can be got rid of exactly if it is not an unreported one. -/
theorem released_iff_reported (as : List Action) :
    Transition.Visits step
      (fun s => ∀ id session, s.service.getSession id = some session → session.phase.isActive = true →
        ((TimesOut s id ∨ Cancels s id session.daemonId) ↔ ¬ Unreported s id session)) {} as := by
  refine Transition.visits_of_inv (I := fun s => Base s ∧ Stamped s.service s.now)
    (fun s a t hI ht => ⟨hI.1.step ht, Stamped.section hI.1 hI.2 (.of_step ht)⟩)
    (fun s ⟨hB, hS⟩ id session hs hactive => ⟨fun hrel hun => not_released hB.keyed hS hs hun hrel, fun hrep => ?_⟩)
    ⟨.init, .init⟩ as
  cases hlast : s.service.lastUpdated id with
  | some ts => exact .inl (timesOut_of_lastUpdated hB.keyed hS hs hactive hlast)
  | none => exact .inr (cancels_of_running hs hactive fun hphase => hrep ⟨hphase, hlast⟩)

/-- A session is handed out and the daemon never reports. -/
theorem daemon_blocked_after_lost_dispatch :
    ¬ Transition.Visits step NoDaemonBlocked {}
      [.startSession ⟨1, 0, 0, ⟨.selfReport 3, .adHoc none, "", 4, 5, []⟩⟩ 7 {}, .resume 0 fun _ => none,
        .resume 0 fun _ => none, .getPendingWork 4, .resume 0 fun _ => none, .resume 0 fun _ => none] := by
  rintro ⟨-, h⟩
  rcases h.2.2.2.2.2.1 7 _ rfl rfl with htime | ⟨v, hv, -⟩
  · exact absurd (htime (stallThreshold + 1) (by decide) fun _ => none) (by decide)
  · cases hv

end Netvisor.Sessions
