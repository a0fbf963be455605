/-
The sections of the session system, each with its guards, and what holds of
every reachable state.
-/
import Mathlib.Data.List.Perm.Basic
import Netvisor.Discovery.ServiceFacts
import Netvisor.Discovery.Sessions

namespace Netvisor.Sessions

open DiscoveryService (Removes)

/-- What the next section of a call does to the state without the call. -/
inductive Resumes (s : State) (saved : Uuid → Option Uuid) : Call → State → Prop
  | startRead {session} :
    Resumes s saved (.startRead session)
      { s with calls := .startQueue session (!(s.service.queue session.daemonId).isEmpty) :: s.calls }
  | startQueue {session running} :
    Resumes s saved (.startQueue session running) { s with service := s.service.startQueued session running }
  | cancelPending {cancelled} (hf : s.finishing = none) :
    Resumes s saved (.cancelPending cancelled)
      { s with
        service := s.service.cancelPending cancelled
        removed := gone s.service (s.service.cancelPending cancelled) [cancelled.sessionId] ++ s.removed }
  | cancelActive {cancelled} :
    Resumes s saved (.cancelActive cancelled) { s with service := s.service.requestCancellation cancelled }
  | request {now stalled session requests} :
    Resumes s saved (.cleanupStalled now stalled (session :: requests))
      { s with
        service := s.service.requestCancellation
          (DiscoveryService.cancelledUpdate session.sessionId session session.progress s.now)
        calls := .cleanupStalled now stalled requests :: s.calls }
  | removeStalled {now stalled} (hf : s.finishing = none) :
    Resumes s saved (.cleanupStalled now stalled [])
      { s with
        service := s.service.removeStalled now saved stalled
        removed := gone s.service (s.service.removeStalled now saved stalled) (stalled.map (·.sessionId)) ++
          s.removed }
  | workPick {daemonId work rest} (hf : s.finishing = none)
      (hwork : s.service.getSessionsForDaemon daemonId = work :: rest) :
    Resumes s saved (.workCheck daemonId) { s with calls := .workPick daemonId work :: s.calls }
  | workNone {daemonId} : Resumes s saved (.workCheck daemonId) s
  | handOut {daemonId work} (hf : s.finishing = none) :
    Resumes s saved (.workPick daemonId work)
      { s with
        service := s.service.transitionSessionToStarting work.sessionId
        handedOut := work.sessionId :: s.handedOut }

/-- What an action does to the state. -/
inductive Section (s : State) : Action → State → Prop
  | tick {elapsed : Nat} : Section s (.tick elapsed) { s with now := s.now + elapsed }
  | skip {a} : Section s a s
  | startSession {discovery sessionId snmpCredentials} (hf : s.finishing = none)
      (hfresh : s.mentions sessionId = false) :
    Section s (.startSession discovery sessionId snmpCredentials)
      { s with
        service := s.service.setSession (DiscoveryService.sessionPayload discovery sessionId snmpCredentials)
        calls := .startRead (DiscoveryService.sessionPayload discovery sessionId snmpCredentials) :: s.calls }
  | updateSession {sender update} (hf : s.finishing = none) (haccepts : sender.accepts update = true) :
    Section s (.updateSession sender update)
      { s with
        service := (s.service.updateSession update s.now).1
        finishing := (s.service.updateSession update s.now).2.map (sender, ·) }
  | finishUpdate {sender f saved} (hf : s.finishing = some (sender, f)) :
    Section s (.finishUpdate saved)
      { s with
        service := s.service.finishUpdate f s.now saved
        finishing := none
        removed := f.session.sessionId :: s.removed }
  | cancelSession {sessionId session call} (hf : s.finishing = none)
      (hok : s.service.cancelSession sessionId = .ok (some session))
      (hcall : call = .cancelPending (DiscoveryService.cancelledUpdate sessionId session 0 s.now) ∨
        call = .cancelActive (DiscoveryService.cancelledUpdate sessionId session 0 s.now)) :
    Section s (.cancelSession sessionId) { s with calls := call :: s.calls }
  | cleanupOldSessions {maxAgeHours} (hf : s.finishing = none) :
    Section s (.cleanupOldSessions maxAgeHours)
      { s with service := s.service.cleanupOldSessions s.now maxAgeHours }
  | cleanupStalledSessions {stalled} (hf : s.finishing = none)
      (hperm : stalled.Perm (s.service.stalledSessions s.now)) :
    Section s (.cleanupStalledSessions stalled) { s with calls := .cleanupStalled s.now stalled stalled :: s.calls }
  | getPendingWork {daemonId} (hf : s.finishing = none)
      (hidle : s.service.hasActiveSessionForDaemon daemonId = false) :
    Section s (.getPendingWork daemonId) { s with calls := .workCheck daemonId :: s.calls }
  | pullCancellation {daemonId} :
    Section s (.pullCancellation daemonId)
      { s with service := (s.service.pullCancellationForDaemon daemonId).2 }
  | resume {i saved call t} (hcall : s.calls[i]? = some call)
      (h : Resumes { s with calls := s.calls.eraseIdx i } saved call t) : Section s (.resume i saved) t

theorem Resumes.of_resume {s t : State} {saved : Uuid → Option Uuid} {call : Call}
    (h : resume s saved call = some t) : Resumes s saved call t := by
  cases call with
  | startRead session =>
    cases h
    exact .startRead
  | startQueue session running =>
    cases h
    exact .startQueue
  | cancelPending cancelled =>
    simp only [Sessions.resume] at h
    split at h
    · cases h
    · next hf =>
      cases h
      exact .cancelPending (by simpa using hf)
  | cancelActive cancelled =>
    cases h
    exact .cancelActive
  | cleanupStalled now stalled requests =>
    cases requests with
    | cons session requests =>
      cases h
      exact .request
    | nil =>
      simp only [Sessions.resume] at h
      split at h
      · cases h
      · next hf =>
        cases h
        exact .removeStalled (by simpa using hf)
  | workCheck daemonId =>
    simp only [Sessions.resume] at h
    split at h
    · cases h
    · next hf =>
      split at h
      · next hwork =>
        cases h
        exact .workPick (by simpa using hf) hwork
      · cases h
        exact .workNone
  | workPick daemonId work =>
    simp only [Sessions.resume] at h
    split at h
    · cases h
    · next hf =>
      cases h
      exact .handOut (by simpa using hf)

theorem step_updateSession {s t : State} {sender : Sender} {update : DiscoveryUpdatePayload}
    (h : step s (.updateSession sender update) = some t) :
    s.finishing = none ∧ sender.accepts update = true ∧
      t = { s with
        service := (s.service.updateSession update s.now).1
        finishing := (s.service.updateSession update s.now).2.map (sender, ·) } := by
  simp only [step] at h
  split at h
  · cases h
  · next hg =>
    simp only [Bool.or_eq_true, not_or, Bool.not_eq_true, Option.isSome_eq_false_iff,
      Option.isNone_iff_eq_none, Bool.not_eq_false'] at hg
    exact ⟨hg.1, hg.2, (Option.some.inj h).symm⟩

/-- **One section at a time.** A step is one of the sections. -/
theorem Section.of_step {s t : State} {a : Action} (h : step s a = some t) : Section s a t := by
  cases a with
  | tick elapsed =>
    cases h
    exact .tick
  | startSession discovery sessionId snmpCredentials =>
    simp only [step] at h
    split at h
    · cases h
    · next hg =>
      cases h
      simp only [Bool.or_eq_true, not_or, Bool.not_eq_true, Option.isSome_eq_false_iff,
        Option.isNone_iff_eq_none] at hg
      exact .startSession hg.1 hg.2
  | updateSession sender update =>
    obtain ⟨hf, haccepts, rfl⟩ := step_updateSession h
    exact .updateSession hf haccepts
  | finishUpdate saved =>
    simp only [step] at h
    split at h
    · next hf =>
      cases h
      exact .finishUpdate hf
    · cases h
  | cancelSession sessionId =>
    simp only [step] at h
    split at h
    · cases h
    · next hf =>
      have hf : s.finishing = none := by simpa using hf
      split at h
      · next hok =>
        cases h
        refine .cancelSession hf hok ?_
        split
        · exact .inl rfl
        · exact .inr rfl
      · cases h
        exact .skip
      · cases h
        exact .skip
  | cleanupOldSessions maxAgeHours =>
    simp only [step] at h
    split at h
    · cases h
    · next hf =>
      cases h
      exact .cleanupOldSessions (by simpa using hf)
  | cleanupStalledSessions stalled =>
    simp only [step] at h
    split at h
    · cases h
    · next hg =>
      simp only [Bool.or_eq_true, not_or, Bool.not_eq_true, Option.isSome_eq_false_iff,
        Option.isNone_iff_eq_none, Bool.not_eq_false', List.isPerm_iff] at hg
      split at h
      · cases h
        exact .skip
      · cases h
        exact .cleanupStalledSessions hg.1 hg.2
  | getPendingWork daemonId =>
    simp only [step] at h
    split at h
    · cases h
    · next hf =>
      split at h
      · cases h
        exact .skip
      · next hidle =>
        cases h
        exact .getPendingWork (by simpa using hf) (by simpa using hidle)
  | pullCancellation daemonId =>
    cases h
    exact .pullCancellation
  | resume i saved =>
    simp only [step] at h
    split at h
    · next hcall => exact .resume hcall (.of_resume h)
    · cases h

/-! ## The ids of a state -/

/-- The id occurs nowhere in the state. -/
structure Fresh (s : State) (id : Uuid) : Prop where
  stored : s.service.getSession id = none
  queued : ∀ daemonId, id ∉ s.service.queue daemonId
  carried : ∀ call ∈ s.calls, id ∉ call.carries
  handedOut : id ∉ s.handedOut
  removed : id ∉ s.removed

theorem Fresh.of_mentions {s : State} {id : Uuid} (h : s.mentions id = false) : Fresh s id := by
  simp only [State.mentions, Bool.or_eq_false_iff, List.any_eq_false, List.contains_eq_mem,
    decide_eq_true_eq, decide_eq_false_iff_not, Option.isSome_eq_false_iff, Option.isNone_iff_eq_none] at h
  obtain ⟨⟨⟨⟨hs, hq⟩, hc⟩, hh⟩, hr⟩ := h
  refine ⟨hs, fun daemonId hmem => ?_, hc, hh, hr⟩
  unfold DiscoveryService.queue Assoc.getD at hmem
  cases hl : s.service.daemonSessions.lookup daemonId with
  | none => simp [hl] at hmem
  | some ids =>
    rw [hl] at hmem
    exact hq ids (Assoc.mem_values.mpr ⟨daemonId, hl⟩) hmem

/-- The calls before a call is resumed: the call and the rest. -/
theorem calls_perm {s : State} {i : Nat} {call : Call} (h : s.calls[i]? = some call) :
    s.calls.Perm (call :: s.calls.eraseIdx i) := by
  obtain ⟨hi, rfl⟩ := List.getElem?_eq_some_iff.mp h
  exact (List.getElem_cons_eraseIdx_perm hi).symm

/-! ## Every reachable state -/

/-- Sessions are stored under their ids, and the session of an update being
finished stays as the update left it. -/
structure Base (s : State) : Prop where
  keyed : s.service.Keyed
  finishing : ∀ sender f, s.finishing = some (sender, f) →
    s.service.getSession f.session.sessionId = some f.session ∧ f.session.phase.isTerminal = true

theorem Base.init : Base {} where
  keyed _ _ h := by cases h
  finishing _ _ h := by cases h

theorem Base.of_getSession {s t : State} (h : Base s) (hg : t.service.getSession = s.service.getSession)
    (hf : t.finishing = s.finishing) : Base t := by
  refine ⟨fun id x hx => ?_, fun sender f hfin => ?_⟩
  · rw [hg] at hx
    exact h.keyed id x hx
  · rw [hf] at hfin
    rw [hg]
    exact h.finishing sender f hfin

theorem Base.of_idle {s : State} (hk : s.service.Keyed) (hf : s.finishing = none) : Base s where
  keyed := hk
  finishing _ _ h := by rw [hf] at h; cases h

theorem Base.resumes {s t : State} {saved : Uuid → Option Uuid} {call : Call} (h : Base s)
    (hs : Resumes s saved call t) : Base t := by
  cases hs with
  | startRead => exact h.of_getSession rfl rfl
  | startQueue => exact h.of_getSession (by simp) rfl
  | cancelPending hf => exact .of_idle (DiscoveryService.removes_cancelPending.keyed h.keyed) hf
  | cancelActive => exact h.of_getSession rfl rfl
  | request => exact h.of_getSession rfl rfl
  | removeStalled hf =>
    exact .of_idle (DiscoveryService.removeStalled_induction h.keyed h.keyed
      (fun _ _ _ _ _ _ hr hk => hr.keyed hk) fun _ hk => hk) hf
  | workPick hf hwork => exact h.of_getSession rfl rfl
  | workNone => exact h
  | handOut hf => exact .of_idle h.keyed.transitionSessionToStarting hf

theorem Base.section {s t : State} {a : Action} (h : Base s) (hs : Section s a t) : Base t := by
  cases hs with
  | tick => exact h.of_getSession rfl rfl
  | skip => exact h
  | startSession hf hfresh => exact .of_idle h.keyed.setSession hf
  | @updateSession sender update hf haccepts =>
    refine ⟨h.keyed.updateSession, fun sender' f hfin => ?_⟩
    simp only [DiscoveryService.finishing_updateSession] at hfin
    split at hfin
    · next hterm =>
      cases hfin
      exact ⟨by simp [DiscoveryService.getSession_updateSession, hterm.2], hterm.1⟩
    · cases hfin
  | finishUpdate hf => exact .of_idle h.keyed.finishUpdate rfl
  | cancelSession hf hok hcall => exact h.of_getSession rfl rfl
  | cleanupOldSessions hf =>
    exact .of_idle (DiscoveryService.cleanupOldSessions_induction h.keyed h.keyed
      fun _ _ _ _ _ hr hk => hr.keyed hk) hf
  | cleanupStalledSessions hf hperm => exact h.of_getSession rfl rfl
  | getPendingWork hf hidle => exact h.of_getSession rfl rfl
  | pullCancellation => exact h.of_getSession rfl rfl
  | @resume i _ _ _ _ hr =>
    have hrest : Base { s with calls := s.calls.eraseIdx i } := h.of_getSession rfl rfl
    exact hrest.resumes hr

theorem Base.step {s t : State} {a : Action} (h : Base s) (hs : Sessions.step s a = some t) : Base t :=
  h.section (.of_step hs)

end Netvisor.Sessions
