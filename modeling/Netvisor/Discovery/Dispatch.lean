/-
Handing out work: `get_pending_work` asks whether the daemon has an active
session, picks the first pending one and marks it as starting, each under a
lock of its own.

What these three steps rely on can change between them. The conditions below
say that it does not: while a call for a daemon is under way, no other section
makes a session of that daemon's queue active, and no other call hands out the
session it picked. With that, and if no update sets a dispatched session back to
pending and no finished session's queue is headed by one, work is handed out
once and only to an idle daemon.
-/
import Netvisor.Discovery.SessionsFacts

namespace Netvisor.Sessions

open DiscoveryService (Within)

/-- The daemon a `get_pending_work` call is for. -/
def Call.worksFor : Call → Option Uuid
  | .workCheck daemonId | .workPick daemonId _ => some daemonId
  | _ => none

/-- The session a `get_pending_work` call has picked. -/
def Call.picked : Call → Option Uuid
  | .workPick _ work => some work.sessionId
  | _ => none

/-- A session handed out is not pending again. -/
def NotPendingAgain (s : State) : Prop :=
  ∀ id ∈ s.handedOut, ∀ session ∈ s.service.getSession id, session.phase ≠ .pending

/-- A call that hands out its session hands it out for the first time, and no
other session in the daemon's queue is active. -/
def HandsOutIdle (s : State) : Call → Prop
  | .workPick daemonId work =>
    work.sessionId ∉ s.handedOut ∧
      ∀ id ∈ s.service.queue daemonId, id ≠ work.sessionId → s.service.isActive id = false
  | _ => True

def Exclusive (s : State) (a : Action) (t : State) : Prop :=
  (match a with
    | .resume i _ => ∀ call ∈ s.calls[i]?, HandsOutIdle s call
    | _ => True) ∧ NotPendingAgain t

/-- What a call resumed among the other calls must leave alone. A session that
joins a queue active is one that any call for the daemon has picked; a session
handed out is in no queue another call works for, and picked by none. -/
def SerialCall (s : State) : Call → Prop
  | .startQueue session _ =>
    s.service.isActive session.sessionId = true →
      ∀ c ∈ s.calls, c.worksFor = some session.daemonId → c.picked = some session.sessionId
  | .workPick _ work =>
    ∀ c ∈ s.calls, c.picked ≠ some work.sessionId ∧
      ∀ daemonId ∈ c.worksFor, work.sessionId ∉ s.service.queue daemonId
  | _ => True

/-- Calls for one daemon do not interfere: an update makes active no session in
the queue of a daemon being served, other than the one picked for it, and sets
none back to pending that was handed out; nor does the end of a session. -/
def Serial (s : State) : Action → Prop
  | .updateSession _ update =>
    (update.phase = .pending → update.sessionId ∉ s.handedOut) ∧
      (update.phase.isActive = true → ∀ c ∈ s.calls, ∀ daemonId ∈ c.worksFor,
        update.sessionId ∈ s.service.queue daemonId ∨
          (s.service.creates update = true ∧ daemonId = update.daemonId) →
        c.picked = some update.sessionId)
  | .finishUpdate _ => ∀ p ∈ s.finishing, ∀ next ∈ s.service.nextSession p.2, next ∉ s.handedOut
  | .resume i _ => ∀ call ∈ s.calls[i]?, SerialCall { s with calls := s.calls.eraseIdx i } call
  | _ => True

instance (s : State) : Decidable (NotPendingAgain s) := inferInstanceAs (Decidable (∀ id ∈ s.handedOut, _))

instance (s : State) (call : Call) : Decidable (HandsOutIdle s call) := by
  cases call <;> unfold HandsOutIdle <;> infer_instance

instance (s : State) (a : Action) (t : State) : Decidable (Exclusive s a t) := by
  unfold Exclusive
  cases a <;> infer_instance

instance (s : State) (call : Call) : Decidable (SerialCall s call) := by
  cases call <;> unfold SerialCall <;> infer_instance

instance (s : State) (a : Action) : Decidable (Serial s a) := by
  cases a <;> unfold Serial <;> infer_instance

/-- What every `get_pending_work` call under way relies on, and the sessions handed out. -/
structure Dispatch (s : State) : Prop where
  idle : ∀ c ∈ s.calls, ∀ daemonId ∈ c.worksFor, ∀ id ∈ s.service.queue daemonId,
    c.picked ≠ some id → s.service.isActive id = false
  unpicked : ∀ c ∈ s.calls, ∀ id ∈ c.picked, id ∉ s.handedOut
  notPendingAgain : NotPendingAgain s

theorem Dispatch.init : Dispatch {} where
  idle _ h := by cases h
  unpicked _ h := by cases h
  notPendingAgain _ h := by cases h

theorem isActive_eq_true {v : DiscoveryService} {id : Uuid} :
    v.isActive id = true ↔ ∃ session, v.getSession id = some session ∧ session.phase.isActive = true := by
  unfold DiscoveryService.isActive
  cases v.getSession id <;> simp

theorem isActive_of_getSession {v w : DiscoveryService} {id : Uuid}
    (h : ∀ session, w.getSession id = some session → session.phase.isActive = true →
      v.getSession id = some session) (hv : v.isActive id = false) : w.isActive id = false := by
  rw [Bool.eq_false_iff]
  intro hw
  obtain ⟨session, hs, ha⟩ := isActive_eq_true.mp hw
  exact Bool.eq_false_iff.mp hv (isActive_eq_true.mpr ⟨session, h session hs ha, ha⟩)

/-- Removing sessions, or adding calls that hand out no work, disturbs nothing. -/
theorem Dispatch.of_le {s t : State} (h : Dispatch s)
    (hle : Within t.service s.service)
    (hcalls : ∀ c ∈ t.calls, c ∈ s.calls ∨ c.worksFor = none ∧ c.picked = none)
    (hout : t.handedOut = s.handedOut) : Dispatch t := by
  refine ⟨fun c hc d hd id hid hne => ?_, fun c hc id hid => ?_, fun id hid session hs => ?_⟩
  · rcases hcalls c hc with hc | ⟨hn, -⟩
    · exact isActive_of_getSession (fun x hx _ => hle.getSession id x hx)
        (h.idle c hc d hd id (hle.queue d hid) hne)
    · rw [hn] at hd
      cases hd
  · rw [hout]
    rcases hcalls c hc with hc | ⟨-, hn⟩
    · exact h.unpicked c hc id hid
    · rw [hn] at hid
      cases hid
  · exact h.notPendingAgain id (hout ▸ hid) session (hle.getSession id session hs)

/-- An update activates its session or none; an active one is in the queue of
no daemon being served, unless it is the session picked. -/
theorem Dispatch.update {s : State} {update : DiscoveryUpdatePayload} {finishing : Option (Sender × Finishing)}
    (h : Dispatch s) (hpending : update.phase = .pending → update.sessionId ∉ s.handedOut)
    (hactive : update.phase.isActive = true → ∀ c ∈ s.calls, ∀ daemonId ∈ c.worksFor,
      update.sessionId ∈ s.service.queue daemonId ∨
        (s.service.creates update = true ∧ daemonId = update.daemonId) →
      c.picked = some update.sessionId) :
    Dispatch { s with service := (s.service.updateSession update s.now).1, finishing } := by
  refine ⟨fun c hc d hd id hid hne => ?_, h.unpicked, fun id hid session hs => ?_⟩
  · have hq : id ∈ s.service.queue d ∨ s.service.creates update = true ∧ d = update.daemonId ∧
        id = update.sessionId := by
      simp only [DiscoveryService.queue_updateSession] at hid
      split at hid
      · next hcr =>
        rcases List.mem_append.mp hid with hid | hid
        · exact .inl hid
        · exact .inr ⟨hcr.1, hcr.2, List.mem_singleton.mp hid⟩
      · exact .inl hid
    rw [Bool.eq_false_iff]
    intro ha
    obtain ⟨x, hx, hxa⟩ := isActive_eq_true.mp ha
    simp only [DiscoveryService.getSession_updateSession] at hx
    split at hx
    · next hupd =>
      cases hx
      obtain ⟨rfl, -⟩ := hupd
      exact hne (hactive hxa c hc d hd (hq.imp_right fun hcr => ⟨hcr.1, hcr.2.1⟩))
    · next hupd =>
      have hmem : id ∈ s.service.queue d := by
        refine hq.resolve_right fun ⟨hcr, _, he⟩ => hupd ⟨he, ?_⟩
        simp only [DiscoveryService.creates, Bool.and_eq_true, Bool.not_eq_true'] at hcr
        exact hcr.2
      have hidle := h.idle c hc d hd id hmem hne
      exact Bool.eq_false_iff.mp hidle (isActive_eq_true.mpr ⟨x, hx, hxa⟩)
  · simp only [DiscoveryService.getSession_updateSession, Option.mem_def] at hs
    split at hs
    · next hupd =>
      cases hs
      obtain ⟨rfl, -⟩ := hupd
      exact fun hp => hpending hp hid
    · exact h.notPendingAgain id hid session hs

theorem Dispatch.finish {s : State} {f : Finishing} {saved : Option Uuid} {removed : List Uuid} (h : Dispatch s)
    (hnext : ∀ next ∈ s.service.nextSession f, next ∉ s.handedOut) :
    Dispatch { s with service := s.service.finishUpdate f s.now saved, finishing := none, removed } := by
  refine ⟨fun c hc d hd id hid hne => ?_, h.unpicked, fun id hid session hs => ?_⟩
  · have hmem : id ∈ s.service.queue d := by
      simp only [DiscoveryService.queue_finishUpdate] at hid
      split at hid
      · exact (List.mem_filter.mp hid).1
      · exact hid
    refine isActive_of_getSession (fun x hx ha => ?_) (h.idle c hc d hd id hmem hne)
    rw [DiscoveryService.getSession_finishUpdate] at hx
    split at hx
    · cases hx
    · split at hx
      · -- the new head of the queue is pending
        obtain ⟨y, -, rfl⟩ := Option.map_eq_some_iff.mp hx
        cases ha
      · exact hx
  · simp only [DiscoveryService.getSession_finishUpdate, Option.mem_def] at hs
    split at hs
    · cases hs
    · split at hs
      · next hhead => exact absurd hid (hnext id hhead)
      · exact h.notPendingAgain id hid session hs

/-- A section of a call among the other calls. -/
theorem Dispatch.resumes {s t : State} {saved : Uuid → Option Uuid} {call : Call} (hB : Base s)
    (h : Dispatch { s with calls := call :: s.calls }) (hok : SerialCall s call) (hs : Resumes s saved call t) :
    Dispatch t := by
  have hrest : Dispatch s :=
    h.of_le (.of_eq rfl rfl) (fun c hc => .inl (List.mem_cons_of_mem _ hc)) rfl
  cases hs with
  | startRead =>
    refine hrest.of_le (.of_eq rfl rfl) (fun c hc => ?_) rfl
    rcases List.mem_cons.mp hc with rfl | hc
    · exact .inr ⟨rfl, rfl⟩
    · exact .inl hc
  | @startQueue session running =>
    refine ⟨fun c hc d hd id hid hne => ?_, hrest.unpicked, ?_⟩
    · have hactive : (s.service.startQueued session running).isActive id = s.service.isActive id := by
        simp only [DiscoveryService.isActive, DiscoveryService.startQueued_frame]
      rw [hactive]
      simp only [DiscoveryService.queue_startQueued] at hid
      split at hid
      · next hds =>
        subst hds
        rcases List.mem_append.mp hid with hid | hid
        · exact hrest.idle c hc _ hd id hid hne
        · obtain rfl := List.mem_singleton.mp hid
          exact Bool.eq_false_iff.mpr fun ha => hne (hok ha c hc hd)
      · exact hrest.idle c hc d hd id hid hne
    · intro id hid x hx
      simp only [DiscoveryService.startQueued_frame] at hx
      exact hrest.notPendingAgain id hid x hx
  | cancelPending hf => exact hrest.of_le DiscoveryService.removes_cancelPending.within (fun c hc => .inl hc) rfl
  | cancelActive => exact hrest.of_le (.of_eq rfl rfl) (fun c hc => .inl hc) rfl
  | request =>
    refine hrest.of_le (.of_eq rfl rfl) (fun c hc => ?_) rfl
    rcases List.mem_cons.mp hc with rfl | hc
    · exact .inr ⟨rfl, rfl⟩
    · exact .inl hc
  | removeStalled hf =>
    exact hrest.of_le (DiscoveryService.removeStalled_within hB.keyed) (fun c hc => .inl hc) rfl
  | @workPick daemonId work rest hf hwork =>
    have hmem : work ∈ s.service.getSessionsForDaemon daemonId := hwork ▸ List.mem_cons_self
    obtain ⟨hp, id, -, hid⟩ := DiscoveryService.mem_getSessionsForDaemon.mp hmem
    obtain rfl := hB.keyed id work hid
    refine ⟨fun c hc d hd id hid' hne => ?_, fun c hc id hid' => ?_, hrest.notPendingAgain⟩
    · rcases List.mem_cons.mp hc with rfl | hc
      · exact h.idle _ List.mem_cons_self d hd id hid' (by simp [Call.picked])
      · exact hrest.idle c hc d hd id hid' hne
    · rcases List.mem_cons.mp hc with rfl | hc
      · cases hid'
        exact fun hout => hrest.notPendingAgain _ hout work hid hp
      · exact hrest.unpicked c hc id hid'
  | workNone => exact hrest
  | @handOut daemonId work hf =>
    refine ⟨fun c hc d hd id hid hne => ?_, fun c hc id hid hout => ?_, fun id hid session hs => ?_⟩
    · simp only [DiscoveryService.transitionSessionToStarting_frame] at hid
      have hother : id ≠ work.sessionId := fun he => (hok c hc).2 d hd (he ▸ hid)
      refine isActive_of_getSession (fun x hx _ => ?_) (hrest.idle c hc d hd id hid hne)
      rw [DiscoveryService.getSession_transitionSessionToStarting, if_neg hother] at hx
      exact hx
    · rcases List.mem_cons.mp hout with rfl | hout
      · exact (hok c hc).1 hid
      · exact hrest.unpicked c hc id hid hout
    · simp only [DiscoveryService.getSession_transitionSessionToStarting, Option.mem_def] at hs
      split at hs
      · obtain ⟨x, -, rfl⟩ := Option.map_eq_some_iff.mp hs
        split
        · simp
        · next hne => exact hne
      · next hne =>
        exact hrest.notPendingAgain id (List.mem_of_ne_of_mem hne hid) session hs

theorem Dispatch.section {s t : State} {a : Action} (hB : Base s) (h : Dispatch s) (hok : Serial s a)
    (hs : Section s a t) : Dispatch t := by
  cases hs with
  | tick => exact h.of_le (.of_eq rfl rfl) (fun c hc => .inl hc) rfl
  | skip => exact h
  | @startSession discovery sessionId snmpCredentials hf hfresh =>
    have hnew := Fresh.of_mentions hfresh
    have hget : ∀ id, (s.service.setSession
        (DiscoveryService.sessionPayload discovery sessionId snmpCredentials)).getSession id =
        if id = sessionId then some (DiscoveryService.sessionPayload discovery sessionId snmpCredentials)
        else s.service.getSession id := fun id => DiscoveryService.getSession_setSession
    refine ⟨fun c hc d hd id hid hne => ?_, fun c hc id hid => ?_, fun id hid session hx => ?_⟩
    · have hother : id ≠ sessionId := fun he => hnew.queued d (he ▸ hid)
      rcases List.mem_cons.mp hc with rfl | hc
      · cases hd
      · refine isActive_of_getSession (fun x hx _ => ?_) (h.idle c hc d hd id hid hne)
        rw [hget, if_neg hother] at hx
        exact hx
    · rcases List.mem_cons.mp hc with rfl | hc
      · cases hid
      · exact h.unpicked c hc id hid
    · have hother : id ≠ sessionId := fun he => hnew.handedOut (he ▸ hid)
      simp only [hget, if_neg hother] at hx
      exact h.notPendingAgain id hid session hx
  | updateSession hf haccepts => exact h.update hok.1 hok.2
  | finishUpdate hf => exact h.finish (hok _ hf)
  | cancelSession hf hok' hcall =>
    refine h.of_le (.of_eq rfl rfl) (fun c hc => ?_) rfl
    rcases List.mem_cons.mp hc with rfl | hc
    · rcases hcall with rfl | rfl <;> exact .inr ⟨rfl, rfl⟩
    · exact .inl hc
  | cleanupOldSessions hf =>
    exact h.of_le (DiscoveryService.cleanupOldSessions_within hB.keyed) (fun c hc => .inl hc) rfl
  | cleanupStalledSessions hf hperm =>
    refine h.of_le (.of_eq rfl rfl) (fun c hc => ?_) rfl
    rcases List.mem_cons.mp hc with rfl | hc
    · exact .inr ⟨rfl, rfl⟩
    · exact .inl hc
  | @getPendingWork daemonId hf hidle =>
    simp only [DiscoveryService.hasActiveSessionForDaemon, List.any_eq_false, Bool.not_eq_true] at hidle
    refine ⟨fun c hc d hd id hid hne => ?_, fun c hc id hid => ?_, h.notPendingAgain⟩
    · rcases List.mem_cons.mp hc with rfl | hc
      · cases hd
        exact hidle id hid
      · exact h.idle c hc d hd id hid hne
    · rcases List.mem_cons.mp hc with rfl | hc
      · cases hid
      · exact h.unpicked c hc id hid
  | pullCancellation => exact h.of_le (.of_eq rfl rfl) (fun c hc => .inl hc) rfl
  | @resume i saved call t hcall hr =>
    have hB' : Base { s with calls := s.calls.eraseIdx i } := hB.of_getSession rfl rfl
    have h' : Dispatch { s with calls := call :: s.calls.eraseIdx i } :=
      h.of_le (.of_eq rfl rfl) (fun c hc => .inl ((calls_perm hcall).mem_iff.mpr hc)) rfl
    exact Dispatch.resumes hB' h' (hok call hcall) hr

theorem Dispatch.handsOutIdle {s : State} {a : Action} (h : Dispatch s) :
    match a with
    | .resume i _ => ∀ call ∈ s.calls[i]?, HandsOutIdle s call
    | _ => True := by
  cases a with
  | resume i saved =>
    intro call hcall
    have hmem : call ∈ s.calls := List.mem_of_getElem? hcall
    cases call with
    | workPick daemonId work =>
      refine ⟨h.unpicked _ hmem _ rfl, fun id hid hne => h.idle _ hmem daemonId rfl id hid ?_⟩
      simpa [Call.picked] using hne.symm
    | _ => trivial
  | _ => trivial

/-- **Work is handed out once and to idle daemons only**, in every run whose
steps are serial. -/
theorem exclusive_of_serial (as : List Action) (h : Transition.Along step Serial {} as) :
    Transition.Every step Exclusive {} as :=
  h.every (I := fun s => Base s ∧ Dispatch s)
    (fun _ _ _ hI hok ht => ⟨hI.1.step ht, Dispatch.section hI.1 hI.2 hok (.of_step ht)⟩)
    (fun _ _ _ hI hok ht =>
      ⟨hI.2.handsOutIdle, (Dispatch.section hI.1 hI.2 hok (.of_step ht)).notPendingAgain⟩) ⟨.init, .init⟩

/-- A session handed out and reported on, and then another. -/
theorem exclusive_of_serial_run : Transition.Every step Exclusive {}
    [.startSession ⟨1, 0, 0, ⟨.selfReport 3, .adHoc none, "", 4, 5, []⟩⟩ 7 {}, .resume 0 fun _ => none,
      .resume 0 fun _ => none, .startSession ⟨1, 0, 0, ⟨.selfReport 3, .adHoc none, "", 4, 5, []⟩⟩ 8 {},
      .resume 0 fun _ => none, .resume 0 fun _ => none, .getPendingWork 4, .resume 0 fun _ => none,
      .resume 0 fun _ => none,
      .updateSession ⟨.daemonPoll, 4, 5⟩ { sessionId := 7, daemonId := 4, networkId := 5, phase := .complete },
      .finishUpdate (some 9), .getPendingWork 4, .resume 0 fun _ => none, .resume 0 fun _ => none] :=
  exclusive_of_serial _ (by decide)

/-- Two requests for work that both find the daemon idle are given the same session. -/
theorem handed_out_twice :
    ¬ Transition.Every step Exclusive {}
      [.startSession ⟨1, 0, 0, ⟨.selfReport 3, .adHoc none, "", 4, 5, []⟩⟩ 7 {}, .resume 0 fun _ => none,
        .resume 0 fun _ => none, .getPendingWork 4, .getPendingWork 4, .resume 0 fun _ => none,
        .resume 1 fun _ => none, .resume 0 fun _ => none, .resume 0 fun _ => none] := by
  decide

end Netvisor.Sessions
