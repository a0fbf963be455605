/-
Cancellations between the server and its daemons: the flag of each daemon,
which four operations overwrite, pull or clear, the messages on their way, and
the run a daemon has in progress when one of them arrives.

The work answer says only that there is a cancellation, and the cancel handler
ignores the session id it is sent: a daemon cancels whatever it runs.
-/
import Netvisor.Daemons.Subscriber
import Netvisor.Discovery.SessionsFacts

namespace Netvisor

namespace DiscoveryService

/-- A cancellation of the session is recorded for the daemon. -/
def Flagged (v : DiscoveryService) (daemonId sessionId : Uuid) : Prop :=
  v.cancellation daemonId = some (true, sessionId)

instance (v : DiscoveryService) (daemonId sessionId : Uuid) : Decidable (Flagged v daemonId sessionId) := by
  unfold Flagged
  infer_instance

variable {v w : DiscoveryService} {now : DateTime} {daemonId id : Uuid}

theorem cancellation_requestCancellation {cancelled : DiscoveryUpdatePayload} :
    (v.requestCancellation cancelled).cancellation id =
      if id = cancelled.daemonId then some (true, cancelled.sessionId) else v.cancellation id :=
  Assoc.lookup_insert_if

theorem not_flagged_requestCancellation {cancelled : DiscoveryUpdatePayload} (hd : cancelled.daemonId = daemonId)
    (hid : id ≠ cancelled.sessionId) : ¬ Flagged (v.requestCancellation cancelled) daemonId id := by
  unfold Flagged
  rw [cancellation_requestCancellation, if_pos hd.symm]
  intro h
  simp only [Option.some.injEq, Prod.mk.injEq, true_and] at h
  exact hid h.symm

theorem Flagged.requestCancellation {cancelled : DiscoveryUpdatePayload} (h : Flagged v daemonId id)
    (hd : cancelled.daemonId ≠ daemonId) : Flagged (v.requestCancellation cancelled) daemonId id := by
  unfold Flagged at h ⊢
  rwa [cancellation_requestCancellation, if_neg hd.symm]

theorem cancellation_removeOld {sessionId : Uuid} {session : DiscoveryUpdatePayload}
    (h : v.getSession sessionId = some session) : (v.removeOld sessionId).cancellation id =
      if id = session.daemonId then none else v.cancellation id := by
  simp only [removeOld, h]
  exact Assoc.lookup_erase_if

theorem getSession_removeOld {sessionId : Uuid} :
    (v.removeOld sessionId).getSession id = if id = sessionId then none else v.getSession id := by
  cases h : v.getSession sessionId with
  | none =>
    rw [removeOld_absent h]
    split
    · next hid => rw [hid, h]
    · rfl
  | some session =>
    simp only [removeOld, h]
    exact Assoc.lookup_erase_if

/-- The cleanup of old sessions clears the flags of their daemons. -/
theorem cancellation_foldl_removeOld : ∀ {ids : List Uuid} {v : DiscoveryService},
    (ids.foldl removeOld v).cancellation daemonId =
      if ∃ sessionId ∈ ids, ∃ session ∈ v.getSession sessionId, session.daemonId = daemonId then none
      else v.cancellation daemonId
  | [], v => by simp
  | sessionId :: ids, v => by
    rw [List.foldl_cons, cancellation_foldl_removeOld]
    cases h : v.getSession sessionId with
    | none =>
      rw [removeOld_absent h]
      simp [h]
    | some session =>
      simp only [getSession_removeOld, cancellation_removeOld h, List.exists_mem_cons_iff, h, Option.mem_def,
        Option.some.injEq, exists_eq_left']
      by_cases hd : session.daemonId = daemonId
      · simp [hd]
      · -- what is left of the sessions is as it was
        have hrest : (∃ x ∈ ids, ∃ y, (if x = sessionId then none else v.getSession x) = some y ∧
          y.daemonId = daemonId) ↔
            ∃ x ∈ ids, ∃ y, v.getSession x = some y ∧ y.daemonId = daemonId := by
          refine exists_congr fun x => and_congr_right fun _ => exists_congr fun y => and_congr_left fun hy => ?_
          by_cases hx : x = sessionId
          · subst hx
            simp only [if_true, reduceCtorEq, h, Option.some.injEq, false_iff]
            rintro rfl
            exact hd hy
          · rw [if_neg hx]
        rw [if_neg (Ne.symm hd)]
        exact if_congr (hrest.trans (by simp [hd])) rfl rfl

/-- Failing a stalled session drops no flag for another one. -/
theorem flagged_failStalled {saved : Uuid → Option Uuid} {stalled : DiscoveryUpdatePayload} (hk : v.Keyed)
    (h : Flagged v daemonId id) (hne : id ≠ stalled.sessionId) :
    Flagged (v.failStalled now saved stalled) daemonId id := by
  unfold Flagged at h ⊢
  cases hs : v.getSession stalled.sessionId with
  | none => rwa [failStalled_absent hs]
  | some session =>
    have hid : session.sessionId = stalled.sessionId := hk _ _ hs
    simp only [failStalled, hs, createHistorical_frame]
    unfold dropCancellation
    simp only [send_frame, forget_frame, dequeue_frame, removeSession_frame]
    split
    · next cancelSessionId hflag =>
      split
      · next heq =>
        rw [cancellation_clearCancellation]
        simp only [send_frame, forget_frame, dequeue_frame, removeSession_frame]
        rw [if_neg, h]
        rintro rfl
        rw [h] at hflag
        simp only [Option.some.injEq, Prod.mk.injEq] at hflag
        exact hne (hflag.2.trans ((beq_iff_eq.mp heq).trans hid))
      · exact h
    · exact h

end DiscoveryService

namespace Cancellation

open DiscoveryService (Flagged)

/-- A run of a daemon, and, as history, the session whose cancellation cancelled its token. -/
structure Run where
  sessionId : Uuid
  cancelledBy : Option Uuid := none
deriving DecidableEq, Repr

/-- A message of the server to a daemon. -/
inductive Message
  /-- The answer to a work request; the daemon sees only whether there is a cancellation. -/
  | work (daemonId : Uuid) (work cancellation : Option Uuid)
  | initiate (daemonId sessionId : Uuid)
  | cancel (daemonId sessionId : Uuid)
deriving DecidableEq, Repr

structure State where
  server : Sessions.State := {}
  flight : List Message := []
  runs : Assoc Uuid Run := ∅

inductive Action
  /-- A section of the server other than the pull of a cancellation. -/
  | server (a : Sessions.Action)
  /-- The end of `receive_work_request`: the flag is pulled and the answer sent. -/
  | respond (daemonId : Uuid) (work : Option Uuid)
  /-- `poll_daemon` sends the work it was given. -/
  | initiate (daemonId sessionId : Uuid)
  /-- `DaemonService` handles a published event, or sends its request once more. -/
  | notify (registry : DaemonService.Registry) (event : DiscoveryUpdatePayload)
  | deliver (i : Nat)
  | lose (i : Nat)
  | finish (daemonId : Uuid)

/-- `cancel_current_session`: nothing if no run is in progress. -/
def cancelRun (runs : Assoc Uuid Run) (daemonId : Uuid) (cancellation : Uuid) : Assoc Uuid Run :=
  runs.modify daemonId fun run => { run with cancelledBy := run.cancelledBy <|> some cancellation }

/-- A run is started unless one is in progress. -/
def startRun (runs : Assoc Uuid Run) (daemonId sessionId : Uuid) : Assoc Uuid Run :=
  if (runs.lookup daemonId).isSome then runs else runs.insert daemonId { sessionId }

def receive (runs : Assoc Uuid Run) : Message → Assoc Uuid Run
  | .work daemonId work cancellation =>
    let runs := match cancellation with
      | some sessionId => cancelRun runs daemonId sessionId
      | none => runs
    match work with
    | some sessionId => startRun runs daemonId sessionId
    | none => runs
  | .initiate daemonId sessionId => startRun runs daemonId sessionId
  -- `handle_cancel_request` does not look at the session id
  | .cancel daemonId sessionId => cancelRun runs daemonId sessionId

/-- The message a request of `DaemonService` is. -/
def message : DaemonRequest → Message
  | .initiate daemonId _ sessionId _ => .initiate daemonId sessionId
  | .cancel daemonId _ sessionId => .cancel daemonId sessionId

def step (s : State) : Action → Option State
  | .server (.pullCancellation _) => none
  | .server a => (Sessions.step s.server a).map fun server => { s with server }
  | .respond daemonId work =>
    if work.all s.server.handedOut.contains then
      let ((hasCancellation, sessionId), service) := s.server.service.pullCancellationForDaemon daemonId
      let cancellation := if hasCancellation then some sessionId else none
      some { s with
        server := { s.server with service }
        flight := .work daemonId work cancellation :: s.flight }
    else none
  | .initiate daemonId sessionId =>
    if s.server.handedOut.contains sessionId then
      some { s with flight := .initiate daemonId sessionId :: s.flight }
    else none
  | .notify registry event =>
    if event ∈ s.server.service.events then
      some { s with flight := (DaemonService.onPublished registry event).map message ++ s.flight }
    else none
  | .deliver i =>
    match s.flight[i]? with
    | some m => some { s with flight := s.flight.eraseIdx i, runs := receive s.runs m }
    | none => none
  | .lose i => some { s with flight := s.flight.eraseIdx i }
  | .finish daemonId => some { s with runs := s.runs.erase daemonId }

/-! ## Whose flag a section touches -/

/-- The sessions a section cancels, finishes or removes. -/
def own (s : Sessions.State) : Sessions.Action → List Uuid
  | .finishUpdate _ => s.finishing.toList.map (·.2.session.sessionId)
  | .resume i _ =>
    match s.calls[i]? with
    | some (.cancelActive cancelled) => [cancelled.sessionId]
    | some (.cleanupStalled _ _ (session :: _)) => [session.sessionId]
    | some (.cleanupStalled _ stalled []) => stalled.map (·.sessionId)
    | _ => []
  | .cleanupOldSessions maxAgeHours => s.service.oldSessions (s.now - hours maxAgeHours)
  | _ => []

/-- The section sets or clears the flag of the daemon, whomever it is for. -/
def Touches (s : Sessions.State) (daemonId : Uuid) : Sessions.Action → Prop
  | .finishUpdate _ => ∃ f ∈ s.finishing, f.2.session.daemonId = daemonId
  | .resume i _ =>
    match s.calls[i]? with
    | some (.cancelActive cancelled) => cancelled.daemonId = daemonId
    | some (.cleanupStalled _ _ (session :: _)) => session.daemonId = daemonId
    | _ => False
  | .cleanupOldSessions maxAgeHours => ∃ id ∈ s.service.oldSessions (s.now - hours maxAgeHours),
      ∃ session ∈ s.service.getSession id, session.daemonId = daemonId
  | _ => False

variable {s t : Sessions.State} {a : Sessions.Action} {daemonId id : Uuid}

/-- After a section that touches a flag, the flag is not there for any session but its own. -/
theorem not_flagged_of_touches (hs : Sessions.step s a = some t) (h : Touches s daemonId a) (hown : id ∉ own s a) :
    ¬ Flagged t.service daemonId id := by
  cases a with
  | finishUpdate saved =>
    obtain ⟨⟨sender, f⟩, hf, hd⟩ := h
    simp only [Sessions.step, Option.mem_def.mp hf] at hs
    cases hs
    unfold Flagged
    rw [DiscoveryService.cancellation_finishUpdate, if_pos hd.symm]
    simp
  | resume i saved =>
    simp only [Sessions.step] at hs
    split at hs
    · next call hcall =>
      have hresumes := Sessions.Resumes.of_resume hs
      simp only [Touches, own, hcall] at h hown
      cases hresumes with
      | cancelActive => exact DiscoveryService.not_flagged_requestCancellation h (by simpa using hown)
      | request =>
        exact DiscoveryService.not_flagged_requestCancellation h
          (by simpa [DiscoveryService.cancelledUpdate] using hown)
      | _ => exact h.elim
    · cases hs
  | cleanupOldSessions maxAgeHours =>
    simp only [Sessions.step] at hs
    split at hs
    · cases hs
    · cases hs
      simp only [Touches] at h
      unfold Flagged DiscoveryService.cleanupOldSessions
      rw [DiscoveryService.cancellation_foldl_removeOld, if_pos h]
      simp
  | _ => exact h.elim

/-- A section that touches a flag of another daemon, or removes other sessions, leaves the flag. -/
theorem flagged_of_not_touches (hk : s.service.Keyed) (hs : Sessions.Section s a t)
    (h : Flagged s.service daemonId id)
    (hown : id ∉ own s a) (htouches : ¬ Touches s daemonId a) (hpull : ∀ d, a ≠ .pullCancellation d) :
    Flagged t.service daemonId id := by
  unfold Flagged at h ⊢
  cases hs with
  | tick => exact h
  | skip => exact h
  | startSession hf hfresh => exact h
  | updateSession hf haccepts => rwa [DiscoveryService.updateSession_frame.1]
  | @finishUpdate sender f saved hf =>
    rw [DiscoveryService.cancellation_finishUpdate, if_neg, h]
    rintro rfl
    exact htouches ⟨(sender, f), hf, rfl⟩
  | cancelSession hf hok hcall => exact h
  | cleanupOldSessions hf =>
    simp only [Touches] at htouches
    unfold DiscoveryService.cleanupOldSessions
    rw [DiscoveryService.cancellation_foldl_removeOld, if_neg htouches]
    exact h
  | cleanupStalledSessions hf hperm => exact h
  | getPendingWork hf hidle => exact h
  | @pullCancellation d => exact absurd rfl (hpull d)
  | @resume i saved call t hcall hr =>
    simp only [Touches, own, hcall] at htouches hown
    cases hr with
    | startRead => exact h
    | startQueue => rwa [DiscoveryService.startQueued_frame.2.2.1]
    | cancelPending hf => rwa [DiscoveryService.cancelPending_frame.2.1]
    | cancelActive => exact DiscoveryService.Flagged.requestCancellation h htouches
    | request => exact DiscoveryService.Flagged.requestCancellation h htouches
    | removeStalled hf =>
      refine DiscoveryService.removeStalled_induction (P := fun v => v.Keyed ∧ Flagged v daemonId id) hk ⟨hk, h⟩
        (fun v x session hx hsession hid hr ⟨hkv, hv⟩ => ?_) (fun v hv => hv) |>.2
      refine ⟨hr.keyed hkv, DiscoveryService.flagged_failStalled hkv hv fun heq => ?_⟩
      exact hown (List.mem_map.mpr ⟨x, hx, heq.symm⟩)
    | workPick hf hwork => exact h
    | workNone => exact h
    | handOut hf => rwa [DiscoveryService.transitionSessionToStarting_frame.2.2.1]

/-! ## Deliveries -/

/-- A cancellation recorded for a session that is running stays recorded until
it is sent to its daemon, or the session itself is cancelled, finished or removed. -/
def KeepsFlags (s : State) (a : Action) (t : State) : Prop :=
  ∀ daemonId id, Flagged s.server.service daemonId id → s.server.service.isActive id = true →
    Flagged t.server.service daemonId id ∨
      match a with
      | .server a => id ∈ own s.server a
      | .respond d work => d = daemonId ∧ .work daemonId work (some id) ∈ t.flight
      | _ => False

/-- No run was cancelled by a cancellation for another session. -/
def CancelledByOwn (runs : Assoc Uuid Run) : Prop :=
  ∀ daemonId run, runs.lookup daemonId = some run → ∀ id ∈ run.cancelledBy, id = run.sessionId

/-- The daemon a message has cancel its run, and the session this is for. -/
def Message.cancellation : Message → Option (Uuid × Uuid)
  | .work daemonId _ (some id) | .cancel daemonId id => some (daemonId, id)
  | _ => none

/-- A section that sets or clears the flag of a daemon finds none for another
running session, and a cancellation that reaches a daemon finds no uncancelled
run of another session. -/
def Serves (s : State) : Action → Prop
  | .server a => ∀ daemonId, Touches s.server daemonId a → ∀ id, Flagged s.server.service daemonId id →
      s.server.service.isActive id = true → id ∈ own s.server a
  | .deliver i => ∀ m ∈ s.flight[i]?, ∀ c ∈ m.cancellation, ∀ run ∈ s.runs.lookup c.1,
      run.cancelledBy = none → c.2 = run.sessionId
  | _ => True

/-- Each step leaves the recorded cancellations to their sessions, and cancels no other run. -/
def Delivers (s : State) (a : Action) (t : State) : Prop := KeepsFlags s a t ∧ CancelledByOwn t.runs

variable {u v : State} {b : Action}

theorem cancelledByOwn_cancelRun {runs : Assoc Uuid Run} (h : CancelledByOwn runs) :
    CancelledByOwn (cancelRun runs daemonId id) ↔
      ∀ run ∈ runs.lookup daemonId, run.cancelledBy = none → id = run.sessionId := by
  have hlookup (d : Uuid) : (cancelRun runs daemonId id).lookup d =
      if d = daemonId then
        (runs.lookup daemonId).map fun run => { run with cancelledBy := run.cancelledBy <|> some id }
      else runs.lookup d := Assoc.lookup_modify
  constructor
  · intro hown run hrun hnone
    refine hown daemonId { run with cancelledBy := some id } ?_ id rfl
    rw [hlookup, if_pos rfl, Option.mem_def.mp hrun]
    simp [hnone]
  · intro hown d run hrun x hx
    rw [hlookup] at hrun
    split at hrun
    · obtain ⟨old, hold, rfl⟩ := Option.map_eq_some_iff.mp hrun
      cases hby : old.cancelledBy with
      | none =>
        simp only [hby] at hx
        obtain rfl : id = x := Option.some.inj hx
        exact hown old hold hby
      | some y =>
        simp only [hby] at hx
        obtain rfl : y = x := Option.some.inj hx
        exact h daemonId old hold y hby
    · exact h d run hrun x hx

theorem cancelledByOwn_startRun {runs : Assoc Uuid Run} {sessionId : Uuid} (h : CancelledByOwn runs) :
    CancelledByOwn (startRun runs daemonId sessionId) := by
  unfold startRun
  split
  · exact h
  · intro d run hrun x hx
    rw [Assoc.lookup_insert_if] at hrun
    split at hrun
    · obtain rfl := Option.some.inj hrun
      cases hx
    · exact h d run hrun x hx

/-- Starting a run leaves the ones in progress as they are. -/
theorem lookup_startRun {runs : Assoc Uuid Run} {sessionId d : Uuid} {run : Run} (h : runs.lookup d = some run) :
    (startRun runs daemonId sessionId).lookup d = some run := by
  unfold startRun
  split
  · exact h
  · next hnone =>
    rw [Assoc.lookup_insert_if, if_neg, h]
    rintro rfl
    simp [h] at hnone

theorem CancelledByOwn.of_startRun {runs : Assoc Uuid Run} {sessionId : Uuid}
    (h : CancelledByOwn (startRun runs daemonId sessionId)) : CancelledByOwn runs :=
  fun d run hrun => h d run (lookup_startRun hrun)

/-- What a message that arrives does to the runs. -/
theorem cancelledByOwn_receive {runs : Assoc Uuid Run} {m : Message} (h : CancelledByOwn runs) :
    CancelledByOwn (receive runs m) ↔
      ∀ c ∈ m.cancellation, ∀ run ∈ runs.lookup c.1, run.cancelledBy = none → c.2 = run.sessionId := by
  have hcancel (daemonId id : Uuid) : CancelledByOwn (cancelRun runs daemonId id) ↔
      ∀ c ∈ some (daemonId, id), ∀ run ∈ runs.lookup c.1, run.cancelledBy = none → c.2 = run.sessionId := by
    rw [cancelledByOwn_cancelRun h]
    simp
  cases m with
  | work daemonId work cancellation =>
    cases cancellation with
    | none =>
      refine iff_of_true ?_ fun c hc => by cases hc
      cases work with
      | none => exact h
      | some sessionId => exact cancelledByOwn_startRun h
    | some id =>
      cases work with
      | none => exact hcancel daemonId id
      | some sessionId => exact Iff.trans ⟨.of_startRun, cancelledByOwn_startRun⟩ (hcancel daemonId id)
  | initiate daemonId sessionId => exact iff_of_true (cancelledByOwn_startRun h) fun c hc => by cases hc
  | cancel daemonId sessionId => exact hcancel daemonId sessionId

theorem step_server {a : Sessions.Action} (h : step u (.server a) = some v) :
    (∀ d, a ≠ .pullCancellation d) ∧ ∃ server, Sessions.step u.server a = some server ∧ v = { u with server } := by
  by_cases hpull : ∃ d, a = .pullCancellation d
  · obtain ⟨d, rfl⟩ := hpull
    cases h
  · have hstep : step u (.server a) = (Sessions.step u.server a).map fun server => { u with server } := by
      cases a <;> first | rfl | exact absurd ⟨_, rfl⟩ hpull
    rw [hstep, Option.map_eq_some_iff] at h
    obtain ⟨server, hs, rfl⟩ := h
    exact ⟨fun d hd => hpull ⟨d, hd⟩, server, hs, rfl⟩

/-- What holds of every state in which each step met its condition. -/
structure Orderly (s : State) : Prop where
  base : Sessions.Base s.server
  runs : CancelledByOwn s.runs

theorem Orderly.init : Orderly {} where
  base := .init
  runs d run h := by cases h

theorem Orderly.base_step (h : Orderly u) (hs : step u b = some v) : Sessions.Base v.server := by
  cases b with
  | server a =>
    obtain ⟨-, server, hserver, rfl⟩ := step_server hs
    exact h.base.step hserver
  | respond daemonId work =>
    simp only [step] at hs
    split at hs
    · cases hs
      exact h.base.of_getSession rfl rfl
    · cases hs
  | initiate daemonId sessionId =>
    simp only [step] at hs
    split at hs <;> cases hs
    exact h.base
  | notify registry event =>
    simp only [step] at hs
    split at hs <;> cases hs
    exact h.base
  | deliver i =>
    simp only [step] at hs
    split at hs <;> cases hs
    exact h.base
  | lose i =>
    cases hs
    exact h.base
  | finish daemonId =>
    cases hs
    exact h.base

/-- After a step the runs were cancelled by their own cancellations if it served them. -/
theorem Orderly.cancelledByOwn_iff (h : Orderly u) (hs : step u b = some v) :
    CancelledByOwn v.runs ↔ match b with
      | .deliver _ => Serves u b
      | _ => True := by
  cases b with
  | server a =>
    obtain ⟨-, server, -, rfl⟩ := step_server hs
    exact iff_true_intro h.runs
  | respond daemonId work =>
    simp only [step] at hs
    split at hs <;> cases hs
    exact iff_true_intro h.runs
  | initiate daemonId sessionId =>
    simp only [step] at hs
    split at hs <;> cases hs
    exact iff_true_intro h.runs
  | notify registry event =>
    simp only [step] at hs
    split at hs <;> cases hs
    exact iff_true_intro h.runs
  | deliver i =>
    simp only [step] at hs
    split at hs
    · next m hm =>
      cases hs
      simp only [Serves, hm]
      rw [cancelledByOwn_receive h.runs]
      simp
    · cases hs
  | lose i =>
    cases hs
    exact iff_true_intro h.runs
  | finish daemonId =>
    cases hs
    refine iff_true_intro fun d run hrun => ?_
    rw [Assoc.lookup_erase_if] at hrun
    split at hrun
    · cases hrun
    · exact h.runs d run hrun

/-- A step leaves the recorded cancellations to their sessions if it serves them. -/
theorem Orderly.keepsFlags_iff (h : Orderly u) (hs : step u b = some v) :
    KeepsFlags u b v ↔ match b with
      | .server _ => Serves u b
      | _ => True := by
  cases b with
  | server a =>
    obtain ⟨hpull, server, hserver, rfl⟩ := step_server hs
    constructor
    · intro hkeeps daemonId htouches id hflag hactive
      by_contra hown
      rcases hkeeps daemonId id hflag hactive with hflag' | hown'
      · exact not_flagged_of_touches hserver htouches hown hflag'
      · exact hown hown'
    · intro hserves daemonId id hflag hactive
      by_cases hown : id ∈ own u.server a
      · exact .inr hown
      · left
        refine flagged_of_not_touches h.base.keyed (.of_step hserver) hflag hown (fun htouches => ?_) hpull
        exact hown (hserves daemonId htouches id hflag hactive)
  | respond daemonId work =>
    simp only [step] at hs
    split at hs
    · cases hs
      refine iff_true_intro fun d id hflag hactive => ?_
      unfold Flagged at hflag
      by_cases hd : daemonId = d
      · subst hd
        refine .inr ⟨rfl, ?_⟩
        simp [DiscoveryService.pullCancellationForDaemon, hflag]
      · left
        unfold Flagged
        change (u.server.service.clearCancellation daemonId).cancellation d = _
        rw [DiscoveryService.cancellation_clearCancellation, if_neg (Ne.symm hd), hflag]
    · cases hs
  | initiate daemonId sessionId =>
    simp only [step] at hs
    split at hs <;> cases hs
    exact iff_true_intro fun d id hflag _ => .inl hflag
  | notify registry event =>
    simp only [step] at hs
    split at hs <;> cases hs
    exact iff_true_intro fun d id hflag _ => .inl hflag
  | deliver i =>
    simp only [step] at hs
    split at hs <;> cases hs
    exact iff_true_intro fun d id hflag _ => .inl hflag
  | lose i =>
    cases hs
    exact iff_true_intro fun d id hflag _ => .inl hflag
  | finish daemonId =>
    cases hs
    exact iff_true_intro fun d id hflag _ => .inl hflag

theorem Orderly.delivers_iff (h : Orderly u) (hs : step u b = some v) : Delivers u b v ↔ Serves u b := by
  rw [Delivers, h.keepsFlags_iff hs, h.cancelledByOwn_iff hs]
  cases b <;> simp [Serves]

end Cancellation

end Netvisor
