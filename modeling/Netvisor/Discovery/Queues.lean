/-
The queues of the daemons against the stored sessions.

`start_session` stores a session and queues it in a later section, so between
the two the session is in no queue; with that, every section keeps the queues
exact under three conditions. An update must name the daemon its stored session
has: `update_session` overwrites the daemon and leaves the queues alone. No
session may be removed while its `start_session` is between the two sections,
which would queue it afterwards all the same. And a cancellation must find the
session, if it is stored, with the daemon it had when it was read, since that
daemon's queue is the one it repairs.
-/
import Netvisor.Discovery.SessionsFacts

namespace Netvisor.Sessions

open DiscoveryService (Removes)

/-- The session that `start_session` has stored and not queued. -/
def Call.starting : Call → Option DiscoveryUpdatePayload
  | .startRead session | .startQueue session _ => some session
  | _ => none

def State.starting (s : State) : List DiscoveryUpdatePayload := s.calls.filterMap Call.starting

def State.startingIds (s : State) : List Uuid := s.starting.map (·.sessionId)

/-- No call is in progress. -/
def Quiescent (s : State) : Prop := s.finishing = none ∧ s.calls = []

/-- The queue of a daemon holds exactly the ids of its stored sessions, each in
one queue and once. -/
structure Consistent (v : DiscoveryService) : Prop where
  exact : ∀ daemonId id, id ∈ v.queue daemonId ↔
    ∃ session, v.getSession id = some session ∧ session.daemonId = daemonId
  oneQueue : ∀ daemonId daemonId' id, id ∈ v.queue daemonId → id ∈ v.queue daemonId' → daemonId = daemonId'
  once : ∀ daemonId, (v.queue daemonId).Nodup

/-- The call does not remove a session that is being started, and a
cancellation repairs the queue of the daemon the session is stored with. -/
def OrderlyCall (s : State) : Call → Prop
  | .cancelPending cancelled =>
    (∀ session ∈ s.service.getSession cancelled.sessionId, session.daemonId = cancelled.daemonId) ∧
      cancelled.sessionId ∉ s.startingIds
  | .cleanupStalled _ stalled [] => ∀ session ∈ stalled, session.sessionId ∉ s.startingIds
  | _ => True

/-- Updates name the daemon of their stored session, no session is removed
while it is being started, and a cancellation repairs the queue of the daemon
the session is stored with. -/
def Orderly (s : State) : Action → Prop
  | .updateSession _ update =>
    ∀ old ∈ s.service.getSession update.sessionId, old.daemonId = update.daemonId
  | .finishUpdate _ => ∀ p ∈ s.finishing, p.2.session.sessionId ∉ s.startingIds
  | .cleanupOldSessions maxAgeHours =>
    ∀ id ∈ s.service.oldSessions (s.now - hours maxAgeHours), id ∉ s.startingIds
  | .resume i _ => ∀ call ∈ s.calls[i]?, OrderlyCall s call
  | _ => True

instance (s : State) : (call : Call) → Decidable (OrderlyCall s call)
  | .cancelPending cancelled =>
    inferInstanceAs (Decidable ((∀ session ∈ s.service.getSession cancelled.sessionId, _ = _) ∧ _ ∉ s.startingIds))
  | .cleanupStalled _ stalled [] => inferInstanceAs (Decidable (∀ session ∈ stalled, _ ∉ s.startingIds))
  | .cleanupStalled _ _ (_ :: _) | .startRead _ | .startQueue .. | .cancelActive _ | .workCheck _
  | .workPick .. => .isTrue trivial

instance (s : State) : (a : Action) → Decidable (Orderly s a)
  | .updateSession _ update =>
    inferInstanceAs (Decidable (∀ old ∈ s.service.getSession update.sessionId, _ = update.daemonId))
  | .finishUpdate _ => inferInstanceAs (Decidable (∀ p ∈ s.finishing, _ ∉ s.startingIds))
  | .cleanupOldSessions maxAgeHours =>
    inferInstanceAs (Decidable (∀ id ∈ s.service.oldSessions (s.now - hours maxAgeHours), id ∉ s.startingIds))
  | .resume i _ => inferInstanceAs (Decidable (∀ call ∈ s.calls[i]?, OrderlyCall s call))
  | .tick _ | .startSession .. | .cancelSession _ | .cleanupStalledSessions _ | .getPendingWork _
  | .pullCancellation _ => .isTrue trivial

/-- The queues are exact but for the sessions of `unqueued`, which are stored
and in no queue. -/
structure Queued (v : DiscoveryService) (unqueued : List DiscoveryUpdatePayload) : Prop where
  owned : ∀ daemonId id, id ∈ v.queue daemonId → v.owner id = some daemonId
  queued : ∀ daemonId id, v.owner id = some daemonId → id ∈ v.queue daemonId ∨ id ∈ unqueued.map (·.sessionId)
  once : ∀ daemonId, (v.queue daemonId).Nodup
  starting : ∀ session ∈ unqueued, v.owner session.sessionId = some session.daemonId ∧
    ∀ daemonId, session.sessionId ∉ v.queue daemonId
  startingOnce : (unqueued.map (·.sessionId)).Nodup

variable {v w : DiscoveryService} {l l' : List DiscoveryUpdatePayload}

theorem Queued.init : Queued {} [] where
  owned _ _ h := by cases h
  queued _ _ h := by cases h
  once _ := .nil
  starting _ h := by cases h
  startingOnce := .nil

theorem Queued.consistent (h : Queued v []) : Consistent v where
  exact daemonId id := by
    rw [← DiscoveryService.owner_eq_some]
    exact ⟨h.owned daemonId id, fun ho => (h.queued daemonId id ho).resolve_right (by simp)⟩
  oneQueue daemonId daemonId' id hd hd' :=
    Option.some.inj ((h.owned daemonId id hd).symm.trans (h.owned daemonId' id hd'))
  once := h.once

theorem Queued.perm (h : Queued v l) (hp : l.Perm l') : Queued v l' where
  owned := h.owned
  queued daemonId id ho := (h.queued daemonId id ho).imp_right (hp.map _).mem_iff.mp
  once := h.once
  starting session hs := h.starting session (hp.mem_iff.mpr hs)
  startingOnce := (hp.map _).nodup_iff.mp h.startingOnce

/-- Only owners and queues matter. -/
theorem Queued.congr (h : Queued v l) (ho : ∀ id, w.owner id = v.owner id) (hq : w.queue = v.queue) : Queued w l where
  owned daemonId id hid := by
    rw [ho]
    exact h.owned daemonId id (hq ▸ hid)
  queued daemonId id hid := by
    rw [hq]
    exact h.queued daemonId id (ho id ▸ hid)
  once daemonId := hq ▸ h.once daemonId
  starting session hs := by
    rw [ho, hq]
    exact h.starting session hs
  startingOnce := h.startingOnce

/-- A session stored under a new id is being started. -/
theorem Queued.start {session : DiscoveryUpdatePayload} (h : Queued v l)
    (hstored : v.getSession session.sessionId = none) (hqueue : ∀ daemonId, session.sessionId ∉ v.queue daemonId)
    (hl : session.sessionId ∉ l.map (·.sessionId)) : Queued (v.setSession session) (session :: l) := by
  have ho : ∀ id, (v.setSession session).owner id =
      if id = session.sessionId then some session.daemonId else v.owner id := by
    intro id
    unfold DiscoveryService.owner
    rw [DiscoveryService.getSession_setSession]
    split <;> rfl
  refine ⟨fun d id hid => ?_, fun d id hid => ?_, by simpa using h.once, fun x hx => ?_, ?_⟩
  · simp only [DiscoveryService.setSession_frame] at hid
    have hne : id ≠ session.sessionId := fun he => hqueue d (he ▸ hid)
    rw [ho, if_neg hne]
    exact h.owned d id hid
  · rw [ho] at hid
    simp only [DiscoveryService.setSession_frame, List.map_cons, List.mem_cons]
    split at hid
    · next he => exact .inr (.inl he)
    · exact (h.queued d id hid).imp_right .inr
  · simp only [DiscoveryService.setSession_frame, ho]
    rcases List.mem_cons.mp hx with rfl | hx
    · exact ⟨by simp, hqueue⟩
    · have hne : x.sessionId ≠ session.sessionId := fun he => hl (List.mem_map.mpr ⟨x, hx, he⟩)
      rw [if_neg hne]
      exact h.starting x hx
  · exact List.nodup_cons.mpr ⟨hl, h.startingOnce⟩

/-- The session being started joins its queue. -/
theorem Queued.enqueue {session : DiscoveryUpdatePayload} {running : Bool} (h : Queued v (session :: l)) :
    Queued (v.startQueued session running) l := by
  have ho : ∀ id, (v.startQueued session running).owner id = v.owner id := fun id => by
    simp only [DiscoveryService.owner, DiscoveryService.startQueued_frame]
  obtain ⟨hown, hfree⟩ := h.starting session List.mem_cons_self
  have honce := List.nodup_cons.mp h.startingOnce
  refine ⟨fun d id hid => ?_, fun d id hid => ?_, fun d => ?_, fun x hx => ?_, honce.2⟩
  · rw [ho]
    rw [DiscoveryService.queue_startQueued] at hid
    split at hid
    · next hd =>
      rcases List.mem_append.mp hid with hid | hid
      · exact hd ▸ h.owned _ id hid
      · rw [List.mem_singleton.mp hid, hown, hd]
    · exact h.owned d id hid
  · rw [ho] at hid
    rw [DiscoveryService.queue_startQueued]
    rcases h.queued d id hid with hq | hs
    · left
      split
      · next hd => exact List.mem_append_left _ (hd ▸ hq)
      · exact hq
    · rcases List.mem_cons.mp hs with he | hs
      · left
        have hd : d = session.daemonId := by
          subst he
          exact Option.some.inj (hid.symm.trans hown)
        rw [if_pos hd]
        exact List.mem_append_right _ (List.mem_singleton.mpr he)
      · exact .inr hs
  · rw [DiscoveryService.queue_startQueued]
    split
    · exact List.nodup_append.mpr ⟨h.once _, List.nodup_singleton _, fun a ha b hb => by
        rw [List.mem_singleton.mp hb]
        exact fun he => hfree _ (he ▸ ha)⟩
    · exact h.once d
  · obtain ⟨hxo, hxq⟩ := h.starting x (List.mem_cons_of_mem _ hx)
    have hne : x.sessionId ≠ session.sessionId := fun he => honce.1 (List.mem_map.mpr ⟨x, hx, he⟩)
    refine ⟨by rw [ho]; exact hxo, fun d hd => ?_⟩
    rw [DiscoveryService.queue_startQueued] at hd
    split at hd
    · rcases List.mem_append.mp hd with hd | hd
      · exact hxq _ hd
      · exact hne (List.mem_singleton.mp hd)
    · exact hxq d hd

/-- An update that names the daemon of its stored session keeps the queues exact. -/
theorem Queued.update {update : DiscoveryUpdatePayload} {now : DateTime} (h : Queued v l)
    (hown : ∀ old ∈ v.getSession update.sessionId, old.daemonId = update.daemonId) :
    Queued (v.updateSession update now).1 l := by
  cases hc : v.creates update with
  | false =>
    refine h.congr (fun id => ?_) (funext fun d => ?_)
    · rw [DiscoveryService.owner_updateSession]
      split
      · next hid =>
        -- not created and not dropped: the session is stored, with the update's daemon
        obtain ⟨rfl, hign⟩ := hid
        simp only [DiscoveryService.creates, hign, Bool.not_false, Bool.and_true] at hc
        obtain ⟨old, hold⟩ := Option.isSome_iff_exists.mp (Option.isNone_eq_false_iff.mp hc)
        rw [DiscoveryService.owner, hold, Option.map_some, hown old hold]
      · rfl
    · rw [DiscoveryService.queue_updateSession, hc]
      simp
  | true =>
    have hign : v.ignores update = false := by
      simp only [DiscoveryService.creates, Bool.and_eq_true, Bool.not_eq_true'] at hc
      exact hc.2
    have hnone : v.owner update.sessionId = none := by
      simp only [DiscoveryService.creates, Bool.and_eq_true, Option.isNone_iff_eq_none] at hc
      rw [DiscoveryService.owner, hc.1, Option.map_none]
    have ho : ∀ id, (v.updateSession update now).1.owner id =
        if id = update.sessionId then some update.daemonId else v.owner id := fun id => by
      rw [DiscoveryService.owner_updateSession]
      simp only [hign, and_true]
    have hq : ∀ d, (v.updateSession update now).1.queue d =
        if d = update.daemonId then v.queue d ++ [update.sessionId] else v.queue d := fun d => by
      rw [DiscoveryService.queue_updateSession]
      simp only [hc, true_and]
    have hfree : ∀ d, update.sessionId ∉ v.queue d := fun d hd => by
      rw [h.owned d _ hd] at hnone
      cases hnone
    refine ⟨fun d id hid => ?_, fun d id hid => ?_, fun d => ?_, fun x hx => ?_, h.startingOnce⟩
    · rw [ho]
      rw [hq] at hid
      split at hid
      · next hd =>
        rcases List.mem_append.mp hid with hid | hid
        · rw [if_neg (fun he : id = update.sessionId => hfree d (he ▸ hid))]
          exact h.owned d id hid
        · rw [if_pos (List.mem_singleton.mp hid), hd]
      · rw [if_neg (fun he : id = update.sessionId => hfree d (he ▸ hid))]
        exact h.owned d id hid
    · rw [ho] at hid
      rw [hq]
      split at hid
      · next he =>
        cases hid
        left
        rw [if_pos rfl]
        exact List.mem_append_right _ (List.mem_singleton.mpr he)
      · refine (h.queued d id hid).imp_left fun hmem => ?_
        split
        · exact List.mem_append_left _ hmem
        · exact hmem
    · rw [hq]
      split
      · exact List.nodup_append.mpr ⟨h.once _, List.nodup_singleton _, fun a ha b hb => by
          rw [List.mem_singleton.mp hb]
          exact fun he => hfree _ (he ▸ ha)⟩
      · exact h.once d
    · obtain ⟨hxo, hxq⟩ := h.starting x hx
      have hne : x.sessionId ≠ update.sessionId := fun he => by
        rw [he, hnone] at hxo
        cases hxo
      refine ⟨by rw [ho, if_neg hne]; exact hxo, fun d hd => ?_⟩
      rw [hq] at hd
      split at hd
      · rcases List.mem_append.mp hd with hd | hd
        · exact hxq _ hd
        · exact hne (List.mem_singleton.mp hd)
      · exact hxq d hd

/-- Taking a session out of the map and out of its daemon's queue keeps the
queues exact, unless the session is being started. -/
theorem Queued.remove {id d : Uuid} (h : Queued v l)
    (ho : ∀ i, w.owner i = if i = id then none else v.owner i)
    (hq : ∀ i, w.queue i = if i = d then (v.queue i).filter (· != id) else v.queue i)
    (hown : ∀ d', v.owner id = some d' → d' = d) (hfree : id ∉ l.map (·.sessionId)) : Queued w l := by
  have hmem : ∀ i j, j ∈ w.queue i ↔ j ∈ v.queue i ∧ j ≠ id := by
    intro i j
    rw [hq]
    split
    · simp [List.mem_filter]
    · next hi =>
      refine ⟨fun hj => ⟨hj, fun he => hi ?_⟩, And.left⟩
      subst he
      exact hown i (h.owned i j hj)
  refine ⟨fun i j hj => ?_, fun i j hj => ?_, fun i => ?_, fun x hx => ?_, h.startingOnce⟩
  · obtain ⟨hj, hne⟩ := (hmem i j).mp hj
    rw [ho, if_neg hne]
    exact h.owned i j hj
  · rw [ho] at hj
    split at hj
    · cases hj
    · next hne => exact (h.queued i j hj).imp_left fun hj => (hmem i j).mpr ⟨hj, hne⟩
  · rw [hq]
    split
    · exact (h.once i).filter _
    · exact h.once i
  · obtain ⟨hxo, hxq⟩ := h.starting x hx
    have hne : x.sessionId ≠ id := fun he => hfree (List.mem_map.mpr ⟨x, hx, he⟩)
    exact ⟨by rw [ho, if_neg hne]; exact hxo, fun i hi => hxq i ((hmem i _).mp hi).1⟩

theorem Queued.removes {id d : Uuid} (h : Queued v l) (hr : Removes v w id d)
    (hown : ∀ d', v.owner id = some d' → d' = d) (hfree : id ∉ l.map (·.sessionId)) : Queued w l :=
  h.remove (fun _ => hr.owner) hr.queue hown hfree

/-- The same for a stored session. -/
theorem Queued.removes_stored {id : Uuid} {session : DiscoveryUpdatePayload} (h : Queued v l)
    (hr : Removes v w id session.daemonId) (hs : v.getSession id = some session)
    (hfree : id ∉ l.map (·.sessionId)) : Queued w l := by
  refine h.removes hr (fun d' hd' => ?_) hfree
  rw [DiscoveryService.owner, hs] at hd'
  exact (Option.some.inj hd').symm

/-! ## Every section -/

theorem Queued.resumes {s t : State} {saved : Uuid → Option Uuid} {call : Call} (hB : Base s)
    (h : Queued s.service (call.starting.toList ++ s.starting)) (hok : OrderlyCall s call)
    (hs : Resumes s saved call t) : Queued t.service t.starting := by
  cases hs with
  | startRead => exact h
  | startQueue => exact Queued.enqueue h
  | cancelPending hf =>
    refine Queued.removes h DiscoveryService.removes_cancelPending (fun d' hd' => ?_) hok.2
    obtain ⟨session, hs, rfl⟩ := DiscoveryService.owner_eq_some.mp hd'
    exact hok.1 session hs
  | cancelActive => exact Queued.congr h (fun _ => rfl) rfl
  | request => exact Queued.congr h (fun _ => rfl) rfl
  | removeStalled hf =>
    exact DiscoveryService.removeStalled_induction (P := fun v => Queued v s.starting) hB.keyed h
      (fun v x session hx hxs _ hr hv => hv.removes_stored hr hxs (hok x hx))
      fun v hv => hv.congr (fun _ => rfl) rfl
  | workPick hf hwork => exact h
  | workNone => exact h
  | handOut hf => exact Queued.congr h (fun _ => by simp) (by simp)

theorem Queued.section {s t : State} {a : Action} (hB : Base s) (h : Queued s.service s.starting)
    (hok : Orderly s a) (hs : Section s a t) : Queued t.service t.starting := by
  cases hs with
  | tick => exact h
  | skip => exact h
  | startSession hf hfresh =>
    have hnew := Fresh.of_mentions hfresh
    refine h.start hnew.stored hnew.queued fun hmem => ?_
    obtain ⟨x, hx, hid⟩ := List.mem_map.mp hmem
    obtain ⟨call, hcall, hxc⟩ := List.mem_filterMap.mp hx
    refine hnew.carried call hcall ?_
    cases call <;> cases hxc <;> exact List.mem_singleton.mpr hid.symm
  | updateSession hf haccepts => exact h.update hok
  | @finishUpdate sender f saved hf =>
    obtain ⟨hstored, -⟩ := hB.finishing sender f hf
    refine h.remove (fun _ => DiscoveryService.owner_finishUpdate)
      (fun _ => DiscoveryService.queue_finishUpdate) (fun d' hd' => ?_) (hok _ hf)
    rw [DiscoveryService.owner, hstored] at hd'
    exact (Option.some.inj hd').symm
  | cancelSession hf hok' hcall => rcases hcall with rfl | rfl <;> exact h
  | cleanupOldSessions hf =>
    exact DiscoveryService.cleanupOldSessions_induction (P := fun v => Queued v s.starting) hB.keyed h
      fun v id session hid hs hr hv => hv.removes_stored hr hs (hok id hid)
  | cleanupStalledSessions hf hperm => exact h
  | getPendingWork hf hidle => exact h
  | pullCancellation => exact h.congr (fun _ => rfl) rfl
  | @resume i saved call t hcall hr =>
    have hperm : s.starting.Perm (call.starting.toList ++ (s.calls.eraseIdx i).filterMap Call.starting) := by
      refine ((calls_perm hcall).filterMap _).trans (.of_eq ?_)
      cases hc : call.starting <;> simp [hc]
    have hB' : Base { s with calls := s.calls.eraseIdx i } := hB.of_getSession rfl rfl
    have hids : ∀ id, id ∈ State.startingIds { s with calls := s.calls.eraseIdx i } → id ∈ s.startingIds :=
      fun id hid => (hperm.map _).mem_iff.mpr (by rw [List.map_append]; exact List.mem_append_right _ hid)
    refine Queued.resumes hB' (h.perm hperm) ?_ hr
    have hok := hok call hcall
    cases call with
    | cancelPending cancelled => exact ⟨hok.1, fun hmem => hok.2 (hids _ hmem)⟩
    | cleanupStalled now stalled requests =>
      cases requests with
      | nil => exact fun x hx hmem => hok x hx (hids _ hmem)
      | cons => trivial
    | _ => trivial

/-- **Sessions and queues stay consistent** in every run whose steps are
orderly: whenever no call is in progress, the queues are exact. -/
theorem consistent_of_orderly (as : List Action) (h : Transition.Along step Orderly {} as) :
    Transition.Visits step (fun s => Quiescent s → Consistent s.service) {} as := by
  refine h.visits (I := fun s => Base s ∧ Queued s.service s.starting)
    (fun s a t hI hok ht => ⟨hI.1.step ht, Queued.section hI.1 hI.2 hok (.of_step ht)⟩)
    (fun s hI hq => ?_) ⟨.init, .init⟩
  have hl : s.starting = [] := by simp [State.starting, hq.2]
  exact (hl ▸ hI.2).consistent

/-- A session started, handed out, reported on and finished. -/
theorem consistent_of_orderly_run : Transition.Visits step (fun s => Quiescent s → Consistent s.service) {}
    [.startSession ⟨1, 0, 0, ⟨.selfReport 3, .adHoc none, "", 4, 5, []⟩⟩ 7 {}, .resume 0 fun _ => none,
      .resume 0 fun _ => none, .getPendingWork 4, .resume 0 fun _ => none, .resume 0 fun _ => none,
      .updateSession ⟨.daemonPoll, 4, 5⟩ { sessionId := 7, daemonId := 4, networkId := 5, phase := .scanning },
      .updateSession ⟨.daemonPoll, 4, 5⟩ { sessionId := 7, daemonId := 4, networkId := 5, phase := .complete },
      .finishUpdate (some 8)] :=
  consistent_of_orderly _ (by decide)

/-- Daemon `6` reports on the session of daemon `4`: the session is now its
own, and still in the queue of daemon `4`. -/
theorem inconsistent_after_foreign_update :
    ¬ Transition.Visits step (fun s => Quiescent s → Consistent s.service) {}
      [.startSession ⟨1, 0, 0, ⟨.selfReport 3, .adHoc none, "", 4, 5, []⟩⟩ 7 {}, .resume 0 fun _ => none,
        .resume 0 fun _ => none,
        .updateSession ⟨.daemonPoll, 6,
            5⟩ { sessionId := 7, daemonId := 6, networkId := 5, phase := .scanning }] := by
  rintro ⟨-, h⟩
  obtain ⟨session, hs, hd⟩ := ((h.2.2.2.1 ⟨rfl, rfl⟩).exact 4 7).mp (by decide)
  cases hs
  exact absurd hd (by decide)

end Netvisor.Sessions
