/-
What a daemon's update can touch: the daemon's own sessions, queue and
cancellation, and rows of the daemon and its network.

The update endpoint checks the daemon and the network the payload names, a
poll response is not checked, and neither looks at whose session the payload's
`session_id` is. The conditions below say when that makes no difference.
-/
import Netvisor.Discovery.SessionsFacts

namespace Netvisor

namespace DiscoveryService

/-- Only what belongs to the daemon changes, and every new row is the daemon's and the network's. -/
structure Confined (daemonId networkId : Uuid) (v w : DiscoveryService) : Prop where
  sessions : ∀ id session, session.daemonId ≠ daemonId →
    (w.getSession id = some session ↔ v.getSession id = some session)
  queues : ∀ other, other ≠ daemonId → w.queue other = v.queue other
  cancellations : ∀ other, other ≠ daemonId → w.cancellation other = v.cancellation other
  rows : ∃ rows, w.discoveries = rows ++ v.discoveries ∧
    ∀ row ∈ rows, row.base.daemonId = daemonId ∧ row.base.networkId = networkId

/-- The update is dropped, repeats what is stored, or is the daemon's, of a
session that is not another daemon's. -/
def OwnUpdate (v : DiscoveryService) (daemonId : Uuid) (update : DiscoveryUpdatePayload) : Prop :=
  v.ignores update = true ∨ v.getSession update.sessionId = some update ∨
    update.daemonId = daemonId ∧ ∀ old ∈ v.getSession update.sessionId, old.daemonId = daemonId

/-- The finished session is the daemon's, a row goes to the network, and the
session next in the queue is the daemon's or pending already. -/
def OwnFinish (v : DiscoveryService) (daemonId networkId : Uuid) (f : Finishing) (saved : Option Uuid) : Prop :=
  f.session.daemonId = daemonId ∧ (saved.isSome = true → f.session.networkId = networkId) ∧
    ∀ next ∈ v.nextSession f, ∀ session ∈ v.getSession next,
      session.daemonId = daemonId ∨ session.phase = .pending

instance (v : DiscoveryService) (daemonId : Uuid) (update : DiscoveryUpdatePayload) :
    Decidable (v.OwnUpdate daemonId update) := by
  unfold OwnUpdate
  infer_instance

instance (v : DiscoveryService) (daemonId networkId : Uuid) (f : Finishing) (saved : Option Uuid) :
    Decidable (v.OwnFinish daemonId networkId f saved) := by
  unfold OwnFinish
  infer_instance

variable {v : DiscoveryService} {daemonId networkId : Uuid} {now : DateTime} {update : DiscoveryUpdatePayload}
  {f : Finishing} {saved : Option Uuid}

/-! ## The first section of an update -/

theorem confined_updateSession (h : v.OwnUpdate daemonId update) :
    Confined daemonId networkId v (v.updateSession update now).1 where
  sessions id session hne := by
    rw [getSession_updateSession]
    split
    · next hid =>
      obtain ⟨rfl, hignores⟩ := hid
      rcases h with h | h | ⟨hown, hold⟩
      · rw [h] at hignores
        cases hignores
      · rw [h]
      · refine ⟨fun heq => ?_, fun hs => absurd (hold session hs) hne⟩
        cases heq
        exact absurd hown hne
    · rfl
  queues other hne := by
    rw [queue_updateSession, if_neg]
    rintro ⟨hcreates, rfl⟩
    rcases h with h | h | ⟨hown, -⟩
    · simp [creates, h] at hcreates
    · simp [creates, h] at hcreates
    · exact hne hown
  cancellations other _ := by rw [updateSession_frame.1]
  rows := ⟨[], by rw [updateSession_frame.2, List.nil_append], fun _ h => by cases h⟩

theorem ownUpdate_of_confined (h : Confined daemonId networkId v (v.updateSession update now).1) :
    v.OwnUpdate daemonId update := by
  by_cases hignores : v.ignores update = true
  · exact .inl hignores
  rw [Bool.not_eq_true] at hignores
  by_cases hsame : v.getSession update.sessionId = some update
  · exact .inr (.inl hsame)
  have hstored : (v.updateSession update now).1.getSession update.sessionId = some update := by
    rw [getSession_updateSession, if_pos ⟨rfl, hignores⟩]
  refine .inr (.inr ⟨?_, fun old hold => ?_⟩)
  · by_contra hne
    exact hsame ((h.sessions _ update hne).mp hstored)
  · by_contra hne
    have := (h.sessions _ old hne).mpr hold
    rw [hstored, Option.some.injEq] at this
    exact hsame (this ▸ hold)

/-! ## The end of a terminal update -/

theorem confined_finishUpdate (hstored : v.getSession f.session.sessionId = some f.session)
    (h : v.OwnFinish daemonId networkId f saved) :
    Confined daemonId networkId v (v.finishUpdate f now saved) := by
  obtain ⟨rfl, hnetwork, hnext⟩ := h
  refine ⟨fun id session hne => ?_, fun other hne => ?_, fun other hne => ?_, ?_⟩
  · rw [getSession_finishUpdate]
    split
    · next hid =>
      rw [hid, hstored]
      constructor
      · rintro ⟨⟩
      · rintro ⟨⟩
        exact absurd rfl hne
    · split
      · next hq =>
        cases hs : v.getSession id with
        | none => rfl
        | some x =>
          rcases hnext id hq x hs with hown | hpending
          · constructor
            · rintro ⟨⟩
              exact absurd hown hne
            · rintro ⟨⟩
              exact absurd hown hne
          · have hx : { x with phase := .pending } = x := by rw [← hpending]
            rw [Option.map_some, hx]
      · rfl
  · rw [queue_finishUpdate, if_neg hne]
  · rw [cancellation_finishUpdate, if_neg hne]
  · rw [discoveries_finishUpdate]
    cases saved with
    | none => exact ⟨[], rfl, fun _ h => by cases h⟩
    | some id =>
      refine ⟨[_], rfl, fun row hrow => ?_⟩
      obtain rfl := List.mem_singleton.mp hrow
      exact ⟨rfl, hnetwork rfl⟩

theorem ownFinish_of_confined (hstored : v.getSession f.session.sessionId = some f.session)
    (h : Confined daemonId networkId v (v.finishUpdate f now saved)) :
    v.OwnFinish daemonId networkId f saved := by
  have hown : f.session.daemonId = daemonId := by
    by_contra hne
    have := (h.sessions _ _ hne).mpr hstored
    rw [getSession_finishUpdate, if_pos rfl] at this
    cases this
  refine ⟨hown, fun hsaved => ?_, fun next hnext session hs => ?_⟩
  · obtain ⟨id, rfl⟩ := Option.isSome_iff_exists.mp hsaved
    obtain ⟨rows, heq, hrows⟩ := h.rows
    rw [discoveries_finishUpdate] at heq
    obtain ⟨row, rfl⟩ : ∃ row, rows = [row] := by
      have := congrArg List.length heq
      simp only [createHistorical, List.length_cons, List.length_append] at this
      exact List.length_eq_one_iff.mp (by omega)
    have hrow := (List.cons.inj heq).1
    have := (hrows row List.mem_cons_self).2
    rwa [← hrow] at this
  · by_contra hne
    rw [not_or] at hne
    have hfilter : next ∈ (v.queue f.session.daemonId).filter (· != f.session.sessionId) :=
      List.mem_of_mem_head? hnext
    have hother : next ≠ f.session.sessionId := by simpa using (List.mem_filter.mp hfilter).2
    have := (h.sessions next session hne.1).mpr hs
    rw [getSession_finishUpdate, if_neg hother, if_pos (Option.mem_def.mp hnext), Option.mem_def.mp hs] at this
    exact hne.2 (congrArg DiscoveryUpdatePayload.phase (Option.some.inj this)).symm

end DiscoveryService

namespace Sessions

open DiscoveryService (Confined OwnUpdate OwnFinish)

/-- Each section of an update leaves what is not the sender's alone. -/
def ConfinedToSender (s : State) (a : Action) (t : State) : Prop :=
  match a with
  | .updateSession sender _ => Confined sender.daemonId sender.networkId s.service t.service
  | .finishUpdate _ => ∀ p ∈ s.finishing, Confined p.1.daemonId p.1.networkId s.service t.service
  | _ => True

/-- Every update is of a session of the daemon it comes from. -/
def OwnSession (s : State) : Action → Prop
  | .updateSession sender update => s.service.OwnUpdate sender.daemonId update
  | .finishUpdate saved => ∀ p ∈ s.finishing, s.service.OwnFinish p.1.daemonId p.1.networkId p.2 saved
  | _ => True

instance (s : State) : (a : Action) → Decidable (OwnSession s a)
  | .updateSession sender update => inferInstanceAs (Decidable (s.service.OwnUpdate sender.daemonId update))
  | .finishUpdate saved => inferInstanceAs (Decidable (∀ p ∈ s.finishing, s.service.OwnFinish _ _ p.2 saved))
  | .tick _ | .startSession .. | .cancelSession _ | .cleanupOldSessions _ | .cleanupStalledSessions _
  | .getPendingWork _ | .pullCancellation _ | .resume .. => .isTrue trivial

variable {s t : State} {a : Action}

theorem confinedToSender_iff_ownSession (hB : Base s) (hs : step s a = some t) :
    ConfinedToSender s a t ↔ OwnSession s a := by
  cases a with
  | updateSession sender update =>
    obtain ⟨-, -, rfl⟩ := step_updateSession hs
    exact ⟨DiscoveryService.ownUpdate_of_confined, DiscoveryService.confined_updateSession⟩
  | finishUpdate saved =>
    simp only [step] at hs
    split at hs
    · next sender f hf =>
      cases hs
      obtain ⟨hstored, -⟩ := hB.finishing sender f hf
      refine ⟨fun h p hp => ?_, fun h p hp => ?_⟩
      · obtain rfl := Option.mem_unique hf hp
        exact DiscoveryService.ownFinish_of_confined hstored (h _ hp)
      · obtain rfl := Option.mem_unique hf hp
        exact DiscoveryService.confined_finishUpdate hstored (h _ hp)
    · cases hs
  | _ => exact Iff.rfl

/-- **Confinement.** The updates of a run touch only what is their sender's
exactly if each is of the sender's own session, in the sender's name. -/
theorem confined_iff_own (as : List Action) :
    Transition.Every step ConfinedToSender {} as ↔ Transition.Along step OwnSession {} as :=
  Transition.every_iff_along (I := Base) (fun _ _ _ hB _ ht => hB.step ht)
    (fun _ _ _ hB hown ht => (confinedToSender_iff_ownSession hB ht).mpr hown)
    (fun _ _ _ hB ht hconf => (confinedToSender_iff_ownSession hB ht).mp hconf) .init

/-- Daemon 6 reports on the session of daemon 4, which becomes its own. -/
theorem session_taken_by_other_daemon :
    ¬ Transition.Every step ConfinedToSender {}
      [.updateSession ⟨.daemonPoll, 4, 5⟩ { sessionId := 7, daemonId := 4, networkId := 5, phase := .scanning },
        .updateSession ⟨.daemonPoll, 6,
            5⟩ { sessionId := 7, daemonId := 6, networkId := 5, phase := .scanning }] := by
  rintro ⟨-, ⟨hsessions, -, -, -⟩, -⟩
  have := (hsessions 7 { sessionId := 7, daemonId := 4, networkId := 5, phase := .scanning } (by decide)).mpr rfl
  exact absurd this (by decide)

end Sessions

end Netvisor
