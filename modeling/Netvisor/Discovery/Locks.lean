/-
The locks that the calls on the discovery sessions acquire and release, and
what keeps the calls from waiting for one another for ever.

Every writer takes the sessions first. The two calls that look up a daemon's
sessions take its queue first, and the sessions under it.
-/
import Netvisor.Lib.Locks

namespace Netvisor.SessionLocks

open Locks
open Transition (Along Visits)

inductive Lock
  | sessions
  | sessionLastUpdated
  | daemonSessions
  | daemonPullCancellations
deriving DecidableEq, Repr

open Lock

def read (l : Lock) : Locks.Step Lock := .acquire ⟨l, .read⟩

def write (l : Lock) : Locks.Step Lock := .acquire ⟨l, .write⟩

/-- A guard that is gone with its statement. -/
def once (acquire : Lock → Locks.Step Lock) (l : Lock) : List (Locks.Step Lock) := [acquire l, .release l]

/-- How an update ends. -/
inductive Update
  /-- A terminal update of a session that is gone. -/
  | ignored
  | ongoing
  /-- A terminal update whose event is not published. -/
  | unpublished
  /-- A terminal update whose historical record is not announced. -/
  | unannounced
  | finished
deriving DecidableEq, Repr

inductive Cancel
  /-- There is no session, it is starting or over, or the event is not published. -/
  | nothing
  | pending
  | active
deriving DecidableEq, Repr

/-- A call, with what decides its way. -/
inductive Call
  | startSession
  | updateSession (created : Bool) (outcome : Update)
  | cancelSession (outcome : Cancel)
  | clearSessionsForDaemon
  | cleanupOldSessions
  | cleanupStalledSessions (stalled : Nat)
  | getSessionsForDaemon
  | hasActiveSessionForDaemon
deriving DecidableEq, Repr

/-- The steps of an update once the session is there, with `sessions` and `session_last_updated` held. -/
def Update.steps : Update → List (Locks.Step Lock)
  | ignored | ongoing | unpublished => [.release sessionLastUpdated, .release sessions]
  | unannounced => once write daemonPullCancellations ++ [.release sessionLastUpdated, .release sessions]
  | finished =>
    -- `sessions` is dropped before the next session is announced
    once write daemonPullCancellations ++ once write daemonSessions ++
      [.release sessions, .release sessionLastUpdated]

def Cancel.steps : Cancel → List (Locks.Step Lock)
  | nothing => []
  | pending => [write sessions, write daemonSessions, .release sessions, .release daemonSessions]
  | active => once write daemonPullCancellations

def Call.steps : Call → List (Locks.Step Lock)
  | startSession => once write sessions ++ once read daemonSessions ++ once write daemonSessions
  | updateSession created outcome =>
    [write sessions, write sessionLastUpdated] ++ (if created then once write daemonSessions else []) ++ outcome.steps
  | cancelSession outcome => once read sessions ++ outcome.steps
  | clearSessionsForDaemon =>
    [write sessions, write daemonSessions, write sessionLastUpdated, write daemonPullCancellations,
      .release daemonPullCancellations, .release sessionLastUpdated, .release daemonSessions, .release sessions]
  | cleanupOldSessions =>
    [write sessions, write daemonSessions, write daemonPullCancellations,
      .release daemonPullCancellations, .release daemonSessions, .release sessions]
  | cleanupStalledSessions stalled =>
    [read sessions, read sessionLastUpdated, .release sessionLastUpdated, .release sessions] ++
      if stalled = 0 then []
      else (List.replicate stalled (once write daemonPullCancellations)).flatten ++
        [write sessions, write sessionLastUpdated, write daemonSessions, write daemonPullCancellations,
          .release daemonPullCancellations, .release daemonSessions, .release sessionLastUpdated, .release sessions]
  | getSessionsForDaemon | hasActiveSessionForDaemon =>
    [read daemonSessions, read sessions, .release sessions, .release daemonSessions]

/-- Calls on the sessions, from none on. -/
def step : List (Caller Lock) → Action Call → Option (List (Caller Lock)) := Locks.step Call.steps

/-! ## The order of the locks -/

/-- A lock is acquired by a call that holds none, or under `sessions`, or is that of a lookup in its order. -/
def Rule (held : List (Guard Lock)) (g : Guard Lock) : Prop :=
  held = [] ∨
  (⟨sessions, .write⟩ ∈ held ∧ g.mode = .write ∧ ∀ h ∈ held, h.lock ≠ g.lock) ∨
  (held = [⟨sessions, .read⟩] ∧ g = ⟨sessionLastUpdated, .read⟩) ∨
  (held = [⟨daemonSessions, .read⟩] ∧ g = ⟨sessions, .read⟩)

instance (held : List (Guard Lock)) (g : Guard Lock) : Decidable (Rule held g) :=
  inferInstanceAs (Decidable (_ ∨ _))

theorem follows_replicate {rest : List (Locks.Step Lock)} (h : Follows Rule [] rest) (n : Nat) :
    Follows Rule [] ((List.replicate n (once write daemonPullCancellations)).flatten ++ rest) := by
  induction n with
  | zero => simpa using h
  | succ n ih =>
    rw [List.replicate_succ, List.flatten_cons, List.append_assoc]
    exact ⟨.inl rfl, ih⟩

theorem follows_steps (call : Call) : Follows Rule [] call.steps := by
  cases call with
  | updateSession created outcome => cases created <;> cases outcome <;> decide
  | cancelSession outcome => cases outcome <;> decide
  | cleanupStalledSessions stalled =>
    rw [Call.steps]
    split
    · decide
    · -- nothing is held between the two passes
      exact ⟨.inl rfl, .inr (.inr (.inl ⟨rfl, rfl⟩)), follows_replicate (by decide) stalled⟩
  | _ => decide

/-- The call has read a daemon's queue and goes on to the sessions. -/
def LooksUp (c : Caller Lock) : Prop := c.held = [⟨daemonSessions, .read⟩] ∧ c.wants = some ⟨sessions, .read⟩

/-- A lock to be acquired before another is given back. -/
def Owes (before : Lock) (g : Guard Lock) : List (Locks.Step Lock) → Prop
  | [] => False
  | .acquire h :: rest => h = g ∨ Owes before g rest
  | .release l :: rest => l ≠ before ∧ Owes before g rest

theorem owes_of_wants {before : Lock} {g : Guard Lock} {c : Caller Lock} (h : c.wants = some g) :
    Owes before g c.rest := by
  unfold Caller.wants at h
  split at h
  · next hrest =>
    cases h
    rw [hrest]
    exact .inl rfl
  · cases h

/-- The call writes sessions and has the queues still to acquire under them. -/
def Enters (c : Caller Lock) : Prop :=
  ⟨sessions, .write⟩ ∈ c.held ∧ Owes sessions ⟨daemonSessions, .write⟩ c.rest

/-- A lookup and a writer each hold what the other has to acquire before giving it back. -/
def Crossed (s : List (Caller Lock)) : Prop :=
  ∃ (i j : Nat) (c d : Caller Lock), s[i]? = some c ∧ s[j]? = some d ∧ LooksUp c ∧ Enters d

/-- No lookup reads a queue while a writer is on its way to the queues, and no writer that has the queues to acquire
is granted the sessions while a lookup is on its way to them. -/
def Orderly (s : List (Caller Lock)) : Action Call → Prop
  | .call _ => True
  | .run i => ∀ c ∈ s[i]?.bind Caller.next, ∀ j < s.length, j ≠ i → ∀ d ∈ s[j]?,
      ¬ (LooksUp c ∧ Enters d) ∧ ¬ (Enters c ∧ LooksUp d)

instance (c : Caller Lock) : Decidable (LooksUp c) := inferInstanceAs (Decidable (_ ∧ _))

instance Owes.decidable (before : Lock) (g : Guard Lock) : (rest : List (Locks.Step Lock)) →
    Decidable (Owes before g rest)
  | [] => .isFalse id
  | .acquire _ :: rest => @instDecidableOr _ _ _ (Owes.decidable before g rest)
  | .release _ :: rest => @instDecidableAnd _ _ _ (Owes.decidable before g rest)

instance (c : Caller Lock) : Decidable (Enters c) := inferInstanceAs (Decidable (_ ∧ _))

instance (s : List (Caller Lock)) : (a : Action Call) → Decidable (Orderly s a)
  | .call _ => .isTrue trivial
  | .run i => inferInstanceAs (Decidable (∀ c ∈ s[i]?.bind Caller.next, ∀ j < s.length, j ≠ i → ∀ d ∈ s[j]?, _))

structure Inv (s : List (Caller Lock)) : Prop where
  exclusive : Exclusive s
  follows : ∀ c ∈ s, Follows Rule c.held c.rest

theorem Inv.nil : Inv [] := ⟨fun i _ _ _ h => (by cases h), fun _ h => (by cases h)⟩

protected theorem Inv.step {s t : List (Caller Lock)} {a : Action Call} (hs : Inv s)
    (h : step s a = some t) : Inv t :=
  ⟨hs.exclusive.step h, Follows.step follows_steps hs.follows h⟩

theorem not_crossed_step {s t : List (Caller Lock)} {a : Action Call} (hs : ¬ Crossed s) (hok : Orderly s a)
    (h : step s a = some t) : ¬ Crossed t := by
  rintro ⟨i, j, c, d, hc, hd, hlook, henter⟩
  rcases step_cases h with ⟨r, -, rfl⟩ | ⟨k, x, x', rfl, hx, hnext, -, rfl⟩
  · rcases getElem?_call hc with hc | rfl
    · rcases getElem?_call hd with hd | rfl
      · exact hs ⟨i, j, c, d, hc, hd, hlook, henter⟩
      · exact absurd henter.1 List.not_mem_nil
    · cases hlook.1
  · have hlt : ∀ {m : Nat} {e : Caller Lock}, s[m]? = some e → m < s.length :=
      fun h => (List.getElem?_eq_some_iff.mp h).1
    have hafter := Option.bind_eq_some_iff.mpr ⟨x, hx, hnext⟩
    rcases getElem?_step hc with ⟨rfl, rfl⟩ | ⟨hi, hci⟩
    · rcases getElem?_step hd with ⟨rfl, rfl⟩ | ⟨hj, hdj⟩
      · have := henter.1
        rw [hlook.1] at this
        simp at this
      · exact (hok c hafter j (hlt hdj) hj d hdj).1 ⟨hlook, henter⟩
    · rcases getElem?_step hd with ⟨rfl, rfl⟩ | ⟨hj, hdj⟩
      · exact (hok d hafter i (hlt hci) hi c hci).2 ⟨henter, hlook⟩
      · exact hs ⟨i, j, c, d, hci, hdj, hlook, henter⟩

/-- A call that holds a lock and waits for another is a writer under the sessions, the first pass over the stalled
sessions, or a lookup. -/
theorem Inv.waiting {s : List (Caller Lock)} (hs : Inv s) {i : Nat} {c : Caller Lock} (hc : s[i]? = some c)
    {g h : Guard Lock} (hg : g ∈ c.held) (hh : c.wants = some h) :
    (⟨sessions, .write⟩ ∈ c.held ∧ h.mode = .write ∧ ∀ g ∈ c.held, g.lock ≠ h.lock) ∨
    (c.held = [⟨sessions, .read⟩] ∧ h = ⟨sessionLastUpdated, .read⟩) ∨
    (c.held = [⟨daemonSessions, .read⟩] ∧ h = ⟨sessions, .read⟩) := by
  refine (hs.follows c (List.mem_of_getElem? hc)).wants hh |>.resolve_left fun hnil => ?_
  rw [hnil] at hg
  cases hg

/-- A call that waits for `sessions` with a lock held is a lookup, so in a cycle a writer waits for a lookup. -/
theorem Inv.not_waitCycle {s : List (Caller Lock)} (hs : Inv s) (hcross : ¬ Crossed s) : ¬ WaitCycle s := by
  let rank := fun j : Nat => if (s[j]?.bind Caller.wants).map Guard.lock = some sessions then 1 else 0
  refine Locks.not_waitCycle rank ?_
  rintro h i j k ⟨-, c, -, hc, -, -, gi, hgi, -⟩ ⟨c', d, hc', hd, g, hg, gj, hgj, hlock⟩ ⟨d', -, hd', -, g', hg', -⟩
  obtain rfl : c = c' := Option.some.inj (hc.symm.trans hc')
  obtain rfl : d = d' := Option.some.inj (hd.symm.trans hd')
  have hi : ⟨sessions, .write⟩ ∈ c.held → ⟨sessions, .write⟩ ∈ d.held ∨ d.held = [⟨sessions, .read⟩] → i = j := by
    intro hwrite hother
    by_contra hne
    rcases hother with hother | hother
    · exact hs.exclusive i j c d hc hd hne _ hwrite _ hother ⟨rfl, .inl rfl⟩
    · exact hs.exclusive i j c d hc hd hne _ hwrite ⟨sessions, .read⟩ (by rw [hother]; simp) ⟨rfl, .inl rfl⟩
  rcases hs.waiting hd hg' hgj with ⟨hwrite, hmode, hnot⟩ | ⟨hread, rfl⟩ | ⟨hread, rfl⟩
  · -- whoever holds what the writer waits for is a lookup
    exfalso
    rcases hs.waiting hc hg hgi with ⟨hwrite', -, -⟩ | ⟨hread', rfl⟩ | ⟨hread', rfl⟩
    · obtain rfl := hi hwrite' (.inl hwrite)
      obtain rfl : c = d := Option.some.inj (hc.symm.trans hd)
      exact hnot g hg hlock
    · rw [hread', List.mem_singleton] at hg
      subst hg
      exact hnot _ hwrite hlock
    · rw [hread', List.mem_singleton] at hg
      subst hg
      obtain rfl : gj = ⟨daemonSessions, .write⟩ := by
        rw [← hmode]
        exact congrArg (Guard.mk · gj.mode) hlock.symm
      exact hcross ⟨i, j, c, d, hc, hd, ⟨hread', hgi⟩, hwrite, owes_of_wants hgj⟩
  · exfalso
    rcases hs.waiting hc hg hgi with ⟨hwrite', -, -⟩ | ⟨hread', rfl⟩ | ⟨hread', rfl⟩
    · obtain rfl := hi hwrite' (.inr hread)
      obtain rfl : c = d := Option.some.inj (hc.symm.trans hd)
      rw [hread] at hwrite'
      simp at hwrite'
    · rw [hread', List.mem_singleton] at hg
      subst hg
      cases hlock
    · rw [hread', List.mem_singleton] at hg
      subst hg
      cases hlock
  · have hj : rank j = 1 := by simp [rank, hd, hgj]
    have hzero : rank i = 0 := by
      refine if_neg fun hsessions => ?_
      rw [hc, Option.bind_some, hgi, Option.map_some, Option.some.injEq] at hsessions
      rcases hs.waiting hc hg hgi with ⟨hwrite', -, hnot'⟩ | ⟨-, rfl⟩ | ⟨hread', rfl⟩
      · exact hnot' _ hwrite' hsessions.symm
      · cases hsessions
      · rw [hread', List.mem_singleton] at hg
        subst hg
        cases hlock
    omega

/-- A lookup and a writer that have crossed are so for ever: neither is granted what the other holds. -/
protected theorem Crossed.step {s t : List (Caller Lock)} {a : Action Call} (hs : Crossed s) (h : step s a = some t) :
    Crossed t := by
  obtain ⟨i, j, c, d, hc, hd, hlook, hwrite, howes⟩ := hs
  rcases step_cases h with ⟨r, -, rfl⟩ | ⟨k, x, x', rfl, hx, hnext, hfree, rfl⟩
  · have hleft : ∀ {m : Nat} {e : Caller Lock}, s[m]? = some e →
        (s ++ [{ rest := r.steps }])[m]? = some e := fun h => by
      rw [List.getElem?_append_left (List.getElem?_eq_some_iff.mp h).1]
      exact h
    exact ⟨i, j, c, d, hleft hc, hleft hd, hlook, hwrite, howes⟩
  · have hik : k ≠ i := by
      rintro rfl
      obtain rfl : c = x := Option.some.inj (hc.symm.trans hx)
      exact hfree _ hlook.2 d (List.mem_of_getElem? hd) _ hwrite ⟨rfl, .inr rfl⟩
    by_cases hjk : k = j
    · subst hjk
      obtain rfl : d = x := Option.some.inj (hd.symm.trans hx)
      have hlt : k < s.length := (List.getElem?_eq_some_iff.mp hd).1
      refine ⟨i, k, c, x', by rwa [List.getElem?_set_ne hik], by rw [List.getElem?_set_self hlt], hlook, ?_⟩
      unfold Caller.next at hnext
      split at hnext
      · cases hnext
      · next g rest hrest =>
        cases hnext
        rw [hrest] at howes
        rcases howes with rfl | howes
        · -- the queues are held by the lookup
          have hwants : d.wants = some ⟨daemonSessions, .write⟩ := by rw [Caller.wants, hrest]
          refine absurd ⟨rfl, .inl rfl⟩ (hfree _ hwants c (List.mem_of_getElem? hc) ⟨daemonSessions, .read⟩ ?_)
          rw [hlook.1]
          exact List.mem_singleton_self _
        · exact ⟨List.mem_cons_of_mem _ hwrite, howes⟩
      · next l rest hrest =>
        cases hnext
        rw [hrest] at howes
        exact ⟨List.mem_filter.mpr ⟨hwrite, by simpa using Ne.symm howes.1⟩, howes.2⟩
    · exact ⟨i, j, c, d, by rwa [List.getElem?_set_ne hik], by rwa [List.getElem?_set_ne hjk], hlook, hwrite, howes⟩

theorem Crossed.visits {s : List (Caller Lock)} (hs : Crossed s) (as : List (Action Call)) :
    Visits step Crossed s as :=
  Transition.visits_of_inv (fun _ _ _ h hstep => h.step hstep) (fun _ h => h) hs as

/-- **No run reaches a wait cycle** in which the lookups and the writers that go on to the queues keep out of each
other's way. -/
theorem visits_not_waitCycle {as : List (Action Call)} (hok : Along step Orderly [] as) :
    Visits step (fun s => ¬ WaitCycle s) [] as := by
  refine hok.visits (I := fun s => Inv s ∧ ¬ Crossed s) ?_ (fun s hs => hs.1.not_waitCycle hs.2) ⟨Inv.nil, ?_⟩
  · intro s a t hs hok h
    exact ⟨hs.1.step h, not_crossed_step hs.2 hok h⟩
  · rintro ⟨i, _, _, _, hc, -⟩
    cases hc

/-- A clearing that has the sessions while a lookup still has the queue. -/
theorem clearing_under_lookup_not_waitCycle :
    Visits step (fun s => ¬ WaitCycle s) [] [.call .getSessionsForDaemon, .call .clearSessionsForDaemon, .run 0,
      .run 0, .run 0, .run 1, .run 0, .run 1, .run 1] :=
  visits_not_waitCycle (by decide)

/-- A lookup has the queue, a clearing has the sessions, and each waits for the other. -/
theorem lookup_and_clearing_waitCycle :
    ¬ ∀ as : List (Action Call), Visits step (fun s => ¬ WaitCycle s) [] as := by
  intro h
  have hrun := (h [.call .getSessionsForDaemon, .call .clearSessionsForDaemon, .run 0, .run 1]).2.2.2.2.1
  refine hrun ⟨0, 1, by decide, .single ⟨_, _, rfl, rfl, ⟨daemonSessions, .read⟩, by decide, _, rfl, rfl⟩,
    .single ⟨_, _, rfl, rfl, ⟨sessions, .write⟩, by decide, _, rfl, rfl⟩⟩

end Netvisor.SessionLocks
