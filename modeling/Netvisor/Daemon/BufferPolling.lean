/-
The discovery buffer in ServerPoll mode, as a system of three parties: the
scan workers push hosts, the poll handler reads the pending entries, and the
server's confirmations mark entries as created. A discovery session runs them
in any order; confirmations may be late, repeated or lost.

A confirmation replaces the children an entry holds by those the server
answered, whatever was merged into the entry after the snapshot the server
processed. So a child is lost exactly when a confirmation reaches a pending
entry into which a child was merged after the latest returned poll began.
-/
import Netvisor.Daemon.Buffer
import Netvisor.Lib.Transition

namespace Netvisor.BufferPolling

/-- What the server sends back after processing a snapshot, keyed by pending id. -/
structure CreatedEntitiesPayload where
  subnets : List (Uuid × Subnet) := []
  hosts : List (Uuid × HostResponse) := []
deriving DecidableEq, Repr

/-- A `getPending` between its two locked sections. `pushedBefore` is history:
the children pushed until it read the hosts. -/
structure Poll where
  hosts : List DiscoveryHostRequest
  pushedBefore : List (Uuid × Child)

/-- One discovery session. `pushed` and `covered` are history: the children
pushed, by host id, and those pushed before a poll that has returned began. -/
structure State where
  buffer : EntityBuffer := {}
  polls : List Poll := []
  snapshots : List BufferedEntities := []
  confirmed : CreatedEntitiesPayload := {}
  pushed : List (Uuid × Child) := []
  covered : List (Uuid × Child) := []

inductive Action
  | pushHost (host : DiscoveryHostRequest)
  | pushSubnet (subnet : Subnet)
  | pollHosts
  | pollSubnets (i : Nat)
  /-- The server processes a snapshot it was given, with whatever outcome. -/
  | process (snapshot : BufferedEntities) (payload : CreatedEntitiesPayload)
  | markSubnetCreated (pendingId : Uuid) (actual : Subnet)
  | markHostCreated (pendingId : Uuid) (actual : HostResponse)

def step (s : State) : Action → Option State
  | .pushHost host =>
    some { s with
      buffer := s.buffer.pushHost host
      pushed := host.children.map (host.host.id, ·) ++ s.pushed }
  | .pushSubnet subnet => some { s with buffer := s.buffer.pushSubnet subnet }
  | .pollHosts => some { s with polls := ⟨s.buffer.pendingHosts, s.pushed⟩ :: s.polls }
  | .pollSubnets i =>
    match s.polls[i]? with
    | some poll =>
      some { s with
        polls := s.polls.eraseIdx i
        snapshots := ⟨poll.hosts, s.buffer.pendingSubnets⟩ :: s.snapshots
        covered := poll.pushedBefore ++ s.covered }
    | none => none
  | .process snapshot payload =>
    if snapshot ∈ s.snapshots
        ∧ (∀ p ∈ payload.hosts, p.1 ∈ snapshot.hosts.map (·.host.id))
        ∧ (∀ p ∈ payload.subnets, p.1 ∈ snapshot.subnets.map (·.id)) then
      some { s with
        confirmed :=
          { subnets := payload.subnets ++ s.confirmed.subnets
            hosts := payload.hosts ++ s.confirmed.hosts } }
    else none
  | .markSubnetCreated pendingId actual =>
    if (pendingId, actual) ∈ s.confirmed.subnets then
      some { s with buffer := (s.buffer.markSubnetCreated pendingId actual).2 }
    else none
  | .markHostCreated pendingId actual =>
    if (pendingId, actual) ∈ s.confirmed.hosts then
      some { s with buffer := s.buffer.markHostCreated pendingId actual }
    else none

/-! ## Where a child is -/

/-- The child is in a pending entry of the buffer. -/
def Held (b : EntityBuffer) (id : Uuid) (c : Child) : Prop := ∃ r ∈ b.pendingAt id, c ∈ r.children

/-- The child is in one of the polled hosts. -/
def Carried (hosts : List DiscoveryHostRequest) (id : Uuid) (c : Child) : Prop :=
  ∃ r ∈ hosts, r.host.id = id ∧ c ∈ r.children

/-- The child is in a snapshot that a poll has returned. -/
def Returned (s : State) (id : Uuid) (c : Child) : Prop := ∃ snapshot ∈ s.snapshots, Carried snapshot.hosts id c

/-- Every child pushed can still be polled or has been. -/
def NoChildLost (s : State) : Prop := ∀ p ∈ s.pushed, Held s.buffer p.1 p.2 ∨ Returned s p.1 p.2

/-- A confirmation finds no child in its entry that no poll has returned. -/
def MarksPolled (s : State) : Action → Prop
  | .markHostCreated pendingId _ =>
    ∀ r ∈ s.buffer.pendingAt pendingId, ∀ c ∈ r.children, Returned s pendingId c
  | _ => True

/-- The step loses no child. -/
def Keeps (s : State) (a : Action) (t : State) : Prop := MarksPolled s a ∧ NoChildLost t

/-- At a confirmation of a pending entry, every child pushed for its host was
pushed before a poll that has returned began. -/
def NoLatePush (s : State) : Action → Prop
  | .markHostCreated pendingId _ =>
    (s.buffer.pendingAt pendingId).isSome → ∀ p ∈ s.pushed, p.1 = pendingId → p ∈ s.covered
  | _ => True

instance (hosts : List DiscoveryHostRequest) (id : Uuid) (c : Child) : Decidable (Carried hosts id c) :=
  inferInstanceAs (Decidable (∃ r ∈ hosts, _))

instance (b : EntityBuffer) (id : Uuid) (c : Child) : Decidable (Held b id c) :=
  inferInstanceAs (Decidable (∃ r ∈ b.pendingAt id, _))

instance (s : State) (id : Uuid) (c : Child) : Decidable (Returned s id c) :=
  inferInstanceAs (Decidable (∃ snapshot ∈ s.snapshots, _))

instance (s : State) : Decidable (NoChildLost s) := inferInstanceAs (Decidable (∀ p ∈ s.pushed, _))

instance (s : State) (a : Action) : Decidable (MarksPolled s a) := by
  cases a <;> unfold MarksPolled <;> infer_instance

instance (s : State) (a : Action) : Decidable (NoLatePush s a) := by
  cases a <;> unfold NoLatePush <;> infer_instance

instance (s : State) (a : Action) (t : State) : Decidable (Keeps s a t) := inferInstanceAs (Decidable (_ ∧ _))

/-! ## The invariant -/

/-- What the history says of the buffer and the snapshots, whatever the run. -/
structure Sound (s : State) : Prop where
  keyed : ∀ id r, s.buffer.pendingAt id = some r → r.host.id = id
  held : ∀ id c, Held s.buffer id c → (id, c) ∈ s.pushed
  polls : ∀ p ∈ s.polls, ∀ id c, Carried p.hosts id c → (id, c) ∈ p.pushedBefore
  returned : ∀ id c, Returned s id c → (id, c) ∈ s.covered

/-- Every child is where it can still be found, and every poll found all the
children pushed before it that no earlier poll returned. -/
structure Complete (s : State) : Prop where
  noChildLost : NoChildLost s
  polls : ∀ p ∈ s.polls, ∀ id c, (id, c) ∈ p.pushedBefore → Carried p.hosts id c ∨ Returned s id c
  covered : ∀ id c, (id, c) ∈ s.covered → Returned s id c

theorem carried_pendingHosts {s : State} (h : Sound s) {id : Uuid} {c : Child} :
    Carried s.buffer.pendingHosts id c ↔ Held s.buffer id c := by
  simp only [Carried, EntityBuffer.mem_pendingHosts]
  constructor
  · rintro ⟨r, ⟨id', hr⟩, rfl, hc⟩
    have hid : r.host.id = id' := h.keyed id' r hr
    exact ⟨r, hid ▸ hr, hc⟩
  · rintro ⟨r, hr, hc⟩
    exact ⟨r, ⟨id, hr⟩, h.keyed id r hr, hc⟩

theorem held_pushHost {b : EntityBuffer} {host : DiscoveryHostRequest} {id : Uuid} {c : Child} :
    Held (b.pushHost host) id c ↔ (id = host.host.id ∧ c ∈ host.children) ∨ Held b id c := by
  simp only [Held, EntityBuffer.pendingAt_pushHost]
  by_cases hid : id = host.host.id
  · cases h : b.pendingAt id with
    | none => simp [hid]
    | some existing => simp [hid, DiscoveryHostRequest.mem_children_extend]
  · simp [hid]

theorem held_markHostCreated {b : EntityBuffer} {pendingId id : Uuid} {actual : HostResponse} {c : Child} :
    Held (b.markHostCreated pendingId actual) id c ↔ id ≠ pendingId ∧ Held b id c := by
  simp only [Held, EntityBuffer.pendingAt_markHostCreated]
  by_cases hid : id = pendingId <;> simp [hid]

theorem mem_pushed_pushHost {s : State} {host : DiscoveryHostRequest} {id : Uuid} {c : Child} :
    (id, c) ∈ host.children.map (host.host.id, ·) ++ s.pushed ↔
      (id = host.host.id ∧ c ∈ host.children) ∨ (id, c) ∈ s.pushed := by
  simp only [List.mem_append, List.mem_map, Prod.mk.injEq]
  grind

theorem Sound.init : Sound {} where
  keyed _ _ h := by cases h
  held _ _ h := by
    obtain ⟨_, h, _⟩ := h
    cases h
  polls _ h := by cases h
  returned _ _ h := by
    obtain ⟨_, h, _⟩ := h
    cases h

theorem Complete.init : Complete {} where
  noChildLost _ h := by cases h
  polls _ h := by cases h
  covered _ _ h := by cases h

/-- **Snapshots and history agree.** Every step keeps them so. -/
theorem Sound.step {s t : State} {a : Action} (h : Sound s) (hs : step s a = some t) : Sound t := by
  cases a with
  | pushHost host =>
    simp only [BufferPolling.step, Option.some.injEq] at hs
    subst hs
    refine ⟨fun id r hr => ?_, fun id c hc => ?_, h.polls, h.returned⟩
    · simp only [EntityBuffer.pendingAt_pushHost] at hr
      split at hr
      · next hid =>
        split at hr
        · next existing he =>
          cases hr
          exact h.keyed id existing he
        · cases hr
          exact hid.symm
      · exact h.keyed id r hr
    · rw [mem_pushed_pushHost]
      exact (held_pushHost.mp hc).imp_right (h.held id c)
  | pushSubnet subnet =>
    simp only [BufferPolling.step, Option.some.injEq] at hs
    subst hs
    exact ⟨h.keyed, h.held, h.polls, h.returned⟩
  | pollHosts =>
    simp only [BufferPolling.step, Option.some.injEq] at hs
    subst hs
    refine ⟨h.keyed, h.held, fun p hp id c hc => ?_, h.returned⟩
    rcases List.mem_cons.mp hp with rfl | hp
    · exact h.held id c ((carried_pendingHosts h).mp hc)
    · exact h.polls p hp id c hc
  | pollSubnets i =>
    simp only [BufferPolling.step] at hs
    split at hs
    · next poll hpoll =>
      cases hs
      have hmem : poll ∈ s.polls := List.mem_of_getElem? hpoll
      refine ⟨h.keyed, h.held, fun p hp => h.polls p (List.mem_of_mem_eraseIdx hp), fun id c hc => ?_⟩
      obtain ⟨snapshot, hsn, hc⟩ := hc
      rcases List.mem_cons.mp hsn with rfl | hsn
      · exact List.mem_append_left _ (h.polls poll hmem id c hc)
      · exact List.mem_append_right _ (h.returned id c ⟨snapshot, hsn, hc⟩)
    · cases hs
  | process snapshot payload =>
    simp only [BufferPolling.step] at hs
    split at hs
    · cases hs
      exact ⟨h.keyed, h.held, h.polls, h.returned⟩
    · cases hs
  | markSubnetCreated pendingId actual =>
    simp only [BufferPolling.step] at hs
    split at hs
    · cases hs
      refine ⟨fun id r hr => ?_, fun id c hc => ?_, h.polls, h.returned⟩
      · exact h.keyed id r (by simpa using hr)
      · exact h.held id c (by simpa [Held] using hc)
    · cases hs
  | markHostCreated pendingId actual =>
    simp only [BufferPolling.step] at hs
    split at hs
    · cases hs
      refine ⟨fun id r hr => ?_, fun id c hc => ?_, h.polls, h.returned⟩
      · simp only [EntityBuffer.pendingAt_markHostCreated] at hr
        split at hr
        · cases hr
        · exact h.keyed id r hr
      · exact h.held id c (held_markHostCreated.mp hc).2
    · cases hs

/-- **No child is lost** by a step that confirms no entry with a late push. -/
theorem Complete.step {s t : State} {a : Action} (hS : Sound s) (h : Complete s) (hok : NoLatePush s a)
    (hs : step s a = some t) : Complete t := by
  cases a with
  | pushHost host =>
    simp only [BufferPolling.step, Option.some.injEq] at hs
    subst hs
    refine ⟨fun ⟨id, c⟩ hc => ?_, h.polls, h.covered⟩
    rcases mem_pushed_pushHost.mp hc with hnew | hold
    · exact .inl (held_pushHost.mpr (.inl hnew))
    · exact (h.noChildLost (id, c) hold).imp_left fun hh => held_pushHost.mpr (.inr hh)
  | pushSubnet subnet =>
    simp only [BufferPolling.step, Option.some.injEq] at hs
    subst hs
    exact ⟨h.noChildLost, h.polls, h.covered⟩
  | pollHosts =>
    simp only [BufferPolling.step, Option.some.injEq] at hs
    subst hs
    refine ⟨h.noChildLost, fun p hp id c hc => ?_, h.covered⟩
    rcases List.mem_cons.mp hp with rfl | hp
    · exact (h.noChildLost (id, c) hc).imp_left (carried_pendingHosts hS).mpr
    · exact h.polls p hp id c hc
  | pollSubnets i =>
    simp only [BufferPolling.step] at hs
    split at hs
    · next poll hpoll =>
      cases hs
      have hmem : poll ∈ s.polls := List.mem_of_getElem? hpoll
      have hret : ∀ id c, Returned s id c → ∃ snapshot ∈ (⟨poll.hosts, s.buffer.pendingSubnets⟩ :: s.snapshots :
          List BufferedEntities), Carried snapshot.hosts id c :=
        fun id c ⟨snapshot, hsn, hc⟩ => ⟨snapshot, List.mem_cons_of_mem _ hsn, hc⟩
      refine ⟨fun ⟨id, c⟩ hc => (h.noChildLost (id, c) hc).imp_right (hret id c), fun p hp id c hc => ?_,
        fun id c hc => ?_⟩
      · exact (h.polls p (List.mem_of_mem_eraseIdx hp) id c hc).imp_right (hret id c)
      · rcases List.mem_append.mp hc with hc | hc
        · rcases h.polls poll hmem id c hc with hcar | hr
          · exact ⟨_, List.mem_cons_self, hcar⟩
          · exact hret id c hr
        · exact hret id c (h.covered id c hc)
    · cases hs
  | process snapshot payload =>
    simp only [BufferPolling.step] at hs
    split at hs
    · cases hs
      exact ⟨h.noChildLost, h.polls, h.covered⟩
    · cases hs
  | markSubnetCreated pendingId actual =>
    simp only [BufferPolling.step] at hs
    split at hs
    · cases hs
      refine ⟨fun ⟨id, c⟩ hc => (h.noChildLost (id, c) hc).imp_left fun hh => ?_, h.polls, h.covered⟩
      simpa [Held] using hh
    · cases hs
  | markHostCreated pendingId actual =>
    simp only [BufferPolling.step] at hs
    split at hs
    · cases hs
      refine ⟨fun ⟨id, c⟩ hc => ?_, h.polls, h.covered⟩
      rcases h.noChildLost (id, c) hc with hh | hr
      · by_cases hid : id = pendingId
        · -- the entry is confirmed: whatever it holds was pushed before a returned poll
          subst hid
          obtain ⟨r, hr, _⟩ := hh
          exact .inr (h.covered id c (hok (Option.isSome_of_mem hr) (id, c) hc rfl))
        · exact .inl (held_markHostCreated.mpr ⟨hid, hh⟩)
      · exact .inr hr
    · cases hs

/-- A pending entry holds only children that a poll has returned when no late
push reached it. -/
theorem Complete.marksPolled {s : State} {a : Action} (hS : Sound s) (h : Complete s) (hok : NoLatePush s a) :
    MarksPolled s a := by
  cases a with
  | markHostCreated pendingId actual =>
    intro r hr c hc
    have hpushed : (pendingId, c) ∈ s.pushed := hS.held pendingId c ⟨r, hr, hc⟩
    exact h.covered pendingId c (hok (Option.isSome_of_mem hr) _ hpushed rfl)
  | _ => trivial

/-- A late push is lost at the confirmation. -/
theorem Sound.noLatePush {s t : State} {a : Action} (hS : Sound s) (hs : BufferPolling.step s a = some t)
    (hk : NoChildLost t) : NoLatePush s a := by
  cases a with
  | markHostCreated pendingId actual =>
    intro _ ⟨id, c⟩ hc hid
    subst hid
    simp only [BufferPolling.step] at hs
    split at hs
    · cases hs
      rcases hk (id, c) hc with hh | hr
      · exact absurd rfl (held_markHostCreated.mp hh).1
      · exact hS.returned id c hr
    · cases hs
  | _ => trivial

/-- **No discovered child is lost**, in a discovery session run in any order,
exactly when no confirmation reaches a pending entry after a late push. -/
theorem keeps_iff_noLatePush (as : List Action) :
    Transition.Every step Keeps {} as ↔ Transition.Along step NoLatePush {} as :=
  Transition.every_iff_along (I := fun s => Sound s ∧ Complete s)
    (fun _ _ _ h hok hs => ⟨h.1.step hs, h.2.step h.1 hok hs⟩)
    (fun _ _ _ h hok hs => ⟨h.2.marksPolled h.1 hok, (h.2.step h.1 hok hs).noChildLost⟩)
    (fun _ _ _ h hs hk => h.1.noLatePush hs hk.2) ⟨.init, .init⟩

/-- Two containers of the host `1`, found one before and one after the poll
whose snapshot is confirmed: the second is lost. -/
theorem child_lost_after_late_push :
    ¬ Transition.Every step Keeps {}
      [.pushHost { host.id := 1, services := [{ id := 10 }] }, .pollHosts, .pollSubnets 0,
        .process ⟨[{ host.id := 1, services := [{ id := 10 }] }], []⟩
          { hosts := [(1, { id := 1, services := [{ id := 10 }] })] },
        .pushHost { host.id := 1, services := [{ id := 11 }] },
        .markHostCreated 1 { id := 1, services := [{ id := 10 }] }] := by
  decide

end Netvisor.BufferPolling
