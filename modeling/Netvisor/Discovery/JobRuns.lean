/-
The runs of a scheduled discovery, between edits of the discovery and its
deletion.

A job starts a session with the copy of the discovery it was given when it was
scheduled, and afterwards writes the copy back; edits and deletions are single
statements that may come anywhere between.
-/
import Netvisor.Discovery.Mirror

namespace Netvisor

open Program (wp after)
open Transition (Every Along)

/-- What a session is started with, other than the SNMP credentials. -/
def DiscoveryType.definition : DiscoveryType → DiscoveryType
  | .network subnetIds hostNamingFallback _ probeRawSocketPorts =>
    .network subnetIds hostNamingFallback {} probeRawSocketPorts
  | other => other

/-- Sessions of the two are the same. -/
structure Discovery.SameDefinition (d d' : Discovery) : Prop where
  daemonId : d.base.daemonId = d'.base.daemonId
  networkId : d.base.networkId = d'.base.networkId
  discoveryType : d.base.discoveryType.definition = d'.base.discoveryType.definition

instance (d d' : Discovery) : Decidable (d.SameDefinition d') :=
  decidable_of_iff
    (d.base.daemonId = d'.base.daemonId ∧ d.base.networkId = d'.base.networkId ∧
      d.base.discoveryType.definition = d'.base.discoveryType.definition)
    ⟨fun ⟨h, h', h''⟩ => ⟨h, h', h''⟩, fun ⟨h, h', h''⟩ => ⟨h, h', h''⟩⟩

namespace JobRuns

/-- A job that has started its session and has yet to write its copy back. -/
structure Run where
  discovery : Discovery
  startedAt : DateTime
deriving DecidableEq, Repr

structure State where
  server : DiscoveryServer
  running : List Run := []

inductive Action
  | tick (elapsed : Nat)
  /-- A job runs, up to where its session is started. -/
  | fire (i : Nat) (sessionId : Uuid)
  /-- The copy is written back. -/
  | finish (i : Nat)
  /-- The statement of an edit. -/
  | edit (discovery : Discovery)
  | delete (id : Uuid)

def step (s : State) : Action → Option State
  | .tick elapsed => some { s with server.now := s.server.now + elapsed }
  | .fire i sessionId =>
    match s.server.jobs[i]? with
    | none => none
    | some job =>
      some
        { server := s.server.startSession job.discovery sessionId
          running := s.running ++ [{ discovery := job.discovery, startedAt := s.server.now }] }
  | .finish i =>
    match s.running[i]? with
    | none => none
    | some run =>
      some
        { server := after (DiscoveryStore.updateRow (run.discovery.recordRun s.server.now)) s.server
          running := s.running.eraseIdx i }
  | .edit discovery => some { s with server := after (DiscoveryStore.updateRow discovery) s.server }
  | .delete id =>
    some { s with server.discoveries := s.server.discoveries.filter fun d => d.id != id }

/-- The session that is started for a discovery. -/
def session (server : DiscoveryServer) (discovery : Discovery) (sessionId : Uuid) : DiscoveryUpdatePayload :=
  DiscoveryService.sessionPayload discovery sessionId
    (server.tables.buildCredentialsForDiscovery discovery.base.networkId)

/-- A job that runs starts a session of the stored discovery, if that is enabled; in the end the last
run is set in the stored row, to a time since the start, and nothing else is. -/
def Follows (s : State) : Action → State → Prop
  | .fire i sessionId, t => ∀ job ∈ s.server.jobs[i]?,
    match (s.server.discoveries.get job.discovery.id).filter Discovery.isEnabled with
    | some stored => t.server.queued = session s.server stored sessionId :: s.server.queued
    | none => t.server.queued = s.server.queued
  | .finish i, t => ∀ run ∈ s.running[i]?,
    match s.server.discoveries.get run.discovery.id with
    | some stored => ∃ lastRun : DateTime, run.startedAt ≤ lastRun ∧ lastRun ≤ s.server.now ∧
      t.server.discoveries = s.server.discoveries.update (stored.ran lastRun)
    | none => t.server.discoveries = s.server.discoveries
  | _, _ => True

/-- What a finished run leaves of a stored discovery. -/
def leaves (s : State) (run : Run) (stored : Discovery) : Discovery :=
  if s.server.references run.discovery then run.discovery else stored

/-- The copy in the job is still what is stored and enabled; and the copy written back is the stored
row with a last run since the start. -/
def UpToDate (s : State) : Action → Prop
  | .fire i _ => ∀ job ∈ s.server.jobs[i]?, ∃ stored ∈ s.server.discoveries.get job.discovery.id,
    stored.isEnabled = true ∧ job.discovery.SameDefinition stored
  | .finish i => ∀ run ∈ s.running[i]?, ∀ stored ∈ s.server.discoveries.get run.discovery.id,
    ∃ lastRun : DateTime, run.startedAt ≤ lastRun ∧ lastRun ≤ s.server.now ∧ leaves s run stored = stored.ran lastRun
  | _ => True

variable {s t : State} {a : Action}

theorem session_eq_iff {server : DiscoveryServer} {d d' : Discovery} {sessionId : Uuid} :
    session server d sessionId = session server d' sessionId ↔ d.SameDefinition d' := by
  unfold session DiscoveryService.sessionPayload DiscoveryUpdatePayload.new
  constructor
  · intro heq
    simp only [DiscoveryUpdatePayload.mk.injEq, true_and, and_true] at heq
    obtain ⟨hdaemon, hnetwork, htype⟩ := heq
    refine ⟨hdaemon, hnetwork, ?_⟩
    rw [hnetwork] at htype
    cases hd : d.base.discoveryType <;> cases hd' : d'.base.discoveryType <;> rw [hd,
      hd'] at htype <;> simp_all [DiscoveryType.definition]
  · rintro ⟨hdaemon, hnetwork, htype⟩
    simp only [DiscoveryUpdatePayload.mk.injEq, true_and, and_true]
    refine ⟨hdaemon, hnetwork, ?_⟩
    rw [hnetwork]
    cases hd : d.base.discoveryType <;> cases hd' : d'.base.discoveryType <;> rw [hd,
      hd'] at htype <;> simp_all [DiscoveryType.definition]

/-- A run that is finished leaves its copy, if the row is still there. -/
theorem discoveries_finish (server : DiscoveryServer) (run : Run) :
    (after (DiscoveryStore.updateRow (run.discovery.recordRun server.now)) server).discoveries =
      match server.discoveries.get run.discovery.id with
      | some stored => server.discoveries.update (leaves { server } run stored)
      | none => server.discoveries := by
  refine (Program.wp_after (P := fun t : DiscoveryServer => t.discoveries = _)).mp ?_
  cases hget : server.discoveries.get run.discovery.id with
  | none =>
    refine DiscoveryServer.wp_updateRow (fun _ => ?_) fun _ _ => rfl
    exact Table.update_missing hget
  | some stored =>
    have hid : stored.id = run.discovery.id := (Table.get_eq_some.mp hget).2
    refine DiscoveryServer.wp_updateRow (fun href => ?_) fun hdangling _ => ?_
    · have href : server.references run.discovery = true := href stored hget
      have hleft : leaves { server } run stored = run.discovery := if_pos href
      dsimp only
      rw [hleft]
      rfl
    · have hdangling : server.references run.discovery = false := hdangling
      dsimp only
      rw [leaves, hdangling, if_neg Bool.false_ne_true, Table.update_get (hid ▸ hget)]

theorem leaves_id {run : Run} {stored : Discovery} (h : stored.id = run.discovery.id) :
    (leaves s run stored).id = run.discovery.id := by
  unfold leaves
  split
  · rfl
  · exact h

/-- A step follows the stored discovery exactly when the copy is up to date. -/
theorem follows_iff (hstep : step s a = some t) : Follows s a t ↔ UpToDate s a := by
  cases a with
  | tick elapsed => exact Iff.rfl
  | edit discovery => exact Iff.rfl
  | delete id => exact Iff.rfl
  | fire i sessionId =>
    simp only [step] at hstep
    split at hstep
    · cases hstep
    next job hjob =>
    cases hstep
    have hqueued : (s.server.startSession job.discovery sessionId).queued =
        session s.server job.discovery sessionId :: s.server.queued := rfl
    simp only [Follows, UpToDate, hjob, Option.mem_def, Option.some.injEq, forall_eq', hqueued]
    cases hget : s.server.discoveries.get job.discovery.id with
    | none => simp
    | some stored =>
      cases henabled : stored.isEnabled with
      | false => simp [henabled, Option.filter_some]
      | true => simp [henabled, Option.filter_some, session_eq_iff]
  | finish i =>
    simp only [step] at hstep
    split at hstep
    · cases hstep
    next run hrun =>
    cases hstep
    simp only [Follows, UpToDate, hrun, Option.mem_def, Option.some.injEq, forall_eq', discoveries_finish]
    cases hget : s.server.discoveries.get run.discovery.id with
    | none => simp
    | some stored =>
      simp only [Option.some.injEq, forall_eq']
      have hid : stored.id = run.discovery.id := (Table.get_eq_some.mp hget).2
      refine exists_congr fun lastRun => and_congr_right fun _ => and_congr_right fun _ =>
        ⟨fun heq => ?_, fun heq => ?_⟩
      · have hleft := Table.get_update_self hget (r := leaves { server := s.server } run stored) (leaves_id hid)
        have hright := Table.get_update_self hget (r := stored.ran lastRun) hid
        rw [heq] at hleft
        exact Option.some.inj (hleft.symm.trans hright)
      · exact congrArg _ heq

/-- The server has started, and no job runs. -/
def start [CronRules] (tables : Tables) (discoveries : Table Discovery Discovery.id) (now : DateTime) : State where
  server := DiscoveryServer.boot tables discoveries now

/-- **A scheduled run follows the stored discovery and preserves it**, in every run, exactly when every
job that runs or finishes has a copy that is up to date. -/
theorem follows_iff_upToDate [CronRules] (tables : Tables) (discoveries : Table Discovery Discovery.id)
    (now : DateTime)
    (as : List Action) :
    Every step Follows (start tables discoveries now) as ↔ Along step UpToDate (start tables discoveries now) as :=
  Transition.every_iff_along (I := fun _ => True) (fun _ _ _ _ _ _ => trivial)
    (fun _ _ _ _ hok hstep => (follows_iff hstep).mpr hok) (fun _ _ _ _ hstep h => (follows_iff hstep).mp h) trivial

section Runs

open DiscoveryServer (oneDaemon nightly)

/-- The end of a run leaves the name of the stored discovery. -/
def KeepsName (s : State) : Action → State → Prop
  | .finish i, t => ∀ run ∈ s.running[i]?,
    (t.server.discoveries.get run.discovery.id).map (·.base.name) =
      (s.server.discoveries.get run.discovery.id).map (·.base.name)
  | _, _ => True

instance (s : State) (a : Action) (t : State) : Decidable (KeepsName s a t) := by
  unfold KeepsName
  cases a <;> infer_instance

theorem keepsName_of_follows (h : Follows s a t) : KeepsName s a t := by
  cases a with
  | finish i =>
    intro run hrun
    have hrun := h run hrun
    cases hget : s.server.discoveries.get run.discovery.id with
    | none =>
      rw [hget] at hrun
      rw [hrun, hget]
    | some stored =>
      rw [hget] at hrun
      obtain ⟨lastRun, -, -, hleft⟩ := hrun
      have hid : (stored.ran lastRun).id = run.discovery.id := (Table.get_eq_some.mp hget).2
      rw [hleft, Table.get_update_self hget hid]
      rfl
  | tick _ | fire _ _ | edit _ | delete _ => trivial

def renamed : Discovery := { nightly with base.name := "Self Report at night" }

/-- The discovery is renamed while its job runs, and gets its old name back. -/
theorem rename_reverted : ¬ Every step Follows (@start ⟨fun _ => none⟩ oneDaemon ⟨[nightly], by decide⟩ 0)
    [.fire 0 1, .edit renamed, .tick 5, .finish 0] := by
  intro h
  have hnames := h.mono (S := KeepsName) fun s a t _ hfollows => keepsName_of_follows hfollows
  exact absurd hnames (by decide +kernel)

end Runs

end JobRuns

end Netvisor
