/-
The rows of sessions that are over, among all that writes the table of
discoveries: requests that create, update, delete and start discoveries, jobs
of the scheduler, and the sessions themselves.

A request or a job that writes a row has read before, and other steps may come
between: the checks and the statement are two steps, and so are the start of a
session and the update of the discovery it was started from.
-/
import Netvisor.Discovery.History
import Netvisor.Discovery.Mirror

namespace Netvisor

open Program (wp after)
open Transition (Every Along)

/-- The discovery is the record of a session. -/
def Discovery.isHistorical (discovery : Discovery) : Bool := discovery.results.isSome

namespace HistoricalRows

/-- A statement that is still to be made. -/
inductive Write
  | create (row : Discovery)
  | update (row : Discovery)
  /-- The discovery a request has started. -/
  | started (discovery : Discovery)
  /-- The discovery a job has started. -/
  | ran (discovery : Discovery)
deriving DecidableEq

/-- What was read before a session was started, and is written back. -/
def Write.copy : Write → Option Discovery
  | .create _ | .update _ => none
  | .started discovery | .ran discovery => some discovery

def Write.statement [CronRules] : Write → DiscoveryStore Unit
  | .create row => DiscoveryStore.insertRow row
  | .update row => DiscoveryStore.updateRow row
  | .started discovery => DiscoveryStore.updateDiscovery discovery
  | .ran discovery => do DiscoveryStore.updateRow (discovery.recordRun (← get).now)

/-- The sessions, with the rows that they record in one step, and the table those go to. -/
structure State where
  server : DiscoveryServer := {}
  sessions : Sessions.State := {}
  writes : List Write := []

namespace State

variable (s : State)

def rows : List Discovery := s.server.discoveries.rows

/-- The copies that may be written back, now or by a job that is yet to run. -/
def copies : List Discovery := s.writes.filterMap Write.copy ++ s.server.jobs.map (·.discovery)

/-- The sessions, none of their rows kept. -/
def emptied : Sessions.State := { s.sessions with service.discoveries := [] }

/-- Start a session; the discovery is written back later. -/
def start (discovery : Discovery) (sessionId : Uuid) (write : Write) : Option State :=
  let snmpCredentials := s.server.tables.buildCredentialsForDiscovery discovery.base.networkId
  match Sessions.step s.emptied (.startSession discovery sessionId snmpCredentials) with
  | some sessions => some { s with sessions, writes := s.writes ++ [write] }
  | none => none

/-- Store what the sessions recorded. `Uuid::new_v4` gives ids not seen before. -/
def store : List Discovery → Option State
  | [] => some s
  | row :: rows =>
    match store rows with
    | none => none
    | some t =>
      if (t.copies.map (·.id)).contains row.id then none
      else
        match DiscoveryStore.insertRow row t.server with
        | .ok _ server => some { t with server }
        | .error _ _ => none

end State

inductive Action
  | tick (elapsed : Nat)
  | create (entity : AuthenticatedEntity) (body : Discovery) (drawn : Uuid)
  | update (entity : AuthenticatedEntity) (id : Uuid) (body : Discovery)
  | delete (entity : AuthenticatedEntity) (id : Uuid)
  | bulkDelete (entity : AuthenticatedEntity) (ids : List Uuid)
  | start (entity : AuthenticatedEntity) (id sessionId : Uuid)
  /-- The scheduler runs one of its jobs. -/
  | runJob (i : Nat) (sessionId : Uuid)
  /-- A statement that was left to be made. -/
  | write (i : Nat)
  /-- A section of the session service, other than the first of a start. -/
  | sessions (a : Sessions.Action)

/-- The action deletes discoveries with the id. -/
def Action.deletes : Action → Uuid → Bool
  | .delete _ id, i => id == i
  | .bulkDelete _ ids, i => ids.contains i
  | _, _ => false

def step [CronRules] (s : State) : Action → Option State
  | .tick elapsed =>
    some { s with server.now := s.server.now + elapsed, sessions.now := s.sessions.now + elapsed }
  | .create entity body drawn =>
    match s.server.checkCreate entity body with
    | .error _ => some s
    | .ok () => some { s with writes := s.writes ++ [.create (s.server.newRow body drawn)] }
  | .update entity id body =>
    match s.server.checkUpdate entity id body with
    | .error _ => some s
    | .ok row => some { s with writes := s.writes ++ [.update row] }
  | .delete entity id => some { s with server := after (DiscoveryHandlers.deleteDiscovery entity id) s.server }
  | .bulkDelete entity ids => some { s with server := after (DiscoveryHandlers.bulkDelete entity ids) s.server }
  | .start entity id sessionId =>
    match DiscoveryHandlers.startSession entity s.server.sessionServer id with
    | .error _ => some s
    | .ok discovery => s.start discovery sessionId (.started discovery)
  | .runJob i sessionId =>
    match s.server.jobs[i]? with
    | none => none
    | some job => s.start job.discovery sessionId (.ran job.discovery)
  | .write i =>
    match s.writes[i]? with
    | none => none
    | some write => some { s with server := after write.statement s.server, writes := s.writes.eraseIdx i }
  | .sessions (.startSession ..) | .sessions (.tick _) => none
  | .sessions a =>
    match Sessions.step s.emptied a with
    | none => none
    | some sessions => State.store { s with sessions } sessions.service.discoveries

/-- The server has started, and no session runs. -/
def start [CronRules] (tables : Tables) (discoveries : Table Discovery Discovery.id) (now : DateTime) : State where
  server := DiscoveryServer.boot tables discoveries now
  sessions := { now }

/-- The row records a session that was stored before and is over now. -/
def ended (s t : Sessions.State) (row : Discovery) : Bool :=
  row.results.any fun session =>
    session.phase.isTerminal && (s.service.getSession session.sessionId).isSome &&
      (t.service.getSession session.sessionId).isNone

/-- The record of a session is made as the session ends, and stays as it is until it is deleted. -/
structure Immutable (s : State) (a : Action) (t : State) : Prop where
  made : ∀ row ∈ t.rows, row.isHistorical = true → row ∈ s.rows ∨ ended s.sessions t.sessions row = true
  kept : ∀ row ∈ s.rows, row.isHistorical = true →
    row ∈ t.rows ∨ a.deletes row.id = true ∧ ∀ x ∈ t.rows, x.id ≠ row.id

instance (s : State) (a : Action) (t : State) : Decidable (Immutable s a t) :=
  decidable_of_iff
    ((∀ row ∈ t.rows, row.isHistorical = true → row ∈ s.rows ∨ ended s.sessions t.sessions row = true) ∧
      ∀ row ∈ s.rows, row.isHistorical = true →
        row ∈ t.rows ∨ a.deletes row.id = true ∧ ∀ x ∈ t.rows, x.id ≠ row.id)
    ⟨fun ⟨h, h'⟩ => ⟨h, h'⟩, fun ⟨h, h'⟩ => ⟨h, h'⟩⟩

/-- An update is not of a record; and a record that a session was started from is still one, where it is
written back. Statements that are refused, for a network or a daemon that is gone, are left out. -/
def Spares (s : State) : Action → Prop
  | .write i =>
    match s.writes[i]? with
    | some (.update row) => ∀ stored ∈ s.server.discoveries.get row.id,
      s.server.references row = true → stored.isHistorical = false
    | some (.started discovery) => discovery.isHistorical = true →
      ∀ stored ∈ s.server.discoveries.get discovery.id,
        s.server.references discovery = true → stored.isHistorical = true
    | _ => True
  | _ => True

/-! ## Statements -/

/-- What a statement does that writes a row, and may schedule it anew. -/
structure Wrote (s : DiscoveryServer) (row : Discovery) (t : DiscoveryServer) : Prop where
  discoveries : t.discoveries = if s.references row then s.discoveries.update row else s.discoveries
  jobs : ∀ job ∈ t.jobs, job ∈ s.jobs ∨ job.discovery = row ∧ row.isHistorical = false

variable {row : Discovery}

theorem references_congr {s t : DiscoveryServer} (h : t.tables = s.tables) : t.references row = s.references row := by
  unfold DiscoveryServer.references
  rw [h]

theorem removeJob_frame (s : DiscoveryServer) (id : Uuid) :
    (s.removeJob id).discoveries = s.discoveries ∧ (s.removeJob id).tables = s.tables ∧
      ∀ job ∈ (s.removeJob id).jobs, job ∈ s.jobs := by
  unfold DiscoveryServer.removeJob
  split
  · exact ⟨rfl, rfl, fun job hjob => (List.mem_filter.mp hjob).1⟩
  · exact ⟨rfl, rfl, fun job hjob => hjob⟩

theorem wrote_updateRow (server : DiscoveryServer) (row : Discovery) :
    wp (DiscoveryStore.updateRow row) (fun _ t => Wrote server row t) (fun _ t => Wrote server row t) server := by
  refine DiscoveryServer.wp_updateRow (fun hstored => ⟨?_, fun job hjob => .inl hjob⟩) fun hdangling _ =>
    ⟨?_, fun job hjob => .inl hjob⟩
  · show server.discoveries.update row = _
    split
    · rfl
    · next hdangling =>
      refine Table.update_missing ?_
      cases hget : server.discoveries.get row.id with
      | none => rfl
      | some x => exact absurd (hstored x hget) hdangling
  · rw [hdangling]
    rfl

/-- Scheduling a row that is stored leaves the table. -/
theorem wrote_scheduleOrDisable [CronRules] {server u : DiscoveryServer} (hwrote : Wrote server row u)
    (hrow : u.discoveries.get row.id = some row) (hrun : row.isHistorical = false) :
    wp (DiscoveryStore.scheduleOrDisable row) (fun _ t => Wrote server row t) (fun _ t => Wrote server row t) u := by
  refine DiscoveryServer.wp_scheduleOrDisable hrow (fun cronSchedule _ => ⟨hwrote.discoveries, fun job hjob => ?_⟩)
    (fun _ => ⟨hwrote.discoveries, hwrote.jobs⟩) fun _ _ _ => ⟨hwrote.discoveries, hwrote.jobs⟩
  rcases List.mem_append.mp hjob with hjob | hjob
  · exact hwrote.jobs job hjob
  · rw [List.mem_singleton.mp hjob]
    exact .inr ⟨rfl, hrun⟩

theorem wrote_updateDiscovery [CronRules] (server : DiscoveryServer) (row : Discovery) :
    Wrote server row (after (DiscoveryStore.updateDiscovery row) server) := by
  refine (Program.wp_after (P := Wrote server row)).mp ?_
  have hupdate := wrote_updateRow server row
  simp only [DiscoveryStore.updateDiscovery, Program.wp_bind, Program.wp_get]
  cases hget : server.discoveries.get row.id with
  | none =>
    refine ⟨?_, fun job hjob => .inl hjob⟩
    rw [Table.update_missing hget, ite_self]
  | some current =>
    simp only
    split
    · next hnew _ =>
      have hrun : row.isHistorical = false := by simp [Discovery.isHistorical, Discovery.results, hnew]
      split
      · simp only [Program.wp_bind, Program.wp_modify]
        obtain ⟨hsame, htables, hjobs⟩ := removeJob_frame server row.id
        have hget' : (server.removeJob row.id).discoveries.get row.id = some current := hsame ▸ hget
        refine DiscoveryServer.wp_updateRow (fun hstored => ?_) fun hdangling _ => ?_
        · refine wrote_scheduleOrDisable ⟨?_, fun job hjob => .inl (hjobs job hjob)⟩
            (Table.get_update_self hget' rfl) hrun
          rw [if_pos (by rw [← references_congr htables]; exact hstored current hget'), ← hsame]
        · refine ⟨?_, fun job hjob => .inl (hjobs job hjob)⟩
          rw [hsame, ← references_congr htables, hdangling]
          rfl
      · exact hupdate
    · exact hupdate

/-! ## What the sessions record -/

variable {v w : DiscoveryService}

/-- The new rows are of sessions that are over and were stored before. -/
def Recorded (v w : DiscoveryService) : Prop :=
  ∀ row ∈ w.discoveries, row ∈ v.discoveries ∨ ∃ session, row.results = some session ∧
    session.phase.isTerminal = true ∧ (v.getSession session.sessionId).isSome = true ∧
    w.getSession session.sessionId = none

theorem Recorded.of_eq (h : w.discoveries = v.discoveries) : Recorded v w := fun _ hrow => .inl (h ▸ hrow)

/-- The record of a session is added where the session is removed. -/
theorem Recorded.createHistorical {u : DiscoveryService} {session : DiscoveryUpdatePayload} {name : String}
    {now : DateTime} {saved : Option Uuid}
    (hrows : w.discoveries = (u.createHistorical session name now saved).discoveries)
    (hsame : u.discoveries = v.discoveries) (hterminal : session.phase.isTerminal = true)
    (hstored : (v.getSession session.sessionId).isSome = true) (hgone : w.getSession session.sessionId = none) :
    Recorded v w := by
  intro row hrow
  rw [hrows] at hrow
  cases saved with
  | none => exact .inl (hsame ▸ hrow)
  | some id =>
    rcases List.mem_cons.mp hrow with rfl | hrow
    · exact .inr ⟨session, rfl, hterminal, hstored, hgone⟩
    · exact .inl (hsame ▸ hrow)

theorem recorded_failStalled {now : DateTime} {saved : Uuid → Option Uuid} {stalled session : DiscoveryUpdatePayload}
    (h : v.getSession stalled.sessionId = some session) (hid : session.sessionId = stalled.sessionId) :
    Recorded v (v.failStalled now saved stalled) := by
  have hgone : (v.failStalled now saved stalled).getSession session.sessionId = none := by
    rw [DiscoveryService.getSession_failStalled, if_pos hid]
  have hstored : (v.getSession session.sessionId).isSome = true := by rw [hid, h, Option.isSome_some]
  have hfail : ∃ u session' name saved', (v.failStalled now saved stalled).discoveries =
      (DiscoveryService.createHistorical u session' name now saved').discoveries ∧ u.discoveries = v.discoveries ∧
      session'.phase.isTerminal = true ∧ session'.sessionId = session.sessionId := by
    simp only [DiscoveryService.failStalled, h]
    refine ⟨_, _, _, _, rfl, ?_, rfl, rfl⟩
    simp only [DiscoveryService.dropCancellation_frame, DiscoveryService.send_frame, DiscoveryService.forget_frame,
      DiscoveryService.dequeue_frame, DiscoveryService.removeSession_frame]
  obtain ⟨u, session', name, saved', hrows, hsame, hterminal, hid'⟩ := hfail
  exact .createHistorical hrows hsame hterminal (hid' ▸ hstored) (hid' ▸ hgone)

theorem recorded_removeStalled {now : DateTime} {saved : Uuid → Option Uuid} {stalled : List DiscoveryUpdatePayload}
    (hk : v.Keyed) : Recorded v (v.removeStalled now saved stalled) := by
  -- on the way, what is removed stays so
  refine (DiscoveryService.removeStalled_induction (s := v) (P := fun w =>
    (∀ id, v.getSession id = none → w.getSession id = none) ∧ Recorded v w) hk
    ⟨fun _ h => h, .of_eq rfl⟩ ?_ fun _ h => h).2
  intro u x session _ hx hid _ ⟨hless, hrecorded⟩
  have hget (id : Uuid) (h : u.getSession id = none) : (u.failStalled now saved x).getSession id = none := by
    rw [DiscoveryService.getSession_failStalled, h, ite_self]
  refine ⟨fun id h => hget id (hless id h), fun row hrow => ?_⟩
  rcases recorded_failStalled hx hid row hrow with hrow | ⟨session, hresults, hterminal, hstored, hgone⟩
  · refine (hrecorded row hrow).imp id ?_
    rintro ⟨session, hresults, hterminal, hstored, hgone⟩
    exact ⟨session, hresults, hterminal, hstored, hget _ hgone⟩
  · refine .inr ⟨session, hresults, hterminal, ?_, hgone⟩
    rw [← Option.ne_none_iff_isSome]
    intro hnone
    rw [hless _ hnone] at hstored
    cases hstored

theorem recorded_step {s t : Sessions.State} {a : Sessions.Action} (hB : Sessions.Base s)
    (hstep : Sessions.step s a = some t) :
    Recorded s.service t.service := by
  cases Sessions.Section.of_step hstep with
  | tick => exact .of_eq rfl
  | skip => exact .of_eq rfl
  | startSession hf hfresh => exact .of_eq (by simp)
  | updateSession hf haccepts => exact .of_eq (by simp)
  | @finishUpdate sender f saved hf =>
    obtain ⟨hstored, hterminal⟩ := hB.finishing sender f hf
    refine .createHistorical DiscoveryService.discoveries_finishUpdate rfl hterminal
      (by rw [hstored, Option.isSome_some]) ?_
    show (s.service.finishUpdate f s.now saved).getSession f.session.sessionId = none
    rw [DiscoveryService.getSession_finishUpdate, if_pos rfl]
  | cancelSession hf hok hcall => exact .of_eq rfl
  | cleanupOldSessions hf =>
    exact .of_eq (DiscoveryService.cleanupOldSessions_induction
      (P := fun v => v.discoveries = s.service.discoveries) hB.keyed rfl
      fun v id session _ _ _ hv => DiscoveryService.removeOld_frame.2.trans hv)
  | cleanupStalledSessions hf hperm => exact .of_eq rfl
  | getPendingWork hf hidle => exact .of_eq rfl
  | pullCancellation => exact .of_eq rfl
  | resume hcall hresumes =>
    cases hresumes with
    | startRead => exact .of_eq rfl
    | startQueue => exact .of_eq (by simp)
    | cancelPending hf => exact .of_eq (by simp)
    | cancelActive => exact .of_eq rfl
    | request => exact .of_eq rfl
    | removeStalled hf => exact recorded_removeStalled hB.keyed
    | workPick hf hwork => exact .of_eq rfl
    | workNone => exact .of_eq rfl
    | handOut hf => exact .of_eq (by simp)

/-! ## Steps -/

/-- The row goes to the end of the table, or the table stays. -/
theorem insertRow_eq_ok {server t : DiscoveryServer} {u : Unit} (h : DiscoveryStore.insertRow row server = .ok u t) :
    t.jobs = server.jobs ∧ t.discoveries.rows = server.discoveries.rows ++ [row] := by
  refine (Program.wp_of_ok (E := fun _ _ => True) (Q := fun _ t =>
    t.jobs = server.jobs ∧ t.discoveries.rows = server.discoveries.rows ++ [row]) h).mp ?_
  exact DiscoveryServer.wp_insertRow (fun discoveries _ hinsert => ⟨rfl, (Table.insert_eq_some hinsert).1⟩) fun _ _ =>
    trivial

/-- What is recorded has ids of its own. -/
theorem store_eq_some {s t : State} {rows : List Discovery} (h : s.store rows = some t) :
    t.sessions = s.sessions ∧ t.writes = s.writes ∧ t.server.jobs = s.server.jobs ∧
      t.rows = s.rows ++ rows.reverse ∧ ∀ row ∈ rows, ∀ d ∈ s.copies, d.id ≠ row.id := by
  induction rows generalizing t with
  | nil =>
    cases h
    exact ⟨rfl, rfl, rfl, by simp, by simp⟩
  | cons row rows ih =>
    rw [State.store] at h
    split at h
    · cases h
    next u hu =>
    obtain ⟨hsessions, hwrites, hjobs, hrows, hfresh⟩ := ih hu
    have hcopies : u.copies = s.copies := by rw [State.copies, hwrites, hjobs, State.copies]
    split at h
    · cases h
    next hnew =>
    split at h
    · next server hinsert =>
      cases h
      obtain ⟨hjobs', hrows'⟩ := insertRow_eq_ok hinsert
      refine ⟨hsessions, hwrites, hjobs'.trans hjobs, ?_, fun x hx d hd => ?_⟩
      · rw [List.reverse_cons, ← List.append_assoc, ← hrows]
        exact hrows'
      · rcases List.mem_cons.mp hx with rfl | hx
        · rw [hcopies, List.contains_iff_mem] at hnew
          exact fun heq => hnew (List.mem_map.mpr ⟨d, hd, heq⟩)
        · exact hfresh x hx d hd
    · cases h

/-- What holds of the rows that are still to be written. -/
structure Inv (s : State) : Prop where
  base : Sessions.Base s.sessions
  /-- Requests do not write records. -/
  requested : ∀ row, Write.create row ∈ s.writes ∨ Write.update row ∈ s.writes → row.isHistorical = false
  scheduled : ∀ d, Write.ran d ∈ s.writes ∨ d ∈ s.server.jobs.map (·.discovery) → d.isHistorical = false
  /-- A copy of a record is as it is stored. -/
  current : ∀ d ∈ s.copies, ∀ row ∈ s.rows, row.isHistorical = true → row.id = d.id → row = d

variable {s t : State}

theorem base_emptied (h : Inv s) : Sessions.Base s.emptied := h.base.of_getSession rfl rfl

theorem start_eq_some {discovery : Discovery} {sessionId : Uuid} {write : Write}
    (h : s.start discovery sessionId write = some t) :
    ∃ sessions, Sessions.step s.emptied (.startSession discovery sessionId
        (s.server.tables.buildCredentialsForDiscovery discovery.base.networkId)) = some sessions ∧
      t = { s with sessions, writes := s.writes ++ [write] } := by
  unfold State.start at h
  dsimp only at h
  split at h
  · next sessions hstep =>
    cases h
    exact ⟨sessions, hstep, rfl⟩
  · cases h

/-- A step that leaves the table. -/
theorem Immutable.of_rows {a : Action} (h : t.rows = s.rows) : Immutable s a t where
  made _ hrow _ := .inl (h ▸ hrow)
  kept _ hrow _ := .inl (h ▸ hrow)

/-- Sessions that are stored are not over. -/
theorem ended_self (sessions : Sessions.State) (row : Discovery) : ended sessions sessions row = false := by
  unfold ended
  cases row.results with
  | none => rfl
  | some session => cases hget : sessions.service.getSession session.sessionId <;> simp [hget]

/-- A statement is right exactly when it leaves a record as it is and makes none. -/
theorem immutable_wrote_iff {a : Action} (h : Wrote s.server row t.server) (hsessions : t.sessions = s.sessions)
    (hdeletes : ∀ id, a.deletes id = false) :
    Immutable s a t ↔ ∀ stored ∈ s.server.discoveries.get row.id, s.server.references row = true →
      stored.isHistorical = true ∨ row.isHistorical = true → stored = row := by
  have hrows := congrArg Table.rows h.discoveries
  cases href : s.server.references row with
  | false =>
    rw [href, if_neg Bool.false_ne_true] at hrows
    refine ⟨fun _ _ _ hno => ?_, fun _ => Immutable.of_rows hrows⟩
    cases hno
  | true =>
    rw [href, if_pos rfl] at hrows
    have hmem (x : Discovery) : x ∈ t.rows ↔
        (x = row ∧ ∃ y ∈ s.rows, y.id = row.id) ∨ (x ∈ s.rows ∧ x.id ≠ row.id) := by
      rw [State.rows, hrows, Table.mem_update]
      exact Iff.rfl
    constructor
    · intro himmutable stored hstored _ hrecord
      obtain ⟨hstored, hid⟩ := Table.get_eq_some.mp hstored
      have hrow : row ∈ t.rows := (hmem row).mpr (.inl ⟨rfl, stored, hstored, hid⟩)
      rcases hrecord with hrecord | hrecord
      · rcases himmutable.kept stored hstored hrecord with hkept | ⟨hdeleted, -⟩
        · exact Table.eq_of_key t.server.discoveries hkept hrow hid
        · rw [hdeletes] at hdeleted
          cases hdeleted
      · rcases himmutable.made row hrow hrecord with hold | hended
        · exact Table.eq_of_key s.server.discoveries hstored hold hid
        · rw [hsessions, ended_self] at hended
          cases hended
    · intro hsame
      refine ⟨fun x hx hrecord => .inl ?_, fun x hx hrecord => .inl ?_⟩
      · rcases (hmem x).mp hx with ⟨rfl, stored, hstored, hid⟩ | ⟨hx, -⟩
        · have heq := hsame stored (Table.get_eq_some.mpr ⟨hstored, hid⟩) rfl (.inr hrecord)
          exact heq ▸ hstored
        · exact hx
      · rw [hmem]
        by_cases hid : x.id = row.id
        · have heq := hsame x (Table.get_eq_some.mpr ⟨hx, hid⟩) rfl (.inl hrecord)
          exact .inl ⟨heq, x, hx, hid⟩
        · exact .inr ⟨hx, hid⟩

/-- The invariant is kept where records are old or have ids of their own, and copies are old or current. -/
theorem Inv.of_made (h : Inv s) (hbase : Sessions.Base t.sessions)
    (hmade : ∀ row ∈ t.rows, row.isHistorical = true → row ∈ s.rows ∨ ∀ d ∈ s.copies, d.id ≠ row.id)
    (hrequested : ∀ row, Write.create row ∈ t.writes ∨ Write.update row ∈ t.writes →
      (Write.create row ∈ s.writes ∨ Write.update row ∈ s.writes) ∨ row.isHistorical = false)
    (hscheduled : ∀ d, Write.ran d ∈ t.writes ∨ d ∈ t.server.jobs.map (·.discovery) →
      (Write.ran d ∈ s.writes ∨ d ∈ s.server.jobs.map (·.discovery)) ∨ d.isHistorical = false)
    (hcopies : ∀ d ∈ t.copies, d ∈ s.copies ∨ ∀ row ∈ t.rows, row.isHistorical = true → row.id = d.id → row = d) :
    Inv t where
  base := hbase
  requested row hrow := (hrequested row hrow).elim (h.requested row) id
  scheduled d hd := (hscheduled d hd).elim (h.scheduled d) id
  current d hd row hrow hrecord hid := by
    rcases hcopies d hd with hd | hcurrent
    · rcases hmade row hrow hrecord with hrow | hfresh
      · exact h.current d hd row hrow hrecord hid
      · exact absurd hid.symm (hfresh d hd)
    · exact hcurrent row hrow hrecord hid

/-- A statement may change the table, and schedule what it writes back. -/
theorem Inv.wrote {i : Nat} {write : Write} {server : DiscoveryServer} (h : Inv s)
    (hwrite : s.writes[i]? = some write)
    (hjobs : ∀ job ∈ server.jobs, job ∈ s.server.jobs ∨
      write.copy = some job.discovery ∧ job.discovery.isHistorical = false)
    (himmutable : Immutable s (.write i) { s with server, writes := s.writes.eraseIdx i }) :
    Inv { s with server, writes := s.writes.eraseIdx i } := by
  have hwrites {x : Write} (hx : x ∈ s.writes.eraseIdx i) : x ∈ s.writes := List.mem_of_mem_eraseIdx hx
  refine h.of_made h.base (fun x hx hrecord => .inl ?_) (fun x hx => .inl (hx.imp hwrites hwrites)) (fun d hd => ?_)
    fun d hd => .inl ?_
  · rcases himmutable.made x hx hrecord with hold | hended
    · exact hold
    · rw [ended_self] at hended
      cases hended
  · rcases hd with hd | hd
    · exact .inl (.inl (hwrites hd))
    · obtain ⟨job, hjob, rfl⟩ := List.mem_map.mp hd
      rcases hjobs job hjob with hjob | ⟨-, hplain⟩
      · exact .inl (.inr (List.mem_map_of_mem hjob))
      · exact .inr hplain
  · rcases List.mem_append.mp hd with hd | hd
    · obtain ⟨y, hy, hcopy⟩ := List.mem_filterMap.mp hd
      exact List.mem_append_left _ (List.mem_filterMap.mpr ⟨y, hwrites hy, hcopy⟩)
    · obtain ⟨job, hjob, rfl⟩ := List.mem_map.mp hd
      rcases hjobs job hjob with hjob | ⟨hcopy, -⟩
      · exact List.mem_append_right _ (List.mem_map_of_mem hjob)
      · exact List.mem_append_left _ (List.mem_filterMap.mpr ⟨write, List.mem_of_getElem? hwrite, hcopy⟩)

/-- Whether a step is right, and what holds of what is still to be written after a right one. -/
structure Right [CronRules] (s : State) (a : Action) (t : State) : Prop where
  immutable : Immutable s a t ↔ Spares s a
  inv : Immutable s a t → Inv t

variable [CronRules]

/-- A statement that writes back or updates is right exactly when no record is overwritten, and none made. -/
theorem right_wrote {i : Nat} {write : Write} (h : Inv s) (hwrite : s.writes[i]? = some write)
    (hwrote : Wrote s.server row (after write.statement s.server))
    (hjobs : write.copy = some row ∨ (after write.statement s.server).jobs = s.server.jobs)
    (hspares : (∀ stored ∈ s.server.discoveries.get row.id, s.server.references row = true →
      stored.isHistorical = true ∨ row.isHistorical = true → stored = row) ↔ Spares s (.write i)) :
    Right s (.write i) { s with server := after write.statement s.server, writes := s.writes.eraseIdx i } := by
  constructor
  · refine Iff.trans ?_ hspares
    exact immutable_wrote_iff hwrote rfl fun _ => rfl
  · refine h.wrote hwrite fun job hjob => ?_
    rcases hjobs with hcopy | hsame
    · rcases hwrote.jobs job hjob with hjob | ⟨heq, hplain⟩
      · exact .inl hjob
      · rw [heq]
        exact .inr ⟨hcopy, hplain⟩
    · exact .inl (hsame ▸ hjob)

omit [CronRules] in
theorem jobs_updateRow (server : DiscoveryServer) (row : Discovery) :
    (after (DiscoveryStore.updateRow row) server).jobs = server.jobs := by
  refine (Program.wp_after (P := fun t : DiscoveryServer => t.jobs = server.jobs)).mp ?_
  exact DiscoveryServer.wp_updateRow (fun _ => rfl) fun _ _ => rfl

/-- A row that is no record is added, or nothing is. -/
theorem right_create {i : Nat} (h : Inv s) (hwrite : s.writes[i]? = some (.create row)) :
    Right s (.write i)
      { s with server := after (DiscoveryStore.insertRow row) s.server, writes := s.writes.eraseIdx i } := by
  have hplain := h.requested row (.inl (List.mem_of_getElem? hwrite))
  have hinsert : (after (DiscoveryStore.insertRow row) s.server).jobs = s.server.jobs ∧
      ((after (DiscoveryStore.insertRow row) s.server).discoveries.rows = s.rows ∨
        (after (DiscoveryStore.insertRow row) s.server).discoveries.rows = s.rows ++ [row]) := by
    refine (Program.wp_after (P := fun t : DiscoveryServer =>
      t.jobs = s.server.jobs ∧ (t.discoveries.rows = s.rows ∨ t.discoveries.rows = s.rows ++ [row]))).mp ?_
    exact DiscoveryServer.wp_insertRow (fun discoveries _ hinsert => ⟨rfl, .inr (Table.insert_eq_some hinsert).1⟩)
      fun _ _ => ⟨rfl, .inl rfl⟩
  obtain ⟨hjobs, hrows⟩ := hinsert
  have hspares : Spares s (.write i) := by
    rw [Spares, hwrite]
    trivial
  have himmutable : Immutable s (.write i)
      { s with server := after (DiscoveryStore.insertRow row) s.server, writes := s.writes.eraseIdx i } := by
    rcases hrows with hrows | hrows
    · exact .of_rows hrows
    · refine ⟨fun x hx hrecord => .inl ?_, fun x hx _ => .inl ?_⟩
      · rw [State.rows, hrows] at hx
        rcases List.mem_append.mp hx with hx | hx
        · exact hx
        · rw [List.mem_singleton.mp hx, hplain] at hrecord
          cases hrecord
      · rw [State.rows, hrows]
        exact List.mem_append_left _ hx
  exact ⟨iff_of_true himmutable hspares, h.wrote hwrite fun job hjob => .inl (hjobs ▸ hjob)⟩

theorem right_write {i : Nat} {write : Write} (h : Inv s) (hwrite : s.writes[i]? = some write) :
    Right s (.write i) { s with server := after write.statement s.server, writes := s.writes.eraseIdx i } := by
  have hmem : write ∈ s.writes := List.mem_of_getElem? hwrite
  have hspares : Spares s (.write i) = match some write with
      | some (.update row) => ∀ stored ∈ s.server.discoveries.get row.id,
        s.server.references row = true → stored.isHistorical = false
      | some (.started discovery) => discovery.isHistorical = true →
        ∀ stored ∈ s.server.discoveries.get discovery.id,
          s.server.references discovery = true → stored.isHistorical = true
      | _ => True := by rw [Spares, hwrite]
  -- a record that a copy is written back to is the copy
  have hcurrent {d stored : Discovery} (hcopy : write.copy = some d)
    (hstored : stored ∈ s.server.discoveries.get d.id)
      (hrecord : stored.isHistorical = true) : stored = d := by
    obtain ⟨hstored, hid⟩ := Table.get_eq_some.mp hstored
    exact h.current d (List.mem_append_left _
      (List.mem_filterMap.mpr ⟨write, hmem, hcopy⟩)) stored hstored hrecord hid
  cases write with
  | create row => exact right_create h hwrite
  | update row =>
    have hplain := h.requested row (.inr hmem)
    refine right_wrote h hwrite (Program.wp_after.mp (wrote_updateRow s.server row))
      (.inr (jobs_updateRow s.server row)) ?_
    rw [hspares]
    refine forall₃_congr fun stored _ _ => ?_
    rw [hplain]
    constructor
    · intro hsame
      by_contra hrecord
      have heq := hsame (.inl (by simpa using hrecord))
      rw [heq] at hrecord
      exact hrecord hplain
    · intro hstored hrecord
      rw [hstored] at hrecord
      rcases hrecord with hno | hno <;> cases hno
  | started d =>
    refine right_wrote h hwrite (wrote_updateDiscovery s.server d) (.inl rfl) ?_
    rw [hspares]
    constructor
    · intro hsame hrecord stored hstored href
      rw [hsame stored hstored href (.inr hrecord)]
      exact hrecord
    · intro hspared stored hstored href hrecord
      refine hcurrent rfl hstored ?_
      rcases hrecord with hrecord | hrecord
      · exact hrecord
      · exact hspared hrecord stored hstored href
  | ran d =>
    have hplain := h.scheduled d (.inl hmem)
    refine right_wrote h hwrite (Program.wp_after.mp (wrote_updateRow s.server d)) (.inl rfl) ?_
    rw [hspares]
    refine iff_of_true (fun stored hstored _ hrecord => ?_) trivial
    rcases hrecord with hrecord | hrecord
    · exact hcurrent rfl hstored hrecord
    · rw [hplain] at hrecord
      cases hrecord

/-- A step that leaves the table, the statements and the jobs. -/
theorem Inv.right_skip {a : Action} (h : Inv s) (hbase : Sessions.Base t.sessions) (hrows : t.rows = s.rows)
    (hwrites : t.writes = s.writes) (hjobs : t.server.jobs = s.server.jobs) (hspares : Spares s a) : Right s a t where
  immutable := iff_of_true (.of_rows hrows) hspares
  inv _ := by
    have hcopies : t.copies = s.copies := by rw [State.copies, hwrites, hjobs, State.copies]
    refine h.of_made hbase (fun x hx _ => .inl (hrows ▸ hx)) (fun x hx => .inl (hwrites ▸ hx)) (fun d hd => .inl ?_)
      fun d hd => .inl (hcopies ▸ hd)
    rw [hwrites, hjobs] at hd
    exact hd

/-- A statement is left to be made; a copy in it is of a stored discovery, or was there before. -/
theorem Inv.right_later {a : Action} {write : Write} (h : Inv s) (hbase : Sessions.Base t.sessions)
    (hrows : t.rows = s.rows) (hwrites : t.writes = s.writes ++ [write]) (hjobs : t.server.jobs = s.server.jobs)
    (hspares : Spares s a)
    (hrequested : ∀ row, write = .create row ∨ write = .update row → row.isHistorical = false)
    (hran : ∀ d, write = .ran d → d.isHistorical = false)
    (hcopy : ∀ d, write.copy = some d → d ∈ s.copies ∨
      ∀ row ∈ s.rows, row.isHistorical = true → row.id = d.id → row = d) : Right s a t where
  immutable := iff_of_true (.of_rows hrows) hspares
  inv _ := by
    have hmem {x : Write} (hx : x ∈ t.writes) : x ∈ s.writes ∨ x = write := by
      rw [hwrites] at hx
      exact (List.mem_append.mp hx).imp id List.mem_singleton.mp
    refine h.of_made hbase (fun x hx _ => .inl (hrows ▸ hx)) (fun x hx => ?_) (fun d hd => ?_) fun d hd => ?_
    · rcases hx with hx | hx
      · exact (hmem hx).imp .inl fun heq => hrequested x (.inl heq.symm)
      · exact (hmem hx).imp .inr fun heq => hrequested x (.inr heq.symm)
    · rcases hd with hd | hd
      · exact (hmem hd).imp .inl fun heq => hran d heq.symm
      · rw [hjobs] at hd
        exact .inl (.inr hd)
    · rw [State.copies, hwrites, hjobs, List.filterMap_append, List.append_assoc] at hd
      rcases List.mem_append.mp hd with hd | hd
      · exact .inl (List.mem_append_left _ hd)
      · rcases List.mem_append.mp hd with hd | hd
        · obtain ⟨x, hx, hcopied⟩ := List.mem_filterMap.mp hd
          rw [List.mem_singleton.mp hx] at hcopied
          rw [hrows]
          exact hcopy d hcopied
        · exact .inl (List.mem_append_right _ hd)

/-- Discoveries are deleted. -/
theorem Inv.right_filter {a : Action} {p : Discovery → Bool} (h : Inv s)
    (hdeletes : ∀ d, p d = false → a.deletes d.id = true) (hkeeps : ∀ d, p d = true → a.deletes d.id = false)
    (hspares : Spares s a) :
    Right s a { s with server := { s.server with discoveries := s.server.discoveries.filter p } } where
  immutable := by
    refine iff_of_true ⟨fun x hx _ => .inl (Table.mem_filter.mp hx).1, fun x hx _ => ?_⟩ hspares
    cases hp : p x with
    | true => exact .inl (Table.mem_filter.mpr ⟨hx, hp⟩)
    | false =>
      refine .inr ⟨hdeletes x hp, fun y hy hid => ?_⟩
      have hkept := hkeeps y (Table.mem_filter.mp hy).2
      rw [hid, hdeletes x hp] at hkept
      cases hkept
  inv _ := h.of_made h.base (fun x hx _ => .inl (Table.mem_filter.mp hx).1) (fun _ hx => .inl hx)
    (fun _ hd => .inl hd)
    fun _ hd => .inl hd

/-- What the sessions record has ids that no copy has. -/
theorem right_sessions {a : Sessions.Action} {sessions : Sessions.State} (h : Inv s)
    (hstep : Sessions.step s.emptied a = some sessions)
    (hstore : State.store { s with sessions } sessions.service.discoveries = some t) : Right s (.sessions a) t := by
  obtain ⟨hsessions, hwrites, hjobs, hrows, hfresh⟩ := store_eq_some hstore
  have hcopies : t.copies = s.copies := by rw [State.copies, hwrites, hjobs, State.copies]
  have hmem (x : Discovery) : x ∈ t.rows ↔ x ∈ s.rows ∨ x ∈ sessions.service.discoveries := by
    rw [hrows, List.mem_append, List.mem_reverse]
    exact Iff.rfl
  constructor
  · refine iff_of_true ⟨fun x hx hrecord => ((hmem x).mp hx).imp id fun hnew => ?_,
      fun x hx _ => .inl ((hmem x).mpr (.inl hx))⟩ trivial
    rcases recorded_step (base_emptied h) hstep x hnew with hold | ⟨session, hresults, hterminal, hstored, hgone⟩
    · cases hold
    · have hstored : (s.sessions.service.getSession session.sessionId).isSome = true := hstored
      rw [hsessions]
      simp [ended, hresults, hterminal, hstored, hgone]
  · intro _
    have hbase : Sessions.Base t.sessions := by
      rw [hsessions]
      exact (base_emptied h).step hstep
    refine h.of_made hbase (fun x hx _ => ((hmem x).mp hx).imp id fun hnew => hfresh x hnew)
      (fun x hx => .inl (hwrites ▸ hx))
      (fun d hd => .inl ?_) fun d hd => .inl (hcopies ▸ hd)
    rw [hwrites, hjobs] at hd
    exact hd

omit [CronRules] in
/-- A record is not changed by a run. -/
theorem ran_of_isHistorical {d : Discovery} (now : DateTime) (h : d.isHistorical = true) : d.ran now = d := by
  unfold Discovery.isHistorical Discovery.results at h
  cases d with
  | mk id createdAt updatedAt base =>
    cases base with
    | mk discoveryType runType name daemonId networkId tags =>
      cases runType with
      | historical results => rfl
      | scheduled cronSchedule lastRun enabled => cases h
      | adHoc lastRun => cases h

omit [CronRules] in
theorem isHistorical_of_checkRunType {entity : AuthenticatedEntity} {body : Discovery} {server : DiscoveryServer}
    (h : server.checkRunType entity body = .ok ()) : body.isHistorical = false := by
  unfold DiscoveryServer.checkRunType at h
  unfold Discovery.isHistorical Discovery.results
  split at h
  · cases h
  · next hrun => rw [hrun]; rfl
  · next hrun => rw [hrun]; rfl

omit [CronRules] in
theorem isHistorical_congr {d d' : Discovery} (h : d.base = d'.base) : d.isHistorical = d'.isHistorical := by
  unfold Discovery.isHistorical Discovery.results
  rw [h]

omit [CronRules] in
theorem isHistorical_newRow {entity : AuthenticatedEntity} {body : Discovery} {drawn : Uuid}
    {server : DiscoveryServer}
    (h : server.checkCreate entity body = .ok ()) : (server.newRow body drawn).isHistorical = false := by
  have hbase : (server.newRow body drawn).base = body.base := by
    unfold DiscoveryServer.newRow
    split <;> rfl
  rw [isHistorical_congr hbase]
  simp only [DiscoveryServer.checkCreate, bind, Except.bind] at h
  split at h
  · cases h
  split at h
  · cases h
  next hrun => exact isHistorical_of_checkRunType hrun

omit [CronRules] in
theorem isHistorical_updated {entity : AuthenticatedEntity} {id : Uuid} {body : Discovery} {server : DiscoveryServer}
    (h : server.checkUpdate entity id body = .ok row) : row.isHistorical = false := by
  obtain ⟨-, -, -, hbase, -, -⟩ := DiscoveryServer.checkUpdate_eq_ok h
  rw [isHistorical_congr hbase]
  simp only [DiscoveryServer.checkUpdate, bind, Except.bind] at h
  split at h
  · cases h
  split at h
  · cases h
  next hrun => exact isHistorical_of_checkRunType hrun

theorem step_sessions {a : Sessions.Action} (h : step s (.sessions a) = some t) :
    ∃ sessions, Sessions.step s.emptied a = some sessions ∧
      State.store { s with sessions } sessions.service.discoveries = some t := by
  cases a with
  | tick | startSession => cases h
  | updateSession | finishUpdate | cancelSession | cleanupOldSessions | cleanupStalledSessions | getPendingWork
  | pullCancellation | resume =>
    simp only [step] at h
    split at h
    · cases h
    next sessions hsessions => exact ⟨sessions, hsessions, h⟩

theorem right_step {a : Action} (h : Inv s) (hstep : step s a = some t) : Right s a t := by
  cases a with
  | tick elapsed =>
    cases hstep
    exact h.right_skip (h.base.of_getSession rfl rfl) rfl rfl rfl trivial
  | create entity body drawn =>
    simp only [step] at hstep
    split at hstep
    · cases hstep
      exact h.right_skip h.base rfl rfl rfl trivial
    next hchecked =>
    cases hstep
    refine h.right_later h.base rfl rfl rfl trivial (fun row hrow => ?_)
      (fun d hd => (by cases hd)) fun d hd => (by cases hd)
    rcases hrow with hrow | hrow
    · cases hrow
      exact isHistorical_newRow hchecked
    · cases hrow
  | update entity id body =>
    simp only [step] at hstep
    split at hstep
    · cases hstep
      exact h.right_skip h.base rfl rfl rfl trivial
    next row hchecked =>
    cases hstep
    refine h.right_later h.base rfl rfl rfl trivial (fun x hx => ?_)
      (fun d hd => (by cases hd)) fun d hd => (by cases hd)
    rcases hx with hx | hx
    · cases hx
    · cases hx
      exact isHistorical_updated hchecked
  | delete entity id =>
    cases hstep
    refine (Program.wp_after (P := fun server => Right s (.delete entity id) { s with server })).mp ?_
    simp only [DiscoveryHandlers.deleteDiscovery, Program.wp_bind, Program.wp_get, wp_runStatement, Program.wp_modify]
    refine ⟨fun _ _ => h.right_filter (fun d hd => ?_) (fun d hd => ?_) trivial,
      fun e _ => h.right_skip h.base rfl rfl rfl trivial⟩
    · have hid : d.id = id := by simpa using hd
      simp [Action.deletes, hid]
    · have hid : ¬ d.id = id := by simpa using hd
      simpa [Action.deletes] using Ne.symm hid
  | bulkDelete entity ids =>
    cases hstep
    refine (Program.wp_after (P := fun server => Right s (.bulkDelete entity ids) { s with server })).mp ?_
    simp only [DiscoveryHandlers.bulkDelete, Program.wp_bind, Program.wp_get, wp_runStatement, Program.wp_modify]
    refine ⟨fun _ _ => h.right_filter (fun d hd => ?_) (fun d hd => ?_) trivial,
      fun e _ => h.right_skip h.base rfl rfl rfl trivial⟩
    · simpa [Action.deletes] using hd
    · simpa [Action.deletes] using hd
  | start entity id sessionId =>
    simp only [step] at hstep
    split at hstep
    · cases hstep
      exact h.right_skip h.base rfl rfl rfl trivial
    next discovery hchecked =>
    obtain ⟨sessions, hsessions, rfl⟩ := start_eq_some hstep
    obtain ⟨stored, hget, rfl, -⟩ := DiscoveryServer.startSession_eq_ok hchecked
    refine h.right_later ((base_emptied h).step hsessions) rfl rfl rfl trivial
      (fun row hrow => (by rcases hrow with hrow | hrow <;> cases hrow)) (fun d hd => (by cases hd))
      fun d hd => .inr fun row hrow hrecord hid => ?_
    cases hd
    obtain ⟨hstored, -⟩ := Table.get_eq_some.mp hget
    have heq : row = stored := Table.eq_of_key s.server.discoveries hrow hstored hid
    rw [heq] at hrecord ⊢
    exact (ran_of_isHistorical _ hrecord).symm
  | runJob i sessionId =>
    simp only [step] at hstep
    split at hstep
    · cases hstep
    next job hjob =>
    have hmem : job.discovery ∈ s.server.jobs.map (·.discovery) := List.mem_map_of_mem (List.mem_of_getElem? hjob)
    obtain ⟨sessions, hsessions, rfl⟩ := start_eq_some hstep
    refine h.right_later ((base_emptied h).step hsessions) rfl rfl rfl trivial
      (fun row hrow => (by rcases hrow with hrow | hrow <;> cases hrow)) (fun d hd => ?_) fun d hd => .inl ?_
    · cases hd
      exact h.scheduled _ (.inr hmem)
    · cases hd
      exact List.mem_append_right _ hmem
  | write i =>
    simp only [step] at hstep
    split at hstep
    · cases hstep
    next write hwrite =>
    cases hstep
    exact right_write h hwrite
  | sessions a =>
    obtain ⟨sessions, hsessions, hstore⟩ := step_sessions hstep
    exact right_sessions h hsessions hstore

theorem inv_start (tables : Tables) (discoveries : Table Discovery Discovery.id) (now : DateTime) :
    Inv (start tables discoveries now) := by
  have hboot := DiscoveryServer.booted tables discoveries now
  have hjobs (d : Discovery) (hd : d ∈ (start tables discoveries now).server.jobs.map (·.discovery)) :
      d ∈ discoveries.rows ∧ d.isEnabled = true := by
    rw [show (start tables discoveries now).server.jobs.map (·.discovery) = _ from hboot.jobs] at hd
    simp only [List.map_nil, List.nil_append] at hd
    exact List.mem_filter.mp (List.mem_filter.mp hd).1
  have hrows : (start tables discoveries now).rows = discoveries.rows := congrArg Table.rows hboot.discoveries
  refine ⟨Sessions.Base.init.of_getSession rfl rfl, fun row hrow => ?_, fun d hd => ?_, fun d hd row hrow _ hid => ?_⟩
  · rcases hrow with hrow | hrow <;> cases hrow
  · rcases hd with hd | hd
    · cases hd
    · have henabled := (hjobs d hd).2
      unfold Discovery.isEnabled at henabled
      unfold Discovery.isHistorical Discovery.results
      split at henabled
      · next hrun => rw [hrun]; rfl
      · cases henabled
  · rw [hrows] at hrow
    rcases List.mem_append.mp hd with hd | hd
    · cases hd
    · exact discoveries.eq_of_key hrow (hjobs d hd).1 hid

/-- **The history of sessions is immutable** in every run, exactly when no update is of a record, and no
record is written back in the place of a discovery that took its id. -/
theorem immutable_iff_spares (tables : Tables) (discoveries : Table Discovery Discovery.id) (now : DateTime)
    (as : List Action) :
    Every step Immutable (start tables discoveries now) as ↔ Along step Spares (start tables discoveries now) as :=
  Transition.every_iff_along (I := Inv)
    (fun _ _ _ hi hok hstep => (right_step hi hstep).inv ((right_step hi hstep).immutable.mpr hok))
    (fun _ _ _ hi hok hstep => (right_step hi hstep).immutable.mpr hok)
    (fun _ _ _ hi hstep himmutable => (right_step hi hstep).immutable.mp himmutable)
    (inv_start tables discoveries now)

section Runs

open DiscoveryServer (oneDaemon nightly)

/-- An ad hoc discovery in the place of a record. -/
def rewritten : Discovery := { nightly with base.runType := .adHoc none, base.name := "Nothing happened" }

omit [CronRules] in
/-- A member starts a discovery, and updates the record of its session once it is over. -/
theorem record_rewritten : ¬ Every (@step ⟨fun _ => none⟩) Immutable
    (@start ⟨fun _ => none⟩ oneDaemon ⟨[nightly], by decide⟩ 0)
    [.start (.user 2 1 .member [3] true) 9 20,
      .sessions (.updateSession ⟨.daemonPoll, 7,
        3⟩ { sessionId := 20, daemonId := 7, networkId := 3, phase := .complete }),
      .sessions (.finishUpdate (some 30)),
      .update (.user 2 1 .member [3] true) 30 rewritten,
      .write 1] := by
  decide +kernel

end Runs

end HistoricalRows

end Netvisor
