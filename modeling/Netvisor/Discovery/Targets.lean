/-
Which daemons the sessions of discoveries are queued for: that a session runs
on a daemon of its own network, names only subnets of it and carries its SNMP
credentials.

A stored discovery names a daemon and a network of its own, and an update
changes both; nothing compares the two.
-/
import Netvisor.Discovery.JobRuns

namespace Netvisor

open Program (wp after)
open Transition (Every Along)

def DiscoveryType.subnetIds : DiscoveryType → List Uuid
  | network subnetIds .. => subnetIds.getD []
  | selfReport _ | docker .. => []

namespace Tables

variable (tables : Tables)

/-- The daemon is one of the network, and so are the subnets. -/
structure Reaches (daemonId networkId : Uuid) (subnetIds : List Uuid) : Prop where
  daemon : ∃ daemon ∈ tables.daemons.rows, daemon.id = daemonId ∧ daemon.networkId = networkId
  subnets : ∀ id ∈ subnetIds, ∃ subnet ∈ tables.db.subnets.rows, subnet.id = id ∧ subnet.base.networkId = networkId

instance (daemonId networkId : Uuid) (subnetIds : List Uuid) :
    Decidable (tables.Reaches daemonId networkId subnetIds) :=
  decidable_of_iff
    ((∃ daemon ∈ tables.daemons.rows, daemon.id = daemonId ∧ daemon.networkId = networkId) ∧
      ∀ id ∈ subnetIds, ∃ subnet ∈ tables.db.subnets.rows, subnet.id = id ∧ subnet.base.networkId = networkId)
    ⟨fun ⟨h, h'⟩ => ⟨h, h'⟩, fun ⟨h, h'⟩ => ⟨h, h'⟩⟩

/-- The discovery stays within its network. -/
def Confines (base : DiscoveryBase) : Prop :=
  tables.Reaches base.daemonId base.networkId base.discoveryType.subnetIds

instance (base : DiscoveryBase) : Decidable (tables.Confines base) := inferInstanceAs (Decidable (Reaches ..))

/-- The session stays within its network, and carries the credentials of no other. -/
structure Targets (session : DiscoveryUpdatePayload) : Prop where
  reaches : tables.Reaches session.daemonId session.networkId session.discoveryType.subnetIds
  credentials : ∀ credentials, session.discoveryType.snmpCredentials = some credentials →
    credentials = tables.buildCredentialsForDiscovery session.networkId

end Tables

namespace DiscoveryServer

variable [CronRules]

omit [CronRules] in
/-- Networks, daemons and subnets stay what they are. -/
def Action.keepsTables : Action → Bool
  | .enforcePlan .. => false
  | _ => true

/-- The requests and jobs that have to do with discoveries alone. -/
def discoveryStep (s : DiscoveryServer) (a : Action) : Option DiscoveryServer :=
  if a.keepsTables then step s a else none

omit [CronRules] in
/-- A session that joins a queue stays within its network, which is one the request may access. -/
def Aims (s : DiscoveryServer) (a : Action) (t : DiscoveryServer) : Prop :=
  ∀ session ∈ t.queued, session ∈ s.queued ∨ s.tables.Targets session ∧
    ∀ entity id sessionId, a = .start entity id sessionId → session.networkId ∈ entity.networkIds

omit [CronRules] in
/-- A discovery that is stored stays within its network. -/
def Confined (s : DiscoveryServer) : Action → Prop
  | .create entity body drawn =>
    s.checkCreate entity body = .ok () → s.Insertable (s.newRow body drawn) → s.tables.Confines body.base
  | .update entity id body => ∀ row, s.checkUpdate entity id body = .ok row → s.references row = true →
    s.tables.Confines body.base
  | .register base drawn _ =>
    s.Insertable (s.newRow { id := drawn, createdAt := s.now, updatedAt := s.now, base } drawn) →
      s.tables.Confines base
  | _ => True

/-- Whatever may be started stays within its network. -/
structure Sound (tables : Tables) (s : DiscoveryServer) : Prop where
  same : s.tables = tables
  stored : ∀ discovery ∈ s.discoveries.rows, tables.Confines discovery.base
  captured : ∀ job ∈ s.jobs, tables.Confines job.discovery.base

variable {tables : Tables} {s t : DiscoveryServer}

omit [CronRules] in
/-- A session has the daemon, the network and the subnets of its discovery, and the credentials of the network. -/
theorem targets_of_confines {discovery : Discovery} (h : tables.Confines discovery.base) (sessionId : Uuid) :
    tables.Targets (DiscoveryService.sessionPayload discovery sessionId
      (tables.buildCredentialsForDiscovery discovery.base.networkId)) := by
  obtain ⟨hdaemon, hsubnets⟩ := h
  unfold DiscoveryService.sessionPayload DiscoveryUpdatePayload.new
  cases htype : discovery.base.discoveryType with
  | network subnetIds hostNamingFallback snmpCredentials probeRawSocketPorts =>
    rw [htype] at hsubnets
    exact ⟨⟨hdaemon, hsubnets⟩, fun _ heq => (Option.some.inj heq).symm⟩
  | selfReport hostId => exact ⟨⟨hdaemon, fun _ hid => (List.not_mem_nil hid).elim⟩, fun _ heq => by cases heq⟩
  | docker hostId hostNamingFallback =>
    exact ⟨⟨hdaemon, fun _ hid => (List.not_mem_nil hid).elim⟩, fun _ heq => by cases heq⟩

omit [CronRules] in
theorem Sound.inserted (h : Sound tables s) {row : Discovery} {discoveries : Table Discovery Discovery.id}
    (hinsert : s.discoveries.insert row = some discoveries) (hconfines : tables.Confines row.base) :
    Sound tables { s with discoveries } := by
  refine ⟨h.same, fun discovery hmem => ?_, h.captured⟩
  change discovery ∈ discoveries.rows at hmem
  rw [(Table.insert_eq_some hinsert).1, List.mem_append, List.mem_singleton] at hmem
  rcases hmem with hmem | rfl
  · exact h.stored discovery hmem
  · exact hconfines

omit [CronRules] in
theorem Sound.updated (h : Sound tables s) {row : Discovery} (hconfines : tables.Confines row.base) :
    Sound tables { s with discoveries := s.discoveries.update row } := by
  refine ⟨h.same, fun discovery hmem => ?_, h.captured⟩
  rcases Table.mem_update.mp hmem with ⟨rfl, -⟩ | ⟨hmem, -⟩
  · exact hconfines
  · exact h.stored discovery hmem

omit [CronRules] in
theorem Sound.filtered (h : Sound tables s) (p : Discovery → Bool) :
    Sound tables { s with discoveries := s.discoveries.filter p } :=
  ⟨h.same, fun discovery hmem => h.stored discovery (Table.mem_filter.mp hmem).1, h.captured⟩

omit [CronRules] in
theorem Sound.jobAdded (h : Sound tables s) {row : Discovery} (hconfines : tables.Confines row.base)
    (cronSchedule : String) : Sound tables (s.addJob cronSchedule row) := by
  refine ⟨h.same, h.stored, fun job hjob => ?_⟩
  rcases List.mem_append.mp hjob with hjob | hjob
  · exact h.captured job hjob
  · rw [List.mem_singleton.mp hjob]
    exact hconfines

/-! ## One step -/

omit [CronRules] in
/-- What a step leaves and queues. -/
def Kept (tables : Tables) (s : DiscoveryServer) (a : Action) (t : DiscoveryServer) : Prop :=
  Sound tables t ∧ Aims s a t

omit [CronRules] in
theorem Sound.idle {a : Action} (h : Sound tables t) (hqueued : t.queued = s.queued) : Kept tables s a t :=
  ⟨h, fun _ hsession => .inl (hqueued ▸ hsession)⟩

omit [CronRules] in
/-- A session that is started stays within its network, if its discovery does. -/
theorem Sound.started {a : Action} {discovery : Discovery} {sessionId : Uuid} (h : Sound tables t)
    (hs : s.tables = tables)
    (hqueued : t.queued = (s.startSession discovery sessionId).queued) (hconfines : tables.Confines discovery.base)
    (haccess : ∀ entity id sessionId, a = .start entity id sessionId → discovery.base.networkId ∈ entity.networkIds) :
    Kept tables s a t := by
  refine ⟨h, fun session hsession => ?_⟩
  rw [hqueued, startSession, List.mem_cons] at hsession
  rcases hsession with rfl | hsession
  · rw [hs]
    exact .inr ⟨targets_of_confines hconfines sessionId, haccess⟩
  · exact .inl hsession

omit [CronRules] in
theorem kept_create (h : Sound tables s) (entity : AuthenticatedEntity) (body : Discovery) (drawn : Uuid)
    (hok : s.Confined (.create entity body drawn)) :
    wp (DiscoveryHandlers.createDiscovery entity body drawn) (fun _ t => Kept tables s (.create entity body drawn) t)
      (fun _ t => Kept tables s (.create entity body drawn) t) s := by
  simp only [DiscoveryHandlers.createDiscovery, Program.wp_bind, Program.wp_get, wp_runStatement]
  refine ⟨fun _ hchecked => wp_insertRow (fun discoveries hfree hinsert => ?_) fun _ _ => h.idle rfl,
    fun _ _ => h.idle rfl⟩
  have hbase : (s.newRow body drawn).base = body.base := by
    unfold newRow
    split <;> rfl
  have hconfines : tables.Confines body.base := h.same ▸ hok hchecked hfree
  exact (h.inserted hinsert (hbase ▸ hconfines)).idle rfl

omit [CronRules] in
theorem kept_update (h : Sound tables s) (entity : AuthenticatedEntity) (id : Uuid) (body : Discovery)
    (hok : s.Confined (.update entity id body)) :
    wp (DiscoveryHandlers.updateDiscovery entity id body) (fun _ t => Kept tables s (.update entity id body) t)
      (fun _ t => Kept tables s (.update entity id body) t) s := by
  simp only [DiscoveryHandlers.updateDiscovery, Program.wp_bind, Program.wp_get, wp_runStatement]
  refine ⟨fun row hchecked => wp_updateRow (fun href => ?_) fun _ _ => h.idle rfl, fun _ _ => h.idle rfl⟩
  obtain ⟨existing, hget, hid, hbase, -, -⟩ := checkUpdate_eq_ok hchecked
  have hconfines : tables.Confines body.base := h.same ▸ hok row hchecked (href existing (hid ▸ hget))
  exact (h.updated (hbase ▸ hconfines)).idle rfl

omit [CronRules] in
theorem kept_delete (h : Sound tables s) (entity : AuthenticatedEntity) (id : Uuid) :
    wp (DiscoveryHandlers.deleteDiscovery entity id) (fun _ t => Kept tables s (.delete entity id) t)
      (fun _ t => Kept tables s (.delete entity id) t) s := by
  simp only [DiscoveryHandlers.deleteDiscovery, Program.wp_bind, Program.wp_get, wp_runStatement, Program.wp_modify]
  exact ⟨fun _ _ => (h.filtered _).idle rfl, fun _ _ => h.idle rfl⟩

omit [CronRules] in
theorem kept_bulkDelete (h : Sound tables s) (entity : AuthenticatedEntity) (ids : List Uuid) :
    wp (DiscoveryHandlers.bulkDelete entity ids) (fun _ t => Kept tables s (.bulkDelete entity ids) t)
      (fun _ t => Kept tables s (.bulkDelete entity ids) t) s := by
  simp only [DiscoveryHandlers.bulkDelete, Program.wp_bind, Program.wp_get, wp_runStatement, Program.wp_modify]
  exact ⟨fun _ _ => (h.filtered _).idle rfl, fun _ _ => h.idle rfl⟩

/-- The discovery that is started is a stored one. -/
theorem kept_start (h : Sound tables s) (entity : AuthenticatedEntity) (id sessionId : Uuid) :
    wp (DiscoveryHandlers.startDiscovery entity id sessionId)
      (fun _ t => Kept tables s (.start entity id sessionId) t)
      (fun _ t => Kept tables s (.start entity id sessionId) t) s := by
  refine wp_startDiscovery (fun _ => h.idle rfl) fun discovery hget haccess => ?_
  have hconfines : tables.Confines (discovery.ran s.now).base := h.stored discovery (Table.get_eq_some.mp hget).1
  have hmember (e : AuthenticatedEntity) (i sid : Uuid) (heq : Action.start entity id sessionId = .start e i sid) :
      (discovery.ran s.now).base.networkId ∈ e.networkIds := by
    cases heq
    exact haccess
  have hqueued : Sound tables (s.startSession (discovery.ran s.now) sessionId) := ⟨h.same, h.stored, h.captured⟩
  exact wp_updateRow (fun _ => (hqueued.updated hconfines).started h.same rfl hconfines hmember)
    fun _ _ => hqueued.started h.same rfl hconfines hmember

/-- The copy of a job is one that was stored. -/
theorem kept_runJob (h : Sound tables s) (i : Nat) (sessionId : Uuid) :
    wp (perform (.runJob i sessionId)) (fun _ t => Kept tables s (.runJob i sessionId) t)
      (fun _ t => Kept tables s (.runJob i sessionId) t) s := by
  simp only [perform, Program.wp_bind, Program.wp_get]
  split
  · exact h.idle rfl
  next job hjob =>
  simp only [Program.wp_bind, Program.wp_modify, Program.wp_get]
  have hconfines : tables.Confines job.discovery.base := h.captured job (List.mem_of_getElem? hjob)
  have hqueued : Sound tables (s.startSession job.discovery sessionId) := ⟨h.same, h.stored, h.captured⟩
  exact wp_updateRow (fun _ => (hqueued.updated hconfines).started h.same rfl hconfines fun _ _ _ heq => by cases heq)
    fun _ _ => hqueued.started h.same rfl hconfines fun _ _ _ heq => by cases heq

theorem kept_register (h : Sound tables s) (base : DiscoveryBase) (drawn sessionId : Uuid)
    (hok : s.Confined (.register base drawn sessionId)) :
    wp (perform (.register base drawn sessionId)) (fun _ t => Kept tables s (.register base drawn sessionId) t)
      (fun _ t => Kept tables s (.register base drawn sessionId) t) s := by
  simp only [perform, Program.wp_bind, Program.wp_get, Program.wp_modify]
  set row := s.newRow { id := drawn, createdAt := s.now, updatedAt := s.now, base } drawn with hrow
  have hbase : row.base = base := by
    rw [hrow, newRow]
    split <;> rfl
  have hconfines (hfree : s.Insertable row) : tables.Confines row.base := by
    rw [hbase, ← h.same]
    exact hok hfree
  have hqueued (hfree : s.Insertable row) {u : DiscoveryServer} (hu : Sound tables u) (hsame : u.queued = s.queued) :
      Kept tables s (.register base drawn sessionId) (u.startSession row sessionId) := by
    have hstarted : Sound tables (u.startSession row sessionId) := ⟨hu.same, hu.stored, hu.captured⟩
    have hsame : (u.startSession row sessionId).queued = (s.startSession row sessionId).queued := by
      simp only [startSession, hsame, hu.same, h.same]
    exact hstarted.started h.same hsame (hconfines hfree) fun _ _ _ heq => by cases heq
  refine wp_createDiscovery hrow.symm (fun _ _ => h.idle rfl) (fun discoveries hfree hinsert cronSchedule _ => ?_)
    (fun discoveries hfree hinsert _ => ?_) fun discoveries hfree hinsert _ _ => ?_
  · exact hqueued hfree ((h.inserted hinsert (hconfines hfree)).jobAdded (hconfines hfree) cronSchedule) rfl
  · have hinserted := h.inserted hinsert (hconfines hfree)
    exact hqueued hfree ⟨hinserted.same, hinserted.stored, hinserted.captured⟩ rfl
  · exact hqueued hfree (h.inserted hinsert (hconfines hfree)) rfl

theorem kept_step {a : Action} (h : Sound tables s) (hok : s.Confined a) (hstep : discoveryStep s a = some t) :
    Kept tables s a t := by
  have hclean : Sound tables { s with failed := [] } := ⟨h.same, h.stored, h.captured⟩
  unfold discoveryStep at hstep
  split at hstep
  next hkeeps =>
    cases hstep
    have hkept (hwp : wp (perform a) (fun _ t => Kept tables { s with failed := [] } a t)
        (fun _ t => Kept tables { s with failed := [] } a t) { s with failed := [] }) :
        Kept tables s a (after (perform a) { s with failed := [] }) := Program.wp_after.mp hwp
    cases a with
    | tick elapsed =>
      refine hkept ?_
      have hticked : Sound tables { s with failed := [], now := s.now + elapsed } := ⟨h.same, h.stored, h.captured⟩
      exact hticked.idle rfl
    | create entity body drawn => exact hkept (kept_create hclean entity body drawn hok)
    | update entity id body => exact hkept (kept_update hclean entity id body hok)
    | delete entity id => exact hkept (kept_delete hclean entity id)
    | bulkDelete entity ids => exact hkept (kept_bulkDelete hclean entity ids)
    | start entity id sessionId => exact hkept (kept_start hclean entity id sessionId)
    | register base drawn sessionId => exact hkept (kept_register hclean base drawn sessionId hok)
    | enforcePlan organizationId plan includedNetworks => cases hkeeps
    | runJob i sessionId => exact hkept (kept_runJob hclean i sessionId)
  · cases hstep

/-! ## Runs -/

/-- The jobs that are there from the start have copies of stored discoveries. -/
theorem sound_boot {discoveries : Table Discovery Discovery.id}
    (h : ∀ discovery ∈ discoveries.rows, tables.Confines discovery.base)
    (now : DateTime) : Sound tables (boot tables discoveries now) := by
  obtain ⟨hsame, hstored, hjobs, -, -⟩ := booted tables discoveries now
  have hstored : (boot tables discoveries now).discoveries = discoveries := hstored
  refine ⟨hsame, fun discovery hmem => h discovery (hstored ▸ hmem), fun job hjob => ?_⟩
  have hcopy := List.mem_map_of_mem (f := Job.discovery) hjob
  rw [hjobs, List.map_nil, List.nil_append] at hcopy
  exact h job.discovery (List.mem_filter.mp (List.mem_filter.mp hcopy).1).1

/-- **Sessions stay within their networks** in every run from discoveries that do, if all those
stored during the run do. -/
theorem aims_of_confined (tables : Tables) (discoveries : Table Discovery Discovery.id)
    (h : ∀ discovery ∈ discoveries.rows, tables.Confines discovery.base) (now : DateTime) (as : List Action)
    (hrun : Along discoveryStep Confined (boot tables discoveries now) as) :
    Every discoveryStep Aims (boot tables discoveries now) as :=
  hrun.every (I := Sound tables) (fun _ _ _ hi hok hstep => (kept_step hi hok hstep).1)
    (fun _ _ _ hi hok hstep => (kept_step hi hok hstep).2) (sound_boot h now)

section Runs

omit [CronRules] in
/-- A discovery of the one daemon is created and run, besides the one that is scheduled. -/
theorem aims_on_one_daemon : Every (@discoveryStep ⟨fun _ => none⟩) Aims
    (@boot ⟨fun _ => none⟩ oneDaemon ⟨[nightly], by decide⟩ 0)
    [.create (.user 2 1 .member [3] true) { nightly with id := Uuid.nil } 11,
      .start (.user 2 1 .member [3] true) 11 1, .runJob 0 2] :=
  @aims_of_confined ⟨fun _ => none⟩ oneDaemon ⟨[nightly], by decide⟩ (by decide) 0 _
    (Transition.every_cons.mpr fun _ _ => ⟨fun _ _ => by decide +kernel,
      Transition.every_cons.mpr fun _ _ => ⟨trivial, Transition.every_cons.mpr fun _ _ => ⟨trivial, trivial⟩⟩⟩)

/-- Two networks, each with a daemon. -/
def twoDaemons : Tables where
  accounts := { networks := ⟨[{ id := 3, organizationId := 1 }, { id := 4, organizationId := 2 }], by decide⟩ }
  daemons := ⟨[{ id := 7, networkId := 3, mode := .serverPoll },
    { id := 8, networkId := 4, mode := .serverPoll }], by decide⟩

omit [CronRules] in
/-- A member creates a discovery that names the daemon of another organization, and starts it. -/
theorem foreign_daemon_runs :
    ¬ Every (@discoveryStep ⟨fun _ => none⟩) Aims (@boot ⟨fun _ => none⟩ twoDaemons ⟨[], by decide⟩ 0)
    [.create (.user 2 1 .member [3] true) { nightly with base.daemonId := 8, base.runType := .adHoc none } 9,
      .start (.user 2 1 .member [3] true) 9 1] := by
  intro h
  have hreaches := h.mono
    (S := fun s _ t => ∀ session ∈ t.queued, session ∈ s.queued ∨
      s.tables.Reaches session.daemonId session.networkId session.discoveryType.subnetIds)
    fun _ _ _ _ haims session hsession => (haims session hsession).imp_right fun htargets => htargets.1.reaches
  exact absurd hreaches (by decide +kernel)

end Runs

end DiscoveryServer

end Netvisor
