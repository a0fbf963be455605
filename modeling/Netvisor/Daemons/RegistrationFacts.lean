/-
What the requests of daemons leave in the tables. Everything a registration
adds after its checks (a host, a daemon, the first discoveries) is of the
network it registers for.
-/
import Netvisor.Auth.AccountsFacts
import Netvisor.Daemons.Handlers
import Netvisor.StorageFacts

namespace Netvisor

open Program (wp Keeps)

/-! ## Statements -/

namespace DaemonStore

variable {α : Type} {s : DaemonServer} {Q : α → DaemonServer → Prop} {E : ApiError → DaemonServer → Prop}

@[simp] theorem wp_inDb {p : Store α} : wp (inDb p) Q E s ↔
    wp p (fun a db => Q a { s with tables := s.tables.left db })
      (fun e db => E e.toApiError { s with tables := s.tables.left db }) s.tables.referred := by
  simp only [wp, inDb]
  cases p s.tables.referred <;> exact Iff.rfl

@[simp] theorem wp_inAccounts {p : AccountStore α} : wp (inAccounts p) Q E s ↔
    wp p (fun a accounts => Q a { s with tables.accounts := accounts })
      (fun e accounts => E e { s with tables.accounts := accounts }) s.tables.accounts := by
  simp only [wp, inAccounts]
  cases p s.tables.accounts <;> exact Iff.rfl

end DaemonStore

/-! ## Rows of other networks -/

namespace DaemonServer

/-- From `s` to `t`, no daemon, host or discovery of another network comes, goes or changes. -/
structure Confined (networkId : Uuid) (s t : DaemonServer) : Prop where
  daemons : ∀ d : Daemon, d.networkId ≠ networkId → (d ∈ t.tables.daemons.rows ↔ d ∈ s.tables.daemons.rows)
  hosts : ∀ h : Host, h.base.networkId ≠ networkId → (h ∈ t.tables.db.hosts.rows ↔ h ∈ s.tables.db.hosts.rows)
  discoveries : ∀ d : Discovery, d.base.networkId ≠ networkId →
    (d ∈ t.discovery.discoveries ↔ d ∈ s.discovery.discoveries)

/-- Confined, and no host at all changes. -/
structure SetsUp (networkId : Uuid) (s t : DaemonServer) : Prop extends Confined networkId s t where
  sameHosts : t.tables.db.hosts = s.tables.db.hosts

variable {networkId : Uuid} {s : DaemonServer}

theorem Confined.refl : Confined networkId s s := ⟨fun _ _ => Iff.rfl, fun _ _ => Iff.rfl, fun _ _ => Iff.rfl⟩

theorem Confined.trans {t u : DaemonServer} (h : Confined networkId s t) (h' : Confined networkId t u) :
    Confined networkId s u where
  daemons d hd := (h'.daemons d hd).trans (h.daemons d hd)
  hosts x hx := (h'.hosts x hx).trans (h.hosts x hx)
  discoveries d hd := (h'.discoveries d hd).trans (h.discoveries d hd)

instance : IsPreorder DaemonServer (Confined networkId) where
  refl _ := .refl
  trans _ _ _ := .trans

instance : IsPreorder DaemonServer (SetsUp networkId) where
  refl _ := ⟨.refl, rfl⟩
  trans _ _ _ h h' := ⟨h.toConfined.trans h'.toConfined, h'.sameHosts.trans h.sameHosts⟩

theorem Confined.of_same {t : DaemonServer} (hdaemons : t.tables.daemons = s.tables.daemons)
    (hhosts : t.tables.db.hosts = s.tables.db.hosts)
    (hdiscoveries : t.discovery.discoveries = s.discovery.discoveries) : Confined networkId s t where
  daemons _ _ := by rw [hdaemons]
  hosts _ _ := by rw [hhosts]
  discoveries _ _ := by rw [hdiscoveries]

theorem SetsUp.of_same {t : DaemonServer} (hdaemons : t.tables.daemons = s.tables.daemons)
    (hhosts : t.tables.db.hosts = s.tables.db.hosts)
    (hdiscoveries : t.discovery.discoveries = s.discovery.discoveries) : SetsUp networkId s t :=
  ⟨.of_same hdaemons hhosts hdiscoveries, hhosts⟩

end DaemonServer

open DaemonServer (Confined SetsUp)

variable {networkId : Uuid} {s : DaemonServer}

/-! ## Discoveries -/

namespace DiscoveryService

/-- A new discovery has the given base. -/
theorem wp_newDiscovery {base : DiscoveryBase} : wp (newDiscovery base)
    (fun d t => d.base = base ∧ SetsUp networkId s t)
    (fun _ _ => False) s := ⟨rfl, .of_same rfl rfl rfl⟩

theorem wp_orNew {discovery : Discovery} : wp (orNew discovery)
    (fun d t => d.base = discovery.base ∧ SetsUp networkId s t) (fun _ _ => False) s := by
  rw [orNew, Program.wp_ite]
  exact ⟨fun _ => wp_newDiscovery, fun _ => ⟨rfl, .of_same rfl rfl rfl⟩⟩

theorem keeps_createDiscovery {discovery : Discovery} (h : discovery.base.networkId = networkId) :
    Keeps (SetsUp networkId) (createDiscovery discovery) := by
  intro s
  rw [createDiscovery, Program.wp_bind]
  refine (@wp_orNew networkId _ _).mono (fun d t hd => ?_) fun _ _ h => h.elim
  obtain ⟨hbase, ht⟩ := hd
  simp only [Program.wp_bind, Program.wp_get, Program.wp_ite, Program.wp_throw, Program.wp_set, Program.wp_pure]
  refine ⟨fun _ => ht, fun _ => ⟨fun _ => ht, fun _ => ?_⟩⟩
  refine IsTrans.trans s t _ ht ⟨⟨fun _ _ => Iff.rfl, fun _ _ => Iff.rfl, fun x hx => ?_⟩, rfl⟩
  have hne : x ≠ d := by
    rintro rfl
    exact hx (by rw [hbase, h])
  simp [hne]

/-- A session changes no rows. -/
theorem keeps_startSession {discovery : Discovery} : Keeps (SetsUp networkId) (startSession discovery) := by
  intro s
  have hrows (s : DiscoveryService) (session : DiscoveryUpdatePayload) (running : Bool) :
      ((s.setSession session).startQueued session running).discoveries = s.discoveries := by
    cases running <;> rfl
  simp only [startSession, Program.wp_bind, Program.wp_get, Program.wp_set, Program.wp_pure]
  exact .of_same rfl rfl (hrows _ _ _)

end DiscoveryService

/-! ## The host of a daemon -/

namespace HostService

variable {db : Db} {host : Host} {Q : HostResponse → Db → Prop} {E : Error → Db → Prop}

/-- A host without children is stored, and nothing else. -/
theorem wp_discoverHost_alone : wp (discoverHost none { host }) Q E db ↔
    wp (create host) (fun h t => Q (.fromHostWithChildren h [] [] [] []) t) E db := by
  have hfind : findMatchingHostByInterfaces db host.base.networkId [] = none :=
    List.find?_eq_none.mpr fun _ _ => by simp
  have hrun : matchHost .upsert none { host } db = .ok host db := by
    simp only [matchHost, bind, EStateM.bind, Program.run_get, hfind]
    rfl
  simp only [discoverHost, createWithChildren, createHost, Program.wp_bind, Program.wp_of_ok hrun, List.mapM_nil,
    List.foldlM_nil, Program.wp_pure, finish, assignOrphaned, List.isEmpty_nil, if_true, Bool.not_true,
    Bool.false_eq_true, if_false]

/-- Storing a host touches no host of another network. -/
theorem wp_create_confined : wp (create host)
    (fun _ t => ∀ x : Host, x.base.networkId ≠ host.base.networkId → (x ∈ t.hosts.rows ↔ x ∈ db.hosts.rows))
    (fun _ t => t.hosts = db.hosts) db := by
  have hnew : wp (Storable.orNew host) (fun h t => h.base = host.base ∧ t.hosts = db.hosts) (fun _ _ => False) db :=
    Storable.wp_orNew.mpr ⟨fun _ => ⟨rfl, rfl⟩, fun _ => ⟨rfl, rfl⟩⟩
  rw [create, Program.wp_bind]
  refine hnew.mono (fun host' db' h => ?_) fun _ _ h => h.elim
  obtain ⟨hbase, hhosts⟩ := h
  simp only [Program.wp_bind, Program.wp_get]
  split
  · next existing hfound =>
    obtain ⟨hstored, hnetwork⟩ : existing ∈ db'.hosts.rows ∧ existing.base.networkId = host'.base.networkId := by
      have hmem := List.mem_of_find?_eq_some (Option.filter_eq_some_iff.mp hfound).1
      simpa [hostsOf, Table.mem_select] using hmem
    simp only [upsertHost]
    split
    · rw [Program.wp_bind]
      have hsame : ∀ x : Host, x.base.networkId ≠ host.base.networkId → (x ∈ db'.hosts.rows ↔ x ∈ db.hosts.rows) :=
        fun _ _ => by rw [hhosts]
      refine Storable.wp_update (fun _ => hhosts) (fun _ => hsame) fun _ _ x hx => ?_
      rw [← hsame x hx]
      rw [← hbase] at hx
      exact Table.mem_update_of_apply_ne (fun h : Host => h.base.networkId) hstored rfl rfl (hnetwork ▸ hx)
    · exact fun _ _ => by rw [hhosts]
  · split
    · exact hhosts
    · rw [Program.wp_bind]
      refine Storable.wp_create (fun _ => hhosts) fun t hins _ x hx => ?_
      have hins : db'.hosts.insert host' = some t := hins
      rw [← hhosts]
      exact Table.mem_insert_of_ne hins fun heq => hx (by rw [heq, hbase])

/-- Under an id that is new, in a network that exists, the host is added. -/
theorem create_new (hid : host.id ≠ Uuid.nil) (hnew : db.hosts.get host.id = none)
    (href : Storable.references db host = true) :
    wp (create host) (fun _ t => t.hosts.rows = db.hosts.rows ++ [host]) (fun _ _ => False) db := by
  have hnone : (hostsOf db host.base.networkId).find? host.eq = none := by
    rw [List.find?_eq_none]
    intro x hx
    have hmem : x ∈ db.hosts.rows := (Table.mem_select.mp hx).1
    have hne : x.id ≠ host.id := Table.get_eq_none.mp hnew x hmem
    simpa [Host.eq] using hne.symm
  obtain ⟨t, hins⟩ : ∃ t, db.hosts.insert host = some t := by
    cases h : db.hosts.insert host with
    | some t => exact ⟨t, rfl⟩
    | none =>
      obtain ⟨x, hx, heq⟩ := Table.insert_eq_none.mp h
      exact absurd heq (Table.get_eq_none.mp hnew x hx)
  rw [create, Program.wp_bind, Storable.wp_orNew]
  refine ⟨fun h => absurd h hid, fun _ => ?_⟩
  simp only [Program.wp_bind, Program.wp_get, hnone, Option.filter_none, hnew,
    Program.wp_of_ok (Storable.create_eq_ok hins rfl href), Program.wp_pure]
  exact (Table.insert_eq_some hins).1

end HostService

/-! ## Daemons -/

namespace DaemonService

variable {daemon daemon' : Daemon} {daemonId : Uuid}

/-- A daemon of the network is replaced by one of the network. -/
theorem confined_update (hget : s.tables.daemons.get daemonId = some daemon) (hnetwork : daemon.networkId = networkId)
    (hid : daemon'.id = daemon.id) (hnetwork' : daemon'.networkId = networkId) :
    Confined networkId s { s with tables.daemons := s.tables.daemons.update daemon' } where
  daemons _ hd := 
    Table.mem_update_of_apply_ne Daemon.networkId (Table.get_eq_some.mp hget).1 hid.symm
      (hnetwork.trans hnetwork'.symm)
      (hnetwork' ▸ hd)
  hosts _ _ := Iff.rfl
  discoveries _ _ := Iff.rfl

section

variable {Q : Daemon → DaemonServer → Prop} {R : Unit → DaemonServer → Prop} {E : ApiError → DaemonServer → Prop}

theorem wp_update (hget : s.tables.daemons.get daemonId = some daemon) (hid : daemon'.id = daemon.id) :
    wp (update daemon') Q E s ↔ Q daemon' { s with tables.daemons := s.tables.daemons.update daemon' } := by
  have hstored : s.tables.daemons.get daemon'.id = some daemon := by
    rw [hid, (Table.get_eq_some.mp hget).2]
    exact hget
  simp only [update, Program.wp_bind, Program.wp_get, hstored, Program.wp_set, Program.wp_pure]

theorem wp_modifyDaemon {change : DateTime → Daemon → Daemon} (hget : s.tables.daemons.get daemonId = some daemon)
    (hid : ∀ now d, (change now d).id = d.id) : wp (modifyDaemon daemonId change) R E s ↔
      R () { s with tables.daemons := s.tables.daemons.update (change s.tables.db.now daemon) } := by
  simp only [modifyDaemon, Program.wp_bind, Program.wp_get, hget, wp_update hget (hid _ _), Program.wp_pure]

end

/-! ## Registration -/

/-- A new daemon is of the network it is created for. -/
theorem keeps_create (h : daemon.networkId = networkId) : Keeps (SetsUp networkId) (create daemon) := by
  intro s
  have hnew : wp (orNew daemon) (fun d t => d.networkId = networkId ∧ SetsUp networkId s t) (fun _ _ => False) s := by
    simp only [orNew, Program.wp_ite, Program.wp_bind, DaemonStore.wp_inDb, wp_newV4, Program.wp_get, Program.wp_pure]
    exact ⟨fun _ => ⟨h, .of_same rfl rfl rfl⟩, fun _ => ⟨h, .of_same rfl rfl rfl⟩⟩
  rw [create, Program.wp_bind]
  refine hnew.mono (fun d t hd => ?_) fun _ _ h => h.elim
  obtain ⟨hnetwork, ht⟩ := hd
  simp only [Program.wp_bind, Program.wp_get, wp_runStatement, Program.wp_set, Program.wp_pure]
  refine ⟨fun daemons hins => ?_, fun _ _ => ht⟩
  have hins : t.tables.daemons.insert d = some daemons := (insertInto_eq_ok hins).1
  refine IsTrans.trans s t _ ht ⟨⟨fun x hx => ?_, fun _ _ => Iff.rfl, fun _ _ => Iff.rfl⟩, rfl⟩
  exact Table.mem_insert_of_ne hins fun heq => hx (by rw [heq, hnetwork])

theorem keeps_createDefaultJob {isFreePlan : Bool} {discoveryType : DiscoveryType} :
    Keeps (SetsUp networkId) (createDefaultJob daemonId networkId isFreePlan discoveryType) := by
  intro s
  rw [createDefaultJob, Program.wp_bind]
  refine (@DiscoveryService.wp_newDiscovery networkId _ _).mono (fun d t hd => ?_) fun _ _ h => h.elim
  obtain ⟨hbase, ht⟩ := hd
  have hnetwork : d.base.networkId = networkId := by rw [hbase]
  have hrun : Keeps (SetsUp networkId) (do
      let created ← DiscoveryService.createDiscovery d
      let _ ← DiscoveryService.startSession created) :=
    (DiscoveryService.keeps_createDiscovery hnetwork).bind fun _ =>
    DiscoveryService.keeps_startSession.bind fun _ => .pure
  exact hrun.later ht

theorem keeps_createDefaultDiscoveryJobs {hostId : Uuid} {hasDockerSocket isFreePlan : Bool} :
    Keeps (SetsUp networkId) (createDefaultDiscoveryJobs daemonId networkId hostId hasDockerSocket isFreePlan) := by
  refine keeps_createDefaultJob.bind fun _ => ?_
  cases hasDockerSocket with
  | false => exact Keeps.pure.bind fun _ => keeps_createDefaultJob
  | true => exact keeps_createDefaultJob.bind fun _ => keeps_createDefaultJob

variable [EmailRules] {request : DaemonRegistrationRequest} {org : Organization} {version : Option Version}

theorem keeps_maintainer {userId : Uuid} : Keeps (SetsUp networkId) (maintainer org userId) := by
  refine .ite (.bind (fun s => ?_) fun _ => .pure) .pure
  rw [DaemonStore.wp_inAccounts]
  exact .of_forall (fun _ _ => .of_same rfl rfl rfl) fun _ _ => .of_same rfl rfl rfl

theorem keeps_setUpDaemon {hostId : Uuid} : Keeps (SetsUp request.networkId)
    (setUpDaemon request org version hostId) :=
  keeps_maintainer.bind fun _ => Keeps.get.bind fun _ => (keeps_create rfl).bind fun _ =>
    keeps_createDefaultDiscoveryJobs.bind fun _ => .pure

/-- Registering a new daemon changes rows of its network only. -/
theorem wp_registerNew : wp (registerNew request org version) (fun _ => Confined request.networkId s)
    (fun _ => Confined request.networkId s) s := by
  simp only [registerNew, Program.wp_bind, DaemonStore.wp_inDb, Storable.wp_new, HostService.wp_discoverHost_alone]
  refine HostService.wp_create_confined.mono (fun h t ht => ?_) fun _ t ht => ?_
  · have hhost : Confined request.networkId s { s with tables := (s.tables.left _).left t } :=
      ⟨fun _ _ => Iff.rfl, ht, fun _ _ => Iff.rfl⟩
    refine (keeps_setUpDaemon _).mono (fun _ u hu => ?_) fun _ u hu => ?_
    · exact hhost.trans hu.toConfined
    · exact hhost.trans hu.toConfined
  · exact ⟨fun _ _ => Iff.rfl, fun _ _ => by rw [← show t.hosts = s.tables.db.hosts from ht]; rfl, fun _ _ => Iff.rfl⟩

/-- With an id that is new, the host of a new daemon is there whatever comes of the rest. -/
theorem wp_registerNew_host (hnetwork : (s.tables.accounts.networks.get request.networkId).isSome = true)
    (hid : s.tables.db.drawn.headD Uuid.nil ≠ Uuid.nil)
    (hnew : s.tables.db.hosts.get (s.tables.db.drawn.headD Uuid.nil) = none) :
    wp (registerNew request org version) (fun _ t => t ≠ s) (fun _ t => t ≠ s) s := by
  have hchanged (host : Host) (t : DaemonServer) (h : t.tables.db.hosts.rows = s.tables.db.hosts.rows ++ [host]) :
      t ≠ s := by
    rintro rfl
    simpa using congrArg List.length h
  have href (host : Host) (drawn : List Uuid) (hnetworkId : host.base.networkId = request.networkId)
      (hsnmp : host.base.snmpCredentialId = none) :
      Storable.references { s.tables.referred with drawn } host = true := by
    obtain ⟨network, hget, hkey⟩ := Table.get_isSome.mp hnetwork
    have hmem : request.networkId ∈ s.tables.accounts.networks.rows.map Network.id :=
      List.mem_map.mpr ⟨network, hget, hkey⟩
    simp only [Storable.references, Db.hasNetwork, Tables.referred, hnetworkId, hsnmp, Option.all_none, Bool.and_true]
    exact List.contains_iff_mem.mpr hmem
  simp only [registerNew, Program.wp_bind, DaemonStore.wp_inDb, Storable.wp_new, HostService.wp_discoverHost_alone]
  refine (HostService.create_new hid hnew (href _ _ rfl rfl)).mono (fun h t ht => ?_) fun _ _ h => h.elim
  refine (keeps_setUpDaemon _).mono (fun _ u hu => ?_) fun _ u hu => ?_
  · exact hchanged _ u ((congrArg Table.rows hu.sameHosts).trans ht)
  · exact hchanged _ u ((congrArg Table.rows hu.sameHosts).trans ht)

end DaemonService

end Netvisor
