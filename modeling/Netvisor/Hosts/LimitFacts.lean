/-
What the statements of the requests that create hosts do: to save a host adds
one at most, and none if it is stored on its network; everything else leaves the
hosts alone.
-/
import Netvisor.Hosts.Limit
import Netvisor.Lib.Rely

namespace Netvisor

open HostDiscovery (Lookup wp_createInterface mem_hostsOf)
open HostService (hostsOf merged upsertHost)
open Process (Secures)
open Program (after wp)

/-! ## Processes that are alone -/

namespace HostHandlers

variable {s : HostTables} {draw : Draw} {conflictBehavior : ConflictBehavior}

theorem run_findMatchingHostByInterfaces {networkId : Uuid} {interfaces : List Interface} :
    (findMatchingHostByInterfaces networkId interfaces).run s =
      .ok (HostService.findMatchingHostByInterfaces s.db networkId interfaces) s := by
  unfold findMatchingHostByInterfaces HostService.findMatchingHostByInterfaces
  split
  · next hempty =>
    have hnone : ((hostsOf s.db networkId).find? fun host => interfaces.any fun incoming =>
        (s.db.interfacesOf host.id).any fun existing => incoming.eq existing) = none := by
      rw [List.isEmpty_iff.mp hempty]
      exact List.find?_eq_none.mpr fun _ _ h => by cases h
    rw [hnone]
    rfl
  · rw [Process.run_query_bind]
    split
    · next hempty =>
      rw [List.isEmpty_iff.mp hempty]
      rfl
    · rfl

theorem wp_inDb {α : Type} {p : Store α} {Q : α → HostTables → Prop} {E : ApiError → HostTables → Prop} :
    wp (inDb draw p) Q E s ↔
      wp p (fun a db => Q a (s.left db)) (fun e db => E (toApiError e) (s.left db)) (draw.supply s.db) := by
  simp only [wp, inDb]
  cases p (draw.supply s.db) <;> exact Iff.rfl

/-- The host is chosen and saved as `create_with_children` does it. -/
theorem wp_run_createHostRow {hostLimit counted : Option Nat} {request : DiscoveryHostRequest}
    {Q : Host → HostTables → Prop} {E : ApiError → HostTables → Prop} :
    wp (createHostRow conflictBehavior hostLimit counted request draw).run (fun saved t => Q saved.1 t) E s ↔
      wp (inDb draw (HostService.matchHost conflictBehavior hostLimit request >>= HostService.create)) Q E s := by
  have hsave (host : Host) : wp (save host counted draw).run (fun saved t => Q saved.1 t) E s ↔
      wp (HostService.create host) (fun a db => Q a (s.left db)) (fun e db => E (toApiError e) (s.left db))
          (draw.supply s.db) := by
    simp only [save, Process.run_statement, Program.wp_bind, Program.wp_get, Program.wp_pure, wp_inDb]
  rw [createHostRow, Process.run_bind, Program.wp_bind, Program.wp_of_ok run_findMatchingHostByInterfaces, wp_inDb,
    HostService.matchHost]
  have hsame : HostService.findMatchingHostByInterfaces
    (draw.supply s.db) request.host.base.networkId request.interfaces =
      HostService.findMatchingHostByInterfaces s.db request.host.base.networkId request.interfaces := rfl
  simp only [Program.wp_bind, Program.wp_get, hsame]
  cases HostService.findMatchingHostByInterfaces s.db request.host.base.networkId request.interfaces with
  | some existing =>
    cases conflictBehavior with
    | error => exact Iff.rfl
    | upsert => exact hsave _
  | none =>
    cases hostLimit with
    | none => cases conflictBehavior <;> exact hsave _
    | some limit =>
      by_cases hfull : (hostsOf s.db request.host.base.networkId).length ≥ limit
      · have hcheck : ∃ e, (checkHostLimit request.host.base.networkId (some limit)).run s = .error (toApiError e) s ∧
            e = .internal ("Host limit reached (" ++
              toString (hostsOf s.db request.host.base.networkId).length ++ "/" ++
              toString limit ++ "). Upgrade your plan for unlimited hosts.") := by
          refine ⟨_, ?_, rfl⟩
          simp only [checkHostLimit, Process.run_query_bind, if_pos hfull]
          rfl
        obtain ⟨e, hcheck, rfl⟩ := hcheck
        have hfull' : (hostsOf (draw.supply s.db) request.host.base.networkId).length ≥ limit := hfull
        cases conflictBehavior <;>
          · simp only [Process.run_bind, Program.wp_bind, Program.wp_of_error hcheck, Option.any_some, hfull',
              decide_true, if_true, Program.wp_throw]
            exact Iff.rfl
      · have hcheck : (checkHostLimit request.host.base.networkId (some limit)).run s = .ok () s := by
          simp only [checkHostLimit, Process.run_query_bind, if_neg hfull]
          rfl
        have hfull' : ¬ (hostsOf (draw.supply s.db) request.host.base.networkId).length ≥ limit := hfull
        cases conflictBehavior <;>
          simp only [Process.run_bind, Program.wp_bind, Program.wp_of_ok hcheck, Option.any_some, hfull',
            decide_false, Bool.false_eq_true, if_false, Program.wp_pure, hsave]

end HostHandlers

/-! ## What others rely on -/

namespace Db

variable {db db' db'' : Db}

def hostKeys (db : Db) : List (Uuid × Uuid) := db.hosts.rows.map fun h => (h.id, h.base.networkId)

theorem mem_hostKeys {k : Uuid × Uuid} : k ∈ db.hostKeys ↔ ∃ h ∈ db.hosts.rows, h.id = k.1 ∧
    h.base.networkId = k.2 := by
  simp only [hostKeys, List.mem_map, Prod.ext_iff]

/-- The hosts have ids, and what they refer to is stored. -/
structure HostsLawful (db : Db) : Prop where
  nonnil : ∀ h ∈ db.hosts.rows, h.id ≠ Uuid.nil
  references : ∀ h ∈ db.hosts.rows, Storable.references db h = true

theorem HostsLawful.of_key (h : db.HostsLawful) {k : Uuid × Uuid} (hk : k ∈ db.hostKeys) : k.1 ≠ Uuid.nil := by
  obtain ⟨host, hhost, hid, -⟩ := mem_hostKeys.mp hk
  exact hid ▸ h.nonnil host hhost

/-- Hosts and interfaces that are stored stay, those on their networks. -/
structure HostsStay (db db' : Db) : Prop where
  hosts : db.hostKeys ⊆ db'.hostKeys
  interfaces : db.interfaces.rows ⊆ db'.interfaces.rows
  lawful : db.HostsLawful → db'.HostsLawful

theorem HostsStay.refl (db : Db) : db.HostsStay db := ⟨fun _ h => h, fun _ h => h, fun h => h⟩

theorem HostsStay.trans (h : db.HostsStay db') (h' : db'.HostsStay db'') : db.HostsStay db'' :=
  ⟨List.Subset.trans h.hosts h'.hosts, List.Subset.trans h.interfaces h'.interfaces,
    fun hl => h'.lawful (h.lawful hl)⟩

/-- No host is written, nor what hosts refer to. -/
structure HostsSame (db db' : Db) : Prop where
  hosts : db'.hosts = db.hosts
  interfaces : db.interfaces.rows ⊆ db'.interfaces.rows
  networks : db'.networks = db.networks
  snmpCredentials : db'.snmpCredentials = db.snmpCredentials

theorem HostsSame.stay (h : db.HostsSame db') : db.HostsStay db' where
  hosts := by rw [hostKeys, hostKeys, h.hosts]; exact fun _ h => h
  interfaces := h.interfaces
  lawful hl := by
    refine ⟨by rw [h.hosts]; exact hl.nonnil, fun host hhost => ?_⟩
    rw [h.hosts] at hhost
    have hrefs := hl.references host hhost
    simp only [Storable.references, hasNetwork] at hrefs ⊢
    rw [h.networks, h.snmpCredentials]
    exact hrefs

theorem HostsSame.hostKeys (h : db.HostsSame db') : db'.hostKeys = db.hostKeys := by
  rw [Db.hostKeys, h.hosts, Db.hostKeys]

/-- At most one host is added, if none has the id. -/
structure HostSaved (host : Host) (db db' : Db) : Prop where
  stay : db.HostsStay db'
  added : db'.hostKeys = db.hostKeys ∨
    db.hosts.get host.id = none ∧ ∃ id, db'.hostKeys = db.hostKeys ++ [(id, host.base.networkId)]

theorem HostsSame.saved {host : Host} (h : db.HostsSame db') : HostSaved host db db' := ⟨h.stay, .inl h.hostKeys⟩

end Db

/-! ## Saving a host -/

section Save

variable {db : Db} {host existing : Host}

theorem wp_upsertHost (hl : db.HostsLawful) (hexisting : existing ∈ db.hosts.rows) :
    wp (upsertHost existing host) (fun _ db' => db.HostsStay db' ∧ db'.hostKeys = db.hostKeys)
        (fun _ _ => False) db := by
  have hget : db.hosts.get existing.id = some existing := Table.get_eq_some.mpr ⟨hexisting, rfl⟩
  have hrefs : Storable.references db (merged existing host) = true := hl.references existing hexisting
  rw [upsertHost]
  split
  · have hupdate : Storable.update (merged existing host) db =
        .ok (merged existing host) (Storable.setTable (db.hosts.update (merged existing host)) db) :=
      Storable.update_eq_ok (Option.isSome_iff_exists.mpr ⟨existing, hget⟩) rfl hrefs
    rw [Program.wp_bind, Program.wp_of_ok hupdate]
    have hkeys : Db.hostKeys (Storable.setTable (db.hosts.update (merged existing host)) db) = db.hostKeys :=
      Table.map_update (r := merged existing host) hget rfl
    refine ⟨⟨fun k hk => hkeys ▸ hk, fun _ h => h, fun _ => ⟨fun h hh => ?_, fun h hh => ?_⟩⟩, hkeys⟩
    · rcases Table.mem_update.mp hh with ⟨rfl, -⟩ | ⟨hh, -⟩
      · exact hl.nonnil existing hexisting
      · exact hl.nonnil h hh
    · rcases Table.mem_update.mp hh with ⟨rfl, -⟩ | ⟨hh, -⟩
      · exact hrefs
      · exact hl.references h hh
  · exact ⟨.refl db, rfl⟩

theorem wp_orNew (hdrawn : db.drawn.headD Uuid.nil ≠ Uuid.nil) :
    wp (Storable.orNew host) (fun h db' => db.HostsSame db' ∧ h.id ≠ Uuid.nil ∧ h.base = host.base ∧
      (host.id ≠ Uuid.nil → h.id = host.id)) (fun _ _ => False) db := by
  rw [Storable.wp_orNew]
  refine ⟨fun hnil => ⟨⟨rfl, fun _ h => h, rfl, rfl⟩, hdrawn, rfl, fun hne => absurd hnil hne⟩, fun hne => ?_⟩
  exact ⟨⟨rfl, fun _ h => h, rfl, rfl⟩, hne, rfl, fun _ => rfl⟩

/-- The host of the network that has the id is the one to update. -/
theorem filter_find?_isSome (h : existing ∈ db.hosts.rows) (hid : existing.id = host.id)
    (hnet : existing.base.networkId = host.base.networkId) :
    (((hostsOf db host.base.networkId).find? host.eq).filter (HostService.mergesInto host)).isSome = true := by
  have hmem : existing ∈ hostsOf db host.base.networkId := mem_hostsOf.mpr ⟨h, hnet⟩
  have heq : host.eq existing = true := by simpa [Host.eq] using hid.symm
  cases hfind : (hostsOf db host.base.networkId).find? host.eq with
  | none => exact absurd heq (List.find?_eq_none.mp hfind existing hmem)
  | some found =>
    have hmerges : HostService.mergesInto host found = true := by
      have hfound : host.eq found = true := List.find?_some hfind
      rw [Host.eq] at hfound
      simp only [HostService.mergesInto, hfound, Bool.or_true]
    rw [Option.filter_some_pos hmerges]
    rfl

theorem hostsLawful_insert (hl : db.HostsLawful) {t : Table Host Host.id} (hins : db.hosts.insert host = some t)
    (hne : host.id ≠ Uuid.nil) (hrefs : Storable.references db host = true) :
    (Storable.setTable t db).HostsLawful := by
  have hmem (r : Host) (hr : r ∈ t.rows) : r ∈ db.hosts.rows ∨ r = host := by
    rw [(Table.insert_eq_some hins).1, List.mem_append, List.mem_singleton] at hr
    exact hr
  constructor
  · intro r hr
    rcases hmem r hr with hr | rfl
    · exact hl.nonnil r hr
    · exact hne
  · intro r hr
    rcases hmem r hr with hr | rfl
    · exact hl.references r hr
    · exact hrefs

/-- A host that is stored on its network is updated. -/
theorem wp_createHost (hl : db.HostsLawful) (hdrawn : db.drawn.headD Uuid.nil ≠ Uuid.nil) :
    wp (HostService.create host) (fun _ db' => Db.HostSaved host db db')
      (fun _ db' => db.HostsSame db' ∧ (host.id, host.base.networkId) ∉ db.hostKeys) db := by
  rw [HostService.create, Program.wp_bind]
  refine (wp_orNew hdrawn).mono (fun h db₀ hnew => ?_) fun _ _ h => h.elim
  obtain ⟨hsame, hne, hbase, hid⟩ := hnew
  have hl₀ : db₀.HostsLawful := hsame.stay.lawful hl
  have hstored (hkey : (host.id, host.base.networkId) ∈ db.hostKeys) :
      ∃ r ∈ db₀.hosts.rows, r.id = h.id ∧ r.base.networkId = h.base.networkId := by
    obtain ⟨r, hr, hrid, hrnet⟩ := Db.mem_hostKeys.mp hkey
    have hnonnil : host.id ≠ Uuid.nil := hl.of_key hkey
    exact ⟨r, hsame.hosts ▸ hr, hrid.trans (hid hnonnil).symm, hrnet.trans (congrArg HostBase.networkId hbase).symm⟩
  simp only [Program.wp_bind, Program.wp_get]
  split
  · next existing hfound =>
    obtain ⟨hexisting, -⟩ := mem_hostsOf.mp (List.mem_of_find?_eq_some (Option.filter_eq_some_iff.mp hfound).1)
    refine (wp_upsertHost hl₀ hexisting).mono (fun _ db' hupserted => ?_) fun _ _ h => h.elim
    obtain ⟨hstay, hkeys⟩ := hupserted
    exact ⟨hsame.stay.trans hstay, .inl (hkeys.trans hsame.hostKeys)⟩
  · next hnone =>
    have hnew : (host.id, host.base.networkId) ∉ db.hostKeys := by
      intro hkey
      obtain ⟨r, hr, hrid, hrnet⟩ := hstored hkey
      have hsome : (((hostsOf db₀ h.base.networkId).find? h.eq).filter (HostService.mergesInto h)).isSome = true :=
        filter_find?_isSome hr hrid hrnet
      rw [hnone] at hsome
      cases hsome
    split
    · exact ⟨hsame, hnew⟩
    · next hmissing =>
      rw [Program.wp_bind]
      refine Storable.wp_create (fun _ => ⟨hsame, hnew⟩) fun t hins hrefs => ?_
      have hins : db₀.hosts.insert h = some t := hins
      have hrows : t.rows = db₀.hosts.rows ++ [h] := (Table.insert_eq_some hins).1
      have hkeys : (Storable.setTable t db₀).hostKeys = db.hostKeys ++ [(h.id, host.base.networkId)] := by
        change t.rows.map _ = _
        rw [hrows, List.map_append, ← hsame.hostKeys, ← hbase]
        rfl
      refine ⟨⟨?_, hsame.interfaces, fun _ => hostsLawful_insert hl₀ hins hne hrefs⟩, .inr ⟨?_, h.id, hkeys⟩⟩
      · rw [hkeys]
        exact List.subset_append_left _ _
      · by_cases hnil : host.id = Uuid.nil
        · rw [Table.get_eq_none]
          exact fun r hr heq => hl.nonnil r hr (heq.trans hnil)
        · rw [← hid hnil, ← hsame.hosts]
          exact hmissing

end Save

/-! ## What a statement does -/

/-- A host the discovery reports is stored: one under its id, or one that has one of its interfaces. -/
def Discovered.Known (networkId : Uuid) (request : DiscoveryHostRequest) (db : Db) : Prop :=
  ∃ k ∈ db.hostKeys, k.2 = networkId ∧ (k.1 = request.host.id ∨
    ∃ e ∈ db.interfaces.rows, e.base.hostId = k.1 ∧ request.interfaces.any fun incoming => incoming.eq e)

/-- A host that was known is accepted, as an update. -/
def Discovered.Accepted (d : Discovered) : Prop :=
  Known d.request.host.base.networkId d.request d.before → ∃ host, d.outcome = .ok (host, true)

theorem Discovered.Known.stay {networkId : Uuid} {request : DiscoveryHostRequest} {db db' : Db}
    (h : Known networkId request db) (hstay : db.HostsStay db') : Known networkId request db' := by
  obtain ⟨k, hk, hnet, hid | ⟨e, he, hhost, hany⟩⟩ := h
  · exact ⟨k, hstay.hosts hk, hnet, .inl hid⟩
  · exact ⟨k, hstay.hosts hk, hnet, .inr ⟨e, hstay.interfaces he, hhost, hany⟩⟩

namespace HostTables

variable {s t u : HostTables} {organizationId : Uuid} {limit : Nat}

/-- What the others do at most. -/
structure Stays (s t : HostTables) : Prop where
  organizations : t.organizations = s.organizations
  networks : t.networks = s.networks
  db : s.db.HostsStay t.db

theorem Stays.refl (s : HostTables) : s.Stays s := ⟨rfl, rfl, .refl _⟩

theorem Stays.trans (h : s.Stays t) (h' : t.Stays u) : s.Stays u :=
  ⟨h'.organizations.trans h.organizations, h'.networks.trans h.networks, h.db.trans h'.db⟩

variable [Plans]

/-- The organization has the limit, and the hosts are lawful. -/
structure LimitedBy (organizationId : Uuid) (limit : Nat) (s : HostTables) : Prop where
  limit : HostHandlers.planLimit s organizationId = some limit
  lawful : s.db.HostsLawful

theorem LimitedBy.stays (h : LimitedBy organizationId limit s) (hstays : s.Stays t) :
    LimitedBy organizationId limit t where
  limit := by
    rw [← h.limit, HostHandlers.planLimit, hstays.organizations, HostHandlers.planLimit]
  lawful := hstays.db.lawful h.lawful

omit [Plans]

/-- What a statement does with hosts and with the discoveries that are answered. -/
structure Effect (limit : Nat) (label : HostStatement) (s t : HostTables) : Prop where
  stays : s.Stays t
  hosts : t.db.hostKeys = s.db.hostKeys ∨ ∃ host counted, label = .save host counted ∧ Db.HostSaved host s.db t.db
  /-- A host is only saved if those that were counted are less than the limit. -/
  counted : ∀ host n, label = .save host (some n) → n < limit
  discovered : t.discovered = s.discovered ∨ ∃ d, t.discovered = s.discovered ++ [d] ∧ d.Accepted

theorem effect_other (hstays : s.Stays t) (hhosts : t.db.hostKeys = s.db.hostKeys)
    (hdiscovered : t.discovered = s.discovered) :
    Effect limit .other s t :=
  ⟨hstays, .inl hhosts, fun _ _ h => (by cases h), .inl hdiscovered⟩

theorem effect_refl : Effect limit .other s s := effect_other (.refl s) rfl rfl

end HostTables

namespace HostHandlers

open HostTables

variable {s t : HostTables} {organizationId : Uuid} {limit : Nat} {α β : Type} {Q : α → HostTables → Prop}
  {E : ApiError → HostTables → Prop}

/-! ## Rules -/

/-- What is asked of a process, whatever the others do. -/
abbrev Does (limit : Nat) (Q : α → HostTables → Prop) (E : ApiError → HostTables → Prop) :
    HostProcess α → HostTables → Prop :=
  Secures Stays (Effect limit) Q E

theorem does_query_bind {f : HostTables → α} {k : α → HostProcess β} {Q : β → HostTables → Prop}
    (h : ∀ t, s.Stays t → Does limit Q E (k (f t)) t) : Does limit Q E (Process.query .other f >>= k) s :=
  Process.secures_bind.mpr (Process.secures_query.mpr fun t ht => ⟨effect_refl, h t ht⟩)

theorem does_statement {label : HostStatement} {q : EStateM ApiError HostTables α}
    (h : ∀ t, s.Stays t →
      wp q (fun a u => Effect limit label t u ∧ Q a u) (fun e u => Effect limit label t u ∧ E e u) t) :
    Does limit Q E (Process.statement label q) s := by
  refine Process.secures_statement.mpr fun t ht => ⟨?_, (h t ht).mono (fun _ _ h => h.2) fun _ _ h => h.2⟩
  exact Program.wp_after.mp ((h t ht).mono (fun _ _ h => h.1) fun _ _ h => h.1)

theorem Does.stays {p : HostProcess α} (h : Does limit Q E p s) :
    Does limit (fun a t => s.Stays t ∧ Q a t) (fun e t => s.Stays t ∧ E e t) p s :=
  Process.Secures.relied Stays.refl Stays.trans Effect.stays h

theorem stays_left {draw : Draw} {db : Db} (h : (draw.supply s.db).HostsStay db) : s.Stays (s.left db) :=
  ⟨rfl, rfl, h.hosts, h.interfaces, fun hl => ⟨(h.lawful ⟨hl.nonnil, hl.references⟩).nonnil,
    (h.lawful ⟨hl.nonnil, hl.references⟩).references⟩⟩

/-- A statement that saves no host. -/
theorem does_inDb {draw : Draw} {p : Store α} (h : ∀ db : Db, db.HostsLawful → wp p (fun _ db' => db.HostsSame db')
    (fun _ db' => db.HostsSame db') db) (hl : s.db.HostsLawful) :
    Does limit (fun _ _ => True) (fun _ _ => True) (Process.statement .other (inDb draw p)) s := by
  refine does_statement fun t ht => wp_inDb.mpr ?_
  have hl := ht.db.lawful hl
  refine (h (draw.supply t.db) ⟨hl.nonnil, hl.references⟩).mono (fun _ db' hsame => ⟨?_, trivial⟩)
    fun _ db' hsame => ⟨?_, trivial⟩
  · exact effect_other (stays_left hsame.stay) hsame.hostKeys rfl
  · exact effect_other (stays_left hsame.stay) hsame.hostKeys rfl

/-! ## Saving a host -/

variable {host : Host} {counted : Option Nat} {draw : Draw}

theorem does_save (hl : s.db.HostsLawful) (hcounted : ∀ n ∈ counted, n < limit) :
    Does limit (fun saved _ => (host.id, host.base.networkId) ∈ s.db.hostKeys → saved.2 = true)
      (fun _ _ => (host.id, host.base.networkId) ∉ s.db.hostKeys) (save host counted draw) s := by
  refine does_statement fun t ht => ?_
  simp only [Program.wp_bind, Program.wp_get, wp_inDb, Program.wp_pure]
  have hl := ht.db.lawful hl
  have hlimit (h : Host) (n : Nat) (hlabel : HostStatement.save host counted = .save h (some n)) : n < limit := by
    cases hlabel
    exact hcounted n rfl
  have hstored (hkey : (host.id, host.base.networkId) ∈ s.db.hostKeys) : (t.db.hosts.get host.id).isSome = true := by
    obtain ⟨r, hr, hid, -⟩ := Db.mem_hostKeys.mp (ht.db.hosts hkey)
    exact Table.get_isSome.mpr ⟨r, hr, hid⟩
  have hlawful : (draw.supply t.db).HostsLawful := ⟨hl.nonnil, hl.references⟩
  refine (wp_createHost hlawful draw.nonnil).mono (fun _ db' hsaved => ?_)
    fun _ db' hrefused => ?_
  · have hstays : t.Stays (t.left db') := stays_left hsaved.stay
    exact ⟨⟨hstays, .inr ⟨host, counted, rfl, hstays.db, hsaved.added⟩, hlimit, .inl rfl⟩, hstored⟩
  · obtain ⟨hsame, hnew⟩ := hrefused
    exact ⟨⟨stays_left hsame.stay, .inl hsame.hostKeys, hlimit, .inl rfl⟩, fun hkey => hnew (ht.db.hosts hkey)⟩

/-- What is found is on the network, and nothing only if no host has one of the interfaces. -/
theorem does_findMatchingHostByInterfaces {networkId : Uuid} {interfaces : List Interface} :
    Does limit (fun found t => (∀ h ∈ found, (h.id, networkId) ∈ t.db.hostKeys) ∧
      (found = none → ∀ k ∈ s.db.hostKeys, k.2 = networkId → ∀ e ∈ s.db.interfaces.rows, e.base.hostId = k.1 →
        interfaces.any (fun incoming => incoming.eq e) = false))
      (fun _ _ => False) (findMatchingHostByInterfaces networkId interfaces) s := by
  unfold findMatchingHostByInterfaces
  split
  · next hempty =>
    refine ⟨fun h hh => (by cases hh), fun _ _ _ _ _ _ _ => ?_⟩
    rw [List.isEmpty_iff.mp hempty]
    rfl
  · refine does_query_bind fun t ht => ?_
    have hmem {k : Uuid × Uuid} (hk : k ∈ s.db.hostKeys) (hnet : k.2 = networkId) :
        ∃ h ∈ hostsOf t.db networkId, h.id = k.1 := by
      obtain ⟨h, hh, hid, hon⟩ := Db.mem_hostKeys.mp (ht.db.hosts hk)
      exact ⟨h, mem_hostsOf.mpr ⟨hh, hon.trans hnet⟩, hid⟩
    split
    · next hempty =>
      refine ⟨fun h hh => (by cases hh), fun _ k hk hnet => ?_⟩
      obtain ⟨h, hh, -⟩ := hmem hk hnet
      rw [List.isEmpty_iff.mp hempty] at hh
      cases hh
    · refine Process.secures_query.mpr fun u hu => ⟨effect_refl, fun h hh => ?_, fun hnone k hk hnet e he hon => ?_⟩
      · obtain ⟨hh, hnet⟩ := mem_hostsOf.mp (List.mem_of_find?_eq_some hh)
        exact hu.db.hosts (Db.mem_hostKeys.mpr ⟨h, hh, rfl, hnet⟩)
      · obtain ⟨h, hh, hid⟩ := hmem hk hnet
        have hno := List.find?_eq_none.mp hnone h hh
        rw [Bool.not_eq_true, List.any_eq_false] at hno
        rw [List.any_eq_false]
        intro i hi heq
        refine hno i hi (List.any_eq_true.mpr ⟨e, ?_, heq⟩)
        exact Db.mem_interfacesOf.mpr ⟨hu.db.interfaces (ht.db.interfaces he), hon.trans hid.symm⟩

/-- A discovery of a host that is known ends with an update. -/
theorem does_createHostRow {conflictBehavior : ConflictBehavior} {request : DiscoveryHostRequest}
    (hl : s.db.HostsLawful) (hcounted : ∀ n ∈ counted, n < limit) :
    Does limit (fun saved _ => conflictBehavior = .upsert →
        Discovered.Known request.host.base.networkId request s.db → saved.2 = true)
      (fun _ _ => conflictBehavior = .upsert → ¬ Discovered.Known request.host.base.networkId request s.db)
      (createHostRow conflictBehavior none counted request draw) s := by
  refine Process.secures_bind.mpr
    (does_findMatchingHostByInterfaces.stays.mono (fun found t ⟨ht, hfound, hnone⟩ => ?_)
    fun _ _ h => h.2.elim)
  have hl := ht.db.lawful hl
  cases found with
  | some existing =>
    have hkey := hfound existing rfl
    cases conflictBehavior with
    | error => exact fun h => by cases h
    | upsert =>
      have hsave : Does limit _ _ (save { request.host with id := existing.id } counted draw) t :=
        does_save hl hcounted
      exact hsave.mono (fun _ _ hstored _ _ => hstored hkey) fun _ _ hnew => absurd hkey hnew
  | none =>
    have hknown (h : Discovered.Known request.host.base.networkId request s.db) :
        (request.host.id, request.host.base.networkId) ∈ t.db.hostKeys := by
      obtain ⟨k, hk, hnet, hid | ⟨e, he, hon, hany⟩⟩ := h
      · rw [← hid, ← hnet]
        exact ht.db.hosts hk
      · rw [hnone rfl k hk hnet e he hon] at hany
        cases hany
    have hsave : Does limit (fun saved _ => conflictBehavior = .upsert →
        Discovered.Known request.host.base.networkId request s.db → saved.2 = true)
        (fun _ _ => conflictBehavior = .upsert → ¬ Discovered.Known request.host.base.networkId request s.db)
        (save request.host counted draw) t :=
      (does_save hl hcounted).mono (fun _ _ hstored _ h => hstored (hknown h)) fun _ _ hnew _ h => hnew (hknown h)
    cases conflictBehavior with
    | error => exact hsave
    | upsert => exact hsave

/-! ## Interfaces -/

theorem does_finds {i : Interface} {lookups : List Lookup} :
    Does limit (fun _ _ => True) (fun _ _ => True) (finds i lookups) s := by
  induction lookups generalizing s with
  | nil => trivial
  | cons lookup lookups ih =>
    refine does_query_bind fun t _ => ?_
    split
    · trivial
    · exact ih

theorem hostsSame_createInterface {i : Interface} {db : Db} :
    wp (CrudService.create i) (fun _ db' => db.HostsSame db') (fun _ db' => db.HostsSame db') db := by
  have main (n : Interface) (db' : Db) (h : db.HostsSame db') :
      wp (Storable.create n) (fun _ db' => db.HostsSame db') (fun _ db' => db.HostsSame db') db' := by
    refine Storable.wp_create (fun _ => h) fun t hins _ => ⟨h.hosts, fun e he => ?_, h.networks, h.snmpCredentials⟩
    have hins : db'.interfaces.insert n = some t := hins
    change e ∈ t.rows
    rw [(Table.insert_eq_some hins).1]
    exact List.mem_append_left _ (h.interfaces he)
  rw [CrudService.create, Program.wp_bind, Storable.wp_orNew]
  exact ⟨fun _ => main _ _ ⟨rfl, fun _ h => h, rfl, rfl⟩, fun _ => main _ _ ⟨rfl, fun _ h => h, rfl, rfl⟩⟩

theorem does_saveInterface {conflictBehavior : ConflictBehavior} {i : Interface} (hl : s.db.HostsLawful) :
    Does limit (fun _ _ => True) (fun _ _ => True) (saveInterface conflictBehavior host i draw) s := by
  refine Process.secures_bind.mpr (does_finds.stays.mono (fun found t ht => ?_) fun _ _ _ => trivial)
  cases found with
  | true => trivial
  | false =>
    have hcreate : Does limit (fun _ _ => True) (fun _ _ => True)
        (Process.statement .other (inDb draw (CrudService.create { i with base.hostId := host.id }))) t :=
      does_inDb (fun _ _ => hostsSame_createInterface) (ht.1.db.lawful hl)
    exact Process.secures_bind.mpr (hcreate.mono (fun _ _ _ => trivial) fun _ _ h => h)

theorem does_saveInterfaces {conflictBehavior : ConflictBehavior} {interfaces : List Interface} {draws : Nat → Draw}
    (hl : s.db.HostsLawful) :
    Does limit (fun _ t => t.db.HostsLawful) (fun _ _ => True)
        (saveInterfaces conflictBehavior host interfaces draws) s :=
  Process.secures_forM (fun _ _ _ hl => (does_saveInterface hl).stays.mono (fun _ _ ht => ht.1.db.lawful hl)
    fun _ _ _ => trivial) hl

/-! ## Discoveries -/

theorem does_discoverHost {request : DiscoveryHostRequest} {draws : Nat → Draw} (hl : s.db.HostsLawful) :
    Does limit (fun _ _ => True) (fun _ _ => True) (discoverHost none request draws) s := by
  refine does_query_bind fun t ht => ?_
  have hl := ht.db.lawful hl
  -- the answer to a discovery is noted, whatever comes after it
  have hanswer {outcome : Except ApiError (Host × Bool)} {u : HostTables}
      {rest : HostProcess Unit} (hu : t.Stays u)
      (haccepted : Discovered.Known request.host.base.networkId request t.db → ∃ host, outcome = .ok (host, true))
      (hrest : ∀ v, v.db.HostsLawful → Does limit (fun _ _ => True) (fun _ _ => True) rest v) :
      Does limit (fun _ _ => True) (fun _ _ => True) (do
        Process.statement .other (modify fun s =>
          { s with discovered := s.discovered ++ [{ request, before := t.db, outcome }] })
        rest) u := by
    refine Process.secures_bind.mpr (does_statement fun v hv => ?_)
    rw [Program.wp_modify]
    refine ⟨⟨⟨rfl, rfl, .refl _⟩, .inl rfl, fun _ _ h => (by cases h), .inr ⟨_, rfl, haccepted⟩⟩, ?_⟩
    exact hrest _ (hv.db.lawful (hu.db.lawful hl))
  have hrow : Does limit _ _ (createHostRow .upsert none none request (draws 0)) t :=
    (does_createHostRow hl fun _ h => by cases h).stays
  refine Process.secures_bind.mpr
    (Process.secures_attempt.mpr (hrow.mono (fun saved u hsaved => ?_) fun e u hfailed => ?_))
  · obtain ⟨hu, hknown⟩ := hsaved
    refine hanswer hu (fun h => ⟨saved.1, by rw [← hknown rfl h]⟩) fun v hv => ?_
    exact Process.Secures.mono (does_saveInterfaces hv) (fun _ _ _ => trivial) fun _ _ h => h
  · exact hanswer hfailed.1 (fun h => absurd h (hfailed.2 rfl)) fun _ _ => trivial

theorem does_processDiscoveryEntities {hosts : List (DiscoveryHostRequest × (Nat → Draw))} (hl : s.db.HostsLawful) :
    Does limit (fun _ _ => True) (fun _ _ => True) (processDiscoveryEntities none hosts) s := by
  refine (Process.secures_forM (I := fun t => t.db.HostsLawful) (fun host _ t hl => ?_) hl).mono
    (fun _ _ _ => trivial)
    fun _ _ h => h
  refine Process.secures_bind.mpr (Process.secures_attempt.mpr ((does_discoverHost hl).stays.mono ?_ ?_))
  · exact fun _ _ ht => ht.1.db.lawful hl
  · exact fun _ _ ht => ht.1.db.lawful hl

theorem does_authorized {p : PermissionRequirement} {entity : AuthenticatedEntity} :
    Does limit (fun _ _ => True) (fun _ _ => True) (authorized p entity) s := by
  unfold authorized
  cases p.authorized entity <;> trivial

theorem does_validateNetworkAccess {networkId : Uuid} {networkIds : List Uuid} :
    Does limit (fun _ _ => True) (fun _ _ => True) (validateNetworkAccess networkId networkIds) s := by
  unfold validateNetworkAccess
  split <;> trivial

/-- One process after the other. -/
theorem Does.seq {p : HostProcess α} {f : α → HostProcess β} {Q : α → Prop} (hl : s.db.HostsLawful)
    (hp : Does limit (fun a _ => Q a) (fun _ _ => True) p s)
    (hf : ∀ a t, s.Stays t → t.db.HostsLawful → Q a → Does limit (fun _ _ => True) (fun _ _ => True) (f a) t) :
    Does limit (fun _ _ => True) (fun _ _ => True) (p >>= f) s :=
  Process.secures_bind.mpr (hp.stays.mono (fun a t ⟨ht, hQ⟩ => hf a t ht (ht.db.lawful hl) hQ) fun _ _ _ => trivial)

theorem does_createHostLegacy {entity : AuthenticatedEntity} {request : DiscoveryHostRequest} {draws : Nat → Draw}
    (hl : s.db.HostsLawful) :
    Does limit (fun _ _ => True) (fun _ _ => True) (createHostLegacy entity request draws) s := by
  refine .seq (Q := fun _ => True) hl does_authorized fun _ t _ hl _ => ?_
  cases entity with
  | daemon => exact .seq (Q := fun _ => True) hl does_validateNetworkAccess fun _ _ _ hl _ => does_discoverHost hl
  | user | apiKey | externalService | system | anonymous => trivial

theorem does_createHostDiscovery {entity : AuthenticatedEntity} {request : DiscoveryHostRequest} {draws : Nat → Draw}
    (hl : s.db.HostsLawful) :
    Does limit (fun _ _ => True) (fun _ _ => True) (createHostDiscovery entity request draws) s := by
  refine .seq (Q := fun _ => True) hl does_authorized fun _ t _ hl _ => ?_
  split
  · trivial
  · split
    · trivial
    · exact does_processDiscoveryEntities hl

/-! ## Creating a host by hand -/

theorem does_checkSubnet {networkId : Uuid} {i : InterfaceInput} :
    Does limit (fun _ _ => True) (fun _ _ => True) (checkSubnet networkId i) s := by
  refine does_query_bind fun t _ => ?_
  split
  · trivial
  · split <;> trivial

theorem hostsSame_withChildren {request : CreateHostRequest} {db : Db} :
    wp request.withChildren (fun _ db' => db.HostsSame db') (fun _ db' => db.HostsSame db') db := by
  have hpositioned {α : Type} [PositionedInput α] {inputs : List α} {name : String} {db' : Db}
    (h : db.HostsSame db') :
      wp (CreateHostRequest.positioned inputs name) (fun _ db' => db.HostsSame db')
          (fun _ db' => db.HostsSame db') db' := by
    unfold CreateHostRequest.positioned
    split <;> exact h
  have hdrawn {db' : Db} {drawn : List Uuid} (h : db.HostsSame db') : db.HostsSame { db' with drawn } :=
    ⟨h.hosts, h.interfaces, h.networks, h.snmpCredentials⟩
  unfold CreateHostRequest.withChildren
  rw [Program.wp_bind]
  refine (hpositioned ⟨rfl, fun _ h => h, rfl, rfl⟩).mono (fun _ db₁ h₁ => ?_) fun _ _ h => h
  rw [Program.wp_bind]
  refine (hpositioned h₁).mono (fun _ db₂ h₂ => ?_) fun _ _ h => h
  simp only [Program.wp_bind, Storable.wp_new, Program.wp_get, Program.wp_pure]
  refine Program.wp_mapM_all (I := fun _ _ _ db' => db.HostsSame db') (fun _ _ _ _ db' h => ?_) (hdrawn h₂)
  simp only [IfEntryInput.intoIfEntry, Storable.wp_new]
  exact hdrawn h

variable [Plans]

/-- The hosts of a user are counted only if they are less than the limit. -/
theorem does_checkPlan {entity : AuthenticatedEntity} (hI : LimitedBy organizationId limit s)
    (hentity : ∀ id ∈ entity.organizationId, id = organizationId) :
    Does limit (fun counted _ => ∀ n ∈ counted, n < limit) (fun _ _ => True) (checkPlan entity) s := by
  unfold checkPlan
  cases horganization : entity.organizationId with
  | none => exact fun _ h => by cases h
  | some id =>
    cases hentity id horganization
    refine does_query_bind fun t ht => ?_
    rw [(hI.stays ht).limit]
    refine does_query_bind fun u _ => ?_
    split
    · trivial
    · next hfew =>
      intro n hn
      cases hn
      exact Nat.lt_of_not_le hfew

theorem does_createHost {entity : AuthenticatedEntity} {request : CreateHostRequest} {draws : Nat → Draw}
    (hI : LimitedBy organizationId limit s) (hentity : ∀ id ∈ entity.organizationId, id = organizationId) :
    Does limit (fun _ _ => True) (fun _ _ => True) (createHost entity request draws) s := by
  refine .seq (Q := fun _ => True) hI.lawful does_authorized fun _ t ht hl _ => ?_
  have hI := hI.stays ht
  refine .seq (Q := fun _ => True) hl does_validateNetworkAccess fun _ t ht hl _ => ?_
  have hI := hI.stays ht
  refine does_query_bind fun t ht => ?_
  have hI := hI.stays ht
  split
  · trivial
  · refine .seq hI.lawful (does_checkPlan hI hentity) fun counted t _ hl hcounted => ?_
    have hsubnets : Does limit (fun _ _ => True) (fun _ _ => True)
        (request.interfaces.forM (checkSubnet request.networkId)) t :=
      Process.secures_forM (fun _ _ _ _ => does_checkSubnet) trivial
    refine .seq (Q := fun _ => True) hl hsubnets fun _ t _ hl _ => ?_
    refine .seq (Q := fun _ => True) hl (does_inDb (fun _ _ => hostsSame_withChildren) hl) fun host t _ hl _ => ?_
    have hrow : Does limit (fun _ _ => True) (fun _ _ => True) (createHostRow .error none counted host (draws 1)) t :=
      (does_createHostRow hl hcounted).mono (fun _ _ _ => trivial) fun _ _ _ => trivial
    refine .seq (Q := fun _ => True) hl hrow fun created t _ hl _ => ?_
    exact (does_saveInterfaces hl).mono (fun _ _ _ => trivial) fun _ _ h => h

theorem does_handle {r : HostRequest} (hI : LimitedBy organizationId limit s) (hr : r.Within organizationId) :
    Does limit (fun _ _ => True) (fun _ _ => True) (handle r) s := by
  cases r with
  | create entity request draws => exact does_createHost hI hr
  | createLegacy entity request draws => exact does_createHostLegacy hI.lawful
  | discovery entity request draws => exact does_createHostDiscovery hI.lawful
  | polled hosts => exact does_processDiscoveryEntities hI.lawful

end HostHandlers

end Netvisor
