/-
The neighbors of interface table entries, through requests, discoveries and
the resolution of what devices heard of each other.

The checks are made by the endpoints alone. A discovery writes the row as it
was sent, which has no neighbor and no interface, and the resolution writes
whatever the lookups find; and an update that moves an entry to another host is
not checked against the entries that have it for a neighbor.
-/
import Netvisor.Hosts.Resolution
import Netvisor.IfEntries.Handlers
import Netvisor.Lib.Transition
import Netvisor.StorageFacts

namespace Netvisor

open Program (wp after)
open Transition (Every Along)

namespace Neighbors

/-- The network of a stored host. -/
def networkOf (db : Db) (hostId : Uuid) : Option Uuid := (db.hosts.get hostId).map (·.base.networkId)

/-- The neighbor is a stored host or entry of the network, and of another host. -/
def Elsewhere (db : Db) (e : IfEntry) : Neighbor → Prop
  | .host id => networkOf db id = some e.base.networkId ∧ id ≠ e.base.hostId
  | .ifEntry id => ∃ x ∈ db.ifEntries.get id, x.base.networkId = e.base.networkId ∧ x.base.hostId ≠ e.base.hostId

instance (db : Db) (e : IfEntry) (neighbor : Neighbor) : Decidable (Elsewhere db e neighbor) := by
  cases neighbor <;> unfold Elsewhere <;> infer_instance

/-- Every neighbor of an entry is elsewhere. -/
def Sound (db : Db) : Prop := ∀ e ∈ db.ifEntries.rows, ∀ neighbor ∈ e.base.neighbor, Elsewhere db e neighbor

instance (db : Db) : Decidable (Sound db) := inferInstanceAs (Decidable (∀ _ ∈ _, ∀ _ ∈ _, _))

/-- What a daemon sends for an entry that is as it was: no interface and no neighbor, and an id and a time of its own. -/
def resent (stamp : IfEntry → Uuid × DateTime) (e : IfEntry) : IfEntry where
  id := (stamp e).1
  createdAt := (stamp e).2
  updatedAt := (stamp e).2
  base := { e.base with interfaceId := none, neighbor := none }

inductive Action
  | create (networkIds : List Uuid) (entry : IfEntry)
  | update (networkIds : List Uuid) (id : Uuid) (entry : IfEntry)
  /-- An entry is discovered on a host. -/
  | upsert (hostId : Uuid) (entry : IfEntry)
  /-- The entries of a host that was discovered are linked to its interfaces. -/
  | link (hostId : Uuid)
  | resolve (networkId : Uuid)
  /-- A host is discovered that is as it was, its entries being sent in some order. -/
  | rediscover (hostId : Uuid) (entries : List IfEntry) (stamp : IfEntry → Uuid × DateTime)

/-- Save the entries of a discovery, and link them. -/
def discover (host : Host) (ifEntries : List IfEntry) : Store Unit := do
  let _ ← ifEntries.mapM (HostService.saveIfEntry host)
  HostService.linkIfEntriesToInterfaces host.id

variable (parseMac : String → Option MacAddress)

def step (db : Db) : Action → Option Db
  | .create networkIds entry => some (after (IfEntryHandlers.createIfEntry networkIds entry) db)
  | .update networkIds id entry => some (after (IfEntryHandlers.updateIfEntry networkIds id entry) db)
  | .upsert hostId entry => (db.hosts.get hostId).map fun host => after (HostService.saveIfEntry host entry) db
  | .link hostId => some (after (HostService.linkIfEntriesToInterfaces hostId) db)
  | .resolve networkId => some (after (HostService.resolveLldpLinks parseMac networkId) db)
  | .rediscover hostId entries stamp =>
    match db.hosts.get hostId, entries.isPerm (db.ifEntriesOf hostId) with
    | some host, true => some (after (discover host (entries.map (resent stamp))) db)
    | _, _ => none

/-- What a discovery keeps of a device that is as it was: the neighbors and the interfaces of its entries. -/
def Keeps (db : Db) : Action → Db → Prop
  | .rediscover hostId _ _, t => ∀ e ∈ db.ifEntries.rows, e.base.hostId = hostId →
    ∃ e' ∈ t.ifEntries.get e.id, e'.base.neighbor = e.base.neighbor ∧ e'.base.interfaceId = e.base.interfaceId
  | _, _ => True

/-- Neighbors stay sound, and are kept. -/
def Right (db : Db) (a : Action) (t : Db) : Prop := Sound t ∧ Keeps db a t

/-- The entry is written: the constraints and the references of the table allow it. -/
def Allowed (db : Db) (row : IfEntry) : Prop := Storable.broken db row = none ∧ Storable.references db row = true

/-- The entry as it is on the host. -/
def onHost (host : Host) (entry : IfEntry) : IfEntry :=
  { entry with base.hostId := host.id, base.networkId := host.base.networkId }

/-- The row that an entry is added as, under an id of its own or a new one. -/
def created (db : Db) (entry : IfEntry) : IfEntry :=
  if entry.id = Uuid.nil then
    { entry with id := db.drawn.headD Uuid.nil, createdAt := db.now, updatedAt := db.now }
  else entry

/-- The row that a discovered entry is written as. -/
def upserted (db : Db) (host : Host) (entry : IfEntry) : IfEntry :=
  match (db.ifEntriesOf host.id).find? fun e => e.base.ifIndex == entry.base.ifIndex with
  | some existing => { onHost host entry with id := existing.id, createdAt := existing.createdAt }
  | none => created db (onHost host entry)

/-- The row may be written: the table allows it, and its id is new or that of the entry with the index. -/
def Writable (db : Db) (host : Host) (entry : IfEntry) : Prop :=
  Allowed db (upserted db host entry) ∧ ∀ stored ∈ db.ifEntries.get (upserted db host entry).id,
    stored.base.hostId = host.id ∧ stored.base.ifIndex = entry.base.ifIndex

/-- The host of the port that a neighbor names, given the host it is on: that of the entry an address leads to, or the same. -/
def portHost (db : Db) (hostId : Uuid) : Option LldpPortId → Uuid
  | some (.networkAddress ip) =>
    (((LldpResolver.findIfEntryByIp db ip hostId).bind db.ifEntries.get).map (·.base.hostId)).getD hostId
  | _ => hostId

/-- The host that is found by what an entry heard of its neighbor. -/
def heard (db : Db) (networkId : Uuid) (e : IfEntry) : Option Uuid :=
  match e.base.lldpChassisId, e.base.cdpDeviceId with
  | some chassisId, _ =>
    (chassisId.resolveHostId parseMac db networkId).map fun hostId => portHost db hostId e.base.lldpPortId
  | none, some deviceId => LldpResolver.findHostByChassisId db deviceId networkId
  | none, none => none

/-- What keeps neighbors sound. -/
def Heeds (db : Db) : Action → Prop
  | .create .. | .link _ => True
  | .update networkIds id entry => ∀ existing ∈ db.ifEntries.get id,
    IfEntryHandlers.validateIfEntry db entry = .ok () → IfEntryHandlers.validateEntity entry = none →
    existing.base.networkId ∈ networkIds → entry.base.networkId ∈ networkIds →
    Allowed db (IfEntryHandlers.preserveImmutableFields entry existing) →
    entry.base.neighbor ≠ some (.ifEntry id) ∧ ∀ e ∈ db.ifEntries.rows, e.id ≠ id →
      e.base.neighbor = some (.ifEntry id) →
      entry.base.networkId = e.base.networkId ∧ entry.base.hostId ≠ e.base.hostId
  | .upsert hostId entry => ∀ host ∈ db.hosts.get hostId, Writable db host entry →
    ∀ neighbor ∈ entry.base.neighbor, Elsewhere db (upserted db host entry) neighbor
  | .resolve networkId => ∀ e ∈ HostService.unresolvedEntries db networkId, ∀ hostId ∈ heard parseMac db networkId e,
    networkOf db hostId = some networkId ∧ hostId ≠ e.base.hostId
  | .rediscover hostId _ _ => ∀ e ∈ db.ifEntries.rows, e.base.hostId = hostId →
    e.base.neighbor = none ∧
      e.base.interfaceId = (HostService.interfaceByMac (db.interfacesOf hostId) e).map (·.id)

/-! ## Statements -/

/-- What holds of the entries besides: their references and the unique constraint do, and an entry is in the
network of its host. -/
structure Inv (db : Db) : Prop where
  references : ∀ e ∈ db.ifEntries.rows, Storable.references db e = true
  unique : ∀ e ∈ db.ifEntries.rows, ∀ x ∈ db.ifEntries.rows,
    x.base.hostId = e.base.hostId → x.base.ifIndex = e.base.ifIndex → x.id = e.id
  interfaces : ∀ i ∈ db.interfaces.rows, db.hasHost i.base.hostId = true
  placed : ∀ e ∈ db.ifEntries.rows, networkOf db e.base.hostId = some e.base.networkId
  sound : Sound db

variable {db t : Db} {row e : IfEntry} {id : Uuid}

theorem broken_eq_none : Storable.broken db row = none ↔ ∀ x ∈ db.ifEntries.rows, x.id ≠ row.id →
    x.base.hostId = row.base.hostId → x.base.ifIndex ≠ row.base.ifIndex := by
  have hbroken : Storable.broken db row =
      if db.ifEntries.rows.any (fun x =>
        x.id != row.id && (x.base.hostId == row.base.hostId && x.base.ifIndex == row.base.ifIndex))
      then some .ifEntriesHostIndex else none := rfl
  rw [hbroken, ite_eq_right_iff]
  simp only [reduceCtorEq, imp_false, Bool.not_eq_true, List.any_eq_false, Bool.and_eq_true, bne_iff_ne, beq_iff_eq,
    not_and, ne_eq]

theorem references_iff : Storable.references db row = true ↔
    db.hasNetwork row.base.networkId = true ∧ db.hasHost row.base.hostId = true ∧
      (∀ i ∈ row.base.interfaceId, db.hasInterface i = true) ∧
      (∀ id, row.base.neighbor = some (.host id) → db.hasHost id = true) ∧
      ∀ id, row.base.neighbor = some (.ifEntry id) → (db.ifEntries.get id).isSome = true := by
  simp only [Storable.references, Bool.and_eq_true, and_assoc]
  refine and_congr_right fun _ => and_congr_right fun _ => and_congr ?_ ?_
  · cases row.base.interfaceId <;> simp
  · cases hneighbor : row.base.neighbor with
    | none => simp
    | some neighbor => cases neighbor <;> simp

theorem Inv.allowed (h : Inv db) (he : e ∈ db.ifEntries.rows) : Allowed db e :=
  ⟨broken_eq_none.mpr fun x hx hne hhost hindex => hne (h.unique e he x hx hhost hindex), h.references e he⟩

/-- Updating an entry replaces the row, if there is one and the table allows the new one. -/
theorem wp_updateEntry {Q : IfEntry → Db → Prop} {E : Error → Db → Prop}
    (hE : ¬ ((db.ifEntries.get row.id).isSome = true ∧ Allowed db row) → ∀ e, E e db)
    (hQ : (db.ifEntries.get row.id).isSome = true → Allowed db row →
      Q row { db with ifEntries := db.ifEntries.update row }) :
          wp (CrudService.update IfEntry.display row) Q E db := by
  simp only [CrudService.update, Program.wp_bind, Storable.wp_getById]
  cases hget : Storable.table (α := IfEntry) db |>.get (Storable.id row) with
  | none =>
    have hmissing : db.ifEntries.get row.id = none := hget
    refine hE (fun h => ?_) _
    have hstored := h.1
    rw [hmissing] at hstored
    cases hstored
  | some stored =>
    have hstored : (db.ifEntries.get row.id).isSome = true := by
      have hget : db.ifEntries.get row.id = some stored := hget
      rw [hget, Option.isSome_some]
    simp only [Storable.update, Program.wp_bind, Program.wp_get]
    rw [hget]
    simp only [Option.isNone_some, Bool.false_eq_true, if_false]
    cases hbroken : Storable.broken db row with
    | some c =>
      refine hE (fun h => ?_) _
      rw [h.2.1] at hbroken
      cases hbroken
    | none =>
      cases href : Storable.references db row with
      | false =>
        refine hE (fun h => ?_) _
        rw [h.2.2] at href
        cases href
      | true => exact hQ hstored ⟨hbroken, href⟩

/-- It does not fail where the table allows the row. -/
theorem updateEntry_allowed (hget : (db.ifEntries.get row.id).isSome = true) (hallowed : Allowed db row) :
    CrudService.update IfEntry.display row db = .ok row { db with ifEntries := db.ifEntries.update row } := by
  obtain ⟨stored, hstored⟩ := Option.isSome_iff_exists.mp hget
  have hbyId : Storable.getById (α := IfEntry) (Storable.id row) db = .ok (some stored) db :=
    congrArg (fun x => EStateM.Result.ok x db) hstored
  have hupdate : Storable.update row db = .ok row { db with ifEntries := db.ifEntries.update row } :=
    Storable.update_eq_ok hget hallowed.1 hallowed.2
  simp only [CrudService.update, bind, EStateM.bind, hbyId]
  exact hupdate

theorem created_base (db : Db) (entry : IfEntry) : (created db entry).base = entry.base := by
  unfold created
  split <;> rfl

/-- Adding an entry adds the row, if its id is free and the table allows it. -/
theorem wp_createEntry {Q : IfEntry → Db → Prop} {E : Error → Db → Prop}
    (hE : ¬ (db.ifEntries.get (created db e).id = none ∧ Allowed db (created db e)) →
      ∀ drawn e, E e { db with drawn })
    (hQ : ∀ ifEntries drawn, db.ifEntries.insert (created db e) = some ifEntries → Allowed db (created db e) →
      Q (created db e) { db with ifEntries, drawn }) : wp (CrudService.create e) Q E db := by
  -- the statement itself, wherever the id is from
  have hcreate (drawn : List Uuid) : wp (Storable.create (created db e)) Q E { db with drawn } := by
    simp only [Storable.create, Program.wp_bind, Program.wp_get]
    split
    · next hinsert =>
      refine hE (fun h => ?_) drawn _
      obtain ⟨x, hx, hid⟩ := Table.insert_eq_none.mp hinsert
      exact Table.get_eq_none.mp h.1 x hx hid
    · next hbroken =>
      refine hE (fun h => ?_) drawn _
      have hnone : Storable.broken { db with drawn } (created db e) = none := h.2.1
      rw [hnone] at hbroken
      cases hbroken
    · next ifEntries hinsert hbroken =>
      split
      · next href => exact hQ ifEntries drawn hinsert ⟨hbroken, href⟩
      · next hdangling => exact hE (fun h => hdangling h.2.2) drawn _
  simp only [CrudService.create, Program.wp_bind, Storable.wp_orNew]
  constructor
  · intro hnil
    have hrow : created db e = { e with id := db.drawn.headD Uuid.nil, createdAt := db.now, updatedAt := db.now } :=
      if_pos hnil
    have hwp := hcreate db.drawn.tail
    rw [hrow] at hwp
    exact hwp
  · intro hid
    have hrow : created db e = e := if_neg hid
    have hwp := hcreate db.drawn
    rw [hrow] at hwp
    exact hwp

/-! ## Sound tables -/

/-- What is elsewhere stays so, as long as hosts and the places of entries stay. -/
theorem elsewhere_congr {e' : IfEntry} {neighbor : Neighbor} (hhosts : t.hosts = db.hosts)
    (hnetwork : e'.base.networkId = e.base.networkId) (hhost : e'.base.hostId = e.base.hostId)
    (hplace : ∀ id, neighbor = .ifEntry id → (t.ifEntries.get id).map (fun x => (x.base.networkId, x.base.hostId)) =
      (db.ifEntries.get id).map fun x => (x.base.networkId, x.base.hostId)) :
    Elsewhere t e' neighbor ↔ Elsewhere db e neighbor := by
  cases neighbor with
  | host id => rw [Elsewhere, Elsewhere, networkOf, networkOf, hhosts, hnetwork, hhost]
  | ifEntry id =>
    have hplace := hplace id rfl
    simp only [Elsewhere, hnetwork, hhost]
    cases hnew : t.ifEntries.get id with
    | none =>
      rw [hnew, Option.map_none, eq_comm, Option.map_eq_none_iff] at hplace
      rw [hplace]
    | some x =>
      cases hold : db.ifEntries.get id with
      | none =>
        rw [hnew, hold] at hplace
        cases hplace
      | some y =>
        rw [hnew, hold, Option.map_some, Option.map_some, Option.some.injEq, Prod.mk.injEq] at hplace
        simp only [Option.mem_def, Option.some.injEq, exists_eq_left', hplace.1, hplace.2]

/-- The neighbor of a row is elsewhere, and so is the row where it is the neighbor of another. -/
structure Fits (db : Db) (row : IfEntry) : Prop where
  neighbor : ∀ neighbor ∈ row.base.neighbor, neighbor ≠ .ifEntry row.id ∧ Elsewhere db row neighbor
  others : ∀ e ∈ db.ifEntries.rows, e.id ≠ row.id → e.base.neighbor = some (.ifEntry row.id) →
    row.base.networkId = e.base.networkId ∧ row.base.hostId ≠ e.base.hostId

/-- Replacing a row leaves the table sound exactly when the new row fits. -/
theorem sound_update_iff (h : Sound db) (hget : (db.ifEntries.get row.id).isSome = true) :
    Sound { db with ifEntries := db.ifEntries.update row } ↔ Fits db row := by
  obtain ⟨stored, hstored⟩ := Option.isSome_iff_exists.mp hget
  have hrow : row ∈ (db.ifEntries.update row).rows :=
    Table.mem_update.mpr (.inl ⟨rfl, stored, Table.get_eq_some.mp hstored⟩)
  have hself (e : IfEntry) : Elsewhere { db with ifEntries := db.ifEntries.update row } e (.ifEntry row.id) ↔
      row.base.networkId = e.base.networkId ∧ row.base.hostId ≠ e.base.hostId := by
    simp only [Elsewhere, Table.get_update_self hstored rfl, Option.mem_def, Option.some.injEq, exists_eq_left']
  have hother (e : IfEntry) (neighbor : Neighbor) (hne : neighbor ≠ .ifEntry row.id) :
      Elsewhere { db with ifEntries := db.ifEntries.update row } e neighbor ↔ Elsewhere db e neighbor := by
    refine elsewhere_congr rfl rfl rfl fun id hid => ?_
    rw [Table.get_update, if_neg]
    rintro rfl
    exact hne hid
  constructor
  · intro hsound
    refine ⟨fun neighbor hneighbor => ?_, fun e he hid hneighbor => ?_⟩
    · have helse := hsound row hrow neighbor hneighbor
      have hne : neighbor ≠ .ifEntry row.id := by
        rintro rfl
        exact ((hself row).mp helse).2 rfl
      exact ⟨hne, (hother row neighbor hne).mp helse⟩
    · have he' : e ∈ (db.ifEntries.update row).rows := (Table.mem_update_of_ne hid).mpr he
      exact (hself e).mp (hsound e he' _ hneighbor)
  · intro hfits e he neighbor hneighbor
    rcases Table.mem_update.mp he with ⟨rfl, -⟩ | ⟨he, hid⟩
    · obtain ⟨hne, helse⟩ := hfits.neighbor neighbor hneighbor
      exact (hother e neighbor hne).mpr helse
    · by_cases hne : neighbor = .ifEntry row.id
      · subst hne
        exact (hself e).mpr (hfits.others e he hid hneighbor)
      · exact (hother e neighbor hne).mpr (h e he neighbor hneighbor)

/-- No entry refers to one that is not stored. -/
theorem Inv.not_referred (h : Inv db) (hget : db.ifEntries.get id = none) (he : e ∈ db.ifEntries.rows) :
    e.base.neighbor ≠ some (.ifEntry id) := by
  intro hneighbor
  have hstored := (references_iff.mp (h.references e he)).2.2.2.2 id hneighbor
  rw [hget] at hstored
  cases hstored

/-- Adding a row leaves the table sound exactly when its neighbor is elsewhere. -/
theorem sound_insert_iff (h : Inv db) {ifEntries : Table IfEntry IfEntry.id} {drawn : List Uuid}
    (hinsert : db.ifEntries.insert row = some ifEntries) (hallowed : Allowed db row) :
    Sound { db with ifEntries, drawn } ↔ ∀ neighbor ∈ row.base.neighbor, Elsewhere db row neighbor := by
  have hfree : db.ifEntries.get row.id = none := Table.get_eq_none.mpr (Table.insert_eq_some hinsert).2
  have hother (e : IfEntry) (neighbor : Neighbor) (hne : neighbor ≠ .ifEntry row.id) :
      Elsewhere { db with ifEntries, drawn } e neighbor ↔ Elsewhere db e neighbor := by
    refine elsewhere_congr rfl rfl rfl fun id hid => ?_
    rw [Table.get_insert hinsert, if_neg]
    rintro rfl
    exact hne hid
  have hne {e : IfEntry} (he : e = row ∨ e ∈ db.ifEntries.rows) {neighbor : Neighbor}
    (hneighbor : neighbor ∈ e.base.neighbor) :
      neighbor ≠ .ifEntry row.id := by
    rintro rfl
    rcases he with rfl | he
    · have hstored := (references_iff.mp hallowed.2).2.2.2.2 e.id hneighbor
      rw [hfree] at hstored
      cases hstored
    · exact h.not_referred hfree he hneighbor
  constructor
  · intro hsound neighbor hneighbor
    have hrow : row ∈ ifEntries.rows := by
      rw [(Table.insert_eq_some hinsert).1]
      exact List.mem_append_right _ (List.mem_singleton_self _)
    exact (hother row neighbor (hne (.inl rfl) hneighbor)).mp (hsound row hrow neighbor hneighbor)
  · intro helse e he neighbor hneighbor
    have he : e ∈ ifEntries.rows := he
    rw [(Table.insert_eq_some hinsert).1, List.mem_append, List.mem_singleton] at he
    rw [hother e neighbor (hne he.symm hneighbor)]
    rcases he with he | rfl
    · exact h.sound e he neighbor hneighbor
    · exact helse neighbor hneighbor

/-- References are to what is stored, so they hold wherever more is. -/
theorem references_mono (db : Db) (hnetworks : t.networks = db.networks) (hhosts : t.hosts = db.hosts)
    (hinterfaces : t.interfaces = db.interfaces)
    (hentries : ∀ id, (db.ifEntries.get id).isSome = true → (t.ifEntries.get id).isSome = true)
    (h : Storable.references db e = true) : Storable.references t e = true := by
  obtain ⟨hnetwork, hhost, hinterface, hneighborHost, hneighbor⟩ := references_iff.mp h
  refine references_iff.mpr ⟨?_, ?_, fun i hi => ?_, fun id hid => ?_, fun id hid => hentries id (hneighbor id hid)⟩
  · rw [Db.hasNetwork, hnetworks]
    exact hnetwork
  · rw [Db.hasHost, hhosts]
    exact hhost
  · rw [Db.hasInterface, hinterfaces]
    exact hinterface i hi
  · rw [Db.hasHost, hhosts]
    exact hneighborHost id hid

theorem Inv.update (h : Inv db) (hget : (db.ifEntries.get row.id).isSome = true) (hallowed : Allowed db row)
    (hplaced : networkOf db row.base.hostId = some row.base.networkId) (hfits : Fits db row) :
    Inv { db with ifEntries := db.ifEntries.update row } := by
  have hmem (e : IfEntry) (he : e ∈ (db.ifEntries.update row).rows) :
      e = row ∨ e ∈ db.ifEntries.rows ∧ e.id ≠ row.id :=
    (Table.mem_update.mp he).imp And.left id
  have hunique := broken_eq_none.mp hallowed.1
  refine ⟨fun e he => references_mono db rfl rfl rfl (fun id hid => ?_) ?_, fun e he x hx hhost hindex => ?_,
    h.interfaces, fun e he => ?_, (sound_update_iff h.sound hget).mpr hfits⟩
  · rw [Table.get_update]
    split
    · rw [Option.isSome_map]
      exact hid
    · exact hid
  · rcases hmem e he with rfl | ⟨he, -⟩
    · exact hallowed.2
    · exact h.references e he
  · rcases hmem e he with rfl | ⟨hold, hid⟩ <;> rcases hmem x hx with rfl | ⟨hold', hid'⟩
    · rfl
    · exact absurd hindex (hunique x hold' hid' hhost)
    · exact absurd hindex.symm (hunique e hold hid hhost.symm)
    · exact h.unique e hold x hold' hhost hindex
  · rcases hmem e he with rfl | ⟨he, -⟩
    · exact hplaced
    · exact h.placed e he

theorem Inv.insert (h : Inv db) {ifEntries : Table IfEntry IfEntry.id} {drawn : List Uuid}
    (hinsert : db.ifEntries.insert row = some ifEntries) (hallowed : Allowed db row)
    (hplaced : networkOf db row.base.hostId = some row.base.networkId)
    (helse : ∀ neighbor ∈ row.base.neighbor, Elsewhere db row neighbor) : Inv { db with ifEntries, drawn } := by
  have hmem (e : IfEntry) (he : e ∈ ifEntries.rows) : e = row ∨ e ∈ db.ifEntries.rows ∧ e.id ≠ row.id := by
    rw [(Table.insert_eq_some hinsert).1, List.mem_append, List.mem_singleton] at he
    exact he.symm.imp id fun he => ⟨he, (Table.insert_eq_some hinsert).2 e he⟩
  have hunique := broken_eq_none.mp hallowed.1
  refine ⟨fun e he => references_mono db rfl rfl rfl (fun id hid => ?_) ?_, fun e he x hx hhost hindex => ?_,
    h.interfaces, fun e he => ?_, (sound_insert_iff h hinsert hallowed).mpr helse⟩
  · rw [Table.get_insert hinsert]
    split
    · rfl
    · exact hid
  · rcases hmem e he with rfl | ⟨he, -⟩
    · exact hallowed.2
    · exact h.references e he
  · rcases hmem e he with rfl | ⟨hold, hid⟩ <;> rcases hmem x hx with rfl | ⟨hold', hid'⟩
    · rfl
    · exact absurd hindex (hunique x hold' hid' hhost)
    · exact absurd hindex.symm (hunique e hold hid hhost.symm)
    · exact h.unique e hold x hold' hhost hindex
  · rcases hmem e he with rfl | ⟨he, -⟩
    · exact hplaced
    · exact h.placed e he

theorem Inv.redrawn (h : Inv db) (drawn : List Uuid) : Inv { db with drawn } :=
  ⟨h.references, h.unique, h.interfaces, h.placed, h.sound⟩

/-! ## Changes of many rows -/

/-- The rows of `l` are replaced, one after the other. -/
def revised (g : IfEntry → IfEntry) (db : Db) (l : List IfEntry) : Db :=
  { db with ifEntries := l.foldl (fun t e => t.update (g e)) db.ifEntries }

/-- A change that leaves entries in their places. -/
structure InPlace (g : IfEntry → IfEntry) : Prop where
  id : ∀ e, (g e).id = e.id
  network : ∀ e, (g e).base.networkId = e.base.networkId
  host : ∀ e, (g e).base.hostId = e.base.hostId
  index : ∀ e, (g e).base.ifIndex = e.base.ifIndex

section Revised

variable {g : IfEntry → IfEntry} {l : List IfEntry}

theorem InPlace.on (hg : InPlace g) (l : List IfEntry) : InPlace fun e => if e ∈ l then g e else e where
  id e := by split <;> [exact hg.id e; rfl]
  network e := by split <;> [exact hg.network e; rfl]
  host e := by split <;> [exact hg.host e; rfl]
  index e := by split <;> [exact hg.index e; rfl]

theorem revised_append (done : List IfEntry) (e : IfEntry) : revised g db (done ++ [e]) =
    { revised g db done with ifEntries := (revised g db done).ifEntries.update (g e) } := by
  rw [revised, List.foldl_append]
  rfl

variable (hg : InPlace g) (hmem : ∀ e ∈ l, e ∈ db.ifEntries.rows) (hnodup : (l.map (·.id)).Nodup)
include hg hmem hnodup

theorem rows_revised : (revised g db l).ifEntries.rows = db.ifEntries.rows.map fun e => if e ∈ l then g e else e :=
  congrArg Table.rows (Table.foldl_update hg.id l hmem hnodup)

theorem get_revised (id : Uuid) : (revised g db l).ifEntries.get id =
    (db.ifEntries.get id).map fun e => if e ∈ l then g e else e := by
  rw [show (revised g db l).ifEntries = _ from Table.foldl_update hg.id l hmem hnodup, Table.get_modify]

theorem isSome_get_revised (id : Uuid) :
    ((revised g db l).ifEntries.get id).isSome = (db.ifEntries.get id).isSome := by
  rw [get_revised hg hmem hnodup, Option.isSome_map]

theorem references_revised (h : Storable.references db e = true) : Storable.references (revised g db l) e = true :=
  references_mono db rfl rfl rfl (fun id hid => (isSome_get_revised hg hmem hnodup id).trans hid) h

/-- The table stays sound exactly when the new neighbors are elsewhere. -/
theorem sound_revised_iff (h : Sound db) :
    Sound (revised g db l) ↔ ∀ e ∈ l, ∀ neighbor ∈ (g e).base.neighbor, Elsewhere db e neighbor := by
  have helse (e : IfEntry) (neighbor : Neighbor) (e' : IfEntry) (hnetwork : e'.base.networkId = e.base.networkId)
      (hhost : e'.base.hostId = e.base.hostId) : Elsewhere (revised g db l) e' neighbor ↔
      Elsewhere db e neighbor := by
    refine elsewhere_congr rfl hnetwork hhost fun id _ => ?_
    rw [get_revised hg hmem hnodup, Option.map_map]
    refine congrArg (Option.map · _) (funext fun x => ?_)
    rw [Function.comp_apply, (hg.on l).network, (hg.on l).host]
  constructor
  · intro hsound e he neighbor hneighbor
    have hrow : g e ∈ (revised g db l).ifEntries.rows := by
      rw [rows_revised hg hmem hnodup]
      exact List.mem_map.mpr ⟨e, hmem e he, if_pos he⟩
    exact (helse e neighbor (g e) (hg.network e) (hg.host e)).mp (hsound _ hrow neighbor hneighbor)
  · intro hall e' he' neighbor hneighbor
    rw [rows_revised hg hmem hnodup] at he'
    obtain ⟨e, he, rfl⟩ := List.mem_map.mp he'
    rw [helse e neighbor _ ((hg.on l).network e) ((hg.on l).host e)]
    by_cases hin : e ∈ l
    · rw [if_pos hin] at hneighbor
      exact hall e hin neighbor hneighbor
    · rw [if_neg hin] at hneighbor
      exact h e he neighbor hneighbor

theorem Inv.revised (h : Inv db) (hrefs : ∀ e ∈ l, Storable.references db (g e) = true)
    (hsound : Sound (revised g db l)) : Inv (revised g db l) := by
  have hrow {e' : IfEntry} (he' : e' ∈ (Neighbors.revised g db l).ifEntries.rows) :
      ∃ e ∈ db.ifEntries.rows, e' = if e ∈ l then g e else e := by
    rw [rows_revised hg hmem hnodup] at he'
    obtain ⟨e, he, rfl⟩ := List.mem_map.mp he'
    exact ⟨e, he, rfl⟩
  refine ⟨fun e' he' => references_revised hg hmem hnodup ?_, fun e' he' x' hx' hhost hindex => ?_, h.interfaces,
    fun e' he' => ?_, hsound⟩
  · obtain ⟨e, he, rfl⟩ := hrow he'
    split
    · next hin => exact hrefs e hin
    · exact h.references e he
  · obtain ⟨e, he, rfl⟩ := hrow he'
    obtain ⟨x, hx, rfl⟩ := hrow hx'
    rw [(hg.on l).host, (hg.on l).host] at hhost
    rw [(hg.on l).index, (hg.on l).index] at hindex
    rw [(hg.on l).id, (hg.on l).id]
    exact h.unique e he x hx hhost hindex
  · obtain ⟨e, he, rfl⟩ := hrow he'
    rw [(hg.on l).host, (hg.on l).network]
    exact h.placed e he

omit hmem hnodup in
/-- A row that is not replaced yet may be. -/
theorem revise_next {done : List IfEntry} (h : Inv db) (hdone : ∀ x ∈ done, x ∈ db.ifEntries.rows)
    (hnodup : (done.map (·.id)).Nodup) (he : e ∈ db.ifEntries.rows) (hnew : e ∉ done)
    (href : Storable.references db (g e) = true) :
    (revised g db done).ifEntries.get e.id = some e ∧ Allowed (revised g db done) (g e) := by
  constructor
  · rw [get_revised hg hdone hnodup, Table.get_eq_some.mpr ⟨he, rfl⟩, Option.map_some, if_neg hnew]
  · refine ⟨broken_eq_none.mpr fun x' hx' hid hhost hindex => hid ?_, references_revised hg hdone hnodup href⟩
    rw [rows_revised hg hdone hnodup] at hx'
    obtain ⟨x, hx, rfl⟩ := List.mem_map.mp hx'
    rw [(hg.on done).host, hg.host] at hhost
    rw [(hg.on done).index, hg.index] at hindex
    rw [(hg.on done).id, hg.id]
    exact h.unique e he x hx hhost hindex

/-- One round of a loop that replaces rows one by one: what was done before, and that the table allows the row. -/
structure Round (g : IfEntry → IfEntry) (db : Db) (l done : List IfEntry) (e : IfEntry) : Prop where
  among : ∀ x ∈ done ++ [e], x ∈ l
  nodup : ((done ++ [e]).map (·.id)).Nodup
  get : (revised g db done).ifEntries.get e.id = some e
  allowed : Allowed (revised g db done) (g e)

theorem round {done rest : List IfEntry} (h : Inv db) (hrefs : ∀ e ∈ l, Storable.references db (g e) = true)
    (hlist : done ++ e :: rest = l) : Round g db l done e := by
  have hall : (done ++ [e]) ++ rest = l := by rw [← hlist, List.append_assoc, List.singleton_append]
  have hsub (x : IfEntry) (hx : x ∈ done ++ [e]) : x ∈ l := hall ▸ List.mem_append_left _ hx
  have hnodup' : ((done ++ [e]).map (·.id)).Nodup := by
    rw [← hall, List.map_append] at hnodup
    exact (List.nodup_append.mp hnodup).1
  have hdone := hnodup'
  rw [List.map_append, List.nodup_append] at hdone
  have hnew : e ∉ done := fun hin =>
    hdone.2.2 _ (List.mem_map_of_mem hin) _ (List.mem_singleton_self _) rfl
  have he : e ∈ l := hsub e (List.mem_append_right _ (List.mem_singleton_self e))
  obtain ⟨hget, hallowed⟩ := revise_next hg h (fun x hx => hmem x (hsub x (List.mem_append_left _ hx))) hdone.1
    (hmem e he) hnew (hrefs e he)
  exact ⟨hsub, hnodup', hget, hallowed⟩

theorem wp_foldlM_revised {σ : Type} {f : σ → IfEntry → Store σ} (h : Inv db)
    (hrefs : ∀ e ∈ l, Storable.references db (g e) = true)
    (hf : ∀ b done e, Round g db l done e →
      wp (f b e) (fun _ u => u = revised g db (done ++ [e])) (fun _ _ => False) (revised g db done)) (b : σ) :
    wp (l.foldlM f b) (fun _ t => t = revised g db l) (fun _ _ => False) db := by
  refine (Program.wp_foldlM_all (I := fun done _ rest t => t = revised g db done ∧
    done ++ rest = l) ?_ ⟨rfl, rfl⟩).mono
    (fun _ _ hI => hI.1) fun _ _ hno => hno
  intro done b e rest t ⟨ht, hlist⟩
  subst ht
  refine (hf b done e (round hg hmem hnodup h hrefs hlist)).mono (fun _ _ hu => ⟨hu, ?_⟩) fun _ _ hno => hno
  rw [List.append_assoc, List.singleton_append, hlist]

theorem wp_mapM_revised {β : Type} {f : IfEntry → Store β} (h : Inv db)
    (hrefs : ∀ e ∈ l, Storable.references db (g e) = true)
    (hf : ∀ done e, Round g db l done e →
      wp (f e) (fun _ u => u = revised g db (done ++ [e])) (fun _ _ => False) (revised g db done)) :
    wp (l.mapM f) (fun _ t => t = revised g db l) (fun _ _ => False) db := by
  refine (Program.wp_mapM_all (I := fun done _ rest t => t = revised g db done ∧ done ++ rest = l) ?_ ⟨rfl, rfl⟩).mono
    (fun _ _ hI => hI.1) fun _ _ hno => hno
  intro done _ e rest t ⟨ht, hlist⟩
  subst ht
  refine (hf done e (round hg hmem hnodup h hrefs hlist)).mono (fun _ _ hu => ⟨hu, ?_⟩) fun _ _ hno => hno
  rw [List.append_assoc, List.singleton_append, hlist]

end Revised

/-- A row is replaced by what the table allows. -/
theorem wp_update_round {g : IfEntry → IfEntry} {l done : List IfEntry} (hg : InPlace g) (h : Round g db l done e) :
    wp (CrudService.update IfEntry.display (g e)) (fun _ u => u = revised g db (done ++ [e])) (fun _ _ => False)
      (revised g db done) := by
  have hget : ((revised g db done).ifEntries.get (g e).id).isSome = true := by rw [hg.id, h.get, Option.isSome_some]
  rw [Program.wp_of_ok (updateEntry_allowed hget h.allowed), revised_append]

/-- Where nothing is replaced, the round does nothing. -/
theorem revised_append_self {g : IfEntry → IfEntry} {l done : List IfEntry} (h : Round g db l done e)
    (hself : g e = e) :
    revised g db (done ++ [e]) = revised g db done := by
  rw [revised_append, hself, Table.update_get h.get]

/-! ## Resolving -/

section Lookups

open LldpResolver

variable {f : IfEntry → IfEntry} (hhosts : t.hosts = db.hosts) (hinterfaces : t.interfaces = db.interfaces)
  (hrows : t.ifEntries.rows = db.ifEntries.rows.map f) (hf : ∀ e, ∃ neighbor,
    f e = { e with base.neighbor := neighbor })
include hrows hf

/-- A search that does not look at neighbors. -/
theorem map_find?_congr {β : Type} (p : IfEntry → Bool) (proj : IfEntry → β)
    (hp : ∀ e neighbor, p { e with base.neighbor := neighbor } = p e)
    (hproj : ∀ e neighbor, proj { e with base.neighbor := neighbor } = proj e) :
    (t.ifEntries.rows.find? p).map proj = (db.ifEntries.rows.find? p).map proj := by
  have hpf : p ∘ f = p := by
    funext e
    obtain ⟨neighbor, heq⟩ := hf e
    rw [Function.comp_apply, heq, hp]
  have hprojf : proj ∘ f = proj := by
    funext e
    obtain ⟨neighbor, heq⟩ := hf e
    rw [Function.comp_apply, heq, hproj]
  rw [hrows, List.find?_map, Option.map_map, hpf, hprojf]

include hhosts hinterfaces

theorem resolveHostId_congr (chassisId : LldpChassisId) (networkId : Uuid) :
    chassisId.resolveHostId parseMac t networkId = chassisId.resolveHostId parseMac db networkId := by
  cases chassisId with
  | macAddress mac => simp only [LldpChassisId.resolveHostId, findHostByMac, hinterfaces]
  | networkAddress ip => simp only [LldpChassisId.resolveHostId, findHostByIp, hinterfaces]
  | interfaceName name => exact map_find?_congr hrows hf _ _ (fun _ _ => rfl) fun _ _ => rfl
  | chassisComponent id | locallyAssigned id => simp only [LldpChassisId.resolveHostId, findHostByChassisId, hhosts]
  | interfaceAlias _ | portComponent _ => rfl

omit hhosts in
theorem resolveIfEntryId_congr (portId : LldpPortId) (hostId : Uuid) :
    portId.resolveIfEntryId parseMac t hostId = portId.resolveIfEntryId parseMac db hostId := by
  cases portId with
  | macAddress mac =>
    simp only [LldpPortId.resolveIfEntryId, findIfEntryByMac]
    exact congrArg _ (funext fun _ => map_find?_congr hrows hf _ _ (fun _ _ => rfl) fun _ _ => rfl)
  | interfaceName name | interfaceAlias name => exact map_find?_congr hrows hf _ _ (fun _ _ => rfl) fun _ _ => rfl
  | networkAddress ip =>
    simp only [LldpPortId.resolveIfEntryId, findIfEntryByIp, hinterfaces]
    exact congrArg _ (funext fun _ => map_find?_congr hrows hf _ _ (fun _ _ => rfl) fun _ _ => rfl)
  | portComponent _ | agentCircuitId _ | locallyAssigned _ => rfl

/-- What is found does not depend on the neighbors that were found before. -/
theorem resolvedNeighbor_congr (networkId : Uuid) :
    HostService.resolvedNeighbor parseMac t networkId e = HostService.resolvedNeighbor parseMac db networkId e := by
  unfold HostService.resolvedNeighbor
  split
  · simp only [resolveHostId_congr parseMac hhosts hinterfaces hrows hf,
      resolveIfEntryId_congr parseMac hinterfaces hrows hf]
  · simp only [findHostByChassisId, hhosts]
  · rfl

end Lookups

/-- An entry with the neighbor it is resolved to. -/
def resolved (db : Db) (networkId : Uuid) (e : IfEntry) : IfEntry :=
  match HostService.resolvedNeighbor parseMac db networkId e with
  | some neighbor => { e with base.neighbor := neighbor }
  | none => e

theorem resolved_eq (db : Db) (networkId : Uuid) (e : IfEntry) :
    ∃ neighbor, resolved parseMac db networkId e = { e with base.neighbor := neighbor } := by
  unfold resolved
  split
  · exact ⟨_, rfl⟩
  · exact ⟨e.base.neighbor, rfl⟩

theorem inPlace_resolved (db : Db) (networkId : Uuid) : InPlace (resolved parseMac db networkId) := by
  constructor <;> intro e <;> obtain ⟨neighbor, heq⟩ := resolved_eq parseMac db networkId e <;> rw [heq]

section Found

open LldpResolver

variable {networkId hostId : Uuid}

/-- A host that is found is stored. -/
theorem resolveHostId_stored (h : Inv db) {chassisId : LldpChassisId}
    (hfound : chassisId.resolveHostId parseMac db networkId = some hostId) : db.hasHost hostId = true := by
  cases chassisId with
  | macAddress mac =>
    simp only [LldpChassisId.resolveHostId, findHostByMac, Option.bind_eq_some_iff, Option.map_eq_some_iff] at hfound
    obtain ⟨_, _, i, hi, rfl⟩ := hfound
    exact h.interfaces i (List.mem_of_find?_eq_some hi)
  | networkAddress ip =>
    obtain ⟨i, hi, rfl⟩ := Option.map_eq_some_iff.mp hfound
    exact h.interfaces i (List.mem_of_find?_eq_some hi)
  | interfaceName name =>
    obtain ⟨e, he, rfl⟩ := Option.map_eq_some_iff.mp hfound
    exact (references_iff.mp (h.references e (List.mem_of_find?_eq_some he))).2.1
  | chassisComponent id | locallyAssigned id =>
    obtain ⟨host, hhost, rfl⟩ := Option.map_eq_some_iff.mp hfound
    exact Table.get_isSome.mpr ⟨host, List.mem_of_find?_eq_some hhost, rfl⟩
  | interfaceAlias _ | portComponent _ => cases hfound

/-- An entry that is found is stored; it is one of the host, unless it is found by an address. -/
theorem resolveIfEntryId_stored {portId : LldpPortId}
    (hfound : portId.resolveIfEntryId parseMac db hostId = some id) :
    ∃ x ∈ db.ifEntries.get id, x.base.hostId = portHost db hostId (some portId) := by
  have hget {p : IfEntry → Bool} {x : IfEntry} (hx : db.ifEntries.rows.find? p = some x) :
      x ∈ db.ifEntries.get x.id :=
    Table.get_eq_some.mpr ⟨List.mem_of_find?_eq_some hx, rfl⟩
  cases portId with
  | macAddress mac =>
    simp only [LldpPortId.resolveIfEntryId, findIfEntryByMac, Option.bind_eq_some_iff,
      Option.map_eq_some_iff] at hfound
    obtain ⟨_, _, x, hx, rfl⟩ := hfound
    have hp := List.find?_some hx
    simp only [Bool.and_eq_true, beq_iff_eq] at hp
    exact ⟨x, hget hx, hp.1⟩
  | interfaceName name | interfaceAlias name =>
    obtain ⟨x, hx, rfl⟩ := Option.map_eq_some_iff.mp hfound
    have hp := List.find?_some hx
    simp only [Bool.and_eq_true, beq_iff_eq] at hp
    exact ⟨x, hget hx, hp.1⟩
  | networkAddress ip =>
    have hfound : findIfEntryByIp db ip hostId = some id := hfound
    have hentry := hfound
    simp only [findIfEntryByIp, Option.bind_eq_some_iff, Option.map_eq_some_iff] at hentry
    obtain ⟨_, _, x, hx, rfl⟩ := hentry
    refine ⟨x, hget hx, ?_⟩
    rw [portHost, hfound, Option.bind_some, hget hx]
    rfl
  | portComponent _ | agentCircuitId _ | locallyAssigned _ => cases hfound

/-- Where nothing is found by an address, the host is the one it was looked up on. -/
theorem portHost_of_none {portId : Option LldpPortId}
    (h : portId.bind (LldpPortId.resolveIfEntryId parseMac db hostId) = none) :
    portHost db hostId portId = hostId := by
  unfold portHost
  split
  · next ip =>
    have h : findIfEntryByIp db ip hostId = none := h
    rw [h]
    rfl
  · rfl

theorem elsewhere_host : Elsewhere db e (.host hostId) ↔ networkOf db hostId = some e.base.networkId ∧
    hostId ≠ e.base.hostId :=
  Iff.rfl

/-- Whether an entry is elsewhere is a matter of its host. -/
theorem elsewhere_ifEntry (h : Inv db) {x : IfEntry} (hx : x ∈ db.ifEntries.get id) : Elsewhere db e (.ifEntry id) ↔
    networkOf db x.base.hostId = some e.base.networkId ∧ x.base.hostId ≠ e.base.hostId := by
  have hplaced := h.placed x (Table.get_eq_some.mp hx).1
  have hx : db.ifEntries.get id = some x := hx
  simp only [Elsewhere, hx, hplaced, Option.mem_def, Option.some.injEq, exists_eq_left']

/-- What a neighbor that is found is, and when it is elsewhere. -/
structure Found (db : Db) (networkId : Uuid) (e : IfEntry) (neighbor : Neighbor) : Prop where
  host : ∀ id, neighbor = .host id → db.hasHost id = true
  ifEntry : ∀ id, neighbor = .ifEntry id → (db.ifEntries.get id).isSome = true
  elsewhere : ∃ hostId, heard parseMac db networkId e = some hostId ∧
    (Elsewhere db e neighbor ↔ networkOf db hostId = some e.base.networkId ∧ hostId ≠ e.base.hostId)

theorem found (h : Inv db) {neighbor : Neighbor}
    (hfound : HostService.resolvedNeighbor parseMac db networkId e = some neighbor) :
    Found parseMac db networkId e neighbor := by
  unfold HostService.resolvedNeighbor at hfound
  split at hfound
  · next chassisId _ hchassis =>
    obtain ⟨hostId, hhost, hneighbor⟩ := Option.map_eq_some_iff.mp hfound
    have hheard : heard parseMac db networkId e = some (portHost db hostId e.base.lldpPortId) := by
      simp only [heard, hchassis, hhost, Option.map_some]
    have hstored := resolveHostId_stored parseMac h hhost
    cases hport : e.base.lldpPortId.bind (LldpPortId.resolveIfEntryId parseMac db hostId) with
    | none =>
      rw [hport] at hneighbor
      cases hneighbor
      refine ⟨fun id hid => ?_, fun id hid => (by cases hid), _, hheard, ?_⟩
      · cases hid
        exact hstored
      · rw [portHost_of_none parseMac hport, elsewhere_host]
    | some remoteIfEntryId =>
      rw [hport] at hneighbor
      cases hneighbor
      obtain ⟨portId, hportId, hresolved⟩ := Option.bind_eq_some_iff.mp hport
      obtain ⟨x, hx, hxhost⟩ := resolveIfEntryId_stored parseMac hresolved
      refine ⟨fun id hid => (by cases hid), fun id hid => ?_, _, hheard, ?_⟩
      · cases hid
        rw [Option.isSome_iff_exists]
        exact ⟨x, hx⟩
      · rw [elsewhere_ifEntry h hx, hxhost, hportId]
  · next deviceId hchassis hdevice =>
    obtain ⟨hostId, hhost, rfl⟩ := Option.map_eq_some_iff.mp hfound
    have hheard : heard parseMac db networkId e = some hostId := by simp only [heard, hchassis, hdevice, hhost]
    refine ⟨fun id hid => ?_, fun id hid => (by cases hid), _, hheard, elsewhere_host⟩
    cases hid
    obtain ⟨host, hfind, rfl⟩ := Option.map_eq_some_iff.mp hhost
    exact Table.get_isSome.mpr ⟨host, List.mem_of_find?_eq_some hfind, rfl⟩
  · cases hfound

/-- An entry that heard of no host has no neighbor that is found, and one that has one heard of a host. -/
theorem resolvedNeighbor_isSome : (HostService.resolvedNeighbor parseMac db networkId e).isSome =
    (heard parseMac db networkId e).isSome := by
  unfold HostService.resolvedNeighbor heard
  cases e.base.lldpChassisId with
  | some chassisId => simp only [Option.isSome_map]
  | none =>
    cases e.base.cdpDeviceId with
    | some deviceId => simp only [Option.isSome_map]
    | none => rfl

end Found

theorem references_resolved (h : Inv db) {networkId : Uuid} (he : e ∈ db.ifEntries.rows) :
    Storable.references db (resolved parseMac db networkId e) = true := by
  have href := h.references e he
  unfold resolved
  split
  · next neighbor hfound =>
    have hfound := found parseMac h hfound
    obtain ⟨hnetwork, hhost, hinterface, -, -⟩ := references_iff.mp href
    refine references_iff.mpr ⟨hnetwork, hhost, hinterface, fun id hid => hfound.host id ?_,
      fun id hid => hfound.ifEntry id ?_⟩
    · exact Option.some.inj hid
    · exact Option.some.inj hid
  · exact href

/-- Resolving gives every entry that is not resolved the neighbor it has in the beginning. -/
theorem after_resolveLldpLinks (h : Inv db) (networkId : Uuid) :
    after (HostService.resolveLldpLinks parseMac networkId) db =
    revised (resolved parseMac db networkId) db (HostService.unresolvedEntries db networkId) := by
  have hg := inPlace_resolved parseMac db networkId
  have hmem (e : IfEntry) (he : e ∈ HostService.unresolvedEntries db networkId) : e ∈ db.ifEntries.rows :=
    (Table.mem_select.mp he).1
  refine (Program.wp_after (P := fun t => t = revised (resolved parseMac db networkId) db
    (HostService.unresolvedEntries db networkId))).mp ?_
  simp only [HostService.resolveLldpLinks, Program.wp_bind, Program.wp_get]
  refine (wp_foldlM_revised hg hmem Table.nodup_select h (fun e he => references_resolved parseMac h (hmem e he))
    ?_ _).mono (fun _ _ ht => ht) fun _ _ hno => hno.elim
  intro stats done e hround
  have hdone (x : IfEntry) (hx : x ∈ done) : x ∈ db.ifEntries.rows :=
    hmem x (hround.among x (List.mem_append_left _ hx))
  have hnodup : (done.map (·.id)).Nodup := by
    have hall := hround.nodup
    rw [List.map_append] at hall
    exact (List.nodup_append.mp hall).1
  -- the lookups find what they found at first
  have hlookup : HostService.resolvedNeighbor parseMac
    (revised (resolved parseMac db networkId) db done) networkId e =
      HostService.resolvedNeighbor parseMac db networkId e := by
    have hrows := rows_revised hg hdone hnodup
    have hchange (x : IfEntry) : ∃ neighbor, (if x ∈ done then resolved parseMac db networkId x else x) =
        { x with base.neighbor := neighbor } := by
      split
      · exact resolved_eq parseMac db networkId x
      · exact ⟨x.base.neighbor, rfl⟩
    exact resolvedNeighbor_congr parseMac (by rfl) (by rfl) hrows hchange networkId
  simp only [HostService.resolveEntry, Program.wp_bind, Program.wp_get, hlookup]
  cases hfound : HostService.resolvedNeighbor parseMac db networkId e with
  | none =>
    have hself : resolved parseMac db networkId e = e := by rw [resolved, hfound]
    simp only [Option.isSome_none, Bool.false_eq_true, if_false, Program.wp_pure]
    exact (revised_append_self hround hself).symm
  | some neighbor =>
    have hnew : resolved parseMac db networkId e = { e with base.neighbor := some neighbor } := by
      rw [resolved, hfound]
    simp only [Option.isSome_some, if_true, Program.wp_bind, Program.wp_pure]
    exact hnew ▸ wp_update_round hg hround

/-! ## Discovering -/

/-- An entry linked to the interface that has its MAC address, if it has none. -/
def linked (interfaces : List Interface) (e : IfEntry) : IfEntry :=
  match if e.base.interfaceId.isNone then HostService.interfaceByMac interfaces e else none with
  | some i => { e with base.interfaceId := some i.id }
  | none => e

theorem linked_eq (interfaces : List Interface) (e : IfEntry) :
    ∃ interfaceId, linked interfaces e = { e with base.interfaceId := interfaceId } := by
  unfold linked
  split
  · exact ⟨_, rfl⟩
  · exact ⟨e.base.interfaceId, rfl⟩

theorem inPlace_linked (interfaces : List Interface) : InPlace (linked interfaces) := by
  constructor <;> intro e <;> obtain ⟨interfaceId, heq⟩ := linked_eq interfaces e <;> rw [heq]

theorem neighbor_linked (interfaces : List Interface) (e : IfEntry) :
    (linked interfaces e).base.neighbor = e.base.neighbor := by
  obtain ⟨interfaceId, heq⟩ := linked_eq interfaces e
  rw [heq]

theorem mem_of_interfaceByMac {interfaces : List Interface} {i : Interface}
    (h : HostService.interfaceByMac interfaces e = some i) : i ∈ interfaces := by
  obtain ⟨mac, -, hfind⟩ := Option.bind_eq_some_iff.mp h
  exact List.mem_reverse.mp (List.mem_of_find?_eq_some hfind)

theorem references_linked {hostId : Uuid} (href : Storable.references db e = true) :
    Storable.references db (linked (db.interfacesOf hostId) e) = true := by
  obtain ⟨hnetwork, hhost, -, hneighborHost, hneighbor⟩ := references_iff.mp href
  unfold linked
  split
  · next i hfound =>
    refine references_iff.mpr ⟨hnetwork, hhost, fun i' hi' => ?_, hneighborHost, hneighbor⟩
    have hi : i ∈ db.interfacesOf hostId := by
      split at hfound
      · exact mem_of_interfaceByMac hfound
      · cases hfound
    rw [← Option.some.inj hi']
    exact Table.get_isSome.mpr ⟨i, (Db.mem_interfacesOf.mp hi).1, rfl⟩
  · exact href

theorem mem_ifEntriesOf {hostId : Uuid} : e ∈ db.ifEntriesOf hostId ↔
    e ∈ db.ifEntries.rows ∧ e.base.hostId = hostId := by
  simp only [Db.ifEntriesOf, Table.mem_select, beq_iff_eq]

theorem wp_linkIfEntries (h : Inv db) (hostId : Uuid) : wp (HostService.linkIfEntriesToInterfaces hostId)
    (fun _ t => t = revised (linked (db.interfacesOf hostId)) db (db.ifEntriesOf hostId)) (fun _ _ => False) db := by
  have hg := inPlace_linked (db.interfacesOf hostId)
  have hmem (e : IfEntry) (he : e ∈ db.ifEntriesOf hostId) : e ∈ db.ifEntries.rows := (mem_ifEntriesOf.mp he).1
  simp only [HostService.linkIfEntriesToInterfaces, Program.wp_bind, Program.wp_get]
  refine (wp_mapM_revised hg hmem Table.nodup_select h (fun e he => references_linked (h.references e (hmem e he)))
    ?_).mono (fun _ _ ht => ht) fun _ _ hno => hno
  intro done e hround
  unfold HostService.linkIfEntry
  split
  · next i hfound =>
    have hnew : linked (db.interfacesOf hostId) e = { e with base.interfaceId := some i.id } := by rw [linked, hfound]
    simp only [Program.wp_bind, Program.wp_attempt, Program.wp_pure]
    exact (hnew ▸ wp_update_round hg hround).mono (fun _ _ hu => hu) fun _ _ hno => hno.elim
  · next hfound =>
    have hself : linked (db.interfacesOf hostId) e = e := by rw [linked, hfound]
    exact (revised_append_self hround hself).symm

/-- An entry as a daemon has it: linked to nothing, and without a neighbor. -/
def bare (stamp : IfEntry → Uuid × DateTime) (e : IfEntry) : IfEntry :=
  { e with updatedAt := (stamp e).2, base.interfaceId := none, base.neighbor := none }

theorem inPlace_bare (stamp : IfEntry → Uuid × DateTime) : InPlace (bare stamp) := by
  constructor <;> intro e <;> rfl

theorem references_bare {stamp : IfEntry → Uuid × DateTime} (href : Storable.references db e = true) :
    Storable.references db (bare stamp e) = true := by
  obtain ⟨hnetwork, hhost, -, -, -⟩ := references_iff.mp href
  refine references_iff.mpr ⟨hnetwork, hhost, fun i hi => ?_, fun id hid => ?_, fun id hid => ?_⟩
  · cases hi
  · cases hid
  · cases hid

section Upserted

variable {host : Host} {entry : IfEntry}

theorem upserted_of_some {existing : IfEntry}
    (h : ((db.ifEntriesOf host.id).find? fun e => e.base.ifIndex == entry.base.ifIndex) = some existing) :
    upserted db host entry = { onHost host entry with id := existing.id, createdAt := existing.createdAt } := by
  simp only [upserted, h]

theorem upserted_of_none (h : ((db.ifEntriesOf host.id).find? fun e => e.base.ifIndex == entry.base.ifIndex) = none) :
    upserted db host entry = created db (onHost host entry) := by
  simp only [upserted, h]

theorem upserted_base : (upserted db host entry).base = (onHost host entry).base := by
  unfold upserted
  split
  · rfl
  · exact created_base db _

/-- A discovered entry is written in the place of the one with its index, or added. -/
theorem wp_saveIfEntry {Q : IfEntry → Db → Prop} {E : Error → Db → Prop}
    (hE : ¬ Writable db host entry → ∀ drawn e, E e { db with drawn })
    (hupdate : (db.ifEntries.get (upserted db host entry).id).isSome = true → Writable db host entry →
      Q (upserted db host entry) { db with ifEntries := db.ifEntries.update (upserted db host entry) })
    (hinsert : ∀ ifEntries drawn, db.ifEntries.insert (upserted db host entry) = some ifEntries →
      Writable db host entry → Q (upserted db host entry) { db with ifEntries, drawn }) :
    wp (HostService.saveIfEntry host entry) Q E db := by
  simp only [HostService.saveIfEntry, IfEntryService.createOrUpdateByIfIndex, Program.wp_bind, Program.wp_get]
  split
  · next existing hfind =>
    have hrow := upserted_of_some hfind
    have hexisting := mem_ifEntriesOf.mp (List.mem_of_find?_eq_some hfind)
    have hindex : existing.base.ifIndex = entry.base.ifIndex := by simpa using List.find?_some hfind
    have hstored : db.ifEntries.get (upserted db host entry).id = some existing := by
      rw [hrow]
      exact Table.get_eq_some.mpr ⟨hexisting.1, rfl⟩
    have hplace (x : IfEntry) (hx : x ∈ db.ifEntries.get (upserted db host entry).id) :
        x.base.hostId = host.id ∧ x.base.ifIndex = entry.base.ifIndex := by
      rw [hstored] at hx
      cases hx
      exact ⟨hexisting.2, hindex⟩
    have hwp : wp (CrudService.update IfEntry.display (upserted db host entry)) Q E db :=
      wp_updateEntry (fun hno => hE (fun hw => hno ⟨by rw [hstored, Option.isSome_some], hw.1⟩) db.drawn)
        fun hsome hallowed => hupdate hsome ⟨hallowed, hplace⟩
    rw [hrow] at hwp
    exact hwp
  · next hfind =>
    have hrow := upserted_of_none hfind
    -- no stored row has the place of the new one
    have hfree (hw : Writable db host entry) : db.ifEntries.get (upserted db host entry).id = none := by
      refine Option.eq_none_iff_forall_ne_some.mpr fun x hx => ?_
      obtain ⟨hhost, hindex⟩ := hw.2 x hx
      refine List.find?_eq_none.mp hfind x (mem_ifEntriesOf.mpr ⟨(Table.get_eq_some.mp hx).1, hhost⟩) ?_
      exact beq_iff_eq.mpr hindex
    have hwp : wp (CrudService.create (onHost host entry)) Q E db := by
      refine wp_createEntry (fun hno => hE fun hw =>
        hno ⟨hrow ▸ hfree hw, hrow ▸ hw.1⟩) fun ifEntries drawn hinserted hallowed => ?_
      rw [← hrow] at hinserted hallowed ⊢
      refine hinsert ifEntries drawn hinserted ⟨hallowed, fun x hx => ?_⟩
      have hx : db.ifEntries.get (upserted db host entry).id = some x := hx
      rw [Table.get_eq_none.mpr (Table.insert_eq_some hinserted).2] at hx
      cases hx
    exact hwp

end Upserted

/-- An entry that is sent again is saved without its interface and its neighbor. -/
theorem wp_save_round {host : Host} {stamp : IfEntry → Uuid × DateTime} {l done : List IfEntry} (h : Inv db)
    (hhost : db.hosts.get host.id = some host) (hdone : ∀ x ∈ done, x ∈ db.ifEntries.rows)
    (he : e ∈ db.ifEntries.rows)
    (hehost : e.base.hostId = host.id) (hround : Round (bare stamp) db l done e) :
    wp (HostService.saveIfEntry host (resent stamp e)) (fun _ u => u = revised (bare stamp) db (done ++ [e]))
      (fun _ _ => False) (revised (bare stamp) db done) := by
  have hg := inPlace_bare stamp
  have hnodup : (done.map (·.id)).Nodup := by
    have hall := hround.nodup
    rw [List.map_append] at hall
    exact (List.nodup_append.mp hall).1
  -- the row that is found by the index is the entry itself
  have hfind : ((revised (bare stamp) db done).ifEntriesOf host.id).find?
      (fun x => x.base.ifIndex == (resent stamp e).base.ifIndex) = some e := by
    have hstored : e ∈ (revised (bare stamp) db done).ifEntriesOf host.id :=
      mem_ifEntriesOf.mpr ⟨(Table.get_eq_some.mp hround.get).1, hehost⟩
    cases hfound : ((revised (bare stamp) db done).ifEntriesOf host.id).find?
        (fun x => x.base.ifIndex == (resent stamp e).base.ifIndex) with
    | none =>
      exact absurd (beq_self_eq_true _) (List.find?_eq_none.mp hfound e hstored)
    | some x =>
      have hindex : x.base.ifIndex = e.base.ifIndex := by simpa [resent] using List.find?_some hfound
      obtain ⟨hx, hxhost⟩ := mem_ifEntriesOf.mp (List.mem_of_find?_eq_some hfound)
      have hx' := hx
      rw [rows_revised hg hdone hnodup] at hx'
      obtain ⟨y, hy, rfl⟩ := List.mem_map.mp hx'
      rw [(hg.on done).index] at hindex
      rw [(hg.on done).host] at hxhost
      have hid := h.unique e he y hy (hxhost.trans hehost.symm) hindex
      refine congrArg some (Table.eq_of_key _ hx (Table.get_eq_some.mp hround.get).1 ?_)
      rw [(hg.on done).id, hid]
  have hnetwork : host.base.networkId = e.base.networkId := by
    have hplaced := h.placed e he
    rw [networkOf, hehost, hhost] at hplaced
    exact Option.some.inj hplaced
  have hrow : { onHost host (resent stamp e) with id := e.id, createdAt := e.createdAt } = bare stamp e := by
    simp only [onHost, resent, bare, ← hehost, hnetwork]
  simp only [HostService.saveIfEntry, IfEntryService.createOrUpdateByIfIndex, Program.wp_bind, Program.wp_get]
  have hfind' : ((revised (bare stamp) db done).ifEntriesOf (onHost host (resent stamp e)).base.hostId).find?
      (fun x => x.base.ifIndex == (onHost host (resent stamp e)).base.ifIndex) = some e := hfind
  have hupdate := hrow ▸ wp_update_round hg hround
  rw [onHost] at hfind'
  rw [hfind']
  exact hupdate

/-- What is left of a host that is discovered as it was. -/
def rediscovered (db : Db) (hostId : Uuid) (stamp : IfEntry → Uuid × DateTime) (entries : List IfEntry) : Db :=
  let saved := revised (bare stamp) db entries
  revised (linked (db.interfacesOf hostId)) saved (saved.ifEntriesOf hostId)

section Rediscover

variable {host : Host} {entries : List IfEntry} {stamp : IfEntry → Uuid × DateTime}

theorem mem_entries (hperm : entries.Perm (db.ifEntriesOf host.id)) :
    e ∈ entries ↔ e ∈ db.ifEntries.rows ∧ e.base.hostId = host.id :=
  hperm.mem_iff.trans mem_ifEntriesOf

theorem nodup_entries (hperm : entries.Perm (db.ifEntriesOf host.id)) : (entries.map (·.id)).Nodup :=
  (hperm.map _).nodup_iff.mpr Table.nodup_select

/-- Saving the entries leaves the table sound, for they have no neighbor. -/
theorem inv_saved (h : Inv db) (hperm : entries.Perm (db.ifEntriesOf host.id)) :
    Inv (revised (bare stamp) db entries) := by
  have hg := inPlace_bare stamp
  have hmem (e : IfEntry) (he : e ∈ entries) : e ∈ db.ifEntries.rows := ((mem_entries hperm).mp he).1
  have hnodup := nodup_entries hperm
  refine Inv.revised hg hmem hnodup h (fun e he => references_bare (h.references e (hmem e he)))
    ((sound_revised_iff hg hmem hnodup h.sound).mpr fun e _ neighbor hneighbor => ?_)
  cases hneighbor

theorem after_discover (h : Inv db) (hhost : db.hosts.get host.id = some host)
    (hperm : entries.Perm (db.ifEntriesOf host.id)) :
    after (discover host (entries.map (resent stamp))) db = rediscovered db host.id stamp entries := by
  have hmem (e : IfEntry) (he : e ∈ entries) : e ∈ db.ifEntries.rows := ((mem_entries hperm).mp he).1
  refine (Program.wp_after (P := fun t => t = rediscovered db host.id stamp entries)).mp ?_
  simp only [discover, Program.wp_bind, List.mapM_map]
  refine (wp_mapM_revised (inPlace_bare stamp) hmem (nodup_entries hperm) h
    (fun e he => references_bare (h.references e (hmem e he))) ?_).mono ?_ fun _ _ hno => hno.elim
  · intro done e hround
    have he : e ∈ entries := hround.among e (List.mem_append_right _ (List.mem_singleton_self e))
    have hdone (x : IfEntry) (hx : x ∈ done) : x ∈ db.ifEntries.rows :=
      hmem x (hround.among x (List.mem_append_left _ hx))
    exact wp_save_round h hhost hdone (hmem e he) ((mem_entries hperm).mp he).2 hround
  · intro _ t ht
    subst ht
    exact (wp_linkIfEntries (inv_saved h hperm) host.id).mono (fun _ _ hu => hu) fun _ _ hno => hno.elim

end Rediscover

/-! ## One step -/

section Endpoints

open IfEntryHandlers IfEntryService

theorem wp_check {result : Except String Unit} {Q : Unit → Db → Prop} {E : Error → Db → Prop} :
    wp (check result) Q E db ↔ (result = .ok () → Q () db) ∧ ∀ m, result = .error m → E (.validation m) db := by
  cases result <;> simp [check]

theorem bind_eq_ok {x y : Except String Unit} (h : (do x; y) = .ok ()) : x = .ok () ∧ y = .ok () := by
  cases x with
  | error m => cases h
  | ok u => exact ⟨rfl, h⟩

theorem mapError_eq_ok {x : Except String Unit} {f : String → String} (h : x.mapError f = .ok ()) : x = .ok () := by
  cases x with
  | error m => cases h
  | ok u => rfl

/-- What passes the checks is in the network of its host, and its neighbor is elsewhere. -/
structure Checked (db : Db) (entry : IfEntry) : Prop where
  placed : ∀ host ∈ db.hosts.get entry.base.hostId, host.base.networkId = entry.base.networkId
  elsewhere : ∀ neighbor ∈ entry.base.neighbor, Elsewhere db entry neighbor

theorem checked {entry : IfEntry} (h : validateIfEntry db entry = .ok ()) : Checked db entry := by
  obtain ⟨hnetwork, h⟩ := bind_eq_ok h
  obtain ⟨hrelationships, hhost⟩ := bind_eq_ok h
  obtain ⟨-, hneighbor⟩ := bind_eq_ok (mapError_eq_ok hrelationships)
  constructor
  · intro host hstored
    have hstored : db.hosts.get entry.base.hostId = some host := hstored
    unfold validateIfEntryNetworkConsistency at hnetwork
    rw [hstored] at hnetwork
    by_contra hne
    simp [hne] at hnetwork
  · intro neighbor hsome
    have hsome : entry.base.neighbor = some neighbor := hsome
    cases neighbor with
    | host id =>
      unfold validateNeighborHost at hhost
      rw [hsome] at hhost
      simp only at hhost
      split at hhost
      · cases hhost
      next hne =>
      split at hhost
      · cases hhost
      next host hstored =>
      split at hhost
      · cases hhost
      next hsame =>
      refine ⟨?_, by simpa using hne⟩
      rw [networkOf, hstored, Option.map_some]
      exact congrArg some (by simpa using hsame)
    | ifEntry id =>
      unfold validateNeighborEntry at hneighbor
      rw [hsome] at hneighbor
      simp only at hneighbor
      split at hneighbor
      · cases hneighbor
      split at hneighbor
      · cases hneighbor
      next x hstored =>
      split at hneighbor
      · cases hneighbor
      next hhostNe =>
      split at hneighbor
      · cases hneighbor
      next hsame => exact ⟨x, hstored, by simpa using hsame, by simpa using hhostNe⟩

/-- A row that the table allows is in the network of its host, if that is right where there is one. -/
theorem placed_of_allowed (hallowed : Allowed db row)
    (h : ∀ host ∈ db.hosts.get row.base.hostId, host.base.networkId = row.base.networkId) :
    networkOf db row.base.hostId = some row.base.networkId := by
  obtain ⟨host, hhost⟩ := Option.isSome_iff_exists.mp (references_iff.mp hallowed.2).2.1
  rw [networkOf, hhost, Option.map_some, h host hhost]

theorem elsewhere_of_base {row entry : IfEntry} (hbase : row.base = entry.base) (neighbor : Neighbor) :
    Elsewhere db row neighbor ↔ Elsewhere db entry neighbor :=
  elsewhere_congr rfl (by rw [hbase]) (by rw [hbase]) fun _ _ => rfl

theorem wp_validateNetworkAccess {networkId : Uuid} {networkIds : List Uuid} {Q : Unit → Db → Prop}
    {E : Error → Db → Prop} :
    wp (BindingHandlers.validateNetworkAccess networkId networkIds) Q E db ↔
      (networkId ∈ networkIds → Q () db) ∧ (networkId ∉ networkIds → E (.accessDenied networkId) db) := by
  unfold BindingHandlers.validateNetworkAccess
  by_cases hmem : networkId ∈ networkIds
  · simp [hmem]
  · simp [hmem]

/-- An entry that is created is sound. -/
theorem wp_createIfEntry (h : Inv db) (networkIds : List Uuid) (entry : IfEntry) :
    wp (createIfEntry networkIds entry) (fun _ t => Inv t) (fun _ t => Inv t) db := by
  simp only [createIfEntry, Program.wp_bind, Program.wp_get, wp_check, wp_validate, wp_validateNetworkAccess]
  refine ⟨fun hok => ⟨fun _ => ⟨fun _ => ?_, fun _ => h⟩, fun _ _ => h⟩, fun _ _ => h⟩
  have hchecked := checked hok
  have hbase := created_base db entry
  refine wp_createEntry (fun _ drawn _ => h.redrawn drawn) fun ifEntries drawn hinsert hallowed => ?_
  refine h.insert hinsert hallowed (placed_of_allowed hallowed ?_) fun neighbor hneighbor => ?_
  · rw [hbase]
    exact hchecked.placed
  · rw [hbase] at hneighbor
    exact (elsewhere_of_base hbase neighbor).mpr (hchecked.elsewhere neighbor hneighbor)

/-- An update is right exactly when the entry is not its own neighbor, and not moved away from those it is the neighbor of. -/
theorem wp_updateIfEntry (h : Inv db) (networkIds : List Uuid) (id : Uuid) (entry : IfEntry) :
    wp (updateIfEntry networkIds id entry)
      (fun _ t => (Sound t ↔ Heeds parseMac db (.update networkIds id entry)) ∧ (Sound t → Inv t))
      (fun _ t => (Sound t ↔ Heeds parseMac db (.update networkIds id entry)) ∧ (Sound t → Inv t)) db := by
  -- nothing is written
  have hskip (hvacuous : Heeds parseMac db (.update networkIds id entry)) :
      (Sound db ↔ Heeds parseMac db (.update networkIds id entry)) ∧ (Sound db → Inv db) :=
    ⟨iff_of_true h.sound hvacuous, fun _ => h⟩
  simp only [updateIfEntry, Program.wp_bind, Program.wp_get, wp_check]
  refine ⟨fun hok => ?_, fun m herror => hskip fun _ _ hok => ?_⟩
  · rw [Storable.wp_getById]
    cases hget : Storable.table (α := IfEntry) db |>.get id with
    | none =>
      have hget : db.ifEntries.get id = none := hget
      refine hskip fun existing hexisting => ?_
      rw [hget] at hexisting
      cases hexisting
    | some existing =>
      have hget : db.ifEntries.get id = some existing := hget
      have hid : existing.id = id := (Table.get_eq_some.mp hget).2
      have hheeds (hno : ¬ (validateEntity entry = none ∧ existing.base.networkId ∈ networkIds ∧
          entry.base.networkId ∈ networkIds ∧ Allowed db (preserveImmutableFields entry existing))) :
          Heeds parseMac db (.update networkIds id entry) := by
        intro x hx _ hvalid hold hnew hallowed
        rw [hget] at hx
        cases hx
        exact absurd ⟨hvalid, hold, hnew, hallowed⟩ hno
      simp only [Program.wp_bind, wp_validate, wp_validateNetworkAccess]
      refine ⟨fun hvalid => ⟨fun hold => ⟨fun hnew => ?_, fun hno => ?_⟩, fun hno => ?_⟩, fun m hm => ?_⟩
      · have hstored : (db.ifEntries.get (preserveImmutableFields entry existing).id).isSome = true := by
          rw [show (preserveImmutableFields entry existing).id = id from hid, hget, Option.isSome_some]
        refine wp_updateEntry (fun hno _ => hskip (hheeds fun hall => hno ⟨hstored, hall.2.2.2⟩)) fun _ hallowed => ?_
        have hchecked := checked hok
        have hfits : Fits db (preserveImmutableFields entry existing) ↔
            Heeds parseMac db (.update networkIds id entry) := by
          constructor
          · intro hfits x hx _ _ _ _ _
            rw [hget] at hx
            cases hx
            refine ⟨fun hself => (hfits.neighbor _ hself).1 (congrArg Neighbor.ifEntry hid.symm),
              fun e he hne hneighbor => ?_⟩
            exact hfits.others e he (fun heq => hne (heq.trans hid)) (hneighbor.trans (by rw [← hid]; rfl))
          · intro hheeds
            obtain ⟨hself, hothers⟩ := hheeds existing hget hok hvalid hold hnew hallowed
            refine ⟨fun neighbor hneighbor => ⟨?_, hchecked.elsewhere neighbor hneighbor⟩,
              fun e he hne hneighbor => ?_⟩
            · rintro rfl
              exact hself (hneighbor.trans (by rw [← hid]; rfl))
            · exact hothers e he (fun heq => hne (heq.trans hid.symm)) (hneighbor.trans (by rw [← hid]; rfl))
        refine ⟨(sound_update_iff h.sound hstored).trans hfits, fun hsound => ?_⟩
        exact h.update hstored hallowed (placed_of_allowed hallowed hchecked.placed)
          ((sound_update_iff h.sound hstored).mp hsound)
      · exact hskip (hheeds fun hall => hno hall.2.2.1)
      · exact hskip (hheeds fun hall => hno hall.2.1)
      · refine hskip (hheeds fun hall => ?_)
        have hvalid : validateEntity (preserveImmutableFields entry existing) = none := hall.1
        rw [hvalid] at hm
        cases hm
  · rw [herror] at hok
    cases hok

end Endpoints

/-- A discovered entry is right exactly when the neighbor it is sent with is elsewhere. -/
theorem wp_upsert (h : Inv db) {host : Host} (hhost : db.hosts.get host.id = some host) (entry : IfEntry) :
    wp (HostService.saveIfEntry host entry)
      (fun _ t => (Sound t ↔ Heeds parseMac db (.upsert host.id entry)) ∧ (Sound t → Inv t))
      (fun _ t => (Sound t ↔ Heeds parseMac db (.upsert host.id entry)) ∧ (Sound t → Inv t)) db := by
  have hheeds (hw : Writable db host entry) : Heeds parseMac db (.upsert host.id entry) ↔
      ∀ neighbor ∈ entry.base.neighbor, Elsewhere db (upserted db host entry) neighbor := by
    constructor
    · exact fun hheeds => hheeds host hhost hw
    · intro helse x hx _
      rw [hhost] at hx
      cases hx
      exact helse
  have hbase : (upserted db host entry).base = (onHost host entry).base := upserted_base
  have hplaced : networkOf db (upserted db host entry).base.hostId =
      some (upserted db host entry).base.networkId := by
    rw [hbase, networkOf, show (onHost host entry).base.hostId = host.id from rfl, hhost, Option.map_some]
    rfl
  have hneighbor : (upserted db host entry).base.neighbor = entry.base.neighbor := by rw [hbase]; rfl
  refine wp_saveIfEntry (fun hno drawn _ => ⟨iff_of_true h.sound fun x hx hw => ?_, fun _ => h.redrawn drawn⟩)
    (fun hstored hw => ?_) fun ifEntries drawn hinsert hw => ?_
  · rw [hhost] at hx
    cases hx
    exact absurd hw hno
  · obtain ⟨stored, hget⟩ := Option.isSome_iff_exists.mp hstored
    have hstoredHost : stored.base.hostId = (upserted db host entry).base.hostId := by
      rw [hbase]
      exact (hw.2 stored hget).1
    have hstoredNetwork : stored.base.networkId = (upserted db host entry).base.networkId := by
      have hold := h.placed stored (Table.get_eq_some.mp hget).1
      rw [hstoredHost, hplaced] at hold
      exact (Option.some.inj hold).symm
    have hself (e : IfEntry) : Elsewhere db e (.ifEntry (upserted db host entry).id) ↔
        (upserted db host entry).base.networkId = e.base.networkId ∧
        (upserted db host entry).base.hostId ≠ e.base.hostId := by
      simp only [Elsewhere, hget, Option.mem_def, Option.some.injEq, exists_eq_left', hstoredHost, hstoredNetwork]
    have hfits : Fits db (upserted db host entry) ↔
        ∀ neighbor ∈ entry.base.neighbor, Elsewhere db (upserted db host entry) neighbor := by
      constructor
      · exact fun hfits neighbor hin => (hfits.neighbor neighbor (hneighbor ▸ hin)).2
      · refine fun helse => ⟨fun neighbor hin => ?_, fun e he _ hin => (hself e).mp (h.sound e he _ hin)⟩
        have hin : neighbor ∈ entry.base.neighbor := hneighbor ▸ hin
        refine ⟨?_, helse neighbor hin⟩
        rintro rfl
        exact ((hself _).mp (helse _ hin)).2 rfl
    refine ⟨(sound_update_iff h.sound hstored).trans (hfits.trans (hheeds hw).symm), fun hsound => ?_⟩
    exact h.update hstored hw.1 hplaced ((sound_update_iff h.sound hstored).mp hsound)
  · have hsound : Sound { db with ifEntries, drawn } ↔ _ := sound_insert_iff h hinsert hw.1
    rw [hneighbor] at hsound
    refine ⟨hsound.trans (hheeds hw).symm, fun hs => h.insert hinsert hw.1 hplaced ?_⟩
    rw [hneighbor]
    exact hsound.mp hs

theorem resolve_iff (h : Inv db) (networkId : Uuid) :
    Sound (after (HostService.resolveLldpLinks parseMac networkId) db) ↔ Heeds parseMac db (.resolve networkId) := by
  have hmem (e : IfEntry) (he : e ∈ HostService.unresolvedEntries db networkId) : e ∈ db.ifEntries.rows :=
    (Table.mem_select.mp he).1
  rw [after_resolveLldpLinks parseMac h,
    sound_revised_iff (inPlace_resolved parseMac db networkId) hmem Table.nodup_select h.sound]
  refine forall₂_congr fun e he => ?_
  obtain ⟨-, hp⟩ := Table.mem_select.mp he
  simp only [Bool.and_eq_true, beq_iff_eq, IfEntry.isUnresolved, Option.isNone_iff_eq_none] at hp
  obtain ⟨hnetwork, -, hnone⟩ := hp
  cases hfound : HostService.resolvedNeighbor parseMac db networkId e with
  | none =>
    have hheard : heard parseMac db networkId e = none := by
      rw [← Option.isSome_eq_false_iff.trans Option.isNone_iff_eq_none, ← resolvedNeighbor_isSome, hfound]
      rfl
    have hself : (resolved parseMac db networkId e).base.neighbor = none := by rw [resolved, hfound]; exact hnone
    simp [hself, hheard]
  | some neighbor =>
    obtain ⟨hostId, hheard, hiff⟩ := (found parseMac h hfound).elsewhere
    have hnew : (resolved parseMac db networkId e).base.neighbor = some neighbor := by rw [resolved, hfound]
    rw [hnew, hheard]
    simp only [Option.mem_def, Option.some.injEq, forall_eq']
    rw [hiff, hnetwork]

theorem inv_resolve (h : Inv db) {networkId : Uuid}
    (hsound : Sound (after (HostService.resolveLldpLinks parseMac networkId) db)) :
    Inv (after (HostService.resolveLldpLinks parseMac networkId) db) := by
  have hmem (e : IfEntry) (he : e ∈ HostService.unresolvedEntries db networkId) : e ∈ db.ifEntries.rows :=
    (Table.mem_select.mp he).1
  rw [after_resolveLldpLinks parseMac h] at hsound ⊢
  exact Inv.revised (inPlace_resolved parseMac db networkId) hmem Table.nodup_select h
    (fun e he => references_resolved parseMac h (hmem e he)) hsound

theorem inv_linked (h : Inv db) (hostId : Uuid) :
    Inv (revised (linked (db.interfacesOf hostId)) db (db.ifEntriesOf hostId)) := by
  have hg := inPlace_linked (db.interfacesOf hostId)
  have hmem (e : IfEntry) (he : e ∈ db.ifEntriesOf hostId) : e ∈ db.ifEntries.rows := (mem_ifEntriesOf.mp he).1
  refine Inv.revised hg hmem Table.nodup_select h (fun e he => references_linked (h.references e (hmem e he)))
    ((sound_revised_iff hg hmem Table.nodup_select h.sound).mpr fun e he neighbor hneighbor => ?_)
  rw [neighbor_linked] at hneighbor
  exact h.sound e (hmem e he) neighbor hneighbor

section Keeping

variable {host : Host} {entries : List IfEntry} {stamp : IfEntry → Uuid × DateTime}

theorem inv_rediscovered (h : Inv db) (hperm : entries.Perm (db.ifEntriesOf host.id)) :
    Inv (rediscovered db host.id stamp entries) :=
  inv_linked (inv_saved h hperm) host.id

/-- An entry that is discovered again is linked by its MAC address, and has no neighbor. -/
theorem get_rediscovered (hperm : entries.Perm (db.ifEntriesOf host.id)) (he : e ∈ db.ifEntries.rows)
    (hhost : e.base.hostId = host.id) : (rediscovered db host.id stamp entries).ifEntries.get e.id =
      some (linked (db.interfacesOf host.id) (bare stamp e)) := by
  have hmem (e : IfEntry) (he : e ∈ entries) : e ∈ db.ifEntries.rows := ((mem_entries hperm).mp he).1
  have hmem' (x : IfEntry) (hx : x ∈ (revised (bare stamp) db entries).ifEntriesOf host.id) :
      x ∈ (revised (bare stamp) db entries).ifEntries.rows := (mem_ifEntriesOf.mp hx).1
  have hsaved : (revised (bare stamp) db entries).ifEntries.get e.id = some (bare stamp e) := by
    rw [get_revised (inPlace_bare stamp) hmem (nodup_entries hperm), Table.get_eq_some.mpr ⟨he, rfl⟩, Option.map_some,
      if_pos ((mem_entries hperm).mpr ⟨he, hhost⟩)]
  have hlisted : bare stamp e ∈ (revised (bare stamp) db entries).ifEntriesOf host.id :=
    mem_ifEntriesOf.mpr ⟨(Table.get_eq_some.mp hsaved).1, hhost⟩
  rw [rediscovered, get_revised (inPlace_linked _) hmem' Table.nodup_select, hsaved, Option.map_some, if_pos hlisted]

theorem interfaceId_linked_bare (interfaces : List Interface) (e : IfEntry) :
    (linked interfaces (bare stamp e)).base.interfaceId = (HostService.interfaceByMac interfaces e).map (·.id) := by
  have hmac : HostService.interfaceByMac interfaces (bare stamp e) = HostService.interfaceByMac interfaces e := rfl
  have hnone : (bare stamp e).base.interfaceId.isNone = true := rfl
  rw [linked, hnone, if_pos rfl, hmac]
  cases HostService.interfaceByMac interfaces e <;> rfl

/-- A discovery keeps exactly the entries that had no neighbor, and were linked by their MAC addresses. -/
theorem keeps_iff (hperm : entries.Perm (db.ifEntriesOf host.id)) :
    Keeps db (.rediscover host.id entries stamp) (rediscovered db host.id stamp entries) ↔
      Heeds parseMac db (.rediscover host.id entries stamp) := by
  refine forall₃_congr fun e he hhost => ?_
  rw [get_rediscovered hperm he hhost]
  simp only [Option.mem_def, Option.some.injEq, exists_eq_left', interfaceId_linked_bare, neighbor_linked]
  exact and_congr eq_comm eq_comm

end Keeping

variable {a : Action}

/-- What holds after a step that is right exactly when it heeds what it should. -/
structure Step (db : Db) (a : Action) (t : Db) : Prop where
  right : Right db a t ↔ Heeds parseMac db a
  inv : Right db a t → Inv t

/-- A step that has nothing to keep. -/
theorem Step.of_sound (hkeeps : Keeps db a t) (hsound : Sound t ↔ Heeds parseMac db a) (hinv : Sound t → Inv t) :
    Step parseMac db a t where
  right := (and_iff_left hkeeps).trans hsound
  inv hright := hinv hright.1

theorem step_spec (h : Inv db) (hstep : step parseMac db a = some t) : Step parseMac db a t := by
  cases a with
  | create networkIds entry =>
    cases hstep
    have hinv : Inv (after (IfEntryHandlers.createIfEntry networkIds entry) db) :=
      (Program.wp_after (P := Inv)).mp (wp_createIfEntry h networkIds entry)
    exact .of_sound parseMac trivial (iff_of_true hinv.sound trivial) fun _ => hinv
  | update networkIds id entry =>
    cases hstep
    obtain ⟨hiff, hinv⟩ := (Program.wp_after (P := fun t =>
      (Sound t ↔ Heeds parseMac db (.update networkIds id entry)) ∧ (Sound t → Inv t))).mp
      (wp_updateIfEntry parseMac h networkIds id entry)
    exact .of_sound parseMac trivial hiff hinv
  | upsert hostId entry =>
    obtain ⟨host, hhost, rfl⟩ := Option.map_eq_some_iff.mp hstep
    obtain rfl : host.id = hostId := (Table.get_eq_some.mp hhost).2
    obtain ⟨hiff, hinv⟩ := (Program.wp_after (P := fun t =>
      (Sound t ↔ Heeds parseMac db (.upsert host.id entry)) ∧ (Sound t → Inv t))).mp
      (wp_upsert parseMac h hhost entry)
    exact .of_sound parseMac trivial hiff hinv
  | link hostId =>
    cases hstep
    have hinv : Inv (after (HostService.linkIfEntriesToInterfaces hostId) db) := by
      refine (Program.wp_after (P := Inv)).mp
        ((wp_linkIfEntries h hostId).mono (fun _ t ht => ?_) fun _ _ hno => hno.elim)
      subst ht
      exact inv_linked h hostId
    exact .of_sound parseMac trivial (iff_of_true hinv.sound trivial) fun _ => hinv
  | resolve networkId =>
    cases hstep
    exact .of_sound parseMac trivial (resolve_iff parseMac h networkId) (inv_resolve parseMac h)
  | rediscover hostId entries stamp =>
    simp only [step] at hstep
    split at hstep
    · next host hhost hperm =>
      cases hstep
      obtain rfl : host.id = hostId := (Table.get_eq_some.mp hhost).2
      have hperm := List.isPerm_iff.mp hperm
      rw [after_discover h hhost hperm]
      have hinv := @inv_rediscovered db host entries stamp h hperm
      exact ⟨(and_iff_right hinv.sound).trans (keeps_iff parseMac hperm), fun _ => hinv⟩
    · cases hstep

section Runs

instance (db : Db) (a : Action) (t : Db) : Decidable (Keeps db a t) := by
  cases a <;> unfold Keeps <;> infer_instance

instance (db : Db) (a : Action) (t : Db) : Decidable (Right db a t) := inferInstanceAs (Decidable (_ ∧ _))

/-- A port that heard of the switch with a chassis id, and of its port. -/
def port (neighbor : Option Neighbor) (chassisId : String) : IfEntry where
  id := 11
  base.hostId := 1
  base.networkId := 9
  base.ifIndex := 1
  base.ifDescr := "ge-0"
  base.neighbor := neighbor
  base.lldpChassisId := some (.locallyAssigned chassisId)
  base.lldpPortId := some (.interfaceName "ge-1")

/-- Two switches of a network, with a port each, the first of which heard of a switch. -/
def switches (chassisId : String) : Db where
  networks := [9]
  hosts := ⟨[{ id := 1, base := { networkId := 9, chassisId := some "A" } },
    { id := 2, base := { networkId := 9, chassisId := some "B" } }], by decide⟩
  ifEntries := ⟨[port none chassisId,
    { id := 12, base := { hostId := 2, networkId := 9, ifIndex := 1, ifDescr := "ge-1" } }], by simp [port]; decide⟩

theorem inv_switches : Inv (switches "B") :=
  ⟨by decide, by decide, by decide, by decide, by decide⟩

end Runs

end Neighbors

end Netvisor
