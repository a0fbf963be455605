/-
What a consolidation does to the tables, row by row.

`Rehomed` is what they hold once the interfaces, the ports and the host have
been moved, and `Moving` when some services have been too. A service is moved
if it is `Accepted` next to those of the destination and those moved before.
-/
import Netvisor.Hosts.Consolidation
import Netvisor.Services.Lawful

namespace Netvisor

open Program (wp)

namespace HostService

variable {db t : Db} {destination other : Host} {hostsWithDaemon : List Uuid}

/-! ## The interfaces and ports -/

/-- The map the consolidation goes by. -/
def idMaps (db : Db) (destination other : Host) : IdMaps where
  interfaces := (db.interfacesOf other.id).map fun i =>
    (i.id, ((matchingInterface (db.interfacesOf destination.id) i).getD i).id)
  ports := (db.portsOf other.id).map fun p => (p.id, ((matchingPort (db.portsOf destination.id) p).getD p).id)

theorem transferable_interfaces (hdb : db.Lawful) (hdest : db.hasHost destination.id = true) :
    Storable.Transferable db (matchingInterface (db.interfacesOf destination.id))
      (fun i => { i with base.hostId := destination.id }) (db.interfacesOf other.id) where
  stored i hi := (Db.mem_interfacesOf.mp hi).1
  nodup := Table.nodup_select
  id_eq _ := rfl
  row_eq _ := rfl
  table_set _ := rfl
  set_set _ _ := rfl
  set_self := rfl
  references i hi _ tbl := by
    have href := (hdb.interfaces i (Db.mem_interfacesOf.mp hi).1).2
    simp only [Storable.references, Bool.and_eq_true] at href
    simp only [Storable.references, Bool.and_eq_true]
    exact ⟨⟨href.1.1, hdest⟩, href.2⟩
  broken i hi hm tbl hmem := by
    rw [Storable.broken_eq_none]
    rintro _ ⟨⟩ x hx hxi
    obtain ⟨hi, hihost⟩ := Db.mem_interfacesOf.mp hi
    have hunique (y : Interface) (hy : y ∈ db.interfaces.rows) (hyi : y.id ≠ i.id) :=
      Storable.broken_eq_none.mp (hdb.interfaces i hi).1 _ rfl y hy hyi
    simp only [Bool.and_eq_false_iff, beq_eq_false_iff_ne] at hunique ⊢
    rcases hmem x hx with hx | ⟨y, hy, -, rfl⟩
    · -- An interface of the destination is no match.
      by_cases hhost : x.base.hostId = destination.id
      · have := List.find?_eq_none.mp hm x (Db.mem_interfacesOf.mpr ⟨hx, hhost⟩)
        simp only [conflicting, Bool.or_eq_true, Bool.and_eq_true, beq_iff_eq, not_or, not_and] at this
        by_cases hsubnet : x.base.subnetId = i.base.subnetId
        · exact .inr (this.1 hsubnet)
        · exact .inl (.inr hsubnet)
      · exact .inl (.inl hhost)
    · -- Two interfaces of the other host were distinct there.
      obtain ⟨hy, hyhost⟩ := Db.mem_interfacesOf.mp hy
      rcases hunique y hy hxi with (h | h) | h
      · exact absurd (hyhost.trans hihost.symm) h
      · exact .inl (.inr h)
      · exact .inr h

theorem transferable_ports (hdb : db.Lawful) (hdest : db.hasHost destination.id = true)
    (hnetwork : db.hasNetwork destination.base.networkId = true) (interfaces : Table Interface Interface.id) :
    Storable.Transferable { db with interfaces } (matchingPort (db.portsOf destination.id))
      (fun p => p.withHost destination.id destination.base.networkId) (db.portsOf other.id) where
  stored p hp := (Db.mem_portsOf.mp hp).1
  nodup := Table.nodup_select
  id_eq _ := rfl
  row_eq _ := rfl
  table_set _ := rfl
  set_set _ _ := rfl
  set_self := rfl
  references p hp _ tbl := by
    simp only [Storable.references, Bool.and_eq_true]
    exact ⟨hnetwork, hdest⟩
  broken p hp hm tbl hmem := by
    rw [Storable.broken_eq_none]
    rintro _ ⟨⟩ x hx hxp
    obtain ⟨hp, hphost⟩ := Db.mem_portsOf.mp hp
    have hunique (y : Port) (hy : y ∈ db.ports.rows) (hyp : y.id ≠ p.id) :=
      Storable.broken_eq_none.mp (hdb.ports p hp).1 _ rfl y hy hyp
    simp only [Bool.and_eq_false_iff, beq_eq_false_iff_ne] at hunique ⊢
    rcases hmem x hx with hx | ⟨y, hy, -, rfl⟩
    · by_cases hhost : x.base.hostId = destination.id
      · have := List.find?_eq_none.mp hm x (Db.mem_portsOf.mpr ⟨hx, hhost⟩)
        exact .inr (Bool.eq_false_iff.mpr this)
      · exact .inl hhost
    · obtain ⟨hy, hyhost⟩ := Db.mem_portsOf.mp hy
      rcases hunique y hy hxp with h | h
      · exact absurd (hyhost.trans hphost.symm) h
      · exact .inr h

/-- The tables when interfaces, ports and the host have been moved. -/
structure Rehomed (db : Db) (destination other : Host) (t : Db) : Prop where
  same : ∃ interfaces ports hosts, t = { db with interfaces, ports, hosts }
  interfaces : ∀ x, x ∈ t.interfaces.rows ↔
    (∃ i ∈ db.interfacesOf other.id, matchingInterface (db.interfacesOf destination.id) i = none ∧
      x = { i with base.hostId := destination.id }) ∨
    x ∈ db.interfaces.rows ∧ ∀ i ∈ db.interfacesOf other.id,
      matchingInterface (db.interfacesOf destination.id) i = none →
      x.id ≠ i.id
  ports : ∀ x, x ∈ t.ports.rows ↔
    (∃ p ∈ db.portsOf other.id, matchingPort (db.portsOf destination.id) p = none ∧
      x = p.withHost destination.id destination.base.networkId) ∨
    x ∈ db.ports.rows ∧ ∀ p ∈ db.portsOf other.id, matchingPort (db.portsOf destination.id) p = none → x.id ≠ p.id
  hosts : ∀ x, x ∈ t.hosts.rows ↔ x = merged destination other ∨ x ∈ db.hosts.rows ∧ x.id ≠ destination.id

theorem merged_of_not_hasUpdates (h : hasUpdates destination other = false) :
    merged destination other = destination := by
  have hfill (a b : Option String) (h : (a.isNone && b.isSome) = false) : (a <|> b) = a := by
    cases a <;> cases b <;> simp_all
  unfold hasUpdates at h
  dsimp only at h
  simp only [Bool.or_eq_false_iff] at h
  obtain ⟨⟨⟨⟨⟨⟨⟨h₁, h₂⟩, h₃⟩, h₄⟩, h₅⟩, h₆⟩, h₇⟩, h₈⟩ := h
  have hsource : mergeSource destination.base.source other.base.source = destination.base.source := by
    unfold mergeSource
    cases hs : other.base.source with
    | discovery metadata => simp [hs] at h₈
    | _ => cases destination.base.source <;> rfl
  simp only [merged, hsource, hfill _ _ h₁, hfill _ _ h₂, hfill _ _ h₃, hfill _ _ h₄, hfill _ _ h₅, hfill _ _ h₆,
    hfill _ _ h₇]

theorem wp_upsertDestination (hhosts : Constrained Host db) (hdest : db.hosts.get destination.id = some destination)
    {interfaces : Table Interface Interface.id} {ports : Table Port Port.id} :
    wp (upsertHost destination other)
      (fun h t => h = merged destination other ∧ ∃ hosts, t = { db with interfaces, ports, hosts } ∧
        ∀ x, x ∈ hosts.rows ↔ x = merged destination other ∨ x ∈ db.hosts.rows ∧ x.id ≠ destination.id)
      (fun _ _ => False) { db with interfaces, ports } := by
  obtain ⟨hmem, -⟩ := Table.get_eq_some.mp hdest
  simp only [upsertHost, Program.wp_bind, Program.wp_ite, Program.wp_pure]
  refine ⟨fun _ => ?_, fun hupdates => ?_⟩
  · have hget : ((Storable.table (α := Host) { db with interfaces, ports }).get
        (merged destination other).id).isSome :=
      Option.isSome_iff_exists.mpr ⟨destination, hdest⟩
    have href := (hhosts destination hmem).2
    refine (Program.wp_of_ok (Storable.update_eq_ok hget rfl href)).mpr ⟨trivial, _, rfl, fun x => ?_⟩
    rw [Table.mem_update]
    constructor
    · rintro (⟨rfl, -⟩ | hx)
      · exact .inl rfl
      · exact .inr hx
    · rintro (rfl | hx)
      · exact .inl ⟨rfl, destination, hmem, rfl⟩
      · exact .inr hx
  · refine ⟨trivial, db.hosts, rfl, fun x => ?_⟩
    rw [merged_of_not_hasUpdates (by simpa using hupdates)]
    constructor
    · intro hx
      by_cases heq : x.id = destination.id
      · exact .inl (db.hosts.eq_of_key hx hmem heq)
      · exact .inr ⟨hx, heq⟩
    · rintro (rfl | ⟨hx, -⟩)
      · exact hmem
      · exact hx

/-! ## Where the bindings go -/

theorem lookup_map_of_nodup {α : Type} {key : α → Uuid} {f : α → Uuid} {a : α} :
    ∀ {l : List α}, (l.map key).Nodup → a ∈ l → (l.map fun a => (key a, f a)).lookup (key a) = some (f a)
  | b :: l, hnodup, ha => by
    rw [List.map_cons, List.nodup_cons] at hnodup
    rw [List.map_cons, List.lookup_cons]
    rcases List.mem_cons.mp ha with rfl | ha
    · simp
    · have hne : (key a == key b) = false := by
        rw [beq_eq_false_iff_ne]
        exact fun heq => hnodup.1 (heq ▸ List.mem_map_of_mem ha)
      rw [hne]
      exact lookup_map_of_nodup hnodup.2 ha

theorem wp_transferInterfaces (hdb : db.Lawful) (hdest : db.hasHost destination.id = true) :
    wp ((db.interfacesOf other.id).mapM (transferInterface destination (db.interfacesOf destination.id)))
      (fun out t => out = (idMaps db destination other).interfaces ∧
        Storable.Transferred db (matchingInterface (db.interfacesOf destination.id))
          (fun i => { i with base.hostId := destination.id }) (db.interfacesOf other.id) t) (fun _ _ => False) db :=
  Storable.wp_transferAll (transferable_interfaces hdb hdest)
    (fun i dest hm => by simp only [transferInterface, hm]; rfl)
    fun i hm => by simp only [transferInterface, hm]; rfl

theorem wp_transferPorts (hdb : db.Lawful) (hdest : db.hasHost destination.id = true)
    (hnetwork : db.hasNetwork destination.base.networkId = true) (interfaces : Table Interface Interface.id) :
    wp ((db.portsOf other.id).mapM (transferPort destination (db.portsOf destination.id)))
      (fun out t => out = (idMaps db destination other).ports ∧
        Storable.Transferred { db with interfaces } (matchingPort (db.portsOf destination.id))
          (fun p => p.withHost destination.id destination.base.networkId) (db.portsOf other.id) t) (fun _ _ => False)
      { db with interfaces } :=
  Storable.wp_transferAll (transferable_ports hdb hdest hnetwork interfaces)
    (fun p dest hm => by simp only [transferPort, hm]; rfl) fun p hm => by simp only [transferPort, hm]; rfl

namespace Rehomed

variable (h : Rehomed db destination other t) (hne : destination.id ≠ other.id) {b : Binding}
include h hne

theorem interface_kept {x : Interface} (hx : x ∈ db.interfaces.rows) (hhost : x.base.hostId = destination.id) :
    x ∈ t.interfaces.rows := by
  refine (h.interfaces x).mpr (.inr ⟨hx, fun i hi _ heq => ?_⟩)
  obtain ⟨hi, hihost⟩ := Db.mem_interfacesOf.mp hi
  rw [db.interfaces.eq_of_key hx hi heq] at hhost
  exact hne (hhost.symm.trans hihost)

theorem port_kept {x : Port} (hx : x ∈ db.ports.rows) (hhost : x.base.hostId = destination.id) :
    x ∈ t.ports.rows := by
  refine (h.ports x).mpr (.inr ⟨hx, fun p hp _ heq => ?_⟩)
  obtain ⟨hp, hphost⟩ := Db.mem_portsOf.mp hp
  rw [db.ports.eq_of_key hx hp heq] at hhost
  exact hne (hhost.symm.trans hphost)

theorem interface_target {x : Interface} (hx : x ∈ db.interfaces.rows) (hhost : x.base.hostId = other.id) :
    ∃ y ∈ t.interfaces.rows, y.base.hostId = destination.id ∧
      (idMaps db destination other).interfaces.lookup x.id = some y.id := by
  have hi : x ∈ db.interfacesOf other.id := Db.mem_interfacesOf.mpr ⟨hx, hhost⟩
  have hlookup : (idMaps db destination other).interfaces.lookup x.id =
      some ((matchingInterface (db.interfacesOf destination.id) x).getD x).id :=
    lookup_map_of_nodup (f := fun i => ((matchingInterface (db.interfacesOf destination.id) i).getD i).id)
      Table.nodup_select hi
  rw [hlookup]
  cases hm : matchingInterface (db.interfacesOf destination.id) x with
  | some y =>
    obtain ⟨hy, hyhost⟩ := Db.mem_interfacesOf.mp (List.mem_of_find?_eq_some hm)
    exact ⟨y, h.interface_kept hne hy hyhost, hyhost, rfl⟩
  | none => exact ⟨_, (h.interfaces _).mpr (.inl ⟨x, hi, hm, rfl⟩), rfl, rfl⟩

theorem port_target {x : Port} (hx : x ∈ db.ports.rows) (hhost : x.base.hostId = other.id) :
    ∃ y ∈ t.ports.rows, y.base.hostId = destination.id ∧
      (idMaps db destination other).ports.lookup x.id = some y.id := by
  have hp : x ∈ db.portsOf other.id := Db.mem_portsOf.mpr ⟨hx, hhost⟩
  have hlookup : (idMaps db destination other).ports.lookup x.id =
      some ((matchingPort (db.portsOf destination.id) x).getD x).id :=
    lookup_map_of_nodup (f := fun p => ((matchingPort (db.portsOf destination.id) p).getD p).id) Table.nodup_select hp
  rw [hlookup]
  cases hm : matchingPort (db.portsOf destination.id) x with
  | some y =>
    obtain ⟨hy, hyhost⟩ := Db.mem_portsOf.mp (List.mem_of_find?_eq_some hm)
    exact ⟨y, h.port_kept hne hy hyhost, hyhost, rfl⟩
  | none => exact ⟨_, (h.ports _).mpr (.inl ⟨x, hp, hm, rfl⟩), rfl, rfl⟩

theorem onHost_kept (hb : db.OnHost destination.id b) : t.OnHost destination.id b := by
  refine ⟨fun p hp => ?_, fun i hi => ?_⟩
  · obtain ⟨x, hx, hxp, hhost⟩ := hb.1 p hp
    exact ⟨x, h.port_kept hne hx hhost, hxp, hhost⟩
  · obtain ⟨x, hx, hxi, hhost⟩ := hb.2 i hi
    exact ⟨x, h.interface_kept hne hx hhost, hxi, hhost⟩

/-- A binding of the other host is rewritten to one of the destination. -/
theorem onHost_binding (hb : db.OnHost other.id b) :
    t.OnHost destination.id ((idMaps db destination other).binding b) := by
  obtain ⟨hports, hinterfaces⟩ := hb
  unfold Binding.portId at hports
  unfold Binding.interfaceId at hinterfaces
  unfold Db.OnHost Binding.portId Binding.interfaceId IdMaps.binding
  cases hb : b.base.bindingType with
  | interface i =>
    rw [hb] at hinterfaces
    obtain ⟨x, hx, rfl, hhost⟩ := hinterfaces i rfl
    obtain ⟨y, hy, hyhost, hlookup⟩ := h.interface_target hne hx hhost
    simp only [IdMaps.bindingType, hlookup, Option.getD_some]
    refine ⟨fun p hp => absurd hp (by simp), fun i hi => ?_⟩
    obtain rfl := Option.some.inj hi
    exact ⟨y, hy, rfl, hyhost⟩
  | port p i =>
    rw [hb] at hports hinterfaces
    obtain ⟨x, hx, rfl, hhost⟩ := hports p rfl
    obtain ⟨y, hy, hyhost, hlookup⟩ := h.port_target hne hx hhost
    simp only [IdMaps.bindingType, hlookup, Option.getD_some]
    refine ⟨fun p hp => ?_, fun j hj => ?_⟩
    · obtain rfl := Option.some.inj hp
      exact ⟨y, hy, rfl, hyhost⟩
    · obtain ⟨i, rfl, hlookup⟩ := Option.bind_eq_some_iff.mp hj
      obtain ⟨x, hx, rfl, hhost⟩ := hinterfaces i rfl
      obtain ⟨z, hz, hzhost, hlookup'⟩ := h.interface_target hne hx hhost
      have hid : z.id = j := Option.some.inj (hlookup'.symm.trans hlookup)
      exact ⟨z, hz, hid, hzhost⟩

end Rehomed

/-! ## The services -/

open ServiceService (children deduplicated)

/-- No binding of the service claims a port of the other. -/
def Apart (service other : Service) : Prop := ∀ b ∈ service.base.bindings, b.conflicts other.claims = false

instance (service other : Service) : Decidable (Apart service other) := by
  unfold Apart
  infer_instance

/-- A service of the other host as it is saved on the destination. -/
def moved (db : Db) (destination other : Host) (service : Service) : Service :=
  deduplicated ((idMaps db destination other).service destination service)

/-- Those of some services that are moved, as they are saved. -/
def movedOf (db : Db) (destination other : Host) (services : List Service) : List Service :=
  (services.filter fun s => !isDuplicate (db.servicesOf destination.id) s).map (moved db destination other)

/-- The services that are moved. -/
def movedServices (db : Db) (destination other : Host) : List Service :=
  movedOf db destination other (db.servicesOf other.id)

/-- The service passes its checks next to the services of the destination and those moved before. -/
structure Accepted (db : Db) (destination : Host) (before : List Service) (service : Service) : Prop where
  noConflicts : ServiceService.validateBindingsNoConflicts [] service.base.bindings = none
  stored : ∀ d ∈ db.servicesOf destination.id, Apart service d
  moved : ∀ m ∈ before, Apart service m

/-- All services pass, one after the other. -/
structure AllAccepted (db : Db) (destination : Host) (services : List Service) : Prop where
  noConflicts : ∀ m ∈ services, ServiceService.validateBindingsNoConflicts [] m.base.bindings = none
  stored : ∀ m ∈ services, ∀ d ∈ db.servicesOf destination.id, Apart m d
  moved : services.Pairwise fun before m => Apart m before

theorem allAccepted_append {before : List Service} {m : Service} :
    AllAccepted db destination (before ++ [m]) ↔ AllAccepted db destination before ∧
        Accepted db destination before m := by
  constructor
  · rintro ⟨h₁, h₂, h₃⟩
    simp only [List.mem_append, List.mem_singleton] at h₁ h₂
    obtain ⟨hpair, -, hlast⟩ := List.pairwise_append.mp h₃
    exact ⟨⟨fun x hx => h₁ x (.inl hx), fun x hx => h₂ x (.inl hx), hpair⟩, h₁ m (.inr rfl), h₂ m (.inr rfl),
      fun x hx => hlast x hx m (List.mem_singleton_self m)⟩
  · rintro ⟨h, hm⟩
    refine ⟨fun x hx => ?_, fun x hx => ?_, List.pairwise_append.mpr ⟨h.moved, List.pairwise_singleton _ _, ?_⟩⟩
    · rcases List.mem_append.mp hx with hx | hx
      · exact h.noConflicts x hx
      · exact List.mem_singleton.mp hx ▸ hm.noConflicts
    · rcases List.mem_append.mp hx with hx | hx
      · exact h.stored x hx
      · exact List.mem_singleton.mp hx ▸ hm.stored
    · intro x hx y hy
      exact List.mem_singleton.mp hy ▸ hm.moved x hx

/-- The services and bindings when `ms` have been moved. -/
def Moving (db : Db) (ms : List Service) (t : Db) : Prop :=
  ∃ services bindings, t = { db with services, bindings } ∧
    (∀ x, x ∈ services.rows ↔ (∃ m ∈ ms, x = Storable.row m) ∨ x ∈ db.services.rows ∧ ∀ m ∈ ms, x.id ≠ m.id) ∧
    ∀ b, b ∈ bindings.rows ↔
      (∃ m ∈ ms, b ∈ children m) ∨ b ∈ db.bindings.rows ∧ ∀ m ∈ ms, b.base.serviceId ≠ m.id

theorem Moving.nil : Moving db [] db := ⟨db.services, db.bindings, rfl, by simp, by simp⟩

theorem mem_children_serviceId {m : Service} {b : Binding} (hb : b ∈ children m) : b.base.serviceId = m.id := by
  obtain ⟨x, -, rfl⟩ := ServiceService.mem_children.mp hb
  rfl

theorem Moving.append {ms : List Service} {m : Service} {u : Db} (h : Moving db ms t)
    (hu : ServiceService.Rewritten t m u)
    (hm : ∀ x ∈ ms, x.id ≠ m.id) : Moving db (ms ++ [m]) u := by
  obtain ⟨services, bindings, rfl, hs, hb⟩ := h
  obtain ⟨services', bindings', rfl, hs', hb'⟩ := hu
  refine ⟨services', bindings', rfl, fun x => ?_, fun b => ?_⟩
  · have hs : x ∈ services.rows ↔ _ := hs x
    refine (hs' x).trans ?_
    simp only [hs, List.mem_append, List.mem_singleton]
    constructor
    · rintro (rfl | ⟨⟨y, hy, rfl⟩ | ⟨hx, hne⟩, hxm⟩)
      · exact .inl ⟨m, .inr rfl, rfl⟩
      · exact .inl ⟨y, .inl hy, rfl⟩
      · exact .inr ⟨hx, fun y hy => hy.elim (hne y) fun h => h ▸ hxm⟩
    · rintro (⟨y, hy | rfl, rfl⟩ | ⟨hx, hne⟩)
      · exact .inr ⟨.inl ⟨y, hy, rfl⟩, hm y hy⟩
      · exact .inl rfl
      · exact .inr ⟨.inr ⟨hx, fun y hy => hne y (.inl hy)⟩, hne m (.inr rfl)⟩
  · have hb : b ∈ bindings.rows ↔ _ := hb b
    refine (hb' b).trans ?_
    simp only [hb, List.mem_append, List.mem_singleton]
    constructor
    · rintro (hbm | ⟨⟨y, hy, hby⟩ | ⟨hx, hne⟩, hxm⟩)
      · exact .inl ⟨m, .inr rfl, hbm⟩
      · exact .inl ⟨y, .inl hy, hby⟩
      · exact .inr ⟨hx, fun y hy => hy.elim (hne y) fun h => h ▸ hxm⟩
    · rintro (⟨y, hy | rfl, hby⟩ | ⟨hx, hne⟩)
      · exact .inr ⟨.inl ⟨y, hy, hby⟩, mem_children_serviceId hby ▸ hm y hy⟩
      · exact .inl hby
      · exact .inr ⟨.inr ⟨hx, fun y hy => hne y (.inl hy)⟩, hne m (.inr rfl)⟩

/-- The services of `ms` come from the other host, and `m` is none of them. -/
structure Separate (db : Db) (destination : Host) (ms : List Service) (m : Service) : Prop where
  host : ∀ x ∈ ms, x.base.hostId = destination.id
  ne : ∀ x ∈ ms, x.id ≠ m.id
  stored : ∀ d ∈ db.services.rows, d.base.hostId = destination.id → d.id ≠ m.id ∧ ∀ x ∈ ms, d.id ≠ x.id

/-- The claims a moved service is checked against. -/
theorem conflicts_moving {ms : List Service} {m : Service} {b : Binding}
    (hr : Rehomed db destination other t) {u : Db}
    (h : Moving t ms u) (hsep : Separate db destination ms m) :
    b.conflicts (ServiceService.claimedByOthers u destination.id m.id) = true ↔
      (∃ d ∈ db.servicesOf destination.id, b.conflicts d.claims = true) ∨ ∃ x ∈ ms, b.conflicts x.claims = true := by
  obtain ⟨interfaces, ports, hosts, rfl⟩ := hr.same
  obtain ⟨services, bindings, rfl, hs, hb⟩ := h
  have hs (x : Service) : x ∈ services.rows ↔ _ := hs x
  have hb (b : Binding) : b ∈ bindings.rows ↔ _ := hb b
  rw [ServiceService.conflicts_claimedByOthers]
  simp only [Binding.conflicts_claims, Db.mem_servicesOf, hs, hb]
  constructor
  · rintro ⟨s, hs | ⟨hs, hsne⟩, hhost, -, r, hr, hrs, hover⟩
    · obtain ⟨x, hx, rfl⟩ := hs
      rcases hr with ⟨y, hy, hr⟩ | ⟨-, hrne⟩
      · obtain ⟨z, hz, rfl⟩ := ServiceService.mem_children.mp hr
        exact .inr ⟨y, hy, z, hz, hover⟩
      · exact absurd hrs (hrne x hx)
    · rcases hr with ⟨y, hy, hr⟩ | ⟨hr, -⟩
      · exact absurd (hrs.symm.trans (mem_children_serviceId hr)) (hsne y hy)
      · exact .inl ⟨_, ⟨s, hs, hhost, rfl⟩, r, Db.mem_bindingsOf.mpr ⟨hr, hrs⟩, hover⟩
  · rintro (⟨_, ⟨s, hs, hhost, rfl⟩, r, hr, hover⟩ | ⟨x, hx, r, hr, hover⟩)
    · obtain ⟨hr, hrs⟩ := Db.mem_bindingsOf.mp hr
      obtain ⟨hsm, hsx⟩ := hsep.stored s hs hhost
      exact ⟨s, .inr ⟨hs, hsx⟩, hhost, hsm, r, .inr ⟨hr, fun x hx heq => hsx x hx (hrs.symm.trans heq)⟩, hrs, hover⟩
    · exact ⟨Storable.row x, .inl ⟨x, hx, rfl⟩, hsep.host x hx, hsep.ne x hx, r.withService x.id x.base.networkId,
        .inl ⟨x, hx, ServiceService.mem_children.mpr ⟨r, hr, rfl⟩⟩, rfl, hover⟩

/-- Each binding of a moved service is to a port and an interface of the destination. -/
theorem onHost_moved (hdb : db.Lawful) (hr : Rehomed db destination other t) (hne : destination.id ≠ other.id)
    {s : Service}
    (hs : s ∈ db.servicesOf other.id) {b : Binding} (hb : b ∈ (moved db destination other s).base.bindings) :
    t.OnHost destination.id b := by
  obtain ⟨row, hrow, hhost, rfl⟩ := Db.mem_servicesOf.mp hs
  obtain ⟨e, he, rfl⟩ := List.mem_map.mp (ServiceService.mem_deduplicated hb)
  obtain ⟨he, hes⟩ := Db.mem_bindingsOf.mp he
  exact hr.onHost_binding hne (hhost ▸ hdb.onHost e he row hrow hes.symm)

theorem updatable_moved {ms : List Service} {s : Service} {u : Db} (hdb : db.Lawful)
    (hr : Rehomed db destination other t)
    (hne : destination.id ≠ other.id) (hs : s ∈ db.servicesOf other.id) (h : Moving t ms u)
    (hsep : Separate db destination ms (moved db destination other s)) (hstored : u.hasService s.id = true) :
    ServiceService.Updatable u (moved db destination other s) ↔
        Accepted db destination ms (moved db destination other s) := by
  have havail (b : Binding) :
      b.conflicts (ServiceService.claimedByOthers u destination.id (moved db destination other s).id) = false ↔
        (∀ d ∈ db.servicesOf destination.id, b.conflicts d.claims = false) ∧ ∀ x ∈ ms,
        b.conflicts x.claims = false := by
    have := not_congr (conflicts_moving (b := b) hr h hsep)
    simpa only [Bool.not_eq_true, not_or, not_exists, not_and] using this
  constructor
  · rintro ⟨-, hconf, -, hports⟩
    rw [ServiceService.available_iff] at hports
    exact ⟨hconf, fun d hd b hb => ((havail b).mp (hports b hb)).1 d hd,
      fun x hx b hb => ((havail b).mp (hports b hb)).2 x hx⟩
  · rintro ⟨hconf, hd, hm⟩
    refine ⟨hstored, hconf, ?_, ?_⟩
    · rw [List.findSome?_eq_none_iff]
      intro b hb
      rw [ServiceService.notOnHost_eq_none]
      have honHost := onHost_moved hdb hr hne hs hb
      obtain ⟨services, bindings, rfl, -, -⟩ := h
      exact honHost
    · rw [ServiceService.available_iff]
      exact fun b hb => (havail b).mpr ⟨fun d hd' => hd d hd' b hb, fun x hx => hm x hx b hb⟩

theorem separate_moved (hne : destination.id ≠ other.id) {done rest : List Service} {s : Service}
    (hl : db.servicesOf other.id = done ++ s :: rest) :
    Separate db destination (movedOf db destination other done) (moved db destination other s) := by
  have hnodup : ((db.servicesOf other.id).map (·.id)).Nodup := by
    rw [Db.servicesOf, List.map_map]
    exact Table.nodup_select
  rw [hl, List.map_append, List.map_cons, List.nodup_append] at hnodup
  have hmoved (x : Service) (hx : x ∈ movedOf db destination other done) : x.base.hostId = destination.id ∧
      ∃ y ∈ done, y.id = x.id := by
    obtain ⟨y, hy, rfl⟩ := List.mem_map.mp hx
    exact ⟨rfl, y, (List.mem_filter.mp hy).1, rfl⟩
  have hother (d : Service) (hd : d ∈ db.services.rows) (hhost : d.base.hostId = destination.id) (y : Service)
      (hy : y ∈ db.servicesOf other.id) : d.id ≠ y.id := by
    obtain ⟨row, hrow, hrowhost, rfl⟩ := Db.mem_servicesOf.mp hy
    intro heq
    rw [db.services.eq_of_key hd hrow heq] at hhost
    exact hne (hhost.symm.trans hrowhost)
  refine ⟨fun x hx => (hmoved x hx).1, fun x hx heq => ?_, fun d hd hhost => ⟨?_, fun x hx => ?_⟩⟩
  · obtain ⟨y, hy, hyx⟩ := (hmoved x hx).2
    exact hnodup.2.2 _ (List.mem_map_of_mem hy) _ List.mem_cons_self (hyx.trans heq)
  · exact hother d hd hhost s (hl ▸ List.mem_append_right _ List.mem_cons_self)
  · obtain ⟨y, hy, hyx⟩ := (hmoved x hx).2
    exact hyx ▸ hother d hd hhost y (hl ▸ List.mem_append_left _ hy)

/-- A service that is still on the other host is updatable from what is stored. -/
theorem storedChildren_moved {ms : List Service} {s : Service} {u : Db} (hdb : db.Lawful)
    (hr : Rehomed db destination other t) (hne : destination.id ≠ other.id)
    (hnetwork : db.hasNetwork destination.base.networkId = true) (hs : s ∈ db.servicesOf other.id) (h : Moving t ms u)
    (hsep : Separate db destination ms (moved db destination other s)) :
    u.hasService s.id = true ∧ BindingService.StoredChildren u s.id (children (moved db destination other s)) := by
  have honHost := fun b => onHost_moved hdb hr hne hs (b := b)
  obtain ⟨interfaces, ports, hosts, rfl⟩ := hr.same
  obtain ⟨services, bindings, rfl, hsu, hbu⟩ := h
  have hsu (x : Service) : x ∈ services.rows ↔ _ := hsu x
  have hbu (b : Binding) : b ∈ bindings.rows ↔ _ := hbu b
  obtain ⟨row, hrow, hhost, rfl⟩ := Db.mem_servicesOf.mp hs
  have hservice : (services.get row.id).isSome = true :=
    Table.get_isSome.mpr ⟨row, (hsu row).mpr (.inr ⟨hrow, fun x hx heq => hsep.ne x hx heq.symm⟩), rfl⟩
  have hsource (x : Binding) (hx : x ∈ (moved db destination other (db.hydrate row)).base.bindings) :
      ∃ e ∈ db.bindings.rows, e.base.serviceId = row.id ∧ x = (idMaps db destination other).binding e := by
    obtain ⟨e, he, rfl⟩ := List.mem_map.mp (ServiceService.mem_deduplicated hx)
    obtain ⟨he, hes⟩ := Db.mem_bindingsOf.mp he
    exact ⟨e, he, hes, rfl⟩
  refine ⟨hservice, fun c hc => ?_, ?_, fun c hc => ?_⟩
  · obtain ⟨x, hx, rfl⟩ := ServiceService.mem_children.mp hc
    obtain ⟨e, he, hes, rfl⟩ := hsource x hx
    refine ⟨hdb.nonnil e he, e, Db.mem_bindingsOf.mpr ⟨(hbu e).mpr (.inr ⟨he, fun y hy heq => ?_⟩), hes⟩, rfl, rfl⟩
    exact hsep.ne y hy (heq.symm.trans hes)
  · refine ServiceService.deduplicated_ids ?_
    have hids : ((idMaps db destination other).service destination (db.hydrate row)).base.bindings.map (·.id) =
        (db.bindingsOf row.id).map (·.id) := by
      rw [IdMaps.service, List.map_map]
      rfl
    rw [hids]
    exact Table.nodup_select
  · obtain ⟨x, hx, rfl⟩ := ServiceService.mem_children.mp hc
    obtain ⟨hports, hinterfaces⟩ := honHost x hx
    simp only [Storable.references, Bool.and_eq_true, Option.all_eq_true]
    refine ⟨⟨⟨hnetwork, hservice⟩, fun p hp => ?_⟩, fun i hi => ?_⟩
    · obtain ⟨y, hy, hyp, -⟩ := hports p hp
      exact Table.get_isSome.mpr ⟨y, hy, hyp⟩
    · obtain ⟨y, hy, hyi, -⟩ := hinterfaces i hi
      exact Table.get_isSome.mpr ⟨y, hy, hyi⟩

/-- One round: a duplicate is skipped, and another service is moved or refused. -/
theorem wp_transferService {done rest : List Service} {s : Service} {u : Db} (hdb : db.Lawful)
    (hr : Rehomed db destination other t) (hne : destination.id ≠ other.id)
    (hnetwork : db.hasNetwork destination.base.networkId = true) (hl : db.servicesOf other.id = done ++ s :: rest)
    (h : Moving t (movedOf db destination other done) u)
    (hok : AllAccepted db destination (movedOf db destination other done)) :
    wp (transferService (idMaps db destination other) (merged destination other) (db.servicesOf destination.id) s)
      (fun _ u' => Moving t (movedOf db destination other (done ++ [s])) u' ∧
        AllAccepted db destination (movedOf db destination other (done ++ [s])))
      (fun _ u' => isDuplicate (db.servicesOf destination.id) s = false ∧
        ¬ Accepted db destination (movedOf db destination other done) (moved db destination other s) ∧ u' = u) u := by
  have hs : s ∈ db.servicesOf other.id := hl ▸ List.mem_append_right _ List.mem_cons_self
  have hsep := separate_moved hne hl
  obtain ⟨hservice, hC⟩ := storedChildren_moved hdb hr hne hnetwork hs h hsep
  have hhost : t.hasHost destination.id = true :=
    Table.get_isSome.mpr ⟨merged destination other, (hr.hosts _).mpr (.inl rfl), rfl⟩
  have hrow : Storable.references u ((idMaps db destination other).service (merged destination other) s) = true := by
    obtain ⟨interfaces, ports, hosts, rfl⟩ := hr.same
    obtain ⟨services, bindings, rfl, -, -⟩ := h
    simp only [Storable.references, Bool.and_eq_true]
    exact ⟨hnetwork, hhost⟩
  have hmovedOf : movedOf db destination other (done ++ [s]) =
      if isDuplicate (db.servicesOf destination.id) s then movedOf db destination other done
      else movedOf db destination other done ++ [moved db destination other s] := by
    simp only [movedOf, List.filter_append, List.filter_cons, List.filter_nil, List.map_append]
    cases isDuplicate (db.servicesOf destination.id) s <;> simp
  simp only [transferService, Program.wp_ite, Program.wp_pure, Program.wp_bind, Program.wp_mapError]
  rw [hmovedOf]
  refine ⟨fun hdup => by simpa [hdup] using ⟨h, hok⟩, fun hdup => ?_⟩
  have hupdatable := updatable_moved hdb hr hne hs h hsep hservice
  rw [if_neg hdup]
  have hwp := @ServiceService.wp_updateStored u ((idMaps db destination other).service (merged destination other) s)
    hservice hrow hC
  refine hwp.mono (fun _ u' hupdated => ?_) fun _ u' hrefused => ?_
  · exact ⟨h.append hupdated.2 hsep.ne, allAccepted_append.mpr ⟨hok, hupdatable.mp hupdated.1⟩⟩
  · exact ⟨by simpa using hdup, fun ha => hrefused.1 (hupdatable.mpr ha), hrefused.2⟩

theorem wp_transferServices (hdb : db.Lawful) (hr : Rehomed db destination other t) (hne : destination.id ≠ other.id)
    (hnetwork : db.hasNetwork destination.base.networkId = true) :
    wp ((db.servicesOf other.id).mapM
        (transferService (idMaps db destination other) (merged destination other) (db.servicesOf destination.id)))
      (fun _ u => Moving t (movedServices db destination other) u ∧
        AllAccepted db destination (movedServices db destination other))
      (fun _ u => ∃ before m rest, movedServices db destination other = before ++ m :: rest ∧
        AllAccepted db destination before ∧ ¬ Accepted db destination before m ∧ Moving t before u) t := by
  have hstart : AllAccepted db destination (movedOf db destination other []) :=
    ⟨by simp [movedOf], by simp [movedOf], by simp [movedOf]⟩
  refine (Program.wp_mapM_all (I := fun done _ rest u => db.servicesOf other.id = done ++ rest ∧
      Moving t (movedOf db destination other done) u ∧ AllAccepted db destination (movedOf db destination other done))
    (fun done _ s rest u ⟨hl, h, hok⟩ => ?_) ⟨rfl, Moving.nil, hstart⟩).mono (fun _ _ h => h.2) fun _ _ h => h
  refine (wp_transferService hdb hr hne hnetwork hl h hok).mono (fun _ u' h' => ⟨by simp [hl], h'⟩) fun _ u' h' => ?_
  obtain ⟨hdup, hrefused, rfl⟩ := h'
  refine ⟨movedOf db destination other done, moved db destination other s, movedOf db destination other rest, ?_, hok,
    hrefused, h⟩
  simp only [movedServices, hl, movedOf, List.filter_append, List.filter_cons, hdup, List.map_append]
  simp

end HostService

end Netvisor
