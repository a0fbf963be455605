/-
When consolidating two hosts loses nothing, and when it does nothing if it fails.

A service that is skipped as a duplicate is deleted with its host, so what it
was bound to is lost unless another service has it. A service that is refused
ends the consolidation when rows have been moved, unless there were none to
move before it.
-/
import Netvisor.Hosts.Transfers

namespace Netvisor

open Program (wp)

namespace HostService

open ServiceService (children)

variable {db t : Db} {destination other : Host} {hostsWithDaemon : List Uuid}

/-! ## The result -/

/-- The rows of the tables are the same. -/
def SameRows {α : Type} {key : α → Uuid} (tbl tbl' : Table α key) : Prop :=
  (∀ x ∈ tbl.rows, x ∈ tbl'.rows) ∧ ∀ x ∈ tbl'.rows, x ∈ tbl.rows

/-- Hosts, interfaces, ports, services and bindings are as before. -/
structure Unchanged (db t : Db) : Prop where
  hosts : SameRows db.hosts t.hosts
  interfaces : SameRows db.interfaces t.interfaces
  ports : SameRows db.ports t.ports
  services : SameRows db.services t.services
  bindings : SameRows db.bindings t.bindings

/-- A service of the destination has the binding, or one on all interfaces of that port. -/
def HeldBy (t : Db) (destination : Host) (bindingType : BindingType) : Prop :=
  ∃ s ∈ t.servicesOf destination.id, Holds s.base.bindings bindingType

/-- The other host is gone, and what was bound to a port of either is on the
destination. An interface or port the destination has already is that one. -/
structure Consolidated (db : Db) (destination other : Host) (t : Db) : Prop where
  gone : t.hosts.get other.id = none
  stays : ∀ s ∈ db.servicesOf destination.id, ∀ b ∈ s.base.bindings, b.portId.isSome = true →
    HeldBy t destination b.base.bindingType
  comes : ∀ s ∈ db.servicesOf other.id, ∀ b ∈ s.base.bindings, b.portId.isSome = true →
    HeldBy t destination ((idMaps db destination other).bindingType b.base.bindingType)
  bound : ∀ s ∈ t.servicesOf destination.id, ∀ b ∈ s.base.bindings, t.OnHost destination.id b

/-- The consolidation loses nothing if it returns, and does nothing if it fails. -/
def LossFree (hostsWithDaemon : List Uuid) (db : Db) (destination other : Host) : Prop :=
  wp (consolidateHosts hostsWithDaemon destination other) (fun _ t => Consolidated db destination other t)
    (fun _ t => Unchanged db t) db

/-- The port bindings of the services that are skipped are those of other services. -/
def SkippedHeld (db : Db) (destination other : Host) : Prop :=
  ∀ s ∈ db.servicesOf other.id, isDuplicate (db.servicesOf destination.id) s = true → ∀ b ∈ s.base.bindings,
    b.portId.isSome = true → ∃ s' ∈ db.servicesOf destination.id ++ movedServices db destination other,
      Holds s'.base.bindings ((idMaps db destination other).bindingType b.base.bindingType)

/-- Nothing is moved before the first service, and that is refused. -/
structure Untouched (db : Db) (destination other : Host) : Prop where
  interfaces : ∀ i ∈ db.interfacesOf other.id, (matchingInterface (db.interfacesOf destination.id) i).isSome = true
  ports : ∀ p ∈ db.portsOf other.id, (matchingPort (db.portsOf destination.id) p).isSome = true
  host : merged destination other = destination
  refused : ∃ m ∈ (movedServices db destination other).head?, ¬ Accepted db destination [] m

instance : Decidable (SkippedHeld db destination other) := by
  unfold SkippedHeld
  infer_instance

/-- The hosts that can be consolidated without loss. -/
def Consolidable (hostsWithDaemon : List Uuid) (db : Db) (destination other : Host) : Prop :=
  destination.id = other.id ∨ other.id ∈ hostsWithDaemon ∨
    AllAccepted db destination (movedServices db destination other) ∧ SkippedHeld db destination other ∨
    Untouched db destination other

instance {α : Type} [DecidableEq α] {key : α → Uuid} (tbl tbl' : Table α key) : Decidable (SameRows tbl tbl') := by
  unfold SameRows
  infer_instance

instance (t : Db) : Decidable (Unchanged db t) :=
  decidable_of_iff (SameRows db.hosts t.hosts ∧ SameRows db.interfaces t.interfaces ∧ SameRows db.ports t.ports ∧
      SameRows db.services t.services ∧ SameRows db.bindings t.bindings)
    ⟨fun ⟨h₁, h₂, h₃, h₄, h₅⟩ => ⟨h₁, h₂, h₃, h₄, h₅⟩,
      fun h => ⟨h.hosts, h.interfaces, h.ports, h.services, h.bindings⟩⟩

instance (t : Db) (bindingType : BindingType) : Decidable (HeldBy t destination bindingType) := by
  unfold HeldBy
  infer_instance

instance (t : Db) : Decidable (Consolidated db destination other t) :=
  decidable_of_iff (t.hosts.get other.id = none ∧
      (∀ s ∈ db.servicesOf destination.id, ∀ b ∈ s.base.bindings, b.portId.isSome = true →
        HeldBy t destination b.base.bindingType) ∧
      (∀ s ∈ db.servicesOf other.id, ∀ b ∈ s.base.bindings, b.portId.isSome = true →
        HeldBy t destination ((idMaps db destination other).bindingType b.base.bindingType)) ∧
      ∀ s ∈ t.servicesOf destination.id, ∀ b ∈ s.base.bindings, t.OnHost destination.id b)
    ⟨fun ⟨h₁, h₂, h₃, h₄⟩ => ⟨h₁, h₂, h₃, h₄⟩, fun h => ⟨h.gone, h.stays, h.comes, h.bound⟩⟩

instance : Decidable (LossFree hostsWithDaemon db destination other) := by
  unfold LossFree
  infer_instance

/-! ## When all services have been moved -/

section Moved

variable (hdb : db.Lawful) (hne : destination.id ≠ other.id) (hr : Rehomed db destination other t) {u : Db}
  (h : Moving t (movedServices db destination other) u)

theorem mem_movedServices {m : Service} : m ∈ movedServices db destination other ↔
    ∃ s ∈ db.servicesOf other.id, isDuplicate (db.servicesOf destination.id) s = false ∧
        moved db destination other s = m := by
  simp only [movedServices, movedOf, List.mem_map, List.mem_filter, Bool.not_eq_true', and_assoc]

include hne in
/-- The services of the destination are none of those moved. -/
theorem ne_movedServices {d m : Service} (hd : d ∈ db.services.rows) (hhost : d.base.hostId = destination.id)
    (hm : m ∈ movedServices db destination other) : d.id ≠ m.id := by
  obtain ⟨s, hs, -, rfl⟩ := mem_movedServices.mp hm
  obtain ⟨row, hrow, hrowhost, rfl⟩ := Db.mem_servicesOf.mp hs
  intro heq
  rw [db.services.eq_of_key hd hrow heq] at hhost
  exact hne (hhost.symm.trans hrowhost)

include hne in
theorem onHost_deleteHost {b : Binding} (hb : u.OnHost destination.id b) :
    (u.deleteHost other.id).OnHost destination.id b := by
  refine ⟨fun p hp => ?_, fun i hi => ?_⟩
  · obtain ⟨x, hx, hxp, hhost⟩ := hb.1 p hp
    exact ⟨x, Table.mem_filter.mpr ⟨hx, by simpa [hhost] using hne⟩, hxp, hhost⟩
  · obtain ⟨x, hx, hxi, hhost⟩ := hb.2 i hi
    exact ⟨x, Table.mem_filter.mpr ⟨hx, by simpa [hhost] using hne⟩, hxi, hhost⟩

include hne in
/-- What is bound on the destination stays when the other host is deleted. -/
theorem mem_bindings_deleteHost {s : Service} {b : Binding} (hs : s ∈ u.services.rows)
    (hhost : s.base.hostId = destination.id)
    (hb : b ∈ u.bindings.rows) (hbs : b.base.serviceId = s.id) (hon : u.OnHost destination.id b) :
    b ∈ (u.deleteHost other.id).bindings.rows := by
  obtain ⟨hports, hinterfaces⟩ : (u.deleteHost other.id).OnHost destination.id b := onHost_deleteHost hne hon
  refine Table.mem_filter.mpr ⟨hb, ?_⟩
  simp only [Bool.and_eq_true, Option.all_eq_true]
  refine ⟨⟨Table.get_isSome.mpr ⟨s, Table.mem_filter.mpr ⟨hs, by simpa [hhost] using hne⟩, hbs.symm⟩, fun p hp => ?_⟩,
    fun i hi => ?_⟩
  · obtain ⟨x, hx, hxp, -⟩ := hports p hp
    exact Table.get_isSome.mpr ⟨x, hx, hxp⟩
  · obtain ⟨x, hx, hxi, -⟩ := hinterfaces i hi
    exact Table.get_isSome.mpr ⟨x, hx, hxi⟩

include hdb hne hr h in
/-- The bindings of the services of the destination. -/
theorem onHost_moving {s : Service} {b : Binding} (hs : s ∈ u.services.rows) (hhost : s.base.hostId = destination.id)
    (hb : b ∈ u.bindings.rows) (hbs : b.base.serviceId = s.id) : u.OnHost destination.id b ∧
      ∃ s' ∈ db.servicesOf destination.id ++ movedServices db destination other,
        ∃ b' ∈ s'.base.bindings, b'.base.bindingType = b.base.bindingType := by
  have hmoved (m : Service) (hm : m ∈ movedServices db destination other) (hbm : b ∈ children m) :
      t.OnHost destination.id b ∧ ∃ s' ∈ db.servicesOf destination.id ++ movedServices db destination other,
        ∃ b' ∈ s'.base.bindings, b'.base.bindingType = b.base.bindingType := by
    obtain ⟨x, hx, rfl⟩ := ServiceService.mem_children.mp hbm
    obtain ⟨s, hs, -, rfl⟩ := mem_movedServices.mp hm
    have hon := onHost_moved hdb hr hne hs hx
    exact ⟨hon, _, List.mem_append_right _ hm, x, hx, rfl⟩
  have hstored (hs : s ∈ db.services.rows) (hb : b ∈ db.bindings.rows) :
      t.OnHost destination.id b ∧ ∃ s' ∈ db.servicesOf destination.id ++ movedServices db destination other,
        ∃ b' ∈ s'.base.bindings, b'.base.bindingType = b.base.bindingType :=
    ⟨hr.onHost_kept hne (hhost ▸ hdb.onHost b hb s hs hbs.symm), db.hydrate s,
      List.mem_append_left _ (Db.mem_servicesOf.mpr ⟨s, hs, hhost, rfl⟩), b, Db.mem_bindingsOf.mpr ⟨hb, hbs⟩, rfl⟩
  obtain ⟨services, bindings, rfl, hsu, hbu⟩ := h
  obtain ⟨interfaces, ports, hosts, rfl⟩ := hr.same
  rcases (hbu b).mp hb with ⟨m, hm, hbm⟩ | ⟨hb, hbne⟩
  · exact hmoved m hm hbm
  · rcases (hsu s).mp hs with ⟨m, hm, rfl⟩ | ⟨hs, -⟩
    · exact absurd hbs (hbne m hm)
    · exact hstored hs hb

include hdb hne hr h in
theorem heldBy_deleteHost {bindingType : BindingType} : HeldBy (u.deleteHost other.id) destination bindingType ↔
    ∃ s ∈ db.servicesOf destination.id ++ movedServices db destination other, Holds s.base.bindings bindingType := by
  constructor
  · rintro ⟨_, hs, b, hb, hbt⟩
    obtain ⟨s, hrow, hhost, rfl⟩ := Db.mem_servicesOf.mp hs
    obtain ⟨hb, hbs⟩ := Db.mem_bindingsOf.mp hb
    obtain ⟨-, s', hs', b', hb', htype⟩ :=
      onHost_moving hdb hne hr h (Table.mem_filter.mp hrow).1 hhost (Table.mem_filter.mp hb).1 hbs
    exact ⟨s', hs', b', hb', htype ▸ hbt⟩
  · rintro ⟨s, hs, b, hb, hbt⟩
    have hkept (r : Service) (c : Binding) (hrow : r ∈ u.services.rows) (hhost : r.base.hostId = destination.id)
        (hc : c ∈ u.bindings.rows) (hcr : c.base.serviceId = r.id) (htype : c.base.bindingType = b.base.bindingType) :
        HeldBy (u.deleteHost other.id) destination bindingType := by
      have hon := (onHost_moving hdb hne hr h hrow hhost hc hcr).1
      have hcv := mem_bindings_deleteHost hne hrow hhost hc hcr hon
      refine ⟨_, Db.mem_servicesOf.mpr ⟨r, Table.mem_filter.mpr ⟨hrow, by simpa [hhost] using hne⟩, hhost, rfl⟩, c,
        Db.mem_bindingsOf.mpr ⟨hcv, hcr⟩, ?_⟩
      rw [htype]
      exact hbt
    have h' := h
    obtain ⟨services, bindings, rfl, hsu, hbu⟩ := h
    obtain ⟨interfaces, ports, hosts, rfl⟩ := hr.same
    rcases List.mem_append.mp hs with hs | hs
    · obtain ⟨r, hrow, hhost, rfl⟩ := Db.mem_servicesOf.mp hs
      obtain ⟨hb, hbs⟩ := Db.mem_bindingsOf.mp hb
      have hfree := fun m hm => ne_movedServices hne hrow hhost (m := m) hm
      exact hkept r b ((hsu r).mpr (.inr ⟨hrow, hfree⟩)) hhost
        ((hbu b).mpr (.inr ⟨hb, fun m hm heq => hfree m hm (hbs.symm.trans heq)⟩)) hbs rfl
    · have hhost : s.base.hostId = destination.id := by
        obtain ⟨x, -, -, rfl⟩ := mem_movedServices.mp hs
        rfl
      exact hkept (Storable.row s) (b.withService s.id s.base.networkId) ((hsu _).mpr (.inl ⟨s, hs, rfl⟩)) hhost
        ((hbu _).mpr (.inl ⟨s, hs, ServiceService.mem_children.mpr ⟨b, hb, rfl⟩⟩)) rfl rfl

end Moved

theorem consolidated_iff (hdb : db.Lawful) (hne : destination.id ≠ other.id)
    (hr : Rehomed db destination other t) {u : Db}
    (h : Moving t (movedServices db destination other) u) :
    Consolidated db destination other (u.deleteHost other.id) ↔ SkippedHeld db destination other := by
  have hheld (bindingType : BindingType) : HeldBy (u.deleteHost other.id) destination bindingType ↔
      ∃ s ∈ db.servicesOf destination.id ++ movedServices db destination other, Holds s.base.bindings bindingType :=
    heldBy_deleteHost hdb hne hr h
  constructor
  · intro hc s hs _ b hb hport
    exact (hheld _).mp (hc.comes s hs b hb hport)
  · intro hskipped
    refine ⟨?_, fun s hs b hb _ => ?_, fun s hs b hb hport => ?_, fun s hs b hb => ?_⟩
    · rw [Table.get_eq_none]
      intro x hx
      simpa using (Table.mem_filter.mp hx).2
    · exact (hheld _).mpr ⟨s, List.mem_append_left _ hs, b, hb, .inl rfl⟩
    · cases hdup : isDuplicate (db.servicesOf destination.id) s with
      | true => exact (hheld _).mpr (hskipped s hs hdup b hb hport)
      | false =>
        refine (hheld _).mpr ⟨_, List.mem_append_right _ (mem_movedServices.mpr ⟨s, hs, hdup, rfl⟩), ?_⟩
        exact ServiceService.holds_deduplicateBindings (List.mem_map_of_mem hb)
    · obtain ⟨row, hrow, hhost, rfl⟩ := Db.mem_servicesOf.mp hs
      obtain ⟨hb, hbs⟩ := Db.mem_bindingsOf.mp hb
      exact onHost_deleteHost hne
        (onHost_moving hdb hne hr h (Table.mem_filter.mp hrow).1 hhost (Table.mem_filter.mp hb).1 hbs).1

/-- Whatever is written is seen. -/
theorem unchanged_iff (hdest : db.hosts.get destination.id = some destination) (hne : destination.id ≠ other.id)
    (hr : Rehomed db destination other t) {before : List Service}
    (hbefore : before ⊆ movedServices db destination other)
    {u : Db} (h : Moving t before u) : Unchanged db u ↔
      (∀ i ∈ db.interfacesOf other.id, (matchingInterface (db.interfacesOf destination.id) i).isSome = true) ∧
      (∀ p ∈ db.portsOf other.id, (matchingPort (db.portsOf destination.id) p).isSome = true) ∧
      merged destination other = destination ∧ before = [] := by
  obtain ⟨hdestrow, -⟩ := Table.get_eq_some.mp hdest
  have hinterfaces := hr.interfaces
  have hports := hr.ports
  have hhosts := hr.hosts
  obtain ⟨interfaces, ports, hosts, rfl⟩ := hr.same
  obtain ⟨services, bindings, rfl, hsu, hbu⟩ := h
  constructor
  · rintro ⟨hh, hi, hp, hs, -⟩
    refine ⟨fun i hi' => ?_, fun p hp' => ?_, ?_, ?_⟩
    · by_contra hm
      have hm := Option.not_isSome_iff_eq_none.mp hm
      obtain ⟨hrow, hhost⟩ := Db.mem_interfacesOf.mp hi'
      have hmoved := hi.2 _ ((hinterfaces _).mpr (.inl ⟨i, hi', hm, rfl⟩))
      have heq := congrArg (·.base.hostId) (db.interfaces.eq_of_key hmoved hrow rfl)
      exact hne (heq.trans hhost)
    · by_contra hm
      have hm := Option.not_isSome_iff_eq_none.mp hm
      obtain ⟨hrow, hhost⟩ := Db.mem_portsOf.mp hp'
      have hmoved := hp.2 _ ((hports _).mpr (.inl ⟨p, hp', hm, rfl⟩))
      have heq := congrArg (·.base.hostId) (db.ports.eq_of_key hmoved hrow rfl)
      exact hne (heq.trans hhost)
    · exact db.hosts.eq_of_key (hh.2 _ ((hhosts _).mpr (.inl rfl))) hdestrow rfl
    · refine List.eq_nil_iff_forall_not_mem.mpr fun m hm => ?_
      have hrow := hs.2 _ ((hsu _).mpr (.inl ⟨m, hm, rfl⟩))
      obtain ⟨s, -, -, rfl⟩ := mem_movedServices.mp (hbefore hm)
      exact ne_movedServices hne hrow rfl (hbefore hm) rfl
  · rintro ⟨hi, hp, hmerged, rfl⟩
    have hi' (i) (hmem : i ∈ db.interfacesOf other.id) :
        matchingInterface (db.interfacesOf destination.id) i ≠ none :=
      Option.isSome_iff_ne_none.mp (hi i hmem)
    have hp' (p) (hmem : p ∈ db.portsOf other.id) : matchingPort (db.portsOf destination.id) p ≠ none :=
      Option.isSome_iff_ne_none.mp (hp p hmem)
    rw [hmerged] at hhosts
    refine ⟨⟨fun x hx => (hhosts x).mpr ?_, fun x hx => ?_⟩,
      ⟨fun x hx => (hinterfaces x).mpr (.inr ?_), fun x hx => ?_⟩, ⟨fun x hx => (hports x).mpr (.inr ?_),
        fun x hx => ?_⟩, ⟨fun x hx => (hsu x).mpr (.inr ⟨hx, by simp⟩), fun x hx => ?_⟩,
      fun b hb => (hbu b).mpr (.inr ⟨hb, by simp⟩), fun b hb => ?_⟩
    · by_cases heq : x.id = destination.id
      · exact .inl (db.hosts.eq_of_key hx hdestrow heq)
      · exact .inr ⟨hx, heq⟩
    · rcases (hhosts x).mp hx with rfl | hx
      · exact hdestrow
      · exact hx.1
    · exact ⟨hx, fun i hmem hm => absurd hm (hi' i hmem)⟩
    · rcases (hinterfaces x).mp hx with ⟨i, hmem, hm, -⟩ | hx
      · exact absurd hm (hi' i hmem)
      · exact hx.1
    · exact ⟨hx, fun p hmem hm => absurd hm (hp' p hmem)⟩
    · rcases (hports x).mp hx with ⟨p, hmem, hm, -⟩ | hx
      · exact absurd hm (hp' p hmem)
      · exact hx.1
    · rcases (hsu x).mp hx with ⟨m, hm, -⟩ | hx
      · exact absurd hm List.not_mem_nil
      · exact hx.1
    · rcases (hbu b).mp hb with ⟨m, hm, -⟩ | hb
      · exact absurd hm List.not_mem_nil
      · exact hb.1

theorem Unchanged.refl (db : Db) : Unchanged db db :=
  ⟨⟨fun _ h => h, fun _ h => h⟩, ⟨fun _ h => h, fun _ h => h⟩, ⟨fun _ h => h, fun _ h => h⟩,
    ⟨fun _ h => h, fun _ h => h⟩, ⟨fun _ h => h, fun _ h => h⟩⟩

/-- The children and the host are moved, and nothing of this fails. -/
theorem wp_rehome {Q : List (Uuid × Uuid) → List (Uuid × Uuid) → Host → Db → Prop} {E : Error → Db → Prop}
    (hdb : db.Lawful) (hdest : db.hosts.get destination.id = some destination)
    (hnetwork : db.hasNetwork destination.base.networkId = true)
    (hQ : ∀ t, Rehomed db destination other t →
      Q (idMaps db destination other).interfaces (idMaps db destination other).ports (merged destination other) t) :
    wp ((db.interfacesOf other.id).mapM (transferInterface destination (db.interfacesOf destination.id)))
      (fun interfaces t => wp ((db.portsOf other.id).mapM (transferPort destination (db.portsOf destination.id)))
        (fun ports t => wp (upsertHost destination other) (fun updatedHost t =>
          Q interfaces ports updatedHost t) E t) E t)
      E db := by
  have hhost : db.hasHost destination.id = true := Option.isSome_iff_exists.mpr ⟨destination, hdest⟩
  refine (wp_transferInterfaces hdb hhost).mono (fun _ t ⟨hout, tbl, ht, hinterfaces⟩ => ?_) fun _ _ h => h.elim
  obtain rfl : t = { db with interfaces := tbl } := ht
  refine (wp_transferPorts hdb hhost hnetwork tbl).mono (fun _ t ⟨hout', tbl', ht, hports⟩ => ?_) fun _ _ h => h.elim
  obtain rfl : t = { db with interfaces := tbl, ports := tbl' } := ht
  refine (wp_upsertDestination hdb.hosts hdest).mono (fun h t ⟨hh, hosts, ht, hhosts⟩ => ?_) fun _ _ h => h.elim
  subst ht
  rw [hout, hout', hh]
  exact hQ _ ⟨⟨tbl, tbl', hosts, rfl⟩, hinterfaces, hports, hhosts⟩

/-- The other host can be deleted, as nothing was done to it. -/
theorem wp_deleteOther {before : List Service} {u : Db} {Q : Unit → Db → Prop} {E : Error → Db → Prop}
    (hother : db.hosts.get other.id = some other) (hne : destination.id ≠ other.id)
    (hdaemon : other.id ∉ hostsWithDaemon)
    (hr : Rehomed db destination other t) (h : Moving t before u) (hQ : Q () (u.deleteHost other.id)) :
    wp (deleteHost hostsWithDaemon other.id) Q E u := by
  obtain ⟨hrow, -⟩ := Table.get_eq_some.mp hother
  have hget : u.hosts.get other.id = some other := by
    obtain ⟨services, bindings, rfl, -, -⟩ := h
    exact Table.get_eq_some.mpr ⟨(hr.hosts other).mpr (.inr ⟨hrow, hne.symm⟩), rfl⟩
  simp only [deleteHost, Program.wp_bind, Program.wp_ite, Program.wp_throw, Storable.wp_getById]
  refine ⟨fun h => absurd (by simpa using h) hdaemon, fun _ => ?_⟩
  have hget : (Storable.table (α := Host) u).get other.id = some other := hget
  rw [hget]
  exact hQ

theorem not_allAccepted {before rest : List Service} {m : Service} (h : ¬ Accepted db destination before m) :
    ¬ AllAccepted db destination (before ++ m :: rest) := by
  intro hall
  refine h (allAccepted_append.mp ⟨fun x hx => hall.noConflicts x ?_, fun x hx => hall.stored x ?_, ?_⟩).2
  · exact (List.append_cons before m rest) ▸ List.mem_append_left _ hx
  · exact (List.append_cons before m rest) ▸ List.mem_append_left _ hx
  · have hpair := hall.moved
    rw [List.append_cons] at hpair
    exact (List.pairwise_append.mp hpair).1

theorem not_allAccepted_first {rest : List Service} {m : Service} (h : ¬ Accepted db destination [] m) :
    ¬ AllAccepted db destination (m :: rest) := not_allAccepted h

/-- **Consolidating loses nothing, and does nothing if it fails, exactly for
the hosts that are `Consolidable`.** -/
theorem lossFree_iff (hdb : db.Lawful) (hdest : db.hosts.get destination.id = some destination)
    (hother : db.hosts.get other.id = some other) :
    LossFree hostsWithDaemon db destination other ↔ Consolidable hostsWithDaemon db destination other := by
  refine Program.wp.iff ?_
  simp only [consolidateHosts, Program.wp_bind, Program.wp_ite, Program.wp_throw, Program.wp_pure, Program.wp_get]
  refine ⟨fun heq => ?_, fun hne => ⟨fun hdaemon => ?_, fun hdaemon => ?_⟩⟩
  · exact iff_of_true (.refl db) (.inl (by simpa using heq))
  · exact iff_of_true (.refl db) (.inr (.inl (by simpa using hdaemon)))
  have hne : destination.id ≠ other.id := by simpa using hne
  have hdaemon : other.id ∉ hostsWithDaemon := by simpa using hdaemon
  have hnetwork : db.hasNetwork destination.base.networkId = true := by
    have href := (hdb.hosts destination (Table.get_eq_some.mp hdest).1).2
    simp only [Storable.references, Bool.and_eq_true] at href
    exact href.1
  refine wp_rehome hdb hdest hnetwork fun t hr => ?_
  have hservices (hostId : Uuid) : t.servicesOf hostId = db.servicesOf hostId := by
    obtain ⟨interfaces, ports, hosts, rfl⟩ := hr.same
    rfl
  rw [hservices, hservices]
  refine (wp_transferServices hdb hr hne hnetwork).mono (fun _ u hmoved => ?_) fun _ u hrefused => ?_
  · -- All services have been moved.
    obtain ⟨h, hall⟩ := hmoved
    refine wp_deleteOther hother hne hdaemon hr h ?_
    rw [consolidated_iff hdb hne hr h]
    constructor
    · exact fun hskipped => .inr (.inr (.inl ⟨hall, hskipped⟩))
    · rintro (heq | hmem | ⟨-, hskipped⟩ | huntouched)
      · exact absurd heq hne
      · exact absurd hmem hdaemon
      · exact hskipped
      · obtain ⟨m, hm, hrefused⟩ := huntouched.refused
        obtain ⟨rest, hrest⟩ := List.head?_eq_some_iff.mp hm
        rw [hrest] at hall
        exact absurd hall (not_allAccepted_first hrefused)
  · -- A service was refused after those of `before`.
    obtain ⟨before, m, rest, hl, hbefore, hrefused, h⟩ := hrefused
    rw [unchanged_iff hdest hne hr (hl ▸ List.subset_append_left _ _) h]
    constructor
    · rintro ⟨hi, hp, hmerged, rfl⟩
      exact .inr (.inr (.inr ⟨hi, hp, hmerged, m, by simp [hl], hrefused⟩))
    · rintro (heq | hmem | ⟨hall, -⟩ | huntouched)
      · exact absurd heq hne
      · exact absurd hmem hdaemon
      · exact absurd (hl ▸ hall) (not_allAccepted hrefused)
      · refine ⟨huntouched.interfaces, huntouched.ports, huntouched.host, ?_⟩
        -- If a service was moved before, it was the first, and accepted.
        obtain ⟨first, hfirst, hfirstRefused⟩ := huntouched.refused
        cases before with
        | nil => rfl
        | cons x before =>
          rw [hl, List.cons_append, List.head?_cons, Option.mem_some_iff] at hfirst
          exact absurd hbefore (hfirst ▸ not_allAccepted_first hfirstRefused)
/-! ## Two hosts -/

/-- Host 20 has the service "web" at port 80. Host 30 has ports 80 (id 32) and
443 (id 33), and a service of that definition at one of them. -/
def twoHosts (name : String) (portId : Uuid) : Db where
  networks := [1]
  hosts := { rows := [{ id := 20, base := { networkId := 1 } }, { id := 30, base := { networkId := 1 } }],
             nodup := by decide }
  subnets := .single { id := 2, base := { networkId := 1, cidr := ⟨.v4 0, 24⟩ } }
  interfaces :=
    { rows := [{ id := 21, base := { networkId := 1, hostId := 20, subnetId := 2, ipAddress := .v4 1 } },
        { id := 31, base := { networkId := 1, hostId := 30, subnetId := 2, ipAddress := .v4 2 } }]
      nodup := by decide }
  ports :=
    { rows := [{ id := 22, base := { networkId := 1, hostId := 20, portType := ⟨80, .tcp⟩ } },
        { id := 32, base := { networkId := 1, hostId := 30, portType := ⟨80, .tcp⟩ } },
        { id := 33, base := { networkId := 1, hostId := 30, portType := ⟨443, .tcp⟩ } }]
      nodup := by decide }
  services :=
    { rows := [{ id := 23, base := { networkId := 1, hostId := 20, name := "web" } },
        { id := 34, base := { networkId := 1, hostId := 30, name := name } }]
      nodup := (by decide : [(23 : Uuid), 34].Nodup) }
  bindings :=
    { rows := [{ id := 24, base := { networkId := 1, serviceId := 23, bindingType := .port 22 none } },
        { id := 35, base := { networkId := 1, serviceId := 34, bindingType := .port portId none } }]
      nodup := (by decide : [(24 : Uuid), 35].Nodup) }

def hostOf (id : Uuid) : Host where
  id := id
  base := { networkId := 1 }

theorem lossFree_iff_distinct : LossFree [] (twoHosts "shop" 33) (hostOf 20) (hostOf 30) :=
  (lossFree_iff (by decide +kernel) (by decide +kernel) (by decide +kernel)).mpr
    (.inr (.inr (.inl ⟨⟨by decide +kernel, by decide +kernel, by decide +kernel⟩, by decide +kernel⟩)))

/-- A service that is skipped takes its port along, and one that is refused
leaves the interface and the other port moved. -/
theorem port_lost_and_half_moved : ¬ LossFree [] (twoHosts "web" 33) (hostOf 20) (hostOf 30) ∧
    ¬ LossFree [] (twoHosts "shop" 32) (hostOf 20) (hostOf 30) :=
  ⟨by decide +kernel, by decide +kernel⟩

end HostService

end Netvisor
