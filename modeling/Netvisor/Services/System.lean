/-
The writers of services and bindings as one system: the operations on services,
the binding endpoints, and hosts that are being created from a discovery, of
which each service is a step of its own, so that other requests may come in
between.

An action carries the time and the ids `Uuid::new_v4` gives while it runs, new
ones and enough of them. `effect_of_step` says what a step can do.
-/
import Netvisor.Hosts.ServiceFacts
import Netvisor.Lib.Transition

namespace Netvisor.Services

open Program (wp after)
open ServiceService (Reassignment Creates Saves Stored Updatable incoming deduplicated merged
  reassignServiceInterfaceBindings)
open HostService (Batch Available openPortsService)
open BindingHandlers (Creatable Replaceable Bound remaining othersThan)

/-- A host from a discovery whose services are being created. -/
structure Ongoing where
  r : Reassignment
  services : List Service
  ifEntries : List IfEntry
  batch : Batch := {}

structure State where
  db : Db := {}
  ongoing : List Ongoing := []

inductive Operation
  | createService (service : Service)
  | updateService (service : Service)
  | upsertService (id : Uuid) (newData : Service)
  | deleteService (id : Uuid)
  | createBinding (networkIds : List Uuid) (binding : Binding)
  | updateBinding (networkIds : List Uuid) (id : Uuid) (binding : Binding)
  | deleteBinding (networkIds : List Uuid) (id : Uuid)
  | bulkDelete (networkIds : List Uuid) (ids : List Uuid)
  /-- The host of a request, with its interfaces and ports. -/
  | createHost (hostLimit : Option Nat) (request : DiscoveryHostRequest)
  /-- The next service of an ongoing request. -/
  | saveService (index : Nat)
  /-- The rest of an ongoing request with no service left. -/
  | finish (index : Nat)

structure Action where
  operation : Operation
  now : DateTime := 0
  drawn : List Uuid := []

def upsertStored (id : Uuid) (newData : Service) : Store Service := do
  match ← ServiceService.getById id with
  | some existing => ServiceService.upsertService existing newData
  | none => throw (.internal "Could not find service")

/-- The database and the ongoing requests after the operation. -/
def perform (db : Db) (ongoing : List Ongoing) : Operation → State
  | .createService service => ⟨after (ServiceService.create service) db, ongoing⟩
  | .updateService service => ⟨after (ServiceService.update service) db, ongoing⟩
  | .upsertService id newData => ⟨after (upsertStored id newData) db, ongoing⟩
  | .deleteService id => ⟨after (ServiceService.delete id) db, ongoing⟩
  | .createBinding networkIds binding => ⟨after (BindingHandlers.createBinding networkIds binding) db, ongoing⟩
  | .updateBinding networkIds id binding => ⟨after (BindingHandlers.updateBinding networkIds id binding) db, ongoing⟩
  | .deleteBinding networkIds id => ⟨after (BindingHandlers.deleteBinding networkIds id) db, ongoing⟩
  | .bulkDelete networkIds ids => ⟨after (BindingHandlers.bulkDelete networkIds ids) db, ongoing⟩
  | .createHost hostLimit request =>
    match HostService.createHost .upsert hostLimit request db with
    | .ok r db => ⟨db, ongoing ++ [{ r, services := request.services, ifEntries := request.ifEntries }]⟩
    | .error _ db => ⟨db, ongoing⟩
  | .saveService index =>
    match ongoing[index]? with
    | some { r, services := service :: services, ifEntries, batch } =>
      match HostService.saveService r batch service db with
      | .ok batch db => ⟨db, ongoing.set index { r, services, ifEntries, batch }⟩
      | .error _ db => ⟨db, ongoing.eraseIdx index⟩
    | _ => ⟨db, ongoing⟩
  | .finish index =>
    match ongoing[index]? with
    | some { r, services := [], ifEntries, batch } =>
      ⟨after (HostService.finish r ifEntries batch) db, ongoing.eraseIdx index⟩
    | _ => ⟨db, ongoing⟩

/-- The bindings the operation is to save. -/
def bindings (ongoing : List Ongoing) : Operation → List Binding
  | .createService service => service.base.bindings
  | .updateService service => service.base.bindings
  | .upsertService _ newData => newData.base.bindings
  | .saveService index => ((ongoing[index]?.bind fun o => o.services.head?).map (·.base.bindings)).getD []
  | .finish index => (ongoing[index]?.map (·.batch.orphaned)).getD []
  | _ => []

/-- The database an action runs in. -/
def State.dbAt (s : State) (a : Action) : Db := { s.db with now := a.now, drawn := a.drawn }

def step (s : State) (a : Action) : Option State :=
  let db := s.dbAt a
  if db.Fresh ((bindings s.ongoing a.operation).map (·.id)) then
    let t := perform db s.ongoing a.operation
    if t.db.drawn = [] then none else some t
  else none

/-- What an operation does to services and bindings, besides removing some. -/
def Writes (ongoing : List Ongoing) (db db' : Db) : Operation → Prop
  | .createService service => ∃ result, Creates db (incoming db service) result db'
  | .updateService service =>
    Updatable db (deduplicated service) ∧ ∃ result, Saves db (deduplicated service) result db'
  | .upsertService id newData =>
    ∃ existing result, Stored db existing ∧ existing.id = id ∧ Saves db (merged existing newData) result db'
  | .createBinding networkIds binding =>
    Creatable db networkIds binding ∧ ∃ b, b.base = binding.base ∧ Bound db (remaining db binding) b db'
  | .updateBinding networkIds id binding =>
    Replaceable db networkIds id binding ∧ ∃ b, b.base = binding.base ∧ Bound db (othersThan db id) b db'
  | .saveService index =>
    ∃ o ∈ ongoing[index]?, ∃ service ∈ o.services.head?,
      Available db o.r o.batch (reassignServiceInterfaceBindings o.r service) ∧
        ∃ result, Creates db (incoming db (reassignServiceInterfaceBindings o.r service)) result db'
  | .finish index =>
    ∃ o ∈ ongoing[index]?, ∃ result db₁,
      Creates db (incoming db (openPortsService o.r.updatedHost o.batch.orphaned)) result db₁ ∧ db₁.Removes db'
  | _ => False

variable {s t : State} {a : Action} {db : Db} {ongoing : List Ongoing}

theorem effect_of_perform {op : Operation} (hF : db.Fresh ((bindings ongoing op).map (·.id)))
    (hne : (perform db ongoing op).db.drawn ≠ []) :
    db.Removes (perform db ongoing op).db ∨ Writes ongoing db (perform db ongoing op).db op := by
  have hnothing : db.Removes db := (Db.SameButDrawn.refl db).removes
  cases op with
  | createService service =>
    refine (Program.wp_after (P := fun t => db.Removes t ∨ Writes ongoing db t (.createService service))).mp ?_
    exact (ServiceService.wp_create hF).mono (fun s t h => .inr ⟨_, h⟩) fun _ t h => h.imp (·.removes) fun h => ⟨_, h⟩
  | updateService service =>
    refine (Program.wp_after (P := fun t => db.Removes t ∨ Writes ongoing db t (.updateService service))).mp ?_
    refine (ServiceService.wp_update hF).mono (fun s t h => .inr ⟨h.1, _, h.2⟩) fun _ t h => ?_
    exact h.imp (·.removes) fun h => ⟨h.1, _, h.2⟩
  | upsertService id newData =>
    refine (Program.wp_after (P := fun t => db.Removes t ∨ Writes ongoing db t (.upsertService id newData))).mp ?_
    simp only [upsertStored, ServiceService.getById, Program.wp_bind, Program.wp_get, Program.wp_pure]
    split
    · next existing hget =>
      obtain ⟨row, hrow, rfl⟩ := Option.map_eq_some_iff.mp hget
      obtain ⟨hmem, hid⟩ := Table.get_eq_some.mp hrow
      have hstored : Stored db (db.hydrate row) := ⟨row, hmem, rfl⟩
      refine Program.wp.mono (ServiceService.wpSaves_upsertService hstored hF) (fun s t h => ?_) fun _ t h => ?_
      · exact .inr ⟨_, _, hstored, hid, h⟩
      · exact h.imp (·.removes) fun h => ⟨_, _, hstored, hid, h⟩
    · exact .inl hnothing
  | deleteService id =>
    refine (Program.wp_after (P := fun t => db.Removes t ∨ Writes ongoing db t (.deleteService id))).mp ?_
    simp only [ServiceService.delete, ServiceService.getById, Program.wp_bind, Program.wp_get, Program.wp_pure]
    split
    · exact .inl hnothing
    · exact .inl (db.removes_deleteService id)
  | createBinding networkIds binding =>
    refine (Program.wp_after (P := fun t => db.Removes t ∨
      Writes ongoing db t (.createBinding networkIds binding))).mp ?_
    exact BindingHandlers.wp_createBinding.mono (fun b t h => .inr ⟨h.2.1, b, h.1, h.2.2⟩) fun _ _ h => .inl h
  | updateBinding networkIds id binding =>
    refine (Program.wp_after (P := fun t => db.Removes t ∨
      Writes ongoing db t (.updateBinding networkIds id binding))).mp ?_
    exact BindingHandlers.wp_updateBinding.mono (fun b t h => .inr ⟨h.2.1, b, h.1, h.2.2⟩) fun _ _ h => .inl h
  | deleteBinding networkIds id => exact .inl (Program.wp_after.mp BindingHandlers.removes_deleteBinding)
  | bulkDelete networkIds ids => exact .inl (Program.wp_after.mp BindingHandlers.removes_bulkDelete)
  | createHost hostLimit request =>
    have h : wp (HostService.createHost .upsert hostLimit request) _ _ db := HostService.onlyRemoves_createHost db
    simp only [perform] at hne ⊢
    rw [wp] at h
    split at h <;> next heq => rw [heq]; exact .inl h
  | saveService index =>
    simp only [perform] at hne ⊢
    split
    · next r service services ifEntries batch ho =>
      have hF : db.Fresh (service.base.bindings.map (·.id)) := by simpa [bindings, ho] using hF
      have h : wp (HostService.saveService r batch service) _ _ db := HostService.wp_saveService hF
      rw [wp] at h
      split at h
      · next heq =>
        rw [heq]
        rcases h with ⟨-, rfl, -⟩ | ⟨havail, created, hc, -⟩
        · exact .inl hnothing
        · exact .inr ⟨_, ho, service, rfl, havail, _, hc⟩
      · next heq =>
        rw [heq]
        exact h.imp (·.removes) fun h => ⟨_, ho, service, rfl, h.1, _, h.2⟩
    · exact .inl hnothing
  | finish index =>
    simp only [perform] at hne ⊢
    split at hne
    · next r ifEntries batch ho =>
      have hF : db.Fresh (batch.orphaned.map (·.id)) := by simpa [bindings, ho] using hF
      have h : wp (HostService.finish r ifEntries batch) _ _ db := HostService.wp_finish hF
      have h := Program.wp_after.mp h
      refine (h hne).imp_right fun hfinished => ?_
      obtain ⟨result, db₁, hc, hr⟩ := hfinished
      exact ⟨_, ho, result, db₁, hc, hr⟩
    · exact .inl hnothing

/-- What a step can do: it removes services and bindings or none, or it is one
of the writes, while ids are left. -/
theorem effect_of_step (h : step s a = some t) :
    (s.dbAt a).Fresh ((bindings s.ongoing a.operation).map (·.id)) ∧ t.db.drawn ≠ [] ∧
      ((s.dbAt a).Removes t.db ∨ Writes s.ongoing (s.dbAt a) t.db a.operation) := by
  simp only [step] at h
  split at h
  · next hF =>
    split at h
    · cases h
    · next hne =>
      cases h
      exact ⟨hF, hne, effect_of_perform hF hne⟩
  · cases h

/-! ## Services have ids, and bindings what they refer to -/

structure Sound (db : Db) : Prop where
  referential : db.Referential
  named : ∀ s ∈ db.services.rows, s.id ≠ Uuid.nil

variable {db' : Db}

theorem Sound.removes (h : Sound db) (hr : db.Removes db') : Sound db' where
  referential b hb := (hr.bindings b hb).2 (h.referential b (hr.bindings b hb).1)
  named s hs := h.named s (hr.services s hs)

theorem Sound.saves (h : Sound db) {service : Service} {result : Option Service} (hs : Saves db service result db')
    (hid : service.id ≠ Uuid.nil) : Sound db' where
  referential := hs.referential h.referential
  named s hmem := by
    rcases (hs.services s).mp hmem with rfl | ⟨hmem, -⟩
    · exact hid
    · exact h.named s hmem

theorem Sound.hasService (h : Sound db) {id : Uuid} (hid : db.hasService id = true) : id ≠ Uuid.nil := by
  obtain ⟨s, hs, rfl⟩ := Db.hasService_iff.mp hid
  exact h.named s hs

theorem Sound.bound (h : Sound db) {kept : List Binding} {b : Binding} (hkept : ∀ r ∈ kept, r ∈ db.bindings.rows)
    (hb : Bound db kept b db') : Sound db' where
  referential r hr := by
    rw [hb.same.references]
    rcases (hb.rows r).mp hr with rfl | hr
    · exact hb.references
    · exact h.referential r (hkept r hr)
  named s hs := by
    obtain ⟨bindings, drawn, rfl⟩ := hb.same
    exact h.named s hs

/-- The id of a service that is created, unless no id was left to draw. -/
theorem incoming_id_ne_nil {known : List Uuid} {service : Service} (hF : db.Fresh known) (hne : db.drawn ≠ []) :
    (incoming db service).id ≠ Uuid.nil := by
  unfold incoming
  split
  · obtain ⟨u, us, hu⟩ := List.exists_cons_of_ne_nil hne
    change db.drawn.headD Uuid.nil ≠ Uuid.nil
    rw [hu, List.headD_cons]
    exact fun h => hF.nonnil (h ▸ hu ▸ List.mem_cons_self)
  · next hid => exact hid

theorem Sound.creates (h : Sound db) {known : List Uuid} {service : Service} {result : Option Service}
    (hF : db.Fresh known) (hne : db'.drawn ≠ []) (hc : Creates db (incoming db service) result db') : Sound db' := by
  cases hc with
  | merges existing target saves =>
    exact h.saves saves (h.hasService (ServiceService.stored_of_mergeTarget target).hasService)
  | new target accepted saves =>
    have hne : db.drawn ≠ [] := fun hnil => hne (List.suffix_nil.mp (hnil ▸ saves.drawn))
    exact h.saves saves (incoming_id_ne_nil hF hne)

theorem Sound.step (h : Sound s.db) (hs : step s a = some t) : Sound t.db := by
  obtain ⟨hF, hne, heffect⟩ := effect_of_step hs
  have h : Sound (s.dbAt a) := ⟨h.referential, h.named⟩
  rcases heffect with hr | hw
  · exact h.removes hr
  generalize a.operation = op at hw
  cases op with
  | createService service =>
    obtain ⟨result, hc⟩ := hw
    exact h.creates hF hne hc
  | updateService service =>
    obtain ⟨hu, result, hsaves⟩ := hw
    exact h.saves hsaves (h.hasService hu.stored)
  | upsertService id newData =>
    obtain ⟨existing, result, hstored, -, hsaves⟩ := hw
    exact h.saves hsaves (h.hasService hstored.hasService)
  | createBinding networkIds binding =>
    obtain ⟨-, b, -, hb⟩ := hw
    exact h.bound (fun r hr => (List.mem_filter.mp hr).1) hb
  | updateBinding networkIds id binding =>
    obtain ⟨-, b, -, hb⟩ := hw
    exact h.bound (fun r hr => (List.mem_filter.mp hr).1) hb
  | saveService index =>
    obtain ⟨o, -, service, -, -, result, hc⟩ := hw
    exact h.creates hF hne hc
  | finish index =>
    obtain ⟨o, -, result, db₁, hc, hr⟩ := hw
    have hne : db₁.drawn ≠ [] := fun hnil => hne (List.suffix_nil.mp (hnil ▸ hr.drawn))
    exact (h.creates hF hne hc).removes hr
  | _ => exact hw.elim

/-- A network 1 with a host 2 that has the ports 3 and 4, and no service. -/
def oneHost : Db where
  networks := [1]
  hosts := { rows := [{ id := 2, base := { networkId := 1 } }] }
  ports :=
    { rows := [{ id := 3, base := { hostId := 2, networkId := 1 } },
        { id := 4, base := { hostId := 2, networkId := 1, portType := { number := 80 } } }]
      nodup := by decide }

def serviceOn (id : Uuid) (ports : List Uuid) : Service where
  id := id
  base := { hostId := 2, networkId := 1, bindings := ports.map fun p => { base := { bindingType := .port p none } } }

end Netvisor.Services
