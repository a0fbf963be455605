/-
Discovering a host does not notice a change of the subnets, as long as the
subnets of its interfaces stay where they are: a host reads the table only to
see that these exist, and never writes it.
-/
import Netvisor.Hosts.Service
import Netvisor.Lib.Commuting
import Netvisor.StorageFacts

namespace Netvisor

open Program

namespace Storable

variable {α : Type} [Storable α] (entity : α) (db : Db)

theorem create_run : Storable.create entity db =
    match (table db).insert (row entity), broken db entity with
    | none, _ => .error (.validation (primaryKey (α := α)).friendlyMessage) db
    | some _, some c => .error (.validation c.friendlyMessage) db
    | some t, none =>
      if references db entity then .ok entity (setTable t db) else .error (.foreignKey (tableName (α := α))) db := by
  simp only [create, bind, EStateM.bind, Program.run_get]
  cases (table db).insert (row entity) with
  | none => rfl
  | some t =>
    cases broken db entity with
    | some c => rfl
    | none => cases references db entity <;> rfl

theorem update_run : Storable.update entity db =
    if ((table (α := α) db).get (id entity)).isNone then .ok entity db
    else
      match broken db entity with
      | some c => .error (.internal c.databaseMessage) db
      | none =>
        if references db entity then .ok entity (setTable ((table db).update (row entity)) db)
        else .error (.foreignKey (tableName (α := α))) db := by
  simp only [update, bind, EStateM.bind, Program.run_get]
  split
  · rfl
  · cases broken db entity with
    | some c => rfl
    | none => cases references db entity <;> rfl

end Storable

/-- A change of the subnets, which may depend on them and on the networks. -/
abbrev SubnetChange := List Uuid → Table Subnet Subnet.id → Table Subnet Subnet.id

namespace SubnetChange

variable (change : SubnetChange) (ids : List Uuid)

def apply (db : Db) : Db := { db with subnets := change db.networks db.subnets }

/-- The change neither adds nor removes a subnet among `ids`. -/
def Spares (db : Db) : Prop :=
  ∀ id ∈ ids, ((change db.networks db.subnets).get id).isSome = (db.subnets.get id).isSome

/-- The program does not notice the change. -/
abbrev Unseen {α : Type} (p : Store α) : Prop := Commutes (change.Spares ids) change.apply p

/-- A table that is not the one of the subnets. -/
structure Apart (α : Type) [Storable α] : Prop where
  table (db : Db) : Storable.table (α := α) (change.apply db) = Storable.table db
  setTable (t : Table α Storable.id) (db : Db) :
    Storable.setTable t (change.apply db) = change.apply (Storable.setTable t db)
  networks (t : Table α Storable.id) (db : Db) : (Storable.setTable t db).networks = db.networks
  subnets (t : Table α Storable.id) (db : Db) : (Storable.setTable t db).subnets = db.subnets

variable {change ids} {α : Type} [Storable α] {entity : α}

theorem Apart.spares (h : Apart change α) {t : Table α Storable.id} {db : Db} (hs : change.Spares ids db) :
    change.Spares ids (Storable.setTable t db) := by
  intro id hid
  rw [h.networks, h.subnets]
  exact hs id hid

theorem Apart.broken (h : Apart change α) (db : Db) :
    Storable.broken (change.apply db) entity = Storable.broken db entity := by
  unfold Storable.broken
  rw [h.table]

/-! ## Statements -/

theorem unseen_newV4 : change.Unseen ids newV4 := fun _ hs => ⟨rfl, hs⟩

theorem unseen_validate (message : Option String) : change.Unseen ids (validate message) := by
  cases message with
  | none => exact commutes_pure _
  | some message => exact commutes_throw _

theorem unseen_create (h : Apart change α)
    (href : ∀ db, change.Spares ids db →
      Storable.references (change.apply db) entity = Storable.references db entity) :
    change.Unseen ids (Storable.create entity) := by
  intro db hs
  unfold after
  rw [Storable.create_run, Storable.create_run, h.table, h.broken, href db hs]
  split
  · exact ⟨rfl, hs⟩
  · exact ⟨rfl, hs⟩
  · split
    · exact ⟨by rw [h.setTable]; rfl, h.spares hs⟩
    · exact ⟨rfl, hs⟩

theorem unseen_update (h : Apart change α)
    (href : ∀ db, change.Spares ids db →
      Storable.references (change.apply db) entity = Storable.references db entity) :
    change.Unseen ids (Storable.update entity) := by
  intro db hs
  unfold after
  rw [Storable.update_run, Storable.update_run, h.table, h.broken, href db hs]
  split
  · exact ⟨rfl, hs⟩
  · split
    · exact ⟨rfl, hs⟩
    · split
      · exact ⟨by rw [h.setTable]; rfl, h.spares hs⟩
      · exact ⟨rfl, hs⟩

theorem unseen_new : change.Unseen ids (Storable.new entity) := fun _ hs => ⟨rfl, hs⟩

theorem unseen_orNew : change.Unseen ids (Storable.orNew entity) :=
  Commutes.ite (fun _ => unseen_new) fun _ => commutes_pure _

theorem unseen_getById (h : Apart change α) (i : Uuid) : change.Unseen ids (Storable.getById (α := α) i) :=
  commutes_get (fun db _ => by rw [h.table]) fun _ => commutes_pure _

theorem unseen_crudUpdate (h : Apart change α) {display : α → String}
    (href : ∀ db, change.Spares ids db →
      Storable.references (change.apply db) entity = Storable.references db entity) :
    change.Unseen ids (CrudService.update display entity) := by
  refine (unseen_getById h _).bind fun found => ?_
  cases found with
  | none => exact commutes_throw _
  | some _ => exact unseen_update h href

/-! ## Bindings and services -/

theorem apart_host : Apart change Host := ⟨fun _ => rfl, fun _ _ => rfl, fun _ _ => rfl, fun _ _ => rfl⟩

theorem apart_interface : Apart change Interface := ⟨fun _ => rfl, fun _ _ => rfl, fun _ _ => rfl, fun _ _ => rfl⟩

theorem apart_port : Apart change Port := ⟨fun _ => rfl, fun _ _ => rfl, fun _ _ => rfl, fun _ _ => rfl⟩

theorem apart_service : Apart change Service := ⟨fun _ => rfl, fun _ _ => rfl, fun _ _ => rfl, fun _ _ => rfl⟩

theorem apart_binding : Apart change Binding := ⟨fun _ => rfl, fun _ _ => rfl, fun _ _ => rfl, fun _ _ => rfl⟩

theorem apart_ifEntry : Apart change IfEntry := ⟨fun _ => rfl, fun _ _ => rfl, fun _ _ => rfl, fun _ _ => rfl⟩

theorem unseen_saveChild (existing : List Binding) (child : Binding) :
    change.Unseen ids (BindingService.saveChild existing child) := by
  have hcreate (child : Binding) : change.Unseen ids (CrudService.create child) :=
    unseen_orNew.bind fun _ => unseen_create apart_binding fun _ _ => rfl
  refine Commutes.ite (fun _ => unseen_newV4.bind fun _ => hcreate _) fun _ => ?_
  split
  · exact unseen_crudUpdate apart_binding fun _ _ => rfl
  · exact hcreate _

theorem unseen_saveForParent (parentId : Uuid) (children : List Binding) :
    change.Unseen ids (BindingService.saveForParent parentId children) := by
  have hchildren (existing : List Binding) : change.Unseen ids (children.mapM (BindingService.saveChild existing)) :=
    Commutes.mapM fun child _ => unseen_saveChild existing child
  have hdelete (ids' : List Uuid) : change.Unseen ids (BindingService.deleteMany ids') := fun _ hs => ⟨rfl, hs⟩
  refine commutes_get (fun _ _ => rfl) fun db => ?_
  dsimp only
  exact Commutes.ite (fun _ => (hdelete _).bind fun _ => hchildren _) fun _ => hchildren _

theorem unseen_saveBindings (service : Service) : change.Unseen ids (ServiceService.saveBindings service) :=
  (unseen_saveForParent _ _).bind fun _ => commutes_pure _

theorem unseen_createService (service : Service) : change.Unseen ids (ServiceService.create service) := by
  refine unseen_orNew.bind fun service => commutes_get (fun _ _ => rfl) fun db => ?_
  split
  · refine Commutes.bind (unseen_update apart_service fun _ _ => rfl) fun _ => unseen_saveBindings _
  · refine (unseen_validate _).bind fun _ => Commutes.bind ?_ fun _ => Commutes.bind (Commutes.ite ?_ ?_) fun _ =>
      Commutes.bind (unseen_create apart_service fun _ _ => rfl) fun _ => unseen_saveBindings _
    · exact commutes_get (fun _ _ => rfl) fun _ => unseen_validate _
    · exact fun _ => commutes_pure _
    · exact fun _ => commutes_get (fun _ _ => rfl) fun _ => unseen_validate _

/-! ## Hosts -/

open HostService

theorem unseen_matchHost (conflictBehavior : ConflictBehavior) (hostLimit : Option Nat)
    (request : DiscoveryHostRequest) :
    change.Unseen ids (matchHost conflictBehavior hostLimit request) := by
  refine commutes_get (fun _ _ => rfl) fun db => ?_
  dsimp only
  split
  · exact commutes_throw _
  · exact commutes_pure _
  · exact Commutes.ite (fun _ => (commutes_throw _).bind fun _ => commutes_pure _) fun _ => commutes_pure _

theorem unseen_createHost (host : Host) : change.Unseen ids (HostService.create host) := by
  refine unseen_orNew.bind fun host => commutes_get (fun _ _ => rfl) fun db => ?_
  split
  · unfold upsertHost
    dsimp only
    exact Commutes.ite (fun _ => (unseen_update apart_host fun _ _ => rfl).bind fun _ => commutes_pure _)
      fun _ => commutes_pure _
  · split
    · exact commutes_throw _
    · exact (unseen_create apart_host fun _ _ => rfl).bind fun _ => commutes_pure _

/-- The one statement that reads the subnets. -/
theorem unseen_insertInterface {i : Interface} (hi : i.base.subnetId ∈ ids) :
    change.Unseen ids (Storable.create i) := by
  refine unseen_create apart_interface fun db hs => ?_
  simp only [Storable.references, apply, Db.hasNetwork, Db.hasHost, hs _ hi]

theorem unseen_createInterface {i : Interface} (hi : i.base.subnetId ∈ ids) :
    change.Unseen ids (CrudService.create i) := by
  unfold CrudService.create Storable.orNew
  split
  · intro db hs
    exact unseen_insertInterface (i := Storable.stamp (db.drawn.headD Uuid.nil) db.now i) hi
      { db with drawn := db.drawn.tail } hs
  · exact unseen_insertInterface hi

theorem unseen_saveInterface {conflictBehavior : ConflictBehavior} {host : Host} {i : Interface}
    (hi : i.base.subnetId ∈ ids) :
    change.Unseen ids (saveInterface conflictBehavior host i) := by
  refine commutes_get (fun _ _ => rfl) fun db => ?_
  split
  · exact commutes_pure _
  · exact unseen_createInterface hi

theorem unseen_savePort (conflictBehavior : ConflictBehavior) (host : Host) (p : Port) :
    change.Unseen ids (savePort conflictBehavior host p) := by
  refine commutes_get (fun _ _ => rfl) fun db => ?_
  split
  · exact commutes_pure _
  · exact unseen_orNew.bind fun _ => unseen_create apart_port fun _ _ => rfl

theorem unseen_saveService (r : ServiceService.Reassignment) (batch : Batch) (service : Service) :
    change.Unseen ids (saveService r batch service) := by
  refine Commutes.bind (commutes_get (fun _ _ => rfl) fun _ => commutes_pure _) fun conflicts => ?_
  exact Commutes.ite (fun _ => commutes_pure _) fun _ => (unseen_createService _).bind fun _ => commutes_pure _

theorem unseen_assignOrphaned (host : Host) (batch : Batch) : change.Unseen ids (assignOrphaned host batch) :=
  Commutes.ite (fun _ => commutes_pure _) fun _ =>
    unseen_new.bind fun _ => (unseen_createService _).bind fun _ => commutes_pure _

theorem unseen_saveIfEntry (host : Host) (entry : IfEntry) : change.Unseen ids (saveIfEntry host entry) := by
  refine commutes_get (fun _ _ => rfl) fun db => ?_
  split
  · exact unseen_crudUpdate apart_ifEntry fun _ _ => rfl
  · exact unseen_orNew.bind fun _ => unseen_create apart_ifEntry fun _ _ => rfl

theorem unseen_linkIfEntries (hostId : Uuid) : change.Unseen ids (linkIfEntriesToInterfaces hostId) := by
  have hlink (interfaces : List Interface) (entry : IfEntry) : change.Unseen ids (linkIfEntry interfaces entry) := by
    unfold linkIfEntry
    split
    · exact (unseen_crudUpdate apart_ifEntry fun _ _ => rfl).attempt.bind fun _ => commutes_pure _
    · exact commutes_pure _
  exact commutes_get (fun _ _ => rfl) fun db => Commutes.bind (Commutes.mapM fun entry _ => hlink _ entry) fun _ =>
    commutes_pure _

/-- **A host is discovered the same before and after a change that spares the
subnets of its interfaces.** -/
theorem unseen_discoverHost {hostLimit : Option Nat} {request : DiscoveryHostRequest}
    (hids : ∀ i ∈ request.interfaces, i.base.subnetId ∈ ids) :
    change.Unseen ids (discoverHost hostLimit request) := by
  have hhost : change.Unseen ids (createHost .upsert hostLimit request) :=
    (unseen_matchHost _ _ _).bind fun host => (unseen_createHost host).bind fun host =>
      Commutes.bind (Commutes.mapM fun i hi => unseen_saveInterface (hids i hi)) fun _ =>
        Commutes.bind (Commutes.mapM fun p _ => unseen_savePort _ host p) fun _ => commutes_pure _
  have hfinish (r : ServiceService.Reassignment) (batch : Batch) :
      change.Unseen ids (finish r request.ifEntries batch) :=
    (unseen_assignOrphaned _ _).bind fun _ =>
      Commutes.bind (Commutes.mapM fun entry _ => unseen_saveIfEntry _ entry) fun _ => commutes_pure _
  have hcreate : change.Unseen ids (createWithChildren .upsert hostLimit request) :=
    hhost.bind fun r => Commutes.bind (Commutes.foldlM fun batch service _ =>
      unseen_saveService r batch service) fun batch =>
      hfinish r batch
  refine hcreate.bind fun response => ?_
  dsimp only
  exact Commutes.ite (fun _ => (unseen_linkIfEntries _).bind fun _ => commutes_pure _) fun _ => commutes_pure _

end SubnetChange

end Netvisor
