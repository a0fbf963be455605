/-
Which stored interfaces stand for the interfaces of a discovered host.

Each is found by its id, by its subnet and IP address, or by its MAC address, or it
is created. One found by subnet and IP address is the right one; the lookups by id
and by MAC address ask for no address, so they may end at another one, which is a
stored one or one created for an earlier interface of the request.
-/
import Netvisor.Hosts.SavedInterfaces

namespace Netvisor

open Program (wp Keeps)

/-! ## Programs that leave the interfaces alone -/

/-- The interfaces are as before. -/
def Db.SameInterfaces (db db' : Db) : Prop := db'.interfaces = db.interfaces

instance : IsPreorder Db Db.SameInterfaces where
  refl _ := rfl
  trans _ _ _ h h' := Eq.trans h' h

/-- Entities whose tables are not that of the interfaces. -/
class NotInterface (α : Type) [Storable α] : Prop where
  setTable : ∀ (t : Table α Storable.id) (db : Db), db.SameInterfaces (Storable.setTable t db)

instance : NotInterface Host := ⟨fun _ _ => rfl⟩
instance : NotInterface Port := ⟨fun _ _ => rfl⟩
instance : NotInterface Service := ⟨fun _ _ => rfl⟩
instance : NotInterface Binding := ⟨fun _ _ => rfl⟩
instance : NotInterface IfEntry := ⟨fun _ _ => rfl⟩

section

variable {α : Type} [Storable α]

theorem sameInterfaces_orNew (entity : α) : Keeps Db.SameInterfaces (Storable.orNew entity) := by
  intro db
  rw [Storable.wp_orNew]
  exact ⟨fun _ => rfl, fun _ => rfl⟩

variable [NotInterface α]

theorem sameInterfaces_storableCreate (entity : α) : Keeps Db.SameInterfaces (Storable.create entity) := fun db =>
  Storable.wp_create (fun _ => rfl) fun t _ _ => NotInterface.setTable t db

theorem sameInterfaces_storableUpdate (entity : α) : Keeps Db.SameInterfaces (Storable.update entity) := fun db =>
  Storable.wp_update (fun _ => rfl) (fun _ => rfl) fun _ _ => NotInterface.setTable _ db

theorem sameInterfaces_create (entity : α) : Keeps Db.SameInterfaces (CrudService.create entity) :=
  .bind (sameInterfaces_orNew entity) sameInterfaces_storableCreate

theorem sameInterfaces_update (display : α → String) (entity : α) :
    Keeps Db.SameInterfaces (CrudService.update display entity) := by
  intro db
  simp only [CrudService.update, Program.wp_bind, Storable.wp_getById]
  split
  · rfl
  · exact sameInterfaces_storableUpdate entity db

end

theorem sameInterfaces_saveChild (existing : List Binding) (child : Binding) :
    Keeps Db.SameInterfaces (BindingService.saveChild existing child) := by
  intro db
  unfold BindingService.saveChild
  split
  · simp only [Program.wp_bind, wp_newV4]
    exact sameInterfaces_create _ _
  · split
    · exact sameInterfaces_update _ _ db
    · exact sameInterfaces_create _ db

theorem sameInterfaces_saveForParent (parentId : Uuid) (children : List Binding) :
    Keeps Db.SameInterfaces (BindingService.saveForParent parentId children) := by
  have hsave := fun existing => Keeps.mapM (sameInterfaces_saveChild existing) children
  intro db
  simp only [BindingService.saveForParent, Program.wp_bind, Program.wp_get, Program.wp_ite, BindingService.deleteMany,
    Program.wp_set, Program.wp_pure]
  exact ⟨fun _ => (hsave _).later rfl, fun _ => hsave _ db⟩

namespace ServiceService

theorem sameInterfaces_saveBindings (service : Service) : Keeps Db.SameInterfaces (saveBindings service) :=
  .bind (sameInterfaces_saveForParent _ _) fun _ => .pure

theorem sameInterfaces_validate (message : Option String) : Keeps Db.SameInterfaces (validate message) := by
  intro db
  rw [wp_validate]
  exact ⟨fun _ => rfl, fun _ _ => rfl⟩

theorem sameInterfaces_create (service : Service) : Keeps Db.SameInterfaces (create service) := by
  refine .bind (sameInterfaces_orNew service) fun service => .bind .get fun db => ?_
  split
  · exact .bind (sameInterfaces_storableUpdate _) fun _ => sameInterfaces_saveBindings _
  · refine .bind (sameInterfaces_validate _) fun _ => .bind (.bind .get fun _ => sameInterfaces_validate _) fun _ =>
      .bind ?_ fun _ => .bind (sameInterfaces_storableCreate _) fun _ => sameInterfaces_saveBindings _
    exact .ite .pure (.bind .get fun _ => sameInterfaces_validate _)

end ServiceService

namespace HostService

open ServiceService (Reassignment)

variable {host : Host}

theorem sameInterfaces_savePort (conflictBehavior : ConflictBehavior) (host : Host) (p : Port) :
    Keeps Db.SameInterfaces (savePort conflictBehavior host p) := by
  refine .bind .get fun db => ?_
  split
  · exact .pure
  · exact sameInterfaces_create _

theorem sameInterfaces_saveIfEntry (entry : IfEntry) : Keeps Db.SameInterfaces (saveIfEntry host entry) := by
  refine .bind .get fun db => ?_
  split
  · exact sameInterfaces_update _ _
  · exact sameInterfaces_create _

theorem sameInterfaces_saveService (r : Reassignment) (batch : Batch) (service : Service) :
    Keeps Db.SameInterfaces (saveService r batch service) := by
  refine .bind (.bind .get fun _ => .pure) fun (validBindings, conflictingBindings) => .ite .pure ?_
  exact .bind (ServiceService.sameInterfaces_create _) fun _ => .pure

theorem sameInterfaces_finish (r : Reassignment) (ifEntries : List IfEntry) (batch : Batch) :
    Keeps Db.SameInterfaces (finish r ifEntries batch) := by
  refine .bind ?_ fun _ => .bind (.mapM sameInterfaces_saveIfEntry _) fun _ => .pure
  exact .ite .pure (.bind (fun _ => Storable.wp_new.mpr rfl) fun _ =>
    .bind (ServiceService.sameInterfaces_create _) fun _ => .pure)

/-! ## The host with its children -/

variable {db db' : Db}

/-- The interfaces of the response stand for those of the request, one for each. -/
structure Represents (request : DiscoveryHostRequest) (response : HostResponse) (db : Db) : Prop where
  length : response.interfaces.length = request.interfaces.length
  stored : ∀ e ∈ response.interfaces, e ∈ db.interfaces.rows
  kept : Kept response.id (request.interfaces.zip response.interfaces)

variable {hostLimit : Option Nat} {request : DiscoveryHostRequest} {response : HostResponse}

theorem wp_finish_interfaces (r : Reassignment) (ifEntries : List IfEntry) (batch : Batch) (db : Db) :
    wp (finish r ifEntries batch) (fun response t =>
      response.id = r.updatedHost.id ∧ response.interfaces = r.updatedInterfaces ∧ db.SameInterfaces t)
      (fun _ _ => True) db := by
  have hresult : wp (finish r ifEntries batch) (fun response _ =>
      response.id = r.updatedHost.id ∧ response.interfaces = r.updatedInterfaces) (fun _ _ => True) db := by
    simp only [finish, Program.wp_bind, Program.wp_pure]
    refine Program.wp.of_forall (fun batch t => ?_) fun _ _ => trivial
    exact Program.wp.of_forall (fun _ _ => ⟨rfl, rfl⟩) fun _ _ => trivial
  have hsame := sameInterfaces_finish r ifEntries batch db
  exact (hresult.and hsame).mono (fun _ _ h => ⟨h.1.1, h.1.2, h.2⟩) fun _ _ _ => trivial

/-- The interfaces are as before, and one id was drawn at most. -/
structure DrawsOne (db t : Db) : Prop where
  interfaces : t.interfaces = db.interfaces
  drawn : t.drawn <:+ db.drawn
  length : db.drawn.length ≤ t.drawn.length + 1

theorem wp_upsertHost {s : Db} (h : DrawsOne db s) (existing newData : Host) :
    wp (upsertHost existing newData) (fun _ => DrawsOne db) (fun _ _ => True) s := by
  simp only [upsertHost, Program.wp_bind, Program.wp_ite, Program.wp_pure]
  exact ⟨fun _ => Storable.wp_update (fun _ => trivial) (fun _ => h) fun _ _ => ⟨h.interfaces, h.drawn, h.length⟩,
    fun _ => h⟩

theorem wp_matchHost : wp (matchHost .upsert hostLimit request) (fun _ t => t = db) (fun _ _ => True) db := by
  simp only [matchHost, Program.wp_bind, Program.wp_get]
  split
  · next h => cases h
  · rfl
  · simp only [Program.wp_bind, Program.wp_ite, Program.wp_throw, Program.wp_pure, implies_true, and_self]

/-- The host is stored without its interfaces, and draws no id but its own. -/
theorem wp_create (host : Host) : wp (create host) (fun _ => DrawsOne db) (fun _ _ => True) db := by
  have hnew : wp (Storable.orNew host) (fun _ => DrawsOne db) (fun _ _ => True) db := by
    have htail : db.drawn.length ≤ db.drawn.tail.length + 1 := by
      rw [List.length_tail]
      omega
    exact Storable.wp_orNew.mpr
      ⟨fun _ => ⟨rfl, List.tail_suffix _, htail⟩, fun _ => ⟨rfl, List.suffix_rfl, Nat.le_succ _⟩⟩
  rw [create, Program.wp_bind]
  refine hnew.mono (fun host s hs => ?_) fun _ _ h => h
  simp only [Program.wp_bind, Program.wp_get]
  split
  · exact wp_upsertHost hs _ _
  · split
    · trivial
    · rw [Program.wp_bind]
      exact Storable.wp_create (fun _ => trivial) fun _ _ _ => ⟨hs.interfaces, hs.drawn, hs.length⟩

/-- **A discovery keeps every address exactly when its interfaces are told apart**, from each other and by the rows
stored for them. -/
theorem represents_iff {db₁ : Db} (hfresh : DrawsFresh db request.interfaces)
    (hhost : (matchHost .upsert hostLimit request >>= create) db = .ok host db₁)
    (hrun : createWithChildren .upsert hostLimit request db = .ok response db') :
    Represents request response db' ↔ ToldApart db host request.interfaces := by
  have hcreated : wp (matchHost .upsert hostLimit request >>= create) (fun _ => DrawsOne db) (fun _ _ => True) db := by
    rw [Program.wp_bind]
    exact wp_matchHost.mono (fun host t ht => ht ▸ wp_create host) fun _ _ h => h
  have hone : DrawsOne db db₁ := (Program.wp_of_ok hhost).mp hcreated
  have hmain : wp (createWithChildren .upsert hostLimit request)
      (fun response t => Represents request response t ↔ ToldApart db host request.interfaces)
      (fun _ _ => True) db := by
    have hcreateHost : createHost .upsert hostLimit request =
        (matchHost .upsert hostLimit request >>= create) >>= fun createdHost => do
          let createdInterfaces ← request.interfaces.mapM (saveInterface .upsert createdHost)
          let createdPorts ← request.ports.mapM (savePort .upsert createdHost)
          return {
            originalInterfaces := request.interfaces
            originalPorts := request.ports
            updatedHost := createdHost
            updatedInterfaces := createdInterfaces
            updatedPorts := createdPorts } := by
      simp only [createHost, bind_assoc]
    rw [createWithChildren, hcreateHost, Program.wp_bind, Program.wp_bind, Program.wp_of_ok hhost]
    simp only [Program.wp_bind, Program.wp_pure]
    have henough : request.interfaces.length ≤ db₁.drawn.length := by
      have henough := hfresh.enough
      have hlength := hone.length
      omega
    have hunknown : ∀ i ∈ request.interfaces, i.id ∉ db₁.drawn := fun i hi hmem =>
      hfresh.unknown i hi (hone.drawn.subset hmem)
    refine (wp_saveInterfaces henough hunknown).mono (fun es t h => ?_) fun _ _ h => h
    refine (Keeps.mapM (sameInterfaces_savePort _ host) _ t).mono (fun ports u hu => ?_) fun _ _ _ => trivial
    refine ((Keeps.foldlM (sameInterfaces_saveService _) _ _).later hu).mono (fun batch v hv => ?_) fun _ _ _ =>
      trivial
    refine (wp_finish_interfaces _ _ batch v).mono (fun response w hw => ?_) fun _ _ h => h
    obtain ⟨hid, hupdated, hw⟩ := hw
    have hsame : w.interfaces = t.interfaces := Eq.trans hw hv
    dsimp only at hid hupdated
    rw [← toldApart_congr hone.interfaces]
    have hrepresents : Represents request response w ↔ Kept host.id (request.interfaces.zip es) := by
      constructor
      · intro hrepresents
        have hkept := hrepresents.kept
        rwa [hid, hupdated] at hkept
      · intro hkept
        refine ⟨by rw [hupdated, h.length], fun e he => ?_, by rwa [hid, hupdated]⟩
        have hsnd : (request.interfaces.zip es).map Prod.snd = es := List.map_snd_zip (Nat.le_of_eq h.length)
        rw [hupdated, ← hsnd] at he
        obtain ⟨p, hp, rfl⟩ := List.mem_map.mp he
        rw [hsame]
        exact h.stored p hp
    rw [hrepresents]
    rcases h.kept with ⟨hkept, hapart, -⟩ | ⟨hlost, hnot⟩
    · exact iff_of_true hkept hapart
    · exact iff_of_false hlost hnot
  exact (Program.wp_of_ok hrun).mp hmain

/-! ## A network card with two addresses -/

/-- A host without interfaces. -/
def bareHost : Db where
  drawn := [8, 9]
  networks := [1]
  subnets := { rows := [{ id := 2, base := { networkId := 1, cidr := ⟨.v4 0, 24⟩ } }] }
  hosts := { rows := [{ id := 3, base := { networkId := 1 } }] }

/-- The host is discovered with one card and these addresses. -/
def discovered (addresses : List IpAddr) : DiscoveryHostRequest where
  host := { id := 3, base := { networkId := 1 } }
  interfaces := addresses.zipIdx.map fun (ipAddress, n) =>
    { id := BitVec.ofNat 128 (4 + n)
      base := { networkId := 1, hostId := 3, subnetId := 2, ipAddress, macAddress := some 7 } }

theorem represents_iff_one_address : ∃ host db₁ response db',
    (matchHost .upsert none (discovered [.v4 1]) >>= create) bareHost = .ok host db₁ ∧
      createWithChildren .upsert none (discovered [.v4 1]) bareHost = .ok response db' ∧
      (Represents (discovered [.v4 1]) response db' ↔ ToldApart bareHost host (discovered [.v4 1]).interfaces) := by
  have hhost : wp (matchHost .upsert none (discovered [.v4 1]) >>= create) (fun _ _ => True)
      (fun _ _ => False) bareHost := by
    decide +kernel
  have hrun : wp (createWithChildren .upsert none (discovered [.v4 1])) (fun _ _ => True)
      (fun _ _ => False) bareHost := by
    decide +kernel
  obtain ⟨host, db₁, hhost, -⟩ := Program.returns_of_wp hhost
  obtain ⟨response, db', hrun, -⟩ := Program.returns_of_wp hrun
  exact ⟨host, db₁, response, db', hhost, hrun, represents_iff ⟨by decide, by decide⟩ hhost hrun⟩

/-- The second address of the card is not stored. -/
theorem second_address_lost : ∃ response db',
    createWithChildren .upsert none (discovered [.v4 1, .v4 2]) bareHost = .ok response db' ∧
      ¬ Represents (discovered [.v4 1, .v4 2]) response db' := by
  have hrun : wp (createWithChildren .upsert none (discovered [.v4 1, .v4 2]))
      (fun response _ => ¬ ∀ p ∈ (discovered [.v4 1, .v4 2]).interfaces.zip response.interfaces,
        p.2.base.ipAddress = p.1.base.ipAddress) (fun _ _ => False) bareHost := by
    decide +kernel
  obtain ⟨response, db', hrun, hother⟩ := Program.returns_of_wp hrun
  exact ⟨response, db', hrun, fun h => hother fun p hp => (h.kept.represented p hp).2⟩

end HostService

end Netvisor
