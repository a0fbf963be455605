/-
What `HostService` does to services and bindings: creating the host with its
interfaces, ports and interface table entries leaves them alone, and a service
of the request is created only if the check against the other services passed.
-/
import Netvisor.Bindings.HandlersFacts
import Netvisor.Hosts.Service

namespace Netvisor

open Program (wp)

/-! ## Programs that write no service and no binding -/

theorem Db.removes_of_grows {db db' : Db} (hdrawn : db'.drawn <:+ db.drawn) (hnetworks : db'.networks = db.networks)
    (hservices : db'.services = db.services) (hbindings : db'.bindings = db.bindings)
    (hports : ∀ id, db.hasPort id = true → db'.hasPort id = true)
    (hinterfaces : ∀ id, db.hasInterface id = true → db'.hasInterface id = true) : db.Removes db' where
  drawn := hdrawn
  services s hs := hservices ▸ hs
  bindings b hb := by
    refine ⟨hbindings ▸ hb, fun href => ?_⟩
    simp only [Storable.references, Bool.and_eq_true, Option.all_eq_true, Db.hasNetwork, Db.hasService] at href ⊢
    rw [hnetworks, hservices]
    exact ⟨⟨href.1.1, fun p hp => hports p (href.1.2 p hp)⟩, fun i hi => hinterfaces i (href.2 i hi)⟩

/-- Entities whose rows may be inserted and updated without losing what bindings refer to. -/
class Beside (α : Type) [Storable α] : Prop where
  insert : ∀ {db : Db} {entity : α} {t}, (Storable.table db).insert (Storable.row entity) = some t →
    db.Removes (Storable.setTable t db)
  update : ∀ {db : Db} {entity : α},
    db.Removes (Storable.setTable ((Storable.table db).update (Storable.row entity)) db)

instance : Beside Host where
  insert _ := Db.removes_of_grows List.suffix_rfl rfl rfl rfl (fun _ h => h) fun _ h => h
  update := Db.removes_of_grows List.suffix_rfl rfl rfl rfl (fun _ h => h) fun _ h => h

instance : Beside IfEntry where
  insert _ := Db.removes_of_grows List.suffix_rfl rfl rfl rfl (fun _ h => h) fun _ h => h
  update := Db.removes_of_grows List.suffix_rfl rfl rfl rfl (fun _ h => h) fun _ h => h

theorem Table.get_isSome_insert {α κ : Type} [DecidableEq κ] {key : α → κ} {t t' : Table α key} {r : α} {k : κ}
    (hins : t.insert r = some t') (h : (t.get k).isSome = true) : (t'.get k).isSome = true := by
  obtain ⟨x, hx, hk⟩ := Table.get_isSome.mp h
  exact Table.get_isSome.mpr ⟨x, (Table.insert_eq_some hins).1 ▸ List.mem_append_left _ hx, hk⟩

theorem Table.get_isSome_update {α κ : Type} [DecidableEq κ] {key : α → κ} {t : Table α key} {r : α} {k : κ}
    (h : (t.get k).isSome = true) : ((t.update r).get k).isSome = true := by
  obtain ⟨x, hx, rfl⟩ := Table.get_isSome.mp h
  by_cases hxr : key x = key r
  · exact Table.get_isSome.mpr ⟨r, Table.mem_update.mpr (.inl ⟨rfl, x, hx, hxr⟩), hxr.symm⟩
  · exact Table.get_isSome.mpr ⟨x, Table.mem_update.mpr (.inr ⟨hx, hxr⟩), rfl⟩

instance : Beside Interface where
  insert hins := Db.removes_of_grows List.suffix_rfl rfl rfl rfl (fun _ h => h) fun _ h =>
    Table.get_isSome_insert hins h
  update := Db.removes_of_grows List.suffix_rfl rfl rfl rfl (fun _ h => h) fun _ h => Table.get_isSome_update h

instance : Beside Port where
  insert hins := Db.removes_of_grows List.suffix_rfl rfl rfl rfl (fun _ h =>
    Table.get_isSome_insert hins h) fun _ h => h
  update := Db.removes_of_grows List.suffix_rfl rfl rfl rfl (fun _ h => Table.get_isSome_update h) fun _ h => h

/-- Whether it returns or fails, the program leaves services and bindings at most fewer. -/
def OnlyRemoves {β : Type} (p : Store β) : Prop := ∀ db : Db, wp p (fun _ t => db.Removes t)
    (fun _ t => db.Removes t) db

namespace OnlyRemoves

variable {β γ : Type} {p : Store β} {f : β → Store γ}

theorem of_nothing (h : ∀ db : Db, wp p (fun _ t => db.SameButDrawn t) (fun _ t => db.SameButDrawn t) db) :
    OnlyRemoves p :=
  fun db => (h db).mono (fun _ _ h => h.removes) fun _ _ h => h.removes

theorem pure (b : β) : OnlyRemoves (pure b) := of_nothing fun db => .refl db

theorem throw (e : Error) : OnlyRemoves (throw e : Store β) := of_nothing fun db => .refl db

theorem get : OnlyRemoves (get : Store Db) := of_nothing fun db => .refl db

theorem bind (hp : OnlyRemoves p) (hf : ∀ b, OnlyRemoves (f b)) : OnlyRemoves (p >>= f) := by
  intro db
  rw [Program.wp_bind]
  exact (hp db).mono (fun b t h => (hf b t).mono (fun _ _ h' => h.trans h') fun _ _ h' => h.trans h') fun _ _ h => h

theorem mapM (hf : ∀ b, OnlyRemoves (f b)) (l : List β) : OnlyRemoves (l.mapM f) := by
  intro db
  refine Program.wp_mapM_all (I := fun _ _ _ t => db.Removes t) (fun _ _ b _ t h => ?_)
    (Db.SameButDrawn.refl db).removes
  exact (hf b t).mono (fun _ _ h' => h.trans h') fun _ _ h' => h.trans h'

variable {α : Type} [Storable α] [Beside α] {entity : α} {display : α → String}

theorem newV4 : OnlyRemoves newV4 := of_nothing fun _ => ⟨_, List.tail_suffix _, rfl⟩

omit [Beside α] in
theorem orNew : OnlyRemoves (Storable.orNew entity) := by
  unfold Storable.orNew
  split
  · exact bind newV4 fun _ => bind get fun _ => pure _
  · exact pure _

theorem storableCreate : OnlyRemoves (Storable.create entity) := fun db =>
  Storable.wp_create (fun _ => (Db.SameButDrawn.refl db).removes) fun _ hins _ => Beside.insert hins

theorem storableUpdate : OnlyRemoves (Storable.update entity) := fun db =>
  Storable.wp_update (fun _ => (Db.SameButDrawn.refl db).removes) (fun _ => (Db.SameButDrawn.refl db).removes)
    fun _ _ => Beside.update

theorem create : OnlyRemoves (CrudService.create entity) := bind orNew fun _ => storableCreate

theorem update : OnlyRemoves (CrudService.update display entity) := by
  refine bind (bind get fun _ => pure _) fun found => ?_
  split
  · exact throw _
  · exact storableUpdate

end OnlyRemoves

namespace HostService

open ServiceService (Reassignment)

variable {conflictBehavior : ConflictBehavior} {hostLimit : Option Nat} {request : DiscoveryHostRequest} {host : Host}

theorem onlyRemoves_upsertHost (existing newData : Host) : OnlyRemoves (upsertHost existing newData) := by
  unfold upsertHost
  dsimp only
  split
  · exact .bind .storableUpdate fun _ => .pure _
  · exact .pure _

theorem onlyRemoves_create (host : Host) : OnlyRemoves (create host) := by
  refine .bind .orNew fun host => .bind .get fun db => ?_
  split
  · exact onlyRemoves_upsertHost _ _
  · split
    · exact .throw _
    · exact .bind .storableCreate fun _ => .pure _

theorem onlyRemoves_saveInterface (i : Interface) : OnlyRemoves (saveInterface conflictBehavior host i) := by
  refine .bind .get fun db => ?_
  split
  · exact .pure _
  · exact .create

theorem onlyRemoves_savePort (p : Port) : OnlyRemoves (savePort conflictBehavior host p) := by
  refine .bind .get fun db => ?_
  split
  · exact .pure _
  · exact .create

theorem onlyRemoves_saveIfEntry (entry : IfEntry) : OnlyRemoves (saveIfEntry host entry) := by
  refine .bind .get fun db => ?_
  split
  · exact .update
  · exact .create

theorem onlyRemoves_matchHost : OnlyRemoves (matchHost conflictBehavior hostLimit request) := by
  refine .bind .get fun db => ?_
  dsimp only
  split
  · exact .throw _
  · exact .pure _
  · split
    · exact .throw _
    · exact .pure _

theorem onlyRemoves_createHost : OnlyRemoves (createHost conflictBehavior hostLimit request) :=
  .bind onlyRemoves_matchHost fun _ => .bind (onlyRemoves_create _) fun _ =>
    .bind (.mapM onlyRemoves_saveInterface _) fun _ => .bind (.mapM onlyRemoves_savePort _) fun _ => .pure _

/-! ## Services of a request -/

open ServiceService (Creates incoming reassignServiceInterfaceBindings claimedByOthers)

variable {db : Db} {r : Reassignment} {batch : Batch} {service : Service} {ifEntries : List IfEntry}

/-- None of the service's ports is taken by another service, of the host or of the request. -/
def Available (db : Db) (r : Reassignment) (batch : Batch) (service : Service) : Prop :=
  ∀ b ∈ service.base.bindings, b.conflicts (claimedByOthers db r.updatedHost.id service.id ++ batch.claimed) = false

instance : Decidable (Available db r batch service) := by
  unfold Available
  infer_instance

theorem fresh_reassigned (hF : db.Fresh (service.base.bindings.map (·.id))) :
    db.Fresh ((reassignServiceInterfaceBindings r service).base.bindings.map (·.id)) := by
  refine ⟨hF.nodup, hF.nonnil, hF.unstored, fun id hid => hF.unknown id ?_⟩
  obtain ⟨b, hb, rfl⟩ := List.mem_map.mp hid
  obtain ⟨x, hx, hxb⟩ := List.mem_filterMap.mp hb
  obtain ⟨t, -, rfl⟩ := Option.map_eq_some_iff.mp hxb
  exact List.mem_map.mpr ⟨x, hx, rfl⟩

/-- A service is dropped if it is not available, and else created. -/
theorem wp_saveService (hF : db.Fresh (service.base.bindings.map (·.id))) :
    let reassigned := reassignServiceInterfaceBindings r service
    let claimed := claimedByOthers db r.updatedHost.id reassigned.id ++ batch.claimed
    wp (saveService r batch service)
      (fun batch' t =>
        (¬ Available db r batch reassigned ∧ t = db ∧
          batch' = { batch with
            orphaned := batch.orphaned ++ reassigned.base.bindings.filter fun b => !b.conflicts claimed }) ∨
        Available db r batch reassigned ∧ ∃ created, Creates db (incoming db reassigned) (some created) t ∧
          batch' = { batch with claimed := batch.claimed ++ reassigned.claims, created := batch.created ++
            [created] })
      (fun _ t => db.SameButDrawn t ∨
        Available db r batch reassigned ∧ Creates db (incoming db reassigned) none t) db := by
  intro reassigned claimed
  have havail : (reassigned.base.bindings.filter fun b => b.conflicts claimed).isEmpty = true ↔
      Available db r batch reassigned := by
    simp only [List.isEmpty_iff, List.filter_eq_nil_iff, Bool.not_eq_true, Available, claimed]
  simp only [saveService, ServiceService.partitionConflictingBindings, Program.wp_bind, Program.wp_get,
    Program.wp_pure, Program.wp_ite, Bool.not_eq_true', Bool.not_eq_false]
  refine ⟨fun hne => .inl ⟨fun h => ?_, trivial, rfl⟩, fun he => ?_⟩
  · cases hne.symm.trans (havail.mpr h)
  · have he := havail.mp he
    refine (ServiceService.wp_create (fresh_reassigned hF)).mono (fun created t h => ?_) fun _ t h => ?_
    · exact .inr ⟨he, created, h, rfl⟩
    · exact h.imp_right fun h => ⟨he, h⟩

/-- The bindings left over are merged into the "Unclaimed Open Ports" of the host, or become it. -/
theorem wp_finish (hF : db.Fresh (batch.orphaned.map (·.id))) :
    let openPorts := openPortsService r.updatedHost batch.orphaned
    let post (t : Db) : Prop := t.drawn ≠ [] →
      db.Removes t ∨ ∃ result t', Creates db (incoming db openPorts) result t' ∧ t'.Removes t
    wp (finish r ifEntries batch) (fun _ t => post t) (fun _ t => post t) db := by
  intro openPorts post
  have hrest (t : Db) (h : post t) (batch' : Batch) :
      wp (do
        let created ← ifEntries.mapM (saveIfEntry r.updatedHost)
        return HostResponse.fromHostWithChildren r.updatedHost r.updatedInterfaces r.updatedPorts batch'.created created)
        (fun _ t => post t) (fun _ t => post t) t := by
    have hpost (u : Db) (hu : t.Removes u) : post u := fun hne => by
      rcases h (fun ht => hne (List.suffix_nil.mp (ht ▸ hu.drawn))) with h | ⟨result, t', hc, ht'⟩
      · exact .inl (h.trans hu)
      · exact .inr ⟨result, t', hc, ht'.trans hu⟩
    exact (OnlyRemoves.bind (OnlyRemoves.mapM onlyRemoves_saveIfEntry _) (fun _ => .pure _) t).mono
      (fun _ u => hpost u)
      fun _ u => hpost u
  simp only [finish, assignOrphaned, Program.wp_bind, Program.wp_ite, Program.wp_pure]
  refine ⟨fun _ => by simpa using hrest db (fun _ => .inl (Db.SameButDrawn.refl db).removes) batch, fun _ => ?_⟩
  simp only [Storable.wp_new]
  have hd := List.tail_suffix db.drawn
  have hF' : Db.Fresh { db with drawn := db.drawn.tail } (batch.orphaned.map (·.id)) := hF.draw ⟨_, hd, rfl⟩
  have hincoming (hne : db.drawn ≠ []) : incoming { db with drawn := db.drawn.tail }
      (Storable.stamp (db.drawn.headD Uuid.nil) db.now openPorts) = incoming db openPorts := by
    have hnil : db.drawn.headD Uuid.nil ≠ Uuid.nil := by
      obtain ⟨u, us, hu⟩ := List.exists_cons_of_ne_nil hne
      rw [hu, List.headD_cons]
      exact fun h => hF.nonnil (h ▸ hu ▸ List.mem_cons_self)
    have hnil : (Storable.stamp (db.drawn.headD Uuid.nil) db.now openPorts).id ≠ Uuid.nil := hnil
    have hopen : openPorts.id = Uuid.nil := rfl
    rw [incoming, if_neg hnil, incoming, if_pos hopen]
  have hcreates (t : Db) (result : Option Service) (h : Creates { db with drawn := db.drawn.tail } (incoming
      { db with drawn := db.drawn.tail } (Storable.stamp (db.drawn.headD Uuid.nil) db.now openPorts)) result t) :
      post t := by
    intro hne
    have hdrawn : t.drawn <:+ db.drawn.tail := h.drawn
    rw [hincoming fun h => hne (List.suffix_nil.mp (by simpa [h] using hdrawn))] at h
    exact .inr ⟨result, t, h.of_drawn hd, (Db.SameButDrawn.refl t).removes⟩
  refine (ServiceService.wp_create hF').mono (fun created t h => ?_) fun _ t h => ?_
  · simpa using hrest t (hcreates t _ h) { batch with created := batch.created ++ [created] }
  · rcases h with ⟨drawn, hdt, rfl⟩ | h
    · exact fun _ => .inl (Db.SameButDrawn.removes ⟨drawn, hdt.trans hd, rfl⟩)
    · exact hcreates t _ h

end HostService

end Netvisor
