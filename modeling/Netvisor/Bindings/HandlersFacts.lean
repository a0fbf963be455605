/-
What the binding endpoints write: a binding that passed their checks, or
nothing, and in any case they may have removed bindings.
-/
import Netvisor.Bindings.Handlers
import Netvisor.Services.Writes

namespace Netvisor

open Program (wp)

/-- Rows of services and bindings may be gone, and no binding lost a row it refers to. -/
structure Db.Removes (db db' : Db) : Prop where
  drawn : db'.drawn <:+ db.drawn
  services : ∀ s ∈ db'.services.rows, s ∈ db.services.rows
  bindings : ∀ b ∈ db'.bindings.rows, b ∈ db.bindings.rows ∧
    (Storable.references db b = true → Storable.references db' b = true)

theorem Db.SameButDrawn.removes {db db' : Db} (h : db.SameButDrawn db') : db.Removes db' := by
  obtain ⟨drawn, hd, rfl⟩ := h
  exact ⟨hd, fun _ hs => hs, fun _ hb => ⟨hb, id⟩⟩

theorem Db.Removes.trans {db db' db'' : Db} (h : db.Removes db') (h' : db'.Removes db'') : db.Removes db'' where
  drawn := h'.drawn.trans h.drawn
  services s hs := h.services s (h'.services s hs)
  bindings b hb :=
    let ⟨hb', href'⟩ := h'.bindings b hb
    let ⟨hb, href⟩ := h.bindings b hb'
    ⟨hb, fun h => href' (href h)⟩

theorem Db.removes_deleteBindings (db : Db) (ids : List Uuid) : db.Removes (db.deleteBindings ids) where
  drawn := List.suffix_rfl
  services _ hs := hs
  bindings _ hb := ⟨(Table.mem_filter.mp hb).1, id⟩

theorem Db.removes_deleteService (db : Db) (id : Uuid) : db.Removes (db.deleteService id) where
  drawn := List.suffix_rfl
  services s hs := (Table.mem_filter.mp hs).1
  bindings b hb := by
    obtain ⟨hb, hne⟩ := Table.mem_filter.mp hb
    refine ⟨hb, fun href => ?_⟩
    simp only [Storable.references, Bool.and_eq_true] at href ⊢
    refine ⟨⟨⟨href.1.1.1, ?_⟩, href.1.2⟩, href.2⟩
    obtain ⟨s, hs, hid⟩ := Db.hasService_iff.mp href.1.1.2
    exact Db.hasService_iff.mpr ⟨s, Table.mem_filter.mpr ⟨hs, by simpa [hid] using hne⟩, hid⟩

namespace BindingHandlers

variable {db db' : Db} {networkIds : List Uuid} {id : Uuid} {binding b r : Binding}

theorem mem_bindingsInNetwork {networkId serviceId : Uuid} : r ∈ bindingsInNetwork db networkId serviceId ↔
    r ∈ db.bindings.rows ∧ r.base.networkId = networkId ∧ r.base.serviceId = serviceId := by
  simp only [bindingsInNetwork, Table.mem_select, Bool.and_eq_true, beq_iff_eq]

/-- A binding that `createBinding` removes for a new one. -/
def superseded (binding r : Binding) : Bool :=
  r.base.networkId == binding.base.networkId && r.base.serviceId == binding.base.serviceId
    && binding.base.bindingType.supersedes r.base.bindingType

/-- The bindings `createBinding` leaves. -/
def remaining (db : Db) (binding : Binding) : List Binding :=
  db.bindings.rows.filter fun r => !superseded binding r

/-- The checks a binding passes that is created. -/
structure Creatable (db : Db) (networkIds : List Uuid) (binding : Binding) : Prop where
  noConflict : ServiceService.validateBindingNoConflict binding.base.bindingType
    (bindingsInNetwork db binding.base.networkId binding.base.serviceId) = none
  access : networkIds.contains binding.base.networkId = true
  references : Storable.references db binding = true
  new : binding.id = Uuid.nil ∨ ∀ r ∈ remaining db binding, r.id ≠ binding.id

/-- The checks a binding passes that is written over the one with the id. -/
structure Replaceable (db : Db) (networkIds : List Uuid) (id : Uuid) (binding : Binding) : Prop where
  noConflict : ServiceService.validateBindingNoConflict binding.base.bindingType
    ((bindingsInNetwork db binding.base.networkId binding.base.serviceId).filter fun b => some id != some b.id) = none
  stored : ∃ r ∈ db.bindings.rows, r.id = id ∧ networkIds.contains r.base.networkId = true
  access : networkIds.contains binding.base.networkId = true
  references : Storable.references db binding = true

/-- `b` is written next to the `kept` rows. -/
structure Bound (db : Db) (kept : List Binding) (b : Binding) (db' : Db) : Prop where
  same : Db.SameButBindings db db'
  drawn : db'.drawn <:+ db.drawn
  references : Storable.references db b = true
  rows : ∀ r, r ∈ db'.bindings.rows ↔ r = b ∨ r ∈ kept

theorem wp_removeSuperseded :
    wp (removeSuperseded binding)
      (fun _ t => Db.SameButBindings db t ∧ t.drawn = db.drawn ∧ ∀ r, r ∈ t.bindings.rows ↔ r ∈ remaining db binding)
      (fun _ _ => False) db := by
  let gone := (bindingsInNetwork db binding.base.networkId binding.base.serviceId).filter fun b =>
    binding.base.bindingType.supersedes b.base.bindingType
  have hgone (r : Binding) : r ∈ gone ↔ r ∈ db.bindings.rows ∧ superseded binding r = true := by
    simp only [gone, List.mem_filter, mem_bindingsInNetwork, superseded, Bool.and_eq_true, beq_iff_eq, and_assoc]
  have hnodup : gone.Nodup :=
    (Table.select_perm.nodup_iff.mpr ((List.Nodup.of_map _ db.bindings.nodup).filter _)).filter _
  have hloop := Program.wp_mapM_all (f := fun b : Binding => BindingService.delete b.id) (E := fun _ _ => False)
    (I := fun done _ rest t => gone = done ++ rest ∧ Db.SameButBindings db t ∧ t.drawn = db.drawn ∧
      ∀ r, r ∈ t.bindings.rows ↔ r ∈ db.bindings.rows ∧ r ∉ done)
    (fun done out b rest t ⟨hl, hsame, hdrawn, hrows⟩ => by
      have hb : b ∈ db.bindings.rows := ((hgone b).mp (by simp [hl])).1
      have hbt : b ∈ t.bindings.rows := by
        refine (hrows b).mpr ⟨hb, fun hdone => ?_⟩
        rw [hl, List.nodup_append] at hnodup
        exact hnodup.2.2 b hdone b List.mem_cons_self rfl
      have hget : t.bindings.get b.id = some b := Table.get_eq_some.mpr ⟨hbt, rfl⟩
      have hget : (Storable.table (α := Binding) t).get b.id = some b := hget
      simp only [BindingService.delete, Program.wp_bind, Storable.wp_getById, hget, Program.wp_modify]
      refine ⟨by simp [hl], hsame.trans ⟨_, t.drawn, rfl⟩, hdrawn, fun r => ?_⟩
      simp only [Db.deleteBindings, Table.mem_filter, hrows, List.contains_eq_mem, List.mem_singleton,
        Bool.not_eq_true', decide_eq_false_iff_not, List.mem_append, not_or, and_assoc]
      refine and_congr_right fun hr => and_congr_right fun _ => not_congr ⟨fun h => ?_, fun h => h ▸ rfl⟩
      exact db.bindings.eq_of_key hr hb h)
    (l := gone) (s := db) ⟨rfl, .refl db, rfl, fun r => by simp⟩
  simp only [removeSuperseded, Program.wp_bind, Program.wp_get, Program.wp_pure]
  refine hloop.mono (fun _ t h => ⟨h.2.1, h.2.2.1, fun r => ?_⟩) fun _ _ h => h
  have hrows : r ∈ t.bindings.rows ↔ r ∈ db.bindings.rows ∧ r ∉ gone := h.2.2.2 r
  rw [hrows, hgone, remaining, List.mem_filter, Bool.not_eq_true', not_and, Bool.not_eq_true]
  exact and_congr_right fun hr => ⟨fun h => h hr, fun h _ => h⟩

theorem wp_createBinding :
    wp (createBinding networkIds binding)
      (fun b t => b.base = binding.base ∧ Creatable db networkIds binding ∧ Bound db (remaining db binding) b t)
      (fun _ t => db.Removes t) db := by
  have hall : (bindingsInNetwork db binding.base.networkId binding.base.serviceId).filter
      (fun b => none != some b.id) = bindingsInNetwork db binding.base.networkId binding.base.serviceId :=
    List.filter_eq_self.mpr fun b _ => rfl
  simp only [createBinding, validateNoBindingTypeConflict, Program.wp_bind, Program.wp_get, hall]
  split
  · exact (Db.SameButDrawn.refl db).removes
  next hconf =>
  refine wp_removeSuperseded.mono (fun _ t hremoved => ?_) fun _ _ h => h.elim
  obtain ⟨hsame, hdrawn, hrows⟩ := hremoved
  have hremoves : db.Removes t := by
    obtain ⟨bindings, drawn, rfl⟩ := hsame
    refine ⟨hdrawn ▸ List.suffix_rfl, fun _ hs => hs, fun b hb => ⟨?_, id⟩⟩
    exact (List.mem_filter.mp ((hrows b).mp hb)).1
  have hwrite (b : Binding) (hb : b.base = binding.base) (drawn : List Uuid) (hd : drawn <:+ db.drawn)
      (hnew : (∀ r ∈ remaining db binding, r.id ≠ b.id) →
        binding.id = Uuid.nil ∨ ∀ r ∈ remaining db binding, r.id ≠ binding.id)
      (haccess : networkIds.contains binding.base.networkId = true) :
      wp (Storable.create b)
        (fun b t => b.base = binding.base ∧ Creatable db networkIds binding ∧ Bound db (remaining db binding) b t)
        (fun _ t => db.Removes t) { t with drawn } := by
    have hdt : drawn <:+ t.drawn := hdrawn ▸ hd
    refine Storable.wp_create (fun _ => hremoves.trans (Db.SameButDrawn.removes ⟨drawn, hdt, rfl⟩)) fun u hins href =>
      ?_
    have hins : t.bindings.insert b = some u := hins
    obtain ⟨hu, hfree⟩ := Table.insert_eq_some hins
    have href : Storable.references db b = true := (hsame.references b).symm.trans href
    refine ⟨hb, ⟨hconf, haccess, ?_, hnew fun r hr => hfree r ((hrows r).mpr hr)⟩, ?_⟩
    · simpa only [Storable.references, Binding.portId, Binding.interfaceId, hb] using href
    · refine ⟨hsame.trans ⟨u, drawn, rfl⟩, hd, href, fun r => ?_⟩
      change r ∈ u.rows ↔ _
      rw [hu, List.mem_append, List.mem_singleton, hrows r, or_comm]
  simp only [validateNetworkAccess, Program.wp_ite, Bool.not_eq_true', Program.wp_throw, Program.wp_bind,
    Bool.not_eq_false, Program.wp_pure, CrudService.create, Storable.wp_orNew]
  refine ⟨fun _ => hremoves, fun haccess => ⟨fun hnil => ?_, fun hne => ?_⟩⟩
  · have hd : t.drawn.tail <:+ db.drawn := hdrawn ▸ List.tail_suffix t.drawn
    exact hwrite (Storable.stamp _ _ binding) rfl _ hd (fun _ => .inl hnil) haccess
  · exact hwrite binding rfl t.drawn (hdrawn ▸ List.suffix_rfl) .inr haccess

/-- The rows `updateBinding` leaves. -/
def othersThan (db : Db) (id : Uuid) : List Binding := db.bindings.rows.filter fun r => r.id != id

theorem wp_updateBinding :
    wp (updateBinding networkIds id binding)
      (fun b t => b.base = binding.base ∧ Replaceable db networkIds id binding ∧ Bound db (othersThan db id) b t)
      (fun _ t => db.Removes t) db := by
  have hnothing : db.Removes db := (Db.SameButDrawn.refl db).removes
  simp only [updateBinding, validateNoBindingTypeConflict, Program.wp_bind, Program.wp_get]
  split
  · exact hnothing
  next hconf =>
  simp only [Program.wp_pure, Storable.wp_getById]
  split
  · exact hnothing
  next existing hget =>
  obtain ⟨hmem, hid⟩ := Table.get_eq_some.mp hget
  simp only [validateNetworkAccess, Program.wp_ite, Bool.not_eq_true', Program.wp_throw, Program.wp_bind,
    Bool.not_eq_false, Program.wp_pure, BindingService.update, CrudService.update, Storable.wp_getById]
  refine ⟨fun _ => hnothing, fun hold => ⟨fun _ => hnothing, fun haccess => ?_⟩⟩
  split
  · exact hnothing
  next hsome =>
  refine Storable.wp_update (fun _ => hnothing) (fun hmissing => ?_) fun _ href => ?_
  · cases hsome.symm.trans hmissing
  · refine ⟨rfl, ⟨hconf, ⟨existing, hmem, hid, hold⟩, haccess, href⟩, ⟨_, db.drawn, rfl⟩, List.suffix_rfl, href,
      fun r => ?_⟩
    refine Table.mem_update.trans ?_
    subst hid
    simp only [othersThan, List.mem_filter, bne_iff_ne]
    exact ⟨fun h => h.imp_left (·.1), fun h => h.imp_left (⟨·, existing, hmem, rfl⟩)⟩

theorem removes_deleteBinding :
    wp (deleteBinding networkIds id) (fun _ t => db.Removes t) (fun _ t => db.Removes t) db := by
  have hnothing : db.Removes db := (Db.SameButDrawn.refl db).removes
  simp only [deleteBinding, Program.wp_bind, Storable.wp_getById]
  split
  · exact hnothing
  · simp only [validateNetworkAccess, Program.wp_ite, Program.wp_throw, Program.wp_bind, Program.wp_pure,
      BindingService.delete, Storable.wp_getById]
    refine ⟨fun _ => hnothing, fun _ => ?_⟩
    split
    · exact hnothing
    · exact db.removes_deleteBindings [id]

theorem removes_bulkDelete {ids : List Uuid} :
    wp (bulkDelete networkIds ids) (fun _ t => db.Removes t) (fun _ t => db.Removes t) db := by
  have hnothing : db.Removes db := (Db.SameButDrawn.refl db).removes
  simp only [bulkDelete, Program.wp_bind, Program.wp_ite, Program.wp_throw, Storable.wp_getAll]
  refine ⟨fun _ => hnothing, fun _ => ?_⟩
  refine (Program.wp_mapM_all (I := fun _ _ _ t => t = db) (E := fun _ t => t = db) ?_ rfl).mono
    (fun _ t ht => ?_) fun _ t ht => ht ▸ hnothing
  · rintro done out a rest t rfl
    exact Program.wp_ite.mpr ⟨fun _ => rfl, fun _ => rfl⟩
  · simp only [BindingService.deleteMany, Program.wp_bind, Program.wp_get, Program.wp_set, Program.wp_pure]
    exact ht ▸ t.removes_deleteBindings _

end BindingHandlers

end Netvisor
