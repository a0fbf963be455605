/-
Databases that keep the constraints of their tables, and writes that cannot
fail against them: rows that are replaced by rows of the same id, and services
whose bindings are stored.
-/
import Netvisor.Services.Exclusivity

namespace Netvisor

open Program (wp)

/-! ## Moving rows of one table -/

namespace Storable

variable {α : Type} [Storable α] {db t : Db} {m : α → Option α} {g : α → α} {l done : List α} {a x : α}

theorem broken_eq_none {entity : α} : broken db entity = none ↔
    ∀ u ∈ unique (α := α), ∀ x ∈ (table db).rows, id x ≠ id entity → u.2 x entity = false := by
  unfold broken
  cases unique (α := α) with
  | none => simp
  | some u => simp [List.any_eq_true]

/-- The rows of `done` that `m` has no match for are replaced by what `g` makes of them. -/
def Transferred (db : Db) (m : α → Option α) (g : α → α) (done : List α) (t : Db) : Prop :=
  ∃ tbl : Table α id, t = setTable tbl db ∧ ∀ x, x ∈ tbl.rows ↔
    (∃ a ∈ done, m a = none ∧ x = g a) ∨ x ∈ (table db).rows ∧ ∀ a ∈ done, m a = none → id x ≠ id a

/-- What moving rows of a table asks of them. -/
structure Transferable (db : Db) (m : α → Option α) (g : α → α) (l : List α) : Prop where
  stored : ∀ a ∈ l, a ∈ (table db).rows
  nodup : (l.map id).Nodup
  id_eq : ∀ a, id (g a) = id a
  row_eq : ∀ a : α, row a = a
  table_set : ∀ tbl : Table α id, table (setTable tbl db) = tbl
  set_set : ∀ tbl tbl' : Table α id, setTable tbl' (setTable tbl db) = setTable tbl' db
  set_self : setTable (table (α := α) db) db = db
  references : ∀ a ∈ l, m a = none → ∀ tbl : Table α id, Storable.references (setTable tbl db) (g a) = true
  broken : ∀ a ∈ l, m a = none → ∀ tbl : Table α id,
    (∀ x ∈ tbl.rows, x ∈ (table db).rows ∨ ∃ b ∈ l, m b = none ∧ x = g b) →
    Storable.broken (setTable tbl db) (g a) = none

theorem Transferred.matched (h : Transferred db m g done t) {d : α} (ha : m a = some d) :
    Transferred db m g (done ++ [a]) t := by
  obtain ⟨tbl, ht, hmem⟩ := h
  have hnone : m a ≠ none := by simp [ha]
  refine ⟨tbl, ht, fun x => (hmem x).trans ?_⟩
  simp only [List.mem_append, List.mem_singleton]
  constructor
  · rintro (⟨b, hb, hm, rfl⟩ | ⟨hx, hne⟩)
    · exact .inl ⟨b, .inl hb, hm, rfl⟩
    · refine .inr ⟨hx, fun b hb hm => ?_⟩
      rcases hb with hb | rfl
      · exact hne b hb hm
      · exact absurd hm hnone
  · rintro (⟨b, hb, hm, rfl⟩ | ⟨hx, hne⟩)
    · rcases hb with hb | rfl
      · exact .inl ⟨b, hb, hm, rfl⟩
      · exact absurd hm hnone
    · exact .inr ⟨hx, fun b hb hm => hne b (.inl hb) hm⟩

/-- A row that is moved: the statement succeeds, and the row is replaced. -/
theorem wp_updateTransferred {display : α → String} {rest : List α} (hT : Transferable db m g (done ++ a :: rest))
    (h : Transferred db m g done t) (hm : m a = none) :
    wp (CrudService.update display (g a)) (fun _ t' => Transferred db m g (done ++ [a]) t') (fun _ _ => False) t := by
  obtain ⟨tbl, rfl, hmem⟩ := h
  have ha : a ∈ done ++ a :: rest := List.mem_append_right _ List.mem_cons_self
  have hfresh (b : α) (hb : b ∈ done) : id b ≠ id a := by
    intro heq
    have hnodup := hT.nodup
    rw [List.map_append, List.map_cons] at hnodup
    exact (List.nodup_append.mp hnodup).2.2 _ (List.mem_map_of_mem hb) _ List.mem_cons_self heq
  have hstored : a ∈ tbl.rows := (hmem a).mpr (.inr ⟨hT.stored a ha, fun b hb _ heq => hfresh b hb heq.symm⟩)
  have hget : (tbl.get (id (g a))).isSome = true := Table.get_isSome.mpr ⟨a, hstored, (hT.id_eq a).symm⟩
  have hbroken : Storable.broken (setTable tbl db) (g a) = none := by
    refine hT.broken a ha hm tbl fun x hx => ?_
    rcases (hmem x).mp hx with ⟨b, hb, hmb, rfl⟩ | ⟨hx, -⟩
    · exact .inr ⟨b, List.mem_append_left _ hb, hmb, rfl⟩
    · exact .inl hx
  obtain ⟨y, hy⟩ := Option.isSome_iff_exists.mp hget
  simp only [CrudService.update, Program.wp_bind, wp_getById, hT.table_set, hy]
  refine (Program.wp_of_ok
    (update_eq_ok (by rw [hT.table_set]; exact hget) hbroken (hT.references a ha hm tbl))).mpr ?_
  rw [hT.table_set, hT.set_set, hT.row_eq]
  refine ⟨_, rfl, fun x => ?_⟩
  rw [Table.mem_update, hT.id_eq, hmem x]
  simp only [List.mem_append, List.mem_singleton]
  constructor
  · rintro (⟨rfl, -⟩ | ⟨⟨b, hb, hmb, rfl⟩ | ⟨hx, hne⟩, hxa⟩)
    · exact .inl ⟨a, .inr rfl, hm, rfl⟩
    · exact .inl ⟨b, .inl hb, hmb, rfl⟩
    · refine .inr ⟨hx, fun b hb hmb => ?_⟩
      rcases hb with hb | rfl
      · exact hne b hb hmb
      · exact hxa
  · rintro (⟨b, hb, hmb, rfl⟩ | ⟨hx, hne⟩)
    · rcases hb with hb | rfl
      · exact .inr ⟨.inl ⟨b, hb, hmb, rfl⟩, fun heq => hfresh b hb ((hT.id_eq b).symm.trans heq)⟩
      · exact .inl ⟨rfl, b, hstored, rfl⟩
    · exact .inr ⟨.inr ⟨hx, fun b hb hmb => hne b (.inl hb) hmb⟩, hne a (.inr rfl) hm⟩

/-- All rows of `l` are moved or have a match, of which the loop returns the ids. -/
theorem wp_transferAll {display : α → String} {f : α → Store (Uuid × Uuid)} (hT : Transferable db m g l)
    (hmatch : ∀ a dest, m a = some dest → f a = pure (id a, id dest))
    (hmove : ∀ a, m a = none → f a = CrudService.update display (g a) >>= fun _ => pure (id a, id a)) :
    wp (l.mapM f)
      (fun out t => out = l.map (fun a => (id a, id ((m a).getD a))) ∧ Transferred db m g l t)
      (fun _ _ => False) db := by
  have hstart : Transferred db m g [] db := ⟨table db, hT.set_self.symm, by simp⟩
  refine (Program.wp_mapM_all
    (I := fun done out rest t => l = done ++ rest ∧ out = done.map (fun a => (id a, id ((m a).getD a))) ∧
      Transferred db m g done t) (fun done out a rest t ⟨hl, hout, h⟩ => ?_) ⟨rfl, rfl, hstart⟩).mono
    (fun _ _ h => h.2) fun _ _ h => h
  cases hm : m a with
  | some dest =>
    rw [hmatch a dest hm]
    exact ⟨by rw [hl, List.append_assoc, List.singleton_append], by simp [hout, hm], h.matched hm⟩
  | none =>
    rw [hmove a hm, Program.wp_bind]
    refine (wp_updateTransferred (hl ▸ hT) h hm).mono (fun _ t' h' => ?_) fun _ _ he => he
    exact ⟨by rw [hl, List.append_assoc, List.singleton_append], by simp [hout, hm], h'⟩

end Storable

/-- The rows of a table keep the constraints. -/
def Constrained (α : Type) [Storable α] (db : Db) : Prop :=
  ∀ x ∈ (Storable.table (α := α) db).rows, Storable.broken db x = none ∧ Storable.references db x = true

/-- The binding is to a port and an interface of the host. -/
def Db.OnHost (db : Db) (hostId : Uuid) (b : Binding) : Prop :=
  (∀ p ∈ b.portId, ∃ port ∈ db.ports.rows, port.id = p ∧ port.base.hostId = hostId) ∧
    ∀ i ∈ b.interfaceId, ∃ interface ∈ db.interfaces.rows, interface.id = i ∧ interface.base.hostId = hostId

/-- What the constraints of the tables and the checks of the services guarantee. -/
structure Db.Lawful (db : Db) : Prop where
  hosts : Constrained Host db
  interfaces : Constrained Interface db
  ports : Constrained Port db
  bindings : Constrained Binding db
  nonnil : ∀ b ∈ db.bindings.rows, b.id ≠ Uuid.nil
  onHost : ∀ b ∈ db.bindings.rows, ∀ s ∈ db.services.rows, s.id = b.base.serviceId → db.OnHost s.base.hostId b

instance (α : Type) [Storable α] (db : Db) : Decidable (Constrained α db) := by
  unfold Constrained
  infer_instance

instance (db : Db) (hostId : Uuid) (b : Binding) : Decidable (db.OnHost hostId b) := by
  unfold Db.OnHost
  infer_instance

instance (db : Db) : Decidable db.Lawful :=
  decidable_of_iff (Constrained Host db ∧ Constrained Interface db ∧ Constrained Port db ∧ Constrained Binding db ∧
      (∀ b ∈ db.bindings.rows, b.id ≠ Uuid.nil) ∧
      ∀ b ∈ db.bindings.rows, ∀ s ∈ db.services.rows, s.id = b.base.serviceId → db.OnHost s.base.hostId b)
    ⟨fun ⟨h₁, h₂, h₃, h₄, h₅, h₆⟩ => ⟨h₁, h₂, h₃, h₄, h₅, h₆⟩,
      fun h => ⟨h.hosts, h.interfaces, h.ports, h.bindings, h.nonnil, h.onHost⟩⟩

/-! ## Updating a service whose bindings are stored -/

namespace BindingService

variable {db t : Db} {parentId : Uuid} {children done rest : List Binding} {c : Binding}

/-- The children have the ids of bindings that are stored for the parent. -/
structure StoredChildren (db : Db) (parentId : Uuid) (children : List Binding) : Prop where
  stored : ∀ c ∈ children, c.id ≠ Uuid.nil ∧ ∃ e ∈ db.bindingsOf parentId, e.id = c.id ∧ e.createdAt = c.createdAt
  nodup : (children.map (·.id)).Nodup
  references : ∀ c ∈ children, Storable.references db c = true

/-- The rows while such children are saved: those for `done` are written, those for `rest` still there. -/
def SavingStored (db : Db) (parentId : Uuid) (done rest : List Binding) (t : Db) : Prop :=
  ∃ bindings, t = { db with bindings } ∧ ∀ b, b ∈ bindings.rows ↔
    b ∈ done ∨ b ∈ db.bindings.rows ∧ (b.base.serviceId ≠ parentId ∨ ∃ c ∈ rest, c.id = b.id)

theorem StoredChildren.find (h : StoredChildren db parentId children) (hc : c ∈ children) :
    ∃ e ∈ db.bindings.rows, e.base.serviceId = parentId ∧ e.id = c.id ∧ { c with createdAt := e.createdAt } = c ∧
      (db.bindingsOf parentId).find? (fun x => x.id == c.id) = some e := by
  obtain ⟨-, e, he, hec, hcreated⟩ := h.stored c hc
  obtain ⟨herow, heparent⟩ := Db.mem_bindingsOf.mp he
  refine ⟨e, herow, heparent, hec, by rw [hcreated], ?_⟩
  cases hf : (db.bindingsOf parentId).find? (fun x => x.id == c.id) with
  | none => exact absurd hec (by simpa using List.find?_eq_none.mp hf e he)
  | some x =>
    have hxc : x.id = c.id := by simpa using List.find?_some hf
    rw [db.bindings.eq_of_key (Db.mem_bindingsOf.mp (List.mem_of_find?_eq_some hf)).1 herow (hxc.trans hec.symm)]

/-- The row of one child is replaced. -/
theorem wp_saveStoredChild (hC : StoredChildren db parentId (done ++ c :: rest))
    (h : SavingStored db parentId done (c :: rest) t) :
    wp (saveChild (db.bindingsOf parentId) c) (fun _ t => SavingStored db parentId (done ++ [c]) rest t)
      (fun _ _ => False) t := by
  obtain ⟨bindings, rfl, hmem⟩ := h
  have hc : c ∈ done ++ c :: rest := List.mem_append_right _ List.mem_cons_self
  obtain ⟨e, herow, heparent, hec, hsame, hfind⟩ := hC.find hc
  have hdistinct : ∀ d, d ∈ done ∨ d ∈ rest → d.id ≠ c.id := by
    have hnodup := hC.nodup
    rw [List.map_append, List.map_cons, List.nodup_append, List.nodup_cons] at hnodup
    rintro d (hd | hd) heq
    · exact hnodup.2.2 _ (List.mem_map_of_mem hd) _ List.mem_cons_self heq
    · exact hnodup.2.1.1 (heq ▸ List.mem_map_of_mem hd)
  have hin : e ∈ bindings.rows := (hmem e).mpr (.inr ⟨herow, .inr ⟨c, List.mem_cons_self, hec.symm⟩⟩)
  obtain ⟨y, hy⟩ := Option.isSome_iff_exists.mp (Table.get_isSome.mpr ⟨e, hin, hec⟩)
  have hrow : (Storable.table (α := Binding) { db with bindings }).get (Storable.id c) = some y := hy
  simp only [saveChild, Program.wp_ite, beq_iff_eq]
  refine ⟨fun h => absurd h (hC.stored c hc).1, fun _ => ?_⟩
  rw [hfind]
  simp only [hsame, update, CrudService.update, Program.wp_bind, Storable.wp_getById, hrow]
  refine (Program.wp_of_ok (Storable.update_eq_ok (Option.isSome_iff_exists.mpr ⟨y, hrow⟩) rfl
    (hC.references c hc))).mpr ⟨_, rfl, fun b => ?_⟩
  have hupdate : b ∈ (bindings.update c).rows ↔ _ := Table.mem_update
  refine hupdate.trans ?_
  rw [hmem b, List.mem_append, List.mem_singleton]
  constructor
  · rintro (⟨rfl, -⟩ | ⟨hb | ⟨hb, hb'⟩, hne⟩)
    · exact .inl (.inr rfl)
    · exact .inl (.inl hb)
    · refine .inr ⟨hb, hb'.imp_right ?_⟩
      rintro ⟨d, hd, hdb⟩
      rcases List.mem_cons.mp hd with rfl | hd
      · exact absurd hdb.symm hne
      · exact ⟨d, hd, hdb⟩
  · rintro ((hb | rfl) | ⟨hb, hb'⟩)
    · exact .inr ⟨.inl hb, hdistinct b (.inl hb)⟩
    · exact .inl ⟨rfl, e, hin, hec⟩
    · refine .inr ⟨.inr ⟨hb, hb'.imp_right fun ⟨d, hd, hdb⟩ => ⟨d, List.mem_cons_of_mem _ hd, hdb⟩⟩, fun hbc => ?_⟩
      rcases hb' with hp | ⟨d, hd, hdb⟩
      · rw [db.bindings.eq_of_key hb herow (hbc.trans hec.symm)] at hp
        exact hp heparent
      · exact hdistinct d (.inr hd) (hdb.trans hbc)

/-- What the first statement keeps. -/
theorem StoredChildren.kept (h : StoredChildren db parentId children) {b : Binding} (hb : b ∈ db.bindings.rows) :
    b.id ∉ ((db.bindingsOf parentId).map (·.id)).filter
        (fun id => !((children.filter fun c => c.id != Uuid.nil).map (·.id)).contains id) ↔
      b.base.serviceId ≠ parentId ∨ ∃ c ∈ children, c.id = b.id := by
  simp only [List.mem_filter, List.mem_map, Db.mem_bindingsOf, Bool.not_eq_true', ← Bool.not_eq_true,
    List.contains_iff_mem, bne_iff_ne, not_and, not_not]
  constructor
  · intro hkept
    by_cases hp : b.base.serviceId = parentId
    · obtain ⟨c, ⟨hc, -⟩, hcb⟩ := hkept ⟨b, ⟨hb, hp⟩, rfl⟩
      exact .inr ⟨c, hc, hcb⟩
    · exact .inl hp
  · rintro (hp | ⟨c, hc, hcb⟩) ⟨x, ⟨hx, hxp⟩, hxb⟩
    · rw [db.bindings.eq_of_key hx hb hxb] at hxp
      exact absurd hxp hp
    · exact ⟨c, ⟨hc, (h.stored c hc).1⟩, hcb⟩

/-- Saving children that are stored: no id is drawn, and none is taken by another binding. -/
theorem wp_saveStored (hC : StoredChildren db parentId children) :
    wp (saveForParent parentId children)
      (fun _ t => ∃ bindings, t = { db with bindings } ∧ ∀ b, b ∈ bindings.rows ↔
        b ∈ children ∨ b ∈ db.bindings.rows ∧ b.base.serviceId ≠ parentId) (fun _ _ => False) db := by
  have hloop (t : Db) (h : SavingStored db parentId [] children t) :
      wp (children.mapM (saveChild (db.bindingsOf parentId)))
        (fun _ t => ∃ bindings, t = { db with bindings } ∧ ∀ b, b ∈ bindings.rows ↔
          b ∈ children ∨ b ∈ db.bindings.rows ∧ b.base.serviceId ≠ parentId) (fun _ _ => False) t := by
    refine (Program.wp_mapM_all
      (I := fun done _ rest t => children = done ++ rest ∧ SavingStored db parentId done rest t)
      (fun done _ c rest t ⟨hl, h⟩ => ?_) ⟨rfl, h⟩).mono (fun _ t ⟨_, bindings, ht, hmem⟩ => ?_) fun _ _ h => h
    · exact (wp_saveStoredChild (hl ▸ hC) h).mono (fun _ _ h => ⟨by simp [hl], h⟩) fun _ _ h => h
    · exact ⟨bindings, ht, fun b => by simpa using hmem b⟩
  simp only [saveForParent, Program.wp_bind, Program.wp_get]
  split
  · simp only [deleteMany, Program.wp_bind, Program.wp_get, Program.wp_set, Program.wp_pure]
    refine hloop _ ⟨_, rfl, fun b => ?_⟩
    rw [Table.mem_filter, Bool.not_eq_true', ← Bool.not_eq_true, List.contains_iff_mem]
    simpa using fun hb => hC.kept hb
  · next hnone =>
    simp only [Bool.not_eq_true, Bool.not_eq_false', List.isEmpty_iff] at hnone
    refine hloop _ ⟨db.bindings, rfl, fun b => ?_⟩
    have := fun hb : b ∈ db.bindings.rows => hC.kept hb
    rw [hnone] at this
    simpa using this

end BindingService

namespace ServiceService

variable {db t : Db} {service : Service} {b : Binding} {hostId : Uuid}

theorem notOnHost_eq_none :
    notOnHost ((db.portsOf hostId).map (·.id)) ((db.interfacesOf hostId).map (·.id)) b = none ↔
        db.OnHost hostId b := by
  have hport (p : Uuid) : p ∈ (db.portsOf hostId).map (·.id) ↔
      ∃ port ∈ db.ports.rows, port.id = p ∧ port.base.hostId = hostId := by
    simp only [List.mem_map, Db.mem_portsOf, and_assoc, and_comm (a := _ = hostId)]
  have hinterface (i : Uuid) : i ∈ (db.interfacesOf hostId).map (·.id) ↔
      ∃ interface ∈ db.interfaces.rows, interface.id = i ∧ interface.base.hostId = hostId := by
    simp only [List.mem_map, Db.mem_interfacesOf, and_assoc, and_comm (a := _ = hostId)]
  unfold notOnHost Db.OnHost Binding.portId Binding.interfaceId
  simp only [← hport, ← hinterface]
  generalize (db.portsOf hostId).map (·.id) = ports
  generalize (db.interfacesOf hostId).map (·.id) = interfaces
  split
  · next i hi => simp [hi]
  · next p i hpi =>
    cases i with
    | none => simp [hpi]
    | some i => by_cases hp : p ∈ ports <;> simp [hpi, hp]

/-- The row of a stored service is replaced, and its bindings are. -/
def Rewritten (db : Db) (service : Service) (t : Db) : Prop :=
  ∃ services bindings, t = { db with services, bindings } ∧
    (∀ x, x ∈ services.rows ↔ x = Storable.row service ∨ x ∈ db.services.rows ∧ x.id ≠ service.id) ∧
    ∀ b, b ∈ bindings.rows ↔ b ∈ children service ∨ b ∈ db.bindings.rows ∧ b.base.serviceId ≠ service.id

theorem deduplicated_ids (h : (service.base.bindings.map (·.id)).Nodup) :
    ((children (deduplicated service)).map (·.id)).Nodup := by
  have hid : ((children (deduplicated service)).map (·.id)) = (deduplicated service).base.bindings.map (·.id) := by
    rw [children, List.map_map]
    rfl
  obtain ⟨hmem, hpair⟩ := @deduplicateBindings_spec service.base.bindings
  rw [hid, List.Nodup, List.pairwise_map]
  refine hpair.imp_of_mem fun ha hb hne heq => hne ?_
  rw [List.inj_on_of_nodup_map h (hmem _ ha).1 (hmem _ hb).1 heq]

/-- A service whose bindings are stored is updated if it passes the checks, and else nothing is done. -/
theorem wp_updateStored (hs : db.hasService service.id = true) (hrow : Storable.references db service = true)
    (hC : BindingService.StoredChildren db service.id (children (deduplicated service))) :
    wp (update service) (fun _ t => Updatable db (deduplicated service) ∧ Rewritten db (deduplicated service) t)
      (fun _ t => ¬ Updatable db (deduplicated service) ∧ t = db) db := by
  obtain ⟨row, hget⟩ := Option.isSome_iff_exists.mp hs
  simp only [update, Program.wp_bind, getById, Program.wp_get, Program.wp_pure, hget, Option.map_some,
    validateBindingsBelongToHost, validateBindingsAvailable, wp_validate]
  refine ⟨fun hconf => ⟨fun hhost => ⟨fun havail => ?_, fun m hm => ⟨fun h => ?_, trivial⟩⟩,
    fun m hm => ⟨fun h => ?_, trivial⟩⟩, fun m hm => ⟨fun h => ?_, trivial⟩⟩
  · have hgetRow : ((Storable.table (α := Service) db).get (Storable.id (deduplicated service))).isSome = true := hs
    refine (Program.wp_of_ok (Storable.update_eq_ok hgetRow rfl hrow)).mpr ?_
    simp only [saveBindings, Program.wp_bind, Program.wp_pure]
    refine (@BindingService.wp_saveStored (Storable.setTable _ db) _ _ ⟨hC.stored, hC.nodup, fun c hc => ?_⟩).mono
      (fun _ t hrewritten => ?_) fun _ _ h => h.elim
    · have href := hC.references c hc
      simp only [Storable.references, Bool.and_eq_true] at href ⊢
      refine ⟨⟨⟨href.1.1.1, ?_⟩, href.1.2⟩, href.2⟩
      exact Table.get_isSome_update href.1.1.2
    · obtain ⟨bindings, ht, hmem⟩ := hrewritten
      refine ⟨⟨hs, hconf, hhost, havail⟩, _, bindings, ht, fun x => ?_, hmem⟩
      refine Iff.trans Table.mem_update ⟨fun h => h.imp_left (·.1), fun h => h.imp_left fun h => ⟨h, row, ?_⟩⟩
      exact Table.get_eq_some.mp hget
  · cases hm.symm.trans h.available
  · cases hm.symm.trans h.onHost
  · cases hm.symm.trans h.noConflicts

end ServiceService

end Netvisor
