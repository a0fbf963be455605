/-
What the statements of the storage do: rules for programs, and what is in the
tables afterwards.
-/
import Netvisor.Storage

namespace Netvisor

open Program (wp)

namespace Storable

variable {α : Type} [Storable α] {entity : α} {i : Uuid} {db : Db} {Q : α → Db → Prop} {E : Error → Db → Prop}

/-- `INSERT` fails in the state it was issued in, or adds the row. -/
theorem wp_create (hE : ∀ e, E e db)
    (hQ : ∀ t, (table (α := α) db).insert (row entity) = some t → references db entity = true →
      Q entity (setTable t db)) : wp (create entity) Q E db := by
  simp only [create, Program.wp_bind, Program.wp_get]
  split
  · exact hE _
  · exact hE _
  · next t hins _ =>
    split
    · next href => exact hQ t hins href
    · exact hE _

/-- `UPDATE` fails in the state it was issued in, finds no row, or replaces it. -/
theorem wp_update (hE : ∀ e, E e db) (hmissing : (table (α := α) db).get (id entity) = none → Q entity db)
    (hQ : ((table (α := α) db).get (id entity)).isSome = true → references db entity = true →
      Q entity (setTable ((table db).update (row entity)) db)) : wp (update entity) Q E db := by
  simp only [update, Program.wp_bind, Program.wp_get]
  split
  · next h => exact hmissing (by simpa using h)
  · next h =>
    split
    · exact hE _
    · split
      · next href => exact hQ (by simpa [Option.isSome_iff_ne_none] using h) href
      · exact hE _

@[simp] theorem wp_getById {R : Option α → Db → Prop} :
    wp (getById i) R E db ↔ R ((table (α := α) db).get i) db := Iff.rfl

@[simp] theorem wp_getAll {p : α → Bool} {R : List α → Db → Prop} :
    wp (getAll p) R E db ↔ R ((table (α := α) db).select p createdAt) db := Iff.rfl

theorem create_eq_ok {t : Table α id} (hins : (table (α := α) db).insert (row entity) = some t)
    (hbroken : broken db entity = none) (href : references db entity = true) :
    create entity db = .ok entity (setTable t db) := by
  simp only [create, bind, EStateM.bind, Program.run_get, hins, hbroken, href]
  rfl

theorem update_eq_ok (hget : ((table (α := α) db).get (id entity)).isSome = true)
    (hbroken : broken db entity = none) (href : references db entity = true) :
    update entity db = .ok entity (setTable ((table db).update (row entity)) db) := by
  have hget : ((table (α := α) db).get (id entity)).isNone = false := by
    rw [← Option.not_isSome, hget]
    rfl
  simp only [update, bind, EStateM.bind, Program.run_get, hget, hbroken, href]
  rfl

end Storable

@[simp] theorem wp_newV4 {Q : Uuid → Db → Prop} {E : Error → Db → Prop} {db : Db} :
    wp newV4 Q E db ↔ Q (db.drawn.headD Uuid.nil) { db with drawn := db.drawn.tail } := Iff.rfl

@[simp] theorem wp_validate {message : Option String} {Q : Unit → Db → Prop} {E : Error → Db → Prop} {db : Db} :
    wp (validate message) Q E db ↔ (message = none → Q () db) ∧ ∀ m, message = some m → E (.validation m) db := by
  cases message <;> simp [validate]

@[simp] theorem Storable.wp_new {α : Type} [Storable α] {entity : α} {Q : α → Db → Prop} {E : Error → Db → Prop}
    {db : Db} : wp (Storable.new entity) Q E db ↔
      Q (Storable.stamp (db.drawn.headD Uuid.nil) db.now entity) { db with drawn := db.drawn.tail } := Iff.rfl

/-- The entity has an id, or is given one. -/
theorem Storable.wp_orNew {α : Type} [Storable α] {entity : α} {Q : α → Db → Prop} {E : Error → Db → Prop}
    {db : Db} : wp (Storable.orNew entity) Q E db ↔
      (Storable.id entity = Uuid.nil →
        Q (Storable.stamp (db.drawn.headD Uuid.nil) db.now entity) { db with drawn := db.drawn.tail }) ∧
      (Storable.id entity ≠ Uuid.nil → Q entity db) := by
  simp only [Storable.orNew, Program.wp_ite, beq_iff_eq, Storable.wp_new, Program.wp_pure, ne_eq]

namespace Db

variable {db : Db} {id hostId serviceId : Uuid}

theorem mem_bindingsOf {b : Binding} : b ∈ db.bindingsOf serviceId ↔
    b ∈ db.bindings.rows ∧ b.base.serviceId = serviceId := by
  simp only [bindingsOf, Table.mem_select, beq_iff_eq]

theorem mem_servicesOf {s : Service} : s ∈ db.servicesOf hostId ↔
    ∃ row ∈ db.services.rows, row.base.hostId = hostId ∧ db.hydrate row = s := by
  simp only [servicesOf, List.mem_map, Table.mem_select, beq_iff_eq, and_assoc]

theorem mem_portsOf {p : Port} : p ∈ db.portsOf hostId ↔ p ∈ db.ports.rows ∧ p.base.hostId = hostId := by
  simp only [portsOf, Table.mem_select, beq_iff_eq]

theorem mem_interfacesOf {i : Interface} :
    i ∈ db.interfacesOf hostId ↔ i ∈ db.interfaces.rows ∧ i.base.hostId = hostId := by
  simp only [interfacesOf, Table.mem_select, beq_iff_eq]

theorem hasService_iff : db.hasService id = true ↔ ∃ s ∈ db.services.rows, s.id = id := Table.get_isSome

/-- The references of all bindings are to rows that exist. -/
def Referential (db : Db) : Prop := ∀ b ∈ db.bindings.rows, Storable.references db b = true

theorem Referential.hasService (h : db.Referential) {b : Binding} (hb : b ∈ db.bindings.rows) :
    ∃ s ∈ db.services.rows, s.id = b.base.serviceId := by
  have := h b hb
  simp only [Storable.references, Bool.and_eq_true] at this
  exact hasService_iff.mp this.1.1.2

/-- Two databases that differ only in bindings and in the ids drawn. -/
def SameButBindings (db db' : Db) : Prop := ∃ bindings drawn, db' = { db with bindings, drawn }

theorem SameButBindings.refl (db : Db) : SameButBindings db db := ⟨db.bindings, db.drawn, rfl⟩

theorem SameButBindings.trans {db db' db'' : Db} (h : SameButBindings db db') (h' : SameButBindings db' db'') :
    SameButBindings db db'' := by
  obtain ⟨bindings, drawn, rfl⟩ := h
  obtain ⟨bindings, drawn, rfl⟩ := h'
  exact ⟨bindings, drawn, rfl⟩

theorem SameButBindings.references {db db' : Db} (h : SameButBindings db db') (b : Binding) :
    Storable.references db' b = Storable.references db b := by
  obtain ⟨bindings, drawn, rfl⟩ := h
  rfl

end Db

end Netvisor
