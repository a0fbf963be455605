/-
What creating, merging and updating a service writes: nothing, or the row of
one service and its bindings, all of them or those before one that is refused.
What these are is said once here; what follows for the bindings of one service
and of several is said elsewhere.
-/
import Netvisor.Services.Saving

namespace Netvisor

open Program (wp)

/-- Two databases that differ in the ids drawn. -/
def Db.SameButDrawn (db db' : Db) : Prop := ∃ drawn, drawn <:+ db.drawn ∧ db' = { db with drawn }

theorem Db.SameButDrawn.refl (db : Db) : db.SameButDrawn db := ⟨db.drawn, List.suffix_rfl, rfl⟩

theorem Db.Fresh.draw {db db' : Db} {known : List Uuid} (h : db.Fresh known) (hs : db.SameButDrawn db') :
    db'.Fresh known := by
  obtain ⟨drawn, hd, rfl⟩ := hs
  exact ⟨h.nodup.sublist hd.sublist, fun hn => h.nonnil (hd.subset hn),
    fun b hb hn => h.unstored b hb (hd.subset hn), fun id hi hn => h.unknown id hi (hd.subset hn)⟩

namespace ServiceService

/-- The row of a service is written. -/
structure RowWritten (db : Db) (service : Service) (db' : Db) : Prop where
  same : ∃ services drawn, drawn <:+ db.drawn ∧ db' = { db with services, drawn }
  rows : ∀ r, r ∈ db'.services.rows ↔ r = Storable.row service ∨ r ∈ db.services.rows ∧ r.id ≠ service.id
  references : Storable.references db service = true

/-- The row of a service and its bindings are written, those `done` as `out`,
and not the `rest`, of which the first was refused. -/
structure Saved (db : Db) (service : Service) (done out rest : List Binding) (db' : Db) : Prop where
  children : children service = done ++ rest
  saving : ∃ db₀, RowWritten db service db₀ ∧ Saving db₀ service.id done out rest db' ∧
    ∀ c ∈ rest.head?, db'.drawn ≠ [] → Refused db₀ service.id done c

/-- A service was saved, all of it if it is the `result`. -/
def Saves (db : Db) (service : Service) (result : Option Service) (db' : Db) : Prop :=
  ∃ done out rest, Saved db service done out rest db' ∧
    ∀ s ∈ result, rest = [] ∧ s = { service with base.bindings := out }

/-- A program that saves the service. -/
def WpSaves (p : Store Service) (service : Service) (db : Db) : Prop :=
  wp p (fun s db' => Saves db service (some s) db')
    (fun _ db' => db.SameButDrawn db' ∨ Saves db service none db') db

variable {db db' : Db} {service existing newData : Service} {p : Store Service}

theorem RowWritten.hasService (h : RowWritten db service db') (id : Uuid) :
    db'.hasService id = true ↔ id = service.id ∨ db.hasService id = true := by
  simp only [Db.hasService_iff, h.rows]
  constructor
  · rintro ⟨s, rfl | ⟨hs, -⟩, rfl⟩
    · exact .inl rfl
    · exact .inr ⟨s, hs, rfl⟩
  · rintro (rfl | ⟨s, hs, rfl⟩)
    · exact ⟨_, .inl rfl, rfl⟩
    · by_cases hid : s.id = service.id
      · exact ⟨_, .inl rfl, hid.symm⟩
      · exact ⟨s, .inr ⟨hs, hid⟩, rfl⟩

theorem RowWritten.references_mono (h : RowWritten db service db') {b : Binding}
    (hb : Storable.references db b = true) : Storable.references db' b = true := by
  have hservice := (h.hasService b.base.serviceId).mpr
  obtain ⟨services, drawn, -, rfl⟩ := h.same
  simp only [Storable.references, Bool.and_eq_true] at hb ⊢
  exact ⟨⟨⟨hb.1.1.1, hservice (.inr hb.1.1.2)⟩, hb.1.2⟩, hb.2⟩

/-- The row of a stored service is written: nothing can be referred to that could not before. -/
theorem RowWritten.references_eq (h : RowWritten db service db') (hs : db.hasService service.id = true)
    (b : Binding) :
    Storable.references db' b = Storable.references db b := by
  have hservice : db'.hasService b.base.serviceId = db.hasService b.base.serviceId := by
    rw [Bool.eq_iff_iff, h.hasService]
    exact or_iff_right_of_imp fun heq => heq ▸ hs
  obtain ⟨services, drawn, -, rfl⟩ := h.same
  simp only [Storable.references, hservice]
  rfl

theorem RowWritten.refused (h : RowWritten db service db') (hs : db.hasService service.id = true)
    {done : List Binding}
    {c : Binding} (hr : Refused db' service.id done c) : Refused db service.id done c := by
  rw [Refused, h.references_eq hs] at hr
  obtain ⟨services, drawn, -, rfl⟩ := h.same
  exact hr

theorem wp_saveBindings (hrow : RowWritten db service db') (hF : db.Fresh ((children service).map (·.id))) :
    wp (saveBindings service) (fun s t => Saves db service (some s) t) (fun _ t => Saves db service none t) db' := by
  obtain ⟨services, drawn, hd, rfl⟩ := hrow.same
  have hd := hF.draw ⟨drawn, hd, rfl⟩
  have hF' : Db.Fresh { db with services, drawn } ((children service).map (·.id)) :=
    ⟨hd.nodup, hd.nonnil, hd.unstored, hd.unknown⟩
  have hc : ∀ c ∈ children service, c.base.serviceId = service.id := by
    intro c hc
    obtain ⟨b, -, rfl⟩ := List.mem_map.mp hc
    rfl
  simp only [saveBindings, Program.wp_bind, Program.wp_pure]
  refine (BindingService.wp_saveForParent hF' hc).mono (fun out t h => ?_) fun _ t h => ?_
  · refine ⟨_, out, [], ⟨(List.append_nil _).symm, _, hrow, h, fun c hc => by cases hc⟩, fun s hs => ?_⟩
    cases hs
    exact ⟨rfl, rfl⟩
  · obtain ⟨done, out, c, rest, hl, h, hrefused⟩ := h
    refine ⟨done, out, c :: rest, ⟨hl, _, hrow, h, fun x hx => ?_⟩, fun s hs => by cases hs⟩
    cases hx
    exact hrefused

theorem wp_updateRow (hs : db.hasService service.id = true) :
    wp (Storable.update service) (fun s t => s = service ∧ RowWritten db service t)
      (fun _ t => db.SameButDrawn t) db := by
  refine Storable.wp_update (fun _ => .refl db) (fun hmissing => ?_)
    fun hget href => ⟨rfl, ⟨_, _, List.suffix_rfl, rfl⟩, ?_, href⟩
  · rw [Db.hasService] at hs
    cases (congrArg Option.isSome hmissing).symm.trans hs
  · intro r
    have hx : ∃ y ∈ db.services.rows, y.id = service.id := Table.get_isSome.mp hs
    refine Table.mem_update.trans ?_
    exact ⟨fun h => h.imp (·.1) id, fun h => h.imp (⟨·, hx⟩) id⟩

theorem wp_createRow :
    wp (Storable.create service) (fun s t => s = service ∧ db.hasService service.id = false ∧ RowWritten db service t)
      (fun _ t => db.SameButDrawn t) db := by
  refine Storable.wp_create (fun _ => .refl db) fun t hins href => ?_
  have hins : db.services.insert (Storable.row service) = some t := hins
  obtain ⟨hrows, hnew⟩ := Table.insert_eq_some hins
  refine ⟨rfl, ?_, ⟨t, _, List.suffix_rfl, rfl⟩, fun r => ?_, href⟩
  · rw [Bool.eq_false_iff, Ne, Db.hasService_iff]
    rintro ⟨s, hs, hid⟩
    exact hnew s hs hid
  · simp only [Storable.setTable, hrows, List.mem_append, List.mem_singleton]
    constructor
    · rintro (hr | rfl)
      · exact .inr ⟨hr, hnew r hr⟩
      · exact .inl rfl
    · rintro (rfl | ⟨hr, -⟩)
      · exact .inr rfl
      · exact .inl hr

/-! ## Merging -/

theorem mem_children {b : Binding} : b ∈ children service ↔
    ∃ x ∈ service.base.bindings, x.withService service.id service.base.networkId = b := List.mem_map

/-- A stored service, with its bindings. -/
def Stored (db : Db) (existing : Service) : Prop := ∃ row ∈ db.services.rows, db.hydrate row = existing

theorem Stored.hasService (h : Stored db existing) : db.hasService existing.id = true := by
  obtain ⟨row, hrow, rfl⟩ := h
  exact Db.hasService_iff.mpr ⟨row, hrow, rfl⟩

theorem Stored.mem_bindings (h : Stored db existing) {b : Binding} :
    b ∈ existing.base.bindings ↔ b ∈ db.bindings.rows ∧ b.base.serviceId = existing.id := by
  obtain ⟨row, hrow, rfl⟩ := h
  exact Db.mem_bindingsOf

theorem stored_of_mergeTarget (h : mergeTarget db service = some existing) : Stored db existing := by
  simp only [mergeTarget, Option.filter_eq_some_iff] at h
  obtain ⟨row, hrow, -, rfl⟩ := Db.mem_servicesOf.mp (List.mem_of_find?_eq_some h.1)
  exact ⟨row, hrow, rfl⟩

theorem fresh_children_merged (h : Stored db existing) (hF : db.Fresh (newData.base.bindings.map (·.id))) :
    db.Fresh ((children (merged existing newData)).map (·.id)) := by
  refine ⟨hF.nodup, hF.nonnil, hF.unstored, fun id hid => ?_⟩
  obtain ⟨b, hb, rfl⟩ := List.mem_map.mp hid
  obtain ⟨x, hx, rfl⟩ := mem_children.mp hb
  rcases mem_mergeBindings hx with hx | hx
  · exact hF.unstored x (h.mem_bindings.mp hx).1
  · exact hF.unknown x.id (List.mem_map.mpr ⟨x, hx, rfl⟩)

theorem wpSaves_upsertService (h : Stored db existing) (hF : db.Fresh (newData.base.bindings.map (·.id))) :
    WpSaves (upsertService existing newData) (merged existing newData) db := by
  simp only [WpSaves, upsertService, Program.wp_bind]
  have hs : db.hasService (merged existing newData).id = true := h.hasService
  refine (wp_updateRow hs).mono (fun s t hrow => ?_) fun _ _ h => .inl h
  exact (wp_saveBindings hrow.2 (fresh_children_merged h hF)).mono (fun _ _ h => h) fun _ _ h => .inr h

/-! ## Creating -/

/-- The checks a service passes that is created. -/
structure Accepted (db : Db) (service : Service) : Prop where
  new : db.hasService service.id = false
  noConflicts : validateBindingsNoConflicts [] service.base.bindings = none
  onHost : service.base.bindings.findSome? (notOnHost ((db.portsOf service.base.hostId).map (·.id))
    ((db.interfacesOf service.base.hostId).map (·.id))) = none
  available : service.base.source.isFromDiscovery = false →
    service.base.bindings.findSome? (portTaken (db.portsOf service.base.hostId)
      ((db.servicesOf service.base.hostId).filter fun s => s.id != service.id)) = none

theorem wp_createNew (hF : db.Fresh (service.base.bindings.map (·.id))) :
    wp (createNew service) (fun s db' => Accepted db service ∧ Saves db service (some s) db')
      (fun _ db' => db.SameButDrawn db' ∨ Accepted db service ∧ Saves db service none db') db := by
  have hF : db.Fresh ((children service).map (·.id)) := by
    rw [children, List.map_map]
    exact hF
  have hsave (ha : db.hasService service.id = false → Accepted db service) :
      wp (Storable.create service) (fun created => wp (saveBindings created)
          (fun s db' => Accepted db service ∧ Saves db service (some s) db')
          (fun _ db' => db.SameButDrawn db' ∨ Accepted db service ∧ Saves db service none db'))
        (fun _ db' => db.SameButDrawn db' ∨ Accepted db service ∧ Saves db service none db') db := by
    refine wp_createRow.mono (fun s t ⟨hs, hnew, hrow⟩ => ?_) fun _ _ h => .inl h
    rw [hs]
    exact (wp_saveBindings hrow hF).mono (fun _ _ h => ⟨ha hnew, h⟩) fun _ _ h => .inr ⟨ha hnew, h⟩
  simp only [createNew, validateBindingsBelongToHost, validateUnlessDiscovered, validateBindingsAvailable,
    Program.wp_bind, Program.wp_get, wp_validate, Program.wp_ite, Program.wp_pure]
  refine ⟨fun hconf => ⟨fun hhost =>
    ⟨fun hsource => ?_, fun hsource => ⟨fun havail => ?_, fun _ _ => .inl (.refl db)⟩⟩, fun _ _ => .inl (.refl db)⟩,
      fun _ _ => .inl (.refl db)⟩
  · exact hsave fun hnew => ⟨hnew, hconf, hhost, fun h => absurd hsource (by simp [h])⟩
  · exact hsave fun hnew => ⟨hnew, hconf, hhost, fun _ => havail⟩

/-- What creating a service does, unless it does nothing. -/
inductive Creates (db : Db) (service : Service) (result : Option Service) (db' : Db) : Prop
  | merges (existing : Service) (target : mergeTarget db service = some existing)
      (saves : Saves db (merged existing service) result db')
  | new (target : mergeTarget db service = none) (accepted : Accepted db (withNextPosition db service))
      (saves : Saves db (withNextPosition db service) result db')

/-- A service with the id and the bindings that creating it goes on with. -/
def incoming (db : Db) (service : Service) : Service :=
  deduplicated (if service.id = Uuid.nil then Storable.stamp (db.drawn.headD Uuid.nil) db.now service else service)

theorem mem_deduplicated {b : Binding} (hb : b ∈ (deduplicated service).base.bindings) : b ∈ service.base.bindings :=
  (deduplicateBindings_spec.1 b hb).1

theorem fresh_deduplicated (hF : db.Fresh (service.base.bindings.map (·.id))) :
    db.Fresh ((deduplicated service).base.bindings.map (·.id)) := by
  refine ⟨hF.nodup, hF.nonnil, hF.unstored, fun id hid => hF.unknown id ?_⟩
  obtain ⟨b, hb, rfl⟩ := List.mem_map.mp hid
  exact List.mem_map.mpr ⟨b, mem_deduplicated hb, rfl⟩

/-- Ids drawn before do not matter to what is saved. -/
theorem Saves.of_drawn {drawn : List Uuid} {result : Option Service} (hd : drawn <:+ db.drawn)
    (h : Saves { db with drawn } service result db') : Saves db service result db' := by
  obtain ⟨done, out, rest, ⟨hl, db₀, ⟨⟨services, drawn', hd', rfl⟩, hrows, href⟩, hs⟩, hr⟩ := h
  exact ⟨done, out, rest, ⟨hl, _, ⟨⟨services, drawn', hd'.trans hd, rfl⟩, hrows, href⟩, hs⟩, hr⟩

theorem Saves.drawn {result : Option Service} (h : Saves db service result db') : db'.drawn <:+ db.drawn := by
  obtain ⟨_, _, _, ⟨-, _, ⟨⟨_, _, hd, rfl⟩, -, -⟩, hs, -⟩, -⟩ := h
  exact hs.drawn.trans hd

/-- The services afterwards. -/
theorem Saves.services {result : Option Service} (h : Saves db service result db') (r : Service) :
    r ∈ db'.services.rows ↔ r = Storable.row service ∨ r ∈ db.services.rows ∧ r.id ≠ service.id := by
  obtain ⟨_, _, _, ⟨-, db₀, hrow, hs, -⟩, -⟩ := h
  rw [← hrow.rows]
  obtain ⟨bindings, drawn, rfl⟩ := hs.same
  rfl

/-- The network of a service that is saved exists. -/
theorem Saves.hasNetwork {result : Option Service} (h : Saves db service result db') :
    db.hasNetwork service.base.networkId = true := by
  obtain ⟨_, _, _, ⟨-, db₀, hrow, -, -⟩, -⟩ := h
  have := hrow.references
  simp only [Storable.references, Bool.and_eq_true] at this
  exact this.1

theorem Saves.referential {result : Option Service} (h : Saves db service result db') (hdb : db.Referential) :
    db'.Referential := by
  obtain ⟨_, _, _, ⟨-, db₀, hrow, hs, -⟩, -⟩ := h
  intro b hb
  rw [hs.same.references]
  rcases hs.mem_rows hb with hb | hb
  · exact hs.references b hb
  · obtain ⟨services, drawn, -, rfl⟩ := id hrow.same
    exact hrow.references_mono (hdb b hb)

theorem Creates.of_drawn {drawn : List Uuid} {result : Option Service} (hd : drawn <:+ db.drawn)
    (h : Creates { db with drawn } service result db') : Creates db service result db' := by
  cases h with
  | merges existing ht hs => exact .merges existing ht (hs.of_drawn hd)
  | new ht ha hs => exact .new ht ⟨ha.new, ha.noConflicts, ha.onHost, ha.available⟩ (hs.of_drawn hd)

theorem Creates.drawn {result : Option Service} (h : Creates db service result db') : db'.drawn <:+ db.drawn := by
  cases h with
  | merges _ _ hs => exact hs.drawn
  | new _ _ hs => exact hs.drawn

theorem wp_create (hF : db.Fresh (service.base.bindings.map (·.id))) :
    wp (create service) (fun s db' => Creates db (incoming db service) (some s) db')
      (fun _ db' => db.SameButDrawn db' ∨ Creates db (incoming db service) none db') db := by
  have hmain (service : Service) (drawn : List Uuid) (hd : drawn <:+ db.drawn)
      (hF : db.Fresh (service.base.bindings.map (·.id))) :
      (∀ existing, mergeTarget { db with drawn } service = some existing →
        wp (upsertService existing service) (fun s db' => Creates db service (some s) db')
          (fun _ db' => db.SameButDrawn db' ∨ Creates db service none db') { db with drawn }) ∧
      (mergeTarget { db with drawn } service = none →
        wp (createNew (withNextPosition { db with drawn } service)) (fun s db' => Creates db service (some s) db')
          (fun _ db' => db.SameButDrawn db' ∨ Creates db service none db') { db with drawn }) := by
    have hF := hF.draw ⟨drawn, hd, rfl⟩
    have hsame {db' : Db} : Db.SameButDrawn { db with drawn } db' → db.SameButDrawn db' := by
      rintro ⟨drawn', hd', rfl⟩
      exact ⟨drawn', hd'.trans hd, rfl⟩
    constructor
    · intro existing ht
      refine Program.wp.mono (wpSaves_upsertService (stored_of_mergeTarget ht) hF) (fun s t h => ?_) fun _ t h => ?_
      · exact .merges existing ht (h.of_drawn hd)
      · exact h.imp hsame fun h => .merges existing ht (h.of_drawn hd)
    · intro ht
      have hF : Db.Fresh { db with drawn } ((withNextPosition { db with drawn } service).base.bindings.map (·.id)) :=
        hF
      refine (wp_createNew hF).mono (fun s t h => ?_) fun _ t h => ?_
      · exact .new ht ⟨h.1.new, h.1.noConflicts, h.1.onHost, h.1.available⟩ (h.2.of_drawn hd)
      · exact h.imp hsame fun h => .new ht ⟨h.1.new, h.1.noConflicts, h.1.onHost, h.1.available⟩ (h.2.of_drawn hd)
  simp only [create, Program.wp_bind, Storable.wp_orNew, Program.wp_get]
  refine ⟨fun hnil => ?_, fun hne => ?_⟩
  · have hnil : service.id = Uuid.nil := hnil
    rw [incoming, if_pos hnil]
    obtain ⟨hmerge, hnew⟩ := hmain (deduplicated (Storable.stamp (db.drawn.headD Uuid.nil) db.now service))
      db.drawn.tail (List.tail_suffix _) (fresh_deduplicated hF)
    split
    · next existing ht => exact hmerge existing ht
    · next ht => exact hnew ht
  · have hne : service.id ≠ Uuid.nil := hne
    rw [incoming, if_neg hne]
    obtain ⟨hmerge, hnew⟩ := hmain _ db.drawn List.suffix_rfl (fresh_deduplicated hF)
    split
    · next existing ht => exact hmerge existing ht
    · next ht => exact hnew ht

/-! ## Updating -/

/-- The checks a service passes that is updated. -/
structure Updatable (db : Db) (service : Service) : Prop where
  stored : db.hasService service.id = true
  noConflicts : validateBindingsNoConflicts [] service.base.bindings = none
  onHost : service.base.bindings.findSome? (notOnHost ((db.portsOf service.base.hostId).map (·.id))
    ((db.interfacesOf service.base.hostId).map (·.id))) = none
  available : service.base.bindings.findSome? (portTaken (db.portsOf service.base.hostId)
    ((db.servicesOf service.base.hostId).filter fun s => s.id != service.id)) = none

theorem wp_update (hF : db.Fresh (service.base.bindings.map (·.id))) :
    wp (update service)
      (fun s db' => Updatable db (deduplicated service) ∧ Saves db (deduplicated service) (some s) db')
      (fun _ db' => db.SameButDrawn db' ∨ Updatable db (deduplicated service) ∧
        Saves db (deduplicated service) none db')
      db := by
  have hF : db.Fresh ((children (deduplicated service)).map (·.id)) := by
    rw [children, List.map_map]
    exact fresh_deduplicated hF
  simp only [update, Program.wp_bind, getById, Program.wp_get, Program.wp_pure]
  split
  · exact .inl (.refl db)
  · next s hs =>
    have hstored : db.hasService service.id = true := by
      obtain ⟨row, hrow, -⟩ := Option.map_eq_some_iff.mp hs
      exact Option.isSome_iff_exists.mpr ⟨row, hrow⟩
    simp only [validateBindingsBelongToHost, validateBindingsAvailable, Program.wp_bind, Program.wp_get, wp_validate]
    refine ⟨fun hconf => ⟨fun hhost => ⟨fun havail => ?_, fun _ _ => .inl (.refl db)⟩, fun _ _ => .inl (.refl db)⟩,
      fun _ _ => .inl (.refl db)⟩
    have hu : Updatable db (deduplicated service) := ⟨hstored, hconf, hhost, havail⟩
    refine Program.wp.mono (wp_updateRow hstored) (fun s t hwritten => ?_) fun _ _ h => .inl h
    obtain ⟨hs, hrow⟩ := hwritten
    rw [hs]
    exact (wp_saveBindings hrow hF).mono (fun _ _ h => ⟨hu, h⟩) fun _ _ h => .inr ⟨hu, h⟩

end ServiceService

end Netvisor
