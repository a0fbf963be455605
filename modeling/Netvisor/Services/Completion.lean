/-
When saving a service goes through: exactly if the ports it binds are available
and no other service has a binding with the id of one of its own.

Nothing else stops it, given that what it refers to exists and that there are
as many ids to draw as it may need.
-/
import Netvisor.Services.Lawful

namespace Netvisor

open Program (wp)

/-! ## Ids that are drawn -/

/-- At most `n` ids are drawn. -/
structure Db.Draws (n : Nat) (db t : Db) : Prop where
  suffix : t.drawn <:+ db.drawn
  length : db.drawn.length ≤ t.drawn.length + n

namespace Db.Draws

variable {m n : Nat} {db t u : Db}

theorem of_drawn_eq (h : t.drawn = db.drawn) : db.Draws 0 t := ⟨h ▸ List.suffix_rfl, by rw [h]; omega⟩

theorem trans (h : db.Draws m t) (h' : t.Draws n u) : db.Draws (m + n) u := by
  refine ⟨h'.suffix.trans h.suffix, ?_⟩
  have hfirst := h.length
  have hrest := h'.length
  omega

theorem mono (h : db.Draws m t) (hle : m ≤ n) : db.Draws n t := by
  refine ⟨h.suffix, ?_⟩
  have hlength := h.length
  omega

theorem ne_nil (h : db.Draws n t) (hlt : n < db.drawn.length) : t.drawn ≠ [] := by
  intro hnil
  have hlength := h.length
  rw [hnil, List.length_nil] at hlength
  omega

end Db.Draws

namespace BindingService

variable {db : Db} {existing children : List Binding} {c : Binding} {parentId : Uuid}

/-- A child draws an id if it has none. -/
theorem draws_saveChild (hnil : Uuid.nil ∉ db.drawn) :
    wp (saveChild existing c) (fun _ t => db.Draws 1 t) (fun _ t => db.Draws 1 t) db := by
  have hcreate (entity : Binding) (db : Db) (hid : entity.id = Uuid.nil → db.drawn = []) :
      wp (CrudService.create entity) (fun _ t => t.drawn = db.drawn) (fun _ t => t.drawn = db.drawn) db := by
    simp only [CrudService.create, Program.wp_bind, Storable.wp_orNew]
    refine ⟨fun h => ?_, fun _ => Storable.wp_create (fun _ => rfl) fun _ _ _ => rfl⟩
    have hdrawn : db.drawn.tail = db.drawn := by rw [hid h]; rfl
    exact Storable.wp_create (fun _ => hdrawn) fun _ _ _ => hdrawn
  have hupdate (entity : Binding) : wp (update entity) (fun _ t => t.drawn = db.drawn)
      (fun _ t => t.drawn = db.drawn) db := by
    simp only [update, CrudService.update, Program.wp_bind, Storable.wp_getById]
    split
    · rfl
    · exact Storable.wp_update (fun _ => rfl) (fun _ => rfl) fun _ _ => rfl
  have hsame {p : Store Binding} (h : wp p (fun _ t => t.drawn = db.drawn) (fun _ t => t.drawn = db.drawn) db) :
      wp p (fun _ t => db.Draws 1 t) (fun _ t => db.Draws 1 t) db :=
    h.mono (fun _ _ ht => (Db.Draws.of_drawn_eq ht).mono (Nat.zero_le 1))
      fun _ _ ht => (Db.Draws.of_drawn_eq ht).mono (Nat.zero_le 1)
  simp only [saveChild, Program.wp_ite, beq_iff_eq]
  refine ⟨fun _ => ?_, fun hne => ?_⟩
  · simp only [Program.wp_bind, wp_newV4]
    have htail : db.Draws 1 { db with drawn := db.drawn.tail } := by
      refine ⟨List.tail_suffix _, ?_⟩
      show db.drawn.length ≤ db.drawn.tail.length + 1
      rw [List.length_tail]
      omega
    have hfirst : db.drawn.headD Uuid.nil = Uuid.nil → db.drawn.tail = [] := by
      cases hdrawn : db.drawn with
      | nil => exact fun _ => rfl
      | cons u us =>
        intro h
        have hu : u = Uuid.nil := h
        exact absurd (hdrawn ▸ hu ▸ List.mem_cons_self) hnil
    exact (hcreate { c with id := db.drawn.headD Uuid.nil } { db with drawn := db.drawn.tail } hfirst).mono
      (fun _ _ ht => (htail.trans (.of_drawn_eq ht)).mono (Nat.le_refl 1))
      fun _ _ ht => (htail.trans (.of_drawn_eq ht)).mono (Nat.le_refl 1)
  · split
    · exact hsame (hupdate _)
    · exact hsame (hcreate c db fun h => absurd h hne)

theorem draws_saveForParent (hnil : Uuid.nil ∉ db.drawn) :
    wp (saveForParent parentId children) (fun _ t => db.Draws children.length t)
        (fun _ t => db.Draws children.length t) db := by
  have hloop (existing : List Binding) (db : Db) (hnil : Uuid.nil ∉ db.drawn) :
    wp (children.mapM (saveChild existing))
      (fun _ t => db.Draws children.length t) (fun _ t => db.Draws children.length t) db := by
    induction children generalizing db with
    | nil => exact .of_drawn_eq rfl
    | cons c children ih =>
      rw [List.mapM_cons, Program.wp_bind]
      refine (draws_saveChild hnil).mono (fun _ t ht => ?_) fun _ t ht => ht.mono (by simp)
      rw [Program.wp_bind]
      have hlength : 1 + children.length = (c :: children).length := by rw [List.length_cons, Nat.add_comm]
      refine (ih t fun h => hnil (ht.suffix.subset h)).mono (fun _ u hu => ?_) fun _ u hu => hlength ▸ ht.trans hu
      rw [Program.wp_pure]
      exact hlength ▸ ht.trans hu
  simp only [saveForParent, Program.wp_bind, Program.wp_get]
  split
  · simp only [deleteMany, Program.wp_bind, Program.wp_get, Program.wp_set, Program.wp_pure]
    exact (hloop _ (db.deleteBindings _) hnil).mono (fun _ _ ht => ⟨ht.suffix, ht.length⟩) fun _ _ ht =>
      ⟨ht.suffix, ht.length⟩
  · exact hloop _ db hnil

/-- No binding of another parent has the id of one of the children. -/
def IdsFree (db : Db) (parentId : Uuid) (children : List Binding) : Prop :=
  ∀ c ∈ children, c.id ≠ Uuid.nil → ∀ e ∈ db.bindings.rows, e.id = c.id → e.base.serviceId = parentId

theorem idsFree_of_saving {out : List Binding} {t : Db} (h : Saving db parentId children out [] t)
    (hdistinct : DistinctIds children) (hc : ∀ c ∈ children, c.base.serviceId = parentId) :
    IdsFree db parentId children := by
  intro c hmem hid e he hec
  by_contra hother
  obtain ⟨i, hi, rfl⟩ := List.mem_iff_getElem.mp hmem
  have hi' : i < out.length := h.written.length_eq ▸ hi
  obtain ⟨hbase, hsame⟩ := h.written.get hi hi'
  have hout : out[i] ∈ t.bindings.rows := h.stored (by rwa [List.append_nil]) _ (List.getElem_mem hi')
  have hkept : e ∈ t.bindings.rows := (h.others e hother).mpr he
  have heq : e = out[i] := t.bindings.eq_of_key hkept hout (hec.trans (hsame hid).symm)
  have hbase : out[i].base = children[i].base := hbase
  refine hother ?_
  rw [heq, hbase]
  exact hc _ (List.getElem_mem hi)

/-- The children are saved, or one of them has an id that is taken. -/
theorem wp_saveForParent_iff (hF : db.Fresh (children.map (·.id))) (hc : ∀ c ∈ children, c.base.serviceId = parentId)
    (hdistinct : DistinctIds children) (hrefs : ∀ c ∈ children, Storable.references db c = true)
    (hdrawn : children.length < db.drawn.length) :
    wp (saveForParent parentId children)
      (fun out t => IdsFree db parentId children ∧ Saving db parentId children out [] t ∧ db.Draws children.length t)
      (fun _ _ => ¬ IdsFree db parentId children) db := by
  refine ((wp_saveForParent hF hc).and (draws_saveForParent hF.nonnil)).mono
    (fun out t ⟨hsaving, hdraws⟩ => ⟨idsFree_of_saving hsaving hdistinct hc, hsaving, hdraws⟩) ?_
  rintro _ t ⟨⟨done, out, c, rest, rfl, hsaving, hrefused⟩, hdraws⟩ hfree
  have hmem : c ∈ done ++ c :: rest := List.mem_append_right _ List.mem_cons_self
  rcases hrefused (hdraws.ne_nil hdrawn) with href | ⟨hid, hown, htaken⟩
  · rw [hrefs c hmem] at href
    cases href
  · rcases htaken with ⟨e, he, hec⟩ | ⟨d, hd, hdc⟩
    · exact hown e (Db.mem_bindingsOf.mpr ⟨he, hfree c hmem hid e he hec⟩) hec
    · have hpair := (List.pairwise_append.mp hdistinct).2.2 d hd c List.mem_cons_self hdc
      exact hid (hdc ▸ hpair)

end BindingService

namespace ServiceService

variable {db t : Db} {service : Service}

open BindingService (IdsFree)

/-- The service does not ask for what another service has. -/
structure Open (db : Db) (service : Service) : Prop where
  available : ∀ b ∈ service.base.bindings, b.conflicts (claimedByOthers db service.base.hostId service.id) = false
  ids : IdsFree db service.id service.base.bindings

/-- What can be said of a service without looking at the others: its bindings go together, what it refers to is there,
and there are ids to draw for its bindings. -/
structure Valid (db : Db) (service : Service) : Prop where
  noConflicts : validateBindingsNoConflicts [] service.base.bindings = none
  onHost : ∀ b ∈ service.base.bindings, db.OnHost service.base.hostId b
  references : Storable.references db service = true
  distinct : DistinctIds service.base.bindings
  fresh : db.Fresh (service.base.bindings.map (·.id))
  drawn : service.base.bindings.length < db.drawn.length

theorem wp_saveBindings_iff (hrow : RowWritten db service t) (h : Valid db service) (hsame : t.drawn = db.drawn) :
    wp (saveBindings service)
      (fun s u => IdsFree db service.id service.base.bindings ∧ Saves db service (some s) u ∧
        db.Draws service.base.bindings.length u)
      (fun _ _ => ¬ IdsFree db service.id service.base.bindings) t := by
  obtain ⟨services, drawn, -, rfl⟩ := hrow.same
  obtain rfl : drawn = db.drawn := hsame
  have hchildren : (children service).map (·.id) = service.base.bindings.map (·.id) := by
    rw [children, List.map_map]
    rfl
  have hlength : (children service).length = service.base.bindings.length := by rw [children, List.length_map]
  have hfree : IdsFree { db with services, drawn := db.drawn } service.id (children service) ↔
      IdsFree db service.id service.base.bindings := by
    simp only [IdsFree, children, List.forall_mem_map]
    exact Iff.rfl
  have hparent : ∀ c ∈ children service, c.base.serviceId = service.id := by
    intro c hc
    obtain ⟨b, -, rfl⟩ := mem_children.mp hc
    rfl
  have hdistinct : DistinctIds (children service) := by
    rw [DistinctIds, children, List.pairwise_map]
    exact h.distinct
  have hF : Db.Fresh { db with services, drawn := db.drawn } ((children service).map (·.id)) := by
    rw [hchildren]
    exact ⟨h.fresh.nodup, h.fresh.nonnil, h.fresh.unstored, h.fresh.unknown⟩
  have hrefs : ∀ c ∈ children service, Storable.references { db with services, drawn := db.drawn } c = true := by
    intro c hc
    obtain ⟨b, hb, rfl⟩ := mem_children.mp hc
    obtain ⟨hports, hinterfaces⟩ := h.onHost b hb
    have hnetwork : db.hasNetwork service.base.networkId = true := (Bool.and_eq_true_iff.mp h.references).1
    have hservice : Db.hasService { db with services, drawn := db.drawn } service.id = true :=
      (hrow.hasService service.id).mpr (.inl rfl)
    simp only [Storable.references, Bool.and_eq_true]
    refine ⟨⟨⟨hnetwork, hservice⟩, ?_⟩, ?_⟩
    · refine Option.all_eq_true _ _ |>.mpr fun p hp => ?_
      obtain ⟨port, hport, hid, -⟩ := hports p hp
      exact Table.get_isSome.mpr ⟨port, hport, hid⟩
    · refine Option.all_eq_true _ _ |>.mpr fun i hi => ?_
      obtain ⟨interface, hinterface, hid, -⟩ := hinterfaces i hi
      exact Table.get_isSome.mpr ⟨interface, hinterface, hid⟩
  simp only [saveBindings, Program.wp_bind, Program.wp_pure]
  refine (BindingService.wp_saveForParent_iff hF hparent hdistinct hrefs (by rw [hlength]; exact h.drawn)).mono
    (fun out u ⟨hids, hsaving, hdraws⟩ => ⟨hfree.mp hids, ?_, ?_⟩) fun _ _ hnot hids => hnot (hfree.mpr hids)
  · refine ⟨children service, out, [], ⟨(List.append_nil _).symm, _, hrow, hsaving, fun c hc => nomatch hc⟩,
      fun s hs => ?_⟩
    cases hs
    exact ⟨rfl, rfl⟩
  · rw [← hlength]
    exact ⟨hdraws.suffix, hdraws.length⟩

theorem findSome?_notOnHost (h : Valid db service) : service.base.bindings.findSome?
    (notOnHost ((db.portsOf service.base.hostId).map (·.id)) ((db.interfacesOf service.base.hostId).map (·.id))) =
    none := by
  rw [List.findSome?_eq_none_iff]
  exact fun b hb => notOnHost_eq_none.mpr (h.onHost b hb)

/-- A stored service is updated, exactly if it does not ask for what another has. -/
theorem wp_update_iff (hs : db.hasService service.id = true) (h : Valid db (deduplicated service)) :
    wp (update service)
      (fun s t => Open db (deduplicated service) ∧ Saves db (deduplicated service) (some s) t ∧
        db.Draws (deduplicated service).base.bindings.length t)
      (fun _ _ => ¬ Open db (deduplicated service)) db := by
  obtain ⟨row, hget⟩ := Option.isSome_iff_exists.mp hs
  simp only [update, Program.wp_bind, getById, Program.wp_get, Program.wp_pure, hget, Option.map_some,
    validateBindingsBelongToHost, validateBindingsAvailable, wp_validate, h.noConflicts, findSome?_notOnHost h,
      forall_const,
    reduceCtorEq, false_implies, and_true]
  refine ⟨fun havail => ?_, fun m hm hopen => ?_⟩
  · have hok : Storable.update (deduplicated service) db = .ok (deduplicated service) _ :=
      Storable.update_eq_ok hs rfl h.references
    obtain ⟨-, hrow⟩ := (Program.wp_of_ok hok).mp (wp_updateRow hs)
    refine (Program.wp_of_ok hok).mpr
      ((wp_saveBindings_iff hrow h rfl).mono (fun s t ⟨hids, hsaves, hdraws⟩ => ?_) ?_)
    · exact ⟨⟨available_iff.mp havail, hids⟩, hsaves, hdraws⟩
    · exact fun _ _ hnot hopen => hnot hopen.ids
  · rw [available_iff.mpr hopen.available] at hm
    cases hm

/-- A service is created that is not of a discovery, exactly if it does not ask for what another has. -/
theorem wp_create_iff (hs : db.hasService service.id = false) (hid : service.id ≠ Uuid.nil)
    (hsource : service.base.source.isFromDiscovery = false) (h : Valid db (deduplicated service)) :
    wp (create service)
      (fun s t => Open db (deduplicated service) ∧ Saves db (withNextPosition db (deduplicated service)) (some s) t ∧
        db.Draws (deduplicated service).base.bindings.length t)
      (fun _ _ => ¬ Open db (deduplicated service)) db := by
  have htarget : mergeTarget db (deduplicated service) = none := by
    rw [mergeTarget, Option.filter_eq_none_iff]
    intro existing hfind
    obtain ⟨row, hrow, -, rfl⟩ := Db.mem_servicesOf.mp (List.mem_of_find?_eq_some hfind)
    have hne : row.id ≠ service.id := by
      intro heq
      rw [Db.hasService_iff.mpr ⟨row, hrow, heq⟩] at hs
      cases hs
    have hother : (deduplicated service).base.source.isFromDiscovery = false := hsource
    have hne' : (deduplicated service).id ≠ (db.hydrate row).id := fun heq => hne heq.symm
    simp [mergesInto, hother, hne']
  have hnext : Valid db (withNextPosition db (deduplicated service)) :=
    ⟨h.noConflicts, h.onHost, h.references, h.distinct, h.fresh, h.drawn⟩
  have hdiscovered : (withNextPosition db (deduplicated service)).base.source.isFromDiscovery = false := hsource
  simp only [create, Program.wp_bind, Storable.wp_orNew, Program.wp_get]
  refine ⟨fun hnil => absurd hnil hid, fun _ => ?_⟩
  simp only [htarget, createNew, Program.wp_bind, validateBindingsBelongToHost, validateUnlessDiscovered,
    validateBindingsAvailable, Program.wp_get, wp_validate, hnext.noConflicts, findSome?_notOnHost hnext, hdiscovered,
      forall_const, reduceCtorEq,
    false_implies, and_true, Bool.false_eq_true, if_false]
  refine ⟨fun havail => ?_, fun m hm hopen => ?_⟩
  · obtain ⟨t, hinsert⟩ : ∃ t, db.services.insert (Storable.row (withNextPosition db (deduplicated service))) =
        some t := by
      cases hinsert : db.services.insert (Storable.row (withNextPosition db (deduplicated service))) with
      | some t => exact ⟨t, rfl⟩
      | none =>
        obtain ⟨x, hx, hkey⟩ := Table.insert_eq_none.mp hinsert
        have hkey : x.id = service.id := hkey
        rw [Db.hasService_iff.mpr ⟨x, hx, hkey⟩] at hs
        cases hs
    have hok : Storable.create (withNextPosition db (deduplicated service)) db =
        .ok (withNextPosition db (deduplicated service)) _ :=
      Storable.create_eq_ok hinsert rfl hnext.references
    obtain ⟨-, -, hrow⟩ := (Program.wp_of_ok hok).mp wp_createRow
    refine (Program.wp_of_ok hok).mpr
      ((wp_saveBindings_iff hrow hnext rfl).mono (fun s t hsaved => ?_) ?_)
    · obtain ⟨hids, hsaves, hdraws⟩ := hsaved
      exact ⟨⟨available_iff.mp havail, hids⟩, hsaves, hdraws⟩
    · exact fun _ _ hnot hopen => hnot hopen.ids
  · have hnext : Open db (withNextPosition db (deduplicated service)) := ⟨hopen.available, hopen.ids⟩
    rw [available_iff.mpr hnext.available] at hm
    cases hm

/-! ## What is there after a service was saved -/

variable {result : Option Service} {s : Service} {b : Binding}

theorem Saves.same (h : Saves db service result t) :
    ∃ services bindings drawn, t = { db with services, bindings, drawn } := by
  obtain ⟨_, _, _, ⟨-, _, ⟨⟨services, _, -, rfl⟩, -, -⟩, hsaving, -⟩, -⟩ := h
  obtain ⟨bindings, drawn, rfl⟩ := hsaving.same
  exact ⟨services, bindings, drawn, rfl⟩

/-- The bindings of other services stay. -/
theorem Saves.others (h : Saves db service result t) (hb : b.base.serviceId ≠ service.id) :
    b ∈ t.bindings.rows ↔ b ∈ db.bindings.rows := by
  obtain ⟨_, _, _, ⟨-, _, ⟨⟨_, _, -, rfl⟩, -, -⟩, hsaving, -⟩, -⟩ := h
  exact hsaving.others b hb

/-- The bindings of the service are those that were written. -/
theorem Saves.written (h : Saves db service (some s) t) : ∃ db₀ out, RowWritten db service db₀ ∧
    Saving db₀ service.id (children service) out [] t ∧ ∀ b ∈ t.bindingsOf service.id, b ∈ out := by
  obtain ⟨done, out, rest, ⟨hchildren, db₀, hrow, hsaving, -⟩, hresult⟩ := h
  obtain ⟨rfl, -⟩ := hresult s rfl
  rw [List.append_nil] at hchildren
  refine ⟨db₀, out, hrow, hchildren ▸ hsaving, fun b hb => ?_⟩
  obtain ⟨hrow, hown⟩ := Db.mem_bindingsOf.mp hb
  refine (hsaving.own b hrow hown).resolve_right ?_
  rintro ⟨-, -, -, c, hc, -⟩
  exact nomatch hc

/-- They are to what the service was to be bound to. -/
theorem Saves.types (h : Saves db service (some s) t) (hdistinct : DistinctIds service.base.bindings)
    (type : BindingType) :
    (∃ b ∈ t.bindingsOf service.id, b.base.bindingType = type) ↔
    ∃ b ∈ service.base.bindings, b.base.bindingType = type := by
  obtain ⟨db₀, out, -, hsaving, hout⟩ := h.written
  constructor
  · rintro ⟨b, hb, rfl⟩
    obtain ⟨c, hc, hbase, -⟩ := hsaving.mem_out (hout b hb)
    obtain ⟨a, ha, rfl⟩ := mem_children.mp hc
    exact ⟨a, ha, by rw [hbase]; rfl⟩
  · rintro ⟨a, ha, rfl⟩
    have hchildren : DistinctIds (children service) := by
      rw [DistinctIds, children, List.pairwise_map]
      exact hdistinct
    obtain ⟨i, hi, hic⟩ := List.mem_iff_getElem.mp (mem_children.mpr ⟨a, ha, rfl⟩)
    have hi' : i < out.length := hsaving.written.length_eq ▸ hi
    have hbase : out[i].base = (children service)[i].base := (hsaving.written.get hi hi').1
    rw [hic] at hbase
    have hstored := hsaving.stored (by rwa [List.append_nil]) _ (List.getElem_mem hi')
    exact ⟨out[i], Db.mem_bindingsOf.mpr ⟨hstored, by rw [hbase]; rfl⟩, by rw [hbase]; rfl⟩

/-- Their ids are those asked for, or were drawn. -/
theorem Saves.ids (h : Saves db service (some s) t) (hb : b ∈ t.bindingsOf service.id) :
    (∃ a ∈ service.base.bindings, a.id = b.id) ∨ b.id ∉ t.drawn ∧ (b.id = Uuid.nil ∨ b.id ∈ db.drawn) := by
  obtain ⟨db₀, out, hrow, hsaving, hout⟩ := h.written
  obtain ⟨services, drawn, hdrawn, rfl⟩ := hrow.same
  refine (hsaving.ids b (hout b hb)).imp ?_ (And.imp_right (Or.imp_right fun hb => hdrawn.subset hb))
  rintro ⟨c, hc, hid⟩
  obtain ⟨a, ha, rfl⟩ := mem_children.mp hc
  exact ⟨a, ha, hid⟩

/-- What is still to be drawn is new to the bindings written as well. -/
theorem Saves.fresh {known : List Uuid} (h : Saves db service (some s) t) (hF : db.Fresh known)
    (hknown : ∀ a ∈ service.base.bindings, a.id ∈ known) : t.Fresh known := by
  have hd := h.drawn
  refine ⟨hF.nodup.sublist hd.sublist, fun hn => hF.nonnil (hd.subset hn), fun b hb hn => ?_, fun id hid hn =>
    hF.unknown id hid (hd.subset hn)⟩
  by_cases hown : b.base.serviceId = service.id
  · rcases h.ids (Db.mem_bindingsOf.mpr ⟨hb, hown⟩) with ⟨a, ha, hid⟩ | ⟨hnot, -⟩
    · exact hF.unknown a.id (hknown a ha) (hd.subset (hid ▸ hn))
    · exact hnot hn
  · exact hF.unstored b ((h.others hown).mp hb) (hd.subset hn)

end ServiceService

end Netvisor
