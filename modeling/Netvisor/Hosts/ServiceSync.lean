/-
Making the services of a host those of a list: `sync_services` saves one after
the other, each checked against what the others have at that time. A service
that is given the port of another can only be saved once that other one was,
and of the order the requests only have a say where both or neither of the two
give up a port.
-/
import Netvisor.Hosts.Update
import Netvisor.Lib.Handover
import Netvisor.Services.Completion

namespace Netvisor

open Program (wp)
open HostUpdate (syncServices orderInputs isLosing resolve)
open ServiceService (deduplicated validateBindingsNoConflicts Saves Open withNextPosition claimedByOthers conflicts_claimedByOthers)

/-- A host whose services are to be those of a list. -/
structure ServiceSync where
  db : Db
  hostId : Uuid
  networkId : Uuid

namespace ServiceSync

section

variable (c : ServiceSync)

def existing : List Service := c.db.servicesOf c.hostId

def found (x : ServiceInput) : Option Service := c.existing.find? fun s => s.id == x.id

/-- The service an input asks for. What cannot be changed is kept of the stored one. -/
def target (x : ServiceInput) : Service :=
  let service := x.intoService c.hostId c.networkId .manual c.db.now
  deduplicated (((c.found x).map service.preserveImmutableFields).getD service)

def bindings (x : ServiceInput) : List Binding := (c.target x).base.bindings

/-- The first input asks for what the service of the second has: a port, or the id of a binding. -/
def Clash (x y : ServiceInput) : Prop :=
  ∃ b ∈ c.bindings x, ∃ e ∈ c.db.bindingsOf y.id, b.overlaps e = true ∨ b.id ≠ Uuid.nil ∧ e.id = b.id

/-- The row is the one the input asks for. Where the service stands is not looked at: new services are put behind the
others in the order they are saved in. -/
def Written (x : ServiceInput) (row : Service) : Prop :=
  ∃ position, row = Storable.row { c.target x with base.position := position }

/-- Services the host can have: each goes together, what it refers to is there and of the host, no two want the same. -/
structure Consistent (inputs : List ServiceInput) : Prop where
  host : c.db.hasHost c.hostId = true
  network : c.db.hasNetwork c.networkId = true
  nodup : (inputs.map (·.id)).Nodup
  nonnil : ∀ x ∈ inputs, x.id ≠ Uuid.nil
  own : ∀ x ∈ inputs, ∀ s ∈ c.db.services.rows, s.id = x.id → s.base.hostId = c.hostId
  noConflicts : ∀ x ∈ inputs, validateBindingsNoConflicts [] (c.bindings x) = none
  onHost : ∀ x ∈ inputs, ∀ b ∈ c.bindings x, c.db.OnHost c.hostId b
  disjoint : ∀ x ∈ inputs, ∀ y ∈ inputs, x.id ≠ y.id → ∀ b ∈ c.bindings x, ∀ e ∈ c.bindings y, b.overlaps e = false
  /-- The ids of bindings are those of other bindings neither of the request nor of another host. -/
  distinct : DistinctIds (inputs.flatMap c.bindings)
  ownBindings : ∀ b ∈ inputs.flatMap c.bindings, b.id ≠ Uuid.nil → ∀ e ∈ c.db.bindings.rows, e.id = b.id →
    ∀ s ∈ c.db.services.rows, s.id = e.base.serviceId → s.base.hostId = c.hostId

structure Valid (inputs : List ServiceInput) : Prop extends c.Consistent inputs where
  positions : ∃ resolved, PositionedInput.resolveAndValidate inputs (c.existing.map fun s => (s.id, s.base.position))
    "service" = .ok resolved

/-- The services of the host are those of the list, with the bindings of the list; those of other hosts are left alone. -/
structure Reached (inputs : List ServiceInput) (t : Db) : Prop where
  others : ∀ s, s.base.hostId ≠ c.hostId → (s ∈ t.services.rows ↔ s ∈ c.db.services.rows)
  services : ∀ s ∈ t.services.rows, s.base.hostId = c.hostId → ∃ x ∈ inputs, c.Written x s
  all : ∀ x ∈ inputs, ∃ s ∈ t.services.rows, c.Written x s
  bindings : ∀ x ∈ inputs, ∀ type : BindingType,
    (∃ b ∈ t.bindingsOf x.id, b.base.bindingType = type) ↔ ∃ b ∈ c.bindings x, b.base.bindingType = type

/-- Ids that are new, and more than the request may need. -/
structure Drawable (inputs : List ServiceInput) : Prop where
  fresh : c.db.Fresh ((inputs.flatMap c.bindings).map (·.id))
  enough : (inputs.flatMap c.bindings).length < c.db.drawn.length

end

variable {c : ServiceSync} {x y : ServiceInput} {inputs done rest : List ServiceInput} {t u : Db} {s : Service}
  {b : Binding}

/-! ## What an input asks for -/

@[simp] theorem target_id : (c.target x).id = x.id := by
  unfold target
  cases c.found x <;> rfl

@[simp] theorem target_hostId : (c.target x).base.hostId = c.hostId := by
  unfold target
  cases c.found x <;> rfl

@[simp] theorem target_networkId : (c.target x).base.networkId = c.networkId := by
  unfold target
  cases c.found x <;> rfl

theorem Written.id_eq (h : c.Written x s) : s.id = x.id := by
  obtain ⟨position, rfl⟩ := h
  exact target_id

theorem Written.hostId_eq (h : c.Written x s) : s.base.hostId = c.hostId := by
  obtain ⟨position, rfl⟩ := h
  exact target_hostId

theorem found_eq_some (h : c.found x = some s) : s.id = x.id ∧ ∃ row ∈ c.db.services.rows,
    row.base.hostId = c.hostId ∧
    row.id = x.id := by
  have hid : s.id = x.id := by simpa using List.find?_some h
  obtain ⟨row, hrow, hhost, rfl⟩ := Db.mem_servicesOf.mp (List.mem_of_find?_eq_some h)
  exact ⟨hid, row, hrow, hhost, hid⟩

theorem found_eq_none (h : c.found x = none) (hs : s ∈ c.db.services.rows) (hhost : s.base.hostId = c.hostId) :
    s.id ≠ x.id := by
  have hnone := List.find?_eq_none.mp h (c.db.hydrate s) (Db.mem_servicesOf.mpr ⟨s, hs, hhost, rfl⟩)
  intro hid
  exact hnone (beq_iff_eq.mpr hid)

theorem Consistent.distinctIds (hC : c.Consistent inputs) (hx : x ∈ inputs) : DistinctIds (c.bindings x) :=
  hC.distinct.sublist (List.sublist_flatten_of_mem (List.mem_map_of_mem hx))

/-- No other service of the list has the id of one. -/
theorem Consistent.id_ne (hC : c.Consistent (done ++ x :: rest)) (hy : y ∈ done ∨ y ∈ rest) : y.id ≠ x.id := by
  have hnodup := hC.nodup
  rw [List.map_append, List.map_cons, List.nodup_append, List.nodup_cons] at hnodup
  intro heq
  rcases hy with hy | hy
  · exact hnodup.2.2 _ (List.mem_map_of_mem hy) _ List.mem_cons_self heq
  · exact hnodup.2.1.1 (heq ▸ List.mem_map_of_mem hy)

/-! ## While the services are saved -/

/-- The database when the services for `done` are saved and those for `rest` still to be. -/
structure Progress (c : ServiceSync) (done rest : List ServiceInput) (t : Db) : Prop where
  same : ∃ services bindings drawn, t = { c.db with services, bindings, drawn }
  draws : c.db.Draws (done.flatMap c.bindings).length t
  fresh : t.Fresh (((done ++ rest).flatMap c.bindings).map (·.id))
  others : ∀ s, s.base.hostId ≠ c.hostId → (s ∈ t.services.rows ↔ s ∈ c.db.services.rows)
  own : ∀ s ∈ t.services.rows, s.base.hostId = c.hostId →
    (∃ y ∈ done, c.Written y s) ∨ s ∈ c.db.services.rows ∧ ∃ y ∈ rest, s.id = y.id
  saved : ∀ y ∈ done, ∃ s ∈ t.services.rows, c.Written y s
  waiting : ∀ s ∈ c.db.services.rows, (∃ y ∈ rest, s.id = y.id) → s ∈ t.services.rows
  types : ∀ y ∈ done, ∀ type : BindingType,
    (∃ b ∈ t.bindingsOf y.id, b.base.bindingType = type) ↔ ∃ b ∈ c.bindings y, b.base.bindingType = type
  ids : ∀ y ∈ done, ∀ b ∈ t.bindingsOf y.id, (∃ a ∈ c.bindings y, a.id = b.id) ∨ b.id = Uuid.nil ∨ b.id ∈ c.db.drawn
  unsaved : ∀ y ∈ rest, ∀ b, b.base.serviceId = y.id → (b ∈ t.bindings.rows ↔ b ∈ c.db.bindings.rows)
  /-- Services that are not asked for are gone, with their bindings. -/
  foreign : ∀ b ∈ t.bindings.rows, (∀ y ∈ done ++ rest, b.base.serviceId ≠ y.id) →
    b ∈ c.db.bindings.rows ∧ ∀ s ∈ c.db.services.rows, s.id = b.base.serviceId → s.base.hostId ≠ c.hostId

namespace Progress

/-- The next service is one more that was saved. -/
theorem step {position : Int} (h : c.Progress done (x :: rest) t) (hC : c.Consistent (done ++ x :: rest))
    (hsaves : Saves t { c.target x with base.position := position } (some s) u)
    (hdraws : t.Draws (c.bindings x).length u) : c.Progress (done ++ [x]) rest u := by
  have hid : Service.id { c.target x with base.position := position } = x.id := target_id
  have hx : x ∈ done ++ x :: rest := List.mem_append_right _ List.mem_cons_self
  have happend : done ++ [x] ++ rest = done ++ x :: rest := (List.append_cons done x rest).symm
  have hrow : c.Written x (Storable.row { c.target x with base.position := position }) := ⟨position, rfl⟩
  have hservices := hsaves.services
  have hbindings {b : Binding} (hb : b.base.serviceId ≠ x.id) : b ∈ u.bindings.rows ↔ b ∈ t.bindings.rows :=
    hsaves.others (by rw [hid]; exact hb)
  have hbindingsOf {y : ServiceInput} (hy : y.id ≠ x.id) : u.bindingsOf y.id ⊆ t.bindingsOf y.id ∧
      t.bindingsOf y.id ⊆ u.bindingsOf y.id := by
    have hiff {b : Binding} : b ∈ u.bindingsOf y.id ↔ b ∈ t.bindingsOf y.id := by
      rw [Db.mem_bindingsOf, Db.mem_bindingsOf]
      exact and_congr_left fun hb => hbindings (by rw [hb]; exact hy)
    exact ⟨fun _ => hiff.mp, fun _ => hiff.mpr⟩
  constructor
  case same =>
    obtain ⟨services, bindings, drawn, rfl⟩ := h.same
    obtain ⟨services, bindings, drawn, rfl⟩ := hsaves.same
    exact ⟨services, bindings, drawn, rfl⟩
  case draws =>
    rw [List.flatMap_append, List.length_append, List.flatMap_singleton]
    exact h.draws.trans hdraws
  case fresh =>
    rw [happend]
    exact hsaves.fresh h.fresh fun a ha => List.mem_map_of_mem (List.mem_flatMap.mpr ⟨x, hx, ha⟩)
  case others =>
    intro s hs
    rw [hservices, ← h.others s hs]
    constructor
    · rintro (rfl | ⟨hmem, -⟩)
      · exact absurd hrow.hostId_eq hs
      · exact hmem
    · refine fun hmem => .inr ⟨hmem, fun hsid => hs ?_⟩
      exact hC.own x hx s ((h.others s hs).mp hmem) (hsid.trans hid)
  case own =>
    intro s hs hhost
    rcases (hservices s).mp hs with rfl | ⟨hs, hsid⟩
    · exact .inl ⟨x, List.mem_append_right _ List.mem_cons_self, hrow⟩
    · rcases h.own s hs hhost with ⟨y, hy, hwritten⟩ | ⟨hold, y, hy, hsy⟩
      · exact .inl ⟨y, List.mem_append_left _ hy, hwritten⟩
      · refine .inr ⟨hold, y, (List.mem_cons.mp hy).resolve_left fun heq => hsid ?_, hsy⟩
        rw [hsy, heq, hid]
  case saved =>
    intro y hy
    rcases List.mem_append.mp hy with hy | hy
    · obtain ⟨s, hs, hwritten⟩ := h.saved y hy
      refine ⟨s, (hservices s).mpr (.inr ⟨hs, ?_⟩), hwritten⟩
      rw [hwritten.id_eq, hid]
      exact hC.id_ne (.inl hy)
    · rw [List.mem_singleton.mp hy]
      exact ⟨_, (hservices _).mpr (.inl rfl), hrow⟩
  case waiting =>
    rintro s hs ⟨y, hy, hsy⟩
    refine (hservices s).mpr (.inr ⟨h.waiting s hs ⟨y, List.mem_cons_of_mem _ hy, hsy⟩, ?_⟩)
    rw [hsy, hid]
    exact hC.id_ne (.inr hy)
  case types =>
    intro y hy type
    rcases List.mem_append.mp hy with hy | hy
    · obtain ⟨hto, hfrom⟩ := hbindingsOf (hC.id_ne (.inl hy))
      rw [← h.types y hy type]
      exact ⟨fun ⟨b, hb, htype⟩ => ⟨b, hto hb, htype⟩, fun ⟨b, hb, htype⟩ => ⟨b, hfrom hb, htype⟩⟩
    · rw [List.mem_singleton.mp hy]
      have htypes := hsaves.types (hC.distinctIds hx) type
      rwa [hid] at htypes
  case ids =>
    intro y hy b hb
    rcases List.mem_append.mp hy with hy | hy
    · exact h.ids y hy b ((hbindingsOf (hC.id_ne (.inl hy))).1 hb)
    · rw [List.mem_singleton.mp hy] at hb ⊢
      refine (hsaves.ids (by rwa [hid])).imp id fun hids => hids.2.imp_right fun hmem => h.draws.suffix.subset hmem
  case unsaved =>
    intro y hy b hb
    rw [hbindings (by rw [hb]; exact hC.id_ne (.inr hy))]
    exact h.unsaved y (List.mem_cons_of_mem _ hy) b hb
  case foreign =>
    rw [happend]
    intro b hb hforeign
    exact h.foreign b ((hbindings (hforeign x hx)).mp hb) hforeign

/-- A service to be saved asks for nothing that is taken, exactly if it has no clash with those still to be saved. -/
theorem open_iff (h : c.Progress done (x :: rest) t) (hC : c.Consistent (done ++ x :: rest)) (hdb : c.db.Referential)
    (hF : c.db.Fresh (((done ++ x :: rest).flatMap c.bindings).map (·.id))) :
    Open t (c.target x) ↔ ∀ y ∈ rest, ¬ c.Clash x y := by
  have hx : x ∈ done ++ x :: rest := List.mem_append_right _ List.mem_cons_self
  have hrest {y : ServiceInput} (hy : y ∈ rest) {e : Binding} : e ∈ t.bindingsOf y.id ↔ e ∈ c.db.bindingsOf y.id := by
    rw [Db.mem_bindingsOf, Db.mem_bindingsOf]
    exact and_congr_left fun he => h.unsaved y (List.mem_cons_of_mem _ hy) e he
  -- Of the services that are saved none is in the way.
  have hport {y : ServiceInput} (hy : y ∈ done) {b : Binding} (hb : b ∈ c.bindings x) {e : Binding}
      (he : e ∈ t.bindingsOf y.id) : b.overlaps e = false := by
    obtain ⟨a, ha, htype⟩ := (h.types y hy e.base.bindingType).mp ⟨e, he, rfl⟩
    rw [Binding.overlaps_comm, ← Binding.overlaps_of_base htype, Binding.overlaps_comm]
    exact hC.disjoint x hx y (List.mem_append_left _ hy) (hC.id_ne (.inl hy)).symm b hb a ha
  have htaken {y : ServiceInput} (hy : y ∈ done) {b : Binding} (hb : b ∈ c.bindings x) (hid : b.id ≠ Uuid.nil)
    {e : Binding}
      (he : e ∈ t.bindingsOf y.id) : e.id ≠ b.id := by
    intro heq
    rcases h.ids y hy e he with ⟨a, ha, hae⟩ | hnil | hdrawn
    · have hdistinct := hC.distinct
      rw [List.flatMap_append, DistinctIds, List.pairwise_append] at hdistinct
      have hnil := hdistinct.2.2 a (List.mem_flatMap.mpr ⟨y, hy, ha⟩) b
        (List.mem_flatMap.mpr ⟨x, List.mem_cons_self, hb⟩) (hae.trans heq)
      exact hid (heq ▸ hae ▸ hnil)
    · exact hid (heq ▸ hnil)
    · exact hF.unknown b.id (List.mem_map_of_mem (List.mem_flatMap.mpr ⟨x, hx, hb⟩)) (heq ▸ hdrawn)
  constructor
  · rintro hopen y hy ⟨b, hb, e, he, hclash⟩
    have het := (hrest hy).mpr he
    obtain ⟨het, hey⟩ := Db.mem_bindingsOf.mp het
    obtain ⟨row, hrow, hrowid⟩ := hdb.hasService (Db.mem_bindingsOf.mp he).1
    rw [hey] at hrowid
    rcases hclash with hover | ⟨hid, heb⟩
    · have hfree := hopen.available b hb
      have hrowhost := hC.own y (List.mem_append_right _ (List.mem_cons_of_mem _ hy)) row hrow hrowid
      have hin := h.waiting row hrow ⟨y, List.mem_cons_of_mem _ hy, hrowid⟩
      have hconflict : b.conflicts (claimedByOthers t (c.target x).base.hostId (c.target x).id) = true := by
        refine conflicts_claimedByOthers.mpr ⟨row, hin, ?_, ?_, e, het, hey.trans hrowid.symm, hover⟩
        · rw [target_hostId, hrowhost]
        · rw [target_id, hrowid]
          exact hC.id_ne (.inr hy)
      rw [hconflict] at hfree
      cases hfree
    · have hparent := hopen.ids b hb hid e het heb
      rw [target_id, hey] at hparent
      exact hC.id_ne (.inr hy) hparent
  · intro hclash
    refine ⟨fun b hb => ?_, fun b hb hid e he heb => ?_⟩
    · rw [Bool.eq_false_iff, Ne, conflicts_claimedByOthers, target_hostId, target_id]
      rintro ⟨row, hrow, hhost, hrowid, e, he, hes, hover⟩
      rcases h.own row hrow hhost with ⟨y, hy, hwritten⟩ | ⟨-, y, hy, hrowy⟩
      · have hey : e ∈ t.bindingsOf y.id := Db.mem_bindingsOf.mpr ⟨he, by rw [hes, hwritten.id_eq]⟩
        rw [hport hy hb hey] at hover
        cases hover
      · rcases List.mem_cons.mp hy with rfl | hy
        · exact hrowid hrowy
        · have hey : e ∈ t.bindingsOf y.id := Db.mem_bindingsOf.mpr ⟨he, by rw [hes, hrowy]⟩
          exact hclash y hy ⟨b, hb, e, (hrest hy).mp hey, .inl hover⟩
    · rw [target_id]
      by_contra hother
      by_cases hforeign : ∀ y ∈ done ++ x :: rest, e.base.serviceId ≠ y.id
      · obtain ⟨hold, hhost⟩ := h.foreign e he hforeign
        obtain ⟨row, hrow, hrowid⟩ := hdb.hasService hold
        exact hhost row hrow hrowid
          (hC.ownBindings b (List.mem_flatMap.mpr ⟨x, hx, hb⟩) hid e hold heb row hrow hrowid)
      · simp only [not_forall, ne_eq, not_not] at hforeign
        obtain ⟨y, hy, hey⟩ := hforeign
        have hmem : e ∈ t.bindingsOf y.id := Db.mem_bindingsOf.mpr ⟨he, hey⟩
        rcases List.mem_append.mp hy with hy | hy
        · exact htaken hy hb hid hmem heb
        · rcases List.mem_cons.mp hy with rfl | hy
          · exact hother hey
          · exact hclash y hy ⟨b, hb, e, (hrest hy).mp hmem, .inr ⟨hid, heb⟩⟩

/-- A service to be saved is valid at any time. -/
theorem valid (h : c.Progress done (x :: rest) t) (hC : c.Consistent (done ++ x :: rest))
    (hdrawn : ((done ++ x :: rest).flatMap c.bindings).length < c.db.drawn.length) :
    ServiceService.Valid t (c.target x) := by
  have hx : x ∈ done ++ x :: rest := List.mem_append_right _ List.mem_cons_self
  have hlength : (done.flatMap c.bindings).length + (c.bindings x).length < c.db.drawn.length := by
    rw [List.flatMap_append, List.flatMap_cons, List.length_append, List.length_append] at hdrawn
    omega
  have hdraws := h.draws.length
  have hF := h.fresh
  obtain ⟨services, bindings, drawn, rfl⟩ := h.same
  constructor
  case noConflicts => exact hC.noConflicts x hx
  case onHost =>
    rw [target_hostId]
    exact hC.onHost x hx
  case references =>
    refine Bool.and_eq_true_iff.mpr ⟨?_, ?_⟩
    · rw [target_networkId]
      exact hC.network
    · rw [target_hostId]
      exact hC.host
  case distinct => exact hC.distinctIds hx
  case fresh =>
    refine ⟨hF.nodup, hF.nonnil, hF.unstored, fun id hid => hF.unknown id ?_⟩
    obtain ⟨b, hb, rfl⟩ := List.mem_map.mp hid
    exact List.mem_map_of_mem (List.mem_flatMap.mpr ⟨x, hx, hb⟩)
  case drawn =>
    have hlt : (c.bindings x).length < drawn.length := by
      have hdraws : c.db.drawn.length ≤ drawn.length + (done.flatMap c.bindings).length := hdraws
      omega
    exact hlt

end Progress

/-! ## Saving the services -/

/-- Saving what one input asks for, as the loop does. -/
def save (c : ServiceSync) (x : ServiceInput) (now : DateTime) : Store Service :=
  let service := x.intoService c.hostId c.networkId .manual now
  match c.found x with
  | some existing => ServiceService.update (service.preserveImmutableFields existing)
  | none => ServiceService.create service

theorem wp_save (h : c.Progress done (x :: rest) t) (hC : c.Consistent (done ++ x :: rest)) (hdb : c.db.Referential)
    (hD : c.Drawable (done ++ x :: rest)) :
    wp (c.save x t.now) (fun _ u => (∀ y ∈ rest, ¬ c.Clash x y) ∧ c.Progress (done ++ [x]) rest u)
      (fun _ _ => ¬ ∀ y ∈ rest, ¬ c.Clash x y) t := by
  have hx : x ∈ done ++ x :: rest := List.mem_append_right _ List.mem_cons_self
  have hvalid := h.valid hC hD.enough
  have hopen := h.open_iff hC hdb hD.fresh
  have hnow : t.now = c.db.now := by
    obtain ⟨services, bindings, drawn, rfl⟩ := h.same
    rfl
  rw [hnow]
  cases hfound : c.found x with
  | some existing =>
    obtain ⟨-, row, hrow, -, hrowid⟩ := found_eq_some hfound
    have htarget : c.target x =
        deduplicated ((x.intoService c.hostId c.networkId .manual c.db.now).preserveImmutableFields existing) := by
      rw [target, hfound]
      rfl
    have hstored : t.hasService x.id = true :=
      Db.hasService_iff.mpr ⟨row, h.waiting row hrow ⟨x, List.mem_cons_self, hrowid⟩, hrowid⟩
    have hupdate : wp (ServiceService.update
        ((x.intoService c.hostId c.networkId .manual c.db.now).preserveImmutableFields existing)) _ _ t :=
      ServiceService.wp_update_iff hstored (htarget ▸ hvalid)
    rw [← htarget] at hupdate
    simp only [save, hfound]
    refine hupdate.mono (fun s u ⟨hfree, hsaves, hdraws⟩ => ⟨hopen.mp hfree, ?_⟩) fun _ _ hnot hall =>
      hnot (hopen.mpr hall)
    exact h.step hC (show Saves t { c.target x with base.position := (c.target x).base.position }
      (some s) u from hsaves) hdraws
  | none =>
    have htarget : c.target x = deduplicated (x.intoService c.hostId c.networkId .manual c.db.now) := by
      rw [target, hfound]
      rfl
    have hnew : t.hasService x.id = false := by
      rw [Bool.eq_false_iff, Ne, Db.hasService_iff]
      rintro ⟨row, hrow, hrowid⟩
      by_cases hhost : row.base.hostId = c.hostId
      · rcases h.own row hrow hhost with ⟨y, hy, hwritten⟩ | ⟨hold, -⟩
        · exact hC.id_ne (.inl hy) (hwritten.id_eq.symm.trans hrowid)
        · exact found_eq_none hfound hold hhost hrowid
      · exact hhost (hC.own x hx row ((h.others row hhost).mp hrow) hrowid)
    have hcreate : wp (ServiceService.create (x.intoService c.hostId c.networkId .manual c.db.now)) _ _ t :=
      ServiceService.wp_create_iff hnew (hC.nonnil x hx) rfl (htarget ▸ hvalid)
    rw [← htarget] at hcreate
    simp only [save, hfound]
    refine hcreate.mono (fun s u ⟨hfree, hsaves, hdraws⟩ => ⟨hopen.mp hfree, ?_⟩) fun _ _ hnot hall =>
      hnot (hopen.mpr hall)
    exact h.step hC hsaves hdraws

/-- The services of the host that the list does not have. -/
def unlisted (c : ServiceSync) (inputs : List ServiceInput) : List Uuid :=
  (c.existing.map Service.id).filter fun id => !(inputs.map ServiceInput.id).contains id

theorem mem_unlisted {id : Uuid} : id ∈ c.unlisted inputs ↔
    (∃ s ∈ c.db.services.rows, s.base.hostId = c.hostId ∧ s.id = id) ∧ ∀ y ∈ inputs, id ≠ y.id := by
  have hexisting : id ∈ c.existing.map Service.id ↔ ∃ s ∈ c.db.services.rows, s.base.hostId = c.hostId ∧
      s.id = id := by
    rw [List.mem_map]
    constructor
    · rintro ⟨_, hs, rfl⟩
      obtain ⟨row, hrow, hhost, rfl⟩ := Db.mem_servicesOf.mp hs
      exact ⟨row, hrow, hhost, rfl⟩
    · rintro ⟨row, hrow, hhost, rfl⟩
      exact ⟨c.db.hydrate row, Db.mem_servicesOf.mpr ⟨row, hrow, hhost, rfl⟩, rfl⟩
  rw [unlisted, List.mem_filter, hexisting]
  refine and_congr_right fun _ => ?_
  simp only [Bool.not_eq_true', List.contains_eq_mem, decide_eq_false_iff_not, List.mem_map, not_exists, not_and]
  exact forall₂_congr fun y _ => ne_comm

/-- No service is saved yet, and those that are not asked for are gone. -/
theorem Progress.start (hF : c.db.Fresh ((inputs.flatMap c.bindings).map (·.id)))
    (hsame : ∃ services bindings, t = { c.db with services, bindings })
    (hservices : ∀ s, s ∈ t.services.rows ↔ s ∈ c.db.services.rows ∧ s.id ∉ c.unlisted inputs)
    (hbindings : ∀ b, b ∈ t.bindings.rows ↔ b ∈ c.db.bindings.rows ∧ b.base.serviceId ∉ c.unlisted inputs) :
    c.Progress [] inputs t := by
  have hlisted {y : ServiceInput} (hy : y ∈ inputs) {id : Uuid} (hid : id = y.id) : id ∉ c.unlisted inputs :=
    fun hmem => (mem_unlisted.mp hmem).2 y hy hid
  obtain ⟨services, bindings, rfl⟩ := hsame
  constructor
  case same => exact ⟨services, bindings, c.db.drawn, rfl⟩
  case draws => exact .of_drawn_eq rfl
  case fresh => exact ⟨hF.nodup, hF.nonnil, fun b hb => hF.unstored b ((hbindings b).mp hb).1, hF.unknown⟩
  case others =>
    intro s hs
    refine (hservices s).trans (and_iff_left_of_imp fun hmem hgone => ?_)
    obtain ⟨row, hrow, hhost, hid⟩ := (mem_unlisted.mp hgone).1
    exact hs (c.db.services.eq_of_key hrow hmem hid ▸ hhost)
  case own =>
    intro s hs hhost
    obtain ⟨hold, hstays⟩ := (hservices s).mp hs
    refine .inr ⟨hold, ?_⟩
    by_contra hnone
    exact hstays (mem_unlisted.mpr ⟨⟨s, hold, hhost, rfl⟩, fun y hy heq => hnone ⟨y, hy, heq⟩⟩)
  case saved => exact fun y hy => nomatch hy
  case waiting =>
    rintro s hs ⟨y, hy, hsy⟩
    exact (hservices s).mpr ⟨hs, hlisted hy hsy⟩
  case types => exact fun y hy => nomatch hy
  case ids => exact fun y hy => nomatch hy
  case unsaved =>
    intro y hy b hb
    exact (hbindings b).trans (and_iff_left (hlisted hy hb))
  case foreign =>
    intro b hb hforeign
    obtain ⟨hold, hstays⟩ := (hbindings b).mp hb
    refine ⟨hold, fun s hs hid hhost => hstays (mem_unlisted.mpr ⟨⟨s, hs, hhost, hid⟩, hforeign⟩)⟩

theorem Progress.reached (h : c.Progress inputs [] t) : c.Reached inputs t where
  others := h.others
  services s hs hhost := (h.own s hs hhost).resolve_right fun ⟨_, _, hy, _⟩ => nomatch hy
  all := h.saved
  bindings := h.types

/-- The services of the list are saved in its order, exactly if none has a clash with one after it. -/
theorem wp_saveAll (hC : c.Consistent inputs) (hdb : c.db.Referential) (hD : c.Drawable inputs)
    (h : c.Progress [] inputs t) :
    wp (inputs.mapM fun x => Db.now <$> get >>= c.save x)
      (fun _ u => inputs.Pairwise (fun x y => ¬ c.Clash x y) ∧ c.Reached inputs u)
      (fun _ _ => ¬ inputs.Pairwise fun x y => ¬ c.Clash x y) t := by
  refine (Program.wp_mapM_pairwise (I := fun done rest t => done ++ rest = inputs ∧ c.Progress done rest t)
    (fun done x rest t ⟨hl, ht⟩ => ?_) ⟨List.nil_append inputs, h⟩).mono
    (fun _ u ⟨hpair, _, hu⟩ => ⟨hpair, hu.reached⟩) fun _ _ hnot => hnot
  subst hl
  refine (wp_save ht hC hdb hD).mono (fun _ u ⟨hfirst, hu⟩ => ⟨hfirst, ?_, hu⟩) fun _ _ hnot => hnot
  exact (List.append_cons done x rest).symm

end ServiceSync

end Netvisor
