/-
No request touches what another tenant has, in whatever order the statements of
all requests are issued.

A request checks what it read, and writes by id later. What the id names may
have been deleted and created again by then, or moved. As long as every id is
for one region only, whatever is touched by a request is in a region of its
caller: in his organization, if his networks are and no organization takes an
id that another one had; in one of his networks, if nothing is moved from
network to network. This is about the kinds of entities whose endpoints and
services are the generic ones.
-/
import Netvisor.Crud.Handlers
import Netvisor.Lib.Rely

namespace Netvisor

open Process (Secures fail query statement secures_bind secures_query secures_statement)
open Program (after wp)
open Validation
open Transition (Visits)

variable {T ρ : Type} {c : CrudHandlers T}

/-! ## Regions -/

/-- Regions that entities are in and callers may act in, and the region that each id is for. -/
structure Border (c : CrudHandlers T) (ρ : Type) where
  region : T → ρ
  may : AuthenticatedEntity → ρ → Prop
  home : Uuid → ρ

namespace Border

variable (b : Border c ρ)

/-- The entity is where its id is for. -/
def Settled (entity : T) : Prop := b.region entity = b.home (c.id entity)

def Home (s : CrudStore c) : Prop := ∀ r ∈ s.table.rows, b.Settled r

/-- Whatever was touched was in a region of the caller. -/
def Kept (s : CrudStore c) : Prop := ∀ t ∈ s.touched, b.may t.caller (b.region t.entity)

/-- The checks let a caller through to his regions only. -/
structure Admits (caller : AuthenticatedEntity) : Prop where
  access : ∀ {organizationId entity}, caller.organizationId = some organizationId →
    validateAccess (c.networkId entity) (c.organizationId entity) caller.networkIds organizationId = .ok () →
    b.may caller (b.region entity)
  base : ∀ {organizationId entity}, caller.organizationId = some organizationId → b.Settled entity →
    c.base caller organizationId entity = true → b.may caller (b.region entity)

/-- The request takes no id for another region than the id is for. -/
def Respects (caller : AuthenticatedEntity) : CrudRequest T → Prop
  | .create entity drawn now => ∀ organizationId, caller.organizationId = some organizationId →
    b.may caller (b.region (c.setManual entity)) →
    b.Settled (c.orNew drawn now (c.setManual entity)) ∧
      b.may caller (b.region (c.orNew drawn now (c.setManual entity)))
  | .update id entity => ∀ existing, c.id existing = id → b.Settled existing → b.may caller (b.region existing) →
    b.may caller (b.region (c.edited existing entity)) → b.Settled (c.edited existing entity)
  | _ => True

/-- What a statement does, in regions of its caller. -/
def Does : CrudStatement T → CrudStore c → CrudStore c → Prop
  | .query, s, t => t = s
  | .insert caller entity, s, t =>
    b.Settled entity ∧ b.may caller (b.region entity) ∧
      (t = s ∨ ∃ table, s.table.insert entity = some table ∧ t = ({ s with table }.touch caller [entity]))
  | .update caller entity, s, t =>
    b.Settled entity ∧ b.may caller (b.region entity) ∧
      (t = s ∨ t = ({ s with table := s.table.update entity }).touch caller (entity :: s.named [c.id entity]))
  | .delete caller ids, s, t => (∀ id ∈ ids, b.may caller (b.home id)) ∧ t = s.delete caller ids
  | .respond caller entities, s, t =>
    (∀ entity ∈ entities, b.may caller (b.region entity)) ∧ t = s.touch caller entities

/-- What requests rely on. -/
def Rely (s t : CrudStore c) : Prop := b.Home s → b.Home t

variable {b} {s t : CrudStore c} {caller : AuthenticatedEntity} {entity : T} {ids : List Uuid}

/-! ## Statements -/

theorem mem_named {r : T} : r ∈ s.named ids ↔ r ∈ s.table.rows ∧ c.id r ∈ ids := by
  simp [CrudStore.named]

theorem Kept.touch {entities : List T} (h : b.Kept s) (hmay : ∀ entity ∈ entities, b.may caller (b.region entity)) :
    b.Kept (s.touch caller entities) := by
  intro t ht
  rcases List.mem_append.mp ht with ht | ht
  · obtain ⟨entity, hentity, rfl⟩ := List.mem_map.mp ht
    exact hmay entity hentity
  · exact h t ht

/-- What a statement writes stays where its id is for. -/
theorem Does.home {label : CrudStatement T} (h : b.Does label s t) : b.Rely s t := by
  intro hhome
  cases label with
  | query =>
    cases h
    exact hhome
  | insert caller entity =>
    obtain ⟨hsettled, -, rfl | ⟨table, hinsert, rfl⟩⟩ := h
    · exact hhome
    · intro r hr
      by_cases heq : r = entity
      · rw [heq]
        exact hsettled
      · exact hhome r ((Table.mem_insert_of_ne hinsert heq).mp hr)
  | update caller entity =>
    obtain ⟨hsettled, -, rfl | rfl⟩ := h
    · exact hhome
    · intro r hr
      rcases Table.mem_update.mp hr with ⟨rfl, -⟩ | ⟨hr, -⟩
      · exact hsettled
      · exact hhome r hr
  | delete caller ids =>
    obtain ⟨-, rfl⟩ := h
    intro r hr
    exact hhome r (Table.mem_filter.mp hr).1
  | respond caller entities =>
    obtain ⟨-, rfl⟩ := h
    exact hhome

theorem Does.kept {label : CrudStatement T} (h : b.Does label s t) (hhome : b.Home s) (hkept : b.Kept s) :
    b.Kept t := by
  cases label with
  | query =>
    cases h
    exact hkept
  | insert caller entity =>
    obtain ⟨-, hmay, rfl | ⟨table, -, rfl⟩⟩ := h
    · exact hkept
    · exact Kept.touch (s := { s with table }) hkept (List.forall_mem_singleton.mpr hmay)
  | update caller entity =>
    obtain ⟨hsettled, hmay, rfl | rfl⟩ := h
    · exact hkept
    · refine Kept.touch (s := { s with table := s.table.update entity }) hkept ?_
      rw [List.forall_mem_cons]
      refine ⟨hmay, fun r hr => ?_⟩
      obtain ⟨hr, hid⟩ := mem_named.mp hr
      rw [hhome r hr, List.mem_singleton.mp hid, ← hsettled]
      exact hmay
  | delete caller ids =>
    obtain ⟨hmay, rfl⟩ := h
    refine Kept.touch (s := { s with table := _ }) hkept fun r hr => ?_
    obtain ⟨hr, hid⟩ := mem_named.mp hr
    rw [hhome r hr]
    exact hmay _ hid
  | respond caller entities =>
    obtain ⟨hmay, rfl⟩ := h
    exact hkept.touch hmay

theorem ok_of_seq {ε : Type} {p q : Except ε Unit} (h : (p >>= fun _ => q) = .ok ()) : p = .ok () ∧ q = .ok () := by
  cases p with
  | ok _ => exact ⟨rfl, h⟩
  | error e => cases h

/-! ## Parts of a request -/

variable {α : Type} {Q : α → CrudStore c → Prop}

/-- The statements of a process stay in regions of their callers. -/
abbrev Stays (b : Border c ρ) (Q : α → CrudStore c → Prop) (p : c.CrudProcess α) (s : CrudStore c) : Prop :=
  Secures b.Rely b.Does Q (fun _ _ => True) p s

theorem stays_authorized {Q : Unit → CrudStore c → Prop} {p : PermissionRequirement} (h : Q () s) :
    b.Stays Q (c.authorized p caller) s := by
  rw [CrudHandlers.authorized]
  split
  · trivial
  · exact h

theorem stays_check {Q : Unit → CrudStore c → Prop} {result : Except ApiError Unit} (h : result = .ok () → Q () s) :
    b.Stays Q (c.check result) s := by
  cases result with
  | ok a => exact h rfl
  | error e => trivial

theorem stays_checks {Q : Unit → CrudStore c → Prop} {entities : List T} {result : T → Except ApiError Unit}
    (h : (∀ entity ∈ entities, result entity = .ok ()) → Q () s) :
    b.Stays Q (entities.forM fun entity => c.check (result entity)) s := by
  induction entities with
  | nil => exact h fun _ hentity => (by cases hentity)
  | cons entity entities ih =>
    rw [List.forM, Stays, secures_bind]
    refine stays_check fun hfirst => ih fun hrest => h ?_
    rw [List.forall_mem_cons]
    exact ⟨hfirst, hrest⟩

theorem stays_organization {Q : Uuid → CrudStore c → Prop}
    (h : ∀ organizationId, caller.organizationId = some organizationId → Q organizationId s) :
    b.Stays Q (c.organization caller) s := by
  rw [CrudHandlers.organization]
  split
  · next heq => exact h _ heq
  · trivial

theorem stays_validateEntity {Q : Unit → CrudStore c → Prop} (h : Q () s) : b.Stays Q (c.validateEntity entity) s := by
  rw [CrudHandlers.validateEntity]
  split
  · exact h
  · trivial

/-- What is read is where its id is for. -/
theorem stays_query {f : CrudStore c → α} (hs : b.Home s) (h : ∀ t, b.Home t → Q (f t) t) :
    b.Stays Q (query .query f) s :=
  secures_query.mpr fun t ht => ⟨rfl, h t (ht hs)⟩

theorem stays_getById {Q : Option T → CrudStore c → Prop} {id : Uuid} (hs : b.Home s)
    (h : ∀ t, b.Home t → ∀ found, (∀ r ∈ found, c.id r = id ∧ b.Settled r) → Q found t) :
    b.Stays Q (c.getById id) s :=
  stays_query hs fun t ht => h t ht _ fun r hr => by
    obtain ⟨hr, hid⟩ := Table.get_eq_some.mp hr
    exact ⟨hid, ht r hr⟩

/-- What comes after a write does not depend on it. -/
theorem stays_statement {label : CrudStatement T} {q : EStateM ApiError (CrudStore c) α}
    (hdoes : ∀ t, wp q (fun _ t' => b.Does label t t') (fun _ t' => b.Does label t t') t) (h : ∀ a t, Q a t) :
    b.Stays Q (statement label q) s :=
  secures_statement.mpr fun t _ =>
    ⟨Program.wp_after.mp (hdoes t), (hdoes t).mono (fun a t' _ => h a t') fun _ _ _ => trivial⟩

theorem stays_respond {Q : Unit → CrudStore c → Prop} {entities : List T}
    (hmay : ∀ entity ∈ entities, b.may caller (b.region entity)) (h : ∀ t, Q () t) :
    b.Stays Q (c.respond caller entities) s :=
  stays_statement (fun _ => ⟨hmay, rfl⟩) fun _ => h

theorem stays_insert {Q : Unit → CrudStore c → Prop} (hsettled : b.Settled entity)
    (hmay : b.may caller (b.region entity)) (h : ∀ t, Q () t) :
    b.Stays Q (statement (.insert caller entity) (CrudStore.insert caller entity)) s := by
  refine stays_statement (fun t => ?_) fun _ => h
  simp only [CrudStore.insert, Program.wp_bind, Program.wp_get]
  split
  · exact ⟨hsettled, hmay, .inl rfl⟩
  · exact ⟨hsettled, hmay, .inl rfl⟩
  · next table hinsert _ => exact ⟨hsettled, hmay, .inr ⟨table, hinsert, rfl⟩⟩

theorem stays_update {Q : Unit → CrudStore c → Prop} (hsettled : b.Settled entity)
    (hmay : b.may caller (b.region entity)) (h : ∀ t, Q () t) :
    b.Stays Q (statement (.update caller entity) (CrudStore.update caller entity)) s := by
  refine stays_statement (fun t => ?_) fun _ => h
  simp only [CrudStore.update, Program.wp_bind, Program.wp_get]
  split
  · exact ⟨hsettled, hmay, .inl rfl⟩
  · split
    · exact ⟨hsettled, hmay, .inl rfl⟩
    · exact ⟨hsettled, hmay, .inr rfl⟩

theorem stays_delete {Q : Unit → CrudStore c → Prop} (hmay : ∀ id ∈ ids, b.may caller (b.home id)) (h : ∀ t, Q () t) :
    b.Stays Q (statement (.delete caller ids) (modify fun s => s.delete caller ids)) s :=
  stays_statement (fun _ => ⟨hmay, rfl⟩) fun _ => h

/-! ## Requests -/

theorem stays_createHandler (hadmits : b.Admits caller) {drawn : Uuid} {now : DateTime}
    (hrespects : b.Respects caller (.create entity drawn now)) :
    b.Stays (fun _ _ => True) (c.createHandler caller entity drawn now) s := by
  rw [CrudHandlers.createHandler, Stays, secures_bind]
  refine stays_authorized ?_
  rw [secures_bind]
  refine stays_validateEntity ?_
  rw [secures_bind]
  refine stays_organization fun organizationId horganization => ?_
  rw [secures_bind]
  refine stays_check fun haccess => ?_
  obtain ⟨hsettled, hmay⟩ := hrespects organizationId horganization (hadmits.access horganization haccess)
  rw [secures_bind]
  refine stays_insert hsettled hmay fun t => ?_
  exact stays_respond (List.forall_mem_singleton.mpr hmay) fun _ => trivial

theorem mem_select {q : ListQuery T} {rows : List T} {r : T} (h : r ∈ q.select rows) : r ∈ rows := by
  have hfiltered : r ∈ (q.order (rows.filter q.keep)).drop q.offset := by
    unfold ListQuery.select at h
    split at h
    · exact List.mem_of_mem_take h
    · exact h
  exact List.mem_of_mem_filter ((q.order_perm _).mem_iff.mp (List.mem_of_mem_drop hfiltered))

theorem stays_getAllHandler (hadmits : b.Admits caller) (hs : b.Home s) (q : ListQuery T) :
    b.Stays (fun _ _ => True) (c.getAllHandler caller q) s := by
  rw [CrudHandlers.getAllHandler, Stays, secures_bind]
  refine stays_authorized ?_
  rw [secures_bind]
  refine stays_organization fun organizationId horganization => ?_
  rw [secures_bind]
  refine stays_query hs fun t ht => stays_respond (fun r hr => ?_) fun _ => trivial
  obtain ⟨hr, hbase⟩ := List.mem_filter.mp (mem_select hr)
  exact hadmits.base horganization (ht r hr) hbase

theorem stays_getByIdHandler (hadmits : b.Admits caller) (hs : b.Home s) (id : Uuid) :
    b.Stays (fun _ _ => True) (c.getByIdHandler caller id) s := by
  rw [CrudHandlers.getByIdHandler, Stays, secures_bind]
  refine stays_authorized ?_
  rw [secures_bind]
  refine stays_organization fun organizationId horganization => ?_
  rw [secures_bind]
  refine stays_getById hs fun t ht found hfound => ?_
  cases found with
  | none => trivial
  | some entity =>
    rw [secures_bind]
    refine stays_check fun haccess => ?_
    exact stays_respond (List.forall_mem_singleton.mpr (hadmits.access horganization haccess)) fun _ => trivial

theorem stays_save {Q : Unit → CrudStore c → Prop} (hs : b.Home s) (hsettled : b.Settled entity)
    (hmay : b.may caller (b.region entity)) (h : ∀ t, Q () t) : b.Stays Q (c.save caller entity) s := by
  rw [CrudHandlers.save, Stays, secures_bind]
  refine stays_getById hs fun t _ found _ => ?_
  cases found with
  | none => trivial
  | some _ => exact stays_update hsettled hmay h

theorem stays_updateHandler (hadmits : b.Admits caller) (hs : b.Home s) {id : Uuid}
    (hrespects : b.Respects caller (.update id entity)) :
    b.Stays (fun _ _ => True) (c.updateHandler caller id entity) s := by
  rw [CrudHandlers.updateHandler, Stays, secures_bind]
  refine stays_authorized ?_
  rw [secures_bind]
  refine stays_organization fun organizationId horganization => ?_
  rw [secures_bind]
  refine stays_getById hs fun t ht found hfound => ?_
  cases found with
  | none => trivial
  | some existing =>
    obtain ⟨hid, hexisting⟩ := hfound existing rfl
    rw [secures_bind]
    refine stays_validateEntity ?_
    rw [secures_bind]
    refine stays_check fun haccess => ?_
    obtain ⟨hold, hnew⟩ := ok_of_seq haccess
    have hmay := hadmits.access horganization hnew
    have hsettled := hrespects existing hid hexisting (hadmits.access horganization hold) hmay
    rw [secures_bind]
    refine stays_save ht hsettled hmay fun t => ?_
    exact stays_respond (List.forall_mem_singleton.mpr hmay) fun _ => trivial

theorem stays_deleteHandler (hadmits : b.Admits caller) (hs : b.Home s) (id : Uuid) :
    b.Stays (fun _ _ => True) (c.deleteHandler caller id) s := by
  rw [CrudHandlers.deleteHandler, Stays, secures_bind]
  refine stays_authorized ?_
  rw [secures_bind]
  refine stays_organization fun organizationId horganization => ?_
  rw [secures_bind]
  refine stays_getById hs fun t ht found hfound => ?_
  cases found with
  | none => trivial
  | some existing =>
    obtain ⟨hid, hexisting⟩ := hfound existing rfl
    rw [secures_bind]
    refine stays_check fun haccess => ?_
    have hmay : b.may caller (b.home id) := by
      rw [← hid, ← hexisting]
      exact hadmits.access horganization haccess
    rw [CrudHandlers.deleteById, secures_bind]
    refine stays_getById ht fun t _ found _ => ?_
    cases found with
    | none => trivial
    | some _ => exact stays_delete (List.forall_mem_singleton.mpr hmay) fun _ => trivial

theorem stays_deleteMany (hs : b.Home s) (hmay : ∀ id ∈ ids, b.may caller (b.home id)) :
    b.Stays (fun _ _ => True) (c.deleteMany caller ids) s := by
  rw [CrudHandlers.deleteMany, Stays]
  split
  · trivial
  · rw [secures_bind]
    refine (Process.secures_forM (I := b.Home) (fun id _ t ht => ?_) hs).mono (fun _ t _ => ?_) fun _ _ h => h
    · rw [secures_bind]
      exact stays_getById ht fun t ht _ _ => ht
    · exact stays_delete hmay fun _ => trivial

theorem stays_bulkDeleteHandler (hadmits : b.Admits caller) (hs : b.Home s) (ids : List Uuid) :
    b.Stays (fun _ _ => True) (c.bulkDeleteHandler caller ids) s := by
  rw [CrudHandlers.bulkDeleteHandler, Stays, secures_bind]
  refine stays_authorized ?_
  split
  · trivial
  · rw [secures_bind]
    refine stays_organization fun organizationId horganization => ?_
    rw [secures_bind]
    refine stays_query hs fun t ht => ?_
    rw [secures_bind]
    refine stays_checks fun haccess => stays_deleteMany ht fun id hid => ?_
    obtain ⟨entity, hentity, rfl⟩ := List.mem_map.mp hid
    rw [← ht entity (mem_named.mp hentity).1]
    exact hadmits.access horganization (haccess entity hentity)

theorem stays_handle (hadmits : b.Admits caller) (hs : b.Home s) (r : CrudRequest T) (hrespects : b.Respects caller r) :
    b.Stays (fun _ _ => True) (c.handle caller r) s := by
  cases r with
  | create entity drawn now => exact stays_createHandler hadmits hrespects
  | getAll q => exact stays_getAllHandler hadmits hs q
  | getById id => exact stays_getByIdHandler hadmits hs id
  | update id entity => exact stays_updateHandler hadmits hs hrespects
  | delete id => exact stays_deleteHandler hadmits hs id
  | bulkDelete ids => exact stays_bulkDeleteHandler hadmits hs ids

/-! ## Runs -/

variable {P : AuthenticatedEntity × CrudRequest T → Prop}

theorem relies (hP : ∀ r, P r → b.Admits r.1 ∧ b.Respects r.1 r.2) :
    Pool.Relies (c.start P) c.still b.Rely b.Does b.Home where
  refl _ hs := hs
  trans hst htu hs := htu (hst hs)
  stmt h := h.home
  other e := e.elim
  stable hs hst := hst hs
  start _ r _ hs := stays_handle (hP _ r.property).1 hs r.val.2 (hP _ r.property).2

/-- Along every run, what a request touches is in a region of its caller. -/
theorem kept (hP : ∀ r, P r → b.Admits r.1 ∧ b.Respects r.1 r.2) (hs : b.Home s) (hkept : b.Kept s)
    (as : List (Pool.Action { r // P r } Empty)) :
    Visits (Pool.step (c.start P) c.still) (fun p => b.Kept p.state) { state := s } as :=
  (relies hP).visits_of_keeps (fun _ _ _ hI hkept hdoes => hdoes.kept hI hkept) (fun e => e.elim) hs hkept as

end Border

namespace CrudHandlers

open Border

variable {owner home : Uuid → Uuid} {s : CrudStore c} {caller : AuthenticatedEntity} {entity : T}

theorem of_validateAccess {networkId organizationId : Option Uuid} {userNetworkIds : List Uuid}
    {userOrganizationId : Uuid}
    (h : validateAccess networkId organizationId userNetworkIds userOrganizationId = .ok ()) :
    (∀ id ∈ networkId, id ∈ userNetworkIds) ∧ ∀ id ∈ organizationId, id = userOrganizationId := by
  obtain ⟨hnetwork, horganization⟩ := ok_of_seq h
  constructor
  · rintro id rfl
    simp only [validateNetworkAccess] at hnetwork
    split at hnetwork
    · next hcontains => exact List.contains_iff_mem.mp hcontains
    · cases hnetwork
  · rintro id rfl
    simp only [validateOrganizationAccess] at horganization
    split at horganization
    · next heq => exact heq
    · cases horganization

theorem id_edited (existing entity : T) : c.id (c.edited existing entity) = c.id existing :=
  c.id_preserve existing entity

/-! ## Organizations -/

/-- The organization that an entity is in, with who owns the networks. -/
def organizationOf (c : CrudHandlers T) (owner : Uuid → Uuid) (entity : T) : Option Uuid :=
  match c.networkId entity with
  | some networkId => some (owner networkId)
  | none => c.organizationId entity

/-- What an organization does with its own networks only, and with ids that no other one had. That a caller has no
networks of another organization is not ensured: an admin's update of a user gives any networks that are stored. -/
structure Tenant (c : CrudHandlers T) (owner home : Uuid → Uuid) (r : AuthenticatedEntity × CrudRequest T) : Prop where
  networks : ∀ organizationId ∈ r.1.organizationId, ∀ networkId ∈ r.1.networkIds, owner networkId = organizationId
  ids : ∀ entity drawn now, r.2 = .create entity drawn now →
    ∀ organizationId ∈ r.1.organizationId, home (c.id (c.orNew drawn now (c.setManual entity))) = organizationId

/-- `T::new` leaves it where it belongs. -/
def StampKeeps (c : CrudHandlers T) : Prop :=
  ∀ id now entity, c.networkId (c.stamp id now entity) = c.networkId entity ∧
    c.organizationId (c.stamp id now entity) = c.organizationId entity

/-- An id is for the organization that has it. -/
def organizations (c : CrudHandlers T) (owner home : Uuid → Uuid) : Border c (Option Uuid) where
  region := c.organizationOf owner
  may caller organizationId := caller.organizationId = organizationId
  home id := some (home id)

theorem StampKeeps.orNew (h : c.StampKeeps) (entity : T) (drawn : Uuid) (now : DateTime) :
    c.networkId (c.orNew drawn now entity) = c.networkId entity ∧
      c.organizationId (c.orNew drawn now entity) = c.organizationId entity := by
  rw [CrudHandlers.orNew]
  split
  · exact h drawn now entity
  · exact ⟨rfl, rfl⟩

theorem organizationOf_of_networkId {networkId : Uuid} (h : c.networkId entity = some networkId) :
    c.organizationOf owner entity = some (owner networkId) := by
  rw [organizationOf, h]

theorem organizationOf_of_organization (h : c.isNetworkKeyed = false) :
    c.organizationOf owner entity = c.organizationId entity := by
  have hnone := c.networkId_isSome entity
  rw [h, Option.isSome_eq_false_iff, Option.isNone_iff_eq_none] at hnone
  rw [organizationOf, hnone]

theorem organizationId_isSome_of (entity : T) (h : c.isNetworkKeyed = false) : (c.organizationId entity).isSome := by
  rw [c.organizationId_isSome, h]
  rfl

theorem admits_organizations (hnetworks : c.tableName = "networks" → home = owner)
    (h : ∀ organizationId ∈ caller.organizationId, ∀ networkId ∈ caller.networkIds, owner networkId = organizationId) :
    (c.organizations owner home).Admits caller where
  access := by
    intro organizationId entity horganization haccess
    obtain ⟨hnetwork, heq⟩ := of_validateAccess haccess
    change caller.organizationId = c.organizationOf owner entity
    cases hkeyed : c.networkId entity with
    | some networkId =>
      rw [organizationOf_of_networkId hkeyed, h _ horganization networkId (hnetwork networkId hkeyed), horganization]
    | none =>
      have hfalse : c.isNetworkKeyed = false := by
        rw [← c.networkId_isSome entity, hkeyed]
        rfl
      obtain ⟨id, hid⟩ := Option.isSome_iff_exists.mp (organizationId_isSome_of entity hfalse)
      rw [organizationOf_of_organization hfalse, hid, heq id hid, horganization]
  base := by
    intro organizationId entity horganization hsettled hbase
    change caller.organizationId = c.organizationOf owner entity
    simp only [CrudHandlers.base] at hbase
    split at hbase
    · obtain ⟨networkId, hkeyed, hcontains⟩ := (Option.any_eq_true _ _).mp hbase
      rw [organizationOf_of_networkId hkeyed, h _ horganization networkId (List.contains_iff_mem.mp hcontains),
        horganization]
    · next hkeyed =>
      split at hbase
      · next hname =>
        have hhome : c.organizationOf owner entity = some (home (c.id entity)) := hsettled
        rw [hhome, hnetworks hname, h _ horganization _ (List.contains_iff_mem.mp hbase), horganization]
      · rw [organizationOf_of_organization (Bool.not_eq_true _ ▸ hkeyed), horganization]
        exact (beq_iff_eq.mp hbase).symm

theorem respects_organizations (hstamp : c.StampKeeps) {r : CrudRequest T} (h : c.Tenant owner home (caller, r)) :
    (c.organizations owner home).Respects caller r := by
  cases r with
  | create entity drawn now =>
    intro organizationId horganization hmay
    obtain ⟨hnetwork, horg⟩ := hstamp.orNew (c.setManual entity) drawn now
    have hregion : c.organizationOf owner (c.orNew drawn now (c.setManual entity)) =
        c.organizationOf owner (c.setManual entity) := by
      simp only [organizationOf, hnetwork, horg]
    have hhome := h.ids entity drawn now rfl organizationId horganization
    have hcaller : caller.organizationId = c.organizationOf owner (c.setManual entity) := hmay
    constructor
    · change c.organizationOf owner _ = some (home _)
      rw [hregion, ← hcaller, hhome, horganization]
    · exact hcaller.trans hregion.symm
  | update id entity =>
    intro existing _ hsettled hold hnew
    have hhome : c.organizationOf owner existing = some (home (c.id existing)) := hsettled
    change c.organizationOf owner (c.edited existing entity) = some (home (c.id (c.edited existing entity)))
    rw [id_edited, ← hhome]
    exact hnew.symm.trans hold
  | getAll q => trivial
  | getById id => trivial
  | delete id => trivial
  | bulkDelete ids => trivial

/-- In every order of the statements of all requests, whatever a request shows, writes, replaces or deletes is in the
organization of its caller. -/
theorem organizations_apart (hstamp : c.StampKeeps) (hnetworks : c.tableName = "networks" → home = owner)
    (hs : ∀ r ∈ s.table.rows, c.organizationOf owner r = some (home (c.id r))) (hfresh : s.touched = [])
    (as : List (Pool.Action { r // c.Tenant owner home r } Empty)) :
    Visits (Pool.step (c.start (c.Tenant owner home)) c.still)
      (fun p => ∀ t ∈ p.state.touched, t.caller.organizationId = c.organizationOf owner t.entity) { state := s } as :=
  kept (b := c.organizations owner home)
    (fun _ h => ⟨admits_organizations hnetworks h.networks, respects_organizations hstamp h⟩) hs
    (by simp [Border.Kept, hfresh]) as

/-! ## Networks -/

/-- The request leaves every id to the network that it is for. -/
def Stationary (c : CrudHandlers T) (home : Uuid → Uuid) (r : AuthenticatedEntity × CrudRequest T) : Prop :=
  match r.2 with
  | .create entity drawn now =>
    c.networkId (c.setManual entity) = some (home (c.id (c.orNew drawn now (c.setManual entity))))
  | .update id entity => ∀ existing, c.id existing = id → c.networkId (c.edited existing entity) = some (home id)
  | _ => True

/-- An id is for one network. -/
def networks (c : CrudHandlers T) (home : Uuid → Uuid) : Border c (Option Uuid) where
  region := c.networkId
  may caller networkId := ∃ id ∈ caller.networkIds, networkId = some id
  home id := some (home id)

theorem admits_networks (hkeyed : c.isNetworkKeyed = true) : (c.networks home).Admits caller where
  access := by
    intro organizationId entity _ haccess
    obtain ⟨hnetwork, -⟩ := of_validateAccess haccess
    obtain ⟨id, hid⟩ := Option.isSome_iff_exists.mp ((c.networkId_isSome entity).trans hkeyed)
    exact ⟨id, hnetwork id hid, hid⟩
  base := by
    intro organizationId entity _ _ hbase
    rw [CrudHandlers.base, if_pos hkeyed] at hbase
    obtain ⟨id, hid, hcontains⟩ := (Option.any_eq_true _ _).mp hbase
    exact ⟨id, List.contains_iff_mem.mp hcontains, hid⟩

theorem respects_networks (hstamp : c.StampKeeps) {r : CrudRequest T} (h : c.Stationary home (caller, r)) :
    (c.networks home).Respects caller r := by
  cases r with
  | create entity drawn now =>
    rintro organizationId - ⟨id, hid, heq⟩
    obtain ⟨hnetwork, -⟩ := hstamp.orNew (c.setManual entity) drawn now
    exact ⟨hnetwork.trans h, id, hid, hnetwork.trans heq⟩
  | update id entity =>
    intro existing hid _ _ _
    change c.networkId (c.edited existing entity) = some (home (c.id (c.edited existing entity)))
    rw [id_edited, hid]
    exact h existing hid
  | getAll q => trivial
  | getById id => trivial
  | delete id => trivial
  | bulkDelete ids => trivial

/-- As long as no entity is moved to another network, whatever a request shows, writes, replaces or deletes is in a
network that its caller may access. -/
theorem networks_apart (hkeyed : c.isNetworkKeyed = true) (hstamp : c.StampKeeps)
    (hs : ∀ r ∈ s.table.rows, c.networkId r = some (home (c.id r))) (hfresh : s.touched = [])
    (as : List (Pool.Action { r // c.Stationary home r } Empty)) :
    Visits (Pool.step (c.start (c.Stationary home)) c.still)
      (fun p => ∀ t ∈ p.state.touched, ∃ id ∈ t.caller.networkIds, c.networkId t.entity = some id)
      { state := s } as :=
  kept (b := c.networks home) (fun _ h => ⟨admits_networks hkeyed, respects_networks hstamp h⟩) hs
    (by simp [Border.Kept, hfresh]) as

section TwoTenants

private def portOf (id networkId : Uuid) : Port := { id, base := { hostId := id, networkId } }

private def portEach : CrudStore Port.crud := { table := { rows := [portOf 1 10, portOf 2 20], nodup := by decide } }

private def networkFor (id : Uuid) : Uuid := if id = 1 then 10 else 20

private def ownerOf (networkId : Uuid) : Uuid := if networkId = 10 then 100 else 200

private def organizationFor (id : Uuid) : Uuid := ownerOf (networkFor id)

private def memberOf (organizationId networkId : Uuid) : AuthenticatedEntity :=
  .user 3 organizationId .member [networkId] true

/-- Both requests are under way at once. -/
private def atOnce {P : AuthenticatedEntity × CrudRequest Port → Prop} (first second : { r // P r }) :
    List (Pool.Action { r // P r } Empty) :=
  [.request first, .request second] ++ (List.replicate 4 [.issue 0, .issue 1]).flatten

private theorem tenant_bulkDelete : Port.crud.Tenant ownerOf organizationFor (memberOf 100 10, .bulkDelete [1]) where
  networks := by decide
  ids _ _ _ h := by cases h

private theorem tenant_update :
    Port.crud.Tenant ownerOf organizationFor (memberOf 200 20, .update 2 (portOf 5 20)) where
  networks := by decide
  ids _ _ _ h := by cases h

theorem organizations_apart_ports :
    Visits (Pool.step (Port.crud.start (Port.crud.Tenant ownerOf organizationFor)) Port.crud.still)
      (fun p => ∀ t ∈ p.state.touched, t.caller.organizationId = Port.crud.organizationOf ownerOf t.entity)
      { state := portEach } (atOnce ⟨_, tenant_bulkDelete⟩ ⟨_, tenant_update⟩) :=
  organizations_apart (fun _ _ _ => ⟨rfl, rfl⟩) (fun h => absurd h (by decide)) (by decide) rfl _

theorem networks_apart_ports :
    Visits (Pool.step (Port.crud.start (Port.crud.Stationary networkFor)) Port.crud.still)
      (fun p => ∀ t ∈ p.state.touched, ∃ id ∈ t.caller.networkIds, Port.crud.networkId t.entity = some id)
      { state := portEach }
      (atOnce ⟨(memberOf 100 10, .bulkDelete [1]), trivial⟩ ⟨(memberOf 200 20, .create (portOf 5 20) 0 0), rfl⟩) :=
  networks_apart rfl (fun _ _ _ => ⟨rfl, rfl⟩) (by decide) rfl _

end TwoTenants

end CrudHandlers

end Netvisor
