/-
Saving an entity with its tags: the generic create and update of a service, and
the update of a host from a request.

The tags that are given replace those stored, in one transaction. No tags at
all replace nothing, and a tag that is given twice is a row that is there
already.
-/
import Netvisor.Crud.Rows
import Netvisor.Hosts.Update

namespace Netvisor

open Failing (Planned StaysCalm statement)
open Program (wp)
open Ledger
open Crud (Calm)

/-! ## What is read -/

/-- The tags an entity is hydrated with. -/
def EntityTagStorage.getForEntity (entityId : Uuid) (entityType : EntityDiscriminants) (s : Tagging) : List Uuid :=
  (s.entityTags.rows.filter fun x => x.entityId == entityId && x.entityType == entityType).map EntityTag.tagId

open EntityTagStorage (getForEntity)

theorem mem_getForEntity {entityId tagId : Uuid} {entityType : EntityDiscriminants} {s : Tagging} :
    tagId ∈ getForEntity entityId entityType s ↔ s.Assigned { entityId, entityType, tagId } := by
  simp only [getForEntity, List.mem_map, List.mem_filter, Bool.and_eq_true, beq_iff_eq, Tagging.Assigned]
  constructor
  · rintro ⟨x, ⟨hx, rfl, rfl⟩, rfl⟩
    exact hx
  · exact fun hx => ⟨_, ⟨hx, rfl, rfl⟩, rfl⟩

/-! ## The update of a host -/

def Error.toAny (e : Error) : AnyError where
  message := e.text
  validation := match e with
    | .validation _ => true
    | _ => false

namespace HostUpdate

/-- The statements of a process, one after another. -/
def onStore {α : Type} : Steps α → Writes Db α
  | .ret a => return a
  | .fail e => throw e.toAny
  | .stmt _ after next => do
    let db ← statement (onData do
      let db ← get
      set (after db)
      return db)
    onStore (next db)

/-- `HostService::update_from_request`, which sets the tags before the row of the host is written. -/
def updateWithTags (request : UpdateHostRequest) (organizationId : Option Uuid) : Writes Db HostResponse := do
  let (existing, now) ← onStore (.query .check fun db => (db.hosts.get request.id, db.now))
  match existing with
  | none => throw (hostNotFound request.id).toAny
  | some existing =>
    match conflict request existing with
    | some message => throw (Error.validation message).toAny
    | none =>
      setTags .host request.id request.tags organizationId
      onStore do
        let updated ← updateHost (updatedHost request existing now)
        syncHost request existing.base.networkId updated

end HostUpdate

/-! ## The routes -/

/-- A call that saves an entity with the tags it is given. -/
inductive Route : Type → Type 1
  | create {δ T : Type} (c : Crud δ T) (entity : T) : Route δ
  | update {δ T : Type} (c : Crud δ T) (entity : T) : Route δ
  | updateFromRequest (request : UpdateHostRequest) : Route Db

namespace Route

variable {δ : Type}

def taggable : Route δ → Bool
  | create c _ | update c _ => c.taggable
  | updateFromRequest _ => true

def entityType : Route δ → EntityDiscriminants
  | create c _ | update c _ => c.entityType
  | updateFromRequest _ => .host

/-- The entity that is saved; one that is created may get a new id. -/
def entityId : Route δ → Ledger δ → Uuid
  | create c entity, l => c.id (c.asNew entity l)
  | update c entity, _ => c.id entity
  | updateFromRequest request, _ => request.id

/-- With the tags that are given, by a caller of the organization. -/
def run (tagIds : List Uuid) (organizationId : Uuid) : Route δ → Writes δ Unit
  | create c entity => do
    let _ ← c.create entity (some tagIds) (some organizationId)
  | update c entity => do
    let _ ← c.save entity (some tagIds) (some organizationId)
  | updateFromRequest request => do
    let _ ← HostUpdate.updateWithTags { request with tags := tagIds } (some organizationId)

/-- The call is accepted but for its tags. -/
def Accepted (tagIds : List Uuid) : Route δ → Ledger δ → Prop
  | create c entity, l => ∃ d, c.insert (c.asNew entity l) l.data = .ok () d
  | update c entity, l => (c.find l.data (c.id entity)).isSome = true ∧ ∃ d, c.update entity l.data = .ok () d
  | updateFromRequest request, l =>
    ∃ response d, (HostUpdate.updateFromRequest { request with tags := tagIds }).run l.data = .ok response d

end Route

/-! ## What setting does -/

section Setting

variable {δ : Type} {s : Planned AnyError (Ledger δ)} {entityId organizationId : Uuid}
  {entityType : EntityDiscriminants}
  {tagIds : List Uuid}

theorem staysCalm_setTags :
    Program.Keeps StaysCalm (setTags entityType entityId tagIds (some organizationId) : Writes δ Unit) := by
  have hset : Program.Keeps StaysCalm (EntityTagStorage.set entityId entityType tagIds) :=
    .bind StaysCalm.statement fun _ => StaysCalm.transaction <|
      .bind StaysCalm.statement fun _ => .bind (.forM (fun _ => StaysCalm.statement) _) fun _ => StaysCalm.statement
  have hvalidate (tagId : Uuid) : Program.Keeps StaysCalm (EntityTagService.validateTag tagId organizationId) := by
    refine .bind (.mapError StaysCalm.statement) fun tag => ?_
    cases tag with
    | none => exact .throw
    | some tag => exact .ite .throw .pure
  have hall : Program.Keeps StaysCalm (EntityTagService.setTags entityId entityType tagIds organizationId) := by
    unfold EntityTagService.setTags
    exact .ite .pure (.bind (.forM hvalidate _) fun _ => .mapError hset)
  unfold Ledger.setTags onTags
  exact StaysCalm.within hall

/-- The tags of an entity are exactly those given. -/
def Exact (entityId : Uuid) (entityType : EntityDiscriminants) (tagIds : List Uuid) (s : Tagging) : Prop :=
  ∀ tagId, tagId ∈ getForEntity entityId entityType s ↔ tagId ∈ tagIds

/-- No tag is given twice, and some are given if there are some to replace. -/
structure Settable (entityId : Uuid) (entityType : EntityDiscriminants) (tagIds : List Uuid)
    (s : Tagging) : Prop where
  nodup : tagIds.Nodup
  given : tagIds = [] → getForEntity entityId entityType s = []

/-- The tags are set exactly, unless there are none to set. -/
theorem wp_setTags_exact {Q : Unit → Planned AnyError (Ledger δ) → Prop}
    {E : AnyError → Planned AnyError (Ledger δ) → Prop}
    (hvalid : ∀ tagId ∈ tagIds, s.store.tagging.HasTag organizationId tagId)
    (hE : ∀ e t, ¬ (Calm s ∧ tagIds.Nodup) → E e t)
    (hQ : ∀ t, (Calm s → Calm t) → t.store.data = s.store.data → tagIds.Nodup →
      (Exact entityId entityType tagIds t.store.tagging ↔ Settable entityId entityType tagIds s.store.tagging) →
        Q () t) :
    wp (setTags entityType entityId tagIds (some organizationId)) Q E s := by
  have hdata : wp (setTags entityType entityId tagIds (some organizationId))
      (fun _ t => t.store.data = s.store.data ∧ tagIds.Nodup ∧
        (Exact entityId entityType tagIds t.store.tagging ↔ Settable entityId entityType tagIds s.store.tagging))
      (fun _ _ => ¬ (Calm s ∧ tagIds.Nodup)) s := by
    simp only [Ledger.setTags, onTags, Failing.wp_within]
    by_cases hnil : tagIds = []
    · subst hnil
      refine ⟨trivial, List.nodup_nil, ?_⟩
      simp only [Exact, List.not_mem_nil, iff_false]
      exact ⟨fun h => ⟨List.nodup_nil, fun _ => List.eq_nil_iff_forall_not_mem.mpr h⟩,
        fun h => List.eq_nil_iff_forall_not_mem.mp (h.given rfl)⟩
    · refine EntityTagService.wp_setTags.mono (fun _ t hset => ⟨trivial, ?_⟩) fun _ t ⟨hnot, _⟩ ⟨hcalm, hnodup⟩ => ?_
      · obtain ⟨hset, hreplaced⟩ := hset.resolve_right fun h => hnil h.1
        refine ⟨hset.nodup, iff_of_true (fun tagId => ?_) ⟨hset.nodup, fun h => absurd h hnil⟩⟩
        rw [mem_getForEntity, hreplaced, if_pos ⟨rfl, rfl⟩]
      · exact hnot ⟨hnil, hvalid, hnodup, hcalm.quiet⟩
  refine (hdata.and (staysCalm_setTags s)).mono (fun _ t ⟨⟨hsame, hnodup, hexact⟩, hcalm⟩ =>
    hQ t hcalm hsame hnodup hexact)
    fun e t ⟨hnot, _⟩ => hE e t hnot

theorem wp_saveTags_exact {T : Type} {c : Crud δ T} {entity : T} {Q : Unit → Planned AnyError (Ledger δ) → Prop}
    {E : AnyError → Planned AnyError (Ledger δ) → Prop} (htaggable : c.taggable = true)
    (hvalid : ∀ tagId ∈ tagIds, s.store.tagging.HasTag organizationId tagId)
    (hE : ∀ e t, ¬ (Calm s ∧ tagIds.Nodup) → E e t)
    (hQ : ∀ t, (Calm s → Calm t) → t.store.data = s.store.data → tagIds.Nodup →
      (Exact (c.id entity) c.entityType tagIds t.store.tagging ↔
        Settable (c.id entity) c.entityType tagIds s.store.tagging) → Q () t) :
    wp (c.saveTags entity (some tagIds) (some organizationId)) Q E s := by
  simp only [Crud.saveTags, htaggable]
  exact wp_setTags_exact hvalid hE hQ

end Setting

/-! ## The generic calls -/

section Generic

variable {δ T : Type} {c : Crud δ T} {s : Planned AnyError (Ledger δ)} {organizationId : Uuid} {tagIds : List Uuid}
  {entity : T}

/-- The call sets the tags exactly where they can be, and fails only if a statement does or a tag is given twice. -/
def SetsTags {α : Type} (p : Writes δ α) (entityId : Uuid) (entityType : EntityDiscriminants) (tagIds : List Uuid)
    (s : Planned AnyError (Ledger δ)) : Prop :=
  wp p (fun _ t => Exact entityId entityType tagIds t.store.tagging ↔
    Settable entityId entityType tagIds s.store.tagging)
    (fun _ _ => ¬ (Calm s ∧ tagIds.Nodup)) s

theorem setsTags_create (htaggable : c.taggable = true)
    (hvalid : ∀ tagId ∈ tagIds, s.store.tagging.HasTag organizationId tagId)
    (haccepted : ∃ d, c.insert (c.asNew entity s.store) s.store.data = .ok () d) :
    SetsTags (c.create entity (some tagIds) (some organizationId))
        (c.id (c.asNew entity s.store)) c.entityType tagIds s := by
  rw [SetsTags, Crud.create, Program.wp_bind]
  refine Crud.wp_orNew fun l hl => ?_
  rw [Program.wp_bind]
  refine Crud.wp_write (fun e hrefused h => hrefused ?_) fun _ d t _ _ hwrote => ?_
  · obtain ⟨d, hinsert⟩ := haccepted
    exact ⟨Calm.quiet h.1, (), d, hl.data ▸ hinsert⟩
  · have htagging : t.store.tagging = s.store.tagging := hwrote.tagging.trans hl.tagging
    rw [Program.wp_bind]
    refine wp_saveTags_exact htaggable (htagging ▸ hvalid) (fun e u hnot h => hnot ⟨?_, h.2⟩) fun u _ _ _ hexact => ?_
    · rw [Calm, hwrote.faults, h.1, List.drop_nil]
    · rw [htagging] at hexact
      exact hexact

theorem setsTags_save (htaggable : c.taggable = true)
    (hvalid : ∀ tagId ∈ tagIds, s.store.tagging.HasTag organizationId tagId)
    (hfound : (c.find s.store.data (c.id entity)).isSome = true)
    (haccepted : ∃ d, c.update entity s.store.data = .ok () d) :
    SetsTags (c.save entity (some tagIds) (some organizationId)) (c.id entity) c.entityType tagIds s := by
  rw [SetsTags, Crud.save, Program.wp_bind]
  refine Crud.wp_getById (fun e t hnot _ h => hnot (Calm.quiet h.1)) (fun hmissing _ => ?_) fun row _ _ => ?_
  · rw [hmissing] at hfound
    cases hfound
  · rw [Program.wp_bind]
    refine Crud.wp_write (fun e hrefused h => hrefused ?_) fun _ d t _ _ hwrote => ?_
    · obtain ⟨d, hupdate⟩ := haccepted
      refine ⟨Calm.quiet ?_, (), d, hupdate⟩
      rw [Calm, Crud.skip_faults, h.1, List.drop_nil]
    · rw [Program.wp_bind]
      refine wp_saveTags_exact htaggable (hwrote.tagging ▸ hvalid)
        (fun e u hnot h => hnot ⟨?_, h.2⟩) fun u _ _ _ hexact => ?_
      · rw [Calm, hwrote.faults, Crud.skip_faults, h.1, List.drop_nil, List.drop_nil]
      · rw [hwrote.tagging] at hexact
        exact hexact

end Generic

/-! ## The host's own call -/

namespace HostUpdate

variable {α : Type} {s : Planned AnyError (Ledger Db)} {organizationId : Uuid} {tagIds : List Uuid}

theorem wp_onStore_stmt {phase : Phase} {after : Db → Db} {next : Db → Steps α}
    {Q : α → Planned AnyError (Ledger Db) → Prop}
    {E : AnyError → Planned AnyError (Ledger Db) → Prop}
    (hE : ∀ e t, ¬ Calm s → t.store = s.store → E e t)
    (hQ : ∀ t, (Calm s → Calm t) → t.store = { s.store with data := after s.store.data } →
      wp (onStore (next s.store.data)) Q E t) : wp (onStore (.stmt phase after next)) Q E s := by
  rw [onStore, Program.wp_bind, Failing.wp_statement]
  refine ⟨fun e he => hE e _ (fun hcalm => ?_) rfl, fun hnone => ?_⟩
  · rw [Planned.fault, hcalm] at he
    cases he
  · refine hQ _ (fun hcalm => ?_) rfl
    rw [Calm, Planned.next_faults, hcalm]
    rfl

/-- The statements against the database leave the tags alone. -/
theorem onStore_tagging (p : Steps α) : ∀ s, wp (onStore p) (fun _ t => t.store.tagging = s.store.tagging)
    (fun _ t => t.store.tagging = s.store.tagging) s := by
  induction p with
  | ret a => exact fun s => rfl
  | fail e => exact fun s => rfl
  | stmt phase after next ih =>
    intro s
    refine wp_onStore_stmt (fun e t _ hstore => by rw [hstore]) fun t _ hstore => ?_
    have hrest := ih s.store.data t
    rw [hstore] at hrest
    exact hrest

/-- If no statement is to fail, a process goes as it does alone. -/
theorem wp_onStore_of_run : ∀ (p : Steps α) s, Calm s → (∃ a d, p.run s.store.data = .ok a d) →
    wp (onStore p) (fun _ _ => True) (fun _ _ => False) s := by
  intro p
  induction p with
  | ret b => exact fun _ _ _ => trivial
  | fail e =>
    rintro s _ ⟨a, d, hrun⟩
    cases hrun
  | stmt phase after next ih =>
    intro s hcalm hrun
    refine wp_onStore_stmt (fun _ _ hnot _ => hnot hcalm) fun t hstays hstore => ih s.store.data t (hstays hcalm) ?_
    rw [hstore]
    exact hrun

theorem setsTags_updateWithTags {request : UpdateHostRequest}
    (hvalid : ∀ tagId ∈ request.tags, s.store.tagging.HasTag organizationId tagId)
    (haccepted : ∃ response d, (updateFromRequest request).run s.store.data = .ok response d) :
    SetsTags (updateWithTags request (some organizationId)) request.id .host request.tags s := by
  obtain ⟨response, d, hrun⟩ := haccepted
  rw [SetsTags, updateWithTags, Program.wp_bind]
  refine wp_onStore_stmt (fun e t hnot _ h => hnot h.1) fun t hstays hstore => ?_
  have hstore : t.store = s.store := hstore
  rw [onStore, Program.wp_pure]
  have hrun : (match s.store.data.hosts.get request.id with
      | none => .fail (hostNotFound request.id)
      | some existing =>
        match conflict request existing with
        | some message => .fail (.validation message)
        | none =>
          updateHost (updatedHost request existing s.store.data.now) >>= syncHost request existing.base.networkId :
        Steps HostResponse).run s.store.data = .ok response d := hrun
  simp only
  cases hexisting : s.store.data.hosts.get request.id with
  | none =>
    rw [hexisting] at hrun
    cases hrun
  | some existing =>
    simp only [hexisting] at hrun ⊢
    cases hconflict : conflict request existing with
    | some message =>
      rw [hconflict] at hrun
      cases hrun
    | none =>
      simp only [hconflict] at hrun ⊢
      rw [Program.wp_bind]
      refine wp_setTags_exact (hstore ▸ hvalid)
        (fun e u hnot h => hnot ⟨hstays h.1, h.2⟩) fun u hcalm hdata hnodup hexact => ?_
      rw [hstore] at hexact hdata
      generalize updateHost
        (updatedHost request existing s.store.data.now) >>= syncHost request existing.base.networkId =
        rest at hrun ⊢
      have hsucceeds : wp (onStore rest) (fun _ _ => True) (fun _ _ => ¬ Calm s) u := by
        by_cases hs : Calm s
        · exact (wp_onStore_of_run rest u (hcalm (hstays hs)) ⟨response, d, hdata ▸ hrun⟩).mono (fun _ _ h => h)
            fun _ _ hfalse _ => hfalse
        · exact Program.wp.of_forall (fun _ _ => trivial) fun _ _ => hs
      exact ((onStore_tagging rest u).and hsucceeds).mono (fun _ v ⟨hsame, _⟩ =>
        hsame ▸ hexact) fun _ v ⟨_, hnot⟩ h => hnot h.1

end HostUpdate

/-! ## All routes -/

namespace Route

variable {δ : Type} {l : Ledger δ} {organizationId : Uuid} {tagIds : List Uuid}

/-- After a call that succeeds the tags are exactly those given, whichever statements fail; and it succeeds if none does. -/
structure Sets (r : Route δ) (l : Ledger δ) (tagIds : List Uuid) (organizationId : Uuid) : Prop where
  exact : ∀ faults, wp (r.run tagIds organizationId)
    (fun _ t => Exact (r.entityId l) r.entityType tagIds t.store.tagging) (fun _ _ => True) { store := l, faults }
  succeeds : wp (r.run tagIds organizationId) (fun _ _ => True) (fun _ _ => False) { store := l }

theorem setsTags (r : Route δ) (htaggable : r.taggable = true)
    (hvalid : ∀ tagId ∈ tagIds, l.tagging.HasTag organizationId tagId)
    (haccepted : r.Accepted tagIds l) (faults : List (Option AnyError)) :
    SetsTags (r.run tagIds organizationId) (r.entityId l) r.entityType tagIds { store := l, faults } := by
  cases r with
  | create c entity =>
    rw [SetsTags, run, Program.wp_bind]
    exact setsTags_create htaggable hvalid haccepted
  | update c entity =>
    rw [SetsTags, run, Program.wp_bind]
    exact setsTags_save htaggable hvalid haccepted.1 haccepted.2
  | updateFromRequest request =>
    rw [SetsTags, run, Program.wp_bind]
    exact HostUpdate.setsTags_updateWithTags hvalid haccepted

/-- **Saving an entity sets its tags if and only if no tag is given twice, and some are given unless it has none.** -/
theorem sets_iff_settable (r : Route δ) (htaggable : r.taggable = true)
    (hvalid : ∀ tagId ∈ tagIds, l.tagging.HasTag organizationId tagId) (haccepted : r.Accepted tagIds l) :
    r.Sets l tagIds organizationId ↔ Settable (r.entityId l) r.entityType tagIds l.tagging := by
  have hruns := r.setsTags htaggable hvalid haccepted
  constructor
  · intro h
    have hsettable : wp (r.run tagIds organizationId)
      (fun _ _ => Settable (r.entityId l) r.entityType tagIds l.tagging)
        (fun _ _ => False) { store := l } :=
      (((hruns []).and (h.exact [])).and h.succeeds).mono (fun _ _ ⟨⟨hiff, hexact⟩, _⟩ => hiff.mp hexact) fun _ _ h =>
      h.2
    unfold wp at hsettable
    split at hsettable
    · exact hsettable
    · exact hsettable.elim
  · intro h
    refine ⟨fun faults => (hruns faults).mono (fun _ t hexact => hexact.mpr h) fun _ _ _ => trivial, ?_⟩
    exact (hruns []).mono (fun _ _ _ => trivial) fun _ _ hnot => hnot ⟨rfl, h.nodup⟩

theorem Sets.emptied {r : Route δ} (h : r.Sets l [] organizationId) : wp (r.run [] organizationId)
    (fun _ t => getForEntity (r.entityId l) r.entityType t.store.tagging = []) (fun _ _ => True) { store := l } := by
  refine (h.exact []).mono (fun _ t hexact => ?_) fun _ _ _ => trivial
  exact List.eq_nil_iff_forall_not_mem.mpr fun tagId hmem => List.not_mem_nil ((hexact tagId).mp hmem)

/-! ## One host -/

/-- A host that is tagged. -/
def taggedHost : Ledger Db where
  data := { networks := [1], hosts := { rows := [{ id := 20, base := { networkId := 1 } }] } }
  tagging :=
    { tags := { rows := [{ id := 7, organizationId := 3 }] }
      entityTags := { rows := [{ entityId := 20, entityType := .host, tagId := 7 }] } }

def renamed : Route Db := updateFromRequest { id := 20, name := "web" }

theorem accepted_renamed (tagIds : List Uuid) : renamed.Accepted tagIds taggedHost := ⟨_, _, rfl⟩

theorem valid_replicate (n : Nat) : ∀ tagId ∈ List.replicate n (7 : Uuid), taggedHost.tagging.HasTag 3 tagId := by
  intro tagId h
  rw [List.eq_of_mem_replicate h]
  exact ⟨{ id := 7, organizationId := 3 }, rfl, rfl⟩

theorem renamed_keeps_tag : renamed.Sets taggedHost [7] 3 :=
  (renamed.sets_iff_settable rfl (valid_replicate 1) (accepted_renamed [7])).mpr
    ⟨by decide, fun h => absurd h (List.cons_ne_nil _ _)⟩

/-- The tag cannot be removed, and it cannot be given twice. -/
theorem untagging_keeps_tag : renamed.Accepted [] taggedHost ∧ ¬ renamed.Sets taggedHost [] 3 ∧
    renamed.Accepted (List.replicate 2 7) taggedHost ∧
      (∀ tagId ∈ List.replicate 2 7, taggedHost.tagging.HasTag 3 tagId) ∧
    ¬ renamed.Sets taggedHost (List.replicate 2 7) 3 := by
  refine ⟨accepted_renamed [], fun h => ?_, accepted_renamed (List.replicate 2 7), valid_replicate 2, fun h => ?_⟩
  · revert h
    exact mt Sets.emptied (by decide +kernel)
  · revert h
    exact mt Sets.succeeds (by decide +kernel)

end Route

end Netvisor
