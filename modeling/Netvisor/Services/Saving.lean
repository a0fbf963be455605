/-
Saving the bindings of a service, one at a time: what is in the table while it
goes on, and so also when it fails on the way.

`Saving` relates the database before, the children saved, the rows written for
them, the children still to save, and the database now. A row of the service is
one that was written, or one from before that a child still to save will
overwrite. When no child is left, the second kind is gone.
-/
import Mathlib.Data.List.Forall2
import Netvisor.Services.Service
import Netvisor.StorageFacts

namespace Netvisor

open Program (wp)
open Db (SameButBindings)

/-- The ids still to be drawn are new to the bindings stored and to `known`. -/
structure Db.Fresh (db : Db) (known : List Uuid) : Prop where
  nodup : db.drawn.Nodup
  nonnil : Uuid.nil ∉ db.drawn
  unstored : ∀ b ∈ db.bindings.rows, b.id ∉ db.drawn
  unknown : ∀ id ∈ known, id ∉ db.drawn

instance (db : Db) (known : List Uuid) : Decidable (db.Fresh known) :=
  decidable_of_iff (db.drawn.Nodup ∧ Uuid.nil ∉ db.drawn ∧ (∀ b ∈ db.bindings.rows, b.id ∉ db.drawn) ∧
      ∀ id ∈ known, id ∉ db.drawn)
    ⟨fun ⟨h₁, h₂, h₃, h₄⟩ => ⟨h₁, h₂, h₃, h₄⟩, fun h => ⟨h.nodup, h.nonnil, h.unstored, h.unknown⟩⟩

/-- No two of the bindings have the same id, unless it is nil. -/
def DistinctIds (bindings : List Binding) : Prop := bindings.Pairwise fun a b => a.id = b.id → a.id = Uuid.nil

/-- `out` are the rows written for the children `done`. -/
structure Saving (db₀ : Db) (parentId : Uuid) (done out rest : List Binding) (db : Db) : Prop where
  same : SameButBindings db₀ db
  drawn : db.drawn <:+ db₀.drawn
  others : ∀ r, r.base.serviceId ≠ parentId → (r ∈ db.bindings.rows ↔ r ∈ db₀.bindings.rows)
  own : ∀ r ∈ db.bindings.rows, r.base.serviceId = parentId →
    r ∈ out ∨ r ∈ db₀.bindings.rows ∧ r.id ≠ Uuid.nil ∧ (∀ d ∈ done, d.id ≠ r.id) ∧ ∃ c ∈ rest, c.id = r.id
  written : List.Forall₂ (fun c b => b.base = c.base ∧ (c.id ≠ Uuid.nil → b.id = c.id)) done out
  /-- The id of a row was drawn, if it is not that of a child. -/
  ids : ∀ b ∈ out, (∃ d ∈ done, d.id = b.id) ∨ b.id ∉ db.drawn ∧ (b.id = Uuid.nil ∨ b.id ∈ db₀.drawn)
  kept : ∀ e ∈ db₀.bindings.rows, e.base.serviceId = parentId → e.id ≠ Uuid.nil → (∃ c ∈ rest, c.id = e.id) →
    ∃ r ∈ db.bindings.rows, r.id = e.id
  stored : DistinctIds (done ++ rest) → ∀ b ∈ out, b ∈ db.bindings.rows
  references : ∀ b ∈ out, Storable.references db₀ b = true

/-- The child cannot be saved after those before it: a reference of it is to
no row, or another binding has its id. -/
def Refused (db : Db) (parentId : Uuid) (done : List Binding) (c : Binding) : Prop :=
  Storable.references db c = false ∨
    c.id ≠ Uuid.nil ∧ (∀ e ∈ db.bindingsOf parentId, e.id ≠ c.id) ∧
      ((∃ e ∈ db.bindings.rows, e.id = c.id) ∨ ∃ d ∈ done, d.id = c.id)

namespace Saving

variable {db₀ db : Db} {parentId : Uuid} {done out rest : List Binding} {c b : Binding}

theorem mem_out (h : Saving db₀ parentId done out rest db) (hb : b ∈ out) :
    ∃ c ∈ done, b.base = c.base ∧ (c.id ≠ Uuid.nil → b.id = c.id) := by
  obtain ⟨i, hi, rfl⟩ := List.mem_iff_getElem.mp hb
  have hlen := h.written.length_eq
  exact ⟨done[i], List.getElem_mem _, h.written.get (hlen ▸ hi) hi⟩

/-- What is stored was written for a child or stored before. -/
theorem mem_rows (h : Saving db₀ parentId done out rest db) (hb : b ∈ db.bindings.rows) :
    b ∈ out ∨ b ∈ db₀.bindings.rows := by
  by_cases hp : b.base.serviceId = parentId
  · exact (h.own b hb hp).imp_right fun hold => hold.1
  · exact .inr ((h.others b hp).mp hb)

/-- Ids that are drawn do not matter. -/
theorem draw (h : Saving db₀ parentId done out rest db) {drawn : List Uuid} (hd : drawn <:+ db.drawn) :
    Saving db₀ parentId done out rest { db with drawn } where
  same := h.same.trans ⟨db.bindings, drawn, rfl⟩
  drawn := hd.trans h.drawn
  others := h.others
  own := h.own
  written := h.written
  ids b hb := (h.ids b hb).imp_right fun hid => ⟨fun hbd => hid.1 (hd.subset hbd), hid.2⟩
  kept := h.kept
  stored := h.stored
  references := h.references

/-- Rows from before that the children after `c` will overwrite, next to the row written for `c`. -/
theorem own_step (h : Saving db₀ parentId done out (c :: rest) db) {r : Binding} (hr : r ∈ db.bindings.rows)
    (hp : r.base.serviceId = parentId)
    (hne : r ∈ db₀.bindings.rows → r.id ≠ Uuid.nil → c.id ≠ r.id) :
    r ∈ out ++ [b] ∨ r ∈ db₀.bindings.rows ∧ r.id ≠ Uuid.nil ∧ (∀ d ∈ done ++ [c], d.id ≠ r.id) ∧
      ∃ c ∈ rest, c.id = r.id := by
  rcases h.own r hr hp with hout | ⟨hold, hnil, hdone, x, hx, hxr⟩
  · exact .inl (List.mem_append_left _ hout)
  · have hcr := hne hold hnil
    refine .inr ⟨hold, hnil, fun d hd => ?_, x, (List.mem_cons.mp hx).resolve_left ?_, hxr⟩
    · rcases List.mem_append.mp hd with hd | hd
      · exact hdone d hd
      · exact List.mem_singleton.mp hd ▸ hcr
    · rintro rfl
      exact hcr hxr

theorem ids_step (h : Saving db₀ parentId done out (c :: rest) db)
    (hb : c.id = b.id ∨ b.id ∉ db.drawn ∧ (b.id = Uuid.nil ∨ b.id ∈ db₀.drawn)) :
    ∀ x ∈ out ++ [b], (∃ d ∈ done ++ [c], d.id = x.id) ∨ x.id ∉ db.drawn ∧ (x.id = Uuid.nil ∨ x.id ∈ db₀.drawn) := by
  intro x hx
  rcases List.mem_append.mp hx with hx | hx
  · refine (h.ids x hx).imp_left ?_
    rintro ⟨d, hd, hdx⟩
    exact ⟨d, List.mem_append_left _ hd, hdx⟩
  · obtain rfl := List.mem_singleton.mp hx
    exact hb.imp_left fun hcb => ⟨c, List.mem_append_right _ (List.mem_singleton_self c), hcb⟩

theorem references_step (h : Saving db₀ parentId done out rest db) (hb : Storable.references db b = true) :
    ∀ x ∈ out ++ [b], Storable.references db₀ x = true := by
  intro x hx
  rcases List.mem_append.mp hx with hx | hx
  · exact h.references x hx
  · rw [List.mem_singleton.mp hx, ← h.same.references b]
    exact hb

/-- A row is inserted for a child none of the rows from before has the id of. -/
theorem inserted (h : Saving db₀ parentId done out (c :: rest) db) {t : Table Binding Binding.id}
    (hc : c.base.serviceId = parentId) (hb : b.base = c.base) (hid : c.id ≠ Uuid.nil → b.id = c.id)
    (hdrawn : c.id = b.id ∨ b.id ∉ db.drawn ∧ (b.id = Uuid.nil ∨ b.id ∈ db₀.drawn))
    (hnew : ∀ r ∈ db₀.bindings.rows, r.base.serviceId = parentId → r.id ≠ Uuid.nil → r.id ≠ c.id)
    (hins : db.bindings.insert b = some t) (href : Storable.references db b = true) :
    Saving db₀ parentId (done ++ [c]) (out ++ [b]) rest { db with bindings := t } where
  same := h.same.trans ⟨t, db.drawn, rfl⟩
  drawn := h.drawn
  others r hr := by
    rw [(Table.insert_eq_some hins).1, List.mem_append, List.mem_singleton, h.others r hr]
    refine ⟨fun h => h.resolve_right ?_, .inl⟩
    rintro rfl
    exact hr (hb ▸ hc)
  own r hr hp := by
    rw [(Table.insert_eq_some hins).1, List.mem_append, List.mem_singleton] at hr
    rcases hr with hr | rfl
    · exact h.own_step hr hp fun hold hnil => (hnew r hold hp hnil).symm
    · exact .inl (List.mem_append_right _ (List.mem_singleton_self r))
  written := List.rel_append h.written (.cons ⟨hb, hid⟩ .nil)
  ids := h.ids_step hdrawn
  kept e he hep hnil hrest := by
    obtain ⟨x, hx, hxe⟩ := hrest
    obtain ⟨r, hr, hre⟩ := h.kept e he hep hnil ⟨x, List.mem_cons_of_mem c hx, hxe⟩
    exact ⟨r, (Table.insert_eq_some hins).1 ▸ List.mem_append_left _ hr, hre⟩
  stored hdistinct x hx := by
    rw [(Table.insert_eq_some hins).1, List.mem_append]
    refine (List.mem_append.mp hx).imp_left fun hx => h.stored ?_ x hx
    rwa [List.append_assoc, List.singleton_append] at hdistinct
  references := h.references_step href

/-- The row of a child stored before is replaced. -/
theorem updated (h : Saving db₀ parentId done out (c :: rest) db) {e : Binding}
    (hunstored : ∀ e ∈ db₀.bindings.rows, e.id ∉ db₀.drawn)
    (hc : c.base.serviceId = parentId) (hnil : c.id ≠ Uuid.nil) (hb : b.base = c.base) (hid : b.id = c.id)
    (he : e ∈ db₀.bindings.rows) (hep : e.base.serviceId = parentId) (hec : e.id = c.id)
    (hget : ∃ r ∈ db.bindings.rows, r.id = b.id) (href : Storable.references db b = true) :
    Saving db₀ parentId (done ++ [c]) (out ++ [b]) rest { db with bindings := db.bindings.update b } where
  same := h.same.trans ⟨_, db.drawn, rfl⟩
  drawn := h.drawn
  others r hr := by
    rw [Table.mem_update, h.others r hr]
    constructor
    · rintro (⟨rfl, -⟩ | ⟨hold, -⟩)
      · exact absurd (hb ▸ hc) hr
      · exact hold
    · intro hold
      refine .inr ⟨hold, fun heq => hr ?_⟩
      rw [db₀.bindings.eq_of_key hold he (heq.trans (hid.trans hec.symm))]
      exact hep
  own r hr hp := by
    rcases Table.mem_update.mp hr with ⟨rfl, -⟩ | ⟨hr, hne⟩
    · exact .inl (List.mem_append_right _ (List.mem_singleton_self r))
    · exact h.own_step hr hp fun _ _ heq => hne (heq.symm.trans hid.symm)
  written := List.rel_append h.written (.cons ⟨hb, fun _ => hid⟩ .nil)
  ids := h.ids_step (.inl hid.symm)
  kept x hx hxp hxnil hrest := by
    by_cases hxb : x.id = b.id
    · exact ⟨b, Table.mem_update.mpr (.inl ⟨rfl, hget⟩), hxb.symm⟩
    · obtain ⟨y, hy, hyx⟩ := hrest
      obtain ⟨r, hr, hrx⟩ := h.kept x hx hxp hxnil ⟨y, List.mem_cons_of_mem c hy, hyx⟩
      exact ⟨r, Table.mem_update.mpr (.inr ⟨hr, fun heq => hxb (hrx ▸ heq)⟩), hrx⟩
  stored hdistinct x hx := by
    rw [List.append_assoc, List.singleton_append] at hdistinct
    rcases List.mem_append.mp hx with hx | hx
    · refine Table.mem_update.mpr (.inr ⟨h.stored hdistinct x hx, fun heq => ?_⟩)
      have hxc : x.id = c.id := heq.trans hid
      rcases h.ids x hx with ⟨d, hd, hdx⟩ | ⟨-, hxnil | hxd⟩
      · have hdc := (List.pairwise_append.mp hdistinct).2.2 d hd c List.mem_cons_self
        exact hnil ((hdx.trans hxc) ▸ hdc (hdx.trans hxc))
      · exact hnil (hxc ▸ hxnil)
      · exact hunstored e he (hec ▸ hxc ▸ hxd)
    · obtain rfl := List.mem_singleton.mp hx
      exact Table.mem_update.mpr (.inl ⟨rfl, hget⟩)
  references := h.references_step href

end Saving

namespace BindingService

variable {db₀ db : Db} {parentId : Uuid} {done out rest children : List Binding} {c : Binding}

/-- A binding with an id is inserted under it, or its id is taken or a reference is missing. -/
theorem wp_create_of_id {entity : Binding} {Q : Binding → Db → Prop} {E : Error → Db → Prop}
    (hid : entity.id ≠ Uuid.nil)
    (hE : ∀ e, Storable.references db entity = false ∨ (∃ r ∈ db.bindings.rows, r.id = entity.id) → E e db)
    (hQ : ∀ t, db.bindings.insert entity = some t → Storable.references db entity = true →
      Q entity { db with bindings := t }) :
    wp (CrudService.create entity) Q E db := by
  simp only [CrudService.create, Program.wp_bind, Storable.wp_orNew]
  refine ⟨fun hnil => absurd hnil hid, fun _ => ?_⟩
  cases href : Storable.references db entity with
  | false =>
    exact Storable.wp_create (fun e => hE e (.inl href)) fun t _ h => absurd (href.symm.trans h) Bool.false_ne_true
  | true =>
    cases hins : db.bindings.insert entity with
    | none =>
      refine Storable.wp_create (fun e => hE e (.inr (Table.insert_eq_none.mp hins))) fun t h => ?_
      cases hins.symm.trans h
    | some t =>
      refine (Program.wp_of_ok (Storable.create_eq_ok hins rfl href)).mpr ?_
      exact hQ t hins href

/-- One round: the child is saved, or was refused. -/
theorem wp_saveChild {known : List Uuid} (hF : db₀.Fresh known) (hk : ∀ d ∈ done ++ c :: rest, d.id ∈ known)
    (h : Saving db₀ parentId done out (c :: rest) db) (hc : c.base.serviceId = parentId) :
    wp (saveChild (db₀.bindingsOf parentId) c)
      (fun b db => Saving db₀ parentId (done ++ [c]) (out ++ [b]) rest db)
      (fun _ db => Saving db₀ parentId done out (c :: rest) db ∧
        (db.drawn ≠ [] → Refused db₀ parentId done c)) db := by
  have hnodup : db.drawn.Nodup := hF.nodup.sublist h.drawn.sublist
  simp only [saveChild, Program.wp_ite, beq_iff_eq]
  refine ⟨fun hnil => ?_, fun hnil => ?_⟩
  · simp only [Program.wp_bind, wp_newV4]
    cases hdrawn : db.drawn with
    | nil =>
      -- No id is left: whatever happens, it is not a run of the server.
      simp only [List.headD_nil, List.tail_nil, CrudService.create, Program.wp_bind, Storable.wp_orNew]
      refine ⟨fun _ => ?_, fun hne => absurd rfl hne⟩
      have hnone : [] <:+ db.drawn := List.nil_suffix
      have hd := h.draw hnone
      refine Storable.wp_create (fun _ => ⟨hd, fun hne => absurd rfl hne⟩) fun t hins href => ?_
      exact hd.inserted hc rfl (fun hne => absurd hnil hne) (.inr ⟨List.not_mem_nil, .inl rfl⟩)
        (fun r _ _ hr heq => hr (heq.trans hnil)) hins href
    | cons u us =>
      have hsuffix : us <:+ db.drawn := ⟨[u], hdrawn.symm⟩
      have hu₀ : u ∈ db₀.drawn := h.drawn.subset (hdrawn ▸ List.mem_cons_self)
      have hu : u ∉ us := (List.nodup_cons.mp (hdrawn ▸ hnodup)).1
      have hune : u ≠ Uuid.nil := fun heq => hF.nonnil (heq ▸ hu₀)
      have hd := h.draw hsuffix
      refine wp_create_of_id hune (fun _ hE => ⟨hd, fun _ => .inl ?_⟩) fun t hins href => ?_
      · rcases hE with href | ⟨r, hr, hru⟩
        · exact (hd.same.references c).symm.trans href
        · exfalso
          have hru : r.id = u := hru
          rcases h.mem_rows hr with hr | hr
          · rcases h.ids r hr with ⟨d, hd, hdr⟩ | ⟨hr, -⟩
            · exact hF.unknown d.id (hk d (List.mem_append_left _ hd)) (hdr ▸ hru ▸ hu₀)
            · exact hr (by rw [hru, hdrawn]; exact List.mem_cons_self)
          · exact hF.unstored r hr (hru ▸ hu₀)
      · exact hd.inserted hc rfl (fun hne => absurd hnil hne) (.inr ⟨hu, .inr hu₀⟩)
          (fun r _ _ hr heq => hr (heq.trans hnil)) hins href
  · split
    · next e he =>
      obtain ⟨hmem, hep⟩ := Db.mem_bindingsOf.mp (List.mem_of_find?_eq_some he)
      have hec : e.id = c.id := by simpa using List.find?_some he
      obtain ⟨r, hr, hre⟩ := h.kept e hmem hep (hec ▸ hnil) ⟨c, List.mem_cons_self, hec.symm⟩
      have hrc : r.id = c.id := hre.trans hec
      have hget : ((Storable.table (α := Binding) db).get (Storable.id { c with createdAt := e.createdAt })).isSome :=
        Table.get_isSome.mpr ⟨r, hr, hrc⟩
      obtain ⟨x, hx⟩ := Option.isSome_iff_exists.mp hget
      simp only [update, CrudService.update, Program.wp_bind, Storable.wp_getById, hx]
      cases href : Storable.references db { c with createdAt := e.createdAt } with
      | false =>
        refine Storable.wp_update (fun _ => ⟨h, fun _ => .inl ?_⟩) (fun hmissing => ?_) fun _ hr => ?_
        · exact (h.same.references c).symm.trans href
        · cases hx.symm.trans hmissing
        · cases href.symm.trans hr
      | true =>
        refine (Program.wp_of_ok (Storable.update_eq_ok hget rfl href)).mpr ?_
        exact h.updated hF.unstored hc hnil rfl rfl hmem hep hec ⟨r, hr, hrc⟩ href
    · next hnone =>
      have hnew (e : Binding) (he : e ∈ db₀.bindingsOf parentId) : e.id ≠ c.id := by
        simpa using List.find?_eq_none.mp hnone e he
      refine wp_create_of_id hnil (fun _ hE => ⟨h, fun _ => ?_⟩) fun t hins href => ?_
      · rcases hE with href | ⟨r, hr, hrc⟩
        · exact .inl ((h.same.references c).symm.trans href)
        · refine .inr ⟨hnil, hnew, ?_⟩
          rcases h.mem_rows hr with hr | hr
          · rcases h.ids r hr with ⟨d, hd, hdr⟩ | ⟨-, hr | hr⟩
            · exact .inr ⟨d, hd, hdr.trans hrc⟩
            · exact absurd (hrc.symm.trans hr) hnil
            · exact absurd (hrc ▸ hr) (hF.unknown c.id (hk c (by simp)))
          · exact .inl ⟨r, hr, hrc⟩
      · exact h.inserted hc rfl (fun _ => rfl) (.inl rfl)
          (fun r hr hrp _ => hnew r (Db.mem_bindingsOf.mpr ⟨hr, hrp⟩)) hins href

/-- Deleting the children that are gone leaves those a new child has the id of. -/
theorem saving_deleteBindings :
    Saving db₀ parentId [] [] children
      (db₀.deleteBindings (((db₀.bindingsOf parentId).map (·.id)).filter fun id =>
        !((children.filter fun c => c.id != Uuid.nil).map (·.id)).contains id)) where
  same := ⟨_, db₀.drawn, rfl⟩
  drawn := List.suffix_rfl
  others r hr := by
    simp only [Db.deleteBindings, Table.mem_filter]
    refine ⟨fun h => h.1, fun h => ⟨h, ?_⟩⟩
    simp only [List.contains_eq_mem, List.mem_filter, List.mem_map, Bool.not_eq_true', decide_eq_false_iff_not]
    rintro ⟨⟨e, he, heq⟩, -⟩
    obtain ⟨he, hep⟩ := Db.mem_bindingsOf.mp he
    exact hr (db₀.bindings.eq_of_key he h heq ▸ hep)
  own r hr hp := by
    simp only [Db.deleteBindings, Table.mem_filter] at hr
    obtain ⟨hr, hkeep⟩ := hr
    simp only [List.contains_eq_mem, List.mem_filter, List.mem_map, Bool.not_eq_true', decide_eq_false_iff_not,
      not_and, not_exists] at hkeep
    have hmem := hkeep ⟨r, Db.mem_bindingsOf.mpr ⟨hr, hp⟩, rfl⟩
    simp only [bne_iff_ne, not_forall, not_not] at hmem
    obtain ⟨c, ⟨hc, hnil⟩, hcr⟩ := hmem
    exact .inr ⟨hr, hcr ▸ hnil, fun _ h => (List.not_mem_nil h).elim, c, hc, hcr⟩
  written := .nil
  ids _ h := (List.not_mem_nil h).elim
  kept e he hep hnil hrest := by
    obtain ⟨c, hc, hce⟩ := hrest
    refine ⟨e, ?_, rfl⟩
    simp only [Db.deleteBindings, Table.mem_filter]
    refine ⟨he, ?_⟩
    simp only [List.contains_eq_mem, List.mem_filter, List.mem_map, Bool.not_eq_true', decide_eq_false_iff_not,
      not_and, not_exists, bne_iff_ne]
    exact fun _ hgone => hgone c ⟨hc, hce ▸ hnil⟩ hce
  stored _ _ h := (List.not_mem_nil h).elim
  references _ h := (List.not_mem_nil h).elim

/-- While a service's bindings are saved: at the end all are, at a failure those before one that is refused. -/
theorem wp_saveForParent (hF : db₀.Fresh (children.map (·.id))) (hc : ∀ c ∈ children, c.base.serviceId = parentId) :
    wp (saveForParent parentId children) (fun out db => Saving db₀ parentId children out [] db)
      (fun _ db => ∃ done out c rest, children = done ++ c :: rest ∧ Saving db₀ parentId done out (c :: rest) db ∧
        (db.drawn ≠ [] → Refused db₀ parentId done c)) db₀ := by
  have hloop (db : Db) (h : Saving db₀ parentId [] [] children db) :
      wp (children.mapM (saveChild (db₀.bindingsOf parentId)))
        (fun out db => Saving db₀ parentId children out [] db)
        (fun _ db => ∃ done out c rest, children = done ++ c :: rest ∧ Saving db₀ parentId done out (c :: rest) db ∧
          (db.drawn ≠ [] → Refused db₀ parentId done c)) db := by
    have := Program.wp_mapM_all (f := saveChild (db₀.bindingsOf parentId))
      (I := fun done out rest db => children = done ++ rest ∧ Saving db₀ parentId done out rest db)
      (E := fun _ db => ∃ done out c rest, children = done ++ c :: rest ∧
        Saving db₀ parentId done out (c :: rest) db ∧
          (db.drawn ≠ [] → Refused db₀ parentId done c))
      (fun done out c rest db ⟨hl, h⟩ => (wp_saveChild hF (fun d hd => List.mem_map.mpr ⟨d, hl ▸ hd, rfl⟩) h
        (hc c (by simp [hl]))).mono (fun b db hb => ⟨by simp [hl], hb⟩) fun _ db hb => ⟨done, out, c, rest, hl, hb⟩)
      ⟨rfl, h⟩ (l := children)
    exact this.mono (fun out db hout => hout.2) fun _ _ he => he
  simp only [saveForParent, Program.wp_bind, Program.wp_get]
  split
  · simp only [deleteMany, Program.wp_bind, Program.wp_get, Program.wp_set, Program.wp_pure]
    exact hloop _ saving_deleteBindings
  · next hnone =>
    refine hloop _ ?_
    have hdel : Saving db₀ parentId [] [] children _ := saving_deleteBindings
    simp only [Bool.not_eq_true, Bool.not_eq_false', List.isEmpty_iff] at hnone
    rw [hnone] at hdel
    simpa [Db.deleteBindings, Table.filter] using hdel

end BindingService

end Netvisor
