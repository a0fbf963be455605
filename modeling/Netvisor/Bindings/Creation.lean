/-
Creating a binding through the API: whether it is authorised and atomic.

The bindings that an all-interfaces one supersedes are deleted before the
generic handler checks the access to the network and inserts the new row, so a
request that fails there has deleted them all the same.
-/
import Netvisor.Bindings.HandlersFacts

namespace Netvisor.BindingHandlers

open Program (wp)

variable {db t : Db} {networkIds : List Uuid} {binding r : Binding}

/-- The id the binding is created under. -/
def createdId (db : Db) (binding : Binding) : Uuid :=
  if binding.id == Uuid.nil then db.drawn.headD Uuid.nil else binding.id

/-- What a request may delete: single-interface bindings of the service and the
port of its own one, in a network of the user. -/
def Superseded (networkIds : List Uuid) (binding r : Binding) : Prop :=
  networkIds.contains r.base.networkId = true ∧ r.base.serviceId = binding.base.serviceId ∧
    ∃ p i, binding.base.bindingType = .port p none ∧ r.base.bindingType = .port p (some i)

/-- A request that fails leaves every stored binding, and one that succeeds all but superseded ones. -/
def CreatesAtomically (networkIds : List Uuid) (binding : Binding) (db : Db) : Prop :=
  wp (createBinding networkIds binding)
    (fun _ t => ∀ r ∈ db.bindings.rows, r ∉ t.bindings.rows → Superseded networkIds binding r)
    (fun _ t => ∀ r ∈ db.bindings.rows, r ∈ t.bindings.rows) db

/-- The checks that come after the deletion: the network is one of the user's,
the rows the binding refers to exist, and its id is free. -/
def Insertable (db : Db) (networkIds : List Uuid) (binding : Binding) : Prop :=
  networkIds.contains binding.base.networkId = true ∧ Storable.references db binding = true ∧
    ∀ r ∈ db.bindings.rows, r.id = createdId db binding → superseded binding r = true

theorem superseded_iff : superseded binding r = true ↔ r.base.networkId = binding.base.networkId ∧
    r.base.serviceId = binding.base.serviceId ∧
    ∃ p i, binding.base.bindingType = .port p none ∧ r.base.bindingType = .port p (some i) := by
  simp only [superseded, Bool.and_eq_true, beq_iff_eq, BindingType.supersedes_iff, and_assoc]

/-- Nothing stored is lost among the remaining rows exactly if nothing is superseded. -/
theorem subset_remaining_iff : (∀ r ∈ db.bindings.rows, r ∈ remaining db binding) ↔
    ∀ r ∈ db.bindings.rows, superseded binding r = false := by
  refine forall_congr' fun r => imp_congr_right fun hr => ?_
  simp only [remaining, List.mem_filter, hr, true_and, Bool.not_eq_true']

/-- The insertion, in a state where the superseded bindings are gone. -/
theorem wp_insert {entity : Binding} (hbase : entity.base = binding.base)
    (hsame : Db.SameButBindings db t) (hrows : ∀ r, r ∈ t.bindings.rows ↔ r ∈ remaining db binding) :
    wp (Storable.create entity)
      (fun _ u => (Storable.references db binding = true ∧ ∀ r ∈ remaining db binding, r.id ≠ entity.id) ∧
        ∀ r ∈ remaining db binding, r ∈ u.bindings.rows)
      (fun _ u => ¬ (Storable.references db binding = true ∧ ∀ r ∈ remaining db binding, r.id ≠ entity.id) ∧
        u = t) t := by
  have href : Storable.references t entity = Storable.references db binding := by
    rw [hsame.references]
    simp only [Storable.references, Binding.portId, Binding.interfaceId, hbase]
  have hbroken : Storable.broken t entity = none := rfl
  simp only [Storable.create, Program.wp_bind, Program.wp_get, hbroken]
  cases hins : (Storable.table t).insert (Storable.row entity) with
  | none =>
    obtain ⟨r, hr, hid⟩ := Table.insert_eq_none.mp hins
    exact ⟨fun hnew => hnew.2 r ((hrows r).mp hr) hid, rfl⟩
  | some u =>
    obtain ⟨hu, hfree⟩ := Table.insert_eq_some hins
    have hnew : ∀ r ∈ remaining db binding, r.id ≠ entity.id := fun r hr => hfree r ((hrows r).mpr hr)
    simp only [href, Program.wp_ite, Program.wp_bind, Program.wp_set, Program.wp_pure, Program.wp_throw]
    refine ⟨fun href => ⟨⟨href, hnew⟩, fun r hr => ?_⟩, fun href => ⟨fun h => href h.1, trivial⟩⟩
    have hr : r ∈ t.bindings.rows := (hrows r).mpr hr
    have hru : r ∈ u.rows := by
      rw [hu]
      exact List.mem_append_left _ hr
    exact hru

/-- **Creating a binding is authorised and atomic** exactly if the request fails
at the conflict check, supersedes nothing, or is sure to succeed. -/
theorem createsAtomically_iff (db : Db) (networkIds : List Uuid) (binding : Binding) :
    CreatesAtomically networkIds binding db ↔
      ServiceService.validateBindingNoConflict binding.base.bindingType
        (bindingsInNetwork db binding.base.networkId binding.base.serviceId) ≠ none ∨
      (∀ r ∈ db.bindings.rows, superseded binding r = false) ∨ Insertable db networkIds binding := by
  have hall : (bindingsInNetwork db binding.base.networkId binding.base.serviceId).filter
      (fun b => none != some b.id) = bindingsInNetwork db binding.base.networkId binding.base.serviceId :=
    List.filter_eq_self.mpr fun b _ => rfl
  unfold CreatesAtomically
  refine Program.wp.iff ?_
  simp only [createBinding, validateNoBindingTypeConflict, Program.wp_bind, Program.wp_get, hall]
  split
  · next hconflict => exact iff_of_true (fun _ hr => hr) (.inl (by rw [hconflict]; nofun))
  next hconflict =>
  simp only [hconflict, ne_eq, not_true_eq_false, false_or]
  refine wp_removeSuperseded.mono (fun _ t ⟨hsame, hdrawn, hrows⟩ => ?_) fun _ _ h => h.elim
  have hkeeps : (∀ r ∈ db.bindings.rows, r ∈ t.bindings.rows) ↔
      ∀ r ∈ db.bindings.rows, superseded binding r = false := by
    simp only [hrows]
    exact subset_remaining_iff
  simp only [validateNetworkAccess, Program.wp_ite, Program.wp_throw, Program.wp_pure, Bool.not_eq_true',
    Bool.not_eq_false]
  refine ⟨fun haccess => ?_, fun haccess => ?_⟩
  · rw [hkeeps]
    refine ⟨.inl, ?_⟩
    rintro (hnone | ⟨hinsert, -⟩)
    · exact hnone
    · rw [haccess] at hinsert
      cases hinsert
  · -- what is left of the request is the insertion of a row under `createdId`
    have hinsertable {entity : Binding} (hid : entity.id = createdId db binding) :
        (Storable.references db binding = true ∧ ∀ r ∈ remaining db binding, r.id ≠ entity.id) ↔
          Insertable db networkIds binding := by
      rw [hid, Insertable]
      simp only [haccess, true_and]
      refine and_congr_right fun _ => ?_
      simp only [remaining, List.mem_filter, and_imp, Bool.not_eq_true']
      refine forall_congr' fun r => imp_congr_right fun _ => ?_
      cases superseded binding r <;> simp
    have hwrite {entity : Binding} {u : Db} (hbase : entity.base = binding.base)
      (hid : entity.id = createdId db binding)
        (hu : Db.SameButBindings db u) (hurows : u.bindings = t.bindings) :
        wp (Storable.create entity)
          (fun _ u => (∀ r ∈ db.bindings.rows, r ∉ u.bindings.rows → Superseded networkIds binding r) ↔
            (∀ r ∈ db.bindings.rows, superseded binding r = false) ∨ Insertable db networkIds binding)
          (fun _ u => (∀ r ∈ db.bindings.rows, r ∈ u.bindings.rows) ↔
            (∀ r ∈ db.bindings.rows, superseded binding r = false) ∨ Insertable db networkIds binding) u := by
      refine (wp_insert hbase hu fun r => by rw [hurows, hrows]).mono ?_ ?_
      · rintro _ v ⟨hnew, hstay⟩
        refine iff_of_true (fun r hr hgone => ?_) (.inr ((hinsertable hid).mp hnew))
        have hsuperseded : superseded binding r = true := by
          by_contra hkept
          refine hgone (hstay r (List.mem_filter.mpr ⟨hr, ?_⟩))
          rw [Bool.eq_false_iff.mpr hkept]
          rfl
        obtain ⟨hnetwork, hservice, htypes⟩ := superseded_iff.mp hsuperseded
        exact ⟨hnetwork ▸ haccess, hservice, htypes⟩
      · rintro _ v ⟨hnew, rfl⟩
        rw [hurows, hkeeps]
        exact ⟨.inl, fun h => h.resolve_right fun hinsert => hnew ((hinsertable hid).mpr hinsert)⟩
    simp only [CrudService.create, Program.wp_bind, Storable.wp_orNew]
    refine ⟨fun hnil => ?_, fun hne => ?_⟩
    · have hid : createdId db binding = t.drawn.headD Uuid.nil := by
        rw [createdId, hdrawn]
        exact if_pos (beq_iff_eq.mpr hnil)
      exact hwrite rfl hid.symm (hsame.trans ⟨t.bindings, t.drawn.tail, rfl⟩) rfl
    · have hid : createdId db binding = binding.id := if_neg fun h => hne (eq_of_beq h)
      exact hwrite rfl hid.symm hsame rfl

/-- A user of no network has the binding of service 7 to port 3 deleted, and is denied the new one. -/
theorem deleted_without_access : ¬ CreatesAtomically [] { base := ⟨7, 5, .port 3 none⟩ }
    { bindings := ⟨[{ id := 1, base := ⟨7, 5, .port 3 (some 2)⟩ }], by decide⟩ } := by
  intro h
  have hkept := Program.wp.mono (R := fun _ _ => True)
    (F := fun _ t => { id := 1, base := ⟨7, 5, .port 3 (some 2)⟩ } ∈ t.bindings.rows) h (fun _ _ _ => trivial)
    fun _ _ hall => hall _ List.mem_cons_self
  exact absurd hkept (by decide +kernel)

end Netvisor.BindingHandlers
