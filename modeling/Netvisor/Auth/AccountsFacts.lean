/-
What the statements against the accounts do: rules for programs, and what is in
the tables afterwards.
-/
import Netvisor.Auth.Accounts

namespace Netvisor

open Program (wp)

/-! ## Statements -/

section Statements

variable {α : Type} {key : α → Uuid} {t t' : Table α key} {uniques : List (String × (α → α → Bool))}
  {table constraint : String} {owner references : Bool} {hasNetwork : Uuid → Bool} {id : Uuid} {r x : α}

/-- A row that breaks no constraint clashes with no row of another key. -/
theorem not_clash (h : violated t uniques r = none) {c : String × (α → α → Bool)} (hc : c ∈ uniques)
    (hx : x ∈ t.rows) (hne : key x ≠ key r) : c.2 x r = false := by
  rw [violated, Option.map_eq_none_iff, List.find?_eq_none] at h
  have hnone := h c hc
  simp only [List.any_eq_true, Bool.and_eq_true, bne_iff_ne, not_exists, not_and, Bool.not_eq_true] at hnone
  exact hnone x hx hne

theorem insertInto_eq_ok (h : insertInto table t uniques references r = .ok t') :
    t.insert r = some t' ∧ violated t uniques r = none ∧ references = true := by
  unfold insertInto at h
  split at h
  · cases h
  · cases h
  · next hins hviolated =>
    split at h
    · next href =>
      cases h
      exact ⟨hins, hviolated, href⟩
    · cases h

/-- An `UPDATE` finds no row, or replaces the row with its key. -/
theorem updateIn_eq_ok (h : updateIn table t uniques references r = .ok t') :
    (t.get (key r) = none ∧ t' = t) ∨
    (violated t uniques r = none ∧ references = true ∧ t' = t.update r) := by
  unfold updateIn at h
  split at h
  · next hmissing =>
    cases h
    exact .inl ⟨Option.isNone_iff_eq_none.mp hmissing, rfl⟩
  · split at h
    · cases h
    · next hviolated =>
      split at h
      · next href =>
        cases h
        exact .inr ⟨hviolated, href, rfl⟩
      · cases h

theorem updateIn_of (hget : (t.get (key r)).isSome = true) (hviolated : violated t uniques r = none)
    (href : references = true) : updateIn table t uniques references r = .ok (t.update r) := by
  have hget : ¬ ((t.get (key r)).isNone = true) := by
    rw [Option.isNone_iff_eq_none]
    intro h
    rw [h] at hget
    cases hget
  rw [updateIn, if_neg hget, hviolated]
  exact if_pos href

theorem grantAccess_eq_ok {networkIds : List Uuid} {rows rows' : List (Uuid × Uuid)}
    (h : grantAccess table constraint owner hasNetwork id rows networkIds = .ok rows') :
    rows' = rows ++ networkIds.map (fun n => (id, n)) ∧ ∀ n ∈ networkIds, owner = true ∧ hasNetwork n = true := by
  induction networkIds generalizing rows with
  | nil =>
    cases h
    simp
  | cons n ns ih =>
    rw [grantAccess] at h
    split at h
    · cases h
    · split at h
      · next hn =>
        obtain ⟨hrows, hall⟩ := ih h
        rw [Bool.and_eq_true] at hn
        refine ⟨by simp [hrows], fun m hm => ?_⟩
        rcases List.mem_cons.mp hm with rfl | hm
        · exact hn
        · exact hall m hm
      · cases h

/-- No network is given twice. -/
theorem grantAccess_nodup {networkIds : List Uuid} {rows rows' : List (Uuid × Uuid)}
    (h : grantAccess table constraint owner hasNetwork id rows networkIds = .ok rows') :
    networkIds.Nodup ∧ ∀ n ∈ networkIds, (id, n) ∉ rows := by
  induction networkIds generalizing rows with
  | nil => simp
  | cons n ns ih =>
    rw [grantAccess] at h
    split at h
    · cases h
    · next hcontains =>
      split at h
      · obtain ⟨hnodup, hfree⟩ := ih h
        have hn : n ∉ ns := fun hn => hfree n hn (by simp)
        refine ⟨List.nodup_cons.mpr ⟨hn, hnodup⟩, fun m hm => ?_⟩
        rcases List.mem_cons.mp hm with rfl | hm
        · simpa using hcontains
        · exact fun hmem => hfree m hm (List.mem_append_left _ hmem)
      · cases h

/-- The networks are stored, and none is named twice. -/
theorem grantAccess_of {networkIds : List Uuid} {rows : List (Uuid × Uuid)} (howner : owner = true)
    (hall : ∀ n ∈ networkIds, hasNetwork n = true) (hnodup : networkIds.Nodup)
    (hfree : ∀ n ∈ networkIds, (id, n) ∉ rows) :
    grantAccess table constraint owner hasNetwork id rows networkIds =
        .ok (rows ++ networkIds.map (fun n => (id, n))) := by
  induction networkIds generalizing rows with
  | nil => simp [grantAccess]
  | cons n ns ih =>
    obtain ⟨hn, hns⟩ := List.nodup_cons.mp hnodup
    have hcontains : ¬ rows.contains (id, n) = true := by simpa using hfree n List.mem_cons_self
    rw [grantAccess, if_neg hcontains, if_pos (by rw [howner, hall n List.mem_cons_self]; rfl)]
    rw [ih (fun m hm => hall m (List.mem_cons_of_mem _ hm)) hns]
    · simp
    · intro m hm hmem
      rcases List.mem_append.mp hmem with hmem | hmem
      · exact hfree m (List.mem_cons_of_mem _ hm) hmem
      · simp only [List.mem_singleton, Prod.mk.injEq, true_and] at hmem
        exact hn (hmem ▸ hm)

/-- The owner has the networks, and the others what they had. -/
theorem replaceAccess_eq_ok {networkIds : List Uuid} {rows rows' : List (Uuid × Uuid)}
    (h : replaceAccess table constraint owner hasNetwork id rows networkIds = .ok rows') {r : Uuid × Uuid} :
    r ∈ rows' ↔ (r ∈ rows ∧ r.1 ≠ id) ∨ (r.1 = id ∧ r.2 ∈ networkIds) := by
  obtain ⟨rfl, -⟩ := grantAccess_eq_ok h
  obtain ⟨k, n⟩ := r
  simp only [List.mem_append, List.mem_filter, bne_iff_ne, ne_eq, List.mem_map, Prod.mk.injEq]
  refine or_congr_right ⟨?_, ?_⟩
  · rintro ⟨m, hm, rfl, rfl⟩
    exact ⟨rfl, hm⟩
  · rintro ⟨rfl, hn⟩
    exact ⟨n, hn, rfl, rfl⟩

theorem replaceAccess_of {networkIds : List Uuid} {rows : List (Uuid × Uuid)} (howner : owner = true)
    (hall : ∀ n ∈ networkIds, hasNetwork n = true) (hnodup : networkIds.Nodup) :
    ∃ rows', replaceAccess table constraint owner hasNetwork id rows networkIds = .ok rows' :=
  ⟨_, grantAccess_of howner hall hnodup fun n _ hmem => by simpa using (List.mem_filter.mp hmem).2⟩

end Statements

/-! ## Extractors -/

section Extractors

variable {σ : Type} {s : σ} {entity : AuthenticatedEntity} {Q : Unit → σ → Prop} {E : ApiError → σ → Prop}

@[simp] theorem wp_authorize {p : PermissionRequirement} :
    wp (authorize p entity) Q E s ↔ (p.authorized entity = none → Q () s) ∧
      ∀ e, p.authorized entity = some e → E e s := by
  unfold authorize
  split <;> simp_all

/-- The plan of the organization of the entity has the feature. -/
def HasFeature (feature : BillingPlanFeatures → Bool) (organizations : Table Organization Organization.id)
    (entity : AuthenticatedEntity) : Prop :=
  PermissionRequirement.viewer.authorized entity = none ∧ ∃ organizationId organization,
    entity.organizationId = some organizationId ∧ organizations.get organizationId = some organization ∧
      feature (organization.plan.getD .community).features = true

instance {feature : BillingPlanFeatures → Bool} {organizations : Table Organization Organization.id} :
    Decidable (HasFeature feature organizations entity) :=
  decidable_of_iff
    (PermissionRequirement.viewer.authorized entity = none ∧ (entity.organizationId.any fun organizationId =>
      (organizations.get organizationId).any fun organization =>
        feature (organization.plan.getD .community).features) = true)
    (by simp only [HasFeature, Option.any_eq_true, exists_and_left])

theorem wp_requireFeature {feature : BillingPlanFeatures → Bool} {message : String}
    {organizations : Table Organization Organization.id} (hQ : HasFeature feature organizations entity → Q () s)
    (hE : ∀ e, ¬ HasFeature feature organizations entity → E e s) :
    wp (requireFeature feature message organizations entity) Q E s := by
  unfold requireFeature
  simp only [Program.wp_bind, wp_authorize]
  refine ⟨fun hviewer => ?_, fun e he => hE e fun h => by rw [h.1] at he; cases he⟩
  split
  · next hnone =>
    refine hE _ fun h => ?_
    obtain ⟨-, _, _, hsome, -⟩ := h
    rw [hnone] at hsome
    cases hsome
  next organizationId hid =>
  split
  · next hnone =>
    refine hE _ fun h => ?_
    obtain ⟨-, _, _, hsome, hget, -⟩ := h
    rw [hid] at hsome
    cases hsome
    rw [hnone] at hget
    cases hget
  next organization hget =>
  simp only [Program.wp_ite, Program.wp_pure, Program.wp_throw]
  refine ⟨fun hfeature => hQ ⟨hviewer, _, _, hid, hget, hfeature⟩, fun hfeature => hE _ fun h => ?_⟩
  obtain ⟨-, _, _, hsome, hget', h⟩ := h
  rw [hid] at hsome
  cases hsome
  rw [hget] at hget'
  cases hget'
  exact hfeature h

end Extractors

/-! ## Programs -/

@[simp] theorem wp_runStatement {σ α : Type} {s : σ} {result : Except ApiError α} {Q : α → σ → Prop}
    {E : ApiError → σ → Prop} :
    wp (runStatement result) Q E s ↔ (∀ a, result = .ok a → Q a s) ∧ ∀ e, result = .error e → E e s := by
  cases result <;> simp [runStatement]

section Programs

variable {α : Type} {s : Accounts}

@[simp] theorem AccountStore.wp_newV4 {Q : Uuid → Accounts → Prop} {E : ApiError → Accounts → Prop} :
    wp AccountStore.newV4 Q E s ↔ Q (s.drawn.headD Uuid.nil) { s with drawn := s.drawn.tail } := Iff.rfl

variable [EmailRules]

/-- The user can be read back. -/
def User.Readable (user : User) : Prop := EmailRules.invalid user.base.email = none

instance (user : User) : Decidable user.Readable := inferInstanceAs (Decidable (_ = _))

@[simp] theorem User.read_id (user : User) : user.read.id = user.id := rfl

theorem User.fromRow_eq_ok {user u : User} : user.fromRow = .ok u ↔ user.Readable ∧ u = user.read := by
  unfold User.fromRow User.Readable
  split
  · next e h => simp [h]
  · next h => simp [h, eq_comm]

theorem User.fromRow_eq_error {user : User} {e : ApiError} (h : user.fromRow = .error e) : ¬ user.Readable := by
  intro hread
  rw [User.fromRow_eq_ok.mpr ⟨hread, rfl⟩] at h
  cases h

namespace UserService

variable {Q : Option User → Accounts → Prop} {E : ApiError → Accounts → Prop} {id : Uuid} {p : User → Bool}

/-- Reading a row gives it back, fails if it does not parse, and changes nothing. -/
theorem wp_readRow {row : Option User} : wp (readRow row) Q E s ↔ (row = none → Q none s) ∧
    ∀ user, row = some user → (user.Readable → Q (some user.read) s) ∧ ∀ e, user.fromRow = .error e → E e s := by
  cases row with
  | none => simp [readRow]
  | some user => simp [readRow, User.fromRow_eq_ok]

theorem wp_getById : wp (getById id) Q E s ↔ (s.users.get id = none → Q none s) ∧
    ∀ user, s.users.get id = some user →
      (user.Readable → Q (some user.read) s) ∧ ∀ e, user.fromRow = .error e → E e s := by
  simp only [getById, Program.wp_bind, Program.wp_get, wp_readRow]

theorem wp_getOne : wp (getOne p) Q E s ↔ (s.users.rows.find? p = none → Q none s) ∧
    ∀ user, s.users.rows.find? p = some user →
      (user.Readable → Q (some user.read) s) ∧ ∀ e, user.fromRow = .error e → E e s := by
  simp only [getOne, Program.wp_bind, Program.wp_get, wp_readRow]

/-- What is read are the rows, oldest first. -/
theorem wp_getAll_read {Q : List User → Accounts → Prop} (hQ : Q ((s.users.select p User.createdAt).map User.read) s)
    (hE : ∀ e, E e s) : wp (getAll p) Q E s := by
  have hread (rows : List User) : ∀ Q : List User → Accounts → Prop, Q (rows.map User.read) s →
      wp (rows.mapM fun user => runStatement user.fromRow) Q E s := by
    induction rows with
    | nil => exact fun Q hQ => hQ
    | cons row rows ih =>
      intro Q hQ
      rw [List.mapM_cons, Program.wp_bind]
      cases hrow : row.fromRow with
      | error e => exact hE e
      | ok user =>
        obtain ⟨-, rfl⟩ := User.fromRow_eq_ok.mp hrow
        exact Program.wp_bind.mpr (ih _ hQ)
  simp only [getAll, Program.wp_bind, Program.wp_get]
  exact hread _ Q hQ

/-- Reading rows changes nothing. -/
theorem wp_getAll {Q : List User → Accounts → Prop} (hQ : ∀ users, Q users s) (hE : ∀ e, E e s) :
    wp (getAll p) Q E s :=
  wp_getAll_read (hQ _) hE

/-- Updating a user finds the row and replaces it, or fails and changes nothing. -/
theorem wp_update {user : User} {Q : User → Accounts → Prop} : wp (update user) Q E s ↔
    (s.users.get user.id = none → E (.internalError ("Could not find " ++ toString user)) s) ∧
    ∀ row, s.users.get user.id = some row →
      (row.Readable →
        (∀ users, updateIn "users" s.users uniques (references s user) user.row = .ok users →
          Q user { s with users }) ∧
        ∀ e, updateIn "users" s.users uniques (references s user) user.row = .error e → E e s) ∧
      ∀ e, row.fromRow = .error e → E e s := by
  simp only [update, Program.wp_bind, wp_getById, Program.wp_throw, store, Program.wp_get, wp_runStatement,
    Program.wp_set, Program.wp_pure]

end UserService

end Programs

end Netvisor
