/-
Whether the pages of a list are a partition of it.

No column that a list can be ordered by is unique, and nothing else breaks a
tie, so each query may have rows that tie in another order.
-/
import Mathlib.Algebra.Order.Monoid.Unbundled.WithTop
import Netvisor.Crud.Listing

namespace Netvisor

variable {κ : Type} [LinearOrder κ] {O : Type} [OrderField O]

namespace FilterQuery

variable (self : FilterQuery O) (db : Sql.Database κ) (table : String) (conditions : Sql.Row κ → Bool)

/-- The query for page `k`, on the rows of the table that the conditions let through. -/
def page (k : Nat) : StorableFilter κ × List Sql.Part :=
  (self.walk k).query { tableName := table, conditions := conditions }

/-- However each query is answered, every page tells the number of the matching rows, and the pages together hold each
of them once. -/
def Partitions : Prop :=
  let matching := (db.tables table).rows.filter conditions
  ∀ m, Through self.pagination.limit matching.length m → ∀ outs : Nat → List (Sql.Line κ),
    (∀ k, Answers db (self.page table conditions k) (outs k)) →
      (∀ k, (getPaginated db (self.page table conditions k).1 (outs k)).totalCount = matching.length) ∧
      ((List.range m).flatMap fun k =>
        (getPaginated db (self.page table conditions k).1 (outs k)).items).Perm matching

/-- The pages are as long as the step from one to the next, or the first has all the rows, and no step leads into the
midst of rows that the `ORDER BY` does not tell apart. -/
def Separates : Prop :=
  let query := self.query { tableName := table, conditions := conditions }
  (stride self.pagination.limit ≤ PaginationParams.maxLimit ∨
    ((db.tables table).rows.filter conditions).length ≤ PaginationParams.maxLimit) ∧
  ∀ k, ¬ Paging.Straddled (Sql.orderLe db query.2) (query.1.lines db) (k * stride self.pagination.limit)

end FilterQuery

variable {self : FilterQuery O} {db : Sql.Database κ} {table : String} {conditions : Sql.Row κ → Bool}

omit [LinearOrder κ] in
/-- The joins and the `ORDER BY` are the fields' and the direction's alone. -/
theorem exists_applyOrdering (groupBy orderBy : Option O) (direction : Option OrderDirection)
    (defaultOrder : Sql.Part) :
    ∃ joins parts, ∀ filter : StorableFilter κ,
      applyOrdering groupBy orderBy direction filter defaultOrder =
        ({ filter with joins := filter.joins ++ joins }, parts) := by
  cases groupBy with
  | none =>
    cases orderBy with
    | none => exact ⟨[], [defaultOrder], fun filter => by simp [applyOrdering]⟩
    | some orderField =>
      cases h : OrderField.joinSql orderField with
      | none => exact ⟨[], _, fun filter => Prod.ext (by simp [applyOrdering, h]) rfl⟩
      | some join => exact ⟨[join], _, fun filter => Prod.ext (by simp [applyOrdering, h, StorableFilter.join]) rfl⟩
  | some groupField =>
    cases hgroup : OrderField.joinSql groupField with
    | none =>
      cases orderBy with
      | none => exact ⟨[], _, fun filter => Prod.ext (by simp [applyOrdering, hgroup]) rfl⟩
      | some orderField =>
        cases h : OrderField.joinSql orderField with
        | none => exact ⟨[], _, fun filter => Prod.ext (by simp [applyOrdering, hgroup, h]) rfl⟩
        | some join =>
          exact ⟨[join], _, fun filter => Prod.ext (by simp [applyOrdering, hgroup, h, StorableFilter.join]) rfl⟩
    | some groupJoin =>
      cases orderBy with
      | none =>
        exact ⟨[groupJoin], _, fun filter => Prod.ext (by simp [applyOrdering, hgroup, StorableFilter.join]) rfl⟩
      | some orderField =>
        cases h : OrderField.joinSql orderField with
        | none =>
          exact ⟨[groupJoin], _, fun filter => Prod.ext (by simp [applyOrdering, hgroup, h, StorableFilter.join]) rfl⟩
        | some join =>
          -- the join of the group is not made twice
          by_cases heq : groupJoin = join
          · refine ⟨[groupJoin], _, fun filter => Prod.ext ?_ rfl⟩
            simp [applyOrdering, hgroup, h, heq, StorableFilter.join]
          · refine ⟨[groupJoin, join], _, fun filter => Prod.ext ?_ rfl⟩
            simp [applyOrdering, hgroup, h, heq, StorableFilter.join]

namespace FilterQuery

/-- Every page is asked of the same lines, one for each matching row, in the same order. -/
theorem exists_page (self : FilterQuery O) (db : Sql.Database κ) (table : String) (conditions : Sql.Row κ → Bool) :
    ∃ (joins : List Sql.LeftJoin) (parts : List Sql.Part) (line : Sql.Row κ → Sql.Line κ), (∀ r, (line r).row = r) ∧
      ∀ pagination : PaginationParams,
        ({ self with pagination := pagination } : FilterQuery O).query { tableName := table, conditions :=
          conditions } =
          ({ tableName := table, conditions := conditions, limitValue := pagination.effectiveLimit,
              offsetValue := some pagination.effectiveOffset, joins := joins }, parts) ∧
        (({ self with pagination := pagination } : FilterQuery O).query
            { tableName := table, conditions := conditions }).1.lines db =
          ((db.tables table).rows.filter conditions).map line := by
  obtain ⟨joins, parts, happly⟩ := exists_applyOrdering (κ := κ) self.groupBy self.orderBy self.orderDirection
    (OrderField.defaultOrder O)
  obtain ⟨line, hrow, hsource⟩ : ∃ line : Sql.Row κ → Sql.Line κ, (∀ r, (line r).row = r) ∧
      Sql.source db table joins = (db.tables table).rows.map line := Sql.exists_source table joins
  refine ⟨joins, parts, line, hrow, fun pagination => ?_⟩
  have hquery : ({ self with pagination := pagination } : FilterQuery O).query
      { tableName := table, conditions := conditions } =
      ({ tableName := table, conditions := conditions, limitValue := pagination.effectiveLimit,
          offsetValue := some pagination.effectiveOffset, joins := joins }, parts) := by
    rw [query, happly]
    cases h : pagination.effectiveLimit <;> simp [PaginationParams.applyToFilter, h, StorableFilter.offset,
      StorableFilter.limit]
  refine ⟨hquery, ?_⟩
  rw [hquery, StorableFilter.lines, hsource, List.filter_map]
  congr 1
  exact List.filter_congr fun r _ => by rw [Function.comp_apply, hrow]

theorem effectiveLimit_eq (params : PaginationParams) : params.effectiveLimit =
    if stride params.limit = 0 then none else some (min (stride params.limit) PaginationParams.maxLimit) := by
  rcases h : params.limit with _ | _ | n <;> simp [PaginationParams.effectiveLimit, stride, h]
  rfl

/-- **The pages of a list are a partition of it, whatever orders its queries are answered in**, just when no step from
page to page leads into the midst of rows that the `ORDER BY` does not tell apart, nor past the cap of a page. -/
theorem partitions_iff_separates (self : FilterQuery O) (db : Sql.Database κ) (table : String)
    (conditions : Sql.Row κ → Bool) : self.Partitions db table conditions ↔ self.Separates db table conditions := by
  obtain ⟨joins, parts, line, hrow, hpage⟩ := self.exists_page db table conditions
  let matching := (db.tables table).rows.filter conditions
  let limit := self.pagination.limit
  have hinj : Function.Injective line := fun a b h => by rw [← hrow a, h, hrow]
  have hnodup : (matching.map line).Nodup := (((db.tables table).nodup.of_map).filter _).map hinj
  have hback : (matching.map line).map Sql.Line.row = matching := by
    rw [List.map_map]
    exact (List.map_congr_left fun r _ => hrow r).trans (List.map_id _)
  -- a list of lines is the same as the list of their rows
  have hperm : ∀ lines : List (Sql.Line κ), lines ⊆ matching.map line →
      ((lines.map Sql.Line.row).Perm matching ↔ lines.Perm (matching.map line)) := by
    intro lines hlines
    have hlines' : (lines.map Sql.Line.row).map line = lines := by
      rw [List.map_map]
      refine (List.map_congr_left fun l hl => ?_).trans (List.map_id _)
      obtain ⟨r, -, rfl⟩ := List.mem_map.mp (hlines hl)
      rw [Function.comp_apply, hrow, id]
    constructor
    · intro h
      have := h.map line
      rwa [hlines'] at this
    · intro h
      have := h.map Sql.Line.row
      rwa [hback] at this
  have hanswers : ∀ k out, Answers db (self.page table conditions k) out ↔
      Paging.Lists (Sql.orderLe db parts) (matching.map line) out := by
    intro k out
    rw [Answers, page, walk, (hpage _).2, (hpage _).1]
  have htotal : ∀ k out, (getPaginated db (self.page table conditions k).1 out).totalCount = matching.length := by
    intro k out
    rw [getPaginated, page, walk, (hpage _).2, List.length_map]
  have hitems : ∀ k out, (getPaginated db (self.page table conditions k).1 out).items =
      (if stride limit = 0 then out
        else Paging.page (min (stride limit) PaginationParams.maxLimit) (k * stride limit) out).map Sql.Line.row := by
    intro k out
    rw [getPaginated, page, walk, (hpage _).1, StorableFilter.pagination, effectiveLimit_eq]
    by_cases hzero : stride limit = 0 <;> simp [hzero, limit, PaginationParams.effectiveOffset]
  have hseparates : self.Separates db table conditions ↔
      (stride limit ≤ PaginationParams.maxLimit ∨ matching.length ≤ PaginationParams.maxLimit) ∧
        ∀ k, ¬ Paging.Straddled (Sql.orderLe db parts) (matching.map line) (k * stride limit) := by
    obtain ⟨hquery, hlines⟩ : self.query _ = _ ∧ (self.query _).1.lines db = _ := hpage self.pagination
    rw [Separates, hlines, hquery]
  let shown := fun k (out : List (Sql.Line κ)) => if stride limit = 0 then out
    else Paging.page (min (stride limit) PaginationParams.maxLimit) (k * stride limit) out
  have hsub : ∀ k out, shown k out ⊆ out := by
    intro k out
    by_cases hzero : stride limit = 0
    · simp only [shown, if_pos hzero, List.Subset.refl]
    · simpa only [shown, if_neg hzero] using (Paging.page_sublist ..).subset
  have hpartitions : self.Partitions db table conditions ↔ ∀ m, Through limit matching.length m →
      ∀ outs : Nat → List (Sql.Line κ), (∀ k, Paging.Lists (Sql.orderLe db parts) (matching.map line) (outs k)) →
        ((List.range m).flatMap fun k => shown k (outs k)).Perm (matching.map line) := by
    refine forall_congr' fun m => imp_congr_right fun _ => forall_congr' fun outs => ?_
    simp only [hanswers]
    refine imp_congr_right fun houts => ?_
    rw [← hperm, List.map_flatMap]
    · simp only [hitems]
      exact and_iff_right fun k => htotal k _
    · intro l hl
      obtain ⟨k, -, hk⟩ := List.mem_flatMap.mp hl
      exact (houts k).perm.subset (hsub _ _ hk)
  rw [hseparates, hpartitions]
  by_cases hzero : stride limit = 0
  · -- the one page is the list
    refine iff_of_true (fun m hm outs houts => ?_) ⟨.inl (by omega), fun k => ?_⟩
    · rw [Through, if_pos hzero] at hm
      obtain rfl := hm
      simpa [shown, hzero] using (houts 0).perm
    · rintro ⟨r, -, hbefore, -⟩
      rw [hzero, Nat.mul_zero] at hbefore
      exact absurd hbefore (Nat.not_lt_zero _)
  · have hpos : 0 < stride limit := Nat.pos_of_ne_zero hzero
    have hcap : (stride limit ≤ min (stride limit) PaginationParams.maxLimit ∨
        (matching.map line).length ≤ min (stride limit) PaginationParams.maxLimit) ↔
        (stride limit ≤ PaginationParams.maxLimit ∨ matching.length ≤ PaginationParams.maxLimit) := by
      rw [List.length_map]
      omega
    have hiff : ∀ m, matching.length ≤ m * stride limit →
        ((∀ outs : Nat → List (Sql.Line κ), (∀ k, Paging.Lists (Sql.orderLe db parts) (matching.map line) (outs k)) →
          (Paging.pages (min (stride limit) PaginationParams.maxLimit) (stride limit) m outs).Perm
            (matching.map line)) ↔
        (stride limit ≤ PaginationParams.maxLimit ∨ matching.length ≤ PaginationParams.maxLimit) ∧
          ∀ k, ¬ Paging.Straddled (Sql.orderLe db parts) (matching.map line) (k * stride limit)) := by
      intro m hm
      rw [← hcap]
      exact Paging.perm_pages_iff hpos (Nat.min_le_left _ _) hnodup (by rwa [List.length_map])
    simp only [shown, if_neg hzero, Through]
    constructor
    · intro h
      have hm : matching.length ≤ matching.length * stride limit := Nat.le_mul_of_pos_right _ hpos
      exact (hiff _ hm).mp (h _ hm)
    · intro h m hm
      exact (hiff m hm).mpr h

/-! ## A lost row -/

/-- Hosts of one name. -/
def namesake (id : Nat) : Sql.Row Nat := { id := id, columns := fun _ => (7 : Nat) }

def namesakes : Sql.Database Nat where
  tables name := if name = "hosts" then { rows := [namesake 1, namesake 2], nodup := by decide } else {}
  emptyText := 0

def byName : FilterQuery HostOrderField := { orderBy := some .name, pagination := { limit := some 1 } }

/-- By name, one at a time, both queries may show the first host, and the second is on no page. -/
theorem names_lose_a_host :
    ¬ ∀ {κ : Type} [LinearOrder κ] {O : Type} [OrderField O] (self : FilterQuery O) (db : Sql.Database κ)
      (table : String)
      (conditions : Sql.Row κ → Bool), self.Partitions db table conditions := by
  intro h
  let first := Sql.Line.of "hosts" (namesake 1)
  let second := Sql.Line.of "hosts" (namesake 2)
  have hboth : Paging.Lists (Sql.orderLe namesakes [⟨.column "hosts" "name", .asc⟩]) [first, second] [first, second] ∧
      Paging.Lists (Sql.orderLe namesakes [⟨.column "hosts" "name", .asc⟩]) [first, second] [second, first] :=
    ⟨⟨.refl _, by decide⟩, ⟨.swap _ _ _, by decide⟩⟩
  have hpages := h byName namesakes "hosts" (fun _ => true) 2 (by rw [Through]; decide)
    (fun k => if k = 0 then [first, second] else [second, first]) fun k => by
      by_cases hk : k = 0
      · rw [if_pos hk]
        exact hboth.1
      · rw [if_neg hk]
        exact hboth.2
  exact absurd (hpages.2.map Sql.Row.id) (by decide)

end FilterQuery

end Netvisor
