/-
Tables: lists of rows of which no two have the same key, with the statements
of a database against them and what is in a table after each.
-/
import Mathlib.Data.List.Nodup
import Mathlib.Data.List.Sort

universe u v

theorem Table.nodup_nil {α : Type u} {κ : Type v} (key : α → κ) : (([] : List α).map key).Nodup := List.nodup_nil

/-- The rows of a table, keyed by `key`. -/
structure Table (α : Type u) {κ : Type v} (key : α → κ) where
  rows : List α := []
  nodup : (rows.map key).Nodup := by first | exact Table.nodup_nil _ | simp

namespace Table

/-- One row, in a table of its own. -/
def single {α : Type u} {κ : Type v} {key : α → κ} (r : α) : Table α key := ⟨[r], List.nodup_singleton (key r)⟩

variable {α : Type u} {κ : Type v} [DecidableEq κ] {key : α → κ} (t : Table α key) {r x : α} {k : κ}

omit [DecidableEq κ] in
theorem eq_of_key (t : Table α key) (hr : r ∈ t.rows) (hx : x ∈ t.rows) (h : key r = key x) : r = x :=
  List.inj_on_of_nodup_map t.nodup hr hx h

omit [DecidableEq κ] in
theorem eq_of_rows {t t' : Table α key} (h : t.rows = t'.rows) : t = t' := by
  cases t
  cases t'
  cases h
  rfl

/-- The row with the key. -/
def get (k : κ) : Option α := t.rows.find? fun r => key r = k

variable {t}

theorem get_eq_some : t.get k = some r ↔ r ∈ t.rows ∧ key r = k := by
  unfold get
  constructor
  · intro h
    exact ⟨List.mem_of_find?_eq_some h, by simpa using List.find?_some h⟩
  · rintro ⟨hr, rfl⟩
    cases h : t.rows.find? fun x => key x = key r with
    | none => simpa using List.find?_eq_none.mp h r hr
    | some x => rw [t.eq_of_key (List.mem_of_find?_eq_some h) hr (by simpa using List.find?_some h)]

theorem get_eq_none : t.get k = none ↔ ∀ r ∈ t.rows, key r ≠ k := by
  simp only [get, List.find?_eq_none, decide_eq_true_eq, ne_eq]

theorem get_isSome : (t.get k).isSome = true ↔ ∃ r ∈ t.rows, key r = k := by
  simp only [Option.isSome_iff_exists, get_eq_some]

/-! ## Statements -/

/-- Add a row, unless its key is taken. -/
def insert (t : Table α key) (r : α) : Option (Table α key) :=
  if h : key r ∈ t.rows.map key then none
  else some
    { rows := t.rows ++ [r]
      nodup := by
        rw [List.map_append, List.nodup_append]
        refine ⟨t.nodup, List.nodup_singleton _, fun a ha b hb => ?_⟩
        rw [List.map_cons, List.map_nil, List.mem_singleton] at hb
        rw [hb]
        exact fun heq => h (heq ▸ ha) }

theorem insert_eq_some {t' : Table α key} (h : t.insert r = some t') :
    t'.rows = t.rows ++ [r] ∧ ∀ x ∈ t.rows, key x ≠ key r := by
  unfold insert at h
  split at h
  · cases h
  · next hk =>
    cases h
    exact ⟨rfl, fun x hx heq => hk (List.mem_map.mpr ⟨x, hx, heq⟩)⟩

theorem mem_insert_of_ne {t' : Table α key} (h : t.insert r = some t') (hx : x ≠ r) : x ∈ t'.rows ↔ x ∈ t.rows := by
  rw [(insert_eq_some h).1, List.mem_append, List.mem_singleton, or_iff_left hx]

theorem insert_eq_none : t.insert r = none ↔ ∃ x ∈ t.rows, key x = key r := by
  unfold insert
  split
  · next h => simpa using h
  · next h => simpa using h

/-- Replace the row that has the key of `r`, if there is one. -/
def update (t : Table α key) (r : α) : Table α key where
  rows := t.rows.map fun x => if key x = key r then r else x
  nodup := by
    rw [List.map_map]
    convert t.nodup using 1
    refine List.map_congr_left fun x _ => ?_
    simp only [Function.comp_apply]
    split
    · next h => exact h.symm
    · rfl

theorem mem_update : x ∈ (t.update r).rows ↔
    (x = r ∧ ∃ y ∈ t.rows, key y = key r) ∨ (x ∈ t.rows ∧ key x ≠ key r) := by
  simp only [update, List.mem_map]
  constructor
  · rintro ⟨y, hy, rfl⟩
    split
    · next h => exact .inl ⟨rfl, y, hy, h⟩
    · next h => exact .inr ⟨hy, h⟩
  · rintro (⟨rfl, y, hy, h⟩ | ⟨hx, h⟩)
    · exact ⟨y, hy, if_pos h⟩
    · exact ⟨x, hx, if_neg h⟩

theorem mem_update_of_ne (h : key x ≠ key r) : x ∈ (t.update r).rows ↔ x ∈ t.rows := by
  rw [mem_update]
  constructor
  · rintro (⟨rfl, -⟩ | ⟨hx, -⟩)
    · exact absurd rfl h
    · exact hx
  · exact fun hx => .inr ⟨hx, h⟩

/-- Replacing a row by one with the same `f` touches no row with another. -/
theorem mem_update_of_apply_ne {γ : Type*} (f : α → γ) {old : α} (hold : old ∈ t.rows) (hkey : key old = key r)
    (hf : f old = f r) (hx : f x ≠ f r) : x ∈ (t.update r).rows ↔ x ∈ t.rows := by
  rw [mem_update]
  constructor
  · rintro (⟨rfl, -⟩ | ⟨hmem, -⟩)
    · exact absurd rfl hx
    · exact hmem
  · refine fun hmem => .inr ⟨hmem, fun heq => hx ?_⟩
    rw [t.eq_of_key hmem hold (heq.trans hkey.symm)]
    exact hf

/-- What a row shares with the one that replaces it is not touched. -/
theorem map_update {γ : Type*} {f : α → γ} (h : t.get (key r) = some x) (hf : f x = f r) :
    (t.update r).rows.map f = t.rows.map f := by
  obtain ⟨hx, hkey⟩ := get_eq_some.mp h
  simp only [update, List.map_map]
  refine List.map_congr_left fun y hy => ?_
  simp only [Function.comp_apply]
  split
  · next hsame => rw [t.eq_of_key hy hx (hsame.trans hkey.symm), hf]
  · rfl

theorem get_update_self (h : t.get k = some x) (hr : key r = k) : (t.update r).get k = some r := by
  obtain ⟨hx, hxk⟩ := get_eq_some.mp h
  exact get_eq_some.mpr ⟨mem_update.mpr (.inl ⟨rfl, x, hx, hxk.trans hr.symm⟩), hr⟩

theorem get_update : (t.update r).get k = if k = key r then (t.get k).map fun _ => r else t.get k := by
  split
  · next hk =>
    cases h : t.get k with
    | some x => exact get_update_self h hk.symm
    | none =>
      refine get_eq_none.mpr fun x hx hxk => ?_
      rcases mem_update.mp hx with ⟨-, y, hy, hyr⟩ | ⟨hx, -⟩
      · exact get_eq_none.mp h y hy (hyr.trans hk.symm)
      · exact get_eq_none.mp h x hx hxk
  · next hk =>
    refine Option.ext fun x => ?_
    simp only [get_eq_some]
    refine and_congr_left fun hxk => mem_update_of_ne fun hxr => hk (hxk.symm.trans hxr)

/-- Nothing is replaced by itself. -/
theorem update_get (h : t.get (key r) = some r) : t.update r = t := by
  obtain ⟨hr, -⟩ := get_eq_some.mp h
  refine eq_of_rows ((List.map_congr_left fun x hx => ?_).trans (List.map_id _))
  split
  · next hx' => exact t.eq_of_key hr hx hx'.symm
  · rfl

theorem update_missing (h : t.get (key r) = none) : t.update r = t := by
  refine eq_of_rows ((List.map_congr_left fun x hx => ?_).trans (List.map_id _))
  exact if_neg (get_eq_none.mp h x hx)

theorem get_insert {t' : Table α key} (h : t.insert r = some t') :
    t'.get k = if k = key r then some r else t.get k := by
  obtain ⟨hrows, hfree⟩ := insert_eq_some h
  split
  · next hk => exact get_eq_some.mpr ⟨by rw [hrows]; exact List.mem_append_right _ List.mem_cons_self, hk.symm⟩
  · next hk =>
    refine Option.ext fun x => ?_
    simp only [get_eq_some]
    refine and_congr_left fun hxk => mem_insert_of_ne h ?_
    rintro rfl
    exact hk hxk.symm

/-- Keep the rows that pass `p`. -/
def filter (t : Table α key) (p : α → Bool) : Table α key where
  rows := t.rows.filter p
  nodup := t.nodup.sublist (List.filter_sublist.map _)

omit [DecidableEq κ] in
theorem mem_filter {p : α → Bool} : x ∈ (t.filter p).rows ↔ x ∈ t.rows ∧ p x = true := List.mem_filter

theorem get_filter {p : α → Bool} : (t.filter p).get k = (t.get k).filter p := by
  refine Option.ext fun x => ?_
  simp only [get_eq_some, mem_filter, Option.filter_eq_some_iff]
  tauto

/-- The row with a key, and the rows with others. -/
theorem perm_get_filter : ((t.get k).toList ++ (t.filter fun r => !decide (key r = k)).rows).Perm t.rows := by
  have hget : (t.get k).toList.Perm (t.rows.filter fun r => key r = k) := by
    have hnodup : (t.get k).toList.Nodup := by cases t.get k <;> simp
    refine (List.perm_ext_iff_of_nodup hnodup (t.nodup.of_map.filter _)).mpr fun r => ?_
    simp only [Option.mem_toList, get_eq_some, List.mem_filter, decide_eq_true_eq]
  exact (hget.append_right _).trans (List.filter_append_perm _ t.rows)

/-- Replacing a row leaves the rows with other keys. -/
theorem filter_update : ((t.update r).filter fun x => !decide (key x = key r)) = t.filter fun x =>
    !decide (key x = key r) := by
  refine eq_of_rows ?_
  simp only [filter, update, List.filter_map, Function.comp_def]
  have hkey : ∀ x, key (if key x = key r then r else x) = key x := by
    intro x
    split
    · next h => exact h.symm
    · rfl
  simp only [hkey]
  refine (List.map_congr_left fun x hx => ?_).trans (List.map_id _)
  have hne : ¬ key x = key r := by simpa using (List.mem_filter.mp hx).2
  exact if_neg hne

/-- Of the rows that pass `p`, replacing one changes only that one. -/
theorem countP_update {p : α → Bool} (h : t.get (key r) = some x) :
    (t.update r).rows.countP p + (if p x then 1 else 0) = t.rows.countP p + if p r then 1 else 0 := by
  have hold := (perm_get_filter (t := t) (k := key r)).countP_eq p
  have hnew := (perm_get_filter (t := t.update r) (k := key r)).countP_eq p
  rw [h, Option.toList_some, List.countP_append, List.countP_singleton] at hold
  rw [get_update_self h rfl, Option.toList_some, List.countP_append, List.countP_singleton, filter_update] at hnew
  omega

/-- Change the rows, but not their keys. -/
def modify (t : Table α key) (f : α → α) (hf : ∀ x, key (f x) = key x) : Table α key where
  rows := t.rows.map f
  nodup := by
    rw [List.map_map]
    convert t.nodup using 1
    exact List.map_congr_left fun x _ => hf x

theorem get_modify {f : α → α} (hf : ∀ x, key (f x) = key x) : (t.modify f hf).get k = (t.get k).map f := by
  simp only [get, modify, List.find?_map, Function.comp_def, hf]

omit [DecidableEq κ] in
theorem modify_congr {f g : α → α} (hf : ∀ x, key (f x) = key x) (hg : ∀ x, key (g x) = key x)
    (h : ∀ x ∈ t.rows, f x = g x) : t.modify f hf = t.modify g hg :=
  eq_of_rows (List.map_congr_left h)

omit [DecidableEq κ] in
theorem modify_modify {f g : α → α} (hf : ∀ x, key (f x) = key x) (hg : ∀ x, key (g x) = key x) :
    (t.modify f hf).modify g hg = t.modify (fun x => g (f x)) (fun x => (hg (f x)).trans (hf x)) :=
  eq_of_rows (by simp only [modify, List.map_map]; rfl)

omit [DecidableEq κ] in
theorem modify_self {f : α → α} (hf : ∀ x, key (f x) = key x) (h : ∀ x ∈ t.rows, f x = x) : t.modify f hf = t :=
  eq_of_rows ((List.map_congr_left h).trans (List.map_id _))

/-- Replacing a row by what it is changed to, as a change of one row. -/
theorem update_apply [DecidableEq α] {f : α → α} (hf : ∀ x, key (f x) = key x) (hx : x ∈ t.rows) :
    t.update (f x) = t.modify (fun y => if y = x then f y else y) (fun y => by split <;> [exact hf y; rfl]) := by
  refine eq_of_rows (List.map_congr_left fun y hy => ?_)
  by_cases hyx : y = x
  · rw [if_pos hyx, if_pos (by rw [hyx, hf]), hyx]
  · rw [if_neg hyx, if_neg fun hk => hyx (t.eq_of_key hy hx (hk.trans (hf x)))]

/-- Replacing rows one after another by what they are changed to. -/
theorem foldl_update [DecidableEq α] {f : α → α} (hf : ∀ x, key (f x) = key x) (xs : List α)
    (hmem : ∀ x ∈ xs, x ∈ t.rows) (hnodup : (xs.map key).Nodup) :
    xs.foldl (fun t x => t.update (f x)) t =
      t.modify (fun x => if x ∈ xs then f x else x) (fun x => by split <;> [exact hf x; rfl]) := by
  induction xs generalizing t with
  | nil => exact (modify_self _ fun x _ => if_neg (by simp)).symm
  | cons x xs ih =>
    rw [List.map_cons, List.nodup_cons] at hnodup
    obtain ⟨hx, hxs⟩ := hnodup
    have hfx : f x ∉ xs := fun h => hx (hf x ▸ List.mem_map_of_mem h)
    have hkeep : ∀ y ∈ xs, y ∈ (t.update (f x)).rows := by
      intro y hy
      refine (mem_update_of_ne fun hk => hx ?_).mpr (hmem y (List.mem_cons_of_mem _ hy))
      rw [← hf x, ← hk]
      exact List.mem_map_of_mem hy
    rw [List.foldl_cons, ih hkeep hxs]
    refine eq_of_rows ?_
    rw [update_apply hf (hmem x List.mem_cons_self), modify_modify]
    refine List.map_congr_left fun y _ => ?_
    by_cases hyx : y = x
    · rw [if_pos hyx, hyx, if_neg hfx, if_pos List.mem_cons_self]
    · simp only [hyx, if_false, List.mem_cons, false_or]

/-! ## Queries -/

/-- The rows that pass `p`, ordered by `f`. -/
def select (t : Table α key) (p : α → Bool) (f : α → Int) : List α :=
  (t.rows.filter p).insertionSort fun x y => f x ≤ f y

omit [DecidableEq κ] in
theorem mem_select {p : α → Bool} {f : α → Int} : x ∈ t.select p f ↔ x ∈ t.rows ∧ p x = true := by
  rw [select, List.mem_insertionSort, List.mem_filter]

section Sorting

variable {r : α → α → Prop} [DecidableRel r] [Std.Total r] [IsTrans α r] {q : α → Bool}

omit [Std.Total r] in
/-- Selecting some elements of a sorted list commutes with inserting one. -/
theorem filter_orderedInsert (a : α) {l : List α} (hl : l.Pairwise r) :
    (l.orderedInsert r a).filter q = if q a then (l.filter q).orderedInsert r a else l.filter q := by
  induction l with
  | nil => cases h : q a <;> simp [h]
  | cons b l ih =>
    obtain ⟨hb, hl⟩ := List.pairwise_cons.mp hl
    by_cases hab : r a b
    · have hfirst (hq : q b = false) : (l.filter q).orderedInsert r a = a :: l.filter q := by
        cases hfilter : l.filter q with
        | nil => rfl
        | cons c cs =>
          have hc : c ∈ l := (List.mem_filter.mp (hfilter ▸ List.mem_cons_self)).1
          exact List.orderedInsert_cons_of_le _ _ (IsTrans.trans a b c hab (hb c hc))
      rw [List.orderedInsert_cons_of_le _ _ hab, List.filter_cons, List.filter_cons]
      cases hq : q b with
      | true => simp only [if_true, List.orderedInsert_cons_of_le _ _ hab]
      | false => simp only [Bool.false_eq_true, if_false, hfirst hq]
    · rw [List.orderedInsert_of_not_le _ _ hab, List.filter_cons, ih hl, List.filter_cons]
      cases q b with
      | true => simp only [if_true, List.orderedInsert_of_not_le _ _ hab, apply_ite (b :: ·)]
      | false => simp only [Bool.false_eq_true, if_false]

/-- Sorting keeps the order of what is selected. -/
theorem filter_insertionSort (l : List α) : (l.insertionSort r).filter q = (l.filter q).insertionSort r := by
  induction l with
  | nil => rfl
  | cons a l ih =>
    rw [List.insertionSort_cons, filter_orderedInsert a (List.pairwise_insertionSort r l), ih, List.filter_cons]
    split <;> rfl

end Sorting

omit [DecidableEq κ] in
theorem select_filter {p q : α → Bool} {f : α → Int} : (t.filter q).select p f = (t.select p f).filter q := by
  have : Std.Total fun x y : α => f x ≤ f y := ⟨fun x y => le_total (f x) (f y)⟩
  have : IsTrans α fun x y : α => f x ≤ f y := ⟨fun _ _ _ => le_trans⟩
  rw [select, select, filter_insertionSort, filter, List.filter_filter, List.filter_filter]
  simp only [Bool.and_comm]

omit [DecidableEq κ] in
/-- The first selected row that passes `q` is the first of those that pass both. -/
theorem find?_select {p q : α → Bool} {f : α → Int} :
    (t.select p f).find? q = (t.select (fun x => p x && q x) f).head? := by
  have : Std.Total fun x y : α => f x ≤ f y := ⟨fun x y => le_total (f x) (f y)⟩
  have : IsTrans α fun x y : α => f x ≤ f y := ⟨fun _ _ _ => le_trans⟩
  rw [← List.head?_filter, select, filter_insertionSort, List.filter_filter, select]
  simp only [Bool.and_comm]

omit [DecidableEq κ] in
theorem select_perm {p : α → Bool} {f : α → Int} : (t.select p f).Perm (t.rows.filter p) :=
  List.perm_insertionSort _ _

omit [DecidableEq κ] in
theorem nodup_select {p : α → Bool} {f : α → Int} : ((t.select p f).map key).Nodup :=
  (select_perm.map key).nodup_iff.mpr (t.filter p).nodup

omit [DecidableEq κ] in
theorem length_select_of_only {p : α → Bool} {f : α → Int} (hx : x ∈ t.rows) (hp : p x = true)
    (honly : ∀ y ∈ t.rows, p y = true → y = x) : (t.select p f).length = 1 := by
  have hmem : x ∈ t.select p f := mem_select.mpr ⟨hx, hp⟩
  have heq : ∀ y ∈ t.select p f, y = x := fun y hy => honly y (mem_select.mp hy).1 (mem_select.mp hy).2
  have hnodup : (t.select p f).Nodup := nodup_select.of_map
  have hperm : (t.select p f).Perm [x] :=
    (List.perm_ext_iff_of_nodup hnodup (List.nodup_singleton x)).mpr fun y =>
      ⟨fun hy => List.mem_singleton.mpr (heq y hy), fun hy => List.mem_singleton.mp hy ▸ hmem⟩
  exact hperm.length_eq

omit [DecidableEq κ] in
/-- The first row that is selected comes before the others. -/
theorem head?_select {p : α → Bool} {f : α → Int} (h : (t.select p f).head? = some x) :
    x ∈ t.rows ∧ p x = true ∧ ∀ y ∈ t.rows, p y = true → f x ≤ f y := by
  have : Std.Total fun x y : α => f x ≤ f y := ⟨fun x y => le_total (f x) (f y)⟩
  have : IsTrans α fun x y : α => f x ≤ f y := ⟨fun _ _ _ => le_trans⟩
  obtain ⟨hx, hp⟩ := mem_select.mp (List.mem_of_mem_head? h)
  refine ⟨hx, hp, fun y hy hpy => ?_⟩
  have hsorted := List.pairwise_insertionSort (fun x y => f x ≤ f y) (t.rows.filter p)
  have hmem : y ∈ t.select p f := mem_select.mpr ⟨hy, hpy⟩
  rw [← select] at hsorted
  cases hl : t.select p f with
  | nil =>
    rw [hl] at hmem
    exact absurd hmem List.not_mem_nil
  | cons z l =>
    rw [hl, List.head?_cons, Option.some.injEq] at h
    rw [hl, List.mem_cons] at hmem
    rw [hl, List.pairwise_cons] at hsorted
    rw [h] at hmem hsorted
    rcases hmem with rfl | hmem
    · exact le_rfl
    · exact hsorted.1 y hmem

omit [DecidableEq κ] in
/-- A row no other comes before is selected first if it is the first of the table. -/
theorem head?_select_cons {p : α → Bool} {f : α → Int} {rest : List α} (hrows : t.rows = x :: rest) (hp : p x = true)
    (hmin : ∀ y ∈ rest, p y = true → f x ≤ f y) : (t.select p f).head? = some x := by
  rw [select, hrows, List.filter_cons_of_pos hp, List.insertionSort_cons]
  have hle : ∀ y ∈ (rest.filter p).insertionSort (fun x y => f x ≤ f y), f x ≤ f y := by
    intro y hy
    rw [List.mem_insertionSort, List.mem_filter] at hy
    exact hmin y hy.1 hy.2
  cases hl : (rest.filter p).insertionSort fun x y => f x ≤ f y with
  | nil => rfl
  | cons y l => rw [List.orderedInsert, if_pos (hle y (hl ▸ List.mem_cons_self)), List.head?_cons]

omit [DecidableEq κ] in
theorem any_select {p q : α → Bool} {f : α → Int} : (t.select p f).any q = t.rows.any fun x => p x && q x := by
  rw [select_perm.any_eq, List.any_filter]

end Table
