/-
Keyed maps: association lists without repeated keys, with the operations a
hash map offers and what a lookup finds after each of them.

Iteration order is that of the list; a hash map promises none, so facts about
`values` and `keys` are stated as membership.
-/
import Mathlib.Data.List.AList

universe u v

/-- A map from `κ` to `ν`. -/
abbrev Assoc (κ : Type u) (ν : Type v) := AList fun _ : κ => ν

namespace Assoc

variable {κ : Type u} {ν : Type v}

/-- The values, in iteration order. -/
def values (m : Assoc κ ν) : List ν := m.entries.map (·.2)

theorem mem_entries_iff [DecidableEq κ] {m : Assoc κ ν} {k : κ} {v : ν} :
    ⟨k, v⟩ ∈ m.entries ↔ m.lookup k = some v :=
  AList.mem_lookup_iff.symm

theorem mem_values [DecidableEq κ] {m : Assoc κ ν} {v : ν} : v ∈ m.values ↔ ∃ k, m.lookup k = some v := by
  simp only [values, List.mem_map]
  constructor
  · rintro ⟨⟨k, w⟩, hmem, rfl⟩
    exact ⟨k, mem_entries_iff.mp hmem⟩
  · rintro ⟨k, hk⟩
    exact ⟨⟨k, v⟩, mem_entries_iff.mpr hk, rfl⟩

variable [DecidableEq κ] {m : Assoc κ ν} {k k' : κ} {v : ν}

theorem lookup_insert_if : (AList.insert k v m).lookup k' = if k' = k then some v else m.lookup k' := by
  split
  · next h => rw [h, AList.lookup_insert]
  · next h => rw [AList.lookup_insert_ne h]

theorem lookup_erase_if : (AList.erase k m).lookup k' = if k' = k then none else m.lookup k' := by
  split
  · next h => rw [h, AList.lookup_erase]
  · next h => rw [AList.lookup_erase_ne h]

/-- What is found in a list of pairs without repeated keys. -/
theorem lookup_eq_some_iff {l : List (κ × ν)} (h : (l.map Prod.fst).Nodup) : l.lookup k = some v ↔ (k, v) ∈ l := by
  induction l with
  | nil => simp
  | cons entry l ih =>
    rw [List.map_cons, List.nodup_cons] at h
    obtain ⟨k', w⟩ := entry
    rw [List.lookup_cons, List.mem_cons, Prod.mk.injEq]
    by_cases heq : k = k'
    · subst heq
      have hnew : (k, v) ∉ l := fun hmem => h.1 (List.mem_map.mpr ⟨_, hmem, rfl⟩)
      simp [hnew, eq_comm]
    · rw [beq_eq_false_iff_ne.mpr heq, ih h.2]
      simp [heq]

/-- Change the value at `k`, if there is one (`get_mut`). -/
def modify (k : κ) (f : ν → ν) (m : Assoc κ ν) : Assoc κ ν :=
  match m.lookup k with
  | some v => m.insert k (f v)
  | none => m

theorem lookup_modify {f : ν → ν} :
    (m.modify k f).lookup k' = if k' = k then (m.lookup k).map f else m.lookup k' := by
  cases h : m.lookup k with
  | none =>
    simp only [modify, h, Option.map_none]
    split
    · next he => rw [he, h]
    · rfl
  | some v => simp only [modify, h, lookup_insert_if, Option.map_some]

/-- The value at `k`, or `d` (`entry(k).or_default()`). -/
def getD (m : Assoc κ ν) (k : κ) (d : ν) : ν := (m.lookup k).getD d

theorem getD_insert {d : ν} : getD (AList.insert k v m) k' d = if k' = k then v else m.getD k' d := by
  unfold getD
  rw [lookup_insert_if]
  split <;> rfl

theorem getD_modify {f : ν → ν} {d : ν} (hd : f d = d) :
    (m.modify k f).getD k' d = if k' = k then f (m.getD k d) else m.getD k' d := by
  unfold getD
  rw [lookup_modify]
  split
  · cases m.lookup k with
    | none => exact hd.symm
    | some v => rfl
  · rfl

/-- What is collected of all entries, with that of one entry first. -/
theorem perm_flatMap_erase {β : Type*} {f : κ → ν → List β} {d : ν} (hd : f k d = []) :
    (m.entries.flatMap fun e => f e.1 e.2).Perm
      (f k (m.getD k d) ++ (AList.erase k m).entries.flatMap fun e => f e.1 e.2) := by
  by_cases hk : k ∈ m.keys
  · obtain ⟨v, l₁, l₂, -, hl, herase⟩ := List.exists_of_kerase hk
    have hlookup : m.lookup k = some v := mem_entries_iff.mp (by rw [hl]; simp)
    have hentries : (AList.erase k m).entries = l₁ ++ l₂ := herase
    rw [getD, hlookup, hl, hentries, Option.getD_some]
    simp only [List.flatMap_append, List.flatMap_cons]
    exact List.perm_append_comm_assoc _ _ _
  · have hlookup : m.lookup k = none := AList.lookup_eq_none.mpr hk
    have hentries : (AList.erase k m).entries = m.entries := List.kerase_of_notMem_keys hk
    rw [getD, hlookup, hentries, Option.getD_none, hd, List.nil_append]

/-- Adding to the value at a key adds to what is collected. -/
theorem perm_flatMap_insert {β : Type*} (f : κ → ν → List β) {d : ν} {xs : List β} (hd : f k d = [])
    (hv : f k v = f k (m.getD k d) ++ xs) :
    ((AList.insert k v m).entries.flatMap fun e => f e.1 e.2).Perm (xs ++ m.entries.flatMap fun e => f e.1 e.2) := by
  have hentries : (AList.insert k v m).entries = ⟨k, v⟩ :: (AList.erase k m).entries := rfl
  rw [hentries, List.flatMap_cons, hv]
  refine ((List.perm_append_comm.append_right _).trans ?_)
  rw [List.append_assoc]
  exact (perm_flatMap_erase hd).symm.append_left xs

/-- Keep the entries that pass `p` (`retain`). -/
def filter (p : κ → ν → Bool) (m : Assoc κ ν) : Assoc κ ν where
  entries := m.entries.filter fun e => p e.1 e.2
  nodupKeys := m.nodupKeys.sublist List.filter_sublist

theorem lookup_filter {p : κ → ν → Bool} : (m.filter p).lookup k = (m.lookup k).filter (p k) := by
  apply Option.ext
  intro v
  rw [← mem_entries_iff, Option.filter_eq_some_iff, ← mem_entries_iff]
  simp only [filter, List.mem_filter]

/-! ## Changing every value -/

section Map

universe w

variable {ν' : Type w} {f : ν → ν'}

/-- Change every value. -/
def map (f : ν → ν') (m : Assoc κ ν) : Assoc κ ν' where
  entries := m.entries.map fun e => ⟨e.1, f e.2⟩
  nodupKeys := by
    have hkeys : (m.entries.map fun e => (⟨e.1, f e.2⟩ : (_ : κ) × ν')).keys = m.entries.keys := by
      simp [List.keys, Function.comp_def]
    rw [List.NodupKeys, hkeys]
    exact m.nodupKeys

omit [DecidableEq κ] in
theorem values_map : (m.map f).values = m.values.map f := by
  simp [values, map, Function.comp_def]

theorem lookup_map : (m.map f).lookup k = (m.lookup k).map f := by
  apply Option.ext
  intro v
  rw [← mem_entries_iff, Option.map_eq_some_iff]
  simp only [map, List.mem_map, ← mem_entries_iff]
  constructor
  · rintro ⟨⟨k', w⟩, hmem, heq⟩
    cases heq
    exact ⟨w, hmem, rfl⟩
  · rintro ⟨w, hmem, rfl⟩
    exact ⟨⟨k, w⟩, hmem, rfl⟩

/-- Change every value, as its key says. -/
def mapKey (f : κ → ν → ν') (m : Assoc κ ν) : Assoc κ ν' where
  entries := m.entries.map fun e => ⟨e.1, f e.1 e.2⟩
  nodupKeys := by
    have hkeys : (m.entries.map fun e => (⟨e.1, f e.1 e.2⟩ : (_ : κ) × ν')).keys = m.entries.keys := by
      simp [List.keys, Function.comp_def]
    rw [List.NodupKeys, hkeys]
    exact m.nodupKeys

omit [DecidableEq κ] in
theorem keys_mapKey {f : κ → ν → ν'} : (m.mapKey f).keys = m.keys := by
  simp [mapKey, AList.keys, List.keys, Function.comp_def]

theorem map_erase : map f (AList.erase k m) = AList.erase k (m.map f) := by
  apply AList.ext
  change (m.entries.kerase k).map _ = (m.entries.map _).kerase k
  simp only [List.kerase, List.eraseP_map]
  rfl

theorem map_insert : map f (AList.insert k v m) = AList.insert k (f v) (m.map f) := by
  apply AList.ext
  simp only [map, AList.insert, List.kinsert, List.kerase, List.eraseP_map]
  rfl

theorem map_modify {g : ν → ν} {g' : ν' → ν'} (h : ∀ v, f (g v) = g' (f v)) :
    map f (m.modify k g) = (m.map f).modify k g' := by
  unfold modify
  rw [lookup_map]
  cases m.lookup k with
  | none => rfl
  | some v =>
    dsimp only [Option.map_some]
    rw [map_insert, h]

end Map

end Assoc
