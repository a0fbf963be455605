/-
Entries gathered under keys: each item is put into the entry of its key, which
its first item makes.

The items are of rows, and a row has a key. Where no two rows have the same key
the entries are the rows, and each holds what the items of its row tell and
nothing else; and there are as many entries as rows only then.
-/
import Mathlib.Data.Finset.Card
import Mathlib.Data.List.Dedup
import Netvisor.Lib.Assoc

variable {ι κ ν ρ : Type*} [DecidableEq κ] [DecidableEq ρ]

namespace Assoc

/-- `entry(key).or_insert_with(fresh)`, changed by the item. -/
def put (fresh : κ → ν) (add : ν → ι → ν) (m : Assoc κ ν) (k : κ) (x : ι) : Assoc κ ν :=
  m.insert k (add (m.getD k (fresh k)) x)

def gather (key : ι → κ) (fresh : κ → ν) (add : ν → ι → ν) (items : List ι) : Assoc κ ν :=
  items.foldl (fun m x => m.put fresh add (key x) x) ∅

variable {key : ι → κ} {fresh : κ → ν} {add : ν → ι → ν} {items : List ι}

theorem gather_append {x : ι} :
    gather key fresh add (items ++ [x]) = (gather key fresh add items).put fresh add (key x) x := by
  rw [gather, List.foldl_append]
  rfl

/-- **An entry holds what the items of its key tell.** -/
theorem lookup_gather (k : κ) : (gather key fresh add items).lookup k =
    if k ∈ items.map key then some ((items.filter fun x => key x = k).foldl add (fresh k)) else none := by
  induction items using List.reverseRecOn with
  | nil => simp [gather]
  | append_singleton items x ih =>
    rw [gather_append, put, lookup_insert_if, List.filter_append, List.foldl_append, List.map_append]
    by_cases hk : k = key x
    · subst hk
      rw [getD, ih]
      by_cases hmem : key x ∈ items.map key
      · simp [hmem]
      · have hnone : items.filter (fun y => key y = key x) = [] := by
          rw [List.filter_eq_nil_iff]
          intro y hy
          have hne : key y ≠ key x := fun he => hmem (List.mem_map.mpr ⟨y, hy, he⟩)
          simpa using hne
        simp [hmem, hnone]
    · have hx : ¬key x = k := fun he => hk he.symm
      simp [hk, hx, ih]

theorem mem_keys_gather {k : κ} : k ∈ (gather key fresh add items).keys ↔ k ∈ items.map key := by
  rw [← AList.mem_keys, ← AList.lookup_isSome, lookup_gather]
  split <;> simp [*]

theorem values_eq_map_keys {m : Assoc κ ν} {f : κ → ν} (h : ∀ k v, m.lookup k = some v → v = f k) :
    m.values = m.keys.map f := by
  rw [values, AList.keys, List.keys, List.map_map]
  refine List.map_congr_left ?_
  rintro ⟨k, v⟩ he
  exact h k v (mem_entries_iff.mp he)

theorem values_gather : (gather key fresh add items).values = (gather key fresh add items).keys.map fun k =>
    (items.filter fun x => key x = k).foldl add (fresh k) := by
  refine values_eq_map_keys fun k v hv => ?_
  rw [lookup_gather] at hv
  split at hv
  · exact (Option.some.inj hv).symm
  · cases hv

theorem perm_keys_gather : (gather key fresh add items).keys.Perm (items.map key).dedup :=
  (List.perm_ext_iff_of_nodup (AList.keys_nodup _) (List.nodup_dedup _)).mpr fun k => by
    rw [mem_keys_gather, List.mem_dedup]

/-! ## Rows -/

section Rows

variable {row : ι → ρ} {name : ρ → κ}

/-- **Where the rows have different keys, the entries are what the items of each row tell.** -/
theorem perm_values_gather (row : ι → ρ) (name : ρ → κ)
    (hinj : ∀ r ∈ items.map row, ∀ r' ∈ items.map row, name r = name r' → r = r') :
    (gather (fun x => name (row x)) fresh add items).values.Perm ((items.map row).dedup.map fun r =>
      (items.filter fun x => row x = r).foldl add (fresh (name r))) := by
  have hkeys : (gather (fun x => name (row x)) fresh add items).keys.Perm ((items.map row).dedup.map name) := by
    refine (List.perm_ext_iff_of_nodup (AList.keys_nodup _) ?_).mpr fun k => ?_
    · refine (List.nodup_dedup _).map_on fun r hr r' hr' he => ?_
      exact hinj r (List.mem_dedup.mp hr) r' (List.mem_dedup.mp hr') he
    · simp [mem_keys_gather]
  rw [values_gather]
  refine (hkeys.map _).trans (List.Perm.of_eq ?_)
  rw [List.map_map]
  refine List.map_congr_left fun r hr => ?_
  have hsame : (items.filter fun x => name (row x) = name r) = items.filter fun x => row x = r := by
    refine List.filter_congr fun x hx => ?_
    have hiff : name (row x) = name r ↔ row x = r :=
      ⟨hinj _ (List.mem_map_of_mem hx) _ (List.mem_dedup.mp hr), fun he => by rw [he]⟩
    simp [hiff]
  simp only [Function.comp_apply, hsame]

/-- **With as many entries as rows, the rows have different keys.** -/
theorem inj_of_length (row : ι → ρ) (name : ρ → κ)
    (hlen : (gather (fun x => name (row x)) fresh add items).values.length = (items.map row).dedup.length) :
    ∀ r ∈ items.map row, ∀ r' ∈ items.map row, name r = name r' → r = r' := by
  have hkeys : (items.map fun x => name (row x)).dedup.length = (items.map row).dedup.length := by
    rw [← hlen, values_gather, List.length_map]
    exact perm_keys_gather.length_eq.symm
  have himage : ((items.map row).toFinset.image name).card = (items.map row).toFinset.card := by
    rw [List.card_toFinset, ← hkeys, ← List.card_toFinset]
    congr 1
    ext k
    simp
  have hon := Finset.card_image_iff.mp himage
  intro r hr r' hr' he
  exact hon (by simpa using hr) (by simpa using hr') he

end Rows

end Assoc
