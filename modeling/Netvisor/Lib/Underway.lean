/-
Calls under way, as a list: one of them makes its next access, and goes on or
ends. The others stay as they are.
-/
import Mathlib.Data.List.Perm.Basic

namespace Underway

variable {α : Type} {calls : List α} {i : Nat} {call other : α} {next : Option α}

/-- The call goes on, or ends. -/
def settle (calls : List α) (i : Nat) : Option α → List α
  | some next => calls.set i next
  | none => calls.eraseIdx i

theorem mem_settle (h : other ∈ settle calls i next) : other ∈ calls ∨ next = some other := by
  cases next with
  | none => exact .inl (List.mem_of_mem_eraseIdx h)
  | some x =>
    rcases List.mem_or_eq_of_mem_set h with h | h
    · exact .inl h
    · exact .inr (by rw [h])

theorem mem_settle_of_ne (hcall : calls[i]? = some call) (hmem : other ∈ calls) (hne : other ≠ call) :
    other ∈ settle calls i next := by
  obtain ⟨j, hj⟩ := List.mem_iff_getElem?.mp hmem
  have hij : j ≠ i := by
    rintro rfl
    exact hne (Option.some.inj (hj.symm.trans hcall))
  cases next with
  | none =>
    rw [settle, List.mem_eraseIdx_iff_getElem?]
    exact ⟨j, hij, hj⟩
  | some x =>
    refine List.mem_iff_getElem?.mpr ⟨j, ?_⟩
    rw [settle, List.getElem?_set_ne hij.symm, hj]

theorem next_mem_settle (hcall : calls[i]? = some call) (hnext : next = some other) :
    other ∈ settle calls i next := by
  subst hnext
  have hi : i < calls.length := (List.getElem?_eq_some_iff.mp hcall).1
  exact List.mem_iff_getElem?.mpr ⟨i, by rw [settle, List.getElem?_set_self hi]⟩

/-- The calls without the one that makes the access. -/
theorem perm_cons_eraseIdx (hcall : calls[i]? = some call) : calls.Perm (call :: calls.eraseIdx i) := by
  obtain ⟨hi, hget⟩ := List.getElem?_eq_some_iff.mp hcall
  rw [← hget]
  exact (List.getElem_cons_eraseIdx_perm hi).symm

theorem perm_settle (hcall : calls[i]? = some call) :
    (settle calls i next).Perm (next.toList ++ calls.eraseIdx i) := by
  obtain ⟨hi, -⟩ := List.getElem?_eq_some_iff.mp hcall
  cases next with
  | none => exact .refl _
  | some x => exact List.set_perm_cons_eraseIdx hi x

end Underway
