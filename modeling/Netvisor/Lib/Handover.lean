/-
Loops of which a round goes through exactly if nothing still to come is in its
way, and lists that are gone through with one kind of elements first.
-/
import Mathlib.Data.List.Nodup
import Netvisor.Lib.Program

namespace Program

variable {α β σ ε : Type} {R : α → α → Prop}

/-- The loop goes through exactly if each element has the relation to all after it, if each round does
with respect to those that are left. -/
theorem wp_mapM_pairwise {f : α → EStateM ε σ β} {I : List α → List α → σ → Prop}
    (step : ∀ done a rest s, I done (a :: rest) s →
      wp (f a) (fun _ t => (∀ b ∈ rest, R a b) ∧ I (done ++ [a]) rest t) (fun _ _ => ¬ ∀ b ∈ rest, R a b) s) :
    ∀ {l done s}, I done l s →
      wp (l.mapM f) (fun _ t => l.Pairwise R ∧ I (done ++ l) [] t) (fun _ _ => ¬ l.Pairwise R) s
  | [], done, s, h => by
    rw [List.mapM_nil, wp_pure, List.append_nil]
    exact ⟨.nil, h⟩
  | a :: l, done, s, h => by
    rw [List.mapM_cons, wp_bind]
    refine (step done a l s h).mono (fun _ t ⟨hfirst, hdone⟩ => ?_) fun _ _ hnot hpair =>
      hnot (List.pairwise_cons.mp hpair).1
    rw [wp_bind]
    refine (wp_mapM_pairwise step hdone).mono (fun _ u ⟨hrest, hall⟩ => ?_) fun _ _ hnot hpair =>
      hnot (List.pairwise_cons.mp hpair).2
    rw [wp_pure, List.append_cons]
    exact ⟨List.pairwise_cons.mpr ⟨hfirst, hrest⟩, hall⟩

end Program

namespace Handover

/-- The elements with `p` first, in their order, then the others. -/
def firstThose {α : Type} (p : α → Bool) (l : List α) : List α := l.filter p ++ l.filter fun a => !p a

variable {α : Type} {p : α → Bool} {R : α → α → Prop} {l : List α} {a b : α}

/-- Some order of the list has one of two elements before the other. -/
theorem exists_perm_cons_cons [DecidableEq α] (ha : a ∈ l) (hb : b ∈ l) (hne : a ≠ b) :
    ∃ rest, (a :: b :: rest).Perm l := by
  have hmem : b ∈ l.erase a := (List.mem_erase_of_ne hne.symm).mpr hb
  exact ⟨(l.erase a).erase b, ((List.perm_cons_erase hmem).symm.cons a).trans (List.perm_cons_erase ha).symm⟩

/-- With one kind first, every order of a list is one in which each element has the relation to all after it, exactly if
elements without the relation are of the two kinds, the one that has to wait of the second. -/
theorem forall_perm_pairwise_iff [DecidableEq α] (hl : l.Nodup) :
    (∀ l', l'.Perm l → (firstThose p l').Pairwise R) ↔
      ∀ a ∈ l, ∀ b ∈ l, a ≠ b → ¬ R a b → p b = true ∧ p a = false := by
  constructor
  · intro h a ha b hb hne hR
    obtain ⟨rest, hperm⟩ := exists_perm_cons_cons ha hb hne
    have hpair := List.pairwise_append.mp (h _ hperm)
    -- In this order `a` is before `b`, unless the kinds put it after.
    cases hpa : p a with
    | true =>
      cases hpb : p b with
      | true =>
        have hfirst := hpair.1
        rw [List.filter_cons_of_pos hpa, List.filter_cons_of_pos hpb] at hfirst
        exact absurd ((List.pairwise_cons.mp hfirst).1 b List.mem_cons_self) hR
      | false =>
        refine absurd (hpair.2.2 a ?_ b ?_) hR
        · exact List.mem_filter.mpr ⟨List.mem_cons_self, hpa⟩
        · exact List.mem_filter.mpr ⟨List.mem_cons_of_mem _ List.mem_cons_self, by rw [hpb]; rfl⟩
    | false =>
      cases hpb : p b with
      | true => exact ⟨rfl, rfl⟩
      | false =>
        have hlast := hpair.2.1
        rw [List.filter_cons_of_pos (by rw [hpa]; rfl), List.filter_cons_of_pos (by rw [hpb]; rfl)] at hlast
        exact absurd ((List.pairwise_cons.mp hlast).1 b List.mem_cons_self) hR
  · intro h l' hperm
    have hnodup : l'.Nodup := hperm.nodup_iff.mpr hl
    have hR {a b : α} (ha : a ∈ l') (hb : b ∈ l') (hne : a ≠ b) (hp : p b = false ∨ p a = true) : R a b := by
      by_contra hnot
      obtain ⟨hpb, hpa⟩ := h a (hperm.mem_iff.mp ha) b (hperm.mem_iff.mp hb) hne hnot
      rcases hp with hp | hp
      · exact absurd hpb (by rw [hp]; simp)
      · exact absurd hpa (by rw [hp]; simp)
    refine List.pairwise_append.mpr ⟨?_, ?_, fun a ha b hb => ?_⟩
    · refine (List.Nodup.filter p hnodup).pairwise_of_forall_ne fun a ha b hb hne => ?_
      exact hR (List.mem_filter.mp ha).1 (List.mem_filter.mp hb).1 hne (.inr (List.mem_filter.mp ha).2)
    · refine (List.Nodup.filter _ hnodup).pairwise_of_forall_ne fun a ha b hb hne => ?_
      have hpb : p b = false := by simpa using (List.mem_filter.mp hb).2
      exact hR (List.mem_filter.mp ha).1 (List.mem_filter.mp hb).1 hne (.inl hpb)
    · obtain ⟨ha, hpa⟩ := List.mem_filter.mp ha
      obtain ⟨hb, hpb⟩ := List.mem_filter.mp hb
      have hpb : p b = false := by simpa using hpb
      refine hR ha hb (fun heq => ?_) (.inl hpb)
      rw [heq, hpb] at hpa
      cases hpa

end Handover
