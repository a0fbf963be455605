/-
The rules of bindings: what conflicts within one service, what an
all-interfaces binding covers and supersedes, and which port bindings of two
services on one host claim the same port.

`Minimal` is what deduplication and merging are for: no two bindings of equal
type, none covered by another, none that exclude each other. Deduplicating and
validating a list makes it minimal, and merging keeps a minimal list minimal.
-/
import Mathlib.Data.List.Pairwise
import Netvisor.Entities

namespace Netvisor

/-! ## Rules within a service -/

namespace BindingType

/-- An interface binding and a port binding on that interface, or on all. -/
def excludes : BindingType → BindingType → Bool
  | .interface i, .port _ j => j == some i || j.isNone
  | .port _ j, .interface i => j == some i || j.isNone
  | .interface _, .interface _ => false
  | .port _ _, .port _ _ => false

/-- An all-interfaces port binding supersedes those of single interfaces. -/
def supersedes : BindingType → BindingType → Bool
  | .port p none, .port q (some _) => p == q
  | _, _ => false

/-- Two types a service must not have side by side. -/
def clashes (a b : BindingType) : Bool := a == b || a.excludes b || a.supersedes b || b.supersedes a

/-- The port a binding claims, with the interface unless it claims it on all. -/
def claim : BindingType → Option (Uuid × Option Uuid)
  | .interface _ => none
  | .port p i => some (p, i)

theorem excludes_comm (a b : BindingType) : a.excludes b = b.excludes a := by
  cases a <;> cases b <;> rfl

theorem clashes_comm (a b : BindingType) : a.clashes b = b.clashes a := by
  simp only [clashes, excludes_comm a b, beq_eq_decide, eq_comm (a := a)]
  cases a.supersedes b <;> cases b.supersedes a <;> simp

theorem supersedes_iff {a b : BindingType} :
    a.supersedes b = true ↔ ∃ p i, a = .port p none ∧ b = .port p (some i) := by
  constructor
  · intro h
    cases a with
    | interface i => cases h
    | port p j =>
      cases j with
      | some j => cases h
      | none =>
        cases b with
        | interface i => cases h
        | port q i =>
          cases i with
          | none => cases h
          | some i => exact ⟨p, i, rfl, by rw [eq_of_beq h]⟩
  · rintro ⟨p, i, rfl, rfl⟩
    exact beq_self_eq_true p

theorem clashes_eq_false {a b : BindingType} : a.clashes b = false ↔
    a ≠ b ∧ a.excludes b = false ∧ a.supersedes b = false ∧ b.supersedes a = false := by
  simp [clashes, and_assoc]

end BindingType

namespace ServiceService

/-- A port binding on one interface is covered by one of the port on all. -/
def isBindingCoveredByExisting (newBinding : Binding) (existingBindings : List Binding) : Bool :=
  match newBinding.base.bindingType with
  | .port portId (some _) => existingBindings.any fun existing => existing.base.bindingType == .port portId none
  | _ => false

/-- The error of a binding next to the existing ones, if it has one. -/
def validateBindingNoConflict (newBinding : BindingType) (existingBindings : List Binding) : Option String :=
  match newBinding with
  | .interface interfaceId =>
    if existingBindings.any fun existing => match existing.base.bindingType with
      | .port _ existingIface => existingIface == some interfaceId || existingIface.isNone
      | .interface _ => false
    then some "Cannot add interface binding: service already has a port binding on this interface (or on all interfaces)."
    else none
  | .port _ (some interfaceId) =>
    if existingBindings.any fun existing => match existing.base.bindingType with
      | .interface existingIface => existingIface == interfaceId
      | .port _ _ => false
    then some "Cannot add port binding: service already has an interface binding on this interface."
    else none
  | .port _ none =>
    if existingBindings.any fun existing => match existing.base.bindingType with
      | .interface _ => true
      | .port _ _ => false
    then some "Cannot add port binding on all interfaces: service already has interface bindings."
    else none

/-- The ports bound on all interfaces. -/
def allInterfacePortIds (bindings : List Binding) : List Uuid :=
  bindings.filterMap fun b => match b.base.bindingType with
    | .port portId none => some portId
    | _ => none

/-- A binding of one interface, to a port that is among `portIds`. -/
def isSuperseded (portIds : List Uuid) (binding : Binding) : Bool :=
  match binding.base.bindingType with
  | .port portId (some _) => portIds.contains portId
  | _ => false

/-- Drop duplicates, and bindings superseded by an all-interfaces one of the list. -/
def deduplicateBindings (bindings : List Binding) : List Binding :=
  bindings.foldl
    (fun result binding =>
      if isSuperseded (allInterfacePortIds bindings) binding then result
      else if result.any fun b => b.base.bindingType == binding.base.bindingType then result
      else result ++ [binding])
    []

/-- The first error of a binding next to those before it. -/
def validateBindingsNoConflicts : (preceding bindings : List Binding) → Option String
  | _, [] => none
  | preceding, binding :: bindings =>
    match validateBindingNoConflict binding.base.bindingType preceding with
    | some errorMsg => some errorMsg
    | none => validateBindingsNoConflicts (preceding ++ [binding]) bindings

/-- One round of `upsert_service`: add a binding of the new data to the existing ones. -/
def mergeBinding (existing : List Binding) (newBinding : Binding) : List Binding :=
  if isBindingCoveredByExisting newBinding existing then existing
  else if (validateBindingNoConflict newBinding.base.bindingType existing).isSome then existing
  else
    let existing := match newBinding.base.bindingType with
      | .port portId none => existing.filter fun e => match e.base.bindingType with
        | .port existingPortId existingInterfaceId => !(existingInterfaceId.isSome && existingPortId == portId)
        | .interface _ => true
      | _ => existing
    if existing.any fun e => e.eq newBinding then existing else existing ++ [newBinding]

def mergeBindings (existing newBindings : List Binding) : List Binding := newBindings.foldl mergeBinding existing

end ServiceService

/-! ## Claims of several services -/

/-- Same port, on one interface or on all of either. -/
def claimsOverlap (claim other : Uuid × Option Uuid) : Bool :=
  claim.1 == other.1 &&
    match claim.2, other.2 with
    | some a, some b => a == b
    | _, _ => true

def Binding.claim (b : Binding) : Option (Uuid × Option Uuid) := b.base.bindingType.claim

/-- The port claims of a service. -/
def Service.claims (s : Service) : List (Uuid × Option Uuid) := s.base.bindings.filterMap Binding.claim

/-- The binding claims a port that is among the claims. -/
def Binding.conflicts (b : Binding) (claimed : List (Uuid × Option Uuid)) : Bool :=
  match b.claim with
  | some claim => claimed.any (claimsOverlap claim)
  | none => false

theorem claimsOverlap_comm (a b : Uuid × Option Uuid) : claimsOverlap a b = claimsOverlap b a := by
  obtain ⟨p, i⟩ := a
  obtain ⟨q, j⟩ := b
  simp only [claimsOverlap, beq_eq_decide, eq_comm (a := p)]
  cases i <;> cases j <;> simp [eq_comm]

/-! ## Minimal lists -/

/-- No two bindings that clash. -/
def Minimal (bindings : List Binding) : Prop :=
  bindings.Pairwise fun a b => a.base.bindingType.clashes b.base.bindingType = false

/-- A binding of the type, or one that supersedes it. -/
def Holds (bindings : List Binding) (t : BindingType) : Prop :=
  ∃ b ∈ bindings, b.base.bindingType = t ∨ b.base.bindingType.supersedes t = true

instance (bindings : List Binding) : Decidable (Minimal bindings) := by
  unfold Minimal
  infer_instance

instance (bindings : List Binding) (t : BindingType) : Decidable (Holds bindings t) := by
  unfold Holds
  infer_instance

/-- A list is minimal by its types. -/
theorem minimal_iff_types {bindings : List Binding} :
    Minimal bindings ↔ (bindings.map (·.base.bindingType)).Pairwise fun a b => a.clashes b = false := by
  rw [List.pairwise_map]
  exact Iff.rfl

instance : Std.Symm fun a b : Binding => a.base.bindingType.clashes b.base.bindingType = false where
  symm _ _ h := (BindingType.clashes_comm _ _).trans h

theorem Minimal.clashes {bindings : List Binding} (h : Minimal bindings) {a b : Binding} (ha : a ∈ bindings)
    (hb : b ∈ bindings) (hne : a ≠ b) : a.base.bindingType.clashes b.base.bindingType = false :=
  List.Pairwise.forall h ha hb hne

namespace ServiceService

variable {existing bindings : List Binding} {b x : Binding} {t : BindingType}

theorem isBindingCoveredByExisting_iff : isBindingCoveredByExisting b existing = true ↔
    ∃ e ∈ existing, e.base.bindingType.supersedes b.base.bindingType = true := by
  simp only [BindingType.supersedes_iff]
  unfold isBindingCoveredByExisting
  split
  · next p i hb => simp [hb]
  · next hb =>
    simp only [Bool.false_eq_true, false_iff]
    rintro ⟨e, -, p, i, -, hp⟩
    exact hb p i hp

theorem validateBindingNoConflict_eq_none : validateBindingNoConflict t existing = none ↔
    ∀ e ∈ existing, t.excludes e.base.bindingType = false := by
  unfold validateBindingNoConflict
  cases t with
  | interface i =>
    simp only [ite_eq_right_iff, reduceCtorEq, imp_false, Bool.not_eq_true, List.any_eq_false]
    refine forall₂_congr fun e _ => ?_
    cases e.base.bindingType <;> simp [BindingType.excludes]
  | port p i =>
    cases i with
    | none =>
      simp only [ite_eq_right_iff, reduceCtorEq, imp_false, Bool.not_eq_true, List.any_eq_false]
      refine forall₂_congr fun e _ => ?_
      cases e.base.bindingType <;> simp [BindingType.excludes]
    | some i =>
      simp only [ite_eq_right_iff, reduceCtorEq, imp_false, Bool.not_eq_true, List.any_eq_false]
      refine forall₂_congr fun e _ => ?_
      cases e.base.bindingType with
      | interface j => simp [BindingType.excludes, Ne, eq_comm (a := i)]
      | port q j => simp [BindingType.excludes]

/-! ## Deduplicating -/

theorem validateBindingsNoConflicts_eq_none : ∀ {preceding bindings : List Binding},
    validateBindingsNoConflicts preceding bindings = none →
      (∀ a ∈ preceding, ∀ b ∈ bindings, b.base.bindingType.excludes a.base.bindingType = false) ∧
      bindings.Pairwise fun a b => b.base.bindingType.excludes a.base.bindingType = false
  | _, [], _ => ⟨fun _ _ _ h => (List.not_mem_nil h).elim, List.Pairwise.nil⟩
  | preceding, b :: bindings, h => by
    simp only [validateBindingsNoConflicts] at h
    split at h
    · cases h
    · next hb =>
      have hb := validateBindingNoConflict_eq_none.mp hb
      obtain ⟨hpre, hpair⟩ := validateBindingsNoConflicts_eq_none h
      refine ⟨fun a ha x hx => ?_, .cons (fun x hx => ?_) hpair⟩
      · rcases List.mem_cons.mp hx with rfl | hx
        · exact hb a ha
        · exact hpre a (List.mem_append_left _ ha) x hx
      · exact hpre b (List.mem_append_right _ (List.mem_singleton_self b)) x hx

theorem isSuperseded_iff : isSuperseded (allInterfacePortIds bindings) b = true ↔
    ∃ a ∈ bindings, a.base.bindingType.supersedes b.base.bindingType = true := by
  simp only [BindingType.supersedes_iff]
  unfold isSuperseded
  split
  · next p i hb =>
    simp only [List.contains_eq_mem, decide_eq_true_eq, allInterfacePortIds, List.mem_filterMap]
    refine exists_congr fun a => and_congr_right fun _ => ?_
    split
    · next q ha => simp [hb, ha, eq_comm]
    · next ha =>
      simp only [reduceCtorEq, false_iff]
      rintro ⟨q, -, hq, -⟩
      exact ha q hq
  · next hb =>
    simp only [Bool.false_eq_true, false_iff]
    rintro ⟨a, -, p, i, -, hp⟩
    exact hb p i hp

/-- What is left of a list of bindings: bindings of the list, no two of one
type, none superseded by one of the list. -/
theorem deduplicateBindings_spec : (∀ b ∈ deduplicateBindings bindings, b ∈ bindings ∧
      ∀ a ∈ bindings, a.base.bindingType.supersedes b.base.bindingType = false) ∧
    (deduplicateBindings bindings).Pairwise fun a b => a.base.bindingType ≠ b.base.bindingType := by
  unfold deduplicateBindings
  refine List.foldlRecOn _ _ (motive := fun result : List Binding => (∀ b ∈ result, b ∈ bindings ∧
    ∀ a ∈ bindings, a.base.bindingType.supersedes b.base.bindingType = false) ∧
    result.Pairwise fun a b => a.base.bindingType ≠ b.base.bindingType) ?_ ?_
  · exact ⟨fun _ h => (List.not_mem_nil h).elim, List.Pairwise.nil⟩
  rintro result ⟨hmem, hpair⟩ b hb
  split
  · exact ⟨hmem, hpair⟩
  · next hsup =>
    simp only [isSuperseded_iff, not_exists, not_and, Bool.not_eq_true] at hsup
    split
    · exact ⟨hmem, hpair⟩
    · next hnew =>
      simp only [List.any_eq_true, beq_iff_eq, not_exists, not_and] at hnew
      refine ⟨fun x hx => ?_, List.pairwise_append.mpr ⟨hpair, List.pairwise_singleton _ _, fun x hx y hy => ?_⟩⟩
      · rcases List.mem_append.mp hx with hx | hx
        · exact hmem x hx
        · obtain rfl := List.mem_singleton.mp hx
          exact ⟨hb, hsup⟩
      · obtain rfl := List.mem_singleton.mp hy
        exact hnew x hx

theorem minimal_deduplicateBindings (h : validateBindingsNoConflicts [] (deduplicateBindings bindings) = none) :
    Minimal (deduplicateBindings bindings) := by
  obtain ⟨hmem, hpair⟩ := @deduplicateBindings_spec bindings
  have hexcl := (validateBindingsNoConflicts_eq_none h).2
  refine (hpair.and hexcl).imp_of_mem fun ha hb ⟨hne, hex⟩ => ?_
  rw [BindingType.clashes_eq_false]
  exact ⟨hne, BindingType.excludes_comm _ _ ▸ hex, (hmem _ hb).2 _ (hmem _ ha).1, (hmem _ ha).2 _ (hmem _ hb).1⟩

/-! ## Merging -/

/-- The existing bindings a new one does not supersede. -/
def unsuperseded (existing : List Binding) (b : Binding) : List Binding :=
  existing.filter fun e => !b.base.bindingType.supersedes e.base.bindingType

/-- What one round does: nothing, if the binding is covered or excluded, else
it takes the place of those it supersedes, unless it is there already. -/
theorem mergeBinding_cases (existing : List Binding) (b : Binding) :
    (mergeBinding existing b = existing ∧ ((∃ e ∈ existing, e.base.bindingType.supersedes b.base.bindingType = true) ∨
      ∃ e ∈ existing, b.base.bindingType.excludes e.base.bindingType = true)) ∨
    ((∀ e ∈ existing, e.base.bindingType.supersedes b.base.bindingType = false ∧
        b.base.bindingType.excludes e.base.bindingType = false) ∧
      ((mergeBinding existing b = unsuperseded existing b ∧
          ∃ e ∈ unsuperseded existing b, e.base.bindingType = b.base.bindingType) ∨
        (mergeBinding existing b = unsuperseded existing b ++ [b] ∧
          ∀ e ∈ unsuperseded existing b, e.base.bindingType ≠ b.base.bindingType))) := by
  unfold mergeBinding
  split
  · next h => exact .inl ⟨rfl, .inl (isBindingCoveredByExisting_iff.mp h)⟩
  · next hcovered =>
    rw [isBindingCoveredByExisting_iff] at hcovered
    split
    · next h =>
      refine .inl ⟨rfl, .inr ?_⟩
      by_contra hne
      rw [validateBindingNoConflict_eq_none.mpr fun e he => ?_] at h
      · cases h
      · by_contra hex
        exact hne ⟨e, he, by simpa using hex⟩
    · next hexcluded =>
      have hexcluded := validateBindingNoConflict_eq_none.mp (by simpa using hexcluded)
      refine .inr ⟨fun e he => ⟨?_, hexcluded e he⟩, ?_⟩
      · by_contra h
        exact hcovered ⟨e, he, by simpa using h⟩
      have hkept : (match b.base.bindingType with
          | .port portId none => existing.filter fun e => match e.base.bindingType with
            | .port existingPortId existingInterfaceId => !(existingInterfaceId.isSome && existingPortId == portId)
            | .interface _ => true
          | _ => existing) = unsuperseded existing b := by
        unfold unsuperseded
        split
        · next p hb =>
          refine List.filter_congr fun e _ => ?_
          rw [hb]
          cases e.base.bindingType with
          | interface j => rfl
          | port q j => cases j <;> simp [BindingType.supersedes, eq_comm]
        · next hb =>
          refine (List.filter_eq_self.mpr fun e _ => ?_).symm
          rw [Bool.not_eq_true', ← Bool.not_eq_true, BindingType.supersedes_iff]
          rintro ⟨p, i, hp, -⟩
          exact hb p hp
      rw [hkept]
      dsimp only
      split
      · next h =>
        simp only [List.any_eq_true, Binding.eq, beq_iff_eq] at h
        exact .inl ⟨rfl, h⟩
      · next h =>
        simp only [List.any_eq_true, Binding.eq, beq_iff_eq, not_exists, not_and] at h
        exact .inr ⟨rfl, h⟩

theorem unsuperseded_sublist : (unsuperseded existing b).Sublist existing := List.filter_sublist

theorem mem_mergeBinding (h : x ∈ mergeBinding existing b) : x ∈ existing ∨ x = b := by
  rcases mergeBinding_cases existing b with ⟨heq, -⟩ | ⟨-, ⟨heq, -⟩ | ⟨heq, -⟩⟩
  · exact .inl (heq ▸ h)
  · rw [heq] at h
    exact .inl (unsuperseded_sublist.subset h)
  · rw [heq, List.mem_append, List.mem_singleton] at h
    exact h.imp_left fun h => unsuperseded_sublist.subset h

/-- A merged binding that is not new has none of the new one's type above it. -/
theorem minimal_mergeBinding (h : Minimal existing) : Minimal (mergeBinding existing b) := by
  rcases mergeBinding_cases existing b with ⟨heq, -⟩ | ⟨hfree, ⟨heq, -⟩ | ⟨heq, hne⟩⟩
  · rw [heq]
    exact h
  · rw [heq]
    exact h.sublist unsuperseded_sublist
  · rw [heq]
    refine List.pairwise_append.mpr ⟨h.sublist unsuperseded_sublist, List.pairwise_singleton _ _, fun e he x hx => ?_⟩
    obtain rfl := List.mem_singleton.mp hx
    obtain ⟨hmem, hsup⟩ := List.mem_filter.mp he
    obtain ⟨hcov, hexc⟩ := hfree e hmem
    rw [BindingType.clashes_eq_false]
    exact ⟨hne e he, BindingType.excludes_comm _ _ ▸ hexc, hcov, by simpa using hsup⟩

theorem minimal_mergeBindings {newBindings : List Binding} (h : Minimal existing) :
    Minimal (mergeBindings existing newBindings) :=
  List.foldlRecOn _ _ (motive := Minimal) h fun _ h _ _ => minimal_mergeBinding h

theorem mem_mergeBindings {newBindings : List Binding} (h : x ∈ mergeBindings existing newBindings) :
    x ∈ existing ∨ x ∈ newBindings := by
  revert h
  refine List.foldlRecOn newBindings _
    (motive := fun merged : List Binding => x ∈ merged → x ∈ existing ∨ x ∈ newBindings) .inl ?_
  intro merged ih b hb h
  rcases mem_mergeBinding h with h | rfl
  · exact ih h
  · exact .inr hb

/-- An existing binding is gone only if a new one supersedes it. -/
theorem mem_mergeBinding_of_mem (h : x ∈ existing) :
    x ∈ mergeBinding existing b ∨ b.base.bindingType.supersedes x.base.bindingType = true := by
  by_cases hsup : b.base.bindingType.supersedes x.base.bindingType = true
  · exact .inr hsup
  have hx : x ∈ unsuperseded existing b := List.mem_filter.mpr ⟨h, by simpa using hsup⟩
  left
  rcases mergeBinding_cases existing b with ⟨heq, -⟩ | ⟨-, ⟨heq, -⟩ | ⟨heq, -⟩⟩ <;> rw [heq]
  · exact h
  · exact hx
  · exact List.mem_append_left _ hx

theorem mem_mergeBindings_of_mem {newBindings : List Binding} (h : x ∈ existing) :
    x ∈ mergeBindings existing newBindings ∨
      ∃ b ∈ newBindings, b.base.bindingType.supersedes x.base.bindingType = true := by
  refine List.foldlRecOn newBindings _ (motive := fun merged : List Binding =>
    x ∈ merged ∨ ∃ b ∈ newBindings, b.base.bindingType.supersedes x.base.bindingType = true) (.inl h) ?_
  intro merged ih b hb
  rcases ih with hx | hsup
  · exact (mem_mergeBinding_of_mem hx).imp_right fun hsup => ⟨b, hb, hsup⟩
  · exact .inr hsup

/-- Interface bindings stay, and exclude what they exclude. -/
theorem not_excluded_of_mem_mergeBindings {newBindings : List Binding} (hx : x ∈ mergeBindings existing newBindings) :
    x ∈ existing ∨ x ∈ newBindings ∧ ∀ i, ∀ e ∈ existing, e.base.bindingType = .interface i →
      x.base.bindingType.excludes e.base.bindingType = false := by
  have hmain : ∀ x ∈ mergeBindings existing newBindings, x ∈ existing ∨ x ∈ newBindings ∧ ∀ i, ∀ e ∈ existing,
      e.base.bindingType = .interface i → x.base.bindingType.excludes e.base.bindingType = false := by
    refine (List.foldlRecOn newBindings mergeBinding (motive := fun merged : List Binding =>
      (∀ i, ∀ e ∈ existing, e.base.bindingType = .interface i → e ∈ merged) ∧
      ∀ x ∈ merged, x ∈ existing ∨ x ∈ newBindings ∧ ∀ i, ∀ e ∈ existing, e.base.bindingType = .interface i →
        x.base.bindingType.excludes e.base.bindingType = false) ⟨fun _ _ he _ => he, fun _ => .inl⟩ ?_).2
    rintro merged ⟨hstay, hmem⟩ b hb
    refine ⟨fun i e he hei => ?_, fun x hx => ?_⟩
    · refine (mem_mergeBinding_of_mem (hstay i e he hei)).resolve_right fun hsup => ?_
      obtain ⟨p, j, -, hp⟩ := BindingType.supersedes_iff.mp hsup
      cases hei.symm.trans hp
    · rcases mergeBinding_cases merged b with ⟨heq, -⟩ | ⟨hfree, ⟨heq, -⟩ | ⟨heq, -⟩⟩
      · exact hmem x (heq ▸ hx)
      · exact hmem x (unsuperseded_sublist.subset (heq ▸ hx))
      · rw [heq, List.mem_append, List.mem_singleton] at hx
        rcases hx with hx | rfl
        · exact hmem x (unsuperseded_sublist.subset hx)
        · exact .inr ⟨hb, fun i e he hei => (hfree e (hstay i e he hei)).2⟩
  exact hmain x hx

/-- Merging keeps some of the existing bindings and appends some of the new ones, in order. -/
theorem mergeBindings_append (existing newBindings : List Binding) : ∃ kept added,
    mergeBindings existing newBindings = kept ++ added ∧ kept ⊆ existing ∧ added.Sublist newBindings := by
  have hround (kept added : List Binding) (b : Binding) : ∃ kept' added',
      mergeBinding (kept ++ added) b = kept' ++ added' ∧ kept' ⊆ kept ∧ added'.Sublist (added ++ [b]) := by
    have hfilter : unsuperseded (kept ++ added) b = unsuperseded kept b ++ unsuperseded added b :=
      List.filter_append ..
    rcases mergeBinding_cases (kept ++ added) b with ⟨heq, -⟩ | ⟨-, ⟨heq, -⟩ | ⟨heq, -⟩⟩
    · exact ⟨kept, added, heq, List.Subset.refl _, List.sublist_append_left _ _⟩
    · exact ⟨_, _, heq.trans hfilter, unsuperseded_sublist.subset,
        unsuperseded_sublist.trans (List.sublist_append_left _ _)⟩
    · refine ⟨unsuperseded kept b, unsuperseded added b ++ [b], ?_, unsuperseded_sublist.subset,
        unsuperseded_sublist.append (List.Sublist.refl _)⟩
      rw [heq, hfilter, List.append_assoc]
  have hmain : ∀ (new kept added pre : List Binding), kept ⊆ existing → added.Sublist pre → ∃ kept' added',
      mergeBindings (kept ++ added) new = kept' ++ added' ∧ kept' ⊆ existing ∧ added'.Sublist (pre ++ new) := by
    intro new
    induction new with
    | nil => exact fun kept added pre hk ha => ⟨kept, added, rfl, hk, by simpa using ha⟩
    | cons b new ih =>
      intro kept added pre hk ha
      obtain ⟨kept', added', heq, hk', ha'⟩ := hround kept added b
      obtain ⟨kept'', added'', heq', hk'', ha''⟩ := ih kept' added' (pre ++ [b]) (List.Subset.trans hk' hk)
        (ha'.trans (ha.append (List.Sublist.refl _)))
      refine ⟨kept'', added'', ?_, hk'', by simpa using ha''⟩
      rw [mergeBindings, List.foldl_cons, heq]
      exact heq'
  simpa using hmain newBindings existing [] [] (List.Subset.refl _) .slnil

/-- What the bindings hold, they hold after a round. -/
theorem Holds.mergeBinding (h : Holds existing t) : Holds (mergeBinding existing b) t := by
  obtain ⟨x, hx, hxt⟩ := h
  have hkept (hx : x ∈ unsuperseded existing b)
    (hsub : unsuperseded existing b ⊆ ServiceService.mergeBinding existing b) :
      Holds (ServiceService.mergeBinding existing b) t := ⟨x, hsub hx, hxt⟩
  have hsup (hx' : x ∉ unsuperseded existing b) : b.base.bindingType.supersedes t = true := by
    have hbx : b.base.bindingType.supersedes x.base.bindingType = true := by
      by_contra hbx
      exact hx' (List.mem_filter.mpr ⟨hx, by simpa using hbx⟩)
    rcases hxt with rfl | hxt
    · exact hbx
    · obtain ⟨p, i, -, hp⟩ := BindingType.supersedes_iff.mp hbx
      obtain ⟨q, j, hq, -⟩ := BindingType.supersedes_iff.mp hxt
      rw [hp] at hq
      cases hq
  rcases mergeBinding_cases existing b with ⟨heq, -⟩ | ⟨-, ⟨heq, e, he, het⟩ | ⟨heq, -⟩⟩
  · rw [heq]
    exact ⟨x, hx, hxt⟩
  · by_cases hx' : x ∈ unsuperseded existing b
    · exact hkept hx' (heq ▸ List.Subset.refl _)
    · exact ⟨e, heq ▸ he, .inr (het ▸ hsup hx')⟩
  · by_cases hx' : x ∈ unsuperseded existing b
    · exact hkept hx' (heq ▸ List.subset_append_left _ _)
    · exact ⟨b, heq ▸ List.mem_append_right _ (List.mem_singleton_self b), .inr (hsup hx')⟩

/-- One round of `deduplicateBindings`. -/
def deduplicateRound (portIds : List Uuid) (result : List Binding) (binding : Binding) : List Binding :=
  if isSuperseded portIds binding then result
  else if result.any fun b => b.base.bindingType == binding.base.bindingType then result
  else result ++ [binding]

theorem subset_deduplicateRound {portIds : List Uuid} : bindings ⊆ deduplicateRound portIds bindings b := by
  unfold deduplicateRound
  split
  · exact List.Subset.refl _
  · split
    · exact List.Subset.refl _
    · exact List.subset_append_left _ _

theorem holdsType_deduplicateRound {portIds : List Uuid} (hb : isSuperseded portIds b = false) :
    ∃ r ∈ deduplicateRound portIds bindings b, r.base.bindingType = b.base.bindingType := by
  rw [deduplicateRound, if_neg (by simp [hb])]
  split
  · next hany =>
    obtain ⟨r, hr, hrb⟩ := List.any_eq_true.mp hany
    exact ⟨r, hr, by simpa using hrb⟩
  · exact ⟨b, List.mem_append_right _ (List.mem_singleton_self b), rfl⟩

/-- The rounds keep the results, and the type of each binding that is not superseded. -/
theorem foldl_deduplicateRound {portIds : List Uuid} : ∀ (l result : List Binding),
    (result ⊆ l.foldl (deduplicateRound portIds) result) ∧ ∀ x ∈ l, isSuperseded portIds x = false →
      ∃ r ∈ l.foldl (deduplicateRound portIds) result, r.base.bindingType = x.base.bindingType
  | [], _ => ⟨List.Subset.refl _, fun _ h => absurd h List.not_mem_nil⟩
  | a :: l, result => by
    obtain ⟨hsub, hl⟩ := foldl_deduplicateRound l (deduplicateRound portIds result a)
    refine ⟨List.Subset.trans subset_deduplicateRound hsub, fun x hx hsup => ?_⟩
    rcases List.mem_cons.mp hx with rfl | hx
    · obtain ⟨r, hr, hrx⟩ := @holdsType_deduplicateRound result x portIds hsup
      exact ⟨r, hsub hr, hrx⟩
    · exact hl x hx hsup

/-- A binding that deduplication drops is still held. -/
theorem holds_deduplicateBindings (hb : b ∈ bindings) : Holds (deduplicateBindings bindings) b.base.bindingType := by
  have hkept := (@foldl_deduplicateRound (allInterfacePortIds bindings) bindings []).2
  by_cases hsup : isSuperseded (allInterfacePortIds bindings) b = true
  · -- What supersedes it is superseded by nothing.
    obtain ⟨a, ha, hab⟩ := isSuperseded_iff.mp hsup
    have hafree : isSuperseded (allInterfacePortIds bindings) a = false := by
      rw [← Bool.not_eq_true, isSuperseded_iff]
      rintro ⟨c, -, hca⟩
      obtain ⟨p, i, hp, -⟩ := BindingType.supersedes_iff.mp hab
      obtain ⟨q, j, -, hq⟩ := BindingType.supersedes_iff.mp hca
      rw [hp] at hq
      cases hq
    obtain ⟨r, hr, hra⟩ := hkept a ha hafree
    exact ⟨r, hr, .inr (hra ▸ hab)⟩
  · obtain ⟨r, hr, hrb⟩ := hkept b hb (by simpa using hsup)
    exact ⟨r, hr, .inl hrb⟩

theorem Holds.mergeBindings {newBindings : List Binding} (h : Holds existing t) :
    Holds (mergeBindings existing newBindings) t :=
  List.foldlRecOn _ _ (motive := fun merged => Holds merged t) h fun _ h _ _ => Holds.mergeBinding h

end ServiceService

end Netvisor
