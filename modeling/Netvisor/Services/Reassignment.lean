/-
What becomes of the bindings of a discovered service, once its host and the host's
interfaces and ports are those of the database.

An interface is looked for by `Interface::eq`, of which one with the same MAC
address or id is as good as one with the same subnet and IP address. And a binding
to an interface that was not sent along becomes one to all interfaces.
-/
import Netvisor.Hosts.Service

namespace Netvisor

/-- One IP address in one subnet. -/
def Interface.SameAddress (i other : Interface) : Prop :=
  i.base.subnetId = other.base.subnetId ∧ i.base.ipAddress = other.base.ipAddress

theorem Interface.SameAddress.eq {i other : Interface} (h : i.SameAddress other) : i.eq other = true := by
  simp [Interface.eq, h.1, h.2]

theorem Port.eq_iff {p other : Port} : p.eq other = true ↔ p.base.portType = other.base.portType := by
  simp [Port.eq]

namespace ServiceService
namespace Reassignment

variable (r : Reassignment) {b b' : Binding} {p : Uuid} {i : Option Uuid}

def originalPort (id : Uuid) : Option Port := r.originalPorts.find? fun p => p.id == id

/-- What is promised of one binding. -/
structure Exact (b : Binding) : Prop where
  /-- It goes to the interface with the address of its own, if there is one. -/
  address : ∀ i original b', b.interfaceId = some i → r.originalInterface i = some original → r.binding b = some b' →
    (∃ u ∈ r.updatedInterfaces, u.SameAddress original) →
    ∃ u ∈ r.updatedInterfaces, u.SameAddress original ∧ b'.interfaceId = some u.id
  /-- It goes to the port with the number and protocol of its own, if there is one. -/
  port : ∀ p original, b.portId = some p → r.originalPort p = some original →
    (∃ u ∈ r.updatedPorts, u.base.portType = original.base.portType) →
    ∃ u ∈ r.updatedPorts, u.base.portType = original.base.portType ∧ ∃ b', r.binding b = some b' ∧
      b'.portId = some u.id
  /-- It is widened to all interfaces only where its own is known and gone. -/
  widened : ∀ i b', b.interfaceId = some i → r.binding b = some b' → b'.interfaceId = none →
    ∃ original, r.originalInterface i = some original ∧ ∀ u ∈ r.updatedInterfaces, u.eq original = false
  /-- It is dropped only where its interface or its port is gone. -/
  dropped : r.binding b = none →
    (∃ i, b.base.bindingType = .interface i ∧
      ∀ original, r.originalInterface i = some original → ∀ u ∈ r.updatedInterfaces, u.eq original = false) ∨
    (∃ p i, b.base.bindingType = .port p i ∧
      ∀ original, r.originalPort p = some original → ∀ u ∈ r.updatedPorts, u.eq original = false)
  /-- It refers to what is there. -/
  resolved : ∀ b', r.binding b = some b' →
    (∀ i, b'.interfaceId = some i → ∃ u ∈ r.updatedInterfaces, u.id = i) ∧
    (∀ p, b'.portId = some p → ∃ u ∈ r.updatedPorts, u.id = p)

/-- There is an interface with the address, and the first equal one is another. -/
def Shadowed (original : Interface) : Prop :=
  (∃ u ∈ r.updatedInterfaces, u.SameAddress original) ∧
    ∃ before u after, r.updatedInterfaces = before ++ u :: after ∧ u.eq original = true ∧
      (∀ x ∈ before, x.eq original = false) ∧ ∀ x ∈ r.updatedInterfaces, x.SameAddress original → x.id ≠ u.id

/-- The interface of a binding is known, and not shadowed. -/
def Clear (b : Binding) : Prop :=
  match b.base.bindingType with
  | .interface i => ∀ original, r.originalInterface i = some original → ¬ r.Shadowed original
  | .port p i => (r.updatedPort p).isSome → ∀ j, i = some j →
    ∃ original, r.originalInterface j = some original ∧ ¬ r.Shadowed original

/-! ## Interfaces -/

variable {r}

theorem updatedInterface_none {original : Interface} (h : r.updatedInterface original = none) :
    ∀ u ∈ r.updatedInterfaces, u.eq original = false := by
  simpa [updatedInterface] using h

theorem mem_of_updatedInterface {original u : Interface} (h : r.updatedInterface original = some u) :
    u ∈ r.updatedInterfaces := List.mem_of_find?_eq_some h

/-- The interface found is the right one unless another shadows it. -/
theorem updatedInterface_address {original u : Interface} (h : r.updatedInterface original = some u)
    (hexists : ∃ x ∈ r.updatedInterfaces, x.SameAddress original) :
    (∃ x ∈ r.updatedInterfaces, x.SameAddress original ∧ u.id = x.id) ↔ ¬ r.Shadowed original := by
  obtain ⟨hu, before, after, happend, hbefore⟩ := List.find?_eq_some_iff_append.mp h
  constructor
  · intro ⟨x, hx, haddress, hid⟩ ⟨_, before', u', after', happend', hu', hbefore', hother⟩
    -- both are the first equal one
    have hfirst : r.updatedInterface original = some u' := by
      refine List.find?_eq_some_iff_append.mpr ⟨hu', before', after', happend', ?_⟩
      intro y hy
      simp [hbefore' y hy]
    have heq : u = u' := Option.some.inj (h.symm.trans hfirst)
    exact hother x hx haddress (heq ▸ hid).symm
  · intro hnot
    by_contra hnone
    refine hnot ⟨hexists, before, u, after, happend, hu, ?_, ?_⟩
    · intro x hx
      simpa using hbefore x hx
    · intro x hx haddress hid
      exact hnone ⟨x, hx, haddress, hid.symm⟩

theorem exists_updatedInterface {original : Interface} (h : ∃ u ∈ r.updatedInterfaces, u.SameAddress original) :
    ∃ u, r.updatedInterface original = some u := by
  obtain ⟨u, hu, haddress⟩ := h
  cases hfind : r.updatedInterface original with
  | some found => exact ⟨found, rfl⟩
  | none =>
    have := updatedInterface_none hfind u hu
    simp [haddress.eq] at this

/-! ## Ports -/

theorem updatedPort_eq (p : Uuid) :
    r.updatedPort p = (r.originalPort p).bind fun original => r.updatedPorts.find? fun u => u.eq original := rfl

theorem updatedPort_some {u : Port} (h : r.updatedPort p = some u) :
    u ∈ r.updatedPorts ∧ ∃ original, r.originalPort p = some original ∧ u.base.portType = original.base.portType := by
  rw [updatedPort_eq] at h
  obtain ⟨original, horiginal, hfind⟩ := Option.bind_eq_some_iff.mp h
  have heq : u.eq original = true := by simpa using List.find?_some hfind
  exact ⟨List.mem_of_find?_eq_some hfind, original, horiginal, Port.eq_iff.mp heq⟩

theorem updatedPort_none (h : r.updatedPort p = none) :
    ∀ original, r.originalPort p = some original → ∀ u ∈ r.updatedPorts, u.eq original = false := by
  intro original horiginal
  rw [updatedPort_eq, horiginal] at h
  simpa using h

/-! ## Bindings -/

theorem binding_interface {j : Uuid} (h : b.base.bindingType = .interface j) :
    r.binding b = ((r.originalInterface j).bind r.updatedInterface).map fun u =>
      { b with base.bindingType := .interface u.id } := by
  simp [binding, bindingType, h, Option.map_map, Function.comp_def]

theorem binding_port (h : b.base.bindingType = .port p i) :
    r.binding b = (r.updatedPort p).map fun u =>
      { b with base.bindingType :=
          .port u.id (((i.bind r.originalInterface).bind r.updatedInterface).map fun x => x.id) } := by
  simp [binding, bindingType, h, Option.map_map, Function.comp_def]

theorem exact_interface_iff {j : Uuid} (h : b.base.bindingType = .interface j) : r.Exact b ↔ r.Clear b := by
  have hid : b.interfaceId = some j := by simp [Binding.interfaceId, h]
  have hport : b.portId = none := by simp [Binding.portId, h]
  have hbinding := binding_interface (r := r) h
  simp only [Clear, h]
  constructor
  · intro hexact original horiginal hshadowed
    obtain ⟨u, hu⟩ := exists_updatedInterface hshadowed.1
    have hsome : r.binding b = some { b with base.bindingType := .interface u.id } := by
      simp [hbinding, horiginal, hu]
    obtain ⟨x, hx, haddress, hxid⟩ := hexact.address j original _ hid horiginal hsome hshadowed.1
    refine (updatedInterface_address hu hshadowed.1).mp ⟨x, hx, haddress, ?_⟩ hshadowed
    simpa [Binding.interfaceId] using hxid
  · intro hclear
    refine ⟨?_, ?_, ?_, ?_, ?_⟩
    · intro i' original b' hi' horiginal hb' hexists
      cases hid.symm.trans hi'
      obtain ⟨u, hu⟩ := exists_updatedInterface hexists
      obtain ⟨x, hx, haddress, hux⟩ := (updatedInterface_address hu hexists).mpr (hclear original horiginal)
      rw [hbinding, horiginal, Option.bind_some, hu] at hb'
      cases hb'
      exact ⟨x, hx, haddress, by simp [Binding.interfaceId, hux]⟩
    · intro p original hp
      simp [hport] at hp
    · intro i' b' _ hb' hnone
      rw [hbinding] at hb'
      obtain ⟨u, -, rfl⟩ := Option.map_eq_some_iff.mp hb'
      simp [Binding.interfaceId] at hnone
    · intro hnone
      refine .inl ⟨j, h, fun original horiginal => updatedInterface_none ?_⟩
      simpa [hbinding, horiginal] using hnone
    · intro b' hb'
      rw [hbinding] at hb'
      obtain ⟨u, hu, rfl⟩ := Option.map_eq_some_iff.mp hb'
      obtain ⟨original, -, hu⟩ := Option.bind_eq_some_iff.mp hu
      constructor
      · intro i' hi'
        exact ⟨u, mem_of_updatedInterface hu, by simpa [Binding.interfaceId] using hi'⟩
      · intro p hp
        simp [Binding.portId] at hp

theorem exact_port_iff (h : b.base.bindingType = .port p i) : r.Exact b ↔ r.Clear b := by
  have hid : b.interfaceId = i := by simp [Binding.interfaceId, h]
  have hport : b.portId = some p := by simp [Binding.portId, h]
  have hbinding := binding_port (r := r) h
  simp only [Clear, h]
  constructor
  · intro hexact hsome j hj
    subst hj
    obtain ⟨u, hu⟩ := Option.isSome_iff_exists.mp hsome
    rw [hu, Option.map_some, Option.bind_some] at hbinding
    cases horiginal : r.originalInterface j with
    | none =>
      obtain ⟨original, hknown, -⟩ := hexact.widened j _ hid hbinding (by simp [Binding.interfaceId, horiginal])
      simp [horiginal] at hknown
    | some original =>
      refine ⟨original, rfl, fun hshadowed => ?_⟩
      obtain ⟨v, hv⟩ := exists_updatedInterface hshadowed.1
      obtain ⟨x, hx, haddress, hxid⟩ := hexact.address j original _ hid horiginal hbinding hshadowed.1
      refine (updatedInterface_address hv hshadowed.1).mp ⟨x, hx, haddress, ?_⟩ hshadowed
      simpa [Binding.interfaceId, horiginal, hv] using hxid
  · intro hclear
    refine ⟨?_, ?_, ?_, ?_, ?_⟩
    · intro j original b' hj horiginal hb' hexists
      have hij : i = some j := hid.symm.trans hj
      rw [hbinding] at hb'
      obtain ⟨u, hu, rfl⟩ := Option.map_eq_some_iff.mp hb'
      obtain ⟨known, hknown, hnot⟩ := hclear (by simp [hu]) j hij
      cases horiginal.symm.trans hknown
      obtain ⟨v, hv⟩ := exists_updatedInterface hexists
      obtain ⟨x, hx, haddress, hvx⟩ := (updatedInterface_address hv hexists).mpr hnot
      exact ⟨x, hx, haddress, by simp [Binding.interfaceId, hij, horiginal, hv, hvx]⟩
    · intro p' original hp' horiginal hexists
      cases hport.symm.trans hp'
      cases hu : r.updatedPort p with
      | none =>
        obtain ⟨x, hx, heq⟩ := hexists
        have := updatedPort_none hu original horiginal x hx
        simp [Port.eq_iff.mpr heq] at this
      | some u =>
        obtain ⟨hmem, known, hknown, hconfig⟩ := updatedPort_some hu
        cases horiginal.symm.trans hknown
        rw [hu, Option.map_some] at hbinding
        exact ⟨u, hmem, hconfig, _, hbinding, rfl⟩
    · intro j b' hj hb' hnone
      have hij : i = some j := hid.symm.trans hj
      rw [hbinding] at hb'
      obtain ⟨u, hu, rfl⟩ := Option.map_eq_some_iff.mp hb'
      obtain ⟨original, horiginal, -⟩ := hclear (by simp [hu]) j hij
      refine ⟨original, horiginal, updatedInterface_none ?_⟩
      simpa [Binding.interfaceId, hij, horiginal] using hnone
    · intro hnone
      refine .inr ⟨p, i, h, updatedPort_none ?_⟩
      simpa [hbinding] using hnone
    · intro b' hb'
      rw [hbinding] at hb'
      obtain ⟨u, hu, rfl⟩ := Option.map_eq_some_iff.mp hb'
      constructor
      · intro j hj
        simp only [Binding.interfaceId, Option.map_eq_some_iff, Option.bind_eq_some_iff] at hj
        obtain ⟨v, ⟨original, -, hv⟩, hvj⟩ := hj
        exact ⟨v, mem_of_updatedInterface hv, hvj⟩
      · intro p' hp'
        exact ⟨u, (updatedPort_some hu).1, by simpa [Binding.portId] using hp'⟩

theorem exact_iff (b : Binding) : r.Exact b ↔ r.Clear b := by
  cases h : b.base.bindingType with
  | interface j => exact exact_interface_iff h
  | port p i => exact exact_port_iff h

end Reassignment

/-- **The bindings of a discovered service are reassigned exactly when their interfaces are known and not
shadowed.** -/
theorem reassigned_exactly_iff (r : Reassignment) (service : Service) :
    (reassignServiceInterfaceBindings r service).base.bindings = service.base.bindings.filterMap r.binding ∧
      ((∀ b ∈ service.base.bindings, r.Exact b) ↔ ∀ b ∈ service.base.bindings, r.Clear b) :=
  ⟨rfl, forall₂_congr fun b _ => Reassignment.exact_iff b⟩

/-- A binding to the second address of a network card goes to the first, and one to an interface that was not sent
along is widened. -/
theorem not_reassigned_exactly : ∃ (r : Reassignment) (shadowed unknown : Binding),
    r.binding shadowed = some { base.bindingType := .interface 1 } ∧ ¬ r.Exact shadowed ∧
      r.binding unknown = some { base.bindingType := .port 5 none } ∧ ¬ r.Exact unknown := by
  let first : Interface := { id := 1, base.ipAddress := .v4 1, base.macAddress := some 7 }
  let second : Interface := { id := 2, base.ipAddress := .v4 2, base.macAddress := some 7 }
  let r : Reassignment :=
    { originalInterfaces := [{ second with id := 3 }], originalPorts := [{ id := 4 }], updatedHost := {}
      updatedInterfaces := [first, second], updatedPorts := [{ id := 5 }] }
  let shadowed : Binding := { base.bindingType := .interface 3 }
  let unknown : Binding := { base.bindingType := .port 4 (some 6) }
  have hshadowed : r.binding shadowed = some { base.bindingType := .interface 1 } := by decide
  have hunknown : r.binding unknown = some { base.bindingType := .port 5 none } := by decide
  refine ⟨r, shadowed, unknown, hshadowed, fun hexact => ?_, hunknown, fun hexact => ?_⟩
  · obtain ⟨u, hu, haddress, hid⟩ := hexact.address 3 { second with id := 3 } _ rfl rfl hshadowed
      ⟨second, by simp [r], rfl, rfl⟩
    have hother : ∀ u ∈ r.updatedInterfaces, u.base.ipAddress = .v4 2 → some (1 : Uuid) ≠ some u.id := by decide
    exact hother u hu haddress.2 hid
  · obtain ⟨original, horiginal, -⟩ := hexact.widened 6 _ rfl hunknown rfl
    have hnone : r.originalInterface 6 = none := by decide
    simp [hnone] at horiginal

end ServiceService
end Netvisor
