/-
Which subnets a daemon puts the interfaces of its own host in: the first of the
created subnets that contains the address, for the report of the host and for
the host of its containers.

The interfaces are found in the subnet of the longest network part, but the
subnets that are created need not be those.
-/
import Mathlib.Data.Finset.Max
import Mathlib.Data.List.MinMax
import Netvisor.Services.Patterns

namespace Netvisor

namespace SelfReport

/-- The first of the subnets that contains the address. -/
def subnetFor (createdSubnets : List Subnet) (ip : IpAddr) : Option Subnet :=
  createdSubnets.find? fun s => s.base.cidr.contains ip

def attached (i : Interface) (subnet : Subnet) : Interface := { i with base.subnetId := subnet.id }

/-- The interfaces that are reported: those in a created subnet. -/
def reportedInterfaces (createdSubnets : List Subnet) (interfaces : List Interface) : List Interface :=
  interfaces.filterMap fun i => (subnetFor createdSubnets i.base.ipAddress).map (attached i)

/-- The interfaces of the host that containers are matched with. -/
def hostInterfaces (subnets : List Subnet) (interfaces : List Interface) : List Interface :=
  interfaces.map fun i => ((subnetFor subnets i.base.ipAddress).map (attached i)).getD i

/-- The subnet an interface is found in: of those with the longest network part the last. -/
def ownSubnetFor (subnetMap : List Subnet) (ip : IpAddr) : Option Subnet :=
  ((subnetMap.filter fun s => s.base.cidr.contains ip).reverse).argmax fun s => s.base.cidr.networkLength

/-- No subnet that contains the address has a longer network part. -/
structure MostSpecific (subnets : List Subnet) (ip : IpAddr) (s : Subnet) : Prop where
  mem : s ∈ subnets
  contains : s.base.cidr.contains ip = true
  longest : ∀ s' ∈ subnets, s'.base.cidr.contains ip = true → s'.base.cidr.networkLength ≤ s.base.cidr.networkLength

/-- The interface without the subnet it is in. -/
def detached (i : Interface) : Interface := { i with base.subnetId := Uuid.nil }

/-- The subnets are chosen by the addresses alone. -/
structure Independent (interfaces : List Interface) (subnets : List Subnet) : Prop where
  specific : ∀ i ∈ reportedInterfaces subnets interfaces, ∃ s, MostSpecific subnets i.base.ipAddress s ∧
    i.base.subnetId = s.id
  /-- Each interface with an address in a subnet is reported once. -/
  once : (reportedInterfaces subnets interfaces).map detached =
    (interfaces.filter fun i => subnets.any fun s => s.base.cidr.contains i.base.ipAddress).map detached
  order : ∀ interfaces' subnets', interfaces'.Perm interfaces → subnets'.Perm subnets →
    (reportedInterfaces subnets' interfaces').Perm (reportedInterfaces subnets interfaces)
  hostSpecific : ∀ i ∈ hostInterfaces subnets interfaces,
    (∃ s ∈ subnets, s.base.cidr.contains i.base.ipAddress = true) →
    ∃ s, MostSpecific subnets i.base.ipAddress s ∧ i.base.subnetId = s.id
  hostOrder : ∀ interfaces' subnets', interfaces'.Perm interfaces → subnets'.Perm subnets →
    (hostInterfaces subnets' interfaces').Perm (hostInterfaces subnets interfaces)

/-- The created subnets that contain the address of an interface are one. -/
def Unambiguous (interfaces : List Interface) (subnets : List Subnet) : Prop :=
  ∀ i ∈ interfaces, ∀ s ∈ subnets, ∀ s' ∈ subnets, s.base.cidr.contains i.base.ipAddress = true →
    s'.base.cidr.contains i.base.ipAddress = true → s.id = s'.id

variable {interfaces interfaces' : List Interface} {subnets subnets' : List Subnet} {i : Interface} {s : Subnet}
  {ip : IpAddr}

theorem subnetFor_eq_some (h : subnetFor subnets ip = some s) : s ∈ subnets ∧ s.base.cidr.contains ip = true := by
  simp only [subnetFor] at h
  have hcontains := List.find?_some h
  exact ⟨List.mem_of_find?_eq_some h, hcontains⟩

theorem isSome_subnetFor : (subnetFor subnets ip).isSome = subnets.any fun s => s.base.cidr.contains ip := by
  rw [Bool.eq_iff_iff, List.any_eq_true]
  simp only [subnetFor, List.find?_isSome]

@[simp] theorem subnetFor_cons_of_contains (h : s.base.cidr.contains ip = true) :
    subnetFor (s :: subnets) ip = some s := by
  simp only [subnetFor, List.find?_cons, h]

@[simp] theorem ipAddress_attached : (attached i s).base.ipAddress = i.base.ipAddress := rfl

@[simp] theorem subnetId_attached : (attached i s).base.subnetId = s.id := rfl

@[simp] theorem detached_attached : detached (attached i s) = detached i := rfl

/-- The result depends on the identity of the subnet only. -/
theorem attached_congr {s' : Subnet} (h : s.id = s'.id) : attached i s = attached i s' := by
  simp only [attached, h]

/-- Of the subnets that contain an address one has the longest network part. -/
theorem exists_mostSpecific (hs : s ∈ subnets) (hcontains : s.base.cidr.contains ip = true) :
    ∃ s', MostSpecific subnets ip s' := by
  have hmem (x : Subnet) : x ∈ subnets.toFinset.filter (fun x => x.base.cidr.contains ip = true) ↔
      x ∈ subnets ∧ x.base.cidr.contains ip = true := by
    rw [Finset.mem_filter, List.mem_toFinset]
  obtain ⟨s', hs', hlongest⟩ :=
    Finset.exists_max_image _ (fun x => x.base.cidr.networkLength) ⟨s, (hmem s).mpr ⟨hs, hcontains⟩⟩
  exact ⟨s', ((hmem s').mp hs').1, ((hmem s').mp hs').2, fun x hx hin => hlongest x ((hmem x).mpr ⟨hx, hin⟩)⟩

/-- The interfaces are found in the most specific of the host's own subnets, in any order of these. -/
theorem mostSpecific_ownSubnetFor (h : ownSubnetFor subnets ip = some s) : MostSpecific subnets ip s := by
  have hmem (x : Subnet) : x ∈ (subnets.filter fun x => x.base.cidr.contains ip).reverse ↔
      x ∈ subnets ∧ x.base.cidr.contains ip = true := by
    rw [List.mem_reverse, List.mem_filter]
  obtain ⟨hs, hcontains⟩ := (hmem s).mp (List.argmax_mem h)
  refine ⟨hs, hcontains, fun x hx hin => ?_⟩
  exact List.le_of_mem_argmax (f := fun s : Subnet => s.base.cidr.networkLength) ((hmem x).mpr ⟨hx, hin⟩) h

/-! ## The reported interfaces -/

theorem mem_reportedInterfaces {x : Interface} :
    x ∈ reportedInterfaces subnets interfaces ↔ ∃ i ∈ interfaces, ∃ s, subnetFor subnets i.base.ipAddress = some s ∧
        attached i s = x := by
  simp only [reportedInterfaces, List.mem_filterMap, Option.map_eq_some_iff]

/-- Each interface is looked up once, and only whether it is in a subnet decides that it is kept. -/
theorem map_detached_reportedInterfaces (subnets : List Subnet) (interfaces : List Interface) :
    (reportedInterfaces subnets interfaces).map detached =
      (interfaces.filter fun i => subnets.any fun s => s.base.cidr.contains i.base.ipAddress).map detached := by
  induction interfaces with
  | nil => rfl
  | cons i rest ih =>
    simp only [reportedInterfaces, List.filterMap_cons, List.filter_cons] at ih ⊢
    rw [← isSome_subnetFor]
    cases subnetFor subnets i.base.ipAddress with
    | none => simpa using ih
    | some s => simpa using ih

/-- The subnet that comes first takes every address that it contains. -/
theorem subnetId_of_mem_cons {x : Interface} (hcontains : s.base.cidr.contains x.base.ipAddress = true)
    (hx : x ∈ reportedInterfaces (s :: subnets) interfaces) : x.base.subnetId = s.id := by
  obtain ⟨i, -, t, ht, rfl⟩ := mem_reportedInterfaces.mp hx
  rw [ipAddress_attached] at hcontains
  rw [subnetFor_cons_of_contains hcontains, Option.some.injEq] at ht
  rw [subnetId_attached, ht]

theorem mem_reportedInterfaces_cons (hi : i ∈ interfaces) (hcontains : s.base.cidr.contains i.base.ipAddress = true) :
    attached i s ∈ reportedInterfaces (s :: subnets) interfaces :=
  mem_reportedInterfaces.mpr ⟨i, hi, s, subnetFor_cons_of_contains hcontains, rfl⟩

/-! ## When the order does not matter -/

/-- The subnet an interface gets is the same for every order of the subnets. -/
theorem Unambiguous.map_subnetFor (hone : Unambiguous interfaces subnets) (hperm : subnets'.Perm subnets)
    (hi : i ∈ interfaces) :
    (subnetFor subnets' i.base.ipAddress).map (attached i) =
    (subnetFor subnets i.base.ipAddress).map (attached i) := by
  have hsome : (subnetFor subnets' i.base.ipAddress).isSome = (subnetFor subnets i.base.ipAddress).isSome := by
    rw [isSome_subnetFor, isSome_subnetFor, Bool.eq_iff_iff, List.any_eq_true, List.any_eq_true]
    simp only [hperm.mem_iff]
  cases h : subnetFor subnets i.base.ipAddress with
  | none =>
    rw [h, Option.isSome_none, Option.isSome_eq_false_iff, Option.isNone_iff_eq_none] at hsome
    rw [hsome]
  | some s =>
    rw [h, Option.isSome_some, Option.isSome_iff_exists] at hsome
    obtain ⟨s', h'⟩ := hsome
    obtain ⟨hs, hin⟩ := subnetFor_eq_some h
    obtain ⟨hs', hin'⟩ := subnetFor_eq_some h'
    have hid := hone i hi s' (hperm.mem_iff.mp hs') s hs hin' hin
    rw [h', Option.map_some, Option.map_some, attached_congr hid]

theorem Unambiguous.mostSpecific (hone : Unambiguous interfaces subnets) (hi : i ∈ interfaces)
    (h : subnetFor subnets i.base.ipAddress = some s) :
    ∃ s', MostSpecific subnets i.base.ipAddress s' ∧ s.id = s'.id := by
  obtain ⟨hs, hin⟩ := subnetFor_eq_some h
  obtain ⟨s', hs'⟩ := exists_mostSpecific hs hin
  exact ⟨s', hs', hone i hi s hs s' hs'.mem hin hs'.contains⟩

theorem Unambiguous.independent (hone : Unambiguous interfaces subnets) : Independent interfaces subnets where
  specific x hx := by
    obtain ⟨i, hi, s, hs, rfl⟩ := mem_reportedInterfaces.mp hx
    exact hone.mostSpecific (i := i) hi hs
  once := map_detached_reportedInterfaces subnets interfaces
  order interfaces' subnets' hinterfaces hsubnets := by
    have hsame : reportedInterfaces subnets' interfaces = reportedInterfaces subnets interfaces :=
      List.filterMap_congr fun i hi => hone.map_subnetFor hsubnets hi
    have hperm : (reportedInterfaces subnets' interfaces').Perm (reportedInterfaces subnets' interfaces) :=
      hinterfaces.filterMap _
    rwa [hsame] at hperm
  hostSpecific x hx hin := by
    obtain ⟨i, hi, rfl⟩ := List.mem_map.mp hx
    cases h : subnetFor subnets i.base.ipAddress with
    | none =>
      obtain ⟨s, hs, hcontains⟩ := hin
      rw [h, Option.map_none, Option.getD_none] at hcontains
      have hsome : (subnetFor subnets i.base.ipAddress).isSome = subnets.any _ := isSome_subnetFor
      rw [h, List.any_eq_true.mpr ⟨s, hs, hcontains⟩] at hsome
      cases hsome
    | some s => exact hone.mostSpecific (i := i) hi h
  hostOrder interfaces' subnets' hinterfaces hsubnets := by
    have hsame : hostInterfaces subnets' interfaces = hostInterfaces subnets interfaces :=
      List.map_congr_left fun i hi => by rw [hone.map_subnetFor hsubnets hi]
    have hperm : (hostInterfaces subnets' interfaces').Perm (hostInterfaces subnets' interfaces) := hinterfaces.map _
    rwa [hsame] at hperm

/-- **The interfaces are attached independently of the order of the subnets, and each to the
most specific, exactly when the created subnets that contain the address of an interface are one.** -/
theorem independent_iff_unambiguous (interfaces : List Interface) (subnets : List Subnet) :
    Independent interfaces subnets ↔ Unambiguous interfaces subnets := by
  refine ⟨fun h i hi s hs s' hs' hin hin' => ?_, Unambiguous.independent⟩
  -- the two orders in which one of the subnets comes first
  have hfirst := h.order interfaces _ (List.Perm.refl _) (List.perm_cons_erase hs).symm
  have hfirst' := h.order interfaces _ (List.Perm.refl _) (List.perm_cons_erase hs').symm
  have hmem : attached i s ∈ reportedInterfaces (s' :: subnets.erase s') interfaces :=
    (hfirst.trans hfirst'.symm).mem_iff.mp (mem_reportedInterfaces_cons hi hin)
  exact subnetId_of_mem_cons (x := attached i s) hin' hmem

/-- An address in a network of a site, within the range of the whole organisation. -/
def siteInterface : Interface := { id := 3, base := { ipAddress := .v4 0x0A000105, name := some "eth0" } }

def wideSubnet : Subnet := { id := 1, base := { cidr := ⟨.v4 0x0A000000, 8⟩, networkId := 7 } }

def siteSubnet : Subnet := { id := 2, base := { cidr := ⟨.v4 0x0A000100, 24⟩, networkId := 7 } }

/-- The range that was created first takes the address, although the other is more specific. -/
theorem wide_first_not_independent : ¬ Independent [siteInterface] [wideSubnet, siteSubnet] := by
  intro h
  have hreported : attached siteInterface wideSubnet ∈ reportedInterfaces [wideSubnet, siteSubnet]
    [siteInterface] := by decide
  obtain ⟨s, hs, hid⟩ := h.specific _ hreported
  have hmem := hs.mem
  simp only [List.mem_cons, List.not_mem_nil, or_false] at hmem
  rcases hmem with rfl | rfl
  · exact absurd (hs.longest siteSubnet (by decide) (by decide)) (by decide)
  · exact absurd hid (by decide)

end SelfReport

end Netvisor
