/-
Where the equalities of interfaces and of services are lawful, and where the
order of the rows decides which host a discovery is taken for.

Both equalities take any one identifier for enough, and their hashes ask for other
data. So they are lawful on the lists on which nothing is shared that is not
shared whole, and there they are as good as the hashed data.
-/
import Netvisor.Lib.Matching
import Netvisor.Services.Reassignment
import Netvisor.StorageFacts

namespace Netvisor

open Matching (Lawful Classes)

/-! ## Interfaces -/

namespace Interface

variable {i other : Interface} {l : List Interface}

/-- What is fed to a hasher. -/
def hashed (i : Interface) : IpAddr × Uuid × Option MacAddress :=
  (i.base.ipAddress, i.base.subnetId, i.base.macAddress)

/-- They have an address, a MAC address or an id in common. -/
def Shares (i other : Interface) : Prop :=
  i.SameAddress other ∨ (∃ mac, i.base.macAddress = some mac ∧ other.base.macAddress = some mac) ∨ i.id = other.id

/-- Interfaces that share one of these have one address and one MAC address. -/
def Distinguished (l : List Interface) : Prop :=
  ∀ i ∈ l, ∀ other ∈ l, i.Shares other → i.SameAddress other ∧ i.base.macAddress = other.base.macAddress

theorem eq_iff : i.eq other = true ↔ i.Shares other := by
  have hmac : (i.base.macAddress = other.base.macAddress ∧ i.base.macAddress.isSome = true) ∧
      other.base.macAddress.isSome = true ↔
      ∃ mac, i.base.macAddress = some mac ∧ other.base.macAddress = some mac := by
    cases i.base.macAddress with
    | none => simp
    | some mac =>
      constructor
      · intro ⟨⟨heq, _⟩, _⟩
        exact ⟨mac, rfl, heq.symm⟩
      · intro ⟨mac', hmac, hother⟩
        rw [hother, hmac]
        exact ⟨⟨rfl, rfl⟩, rfl⟩
  simp only [Interface.eq, Bool.or_eq_true, Bool.and_eq_true, beq_iff_eq, hmac, Shares, SameAddress, or_assoc]
  rw [and_comm (a := i.base.ipAddress = other.base.ipAddress)]

theorem hashed_eq_iff : i.hashed = other.hashed ↔ i.SameAddress other ∧
    i.base.macAddress = other.base.macAddress := by
  simp only [hashed, Prod.mk.injEq, SameAddress]
  tauto

theorem lawful_iff : Lawful Interface.eq hashed l ∧ Classes Interface.eq hashed l ↔ Distinguished l := by
  constructor
  · intro ⟨h, _⟩ i hi other hother hshares
    exact hashed_eq_iff.mp (h.hash i hi other hother (eq_iff.mpr hshares))
  · intro h
    have hlawful : Lawful Interface.eq hashed l := Matching.lawful_of_iff fun i hi other hother => by
      rw [eq_iff, hashed_eq_iff]
      exact ⟨h i hi other hother, fun hsame => .inl hsame.1⟩
    exact ⟨hlawful, hlawful.classes⟩

end Interface

/-! ## Services -/

namespace Service

variable {δ : Type} {hashOf : ServiceDefinition → δ} {s other : Service} {l : List Service}

/-- What is fed to a hasher, where `hashOf` is what a definition feeds to it. -/
def hashed (hashOf : ServiceDefinition → δ) (s : Service) : Uuid × δ × String × Uuid :=
  (s.id, hashOf s.base.serviceDefinition, s.base.name, s.base.hostId)

def containerId (s : Service) : Option String := s.base.virtualization.bind (·.containerId)

def containerName (s : Service) : Option String := s.base.virtualization.bind (·.containerName)

def SharesPort (s other : Service) : Prop := ∃ p ∈ s.portIds, p ∈ other.portIds

/-- Two containers are told apart by their ids, else by their names; everything
else is told apart by its ports. -/
def SameInstance (s other : Service) : Prop :=
  if s.base.virtualization.isSome ∧ other.base.virtualization.isSome then
    if s.containerId = none ∧ other.containerId = none then
      if s.containerName = none ∨ other.containerName = none then s.SharesPort other
      else s.containerName = other.containerName
    else s.containerId = other.containerId
  else s.SharesPort other

/-- They run one definition on one host of one network, and it is one of which a
host has a single service, or they are the same instance of it. -/
def Alike (s other : Service) : Prop :=
  s.base.hostId = other.base.hostId ∧ s.base.networkId = other.base.networkId ∧
    s.base.serviceDefinition.id = other.base.serviceDefinition.id ∧
    (s.base.serviceDefinition.isGeneric = false ∨ s.base.serviceDefinition.isGateway = true ∨
      s.base.serviceDefinition.isOpenPorts = true ∨ s.SameInstance other)

/-- No two of the services are alike, and none are two versions of one. -/
def Distinguished (hashOf : ServiceDefinition → δ) (l : List Service) : Prop :=
  ∀ s ∈ l, ∀ other ∈ l,
    (s.id ≠ other.id → ¬ s.Alike other) ∧
    (s.id = other.id → hashOf s.base.serviceDefinition = hashOf other.base.serviceDefinition ∧
      s.base.name = other.base.name ∧ s.base.hostId = other.base.hostId)

/-- Of a definition a host can have several services of. -/
theorem eq_iff_sameInstance (hid : s.id ≠ other.id) (hhost : s.base.hostId = other.base.hostId)
    (hnetwork : s.base.networkId = other.base.networkId)
    (hdefinition : s.base.serviceDefinition.id = other.base.serviceDefinition.id)
    (hgeneric : s.base.serviceDefinition.isGeneric = true) (hgateway : s.base.serviceDefinition.isGateway = false)
    (hopenPorts : s.base.serviceDefinition.isOpenPorts = false) : s.eq other = true ↔ s.SameInstance other := by
  simp only [Service.eq, hid, hhost, hnetwork, hdefinition, hgeneric, hgateway, hopenPorts, beq_iff_eq, if_false,
    bne_self_eq_false, Bool.or_self, Bool.not_true, Bool.false_eq_true]
  unfold SameInstance containerId containerName
  -- one case for each pair of containers, by what is known of them
  rcases s.base.virtualization with _ | ⟨_ | _, _ | _, _⟩ <;>
    rcases other.base.virtualization with _ | ⟨_ | _, _ | _, _⟩ <;> simp [SharesPort]

theorem eq_iff : s.eq other = true ↔ s.id = other.id ∨ s.Alike other := by
  by_cases hid : s.id = other.id
  · simp [Service.eq, hid]
  by_cases hhost : s.base.hostId = other.base.hostId
  swap
  · simp [Service.eq, Alike, hid, hhost]
  by_cases hnetwork : s.base.networkId = other.base.networkId
  swap
  · simp [Service.eq, Alike, hid, hnetwork]
  by_cases hdefinition : s.base.serviceDefinition.id = other.base.serviceDefinition.id
  swap
  · simp [Service.eq, Alike, hid, hdefinition]
  cases hgeneric : s.base.serviceDefinition.isGeneric with
  | false => simp [Service.eq, Alike, hhost, hnetwork, hdefinition, hgeneric]
  | true =>
    cases hgateway : s.base.serviceDefinition.isGateway with
    | true => simp [Service.eq, Alike, hhost, hnetwork, hdefinition, hgateway]
    | false =>
      cases hopenPorts : s.base.serviceDefinition.isOpenPorts with
      | true => simp [Service.eq, Alike, hhost, hnetwork, hdefinition, hopenPorts]
      | false =>
        rw [eq_iff_sameInstance hid hhost hnetwork hdefinition hgeneric hgateway hopenPorts]
        simp [Alike, hid, hhost, hnetwork, hdefinition, hgeneric, hgateway, hopenPorts]

theorem lawful_iff :
    Lawful Service.eq (hashed hashOf) l ∧ Classes Service.eq (hashed hashOf) l ↔ Distinguished hashOf l := by
  constructor
  · intro ⟨h, _⟩ s hs other hother
    have hhash (heq : s.eq other = true) : hashed hashOf s = hashed hashOf other := h.hash s hs other hother heq
    refine ⟨fun hne halike => ?_, fun hid => ?_⟩
    · exact hne (congrArg Prod.fst (hhash (eq_iff.mpr (.inr halike))))
    · have hdata := hhash (eq_iff.mpr (.inl hid))
      simp only [hashed, Prod.mk.injEq] at hdata
      exact hdata.2
  · intro h
    have hlawful : Lawful Service.eq (hashed hashOf) l := Matching.lawful_of_iff fun s hs other hother => by
      obtain ⟨hne, hsame⟩ := h s hs other hother
      rw [eq_iff]
      constructor
      · intro heq
        have hid : s.id = other.id := by
          rcases heq with hid | halike
          · exact hid
          · exact Classical.byContradiction fun hid => hne hid halike
        obtain ⟨hdefinition, hname, hhost⟩ := hsame hid
        simp only [hashed, hid, hdefinition, hname, hhost]
      · intro hdata
        exact .inl (congrArg Prod.fst hdata)
    exact ⟨hlawful, hlawful.classes⟩

end Service

/-! ## Hosts -/

namespace HostService

variable {db : Db} {networkId : Uuid} {incoming incoming' : List Interface} {h h' : Host}

/-- The host is found whatever the order of the stored hosts and of the incoming interfaces. -/
def OrderFree (db : Db) (networkId : Uuid) (incoming : List Interface) : Prop :=
  ∀ (hosts : Table Host Host.id) (incoming' : List Interface), hosts.rows.Perm db.hosts.rows →
    incoming'.Perm incoming →
    findMatchingHostByInterfaces { db with hosts } networkId incoming' =
      findMatchingHostByInterfaces db networkId incoming

/-- The host is in the network, and one of its interfaces is shared. -/
def Candidate (db : Db) (networkId : Uuid) (incoming : List Interface) (h : Host) : Prop :=
  h.base.networkId = networkId ∧
    ∃ i ∈ incoming, ∃ existing ∈ db.interfaces.rows, existing.base.hostId = h.id ∧ i.Shares existing

/-- There are no two candidates that are older than the others. -/
def OneOldest (db : Db) (networkId : Uuid) (incoming : List Interface) : Prop :=
  ∀ h ∈ db.hosts.rows, ∀ h' ∈ db.hosts.rows, Candidate db networkId incoming h → Candidate db networkId incoming h' →
    h.createdAt = h'.createdAt →
    (∀ g ∈ db.hosts.rows, Candidate db networkId incoming g → h.createdAt ≤ g.createdAt) → h = h'

/-- The test a stored host has to pass. -/
def isCandidate (db : Db) (networkId : Uuid) (incoming : List Interface) (h : Host) : Bool :=
  h.base.networkId == networkId &&
    incoming.any fun i => (db.interfacesOf h.id).any fun existing => i.eq existing

theorem isCandidate_iff : isCandidate db networkId incoming h = true ↔ Candidate db networkId incoming h := by
  simp only [isCandidate, Bool.and_eq_true, beq_iff_eq, List.any_eq_true, Candidate, Db.mem_interfacesOf,
    Interface.eq_iff, and_assoc]

theorem Candidate.perm (hincoming : incoming'.Perm incoming) :
    Candidate db networkId incoming' h ↔ Candidate db networkId incoming h := by
  simp only [Candidate, hincoming.mem_iff]

theorem findMatchingHostByInterfaces_eq :
    findMatchingHostByInterfaces db networkId incoming
      = (db.hosts.select (isCandidate db networkId incoming) Host.createdAt).head? := by
  rw [findMatchingHostByInterfaces, hostsOf, Table.find?_select]
  rfl

/-- The host found is the oldest candidate. -/
theorem oldest_of_found (hfound : findMatchingHostByInterfaces db networkId incoming = some h) :
    h ∈ db.hosts.rows ∧ Candidate db networkId incoming h ∧
      ∀ g ∈ db.hosts.rows, Candidate db networkId incoming g → h.createdAt ≤ g.createdAt := by
  rw [findMatchingHostByInterfaces_eq] at hfound
  obtain ⟨hh, hcandidate, hmin⟩ := Table.head?_select hfound
  exact ⟨hh, isCandidate_iff.mp hcandidate, fun g hg hgc => hmin g hg (isCandidate_iff.mpr hgc)⟩

theorem not_found_iff :
    findMatchingHostByInterfaces db networkId incoming = none ↔
      ∀ h ∈ db.hosts.rows, ¬ Candidate db networkId incoming h := by
  simp only [findMatchingHostByInterfaces_eq, List.head?_eq_none_iff, List.eq_nil_iff_forall_not_mem,
    Table.mem_select, isCandidate_iff, not_and]

theorem orderFree_of_oneOldest (hone : OneOldest db networkId incoming) : OrderFree db networkId incoming := by
  intro hosts incoming' hrows hincoming
  have hsame (h : Host) : Candidate { db with hosts } networkId incoming' h ↔ Candidate db networkId incoming h :=
    Candidate.perm hincoming
  cases hfound' : findMatchingHostByInterfaces { db with hosts } networkId incoming' with
  | none =>
    refine (not_found_iff.mpr fun h hh hcandidate => ?_).symm
    exact not_found_iff.mp hfound' h (hrows.mem_iff.mpr hh) ((hsame h).mpr hcandidate)
  | some h' =>
    obtain ⟨hh', hcandidate', hmin'⟩ := oldest_of_found hfound'
    have hstored : h' ∈ db.hosts.rows := hrows.mem_iff.mp hh'
    cases hfound : findMatchingHostByInterfaces db networkId incoming with
    | none => exact absurd ((hsame h').mp hcandidate') (not_found_iff.mp hfound h' hstored)
    | some h =>
      obtain ⟨hh, hcandidate, hmin⟩ := oldest_of_found hfound
      have hle : h.createdAt ≤ h'.createdAt := hmin h' hstored ((hsame h').mp hcandidate')
      have hge : h'.createdAt ≤ h.createdAt := hmin' h (hrows.mem_iff.mpr hh) ((hsame h).mpr hcandidate)
      rw [hone h hh h' hstored hcandidate ((hsame h').mp hcandidate') (le_antisymm hle hge) hmin]

/-- An oldest candidate is found if its row comes first. -/
theorem exists_order_found (hh : h ∈ db.hosts.rows) (hcandidate : Candidate db networkId incoming h)
    (hmin : ∀ g ∈ db.hosts.rows, Candidate db networkId incoming g → h.createdAt ≤ g.createdAt) :
    ∃ hosts : Table Host Host.id, hosts.rows.Perm db.hosts.rows ∧
      findMatchingHostByInterfaces { db with hosts } networkId incoming = some h := by
  obtain ⟨before, after, hrows⟩ := List.append_of_mem hh
  have hperm : (h :: (before ++ after)).Perm db.hosts.rows := hrows ▸ List.perm_middle.symm
  refine ⟨{ rows := h :: (before ++ after), nodup := (hperm.map Host.id).nodup_iff.mpr db.hosts.nodup }, hperm, ?_⟩
  rw [findMatchingHostByInterfaces_eq]
  refine Table.head?_select_cons rfl (isCandidate_iff.mpr hcandidate) fun g hg hgc => ?_
  exact hmin g (hperm.mem_iff.mp (List.mem_cons_of_mem h hg)) (isCandidate_iff.mp hgc)

theorem oneOldest_of_orderFree (hfree : OrderFree db networkId incoming) : OneOldest db networkId incoming := by
  intro h hh h' hh' hcandidate hcandidate' hsame hmin
  obtain ⟨hosts, hrows, hfound⟩ := exists_order_found hh hcandidate hmin
  obtain ⟨hosts', hrows', hfound'⟩ := exists_order_found hh' hcandidate' fun g hg hgc => hsame ▸ hmin g hg hgc
  rw [hfree hosts incoming hrows (List.Perm.refl _)] at hfound
  rw [hfree hosts' incoming hrows' (List.Perm.refl _)] at hfound'
  exact Option.some.inj (hfound.symm.trans hfound')

/-- **The equalities are lawful exactly on the lists on which nothing is shared in
part, and the host found does not depend on any order exactly if there is one
oldest candidate.** -/
theorem matching_lawful_iff {δ : Type} (hashOf : ServiceDefinition → δ) (interfaces : List Interface)
    (services : List Service) (db : Db) (networkId : Uuid) (incoming : List Interface) :
    (Lawful Interface.eq Interface.hashed interfaces ∧ Classes Interface.eq Interface.hashed interfaces ↔
      Interface.Distinguished interfaces) ∧
    (Lawful Service.eq (Service.hashed hashOf) services ∧ Classes Service.eq (Service.hashed hashOf) services ↔
      Service.Distinguished hashOf services) ∧
    (OrderFree db networkId incoming ↔ OneOldest db networkId incoming) :=
  ⟨Interface.lawful_iff, Service.lawful_iff, oneOldest_of_orderFree, orderFree_of_oneOldest⟩

/-- A card with two addresses, of which the second was given to another card. -/
def cards : List Interface :=
  [{ id := 1, base := { ipAddress := .v4 1, macAddress := some 7 } },
    { id := 2, base := { ipAddress := .v4 2, macAddress := some 7 } },
    { id := 3, base := { ipAddress := .v4 2, macAddress := some 8 } }]

/-- A definition of which a host has one service, found twice. -/
def foundTwice : List Service := [{ id := 1 }, { id := 2 }]

theorem matching_not_lawful :
    (¬ ∀ i ∈ cards, ∀ j ∈ cards, ∀ k ∈ cards, i.eq j = true → j.eq k = true → i.eq k = true) ∧
    (¬ ∀ i ∈ cards, ∀ j ∈ cards, i.eq j = true → i.hashed = j.hashed) ∧
    ¬ Lawful Interface.eq Interface.hashed cards ∧
    ¬ Lawful Service.eq (Service.hashed fun _ => ()) foundTwice := by
  have htrans : ¬ ∀ i ∈ cards, ∀ j ∈ cards, ∀ k ∈ cards, i.eq j = true → j.eq k = true → i.eq k = true := by decide
  have hhash : ¬ ∀ i ∈ cards, ∀ j ∈ cards, i.eq j = true → i.hashed = j.hashed := by decide
  have hservices : ¬ ∀ s ∈ foundTwice, ∀ other ∈ foundTwice, s.eq other = true →
      s.hashed (fun _ => ()) = other.hashed fun _ => () := by decide
  exact ⟨htrans, hhash, fun h => htrans h.trans, fun h => hservices h.hash⟩

end HostService

end Netvisor
