/-
`SubnetService`: creating a subnet, and the endpoint for it.

A subnet is the one stored with its address range on its network. Docker gives
the bridges of different hosts the same range, so these are told apart by the
host they were discovered on.
-/
import Netvisor.StorageFacts

namespace Netvisor

def SubnetType.isDockerBridge (subnetType : SubnetType) : Bool := subnetType == .dockerBridge

/-- The fields are short enough. -/
def Subnet.isValid (subnet : Subnet) : Bool :=
  subnet.base.name.length ≤ 100 && subnet.base.description.all (·.length ≤ 500)

namespace SubnetService

/-- Two discoveries of one range are of one subnet, unless both found a docker bridge, on different hosts. -/
def sameOrigin (subnet existing : Subnet) (metadata other : DiscoveryMetadata) : Bool :=
  match metadata.discoveryType, other.discoveryType with
  | .docker hostId _, .docker otherHostId _ =>
    !subnet.base.subnetType.isDockerBridge || !existing.base.subnetType.isDockerBridge || hostId == otherHostId
  | _, _ => true

/-- Whether the stored subnet stands for the new one. -/
def isDuplicate (subnet existing : Subnet) : Except String Bool :=
  match existing.base.source, subnet.base.source with
  | .discovery existingMetadata, .discovery (metadata :: _) =>
    .ok (existingMetadata.any (sameOrigin subnet existing metadata))
  | .discovery _, .discovery [] =>
    .error "Error comparing discovered subnets during creation: subnet missing discovery metadata"
  | .system, _ | _, .system => .ok false
  | _, _ => .ok true

/-- The first stored subnet of the network that is equal. -/
def existingSubnet (subnets : Table Subnet Subnet.id) (subnet : Subnet) : Option Subnet :=
  (subnets.select (fun s => s.base.networkId == subnet.base.networkId) Subnet.createdAt).find? subnet.eq

/-- `create` for a subnet that has its id. -/
def createIdentified (subnet : Subnet) : Store Subnet := do
  let db ← get
  match (existingSubnet db.subnets subnet).map fun existing => (existing, isDuplicate subnet existing) with
  | some (_, .error message) => throw (.internal message)
  | some (existing, .ok true) => return existing
  | some (_, .ok false) | none => Storable.create subnet

def create (subnet : Subnet) : Store Subnet := do
  let subnet ← Storable.orNew subnet
  createIdentified subnet

/-- The subnet as it is created: a nil id stands for a new one. -/
def identified (db : Db) (subnet : Subnet) : Subnet :=
  if subnet.id == Uuid.nil then Storable.stamp (db.drawn.headD Uuid.nil) db.now subnet else subnet

/-- The table `create` leaves. -/
def created (networks : List Uuid) (subnets : Table Subnet Subnet.id) (subnet : Subnet) : Table Subnet Subnet.id :=
  match (existingSubnet subnets subnet).map (isDuplicate subnet) with
  | some (.error _) | some (.ok true) => subnets
  | some (.ok false) | none =>
    if networks.contains subnet.base.networkId then (subnets.insert subnet).getD subnets else subnets

variable {networks : List Uuid} {subnets : Table Subnet Subnet.id} {subnet : Subnet} {id : Uuid}

/-- Only the row of the subnet itself is new. -/
theorem get_created (hid : id ≠ subnet.id) : (created networks subnets subnet).get id = subnets.get id := by
  have hinsert : ((subnets.insert subnet).getD subnets).get id = subnets.get id := by
    cases h : subnets.insert subnet with
    | none => rfl
    | some t =>
      have hnone : [subnet].find? (fun s => decide (s.id = id)) = none := by
        simpa using fun heq => hid (Eq.symm heq)
      rw [Option.getD_some, Table.get, (Table.insert_eq_some h).1, List.find?_append, hnone, Option.or_none]
      rfl
  unfold created
  split
  · rfl
  · rfl
  all_goals
    split
    · exact hinsert
    · rfl

theorem created_of_stored (h : (subnets.get subnet.id).isSome = true) :
    created networks subnets subnet = subnets := by
  have hinsert : subnets.insert subnet = none := Table.insert_eq_none.mpr (Table.get_isSome.mp h)
  unfold created
  rw [hinsert]
  split
  · rfl
  · rfl
  all_goals
    split <;> rfl

theorem after_insert (subnet : Subnet) (db : Db) : Program.after (Storable.create subnet) db =
    { db with subnets := if db.networks.contains subnet.base.networkId then (db.subnets.insert subnet).getD db.subnets
                         else db.subnets } := by
  have hbroken : Storable.broken db subnet = none := rfl
  cases hins : db.subnets.insert subnet with
  | none =>
    have hins : (Storable.table db).insert (Storable.row subnet) = none := hins
    rw [← Program.wp_after (P := (· = _))]
    simp only [Storable.create, Program.wp_bind, Program.wp_get, hins, Option.getD_none, ite_self]
    rfl
  | some t =>
    cases href : db.networks.contains subnet.base.networkId with
    | true =>
      rw [Program.after, Storable.create_eq_ok hins hbroken href]
      rfl
    | false =>
      have hins : (Storable.table db).insert (Storable.row subnet) = some t := hins
      have href : Storable.references db subnet = false := href
      rw [← Program.wp_after (P := (· = _))]
      simp only [Storable.create, Program.wp_bind, Program.wp_get, hins, hbroken, href]
      rfl

theorem after_createIdentified (subnet : Subnet) (db : Db) : Program.after (createIdentified subnet) db =
    { db with subnets := created db.networks db.subnets subnet } := by
  have hinsert := after_insert subnet db
  unfold created
  rw [← Program.wp_after (P := (· = _))] at hinsert ⊢
  simp only [createIdentified, Program.wp_bind, Program.wp_get]
  cases h : existingSubnet db.subnets subnet with
  | none => exact hinsert
  | some existing =>
    simp only [Option.map_some]
    cases isDuplicate subnet existing with
    | error message => rfl
    | ok duplicate =>
      cases duplicate with
      | true => rfl
      | false => exact hinsert

/-- **What `create` writes**: it leaves everything but the subnets alone. -/
theorem after_create (subnet : Subnet) (db : Db) : ∃ drawn, Program.after (create subnet) db =
    { db with subnets := created db.networks db.subnets (identified db subnet), drawn } := by
  unfold identified
  split
  · next h =>
    refine ⟨db.drawn.tail, ?_⟩
    have hrun := after_createIdentified (Storable.stamp (db.drawn.headD Uuid.nil) db.now subnet)
      { db with drawn := db.drawn.tail }
    rw [← Program.wp_after (P := (· = _))] at hrun ⊢
    simp only [create, Program.wp_bind, Storable.wp_orNew]
    exact ⟨fun _ => hrun, fun hne => absurd (eq_of_beq h) hne⟩
  · next h =>
    refine ⟨db.drawn, ?_⟩
    have hrun := after_createIdentified subnet db
    rw [← Program.wp_after (P := (· = _))] at hrun ⊢
    simp only [create, Program.wp_bind, Storable.wp_orNew]
    exact ⟨fun hnil => absurd (beq_iff_eq.mpr hnil) h, fun _ => hrun⟩

end SubnetService

end Netvisor
