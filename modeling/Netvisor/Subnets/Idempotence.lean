/-
Submitting a discovered subnet again.

What `create` answers with is decided by the oldest stored subnet with the
range. If that one does not stand for the subnet, because it is a system subnet
or the docker bridge of another host, a row is added, whatever other rows there
are: the one that an earlier submission added is not looked at.
-/
import Netvisor.Lib.Transition
import Netvisor.Subnets.Service

namespace Netvisor

open Program (wp after)
open Transition (Every Along)

/-- The host whose docker reported the subnet. -/
def Subnet.reportedBy (subnet : Subnet) : Option Uuid :=
  match subnet.base.source with
  | .discovery (metadata :: _) =>
    match metadata.discoveryType with
    | .docker hostId _ => some hostId
    | _ => none
  | _ => none

/-- The same subnet: docker bridges have the same range on every host. -/
def Subnet.Resubmits (subnet earlier : Subnet) : Prop :=
  subnet.base.networkId = earlier.base.networkId ∧ subnet.base.cidr = earlier.base.cidr ∧
    (subnet.base.subnetType.isDockerBridge = true → earlier.base.subnetType.isDockerBridge = true →
      subnet.reportedBy = earlier.reportedBy)

instance (subnet earlier : Subnet) : Decidable (subnet.Resubmits earlier) := by
  unfold Subnet.Resubmits
  infer_instance

namespace SubnetService

/-- The oldest subnet of the network with the range, or with the id. -/
def oldestMatch (subnets : Table Subnet Subnet.id) (subnet : Subnet) : Option Subnet :=
  (subnets.select (fun s => s.base.networkId == subnet.base.networkId &&
    (s.base.cidr == subnet.base.cidr || s.id == subnet.id)) Subnet.createdAt).head?

/-- A stored subnet is the discovered one, as far as their origins tell. -/
def StandsFor (existing subnet : Subnet) : Prop :=
  existing.base.source ≠ .system ∧
    ∀ metadata existingMetadata, subnet.base.source = .discovery metadata →
      existing.base.source = .discovery existingMetadata →
        ∃ first ∈ metadata.head?, ∃ other ∈ existingMetadata, sameOrigin subnet existing first other = true

variable {db : Db} {subnet existing : Subnet} {subnets : Table Subnet Subnet.id}

theorem existingSubnet_eq : existingSubnet subnets subnet = oldestMatch subnets subnet := by
  rw [existingSubnet, Table.find?_select, oldestMatch]
  congr 2
  funext s
  simp only [Subnet.eq]
  by_cases hnetwork : s.base.networkId = subnet.base.networkId
  · simp only [hnetwork, beq_self_eq_true, Bool.true_and, Bool.and_true, BEq.comm (a := subnet.base.cidr),
      BEq.comm (a := subnet.id)]
  · simp only [beq_eq_false_iff_ne.mpr hnetwork, Bool.false_and]

theorem isDuplicate_iff (hdiscovered : subnet.base.source.isFromDiscovery = true) :
    isDuplicate subnet existing = .ok true ↔ StandsFor existing subnet := by
  unfold isDuplicate StandsFor
  split
  · next existingMetadata metadata rest hexisting hsubnet =>
    rw [hexisting, hsubnet]
    simp [List.any_eq_true]
  · next hexisting hsubnet =>
    rw [hexisting, hsubnet]
    simp
  · next hexisting => simp [hexisting]
  · next hsubnet _ =>
    rw [hsubnet] at hdiscovered
    cases hdiscovered
  · next hsystem _ hboth hmissing =>
    refine ⟨fun _ => ⟨hsystem, fun metadata existingMetadata hmetadata hexisting => ?_⟩, fun _ => rfl⟩
    cases metadata with
    | nil => exact (hmissing _ hexisting hmetadata).elim
    | cons first rest => exact (hboth _ _ _ hexisting hmetadata).elim

/-! ## One submission -/

/-- The answer is a stored subnet, and no row was added. -/
def AnswersStored (db : Db) (subnet : Subnet) : Prop :=
  wp (create subnet) (fun found t => found ∈ db.subnets.rows ∧ t.subnets.rows = db.subnets.rows) (fun _ _ => False) db

instance (db : Db) (subnet : Subnet) : Decidable (AnswersStored db subnet) := inferInstanceAs (Decidable (wp _ _ _ _))

/-- A subnet that is created leaves another row. -/
theorem not_answersStored_of_create :
    ¬ wp (Storable.create subnet) (fun found t => found ∈ db.subnets.rows ∧ t.subnets.rows = db.subnets.rows)
      (fun _ _ => False) db := by
  intro h
  have hadded : wp (Storable.create subnet) (fun _ t => t.subnets.rows = db.subnets.rows ++ [subnet])
      (fun _ _ => True) db :=
    Storable.wp_create (fun _ => trivial) fun t hinsert _ => (Table.insert_eq_some hinsert).1
  have hboth : wp (Storable.create subnet) (fun _ _ => False) (fun _ _ => False) db := by
    refine (h.and hadded).mono (fun _ t ⟨⟨_, hsame⟩, hrows⟩ => ?_) fun _ _ h => h.1
    rw [hsame] at hrows
    simpa using congrArg List.length hrows
  unfold wp at hboth
  split at hboth <;> exact hboth

theorem createIdentified_iff (hdiscovered : subnet.base.source.isFromDiscovery = true) :
    wp (createIdentified subnet) (fun found t => found ∈ db.subnets.rows ∧ t.subnets.rows = db.subnets.rows)
      (fun _ _ => False) db ↔
    ∃ existing, oldestMatch db.subnets subnet = some existing ∧ StandsFor existing subnet := by
  simp only [createIdentified, Program.wp_bind, Program.wp_get, existingSubnet_eq]
  cases holdest : oldestMatch db.subnets subnet with
  | none => simpa using not_answersStored_of_create
  | some existing =>
    have hstored : existing ∈ db.subnets.rows := (Table.mem_select.mp (List.mem_of_mem_head? holdest)).1
    have hduplicate : isDuplicate subnet existing = .ok true ↔ StandsFor existing subnet :=
      isDuplicate_iff hdiscovered
    simp only [Option.map_some, Option.some.injEq, exists_eq_left', ← hduplicate]
    cases isDuplicate subnet existing with
    | error message => simp
    | ok duplicate =>
      cases duplicate with
      | true => simpa using hstored
      | false => simpa using not_answersStored_of_create

/-- A stored subnet answers exactly when the oldest match stands for the subnet. -/
theorem answersStored_iff (hdiscovered : subnet.base.source.isFromDiscovery = true) :
    AnswersStored db subnet ↔
      ∃ existing, oldestMatch db.subnets (identified db subnet) = some existing ∧ StandsFor existing subnet := by
  have hidentified (existing : Subnet) : StandsFor existing (identified db subnet) ↔ StandsFor existing subnet := by
    unfold identified
    split <;> exact Iff.rfl
  simp only [AnswersStored, create, Program.wp_bind, Storable.wp_orNew, ← hidentified]
  unfold identified
  by_cases hnil : subnet.id = Uuid.nil
  · rw [if_pos (beq_iff_eq.mpr hnil)]
    have hnew := @createIdentified_iff { db with drawn := db.drawn.tail }
      (Storable.stamp (db.drawn.headD Uuid.nil) db.now subnet) hdiscovered
    exact ⟨fun h => hnew.mp (h.1 hnil), fun h => ⟨fun _ => hnew.mpr h, fun hne => absurd hnil hne⟩⟩
  · rw [if_neg (mt beq_iff_eq.mp hnil)]
    have hgiven := @createIdentified_iff db subnet hdiscovered
    exact ⟨fun h => hgiven.mp (h.2 hnil), fun h => ⟨fun hnil' => absurd hnil' hnil, fun _ => hgiven.mpr h⟩⟩

/-! ## Runs -/

/-- The database, and the subnets submitted so far. -/
structure Submissions where
  db : Db
  submitted : List Subnet := []

namespace Submissions

inductive Action
  | tick (elapsed : Nat)
  | submit (subnet : Subnet)

/-- Daemons submit what they discovered. -/
def step (s : Submissions) : Action → Option Submissions
  | .tick elapsed => some { s with db.now := s.db.now + elapsed }
  | .submit subnet =>
    if subnet.base.source.isFromDiscovery then
      some { db := after (create subnet) s.db, submitted := subnet :: s.submitted }
    else none

/-- What was submitted before is not stored again. -/
def Idempotent (s : Submissions) (a : Action) (_ : Submissions) : Prop :=
  match a with
  | .tick _ => True
  | .submit subnet => (∃ earlier ∈ s.submitted, subnet.Resubmits earlier) → AnswersStored s.db subnet

instance (s : Submissions) (a : Action) (t : Submissions) : Decidable (Idempotent s a t) := by
  unfold Idempotent
  split <;> infer_instance

/-- Of the stored subnets with the range of what is submitted again, the oldest stands for it. -/
def OldestStandsFor (s : Submissions) : Action → Prop
  | .tick _ => True
  | .submit subnet => (∃ earlier ∈ s.submitted, subnet.Resubmits earlier) →
      ∃ existing, oldestMatch s.db.subnets (identified s.db subnet) = some existing ∧ StandsFor existing subnet

/-- **Submitting a discovered subnet again is idempotent throughout a run
exactly when, each time, the oldest stored subnet with its range stands for it:
it is no system subnet, and no docker bridge that another host reported.** -/
theorem idempotent_iff_oldestStandsFor (db : Db) (as : List Action) :
    Every step Idempotent { db } as ↔ Along step OldestStandsFor { db } as := by
  have hstep (s : Submissions) (a : Action) (t : Submissions) (h : step s a = some t) :
      Idempotent s a t ↔ OldestStandsFor s a := by
    cases a with
    | tick elapsed => exact Iff.rfl
    | submit subnet =>
      simp only [step] at h
      split at h
      · next hdiscovered => exact imp_congr Iff.rfl (answersStored_iff hdiscovered)
      · cases h
  exact ⟨fun h => h.mono fun s a t ht => (hstep s a t ht).mp, fun h => h.mono fun s a t ht => (hstep s a t ht).mpr⟩

/-- The docker bridge a host reports, the same range on every host. -/
def bridge (hostId : Uuid) : Subnet where
  base :=
    { cidr := ⟨.v4 0xAC110000#32, 16⟩, networkId := 1, name := "docker0", subnetType := .dockerBridge
      source := .discovery [{ discoveryType := .docker hostId .bestService, daemonId := hostId, date := 0 }] }

/-- The second host reports its bridge twice. -/
theorem second_bridge_stored_again :
    ¬ Every step Idempotent { db := { networks := [1], drawn := [11, 12, 13] } }
      [.submit (bridge 5), .submit (bridge 6), .submit (bridge 6)] := by
  decide +kernel

end Submissions

end SubnetService

end Netvisor
