/-
When the hosts of an organization stay within the limit of its plan.

A host that is known is updated, whatever the count. A new one is counted only
when a user creates it, on the networks of the user, and before it is inserted.
So the limit is kept as long as the count has covered all hosts there are at the
insertion, and discoveries find new hosts only while there is room.
-/
import Netvisor.Hosts.LimitFacts

namespace Netvisor.HostHandlers

open HostTables
open Transition (Along Visits)

section Limit

variable (organizationId : Uuid) (limit : Nat)

/-- The hosts are within the limit, and those that were known were accepted when they were discovered. -/
structure Limited (s : HostTables) : Prop where
  hosts : s.hostCount organizationId ≤ limit
  accepted : ∀ d ∈ s.discovered, d.Accepted

/-- A host to save is stored, or on a network of no concern, or those that were counted are all there are; if none were
counted there is room for it. -/
def Covered : HostStatement → HostTables → Prop
  | .other, _ => True
  | .save host counted, s =>
    (s.db.hosts.get host.id).isSome = true ∨ s.inOrganization organizationId host.base.networkId = false ∨
      match counted with
      | some n => s.hostCount organizationId ≤ n
      | none => s.hostCount organizationId < limit

instance : ∀ (label : HostStatement) (s : HostTables), Decidable (Covered organizationId limit label s)
  | .other, _ => .isTrue trivial
  | .save _ (some _), _ => inferInstanceAs (Decidable (_ ∨ _ ∨ _))
  | .save _ none, _ => inferInstanceAs (Decidable (_ ∨ _ ∨ _))

/-- A plan with the limit, where more hosts cannot be bought, and no more hosts than that. -/
structure Start [Plans] (s : HostTables) : Prop where
  plan : ∃ organization, s.organizations.get organizationId = some organization ∧ organization.plan.isSome = true
  included : (Plans.config organizationId).includedHosts = some limit
  noOverage : (Plans.config organizationId).hostCents = none
  lawful : s.db.HostsLawful
  hosts : s.hostCount organizationId ≤ limit
  discovered : s.discovered = []

end Limit

section Runs

variable [Plans] {organizationId : Uuid} {limit : Nat} {s t : HostTables}

theorem Start.limitedBy (h : Start organizationId limit s) : LimitedBy organizationId limit s where
  limit := by
    obtain ⟨organization, hget, hplan⟩ := h.plan
    obtain ⟨plan, hplan⟩ := Option.isSome_iff_exists.mp hplan
    rw [planLimit, hget, Option.bind_some, hplan, Option.bind_some, h.included]
  lawful := h.lawful

omit [Plans] in
theorem hostCount_eq : s.hostCount organizationId = s.db.hostKeys.countP fun k =>
    s.inOrganization organizationId k.2 := by
  rw [hostCount, Db.hostKeys, List.countP_map]
  rfl

omit [Plans] in
theorem limited_of_effect {label : HostStatement} (h : Limited organizationId limit s)
    (heffect : Effect limit label s t)
    (hok : Covered organizationId limit label s) : Limited organizationId limit t := by
  have hin (networkId : Uuid) : t.inOrganization organizationId networkId =
      s.inOrganization organizationId networkId := by
    rw [inOrganization, heffect.stays.networks, inOrganization]
  constructor
  · have hhosts := h.hosts
    rw [hostCount_eq] at hhosts ⊢
    simp only [hin]
    rcases heffect.hosts with hkeys | ⟨host, counted, rfl, -, hkeys | ⟨hnew, id, hkeys⟩⟩
    · rw [hkeys]
      exact hhosts
    · rw [hkeys]
      exact hhosts
    · rw [hkeys, List.countP_append, List.countP_singleton]
      rcases hok with hstored | hout | hcovered
      · rw [hnew] at hstored
        cases hstored
      · rw [hout]
        exact hhosts
      · have hroom : s.db.hostKeys.countP (fun k => s.inOrganization organizationId k.2) < limit := by
          rw [← hostCount_eq]
          cases counted with
          | none => exact hcovered
          | some n => exact Nat.lt_of_le_of_lt hcovered (heffect.counted host n rfl)
        split <;> omega
  · rcases heffect.discovered with hsame | ⟨d, hadded, haccepted⟩
    · rw [hsame]
      exact h.accepted
    · rw [hadded]
      intro d' hd'
      rcases List.mem_append.mp hd' with hd' | hd'
      · exact h.accepted d' hd'
      · rw [List.mem_singleton.mp hd']
        exact haccepted

theorem relies (organizationId : Uuid) (limit : Nat) :
    Pool.Relies (fun _ (r : { r : HostRequest // r.Within organizationId }) => handle r.1) writeRest Stays
      (Effect limit)
      (LimitedBy organizationId limit) where
  refl := .refl
  trans := .trans
  stmt h := h.stays
  other _ _ := ⟨rfl, rfl, fun _ h => h, fun _ h => h, fun hl => ⟨hl.nonnil, hl.references⟩⟩
  stable := .stays
  start _ r _ hI := does_handle hI r.2

/-- **The limit is kept and no known host is refused** in a run in which every host that is new is saved while the hosts that
were counted for it are all there are, or while there is room if none were. -/
theorem limited_of_covered (h : Start organizationId limit s)
    {as : List (Pool.Action { r : HostRequest // r.Within organizationId } Db)}
    (hok : Along (step organizationId) (Pool.Meets (Covered organizationId limit) fun _ _ =>
      True) { state := s } as) :
    Visits (step organizationId) (fun p => Limited organizationId limit p.state) { state := s } as := by
  refine (relies organizationId limit).visits (fun label s t _ hP hR hok =>
    limited_of_effect hP hR hok) ?_ h.limitedBy
    ⟨h.hosts, fun d hd => ?_⟩ hok
  · exact fun _ _ _ hP _ => ⟨hP.hosts, hP.accepted⟩
  · rw [h.discovered] at hd
    cases hd

end Runs

/-- A network with one host, of an organization that may have so many hosts. -/
def oneHost : HostTables where
  db := { networks := [7], hosts := { rows := [{ id := 2, base := { networkId := 7 } }] } }
  organizations := { rows := [{ id := 1, plan := some .free }] }
  networks := { rows := [{ id := 7, organizationId := 1 }] }

@[reducible] def includes (limit : Nat) : Plans where
  config _ := { includedHosts := some limit }

theorem start_oneHost {limit : Nat} (h : 1 ≤ limit) : @Start 1 limit (includes limit) oneHost :=
  let _ := includes limit
  { plan := ⟨_, rfl, rfl⟩, included := rfl, noOverage := rfl, lawful := ⟨by decide, by decide⟩, hosts :=
    h, discovered := rfl }

/-- A daemon reports a host by its id alone. -/
def reported (hostId : Uuid) : Pool.Action { r : HostRequest // r.Within 1 } Db :=
  .request ⟨.discovery (.daemon 7 8 9) { host := { id := hostId, base := { networkId := 7 } } } fun _ =>
    ⟨0, [20], by decide⟩, fun _ h => by cases h⟩

/-- A user creates a host by hand. -/
def created : Pool.Action { r : HostRequest // r.Within 1 } Db :=
  .request ⟨.create (.user 3 1 .owner [7] true) { name := "server", networkId := 7 } fun _ => ⟨0, [20], by decide⟩,
    fun _ h => by cases h; rfl⟩

theorem limited_of_covered_turns :
    let _ := includes 2
    Visits (step 1) (fun p => Limited 1 2 p.state) { state := oneHost }
      ([created, reported 2] ++ List.replicate 5 (.issue 0) ++ List.replicate 3 (.issue 1)) :=
  let _ := includes 2
  limited_of_covered (start_oneHost (by decide)) (by decide +kernel)

/-- A daemon reports a host when there is no room for one. -/
def overfull : List (Pool.Action { r : HostRequest // r.Within 1 } Db) := reported 4 :: List.replicate 3 (.issue 0)

theorem discovery_passes_the_limit :
    let _ := includes 1
    Start 1 1 oneHost ∧ ¬ Visits (step 1) (fun p => Limited 1 1 p.state) { state := oneHost } overfull := by
  let _ := includes 1
  refine ⟨start_oneHost (Nat.le_refl _), fun h => ?_⟩
  have hhosts : Visits (step 1) (fun p => p.state.hostCount 1 ≤ 1) { state := oneHost } overfull :=
    ⟨h.1.hosts, h.2.mono fun _ _ _ _ ht => ht.hosts⟩
  revert hhosts
  decide +kernel

end Netvisor.HostHandlers
