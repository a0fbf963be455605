/-
When the enforcement of a plan ends within the plan.

A run trims what goes beyond the limits and leaves the rest, wherever it stops;
one that returns leaves nothing to do for the next. But of the hosts it keeps as
many as the limit says besides those of the daemons, so the limit is passed when
there are too many hosts, of both kinds.
-/
import Netvisor.Billing.RestrictionsFacts

namespace Netvisor

open Failing (Planned)
open Program (wp)
open Crud (Calm)

namespace BillingTables

variable (organizationId : Uuid) (plan : BillingPlan) (config : PlanConfig)

def networkIdsOf (d : BillingTables) : List Uuid := (d.networksOf organizationId).map (·.id)

/-- What the enforcement of a plan makes of the tables `d`. -/
structure EndsWithin (d d' : BillingTables) : Prop where
  networks : ∀ limit ∈ config.networkCap, (d'.networksOf organizationId).length ≤ limit
  hosts : ∀ limit ∈ config.hostCap, (d'.hostsOn (d'.networkIdsOf organizationId)).length ≤
    max limit (d'.daemonHosts (d'.networkIdsOf organizationId))
  /-- No daemon host of a network that is still there was deleted. -/
  daemonHosts : ∀ host ∈ d.hosts.rows, host.base.networkId ∈ d'.networkIdsOf organizationId →
    d.onDaemonHost (d'.networkIdsOf organizationId) host = true → host ∈ d'.hosts.rows
  /-- Within the limits nothing was deleted. -/
  undeleted : (∀ limit ∈ config.networkCap, (d.networksOf organizationId).length ≤ limit) →
    (∀ limit ∈ config.hostCap, (d.hostsOn (d.networkIdsOf organizationId)).length ≤ limit) →
    d'.networks = d.networks ∧ d'.hosts = d.hosts ∧ d'.daemons.rows.map (·.id) = d.daemons.rows.map (·.id) ∧
      d'.discoveries.rows.map (·.id) = d.discoveries.rows.map (·.id)
  standby : plan.features.daemonPoll = false → ∀ x ∈ d'.daemonsOn (d'.networkIdsOf organizationId),
    x.mode = .daemonPoll → x.standby = true
  unscheduled : plan.scheduledDiscovery = false → ∀ x ∈ d'.discoveriesOn (d'.networkIdsOf organizationId),
    x.isScheduled = false

/-- If hosts are limited, there are no more of them on the networks that stay, or no daemon host, or no other host, or none
is to stay but those of the daemons. -/
def Fits (d : BillingTables) : Prop :=
  ∀ limit ∈ config.hostCap, (d.hostsOn (d.kept organizationId config)).length ≤ limit ∨
    d.daemonHosts (d.kept organizationId config) = 0 ∨ d.otherHosts (d.kept organizationId config) = 0 ∨ limit = 0

end BillingTables

namespace BillingService

open BillingTables

section Runs

variable (organizationId : Uuid) (plan : BillingPlan) (config : PlanConfig)

/-- What attempts to enforce a plan, all of which failed, have left. -/
inductive Attempted (l : Ledger BillingTables) : Ledger BillingTables → Prop
  | start : Attempted l l
  | failed {l' : Ledger BillingTables} {faults : List (Option AnyError)} {e : AnyError}
    {t : Planned AnyError (Ledger BillingTables)} :
      Attempted l l' → enforcePlanRestrictions organizationId plan config { store := l', faults } = .error e t →
      Attempted l t.store

/-- To enforce the plan once more changes nothing. -/
def Settles (l : Ledger BillingTables) : Prop :=
  ∀ faults, wp (enforcePlanRestrictions organizationId plan config) (fun _ t => l.Unchanged t.store)
    (fun _ t => l.Unchanged t.store) { store := l, faults }

/-- When the enforcement of the plan returns, at once or after attempts that failed, it ends within the plan, and for good. -/
def Enforced (l : Ledger BillingTables) : Prop :=
  ∀ l', Attempted organizationId plan config l l' → ∀ faults,
    wp (enforcePlanRestrictions organizationId plan config)
      (fun _ t => EndsWithin organizationId plan config l.data t.store.data ∧
        Settles organizationId plan config t.store)
      (fun _ _ => True) { store := l', faults }

end Runs

end BillingService

namespace BillingTables

variable {d d' d'' : BillingTables} {organizationId : Uuid} {plan : BillingPlan} {config : PlanConfig}
  {networkIds : List Uuid}

/-! ## What a run does, wherever it stops -/

/-- Networks and hosts that go are deleted, some of them at least; the rest stays. -/
structure Trims (organizationId : Uuid) (config : PlanConfig) (d d' : BillingTables) : Prop where
  kept : d'.kept organizationId config = d.kept organizationId config
  excess : d'.excess organizationId config ⊆ d.excess organizationId config
  daemons : (d'.daemons.rows.filter fun x => (d.kept organizationId config).contains x.networkId).map Daemon.awake =
    (d.daemons.rows.filter fun x => (d.kept organizationId config).contains x.networkId).map Daemon.awake
  hosts : d'.hosts.rows.Sublist d.hosts.rows
  daemonHosts : ∀ host ∈ d.hosts.rows, host.base.networkId ∈ d.kept organizationId config →
    d.onDaemonHost (d.kept organizationId config) host = true → host ∈ d'.hosts.rows
  undeleted : d.excess organizationId config = [] → d'.networks = d.networks ∧
    d'.daemons.rows.map (·.id) = d.daemons.rows.map (·.id) ∧
    d'.discoveries.rows.map (·.id) = d.discoveries.rows.map (·.id)
  within : d.excess organizationId config = [] →
    (∀ limit ∈ config.hostCap, (d.hostsOn (d.kept organizationId config)).length ≤ limit) → d'.hosts = d.hosts

theorem onDaemonHost_iff {host : Host} : d.onDaemonHost networkIds host = true ↔
    host.id ∈ ((d.daemons.rows.filter fun x => networkIds.contains x.networkId).map Daemon.awake).map (·.hostId) := by
  have hawake : (fun x : Daemon => x.awake.hostId) = fun x => x.hostId := rfl
  rw [onDaemonHost, List.contains_iff_mem, daemonHostIds, List.map_map, Function.comp_def, hawake]
  exact (Table.select_perm.map _).mem_iff

theorem onDaemonHost_congr
    (h : (d'.daemons.rows.filter fun x => networkIds.contains x.networkId).map Daemon.awake =
      (d.daemons.rows.filter fun x => networkIds.contains x.networkId).map Daemon.awake) :
    d'.onDaemonHost networkIds = d.onDaemonHost networkIds := by
  funext host
  rw [Bool.eq_iff_iff, onDaemonHost_iff, onDaemonHost_iff, h]

theorem networksOf_congr (h : d'.networks = d.networks) :
    d'.networksOf organizationId = d.networksOf organizationId := by
  rw [networksOf, h, networksOf]

theorem kept_congr (h : d'.networks = d.networks) : d'.kept organizationId config = d.kept organizationId config := by
  rw [kept, networksOf_congr h, kept]

theorem excess_congr (h : d'.networks = d.networks) :
    d'.excess organizationId config = d.excess organizationId config := by
  rw [excess, networksOf_congr h, excess]

theorem countP_hostsOn_le (h : d'.hosts.rows.Sublist d.hosts.rows) (networkIds : List Uuid) (p : Host → Bool) :
    (d'.hostsOn networkIds).countP p ≤ (d.hostsOn networkIds).countP p := by
  rw [hostsOn, hostsOn, Table.select_perm.countP_eq, Table.select_perm.countP_eq]
  exact (h.filter _).countP_le

theorem length_hostsOn_le (h : d'.hosts.rows.Sublist d.hosts.rows) (networkIds : List Uuid) :
    (d'.hostsOn networkIds).length ≤ (d.hostsOn networkIds).length := by
  rw [hostsOn, hostsOn, Table.select_perm.length_eq, Table.select_perm.length_eq]
  exact (h.filter _).length_le

namespace Trims

theorem refl (d : BillingTables) : Trims organizationId config d d :=
  ⟨rfl, fun _ h => h, rfl, List.Sublist.refl _, fun _ h _ _ => h, fun _ => ⟨rfl, rfl, rfl⟩, fun _ _ => rfl⟩

theorem trans (h : Trims organizationId config d d') (h' : Trims organizationId config d' d'') :
    Trims organizationId config d d'' := by
  have hnone (hexcess : d.excess organizationId config = []) : d'.excess organizationId config = [] :=
    List.eq_nil_iff_forall_not_mem.mpr fun id hid => by
      have hmem := h.excess hid
      rw [hexcess] at hmem
      exact absurd hmem List.not_mem_nil
  refine ⟨h'.kept.trans h.kept, fun _ hid => h.excess (h'.excess hid), ?_, h'.hosts.trans h.hosts, ?_, ?_, ?_⟩
  · have hdaemons := h'.daemons
    rw [h.kept] at hdaemons
    exact hdaemons.trans h.daemons
  · intro host hhost hkept hdaemon
    refine h'.daemonHosts host (h.daemonHosts host hhost hkept hdaemon) (h.kept ▸ hkept) ?_
    rw [h.kept, onDaemonHost_congr h.daemons]
    exact hdaemon
  · intro hexcess
    obtain ⟨h1, h2, h3⟩ := h.undeleted hexcess
    obtain ⟨h1', h2', h3'⟩ := h'.undeleted (hnone hexcess)
    exact ⟨h1'.trans h1, h2'.trans h2, h3'.trans h3⟩
  · intro hexcess hwithin
    refine (h'.within (hnone hexcess) fun limit hlimit => ?_).trans (h.within hexcess hwithin)
    rw [h.kept]
    exact le_trans (length_hostsOn_le h.hosts _) (hwithin limit hlimit)

theorem of_networksDeleted {ids : List Uuid} (hids : ∀ id ∈ ids, id ∈ d.excess organizationId config)
    (h : NetworksDeleted d d' ids) : Trims organizationId config d d' := by
  obtain ⟨hkept, hexcess⟩ := kept_of_deleted hids h.networks
  have hstays {id : Uuid} (hid : id ∈ d.kept organizationId config) : (!ids.contains id) = true := by
    have hnot : id ∉ ids := fun hmem => not_mem_excess hid (hids id hmem)
    simpa using hnot
  have hsame (hnone : d.excess organizationId config = []) : d' = d := h.unless_some
    (List.eq_nil_iff_forall_not_mem.mpr fun id hid => by
      have hmem := hids id hid
      rw [hnone] at hmem
      exact absurd hmem List.not_mem_nil)
  refine ⟨hkept, fun id hid => ?_, ?_, ?_, fun host hhost hon _ => ?_, fun hnone => ?_,
    fun hnone _ => by rw [hsame hnone]⟩
  · rw [hexcess] at hid
    exact List.mem_of_mem_filter hid
  · rw [h.daemons, Table.filter, List.filter_filter]
    refine congrArg _ (List.filter_congr fun x _ => ?_)
    by_cases hx : x.networkId ∈ d.kept organizationId config
    · rw [hstays hx, Bool.and_true]
    · have hnot : (d.kept organizationId config).contains x.networkId = false := by simpa using hx
      rw [hnot, Bool.false_and]
  · rw [h.hosts]
    exact List.filter_sublist
  · rw [h.hosts]
    exact Table.mem_filter.mpr ⟨hhost, hstays hon⟩
  · rw [hsame hnone]
    exact ⟨rfl, rfl, rfl⟩

theorem of_standbySet (h : StandbySet d d') : Trims organizationId config d d' := by
  have hids : d'.daemons.rows.map (·.id) = d.daemons.rows.map (·.id) := by
    have hmap := congrArg (List.map Daemon.id) h.daemons
    rw [List.map_map, List.map_map] at hmap
    exact hmap
  refine ⟨kept_congr h.networks, fun id hid => excess_congr h.networks ▸ hid, ?_, ?_, ?_,
    fun _ => ⟨h.networks, hids, ?_⟩, fun _ _ => h.hosts⟩
  · have hmap := congrArg (List.filter fun x => (d.kept organizationId config).contains x.networkId) h.daemons
    rw [List.filter_map, List.filter_map] at hmap
    exact hmap
  · rw [h.hosts]
  · intro host hhost _ _
    rw [h.hosts]
    exact hhost
  · rw [h.discoveries]

theorem of_unscheduled (h : Unscheduled d d') : Trims organizationId config d d' := by
  refine ⟨kept_congr h.networks, fun id hid => excess_congr h.networks ▸ hid, ?_, ?_, ?_,
    fun _ => ⟨h.networks, ?_, h.ids⟩, fun _ _ => h.hosts⟩
  · rw [h.daemons]
  · rw [h.hosts]
  · intro host hhost _ _
    rw [h.hosts]
    exact hhost
  · rw [h.daemons]

theorem of_deleteHosts {ids : List Uuid} (hids : ∀ id ∈ ids,
    id ∈ BillingService.excessHosts config d (d.kept organizationId config)) :
    Trims organizationId config d (d.deleteHosts ids) := by
  refine ⟨rfl, fun _ hid => hid, rfl, List.filter_sublist, fun host hhost _ hdaemon => ?_, fun _ => ⟨rfl, rfl, rfl⟩,
    fun _ hwithin => ?_⟩
  · have hnot : host.id ∉ ids :=
      fun hid => BillingService.not_mem_of_excessHosts (hids _ hid) (by simpa [onDaemonHost] using hdaemon)
    exact Table.mem_filter.mpr ⟨hhost, by simpa using hnot⟩
  · have hnil : ids = [] := List.eq_nil_iff_forall_not_mem.mpr fun id hid => by
      have hmem := hids id hid
      rw [BillingService.excessHosts_eq_nil hwithin] at hmem
      exact absurd hmem List.not_mem_nil
    rw [hnil]
    exact Table.eq_of_rows (List.filter_eq_self.mpr fun _ _ => rfl)

/-- Hosts that fit still fit when some are gone. -/
theorem fits (h : Trims organizationId config d d') (hfits : Fits organizationId config d) :
    Fits organizationId config d' := by
  intro limit hlimit
  have hdaemon := onDaemonHost_congr h.daemons
  have hdaemons := countP_hostsOn_le h.hosts (d.kept organizationId config)
    (d.onDaemonHost (d.kept organizationId config))
  have hothers := countP_hostsOn_le h.hosts (d.kept organizationId config)
    fun host => !d.onDaemonHost (d.kept organizationId config) host
  have hlength := length_hostsOn_le h.hosts (d.kept organizationId config)
  have hfits := hfits limit hlimit
  unfold BillingTables.daemonHosts otherHosts at hfits ⊢
  rw [h.kept, hdaemon]
  omega

end Trims

/-! ## Counting hosts -/

theorem filter_not_mem_drop {T : Type} {key : T → Uuid} {l : List T} (hnodup : (l.map key).Nodup) (n : Nat) :
    l.filter (fun x => !((l.drop n).map key).contains (key x)) = l.take n := by
  have hdisjoint : ∀ x ∈ l.take n, key x ∉ (l.drop n).map key := by
    intro x hx hdrop
    rw [← List.take_append_drop n l, List.map_append, List.nodup_append] at hnodup
    exact hnodup.2.2 _ (List.mem_map_of_mem hx) _ hdrop rfl
  conv_lhs => rw [← List.take_append_drop n l, List.filter_append, List.take_append_drop n l]
  have htake : (l.take n).filter (fun x => !((l.drop n).map key).contains (key x)) = l.take n :=
    List.filter_eq_self.mpr fun x hx => by simpa using hdisjoint x hx
  have hdrop : (l.drop n).filter (fun x => !((l.drop n).map key).contains (key x)) = [] := by
    refine List.filter_eq_nil_iff.mpr fun x hx => ?_
    have hmem : key x ∈ (l.drop n).map key := List.mem_map_of_mem hx
    simpa using hmem
  rw [htake, hdrop, List.append_nil]

theorem hostsOn_deleteHosts {ids : List Uuid} :
    (d.deleteHosts ids).hostsOn networkIds = (d.hostsOn networkIds).filter fun h => !ids.contains h.id :=
    Table.select_filter

theorem daemonHosts_deleteHosts {ids : List Uuid} (hids : ∀ id ∈ ids, id ∉ d.daemonHostIds networkIds) :
    (d.deleteHosts ids).daemonHosts networkIds = d.daemonHosts networkIds := by
  have hsame : (d.deleteHosts ids).onDaemonHost networkIds = d.onDaemonHost networkIds := rfl
  rw [daemonHosts, hostsOn_deleteHosts, hsame, daemonHosts, List.countP_filter]
  refine List.countP_congr fun host _ => ?_
  rw [Bool.and_eq_true, and_iff_left_iff_imp]
  intro hdaemon
  have hnot : host.id ∉ ids := fun hid => hids _ hid (by simpa [onDaemonHost] using hdaemon)
  simpa using hnot

/-- When there are too many hosts, those without a daemon are cut down to the limit. -/
theorem otherHosts_deleteHosts {limit : Nat} (hcap : config.hostCap = some limit)
    (hmany : limit < (d.hostsOn networkIds).length) :
    (d.deleteHosts (BillingService.excessHosts config d networkIds)).otherHosts networkIds =
      min limit (d.otherHosts networkIds) := by
  have hsame (ids : List Uuid) : (d.deleteHosts ids).onDaemonHost networkIds = d.onDaemonHost networkIds := rfl
  have hperm := byUpdate_perm (d.hostsOn networkIds)
  have hnodup : (((BillingService.byUpdate (d.hostsOn networkIds)).filter
      fun host => !d.onDaemonHost networkIds host).map (·.id)).Nodup :=
    (List.filter_sublist.map _).nodup nodup_byUpdate
  have hexcess : BillingService.excessHosts config d networkIds =
      (((BillingService.byUpdate (d.hostsOn networkIds)).filter fun host =>
        !d.onDaemonHost networkIds host).drop limit).map
        (·.id) := by
    rw [BillingService.excessHosts, hcap, Option.elim_some, if_pos hmany, BillingService.toDelete_eq, Nat.sub_zero]
    rfl
  rw [otherHosts, hostsOn_deleteHosts, hsame, otherHosts, ← hperm.countP_eq, ← (hperm.filter _).countP_eq,
    List.countP_filter, List.countP_eq_length_filter, List.countP_eq_length_filter]
  simp only [Bool.and_comm (!d.onDaemonHost networkIds _)]
  rw [← List.filter_filter, hexcess, filter_not_mem_drop hnodup, List.length_take]

/-- Deleting the hosts that are too many once leaves none that are. -/
theorem excessHosts_deleteHosts :
    BillingService.excessHosts config (d.deleteHosts (BillingService.excessHosts config d networkIds)) networkIds =
        [] := by
  cases hcap : config.hostCap with
  | none => rw [BillingService.excessHosts, hcap, Option.elim_none]
  | some limit =>
    by_cases hmany : limit < (d.hostsOn networkIds).length
    · have hothers := otherHosts_deleteHosts hcap hmany
      rw [BillingService.excessHosts, hcap, Option.elim_some, BillingService.toDelete_eq, Nat.sub_zero]
      split
      · rw [List.drop_eq_nil_of_le, List.map_nil]
        rw [← List.countP_eq_length_filter, (byUpdate_perm _).countP_eq]
        exact hothers.le.trans (Nat.min_le_left _ _)
      · rfl
    · refine BillingService.excessHosts_eq_nil fun limit' hlimit' => ?_
      have hlimit : limit' = limit := Option.some.inj (hlimit'.symm.trans hcap)
      rw [hlimit]
      exact (length_hostsOn_le List.filter_sublist _).trans (Nat.not_lt.mp hmany)

/-- Enforcement leaves no more hosts than the limit, or than those with a daemon, if and only if they fit. -/
theorem length_hostsOn_deleteHosts {limit : Nat} (hcap : config.hostCap = some limit) :
    ((d.deleteHosts (BillingService.excessHosts config d networkIds)).hostsOn networkIds).length ≤
      max limit (d.daemonHosts networkIds) ↔ (d.hostsOn networkIds).length ≤ limit ∨ d.daemonHosts networkIds = 0 ∨
        d.otherHosts networkIds = 0 ∨ limit = 0 := by
  have hdaemons : (d.deleteHosts (BillingService.excessHosts config d networkIds)).daemonHosts networkIds =
      d.daemonHosts networkIds := daemonHosts_deleteHosts fun _ => BillingService.not_mem_of_excessHosts
  by_cases hmany : limit < (d.hostsOn networkIds).length
  · rw [length_hostsOn, hdaemons, otherHosts_deleteHosts hcap hmany]
    rw [length_hostsOn] at hmany ⊢
    omega
  · have hfew : ((d.deleteHosts (BillingService.excessHosts config d networkIds)).hostsOn networkIds).length ≤
        limit :=
      (length_hostsOn_le List.filter_sublist _).trans (Nat.not_lt.mp hmany)
    exact iff_of_true (hfew.trans (le_max_left _ _)) (.inl (Nat.not_lt.mp hmany))

/-! ## What is left to do -/

/-- There is nothing left for the enforcement of the plan to do. -/
structure Settled (organizationId : Uuid) (plan : BillingPlan) (config : PlanConfig) (d : BillingTables) : Prop where
  excess : d.excess organizationId config = []
  daemons : ∀ x ∈ d.daemonsOn (d.kept organizationId config), plan.Allows x
  discoveries : plan.scheduledDiscovery = false → ∀ x ∈ d.discoveriesOn (d.kept organizationId config),
    x.isScheduled = false
  hosts : BillingService.excessHosts config d (d.kept organizationId config) = []

theorem kept_of_excess (h : d.excess organizationId config = []) :
    d.kept organizationId config = d.networkIdsOf organizationId := by
  rw [networkIdsOf, ← kept_append_excess config, h, List.append_nil]

theorem excess_eq_nil_iff : d.excess organizationId config = [] ↔
    ∀ limit ∈ config.networkCap, (d.networksOf organizationId).length ≤ limit := by
  rw [excess, List.map_eq_nil_iff]
  cases config.networkCap with
  | none => simp
  | some limit => simp [List.drop_eq_nil_iff]

end BillingTables

namespace BillingService

open BillingTables

variable {organizationId : Uuid} {plan : BillingPlan} {config : PlanConfig}
  {s : Planned AnyError (Ledger BillingTables)}

/-- What happens once the networks are trimmed. -/
theorem wp_restrict {networkIds : List Uuid} (hexcess : s.store.data.excess organizationId config = [])
    (hids : s.store.data.kept organizationId config = networkIds) :
    wp (do
        let daemons ← daemonService.getAll fun d => d.daemonsOn networkIds
        let daemonHostIds := daemons.map (·.hostId)
        setStandby plan daemons
        unschedule plan networkIds
        trimHosts config networkIds daemonHostIds)
      (fun _ t => Trims organizationId config s.store.data t.store.data ∧
        Settled organizationId plan config t.store.data ∧
        ∀ limit ∈ config.hostCap,
          ((t.store.data.hostsOn networkIds).length ≤ max limit (t.store.data.daemonHosts networkIds) ↔
          Fits organizationId config s.store.data))
      (fun _ t => ¬ Calm s ∧ Trims organizationId config s.store.data t.store.data) s := by
  rw [Program.wp_bind]
  refine Crud.wp_getAll (fun e t hnot hstore => ⟨hnot, by rw [hstore]; exact .refl _⟩) fun t hcalm hstore => ?_
  rw [← hstore, Program.wp_bind]
  rw [← hstore] at hexcess hids
  refine wp_setStandby.mono (fun _ u ⟨hcalm', hset, hallowed⟩ => ?_)
    fun _ u ⟨hnot, hset⟩ => ⟨fun h => hnot (hcalm h), .of_standbySet hset⟩
  rw [Program.wp_bind]
  refine wp_unschedule.mono (fun _ v ⟨hcalm'', hchanged, hnone⟩ => ?_) fun _ v ⟨hnot, hchanged⟩ =>
    ⟨fun h => hnot (hcalm' (hcalm h)), .trans (.of_standbySet hset) (.of_unscheduled hchanged)⟩
  have hnetworks : v.store.data.networks = t.store.data.networks := hchanged.networks.trans hset.networks
  have hhosts : v.store.data.hosts = t.store.data.hosts := hchanged.hosts.trans hset.hosts
  have hkept : v.store.data.kept organizationId config = networkIds := (kept_congr hnetworks).trans hids
  have htrims : Trims organizationId config t.store.data v.store.data :=
    .trans (.of_standbySet hset) (.of_unscheduled hchanged)
  have hdaemon : v.store.data.onDaemonHost networkIds = t.store.data.onDaemonHost networkIds := by
    refine onDaemonHost_congr ?_
    rw [← hids]
    exact htrims.daemons
  change wp (trimHosts config networkIds (t.store.data.daemonHostIds networkIds)) _ _ v
  have hsame : trimHosts config networkIds (t.store.data.daemonHostIds networkIds) =
      trimHosts config networkIds (v.store.data.daemonHostIds networkIds) :=
    trimHosts_congr fun id => (congrFun hdaemon { id := id : Host }).symm
  rw [hsame]
  refine wp_trimHosts.mono (fun _ w ⟨_, hdata⟩ => ?_) fun _ w ⟨hnot, ids, hprefix, hdata⟩ => ?_
  · have hdelete : Trims organizationId config v.store.data w.store.data := by
      rw [hdata]
      refine .of_deleteHosts fun id hid => ?_
      rw [hkept]
      exact hid
    have hkept' : w.store.data.kept organizationId config = networkIds := hdelete.kept.trans hkept
    refine ⟨htrims.trans hdelete, ⟨?_, ?_, ?_, ?_⟩, fun limit hlimit => ?_⟩
    · rw [hdata]
      exact (excess_congr hnetworks).trans hexcess
    · rw [hkept', hdata]
      change ∀ x ∈ v.store.data.daemonsOn networkIds, plan.Allows x
      rw [daemonsOn, hchanged.daemons]
      exact hallowed
    · rw [hkept', hdata]
      exact hnone
    · rw [hkept', hdata]
      exact excessHosts_deleteHosts
    · have hlimit : config.hostCap = some limit := hlimit
      have hhostsOn : v.store.data.hostsOn networkIds = t.store.data.hostsOn networkIds := by
        rw [hostsOn, hhosts, hostsOn]
      have hdaemons : (v.store.data.deleteHosts (excessHosts config v.store.data networkIds)).daemonHosts networkIds =
          v.store.data.daemonHosts networkIds := daemonHosts_deleteHosts fun _ => not_mem_of_excessHosts
      rw [hdata, hdaemons, length_hostsOn_deleteHosts hlimit]
      simp only [Fits, Option.mem_def, hlimit, Option.some.injEq, forall_eq', hids, daemonHosts, otherHosts,
        hhostsOn, hdaemon]
  · refine ⟨fun h => hnot (hcalm'' (hcalm' (hcalm h))), htrims.trans ?_⟩
    rw [hdata]
    refine .of_deleteHosts fun id hid => ?_
    rw [hkept]
    exact hprefix.subset hid

variable (organizationId plan config s) in
/-- What a run does. -/
theorem wp_enforce : wp (enforcePlanRestrictions organizationId plan config)
    (fun _ t => Trims organizationId config s.store.data t.store.data ∧
      Settled organizationId plan config t.store.data ∧
      ∀ limit ∈ config.hostCap, ((t.store.data.hostsOn (t.store.data.networkIdsOf organizationId)).length ≤
        max limit (t.store.data.daemonHosts (t.store.data.networkIdsOf organizationId)) ↔
          Fits organizationId config s.store.data))
    (fun _ t => ¬ Calm s ∧ Trims organizationId config s.store.data t.store.data) s := by
  rw [enforcePlanRestrictions, Program.wp_bind]
  refine Crud.wp_getAll (fun e t hnot hstore => ⟨hnot, by rw [hstore]; exact .refl _⟩) fun t hcalm hstore => ?_
  rw [← hstore, Program.wp_bind]
  refine wp_trimNetworks.mono (fun networkIds u ⟨hcalm', hkept, hdeleted⟩ =>
    ?_) fun _ u ⟨hnot, ids, hids, hdeleted⟩ =>
    ⟨fun h => hnot (hcalm h), .of_networksDeleted hids hdeleted⟩
  have htrims : Trims organizationId config t.store.data u.store.data := .of_networksDeleted (fun _ h => h) hdeleted
  have hexcess : u.store.data.excess organizationId config = [] := by
    rw [(kept_of_deleted (fun _ h => h) hdeleted.networks).2]
    exact List.filter_eq_nil_iff.mpr fun id hid => by simpa using hid
  have hkept' : u.store.data.kept organizationId config = networkIds := htrims.kept.trans hkept.symm
  refine (wp_restrict hexcess hkept').mono (fun _ v ⟨htrims', hsettled, hcount⟩ => ?_) fun _ v ⟨hnot, htrims'⟩ =>
    ⟨fun h => hnot (hcalm' (hcalm h)), htrims.trans htrims'⟩
  refine ⟨htrims.trans htrims', hsettled, fun limit hlimit => ?_⟩
  have hfinal : v.store.data.networkIdsOf organizationId = networkIds := by
    rw [← kept_of_excess hsettled.excess, htrims'.kept, hkept']
  rw [hfinal, hcount limit hlimit]
  have hhostsOn : u.store.data.hostsOn networkIds = t.store.data.hostsOn networkIds := by
    rw [hostsOn, hdeleted.hosts, Table.select_filter, ← hostsOn]
    refine List.filter_eq_self.mpr fun host hhost => ?_
    have hon := (Table.mem_select.mp hhost).2
    rw [hkept, List.contains_iff_mem] at hon
    simpa using not_mem_excess hon
  have hdaemon : u.store.data.onDaemonHost networkIds = t.store.data.onDaemonHost networkIds := by
    refine onDaemonHost_congr ?_
    rw [hkept]
    exact htrims.daemons
  simp only [Fits, hkept', ← hkept, daemonHosts, otherHosts, hhostsOn, hdaemon]

/-! ## Running again -/

theorem forM_eq_pure {α : Type} {xs : List α} {f : α → Writes BillingTables Unit} (h : ∀ x ∈ xs, f x = pure ()) :
    xs.forM f = pure () := by
  induction xs with
  | nil => rfl
  | cons x xs ih =>
    rw [List.forM, h x List.mem_cons_self, ih fun y hy => h y (List.mem_cons_of_mem _ hy)]
    rfl

theorem wp_getAll_unchanged {T α : Type} {c : Crud BillingTables T} {select : BillingTables → List T}
    {l : Ledger BillingTables} {f : List T → Writes BillingTables α} (hstore : s.store = l)
    (h : ∀ t : Planned AnyError (Ledger BillingTables), t.store = l →
      wp (f (select l.data)) (fun _ t => l.Unchanged t.store) (fun _ t => l.Unchanged t.store) t) :
    wp (c.getAll select >>= f) (fun _ t => l.Unchanged t.store) (fun _ t => l.Unchanged t.store) s := by
  subst hstore
  rw [Program.wp_bind]
  refine Crud.wp_getAll (fun _ t _ hstore => ?_) fun t _ hstore => h t hstore
  rw [hstore]
  exact ⟨rfl, rfl, rfl⟩

theorem trimNetworks_of_settled {d : BillingTables} (h : d.excess organizationId config = []) :
    trimNetworks config (d.networksOf organizationId) = pure (d.kept organizationId config) := by
  unfold excess at h
  unfold trimNetworks kept
  cases hcap : config.networkCap with
  | none => rfl
  | some limit =>
    rw [hcap, Option.elim_some, List.map_eq_nil_iff] at h
    simp only [h]
    rfl

theorem setStandby_of_settled {daemons : List Daemon} (h : ∀ x ∈ daemons, plan.Allows x) :
    setStandby plan daemons = pure () := by
  unfold BillingPlan.Allows at h
  unfold setStandby
  cases hpoll : plan.features.daemonPoll with
  | true =>
    refine forM_eq_pure fun x hx => ?_
    have hawake := h x hx
    rw [hpoll, if_pos rfl] at hawake
    rw [hawake, if_neg Bool.false_ne_true]
  | false =>
    refine forM_eq_pure fun x hx => ?_
    have hstandby := h x hx
    rw [hpoll, if_neg Bool.false_ne_true] at hstandby
    by_cases hmode : x.mode = .daemonPoll
    · simp [hmode, hstandby hmode]
    · simp [hmode]

theorem convert_of_settled {discovery : Discovery} (h : discovery.isScheduled = false) :
    convert discovery = pure () := by
  unfold Discovery.isScheduled at h
  unfold convert
  cases hrunType : discovery.base.runType with
  | scheduled =>
    rw [hrunType] at h
    cases h
  | historical => rfl
  | adHoc => rfl

/-- Where nothing is left to do, a run does nothing. -/
theorem settles {l : Ledger BillingTables} (h : Settled organizationId plan config l.data) :
    Settles organizationId plan config l := by
  intro faults
  rw [enforcePlanRestrictions]
  refine wp_getAll_unchanged rfl fun t ht => ?_
  rw [trimNetworks_of_settled h.excess, pure_bind]
  refine wp_getAll_unchanged ht fun u hu => ?_
  rw [setStandby_of_settled h.daemons, pure_bind, Program.wp_bind]
  have hunschedule : wp (unschedule plan (l.data.kept organizationId config)) (fun _ v => v.store = l)
      (fun _ v => l.Unchanged v.store) u := by
    unfold unschedule
    cases hplan : plan.scheduledDiscovery with
    | true => exact hu
    | false =>
      simp only [Bool.not_false, if_true, Program.wp_bind]
      refine Crud.wp_getAll (fun _ v _ hv => ?_) fun v _ hv => ?_
      · rw [hv, hu]
        exact ⟨rfl, rfl, rfl⟩
      · rw [hu, forM_eq_pure fun x hx => convert_of_settled (h.discoveries hplan x hx)]
        exact hv.trans hu
  refine hunschedule.mono (fun _ v hv => ?_) fun _ _ hv => hv
  have hhosts := h.hosts
  unfold excessHosts at hhosts
  unfold trimHosts
  cases hcap : config.hostCap with
  | none =>
    change l.Unchanged v.store
    rw [hv]
    exact ⟨rfl, rfl, rfl⟩
  | some limit =>
    rw [hcap, Option.elim_some] at hhosts
    refine wp_getAll_unchanged hv fun w hw => ?_
    split
    · next hmany =>
      rw [if_pos hmany] at hhosts
      change wp ((toDelete limit
        (l.data.daemonHostIds (l.data.kept organizationId config)) 0 _).forM hostService.deleteById) _ _ w
      rw [hhosts]
      change l.Unchanged w.store
      rw [hw]
      exact ⟨rfl, rfl, rfl⟩
    · change l.Unchanged w.store
      rw [hw]
      exact ⟨rfl, rfl, rfl⟩

/-! ## All runs -/

theorem Attempted.trims {l l' : Ledger BillingTables} (h : Attempted organizationId plan config l l') :
    Trims organizationId config l.data l'.data := by
  induction h with
  | start => exact .refl _
  | @failed l' faults e t _ hrun ih =>
    have hfailed := wp_enforce organizationId plan config { store := l', faults }
    exact ih.trans ((Program.wp_of_error hrun).mp hfailed).2

theorem endsWithin {d d' : BillingTables} (h : Trims organizationId config d d')
    (hsettled : Settled organizationId plan config d')
    (hhosts : ∀ limit ∈ config.hostCap, (d'.hostsOn (d'.networkIdsOf organizationId)).length ≤
      max limit (d'.daemonHosts (d'.networkIdsOf organizationId))) : EndsWithin organizationId plan config d d' := by
  have hnetworks := kept_of_excess hsettled.excess
  refine ⟨excess_eq_nil_iff.mp hsettled.excess, hhosts, ?_, ?_, ?_, ?_⟩
  · rw [← hnetworks, h.kept]
    exact h.daemonHosts
  · intro hwithin hfew
    have hexcess := excess_eq_nil_iff.mpr hwithin
    obtain ⟨h1, h2, h3⟩ := h.undeleted hexcess
    rw [← kept_of_excess hexcess] at hfew
    exact ⟨h1, h.within hexcess hfew, h2, h3⟩
  · intro hpoll x hx
    have hallowed := hsettled.daemons x (hnetworks ▸ hx)
    rw [BillingPlan.Allows, hpoll, if_neg Bool.false_ne_true] at hallowed
    exact hallowed
  · rw [← hnetworks]
    exact hsettled.discoveries

/-- What the first attempt leaves if it returns. -/
theorem Enforced.hosts {l : Ledger BillingTables} {limit : Nat} (h : Enforced organizationId plan config l)
    (hlimit : config.hostCap = some limit) :
    wp (enforcePlanRestrictions organizationId plan config)
      (fun _ t => (t.store.data.hostsOn (t.store.data.networkIdsOf organizationId)).length ≤
        max limit (t.store.data.daemonHosts (t.store.data.networkIdsOf organizationId))) (fun _ _ => True)
            { store := l } :=
  (h l .start []).mono (fun _ _ ht => ht.1.hosts limit hlimit) fun _ _ _ => trivial

/-- **The enforcement of a plan ends within the plan, and for good, if and only if the hosts of the networks that stay are no
more than the limit, or are all of one kind, with a daemon or without.** -/
theorem enforced_iff_fits {l : Ledger BillingTables} :
    Enforced organizationId plan config l ↔ Fits organizationId config l.data := by
  constructor
  · intro h limit hlimit
    have hwhat := wp_enforce organizationId plan config { store := l }
    have hfits : wp (enforcePlanRestrictions organizationId plan config)
      (fun _ _ => Fits organizationId config l.data)
        (fun _ _ => Fits organizationId config l.data) { store := l } := by
      refine ((h.hosts hlimit).and hwhat).mono (fun _ t ⟨hfew, _, _, hcount⟩ => ?_) fun _ t ⟨_, hnot, _⟩ =>
        absurd rfl hnot
      exact (hcount limit hlimit).mp hfew
    exact (Program.wp_after (P := fun _ => Fits organizationId config l.data)).mp hfits limit hlimit
  · intro hfits l' hattempted faults
    refine (wp_enforce organizationId plan config _).mono (fun _ t ⟨htrims, hsettled, hcount⟩ => ?_) fun _ _ _ =>
      trivial
    refine ⟨endsWithin (hattempted.trims.trans htrims) hsettled fun limit hlimit => ?_, settles hsettled⟩
    exact (hcount limit hlimit).mpr (hattempted.trims.fits hfits)

end BillingService

/-- The free plan, and one network with a daemon host and 25 more. -/
def crowded : BillingTables where
  networks := { rows := [{ id := 1, organizationId := 1 }] }
  hosts :=
    { rows := (List.range 26).map fun i => { id := BitVec.ofNat 128 (i + 1), base := { networkId := 1 } }
      nodup := by decide +kernel }
  daemons := { rows := [{ id := 1, hostId := 1, networkId := 1, mode := .serverPoll }] }

open BillingService BillingTables in
theorem daemon_host_is_not_counted :
    ¬ Enforced 1 .free { includedNetworks := some 1, includedHosts := some 25 } { data := crowded } := by
  intro h
  have hmany := h.hosts rfl
  revert hmany
  decide +kernel

end Netvisor
