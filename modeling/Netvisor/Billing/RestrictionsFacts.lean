/-
What each step of the enforcement of a plan does to the tables, also when it
stops before its end.
-/
import Netvisor.Billing.Restrictions

namespace Netvisor

open Failing (Planned)
open Program (wp)
open Ledger
open Crud (Calm Stepwise AllReady)

/-! ## Loops over rows -/

namespace Rows

variable {δ T : Type} {key : T → Uuid} (rows : Rows δ key) {p : T → Bool} {g : T → T}

/-- Update the row if it is to be changed. -/
def change (p : T → Bool) (g : T → T) (d : δ) (x : T) : δ := if p x then rows.update (g x) d else d

theorem foldl_change [DecidableEq T] (hg : ∀ x, key (g x) = key x) {xs : List T} {d : δ}
    (hmem : ∀ x ∈ xs, x ∈ (rows.table d).rows) (hnodup : (xs.map key).Nodup) :
    xs.foldl (rows.change p g) d = rows.put ((rows.table d).modify (fun x => if x ∈ xs ∧ p x = true then g x else x)
      (fun x => by split <;> [exact hg x; rfl])) d := by
  have hfilter : xs.foldl (rows.change p g) d = (xs.filter p).foldl (fun d x => rows.update (g x) d) d :=
    (List.foldl_filter ..).symm
  rw [hfilter, foldl_update hg _ (fun x hx => hmem x (List.mem_of_mem_filter hx))
    (hnodup.sublist (List.filter_sublist.map _))]
  simp only [List.mem_filter]

theorem allReady_change {ready : δ → T → Prop}
    (hready : ∀ d x, ready d x ↔ ((rows.table d).get (key x)).isSome = true)
    {xs : List T} {d : δ} (h : ∀ x ∈ xs, ((rows.table d).get (key x)).isSome = true) :
    AllReady (rows.change p g) ready d xs := by
  induction xs generalizing d with
  | nil => trivial
  | cons x xs ih =>
    refine ⟨(hready d x).mpr (h x List.mem_cons_self), ih fun y hy => ?_⟩
    have hy := h y (List.mem_cons_of_mem _ hy)
    unfold change
    split
    · rw [table_update, Table.get_update]
      split
      · rw [Option.isSome_map]
        exact hy
      · exact hy
    · exact hy

/-- Saving the rows that are to be changed. -/
theorem stepwise_save {c : Crud δ T} (tags : T → Option (List Uuid)) (hid : c.id = key)
    (hupdate : ∀ entity, c.update entity = modify (rows.update entity)) (hg : ∀ x, key (g x) = key x) :
    Stepwise (fun x => if p x = true then do let _ ← c.save (g x) (tags x) none else return ()) (rows.change p g)
      fun d x => (c.find d (key x)).isSome = true := by
  intro x s
  unfold change
  by_cases hcond : p x = true
  · simp only [hcond, if_true, Program.wp_bind]
    have hok : c.update (g x) s.store.data = .ok () (rows.update (g x) s.store.data) := by rw [hupdate]; rfl
    refine Crud.wp_save hok (fun e t hnot hstore =>
      ⟨fun h => hnot ⟨h.1, ?_⟩, .inl (by rw [hstore])⟩) fun t hcalm hdata => ?_
    · rw [hid, hg]
      exact h.2
    · rw [Program.wp_pure]
      exact ⟨hcalm, hdata⟩
  · simp only [hcond, if_false, Bool.false_eq_true]
    exact ⟨fun h => h, rfl⟩

end Rows

namespace BillingTables

variable {d d' : BillingTables} {organizationId : Uuid} {config : PlanConfig} {ids : List Uuid}

/-! ## Networks -/

section Networks

variable (d organizationId config)

/-- The networks that stay. -/
def kept : List Uuid :=
  (config.networkCap.elim (d.networksOf organizationId) fun limit =>
    (d.networksOf organizationId).take limit).map (·.id)

/-- The networks that go. -/
def excess : List Uuid :=
  (config.networkCap.elim [] fun limit => (d.networksOf organizationId).drop limit).map (·.id)

end Networks

theorem kept_append_excess (config : PlanConfig) : d.kept organizationId config ++ d.excess organizationId config =
    (d.networksOf organizationId).map (·.id) := by
  unfold kept excess
  cases config.networkCap with
  | none => simp
  | some limit => rw [← List.map_append, Option.elim_some, Option.elim_some, List.take_append_drop]

theorem nodup_networksOf (d : BillingTables) (organizationId : Uuid) :
    ((d.networksOf organizationId).map (·.id)).Nodup :=
  Table.nodup_select

theorem not_mem_excess {id : Uuid} (h : id ∈ d.kept organizationId config) : id ∉ d.excess organizationId config := by
  have hnodup := nodup_networksOf d organizationId
  rw [← kept_append_excess config, List.nodup_append] at hnodup
  exact fun hexcess => hnodup.2.2 id h id hexcess rfl

theorem stored_of_excess {id : Uuid} (h : id ∈ d.excess organizationId config) :
    (d.networks.get id).isSome = true := by
  have hmem : id ∈ (d.networksOf organizationId).map (·.id) := by
    rw [← kept_append_excess config]
    exact List.mem_append_right _ h
  obtain ⟨network, hnetwork, rfl⟩ := List.mem_map.mp hmem
  exact Table.get_isSome.mpr ⟨network, (Table.mem_select.mp hnetwork).1, rfl⟩

/-- What deleting networks one after another leaves. -/
structure NetworksDeleted (d d' : BillingTables) (ids : List Uuid) : Prop where
  networks : d'.networks = d.networks.filter fun n => !ids.contains n.id
  hosts : d'.hosts = d.hosts.filter fun h => !ids.contains h.base.networkId
  daemons : d'.daemons = d.daemons.filter fun x => !ids.contains x.networkId
  unless_some : ids = [] → d' = d

theorem filter_cons_filter {T : Type} {key : T → Uuid} {t : Table T key} (f : T → Uuid) {id : Uuid} :
    ((t.filter fun x => !List.contains [id] (f x)).filter fun x => !ids.contains (f x)) =
      t.filter fun x => !(id :: ids).contains (f x) := by
  refine Table.eq_of_rows ?_
  simp only [Table.filter, List.filter_filter]
  refine List.filter_congr fun x _ => ?_
  simp only [List.contains_cons, List.contains_nil, Bool.or_false, Bool.not_or, Bool.and_comm]

theorem foldl_deleteNetworks (ids : List Uuid) :
    NetworksDeleted d (ids.foldl (fun d id => d.deleteNetworks [id]) d) ids := by
  induction ids generalizing d with
  | nil =>
    have hall {T : Type} {key : T → Uuid} (t : Table T key) (f : T → Uuid) : t = t.filter fun x =>
        !List.contains [] (f x) := by
      refine Table.eq_of_rows (List.filter_eq_self.mpr fun x _ => ?_).symm
      rfl
    exact ⟨hall _ _, hall _ _, hall _ _, fun _ => rfl⟩
  | cons id ids ih =>
    obtain ⟨hnetworks, hhosts, hdaemons, -⟩ := ih (d := d.deleteNetworks [id])
    refine ⟨?_, ?_, ?_, fun h => by cases h⟩
    · rw [List.foldl_cons, hnetworks]
      exact filter_cons_filter _
    · rw [List.foldl_cons, hhosts]
      exact filter_cons_filter _
    · rw [List.foldl_cons, hdaemons]
      exact filter_cons_filter _

theorem allReady_deleteNetworks (hnodup : ids.Nodup) (hstored : ∀ id ∈ ids, (d.networks.get id).isSome = true) :
    AllReady (fun d id => networkService.delete [id] d)
        (fun d id => (networkService.find d id).isSome = true) d ids := by
  induction ids generalizing d with
  | nil => trivial
  | cons id ids ih =>
    rw [List.nodup_cons] at hnodup
    refine ⟨hstored id List.mem_cons_self, ih hnodup.2 fun i hi => ?_⟩
    obtain ⟨network, hmem, rfl⟩ := Table.get_isSome.mp (hstored i (List.mem_cons_of_mem _ hi))
    refine Table.get_isSome.mpr ⟨network, Table.mem_filter.mpr ⟨hmem, ?_⟩, rfl⟩
    have hne : network.id ≠ id := fun heq => hnodup.1 (heq ▸ hi)
    simp [hne]

theorem networksOf_of_deleted (h : d'.networks = d.networks.filter fun n => !ids.contains n.id) :
    d'.networksOf organizationId = (d.networksOf organizationId).filter fun n => !ids.contains n.id := by
  rw [networksOf, h, Table.select_filter, networksOf]

/-- Deleting some of the networks that go leaves those that stay, and the rest of those that go. -/
theorem kept_of_deleted (hids : ∀ id ∈ ids, id ∈ d.excess organizationId config)
    (h : d'.networks = d.networks.filter fun n => !ids.contains n.id) :
    d'.kept organizationId config = d.kept organizationId config ∧
      d'.excess organizationId config = (d.excess organizationId config).filter fun id => !ids.contains id := by
  have hkeep (network : Network) (hmem : network.id ∈ d.kept organizationId config) :
      (!ids.contains network.id) = true := by
    have hnot : network.id ∉ ids := fun hid => not_mem_excess hmem (hids _ hid)
    simpa using hnot
  unfold kept excess at *
  rw [networksOf_of_deleted h]
  cases hcap : config.networkCap with
  | none =>
    simp only [hcap, Option.elim_none] at hids hkeep ⊢
    rw [List.filter_eq_self.mpr fun n hn => hkeep n (List.mem_map_of_mem hn)]
    exact ⟨rfl, rfl⟩
  | some limit =>
    simp only [hcap, Option.elim_some] at hids hkeep ⊢
    have hsplit : (d.networksOf organizationId).filter (fun n => !ids.contains n.id) =
        (d.networksOf organizationId).take limit ++
          ((d.networksOf organizationId).drop limit).filter fun n => !ids.contains n.id := by
      conv_lhs => rw [← List.take_append_drop limit (d.networksOf organizationId), List.filter_append]
      rw [List.filter_eq_self.mpr fun n hn => hkeep n (List.mem_map_of_mem hn)]
    rw [hsplit, List.filter_map, Function.comp_def]
    by_cases hlength : limit ≤ (d.networksOf organizationId).length
    · have htake : ((d.networksOf organizationId).take limit).length = limit := List.length_take_of_le hlength
      rw [List.take_left' htake, List.drop_left' htake]
      exact ⟨rfl, rfl⟩
    · have hdrop : (d.networksOf organizationId).drop limit = [] := List.drop_eq_nil_of_le (by omega)
      rw [hdrop, List.filter_nil, List.append_nil, List.take_take, Nat.min_self,
        List.drop_eq_nil_of_le (by rw [List.length_take]; omega)]
      exact ⟨rfl, rfl⟩

/-! ## Hosts -/

section Hosts

variable (d) (networkIds : List Uuid)

/-- The hosts that the daemons of the networks are on. -/
def daemonHostIds : List Uuid := (d.daemonsOn networkIds).map (·.hostId)

def onDaemonHost (host : Host) : Bool := (d.daemonHostIds networkIds).contains host.id

/-- How many hosts of the networks have a daemon. -/
def daemonHosts : Nat := (d.hostsOn networkIds).countP (d.onDaemonHost networkIds)

/-- How many have none. -/
def otherHosts : Nat := (d.hostsOn networkIds).countP fun host => !d.onDaemonHost networkIds host

end Hosts

theorem length_hostsOn {networkIds : List Uuid} :
    (d.hostsOn networkIds).length = d.daemonHosts networkIds + d.otherHosts networkIds := by
  rw [List.length_eq_countP_add_countP (d.onDaemonHost networkIds), daemonHosts, otherHosts]
  simp

theorem byUpdate_perm (hosts : List Host) : (BillingService.byUpdate hosts).Perm hosts := List.perm_insertionSort _ _

theorem nodup_byUpdate {networkIds : List Uuid} :
    ((BillingService.byUpdate (d.hostsOn networkIds)).map (·.id)).Nodup :=
  ((byUpdate_perm _).map _).nodup_iff.mpr Table.nodup_select

end BillingTables

namespace BillingService

variable {included kept : Nat} {daemonHostIds : List Uuid} {hosts : List Host}

/-- All other hosts but the first ones are deleted. -/
theorem toDelete_eq : toDelete included daemonHostIds kept hosts =
    ((hosts.filter fun host => !daemonHostIds.contains host.id).drop (included - kept)).map (·.id) := by
  induction hosts generalizing kept with
  | nil => simp [toDelete]
  | cons host hosts ih =>
    simp only [toDelete, ih]
    by_cases hdaemon : daemonHostIds.contains host.id = true
    · simp only [hdaemon, Bool.or_true, if_true, Bool.not_true, Bool.false_eq_true, if_false, List.filter_cons]
    · have hother : daemonHostIds.contains host.id = false := by simpa using hdaemon
      simp only [hother, Bool.or_false, Bool.not_false, if_true, decide_eq_true_eq, List.filter_cons]
      by_cases hkept : kept < included
      · obtain ⟨n, hn⟩ : ∃ n, included - kept = n + 1 := ⟨included - kept - 1, by omega⟩
        have hn' : included - (kept + 1) = n := by omega
        rw [if_pos hkept, hn, hn', List.drop_succ_cons]
      · have hzero : included - kept = 0 := by omega
        rw [if_neg hkept, hzero, List.drop_zero, List.drop_zero, List.map_cons]

/-- It does not matter in which order the hosts of the daemons are listed. -/
theorem trimHosts_congr {config : PlanConfig} {networkIds daemonHostIds' : List Uuid}
    (h : ∀ id, daemonHostIds.contains id = daemonHostIds'.contains id) :
    trimHosts config networkIds daemonHostIds = trimHosts config networkIds daemonHostIds' := by
  unfold trimHosts
  simp only [toDelete_eq, h]

theorem toDelete_sublist : (toDelete included daemonHostIds kept hosts).Sublist (hosts.map (·.id)) := by
  rw [toDelete_eq]
  exact ((List.drop_sublist _ _).trans List.filter_sublist).map _

theorem not_mem_of_toDelete {id : Uuid} (h : id ∈ toDelete included daemonHostIds kept hosts) :
    id ∉ daemonHostIds := by
  rw [toDelete_eq] at h
  obtain ⟨host, hhost, rfl⟩ := List.mem_map.mp h
  have hother := (List.mem_filter.mp (List.mem_of_mem_drop hhost)).2
  simpa using hother

end BillingService

/-! ## Daemons and discoveries -/

/-- A daemon, on standby or not. -/
def Daemon.awake (daemon : Daemon) : Daemon := { daemon with standby := false }

def Discovery.isScheduled (discovery : Discovery) : Bool :=
  match discovery.base.runType with
  | .scheduled .. => true
  | _ => false

namespace Discovery

variable {discovery : Discovery}

theorem unscheduled_networkId (discovery : Discovery) :
    discovery.unscheduled.base.networkId = discovery.base.networkId := by
  unfold unscheduled
  split <;> rfl

theorem unscheduled_isScheduled (discovery : Discovery) : discovery.unscheduled.isScheduled = false := by
  unfold unscheduled isScheduled
  cases hrunType : discovery.base.runType with
  | scheduled => rfl
  | historical => simp only [hrunType]
  | adHoc => simp only [hrunType]

end Discovery

/-- A daemon as a plan wants it: on standby if the plan does not let it poll, and on no standby if it does. -/
def BillingPlan.Allows (plan : BillingPlan) (daemon : Daemon) : Prop :=
  if plan.features.daemonPoll then daemon.standby = false else daemon.mode = .daemonPoll → daemon.standby = true

namespace BillingTables

/-- Daemons were put on standby or taken off it. -/
structure StandbySet (d d' : BillingTables) : Prop where
  networks : d'.networks = d.networks
  hosts : d'.hosts = d.hosts
  discoveries : d'.discoveries = d.discoveries
  daemons : d'.daemons.rows.map Daemon.awake = d.daemons.rows.map Daemon.awake

/-- Discoveries were changed. -/
structure Unscheduled (d d' : BillingTables) : Prop where
  networks : d'.networks = d.networks
  hosts : d'.hosts = d.hosts
  daemons : d'.daemons = d.daemons
  ids : d'.discoveries.rows.map (·.id) = d.discoveries.rows.map (·.id)

variable {d d' : BillingTables}

theorem standbySet_modify {f : Daemon → Daemon} (hf : ∀ x, (f x).id = x.id) (hawake : ∀ x, (f x).awake = x.awake) :
    StandbySet d (daemonRows.put (d.daemons.modify f hf) d) := by
  refine ⟨rfl, rfl, rfl, ?_⟩
  change (d.daemons.rows.map f).map Daemon.awake = _
  rw [List.map_map]
  exact List.map_congr_left fun x _ => hawake x

theorem unscheduled_modify {f : Discovery → Discovery} (hf : ∀ x, (f x).id = x.id) :
    Unscheduled d (discoveryRows.put (d.discoveries.modify f hf) d) := by
  refine ⟨rfl, rfl, rfl, ?_⟩
  change (d.discoveries.rows.map f).map (·.id) = _
  rw [List.map_map]
  exact List.map_congr_left fun x _ => hf x

theorem stored_daemonsOn {networkIds : List Uuid} :
    ∀ x ∈ d.daemonsOn networkIds, (d.daemons.get x.id).isSome = true := fun x hx =>
  Table.get_isSome.mpr ⟨x, (Table.mem_select.mp hx).1, rfl⟩

theorem stored_discoveriesOn {networkIds : List Uuid} :
    ∀ x ∈ d.discoveriesOn networkIds, (d.discoveries.get x.id).isSome = true := fun x hx =>
  Table.get_isSome.mpr ⟨x, (Table.mem_select.mp hx).1, rfl⟩

end BillingTables

namespace BillingService

open BillingTables

variable {s : Planned AnyError (Ledger BillingTables)} {config : PlanConfig} {plan : BillingPlan}
  {networkIds : List Uuid}

/-! ## Steps -/

theorem wp_trimNetworks {organizationId : Uuid} : wp (trimNetworks config (s.store.data.networksOf organizationId))
    (fun ids t => (Calm s → Calm t) ∧ ids = s.store.data.kept organizationId config ∧
      NetworksDeleted s.store.data t.store.data (s.store.data.excess organizationId config))
    (fun _ t => ¬ Calm s ∧ ∃ ids, (∀ id ∈ ids, id ∈ s.store.data.excess organizationId config) ∧
      NetworksDeleted s.store.data t.store.data ids) s := by
  have hexcess : ∀ id ∈ s.store.data.excess organizationId config, (s.store.data.networks.get id).isSome = true :=
    fun _ => stored_of_excess
  have hnodup := nodup_networksOf s.store.data organizationId
  rw [← kept_append_excess config] at hnodup
  have hnodup := (List.nodup_append.mp hnodup).2.1
  unfold trimNetworks kept
  unfold excess at *
  cases hcap : config.networkCap with
  | none =>
    simp only [Option.elim_none, List.map_nil]
    exact ⟨fun h => h, rfl, foldl_deleteNetworks []⟩
  | some limit =>
    simp only [hcap, Option.elim_some] at hexcess hnodup ⊢
    have hloop (networks : List Network) : networks.forM (fun network => networkService.deleteById network.id) =
        (networks.map (·.id)).forM networkService.deleteById := by
      induction networks with
      | nil => rfl
      | cons network networks ih => rw [List.forM, ih, List.map_cons, List.forM]
    rw [hloop, Program.wp_bind]
    refine (Crud.stepwise_deleteById.forM _ s).mono (fun _ t hran => ?_) fun _ t hfailed => ?_
    · obtain ⟨hcalm, hdata⟩ := hran
      refine ⟨hcalm, rfl, ?_⟩
      rw [hdata]
      exact foldl_deleteNetworks _
    · obtain ⟨hnot, done, hdone, hdata⟩ := hfailed
      refine ⟨fun hcalm => hnot ⟨hcalm, allReady_deleteNetworks hnodup hexcess⟩, done,
        fun id hid => hdone.subset hid, ?_⟩
      rw [hdata]
      exact foldl_deleteNetworks _

/-- Changing daemons, one after another. -/
theorem wp_changeDaemons {p : Daemon → Bool} {g : Daemon → Daemon} (hid : ∀ x, (g x).id = x.id)
    (hawake : ∀ x, (g x).awake = x.awake) :
    wp ((s.store.data.daemonsOn networkIds).forM fun daemon => do
        if p daemon = true then
          let _ ← daemonService.save (g daemon) none none)
      (fun _ t => (Calm s → Calm t) ∧ StandbySet s.store.data t.store.data ∧
        ∀ x ∈ t.store.data.daemonsOn networkIds, ∃ y ∈ s.store.data.daemonsOn networkIds,
          x = if p y = true then g y else y)
      (fun _ t => ¬ Calm s ∧ StandbySet s.store.data t.store.data) s := by
  have hmem : ∀ x ∈ s.store.data.daemonsOn networkIds, x ∈ s.store.data.daemons.rows :=
    fun x hx => (Table.mem_select.mp hx).1
  have hnodup : ((s.store.data.daemonsOn networkIds).map Daemon.id).Nodup := Table.nodup_select
  have hstep : Stepwise (fun x => do if p x = true then let _ ← daemonService.save (g x) none none)
      (daemonRows.change p g) fun d x => (daemonService.find d x.id).isSome = true :=
    daemonRows.stepwise_save (fun _ => none) rfl (fun _ => rfl) hid
  have hchanged (xs : List Daemon) (x : Daemon) : (if x ∈ xs ∧ p x = true then g x else x).awake = x.awake := by
    split
    · exact hawake x
    · rfl
  refine (hstep.forM _ s).mono (fun _ t ⟨hcalm, hdata⟩ => ⟨hcalm, ?_⟩) fun _ t ⟨hnot, done, hdone, hdata⟩ =>
    ⟨fun hcalm => ?_, ?_⟩
  · rw [hdata, daemonRows.foldl_change hid hmem hnodup]
    refine ⟨standbySet_modify _ (hchanged _), fun x hx => ?_⟩
    obtain ⟨hx, hon⟩ := Table.mem_select.mp hx
    obtain ⟨y, hy, rfl⟩ := List.mem_map.mp hx
    have hnetwork := congrArg Daemon.networkId (hchanged (s.store.data.daemonsOn networkIds) y)
    have hyon : y ∈ s.store.data.daemonsOn networkIds := by
      refine Table.mem_select.mpr ⟨hy, ?_⟩
      change networkIds.contains y.awake.networkId = true
      rw [← hnetwork]
      exact hon
    refine ⟨y, hyon, ?_⟩
    simp only [hyon, true_and]
  · exact hnot ⟨hcalm, daemonRows.allReady_change (fun _ _ => Iff.rfl) stored_daemonsOn⟩
  · rw [hdata, daemonRows.foldl_change hid (fun x hx => hmem x (hdone.subset hx))
      (hnodup.sublist (hdone.sublist.map _))]
    exact standbySet_modify _ (hchanged _)

theorem wp_setStandby : wp (setStandby plan (s.store.data.daemonsOn networkIds))
    (fun _ t => (Calm s → Calm t) ∧ StandbySet s.store.data t.store.data ∧
      ∀ x ∈ t.store.data.daemonsOn networkIds, plan.Allows x)
    (fun _ t => ¬ Calm s ∧ StandbySet s.store.data t.store.data) s := by
  unfold setStandby
  cases hpoll : plan.features.daemonPoll with
  | true =>
    simp only [Bool.not_true, Bool.false_eq_true, if_false]
    refine (wp_changeDaemons (p := fun x => x.standby) (g := fun x => { x with standby := false }) (fun _ => rfl)
      fun _ => rfl).mono (fun _ t ⟨hcalm, hset, hchanged⟩ => ⟨hcalm, hset, fun x hx => ?_⟩) fun _ _ h => h
    obtain ⟨y, -, rfl⟩ := hchanged x hx
    rw [BillingPlan.Allows, hpoll, if_pos rfl]
    split
    · rfl
    · next hawake => simpa using hawake
  | false =>
    simp only [Bool.not_false, if_true]
    refine (wp_changeDaemons (p := fun x => x.mode == .daemonPoll && !x.standby) (g := fun x =>
      { x with standby := true })
      (fun _ => rfl) fun _ => rfl).mono (fun _ t ⟨hcalm, hset, hchanged⟩ =>
        ⟨hcalm, hset, fun x hx => ?_⟩) fun _ _ h => h
    obtain ⟨y, -, rfl⟩ := hchanged x hx
    rw [BillingPlan.Allows, hpoll, if_neg Bool.false_ne_true]
    split
    · exact fun _ => rfl
    · next hnot =>
      intro hmode
      simpa [hmode] using hnot

theorem stepwise_convert : Stepwise convert (discoveryRows.change Discovery.isScheduled Discovery.unscheduled)
    fun d x => (discoveryService.find d x.id).isSome = true := by
  have hconvert : convert = fun x =>
      if x.isScheduled = true then
          (do let _ ← discoveryService.save x.unscheduled (some x.base.tags) none) else return () := by
    funext x
    unfold convert Discovery.isScheduled Discovery.unscheduled
    cases x.base.runType <;> rfl
  rw [hconvert]
  exact discoveryRows.stepwise_save (fun x => some x.base.tags) rfl (fun _ => rfl)
    Discovery.unscheduled_id

theorem wp_unschedule : wp (unschedule plan networkIds)
    (fun _ t => (Calm s → Calm t) ∧ Unscheduled s.store.data t.store.data ∧
      (plan.scheduledDiscovery = false → ∀ x ∈ t.store.data.discoveriesOn networkIds, x.isScheduled = false))
    (fun _ t => ¬ Calm s ∧ Unscheduled s.store.data t.store.data) s := by
  unfold unschedule
  cases hplan : plan.scheduledDiscovery with
  | true =>
    simp only [Bool.not_true, Bool.false_eq_true, if_false, reduceCtorEq, false_implies, and_true]
    exact ⟨fun h => h, rfl, rfl, rfl, rfl⟩
  | false =>
    simp only [Bool.not_false, if_true, forall_const, Program.wp_bind]
    refine Crud.wp_getAll (fun e t hnot hstore =>
      ⟨hnot, by rw [hstore]; exact ⟨rfl, rfl, rfl, rfl⟩⟩) fun t hcalm hstore => ?_
    have hmem : ∀ x ∈ s.store.data.discoveriesOn networkIds, x ∈ s.store.data.discoveries.rows :=
      fun x hx => (Table.mem_select.mp hx).1
    have hnodup : ((s.store.data.discoveriesOn networkIds).map Discovery.id).Nodup := Table.nodup_select
    refine (stepwise_convert.forM _ t).mono (fun _ u hran => ?_) fun _ u hfailed => ?_
    · obtain ⟨hcalm', hdata⟩ := hran
      rw [hdata, hstore, discoveryRows.foldl_change Discovery.unscheduled_id hmem hnodup]
      refine ⟨fun h => hcalm' (hcalm h), unscheduled_modify _, fun x hx => ?_⟩
      obtain ⟨hx, hon⟩ := Table.mem_select.mp hx
      obtain ⟨y, hy, rfl⟩ := List.mem_map.mp hx
      have hnetwork : (if y ∈ s.store.data.discoveriesOn networkIds ∧ y.isScheduled = true then y.unscheduled
          else y).base.networkId = y.base.networkId := by
        split
        · exact y.unscheduled_networkId
        · rfl
      rw [hnetwork] at hon
      have hyon : y ∈ s.store.data.discoveriesOn networkIds := Table.mem_select.mpr ⟨hy, hon⟩
      simp only [hyon, true_and]
      split
      · exact y.unscheduled_isScheduled
      · next hnot => simpa using hnot
    · obtain ⟨hnot, done, hdone, hdata⟩ := hfailed
      refine ⟨fun h => hnot ⟨hcalm h, discoveryRows.allReady_change (fun _ _ => Iff.rfl) ?_⟩, ?_⟩
      · rw [hstore]
        exact stored_discoveriesOn
      · rw [hdata, hstore, discoveryRows.foldl_change Discovery.unscheduled_id
          (fun x hx => hmem x (hdone.subset hx)) (hnodup.sublist (hdone.sublist.map _))]
        exact unscheduled_modify _

/-- The hosts that are deleted. -/
def excessHosts (config : PlanConfig) (d : BillingTables) (networkIds : List Uuid) : List Uuid :=
  config.hostCap.elim [] fun included =>
    if (d.hostsOn networkIds).length > included then
      toDelete included (d.daemonHostIds networkIds) 0 (byUpdate (d.hostsOn networkIds))
    else []

theorem foldl_deleteHosts {d : BillingTables} (ids : List Uuid) :
    ids.foldl (fun d id => d.deleteHosts [id]) d = d.deleteHosts ids := by
  induction ids generalizing d with
  | nil =>
    have hall : d.hosts = d.hosts.filter fun h => !List.contains [] h.id :=
      Table.eq_of_rows (List.filter_eq_self.mpr fun _ _ => rfl).symm
    rw [List.foldl_nil, deleteHosts, ← hall]
  | cons id ids ih =>
    rw [List.foldl_cons, ih, deleteHosts, deleteHosts, deleteHosts]
    simp only [filter_cons_filter]

theorem allReady_deleteHosts {d : BillingTables} {ids : List Uuid} (hnodup : ids.Nodup)
    (hstored : ∀ id ∈ ids, (d.hosts.get id).isSome = true) :
    AllReady (fun d id => hostService.delete [id] d) (fun d id => (hostService.find d id).isSome = true) d ids := by
  induction ids generalizing d with
  | nil => trivial
  | cons id ids ih =>
    rw [List.nodup_cons] at hnodup
    refine ⟨hstored id List.mem_cons_self, ih hnodup.2 fun i hi => ?_⟩
    obtain ⟨host, hmem, rfl⟩ := Table.get_isSome.mp (hstored i (List.mem_cons_of_mem _ hi))
    refine Table.get_isSome.mpr ⟨host, Table.mem_filter.mpr ⟨hmem, ?_⟩, rfl⟩
    have hne : host.id ≠ id := fun heq => hnodup.1 (heq ▸ hi)
    simp [hne]

theorem excessHosts_sublist {d : BillingTables} :
    (excessHosts config d networkIds).Sublist ((byUpdate (d.hostsOn networkIds)).map (·.id)) := by
  unfold excessHosts
  cases config.hostCap with
  | none => exact List.nil_sublist _
  | some included =>
    rw [Option.elim_some]
    split
    · exact toDelete_sublist
    · exact List.nil_sublist _

theorem not_mem_of_excessHosts {d : BillingTables} {id : Uuid} (h : id ∈ excessHosts config d networkIds) :
    id ∉ d.daemonHostIds networkIds := by
  unfold excessHosts at h
  cases hcap : config.hostCap with
  | none =>
    rw [hcap] at h
    exact absurd h List.not_mem_nil
  | some included =>
    rw [hcap, Option.elim_some] at h
    split at h
    · exact not_mem_of_toDelete h
    · exact absurd h List.not_mem_nil

theorem excessHosts_eq_nil {d : BillingTables} (h : ∀ limit ∈ config.hostCap, (d.hostsOn networkIds).length ≤ limit) :
    excessHosts config d networkIds = [] := by
  unfold excessHosts
  cases hcap : config.hostCap with
  | none => rfl
  | some included => exact if_neg (Nat.not_lt.mpr (h included hcap))

theorem wp_trimHosts : wp (trimHosts config networkIds (s.store.data.daemonHostIds networkIds))
    (fun _ t => (Calm s → Calm t) ∧
      t.store.data = s.store.data.deleteHosts (excessHosts config s.store.data networkIds))
    (fun _ t => ¬ Calm s ∧ ∃ ids, ids <+: excessHosts config s.store.data networkIds ∧
      t.store.data = s.store.data.deleteHosts ids) s := by
  have hstored : ∀ id ∈ excessHosts config s.store.data networkIds, (s.store.data.hosts.get id).isSome = true := by
    intro id hid
    obtain ⟨host, hhost, rfl⟩ := List.mem_map.mp (excessHosts_sublist.subset hid)
    exact Table.get_isSome.mpr ⟨host, (Table.mem_select.mp ((byUpdate_perm _).mem_iff.mp hhost)).1, rfl⟩
  have hnodup : (excessHosts config s.store.data networkIds).Nodup := excessHosts_sublist.nodup nodup_byUpdate
  have hnone : s.store.data = s.store.data.deleteHosts [] := foldl_deleteHosts []
  unfold trimHosts
  unfold excessHosts at *
  cases hcap : config.hostCap with
  | none => exact ⟨fun h => h, hnone⟩
  | some included =>
    simp only [hcap, Option.elim_some] at hstored hnodup ⊢
    rw [Program.wp_bind]
    refine Crud.wp_getAll (fun e t hnot hstore => ⟨hnot, [], List.nil_prefix, by rw [hstore]; exact hnone⟩)
      fun t hcalm hstore => ?_
    split
    · next hmany =>
      rw [if_pos hmany] at hstored hnodup
      refine (Crud.stepwise_deleteById.forM _ t).mono (fun _ u ⟨hcalm', hdata⟩ => ⟨fun h => hcalm' (hcalm h), ?_⟩)
        fun _ u ⟨hnot, done, hdone, hdata⟩ => ⟨fun h => hnot ⟨hcalm h, ?_⟩, done, hdone, ?_⟩
      · rw [hdata, hstore]
        exact foldl_deleteHosts _
      · rw [hstore]
        exact allReady_deleteHosts hnodup hstored
      · rw [hdata, hstore]
        exact foldl_deleteHosts _
    · exact ⟨hcalm, by rw [hstore]; exact hnone⟩

end BillingService

end Netvisor
