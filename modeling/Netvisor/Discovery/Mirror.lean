/-
That the jobs of the scheduler are those the stored discoveries want: one for
each that is scheduled, enabled and has a cron expression the scheduler
accepts.

The endpoints that create, update and delete discoveries leave the jobs as they
are, so that a step is right exactly when it changes nothing that is wanted;
and what cannot be scheduled is left enabled.
-/
import Netvisor.Auth.AccountsFacts
import Netvisor.Discovery.Scheduling
import Netvisor.Lib.Transition

namespace Netvisor

open Program (wp after)
open Transition (Visits Along)

namespace DiscoveryServer

variable [CronRules]

section Definitions

variable (s : DiscoveryServer)

/-- The cron expression that is wanted for a discovery. -/
def wanted (id : Uuid) : Option String := (s.discoveries.get id).bind Discovery.wants

omit [CronRules] in
/-- The cron expression the first job of a discovery has. -/
def scheduled (id : Uuid) : Option String := (s.jobs.find? fun j => j.discovery.id = id).map (·.cronSchedule)

/-- There is one job for each discovery that wants one, and none for others; what could not be
scheduled is disabled. -/
structure Mirror : Prop where
  once : (s.jobs.map (·.discovery.id)).Nodup
  mirrored : ∀ id, s.scheduled id = s.wanted id
  disabled : ∀ id ∈ s.failed, ∀ discovery, s.discoveries.get id = some discovery → discovery.isEnabled = false

omit [CronRules] in
/-- The row may be stored under its id. -/
def Insertable (discovery : Discovery) : Prop :=
  s.discoveries.get discovery.id = none ∧ s.references discovery = true

omit [CronRules] in
/-- The discovery is deleted with its network or its daemon, or made ad hoc. -/
def Restricted (organizationId : Uuid) (plan : BillingPlan) (includedNetworks : Option Nat) (discovery : Discovery) :
    Prop :=
  let networkIds := s.tables.accounts.networksOf organizationId
  let limit := includedNetworks.getD networkIds.length
  discovery.base.networkId ∈ networkIds.drop limit ∨
    (∃ daemon ∈ s.tables.daemons.rows, daemon.networkId ∈ networkIds.drop limit ∧
      daemon.id = discovery.base.daemonId) ∨
    plan.scheduledDiscovery = false ∧ discovery.base.networkId ∈ networkIds.take limit

/-- A request that passes its checks changes nothing that is wanted, and a discovery that is created
with its job is refused none. -/
def Steady : Action → Prop
  | .create entity body drawn =>
    s.checkCreate entity body = .ok () → s.Insertable (s.newRow body drawn) → body.wants = none
  | .update entity id body => ∀ row, s.checkUpdate entity id body = .ok row → s.references row = true →
    row.wants = s.wanted id
  | .delete entity id => s.checkDelete entity id = .ok () → s.wanted id = none
  | .bulkDelete entity ids => s.checkBulkDelete entity ids = .ok () → ∀ id ∈ ids, s.wanted id = none
  | .register base drawn _ =>
    let discovery : Discovery := { id := drawn, createdAt := s.now, updatedAt := s.now, base }
    s.Insertable (s.newRow discovery drawn) → discovery.isEnabled = true → discovery.wants ≠ none
  | .enforcePlan organizationId plan includedNetworks => ∀ discovery ∈ s.discoveries.rows,
    s.Restricted organizationId plan includedNetworks discovery → discovery.wants = none
  | .tick _ | .start .. | .runJob .. => True

/-- Jobs run at the time that was wanted when they were added. -/
def Captured : Prop := ∀ job ∈ s.jobs, job.discovery.wants = some job.cronSchedule

end Definitions

variable {s t : DiscoveryServer} {discovery row : Discovery} {id : Uuid}

theorem wants_enabled (h : discovery.wants ≠ none) : discovery.isEnabled = true := by
  unfold Discovery.wants at h
  unfold Discovery.isEnabled
  split at h
  · next hrun => rw [hrun]
  · exact absurd rfl h

/-- A discovery keeps what it wants as it is run. -/
theorem wants_ran (now : DateTime) : (discovery.ran now).wants = discovery.wants := by
  unfold Discovery.wants Discovery.ran
  cases h : discovery.base.runType with
  | scheduled cronSchedule lastRun enabled => cases enabled <;> rfl
  | historical results => rfl
  | adHoc lastRun => rfl

theorem wants_unscheduled : discovery.unscheduled.wants = none := by
  unfold Discovery.wants Discovery.unscheduled
  cases h : discovery.base.runType with
  | scheduled cronSchedule lastRun enabled => rfl
  | historical results => simp [h]
  | adHoc lastRun => simp [h]

theorem wanted_of_get (h : s.discoveries.get id = some row) : s.wanted id = row.wants := by
  rw [wanted, h, Option.bind_some]

/-- Where no job is added or removed, nothing that is wanted may change. -/
theorem mirror_iff (h : s.Mirror) (hjobs : t.jobs = s.jobs) (hfailed : t.failed = []) :
    t.Mirror ↔ ∀ id, t.wanted id = s.wanted id := by
  have hscheduled (id : Uuid) : t.scheduled id = s.scheduled id := by rw [scheduled, scheduled, hjobs]
  constructor
  · intro ht id
    rw [← ht.mirrored, hscheduled, h.mirrored]
  · intro hwanted
    refine ⟨by rw [hjobs]; exact h.once, fun id => ?_, fun id hid => ?_⟩
    · rw [hscheduled, h.mirrored, hwanted]
    · rw [hfailed] at hid
      cases hid

/-! ## Statements -/

omit [CronRules] in
theorem wp_insertRow {Q : Unit → DiscoveryServer → Prop} {E : ApiError → DiscoveryServer → Prop}
    (hQ : ∀ discoveries, s.Insertable row → s.discoveries.insert row = some discoveries → Q () { s with discoveries })
    (hE : ¬ s.Insertable row → ∀ e, E e s) : wp (DiscoveryStore.insertRow row) Q E s := by
  simp only [DiscoveryStore.insertRow, Program.wp_bind, Program.wp_get, wp_runStatement, Program.wp_set]
  refine ⟨fun discoveries hinsert => ?_, fun e herror => hE (fun hinsertable => ?_) e⟩
  · obtain ⟨hinsert, -, href⟩ := insertInto_eq_ok hinsert
    refine hQ discoveries ⟨Table.get_eq_none.mpr (Table.insert_eq_some hinsert).2, href⟩ hinsert
  · obtain ⟨hfree, href⟩ := hinsertable
    cases hinsert : s.discoveries.insert row with
    | none =>
      obtain ⟨x, hx, hxid⟩ := Table.insert_eq_none.mp hinsert
      exact Table.get_eq_none.mp hfree x hx hxid
    | some discoveries => simp [insertInto, hinsert, violated, href] at herror

omit [CronRules] in
/-- An update replaces the row, if there is one, unless it refers to what is not stored. -/
theorem wp_updateRow {Q : Unit → DiscoveryServer → Prop} {E : ApiError → DiscoveryServer → Prop}
    (hQ : (∀ x, s.discoveries.get row.id = some x → s.references row = true) →
      Q () { s with discoveries := s.discoveries.update row })
    (hE : s.references row = false → ∀ e, E e s) : wp (DiscoveryStore.updateRow row) Q E s := by
  simp only [DiscoveryStore.updateRow, Program.wp_bind, Program.wp_get, wp_runStatement, Program.wp_set]
  refine ⟨fun discoveries hupdate => ?_, fun e herror => hE ?_ e⟩
  · rcases updateIn_eq_ok hupdate with ⟨hmissing, rfl⟩ | ⟨-, href, rfl⟩
    · have hsame := hQ fun x hx => by rw [hmissing] at hx; cases hx
      rw [Table.update_missing hmissing] at hsame
      exact hsame
    · exact hQ fun _ _ => href
  · cases href : s.references row with
    | false => rfl
    | true =>
      unfold updateIn at herror
      split at herror
      · cases herror
      · simp [violated] at herror

/-! ## One step -/

/-- Jobs stay what they were added for, and the step is right exactly when it is steady. -/
structure Right (s : DiscoveryServer) (a : Action) (t : DiscoveryServer) : Prop where
  captured : t.Captured
  mirror : t.Mirror ↔ s.Steady a

/-- The invariant. -/
structure Inv (s : DiscoveryServer) : Prop extends s.Mirror where
  captured : s.Captured

/-- A step that adds and removes no job is right if it changes nothing that is wanted. -/
theorem Inv.right {a : Action} (h : s.Inv) (hjobs : t.jobs = s.jobs) (hfailed : t.failed = [])
    (hwanted : (∀ id, t.wanted id = s.wanted id) ↔ s.Steady a) : Right s a t where
  captured := by
    unfold Captured
    rw [hjobs]
    exact h.captured
  mirror := (mirror_iff h.toMirror hjobs hfailed).trans hwanted

/-- Nothing is done. -/
theorem Inv.right_refl {a : Action} (h : s.Inv) (hfailed : s.failed = []) (hsteady : s.Steady a) : Right s a s :=
  h.right rfl hfailed ⟨fun _ => hsteady, fun _ _ => rfl⟩

theorem wanted_update (id : Uuid) {discoveries : Table Discovery Discovery.id}
    (h : t.discoveries = discoveries.update row) (hs : s.discoveries = discoveries) :
    t.wanted id = if id = row.id then (s.discoveries.get id).bind fun _ => row.wants else s.wanted id := by
  rw [wanted, wanted, h, hs, Table.get_update]
  split
  · cases discoveries.get id <;> rfl
  · rfl

theorem right_create (h : s.Inv) (hfailed : s.failed = []) (entity : AuthenticatedEntity) (body : Discovery)
    (drawn : Uuid) :
    wp (DiscoveryHandlers.createDiscovery entity body drawn) (fun _ t => Right s (.create entity body drawn) t)
      (fun _ t => Right s (.create entity body drawn) t) s := by
  simp only [DiscoveryHandlers.createDiscovery, Program.wp_bind, Program.wp_get, wp_runStatement]
  refine ⟨fun _ hchecked => wp_insertRow (fun discoveries hfree hinsert => ?_) fun hnot _ => ?_, fun e herror => ?_⟩
  · have hwants : (s.newRow body drawn).wants = body.wants := by
      unfold newRow
      split <;> rfl
    refine h.right rfl hfailed ⟨fun hwanted _ _ => ?_, fun hsteady id => ?_⟩
    · have hnew := hwanted (s.newRow body drawn).id
      rw [wanted, wanted, Table.get_insert hinsert, if_pos rfl, hfree.1, Option.bind_some, hwants] at hnew
      exact hnew
    · rw [wanted, wanted, Table.get_insert hinsert]
      split
      · next hid =>
        rw [hid, hfree.1, Option.bind_some, hwants]
        exact hsteady hchecked hfree
      · rfl
  · exact h.right_refl hfailed fun _ hfree => absurd hfree hnot
  · refine h.right_refl hfailed fun hok => ?_
    rw [hok] at herror
    cases herror

omit [CronRules] in
/-- An update that passes its checks writes a row under the id of the path. -/
theorem checkUpdate_eq_ok {entity : AuthenticatedEntity} {body : Discovery}
    (h : s.checkUpdate entity id body = .ok row) :
    ∃ existing, s.discoveries.get id = some existing ∧ row.id = id ∧ row.base = body.base ∧
      existing.base.networkId ∈ entity.networkIds ∧ body.base.networkId ∈ entity.networkIds := by
  simp only [checkUpdate, bind, Except.bind] at h
  split at h
  · cases h
  split at h
  · cases h
  split at h
  · cases h
  · next existing hget =>
    simp only [validateNetworkAccess, List.contains_iff_mem] at h
    split at h
    · cases h
    next hexisting =>
    split at h
    · cases h
    next hbody =>
    cases h
    refine ⟨existing, hget, (Table.get_eq_some.mp hget).2, rfl, ?_, ?_⟩
    · by_contra hno
      rw [if_neg hno] at hexisting
      cases hexisting
    · by_contra hno
      rw [if_neg hno] at hbody
      cases hbody

theorem right_update (h : s.Inv) (hfailed : s.failed = []) (entity : AuthenticatedEntity) (id : Uuid)
    (body : Discovery) :
    wp (DiscoveryHandlers.updateDiscovery entity id body) (fun _ t => Right s (.update entity id body) t)
      (fun _ t => Right s (.update entity id body) t) s := by
  simp only [DiscoveryHandlers.updateDiscovery, Program.wp_bind, Program.wp_get, wp_runStatement]
  refine ⟨fun row hchecked => wp_updateRow (fun href => ?_) fun hnot _ => ?_, fun e herror => ?_⟩
  · obtain ⟨existing, hget, hid, -, -, -⟩ := checkUpdate_eq_ok hchecked
    have hwanted (i : Uuid) :=
      wanted_update (s := s) (t := { s with discoveries := s.discoveries.update row }) i rfl rfl
    refine h.right rfl hfailed ⟨fun hsame x hx _ => ?_, fun hsteady i => ?_⟩
    · rw [hchecked] at hx
      cases hx
      rw [← hsame id, hwanted, if_pos hid.symm, hget, Option.bind_some]
    · rw [hwanted]
      split
      · next hi =>
        rw [hi, hid, hget, Option.bind_some]
        exact hsteady row hchecked (href existing (hid ▸ hget))
      · rfl
  · refine h.right_refl hfailed fun x hx href => ?_
    rw [hchecked] at hx
    cases hx
    rw [hnot] at href
    cases href
  · refine h.right_refl hfailed fun row hok => ?_
    rw [hok] at herror
    cases herror

/-- Some discoveries are deleted, and others change what they want. -/
theorem Inv.right_of_get {a : Action} (h : s.Inv) (hjobs : t.jobs = s.jobs) (hfailed : t.failed = [])
    {P : Discovery → Prop}
    (hget : ∀ discovery ∈ s.discoveries.rows,
      (P discovery → t.wanted discovery.id = none) ∧ (¬ P discovery → t.wanted discovery.id = discovery.wants))
    (hnew : ∀ id, s.discoveries.get id = none → t.wanted id = none)
    (hsteady : s.Steady a ↔ ∀ discovery ∈ s.discoveries.rows, P discovery → discovery.wants = none) :
    Right s a t := by
  refine h.right hjobs hfailed (Iff.trans ⟨fun hwanted discovery hmem hP => ?_, fun hnone id => ?_⟩ hsteady.symm)
  · have hstored : s.discoveries.get discovery.id = some discovery := Table.get_eq_some.mpr ⟨hmem, rfl⟩
    rw [← wanted_of_get hstored, ← hwanted]
    exact (hget discovery hmem).1 hP
  · cases hfound : s.discoveries.get id with
    | none => rw [hnew id hfound, wanted, hfound, Option.bind_none]
    | some discovery =>
      obtain ⟨hmem, rfl⟩ := Table.get_eq_some.mp hfound
      rw [wanted_of_get hfound]
      by_cases hP : P discovery
      · rw [(hget discovery hmem).1 hP, hnone discovery hmem hP]
      · exact (hget discovery hmem).2 hP

/-- Discoveries are deleted. -/
theorem Inv.right_filter {a : Action} (h : s.Inv) (hfailed : s.failed = []) (p : Discovery → Bool)
    (hsteady : s.Steady a ↔ ∀ discovery ∈ s.discoveries.rows, p discovery = false → discovery.wants = none) :
    Right s a { s with discoveries := s.discoveries.filter p } := by
  refine h.right_of_get (P := fun d => p d = false) rfl hfailed (fun discovery hmem => ?_)
    (fun id hmissing => ?_) hsteady
  · have hstored : s.discoveries.get discovery.id = some discovery := Table.get_eq_some.mpr ⟨hmem, rfl⟩
    rw [wanted, Table.get_filter, hstored, Option.filter_some]
    constructor
    · intro hp
      rw [hp]
      rfl
    · intro hp
      rw [Bool.not_eq_false] at hp
      rw [if_pos hp, Option.bind_some]
  · rw [wanted, Table.get_filter, hmissing]
    rfl

theorem right_delete (h : s.Inv) (hfailed : s.failed = []) (entity : AuthenticatedEntity) (id : Uuid) :
    wp (DiscoveryHandlers.deleteDiscovery entity id) (fun _ t => Right s (.delete entity id) t)
      (fun _ t => Right s (.delete entity id) t) s := by
  simp only [DiscoveryHandlers.deleteDiscovery, Program.wp_bind, Program.wp_get, wp_runStatement, Program.wp_modify]
  refine ⟨fun _ hchecked => h.right_filter hfailed _ ⟨fun hsteady discovery hmem hid => ?_, fun hnone _ => ?_⟩,
    fun e herror => ?_⟩
  · have hid : discovery.id = id := by simpa using hid
    rw [← wanted_of_get (Table.get_eq_some.mpr ⟨hmem, hid⟩)]
    exact hsteady hchecked
  · cases hfound : s.discoveries.get id with
    | none => rw [wanted, hfound, Option.bind_none]
    | some discovery =>
      rw [wanted_of_get hfound]
      obtain ⟨hmem, hid⟩ := Table.get_eq_some.mp hfound
      exact hnone discovery hmem (by simpa using hid)
  · refine h.right_refl hfailed fun hok => ?_
    rw [hok] at herror
    cases herror

theorem right_bulkDelete (h : s.Inv) (hfailed : s.failed = []) (entity : AuthenticatedEntity) (ids : List Uuid) :
    wp (DiscoveryHandlers.bulkDelete entity ids) (fun _ t => Right s (.bulkDelete entity ids) t)
      (fun _ t => Right s (.bulkDelete entity ids) t) s := by
  simp only [DiscoveryHandlers.bulkDelete, Program.wp_bind, Program.wp_get, wp_runStatement, Program.wp_modify]
  refine ⟨fun _ hchecked => h.right_filter hfailed _ ⟨fun hsteady discovery hmem hid => ?_, fun hnone _ id hid => ?_⟩,
    fun e herror => ?_⟩
  · rw [← wanted_of_get (Table.get_eq_some.mpr ⟨hmem, rfl⟩)]
    exact hsteady hchecked _ (by simpa using hid)
  · cases hfound : s.discoveries.get id with
    | none => rw [wanted, hfound, Option.bind_none]
    | some discovery =>
      rw [wanted_of_get hfound]
      obtain ⟨hmem, rfl⟩ := Table.get_eq_some.mp hfound
      exact hnone discovery hmem (by simpa using hid)
  · refine h.right_refl hfailed fun hok => ?_
    rw [hok] at herror
    cases herror

omit [CronRules] in
theorem get_deleteNetworks (networkIds : List Uuid) (hmem : discovery ∈ s.discoveries.rows)
    [Decidable (discovery.base.networkId ∈ networkIds ∨
      ∃ daemon ∈ s.tables.daemons.rows, daemon.networkId ∈ networkIds ∧ daemon.id = discovery.base.daemonId)] :
    (s.deleteNetworks networkIds).discoveries.get discovery.id =
      if discovery.base.networkId ∈ networkIds ∨
        ∃ daemon ∈ s.tables.daemons.rows, daemon.networkId ∈ networkIds ∧ daemon.id = discovery.base.daemonId
      then none else some discovery := by
  rw [deleteNetworks, Table.get_filter, Table.get_eq_some.mpr ⟨hmem, rfl⟩, Option.filter_some]
  split
  · next hkept =>
    rw [if_neg]
    simp only [Bool.and_eq_true, Bool.not_eq_true', List.contains_eq_mem, decide_eq_false_iff_not, List.mem_map,
      List.mem_filter, decide_eq_true_eq, not_exists, not_and] at hkept
    rintro (hnetwork | ⟨daemon, hdaemon, hnetwork, hid⟩)
    · exact hkept.1 hnetwork
    · exact hkept.2 daemon ⟨hdaemon, hnetwork⟩ hid
  · next hdropped =>
    rw [if_pos]
    by_contra hno
    rw [not_or] at hno
    refine hdropped ?_
    simp only [Bool.and_eq_true, Bool.not_eq_true', List.contains_eq_mem, decide_eq_false_iff_not, List.mem_map,
      List.mem_filter, decide_eq_true_eq, not_exists, not_and]
    exact ⟨hno.1, fun daemon hdaemon hid => hno.2 ⟨daemon, hdaemon.1, hdaemon.2, hid⟩⟩

omit [CronRules] in
theorem restricted_iff {organizationId : Uuid} {plan : BillingPlan} {includedNetworks : Option Nat} :
    s.Restricted organizationId plan includedNetworks discovery ↔
      let networkIds := s.tables.accounts.networksOf organizationId
      let limit := includedNetworks.getD networkIds.length
      (discovery.base.networkId ∈ networkIds.drop limit ∨ ∃ daemon ∈ s.tables.daemons.rows,
        daemon.networkId ∈ networkIds.drop limit ∧ daemon.id = discovery.base.daemonId) ∨
      plan.scheduledDiscovery = false ∧ discovery.base.networkId ∈ networkIds.take limit :=
  or_assoc.symm

open Classical in
/-- A plan leaves those who want a job, unless it restricts them. -/
theorem wanted_enforcePlan {organizationId : Uuid} {plan : BillingPlan} {includedNetworks : Option Nat}
    (hmem : discovery ∈ s.discoveries.rows) :
    (s.enforcePlanRestrictions organizationId plan includedNetworks).wanted discovery.id =
      if s.Restricted organizationId plan includedNetworks discovery then none else discovery.wants := by
  simp only [restricted_iff, enforcePlanRestrictions]
  have hget := get_deleteNetworks ((s.tables.accounts.networksOf organizationId).drop
    (includedNetworks.getD (s.tables.accounts.networksOf organizationId).length)) hmem
  by_cases hplan : plan.scheduledDiscovery = true
  · simp only [hplan, if_true, Bool.true_eq_false, false_and, or_false]
    rw [wanted, hget]
    split
    · rfl
    · rfl
  · rw [Bool.not_eq_true] at hplan
    simp only [hplan, Bool.false_eq_true, if_false, true_and]
    rw [wanted, Table.get_modify, hget]
    split
    · next hgone =>
      rw [if_pos (.inl hgone)]
      rfl
    · next hkept =>
      rw [Option.map_some, Option.bind_some]
      simp only [List.contains_eq_mem, decide_eq_true_eq]
      split
      · next htaken => rw [if_pos (.inr htaken), wants_unscheduled]
      · next hfree => rw [if_neg (fun h => h.elim hkept hfree)]

open Classical in
theorem right_enforcePlan (h : s.Inv) (hfailed : s.failed = []) (organizationId : Uuid) (plan : BillingPlan)
    (includedNetworks : Option Nat) :
    Right s (.enforcePlan organizationId plan includedNetworks)
      (s.enforcePlanRestrictions organizationId plan includedNetworks) := by
  refine h.right_of_get (P := s.Restricted organizationId plan includedNetworks) ?_ ?_ (fun discovery hmem => ?_)
    (fun id hmissing => ?_) Iff.rfl
  · unfold enforcePlanRestrictions
    dsimp only
    split <;> rfl
  · unfold enforcePlanRestrictions
    dsimp only
    split <;> exact hfailed
  · rw [wanted_enforcePlan hmem]
    exact ⟨fun hr => if_pos hr, fun hr => if_neg hr⟩
  · unfold enforcePlanRestrictions wanted
    dsimp only
    split
    · rw [deleteNetworks, Table.get_filter, hmissing]
      rfl
    · rw [Table.get_modify, deleteNetworks, Table.get_filter, hmissing]
      rfl

omit [CronRules] in
/-- A discovery that may be started is one of those stored, with its last run set. -/
theorem startSession_eq_ok {entity : AuthenticatedEntity}
    (h : DiscoveryHandlers.startSession entity s.sessionServer id = .ok row) :
    ∃ discovery, s.discoveries.get id = some discovery ∧ row = discovery.ran s.now ∧
      discovery.base.networkId ∈ entity.networkIds := by
  unfold DiscoveryHandlers.startSession at h
  split at h
  · cases h
  split at h
  · cases h
  next discovery hfound =>
  split at h
  · cases h
  next hnetwork =>
  cases h
  refine ⟨discovery, ?_, rfl, by simpa using hnetwork⟩
  have hpred : (fun d : Discovery => d.id == id) = fun d => decide (d.id = id) := by
    funext d
    exact beq_eq_decide _ _
  rw [Table.get, ← hpred]
  exact hfound

/-- Starting a discovery queues its session and updates its row, the schedule being the one that is stored. -/
theorem wp_startDiscovery {entity : AuthenticatedEntity} {sessionId : Uuid} {Q : Unit → DiscoveryServer → Prop}
    {E : ApiError → DiscoveryServer → Prop} (hE : ∀ e, E e s)
    (hQ : ∀ discovery, s.discoveries.get id = some discovery → discovery.base.networkId ∈ entity.networkIds →
      wp (DiscoveryStore.updateRow (discovery.ran s.now)) Q E (s.startSession (discovery.ran s.now) sessionId)) :
    wp (DiscoveryHandlers.startDiscovery entity id sessionId) Q E s := by
  simp only [DiscoveryHandlers.startDiscovery, Program.wp_bind, Program.wp_get, wp_runStatement, Program.wp_modify]
  refine ⟨fun row hstart => ?_, fun e _ => hE e⟩
  obtain ⟨discovery, hget, rfl, haccess⟩ := startSession_eq_ok hstart
  have hid : (discovery.ran s.now).id = id := (Table.get_eq_some.mp hget).2
  have hupdate := hQ discovery hget haccess
  have hcurrent : (s.startSession (discovery.ran s.now) sessionId).discoveries.get (discovery.ran s.now).id =
      some discovery :=
    hid ▸ hget
  simp only [DiscoveryStore.updateDiscovery, Program.wp_bind, Program.wp_get, hcurrent]
  split
  · next newCron _ _ currentCron _ _ hnew hcurrent =>
    have hsame : (currentCron != newCron) = false := by
      simp only [Discovery.ran, hcurrent, RunType.scheduled.injEq] at hnew
      simp [hnew.1]
    rw [hsame, if_neg Bool.false_ne_true]
    exact hupdate
  · exact hupdate

theorem right_start (h : s.Inv) (hfailed : s.failed = []) (entity : AuthenticatedEntity) (id sessionId : Uuid) :
    wp (DiscoveryHandlers.startDiscovery entity id sessionId) (fun _ t => Right s (.start entity id sessionId) t)
      (fun _ t => Right s (.start entity id sessionId) t) s := by
  refine wp_startDiscovery (fun _ => h.right_refl hfailed trivial) fun discovery hget _ => ?_
  have hid : (discovery.ran s.now).id = id := (Table.get_eq_some.mp hget).2
  refine wp_updateRow (fun _ => h.right rfl hfailed ⟨fun _ => trivial, fun _ i => ?_⟩) fun _ _ =>
    h.right rfl hfailed ⟨fun _ => trivial, fun _ _ => rfl⟩
  rw [@wanted_update _ s _ (discovery.ran s.now) i s.discoveries rfl rfl]
  split
  · next hi => rw [hi, hid, hget, Option.bind_some, wants_ran, wanted_of_get hget]
  · rfl

omit [CronRules] in
theorem scheduled_of_mem (honce : (s.jobs.map (·.discovery.id)).Nodup) {job : Job} (hjob : job ∈ s.jobs) :
    s.scheduled job.discovery.id = some job.cronSchedule := by
  unfold scheduled
  cases hfind : s.jobs.find? fun j => j.discovery.id = job.discovery.id with
  | none => simpa using List.find?_eq_none.mp hfind job hjob
  | some x =>
    have hid : x.discovery.id = job.discovery.id := by simpa using List.find?_some hfind
    rw [List.inj_on_of_nodup_map honce (List.mem_of_find?_eq_some hfind) hjob hid]
    rfl

theorem right_runJob (h : s.Inv) (hfailed : s.failed = []) (i : Nat) (sessionId : Uuid) :
    wp (perform (.runJob i sessionId)) (fun _ t => Right s (.runJob i sessionId) t)
      (fun _ t => Right s (.runJob i sessionId) t) s := by
  simp only [perform, Program.wp_bind, Program.wp_get]
  split
  · exact h.right_refl hfailed trivial
  next job hjob =>
  have hmem := List.mem_of_getElem? hjob
  simp only [Program.wp_bind, Program.wp_modify, Program.wp_get]
  -- the copy in the job wants what is wanted
  have hwanted : s.wanted job.discovery.id = job.discovery.wants := by
    rw [← h.mirrored, scheduled_of_mem h.once hmem, h.captured job hmem]
  refine wp_updateRow (fun _ => h.right rfl hfailed ⟨fun _ => trivial, fun _ i => ?_⟩) fun _ _ =>
    h.right rfl hfailed ⟨fun _ => trivial, fun _ _ => rfl⟩
  rw [@wanted_update _ s _ job.discovery i s.discoveries rfl rfl]
  split
  · next hi =>
    rw [hi]
    cases hget : s.discoveries.get job.discovery.id with
    | none => rw [Option.bind_none, wanted, hget, Option.bind_none]
    | some x => rw [Option.bind_some, hwanted]
  · rfl

/-! ## Scheduling -/

theorem scheduleDiscovery_eq_ok {cronSchedule : String} (h : discovery.wants = some cronSchedule) :
    s.scheduleDiscovery discovery = .ok (s.addJob cronSchedule discovery) := by
  unfold Discovery.wants at h
  split at h
  · next hrun =>
    split at h
    · next haccepted =>
      cases h
      rw [scheduleDiscovery, hrun]
      simp only [Bool.not_true, Bool.false_eq_true, if_false]
      rw [Option.isNone_iff_eq_none.mp haccepted]
    · cases h
  · cases h

theorem scheduleDiscovery_eq_error (h : discovery.wants = none) : ∃ e, s.scheduleDiscovery discovery = .error e := by
  unfold scheduleDiscovery
  split
  · next cronSchedule lastRun enabled hrun =>
    cases enabled with
    | false => exact ⟨_, rfl⟩
    | true =>
      unfold Discovery.wants at h
      rw [hrun] at h
      cases hrefuses : CronRules.refuses cronSchedule with
      | none => simp [hrefuses] at h
      | some e => exact ⟨e, rfl⟩
  · exact ⟨_, rfl⟩
  · exact ⟨_, rfl⟩

/-- A discovery gets its job, or is noted as failed and left as it is. -/
theorem wp_scheduleOrDisable {Q : Unit → DiscoveryServer → Prop} {E : ApiError → DiscoveryServer → Prop}
    (hstored : s.discoveries.get row.id = some row)
    (hadd : ∀ cronSchedule, row.wants = some cronSchedule → Q () (s.addJob cronSchedule row))
    (hQ : row.wants = none → Q () { s with failed := row.id :: s.failed })
    (hE : row.wants = none → s.references row = false → ∀ e, E e { s with failed := row.id :: s.failed }) :
    wp (DiscoveryStore.scheduleOrDisable row) Q E s := by
  simp only [DiscoveryStore.scheduleOrDisable, Program.wp_bind, Program.wp_get]
  cases hwants : row.wants with
  | some cronSchedule =>
    rw [scheduleDiscovery_eq_ok hwants]
    exact hadd cronSchedule hwants
  | none =>
    obtain ⟨e, he⟩ := scheduleDiscovery_eq_error (s := s) hwants
    rw [he]
    simp only [Program.wp_bind, Program.wp_modify]
    refine wp_updateRow (fun _ => ?_) (hE hwants)
    have hsame : s.discoveries.update row.disable = s.discoveries := Table.update_get hstored
    rw [hsame]
    exact hQ hwants

omit [CronRules] in
theorem scheduled_addJob {cronSchedule : String} : (s.addJob cronSchedule row).scheduled id =
    (s.scheduled id).or (if row.id = id then some cronSchedule else none) := by
  rw [scheduled, addJob, List.find?_append, scheduled]
  cases s.jobs.find? fun j => j.discovery.id = id with
  | some job => rfl
  | none =>
    by_cases hid : row.id = id
    · simp [hid]
    · simp [hid]

theorem captured_addJob {cronSchedule : String} (h : s.Captured) (hwants : row.wants = some cronSchedule) :
    (s.addJob cronSchedule row).Captured := by
  intro job hjob
  rcases List.mem_append.mp hjob with hjob | hjob
  · exact h job hjob
  · rw [List.mem_singleton.mp hjob]
    exact hwants

omit [CronRules] in
/-- There is no job for a discovery that has none scheduled. -/
theorem not_mem_of_scheduled (h : s.scheduled id = none) : id ∉ s.jobs.map (·.discovery.id) := by
  rw [scheduled, Option.map_eq_none_iff, List.find?_eq_none] at h
  rintro hmem
  obtain ⟨job, hjob, hid⟩ := List.mem_map.mp hmem
  exact h job hjob (by simpa using hid)

/-- A discovery the service creates is stored, and gets its job if it wants one. -/
theorem wp_createDiscovery {body : Discovery} {drawn : Uuid} {Q : Discovery → DiscoveryServer → Prop}
    {E : ApiError → DiscoveryServer → Prop} (hrow : s.newRow body drawn = row) (hE : ¬ s.Insertable row → ∀ e, E e s)
    (hadds : ∀ discoveries, s.Insertable row → s.discoveries.insert row = some discoveries →
      ∀ cronSchedule, row.wants = some cronSchedule → Q row (addJob { s with discoveries } cronSchedule row))
    (hfails : ∀ discoveries, s.Insertable row → s.discoveries.insert row = some discoveries → row.wants = none →
      Q row { s with discoveries, failed := row.id :: s.failed })
    (hidle : ∀ discoveries, s.Insertable row → s.discoveries.insert row = some discoveries → row.wants = none →
      row.isEnabled = false → Q row { s with discoveries }) :
    wp (DiscoveryStore.createDiscovery body drawn) Q E s := by
  simp only [DiscoveryStore.createDiscovery, Program.wp_bind, Program.wp_get, hrow]
  refine wp_insertRow (fun discoveries hfree hinsert => ?_) hE
  have hstored : discoveries.get row.id = some row := by rw [Table.get_insert hinsert, if_pos rfl]
  have hnone (hrun : ∀ cronSchedule lastRun enabled, row.base.runType ≠ .scheduled cronSchedule lastRun enabled) :
      row.wants = none ∧ row.isEnabled = false := by
    unfold Discovery.isEnabled Discovery.wants
    constructor
    · split
      · next heq => exact absurd heq (hrun _ _ _)
      · rfl
    · split
      · next heq => exact absurd heq (hrun _ _ _)
      · rfl
  split
  · rw [Program.wp_bind]
    refine wp_scheduleOrDisable hstored (hadds discoveries hfree hinsert)
      (hfails discoveries hfree hinsert) fun _ hdangling => ?_
    have href : s.references row = false := hdangling
    rw [hfree.2] at href
    cases href
  · next hrun =>
    obtain ⟨hunwanted, hoff⟩ := hnone fun _ _ _ heq => by rw [hrun] at heq; cases heq
    exact hidle discoveries hfree hinsert hunwanted hoff
  · next hrun =>
    obtain ⟨hunwanted, hoff⟩ := hnone fun _ _ _ heq => by rw [hrun] at heq; cases heq
    exact hidle discoveries hfree hinsert hunwanted hoff

theorem right_register (h : s.Inv) (hfailed : s.failed = []) (base : DiscoveryBase) (drawn sessionId : Uuid) :
    wp (perform (.register base drawn sessionId)) (fun _ t => Right s (.register base drawn sessionId) t)
      (fun _ t => Right s (.register base drawn sessionId) t) s := by
  simp only [perform, Program.wp_bind, Program.wp_get, Program.wp_modify]
  set row := s.newRow { id := drawn, createdAt := s.now, updatedAt := s.now, base } drawn with hrow
  have hbase : row.base = base := by
    rw [hrow, newRow]
    split <;> rfl
  have hwants : row.wants = Discovery.wants { id := drawn, createdAt := s.now, updatedAt := s.now, base } := by
    unfold Discovery.wants
    rw [hbase]
  have henabled : row.isEnabled =
      Discovery.isEnabled { id := drawn, createdAt := s.now, updatedAt := s.now, base } := by
    unfold Discovery.isEnabled
    rw [hbase]
  have hfresh (hfree : s.Insertable row) : s.wanted row.id = none := by rw [wanted, hfree.1, Option.bind_none]
  have hwanted {t : DiscoveryServer} (hinsert : s.discoveries.insert row = some t.discoveries) (id : Uuid) :
      t.wanted id = if id = row.id then row.wants else s.wanted id := by
    rw [wanted, Table.get_insert hinsert]
    split
    · rw [Option.bind_some]
    · rfl
  -- nothing is wanted for the row
  have hunwanted {t : DiscoveryServer} (hfree : s.Insertable row)
    (hinsert : s.discoveries.insert row = some t.discoveries)
      (hnone : row.wants = none) (id : Uuid) : t.wanted id = s.wanted id := by
    rw [hwanted hinsert]
    split
    · next hid => rw [hnone, hid, hfresh hfree]
    · rfl
  refine wp_createDiscovery hrow.symm (fun hnot _ => h.right_refl hfailed fun hfree => absurd hfree hnot)
    (fun discoveries hfree hinsert cronSchedule hsome => ?_) (fun discoveries hfree hinsert hnone => ?_)
    fun discoveries hfree hinsert hnone hoff => ?_
  · have hscheduled : s.scheduled row.id = none := (h.mirrored row.id).trans (hfresh hfree)
    refine ⟨captured_addJob h.captured hsome, fun _ _ _ hnone => ?_, fun _ => ⟨?_, fun id => ?_, fun id hid => ?_⟩⟩
    · rw [← hwants, hsome] at hnone
      cases hnone
    · change ((s.jobs ++ [_]).map _).Nodup
      rw [List.map_append, List.nodup_append]
      refine ⟨h.once, List.nodup_singleton _, fun i hi j hj heq => ?_⟩
      rw [List.map_singleton, List.mem_singleton] at hj
      exact not_mem_of_scheduled hscheduled (hj ▸ heq ▸ hi)
    · refine (scheduled_addJob (s := { s with discoveries })).trans ?_
      rw [hwanted (by exact hinsert), hsome]
      by_cases hid : id = row.id
      · rw [hid, if_pos rfl, if_pos rfl]
        change (s.scheduled row.id).or _ = _
        rw [hscheduled, Option.none_or]
      · rw [if_neg hid, if_neg (Ne.symm hid), Option.or_none]
        exact h.mirrored id
    · change id ∈ s.failed at hid
      rw [hfailed] at hid
      cases hid
  · have hstored : discoveries.get row.id = some row := by rw [Table.get_insert hinsert, if_pos rfl]
    refine ⟨h.captured, fun ht _ hon => ?_, fun hsteady => ?_⟩
    · have hoff := ht.disabled row.id List.mem_cons_self row hstored
      rw [henabled, hon] at hoff
      cases hoff
    · refine ⟨h.once, fun id => (h.mirrored id).trans (hunwanted hfree (by exact hinsert) hnone id).symm,
        fun id hid x hx => ?_⟩
      change id ∈ row.id :: s.failed at hid
      rw [hfailed, List.mem_singleton] at hid
      rw [hid] at hx
      have hsame : row = x := Option.some.inj (hstored.symm.trans hx)
      rw [← hsame, ← Bool.not_eq_true]
      intro hon
      exact hsteady hfree (henabled ▸ hon) (hwants ▸ hnone)
  · refine h.right rfl hfailed ⟨fun _ _ hon => ?_, fun _ => hunwanted hfree (by exact hinsert) hnone⟩
    rw [← henabled, hoff] at hon
    cases hon

theorem right_step {a : Action} (h : s.Inv) (hstep : step s a = some t) : Right s a t := by
  cases hstep
  have hclean : Inv { s with failed := [] } :=
    ⟨⟨h.once, h.mirrored, fun _ hid => absurd hid List.not_mem_nil⟩, h.captured⟩
  have hright (hwp : wp (perform a) (fun _ t => Right { s with failed := [] } a t)
      (fun _ t => Right { s with failed := [] } a t) { s with failed := [] }) :
      Right s a (after (perform a) { s with failed := [] }) := by
    obtain ⟨hcaptured, hmirror⟩ := Program.wp_after.mp hwp
    refine ⟨hcaptured, hmirror.trans ?_⟩
    cases a <;> exact Iff.rfl
  cases a with
  | tick elapsed => exact hright (hclean.right rfl rfl ⟨fun _ => trivial, fun _ _ => rfl⟩)
  | create entity body drawn => exact hright (right_create hclean rfl entity body drawn)
  | update entity id body => exact hright (right_update hclean rfl entity id body)
  | delete entity id => exact hright (right_delete hclean rfl entity id)
  | bulkDelete entity ids => exact hright (right_bulkDelete hclean rfl entity ids)
  | start entity id sessionId => exact hright (right_start hclean rfl entity id sessionId)
  | register base drawn sessionId => exact hright (right_register hclean rfl base drawn sessionId)
  | enforcePlan organizationId plan includedNetworks =>
    exact hright (right_enforcePlan hclean rfl organizationId plan includedNetworks)
  | runJob i sessionId => exact hright (right_runJob hclean rfl i sessionId)

/-! ## The start -/

/-- What the scheduler has done once it went through some discoveries. -/
structure Booted (s : DiscoveryServer) (done : List Discovery) (t : DiscoveryServer) : Prop where
  tables : t.tables = s.tables
  discoveries : t.discoveries = s.discoveries
  jobs : t.jobs.map (·.discovery) = s.jobs.map (·.discovery) ++ done.filter (·.wants.isSome)
  failed : ∀ id, id ∈ t.failed ↔ id ∈ s.failed ∨ ∃ discovery ∈ done, discovery.wants = none ∧ discovery.id = id
  captured : s.Captured → t.Captured

theorem wp_schedule_all (discoveries : List Discovery) :
    ∀ s : DiscoveryServer, (∀ discovery ∈ discoveries, s.discoveries.get discovery.id = some discovery) →
      wp (discoveries.forM fun discovery => do let _ ← Program.attempt (DiscoveryStore.scheduleOrDisable discovery))
        (fun _ t => Booted s discoveries t) (fun _ _ => False) s := by
  induction discoveries with
  | nil =>
    intro s _
    rw [List.forM, Program.wp_pure]
    exact ⟨rfl, rfl, by simp, by simp, id⟩
  | cons discovery discoveries ih =>
    intro s hstored
    rw [List.forM, Program.wp_bind, Program.wp_bind, Program.wp_attempt]
    have hrest (u : DiscoveryServer) (hu : u.discoveries = s.discoveries) (hstep : Booted s [discovery] u) :
        wp (discoveries.forM fun discovery => do let _ ← Program.attempt (DiscoveryStore.scheduleOrDisable discovery))
          (fun _ t => Booted s (discovery :: discoveries) t) (fun _ _ => False) u := by
      refine (ih u fun d hd => ?_).mono (fun _ t ht => ?_) fun _ _ hno => hno
      · rw [hu]
        exact hstored d (List.mem_cons_of_mem _ hd)
      · refine ⟨ht.tables.trans hstep.tables, ht.discoveries.trans hu, ?_, fun id => ?_,
          fun hc => ht.captured (hstep.captured hc)⟩
        · rw [ht.jobs, hstep.jobs, List.append_assoc, ← List.filter_append, List.singleton_append]
        · rw [ht.failed, hstep.failed]
          simp only [List.mem_cons, List.not_mem_nil, false_and, exists_false, false_or, exists_eq_or_imp, or_assoc]
    have hfails (hnone : discovery.wants = none) : Booted s [discovery]
        { s with failed := discovery.id :: s.failed } := by
      refine ⟨rfl, rfl, ?_, fun id => ?_, id⟩
      · simp [hnone]
      · simp [hnone, or_comm, eq_comm]
    refine wp_scheduleOrDisable (hstored discovery List.mem_cons_self) (fun cronSchedule hsome => ?_)
      (fun hnone => ?_)
      fun hnone _ _ => ?_
    · refine hrest _ rfl ⟨rfl, rfl, ?_, fun id => ?_, fun hc => captured_addJob hc hsome⟩
      · simp [addJob, hsome]
      · simp [addJob, hsome]
    · exact hrest _ rfl (hfails hnone)
    · exact hrest _ rfl (hfails hnone)

theorem booted (tables : Tables) (discoveries : Table Discovery Discovery.id) (now : DateTime) :
    Booted { tables, discoveries, now } (discoveries.rows.filter Discovery.isEnabled)
        (boot tables discoveries now) := by
  refine Program.wp_after.mp ?_
  simp only [DiscoveryStore.startScheduler, Program.wp_bind, Program.wp_modify, Program.wp_get]
  refine (wp_schedule_all _ _ fun discovery hmem => ?_).mono (fun _ t ht => ?_) fun _ _ hno => hno.elim
  · exact Table.get_eq_some.mpr ⟨(List.mem_filter.mp hmem).1, rfl⟩
  · exact ⟨ht.tables, ht.discoveries, ht.jobs, ht.failed, ht.captured⟩

/-- Whatever is enabled has a cron expression that the scheduler accepts. -/
def Acceptable (discoveries : Table Discovery Discovery.id) : Prop :=
  ∀ discovery ∈ discoveries.rows, discovery.isEnabled = true → discovery.wants ≠ none

theorem captured_boot (tables : Tables) (discoveries : Table Discovery Discovery.id) (now : DateTime) :
    (boot tables discoveries now).Captured :=
  (booted tables discoveries now).captured fun _ hjob => absurd hjob List.not_mem_nil

theorem mirror_boot_iff (tables : Tables) (discoveries : Table Discovery Discovery.id) (now : DateTime) :
    (boot tables discoveries now).Mirror ↔ Acceptable discoveries := by
  obtain ⟨-, hdiscoveries, hjobs, hfailed, -⟩ := booted tables discoveries now
  have hcaptured := captured_boot tables discoveries now
  set s := boot tables discoveries now
  have hjobs : s.jobs.map (·.discovery) = (discoveries.rows.filter Discovery.isEnabled).filter (·.wants.isSome) :=
    hjobs
  have hfailed (id : Uuid) : id ∈ s.failed ↔ ∃ d ∈ discoveries.rows.filter Discovery.isEnabled, d.wants = none ∧
      d.id = id :=
    (hfailed id).trans (or_iff_right List.not_mem_nil)
  have hget (id : Uuid) : s.discoveries.get id = discoveries.get id := by rw [hdiscoveries]
  constructor
  · intro hmirror discovery hmem henabled hnone
    have hstored : s.discoveries.get discovery.id = some discovery := by
      rw [hget]
      exact Table.get_eq_some.mpr ⟨hmem, rfl⟩
    have hnoted : discovery.id ∈ s.failed :=
      (hfailed _).mpr ⟨discovery, List.mem_filter.mpr ⟨hmem, henabled⟩, hnone, rfl⟩
    rw [hmirror.disabled _ hnoted discovery hstored] at henabled
    cases henabled
  · intro hacceptable
    have honce : (s.jobs.map (·.discovery.id)).Nodup := by
      rw [show s.jobs.map (·.discovery.id) = (s.jobs.map (·.discovery)).map (·.id) by rw [List.map_map]; rfl, hjobs]
      exact discoveries.nodup.sublist ((List.filter_sublist.trans List.filter_sublist).map _)
    refine ⟨honce, fun id => ?_, fun id hid => ?_⟩
    · rw [wanted, hget]
      cases hscheduled : s.scheduled id with
      | some cronSchedule =>
        obtain ⟨job, hfind, rfl⟩ := Option.map_eq_some_iff.mp hscheduled
        have hjob := List.mem_of_find?_eq_some hfind
        have hid : job.discovery.id = id := by simpa using List.find?_some hfind
        have hmem : job.discovery ∈ discoveries.rows :=
          (List.mem_filter.mp (List.mem_filter.mp (hjobs ▸ List.mem_map_of_mem hjob)).1).1
        rw [Table.get_eq_some.mpr ⟨hmem, hid⟩, Option.bind_some, hcaptured job hjob]
      | none =>
        cases hfound : discoveries.get id with
        | none => rfl
        | some discovery =>
          obtain ⟨hmem, hid⟩ := Table.get_eq_some.mp hfound
          rw [Option.bind_some]
          by_contra hwants
          have hwants : discovery.wants ≠ none := fun heq => hwants heq.symm
          have hlisted : discovery ∈ s.jobs.map (·.discovery) := by
            rw [hjobs]
            exact List.mem_filter.mpr ⟨List.mem_filter.mpr ⟨hmem, wants_enabled hwants⟩,
              Option.isSome_iff_ne_none.mpr hwants⟩
          obtain ⟨job, hjob, heq⟩ := List.mem_map.mp hlisted
          exact not_mem_of_scheduled hscheduled (List.mem_map.mpr ⟨job, hjob, by rw [heq, hid]⟩)
    · obtain ⟨d, hd, hnone, -⟩ := (hfailed id).mp hid
      exact absurd hnone (hacceptable d (List.mem_filter.mp hd).1 (List.mem_filter.mp hd).2)

/-- **The jobs mirror the stored discoveries** in every state after a start, exactly when what was
enabled at the start is acceptable to the scheduler and every step is steady. -/
theorem mirror_iff_steady (tables : Tables) (discoveries : Table Discovery Discovery.id) (now : DateTime)
    (as : List Action) :
    Visits step Mirror (boot tables discoveries now) as ↔
      Acceptable discoveries ∧ Along step Steady (boot tables discoveries now) as := by
  have hrun (hmirror : (boot tables discoveries now).Mirror) :
      Visits step Mirror (boot tables discoveries now) as ↔ Along step Steady (boot tables discoveries now) as :=
    Transition.visits_iff_along (I := Inv)
      (fun _ _ _ hi hok hstep => ⟨(right_step hi hstep).mirror.mpr hok, (right_step hi hstep).captured⟩)
      (fun _ hi => hi.toMirror) (fun _ _ _ hi hstep hmirror => (right_step hi hstep).mirror.mp hmirror)
      ⟨hmirror, captured_boot tables discoveries now⟩
  constructor
  · intro hvisits
    exact ⟨(mirror_boot_iff tables discoveries now).mp hvisits.1, (hrun hvisits.1).mp hvisits⟩
  · rintro ⟨hacceptable, halong⟩
    exact (hrun ((mirror_boot_iff tables discoveries now).mpr hacceptable)).mpr halong

section Runs

/-- A network with a daemon. -/
def oneDaemon : Tables where
  accounts := { networks := ⟨[{ id := 3, organizationId := 1 }], by decide⟩ }
  daemons := ⟨[{ id := 7, networkId := 3, mode := .serverPoll }], by decide⟩

def nightly : Discovery :=
  { id := 9, createdAt := 0, updatedAt := 0
    base := { discoveryType := .selfReport 4, runType := .scheduled "0 0 0 * * *" none true, name := "Self Report"
              daemonId := 7, networkId := 3 } }

omit [CronRules] in
/-- A member deletes a discovery, and its job is left. -/
theorem job_outlives_discovery : ¬ @Visits _ _ (@step ⟨fun _ => none⟩) (@Mirror ⟨fun _ => none⟩)
    (@boot ⟨fun _ => none⟩ oneDaemon ⟨[nightly], by decide⟩ 0) [.delete (.user 2 1 .member [3] true) 9] := by
  intro h
  have hmirrored := h.2.mono (S := fun _ _ t => t.scheduled 9 = @wanted ⟨fun _ => none⟩ t 9)
    fun _ _ _ _ hmirror => @Mirror.mirrored ⟨fun _ => none⟩ _ hmirror 9
  exact absurd hmirrored (by decide +kernel)

end Runs

end DiscoveryServer

end Netvisor
