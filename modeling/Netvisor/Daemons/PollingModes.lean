/-
The two polling modes next to each other: a sequence of messages goes to the
endpoints one by one, or in batches into the answers to polls.

A poll moves things around: the update of a batch is processed before its
hosts, these before its subnets, and updates that a later one of the batch
replaced are not reported at all. On top of that only ServerPoll mode resolves
neighbors.
-/
import Mathlib.Data.List.Induction
import Netvisor.Daemons.Service
import Netvisor.Hosts.SubnetChanges

namespace Netvisor

open Program

/-! ## What one entity does to the database -/

namespace DaemonService

def hostStep (db : Db) (host : Supply × DiscoveryHostRequest) : Db :=
  after (host.1.run (HostService.discoverHost none host.2)) db

def subnetStep (db : Db) (subnet : Supply × Subnet) : Db := after (subnet.1.run (SubnetService.create subnet.2)) db

/-- The subnet with the id it is created under. -/
def subnetOf (subnet : Supply × Subnet) : Subnet :=
  SubnetService.identified { now := subnet.1.now, drawn := subnet.1.drawn } subnet.2

/-- What creating the subnet does to the table. -/
def change (subnet : Supply × Subnet) : SubnetChange := fun networks subnets =>
  SubnetService.created networks subnets (subnetOf subnet)

variable {db : Db} {host : Supply × DiscoveryHostRequest} {subnet : Supply × Subnet} {ids : List Uuid}

theorem after_run {α : Type} {p : Store α} {supply : Supply} :
    after (supply.run p) db = (after p { db with now := supply.now, drawn := supply.drawn }).stored := by
  unfold after Supply.run
  cases h : p { db with now := supply.now, drawn := supply.drawn } <;> rfl

theorem subnetStep_eq : subnetStep db subnet = ((change subnet).apply db).stored := by
  obtain ⟨drawn, h⟩ := SubnetService.after_create subnet.2
    { db with now := subnet.1.now, drawn := subnet.1.drawn }
  rw [subnetStep, after_run, h]
  rfl

theorem hostStep_stored : hostStep db.stored host = hostStep db host := by
  unfold hostStep
  rw [after_run, after_run]
  rfl

theorem hostStep_apply (change : SubnetChange) (hids : ∀ i ∈ host.2.interfaces, i.base.subnetId ∈ ids)
    (hs : change.Spares ids db) : hostStep (change.apply db) host = (change.apply (hostStep db host)).stored := by
  unfold hostStep
  rw [after_run, after_run]
  have hdb : change.Spares ids { db with now := host.1.now, drawn := host.1.drawn } := hs
  have hunseen : change.Unseen ids (HostService.discoverHost none host.2) := SubnetChange.unseen_discoverHost hids
  have h := hunseen.after hdb
  have hstored := congrArg Db.stored h
  exact hstored

/-- Discovering a host leaves the subnets as they are. -/
theorem hostStep_subnets : (hostStep db host).subnets = db.subnets := by
  have h := hostStep_apply (fun _ _ => db.subnets)
    (fun i (hi : i ∈ host.2.interfaces) => List.mem_map_of_mem (f := (·.base.subnetId)) hi)
    fun _ _ => rfl
  have happly : SubnetChange.apply (fun _ _ => db.subnets) db = db := rfl
  rw [happly] at h
  rw [h]
  rfl

/-- The host does not wait for the subnet: none of its interfaces is on it, or it is stored already. -/
def Independent (db : Db) (subnet : Supply × Subnet) (host : Supply × DiscoveryHostRequest) : Prop :=
  ∀ i ∈ host.2.interfaces, i.base.subnetId = (subnetOf subnet).id → (db.subnets.get i.base.subnetId).isSome = true

theorem hostStep_subnetStep (h : Independent db subnet host) :
    hostStep (subnetStep db subnet) host = subnetStep (hostStep db host) subnet := by
  rw [subnetStep_eq, subnetStep_eq, hostStep_stored]
  refine hostStep_apply (change subnet) (fun i hi => List.mem_map_of_mem (f := (·.base.subnetId)) hi) ?_
  intro id hid
  obtain ⟨i, hi, rfl⟩ := List.mem_map.mp hid
  by_cases heq : i.base.subnetId = (subnetOf subnet).id
  · have hstored := h i hi heq
    rw [heq] at hstored ⊢
    rw [change, SubnetService.created_of_stored hstored]
  · rw [change, SubnetService.get_created heq]

/-- Subnets are not removed. -/
theorem subnetStep_isSome {id : Uuid} (h : (db.subnets.get id).isSome = true) :
    ((subnetStep db subnet).subnets.get id).isSome = true := by
  rw [subnetStep_eq]
  by_cases heq : id = (subnetOf subnet).id
  · rw [heq] at h ⊢
    have hsame : ((change subnet).apply db).stored.subnets = db.subnets := SubnetService.created_of_stored h
    rw [hsame]
    exact h
  · have hsame : (((change subnet).apply db).stored.subnets.get id) = db.subnets.get id :=
      SubnetService.get_created heq
    rw [hsame]
    exact h

theorem Independent.mono {db' : Db} (h : Independent db subnet host)
    (hstored : ∀ id, (db.subnets.get id).isSome = true → (db'.subnets.get id).isSome = true) :
    Independent db' subnet host := fun i hi heq => hstored _ (h i hi heq)

/-- A host may as well be processed before the subnets it does not wait for. -/
theorem hostStep_subnets_comm (subnets : List (Supply × Subnet))
    (h : ∀ subnet ∈ subnets, Independent db subnet host) :
    hostStep (subnets.foldl subnetStep db) host = subnets.foldl subnetStep (hostStep db host) := by
  induction subnets generalizing db with
  | nil => rfl
  | cons subnet subnets ih =>
    rw [List.foldl_cons, List.foldl_cons, ← hostStep_subnetStep (h subnet List.mem_cons_self)]
    refine ih fun other hother => (h other (List.mem_cons_of_mem _ hother)).mono fun _ => subnetStep_isSome

/-! ## A batch of entities -/

/-- No entity makes the processing of the others fail. -/
theorem wp_processEach {α β : Type} {pendingId : α → Uuid} {create : α → Store β} {entities : List (Supply × α)} :
    wp (processEach pendingId create entities)
      (fun _ t => t = entities.foldl (fun db entity => after (entity.1.run (create entity.2)) db) db)
      (fun _ _ => False) db := by
  unfold processEach
  rw [wp_bind]
  refine (wp_mapM_all (I := fun _ _ rest t =>
    rest.foldl (fun db entity => after (entity.1.run (create entity.2)) db) t =
    entities.foldl (fun db entity => after (entity.1.run (create entity.2)) db) db) ?_ rfl).mono (fun _ t h => h)
    fun _ _ h => h
  intro _ _ entity rest t h
  rw [List.foldl_cons, after] at h
  rw [wp_bind, wp_attempt, wp]
  cases hrun : entity.1.run (create entity.2) t with
  | ok actual u =>
    rw [hrun] at h
    exact h
  | error e u =>
    rw [hrun] at h
    exact h

/-- **What a batch of entities leaves**: first the hosts, then the subnets. -/
theorem wp_processDiscoveryEntities {entities : SuppliedEntities} :
    wp (processDiscoveryEntities none entities)
      (fun _ t => t = entities.subnets.foldl subnetStep (entities.hosts.foldl hostStep db))
      (fun _ _ => False) db := by
  unfold processDiscoveryEntities
  rw [wp_bind]
  refine wp_processEach.mono (fun _ t ht => ?_) fun _ _ h => h
  rw [wp_bind]
  refine wp_processEach.mono (fun _ u hu => ?_) fun _ _ h => h
  rw [wp_pure, hu, ht]
  rfl

theorem after_processDiscoveryEntities {entities : SuppliedEntities} :
    after (processDiscoveryEntities none entities) db =
      entities.subnets.foldl subnetStep (entities.hosts.foldl hostStep db) :=
  wp_after.mp (wp_processDiscoveryEntities.mono (fun _ _ h => h) fun _ _ h => h.elim)

variable {daemon : Daemon}

theorem after_createHostDiscovery (db : Db) (supply : Supply) {request : DiscoveryHostRequest}
    (hown : request.host.base.networkId = daemon.networkId) :
    after (createHostDiscovery daemon supply request) db = hostStep db (supply, request) := by
  rw [← wp_after (P := fun t => t = hostStep db (supply, request))]
  unfold createHostDiscovery
  rw [if_neg (by simpa using hown), wp_bind]
  refine wp_processDiscoveryEntities.mono (fun created t ht => ?_) fun _ _ h => h.elim
  split <;> exact ht

theorem after_createSubnet (db : Db) (supply : Supply) {subnet : Subnet} (hvalid : subnet.isValid = true)
    (hown : subnet.base.networkId = daemon.networkId) :
    after (createSubnet daemon supply subnet) db = subnetStep db (supply, subnet) := by
  unfold createSubnet
  rw [if_neg (by simpa using hvalid), if_pos (by simpa using hown.symm)]
  rfl

/-- What a message does to the database where it passes its endpoint. -/
def entityStep (db : Db) : Supply × Message → Db
  | (supply, .host request) => hostStep db (supply, request)
  | (supply, .subnet subnet) => subnetStep db (supply, subnet)
  | (_, .update _) => db

/-- The second message may be processed before the first. -/
def MayPrecede (db : Db) : Supply × Message → Supply × Message → Prop
  | (supply, .subnet subnet), (supply', .host request) => Independent db (supply, subnet) (supply', request)
  | _, _ => True

theorem hostsOf_append (messages messages' : List (Supply × Message)) :
    hostsOf (messages ++ messages') = hostsOf messages ++ hostsOf messages' := List.filterMap_append

theorem subnetsOf_append (messages messages' : List (Supply × Message)) :
    subnetsOf (messages ++ messages') = subnetsOf messages ++ subnetsOf messages' := List.filterMap_append

theorem mem_subnetsOf {messages : List (Supply × Message)} {supply : Supply} {subnet : Subnet} :
    (supply, subnet) ∈ subnetsOf messages ↔ (supply, .subnet subnet) ∈ messages := by
  simp only [subnetsOf, List.mem_filterMap]
  constructor
  · rintro ⟨⟨supply', message⟩, hm, h⟩
    cases message <;> simp_all
  · exact fun h => ⟨_, h, rfl⟩

theorem foldl_hostStep_subnets {hosts : List (Supply × DiscoveryHostRequest)} :
    (hosts.foldl hostStep db).subnets = db.subnets := by
  induction hosts generalizing db with
  | nil => rfl
  | cons host hosts ih => rw [List.foldl_cons, ih, hostStep_subnets]

/-- One message after the other leaves what the batch leaves. -/
theorem foldl_entityStep {messages : List (Supply × Message)} (h : messages.Pairwise (MayPrecede db)) :
    messages.foldl entityStep db = (subnetsOf messages).foldl subnetStep ((hostsOf messages).foldl hostStep db) := by
  induction messages using List.reverseRecOn with
  | nil => rfl
  | append_singleton messages message ih =>
    rw [List.pairwise_append] at h
    obtain ⟨hmessages, -, hlast⟩ := h
    rw [List.foldl_concat, ih hmessages, hostsOf_append, subnetsOf_append]
    obtain ⟨supply, request | subnet | update⟩ := message
    · have hind : ∀ subnet ∈ subnetsOf messages,
          Independent ((hostsOf messages).foldl hostStep db) subnet (supply, request) := by
        intro subnet hsubnet
        have hfirst : Independent db subnet (supply, request) :=
          hlast _ (mem_subnetsOf.mp hsubnet) _ (List.mem_singleton_self _)
        refine hfirst.mono fun id hid => ?_
        rw [foldl_hostStep_subnets]
        exact hid
      have hcomm := hostStep_subnets_comm _ hind
      have hhosts : hostsOf [(supply, .host request)] = [(supply, request)] := rfl
      have hsubnets : subnetsOf [(supply, .host request)] = [] := rfl
      rw [hhosts, hsubnets, List.foldl_concat, List.append_nil]
      exact hcomm
    · have hhosts : hostsOf [(supply, .subnet subnet)] = [] := rfl
      have hsubnets : subnetsOf [(supply, .subnet subnet)] = [(supply, subnet)] := rfl
      rw [hhosts, hsubnets, List.foldl_concat, List.append_nil]
      rfl
    · have hhosts : hostsOf [(supply, .update update)] = [] := rfl
      have hsubnets : subnetsOf [(supply, .update update)] = [] := rfl
      rw [hhosts, hsubnets, List.append_nil, List.append_nil]
      rfl

end DaemonService

/-! ## What the updates do to the sessions -/

namespace DiscoveryService

/-- The service without what it sent. -/
def stored (s : DiscoveryService) : DiscoveryService := { s with events := [], updates := [] }

/-- `update_session` with nothing between its sections. -/
def updateStep (s : DiscoveryService) (update : Supply × DiscoveryUpdatePayload) : DiscoveryService :=
  match s.updateSession update.2 update.1.now with
  | (s, none) => s
  | (s, some finishing) => s.finishUpdate finishing update.1.now update.1.saved

/-- The update is not one of a session that is over. -/
def applies (s : DiscoveryService) (update : DiscoveryUpdatePayload) : Bool :=
  (s.getSession update.sessionId).isSome || !(update.phase.isTerminal && (s.lastUpdated update.sessionId).isSome)

variable {s : DiscoveryService} {update later : Supply × DiscoveryUpdatePayload} {f : Finishing} {now : DateTime}
  {saved : Option Uuid}

theorem stored_finishUpdate :
    (s.finishUpdate f now saved).stored = (s.finishSession f.session now saved).1.stored := by
  unfold finishUpdate
  split
  · next h => rw [h]; rfl
  · next h => rw [h]

theorem stored_createHistorical {session : DiscoveryUpdatePayload} {name : String} :
    s.stored.createHistorical session name now saved = (s.createHistorical session name now saved).stored := by
  unfold createHistorical
  split <;> rfl

theorem stored_advanceQueue {daemonId : Uuid} :
    (s.stored.advanceQueue daemonId).1 = (s.advanceQueue daemonId).1.stored := by
  have hqueue : s.stored.queue daemonId = s.queue daemonId := rfl
  unfold advanceQueue
  rw [hqueue]
  split <;> rfl

theorem stored_finishSession {session : DiscoveryUpdatePayload} :
    (s.stored.finishSession session now saved).1 = (s.finishSession session now saved).1.stored := by
  unfold finishSession
  have hclear : s.stored.clearCancellation session.daemonId = (s.clearCancellation session.daemonId).stored := rfl
  have hdequeue (s : DiscoveryService) : s.stored.dequeue session.daemonId session.sessionId =
      (s.dequeue session.daemonId session.sessionId).stored := rfl
  dsimp only
  rw [hclear, stored_createHistorical, hdequeue, stored_advanceQueue]
  rfl

/-- Finishing an update does the same to what is stored whatever was sent before. -/
theorem finishUpdate_congr {t : DiscoveryService} {g : Finishing} (h : s.stored = t.stored)
    (hf : f.session = g.session) :
    (s.finishUpdate f now saved).stored = (t.finishUpdate g now saved).stored := by
  rw [stored_finishUpdate, stored_finishUpdate, ← stored_finishSession, ← stored_finishSession, h, hf]

theorem stored_applyUpdate {update old : DiscoveryUpdatePayload} :
    (s.stored.applyUpdate update old).1.stored = (s.applyUpdate update old).1.stored ∧
      (s.stored.applyUpdate update old).2 = (s.applyUpdate update old).2 := by
  unfold applyUpdate
  split <;> exact ⟨rfl, rfl⟩

theorem stored_updateSession (s : DiscoveryService) (update : DiscoveryUpdatePayload) (now : DateTime) :
    (s.stored.updateSession update now).1.stored = (s.updateSession update now).1.stored ∧
      (s.stored.updateSession update now).2 = (s.updateSession update now).2 := by
  have hsession : (s.stored.touch update.sessionId now).getSession update.sessionId = s.getSession update.sessionId :=
    rfl
  have hsession' : (s.touch update.sessionId now).getSession update.sessionId = s.getSession update.sessionId := rfl
  have hseen : s.stored.lastUpdated update.sessionId = s.lastUpdated update.sessionId := rfl
  unfold updateSession
  dsimp only
  rw [hsession, hsession', hseen]
  cases s.getSession update.sessionId with
  | some old => exact stored_applyUpdate (s := s.touch update.sessionId now)
  | none =>
    dsimp only
    split
    · exact ⟨rfl, rfl⟩
    · exact stored_applyUpdate
        (s := ((s.touch update.sessionId now).enqueue update.daemonId update.sessionId).setSession update)

/-- What an update stores does not depend on what was sent before. -/
theorem updateStep_congr {t : DiscoveryService} (h : s.stored = t.stored) :
    (s.updateStep update).stored = (t.updateStep update).stored := by
  have hs := stored_updateSession s update.2 update.1.now
  have ht := stored_updateSession t update.2 update.1.now
  rw [h] at hs
  have h1 : (s.updateSession update.2 update.1.now).1.stored = (t.updateSession update.2 update.1.now).1.stored :=
    hs.1.symm.trans ht.1
  have h2 : (s.updateSession update.2 update.1.now).2 = (t.updateSession update.2 update.1.now).2 :=
    hs.2.symm.trans ht.2
  unfold updateStep
  generalize s.updateSession update.2 update.1.now = p at h1 h2
  generalize t.updateSession update.2 update.1.now = q at h1 h2
  obtain ⟨s1, f⟩ := p
  obtain ⟨t1, g⟩ := q
  obtain rfl : f = g := h2
  cases f with
  | none => exact h1
  | some f => exact finishUpdate_congr h1 rfl

/-! ## Updates that a later one replaces -/

/-- A session that is stored, or begins with the update. -/
def opened (s : DiscoveryService) (update : DiscoveryUpdatePayload) (now : DateTime) : DiscoveryService :=
  let s := s.touch update.sessionId now
  match s.getSession update.sessionId with
  | some _ => s
  | none => (s.enqueue update.daemonId update.sessionId).setSession update

theorem updateSession_of_applies (now : DateTime) {update : DiscoveryUpdatePayload} (h : s.applies update = true) :
    ∃ old, s.updateSession update now = (s.opened update now).applyUpdate update old := by
  have hsession : (s.touch update.sessionId now).getSession update.sessionId = s.getSession update.sessionId := rfl
  unfold updateSession opened
  dsimp only
  rw [hsession]
  unfold applies at h
  cases hs : s.getSession update.sessionId with
  | some old => exact ⟨old, rfl⟩
  | none =>
    rw [hs] at h
    dsimp only
    have hnew : (update.phase.isTerminal && (s.lastUpdated update.sessionId).isSome) = false :=
      (Bool.not_eq_true' _).mp h
    rw [hnew]
    exact ⟨update, rfl⟩

/-- What an update stores. -/
theorem stored_updateStep (h : s.applies update.2 = true) : (s.updateStep update).stored =
    let t := (s.opened update.2 update.1.now).setSession update.2
    if update.2.phase.isTerminal then
        (t.finishSession update.2 update.1.now update.1.saved).1.stored else t.stored := by
  obtain ⟨old, hold⟩ := updateSession_of_applies update.1.now h
  unfold updateStep
  rw [hold]
  unfold applyUpdate
  cases update.2.phase.isTerminal with
  | true =>
    dsimp only
    rw [if_pos rfl, ← stored_finishSession]
    exact stored_finishUpdate.trans stored_finishSession.symm
  | false => rfl

theorem opened_of_getSession {update old : DiscoveryUpdatePayload} (h : s.getSession update.sessionId = some old) :
    s.opened update now = s.touch update.sessionId now := by
  have hsession : (s.touch update.sessionId now).getSession update.sessionId = some old := h
  unfold opened
  dsimp only
  rw [hsession]

theorem stored_opened {update : DiscoveryUpdatePayload} :
    s.stored.opened update now = (s.opened update now).stored := by
  have hsession : (s.stored.touch update.sessionId now).getSession update.sessionId = s.getSession update.sessionId :=
    rfl
  have hsession' : (s.touch update.sessionId now).getSession update.sessionId = s.getSession update.sessionId := rfl
  unfold opened
  dsimp only
  rw [hsession, hsession']
  cases s.getSession update.sessionId <;> rfl

/-- Opening and storing twice is opening and storing the second time. -/
theorem opened_twice {update later : DiscoveryUpdatePayload} {now now' : DateTime}
    (hsession : update.sessionId = later.sessionId) (hdaemon : update.daemonId = later.daemonId) :
    ((((s.opened update now).setSession update).opened later now').setSession later) =
      (s.opened later now').setSession later := by
  have hstored : ((s.opened update now).setSession update).getSession later.sessionId = some update := by
    rw [← hsession]
    exact AList.lookup_insert _
  have hfirst : (s.touch update.sessionId now).getSession update.sessionId = s.getSession later.sessionId := by
    rw [hsession]
    rfl
  have hlater : (s.touch later.sessionId now').getSession later.sessionId = s.getSession later.sessionId := rfl
  rw [opened_of_getSession hstored]
  unfold opened
  dsimp only
  rw [hfirst, hlater]
  cases s.getSession later.sessionId with
  | some old => simp only [setSession, touch, hsession, AList.insert_insert]
  | none => simp only [setSession, touch, enqueue, queue, hsession, hdaemon, AList.insert_insert]

/-- An update that the next one replaces leaves nothing behind. -/
theorem updateStep_replaced (happlies : s.applies later.2 = true) (hphase : update.2.phase.isTerminal = false)
    (hsession : update.2.sessionId = later.2.sessionId) (hdaemon : update.2.daemonId = later.2.daemonId) :
    (s.updateStep update).applies later.2 = true ∧
      ((s.updateStep update).updateStep later).stored = (s.updateStep later).stored := by
  have hfirst : s.applies update.2 = true := by simp [applies, hphase]
  have hstored : (s.updateStep update).stored = ((s.opened update.2 update.1.now).setSession update.2).stored := by
    rw [stored_updateStep hfirst, hphase]
    rfl
  have hlookup : (s.updateStep update).getSession later.2.sessionId = some update.2 := by
    have h : (s.updateStep update).stored.getSession later.2.sessionId = some update.2 := by
      rw [hstored, ← hsession]
      exact AList.lookup_insert _
    exact h
  have happlies' : (s.updateStep update).applies later.2 = true := by simp [applies, hlookup]
  refine ⟨happlies', ?_⟩
  have hsame : (((s.updateStep update).opened later.2 later.1.now).setSession later.2).stored =
      ((s.opened later.2 later.1.now).setSession later.2).stored := by
    have hset (t : DiscoveryService) : (t.setSession later.2).stored = (t.stored.setSession later.2) := rfl
    rw [hset, ← stored_opened, hstored, stored_opened, ← hset, opened_twice hsession hdaemon]
  rw [stored_updateStep happlies', stored_updateStep happlies]
  dsimp only
  split
  · rw [← stored_finishSession, hsame, stored_finishSession]
  · exact hsame

theorem foldl_updateStep_congr {updates : List (Supply × DiscoveryUpdatePayload)} {t : DiscoveryService}
    (h : s.stored = t.stored) : (updates.foldl updateStep s).stored = (updates.foldl updateStep t).stored := by
  induction updates generalizing s t with
  | nil => exact h
  | cons update updates ih => exact ih (updateStep_congr h)

/-- Of updates that the last one replaces, only the last counts. -/
theorem foldl_updateStep_replaced {updates : List (Supply × DiscoveryUpdatePayload)}
    (h : ∀ update ∈ updates, s.applies later.2 = true ∧ update.2.phase.isTerminal = false ∧
      update.2.sessionId = later.2.sessionId ∧ update.2.daemonId = later.2.daemonId) :
    ((updates ++ [later]).foldl updateStep s).stored = (s.updateStep later).stored := by
  induction updates generalizing s with
  | nil => rfl
  | cons update updates ih =>
    obtain ⟨happlies, hphase, hsession, hdaemon⟩ := h update List.mem_cons_self
    obtain ⟨hnext, hsame⟩ := updateStep_replaced happlies hphase hsession hdaemon
    rw [List.cons_append, List.foldl_cons, ← hsame]
    exact ih fun other hother => ⟨hnext, (h other (List.mem_cons_of_mem _ hother)).2⟩

/-- Only an update that applies is announced, as it came. -/
theorem updateSession_finishing {update : DiscoveryUpdatePayload} (h : (s.updateSession update now).2 = some f) :
    f.session = update ∧ s.applies update = true := by
  cases happlies : s.applies update with
  | true =>
    obtain ⟨old, hold⟩ := updateSession_of_applies now happlies
    rw [hold] at h
    unfold applyUpdate at h
    dsimp only at h
    split at h
    · exact ⟨congrArg Finishing.session (Option.some.inj h).symm, rfl⟩
    · cases h
  | false =>
    simp only [applies, Bool.or_eq_false_iff, Bool.not_eq_false'] at happlies
    have hsession : (s.touch update.sessionId now).getSession update.sessionId = none :=
      Option.isSome_eq_false_iff.mp happlies.1 |> Option.isNone_iff_eq_none.mp
    unfold updateSession at h
    dsimp only at h
    rw [hsession, happlies.2] at h
    cases h

end DiscoveryService

namespace DaemonService

variable (parseMac : String → Option MacAddress) {registry : Registry} {daemon : Daemon}

/-- The endpoint of the message lets it pass. -/
def accepts (daemon : Daemon) : Message → Bool
  | .host request => request.host.base.networkId == daemon.networkId
  | .subnet subnet => subnet.isValid && subnet.base.networkId == daemon.networkId
  | .update update => update.networkId == daemon.networkId && update.daemonId == daemon.id

/-- Where its event changes nothing, an update changes the sessions only. -/
theorem processDiscoveryProgress_eq {s : Server} (supply : Supply) {update : DiscoveryUpdatePayload}
    (hquiet : s.discovery.applies update = true →
      after (HostService.onPublished parseMac registry update) s.db = s.db) :
    processDiscoveryProgress parseMac registry supply update s =
      { s with discovery := s.discovery.updateStep (supply, update) } := by
  unfold processDiscoveryProgress DiscoveryService.updateStep
  cases h : s.discovery.updateSession update supply.now with
  | mk discovery finishing =>
    cases finishing with
    | none => rfl
    | some finishing =>
      obtain ⟨hsession, happlies⟩ := DiscoveryService.updateSession_finishing (congrArg Prod.snd h)
      dsimp only
      rw [hsession, hquiet happlies]

/-- Messages that pass, one after the other in DaemonPoll mode. -/
theorem foldl_receive (hmode : registry.daemons daemon.id = .ok (some { daemon with mode := .daemonPoll }))
    {messages : List (Supply × Message)} {s : Server} (haccepts : ∀ message ∈ messages,
      accepts daemon message.2 = true) :
    messages.foldl (receive parseMac registry daemon) s =
      { db := messages.foldl entityStep s.db
        discovery := (updatesOf messages).foldl DiscoveryService.updateStep s.discovery } := by
  induction messages generalizing s with
  | nil => rfl
  | cons message messages ih =>
    rw [List.foldl_cons, ih fun m hm => haccepts m (List.mem_cons_of_mem _ hm)]
    have haccept := haccepts message List.mem_cons_self
    obtain ⟨supply, request | subnet | update⟩ := message
    · have hdb := after_createHostDiscovery s.db supply (eq_of_beq haccept)
      simp only [receive, hdb]
      rfl
    · rw [accepts, Bool.and_eq_true] at haccept
      have hdb := after_createSubnet s.db supply haccept.1 (eq_of_beq haccept.2)
      simp only [receive, hdb]
      rfl
    · rw [accepts, Bool.and_eq_true] at haccept
      obtain ⟨hnetwork, hdaemon⟩ := haccept
      have hd := hmode
      rw [← eq_of_beq hdaemon] at hd
      have hprogress := processDiscoveryProgress_eq (s := s) parseMac supply
        fun _ => HostService.onPublished_of_daemonPoll parseMac hd rfl
      have hreceive : receive parseMac registry daemon s (supply, .update update) =
          { s with discovery := s.discovery.updateStep (supply, update) } := by
        have hne : (update.networkId != daemon.networkId) = false := by simpa using hnetwork
        have hne' : (update.daemonId != daemon.id) = false := by simpa using hdaemon
        simp only [receive, receiveDiscoveryUpdate, hne, hne', hprogress]
        rfl
      rw [hreceive]
      rfl

theorem processPollResponse_eq {messages : List (Supply × Message)} {s t : Server}
    (hprogress : processProgress parseMac registry (updatesOf messages).getLast? s = t) :
    processPollResponse parseMac registry (response messages) s =
      { t with db := (subnetsOf messages).foldl subnetStep ((hostsOf messages).foldl hostStep t.db) } := by
  unfold processPollResponse
  have hresponse : (response messages).progress = (updatesOf messages).getLast? := rfl
  rw [hresponse, hprogress]
  dsimp only
  split
  · next hempty =>
    simp only [SuppliedEntities.isEmpty, Bool.and_eq_true, List.isEmpty_iff, response] at hempty
    rw [hempty.1, hempty.2]
    rfl
  · rw [after_processDiscoveryEntities]
    rfl

/-! ## The two modes -/

/-- One server for each mode, given the same messages. -/
structure Modes where
  byEndpoint : Server
  byPoll : Server

/-- A batch of messages: sent one by one to the endpoints of the one server,
and answered to a poll of the other. -/
def step (asked polled : Registry) (daemon : Daemon) (m : Modes) (messages : List (Supply × Message)) :
    Option Modes :=
  some
    { byEndpoint := messages.foldl (receive parseMac asked daemon) m.byEndpoint
      byPoll := processPollResponse parseMac polled (response messages) m.byPoll }

/-- The same rows, and the same sessions. -/
def Modes.Agree (m : Modes) : Prop :=
  m.byEndpoint.db = m.byPoll.db ∧ m.byEndpoint.discovery.stored = m.byPoll.discovery.stored

/-- The batch reports the end of a session. -/
def completes (s : Server) (messages : List (Supply × Message)) : Bool :=
  match (updatesOf messages).getLast? with
  | some (_, update) => update.phase == .complete && s.discovery.applies update
  | none => false

/-- A batch that a poll may rearrange: its messages pass their endpoints, no
host waits for a subnet of the batch, the last update replaces the others, and
when it ends a session all is resolved and no host is to come. -/
structure Orderly (daemon : Daemon) (s : Server) (messages : List (Supply × Message)) : Prop where
  accepted : ∀ message ∈ messages, accepts daemon message.2 = true
  ordered : messages.Pairwise (MayPrecede s.db)
  replaced : ∀ last ∈ (updatesOf messages).getLast?, ∀ update ∈ (updatesOf messages).dropLast,
    s.discovery.applies last.2 = true ∧ update.2.phase.isTerminal = false ∧ update.2.sessionId = last.2.sessionId
  resolved : completes s messages = true → hostsOf messages = [] ∧ HostService.Resolved parseMac s.db daemon.networkId

instance {db : Db} : DecidableRel (MayPrecede db)
  | (_, .subnet _), (_, .host _) => inferInstanceAs (Decidable (∀ _ ∈ _, _))
  | (_, .host _), _ => .isTrue trivial
  | (_, .update _), _ => .isTrue trivial
  | (_, .subnet _), (_, .subnet _) => .isTrue trivial
  | (_, .subnet _), (_, .update _) => .isTrue trivial

instance (daemon : Daemon) (s : Server) (messages : List (Supply × Message)) :
    Decidable (Orderly parseMac daemon s messages) :=
  decidable_of_iff
    ((∀ message ∈ messages, accepts daemon message.2 = true) ∧ messages.Pairwise (MayPrecede s.db) ∧
      (∀ last ∈ (updatesOf messages).getLast?, ∀ update ∈ (updatesOf messages).dropLast,
        s.discovery.applies last.2 = true ∧ update.2.phase.isTerminal = false ∧
          update.2.sessionId = last.2.sessionId) ∧
      (completes s messages = true →
        hostsOf messages = [] ∧ HostService.Resolved parseMac s.db daemon.networkId))
    ⟨fun ⟨h1, h2, h3, h4⟩ => ⟨h1, h2, h3, h4⟩, fun ⟨h1, h2, h3, h4⟩ => ⟨h1, h2, h3, h4⟩⟩

/-- After the batch the modes agree, and if it ended a session nothing is left to resolve. -/
def Settled (daemon : Daemon) (m : Modes) (messages : List (Supply × Message)) (t : Modes) : Prop :=
  t.Agree ∧ (completes m.byPoll messages = true →
    HostService.Resolved parseMac t.byEndpoint.db daemon.networkId ∧
      HostService.Resolved parseMac t.byPoll.db daemon.networkId)

variable {parseMac} {asked polled : Registry} {m t : Modes} {messages : List (Supply × Message)}

theorem mem_updatesOf {supply : Supply} {update : DiscoveryUpdatePayload} :
    (supply, update) ∈ updatesOf messages ↔ (supply, .update update) ∈ messages := by
  simp only [updatesOf, List.mem_filterMap]
  constructor
  · rintro ⟨⟨supply', message⟩, hm, h⟩
    cases message <;> simp_all
  · exact fun h => ⟨_, h, rfl⟩

theorem Orderly.own {s : Server} (h : Orderly parseMac daemon s messages) {update : Supply × DiscoveryUpdatePayload}
    (hu : update ∈ updatesOf messages) : update.2.networkId = daemon.networkId ∧ update.2.daemonId = daemon.id := by
  have haccepts := h.accepted _ (mem_updatesOf.mp hu)
  simpa [accepts] using haccepts

/-- The update of an answer changes the sessions only. -/
theorem Orderly.processProgress_eq {s : Server} (h : Orderly parseMac daemon s messages)
    (hpolled : polled.daemons daemon.id = .ok (some { daemon with mode := .serverPoll })) :
    processProgress parseMac polled (updatesOf messages).getLast? s =
      { s with discovery :=
        ((updatesOf messages).getLast?.toList).foldl DiscoveryService.updateStep s.discovery } := by
  unfold processProgress
  cases hlast : (updatesOf messages).getLast? with
  | none => rfl
  | some last =>
    obtain ⟨hnetwork, hdaemon⟩ := h.own (List.mem_of_getLast? hlast)
    have hd := hpolled
    rw [← hdaemon] at hd
    refine processDiscoveryProgress_eq parseMac _ fun happlies =>
      HostService.onPublished_of_resolved parseMac hd fun hphase => ?_
    have hcompletes : completes s messages = true := by simp [completes, hlast, hphase, happlies]
    rw [hnetwork]
    exact (h.resolved hcompletes).2

/-- Of the updates of the batch only the last counts. -/
theorem Orderly.updates {s : Server} (h : Orderly parseMac daemon s messages) :
    ((updatesOf messages).foldl DiscoveryService.updateStep s.discovery).stored =
      (((updatesOf messages).getLast?.toList).foldl DiscoveryService.updateStep s.discovery).stored := by
  rcases List.eq_nil_or_concat (updatesOf messages) with hnil | ⟨updates, last, hupdates⟩
  · rw [hnil]
    rfl
  · rw [List.concat_eq_append] at hupdates
    rw [hupdates, List.getLast?_concat]
    refine DiscoveryService.foldl_updateStep_replaced fun update hu => ?_
    have hlast : last ∈ (updatesOf messages).getLast? := by rw [hupdates, List.getLast?_concat]; rfl
    have hearlier : update ∈ (updatesOf messages).dropLast := by rw [hupdates, List.dropLast_concat]; exact hu
    obtain ⟨happlies, hphase, hsession⟩ := h.replaced last hlast update hearlier
    refine ⟨happlies, hphase, hsession, ?_⟩
    rw [(h.own (List.dropLast_subset _ hearlier)).2, (h.own (List.mem_of_getLast? hlast)).2]

/-- Subnets resolve nothing. -/
theorem resolved_foldl_subnetStep {networkId : Uuid} (subnets : List (Supply × Subnet)) {db : Db}
    (h : HostService.Resolved parseMac db networkId) :
    HostService.Resolved parseMac (subnets.foldl subnetStep db) networkId := by
  induction subnets generalizing db with
  | nil => exact h
  | cons subnet subnets ih =>
    refine ih ?_
    rw [subnetStep_eq]
    exact h

/-- **One batch**: from modes that agree, an orderly batch leaves modes that agree. -/
theorem settled_of_orderly (hasked : asked.daemons daemon.id = .ok (some { daemon with mode := .daemonPoll }))
    (hpolled : polled.daemons daemon.id = .ok (some { daemon with mode := .serverPoll })) (hm : m.Agree)
    (h : Orderly parseMac daemon m.byPoll messages) (ht : step parseMac asked polled daemon m messages = some t) :
    Settled parseMac daemon m messages t := by
  obtain rfl := Option.some.inj ht
  obtain ⟨hdb, hdiscovery⟩ := hm
  have hpoll := processPollResponse_eq parseMac (h.processProgress_eq hpolled)
  have hendpoint := foldl_receive parseMac hasked (s := m.byEndpoint) h.accepted
  have hsame : messages.foldl entityStep m.byEndpoint.db =
      (subnetsOf messages).foldl subnetStep ((hostsOf messages).foldl hostStep m.byPoll.db) := by
    rw [hdb]
    exact foldl_entityStep h.ordered
  refine ⟨⟨?_, ?_⟩, fun hcompletes => ?_⟩
  · rw [hpoll, hendpoint]
    exact hsame
  · rw [hpoll, hendpoint]
    exact (DiscoveryService.foldl_updateStep_congr hdiscovery).trans h.updates
  · obtain ⟨hhosts, hresolved⟩ := h.resolved hcompletes
    rw [hpoll, hendpoint]
    rw [hhosts] at hsame ⊢
    have hleft := resolved_foldl_subnetStep (subnetsOf messages) hresolved
    refine ⟨?_, hleft⟩
    dsimp only
    rw [hsame]
    exact hleft

/-- **The modes agree along every run of orderly batches**: after each of them
the servers hold the same rows and the same sessions, and after one that ends a
session nothing is left to resolve in either. -/
theorem modes_agree (hasked : asked.daemons daemon.id = .ok (some { daemon with mode := .daemonPoll }))
    (hpolled : polled.daemons daemon.id = .ok (some { daemon with mode := .serverPoll })) (hm : m.Agree)
    {batches : List (List (Supply × Message))}
    (h : Transition.Along (step parseMac asked polled daemon)
      (fun m messages => Orderly parseMac daemon m.byPoll messages) m batches) :
    Transition.Every (step parseMac asked polled daemon) (Settled parseMac daemon) m batches :=
  Transition.Along.every (fun _ _ _ hm hok ht => (settled_of_orderly hasked hpolled hm hok ht).1)
    (fun _ _ _ hm hok ht => settled_of_orderly hasked hpolled hm hok ht) hm h

/-! ## Runs -/

/-- A registry with one daemon, in the given mode. -/
def alone (daemon : Daemon) (mode : DaemonMode) : Registry where
  daemons id := .ok (if id == daemon.id then some { daemon with mode } else none)
  apiKeys _ := .ok none

def scanner : Daemon where
  id := 7
  networkId := 1
  mode := .serverPoll

def progress (sessionId : Uuid) (phase : DiscoveryPhase) : Message :=
  .update { DiscoveryUpdatePayload.new sessionId scanner.id scanner.networkId (.selfReport 9) with phase }

def lan : Subnet where
  id := 20
  base := { cidr := ⟨.v4 0x0A000000#32, 24⟩, networkId := 1, name := "lan" }

/-- A host with one interface on the subnet. -/
def reported (hostId interfaceId subnetId : Uuid) : DiscoveryHostRequest where
  host := { id := hostId, base := { networkId := 1 } }
  interfaces := [{ id := interfaceId, base := { networkId := 1, subnetId, ipAddress := .v4 0x0A000005#32 } }]

def oneNetwork : Server where
  db := { networks := [1] }

/-- A subnet and a session of two reports, then a host on the subnet, then the end of the session. -/
def orderlyBatches : List (List (Supply × Message)) :=
  [[({ now := 1 }, progress 50 .started), ({ now := 2 }, .subnet lan), ({ now := 3 }, progress 50 .scanning)],
   [({ now := 4 }, .host (reported 10 11 20))],
   [({ now := 5, saved := some 60 }, progress 50 .complete)]]

theorem modes_agree_orderly :
    Transition.Every (step (fun _ => none) (alone scanner .daemonPoll) (alone scanner .serverPoll) scanner)
      (Settled (fun _ => none) scanner) ⟨oneNetwork, oneNetwork⟩ orderlyBatches := by
  refine modes_agree rfl rfl ⟨rfl, rfl⟩ ?_
  decide +kernel

/-- A port that heard from a neighbor named `switch`, on a network where a host is known by that name. -/
def neighborPort : IfEntry where
  id := 40
  base := { hostId := 10, networkId := 1, cdpDeviceId := some "switch" }

def withSwitch : Db where
  networks := [1]
  hosts := { rows := [{ id := 10, base := { networkId := 1 } },
    { id := 12, base := { networkId := 1, chassisId := some "switch" } }]
             nodup := by decide }

def heard : Server where
  db := { withSwitch with ifEntries := { rows := [neighborPort], nodup := by decide } }

/-- **Neighbors in one mode only**: when the session ends, the port that is
stored is resolved in ServerPoll mode and not in DaemonPoll mode; and a port
that comes in the poll that reports the end is not resolved in either. -/
theorem modes_disagree :
    ¬ Transition.Every (step (fun _ => none) (alone scanner .daemonPoll) (alone scanner .serverPoll) scanner)
      (Settled (fun _ => none) scanner) ⟨heard, heard⟩ [[({}, progress 50 .complete)]] ∧
    ¬ Transition.Every (step (fun _ => none) (alone scanner .daemonPoll) (alone scanner .serverPoll) scanner)
      (Settled (fun _ => none) scanner) ⟨{ db := withSwitch }, { db := withSwitch }⟩
      [[({}, .host { host := { id := 10, base := { networkId := 1 } }, ifEntries := [neighborPort] }),
        ({}, progress 50 .complete)]] := by
  constructor
  · intro h
    have hneighbors := congrArg (fun db : Db => db.ifEntries.rows.map (·.base.neighbor)) h.1.1.1
    revert hneighbors
    decide +kernel
  · intro h
    have hresolved := (h.1.2 (by decide +kernel)).2
    revert hresolved
    decide +kernel

end DaemonService

end Netvisor
