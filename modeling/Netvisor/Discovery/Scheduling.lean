/-
Discoveries and the jobs that run them on schedule: the endpoints that create,
update, delete and start discoveries, the service's own create and update, the
enforcement of plans, and the start of the scheduler.

The endpoints that create, update and delete go through the generic service,
and so does plan enforcement; only what the service creates or updates itself
has to do with jobs. A started session is queued, which is all that is kept of
it here.
-/
import Netvisor.Discovery.Handlers
import Netvisor.Users.Handlers

namespace Netvisor

open Program (after)

class CronRules where
  /-- Why the scheduler refuses a cron expression. -/
  refuses : String → Option String

/-- The feature `scheduled_discovery` of a plan. -/
def BillingPlan.scheduledDiscovery : BillingPlan → Bool
  | .free => false
  | .community | .starter | .pro | .team | .business | .enterprise | .demo | .commercialSelfHosted => true

namespace Discovery

/-- The flag is set to false in a copy that is dropped. -/
def disable (discovery : Discovery) : Discovery := discovery

/-- The time of the run is set in a copy that is dropped. -/
def recordRun (discovery : Discovery) (_now : DateTime) : Discovery := discovery

def isEnabled (discovery : Discovery) : Bool :=
  match discovery.base.runType with
  | .scheduled _ _ enabled => enabled
  | _ => false

/-- The cron expression a job is wanted for: the run type is scheduled and enabled, and the scheduler accepts it. -/
def wants [CronRules] (discovery : Discovery) : Option String :=
  match discovery.base.runType with
  | .scheduled cronSchedule _ true => if (CronRules.refuses cronSchedule).isNone then some cronSchedule else none
  | _ => none

/-- A scheduled discovery is made ad hoc. -/
def unscheduled (discovery : Discovery) : Discovery :=
  match discovery.base.runType with
  | .scheduled _ lastRun _ => { discovery with base.runType := .adHoc lastRun }
  | _ => discovery

@[simp] theorem unscheduled_id (discovery : Discovery) : discovery.unscheduled.id = discovery.id := by
  unfold unscheduled
  split <;> rfl

end Discovery

/-- A job of the scheduler. -/
structure Job where
  id : Nat
  cronSchedule : String
  /-- The copy of the discovery that the job starts. -/
  discovery : Discovery
deriving DecidableEq, Repr

structure DiscoveryServer where
  tables : Tables := {}
  discoveries : Table Discovery Discovery.id := {}
  jobs : List Job := []
  jobIds : Assoc Uuid Nat := ∅
  /-- How many jobs were added so far. -/
  added : Nat := 0
  /-- The discoveries that could not be scheduled in the last step. -/
  failed : List Uuid := []
  /-- The sessions that were started, newest first. -/
  queued : List DiscoveryUpdatePayload := []
  now : DateTime := 0

abbrev DiscoveryStore := EStateM ApiError DiscoveryServer

namespace DiscoveryServer

variable (s : DiscoveryServer)

/-- The network and the daemon of the discovery are stored. -/
def references (discovery : Discovery) : Bool :=
  (s.tables.accounts.networks.get discovery.base.networkId).isSome &&
  (s.tables.daemons.get discovery.base.daemonId).isSome

/-- What a new discovery is stored as. -/
def newRow (body : Discovery) (drawn : Uuid) : Discovery :=
  if body.id == Uuid.nil then { id := drawn, createdAt := s.now, updatedAt := s.now, base := body.base } else body

/-- `start_session`. -/
def startSession (discovery : Discovery) (sessionId : Uuid) : DiscoveryServer :=
  let snmpCredentials := s.tables.buildCredentialsForDiscovery discovery.base.networkId
  { s with queued := DiscoveryService.sessionPayload discovery sessionId snmpCredentials :: s.queued }

/-- The server as the endpoint to start sessions sees it. -/
def sessionServer : SessionServer where
  tables := s.tables
  sessions := { service := { discoveries := s.discoveries.rows }, now := s.now }

/-! ## Jobs -/

def addJob (cronSchedule : String) (discovery : Discovery) : DiscoveryServer :=
  { s with
    jobs := s.jobs ++ [{ id := s.added, cronSchedule, discovery }]
    jobIds := s.jobIds.insert discovery.id s.added
    added := s.added + 1 }

/-- Remove the job that was last added for the discovery. -/
def removeJob (discoveryId : Uuid) : DiscoveryServer :=
  match s.jobIds.lookup discoveryId with
  | some jobId => { s with jobs := s.jobs.filter fun j => j.id != jobId, jobIds := s.jobIds.erase discoveryId }
  | none => s

def scheduleDiscovery [CronRules] (discovery : Discovery) : Except String DiscoveryServer :=
  match discovery.base.runType with
  | .scheduled cronSchedule _ enabled =>
    if !enabled then .error "Discovery is not enabled"
    else
      match CronRules.refuses cronSchedule with
      | some e => .error e
      | none => .ok (s.addJob cronSchedule discovery)
  | .historical _ | .adHoc _ => .error "Discovery is not scheduled"

end DiscoveryServer

/-! ## The service -/

namespace DiscoveryStore

def insertRow (discovery : Discovery) : DiscoveryStore Unit := do
  let s ← get
  let discoveries ← runStatement (insertInto "discovery" s.discoveries [] (s.references discovery) discovery)
  set { s with discoveries }

def updateRow (discovery : Discovery) : DiscoveryStore Unit := do
  let s ← get
  let discoveries ← runStatement (updateIn "discovery" s.discoveries [] (s.references discovery) discovery)
  set { s with discoveries }

/-- What cannot be scheduled is disabled and saved. -/
def scheduleOrDisable [CronRules] (discovery : Discovery) : DiscoveryStore Unit := do
  match (← get).scheduleDiscovery discovery with
  | .ok s => set s
  | .error _ =>
    modify fun s => { s with failed := discovery.id :: s.failed }
    updateRow discovery.disable

variable [CronRules]

/-- `DiscoveryService::create_discovery`. -/
def createDiscovery (body : Discovery) (drawn : Uuid) : DiscoveryStore Discovery := do
  let discovery := (← get).newRow body drawn
  insertRow discovery
  match discovery.base.runType with
  | .scheduled .. => scheduleOrDisable discovery
  | .historical _ | .adHoc _ => pure ()
  return discovery

/-- `DiscoveryService::update_discovery`. Where the schedule has changed, it
waits to write the jobs while it still holds them to read; here it comes through. -/
def updateDiscovery (discovery : Discovery) : DiscoveryStore Unit := do
  match (← get).discoveries.get discovery.id with
  | none => throw (.internalError ("Could not find discovery " ++ toString discovery))
  | some current =>
    match discovery.base.runType, current.base.runType with
    | .scheduled newCron _ _, .scheduled currentCron _ _ =>
      if currentCron != newCron then
        modify fun s => s.removeJob discovery.id
        updateRow discovery
        scheduleOrDisable discovery
      else updateRow discovery
    | _, _ => updateRow discovery

/-- `start_scheduler`; what goes wrong as a discovery is disabled is ignored. -/
def startScheduler : DiscoveryStore Unit := do
  modify fun s => { s with jobIds := ∅ }
  ((← get).discoveries.rows.filter Discovery.isEnabled).forM fun discovery => do
    let _ ← Program.attempt (scheduleOrDisable discovery)

end DiscoveryStore

/-! ## Checks -/

section Checks

variable (entity : AuthenticatedEntity)

def validateNetworkAccess (networkId : Uuid) : Except ApiError Unit :=
  if entity.networkIds.contains networkId then .ok () else .error (.entityAccessDenied "Network" networkId)

/-- The extractor of the endpoints, and that there is an organization. -/
def requireMember : Except ApiError Unit :=
  match PermissionRequirement.member.authorized entity, entity.organizationId with
  | some e, _ => .error e
  | none, none => .error .organizationRequired
  | none, some _ => .ok ()

namespace DiscoveryServer

variable (s : DiscoveryServer)

/-- The organization has a plan, which lacks the feature. -/
def lacksScheduledDiscovery : Bool :=
  ((entity.organizationId.bind s.tables.accounts.organizations.get).bind (·.plan)).any fun plan =>
  !plan.scheduledDiscovery

def checkRunType (discovery : Discovery) : Except ApiError Unit :=
  match discovery.base.runType with
  | .historical _ => .error .discoveryHistoricalReadOnly
  | .scheduled .. =>
    if s.lacksScheduledDiscovery entity then .error (.coded 403 (.billingFeatureNotAvailable "Scheduled Discovery"))
    else .ok ()
  | .adHoc _ => .ok ()

/-- The subnets of the discovery that are stored are those of its network. -/
def checkSubnets (discovery : Discovery) : Except ApiError Unit :=
  match discovery.base.discoveryType with
  | .network subnetIds .. =>
    let subnets := (subnetIds.getD []).filterMap s.tables.db.subnets.get
    match subnets.find? fun subnet => subnet.base.networkId != discovery.base.networkId with
    | some subnet => .error (.discoverySubnetNetworkMismatch subnet.base.name)
    | none => .ok ()
  | .docker .. | .selfReport _ => .ok ()

def checkCreate (body : Discovery) : Except ApiError Unit := do
  requireMember entity
  s.checkRunType entity body
  s.checkSubnets body
  validateNetworkAccess entity body.base.networkId

/-- The checks of an update, and the row it writes: the id and when it was created are those of the stored one. -/
def checkUpdate (id : Uuid) (body : Discovery) : Except ApiError Discovery := do
  requireMember entity
  s.checkRunType entity body
  match s.discoveries.get id with
  | none => .error (.entityNotFound "Discovery" id)
  | some existing =>
    validateNetworkAccess entity existing.base.networkId
    validateNetworkAccess entity body.base.networkId
    .ok { body with id := existing.id, createdAt := existing.createdAt }

def checkDelete (id : Uuid) : Except ApiError Unit := do
  requireMember entity
  match s.discoveries.get id with
  | none => .error (.entityNotFound "Discovery" id)
  | some existing => validateNetworkAccess entity existing.base.networkId

/-- Ids of which there is no discovery are passed over. -/
def checkBulkDelete (ids : List Uuid) : Except ApiError Unit := do
  requireMember entity
  if ids.isEmpty then .error .bulkEmpty
  else
    match s.discoveries.rows.find? fun d => ids.contains d.id && !entity.networkIds.contains d.base.networkId with
    | some discovery => .error (.entityAccessDenied "Network" discovery.base.networkId)
    | none => .ok ()

end DiscoveryServer

end Checks

/-! ## Handlers -/

namespace DiscoveryHandlers

open DiscoveryStore

variable (entity : AuthenticatedEntity)

def createDiscovery (body : Discovery) (drawn : Uuid) : DiscoveryStore Unit := do
  let s ← get
  runStatement (s.checkCreate entity body)
  insertRow (s.newRow body drawn)

def updateDiscovery (id : Uuid) (body : Discovery) : DiscoveryStore Unit := do
  updateRow (← runStatement ((← get).checkUpdate entity id body))

def deleteDiscovery (id : Uuid) : DiscoveryStore Unit := do
  runStatement ((← get).checkDelete entity id)
  modify fun s => { s with discoveries := s.discoveries.filter fun d => d.id != id }

def bulkDelete (ids : List Uuid) : DiscoveryStore Unit := do
  runStatement ((← get).checkBulkDelete entity ids)
  modify fun s => { s with discoveries := s.discoveries.filter fun d => !ids.contains d.id }

/-- Start a discovery now, and update its row. -/
def startDiscovery [CronRules] (discoveryId sessionId : Uuid) : DiscoveryStore Unit := do
  let discovery ← runStatement (startSession entity (← get).sessionServer discoveryId)
  modify fun s => s.startSession discovery sessionId
  DiscoveryStore.updateDiscovery discovery

end DiscoveryHandlers

/-! ## Plans -/

/-- The tables after networks were deleted, as far as discoveries have to do with them. -/
def Tables.deleteNetworks (tables : Tables) (networkIds : List Uuid) : Tables :=
  { tables with
    accounts.networks := tables.accounts.networks.filter fun n => !networkIds.contains n.id
    daemons := tables.daemons.filter fun d => !networkIds.contains d.networkId
    db.subnets := tables.db.subnets.filter fun s => !networkIds.contains s.base.networkId }

namespace DiscoveryServer

variable (s : DiscoveryServer)

/-- Delete networks; their discoveries go with them, and so do those of their daemons. -/
def deleteNetworks (networkIds : List Uuid) : DiscoveryServer :=
  let daemonIds := (s.tables.daemons.rows.filter fun d => networkIds.contains d.networkId).map (·.id)
  { s with
    tables := s.tables.deleteNetworks networkIds
    discoveries := s.discoveries.filter fun d =>
      !networkIds.contains d.base.networkId && !daemonIds.contains d.base.daemonId }

/-- `enforce_plan_restrictions`, with the number of networks the plan is limited to. -/
def enforcePlanRestrictions (organizationId : Uuid) (plan : BillingPlan) (includedNetworks : Option Nat) :
    DiscoveryServer :=
  let networkIds := s.tables.accounts.networksOf organizationId
  let limit := includedNetworks.getD networkIds.length
  let s := s.deleteNetworks (networkIds.drop limit)
  if plan.scheduledDiscovery then s
  else
    { s with
      discoveries := s.discoveries.modify
        (fun d => if (networkIds.take limit).contains d.base.networkId then d.unscheduled else d)
        (fun d => by split <;> simp) }

/-! ## The system -/

inductive Action
  | tick (elapsed : Nat)
  | create (entity : AuthenticatedEntity) (body : Discovery) (drawn : Uuid)
  | update (entity : AuthenticatedEntity) (id : Uuid) (body : Discovery)
  | delete (entity : AuthenticatedEntity) (id : Uuid)
  | bulkDelete (entity : AuthenticatedEntity) (ids : List Uuid)
  | start (entity : AuthenticatedEntity) (id sessionId : Uuid)
  /-- One of the first discoveries of a daemon that registers. -/
  | register (base : DiscoveryBase) (drawn sessionId : Uuid)
  | enforcePlan (organizationId : Uuid) (plan : BillingPlan) (includedNetworks : Option Nat)
  /-- The scheduler runs one of its jobs. -/
  | runJob (i : Nat) (sessionId : Uuid)

open DiscoveryStore in
def perform [CronRules] : Action → DiscoveryStore Unit
  | .tick elapsed => modify fun s => { s with now := s.now + elapsed }
  | .create entity body drawn => DiscoveryHandlers.createDiscovery entity body drawn
  | .update entity id body => DiscoveryHandlers.updateDiscovery entity id body
  | .delete entity id => DiscoveryHandlers.deleteDiscovery entity id
  | .bulkDelete entity ids => DiscoveryHandlers.bulkDelete entity ids
  | .start entity id sessionId => DiscoveryHandlers.startDiscovery entity id sessionId
  | .register base drawn sessionId => do
    let now := (← get).now
    let discovery ← createDiscovery { id := drawn, createdAt := now, updatedAt := now, base } drawn
    modify fun s => s.startSession discovery sessionId
  | .enforcePlan organizationId plan includedNetworks =>
    modify fun s => s.enforcePlanRestrictions organizationId plan includedNetworks
  | .runJob i sessionId => do
    match (← get).jobs[i]? with
    | none => return ()
    | some job =>
      modify fun s => s.startSession job.discovery sessionId
      updateRow (job.discovery.recordRun (← get).now)

/-- One request or job after the other, answered or refused. -/
def step [CronRules] (s : DiscoveryServer) (a : Action) : Option DiscoveryServer :=
  some (after (perform a) { s with failed := [] })

/-- The server has started with its tables and discoveries. -/
def boot [CronRules] (tables : Tables) (discoveries : Table Discovery Discovery.id) (now : DateTime) :
    DiscoveryServer :=
  after DiscoveryStore.startScheduler { tables, discoveries, now }

end DiscoveryServer

end Netvisor
