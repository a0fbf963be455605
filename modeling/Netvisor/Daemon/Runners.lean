/-
The runners of a discovery request: `discover` of the three discovery types,
with the session they start and finish, and the outcome of every call that can
fail on the way.

What a run found out is its own; here it matters which of its calls failed, and
whether the error reached `finish_discovery` or left `discover` by `?`.
-/
import Netvisor.Daemon.DiscoveryService
import Netvisor.Lib.Program
import Netvisor.Lib.Transition

namespace Netvisor

/-- Sent by the server to have a discovery run. -/
structure DaemonDiscoveryRequest where
  sessionId : Uuid
  discoveryType : DiscoveryType
deriving DecidableEq, Repr

namespace DiscoveryRunner

/-- What `start_discovery` reads. -/
structure StartCalls where
  id : Except String Uuid := .ok Uuid.nil
  gatewayIps : Except String (List String) := .ok []
  networkId : Except String (Option Uuid) := .ok none
  now : DateTime := 0

/-- What `discover_create_subnets` reads, and what becomes of the subnets it creates. -/
structure SubnetCalls where
  id : Except String Uuid := .ok Uuid.nil
  networkId : Except String (Option Uuid) := .ok none
  /-- `get_subnets`, for a network discovery of given subnets. -/
  known : Except String (List Subnet) := .ok []
  interfaces : Except String (List String) := .ok []
  /-- The subnets of `get_own_interfaces`. -/
  own : Except String (List Subnet) := .ok []
  /-- `get_subnets_from_docker_networks`. -/
  docker : Except String (List Subnet) := .ok []
  createSubnet : Subnet → Except String Subnet := .ok

/-- The part of a run whose result `finish_discovery` is given: the progress it
reported on the way, and how it ended. -/
structure Work where
  progress : List (BitVec 8) := []
  result : Except String Unit := .ok ()

/-- The outcomes of the calls of one run, and the state of its token when it finishes. -/
structure Calls where
  subnets : SubnetCalls := {}
  start : StartCalls := {}
  work : Work := {}
  /-- The rest is asked by a docker discovery only, in this order. -/
  id : Except String Uuid := .ok Uuid.nil
  networkId : Except String (Option Uuid) := .ok none
  dockerClient : Except String Unit := .ok ()
  containersToScan : Except String (List String) := .ok []
  interfaces : Except String (List String) := .ok []
  ownInterfaces : Except String Unit := .ok ()
  /-- The services of `create_docker_daemon_service`. -/
  dockerDaemonService : Except String (List Uuid) := .ok []
  containersAndSummaries : Except String Unit := .ok ()
  isCancelled : Bool := false
  finishedAt : DateTime := 0

abbrev Run := EStateM String DaemonDiscoveryService

/-- `?` on the outcome of a call. -/
def ask {α : Type} : Except String α → Run α
  | .ok a => pure a
  | .error e => throw e

/-- `ok_or_else` on an optional value. -/
def orElse {α : Type} (message : String) : Option α → Except String α
  | some a => .ok a
  | none => .error message

/-! ## Starting and finishing -/

def getSession : Run DiscoverySession := do
  let d ← get
  ask (orElse "No active discovery session" d.currentSession)

/-- Failing to post the update is logged only. -/
def reportDiscoveryUpdate (discoveryType : DiscoveryType) (update : DiscoverySessionUpdate) : Run Unit := do
  let session ← getSession
  modify (·.report (.fromStateAndUpdate discoveryType session.info update))

def initializeDiscoverySession (calls : StartCalls) (request : DaemonDiscoveryRequest) (daemonId : Uuid) :
    Run Unit := do
  let gatewayIps ← ask calls.gatewayIps
  let networkId ← ask calls.networkId
  let networkId ← ask (orElse "Network ID not set, aborting discovery session" networkId)
  let info : DiscoverySessionInfo :=
    { sessionId := request.sessionId
      networkId
      daemonId
      startedAt := some calls.now
      discoveryType := request.discoveryType }
  modify (·.clearTerminalPayload)
  modify (·.setSession { info, gatewayIps })

def startDiscovery (calls : StartCalls) (request : DaemonDiscoveryRequest) (discoveryType : DiscoveryType) :
    Run Unit := do
  let daemonId ← ask calls.id
  initializeDiscoverySession calls request daemonId
  reportDiscoveryUpdate discoveryType { phase := .started, progress := 0 }
  let _ ← getSession

def finishDiscovery (discoveryType : DiscoveryType) (discoveryResult : Except String Unit) (isCancelled : Bool)
    (now : DateTime) : Run Unit := do
  let session ← getSession
  let update := DaemonDiscoveryService.terminalUpdate session discoveryResult isCancelled now
  reportDiscoveryUpdate discoveryType update
  modify (·.storeTerminal (.fromStateAndUpdate discoveryType session.info update))
  modify (·.clearBuffer)
  modify (·.clearSession session.info.sessionId)

/-- `report_scanning_progress`, when it is not throttled. -/
def scanned (discoveryType : DiscoveryType) (d : DaemonDiscoveryService) (percent : BitVec 8) :
    DaemonDiscoveryService :=
  match d.currentSession with
  | some session =>
    (d.setSession { session with lastProgress := percent }).report
      (.fromStateAndUpdate discoveryType session.info (.scanning percent))
  | none => d

/-- The captured part of a run. -/
def perform (discoveryType : DiscoveryType) (work : Work) : Run (Except String Unit) := do
  modify fun d => work.progress.foldl (scanned discoveryType) d
  pure work.result

/-! ## Subnets -/

def selfReportSubnets (calls : SubnetCalls) : Except String (List Subnet) := do
  let _ ← calls.id
  let networkId ← calls.networkId
  let _ ← orElse "Network ID not set" networkId
  let _ ← calls.interfaces
  let subnets ← calls.own
  -- without docker nothing is excluded
  let dockerCidrs := match calls.docker with
    | .ok dockerSubnets => dockerSubnets.map fun (s : Subnet) => s.base.cidr
    | .error _ => []
  let subnetsToCreate := subnets.filter fun (s : Subnet) =>
    s.base.subnetType != .dockerBridge && !dockerCidrs.contains s.base.cidr
  -- a subnet that cannot be created is skipped
  pure (subnetsToCreate.filterMap fun (s : Subnet) => (calls.createSubnet s).toOption)

def networkSubnets (subnetIds : Option (List Uuid)) (calls : SubnetCalls) : Except String (List Subnet) := do
  let _ ← calls.id
  let networkId ← calls.networkId
  let _ ← orElse "Network ID not set" networkId
  match subnetIds with
  | some subnetIds =>
    let allSubnets ← calls.known
    pure (allSubnets.filter fun (s : Subnet) => subnetIds.contains s.id)
  | none =>
    let _ ← calls.interfaces
    let subnets ← calls.own
    let subnets := subnets.filter fun (s : Subnet) =>
      !(s.base.cidr.networkLength < 10) && s.base.subnetType != .dockerBridge
    subnets.mapM calls.createSubnet

def dockerSubnets (calls : SubnetCalls) : Except String (List Subnet) := do
  let _ ← calls.id
  let networkId ← calls.networkId
  let _ ← orElse "Network ID not set" networkId
  let _ ← calls.interfaces
  let hostSubnets ← calls.own
  let dockerSubnets ← calls.docker
  let hostCidrs := hostSubnets.map fun (s : Subnet) => s.base.cidr
  let filteredDockerSubnets := dockerSubnets.filter fun (s : Subnet) => !hostCidrs.contains s.base.cidr
  (hostSubnets ++ filteredDockerSubnets).mapM calls.createSubnet

/-! ## The runners -/

/-- A run that creates its subnets, starts, works and finishes. -/
def discoverBetween (subnets : Except String (List Subnet)) (request : DaemonDiscoveryRequest)
    (discoveryType : DiscoveryType) (calls : Calls) : Run Unit := do
  let _ ← ask subnets
  startDiscovery calls.start request discoveryType
  let discoveryResult ← perform discoveryType calls.work
  finishDiscovery discoveryType discoveryResult calls.isCancelled calls.finishedAt

def selfReportDiscover (request : DaemonDiscoveryRequest) (calls : Calls) : Run Unit :=
  discoverBetween (selfReportSubnets calls.subnets) request request.discoveryType calls

def networkDiscover (subnetIds : Option (List Uuid)) (request : DaemonDiscoveryRequest) (calls : Calls) : Run Unit :=
  discoverBetween (networkSubnets subnetIds calls.subnets) request request.discoveryType calls

/-- Setting the client of the runner cannot fail: each run has its own runner. -/
def dockerDiscover (request : DaemonDiscoveryRequest) (calls : Calls) : Run Unit := do
  let _ ← ask calls.id
  let networkId ← ask calls.networkId
  let _ ← ask (orElse "Network ID not set" networkId)
  ask calls.dockerClient
  let _ ← ask calls.containersToScan
  startDiscovery calls.start request request.discoveryType
  let _ ← ask (dockerSubnets calls.subnets)
  let _ ← ask calls.interfaces
  ask calls.ownInterfaces
  let services ← ask calls.dockerDaemonService
  let _ ← ask (orElse "Docker daemon service was not created, aborting" services.head?)
  ask calls.containersAndSummaries
  let discovered ← perform request.discoveryType calls.work
  let discoveryResult := match discovered with
    | .ok _ => Except.ok ()
    | .error _ => .error ""
  finishDiscovery request.discoveryType discoveryResult calls.isCancelled calls.finishedAt

/-- The run that `initiate_session` spawns for a request. -/
def discover (request : DaemonDiscoveryRequest) (calls : Calls) : Run Unit :=
  match request.discoveryType with
  | .selfReport _ => selfReportDiscover request calls
  | .network subnetIds _ _ _ => networkDiscover subnetIds request calls
  | .docker _ _ => dockerDiscover request calls

/-! ## How a run ends -/

/-- The terminal updates reported so far, newest first. -/
def terminals (d : DaemonDiscoveryService) : List DiscoveryUpdatePayload := d.reported.filter (·.phase.isTerminal)

/-- From `d` to `t` one terminal update was reported, for the session; it is
kept for a server that polls, and no session is left. -/
def Ends (sessionId : Uuid) (d t : DaemonDiscoveryService) : Prop :=
  ∃ payload, terminals t = payload :: terminals d ∧ payload.sessionId = sessionId ∧
    t.terminalPayload = some payload ∧ t.currentSession = none

/-- The program ends the session of a run that began in `d`. -/
def EndsAfter (sessionId : Uuid) (d : DaemonDiscoveryService) {α : Type} (p : Run α) (s : DaemonDiscoveryService) :
    Prop :=
  Ends sessionId d (Program.after p s)

def isKnown : Except String (Option Uuid) → Bool
  | .ok (some _) => true
  | _ => false

/-- `start_discovery` reaches its first report. -/
def StartCalls.succeed (calls : StartCalls) : Bool :=
  calls.id.isOk && calls.gatewayIps.isOk && isKnown calls.networkId

def hasService : Except String (List Uuid) → Bool
  | .ok (_ :: _) => true
  | _ => false

/-- No call fails whose error leaves `discover` by `?`. -/
def unhindered (request : DaemonDiscoveryRequest) (calls : Calls) : Bool :=
  match request.discoveryType with
  | .selfReport _ => (selfReportSubnets calls.subnets).isOk && calls.start.succeed
  | .network subnetIds _ _ _ => (networkSubnets subnetIds calls.subnets).isOk && calls.start.succeed
  | .docker _ _ =>
    calls.id.isOk && isKnown calls.networkId && calls.dockerClient.isOk && calls.containersToScan.isOk &&
      calls.start.succeed &&
        (dockerSubnets calls.subnets).isOk && calls.interfaces.isOk && calls.ownInterfaces.isOk &&
      hasService calls.dockerDaemonService && calls.containersAndSummaries.isOk

variable {α β : Type} {sessionId : Uuid} {d s t : DaemonDiscoveryService} {p : Run α} {k : α → Run β}
  {request : DaemonDiscoveryRequest} {discoveryType : DiscoveryType} {calls : Calls}

theorem not_ends_of_terminals (h : terminals t = terminals d) : ¬ Ends sessionId d t := by
  rintro ⟨payload, hterminals, -⟩
  have hlength := congrArg List.length (h.symm.trans hterminals)
  rw [List.length_cons] at hlength
  omega

theorem endsAfter_bind {a : α} (h : p s = .ok a t) : EndsAfter sessionId d (p >>= k) s ↔
    EndsAfter sessionId d (k a) t := by
  have hrun : (p >>= k) s = k a t := by
    change EStateM.bind p k s = _
    rw [EStateM.bind, h]
  rw [EndsAfter, EndsAfter, Program.after, Program.after, hrun]

theorem not_endsAfter_bind {e : String} (h : p s = .error e t) (hquiet : terminals t = terminals d) :
    ¬ EndsAfter sessionId d (p >>= k) s := by
  have hrun : (p >>= k) s = .error e t := by
    change EStateM.bind p k s = _
    rw [EStateM.bind, h]
  rw [EndsAfter, Program.after, hrun]
  exact not_ends_of_terminals hquiet

/-- An error that leaves `discover` by `?` ends no session. -/
theorem endsAfter_ask {outcome : Except String α} (hquiet : terminals s = terminals d) :
    EndsAfter sessionId d (ask outcome >>= k) s ↔ ∃ a, outcome = .ok a ∧ EndsAfter sessionId d (k a) s := by
  cases outcome with
  | ok a =>
    have hrun : ask (.ok a) s = .ok a s := rfl
    rw [endsAfter_bind hrun]
    simp
  | error e =>
    have hrun : (ask (.error e) : Run α) s = .error e s := rfl
    have hnot : ¬ EndsAfter sessionId d (ask (.error e) >>= k) s := not_endsAfter_bind hrun hquiet
    simp [hnot]

theorem endsAfter_ask_const {outcome : Except String α} {p : Run β} (hquiet : terminals s = terminals d) :
    EndsAfter sessionId d (ask outcome >>= fun _ => p) s ↔ outcome.isOk = true ∧ EndsAfter sessionId d p s := by
  rw [endsAfter_ask hquiet]
  cases outcome <;> simp [Except.isOk, Except.toBool]

theorem endsAfter_network {networkId : Except String (Option Uuid)} {message : String} {p : Run β}
    (hquiet : terminals s = terminals d) :
    EndsAfter sessionId d (ask networkId >>= fun n => ask (orElse message n) >>= fun _ => p) s ↔
      isKnown networkId = true ∧ EndsAfter sessionId d p s := by
  simp only [endsAfter_ask hquiet]
  cases networkId with
  | error e => simp [isKnown]
  | ok n => cases n <;> simp [isKnown, orElse]

theorem endsAfter_services {services : Except String (List Uuid)} {message : String} {p : Run β}
    (hquiet : terminals s = terminals d) :
    EndsAfter sessionId d (ask services >>= fun l => ask (orElse message l.head?) >>= fun _ => p) s ↔
      hasService services = true ∧ EndsAfter sessionId d p s := by
  simp only [endsAfter_ask hquiet]
  cases services with
  | error e => simp [hasService]
  | ok l => cases l <;> simp [hasService, orElse]

/-- The session of the request is the current one, and no terminal update was reported since `d`. -/
def Active (sessionId : Uuid) (d s : DaemonDiscoveryService) : Prop :=
  terminals s = terminals d ∧ ∃ session, s.currentSession = some session ∧ session.info.sessionId = sessionId

theorem terminals_report {payload : DiscoveryUpdatePayload} :
    terminals (s.report payload) = if payload.phase.isTerminal then payload :: terminals s else terminals s :=
  List.filter_cons

theorem Active.scanned (h : Active sessionId d s) {percent : BitVec 8} :
    Active sessionId d (scanned discoveryType s percent) := by
  obtain ⟨hquiet, session, hsession, hid⟩ := h
  simp only [DiscoveryRunner.scanned, hsession]
  exact ⟨hquiet, { session with lastProgress := percent }, rfl, hid⟩

theorem Active.foldl_scanned : ∀ {progress : List (BitVec 8)} {s : DaemonDiscoveryService}, Active sessionId d s →
    Active sessionId d (progress.foldl (DiscoveryRunner.scanned discoveryType) s)
  | [], _, h => h
  | _ :: _, _, h => h.scanned.foldl_scanned

/-- `start_discovery` fails before it changes anything, or makes the session of the request the current one. -/
theorem startDiscovery_run (starts : StartCalls) (request : DaemonDiscoveryRequest) (discoveryType : DiscoveryType)
    (s : DaemonDiscoveryService) :
    (starts.succeed = false ∧ ∃ e, startDiscovery starts request discoveryType s = .error e s) ∨
      (starts.succeed = true ∧
        ∃ t, startDiscovery starts request discoveryType s = .ok () t ∧ Active request.sessionId s t) := by
  obtain ⟨id, gatewayIps, networkId, now⟩ := starts
  cases id with
  | error e => exact .inl ⟨rfl, e, rfl⟩
  | ok id =>
    cases gatewayIps with
    | error e => exact .inl ⟨rfl, e, rfl⟩
    | ok ips =>
      cases networkId with
      | error e => exact .inl ⟨rfl, e, rfl⟩
      | ok networkId =>
        cases networkId with
        | none => exact .inl ⟨rfl, "Network ID not set, aborting discovery session", rfl⟩
        | some networkId => exact .inr ⟨rfl, _, rfl, rfl, _, rfl, rfl⟩

theorem endsAfter_start {starts : StartCalls} {k : Unit → Run β} {C : Prop} (hquiet : terminals s = terminals d)
    (hk : ∀ t, Active request.sessionId d t → (EndsAfter request.sessionId d (k ()) t ↔ C)) :
    EndsAfter request.sessionId d (startDiscovery starts request discoveryType >>= k) s ↔
      starts.succeed = true ∧ C := by
  rcases startDiscovery_run starts request discoveryType s with ⟨hfail, e, hrun⟩ | ⟨hsucceed, t, hrun,
    hquiet', hsession⟩
  · simp [not_endsAfter_bind hrun hquiet, hfail]
  · rw [endsAfter_bind hrun, hk t ⟨hquiet'.trans hquiet, hsession⟩]
    simp [hsucceed]

theorem getSession_of {session : DiscoverySession} (h : s.currentSession = some session) :
    getSession s = .ok session s := by
  change (ask (orElse _ s.currentSession)) s = _
  rw [h]
  rfl

theorem reportDiscoveryUpdate_of {session : DiscoverySession} {update : DiscoverySessionUpdate}
    (h : s.currentSession = some session) : reportDiscoveryUpdate discoveryType update s =
      .ok () (s.report (.fromStateAndUpdate discoveryType session.info update)) := by
  change EStateM.bind getSession _ s = _
  rw [EStateM.bind, getSession_of h]
  rfl

/-- `finish_discovery` ends the session, whatever the result it is given. -/
theorem ends_finish {discoveryResult : Except String Unit} {isCancelled : Bool} {now : DateTime}
    (h : Active sessionId d s) :
    EndsAfter sessionId d (finishDiscovery discoveryType discoveryResult isCancelled now) s := by
  obtain ⟨hquiet, session, hsession, rfl⟩ := h
  have hterminal : (DaemonDiscoveryService.terminalUpdate session discoveryResult isCancelled now).phase.isTerminal =
      true := DaemonDiscoveryService.terminalUpdate_isTerminal
  rw [finishDiscovery, endsAfter_bind (getSession_of hsession)]
  simp only
  rw [endsAfter_bind (reportDiscoveryUpdate_of hsession)]
  refine ⟨_, (terminals_report.trans (if_pos hterminal)).trans (congrArg _ hquiet), rfl, rfl, ?_⟩
  change s.currentSession.filter _ = none
  rw [hsession]
  simp

theorem endsAfter_perform {work : Work} {result : Except String Unit → Except String Unit} {isCancelled : Bool}
    {now : DateTime} (h : Active sessionId d s) :
    EndsAfter sessionId d
      (perform discoveryType work >>= fun r => finishDiscovery discoveryType (result r) isCancelled now) s := by
  have hrun : perform discoveryType work s =
      .ok work.result (work.progress.foldl (DiscoveryRunner.scanned discoveryType) s) := rfl
  rw [endsAfter_bind hrun]
  exact ends_finish h.foldl_scanned

/-- A run that finishes right after its work ends its session if it gets to start it. -/
theorem endsAfter_discoverBetween {subnets : Except String (List Subnet)} :
    EndsAfter request.sessionId d (discoverBetween subnets request discoveryType calls) d ↔
      subnets.isOk = true ∧ calls.start.succeed = true := by
  have hstart (created : List Subnet) :
      EndsAfter request.sessionId d (discoverBetween (.ok created) request discoveryType calls) d ↔
        calls.start.succeed = true ∧ True :=
    endsAfter_start rfl fun t ht => iff_true_intro (endsAfter_perform ht)
  cases subnets with
  | ok created =>
    rw [hstart created]
    simp [Except.isOk, Except.toBool]
  | error e =>
    rw [discoverBetween, endsAfter_ask rfl]
    simp [Except.isOk, Except.toBool]

/-- The work of a docker discovery once it has started: six calls may still leave it by `?`. -/
theorem endsAfter_docker :
    EndsAfter request.sessionId d (dockerDiscover request calls) d ↔
      calls.id.isOk = true ∧ isKnown calls.networkId = true ∧ calls.dockerClient.isOk = true ∧
      calls.containersToScan.isOk = true ∧ calls.start.succeed = true ∧ (dockerSubnets calls.subnets).isOk = true ∧
      calls.interfaces.isOk = true ∧ calls.ownInterfaces.isOk = true ∧ hasService calls.dockerDaemonService = true ∧
      calls.containersAndSummaries.isOk = true := by
  rw [dockerDiscover, endsAfter_ask_const rfl, endsAfter_network rfl, endsAfter_ask_const rfl,
    endsAfter_ask_const rfl, endsAfter_start rfl]
  intro t ht
  rw [endsAfter_ask_const ht.1, endsAfter_ask_const ht.1, endsAfter_ask_const ht.1, endsAfter_services ht.1,
    endsAfter_ask_const ht.1]
  refine and_congr_right fun _ => and_congr_right fun _ => and_congr_right fun _ => and_congr_right fun _ => ?_
  exact and_iff_left (endsAfter_perform ht)

theorem endsAfter_discover : EndsAfter request.sessionId d (discover request calls) d ↔
    unhindered request calls = true := by
  unfold discover unhindered
  cases request.discoveryType with
  | selfReport hostId =>
    simp only [Bool.and_eq_true]
    exact endsAfter_discoverBetween
  | network subnetIds hostNamingFallback snmpCredentials probeRawSocketPorts =>
    simp only [Bool.and_eq_true]
    exact endsAfter_discoverBetween
  | docker hostId hostNamingFallback =>
    simp only [Bool.and_eq_true, and_assoc]
    exact endsAfter_docker

/-! ## A daemon's requests, one after another -/

/-- A request the daemon accepts, with what its run meets. -/
structure Accepted where
  request : DaemonDiscoveryRequest
  calls : Calls

/-- The run of an accepted request; the error of a failed one is logged. -/
def step (d : DaemonDiscoveryService) (accepted : Accepted) : Option DaemonDiscoveryService :=
  some (Program.after (discover accepted.request accepted.calls) d)

/-- **Requests and terminal updates.** In a sequence of accepted requests each
ends in one terminal update of its session, with no session left, exactly if no
call of its run fails whose error leaves `discover` by `?`. -/
theorem ends_iff_unhindered (d : DaemonDiscoveryService) (as : List Accepted) :
    Transition.Every step (fun d accepted t => Ends accepted.request.sessionId d t) d as ↔
      Transition.Along step (fun _ accepted => unhindered accepted.request accepted.calls = true) d as := by
  refine Transition.every_iff_along (I := fun _ => True) (fun _ _ _ _ _ _ => trivial) ?_ ?_ trivial
  · intro d accepted t _ hok ht
    cases ht
    exact endsAfter_discover.mpr hok
  · intro d accepted t _ ht hends
    cases ht
    exact endsAfter_discover.mp hends

/-- The docker subnets cannot be read after the session was started: the run
leaves `discover` without a terminal update, and its session stays. -/
theorem docker_run_left_open : ¬ Transition.Every step (fun d accepted t => Ends accepted.request.sessionId d t) {}
    [{ request := { sessionId := 7, discoveryType := .docker 3 .bestService }
       calls :=
        { networkId := .ok (some 5)
          start := { id := .ok 4, networkId := .ok (some 5) }
          subnets := { networkId := .ok (some 5), docker := .error "Docker networks cannot be listed" }
          dockerDaemonService := .ok [8] } }] := by
  rintro ⟨hends, -⟩
  exact not_ends_of_terminals (by decide +kernel) hends

end DiscoveryRunner

end Netvisor
