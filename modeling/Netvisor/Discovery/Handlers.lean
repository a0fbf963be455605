/-
The endpoints that show discovery sessions: starting one, the list of those
that run, the stream of their progress, and the list of discoveries with the
results of those that are over; and the server they belong to as a system.

A request to start a session takes its SNMP credentials from the tables, and
answers once the session is started and the row of the discovery updated.
-/
import Netvisor.Daemons.Tables
import Netvisor.Discovery.Sessions

namespace Netvisor

instance : ToString Discovery where
  toString discovery := "Discovery " ++ discovery.base.name ++ ": " ++ toString discovery.id

/-- The discovery with its last run set, unless it is a historical one. -/
def Discovery.ran (discovery : Discovery) (now : DateTime) : Discovery :=
  { discovery with
    base.runType := match discovery.base.runType with
      | .scheduled cronSchedule _ enabled => .scheduled cronSchedule (some now) enabled
      | .adHoc _ => .adHoc (some now)
      | .historical results => .historical results }

/-! ## Lists -/

structure DiscoveryQuery where
  networkId : Option Uuid := none
  daemonId : Option Uuid := none
  limit : Option Nat := none
  offset : Option Nat := none
deriving DecidableEq, Repr

namespace DiscoveryQuery

/-- None stands for no limit. -/
def effectiveLimit (query : DiscoveryQuery) : Option Nat :=
  match query.limit with
  | some 0 => none
  | some n => some (min n 1000)
  | none => some 50

def effectiveOffset (query : DiscoveryQuery) : Nat := query.offset.getD 0

/-- The rows the query asks for, of networks the user may access. -/
def selects (query : DiscoveryQuery) (networkIds : List Uuid) (discovery : Discovery) : Bool :=
  networkIds.contains discovery.base.networkId && query.networkId.all (fun id => discovery.base.networkId == id)
    && query.daemonId.all fun id => discovery.base.daemonId == id

end DiscoveryQuery

structure DiscoveryPage where
  items : List Discovery
  totalCount : Nat
  limit : Nat
  offset : Nat
deriving DecidableEq, Repr

/-! ## The server -/

/-- The tables, the sessions, the requests that started one with the row they
still have to update, and the answers given so far, newest first. -/
structure SessionServer where
  tables : Tables := {}
  sessions : Sessions.State := {}
  starting : List (AuthenticatedEntity × Discovery × DiscoveryUpdatePayload) := []
  answers : List (AuthenticatedEntity × Except ApiError DiscoveryUpdatePayload) := []

namespace DiscoveryService

variable (s : DiscoveryService)

def getById (id : Uuid) : Option Discovery := s.discoveries.find? fun d => d.id == id

def getAllSessions (networkIds : List Uuid) : List DiscoveryUpdatePayload :=
  s.sessions.values.filter fun session => networkIds.contains session.networkId

/-- `UPDATE`, which is no error if the row is missing. -/
def updateRow (discovery : Discovery) : DiscoveryService :=
  { s with discoveries := s.discoveries.map fun d => if d.id == discovery.id then discovery else d }

/-- `update_discovery`. -/
def updateDiscovery (discovery : Discovery) : Except ApiError DiscoveryService :=
  match s.getById discovery.id with
  | none => .error (.internalError ("Could not find discovery " ++ toString discovery))
  | some _ => .ok (s.updateRow discovery)

/-- A row another request stores, or replaces. -/
def storeRow (discovery : Discovery) : DiscoveryService :=
  match s.getById discovery.id with
  | none => { s with discoveries := discovery :: s.discoveries }
  | some _ => s.updateRow discovery

def deleteRow (id : Uuid) : DiscoveryService := { s with discoveries := s.discoveries.filter fun d => d.id != id }

end DiscoveryService

/-! ## Handlers -/

namespace DiscoveryHandlers

variable (entity : AuthenticatedEntity) (s : SessionServer)

/-- The checks of `start_session`, and the discovery it starts. -/
def startSession (discoveryId : Uuid) : Except ApiError Discovery :=
  match PermissionRequirement.member.authorized entity with
  | some e => .error e
  | none =>
    match s.sessions.service.getById discoveryId with
    | none => .error (.entityNotFound "Discovery" discoveryId)
    | some discovery =>
      if !entity.networkIds.contains discovery.base.networkId then
        .error (.entityAccessDenied "Network" discovery.base.networkId)
      else .ok (discovery.ran s.sessions.now)

def getActiveSessions : Except ApiError (List DiscoveryUpdatePayload) :=
  match PermissionRequirement.viewer.authorized entity with
  | some e => .error e
  | none => .ok (s.sessions.service.getAllSessions entity.networkIds)

/-- What a stream has told by now that was opened after the first `sent` updates. -/
def discoveryStream (sent : Nat) : Except ApiError (List DiscoveryUpdatePayload) :=
  match PermissionRequirement.viewer.authorized entity with
  | some e => .error e
  | none =>
    .ok ((s.sessions.service.updates.reverse.drop sent).filter fun update =>
      entity.networkIds.contains update.networkId)

def getAll (query : DiscoveryQuery) : Except ApiError DiscoveryPage :=
  match PermissionRequirement.viewer.authorized entity with
  | some e => .error e
  | none =>
    match entity.organizationId with
    | none => .error .organizationRequired
    | some _ =>
      let selected := (s.sessions.service.discoveries.filter (query.selects entity.networkIds)).insertionSort
        fun d d' => d.createdAt ≤ d'.createdAt
      let items := selected.drop query.effectiveOffset
      .ok
        { items := match query.effectiveLimit with
            | some limit => items.take limit
            | none => items
          totalCount := selected.length
          limit := query.effectiveLimit.getD 0
          offset := query.effectiveOffset }

end DiscoveryHandlers

/-! ## The system -/

namespace SessionServer

inductive Action
  /-- A section of the session service, other than the first of a start. -/
  | sessions (a : Sessions.Action)
  /-- The server starts a discovery by itself: a scheduled one, or the first ones of a daemon. -/
  | start (discovery : Discovery) (sessionId : Uuid)
  /-- A request to start a discovery. -/
  | request (entity : AuthenticatedEntity) (discoveryId sessionId : Uuid)
  /-- The end of such a request. -/
  | respond (i : Nat)
  /-- Other requests, which change the tables, or store or delete a discovery. -/
  | write (tables : Tables)
  | store (discovery : Discovery)
  | delete (id : Uuid)

variable (s : SessionServer)

/-- The payload of a new session of the discovery. -/
def payload (discovery : Discovery) (sessionId : Uuid) : DiscoveryUpdatePayload :=
  DiscoveryService.sessionPayload discovery sessionId (s.tables.buildCredentialsForDiscovery discovery.base.networkId)

/-- Start a session, up to where the queue is read. -/
def start (discovery : Discovery) (sessionId : Uuid) : Option SessionServer :=
  let snmpCredentials := s.tables.buildCredentialsForDiscovery discovery.base.networkId
  match Sessions.step s.sessions (.startSession discovery sessionId snmpCredentials) with
  | some sessions => some { s with sessions }
  | none => none

/-- Update the row of a started discovery, and answer. -/
def respond (entity : AuthenticatedEntity) (discovery : Discovery) (session : DiscoveryUpdatePayload) :
    SessionServer :=
  match s.sessions.service.updateDiscovery discovery with
  | .error e => { s with answers := (entity, .error e) :: s.answers }
  | .ok service => { s with sessions.service := service, answers := (entity, .ok session) :: s.answers }

def step : Action → Option SessionServer
  | .sessions (.startSession ..) => none
  | .sessions a =>
    match Sessions.step s.sessions a with
    | some sessions => some { s with sessions }
    | none => none
  | .start discovery sessionId => s.start discovery sessionId
  | .request entity discoveryId sessionId =>
    match DiscoveryHandlers.startSession entity s discoveryId with
    | .error e => some { s with answers := (entity, .error e) :: s.answers }
    | .ok discovery =>
      match s.start discovery sessionId with
      | some t => some { t with starting := (entity, discovery, s.payload discovery sessionId) :: t.starting }
      | none => none
  | .respond i =>
    match s.starting[i]? with
    | some (entity, discovery, session) =>
      some ({ s with starting := s.starting.eraseIdx i }.respond entity discovery session)
    | none => none
  | .write tables => some { s with tables }
  | .store discovery => some { s with sessions.service := s.sessions.service.storeRow discovery }
  | .delete id => some { s with sessions.service := s.sessions.service.deleteRow id }

end SessionServer

end Netvisor
