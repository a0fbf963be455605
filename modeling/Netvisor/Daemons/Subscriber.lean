/-
The event filters of the bus and `DaemonService` as a subscriber: which
discovery events reach it, and the requests it sends to daemons in turn.
-/
import Netvisor.Discovery.Sessions

namespace Netvisor

/-- What a subscriber takes of the discovery events: all of them, or those of some phases. -/
structure EventFilter where
  discoveryPhases : Option (List DiscoveryPhase)

def EventFilter.discoveryOnly (discoveryPhases : Option (List DiscoveryPhase)) : EventFilter := { discoveryPhases }

def EventFilter.matchesDiscovery (filter : EventFilter) (event : DiscoveryUpdatePayload) : Bool :=
  match filter.discoveryPhases with
  | some discoveryPhases => discoveryPhases.contains event.phase
  | none => true

/-- A semantic version; `pre` is its pre-release part. -/
structure Version where
  major : Nat
  minor : Nat
  patch : Nat
  pre : String := ""
deriving DecidableEq, Repr

structure DaemonCapabilities where
  hasDockerSocket : Bool := false
  interfacedSubnetIds : List Uuid := []
deriving DecidableEq, Repr

structure Daemon where
  id : Uuid
  createdAt : DateTime := 0
  updatedAt : DateTime := 0
  hostId : Uuid := Uuid.nil
  networkId : Uuid
  url : String := ""
  lastSeen : Option DateTime := none
  capabilities : DaemonCapabilities := {}
  mode : DaemonMode
  name : String := ""
  version : Option Version := none
  userId : Uuid := Uuid.nil
  apiKeyId : Option Uuid := none
  isUnreachable : Bool := false
  standby : Bool := false
deriving DecidableEq, Repr

/-- From version 0.14.0 on, its pre-releases not included. -/
def Daemon.supportsFullServerPoll (daemon : Daemon) : Bool :=
  match daemon.version with
  | some v => v.major > 0 || v.minor > 14 || v.minor == 14 && (v.patch > 0 || v.pre == "")
  | none => false

/-- What `DaemonService` sends to a daemon. -/
inductive DaemonRequest
  | initiate (daemonId : Uuid) (apiKey : Option String) (sessionId : Uuid) (discoveryType : DiscoveryType)
  | cancel (daemonId : Uuid) (apiKey : Option String) (sessionId : Uuid)
deriving DecidableEq, Repr

namespace DaemonService

/-- The daemons and the plaintext of their keys, as the storage answers for them. -/
structure Registry where
  daemons : Uuid → Except String (Option Daemon)
  apiKeys : Uuid → Except String (Option (Option String))

variable (registry : Registry)

def getDaemonApiKey (daemon : Daemon) : Except String String :=
  match daemon.apiKeyId with
  | none => .error ("Daemon " ++ toString daemon.id ++ " has no linked API key")
  | some apiKeyId =>
    match registry.apiKeys apiKeyId with
    | .error e => .error e
    | .ok none => .error ("API key " ++ toString apiKeyId ++ " not found")
    | .ok (some none) => .error ("API key " ++ toString apiKeyId ++ " has no stored plaintext")
    | .ok (some (some plaintext)) => .ok plaintext

def eventFilter : EventFilter := .discoveryOnly (some [.started, .cancelled])

/-- The key to send along, which old daemons do not ask for; none if there has to be one and is not. -/
def requestKey (daemon : Daemon) : Option (Option String) :=
  if daemon.supportsFullServerPoll then
    match getDaemonApiKey registry daemon with
    | .ok key => some (some key)
    | .error _ => none
  else some none

/-- The request an event leads to, if any. -/
def handleEvent (event : DiscoveryUpdatePayload) : Except String (Option DaemonRequest) :=
  match registry.daemons event.daemonId with
  | .error e => .error e
  | .ok none => .ok none
  | .ok (some daemon) =>
    if daemon.mode != .serverPoll || daemon.isUnreachable then .ok none
    else
      match requestKey registry daemon with
      | none => .ok none
      | some apiKey =>
        match event.phase with
        | .started => .ok (some (.initiate daemon.id apiKey event.sessionId event.discoveryType))
        | .cancelled => .ok (some (.cancel daemon.id apiKey event.sessionId))
        | _ => .ok none

/-- The requests of a batch, up to the first daemon that cannot be looked up. -/
def handleEvents : List DiscoveryUpdatePayload → List DaemonRequest
  | [] => []
  | event :: events =>
    match handleEvent registry event with
    | .error _ => []
    | .ok request => request.toList ++ handleEvents events

/-- What publishing an event makes the service send: events that fail the filter do not reach it. -/
def onPublished (event : DiscoveryUpdatePayload) : List DaemonRequest :=
  if eventFilter.matchesDiscovery event then handleEvents registry [event] else []

variable {registry} {event : DiscoveryUpdatePayload} {request : DaemonRequest}

/-- When an event leads to a request: it says that a session started or was
cancelled, and its daemon can be reached. -/
theorem handleEvent_eq_some (h : handleEvent registry event = .ok (some request)) :
    ∃ daemon apiKey, registry.daemons event.daemonId = .ok (some daemon) ∧ daemon.mode = .serverPoll ∧
      daemon.isUnreachable = false ∧ requestKey registry daemon = some apiKey ∧
      (event.phase = .started ∧ request = .initiate daemon.id apiKey event.sessionId event.discoveryType ∨
        event.phase = .cancelled ∧ request = .cancel daemon.id apiKey event.sessionId) := by
  unfold handleEvent at h
  split at h
  · cases h
  · cases h
  · next daemon hdaemon =>
    split at h
    · cases h
    · next heligible =>
      simp only [Bool.or_eq_true, bne_iff_ne, ne_eq, not_or, not_not, Bool.not_eq_true] at heligible
      split at h
      · cases h
      · next apiKey hkey =>
        refine ⟨daemon, apiKey, hdaemon, heligible.1, heligible.2, hkey, ?_⟩
        split at h
        · next hphase =>
          cases h
          exact .inl ⟨hphase, rfl⟩
        · next hphase =>
          cases h
          exact .inr ⟨hphase, rfl⟩
        · cases h

theorem mem_onPublished (h : request ∈ onPublished registry event) :
    handleEvent registry event = .ok (some request) := by
  unfold onPublished at h
  split at h
  · simp only [handleEvents, List.append_nil] at h
    split at h
    · cases h
    · next sent hsent =>
      rw [hsent, Option.mem_toList.mp h]
  · cases h

/-- A daemon 4 that the server polls. -/
def polled : Registry where
  daemons id := .ok (if id = 4 then some { id := 4, networkId := 5, mode := .serverPoll } else none)
  apiKeys _ := .ok none

end DaemonService

end Netvisor
