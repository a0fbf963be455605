/-
What the key of a daemon can change: rows of its network only, as long as a
daemon does not register.

The endpoints with a daemon in their path compare its network with that of the
key. Registering compares nothing: the network of a new daemon is the one in
the body, and a daemon that is registered already is updated whatever network
it is of.
-/
import Netvisor.Daemons.RegistrationFacts

namespace Netvisor

open DaemonServer (Confined)
open Program (Keeps wp)

/-- What a daemon asks of the server about itself. -/
inductive DaemonCall
  | register (request : DaemonRegistrationRequest)
  | startup (id : Uuid) (daemonVersion : Version)
  | updateCapabilities (id : Uuid) (capabilities : DaemonCapabilities)
  | requestWork (id : Uuid) (status : DaemonStatus)
  | heartbeat (id : Uuid) (payload : DaemonHeartbeatPayload)
deriving DecidableEq, Repr

namespace DaemonCall

/-- The endpoint that answers the call. -/
def run [EmailRules] [SemverRules] (entity : AuthenticatedEntity) : DaemonCall → DaemonStore Unit
  | register request => do let _ ← DaemonHandlers.registerDaemon entity request
  | startup id daemonVersion => do let _ ← DaemonHandlers.daemonStartup entity id daemonVersion
  | updateCapabilities id capabilities => DaemonHandlers.updateCapabilities entity id capabilities
  | requestWork id status => do let _ ← DaemonHandlers.receiveWorkRequest entity id status
  | heartbeat id payload => DaemonHandlers.receiveHeartbeat entity id payload

/-- The daemon of the path, or of the body. -/
def daemonId : DaemonCall → Uuid
  | register request => request.daemonId
  | startup id _ | updateCapabilities id _ | requestWork id _ | heartbeat id _ => id

/-- The call is about a daemon of the network: a registered one, or a new one that registers there. -/
def Own (s : DaemonServer) (networkId : Uuid) (call : DaemonCall) : Prop :=
  match s.tables.daemons.get call.daemonId, call with
  | some daemon, _ => daemon.networkId = networkId
  | none, register request => request.networkId = networkId
  | none, _ => False

instance (s : DaemonServer) (networkId : Uuid) (call : DaemonCall) : Decidable (call.Own s networkId) := by
  unfold Own
  split <;> infer_instance

/-- The call changes rows of the network only, and if it is not about a daemon of the network it is
rejected and nothing changes. -/
def ConfinedTo [EmailRules] [SemverRules] (s : DaemonServer) (entity : AuthenticatedEntity) (networkId : Uuid)
    (call : DaemonCall) : Prop :=
  wp (call.run entity) (fun _ t => call.Own s networkId ∧ Confined networkId s t)
    (fun _ t => Confined networkId s t ∧ (call.Own s networkId ∨ t = s)) s

/-- A registration is of a daemon of the network, or fails its checks. -/
def Permitted (s : DaemonServer) (networkId : Uuid) (call : DaemonCall) : Prop :=
  match call with
  | register request => call.Own s networkId ∨ (DaemonService.registrationOrganization s.tables request).isOk = false
  | _ => True

instance (s : DaemonServer) (networkId : Uuid) (call : DaemonCall) : Decidable (call.Permitted s networkId) := by
  unfold Permitted
  split <;> infer_instance

end DaemonCall

namespace DaemonServer

/-- The next id drawn is one no host has. -/
def Fresh (s : DaemonServer) : Prop :=
  s.tables.db.drawn.headD Uuid.nil ≠ Uuid.nil ∧ s.tables.db.hosts.get (s.tables.db.drawn.headD Uuid.nil) = none

instance (s : DaemonServer) : Decidable s.Fresh := inferInstanceAs (Decidable (_ ∧ _))

end DaemonServer

section

variable {s : DaemonServer} {networkId keyId headerId id : Uuid}

/-! ## Calls about the daemon of the path -/

/-- The endpoint goes on with a daemon of the network of the key. -/
theorem wp_pathDaemon {Q : Daemon → DaemonServer → Prop} {E : ApiError → DaemonServer → Prop} (hE : ∀ e, E e s)
    (hQ : ∀ daemon, s.tables.daemons.get id = some daemon → daemon.networkId = networkId → Q daemon s) :
    wp (DaemonHandlers.pathDaemon (.daemon networkId keyId headerId) id) Q E s := by
  simp only [DaemonHandlers.pathDaemon, Program.wp_bind, wp_authorize, Program.wp_get]
  refine ⟨fun _ => ?_, fun e _ => hE e⟩
  split
  · exact hE _
  · next daemon hget =>
    simp only [Program.wp_ite, Program.wp_throw, Program.wp_pure]
    refine ⟨fun _ => hE _, fun hsame => hQ daemon hget ?_⟩
    rw [bne_iff_ne, ne_eq, not_not] at hsame
    exact hsame

/-- A call that looks up its daemon first is confined if what it does to that daemon is. -/
theorem confined_of_pathDaemon {α : Type} {call : DaemonCall} {p : Daemon → DaemonStore α} (hid : call.daemonId = id)
    (h : ∀ daemon, s.tables.daemons.get id = some daemon → daemon.networkId = networkId →
      wp (p daemon) (fun _ => Confined networkId s) (fun _ => Confined networkId s) s) :
    wp (DaemonHandlers.pathDaemon (.daemon networkId keyId headerId) id >>= p)
      (fun _ t => call.Own s networkId ∧ Confined networkId s t)
      (fun _ t => Confined networkId s t ∧ (call.Own s networkId ∨ t = s)) s := by
  rw [Program.wp_bind]
  refine wp_pathDaemon (fun _ => ⟨.refl, .inr rfl⟩) fun daemon hget hnetwork => ?_
  have hown : call.Own s networkId := by
    unfold DaemonCall.Own
    rw [hid, hget]
    exact hnetwork
  exact (h daemon hget hnetwork).mono (fun _ _ ht => ⟨hown, ht⟩) fun _ _ ht => ⟨ht, .inl hown⟩

variable {daemon : Daemon}

/-- A daemon changes within its network. -/
theorem confined_modifyDaemon {change : DateTime → Daemon → Daemon} (hget : s.tables.daemons.get id = some daemon)
    (hnetwork : daemon.networkId = networkId)
    (h : ∀ now d, (change now d).id = d.id ∧ (change now d).networkId = d.networkId) :
    wp (DaemonService.modifyDaemon id change) (fun _ => Confined networkId s) (fun _ => Confined networkId s) s := by
  rw [DaemonService.wp_modifyDaemon hget fun now d => (h now d).1]
  exact DaemonService.confined_update hget hnetwork (h _ _).1 ((h _ _).2.trans hnetwork)

/-- Handing out work changes no rows. -/
theorem keeps_getPendingWork : Keeps (Confined networkId) (DaemonService.getPendingWork id) := by
  intro s
  have hrows (sessionId : Uuid) : (s.discovery.transitionSessionToStarting sessionId).discoveries =
      s.discovery.discoveries := by
    unfold DiscoveryService.transitionSessionToStarting
    split
    · split <;> rfl
    · rfl
  simp only [DaemonService.getPendingWork, Program.wp_bind, Program.wp_get]
  split
  · exact .refl
  · split
    · exact .of_same rfl rfl (hrows _)
    · exact .refl

theorem keeps_getPendingCancellation : Keeps (Confined networkId) (DaemonService.getPendingCancellation id) :=
  fun _ => Confined.of_same rfl rfl rfl

theorem network_of_registrationOrganization {request : DaemonRegistrationRequest} {org : Organization}
    (h : DaemonService.registrationOrganization s.tables request = .ok org) :
    (s.tables.accounts.networks.get request.networkId).isSome = true := by
  unfold DaemonService.registrationOrganization at h
  split at h
  · cases h
  · next network hget =>
    rw [hget]
    rfl

/-! ## Confinement -/

variable [EmailRules] [SemverRules]

/-- **A key is confined to its network, except by registrations**: exactly if a registration is of
a daemon that is registered there, or of a new one that names the network, or fails its checks. -/
theorem DaemonCall.confinedTo_iff (hfresh : s.Fresh) (call : DaemonCall) :
    call.ConfinedTo s (.daemon networkId keyId headerId) networkId ↔ call.Permitted s networkId := by
  cases call with
  | register request =>
    refine Program.wp.iff ?_
    simp only [run, DaemonHandlers.registerDaemon, DaemonService.processRegistration, Program.wp_bind, wp_authorize,
      Program.wp_get, wp_runStatement]
    refine ⟨fun _ => ⟨fun org horg => ?_, fun e he => ?_⟩, fun e he => by cases he⟩
    · have hpermitted : (register request).Permitted s networkId ↔ (register request).Own s networkId := by
        simp [Permitted, horg, Except.isOk, Except.toBool]
      simp only [hpermitted]
      cases hget : s.tables.daemons.get request.daemonId with
      | some daemon =>
        have hown : (register request).Own s networkId ↔ daemon.networkId = networkId := by
          simp [Own, daemonId, hget]
        have hid : (DaemonService.reregistered request
          (request.version.bind SemverRules.parse) s.tables.db.now daemon).id =
            daemon.id := rfl
        simp only [Program.wp_bind, DaemonService.wp_update hget hid, Program.wp_pure]
        refine ⟨And.left, fun h => ⟨h, ?_⟩⟩
        exact DaemonService.confined_update hget (hown.mp h) rfl (hown.mp h)
      | none =>
        have hown : (register request).Own s networkId ↔ request.networkId = networkId := by
          simp [Own, daemonId, hget]
        simp only [Program.wp_bind, Program.wp_pure]
        by_cases h : request.networkId = networkId
        · refine DaemonService.wp_registerNew.mono (fun _ t ht => ?_) fun _ t ht => ?_
          · exact iff_of_true ⟨hown.mpr h, h ▸ ht⟩ (hown.mpr h)
          · exact iff_of_true ⟨h ▸ ht, .inl (hown.mpr h)⟩ (hown.mpr h)
        · have hforeign : ¬ (register request).Own s networkId := fun hmem => h (hown.mp hmem)
          have hnetwork := network_of_registrationOrganization horg
          refine (DaemonService.wp_registerNew_host hnetwork hfresh.1 hfresh.2).mono (fun _ t _ => ?_) fun _ t hne =>
            ?_
          · exact iff_of_false (fun hmem => hforeign hmem.1) hforeign
          · exact iff_of_false (fun hmem => hmem.2.elim hforeign hne) hforeign
    · exact iff_of_true ⟨.refl, .inr trivial⟩ (.inr (by rw [he]; rfl))
  | startup id daemonVersion =>
    refine iff_of_true ?_ trivial
    simp only [ConfinedTo, run, Program.wp_bind, Program.wp_pure]
    refine confined_of_pathDaemon rfl fun daemon hget hnetwork => ?_
    simp only [DaemonService.processStartup, Program.wp_bind, Program.wp_pure]
    exact confined_modifyDaemon hget hnetwork fun _ _ => ⟨rfl, rfl⟩
  | updateCapabilities id capabilities =>
    refine iff_of_true ?_ trivial
    exact confined_of_pathDaemon rfl fun daemon hget hnetwork =>
      confined_modifyDaemon hget hnetwork fun _ _ => ⟨rfl, rfl⟩
  | requestWork id status =>
    refine iff_of_true ?_ trivial
    simp only [ConfinedTo, run, Program.wp_bind, Program.wp_pure]
    refine confined_of_pathDaemon rfl fun daemon hget hnetwork => ?_
    split
    · exact Confined.refl
    · have hstatus : wp (DaemonService.processStatus id status) (fun _ => Confined networkId s)
          (fun _ => Confined networkId s) s := confined_modifyDaemon hget hnetwork fun _ _ => ⟨rfl, rfl⟩
      have hwork : Keeps (Confined networkId) (do
          let nextSession ← DaemonService.getPendingWork id
          let cancellation ← DaemonService.getPendingCancellation id
          return (nextSession, cancellation.isSome)) :=
        keeps_getPendingWork.bind fun _ => keeps_getPendingCancellation.bind fun _ => .pure
      rw [Program.wp_bind]
      exact hstatus.mono (fun _ _ ht => hwork.later ht) fun _ _ h => h
  | heartbeat id payload =>
    refine iff_of_true ?_ trivial
    exact confined_of_pathDaemon rfl fun daemon hget hnetwork =>
      confined_modifyDaemon hget hnetwork fun _ _ => ⟨rfl, rfl⟩

end

/-! ## Two tenants -/

/-- Networks 10 and 20 of two organizations, with a daemon 8 in network 20. -/
def twoNetworks : DaemonServer where
  tables :=
    { accounts :=
        { organizations := ⟨[{ id := 2 }, { id := 3 }], by decide⟩
          networks := ⟨[{ id := 10, organizationId := 2 }, { id := 20, organizationId := 3 }], by decide⟩
          users := ⟨[{ id := 5, base := { email := "ada@example.org", organizationId := 3 } }], by decide⟩ }
      daemons := ⟨[{ id := 8, networkId := 20, mode := .daemonPoll }], by decide⟩
      db := { drawn := [101, 102, 103, 104, 105, 106, 107, 108] } }

/-- A key of network 10 registers a daemon in its own network. -/
theorem confined_when_registered_at_home :
    @DaemonCall.ConfinedTo ⟨fun _ => none, id⟩ ⟨fun _ => none, fun _ _ => false⟩ twoNetworks (.daemon 10 1 7) 10
      (.register { daemonId := 7, networkId := 10, userId := 5 }) :=
  let _ : EmailRules := ⟨fun _ => none, id⟩
  let _ : SemverRules := ⟨fun _ => none, fun _ _ => false⟩
  (DaemonCall.confinedTo_iff (by decide +kernel) _).mpr (by decide +kernel)

/-- A key of network 10 registers a daemon, with a host, in network 20, and takes over the daemon there. -/
theorem foreign_daemons_registered :
    ¬ @DaemonCall.ConfinedTo ⟨fun _ => none, id⟩ ⟨fun _ => none, fun _ _ => false⟩ twoNetworks (.daemon 10 1 7) 10
        (.register { daemonId := 7, networkId := 20, userId := 5 }) ∧
      ¬ @DaemonCall.ConfinedTo ⟨fun _ => none, id⟩ ⟨fun _ => none, fun _ _ => false⟩ twoNetworks (.daemon 10 1 7) 10
        (.register { daemonId := 8, networkId := 20, name := "mine" }) := by
  let _ : EmailRules := ⟨fun _ => none, id⟩
  let _ : SemverRules := ⟨fun _ => none, fun _ _ => false⟩
  constructor
  · intro h
    have hown := h.mono (R := fun _ _ => DaemonCall.Own twoNetworks 10 _) (fun _ _ h => h.1) fun _ _ _ => trivial
    exact absurd hown (by decide +kernel)
  · intro h
    have hown := h.mono (R := fun _ _ => DaemonCall.Own twoNetworks 10 _) (fun _ _ h => h.1) fun _ _ _ => trivial
    exact absurd hown (by decide +kernel)

end Netvisor
