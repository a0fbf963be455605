/-
What the endpoints tell of the SNMP communities: two runs of the server beside
each other, which differ in the communities only, and what somebody sees of
them.

A session is given its credentials when it starts, and carries them into every
answer, update and row made of it; a discovery is listed with those it was
stored with. So the runs are told apart exactly when a session or a discovery of
a network one may see comes by credentials that differ.
-/
import Netvisor.Discovery.Veil

namespace Netvisor

open Transition

/-! ## Communities -/

def SnmpCredential.sanitized (credential : SnmpCredential) : SnmpCredential :=
  { credential with community := redacted }

theorem SnmpCredential.id_sanitized (credential : SnmpCredential) : credential.sanitized.id = credential.id := rfl

namespace Tables

variable {tables tables' : Tables}

def sanitized (tables : Tables) : Tables :=
  { tables with snmpCredentials :=
    tables.snmpCredentials.modify SnmpCredential.sanitized SnmpCredential.id_sanitized }

theorem buildCredentialsForDiscovery_sanitized {networkId : Uuid} :
    tables.sanitized.buildCredentialsForDiscovery networkId =
      (tables.buildCredentialsForDiscovery networkId).sanitized := by
  have hget (id : Uuid) : tables.sanitized.snmpCredentials.get id =
      (tables.snmpCredentials.get id).map SnmpCredential.sanitized :=
    Table.get_modify SnmpCredential.id_sanitized
  have hquery (credential : SnmpCredential) : credential.sanitized.query = credential.query.sanitized := rfl
  have hdefault : tables.sanitized.networkCredential networkId =
      (tables.networkCredential networkId).map SnmpQueryCredential.sanitized := by
    unfold networkCredential
    simp only [hget, Option.map_bind, Option.map_map, Function.comp_def, hquery]
    rfl
  have hhost (host : Host) : tables.sanitized.hostOverrides networkId host =
      (tables.hostOverrides networkId host).map fun o => { ip := o.ip, credential := o.credential.sanitized } := by
    unfold hostOverrides
    cases host.base.snmpCredentialId with
    | none => rfl
    | some id =>
      rw [Option.bind_some, Option.bind_some, hget]
      cases tables.snmpCredentials.get id with
      | none => rfl
      | some credential =>
        dsimp only [Option.map_some]
        rw [List.map_map]
        rfl
  unfold buildCredentialsForDiscovery SnmpCredentialMapping.sanitized
  dsimp only
  rw [hdefault, List.map_flatMap, funext hhost]
  rfl

/-- Tables that differ in the communities give credentials that do. -/
theorem sanitized_buildCredentialsForDiscovery (h : tables.sanitized = tables'.sanitized) (networkId : Uuid) :
    (tables.buildCredentialsForDiscovery networkId).sanitized =
      (tables'.buildCredentialsForDiscovery networkId).sanitized := by
  rw [← buildCredentialsForDiscovery_sanitized, h, buildCredentialsForDiscovery_sanitized]

end Tables

/-- The credentials are all that sanitizing changes. -/
theorem DiscoveryType.eq_of_sanitized {t t' : DiscoveryType} (h : t.sanitized = t'.sanitized)
    (hc : t.snmpCredentials = t'.snmpCredentials) : t = t' := by
  cases t with
  | network subnetIds hostNamingFallback snmpCredentials probeRawSocketPorts =>
    cases t' with
    | network subnetIds' hostNamingFallback' snmpCredentials' probeRawSocketPorts' =>
      injection h with hsubnets hnaming _ hprobe
      injection hc with hc
      rw [hsubnets, hnaming, hprobe, hc]
    | _ => cases hc
  | _ =>
    cases t' with
    | network _ _ _ _ => cases hc
    | _ => exact h

theorem DiscoveryUpdatePayload.eq_of_sanitized {p q : DiscoveryUpdatePayload} (h : p.sanitized = q.sanitized)
    (hc : p.discoveryType.snmpCredentials = q.discoveryType.snmpCredentials) : p = q := by
  obtain ⟨_, _, _, _, t, _, _, _, _⟩ := p
  obtain ⟨_, _, _, _, t', _, _, _, _⟩ := q
  simp only [sanitized, mk.injEq] at h
  obtain ⟨rfl, rfl, rfl, rfl, ht, rfl, rfl, rfl, rfl⟩ := h
  rw [t.eq_of_sanitized ht hc]

/-- Payloads that differ in the communities look the same where these are veiled, or the same. -/
theorem DiscoveryUpdatePayload.veiled_eq {networkIds : List Uuid} {p q : DiscoveryUpdatePayload}
    (h : p.sanitized = q.sanitized) (hc : networkIds.contains p.networkId = true →
      p.discoveryType.snmpCredentials = q.discoveryType.snmpCredentials) :
    p.veiled networkIds = q.veiled networkIds := by
  have hnetwork : p.networkId = q.networkId := (congrArg DiscoveryUpdatePayload.networkId h :)
  by_cases hin : networkIds.contains p.networkId = true
  · rw [p.eq_of_sanitized h (hc hin)]
  · rw [veiled_of_not_mem hin, veiled_of_not_mem (hnetwork ▸ hin), h]

/-- The credentials of the run a row is the result of. -/
def RunType.credentials : RunType → Option SnmpCredentialMapping
  | historical results => results.discoveryType.snmpCredentials
  | _ => none

theorem RunType.eq_of_sanitized {r r' : RunType} (h : r.sanitized = r'.sanitized)
    (hc : r.credentials = r'.credentials) : r = r' := by
  cases r with
  | historical results =>
    cases r' with
    | historical results' =>
      injection h with h
      rw [results.eq_of_sanitized h hc]
    | _ => cases h
  | _ =>
    cases r' with
    | historical _ => cases h
    | _ => exact h

/-- The credentials in a row: those of its own type, and those of the run it is the result of. -/
def Discovery.credentials (d : Discovery) : List (Option SnmpCredentialMapping) :=
  [d.base.discoveryType.snmpCredentials, d.base.runType.credentials]

/-- They are all that sanitizing changes. -/
theorem Discovery.eq_of_sanitized {d d' : Discovery} (h : d.sanitized = d'.sanitized)
    (hc : d.credentials = d'.credentials) : d = d' := by
  obtain ⟨_, _, _, ⟨t, r, _, _, _, _⟩⟩ := d
  obtain ⟨_, _, _, ⟨t', r', _, _, _, _⟩⟩ := d'
  simp only [sanitized, mk.injEq, DiscoveryBase.mk.injEq] at h
  simp only [credentials, List.cons.injEq, and_true] at hc
  obtain ⟨rfl, rfl, rfl, ht, hr, rfl, rfl, rfl, rfl⟩ := h
  rw [t.eq_of_sanitized ht hc.1, r.eq_of_sanitized hr hc.2]

/-- Rows that differ in the communities look the same where these are veiled, or the same. -/
theorem Discovery.veiled_eq {networkIds : List Uuid} {d d' : Discovery} (h : d.sanitized = d'.sanitized)
    (hc : networkIds.contains d.base.networkId = true → d.credentials = d'.credentials) :
    d.veiled networkIds = d'.veiled networkIds := by
  have hnetwork : d.base.networkId = d'.base.networkId := (congrArg (fun d : Discovery => d.base.networkId) h :)
  by_cases hin : networkIds.contains d.base.networkId = true
  · rw [d.eq_of_sanitized h (hc hin)]
  · rw [Discovery.veiled_of_not_mem hin, Discovery.veiled_of_not_mem (hnetwork ▸ hin), h]

/-- Rows that look the same differ in the communities at most. -/
theorem Discovery.sanitized_of_veiled {networkIds : List Uuid} {d d' : Discovery}
    (h : d.veiled networkIds = d'.veiled networkIds) : d.sanitized = d'.sanitized := by
  have hnetwork : d.base.networkId = d'.base.networkId := (congrArg (fun d : Discovery => d.base.networkId) h :)
  by_cases hin : networkIds.contains d.base.networkId = true
  · rw [Discovery.veiled_of_mem hin, Discovery.veiled_of_mem (hnetwork ▸ hin)] at h
    rw [h]
  · rw [Discovery.veiled_of_not_mem hin, Discovery.veiled_of_not_mem (hnetwork ▸ hin)] at h
    exact h

/-! ## Two servers -/

namespace SessionServer

/-- The communities taken out of a step. -/
def Action.sanitized : Action → Action
  | .sessions a => .sessions a.sanitized
  | .start discovery sessionId => .start discovery.sanitized sessionId
  | .write tables => .write tables.sanitized
  | .store discovery => .store discovery.sanitized
  | a => a

/-- The same steps, apart from the communities in them. -/
def SameButCommunities (a a' : Action) : Prop := a.sanitized = a'.sanitized

/-- The servers look the same, in what is shown of the networks. -/
structure Alike (networkIds : List Uuid) (s t : SessionServer) : Prop where
  tables : s.tables.sanitized = t.tables.sanitized
  sessions : s.sessions.Alike networkIds t.sessions
  starting : s.starting.map (fun r => (r.1, r.2.1.veiled networkIds, r.2.2.veiled networkIds)) =
    t.starting.map fun r => (r.1, r.2.1.veiled networkIds, r.2.2.veiled networkIds)
  answers : s.answers.map (fun a => (a.1, a.2.map (·.veiled networkIds))) =
    t.answers.map fun a => (a.1, a.2.map (·.veiled networkIds))

/-- The credentials a session of the discovery is given. -/
def hydrated (networkIds : List Uuid) (s : SessionServer) (discovery : Discovery) : Option SnmpCredentialMapping :=
  if networkIds.contains discovery.base.networkId then
    discovery.base.discoveryType.snmpCredentials.map fun _ =>
      s.tables.buildCredentialsForDiscovery discovery.base.networkId
  else none

/-- The credentials a step brings to one of the networks: those of the tables
where it starts a scan, those a daemon reports with an update that is not
dropped, and those of a discovery that is stored. -/
def credentials (networkIds : List Uuid) (s : SessionServer) : Action → List (Option SnmpCredentialMapping)
  | .sessions (.updateSession _ update) =>
    if networkIds.contains update.networkId && !s.sessions.service.ignores update then
      [update.discoveryType.snmpCredentials]
    else []
  | .start discovery _ => [s.hydrated networkIds discovery]
  | .request entity discoveryId _ =>
    match DiscoveryHandlers.startSession entity s discoveryId with
    | .ok discovery => [s.hydrated networkIds discovery]
    | .error _ => []
  | .store discovery => if networkIds.contains discovery.base.networkId then discovery.credentials else []
  | _ => []

end SessionServer

/-- The communities of the discovery are not those of its new session. -/
theorem DiscoveryService.sanitized_sessionPayload {d d' : Discovery} {c c' : SnmpCredentialMapping}
    (hd : d.sanitized = d'.sanitized) (hc : c.sanitized = c'.sanitized) (sessionId : Uuid) :
    (sessionPayload d sessionId c).sanitized = (sessionPayload d' sessionId c').sanitized := by
  obtain ⟨_, _, _, ⟨t, _, _, _, _, _⟩⟩ := d
  obtain ⟨_, _, _, ⟨t', _, _, _, _, _⟩⟩ := d'
  simp only [Discovery.sanitized, Discovery.mk.injEq, DiscoveryBase.mk.injEq] at hd
  obtain ⟨-, -, -, ht, -, -, rfl, rfl, -⟩ := hd
  cases t with
  | network subnetIds hostNamingFallback snmpCredentials probeRawSocketPorts =>
    cases t' with
    | network subnetIds' hostNamingFallback' snmpCredentials' probeRawSocketPorts' =>
      injection ht with hsubnets hnaming _ hprobe
      simp only [sessionPayload, DiscoveryUpdatePayload.sanitized, DiscoveryUpdatePayload.new,
        DiscoveryType.sanitized, hsubnets, hnaming, hprobe, hc]
    | _ => cases ht
  | _ =>
    cases t' with
    | network _ _ _ _ => cases ht
    | _ => cases ht <;> rfl

theorem Discovery.networkId_ran {discovery : Discovery} {now : DateTime} :
    (discovery.ran now).base.networkId = discovery.base.networkId := rfl

/-- The last run of a discovery is no secret. -/
theorem Discovery.veiled_ran {networkIds : List Uuid} {discovery : Discovery} {now : DateTime} :
    (discovery.ran now).veiled networkIds = (discovery.veiled networkIds).ran now := by
  obtain ⟨id, createdAt, updatedAt, ⟨discoveryType, runType, name, daemonId, networkId, tags⟩⟩ := discovery
  cases runType <;> rfl

namespace SessionServer

variable {networkIds : List Uuid} {s s' t t' : SessionServer} {discovery discovery' : Discovery} {sessionId : Uuid}

theorem networkId_payload (s : SessionServer) (discovery : Discovery) (sessionId : Uuid) :
    (s.payload discovery sessionId).networkId = discovery.base.networkId := rfl

theorem snmpCredentials_payload (s : SessionServer) (discovery : Discovery) (sessionId : Uuid) :
    (s.payload discovery sessionId).discoveryType.snmpCredentials =
    discovery.base.discoveryType.snmpCredentials.map fun _ =>
      s.tables.buildCredentialsForDiscovery discovery.base.networkId := by
  unfold payload DiscoveryService.sessionPayload
  cases discovery.base.discoveryType <;> rfl

/-- A start stores the session, and leaves the rest of it to be done. -/
theorem start_eq_some (h : s.start discovery sessionId = some s') :
    s' = { s with
      sessions.service := s.sessions.service.setSession (s.payload discovery sessionId)
      sessions.calls := .startRead (s.payload discovery sessionId) :: s.sessions.calls } := by
  simp only [start, Sessions.step] at h
  split at h
  · next sessions hsessions =>
    split at hsessions <;> cases hsessions
    cases h
    rfl
  · cases h

/-- A section leaves all but the sessions. -/
theorem step_sessions {b : Sessions.Action} (h : s.step (.sessions b) = some s') :
    ∃ sessions, Sessions.step s.sessions b = some sessions ∧ s' = { s with sessions } := by
  cases b with
  | startSession discovery sessionId snmpCredentials => cases h
  | _ =>
    simp only [step] at h
    split at h
    · next sessions hsessions =>
      cases h
      exact ⟨sessions, hsessions, rfl⟩
    · cases h

namespace Alike

theorem startSession_cases (h : Alike networkIds s t) (entity : AuthenticatedEntity) (discoveryId : Uuid) :
    (∃ e, DiscoveryHandlers.startSession entity s discoveryId = .error e ∧
        DiscoveryHandlers.startSession entity t discoveryId = .error e) ∨
      ∃ d d', DiscoveryHandlers.startSession entity s discoveryId = .ok d ∧
        DiscoveryHandlers.startSession entity t discoveryId = .ok d' ∧
            d.veiled networkIds = d'.veiled networkIds := by
  have hget := h.sessions.service.getById discoveryId
  unfold DiscoveryHandlers.startSession
  cases PermissionRequirement.member.authorized entity with
  | some e => exact .inl ⟨e, rfl, rfl⟩
  | none =>
    cases hs : s.sessions.service.getById discoveryId with
    | none =>
      rw [hs, Option.map_none, eq_comm, Option.map_eq_none_iff] at hget
      rw [hget]
      exact .inl ⟨_, rfl, rfl⟩
    | some d =>
      rw [hs, Option.map_some, eq_comm, Option.map_eq_some_iff] at hget
      obtain ⟨d', ht, hd⟩ := hget
      have hnetwork : d'.base.networkId = d.base.networkId := (congrArg (fun d : Discovery => d.base.networkId) hd :)
      rw [ht]
      dsimp only
      rw [hnetwork]
      split
      · exact .inl ⟨_, rfl, rfl⟩
      · refine .inr ⟨_, _, rfl, rfl, ?_⟩
        rw [Discovery.veiled_ran, Discovery.veiled_ran, hd, h.sessions.now]

theorem payload (h : Alike networkIds s t) (hd : discovery.sanitized = discovery'.sanitized)
    (hsame : s.hydrated networkIds discovery = t.hydrated networkIds discovery') (sessionId : Uuid) :
    (s.payload discovery sessionId).veiled networkIds = (t.payload discovery' sessionId).veiled networkIds := by
  have hnetwork : discovery.base.networkId = discovery'.base.networkId :=
    (congrArg (fun d : Discovery => d.base.networkId) hd :)
  refine DiscoveryUpdatePayload.veiled_eq ?_ fun hin => ?_
  · refine DiscoveryService.sanitized_sessionPayload hd ?_ sessionId
    rw [← hnetwork]
    exact Tables.sanitized_buildCredentialsForDiscovery h.tables discovery.base.networkId
  · rw [networkId_payload] at hin
    rw [hydrated, hydrated, ← hnetwork, if_pos hin, if_pos hin] at hsame
    rw [snmpCredentials_payload, snmpCredentials_payload, ← hnetwork]
    exact hsame

theorem start (h : Alike networkIds s t) (hd : discovery.sanitized = discovery'.sanitized)
    (hsame : s.hydrated networkIds discovery = t.hydrated networkIds discovery')
    (hs : s.start discovery sessionId = some s') (ht : t.start discovery' sessionId = some t') :
    Alike networkIds s' t' := by
  rw [start_eq_some hs, start_eq_some ht]
  exact { h with sessions := h.sessions.store (h.payload hd hsame sessionId) }

/-- An answer that looks the same is given. -/
theorem answer (h : Alike networkIds s t) (entity : AuthenticatedEntity)
    {r r' : Except ApiError DiscoveryUpdatePayload}
    (hr : r.map (·.veiled networkIds) = r'.map (·.veiled networkIds)) :
    Alike networkIds { s with answers := (entity, r) :: s.answers } { t with answers := (entity, r') :: t.answers } :=
  { h with answers := by rw [List.map_cons, List.map_cons, h.answers, hr] }

theorem respond (h : Alike networkIds s t) (hd : discovery.veiled networkIds = discovery'.veiled networkIds)
    {p q : DiscoveryUpdatePayload} (hp : p.veiled networkIds = q.veiled networkIds) (entity : AuthenticatedEntity) :
    Alike networkIds (s.respond entity discovery p) (t.respond entity discovery' q) := by
  unfold SessionServer.respond
  rcases h.sessions.service.updateDiscovery hd with ⟨e, hs, ht⟩ | ⟨u, u', hs, ht, hu⟩
  · rw [hs, ht]
    exact h.answer entity rfl
  · rw [hs, ht]
    have hupdated : Alike networkIds { s with sessions.service := u } { t with sessions.service := u' } :=
      { h with sessions := { h.sessions with service := hu } }
    exact hupdated.answer entity (congrArg Except.ok hp)

/-- Both take a step, and give no session of the networks other credentials. -/
theorem step (h : Alike networkIds s t) {a a' : Action} (ha : SameButCommunities a a')
    (hsame : s.credentials networkIds a = t.credentials networkIds a') (hs : s.step a = some s')
    (ht : t.step a' = some t') : Alike networkIds s' t' := by
  cases a with
  | sessions b =>
    cases a' with
    | sessions b' =>
      have hb : b.sanitized = b'.sanitized := by injection ha
      obtain ⟨u, hu, rfl⟩ := step_sessions hs
      obtain ⟨u', hu', rfl⟩ := step_sessions ht
      refine { h with sessions := h.sessions.step hb ?_ hu hu' }
      rintro sender p sender' q rfl rfl hkept
      have hp : p.sanitized = q.sanitized := by injection hb
      have hnetwork : p.networkId = q.networkId := (congrArg DiscoveryUpdatePayload.networkId hp :)
      refine DiscoveryUpdatePayload.veiled_eq hp fun hin => ?_
      simp only [credentials] at hsame
      rw [← h.sessions.service.ignores hp, hkept, ← hnetwork, hin] at hsame
      exact (List.cons.inj hsame).1
    | _ => cases ha
  | start discovery sessionId =>
    cases a' with
    | start discovery' sessionId' =>
      injection ha with hd hid
      cases hid
      simp only [credentials, List.cons.injEq, and_true] at hsame
      exact h.start hd hsame hs ht
    | _ => cases ha
  | request entity discoveryId sessionId =>
    cases a' with
    | request entity' discoveryId' sessionId' =>
      cases ha
      simp only [SessionServer.step] at hs ht
      rcases h.startSession_cases entity discoveryId with ⟨e, hd, hd'⟩ | ⟨d, d', hd, hd', heq⟩
      · rw [hd] at hs
        rw [hd'] at ht
        cases hs
        cases ht
        exact h.answer entity rfl
      · simp only [credentials, hd, hd', List.cons.injEq, and_true] at hsame
        have hsanitized : d.sanitized = d'.sanitized := Discovery.sanitized_of_veiled heq
        rw [hd] at hs
        rw [hd'] at ht
        dsimp only at hs ht
        split at hs
        · next u hu =>
          split at ht
          · next u' hu' =>
            have hstarted := h.start hsanitized hsame hu hu'
            cases hs
            cases ht
            refine { hstarted with starting := ?_ }
            rw [List.map_cons, List.map_cons, hstarted.starting, heq, h.payload hsanitized hsame sessionId]
          · cases ht
        · cases hs
    | _ => cases ha
  | respond i =>
    cases a' with
    | respond i' =>
      cases ha
      have hstarting := congrArg (fun l : List _ => l[i]?) h.starting
      rw [List.getElem?_map, List.getElem?_map] at hstarting
      simp only [SessionServer.step] at hs ht
      split at hs
      · next entity d p hr =>
        split at ht
        · next entity' d' q hr' =>
          rw [hr, hr', Option.map_some, Option.map_some, Option.some.injEq, Prod.mk.injEq, Prod.mk.injEq] at hstarting
          obtain ⟨rfl, hd, hp⟩ := hstarting
          have hrest : Alike networkIds { s with starting := s.starting.eraseIdx i }
              { t with starting := t.starting.eraseIdx i } :=
            { h with starting := by rw [← List.eraseIdx_map, ← List.eraseIdx_map, h.starting] }
          cases hs
          cases ht
          exact hrest.respond hd hp entity
        · cases ht
      · cases hs
    | _ => cases ha
  | write tables =>
    cases a' with
    | write tables' =>
      injection ha with htables
      cases hs
      cases ht
      exact { h with tables := htables }
    | _ => cases ha
  | store discovery =>
    cases a' with
    | store discovery' =>
      injection ha with hd
      cases hs
      cases ht
      have hnetwork : discovery.base.networkId = discovery'.base.networkId :=
        (congrArg (fun d : Discovery => d.base.networkId) hd :)
      refine { h with sessions := { h.sessions with
        service := h.sessions.service.storeRow (Discovery.veiled_eq hd fun hin => ?_) } }
      simp only [credentials] at hsame
      rwa [← hnetwork, if_pos hin, if_pos hin] at hsame
    | _ => cases ha
  | delete id =>
    cases a' with
    | delete id' =>
      cases ha
      cases hs
      cases ht
      exact { h with sessions := { h.sessions with service := h.sessions.service.deleteRow id } }
    | _ => cases ha

end Alike

/-! ## Answers -/

/-- Whoever a session of the payload is shown to as an answer is a member, and may access its network. -/
def Entitled (entity : AuthenticatedEntity) (p : DiscoveryUpdatePayload) : Prop :=
  PermissionRequirement.member.authorized entity = none ∧ entity.networkIds.contains p.networkId = true

structure Admitted (s : SessionServer) : Prop where
  starting : ∀ r ∈ s.starting, Entitled r.1 r.2.2
  answers : ∀ a ∈ s.answers, ∀ p, a.2 = .ok p → Entitled a.1 p

theorem admitted_empty : Admitted {} where
  starting := List.forall_mem_nil _
  answers := List.forall_mem_nil _

theorem entitled_of_startSession {entity : AuthenticatedEntity} {discoveryId : Uuid}
    (h : DiscoveryHandlers.startSession entity s discoveryId = .ok discovery) (sessionId : Uuid) :
    Entitled entity (s.payload discovery sessionId) := by
  unfold DiscoveryHandlers.startSession at h
  split at h
  · simp only [reduceCtorEq] at h
  · next hmember =>
    split at h
    · simp only [reduceCtorEq] at h
    · next d hd =>
      split at h
      · simp only [reduceCtorEq] at h
      · next hin =>
        rw [Except.ok.injEq] at h
        rw [Bool.not_eq_true', Bool.not_eq_false] at hin
        refine ⟨hmember, ?_⟩
        rw [networkId_payload, ← h, Discovery.networkId_ran]
        exact hin

theorem Admitted.step (h : Admitted s) {a : Action} (hs : s.step a = some s') : Admitted s' := by
  cases a with
  | sessions b =>
    obtain ⟨u, -, rfl⟩ := step_sessions hs
    exact ⟨h.starting, h.answers⟩
  | start discovery sessionId =>
    rw [start_eq_some hs]
    exact ⟨h.starting, h.answers⟩
  | request entity discoveryId sessionId =>
    simp only [SessionServer.step] at hs
    split at hs
    · cases hs
      exact ⟨h.starting, List.forall_mem_cons.mpr ⟨fun _ hr => (by cases hr), h.answers⟩⟩
    · next d hd =>
      split at hs
      · next u hu =>
        cases hs
        rw [start_eq_some hu]
        exact ⟨List.forall_mem_cons.mpr ⟨entitled_of_startSession hd sessionId, h.starting⟩, h.answers⟩
      · cases hs
  | respond i =>
    simp only [SessionServer.step] at hs
    split at hs
    · next entity d p hr =>
      have hrest : ∀ r ∈ s.starting.eraseIdx i, Entitled r.1 r.2.2 := fun r hr =>
        h.starting r (List.mem_of_mem_eraseIdx hr)
      have hentitled : Entitled entity p := h.starting _ (List.mem_of_getElem? hr)
      cases hs
      unfold SessionServer.respond
      split
      · exact ⟨hrest, List.forall_mem_cons.mpr ⟨fun _ hr => (by cases hr), h.answers⟩⟩
      · refine ⟨hrest, List.forall_mem_cons.mpr ⟨fun q hq => ?_, h.answers⟩⟩
        cases hq
        exact hentitled
    · cases hs
  | write tables =>
    cases hs
    exact ⟨h.starting, h.answers⟩
  | store discovery =>
    cases hs
    exact ⟨h.starting, h.answers⟩
  | delete id =>
    cases hs
    exact ⟨h.starting, h.answers⟩

end SessionServer

/-! ## What is shown -/

/-- The networks whose sessions the endpoints show. -/
def AuthenticatedEntity.shownNetworkIds (entity : AuthenticatedEntity) : List Uuid :=
  match PermissionRequirement.viewer.authorized entity with
  | some _ => []
  | none => entity.networkIds

/-- A member is let in wherever a viewer is. -/
theorem PermissionRequirement.viewer_of_member {entity : AuthenticatedEntity} (h : member.authorized entity = none) :
    viewer.authorized entity = none := by
  have hlevel (hmember : checkLevel .member entity = none) : checkLevel .viewer entity = none := by
    unfold checkLevel at hmember ⊢
    split at hmember
    · next permissions hp =>
      split at hmember
      · next hge => exact if_pos (le_trans (by decide) hge)
      · cases hmember
    · cases hmember
  simp only [authorized, check] at h ⊢
  split at h
  · cases h
  · next hmember =>
    rw [hlevel hmember]
    exact h

def SessionServer.answersTo (entity : AuthenticatedEntity) (s : SessionServer) :
    List (Except ApiError DiscoveryUpdatePayload) :=
  (s.answers.filter fun a => a.1 == entity).map (·.2)

/-- The endpoints show somebody the same. -/
structure ShownSame (entity : AuthenticatedEntity) (s t : SessionServer) : Prop where
  startSession : s.answersTo entity = t.answersTo entity
  activeSessions : DiscoveryHandlers.getActiveSessions entity s = DiscoveryHandlers.getActiveSessions entity t
  stream : ∀ sent, DiscoveryHandlers.discoveryStream entity s sent = DiscoveryHandlers.discoveryStream entity t sent
  discoveries : ∀ query, DiscoveryHandlers.getAll entity s query = DiscoveryHandlers.getAll entity t query

/-- The steps bring the same credentials to the networks that are shown. -/
def GivenSame (entity : AuthenticatedEntity) (s : SessionServer × SessionServer)
    (a : Pair SessionServer.SameButCommunities) : Prop :=
  s.1.credentials entity.shownNetworkIds a.left = s.2.credentials entity.shownNetworkIds a.right

namespace SessionServer

variable {entity : AuthenticatedEntity} {s s' t t' : SessionServer}

/-- What is shown of the networks is not veiled. -/
theorem shownNetworkIds_of_viewer (h : PermissionRequirement.viewer.authorized entity = none) :
    entity.shownNetworkIds = entity.networkIds := by
  unfold AuthenticatedEntity.shownNetworkIds
  rw [h]

theorem Alike.answersTo (h : Alike entity.shownNetworkIds s t) (hs : Admitted s) (ht : Admitted t) :
    s.answersTo entity = t.answersTo entity := by
  have hsame {s : SessionServer} (hs : Admitted s) : ∀ a ∈ s.answers, (a.1 == entity) = true →
      (a.1, a.2.map (·.veiled entity.shownNetworkIds)) = a := by
    rintro ⟨e, r⟩ ha he
    cases r with
    | error _ => rfl
    | ok p =>
      obtain ⟨hmember, hin⟩ := hs.answers _ ha p rfl
      have he : e = entity := eq_of_beq he
      subst he
      rw [shownNetworkIds_of_viewer (PermissionRequirement.viewer_of_member hmember)]
      simp only [Except.map, DiscoveryUpdatePayload.veiled_of_mem hin]
  unfold SessionServer.answersTo
  rw [filter_eq_of_veiled (hsame hs) (hsame ht) (fun _ => rfl) h.answers]

theorem Alike.activeSessions (h : Alike entity.shownNetworkIds s t) :
    DiscoveryHandlers.getActiveSessions entity s = DiscoveryHandlers.getActiveSessions entity t := by
  unfold DiscoveryHandlers.getActiveSessions
  cases hviewer : PermissionRequirement.viewer.authorized entity with
  | some e => rfl
  | none =>
    rw [shownNetworkIds_of_viewer hviewer] at h
    have hvalues := congrArg Assoc.values h.sessions.service.sessions
    rw [Assoc.values_map, Assoc.values_map] at hvalues
    have hsame (p : DiscoveryUpdatePayload) (hp : entity.networkIds.contains p.networkId = true) :
        p.veiled entity.networkIds = p := DiscoveryUpdatePayload.veiled_of_mem hp
    unfold DiscoveryService.getAllSessions
    rw [filter_eq_of_veiled (fun p _ => hsame p) (fun p _ => hsame p) (fun _ => rfl) hvalues]

theorem Alike.stream (h : Alike entity.shownNetworkIds s t) (sent : Nat) :
    DiscoveryHandlers.discoveryStream entity s sent = DiscoveryHandlers.discoveryStream entity t sent := by
  unfold DiscoveryHandlers.discoveryStream
  cases hviewer : PermissionRequirement.viewer.authorized entity with
  | some e => rfl
  | none =>
    rw [shownNetworkIds_of_viewer hviewer] at h
    have hsent : (s.sessions.service.updates.reverse.drop sent).map (·.veiled entity.networkIds) =
        (t.sessions.service.updates.reverse.drop sent).map (·.veiled entity.networkIds) := by
      rw [List.map_drop, List.map_drop, List.map_reverse, List.map_reverse, h.sessions.service.updates]
    have hsame (p : DiscoveryUpdatePayload) (hp : entity.networkIds.contains p.networkId = true) :
        p.veiled entity.networkIds = p := DiscoveryUpdatePayload.veiled_of_mem hp
    dsimp only
    rw [filter_eq_of_veiled (fun p _ => hsame p) (fun p _ => hsame p) (fun _ => rfl) hsent]

theorem Alike.discoveries (h : Alike entity.shownNetworkIds s t) (query : DiscoveryQuery) :
    DiscoveryHandlers.getAll entity s query = DiscoveryHandlers.getAll entity t query := by
  unfold DiscoveryHandlers.getAll
  cases hviewer : PermissionRequirement.viewer.authorized entity with
  | some e => rfl
  | none =>
    rw [shownNetworkIds_of_viewer hviewer] at h
    have hsame (d : Discovery) (hd : query.selects entity.networkIds d = true) : d.veiled entity.networkIds = d := by
      simp only [DiscoveryQuery.selects, Bool.and_eq_true] at hd
      exact Discovery.veiled_of_mem hd.1.1
    rw [filter_eq_of_veiled (fun d _ => hsame d) (fun d _ => hsame d) (fun _ => rfl) h.sessions.service.discoveries]

/-- Servers that look the same are shown the same. -/
theorem Alike.shownSame (h : Alike entity.shownNetworkIds s t) (hs : Admitted s) (ht : Admitted t) :
    ShownSame entity s t where
  startSession := h.answersTo hs ht
  activeSessions := h.activeSessions
  stream := h.stream
  discoveries := h.discoveries

/-! ## What is shown differs -/

theorem viewer_of_shown {networkId : Uuid} (h : entity.shownNetworkIds.contains networkId = true) :
    PermissionRequirement.viewer.authorized entity = none := by
  unfold AuthenticatedEntity.shownNetworkIds at h
  split at h
  · cases h
  · next hviewer => exact hviewer

end SessionServer

namespace DiscoveryService

theorem mem_storeRow (v : DiscoveryService) (d : Discovery) : d ∈ (v.storeRow d).discoveries := by
  unfold storeRow
  split
  · exact List.mem_cons_self
  · next row hrow =>
    have hid : (row.id == d.id) = true := List.find?_some (p := fun d' : Discovery => d'.id == d.id) hrow
    exact List.mem_map.mpr ⟨row, List.mem_of_find?_eq_some hrow, if_pos hid⟩

/-- A stored row is the only one of its id. -/
theorem eq_of_mem_storeRow (v : DiscoveryService) {d row : Discovery} (h : row ∈ (v.storeRow d).discoveries)
    (hid : row.id = d.id) : row = d := by
  unfold storeRow at h
  split at h
  · next hnone =>
    rcases List.mem_cons.mp h with rfl | hold
    · rfl
    · exact absurd (beq_iff_eq.mpr hid) (List.find?_eq_none.mp hnone row hold)
  · obtain ⟨old, -, hold⟩ := List.mem_map.mp h
    split at hold
    · exact hold.symm
    · next hne => exact absurd (beq_iff_eq.mpr (hold ▸ hid)) hne

end DiscoveryService

namespace SessionServer

variable {entity : AuthenticatedEntity} {s s' t t' : SessionServer}

/-- A session that was started is the first one shown. -/
theorem getActiveSessions_start {discovery : Discovery} {sessionId : Uuid}
    (hs : s.start discovery sessionId = some s')
    (hin : entity.shownNetworkIds.contains discovery.base.networkId = true) :
    ∃ rest, DiscoveryHandlers.getActiveSessions entity s' = .ok (s.payload discovery sessionId :: rest) := by
  have hviewer := viewer_of_shown hin
  rw [shownNetworkIds_of_viewer hviewer, ← networkId_payload s discovery sessionId] at hin
  rw [start_eq_some hs]
  unfold DiscoveryHandlers.getActiveSessions DiscoveryService.getAllSessions DiscoveryService.setSession Assoc.values
  rw [hviewer]
  dsimp only
  rw [AList.entries_insert, List.map_cons, List.filter_cons]
  exact ⟨_, congrArg Except.ok (if_pos hin)⟩

/-- Other credentials of a session that was started are shown. -/
theorem hydrated_of_activeSessions {discovery discovery' : Discovery} {sessionId : Uuid}
    (hnetwork : discovery.base.networkId = discovery'.base.networkId)
    (hs : s.start discovery sessionId = some s') (ht : t.start discovery' sessionId = some t')
    (h : DiscoveryHandlers.getActiveSessions entity s' = DiscoveryHandlers.getActiveSessions entity t') :
    s.hydrated entity.shownNetworkIds discovery = t.hydrated entity.shownNetworkIds discovery' := by
  unfold hydrated
  rw [← snmpCredentials_payload s discovery sessionId, ← snmpCredentials_payload t discovery' sessionId, ← hnetwork]
  by_cases hin : entity.shownNetworkIds.contains discovery.base.networkId = true
  · obtain ⟨rest, hfirst⟩ := getActiveSessions_start hs hin
    obtain ⟨rest', hfirst'⟩ := getActiveSessions_start ht (hnetwork ▸ hin)
    rw [hfirst, hfirst', Except.ok.injEq, List.cons.injEq] at h
    rw [h.1]
  · rw [if_neg hin, if_neg hin]

/-- An update that is not dropped is the last one sent. -/
theorem updates_updateSession {v : DiscoveryService} {p : DiscoveryUpdatePayload} {now : DateTime}
    (h : v.ignores p = false) : (v.updateSession p now).1.updates = p :: v.updates := by
  have happly (v : DiscoveryService) (old : DiscoveryUpdatePayload) :
      (v.applyUpdate p old).1.updates = p :: v.updates := by
    unfold DiscoveryService.applyUpdate
    split <;> rfl
  unfold DiscoveryService.updateSession
  dsimp only
  split
  · rw [happly]
    rfl
  · next hnone =>
    have hget : (v.getSession p.sessionId).isNone = true := Option.isNone_iff_eq_none.mpr hnone
    unfold DiscoveryService.ignores at h
    rw [hget, Bool.true_and] at h
    rw [if_neg (by rw [h]; exact Bool.false_ne_true), happly]
    rfl

/-- Other credentials of an update that is not dropped are shown. -/
theorem eq_of_stream {p q : DiscoveryUpdatePayload} {l l' : List DiscoveryUpdatePayload}
    (hs : s.sessions.service.updates = p :: l) (ht : t.sessions.service.updates = q :: l')
    (hnetwork : p.networkId = q.networkId) (hin : entity.shownNetworkIds.contains p.networkId = true)
    (h : DiscoveryHandlers.discoveryStream entity s 0 = DiscoveryHandlers.discoveryStream entity t 0) : p = q := by
  have hviewer := viewer_of_shown hin
  rw [shownNetworkIds_of_viewer hviewer] at hin
  have hlast (p : DiscoveryUpdatePayload) (l : List DiscoveryUpdatePayload)
      (hp : entity.networkIds.contains p.networkId = true) :
      (((p :: l).reverse.drop 0).filter fun update => entity.networkIds.contains update.networkId).getLast? =
      some p := by
    rw [List.drop_zero, List.reverse_cons, List.filter_append, List.filter_cons, if_pos hp, List.filter_nil,
      List.getLast?_concat]
  unfold DiscoveryHandlers.discoveryStream at h
  rw [hviewer, hs, ht] at h
  dsimp only at h
  rw [Except.ok.injEq] at h
  have hsame := congrArg List.getLast? h
  rw [hlast p l hin, hlast q l' (hnetwork ▸ hin), Option.some.injEq] at hsame
  exact hsame

/-- Whoever may view is a user, or the key of one. -/
theorem organizationId_of_viewer (h : PermissionRequirement.viewer.authorized entity = none) :
    ∃ organizationId, entity.organizationId = some organizationId := by
  cases entity with
  | user userId organizationId permissions networkIds emailVerified => exact ⟨organizationId, rfl⟩
  | apiKey apiKeyId userId organizationId permissions networkIds => exact ⟨organizationId, rfl⟩
  | _ => cases h

/-- A list without a limit is of every row of the networks. -/
theorem getAll_unlimited (s : SessionServer) (h : PermissionRequirement.viewer.authorized entity = none) :
    ∃ page, DiscoveryHandlers.getAll entity s { limit := some 0 } = .ok page ∧ ∀ d,
      d ∈ page.items ↔
        d ∈ s.sessions.service.discoveries ∧ entity.networkIds.contains d.base.networkId = true := by
  obtain ⟨organizationId, horganization⟩ := organizationId_of_viewer h
  unfold DiscoveryHandlers.getAll
  rw [h, horganization]
  refine ⟨_, rfl, fun d => ?_⟩
  simp only [DiscoveryQuery.effectiveLimit, DiscoveryQuery.effectiveOffset, Option.getD_none, List.drop_zero,
    (List.perm_insertionSort _ _).mem_iff, List.mem_filter, DiscoveryQuery.selects, Option.all_none, Bool.and_true]

/-- Other credentials of a row that is stored are shown. -/
theorem eq_of_discoveries {v w : DiscoveryService} {d d' : Discovery}
    (hs : s.sessions.service = v.storeRow d) (ht : t.sessions.service = w.storeRow d') (hid : d.id = d'.id)
    (hin : entity.shownNetworkIds.contains d.base.networkId = true)
    (h : ∀ query, DiscoveryHandlers.getAll entity s query = DiscoveryHandlers.getAll entity t query) : d = d' := by
  have hviewer := viewer_of_shown hin
  rw [shownNetworkIds_of_viewer hviewer] at hin
  obtain ⟨page, hpage, hitems⟩ := getAll_unlimited s hviewer
  obtain ⟨page', hpage', hitems'⟩ := getAll_unlimited t hviewer
  have hsame : page = page' := Except.ok.inj (hpage.symm.trans ((h _).trans hpage'))
  have hlisted : d ∈ page.items := (hitems d).mpr ⟨hs ▸ v.mem_storeRow d, hin⟩
  have hstored : d ∈ (w.storeRow d').discoveries := ht ▸ ((hitems' d).mp (hsame ▸ hlisted)).1
  exact w.eq_of_mem_storeRow hstored hid

/-- A step that brings other credentials shows them. -/
theorem Alike.credentials_of_shownSame (h : Alike entity.shownNetworkIds s t) {a a' : Action}
    (ha : SameButCommunities a a') (hs : s.step a = some s') (ht : t.step a' = some t')
    (hshown : ShownSame entity s' t') :
    s.credentials entity.shownNetworkIds a = t.credentials entity.shownNetworkIds a' := by
  cases a with
  | sessions b =>
    cases a' with
    | sessions b' =>
      have hb : b.sanitized = b'.sanitized := by injection ha
      cases b with
      | updateSession sender p =>
        cases b' with
        | updateSession sender' q =>
          have hp : p.sanitized = q.sanitized := by injection hb
          have hnetwork : p.networkId = q.networkId := (congrArg DiscoveryUpdatePayload.networkId hp :)
          simp only [credentials]
          rw [← h.sessions.service.ignores hp, ← hnetwork]
          by_cases hshows : (entity.shownNetworkIds.contains p.networkId && !s.sessions.service.ignores p) = true
          · rw [Bool.and_eq_true, Bool.not_eq_true'] at hshows
            obtain ⟨hin, hkept⟩ := hshows
            have hupdated {s s' : SessionServer} {sender : Sender} {p : DiscoveryUpdatePayload}
                (hs : s.step (.sessions (.updateSession sender p)) = some s')
                (hkept : s.sessions.service.ignores p = false) :
                s'.sessions.service.updates = p :: s.sessions.service.updates := by
              obtain ⟨u, hu, rfl⟩ := step_sessions hs
              simp only [Sessions.step] at hu
              split at hu <;> cases hu
              exact updates_updateSession hkept
            have hkept' : t.sessions.service.ignores q = false := h.sessions.service.ignores hp ▸ hkept
            rw [eq_of_stream (hupdated hs hkept) (hupdated ht hkept') hnetwork hin (hshown.stream 0)]
          · rw [if_neg hshows, if_neg hshows]
        | _ => cases hb
      | _ =>
        cases b' with
        | updateSession sender' q => cases hb
        | _ => rfl
    | _ => cases ha
  | start discovery sessionId =>
    cases a' with
    | start discovery' sessionId' =>
      injection ha with hd hid
      cases hid
      have hnetwork : discovery.base.networkId = discovery'.base.networkId :=
        (congrArg (fun d : Discovery => d.base.networkId) hd :)
      simp only [credentials, hydrated_of_activeSessions hnetwork hs ht hshown.activeSessions]
    | _ => cases ha
  | request requester discoveryId sessionId =>
    cases a' with
    | request requester' discoveryId' sessionId' =>
      cases ha
      simp only [SessionServer.step] at hs ht
      simp only [credentials]
      rcases h.startSession_cases requester discoveryId with ⟨e, hd, hd'⟩ | ⟨d, d', hd, hd', heq⟩
      · rw [hd, hd']
      · rw [hd] at hs ⊢
        rw [hd'] at ht ⊢
        dsimp only at hs ht ⊢
        split at hs
        · next u hu =>
          split at ht
          · next u' hu' =>
            cases hs
            cases ht
            have hnetwork : d.base.networkId = d'.base.networkId :=
              (congrArg (fun d : Discovery => d.base.networkId) heq :)
            rw [hydrated_of_activeSessions hnetwork hu hu' hshown.activeSessions]
          · cases ht
        · cases hs
    | _ => cases ha
  | store discovery =>
    cases a' with
    | store discovery' =>
      injection ha with hd
      cases hs
      cases ht
      have hnetwork : discovery.base.networkId = discovery'.base.networkId :=
        (congrArg (fun d : Discovery => d.base.networkId) hd :)
      simp only [credentials, ← hnetwork]
      by_cases hin : entity.shownNetworkIds.contains discovery.base.networkId = true
      · have hid : discovery.id = discovery'.id := (congrArg Discovery.id hd :)
        rw [eq_of_discoveries rfl rfl hid hin hshown.discoveries]
      · rw [if_neg hin, if_neg hin]
    | _ => cases ha
  | _ =>
    cases a' with
    | sessions _ => cases ha
    | start _ _ => cases ha
    | request _ _ _ => cases ha
    | store _ => cases ha
    | _ => rfl

end SessionServer

open SessionServer in
/-- **Two runs that differ in the communities show somebody the same, exactly
when no step brings other credentials to a network they are shown.** -/
theorem shownSame_iff_givenSame (entity : AuthenticatedEntity) (as : List (Pair SameButCommunities)) :
    Visits (pairStep SessionServer.step) (fun s => ShownSame entity s.1 s.2) ({}, {}) as ↔
      Along (pairStep SessionServer.step) (GivenSame entity) ({}, {}) as := by
  refine visits_iff_along (I := fun s => s.1.Alike entity.shownNetworkIds s.2 ∧ s.1.Admitted ∧ s.2.Admitted)
    (fun s a t hI hok ht => ?_) (fun s hI => hI.1.shownSame hI.2.1 hI.2.2) (fun s a t hI ht hP => ?_) ?_
  · obtain ⟨hleft, hright⟩ := pairStep_eq_some.mp ht
    exact ⟨hI.1.step a.related hok hleft hright, hI.2.1.step hleft, hI.2.2.step hright⟩
  · obtain ⟨hleft, hright⟩ := pairStep_eq_some.mp ht
    exact hI.1.credentials_of_shownSame a.related hleft hright hP
  · exact ⟨⟨rfl, ⟨⟨rfl, rfl, rfl, rfl, rfl, rfl⟩, rfl, rfl, rfl⟩, rfl, rfl⟩, admitted_empty, admitted_empty⟩

/-- A scan of a network with a credential of its own, started by a member: the
community comes back with the answer, and is in the list of active sessions. -/
theorem communities_shown : ¬∀ (entity : AuthenticatedEntity) (as : List (Pair SessionServer.SameButCommunities)),
    Visits (pairStep SessionServer.step) (fun s => ShownSame entity s.1 s.2) ({}, {}) as := by
  intro h
  let member : AuthenticatedEntity := .user ⟨1⟩ ⟨2⟩ .member [⟨3⟩] true
  let scan : Discovery := ⟨⟨4⟩, 0, 0, ⟨.network none .bestService {} false, .adHoc none, "Scan", ⟨5⟩, ⟨3⟩, []⟩⟩
  let tables (community : String) : Tables :=
    { accounts.networks :=
        ⟨[{ id := ⟨3⟩, organizationId := ⟨2⟩, snmpCredentialId := some ⟨6⟩ }], List.nodup_singleton _⟩
      snmpCredentials := ⟨[{ id := ⟨6⟩, organizationId := ⟨2⟩, community }], List.nodup_singleton _⟩ }
  have hrun := h member
    [⟨.write (tables "public"), .write (tables "secret"), rfl⟩,
      ⟨.store scan, .store scan, rfl⟩,
      ⟨.request member ⟨4⟩ ⟨7⟩, .request member ⟨4⟩ ⟨7⟩, rfl⟩,
      ⟨.respond 0, .respond 0, rfl⟩]
  have hanswers := hrun.2.mono (S := fun _ _ t =>
    (t.1.answersTo member).map Except.toOption = (t.2.answersTo member).map Except.toOption)
    fun _ _ t _ hshown => congrArg (List.map Except.toOption) hshown.startSession
  exact absurd hanswers (by decide +kernel)

end Netvisor
