/-
Discoveries of hosts, one store operation at a time, and when two of them make
two hosts of one device.

The host a discovery stands for is looked for before any lock is taken, and the
lock of `create` is that of the host it goes on with. So two discoveries of a
device under different ids both find no host, and each creates one. What
follows the interfaces writes neither hosts nor interfaces and is left out.
-/
import Netvisor.Hosts.ServiceFacts
import Netvisor.Lib.Transition

namespace Netvisor.HostDiscovery

open HostService
open Program (wp)

/-! ## Calls -/

/-- What an interface is looked for by, before it is inserted. -/
inductive Lookup
  | byId
  | byKey
  | byMac
  | insert
deriving DecidableEq, Repr

namespace Lookup

/-- Whether the operation finds an interface of the host, which the incoming one has as its own. -/
def finds (db : Db) (i : Interface) : Lookup → Bool
  | byId => (db.interfaces.get i.id).isSome
  | byKey => db.interfaces.rows.any fun e => e.base.hostId == i.base.hostId && e.base.subnetId == i.base.subnetId
      && e.base.ipAddress == i.base.ipAddress
  | byMac => i.base.macAddress.isSome && db.interfaces.rows.any fun e => e.base.hostId == i.base.hostId
      && e.base.macAddress == i.base.macAddress
  | insert => false

/-- The operation after one that found nothing. -/
def following (i : Interface) : Lookup → Lookup
  | byId => byKey
  | byKey => if i.base.macAddress.isSome then byMac else insert
  | byMac => insert
  | insert => insert

/-- The operations from one on that look for the interface. -/
def remaining : Lookup → List Lookup
  | byId => [byId, byKey, byMac]
  | byKey => [byKey, byMac]
  | byMac => [byMac]
  | insert => []

theorem any_remaining {lookup : Lookup} {db : Db} {i : Interface} (h : lookup ≠ insert) :
    lookup.remaining.any (·.finds db i) =
        (lookup.finds db i || (lookup.following i).remaining.any (·.finds db i)) := by
  cases lookup with
  | insert => exact absurd rfl h
  | byId => rfl
  | byMac => rfl
  | byKey =>
    by_cases hmac : i.base.macAddress.isSome = true
    · simp only [remaining, following, hmac, if_true, List.any_cons]
    · simp only [remaining, following, hmac, finds, List.any_cons, List.any_nil, Bool.false_and, Bool.false_eq_true,
        if_false, Bool.or_false]

end Lookup

/-- How far a call has come: its next store operation. -/
inductive Stage
  | hosts
  | interfaces (hosts : List Host)
  | count (host : Host)
  /-- Done under the lock of the host id. -/
  | create (host : Host)
  | save (host : Host) (lookup : Lookup) (rest : List Interface)
deriving DecidableEq, Repr

/-- A call of `discover_host`. -/
structure Call where
  request : DiscoveryHostRequest
  hostLimit : Option Nat := none
  stage : Stage
deriving DecidableEq, Repr

namespace Call

variable (c : Call)

/-- The host the call goes on with when it has looked for one. -/
def matched : Option Host → Stage
  | some existing => .create { c.request.host with id := existing.id }
  | none => if c.hostLimit.isSome then .count c.request.host else .create c.request.host

def start (hostLimit : Option Nat) (request : DiscoveryHostRequest) : Call :=
  let c : Call := { request, hostLimit, stage := .hosts }
  if request.interfaces.isEmpty then { c with stage := c.matched none } else c

/-- The first of the hosts that has an interface of the request now. -/
def findMatching (db : Db) (hosts : List Host) : Option Host :=
  hosts.find? fun host =>
    c.request.interfaces.any fun incoming => (db.interfacesOf host.id).any fun existing => incoming.eq existing

/-- One store operation for an interface: it is found, or the next one is due. -/
def saveNext (host : Host) (rest : List Interface) (i : Interface) (lookup : Lookup) : Store Stage := do
  match lookup with
  | .insert =>
    let _ ← CrudService.create i
    return .save host .byId rest
  | .byId | .byKey | .byMac =>
    return if lookup.finds (← get) i then .save host .byId rest else .save host (lookup.following i) (i :: rest)

/-- The next store operation, and what comes after it. -/
def next : Store Stage :=
  match c.stage with
  | .hosts => do
    let hosts := hostsOf (← get) c.request.host.base.networkId
    return if hosts.isEmpty then c.matched none else .interfaces hosts
  | .interfaces hosts => return c.matched (c.findMatching (← get) hosts)
  | .count host => do
    let currentHosts := (hostsOf (← get) host.base.networkId).length
    if c.hostLimit.any fun limit => currentHosts ≥ limit then
      throw (.internal ("Host limit reached (" ++ toString currentHosts ++ "/" ++ toString (c.hostLimit.getD 0) ++
        "). Upgrade your plan for unlimited hosts."))
    return .create host
  | .create host => do
    let createdHost ← HostService.create host
    return .save createdHost .byId c.request.interfaces
  | .save host lookup (i :: rest) => saveNext host rest { i with base.hostId := host.id } lookup
  | .save host lookup [] => return .save host lookup []

/-- The interfaces are saved. -/
def isSaved : Bool :=
  match c.stage with
  | .save _ _ [] => true
  | _ => false

end Call

/-! ## The code the steps are of -/

namespace Call

variable (c : Call)

/-- What the code does with an interface from an operation on. -/
def saveFrom (i : Interface) (lookup : Lookup) : Store Unit := do
  if lookup.remaining.any (·.finds (← get) i) then return ()
  else
    let _ ← CrudService.create i
    return ()

/-- What the code does from creating the host on, up to the interfaces. -/
def createFrom (host : Host) : Store Unit := do
  let createdHost ← HostService.create host
  let _ ← c.request.interfaces.mapM (saveInterface .upsert createdHost)
  return ()

/-- What it does from a stage on after the host has been looked for. -/
def codeMatched : Stage → Store Unit
  | .count host => do
    let currentHosts := (hostsOf (← get) host.base.networkId).length
    if c.hostLimit.any fun limit => currentHosts ≥ limit then
      throw (.internal ("Host limit reached (" ++ toString currentHosts ++ "/" ++ toString (c.hostLimit.getD 0) ++
        "). Upgrade your plan for unlimited hosts."))
    c.createFrom host
  | .create host => c.createFrom host
  | .save host lookup (i :: rest) => do
    saveFrom { i with base.hostId := host.id } lookup
    let _ ← rest.mapM (saveInterface .upsert host)
    return ()
  | _ => return ()

/-- What it does from a stage on. -/
def codeFrom : Stage → Store Unit
  | .hosts => do
    let host ← matchHost .upsert c.hostLimit c.request
    c.createFrom host
  | .interfaces hosts => do
    let db ← get
    c.codeMatched (c.matched (c.findMatching db hosts))
  | stage => c.codeMatched stage

variable {c} {i : Interface} {host : Host} {db : Db}

theorem codeFrom_matched {existing : Option Host} :
    c.codeFrom (c.matched existing) = c.codeMatched (c.matched existing) := by
  cases existing with
  | some existing => rfl
  | none =>
    simp only [matched]
    split <;> rfl

theorem get_bind {β : Type} {f : Db → Store β} : (get >>= f : Store β) db = f db db := rfl

theorem matchHost_bind : (matchHost .upsert c.hostLimit c.request >>= c.createFrom) = (do
    let db ← get
    c.codeMatched (c.matched (c.findMatching db (hostsOf db c.request.host.base.networkId)))) := by
  funext db
  have hmatch : findMatchingHostByInterfaces db c.request.host.base.networkId c.request.interfaces =
      c.findMatching db (hostsOf db c.request.host.base.networkId) := rfl
  simp only [matchHost, bind_assoc, get_bind, hmatch]
  cases c.findMatching db (hostsOf db c.request.host.base.networkId) with
  | some existing => rfl
  | none =>
    cases hlimit : c.hostLimit with
    | none => simp [matched, hlimit, codeMatched]
    | some limit =>
      simp only [matched, hlimit, codeMatched, Option.isSome_some, if_true, get_bind]
      split <;> rfl

theorem any_finds : Lookup.byId.remaining.any (·.finds db { i with base.hostId := host.id }) =
    (existingInterface db { i with base.hostId := host.id }).isSome := by
  have hhead (l : List Interface) : l.head?.isSome = l.any fun _ => true := by cases l <;> rfl
  have hmac : (i.base.macAddress.bind fun mac => (db.interfaces.select
        (fun e => e.base.hostId == host.id && e.base.macAddress == some mac) Interface.createdAt).head?).isSome =
      (i.base.macAddress.isSome && db.interfaces.rows.any fun e => e.base.hostId == host.id
        && e.base.macAddress == i.base.macAddress) := by
    cases i.base.macAddress with
    | none => rfl
    | some mac =>
      rw [Option.bind_some, hhead, Table.any_select]
      simp only [Bool.and_true, Option.isSome_some, Bool.true_and]
  simp only [Lookup.remaining, existingInterface, Option.orElse_eq_orElse, Option.orElse_eq_or, Option.isSome_or,
    List.isSome_find?, Table.any_select, List.any_cons, List.any_nil, Lookup.finds, Bool.or_false, hmac]

theorem saveInterface_bind {α : Type} {k : Store α} : (saveInterface .upsert host i >>= fun _ => k) =
    (saveFrom { i with base.hostId := host.id } .byId >>= fun _ => k) := by
  funext db
  simp only [saveInterface, saveFrom, bind_assoc, get_bind, any_finds, if_true]
  cases existingInterface db { i with base.hostId := host.id } with
  | some existing => rfl
  | none =>
    simp only [Option.isSome_none, Bool.false_eq_true, if_false, bind_assoc, pure_bind]

theorem mapM_saveInterface {interfaces : List Interface} :
    (interfaces.mapM (saveInterface .upsert host) >>= fun _ => pure ()) =
    c.codeMatched (.save host .byId interfaces) := by
  cases interfaces with
  | nil => rfl
  | cons i rest =>
    simp only [List.mapM_cons, bind_assoc, pure_bind, saveInterface_bind]
    rfl

/-- What is still to be done with an interface does not change with the operation before it. -/
theorem saveFrom_following {lookup : Lookup} (h : lookup ≠ .insert) : saveFrom i lookup = (do
    if lookup.finds (← get) i then return () else saveFrom i (lookup.following i)) := by
  funext db
  simp only [saveFrom, get_bind, Lookup.any_remaining h]
  by_cases hfinds : lookup.finds db i = true
  · simp only [hfinds, Bool.true_or, if_true]
  · simp only [hfinds, Bool.false_or, Bool.false_eq_true, if_false]
    rfl

/-- A call alone does what the code does: a stage leaves to be done what the
next operation does and what is left after it. -/
theorem codeFrom_next (hc : c.isSaved = false) : c.codeFrom c.stage = c.next >>= c.codeFrom := by
  unfold isSaved at hc
  unfold next
  cases hs : c.stage with
  | hosts =>
    funext db
    change (matchHost .upsert c.hostLimit c.request >>= c.createFrom) db = _
    rw [matchHost_bind]
    simp only [bind_assoc, pure_bind, get_bind]
    split
    · next hempty => rw [List.isEmpty_iff.mp hempty, codeFrom_matched]; rfl
    · rfl
  | interfaces hosts =>
    simp only [bind_assoc, pure_bind, codeFrom_matched]
    rfl
  | count host =>
    funext db
    simp only [codeFrom, codeMatched, bind_assoc, get_bind]
    split <;> rfl
  | create host =>
    change c.createFrom host = _
    simp only [createFrom, mapM_saveInterface (c := c), bind_assoc, pure_bind]
    rfl
  | save host lookup rest =>
    cases rest with
    | nil =>
      rw [hs] at hc
      cases hc
    | cons i rest =>
      change (saveFrom { i with base.hostId := host.id } lookup >>= fun _ =>
        rest.mapM (saveInterface .upsert host) >>= fun _ => pure ()) = _
      rw [mapM_saveInterface (c := c)]
      by_cases hl : lookup = .insert
      · subst hl
        funext db
        simp only [saveNext, saveFrom, bind_assoc, pure_bind, get_bind, Lookup.remaining, List.any_nil,
          Bool.false_eq_true, if_false]
        rfl
      · rw [saveFrom_following hl]
        cases lookup with
        | insert => exact absurd rfl hl
        | byId | byKey | byMac =>
          funext db
          simp only [saveNext, bind_assoc, pure_bind, get_bind]
          split
          · rfl
          · exact congrFun (congrArg _ (funext fun _ => mapM_saveInterface.symm)) db

/-- A call that starts is to do what the code does. -/
theorem codeFrom_start {hostLimit : Option Nat} {request : DiscoveryHostRequest} :
    (start hostLimit request).codeFrom (start hostLimit request).stage = (do
      let host ← matchHost .upsert hostLimit request
      let createdHost ← HostService.create host
      let _ ← request.interfaces.mapM (saveInterface .upsert createdHost)
      return ()) := by
  unfold start
  dsimp only
  split
  · next hempty =>
    have hnone (c : Call) (hc : c.request = request) (db : Db) (hosts : List Host) :
        c.findMatching db hosts = none := by
      simp only [findMatching, hc, List.isEmpty_iff.mp hempty, List.any_nil, List.find?_eq_none]
      exact fun _ _ h => nomatch h
    let c : Call := { request, hostLimit, stage := .hosts }
    change c.codeFrom (c.matched none) = matchHost .upsert c.hostLimit c.request >>= c.createFrom
    rw [codeFrom_matched, matchHost_bind]
    simp only [hnone c rfl]
    rfl
  · rfl

end Call

/-! ## The system -/

structure State where
  db : Db := {}
  calls : List Call := []

inductive Action
  | discover (hostLimit : Option Nat) (request : DiscoveryHostRequest)
  /-- The next operation of a call, with what the clock and `Uuid::new_v4` give it. -/
  | next (i : Nat) (now : DateTime) (fresh : Uuid)
deriving DecidableEq, Repr

/-- A call that fails is over. -/
def step (s : State) : Action → Option State
  | .discover hostLimit request => some { s with calls := s.calls ++ [Call.start hostLimit request] }
  | .next i now fresh =>
    match s.calls[i]? with
    | none => none
    | some c =>
      if c.isSaved || fresh == Uuid.nil then none
      else
        match c.next { s.db with now, drawn := [fresh] } with
        | .ok stage db => some { db, calls := s.calls.set i { c with stage } }
        | .error _ db => some { db, calls := s.calls.eraseIdx i }

/-! ## Hosts with the same interface -/

/-- They have the same subnet and address, or the same MAC address. -/
def sameInterface (i other : Interface) : Prop :=
  (i.base.subnetId = other.base.subnetId ∧ i.base.ipAddress = other.base.ipAddress)
    ∨ (i.base.macAddress.isSome ∧ i.base.macAddress = other.base.macAddress)

instance (i other : Interface) : Decidable (sameInterface i other) := inferInstanceAs (Decidable (_ ∨ _))

/-- No two hosts of a network have the same interface. -/
def Distinct (db : Db) : Prop :=
  ∀ h ∈ db.hosts.rows, ∀ h' ∈ db.hosts.rows, h.base.networkId = h'.base.networkId →
    ∀ i ∈ db.interfaces.rows, i.base.hostId = h.id → ∀ i' ∈ db.interfaces.rows, i'.base.hostId = h'.id →
      sameInterface i i' → h.id = h'.id

instance (db : Db) : Decidable (Distinct db) := by unfold Distinct; infer_instance

namespace Stage

/-- The host the call goes on with. -/
def host : Stage → Option Host
  | count host | create host | save host _ _ => some host
  | _ => none

end Stage

namespace Call

variable (c : Call)

def networkId : Uuid := c.request.host.base.networkId

/-- The interfaces still to be saved, once the host is chosen. -/
def pending : List Interface :=
  match c.stage with
  | .count _ | .create _ => c.request.interfaces
  | .save _ _ rest => rest
  | _ => []

/-- The host found among those read is the only one of the network that has
an interface of the request. -/
def FindsOnly (db : Db) (hosts : List Host) : Prop :=
  ∀ r ∈ db.hosts.rows, r.base.networkId = c.networkId → ∀ e ∈ db.interfaces.rows, e.base.hostId = r.id →
    ∀ i ∈ c.request.interfaces, sameInterface i e → ∃ found ∈ c.findMatching db hosts, r.id = found.id

/-- The call is not about to save the interface for another host of the network. -/
def LeavesTo (networkId hostId : Uuid) (j : Interface) : Prop :=
  c.networkId = networkId → ∀ i ∈ c.pending, sameInterface i j → ∀ host ∈ c.stage.host, host.id = hostId

instance (db : Db) (hosts : List Host) : Decidable (c.FindsOnly db hosts) := by unfold FindsOnly; infer_instance

instance (networkId hostId : Uuid) (j : Interface) : Decidable (c.LeavesTo networkId hostId j) := by
  unfold LeavesTo; infer_instance

end Call

/-- A call that looks for its host finds the only one there is, and one that
inserts an interface is the only one that is about to. -/
def Undisturbed (s : State) : Action → Prop
  | .discover .. => True
  | .next i _ _ =>
    ∀ c ∈ s.calls[i]?,
      match c.stage with
      | .interfaces hosts => c.FindsOnly s.db hosts
      | .save host .insert (j :: _) => ∀ other ∈ s.calls.eraseIdx i, other.LeavesTo c.networkId host.id j
      | _ => True

instance (s : State) : (a : Action) → Decidable (Undisturbed s a)
  | .discover .. => .isTrue trivial
  | .next i _ _ => by
    have (c : Call) : Decidable (match c.stage with
        | .interfaces hosts => c.FindsOnly s.db hosts
        | .save host .insert (j :: _) => ∀ other ∈ s.calls.eraseIdx i, other.LeavesTo c.networkId host.id j
        | _ => True) := by split <;> infer_instance
    unfold Undisturbed
    infer_instance

/-! ## What a call keeps -/

/-- The database as its constraints have it, and no host has the nil id. -/
structure Sound (db : Db) : Prop where
  owned : ∀ i ∈ db.interfaces.rows, ∃ h ∈ db.hosts.rows, h.id = i.base.hostId
  nonnil : ∀ h ∈ db.hosts.rows, h.id ≠ Uuid.nil

/-- Who has an interface that the call is still to save is the host it is to be saved for. -/
structure Call.Sound (c : Call) (db : Db) : Prop where
  network : ∀ h, c.stage = .count h ∨ c.stage = .create h → h.base.networkId = c.networkId
  stored : ∀ h lookup rest, c.stage = .save h lookup rest →
    ∃ r ∈ db.hosts.rows, r.id = h.id ∧ r.base.networkId = c.networkId
  alone : ∀ h ∈ c.stage.host, ∀ i ∈ c.pending, ∀ e ∈ db.interfaces.rows, sameInterface i e →
    ∀ r ∈ db.hosts.rows, r.base.networkId = c.networkId → e.base.hostId = r.id → r.id = h.id

structure Inv (s : State) : Prop where
  distinct : Distinct s.db
  sound : Sound s.db
  calls : ∀ c ∈ s.calls, c.Sound s.db

/-- No hosts or interfaces are written. -/
def Unwritten (db db' : Db) : Prop := db'.hosts = db.hosts ∧ db'.interfaces = db.interfaces

/-- A host may be added, and those that are there keep their networks. -/
structure HostSaved (db db' : Db) : Prop where
  interfaces : db'.interfaces = db.interfaces
  kept : ∀ r ∈ db.hosts.rows, ∃ r' ∈ db'.hosts.rows, r'.id = r.id ∧ r'.base.networkId = r.base.networkId
  old : ∀ r' ∈ db'.hosts.rows, (∃ r ∈ db.hosts.rows, r.id = r'.id ∧ r.base.networkId = r'.base.networkId) ∨
    (∀ r ∈ db.hosts.rows, r.id ≠ r'.id) ∧ r'.id ≠ Uuid.nil

/-- An interface of a host is added. -/
structure InterfaceSaved (db : Db) (i : Interface) (db' : Db) : Prop where
  hosts : db'.hosts = db.hosts
  interfaces : db'.interfaces.rows = db.interfaces.rows ++ [i]
  owned : ∃ h ∈ db.hosts.rows, h.id = i.base.hostId

theorem sameInterface_comm {i j : Interface} : sameInterface i j ↔ sameInterface j i := by
  constructor
  · rintro (⟨hs, ha⟩ | ⟨hm, heq⟩)
    · exact .inl ⟨hs.symm, ha.symm⟩
    · exact .inr ⟨heq ▸ hm, heq.symm⟩
  · rintro (⟨hs, ha⟩ | ⟨hm, heq⟩)
    · exact .inl ⟨hs.symm, ha.symm⟩
    · exact .inr ⟨heq ▸ hm, heq.symm⟩

variable {db db' : Db} {c : Call} {s t : State} {n : Interface}

theorem Unwritten.hostSaved (h : Unwritten db db') : HostSaved db db' where
  interfaces := h.2
  kept r hr := ⟨r, h.1 ▸ hr, rfl, rfl⟩
  old r' hr' := .inl ⟨r', h.1 ▸ hr', rfl, rfl⟩

/-- A host of the database that has an interface was there before. -/
theorem HostSaved.of_owned (h : HostSaved db db') (hs : Sound db) {e : Interface} {r' : Host}
    (he : e ∈ db.interfaces.rows) (hr' : r' ∈ db'.hosts.rows) (hid : e.base.hostId = r'.id) :
    ∃ r ∈ db.hosts.rows, r.id = r'.id ∧ r.base.networkId = r'.base.networkId := by
  rcases h.old r' hr' with hold | ⟨hnew, -⟩
  · exact hold
  · obtain ⟨r, hr, hre⟩ := hs.owned e he
    exact absurd (hre.trans hid) (hnew r hr)

theorem HostSaved.sound (h : HostSaved db db') (hs : Sound db) : Sound db' where
  owned i hi := by
    obtain ⟨r, hr, hid⟩ := hs.owned i (h.interfaces ▸ hi)
    obtain ⟨r', hr', hid', -⟩ := h.kept r hr
    exact ⟨r', hr', hid'.trans hid⟩
  nonnil r' hr' := by
    rcases h.old r' hr' with ⟨r, hr, hid, -⟩ | ⟨-, hne⟩
    · exact hid ▸ hs.nonnil r hr
    · exact hne

theorem HostSaved.distinct (h : HostSaved db db') (hs : Sound db) (hd : Distinct db) : Distinct db' := by
  intro r₁' hr₁' r₂' hr₂' hnet i hi hi₁ j hj hj₂ hsame
  rw [h.interfaces] at hi hj
  obtain ⟨r₁, hr₁, hid₁, hnet₁⟩ := h.of_owned hs hi hr₁' hi₁
  obtain ⟨r₂, hr₂, hid₂, hnet₂⟩ := h.of_owned hs hj hr₂' hj₂
  have hnet' : r₁.base.networkId = r₂.base.networkId := by rw [hnet₁, hnet₂, hnet]
  have := hd r₁ hr₁ r₂ hr₂ hnet' i hi (hi₁.trans hid₁.symm) j hj (hj₂.trans hid₂.symm) hsame
  rw [← hid₁, ← hid₂, this]

theorem HostSaved.call (h : HostSaved db db') (hs : Sound db) (hc : c.Sound db) : c.Sound db' where
  network := hc.network
  stored host lookup rest hstage := by
    obtain ⟨r, hr, hid, hnet⟩ := hc.stored host lookup rest hstage
    obtain ⟨r', hr', hid', hnet'⟩ := h.kept r hr
    exact ⟨r', hr', hid'.trans hid, hnet'.trans hnet⟩
  alone host hhost i hi e he hsame r' hr' hnet hid := by
    rw [h.interfaces] at he
    obtain ⟨r, hr, hid', hnet'⟩ := h.of_owned hs he hr' hid
    have := hc.alone host hhost i hi e he hsame r hr (hnet'.trans hnet) (hid.trans hid'.symm)
    exact hid' ▸ this

theorem InterfaceSaved.sound (h : InterfaceSaved db n db') (hs : Sound db) : Sound db' where
  owned i hi := by
    rw [h.interfaces, List.mem_append, List.mem_singleton] at hi
    rw [h.hosts]
    rcases hi with hi | rfl
    · exact hs.owned i hi
    · exact h.owned
  nonnil := h.hosts ▸ hs.nonnil

/-- The interface is that of the only host of the network that has it. -/
def OnlyAt (db : Db) (networkId : Uuid) (n : Interface) : Prop :=
  ∀ e ∈ db.interfaces.rows, sameInterface n e → ∀ r ∈ db.hosts.rows, r.base.networkId = networkId →
    e.base.hostId = r.id → r.id = n.base.hostId

theorem InterfaceSaved.distinct (h : InterfaceSaved db n db') (hd : Distinct db)
    (hn : ∀ r ∈ db.hosts.rows, r.id = n.base.hostId → OnlyAt db r.base.networkId n) : Distinct db' := by
  intro r hr r' hr' hnet i hi hir j hj hjr hsame
  rw [h.hosts] at hr hr'
  rw [h.interfaces, List.mem_append, List.mem_singleton] at hi hj
  rcases hi with hi | rfl
  · rcases hj with hj | rfl
    · exact hd r hr r' hr' hnet i hi hir j hj hjr hsame
    · exact (hn r' hr' hjr.symm i hi (sameInterface_comm.mp hsame) r hr hnet hir).trans hjr
  · rcases hj with hj | rfl
    · exact hir.symm.trans (hn r hr hir.symm j hj hsame r' hr' hnet.symm hjr).symm
    · exact hir.symm.trans hjr

theorem InterfaceSaved.call (h : InterfaceSaved db n db') (hc : c.Sound db)
    (hleaves : ∀ r ∈ db.hosts.rows, r.id = n.base.hostId → c.LeavesTo r.base.networkId r.id n) : c.Sound db' where
  network := hc.network
  stored := h.hosts ▸ hc.stored
  alone host hhost i hi e he hsame r hr hnet hid := by
    rw [h.hosts] at hr
    rw [h.interfaces, List.mem_append, List.mem_singleton] at he
    rcases he with he | rfl
    · exact hc.alone host hhost i hi e he hsame r hr hnet hid
    · exact (hleaves r hr hid.symm hnet.symm i hi hsame host hhost).symm

/-! ## What the operations write -/

theorem HostSaved.after (h : HostSaved db db') {db₀ : Db} (hu : Unwritten db₀ db) : HostSaved db₀ db' :=
  ⟨h.interfaces.trans hu.2, hu.1 ▸ h.kept, hu.1 ▸ h.old⟩

variable {host existing : Host} {i : Interface}

theorem wp_orNewHost (hdrawn : db.drawn.headD Uuid.nil ≠ Uuid.nil) :
    wp (Storable.orNew host) (fun h db' => Unwritten db db' ∧ h.id ≠ Uuid.nil ∧ h.base = host.base ∧
      (host.id ≠ Uuid.nil → h.id = host.id)) (fun _ _ => False) db := by
  rw [Storable.wp_orNew]
  exact ⟨fun hnil => ⟨⟨rfl, rfl⟩, hdrawn, rfl, fun hne => absurd hnil hne⟩,
    fun hne => ⟨⟨rfl, rfl⟩, hne, rfl, fun _ => rfl⟩⟩

theorem wp_upsertHost (hexisting : existing ∈ db.hosts.rows) :
    wp (upsertHost existing host) (fun h db' => HostSaved db db' ∧ h = merged existing host)
      (fun _ db' => Unwritten db db') db := by
  have hmerged : Storable.id (merged existing host) = existing.id := rfl
  simp only [upsertHost]
  split
  · rw [Program.wp_bind]
    refine Storable.wp_update (fun _ => ⟨rfl, rfl⟩)
      (fun _ => ⟨Unwritten.hostSaved ⟨rfl, rfl⟩, rfl⟩) fun _ _ => ⟨?_, rfl⟩
    refine ⟨rfl, fun r hr => ?_, fun r' hr' => .inl ?_⟩
    · by_cases hid : r.id = existing.id
      · rw [db.hosts.eq_of_key hr hexisting hid]
        exact ⟨merged existing host, Table.mem_update.mpr (.inl ⟨rfl, existing, hexisting, rfl⟩), rfl, rfl⟩
      · exact ⟨r, Table.mem_update.mpr (.inr ⟨hr, hid⟩), rfl, rfl⟩
    · rcases Table.mem_update.mp hr' with ⟨rfl, -⟩ | ⟨hr, -⟩
      · exact ⟨existing, hexisting, rfl, rfl⟩
      · exact ⟨r', hr, rfl, rfl⟩
  · exact ⟨Unwritten.hostSaved ⟨rfl, rfl⟩, rfl⟩

theorem mem_hostsOf {networkId : Uuid} : host ∈ hostsOf db networkId ↔
    host ∈ db.hosts.rows ∧ host.base.networkId = networkId := by
  simp only [hostsOf, Table.mem_select, beq_iff_eq]

/-- The host is stored in the network, under its id if it has one. -/
theorem wp_createHost (hdrawn : db.drawn.headD Uuid.nil ≠ Uuid.nil) :
    wp (HostService.create host) (fun h db' => HostSaved db db' ∧ (host.id ≠ Uuid.nil → h.id = host.id) ∧
      ∃ r ∈ db'.hosts.rows, r.id = h.id ∧ r.base.networkId = host.base.networkId)
          (fun _ db' => Unwritten db db') db := by
  rw [HostService.create, Program.wp_bind]
  refine (wp_orNewHost hdrawn).mono (fun host' db₀ hnew => ?_) fun _ _ h => h.elim
  obtain ⟨hu, hne, hbase, hid⟩ := hnew
  simp only [Program.wp_bind, Program.wp_get]
  split
  · next existing hfound =>
    have hfind := (Option.filter_eq_some_iff.mp hfound).1
    obtain ⟨hexisting, hnet⟩ := mem_hostsOf.mp (List.mem_of_find?_eq_some hfind)
    have heq : host'.id = existing.id := by simpa [Host.eq] using List.find?_some hfind
    refine (wp_upsertHost hexisting).mono (fun h t hsaved => ?_) fun _ t ht => ⟨ht.1.trans hu.1, ht.2.trans hu.2⟩
    obtain ⟨hsaved, rfl⟩ := hsaved
    obtain ⟨r, hr, hrid, hrnet⟩ := hsaved.kept existing hexisting
    exact ⟨hsaved.after hu, fun h => heq.symm.trans (hid h), r, hr, hrid, by rw [hrnet, hnet, hbase]⟩
  · split
    · exact hu
    · next hmissing =>
      rw [Program.wp_bind]
      refine Storable.wp_create (fun _ => hu) fun t hins _ => ?_
      have hins : db₀.hosts.insert host' = some t := hins
      obtain ⟨hrows, hfresh⟩ := Table.insert_eq_some hins
      have hmem (r : Host) : r ∈ t.rows ↔ r ∈ db₀.hosts.rows ∨ r = host' := by
        rw [hrows, List.mem_append, List.mem_singleton]
      have hsaved : HostSaved db₀ (Storable.setTable t db₀) := by
        refine ⟨rfl, fun r hr => ⟨r, (hmem r).mpr (.inl hr), rfl, rfl⟩, fun r hr => ?_⟩
        rcases (hmem r).mp hr with hr | rfl
        · exact .inl ⟨r, hr, rfl, rfl⟩
        · exact .inr ⟨hfresh, hne⟩
      exact ⟨hsaved.after hu, hid, host', (hmem host').mpr (.inr rfl), rfl, by rw [hbase]⟩

theorem wp_createInterface :
    wp (CrudService.create i) (fun _ db' => ∃ n, n.base = i.base ∧ InterfaceSaved db n db')
      (fun _ db' => Unwritten db db') db := by
  have main (n : Interface) (hn : n.base = i.base) (drawn : List Uuid) :
      wp (Storable.create n) (fun _ db' => ∃ n, n.base = i.base ∧ InterfaceSaved db n db')
        (fun _ db' => Unwritten db db') { db with drawn } := by
    refine Storable.wp_create (fun _ => ⟨rfl, rfl⟩) fun t hins href => ⟨n, hn, rfl, (Table.insert_eq_some hins).1, ?_⟩
    simp only [Storable.references, Bool.and_eq_true] at href
    exact Table.get_isSome.mp href.1.2
  rw [CrudService.create, Program.wp_bind, Storable.wp_orNew]
  exact ⟨fun _ => main (Storable.stamp _ _ i) rfl _, fun _ => main i rfl db.drawn⟩

/-! ## What a call goes through -/

theorem host_of_chosen (h : c.stage = .count host ∨ c.stage = .create host) : c.stage.host = some host := by
  rcases h with h | h
  · rw [h]
    rfl
  · rw [h]
    rfl

theorem pending_of_chosen (h : c.stage = .count host ∨ c.stage = .create host) :
    c.pending = c.request.interfaces := by
  unfold Call.pending
  rcases h with h | h
  · rw [h]
  · rw [h]

theorem sound_of_looking (hhost : c.stage.host = none) : c.Sound db where
  network h hh := by cases (host_of_chosen hh).symm.trans hhost
  stored h lookup rest hstage := by
    rw [hstage] at hhost
    cases hhost
  alone h hh := by cases hhost.symm.trans hh

theorem sound_of_chosen (h : c.stage = .count host ∨ c.stage = .create host)
    (hnet : host.base.networkId = c.networkId)
    (halone : ∀ i ∈ c.request.interfaces, ∀ e ∈ db.interfaces.rows, sameInterface i e → ∀ r ∈ db.hosts.rows,
      r.base.networkId = c.networkId → e.base.hostId = r.id → r.id = host.id) : c.Sound db where
  network h' hh' := by
    cases (host_of_chosen h).symm.trans (host_of_chosen hh')
    exact hnet
  stored h' lookup rest hstage := by
    rw [hstage] at h
    rcases h with h | h
    · cases h
    · cases h
  alone h' hh' i hi := by
    cases (host_of_chosen h).symm.trans hh'
    exact halone i (pending_of_chosen h ▸ hi)

/-- A call that has found all there are of the hosts with its interfaces is sound. -/
theorem sound_matched {found : Option Host}
    (hfound : ∀ r ∈ db.hosts.rows, r.base.networkId = c.networkId → ∀ e ∈ db.interfaces.rows, e.base.hostId = r.id →
      ∀ i ∈ c.request.interfaces, sameInterface i e → ∃ h ∈ found, r.id = h.id) :
    Call.Sound { c with stage := c.matched found } db := by
  cases found with
  | some h =>
    refine sound_of_chosen (.inr rfl) rfl fun i hi e he hsame r hr hnet hid => ?_
    obtain ⟨h', hh', hid'⟩ := hfound r hr hnet e he hid i hi hsame
    cases hh'
    exact hid'
  | none =>
    have hstage : c.matched none = .count c.request.host ∨ c.matched none = .create c.request.host := by
      unfold Call.matched
      by_cases hlimit : c.hostLimit.isSome = true
      · exact .inl (if_pos hlimit)
      · exact .inr (if_neg hlimit)
    refine sound_of_chosen hstage rfl fun i hi e he hsame r hr hnet hid => ?_
    obtain ⟨h, hh, -⟩ := hfound r hr hnet e he hid i hi hsame
    cases hh

theorem sound_start {hostLimit : Option Nat} {request : DiscoveryHostRequest} :
    (Call.start hostLimit request).Sound db := by
  unfold Call.start
  dsimp only
  split
  · next hempty =>
    let c : Call := { request, hostLimit, stage := .hosts }
    refine sound_matched (c := c) fun _ _ _ _ _ _ i hi => ?_
    have hi : i ∈ request.interfaces := hi
    rw [List.isEmpty_iff.mp hempty] at hi
    cases hi
  · exact sound_of_looking rfl

/-- What an operation of a call writes. -/
def Writes (c : Call) (db db' : Db) : Prop :=
  HostSaved db db' ∨ ∃ host j rest n, c.stage = .save host .insert (j :: rest) ∧
    n.base = { j.base with hostId := host.id } ∧ InterfaceSaved db n db'

theorem sound_rest {j : Interface} {lookup lookup' : Lookup} {rest rest' : List Interface}
    (hc : c.Sound db) (hstage : c.stage = .save host lookup (j :: rest))
    (hrest : ∀ i ∈ rest', i ∈ rest ∨ i = { j with base.hostId := host.id }) :
    Call.Sound { c with stage := .save host lookup' rest' } db := by
  have hhost : host ∈ c.stage.host := by
    rw [hstage]
    rfl
  have hpending : c.pending = j :: rest := by
    unfold Call.pending
    rw [hstage]
  refine ⟨fun _ h => ?_, fun h _ _ heq => ?_, fun h hh i hi e he hsame r hr hnet hid => ?_⟩
  · rcases h with h | h
    · cases h
    · cases h
  · cases heq
    exact hc.stored _ _ _ hstage
  · cases hh
    rcases hrest i hi with hi | rfl
    · exact hc.alone host hhost i (hpending ▸ List.mem_cons_of_mem j hi) e he hsame r hr hnet hid
    · exact hc.alone host hhost j (hpending ▸ List.mem_cons_self) e he hsame r hr hnet hid

theorem wp_saveNext {j : Interface} {lookup : Lookup} {rest : List Interface} (hc : c.Sound db)
    (hstage : c.stage = .save host lookup (j :: rest)) :
    wp (Call.saveNext host rest { j with base.hostId := host.id } lookup)
      (fun stage db' => Call.Sound { c with stage } db' ∧ Writes c db db') (fun _ db' => Unwritten db db') db := by
  by_cases hlookup : lookup = .insert
  · subst hlookup
    have hhost : host ∈ c.stage.host := by
      rw [hstage]
      rfl
    have hrest : Call.Sound { c with stage := .save host .byId rest } db := sound_rest hc hstage fun i hi => .inl hi
    simp only [Call.saveNext, Program.wp_bind, Program.wp_pure]
    refine wp_createInterface.mono (fun _ t hsaved => ?_) fun _ _ h => h
    obtain ⟨n, hn, hsaved⟩ := hsaved
    refine ⟨hsaved.call hrest fun r hr hid _ i hi hsame h hh => ?_, .inr ⟨host, j, rest, n, hstage, hn, hsaved⟩⟩
    cases hh
    rw [hid, hn]
  · have hread : wp (Call.saveNext host rest { j with base.hostId := host.id } lookup)
        (fun stage db' => db' = db ∧ ∃ lookup' rest', stage = .save host lookup' rest' ∧
          ∀ i ∈ rest', i ∈ rest ∨ i = { j with base.hostId := host.id }) (fun _ _ => False) db := by
      cases lookup with
      | insert => exact absurd rfl hlookup
      | byId | byKey | byMac =>
        simp only [Call.saveNext, Program.wp_bind, Program.wp_get, Program.wp_pure, true_and]
        split
        · exact ⟨_, _, rfl, fun i hi => .inl hi⟩
        · exact ⟨_, _, rfl, fun i hi => (List.mem_cons.mp hi).symm⟩
    refine hread.mono (fun stage t h => ?_) fun _ _ h => h.elim
    obtain ⟨rfl, lookup', rest', rfl, hrest⟩ := h
    exact ⟨sound_rest hc hstage hrest, .inl (Unwritten.hostSaved ⟨rfl, rfl⟩)⟩

/-- An operation leaves the call sound, unless it fails: then it has written nothing. -/
theorem wp_next (hc : c.Sound db) (hs : Sound db) (hdrawn : db.drawn.headD Uuid.nil ≠ Uuid.nil)
    (hfinds : ∀ hosts, c.stage = .interfaces hosts → c.FindsOnly db hosts) :
    wp c.next (fun stage db' => Call.Sound { c with stage } db' ∧ Writes c db db')
        (fun _ db' => Unwritten db db') db := by
  have hsame : Writes c db db := .inl (Unwritten.hostSaved ⟨rfl, rfl⟩)
  unfold Call.next
  cases hstage : c.stage with
  | hosts =>
    simp only [Program.wp_bind, Program.wp_get, Program.wp_pure]
    refine ⟨?_, hsame⟩
    split
    · next hempty =>
      refine sound_matched fun r hr hnet => ?_
      have : r ∈ hostsOf db c.request.host.base.networkId := mem_hostsOf.mpr ⟨hr, hnet⟩
      rw [List.isEmpty_iff.mp hempty] at this
      cases this
    · exact sound_of_looking rfl
  | interfaces hosts =>
    simp only [Program.wp_bind, Program.wp_get, Program.wp_pure]
    exact ⟨sound_matched (hfinds hosts hstage), hsame⟩
  | count host =>
    have hchosen : c.stage = .count host ∨ c.stage = .create host := .inl hstage
    have hcreate : Call.Sound { c with stage := .create host } db :=
      sound_of_chosen (.inr rfl) (hc.network host hchosen) fun i hi =>
        hc.alone host (host_of_chosen hchosen) i ((pending_of_chosen hchosen).symm ▸ hi)
    simp only [Program.wp_bind, Program.wp_get]
    split
    · exact ⟨rfl, rfl⟩
    · exact ⟨hcreate, hsame⟩
  | create host =>
    have hchosen : c.stage = .count host ∨ c.stage = .create host := .inr hstage
    simp only [Program.wp_bind, Program.wp_pure]
    refine (wp_createHost hdrawn).mono (fun created t h => ?_) fun _ _ h => h
    obtain ⟨hsaved, hid, hstored⟩ := h
    refine ⟨⟨fun _ h => ?_, fun h _ _ heq => ?_, fun h hh i hi e he hsame r hr hnet hid' => ?_⟩, .inl hsaved⟩
    · rcases h with h | h
      · cases h
      · cases h
    · cases heq
      exact hc.network host hchosen ▸ hstored
    · cases hh
      have hcreated := hsaved.call hs hc
      have hr' : r.id = host.id := hcreated.alone host (host_of_chosen hchosen) i
        ((pending_of_chosen hchosen).symm ▸ hi) e he hsame r hr hnet hid'
      rw [hr', hid (hr' ▸ (hsaved.sound hs).nonnil r hr)]
  | save host lookup rest =>
    cases rest with
    | nil => exact ⟨hstage ▸ hc, hsame⟩
    | cons j rest => exact wp_saveNext hc hstage

/-! ## Runs -/

/-- The steps there are: a call starts, or an operation of one fails or succeeds. -/
theorem step_cases {a : Action} (h : step s a = some t) :
    (∃ hostLimit request, a = .discover hostLimit request ∧
      t = { s with calls := s.calls ++ [Call.start hostLimit request] }) ∨
    ∃ i now fresh c db, a = .next i now fresh ∧ s.calls[i]? = some c ∧ fresh ≠ Uuid.nil ∧
      db = { s.db with now, drawn := [fresh] } ∧
      ((∃ e db', c.next db = .error e db' ∧ t = ⟨db', s.calls.eraseIdx i⟩) ∨
        ∃ stage db', c.next db = .ok stage db' ∧ t = ⟨db', s.calls.set i { c with stage }⟩) := by
  cases a with
  | discover hostLimit request =>
    cases h
    exact .inl ⟨hostLimit, request, rfl, rfl⟩
  | next i now fresh =>
    simp only [step] at h
    split at h
    · cases h
    · next c hget =>
      split at h
      · cases h
      · next hgoes =>
        have hfresh : fresh ≠ Uuid.nil := fun heq => hgoes (by simp [heq])
        refine .inr ⟨i, now, fresh, c, _, rfl, hget, hfresh, rfl, ?_⟩
        split at h
        · next stage db' hnext =>
          cases h
          exact .inr ⟨stage, db', hnext, rfl⟩
        · next e db' hnext =>
          cases h
          exact .inl ⟨e, db', hnext, rfl⟩

theorem mem_set_elim {α : Type} {l : List α} {i : Nat} {a x : α} (h : x ∈ l.set i a) : x = a ∨ x ∈ l.eraseIdx i := by
  rw [List.mem_iff_getElem?] at h
  obtain ⟨j, hj⟩ := h
  rw [List.getElem?_set] at hj
  split at hj
  · split at hj
    · exact .inl (Option.some.inj hj).symm
    · cases hj
  · next hne => exact .inr (List.mem_eraseIdx_iff_getElem?.mpr ⟨j, Ne.symm hne, hj⟩)

/-- The condition of a step keeps the invariant. -/
theorem inv_step {a : Action} (h : Inv s) (hok : Undisturbed s a) (hstep : step s a = some t) : Inv t := by
  obtain ⟨hostLimit, request, rfl, rfl⟩ | ⟨i, now, fresh, c, db, rfl, hget, hfresh, hdb, hnext⟩ := step_cases hstep
  · refine ⟨h.distinct, h.sound, fun c hc => ?_⟩
    rcases List.mem_append.mp hc with hc | hc
    · exact h.calls c hc
    · rw [List.mem_singleton.mp hc]
      exact sound_start
  have hu : Unwritten s.db db := by
    rw [hdb]
    exact ⟨rfl, rfl⟩
  have hsaved := hu.hostSaved
  have hsound := hsaved.sound h.sound
  have hcalls (c : Call) (hc : c ∈ s.calls) : c.Sound db := hsaved.call h.sound (h.calls c hc)
  have hc : c ∈ s.calls := List.mem_of_getElem? hget
  have hothers (c : Call) (hc : c ∈ s.calls.eraseIdx i) : c ∈ s.calls := List.mem_of_mem_eraseIdx hc
  have hok := hok c hget
  have hfinds : ∀ hosts, c.stage = .interfaces hosts → c.FindsOnly db hosts := by
    intro hosts hstage
    rw [hstage] at hok
    rw [hdb]
    exact hok
  have hwp := wp_next (hcalls c hc) hsound (by rw [hdb]; exact hfresh) hfinds
  rcases hnext with ⟨e, db', hnext, rfl⟩ | ⟨stage, db', hnext, rfl⟩
  · -- nothing is written
    have hsaved' := ((Program.wp_of_error hnext).mp hwp).hostSaved
    exact ⟨hsaved'.distinct hsound (hsaved.distinct h.sound h.distinct), hsaved'.sound hsound,
      fun c hc => hsaved'.call hsound (hcalls c (hothers c hc))⟩
  · obtain ⟨hcall, hwrites⟩ := (Program.wp_of_ok hnext).mp hwp
    rcases hwrites with hsaved' | ⟨host, j, rest, n, hstage, hn, hsaved'⟩
    · refine ⟨hsaved'.distinct hsound (hsaved.distinct h.sound h.distinct), hsaved'.sound hsound, fun c' hc' => ?_⟩
      rcases mem_set_elim hc' with rfl | hc'
      · exact hcall
      · exact hsaved'.call hsound (hcalls c' (hothers c' hc'))
    · -- the interface is that of the host alone, and the other calls leave it to this one
      have hsame {i : Interface} : sameInterface i n ↔ sameInterface i j := by
        rw [sameInterface, hn]
        exact Iff.rfl
      have hnet : ∀ r ∈ db.hosts.rows, r.id = n.base.hostId → r.base.networkId = c.networkId := by
        intro r hr hid
        obtain ⟨r', hr', hid', hnet'⟩ := (hcalls c hc).stored host .insert _ hstage
        rw [hn] at hid
        rw [db.hosts.eq_of_key hr hr' (hid.trans hid'.symm), hnet']
      rw [hstage] at hok
      refine ⟨hsaved'.distinct (hsaved.distinct h.sound h.distinct) fun r hr hid e he hne r' hr' hnet' hid' => ?_,
        hsaved'.sound hsound, fun c' hc' => ?_⟩
      · rw [hn]
        refine (hcalls c hc).alone host (by rw [hstage]; rfl) j ?_ e he (sameInterface_comm.mp (hsame.mp
          (sameInterface_comm.mp hne))) r' hr' (hnet'.trans (hnet r hr hid)) hid'
        unfold Call.pending
        rw [hstage]
        exact List.mem_cons_self
      · rcases mem_set_elim hc' with rfl | hc'
        · exact hcall
        · refine hsaved'.call (hcalls c' (hothers c' hc')) fun r hr hid hnet' i hi hin h' hh' => ?_
          rw [hid, hn]
          exact hok c' hc' (hnet'.trans (hnet r hr hid)) i hi (hsame.mp hin) h' hh'

/-- No call has started, and no two hosts of a network have the same interface. -/
structure Start (s : State) : Prop where
  calls : s.calls = []
  sound : Sound s.db
  distinct : Distinct s.db

/-- **Discovery does not duplicate a host** in a run in which every call that
looks for its host finds the only one there is, and every call that inserts an
interface is the only one about to, or one of several for one host. -/
theorem distinct_of_undisturbed (h : Start s) {as : List Action} (hr : Transition.Along step Undisturbed s as) :
    Transition.Visits step (fun t => Distinct t.db) s as :=
  hr.visits (fun _ _ _ hI hok ht => inv_step hI hok ht) (fun _ hI => hI.distinct)
    ⟨h.distinct, h.sound, fun c hc => by rw [h.calls] at hc; cases hc⟩

/-- A network with a subnet and no hosts. -/
def emptyNetwork : State where
  db :=
    { networks := [1]
      subnets := .single { id := 5, base := { cidr := ⟨.v4 0x0a000000, 24⟩, networkId := 1 } } }

/-- A device as it is reported under a host id. -/
def report (hostId interfaceId : Uuid) : DiscoveryHostRequest where
  host := { id := hostId, base := { networkId := 1, source := .discovery [] } }
  interfaces :=
    [{ id := interfaceId
       base := { networkId := 1, subnetId := 5, ipAddress := .v4 0x0a000007, macAddress := some 0x021122334455 } }]

theorem start_emptyNetwork : Start emptyNetwork where
  calls := rfl
  sound := ⟨by decide, by decide⟩
  distinct := by decide

/-- Two calls for one device, of which the `second` looks for its host first, or not. -/
def reports (second : List Action) : List Action :=
  [.discover none (report 20 40), .discover none (report 30 50)] ++ second
    ++ List.replicate 6 (.next 0 0 99) ++ List.replicate 6 (.next 1 0 98)

theorem distinct_of_undisturbed_turns : Transition.Visits step (fun t => Distinct t.db) emptyNetwork (reports []) :=
  distinct_of_undisturbed start_emptyNetwork (by decide +kernel)

/-- Both calls look for a host before either has created one. -/
theorem duplicated_by_race :
    Start emptyNetwork ∧ ¬ Transition.Visits step (fun t => Distinct t.db) emptyNetwork (reports [.next 1 0 98]) :=
  ⟨start_emptyNetwork, by decide +kernel⟩

end Netvisor.HostDiscovery
