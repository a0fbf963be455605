/-
The version of a host, by which an update is refused that was made from an
older one, and what it is worth when updates, discoveries and anything else
write to the database one statement at a time.

Writing a child does not change the version of its host, and reading the
version and writing it are two statements. So an update is sound only if
nothing else writes what it is about to replace: `Undisturbed` says what that
is, step by step.
-/
import Netvisor.Hosts.ServiceFacts
import Netvisor.Hosts.Update
import Netvisor.Lib.Transition

namespace Netvisor

/-! ## The children of a host, by key -/

inductive Kind
  | interface
  | port
  | service
deriving DecidableEq, Repr

structure Key where
  kind : Kind
  id : Uuid
deriving DecidableEq, Repr

namespace Db

/-- A service changes with its bindings. -/
def child (db : Db) (k : Key) : Option Child :=
  match k.kind with
  | .interface => (db.interfaces.get k.id).map .interface
  | .port => (db.ports.get k.id).map .port
  | .service => (db.services.get k.id).map fun s => .service (db.hydrate s)

def childKeys (db : Db) (hostId : Uuid) : List Key :=
  (db.interfacesOf hostId).map (fun i => ⟨.interface, i.id⟩) ++ (db.portsOf hostId).map (fun p => ⟨.port, p.id⟩)
    ++ (db.servicesOf hostId).map fun s => ⟨.service, s.id⟩

/-- The children of the host that were added or changed. -/
def changed (db db' : Db) (hostId : Uuid) : List Key :=
  (db'.childKeys hostId).filter fun k => db'.child k ≠ db.child k

end Db

namespace HostUpdate

open Program (wp after)
open Process (statement query Within)

/-! ## The system -/

/-- A version of a host that was read, and what was added and changed since. -/
structure Load where
  hostId : Uuid
  version : DateTime
  touched : List Key := []

/-- A request made from a version, and what others added and changed since. -/
structure Call where
  request : UpdateHostRequest
  touched : List Key
  process : Steps HostResponse

structure State where
  db : Db := {}
  loads : List Load := []
  calls : List Call := []

inductive Action
  | load (hostId : Uuid)
  | request (l : Nat) (request : UpdateHostRequest)
  /-- The next statement of an update. -/
  | next (i : Nat) (now : DateTime) (drawn : List Uuid)
  /-- A statement of anything else: of a discovery, or of another request. -/
  | other (op : Store Unit) (now : DateTime) (drawn : List Uuid)

def Load.note (db db' : Db) (l : Load) : Load := { l with touched := l.touched ++ db.changed db' l.hostId }

def Call.note (db db' : Db) (c : Call) : Call := { c with touched := c.touched ++ db.changed db' c.request.id }

def State.write (s : State) (db' : Db) : State where
  db := db'
  loads := s.loads.map (Load.note s.db db')
  calls := s.calls.map (Call.note s.db db')

def step (s : State) : Action → Option State
  | .load hostId => (s.db.hosts.get hostId).map fun host =>
    { s with loads := s.loads ++ [{ hostId, version := host.updatedAt }] }
  | .request l request =>
    match s.loads[l]? with
    | none => none
    | some load =>
      if request.id = load.hostId ∧ request.expectedUpdatedAt = some load.version then
        some { s with calls := s.calls ++ [⟨request, load.touched, updateFromRequest request⟩] }
      else none
  | .next i now drawn =>
    match s.calls[i]? with
    | none => none
    | some c =>
      match c.process with
      | .stmt _ after next =>
        let db := { s.db with now, drawn }
        let t := s.write (after db)
        some { t with calls := t.calls.set i { c with process := next db } }
      | _ => none
  | .other op now drawn => some (s.write (after op { s.db with now, drawn }))

/-! ## What the versions are for -/

namespace Call

variable (c : Call)

def version : Option Int := c.request.expectedUpdatedAt.map DateTime.timestampMicros

def succeeded : Bool :=
  match c.process with
  | .ret _ => true
  | _ => false

/-- The request has passed the check, and has not failed since. -/
def accepted : Bool :=
  match c.process with
  | .ret _ => true
  | .fail _ => false
  | .stmt phase _ _ => phase != .check

def yetToWrite : Bool := c.process.phase == some .current || c.process.phase == some .write

/-- The call is still to sync the children of the kind. A service loses its
bindings to an interface or port that is deleted. -/
def atRisk (kind : Kind) : Bool :=
  c.process.phase.any fun phase =>
    let interfaces := c.request.interfaces.isSome && decide (phase ≤ .interfaces)
    let ports := c.request.ports.isSome && decide (phase ≤ .ports)
    match kind with
    | .interface => interfaces
    | .port => ports
    | .service => interfaces || ports || c.request.services.isSome && decide (phase ≤ .services)

/-- The check would pass now. -/
def passes (db : Db) : Bool :=
  c.process.phase == some .check && (db.hosts.get c.request.id).any fun existing =>
    (conflict c.request existing).isNone

/-- What the next statement leaves. -/
def afterNext (db : Db) : Db :=
  match c.process with
  | .stmt _ after _ => after db
  | _ => db

end Call

/-- Both have succeeded from one version of a host. -/
def Call.BothFrom (c d : Call) : Prop :=
  c.succeeded = true ∧ d.succeeded = true ∧ c.request.id = d.request.id ∧ c.version = d.version

instance (c d : Call) : Decidable (c.BothFrom d) := by unfold Call.BothFrom; infer_instance

/-- Of the requests made from one version of a host at most one succeeds. -/
def AtMostOne (s : State) : Prop :=
  ∀ i < s.calls.length, ∀ j < s.calls.length, i ≠ j → ∀ c ∈ s.calls[i]?, ∀ d ∈ s.calls[j]?, ¬ c.BothFrom d

/-- An update neither deletes nor overwrites what was added or changed since
the version it was made from. -/
def Keeps (s : State) (a : Action) (t : State) : Prop :=
  match a with
  | .next i _ _ => ∀ c ∈ s.calls[i]?, ∀ k ∈ c.touched, t.db.child k = s.db.child k
  | _ => True

/-! ## When they work -/

/-- No child of a host is added or changed that one of the calls is still to sync. -/
def Leaves (calls : List Call) (db db' : Db) : Prop :=
  ∀ d ∈ calls, d.accepted = true → ∀ k ∈ db.changed db' d.request.id, d.atRisk k.kind = false

/-- The host row does not get back the version that one of the calls replaced. -/
def Advances (calls : List Call) (db db' : Db) : Prop :=
  ∀ d ∈ calls, d.accepted = true → d.yetToWrite = false → ∀ r ∈ db'.hosts.rows, r.id = d.request.id →
    (∃ r' ∈ db.hosts.rows, r'.id = r.id ∧ r'.updatedAt = r.updatedAt) ∨ d.version ≠ some r.updatedAt.timestampMicros

/-- The request may pass the check: those accepted have written the host row,
its children that the request replaces are as they were, and the clock has moved on. -/
structure Admissible (others : List Call) (c : Call) (now : DateTime) : Prop where
  written : ∀ d ∈ others, d.accepted = true → d.request.id = c.request.id → d.yetToWrite = false
  clock : ∀ d ∈ others, d.accepted = true → d.request.id = c.request.id → d.version ≠ some now.timestampMicros
  ticks : c.version ≠ some now.timestampMicros
  untouched : ∀ k ∈ c.touched, c.atRisk k.kind = false

def Undisturbed (s : State) : Action → Prop
  | .load _ => True
  | .request _ _ => True
  | .next i now drawn => ∀ c ∈ s.calls[i]?,
    (c.passes s.db = true → Admissible (s.calls.eraseIdx i) c now) ∧
      Leaves (s.calls.eraseIdx i) s.db (c.afterNext { s.db with now, drawn })
  | .other op now drawn =>
    Leaves s.calls s.db (after op { s.db with now, drawn }) ∧
      Advances s.calls s.db (after op { s.db with now, drawn })

/-! ## What the statements of an update do -/

def SameChildren (db db' : Db) : Prop :=
  db'.interfaces = db.interfaces ∧ db'.ports = db.ports ∧ db'.services = db.services ∧ db'.bindings = db.bindings

/-- What a statement after the host row does. -/
def Touches (request : UpdateHostRequest) (phase : Phase) (db db' : Db) : Prop :=
  db'.hosts = db.hosts ∧
    match phase with
    | .interfaces => request.interfaces.isSome = true ∧ db'.ports = db.ports
    | .ports => request.ports.isSome = true ∧ db'.interfaces = db.interfaces
    | .services => request.services.isSome = true ∧ db'.interfaces = db.interfaces ∧ db'.ports = db.ports
    | _ => SameChildren db db'

section

variable {R : Phase → Db → Db → Prop} {phase : Phase}

/-- Ids may be drawn in the phase. -/
def Draws (R : Phase → Db → Db → Prop) (phase : Phase) : Prop :=
  ∀ (db : Db) (drawn : List Uuid), R phase db { db with drawn }

/-- The table of `α` may be written in the phase. -/
def MayWrite (R : Phase → Db → Db → Prop) (phase : Phase) (α : Type) [Storable α] : Prop :=
  ∀ (db : Db) (t : Table α Storable.id), R phase db (Storable.setTable t db)

theorem within_validate {lo hi : Phase} (message : Option String) : Within R lo hi (validate message) := by
  unfold validate
  split
  · exact Process.within_fail _
  · exact Process.within_pure _

variable (hd : Draws R phase)

include hd

theorem within_read {α : Type} (f : Db → α) : Within R phase phase (query phase f : Steps α) :=
  Process.within_query fun db => hd db db.drawn

theorem within_orNew {α : Type} [Storable α] (entity : α) :
    Within R phase phase (statement phase (Storable.orNew entity)) := by
  refine Process.within_statement fun db => Program.wp_after.mp ?_
  rw [Storable.wp_orNew]
  exact ⟨fun _ => hd db _, fun _ => hd db db.drawn⟩

theorem within_create {α : Type} [Storable α] (ht : MayWrite R phase α) (entity : α) :
    Within R phase phase (create phase entity) := by
  refine (within_orNew hd entity).seq fun entity => Process.within_statement fun db => Program.wp_after.mp ?_
  exact Storable.wp_create (fun _ => hd db db.drawn) fun t _ _ => ht db t

theorem within_storableUpdate {α : Type} [Storable α] (ht : MayWrite R phase α) (entity : α) :
    Within R phase phase (statement phase (Storable.update entity)) := by
  refine Process.within_statement fun db => Program.wp_after.mp ?_
  exact Storable.wp_update (fun _ => hd db db.drawn) (fun _ => hd db db.drawn) fun _ _ => ht db _

theorem within_update {α : Type} [Storable α] (ht : MayWrite R phase α) (display : α → String) (entity : α) :
    Within R phase phase (update phase display entity) := by
  refine (within_read hd _).seq fun found => ?_
  cases found with
  | none => exact Process.within_fail _
  | some _ => exact within_storableUpdate hd ht entity

theorem within_getServices (rows : Db → List Service) : Within R phase phase (getServices phase rows) := by
  refine (within_read hd rows).seq fun services => .ite (Process.within_pure _) ?_
  exact within_read hd _

theorem within_syncChildren {α β : Type} [Storable α] {delete : List Uuid → Db → Db} {existing : List α}
    {inputId : β → Uuid}
    {inputs : List β} {save : Option α → β → DateTime → Steps α} (hdelete : ∀ db ids, R phase db (delete ids db))
    (hsave : ∀ e b now, Within R phase phase (save e b now)) :
    Within R phase phase (syncChildren phase delete existing inputId inputs save) := by
  have hinputs : Within R phase phase ((inputs.mapM fun input => do
      let now ← query phase Db.now
      save (existing.find? fun e => Storable.id e == inputId input) input now) >>= fun _ => pure ()) :=
    (Process.Within.mapM (fun b => (within_read hd Db.now).seq fun now => hsave _ b now) inputs).seq fun _ =>
      Process.within_pure _
  unfold syncChildren
  refine .ite ?_ hinputs
  exact (Process.within_statement fun db => hdelete db _).seq fun _ => hinputs

omit hd in
theorem within_resolve {α : Type} [PositionedInput α] (inputs : List α) (existing : List (Uuid × Int))
    (entityName : String) :
    Within R phase phase (resolve inputs existing entityName) := by
  unfold resolve
  split
  · exact Process.within_fail _
  · exact Process.within_pure _

/-! ### Services -/

variable (hs : MayWrite R phase Service) (hb : MayWrite R phase Binding)

include hb

theorem within_saveChild (existing : List Binding) (child : Binding) :
    Within R phase phase (saveChild phase existing child) := by
  unfold saveChild
  refine .ite ?_ ?_
  · have hnew : Within R phase phase (statement phase newV4) := Process.within_statement fun db => hd db db.drawn.tail
    exact hnew.seq fun id => within_create hd hb _
  · split
    · exact within_update hd hb _ _
    · exact within_create hd hb _

theorem within_saveBindings (service : Service) : Within R phase phase (saveBindings phase service) := by
  have hchildren (existing children : List Binding) :
      Within R phase phase (children.mapM (saveChild phase existing)) :=
    .mapM (within_saveChild hd hb existing) children
  have hsave (parentId : Uuid) (children : List Binding) :
      Within R phase phase (saveForParent phase parentId children) := by
    refine (within_read hd _).seq fun existing => .ite ?_ (hchildren existing children)
    exact (Process.within_statement fun db => hb db _).seq fun _ => hchildren existing children
  exact (hsave _ _).seq fun _ => Process.within_pure _

omit hb in
theorem within_validateBindingsBelongToHost (hostId : Uuid) (bindings : List Binding) :
    Within R phase phase (validateBindingsBelongToHost phase hostId bindings) :=
  .ite (Process.within_pure _) ((within_read hd _).seq fun _ => (within_read hd _).seq fun _ => within_validate _)

omit hb in
theorem within_validateBindingsAvailable (hostId serviceId : Uuid) (bindings : List Binding) :
    Within R phase phase (validateBindingsAvailable phase hostId serviceId bindings) := by
  refine .ite (Process.within_pure _) ((within_getServices hd _).seq fun services => .ite ?_ (Process.within_pure _))
  exact (within_read hd _).seq fun _ => within_validate _

include hs

theorem within_createService (service : Service) : Within R phase phase (createService phase service) := by
  refine (within_orNew hd service).seq fun service => (within_getServices hd _).seq fun existing => ?_
  split
  · exact (within_storableUpdate hd hs _).seq fun _ => within_saveBindings hd hb _
  · refine (within_validate _).seq fun _ => (within_validateBindingsBelongToHost hd _ _).seq fun _ => ?_
    refine Process.Within.seq (.ite (Process.within_pure _) (within_validateBindingsAvailable hd _ _ _)) fun _ => ?_
    refine Process.Within.seq (Process.within_statement fun db => Program.wp_after.mp ?_) fun _ =>
      within_saveBindings hd hb _
    exact Storable.wp_create (fun _ => hd db db.drawn) fun t _ _ => hs db t

theorem within_updateService (service : Service) : Within R phase phase (updateService phase service) := by
  have hget : Within R phase phase (getService phase service.id) := by
    refine (within_read hd _).seq fun found => ?_
    cases found with
    | none => exact Process.within_pure _
    | some s => exact within_read hd _
  refine hget.seq fun found => ?_
  cases found with
  | none => exact Process.within_fail _
  | some _ =>
    refine (within_validate _).seq fun _ => (within_validateBindingsBelongToHost hd _ _).seq fun _ => ?_
    refine (within_validateBindingsAvailable hd _ _ _).seq fun _ => (within_storableUpdate hd hs _).seq fun _ => ?_
    exact within_saveBindings hd hb _

end

/-! ### The host -/

variable {request : UpdateHostRequest}

theorem within_syncInterfaces (h : request.interfaces.isSome = true) (hostId networkId : Uuid)
    (inputs : List InterfaceInput) :
    Within (Touches request) .interfaces .interfaces (syncInterfaces hostId networkId inputs) := by
  have hd : Draws (Touches request) .interfaces := fun _ _ => ⟨rfl, h, rfl⟩
  have ht : MayWrite (Touches request) .interfaces Interface := fun _ _ => ⟨rfl, h, rfl⟩
  refine (within_read hd _).seq fun existing => (within_resolve _ _ _).seq fun inputs => ?_
  refine within_syncChildren hd (fun _ _ => ⟨rfl, h, rfl⟩) fun e b now => ?_
  cases e with
  | some e => exact within_update hd ht _ _
  | none => exact within_create hd ht _

theorem within_syncPorts (h : request.ports.isSome = true) (hostId networkId : Uuid) (inputs : List PortInput) :
    Within (Touches request) .ports .ports (syncPorts hostId networkId inputs) := by
  have hd : Draws (Touches request) .ports := fun _ _ => ⟨rfl, h, rfl⟩
  have ht : MayWrite (Touches request) .ports Port := fun _ _ => ⟨rfl, h, rfl⟩
  refine (within_read hd _).seq fun existing => ?_
  refine within_syncChildren hd (fun _ _ => ⟨rfl, h, rfl⟩) fun e b now => ?_
  cases e with
  | some e => exact within_update hd ht _ _
  | none => exact within_create hd ht _

theorem within_syncServices (h : request.services.isSome = true) (hostId networkId : Uuid)
    (inputs : List ServiceInput) :
    Within (Touches request) .services .services (syncServices hostId networkId inputs) := by
  have hd : Draws (Touches request) .services := fun _ _ => ⟨rfl, h, rfl, rfl⟩
  have hs : MayWrite (Touches request) .services Service := fun _ _ => ⟨rfl, h, rfl, rfl⟩
  have hb : MayWrite (Touches request) .services Binding := fun _ _ => ⟨rfl, h, rfl, rfl⟩
  refine (within_getServices hd _).seq fun existing => (within_resolve _ _ _).seq fun inputs => ?_
  refine within_syncChildren hd (fun _ _ => ⟨rfl, h, rfl, rfl⟩) fun e b now => ?_
  cases e with
  | some e => exact within_updateService hd hs hb _
  | none => exact within_createService hd hs hb _

theorem within_syncListed {α : Type} {phase : Phase} {inputs : Option (List α)} {sync : List α → Steps Unit}
    (h : inputs.isSome = true → ∀ l, Within (Touches request) phase phase (sync l)) :
    Within (Touches request) phase phase (syncListed inputs sync) := by
  cases inputs with
  | none => exact Process.within_pure _
  | some inputs => exact h rfl inputs

theorem within_syncHost (networkId : Uuid) (updated : Host) :
    Within (Touches request) .interfaces .reload (syncHost request networkId updated) := by
  have hd : Draws (Touches request) .reload := fun _ _ => ⟨rfl, rfl, rfl, rfl, rfl⟩
  have hreload : Within (Touches request) .reload .reload (reload updated) :=
    (within_read hd _).seq fun _ => (within_read hd _).seq fun _ => (within_getServices hd _).seq fun _ =>
      (within_read hd _).seq fun _ => Process.within_pure _
  refine (within_syncListed fun h => within_syncInterfaces h _ _).bind (by decide) (by decide) fun _ => ?_
  refine (within_syncListed fun h => within_syncPorts h _ _).mono (by decide) le_rfl |>.bind (by decide)
    (by decide) fun _ => ?_
  refine (within_syncListed fun h => within_syncServices h _ _).mono (by decide) le_rfl |>.bind (by decide)
    (by decide) fun _ => ?_
  exact hreload.mono (by decide) le_rfl

/-! ## What a call goes through -/

/-- The call is to write `h` to the host row. -/
def Writing (request : UpdateHostRequest) (h : Host) (p : Steps HostResponse) : Prop :=
  h.id = request.id ∧ ∃ networkId, p = (updateHost h >>= syncHost request networkId) ∨
    p = (statement .write (Storable.update h) >>= syncHost request networkId)

/-- The call has written the host row. -/
def Syncing (request : UpdateHostRequest) (p : Steps HostResponse) : Prop :=
  Within (Touches request) .interfaces .reload p

/-- The three parts of an update: the check, the host row, of which `F` holds, and its children. -/
def Call.Remaining (F : Host → Prop) (c : Call) : Prop :=
  c.process = updateFromRequest c.request ∨ (∃ h, Writing c.request h c.process ∧ F h) ∨ Syncing c.request c.process

/-- The host row is `h` if it is there, and nothing else has changed. -/
structure Written (db : Db) (h : Host) (db' : Db) : Prop where
  children : SameChildren db db'
  row : ∀ r ∈ db'.hosts.rows, r.id = h.id → r = h
  rest : ∀ r ∈ db'.hosts.rows, r.id ≠ h.id → r ∈ db.hosts.rows

/-- What the next statement of a call does, and what is left of the call. -/
inductive Moves (F : Host → Prop) (c : Call) (db : Db) : Db → Steps HostResponse → Prop
  | fails (e : Error) : Moves F c db db (.fail e)
  | accepts (existing : Host) (networkId : Uuid) (hpasses : c.passes db = true)
      (hget : db.hosts.get c.request.id = some existing) (hnone : conflict c.request existing = none) :
      Moves F c db db (updateHost (updatedHost c.request existing db.now) >>= syncHost c.request networkId)
  | reads (h : Host) (networkId : Uuid) (hid : h.id = c.request.id) (hF : F h)
    (hphase : c.process.phase = some .current) :
      Moves F c db db (statement .write (Storable.update h) >>= syncHost c.request networkId)
  | writes (h : Host) (hid : h.id = c.request.id) (hF : F h) (hphase : c.process.phase = some .write) {db' : Db}
      {p : Steps HostResponse} (hwritten : Written db h db') (hsyncing : Syncing c.request p) : Moves F c db db' p
  | syncs (phase : Phase) (hphase : c.process.phase = some phase) (hlo : .interfaces ≤ phase) {db' : Db}
      {p : Steps HostResponse} (htouches : Touches c.request phase db db')
      (hrest : Within (Touches c.request) phase .reload p) :
      Moves F c db db' p

variable {F : Host → Prop} {c d : Call} {db db' : Db} {p p' : Steps HostResponse} {h : Host}

theorem Writing.phase (hw : Writing c.request h p) : p.phase = some .current ∨ p.phase = some .write := by
  obtain ⟨-, networkId, rfl | rfl⟩ := hw
  · exact .inl rfl
  · exact .inr rfl

theorem moves_check (hc : c.process = updateFromRequest c.request)
    (hp : c.process.Issues db db' p') : Moves F c db db' p' := by
  have hphase : c.process.phase = some .check := by rw [hc]; rfl
  rw [hc] at hp
  obtain ⟨rfl, rfl⟩ := Process.issues_query hp
  dsimp only
  split
  · exact .fails _
  · next existing hget =>
    split
    · exact .fails _
    · next hnone =>
      have hget : db'.hosts.get c.request.id = some existing := hget
      refine .accepts existing existing.base.networkId ?_ hget hnone
      simp only [Call.passes, hphase, hget, hnone, Option.any_some, Option.isNone_none, beq_self_eq_true,
        Bool.and_self]

theorem wp_written (h : Host) : wp (Storable.update h) (fun _ t => Written db h t) (fun _ t => t = db) db := by
  refine Storable.wp_update (fun _ => rfl) (fun hmissing => ?_) fun _ _ => ?_
  · have hmissing : db.hosts.get h.id = none := hmissing
    exact ⟨⟨rfl, rfl, rfl, rfl⟩, fun r hr hid => absurd hid (Table.get_eq_none.mp hmissing r hr), fun r hr _ => hr⟩
  · refine ⟨⟨rfl, rfl, rfl, rfl⟩, fun r hr hid => ?_, fun r hr hid => ?_⟩
    · rcases Table.mem_update.mp hr with ⟨heq, -⟩ | ⟨-, hne⟩
      · exact heq
      · exact absurd hid hne
    · rcases Table.mem_update.mp hr with ⟨rfl, -⟩ | ⟨hr, -⟩
      · exact absurd rfl hid
      · exact hr

theorem moves_host (hw : Writing c.request h c.process) (hF : F h)
    (hp : c.process.Issues db db' p') : Moves F c db db' p' := by
  obtain ⟨hid, networkId, hc | hc⟩ := hw
  · have hphase : c.process.phase = some .current := by rw [hc]; rfl
    rw [hc, updateHost, bind_assoc] at hp
    obtain ⟨rfl, rfl⟩ := Process.issues_query hp
    split
    · exact .fails _
    · exact .reads h networkId hid hF hphase
  · have hphase : c.process.phase = some .write := by rw [hc]; rfl
    rw [hc] at hp
    rcases Process.issues_statement hp with ⟨updated, hu, rfl⟩ | ⟨e, hu, rfl⟩
    · exact .writes h hid hF hphase ((Program.wp_of_ok hu).mp (wp_written h)) (within_syncHost networkId updated)
    · rw [(Program.wp_of_error hu).mp (wp_written h)]
      exact .fails e

theorem moves_sync (hs : Syncing c.request c.process) (hp : c.process.Issues db db' p') :
    Moves F c db db' p' := by
  cases hc : c.process with
  | ret _ => rw [hc] at hp; exact hp.elim
  | fail _ => rw [hc] at hp; exact hp.elim
  | stmt phase afterOf next =>
    rw [hc] at hs hp
    obtain ⟨rfl, rfl⟩ := hp
    obtain ⟨hlo, -, h⟩ := hs
    exact .syncs phase (by rw [hc]; rfl) hlo (h db).1 (h db).2

theorem moves_of_remaining (h : c.Remaining F) (hp : c.process.Issues db db' p') : Moves F c db db' p' := by
  rcases h with hc | ⟨h, hw, hF⟩ | hs
  · exact moves_check hc hp
  · exact moves_host hw hF hp
  · exact moves_sync hs hp

/-- What `F'` is to hold of holds of the host row still to be written. -/
theorem Moves.remaining {F' : Host → Prop} (h : Moves F c db db' p') (touched : List Key)
    (haccepts : c.passes db = true → ∀ h : Host, h.id = c.request.id → h.updatedAt = db.now → F' h)
    (hF : c.process.phase = some .current → ∀ h, F h → F' h) : Call.Remaining F' ⟨c.request, touched, p'⟩ := by
  cases h with
  | fails e => exact .inr (.inr (Process.within_fail e))
  | accepts existing networkId hpasses _ _ =>
    exact .inr (.inl ⟨_, ⟨rfl, networkId, .inl rfl⟩, haccepts hpasses _ rfl rfl⟩)
  | reads h networkId hid hh hphase => exact .inr (.inl ⟨h, ⟨hid, networkId, .inr rfl⟩, hF hphase h hh⟩)
  | writes h _ _ _ _ hs => exact .inr (.inr hs)
  | syncs phase _ hlo _ hrest => exact .inr (.inr (hrest.mono hlo le_rfl))

/-! ## Children that are not at risk -/

theorem SameChildren.child (h : SameChildren db db') (k : Key) : db'.child k = db.child k := by
  obtain ⟨hi, hp, hs, hb⟩ := h
  unfold Db.child Db.hydrate Db.bindingsOf
  rw [hi, hp, hs, hb]

theorem atRisk_eq {kind : Kind} {phase : Phase} (hphase : c.process.phase = some phase) :
    c.atRisk kind = match kind with
      | .interface => c.request.interfaces.isSome && decide (phase ≤ .interfaces)
      | .port => c.request.ports.isSome && decide (phase ≤ .ports)
      | .service => c.request.interfaces.isSome && decide (phase ≤ .interfaces) ||
        c.request.ports.isSome && decide (phase ≤ .ports) || c.request.services.isSome && decide
            (phase ≤ .services) := by
  unfold Call.atRisk
  rw [hphase]
  rfl

/-- A statement leaves the kinds of children alone that are not at risk. -/
theorem Touches.child {phase : Phase} (h : Touches c.request phase db db')
    (hphase : c.process.phase = some phase) {k : Key}
    (hk : c.atRisk k.kind = false) : db'.child k = db.child k := by
  rw [atRisk_eq hphase] at hk
  obtain ⟨kind, id⟩ := k
  obtain ⟨-, h⟩ := h
  cases phase with
  | check | current | write | reload => exact SameChildren.child h _
  | interfaces =>
    obtain ⟨hl, hp⟩ := h
    cases kind with
    | interface => simp [hl] at hk
    | port => simp only [Db.child, hp]
    | service => simp [hl] at hk
  | ports =>
    obtain ⟨hl, hi⟩ := h
    cases kind with
    | interface => simp only [Db.child, hi]
    | port => simp [hl] at hk
    | service => simp [hl] at hk
  | services =>
    obtain ⟨hl, hi, hp⟩ := h
    cases kind with
    | interface => simp only [Db.child, hi]
    | port => simp only [Db.child, hp]
    | service => simp [hl] at hk

theorem Moves.child (h : Moves F c db db' p') {k : Key} (hk : c.atRisk k.kind = false) :
    db'.child k = db.child k := by
  cases h with
  | fails | accepts | reads => rfl
  | writes h _ _ _ hwritten _ => exact hwritten.children.child k
  | syncs phase hphase _ ht _ => exact ht.child hphase hk

theorem atRisk_mono {phase phase' : Phase} {touched : List Key} (hphase : c.process.phase = some phase)
    (hp : p.phase = some phase')
    (hle : phase ≤ phase') {kind : Kind} (hk : c.atRisk kind = false) :
    Call.atRisk ⟨c.request, touched, p⟩ kind = false := by
  have hlater {b : Bool} {q : Phase} (h : (b && decide (phase ≤ q)) = false) :
      (b && decide (phase' ≤ q)) = false := by
    rw [Bool.and_eq_false_iff, decide_eq_false_iff_not] at h ⊢
    exact h.imp id fun hlt h' => hlt (hle.trans h')
  rw [atRisk_eq hphase] at hk
  rw [atRisk_eq hp]
  cases kind with
  | interface => exact hlater hk
  | port => exact hlater hk
  | service =>
    simp only [Bool.or_eq_false_iff] at hk ⊢
    exact ⟨⟨hlater hk.1.1, hlater hk.1.2⟩, hlater hk.2⟩

theorem phase_of_passes (h : c.passes db = true) : c.process.phase = some .check := by
  simp only [Call.passes, Bool.and_eq_true, beq_iff_eq] at h
  exact h.1

/-- What is not at risk before a statement is not at risk after it. -/
theorem Moves.atRisk (h : Moves F c db db' p') {touched : List Key} {kind : Kind} (hk : c.atRisk kind = false) :
    Call.atRisk ⟨c.request, touched, p'⟩ kind = false := by
  cases h with
  | fails => rfl
  | accepts _ _ hpasses _ _ => exact atRisk_mono (phase_of_passes hpasses) rfl (by decide) hk
  | reads _ _ _ _ hphase => exact atRisk_mono hphase rfl (by decide) hk
  | writes _ _ _ hphase _ hs =>
    cases p' with
    | ret _ | fail _ => rfl
    | stmt phase' _ _ => exact atRisk_mono hphase rfl (le_trans (by decide) hs.1) hk
  | syncs phase hphase _ _ hrest =>
    cases p' with
    | ret _ | fail _ => rfl
    | stmt phase' _ _ => exact atRisk_mono hphase rfl hrest.1 hk

/-! ## The host row -/

theorem accepted_of_phase {phase : Phase} (hphase : c.process.phase = some phase) (hne : phase ≠ .check) :
    c.accepted = true := by
  unfold Call.accepted
  cases hc : c.process with
  | ret _ => rfl
  | fail _ => rw [hc] at hphase; cases hphase
  | stmt phase' _ _ =>
    rw [hc] at hphase
    cases hphase
    simpa using hne

theorem yetToWrite_iff : c.yetToWrite = true ↔ c.process.phase = some .current ∨ c.process.phase = some .write := by
  simp only [Call.yetToWrite, Bool.or_eq_true, beq_iff_eq]

theorem Writing.accepted (hw : Writing c.request h c.process) : c.accepted = true := by
  rcases hw.phase with hphase | hphase
  · exact accepted_of_phase hphase (by decide)
  · exact accepted_of_phase hphase (by decide)

/-- A call that is accepted after a statement was so before, or passed the check by it. -/
theorem Moves.accepted (h : Moves F c db db' p') {touched : List Key}
    (ha : Call.accepted ⟨c.request, touched, p'⟩ = true) :
    c.accepted = true ∨ c.passes db = true ∧ ∃ existing ∈ db.hosts.rows, existing.id = c.request.id ∧
      conflict c.request existing = none := by
  cases h with
  | fails => cases ha
  | accepts existing _ hpasses hget hnone =>
    obtain ⟨hr, hid⟩ := Table.get_eq_some.mp hget
    exact .inr ⟨hpasses, existing, hr, hid, hnone⟩
  | reads _ _ _ _ hphase => exact .inl (accepted_of_phase hphase (by decide))
  | writes _ _ _ hphase _ _ => exact .inl (accepted_of_phase hphase (by decide))
  | syncs phase hphase hlo _ _ =>
    refine .inl (accepted_of_phase hphase fun heq => ?_)
    rw [heq] at hlo
    exact absurd hlo (by decide)

/-- A row of a host that was not there before is what a call had to write. -/
theorem Moves.row (h : Moves F c db db' p') {r : Host} (hr : r ∈ db'.hosts.rows) :
    r ∈ db.hosts.rows ∨ r.id = c.request.id ∧ F r := by
  cases h with
  | fails | accepts | reads => exact .inl hr
  | writes h hid hF _ hwritten _ =>
    by_cases heq : r.id = h.id
    · rw [hwritten.row r hr heq]
      exact .inr ⟨hid, hF⟩
    · exact .inl (hwritten.rest r hr heq)
  | syncs _ _ _ ht _ => exact .inl (ht.1 ▸ hr)

/-- A call that has written the host row has just done so, or had before. -/
theorem Moves.ownRow (h : Moves F c db db' p') {touched : List Key}
    (ha : Call.accepted ⟨c.request, touched, p'⟩ = true)
    (hw : Call.yetToWrite ⟨c.request, touched, p'⟩ = false) {r : Host} (hr : r ∈ db'.hosts.rows)
    (hid : r.id = c.request.id) :
    c.accepted = true ∧ (F r ∨ c.yetToWrite = false ∧ r ∈ db.hosts.rows) := by
  cases h with
  | fails => cases ha
  | accepts => cases hw
  | reads => cases hw
  | writes h hid' hF hphase hwritten _ =>
    rw [hwritten.row r hr (hid.trans hid'.symm)]
    exact ⟨accepted_of_phase hphase (by decide), .inl hF⟩
  | syncs phase hphase hlo ht _ =>
    have hne {q : Phase} (hq : ¬ .interfaces ≤ q) : c.process.phase ≠ some q := by
      intro heq
      cases hphase.symm.trans heq
      exact hq hlo
    refine ⟨accepted_of_phase hphase fun heq => hne (q := .check) (by decide) (heq ▸ hphase), .inr ⟨?_, ht.1 ▸ hr⟩⟩
    rw [← Bool.not_eq_true, yetToWrite_iff, not_or]
    exact ⟨hne (by decide), hne (by decide)⟩

/-! ## What a run keeps -/

/-- The host row is not to be given the version that one of the calls replaces. -/
def Fresh (calls : List Call) (h : Host) : Prop :=
  ∀ d ∈ calls, d.accepted = true → d.request.id = h.id → d.version ≠ some h.updatedAt.timestampMicros

structure Inv (s : State) : Prop where
  remaining : ∀ c ∈ s.calls, c.Remaining (Fresh s.calls)
  versioned : ∀ c ∈ s.calls, c.request.expectedUpdatedAt.isSome = true
  hostRow : ∀ c ∈ s.calls, c.accepted = true → c.yetToWrite = false → ∀ r ∈ s.db.hosts.rows, r.id = c.request.id →
    c.version ≠ some r.updatedAt.timestampMicros
  apart : ∀ (i j : Nat) (c d : Call), s.calls[i]? = some c → s.calls[j]? = some d → i ≠ j → c.accepted = true →
    d.accepted = true →
    c.request.id = d.request.id → c.version ≠ d.version
  safe : ∀ c ∈ s.calls, c.accepted = true → ∀ k ∈ c.touched, c.atRisk k.kind = false

variable {s t : State}

theorem Call.Remaining.mono {F' : Host → Prop} (h : c.Remaining F)
    (hF : ∀ h, Writing c.request h c.process → F h → F' h) :
    c.Remaining F' := by
  rcases h with h | ⟨h, hw, hh⟩ | h
  · exact .inl h
  · exact .inr (.inl ⟨h, hw, hF h hw hh⟩)
  · exact .inr (.inr h)

/-- A request that passes the check was made from the version that the row has. -/
theorem version_of_conflict {existing : Host} (hv : c.request.expectedUpdatedAt.isSome = true)
    (h : conflict c.request existing = none) : c.version = some existing.updatedAt.timestampMicros := by
  obtain ⟨v, hv⟩ := Option.isSome_iff_exists.mp hv
  unfold conflict at h
  unfold Call.version
  rw [hv] at h ⊢
  dsimp only at h
  split at h
  · cases h
  · next heq =>
    have heq : existing.updatedAt.timestampMicros = v.timestampMicros := by simpa using heq
    rw [Option.map_some, heq]

/-- The calls after a write that is not of one of them. -/
theorem mem_write {db' : Db} (hc : c ∈ (s.write db').calls) : ∃ d ∈ s.calls, c = d.note s.db db' := by
  obtain ⟨d, hd, rfl⟩ := List.mem_map.mp hc
  exact ⟨d, hd, rfl⟩

theorem fresh_write {db' : Db} : Fresh (s.write db').calls h ↔ Fresh s.calls h := by
  simp only [Fresh, State.write, List.forall_mem_map]
  exact Iff.rfl

theorem getElem?_write {db' : Db} {i : Nat} : (s.write db').calls[i]? = (s.calls[i]?).map (Call.note s.db db') :=
  List.getElem?_map

/-- A write of something else keeps the invariant. -/
theorem Inv.write (hI : Inv s) (hleaves : Leaves s.calls s.db db') (hadvances : Advances s.calls s.db db') :
    Inv (s.write db') where
  remaining c hc := by
    obtain ⟨d, hd, rfl⟩ := mem_write hc
    exact (hI.remaining d hd).mono fun h _ hh => fresh_write.mpr hh
  versioned c hc := by
    obtain ⟨d, hd, rfl⟩ := mem_write hc
    exact hI.versioned d hd
  hostRow c hc ha hw r hr hid := by
    obtain ⟨d, hd, rfl⟩ := mem_write hc
    rcases hadvances d hd ha hw r hr hid with ⟨r', hr', hid', hat⟩ | hne
    · rw [← hat]
      exact hI.hostRow d hd ha hw r' hr' (hid'.trans hid)
    · exact hne
  apart i j c d hc hd hij ha hb hid := by
    rw [getElem?_write] at hc hd
    obtain ⟨c₀, hc₀, rfl⟩ := Option.map_eq_some_iff.mp hc
    obtain ⟨d₀, hd₀, rfl⟩ := Option.map_eq_some_iff.mp hd
    exact hI.apart i j c₀ d₀ hc₀ hd₀ hij ha hb hid
  safe c hc ha k hk := by
    obtain ⟨d, hd, rfl⟩ := mem_write hc
    rcases List.mem_append.mp hk with hk | hk
    · exact hI.safe d hd ha k hk
    · exact hleaves d hd ha k hk

/-- A request that comes in keeps the invariant: it is not accepted yet. -/
theorem Inv.received {touched : List Key} (hI : Inv s)
    (hv : request.expectedUpdatedAt.isSome = true) :
    Inv { s with calls := s.calls ++ [⟨request, touched, updateFromRequest request⟩] } := by
  have hnew : Call.accepted ⟨request, touched, updateFromRequest request⟩ = false := rfl
  have hmem {c : Call} (hc : c ∈ s.calls ++ [⟨request, touched, updateFromRequest request⟩])
    (ha : c.accepted = true) :
      c ∈ s.calls := by
    rcases List.mem_append.mp hc with hc | hc
    · exact hc
    · rw [List.mem_singleton.mp hc, hnew] at ha
      cases ha
  have hget {i : Nat} {c : Call} (hc : (s.calls ++ [⟨request, touched, updateFromRequest request⟩])[i]? = some c)
      (ha : c.accepted = true) : s.calls[i]? = some c := by
    rw [List.getElem?_append] at hc
    split at hc
    · exact hc
    · rw [List.mem_singleton.mp (List.mem_of_getElem? hc), hnew] at ha
      cases ha
  refine ⟨fun c hc => ?_, fun c hc => ?_, fun c hc ha => ?_, fun i j c d hc hd hij ha hb => ?_, fun c hc ha => ?_⟩
  · rcases List.mem_append.mp hc with hc | hc
    · exact (hI.remaining c hc).mono fun h _ hh d hd ha => hh d (hmem hd ha) ha
    · rw [List.mem_singleton.mp hc]
      exact .inl rfl
  · rcases List.mem_append.mp hc with hc | hc
    · exact hI.versioned c hc
    · rw [List.mem_singleton.mp hc]
      exact hv
  · exact hI.hostRow c (hmem hc ha) ha
  · exact hI.apart i j c d (hget hc ha) (hget hd hb) hij ha hb
  · exact hI.safe c (hmem hc ha) ha

theorem getElem?_next {c' : Call} {i j : Nat} (hget : s.calls[i]? = some c) :
    ((s.write db').calls.set i c')[j]? = if j = i then some c' else (s.calls[j]?).map (Call.note s.db db') := by
  have hlt : i < (s.write db').calls.length := by
    rw [State.write, List.length_map]
    exact (List.getElem?_eq_some_iff.mp hget).1
  by_cases hij : j = i
  · rw [if_pos hij, hij, List.getElem?_set_self hlt]
  · rw [if_neg hij, List.getElem?_set_ne (Ne.symm hij), getElem?_write]

theorem mem_next {c' x : Call} {i : Nat} (hget : s.calls[i]? = some c) (hx : x ∈ (s.write db').calls.set i c') :
    x = c' ∨ ∃ d ∈ s.calls.eraseIdx i, x = d.note s.db db' := by
  obtain ⟨j, hj⟩ := List.mem_iff_getElem?.mp hx
  rw [getElem?_next hget] at hj
  split at hj
  · exact .inl (Option.some.inj hj).symm
  · next hne =>
    obtain ⟨d, hd, rfl⟩ := Option.map_eq_some_iff.mp hj
    exact .inr ⟨d, List.mem_eraseIdx_iff_getElem?.mpr ⟨j, hne, hd⟩, rfl⟩

/-- A statement of a call keeps the invariant. -/
theorem Inv.next {db₀ : Db} {i : Nat} {now : DateTime} (hI : Inv s) (hget : s.calls[i]? = some c)
    (hhosts : db₀.hosts = s.db.hosts) (hnow : db₀.now = now) (hm : Moves (Fresh s.calls) c db₀ db' p')
    (hadm : c.passes db₀ = true → Admissible (s.calls.eraseIdx i) c now)
    (hleaves : Leaves (s.calls.eraseIdx i) s.db db') :
    Inv { s.write db' with calls := (s.write db').calls.set i ⟨c.request, c.touched, p'⟩ } := by
  have hc : c ∈ s.calls := List.mem_of_getElem? hget
  have hothers {d : Call} (hd : d ∈ s.calls.eraseIdx i) : d ∈ s.calls := List.mem_of_mem_eraseIdx hd
  have hapart : ∀ (j : Nat) (d : Call), s.calls[j]? = some d → j ≠ i →
    Call.accepted ⟨c.request, c.touched, p'⟩ = true →
      d.accepted = true → c.request.id = d.request.id → c.version ≠ d.version := by
    intro j d hd hji ha hb hid
    rcases hm.accepted ha with ha | ⟨hpasses, existing, hr, hrid, hnone⟩
    · exact hI.apart i j c d hget hd (Ne.symm hji) ha hb hid
    · have hmem : d ∈ s.calls.eraseIdx i := List.mem_eraseIdx_iff_getElem?.mpr ⟨j, hji, hd⟩
      have hwritten := (hadm hpasses).written d hmem hb hid.symm
      rw [version_of_conflict (hI.versioned c hc) hnone]
      exact Ne.symm (hI.hostRow d (hothers hmem) hb hwritten existing (hhosts ▸ hr) (hrid.trans hid))
  refine ⟨fun x hx => ?_, fun x hx => ?_, fun x hx ha hw r hr hid => ?_, fun j k x y hx hy hjk ha hb hid => ?_,
    fun x hx ha k hk => ?_⟩
  · rcases mem_next hget hx with rfl | ⟨d, hd, rfl⟩
    · refine hm.remaining c.touched (fun hpasses h hid hat y hy ha hy' => ?_) fun hphase h hh y hy ha hid => ?_
      · rw [hat, hnow]
        rcases mem_next hget hy with rfl | ⟨d, hd, rfl⟩
        · exact (hadm hpasses).ticks
        · exact (hadm hpasses).clock d hd ha (hy'.trans hid)
      · rcases mem_next hget hy with rfl | ⟨d, hd, rfl⟩
        · exact hh c hc (accepted_of_phase hphase (by decide)) hid
        · exact hh d (hothers hd) ha hid
    · refine (hI.remaining d (hothers hd)).mono fun h hw hh y hy ha hid => ?_
      rcases mem_next hget hy with rfl | ⟨e, he, rfl⟩
      · rcases hm.accepted ha with ha | ⟨hpasses, -⟩
        · exact hh c hc ha hid
        · -- a request does not pass the check while another is to write the row
          have hwritten := (hadm hpasses).written d hd hw.accepted (hw.1.symm.trans hid.symm)
          rw [yetToWrite_iff.mpr hw.phase] at hwritten
          cases hwritten
      · exact hh e (hothers he) ha hid
  · rcases mem_next hget hx with rfl | ⟨d, hd, rfl⟩
    · exact hI.versioned c hc
    · exact hI.versioned d (hothers hd)
  · rcases mem_next hget hx with rfl | ⟨d, hd, rfl⟩
    · obtain ⟨ha, hr | ⟨hw, hr⟩⟩ := hm.ownRow ha hw hr hid
      · exact hr c hc ha hid.symm
      · exact hI.hostRow c hc ha hw r (hhosts ▸ hr) hid
    · rcases hm.row hr with hr | ⟨-, hr⟩
      · exact hI.hostRow d (hothers hd) ha hw r (hhosts ▸ hr) hid
      · exact hr d (hothers hd) ha hid.symm
  · have hx := (getElem?_next hget).symm.trans hx
    have hy := (getElem?_next hget).symm.trans hy
    split at hx
    · next hj =>
      cases hx
      rw [if_neg (fun hk => hjk (hj.trans hk.symm))] at hy
      obtain ⟨d, hd, rfl⟩ := Option.map_eq_some_iff.mp hy
      exact hapart k d hd (fun hk => hjk (hj.trans hk.symm)) ha hb hid
    · next hj =>
      obtain ⟨e, he, rfl⟩ := Option.map_eq_some_iff.mp hx
      split at hy
      · cases hy
        exact Ne.symm (hapart j e he hj hb ha hid.symm)
      · obtain ⟨d, hd, rfl⟩ := Option.map_eq_some_iff.mp hy
        exact hI.apart j k e d he hd hjk ha hb hid
  · rcases mem_next hget hx with rfl | ⟨d, hd, rfl⟩
    · rcases hm.accepted ha with ha | ⟨hpasses, -⟩
      · exact hm.atRisk (hI.safe c hc ha k hk)
      · exact hm.atRisk ((hadm hpasses).untouched k hk)
    · rcases List.mem_append.mp hk with hk | hk
      · exact hI.safe d (hothers hd) ha k hk
      · exact hleaves d hd ha k hk

/-- What was added or changed since a request was made from a version is kept by its statements. -/
theorem Inv.keeps {db₀ : Db} (hI : Inv s) (hc : c ∈ s.calls) (hm : Moves (Fresh s.calls) c db₀ db' p') {k : Key}
    (hk : k ∈ c.touched) : db'.child k = db₀.child k := by
  by_cases ha : c.accepted = true
  · exact hm.child (hI.safe c hc ha k hk)
  · cases hm with
    | fails | accepts | reads => rfl
    | writes _ _ _ hphase _ _ => exact absurd (accepted_of_phase hphase (by decide)) ha
    | syncs phase hphase hlo _ _ =>
      refine absurd (accepted_of_phase hphase fun heq => ?_) ha
      rw [heq] at hlo
      exact absurd hlo (by decide)

/-! ## Runs -/

/-- The statement a step issues is the next one of a call. -/
theorem step_next {i : Nat} {now : DateTime} {drawn : List Uuid} (h : step s (.next i now drawn) = some t) :
    ∃ c db' p', s.calls[i]? = some c ∧ c.process.Issues { s.db with now, drawn } db' p' ∧
      db' = c.afterNext { s.db with now, drawn } ∧
      t = { s.write db' with calls := (s.write db').calls.set i ⟨c.request, c.touched, p'⟩ } := by
  simp only [step] at h
  split at h
  · cases h
  · next c hget =>
    split at h
    · next phase after next hp =>
      cases h
      refine ⟨c, _, _, hget, ?_, ?_, rfl⟩
      · rw [hp]
        exact ⟨rfl, rfl⟩
      · unfold Call.afterNext
        rw [hp]
    · cases h

theorem inv_step {a : Action} (hI : Inv s) (hok : Undisturbed s a) (h : step s a = some t) : Inv t := by
  cases a with
  | load hostId =>
    obtain ⟨host, -, rfl⟩ := Option.map_eq_some_iff.mp h
    exact ⟨hI.remaining, hI.versioned, hI.hostRow, hI.apart, hI.safe⟩
  | request l request =>
    simp only [step] at h
    split at h
    · cases h
    · split at h
      · next hmade =>
        cases h
        exact hI.received (by rw [hmade.2]; rfl)
      · cases h
  | next i now drawn =>
    obtain ⟨c, db', p', hget, hissues, hdb', rfl⟩ := step_next h
    obtain ⟨hadm, hleaves⟩ := hok c hget
    have hm := moves_of_remaining (hI.remaining c (List.mem_of_getElem? hget)) hissues
    have hhosts : ({ s.db with now, drawn } : Db).hosts = s.db.hosts := rfl
    exact hI.next hget hhosts rfl hm hadm (hdb' ▸ hleaves)
  | other op now drawn =>
    cases h
    exact hI.write hok.1 hok.2

theorem keeps_step {a : Action} (hI : Inv s) (h : step s a = some t) : Keeps s a t := by
  cases a with
  | load | request | other => trivial
  | next i now drawn =>
    intro c hc k hk
    obtain ⟨c', db', p', hget, hissues, -, rfl⟩ := step_next h
    cases hget.symm.trans hc
    have hc := List.mem_of_getElem? hget
    exact hI.keeps hc (moves_of_remaining (hI.remaining c hc) hissues) hk

theorem accepted_of_succeeded (h : c.succeeded = true) : c.accepted = true := by
  unfold Call.succeeded at h
  unfold Call.accepted
  cases hp : c.process with
  | ret _ => rfl
  | fail _ | stmt _ _ _ => rw [hp] at h; cases h

theorem Inv.atMostOne (hI : Inv s) : AtMostOne s := by
  intro i _ j _ hij c hc d hd ⟨ha, hb, hid, hv⟩
  exact hI.apart i j c d hc hd hij (accepted_of_succeeded ha) (accepted_of_succeeded hb) hid hv

/-- Nothing has been loaded, and no request was made. -/
def Start (s : State) : Prop := s.loads = [] ∧ s.calls = []

/-- **The versions of hosts work** in an undisturbed run: of the updates made
from one version at most one succeeds, and none replaces what was added or
changed since its version. -/
theorem sound_of_undisturbed (h : Start s) {as : List Action} (hr : Transition.Along step Undisturbed s as) :
    Transition.Visits step AtMostOne s as ∧ Transition.Every step Keeps s as := by
  have hI : Inv s := by
    refine ⟨fun c hc => ?_, fun c hc => ?_, fun c hc => ?_, fun i j c d hc => ?_, fun c hc => ?_⟩
    all_goals rw [h.2] at hc; cases hc
  exact ⟨hr.visits (fun _ _ _ hI hok ht => inv_step hI hok ht) (fun _ hI => hI.atMostOne) hI,
    hr.every (fun _ _ _ hI hok ht => inv_step hI hok ht) (fun _ _ _ hI _ ht => keeps_step hI ht) hI⟩

/-! ## Two runs -/

instance (calls : List Call) (db db' : Db) : Decidable (Leaves calls db db') := by unfold Leaves; infer_instance

instance (calls : List Call) (db db' : Db) : Decidable (Advances calls db db') := by unfold Advances; infer_instance

instance (others : List Call) (c : Call) (now : DateTime) : Decidable (Admissible others c now) :=
  decidable_of_iff (_ ∧ _ ∧ _ ∧ _) ⟨fun h => ⟨h.1, h.2.1, h.2.2.1, h.2.2.2⟩,
    fun h => ⟨h.written, h.clock, h.ticks, h.untouched⟩⟩

instance (s : State) : (a : Action) → Decidable (Undisturbed s a)
  | .load _ => .isTrue trivial
  | .request _ _ => .isTrue trivial
  | .next _ _ _ => by unfold Undisturbed; infer_instance
  | .other _ _ _ => by unfold Undisturbed; infer_instance

instance (s : State) : Decidable (AtMostOne s) := by unfold AtMostOne; infer_instance

instance (s t : State) : (a : Action) → Decidable (Keeps s a t)
  | .next _ _ _ => by unfold Keeps; infer_instance
  | .load _ => .isTrue trivial
  | .request _ _ => .isTrue trivial
  | .other _ _ _ => .isTrue trivial

/-- A host with an interface, of the version of the first millisecond. -/
def oneHost : State where
  db :=
    { networks := [1]
      hosts := { rows := [{ id := 20, updatedAt := 1000000, base := { networkId := 1, source := .discovery [] } }] }
      subnets := { rows := [{ id := 5, base := { cidr := ⟨.v4 0x0a000000, 24⟩, networkId := 1 } }] }
      interfaces := { rows :=
        [{ id := 40, base := { networkId := 1, hostId := 20, subnetId := 5, ipAddress := .v4 0x0a000007 } }] } }

/-- The host is renamed, and its interfaces are listed as they were loaded if `listed`. -/
def rename (name : String) (listed : Bool) : UpdateHostRequest where
  id := 20
  name := name
  expectedUpdatedAt := some 1000000
  interfaces := if listed then some [{ id := 40, subnetId := 5, ipAddress := .v4 0x0a000007 }] else none

/-- A discovery reports the host with another interface. -/
def rediscover : Store Unit := do
  let _ ← HostService.discoverHost none
    { host := { id := 20, base := { networkId := 1, source := .discovery [] } }
      interfaces := [{ id := 41, base := { networkId := 1, subnetId := 5, ipAddress := .v4 0x0a000008 } }] }
  return ()

def statements (i n : Nat) : List Action := List.replicate n (.next i 2000000 [])

theorem sound_of_undisturbed_discovery :
    let run := [.load 20, .request 0 (rename "a" true)] ++ statements 0 11 ++ [.other rediscover 3000000 []]
    Transition.Visits step AtMostOne oneHost run ∧ Transition.Every step Keeps oneHost run :=
  sound_of_undisturbed ⟨rfl, rfl⟩ (by decide +kernel)

/-- Two requests are checked before either has written the row; and a
discovery adds an interface, which does not change the version, before a request
that does not list it. -/
theorem both_succeed_and_interface_lost :
    (¬ Transition.Visits step AtMostOne oneHost
      ([.load 20, .request 0 (rename "a" false), .request 0 (rename "b" false), .next 0 2000000 [],
        .next 1 2000000 []]
        ++ statements 0 6 ++ statements 1 6)) ∧
    ¬ Transition.Every step Keeps oneHost
      ([.load 20, .other rediscover 2000000 [], .request 0 (rename "a" true)] ++ statements 0 5) :=
  ⟨by decide +kernel, by decide +kernel⟩

end HostUpdate

end Netvisor
