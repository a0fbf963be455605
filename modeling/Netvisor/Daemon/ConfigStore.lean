/-
`ConfigStore`: the configuration of a daemon, in memory and in its file, and the
layers that a daemon is started from.

A save writes a temporary file and renames it, while it holds the lock of the
configuration. The process may be killed between any two of its steps, and
writing or renaming may fail, which leaves the change in memory only. A start
reads the file that the command line names, and fails if what the environment or
the command line gives cannot be read; saves go to the file that the name in the
configuration stands for, and that may come from the environment. Of that one a
start reads back the id and the last heartbeat only. Each start has an
environment and a command line of its own.
-/
import Mathlib.Logic.Function.Basic
import Netvisor.Daemons.Subscriber
import Netvisor.Lib.Transition

namespace Netvisor.ConfigStore

open Transition (Visits Along run)

/-! ## Configurations -/

/-- With the fields that are set at run time. -/
structure AppConfig where
  name : String := "scanopy-daemon"
  networkId : Option Uuid := none
  daemonPort : BitVec 16 := 60073
  id : Uuid
  lastHeartbeat : Option DateTime := none
  daemonApiKey : Option String := none
  userId : Option Uuid := none
  capabilities : DaemonCapabilities := {}
deriving DecidableEq, Repr

/-- What a layer gives for a field. The variables of the environment are read as
numbers, booleans, lists or text first, and then as what the field is. -/
inductive Setting (α : Type)
  | unset
  | value (a : α)
  | unreadable
deriving DecidableEq, Repr

namespace Setting

variable {α β : Type}

def ofOption : Option α → Setting α
  | none => unset
  | some a => value a

def map (f : α → β) : Setting α → Setting β
  | unset => unset
  | value a => value (f a)
  | unreadable => unreadable

/-- A layer, and the one that is merged over it. -/
def merge : Setting α → Setting α → Setting α
  | below, unset => below
  | _, above => above

/-- What comes out, over what is read of the file. -/
def read (base : α) : Setting α → Option α
  | unset => some base
  | value a => some a
  | unreadable => none

def isReadable : Setting α → Bool
  | unreadable => false
  | _ => true

@[simp] theorem isSome_read (s : Setting α) (base : α) : (s.read base).isSome = s.isReadable := by cases s <;> rfl

@[simp] theorem isReadable_map (s : Setting α) (f : α → β) : (s.map f).isReadable = s.isReadable := by cases s <;> rfl

end Setting

/-- The variables of the environment. -/
structure Environment where
  name : Setting String := .unset
  networkId : Setting Uuid := .unset
  daemonPort : Setting (BitVec 16) := .unset
  id : Setting Uuid := .unset
  lastHeartbeat : Setting DateTime := .unset
  daemonApiKey : Setting String := .unset
  userId : Setting Uuid := .unset
  /-- The two of `CAPABILITIES`, which is merged field by field. -/
  hasDockerSocket : Setting Bool := .unset
  interfacedSubnetIds : Setting (List Uuid) := .unset
deriving DecidableEq, Repr

structure DaemonCli where
  name : Option String := none
  /-- Any text is taken for it. -/
  networkId : Setting Uuid := .unset
  daemonPort : Option (BitVec 16) := none
  daemonApiKey : Option String := none
  userId : Option Uuid := none
deriving DecidableEq, Repr

/-- What a daemon is started with. -/
structure Given where
  environment : Environment := {}
  cli : DaemonCli := {}
  /-- The fields that are never set at run time can be read. -/
  others : Bool := true
deriving DecidableEq, Repr

namespace Given

variable (g : Given)

/-- The environment under the command line. -/
def settings : Environment :=
  { g.environment with
    name := g.environment.name.merge (.ofOption g.cli.name)
    networkId := g.environment.networkId.merge g.cli.networkId
    daemonPort := g.environment.daemonPort.merge (.ofOption g.cli.daemonPort)
    daemonApiKey := g.environment.daemonApiKey.merge (.ofOption g.cli.daemonApiKey)
    userId := g.environment.userId.merge (.ofOption g.cli.userId) }

/-- The configuration that comes out of the layers, over what was read of the file. -/
def extract (config : AppConfig) : Option AppConfig := do
  let e := g.settings
  let name ← e.name.read config.name
  let networkId ← (e.networkId.map some).read config.networkId
  let daemonPort ← e.daemonPort.read config.daemonPort
  let id ← e.id.read config.id
  let lastHeartbeat ← (e.lastHeartbeat.map some).read config.lastHeartbeat
  let daemonApiKey ← (e.daemonApiKey.map some).read config.daemonApiKey
  let userId ← (e.userId.map some).read config.userId
  let hasDockerSocket ← e.hasDockerSocket.read config.capabilities.hasDockerSocket
  let interfacedSubnetIds ← e.interfacedSubnetIds.read config.capabilities.interfacedSubnetIds
  if g.others then
    some
      { name, networkId, daemonPort, id, lastHeartbeat, daemonApiKey, userId
        capabilities := { hasDockerSocket, interfacedSubnetIds } }
  else none

/-- Whatever the environment and the command line give can be read. -/
def isReadable : Bool :=
  let e := g.settings
  e.name.isReadable && e.networkId.isReadable && e.daemonPort.isReadable && e.id.isReadable
    && e.lastHeartbeat.isReadable && e.daemonApiKey.isReadable && e.userId.isReadable
    && e.hasDockerSocket.isReadable && e.interfacedSubnetIds.isReadable && g.others

/-- The name that the environment or the command line gives. -/
def name : Option String :=
  match g.settings.name with
  | .value n => some n
  | _ => none

end Given

/-- What is set at run time. -/
inductive Change
  | setId (id : Uuid)
  | setApiKey (apiKey : String)
  | setUserId (userId : Uuid)
  | setPort (port : BitVec 16)
  | setNetworkId (networkId : Uuid)
  | updateHeartbeat (now : DateTime)
  | setCapabilities (capabilities : DaemonCapabilities)
deriving DecidableEq, Repr

def Change.apply (config : AppConfig) : Change → AppConfig
  | .setId id => { config with id }
  | .setApiKey apiKey => { config with daemonApiKey := some apiKey }
  | .setUserId userId => { config with userId := some userId }
  | .setPort daemonPort => { config with daemonPort }
  | .setNetworkId networkId => { config with networkId := some networkId }
  | .updateHeartbeat now => { config with lastHeartbeat := some now }
  | .setCapabilities capabilities => { config with capabilities }

/-! ## Files -/

/-- The directories of configurations: the one of the daemon, and the ones for names below it. -/
structure ConfigDir (π : Type) where
  legacy : π
  named : String → π

def ConfigDir.getConfigPathForName {π : Type} (d : ConfigDir π) : Option String → π
  | some n => if n ≠ "scanopy-daemon" then d.named n else d.legacy
  | none => d.legacy

/-- Where a store keeps a configuration. -/
def ConfigDir.pathOf {π : Type} (d : ConfigDir π) (config : AppConfig) : π := d.getConfigPathForName (some config.name)

inductive Content
  | complete (config : AppConfig)
  /-- No JSON: a write was begun and not finished. -/
  | torn
deriving DecidableEq, Repr

/-- How far a save has come. -/
inductive Phase
  | changed
  | opened
  | written
  | renamed
deriving DecidableEq, Repr

/-- While a save is under way, nothing else changes the configuration. -/
structure Process where
  config : AppConfig
  saving : Option Phase := none
deriving DecidableEq, Repr

/-- In each directory `config.json`, and beside it `config.tmp`. -/
structure State (π : Type) where
  files : π → Option Content
  temps : π → Option Content
  process : Option Process := none

variable {π : Type} [DecidableEq π] (d : ConfigDir π) (g : Given)

/-- What `AppConfig::load` reads. -/
def Given.loadPath : π := d.getConfigPathForName g.cli.name

/-- Where saves go. -/
def Given.storePath : π := d.getConfigPathForName g.name

/-- `AppConfig::load`, with the id that is drawn for a new daemon. -/
def load (files : π → Option Content) (drawn : Uuid) : Option AppConfig :=
  match files (g.loadPath d) with
  | none => g.extract { id := drawn }
  | some (.complete config) => g.extract config
  | some .torn => none

/-- `ConfigStore::initialize` and `load`, on the configuration that the store was made with. -/
def initialized (files : π → Option Content) (config : AppConfig) : Option AppConfig :=
  match files (d.pathOf config) with
  | none => some config
  | some (.complete loaded) => some { config with id := loaded.id, lastHeartbeat := loaded.lastHeartbeat }
  | some .torn => none

/-- The next step of a save. -/
def State.save (s : State π) (config : AppConfig) : Phase → State π
  | .changed =>
    { s with
      temps := Function.update s.temps (d.pathOf config) (some .torn)
      process := some { config, saving := some .opened } }
  | .opened =>
    { s with
      temps := Function.update s.temps (d.pathOf config) (some (.complete config))
      process := some { config, saving := some .written } }
  | .written =>
    { files := Function.update s.files (d.pathOf config)
        (s.temps (d.pathOf config))
      temps := Function.update s.temps (d.pathOf config) none
      process := some { config, saving := some .renamed } }
  | .renamed => { s with process := some { config } }

inductive Action
  /-- The configuration is loaded, and the store made for it. -/
  | start (g : Given) (drawn : Uuid)
  /-- A setter takes the lock. -/
  | change (c : Change)
  | proceed
  /-- The file system gives an error. -/
  | fail
  | kill
deriving DecidableEq, Repr

def step (s : State π) : Action → Option (State π)
  | .start g drawn =>
    if s.process.isSome then none
    else do
      let config ← load d g s.files drawn
      let config ← initialized d s.files config
      return { s with process := some { config } }
  | .change c =>
    match s.process with
    | some ⟨config, none⟩ => some { s with process := some ⟨c.apply config, some .changed⟩ }
    | _ => none
  | .proceed =>
    match s.process with
    | some ⟨config, some phase⟩ => some (s.save d config phase)
    | _ => none
  | .fail =>
    match s.process with
    | some ⟨config, some phase⟩ => if phase = .renamed then none else some { s with process := some ⟨config, none⟩ }
    | _ => none
  | .kill => if s.process.isSome then some { s with process := none } else none

/-! ## Starts -/

variable {d g} {s t : State π} {files : π → Option Content} {config loaded stored : AppConfig} {drawn : Uuid} {path : π}

/-- Every file is a whole configuration, in the place for its name. -/
def Intact (d : ConfigDir π) (files : π → Option Content) : Prop :=
  ∀ path content, files path = some content → ∃ config, content = .complete config ∧ d.pathOf config = path

/-- What is in a file, or else the defaults. -/
def read (files : π → Option Content) (path : π) (drawn : Uuid) : AppConfig :=
  match files path with
  | some (.complete config) => config
  | _ => { id := drawn }

/-- What a daemon keeps of its store. -/
def AppConfig.restore (config stored : AppConfig) : AppConfig :=
  { config with id := stored.id, lastHeartbeat := stored.lastHeartbeat }

/-- What a daemon runs with that loaded the configuration. -/
def restored (d : ConfigDir π) (files : π → Option Content) (config : AppConfig) : AppConfig :=
  match files (d.pathOf config) with
  | some (.complete stored) => config.restore stored
  | _ => config

omit [DecidableEq π] in
@[simp] theorem pathOf_restore : d.pathOf (config.restore stored) = d.pathOf config := rfl

omit [DecidableEq π] in
@[simp] theorem pathOf_restored : d.pathOf (restored d files config) = d.pathOf config := by
  unfold restored
  split <;> rfl

omit [DecidableEq π] in
theorem restored_of_stored (h : files (d.pathOf config) = some (.complete stored)) :
    restored d files config = config.restore stored := by rw [restored, h]

theorem Setting.isSome_bind {α β : Type} {s : Setting α} {base : α} {f : α → Option β} {r b : Bool}
    (hs : s.isReadable = r) (hf : ∀ a, (f a).isSome = b) : (s.read base >>= f).isSome = (r && b) := by
  cases s with
  | unset =>
    subst hs
    exact (hf base).trans (Bool.true_and b).symm
  | value a =>
    subst hs
    exact (hf a).trans (Bool.true_and b).symm
  | unreadable =>
    subst hs
    exact (Bool.false_and b).symm

/-- A configuration comes out of the layers exactly if all that counts can be read. -/
theorem isSome_extract (g : Given) (config : AppConfig) : (g.extract config).isSome = g.isReadable := by
  simp only [Given.isReadable, Bool.and_assoc]
  refine Setting.isSome_bind rfl fun _ => Setting.isSome_bind (Setting.isReadable_map ..) fun _ =>
    Setting.isSome_bind rfl fun _ => Setting.isSome_bind rfl fun _ =>
    Setting.isSome_bind (Setting.isReadable_map ..) fun _ => Setting.isSome_bind (Setting.isReadable_map ..) fun _ =>
    Setting.isSome_bind (Setting.isReadable_map ..) fun _ => Setting.isSome_bind rfl fun _ =>
    Setting.isSome_bind rfl fun _ => ?_
  cases g.others <;> rfl

theorem name_of_extract (h : g.extract config = some loaded) : loaded.name = g.name.getD config.name := by
  simp only [Given.extract, Option.bind_eq_bind, Option.bind_eq_some_iff, Option.ite_none_right_eq_some,
    Option.some.injEq] at h
  obtain ⟨name, hname, _, -, _, -, _, -, _, -, _, -, _, -, _, -, _, -, -, rfl⟩ := h
  rw [Given.name]
  cases hs : g.settings.name with
  | unset =>
    rw [hs] at hname
    exact (Option.some.inj hname).symm
  | value n =>
    rw [hs] at hname
    exact (Option.some.inj hname).symm
  | unreadable =>
    rw [hs] at hname
    cases hname

/-- The name on the command line is the one that counts. -/
theorem name_of_cli {n : String} (h : g.cli.name = some n) : g.name = some n := by
  rw [Given.name, Given.settings, h]
  rfl

omit [DecidableEq π] in
/-- Saves go to one place only, whatever was loaded. -/
theorem pathOf_extract (h : Intact d files) (hloaded : g.extract (read files (g.loadPath d) drawn) = some loaded) :
    d.pathOf loaded = g.storePath d := by
  rw [ConfigDir.pathOf, name_of_extract hloaded, Given.storePath]
  cases hname : g.name with
  | some n => rfl
  | none =>
    have hcli : g.cli.name = none := by
      by_contra hsome
      obtain ⟨n, hn⟩ := Option.ne_none_iff_exists'.mp hsome
      rw [name_of_cli hn] at hname
      cases hname
    have hload : g.loadPath d = d.legacy := by rw [Given.loadPath, hcli, ConfigDir.getConfigPathForName]
    rw [hload, read]
    split
    · next config hfile =>
      obtain ⟨c, hc, hpath⟩ := h _ _ hfile
      cases hc
      exact hpath
    · simp [ConfigDir.getConfigPathForName]

omit [DecidableEq π] in
theorem load_eq (h : Intact d files) : load d g files drawn = g.extract (read files (g.loadPath d) drawn) := by
  rw [load, read]
  cases hfile : files (g.loadPath d) with
  | none => rfl
  | some content =>
    obtain ⟨config, rfl, -⟩ := h _ _ hfile
    rfl

omit [DecidableEq π] in
theorem initialized_eq (h : Intact d files) : initialized d files config = some (restored d files config) := by
  rw [initialized, restored]
  cases hfile : files (d.pathOf config) with
  | none => rfl
  | some content =>
    obtain ⟨stored, rfl, -⟩ := h _ _ hfile
    rfl

/-- Where all files are intact, a daemon starts with what comes out of the layers
and what its store has. -/
theorem step_start (h : Intact d s.files) (hoff : s.process = none) (g : Given) (drawn : Uuid) :
    step d s (.start g drawn) = (g.extract (read s.files (g.loadPath d) drawn)).map fun loaded =>
      { s with process := some { config := restored d s.files loaded } } := by
  simp only [step, hoff, load_eq h, initialized_eq h]
  cases g.extract (read s.files (g.loadPath d) drawn) <;> rfl

/-- What a step does. -/
theorem of_step (hintact : Intact d s.files) {a : Action} (h : step d s a = some t) :
    (∃ g drawn loaded, a = .start g drawn ∧ g.extract (read s.files (g.loadPath d) drawn) = some loaded ∧
      t = { s with process := some { config := restored d s.files loaded } }) ∨
    (∃ c config, a = .change c ∧ s.process = some ⟨config, none⟩ ∧
      t = { s with process := some ⟨c.apply config, some .changed⟩ }) ∨
    (∃ config phase, a = .proceed ∧ s.process = some ⟨config, some phase⟩ ∧ t = s.save d config phase) ∨
    (∃ config phase, a = .fail ∧ s.process = some ⟨config, some phase⟩ ∧
      t = { s with process := some ⟨config, none⟩ }) ∨
    (a = .kill ∧ t = { s with process := none }) := by
  cases a with
  | start g drawn =>
    cases hoff : s.process with
    | some p => simp [step, hoff] at h
    | none =>
      rw [step_start hintact hoff, Option.map_eq_some_iff] at h
      obtain ⟨loaded, hloaded, rfl⟩ := h
      exact .inl ⟨g, drawn, loaded, rfl, hloaded, rfl⟩
  | change c =>
    simp only [step] at h
    split at h
    · next config hp =>
      cases h
      exact .inr (.inl ⟨c, config, rfl, hp, rfl⟩)
    · cases h
  | proceed =>
    simp only [step] at h
    split at h
    · next config phase hp =>
      cases h
      exact .inr (.inr (.inl ⟨config, phase, rfl, hp, rfl⟩))
    · cases h
  | fail =>
    simp only [step] at h
    split at h
    · next config phase hp =>
      split at h
      · cases h
      · cases h
        exact .inr (.inr (.inr (.inl ⟨config, phase, rfl, hp, rfl⟩)))
    · cases h
  | kill =>
    simp only [step] at h
    split at h
    · cases h
      exact .inr (.inr (.inr (.inr ⟨rfl, rfl⟩)))
    · cases h

/-! ## Saves -/

/-- What running daemons have done to their files. -/
structure Sound (d : ConfigDir π) (s : State π) : Prop where
  intact : Intact d s.files
  written : ∀ config, s.process = some ⟨config, some .written⟩ →
    s.temps (d.pathOf config) = some (.complete config)
  renamed : ∀ config, s.process = some ⟨config, some .renamed⟩ →
    s.files (d.pathOf config) = some (.complete config)

omit [DecidableEq π] in
theorem pathOf_apply (c : Change) : d.pathOf (c.apply config) = d.pathOf config := by cases c <;> rfl

omit [DecidableEq π] in
/-- While nothing is being saved, whatever runs is sound. -/
theorem Sound.of_idle (hintact : Intact d s.files)
    (hidle : ∀ p ∈ s.process, p.saving ≠ some .written ∧ p.saving ≠ some .renamed) : Sound d s where
  intact := hintact
  written _ h := absurd rfl (hidle _ h).1
  renamed _ h := absurd rfl (hidle _ h).2

omit [DecidableEq π] in
theorem Sound.off (hintact : Intact d s.files) (hoff : s.process = none) : Sound d s :=
  .of_idle hintact fun p hp => by simp [hoff] at hp

/-- The file changes where the configuration belongs, to the configuration. -/
theorem Sound.save (hs : Sound d s) {phase : Phase} (hp : s.process = some ⟨config, some phase⟩) :
    Sound d (s.save d config phase) := by
  cases phase with
  | changed => exact .of_idle hs.intact fun p hp => by cases hp; simp
  | opened =>
    refine ⟨hs.intact, fun config h => ?_, fun config h => (by cases h)⟩
    cases h
    exact Function.update_self ..
  | written =>
    have htemp := hs.written config hp
    refine ⟨fun path content h => ?_, fun config h => (by cases h), fun config h => ?_⟩
    · simp only [State.save, htemp] at h
      by_cases hp : path = d.pathOf config
      · rw [hp, Function.update_self] at h
        cases h
        exact ⟨config, rfl, hp.symm⟩
      · rw [Function.update_of_ne hp] at h
        exact hs.intact path content h
    · cases h
      simp only [State.save, htemp, Function.update_self]
  | renamed => exact .of_idle hs.intact fun p hp => by cases hp; simp

theorem Sound.step (hs : Sound d s) {a : Action} (h : step d s a = some t) : Sound d t := by
  obtain ⟨g, drawn, loaded, -, -, rfl⟩ | ⟨c, config, -, hp, rfl⟩ | ⟨config, phase, -, hp, rfl⟩ |
    ⟨config, phase, -, hp, rfl⟩ | ⟨-, rfl⟩ := of_step hs.intact h
  · exact .of_idle hs.intact fun p hp => by cases hp; simp
  · exact .of_idle hs.intact fun p hp => by cases hp; simp
  · exact hs.save hp
  · exact .of_idle hs.intact fun p hp => by cases hp; simp
  · exact .off hs.intact rfl

section Kept

variable {α : Type} {get : AppConfig → α} {v : α}

/-- The file has it, and every daemon that runs with its store there. -/
structure Saved (d : ConfigDir π) (path : π) (get : AppConfig → α) (v : α) (s : State π) : Prop where
  stored : ∃ config, s.files path = some (.complete config) ∧ get config = v
  running : ∀ p ∈ s.process, d.pathOf p.config = path → get p.config = v

/-- A start with the store there takes it from the store, if it loads what the store has. -/
def Restores (d : ConfigDir π) (path : π) (get : AppConfig → α) (v : α) (g : Given) : Prop :=
  g.storePath d = path → ∀ file loaded stored, get stored = v → (g.loadPath d = path → file = stored) →
    g.extract file = some loaded → get (loaded.restore stored) = v

/-- The action does not change it in a daemon with its store there, and restores it. -/
structure Leaves (d : ConfigDir π) (path : π) (get : AppConfig → α) (v : α) (s : State π) (a : Action) : Prop where
  change : ∀ c, a = .change c → (∃ p ∈ s.process, d.pathOf p.config = path) →
    ∀ config, get (c.apply config) = get config
  start : ∀ g drawn, a = .start g drawn → Restores d path get v g

theorem Saved.step (hs : Sound d s) (hsaved : Saved d path get v s) {a : Action} (hleaves : Leaves d path get v s a)
    (h : step d s a = some t) : Saved d path get v t := by
  obtain ⟨g, drawn, loaded, rfl, hloaded, rfl⟩ | ⟨c, config, rfl, hp, rfl⟩ | ⟨config, phase, -, hp, rfl⟩ |
    ⟨config, phase, -, hp, rfl⟩ | ⟨-, rfl⟩ := of_step hs.intact h
  · obtain ⟨stored, hfile, hv⟩ := hsaved.stored
    refine ⟨hsaved.stored, fun p hp hpath => ?_⟩
    cases hp
    rw [pathOf_restored] at hpath
    rw [restored_of_stored (hpath ▸ hfile)]
    have hstore : g.storePath d = path := (pathOf_extract hs.intact hloaded).symm.trans hpath
    refine hleaves.start g drawn rfl hstore _ loaded stored hv (fun hload => ?_) hloaded
    rw [hload, read, hfile]
  · refine ⟨hsaved.stored, fun p hp' hpath => ?_⟩
    cases hp'
    rw [pathOf_apply] at hpath
    rw [hleaves.change c rfl ⟨_, hp, hpath⟩ config]
    exact hsaved.running _ hp hpath
  · have hv := hsaved.running _ hp
    cases phase with
    | written =>
      refine ⟨?_, fun p hp => by cases hp; exact hv⟩
      by_cases hpath : d.pathOf config = path
      · have htemp := hs.written config hp
        rw [hpath] at htemp
        refine ⟨config, ?_, hv hpath⟩
        simp only [State.save, htemp, hpath, Function.update_self]
      · obtain ⟨stored, hfile, hstored⟩ := hsaved.stored
        exact ⟨stored, (Function.update_of_ne (Ne.symm hpath) ..).trans hfile, hstored⟩
    | changed => exact ⟨hsaved.stored, fun p hp => by cases hp; exact hv⟩
    | opened => exact ⟨hsaved.stored, fun p hp => by cases hp; exact hv⟩
    | renamed => exact ⟨hsaved.stored, fun p hp => by cases hp; exact hv⟩
  · have hv := hsaved.running _ hp
    exact ⟨hsaved.stored, fun p hp => by cases hp; exact hv⟩
  · exact ⟨hsaved.stored, fun p hp => by cases hp⟩

/-- What was saved stays in the file as long as it is left alone. -/
theorem saved_of_renamed {s₀ : State π} (hintact : Intact d s₀.files) (hoff : s₀.process = none) {as bs : List Action}
    (hrun : run (step d) s₀ as = some s) (h : s.process = some ⟨config, some .renamed⟩)
    (hbs : Along (step d) (Leaves d (d.pathOf config) get (get config)) s bs) :
    Visits (step d) (Saved d (d.pathOf config) get (get config)) s bs := by
  have hs : Sound d s := Transition.run_inv (I := Sound d) (fun _ _ _ hs h => hs.step h) (.off hintact hoff) hrun
  have hsaved : Saved d (d.pathOf config) get (get config) s := by
    refine ⟨⟨config, hs.renamed config h, rfl⟩, fun p hp _ => ?_⟩
    obtain rfl := Option.some.inj (h.symm.trans hp)
    rfl
  exact hbs.visits (I := fun s => Sound d s ∧ Saved d (d.pathOf config) get (get config) s)
    (fun _ _ _ hI hleaves hstep => ⟨hI.1.step hstep, hI.2.step hI.1 hleaves hstep⟩) (fun _ hI => hI.2) ⟨hs, hsaved⟩

/-- An id that was saved stays in its file, and in every daemon with its store there, until such a daemon sets another
one, whatever each of them is started with. -/
theorem id_kept {s₀ : State π} (hintact : Intact d s₀.files) (hoff : s₀.process = none) {as bs : List Action}
    (hrun : run (step d) s₀ as = some s) (h : s.process = some ⟨config, some .renamed⟩)
    (hbs : Along (step d) (fun s a => ∀ id, a = .change (.setId id) →
      ∀ p ∈ s.process, d.pathOf p.config ≠ d.pathOf config) s bs) :
    Visits (step d) (Saved d (d.pathOf config) AppConfig.id config.id) s bs := by
  refine saved_of_renamed hintact hoff hrun h (hbs.mono fun s a _ _ hset => ⟨fun c hc hp => ?_, fun g drawn _ => ?_⟩)
  · subst hc
    cases c with
    | setId id =>
      obtain ⟨p, hp, hpath⟩ := hp
      exact absurd hpath (hset id rfl p hp)
    | setApiKey | setUserId | setPort | setNetworkId | updateHeartbeat | setCapabilities => exact fun _ => rfl
  · exact fun _ _ _ _ hv _ _ => hv

/-- The environment and the command line do not say otherwise. -/
def Given.LeavesOut (g : Given) (get : AppConfig → α) : Prop :=
  ∀ file loaded, g.extract file = some loaded → get (loaded.restore file) = get file

/-- Where every start that has its store in a file loads that file, what was saved stays in it, and in the daemons with
their store there, until such a daemon changes it, if no environment and no command line says otherwise. -/
theorem kept_in_one_file {s₀ : State π} (hintact : Intact d s₀.files) (hoff : s₀.process = none) {as bs : List Action}
    (hrun : run (step d) s₀ as = some s) (h : s.process = some ⟨config, some .renamed⟩)
    (hbs : Along (step d) (fun s a =>
      (∀ g drawn, a = .start g drawn → g.storePath d = d.pathOf config →
        g.loadPath d = d.pathOf config ∧ g.LeavesOut get) ∧
      ∀ c, a = .change c → (∃ p ∈ s.process, d.pathOf p.config = d.pathOf config) →
        ∀ config, get (c.apply config) = get config) s bs) :
    Visits (step d) (Saved d (d.pathOf config) get (get config)) s bs := by
  refine saved_of_renamed hintact hoff hrun h (hbs.mono fun s a _ _ hleaves => ⟨hleaves.2, fun g drawn hg hstore => ?_⟩)
  obtain ⟨hload, hout⟩ := hleaves.1 g drawn hg hstore
  intro file loaded stored hv hfile hloaded
  rw [← hfile hload, hout file loaded hloaded, hfile hload, hv]

end Kept

/-! ## What is forgotten -/

/-- Saves leave all files alone but the one of the daemon. -/
theorem files_of_step (hs : Sound d s) (hrunning : ∀ p ∈ s.process, d.pathOf p.config ≠ path) {a : Action}
    (hstart : ∀ g drawn, a = .start g drawn → g.storePath d ≠ path) (h : step d s a = some t) :
    t.files path = s.files path ∧ ∀ p ∈ t.process, d.pathOf p.config ≠ path := by
  obtain ⟨g, drawn, loaded, rfl, hloaded, rfl⟩ | ⟨c, config, -, hp, rfl⟩ | ⟨config, phase, -, hp, rfl⟩ |
    ⟨config, phase, -, hp, rfl⟩ | ⟨-, rfl⟩ := of_step hs.intact h
  · refine ⟨rfl, fun p hp => ?_⟩
    cases hp
    rw [pathOf_restored, pathOf_extract hs.intact hloaded]
    exact hstart g drawn rfl
  · refine ⟨rfl, fun p hp' => ?_⟩
    cases hp'
    rw [pathOf_apply]
    exact hrunning _ hp
  · have hpath := hrunning _ hp
    cases phase with
    | written => exact ⟨Function.update_of_ne (Ne.symm hpath) .., fun p hp => by cases hp; exact hpath⟩
    | changed | opened | renamed => exact ⟨rfl, fun p hp => by cases hp; exact hpath⟩
  · have hpath := hrunning _ hp
    exact ⟨rfl, fun p hp => by cases hp; exact hpath⟩
  · exact ⟨rfl, fun p hp => by cases hp⟩

/-- Where no daemon has its store in the file that a start loads, it knows nothing of what was saved but the id and the
last heartbeat. -/
theorem forgotten {s₀ : State π} (hintact : Intact d s₀.files) (hoff : s₀.process = none) {as : List Action}
    (hstarts : Along (step d) (fun _ a => ∀ g drawn, a = .start g drawn → g.storePath d ≠ path) s₀ as)
    (hrun : run (step d) s₀ as = some s) (hload : g.loadPath d = path) (h : step d s (.start g drawn) = some t) :
    ∃ loaded id lastHeartbeat, g.extract (read s₀.files path drawn) = some loaded ∧
      t.process = some { config := { loaded with id, lastHeartbeat } } := by
  obtain ⟨hs, hfile, -⟩ := (hstarts.visits
    (I := fun s => Sound d s ∧ s.files path = s₀.files path ∧ ∀ p ∈ s.process, d.pathOf p.config ≠ path)
    (fun _ _ _ hI hstart hstep => by
      obtain ⟨hfile, hrunning⟩ := files_of_step hI.1 hI.2.2 hstart hstep
      exact ⟨hI.1.step hstep, hfile.trans hI.2.1, hrunning⟩)
    (fun _ hI => hI) ⟨.off hintact hoff, rfl, fun p hp => by simp [hoff] at hp⟩).last hrun
  obtain ⟨g', drawn', loaded, ha, hloaded, rfl⟩ | ⟨_, _, ha, -⟩ | ⟨_, _, ha, -⟩ | ⟨_, _, ha, -⟩ | ⟨ha, -⟩ :=
    of_step hs.intact h
  · cases ha
    rw [hload, read, hfile, ← read] at hloaded
    refine ⟨loaded, ?_⟩
    unfold restored
    split
    · exact ⟨_, _, hloaded, rfl⟩
    · exact ⟨_, _, hloaded, rfl⟩
  · cases ha
  · cases ha
  · cases ha
  · cases ha

section Office

/-- The legacy directory, and one for every name. -/
private def twoDirs : ConfigDir Bool := { legacy := false, named := fun _ => true }

/-- A name in the environment only. -/
private def office : Given := { environment := { name := .value "office" } }

private def unnamed : Given := {}

private def noFiles : State Bool := { files := fun _ => none, temps := fun _ => none }

private theorem intact_noFiles : Intact twoDirs noFiles.files := fun _ _ h => by cases h

private def met (config : AppConfig) (path : Bool) : State Bool where
  files := Function.update (fun _ => none) path (some (.complete config))
  temps := Function.update (Function.update (Function.update (fun _ => none) path (some .torn)) path
    (some (.complete config))) path none
  process := some { config, saving := some .renamed }

private def saving (g : Given) (c : Change) : List Action := [.start g 1, .change c, .proceed, .proceed, .proceed]

private theorem along_office {s : State Bool} : Along (step twoDirs)
    (fun _ a => ∀ g drawn, a = .start g drawn → g.storePath twoDirs ≠ false) s
    (saving office (.setApiKey "key") ++ [.proceed, .kill]) :=
  Transition.along_of_forall_mem fun a ha g drawn h => by
    subst h
    obtain ⟨rfl, -⟩ : g = office ∧ drawn = 1 := by simpa [saving] using ha
    decide

private theorem along_restart {ok : State Bool → Action → Prop} {s : State Bool} {g : Given}
    (hkill : ∀ s, ok s .kill) (hstart : ∀ s, ok s (.start g 2)) : Along (step twoDirs) ok s [.kill, .start g 2] :=
  Transition.every_cons.mpr fun _ _ => ⟨hkill _, Transition.every_cons.mpr fun _ _ => ⟨hstart _, trivial⟩⟩

private def restarted : State Bool :=
  { met { id := 1, name := "office", daemonApiKey := some "key" } true with
    process := some { config := { id := 1, name := "office" } } }

/-- After one under another name. -/
theorem id_kept_office :
    Visits (step twoDirs) (Saved twoDirs true AppConfig.id 5) (met { id := 5, name := "office" } true)
      [.kill, .start unnamed 2] :=
  id_kept intact_noFiles rfl (rfl : run (step twoDirs) noFiles (saving office (.setId 5)) = some _) rfl
    (along_restart (fun _ _ h => by cases h) fun _ _ h => by cases h)

theorem kept_in_one_file_unnamed :
    Visits (step twoDirs) (Saved twoDirs false AppConfig.daemonApiKey (some "key"))
      (met { id := 1, daemonApiKey := some "key" } false) [.kill, .start unnamed 2] :=
  kept_in_one_file intact_noFiles rfl
    (rfl : run (step twoDirs) noFiles (saving unnamed (.setApiKey "key")) = some _) rfl
    (along_restart (fun _ => ⟨fun _ _ h => (by cases h), fun _ h => (by cases h)⟩) fun _ =>
      ⟨fun _ _ h _ => (by cases h; exact ⟨rfl, fun _ _ h => by cases h; rfl⟩), fun _ h => (by cases h)⟩)

theorem forgotten_office :
    ∃ loaded id lastHeartbeat, office.extract (read noFiles.files false 2) = some loaded ∧
      restarted.process = some { config := { loaded with id, lastHeartbeat } } :=
  forgotten intact_noFiles rfl along_office
    (rfl : run (step twoDirs) noFiles (saving office (.setApiKey "key") ++ [.proceed, .kill]) = some _) rfl rfl

end Office

end Netvisor.ConfigStore
