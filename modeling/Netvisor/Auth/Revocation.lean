/-
Disabling and rotating API keys while they are in use.

Every request that presents a key reads its row and leaves behind a detached
task that writes the whole row back; updates and rotations read a row and write
it back as well. The writes land in any order. `disables` and `rotations` count
the ones acknowledged so far, so that a task can tell whether there was one
since it read its row.
-/
import Netvisor.Auth.ApiKeys
import Netvisor.Lib.Transition

namespace Netvisor.ApiKeyService

open ApiKeyCommon
open Transition (Every Along)

inductive WriteKind
  /-- Left behind by a request that presented the key. -/
  | detached
  | update
  | rotate
deriving DecidableEq, Repr

/-- A row that was read, as it will be written back. -/
structure Task (K : Type) where
  row : K
  kind : WriteKind
  /-- The counts for the key when the row was read. -/
  disables : Nat
  rotations : Nat

structure State (K : Type) [ApiKeyCommon K] where
  keys : Table K keyId := {}
  tasks : List (Task K) := []
  disables : Uuid → Nat := fun _ => 0
  rotations : Uuid → Nat := fun _ => 0
  /-- The keys disabled by a request that was acknowledged, and not enabled by one since. -/
  disabled : Uuid → Bool := fun _ => false
  /-- The hash the last acknowledged rotation of a key replaced. -/
  retired : Uuid → Option String := fun _ => none

inductive Action (K : Type)
  | authenticate (request : KeyRequest)
  | update (keyId : Uuid) (request : K) (entity : AuthenticatedEntity)
  | rotate (keyId : Uuid) (hashed : String) (entity : AuthenticatedEntity)
  /-- A task writes its row, and the request it belongs to, if any, is answered. -/
  | land (i : Nat)

variable {K : Type} [ApiKeyCommon K]

/-- The counts of one key. -/
def bump (counts : Uuid → Nat) (i : Uuid) : Uuid → Nat := fun j => if j = i then counts j + 1 else counts j

namespace State

/-- Start a task that writes the row. -/
def spawn (s : State K) (row : K) (kind : WriteKind) : State K :=
  { s with
    tasks := s.tasks ++ [{ row, kind, disables := s.disables (keyId row), rotations := s.rotations (keyId row) }] }

/-- The row with the hash of the presented key. -/
def find (s : State K) (hash : String → String) (request : KeyRequest) : Option K :=
  s.keys.rows.find? fun k => key k == hash request.key

/-- The statement of a task, and what its acknowledgement says. -/
def write (s : State K) (task : Task K) (stored : K) : State K :=
  let i := keyId task.row
  let s := { s with keys := s.keys.update task.row }
  match task.kind with
  | .detached => s
  | .update =>
    if isEnabled task.row then { s with disabled := fun j => if j = i then false else s.disabled j }
    else { s with disabled := fun j => if j = i then true else s.disabled j, disables := bump s.disables i }
  | .rotate =>
    { s with retired := fun j => if j = i then some (key stored) else s.retired j, rotations := bump s.rotations i }

end State

/-- A key is answered if it has the prefix of its kind; a refused request changes nothing. -/
def step (hash : String → String) (s : State K) : Action K → Option (State K)
  | .authenticate request =>
    if ApiKeyType.fromKey request.key = keyType K then
      match (extractAuth request (s.find hash request)).2 with
      | some row => some (s.spawn row .detached)
      | none => some s
    else none
  | .update id request entity =>
    match s.keys.get id with
    | none => none
    | some existing =>
      if validateAccess existing entity && validateUpdate request entity then
        some (s.spawn (preserveImmutableFields existing request) .update)
      else none
  | .rotate id hashed entity =>
    match s.keys.get id with
    | none => none
    | some existing =>
      if validateAccess existing entity then some (s.spawn (setKey hashed existing) .rotate) else none
  | .land i =>
    match s.tasks[i]? with
    | none => none
    | some task =>
      let rest := { s with tasks := s.tasks.eraseIdx i }
      match s.keys.get (keyId task.row) with
      | none => some rest
      | some stored =>
        -- the hashes of keys are unique
        if s.keys.rows.any fun k => keyId k != keyId task.row && key k == key task.row then some rest
        else some (rest.write task stored)

/-- The server starts with its keys, and no request under way. -/
def start (keys : Table K keyId) : State K := { keys }

/-- No row is enabled that was disabled, or has the hash it was rotated away from. -/
structure Revoked (s : State K) : Prop where
  disabled : ∀ k ∈ s.keys.rows, s.disabled (keyId k) = true → isEnabled k = false
  retired : ∀ k ∈ s.keys.rows, s.retired (keyId k) ≠ some (key k)

/-- A request that is let in presents a key that is neither disabled nor rotated away. -/
def Admits (hash : String → String) (s : State K) (a : Action K) : Prop :=
  ∀ request k, a = .authenticate request → (extractAuth request (s.find hash request)).1 = .ok k →
    s.disabled (keyId k) = false ∧ s.retired (keyId k) ≠ some (hash request.key)

/-- A write lands on time: no disable was acknowledged since its row was read, unless it sets the
flag itself, and no rotation, unless it sets the hash itself, to another one than is stored. -/
def Timely (s : State K) : Action K → Prop
  | .land i => ∀ task ∈ s.tasks[i]?,
    (task.kind = .update ∨ task.disables = s.disables (keyId task.row)) ∧
    (task.kind = .rotate ∨ task.rotations = s.rotations (keyId task.row)) ∧
    (task.kind = .rotate → ∀ stored ∈ s.keys.get (keyId task.row), key task.row ≠ key stored)
  | _ => True

instance (s : State K) (a : Action K) : Decidable (Timely s a) := by
  unfold Timely
  cases a <;> infer_instance

/-! ## What the tasks under way may write -/

/-- A task whose row was read since the last disable (rotation) of its key writes nothing that the
disable (rotation) took away. -/
structure Inv (s : State K) : Prop extends Revoked s where
  counts : ∀ task ∈ s.tasks,
    task.disables ≤ s.disables (keyId task.row) ∧ task.rotations ≤ s.rotations (keyId task.row)
  enabled : ∀ task ∈ s.tasks, task.kind ≠ .update → task.disables = s.disables (keyId task.row) →
    s.disabled (keyId task.row) = true → isEnabled task.row = false
  hash : ∀ task ∈ s.tasks, task.kind ≠ .rotate → task.rotations = s.rotations (keyId task.row) →
    s.retired (keyId task.row) ≠ some (key task.row)

variable {s t : State K} {hash : String → String} {row stored : K} {kind : WriteKind} {task : Task K} {a : Action K}

theorem inv_start (keys : Table K keyId) : Inv (start keys) where
  disabled _ _ h := nomatch h
  retired _ _ := nofun
  counts _ h := nomatch h
  enabled _ h := nomatch h
  hash _ h := nomatch h

/-- A task may start with what is stored. -/
theorem Inv.spawn (hi : Inv s)
    (henabled : kind ≠ .update → s.disabled (keyId row) = true → isEnabled row = false)
    (hhash : kind ≠ .rotate → s.retired (keyId row) ≠ some (key row)) : Inv (s.spawn row kind) where
  disabled := hi.disabled
  retired := hi.retired
  counts task htask := by
    rcases List.mem_append.mp htask with htask | htask
    · exact hi.counts task htask
    · rw [List.mem_singleton.mp htask]
      exact ⟨le_rfl, le_rfl⟩
  enabled task htask := by
    rcases List.mem_append.mp htask with htask | htask
    · exact hi.enabled task htask
    · rw [List.mem_singleton.mp htask]
      exact fun hkind _ => henabled hkind
  hash task htask := by
    rcases List.mem_append.mp htask with htask | htask
    · exact hi.hash task htask
    · rw [List.mem_singleton.mp htask]
      exact fun hkind _ => hhash hkind

theorem Inv.eraseTask (hi : Inv s) (i : Nat) : Inv { s with tasks := s.tasks.eraseIdx i } where
  disabled := hi.disabled
  retired := hi.retired
  counts task htask := hi.counts task (List.mem_of_mem_eraseIdx htask)
  enabled task htask := hi.enabled task (List.mem_of_mem_eraseIdx htask)
  hash task htask := hi.hash task (List.mem_of_mem_eraseIdx htask)

/-- The rows after a task wrote its own. -/
theorem forall_update {P : K → Prop} (hrow : P row) (hrest : ∀ k ∈ s.keys.rows, keyId k ≠ keyId row → P k) :
    ∀ k ∈ (s.keys.update row).rows, P k := by
  intro k hk
  rcases Table.mem_update.mp hk with ⟨rfl, -⟩ | ⟨hk, hne⟩
  · exact hrow
  · exact hrest k hk hne

/-- A task may write what was not taken away; then what its acknowledgement takes away is gone. -/
theorem Inv.write (hi : Inv s)
    (henabled : task.kind ≠ .update → s.disabled (keyId task.row) = true → isEnabled task.row = false)
    (hhash : task.kind ≠ .rotate → s.retired (keyId task.row) ≠ some (key task.row))
    (hnew : task.kind = .rotate → key task.row ≠ key stored) : Inv (s.write task stored) := by
  unfold State.write
  split
  · next hkind =>
    rw [hkind] at henabled hhash
    exact
      { disabled := forall_update (henabled nofun) fun k hk _ => hi.disabled k hk
        retired := forall_update (hhash nofun) fun k hk _ => hi.retired k hk
        counts := hi.counts
        enabled := hi.enabled
        hash := hi.hash }
  · next hkind =>
    rw [hkind] at hhash
    have hretired : ∀ k ∈ (s.keys.update task.row).rows, s.retired (keyId k) ≠ some (key k) :=
      forall_update (hhash nofun) fun k hk _ => hi.retired k hk
    split
    · -- the key is enabled again
      refine ⟨⟨forall_update (fun h => ?_) fun k hk hne h => ?_, hretired⟩, hi.counts,
        fun x hx hxkind hcount h => ?_, hi.hash⟩
      · simp at h
      · dsimp only at h
        rw [if_neg hne] at h
        exact hi.disabled k hk h
      · dsimp only at h
        split at h
        · cases h
        · exact hi.enabled x hx hxkind hcount h
    · next hoff =>
      refine ⟨⟨forall_update (fun _ => by simpa using hoff) fun k hk hne h => ?_, hretired⟩, fun x hx => ?_,
        fun x hx hxkind hcount h => ?_, hi.hash⟩
      · dsimp only at h
        rw [if_neg hne] at h
        exact hi.disabled k hk h
      · have hle := hi.counts x hx
        dsimp only [bump]
        split <;> omega
      · have hle := hi.counts x hx
        dsimp only [bump] at hcount h
        split at hcount
        · omega
        · next hne =>
          rw [if_neg hne] at h
          exact hi.enabled x hx hxkind hcount h
  · next hkind =>
    rw [hkind] at henabled
    refine ⟨⟨forall_update (henabled nofun) fun k hk _ => hi.disabled k hk, forall_update ?_ fun k hk hne => ?_⟩,
      fun x hx => ?_, hi.enabled, fun x hx hxkind hcount => ?_⟩
    · simpa using Ne.symm (hnew hkind)
    · dsimp only
      rw [if_neg hne]
      exact hi.retired k hk
    · have hle := hi.counts x hx
      dsimp only [bump]
      split <;> omega
    · have hle := hi.counts x hx
      dsimp only [bump] at hcount ⊢
      split at hcount
      · omega
      · next hne =>
        rw [if_neg hne]
        exact hi.hash x hx hxkind hcount

/-! ## Steps and runs -/

/-- A timely step keeps what the tasks may write. -/
theorem inv_step (hi : Inv s) (hok : Timely s a) (h : step hash s a = some t) : Inv t := by
  cases a with
  | authenticate request =>
    simp only [step] at h
    split at h
    · split at h
      · next w hw =>
        cases h
        obtain ⟨k, hk, hid, hkey, henabled⟩ := written_of_extractAuth hw
        have hstored := List.mem_of_find?_eq_some hk
        refine hi.spawn (fun _ hdisabled => ?_) fun _ => ?_
        · rw [hid] at hdisabled
          have hoff := hi.disabled k hstored hdisabled
          by_contra hon
          rw [henabled (by simpa using hon)] at hoff
          cases hoff
        · rw [hid, hkey]
          exact hi.retired k hstored
      · cases h
        exact hi
    · cases h
  | update i request entity =>
    simp only [step] at h
    split at h
    · cases h
    · next existing hget =>
      obtain ⟨hstored, -⟩ := Table.get_eq_some.mp hget
      split at h
      · cases h
        refine hi.spawn (fun hkind => absurd rfl hkind) fun _ => ?_
        rw [keyId_preserve, key_preserve]
        exact hi.retired existing hstored
      · cases h
  | rotate i hashed entity =>
    simp only [step] at h
    split at h
    · cases h
    · next existing hget =>
      obtain ⟨hstored, -⟩ := Table.get_eq_some.mp hget
      split at h
      · cases h
        refine hi.spawn (fun _ hdisabled => ?_) fun hkind => absurd rfl hkind
        rw [keyId_setKey] at hdisabled
        rw [isEnabled_setKey]
        exact hi.disabled existing hstored hdisabled
      · cases h
  | land i =>
    simp only [step] at h
    split at h
    · cases h
    · next task htask =>
      obtain ⟨hdisables, hrotations, hnew⟩ := hok task htask
      have hmem := List.mem_of_getElem? htask
      split at h
      · cases h
        exact hi.eraseTask i
      · next stored hget =>
        split at h
        · cases h
          exact hi.eraseTask i
        · cases h
          refine (hi.eraseTask i).write (fun hkind => ?_) (fun hkind => ?_) fun hkind => hnew hkind stored hget
          · exact hi.enabled task hmem hkind (hdisables.resolve_left hkind)
          · exact hi.hash task hmem hkind (hrotations.resolve_left hkind)

/-- Whoever is let in presents a key that is stored as it was left by the last disable and rotation. -/
theorem Revoked.admits (hr : Revoked s) : Admits hash s a := by
  intro request k _ hok
  obtain ⟨hfound, henabled⟩ := enabled_of_extractAuth hok
  have hstored := List.mem_of_find?_eq_some hfound
  have hkey : key k = hash request.key := by
    have hfind := List.find?_some hfound
    exact eq_of_beq hfind
  refine ⟨?_, ?_⟩
  · by_contra hon
    rw [hr.disabled k hstored (by simpa using hon)] at henabled
    cases henabled
  · rw [← hkey]
    exact hr.retired k hstored

/-- **A revoked key stays revoked** in every run whose writes land on time. -/
theorem revoked_of_timely (hash : String → String) (keys : Table K keyId) (as : List (Action K))
    (h : Along (step hash) Timely (start keys) as) :
    Every (step hash) (fun s a t => Admits hash s a ∧ Revoked t) (start keys) as :=
  h.every (I := Inv) (fun _ _ _ hi hok hstep => inv_step hi hok hstep)
    (fun _ _ _ hi hok hstep => ⟨hi.toRevoked.admits, (inv_step hi hok hstep).toRevoked⟩) (inv_start keys)

section Runs

/-- A key of user 7, which presents itself by a text that hashes to itself. -/
def someKey : UserApiKey := { id := 1, base := { key := "scp_u_1", userId := 7, isEnabled := true } }

def owner : AuthenticatedEntity := .user 7 5 .owner [] true

/-- The key is used, disabled and rotated, each write landing before the next request. -/
theorem revoked_serial : Every (step id)
    (fun s a t => Admits id s a ∧ Revoked t) (start ⟨[someKey], by decide⟩)
    [.authenticate { key := "scp_u_1" }, .land 0, .update 1 { someKey with base.isEnabled := false } owner, .land 0,
      .rotate 1 "scp_u_2" owner, .land 0] :=
  revoked_of_timely id _ _ (by decide +kernel)

/-- A request presents the key just before it is disabled, and its task lands afterwards. -/
theorem enabled_again : ¬ Every (step id)
    (fun s a t => Admits id s a ∧ Revoked t) (start ⟨[someKey], by decide⟩)
    [.authenticate { key := "scp_u_1" }, .update 1 { someKey with base.isEnabled := false } owner, .land 1,
      .land 0] := by
  intro h
  have henabled := h.mono (S := fun _ _ t => ∀ k ∈ t.keys.rows, t.disabled k.id = true → k.base.isEnabled = false)
    fun _ _ _ _ hr => hr.2.disabled
  exact absurd henabled (by decide +kernel)

end Runs

end Netvisor.ApiKeyService
