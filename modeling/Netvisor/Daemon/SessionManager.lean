/-
The discovery manager of a daemon: the handle of the current task and the
cancellation token, each in a cell with a lock of its own, and the calls that
read and write them. A step is what a call does under one lock.

Nothing keeps two calls apart from the check on: a request passes it while
another has not stored its handle yet, and a cancellation made in between finds
no task although one is running.

`clear_completed_task` holds the cell of the handle while it waits for the one of
the token. A finished task stays finished, so that is one step here.
-/
import Netvisor.Daemon.Runners

namespace Netvisor.DaemonDiscoverySessionManager

/-- A spawned task. -/
inductive Task
  | discovering
  /-- `discover` has returned, with whatever result. -/
  | returned
  /-- The token was not cancelled, `clear_completed_task` is due. -/
  | clearing
  | leaving
  | finished
deriving DecidableEq, Repr

/-- How far `initiate_session` has come. -/
inductive Start
  | accepted
  /-- `start_new_session`: the token is replaced. -/
  | renewed
  /-- `start_new_session`: the handle is dropped. -/
  | cleared
  /-- `start_new_session` has returned. -/
  | ready
  | spawned
  /-- `set_current_task`. -/
  | stored
deriving DecidableEq, Repr

/-- A request that found no discovery running, and what became of it. -/
structure Session where
  request : DaemonDiscoveryRequest
  start : Start := .accepted
  /-- The token the task is given. -/
  token : Option Nat := none
  task : Option Task := none
deriving DecidableEq, Repr

/-- The task is spawned and not finished. -/
def Session.isRunning (x : Session) : Bool := x.task.any (· != .finished)

/-- Tokens are numbered as they are made, handles as their requests are accepted. -/
structure State where
  currentTask : Option Nat := none
  cancellationToken : Nat := 0
  /-- For each token, whether it is cancelled. -/
  tokens : List Bool := [false]
  sessions : List Session := []
  /-- The calls of `cancel_current_session` that are about to cancel, each with the task it found running. -/
  cancels : List Nat := []
deriving DecidableEq, Repr

inductive Action
  | tryInitiateSession (request : DaemonDiscoveryRequest)
  /-- The next section of `initiate_session`. -/
  | initiate (k : Nat)
  /-- The next section of a task. -/
  | run (k : Nat)
  | cancelCurrentSession
  /-- The section of `cancel_current_session` that cancels the token. -/
  | cancel (i : Nat)

namespace State

variable (s : State)

/-- `JoinHandle::is_finished`. -/
def isFinished (k : Nat) : Bool := s.sessions[k]?.any (·.task == some .finished)

def isDiscoveryRunning : Bool :=
  match s.currentTask with
  | some k => !s.isFinished k
  | none => false

def isCancelled (token : Option Nat) : Bool := token.any fun i => s.tokens[i]?.getD false

/-- `CancellationToken::new` in the place of the current token. -/
def renewToken : State := { s with cancellationToken := s.tokens.length, tokens := s.tokens ++ [false] }

def clearCompletedTask : State :=
  match s.currentTask with
  | some k => if s.isFinished k then { s.renewToken with currentTask := none } else s
  | none => s

def setSession (k : Nat) (x : Session) : State := { s with sessions := s.sessions.set k x }

/-- The next section of `initiate_session`. -/
def initiate (k : Nat) (x : Session) : Option State :=
  match x.start with
  | .accepted => some (s.renewToken.setSession k { x with start := .renewed })
  | .renewed => some ({ s with currentTask := none }.setSession k { x with start := .cleared })
  | .cleared => some (s.setSession k { x with start := .ready, token := some s.cancellationToken })
  | .ready => some (s.setSession k { x with start := .spawned, task := some .discovering })
  | .spawned => some ({ s with currentTask := some k }.setSession k { x with start := .stored })
  | .stored => none

/-- The next section of a task. -/
def runTask (k : Nat) (x : Session) : Option State :=
  match x.task with
  | some .discovering => some (s.setSession k { x with task := some .returned })
  | some .returned =>
    some (s.setSession k { x with task := some (if s.isCancelled x.token then .leaving else .clearing) })
  | some .clearing => some (s.clearCompletedTask.setSession k { x with task := some .leaving })
  | some .leaving => some (s.setSession k { x with task := some .finished })
  | some .finished | none => none

end State

def step (s : State) : Action → Option State
  | .tryInitiateSession request =>
    if s.isDiscoveryRunning then some s else some { s with sessions := s.sessions ++ [{ request }] }
  | .initiate k => s.sessions[k]?.bind (s.initiate k)
  | .run k => s.sessions[k]?.bind (s.runTask k)
  | .cancelCurrentSession =>
    match s.currentTask with
    | some k => if s.isFinished k then some s else some { s with cancels := s.cancels ++ [k] }
    | none => some s
  | .cancel i =>
    match s.cancels[i]? with
    | some _ => some { s with tokens := s.tokens.set s.cancellationToken true, cancels := s.cancels.eraseIdx i }
    | none => none

/-! ## What the manager is to guarantee -/

namespace State

variable (s : State)

/-- The task of the request runs. -/
def Running (k : Nat) : Prop := ∃ x ∈ s.sessions[k]?, x.isRunning = true

/-- The handle and the token in the cells are those of the request. -/
def Holds (k : Nat) : Prop := s.currentTask = some k ∧ ∃ x ∈ s.sessions[k]?, x.token = some s.cancellationToken

/-- One task runs at most; the cells are those of the latest accepted request
when none is starting, and those of a running task whenever its handle is stored. -/
structure Sound : Prop where
  single : ∀ j k, s.Running j → s.Running k → j = k
  latest : (∀ x ∈ s.sessions, x.start = .stored) → ∀ k, k + 1 = s.sessions.length → s.Holds k
  own : ∀ k, s.currentTask = some k → s.Running k → s.Holds k

end State

/-- A cancellation made while a task runs goes on, and the token it cancels is that task's. -/
def CancelReaches (s : State) (a : Action) (t : State) : Prop :=
  match a with
  | .cancelCurrentSession => ∀ k, s.Running k → t.cancels = s.cancels ++ [k]
  | .cancel i => ∀ k ∈ s.cancels[i]?, ∃ x ∈ s.sessions[k]?, ∃ token, x.token = some token ∧
      t.tokens = s.tokens.set token true
  | _ => True

/-- The calls keep apart: no request is accepted while another is starting, no
cancellation is made while the handle of a running task is not stored, and none
cancels after a later request has replaced the token. -/
def Apart (s : State) (a : Action) : Prop :=
  match a with
  | .tryInitiateSession _ => s.isDiscoveryRunning = false → ∀ x ∈ s.sessions, x.start = .stored
  | .cancelCurrentSession => ∀ x ∈ s.sessions, x.start = .spawned → x.isRunning = false
  | .cancel i => ∀ k ∈ s.cancels[i]?, ∀ x ∈ s.sessions.drop (k + 1), x.start = .accepted
  | _ => True

instance (s : State) (a : Action) : Decidable (Apart s a) := by
  unfold Apart
  cases a <;> infer_instance

/-! ## The invariant -/

/-- What the cells hold while the last request starts, and after. -/
def Phase (s : State) (k : Nat) (x : Session) : Prop :=
  match x.start with
  | .accepted => x.task = none ∧ (s.currentTask = none ∧ k = 0 ∨ ∃ j, j + 1 = k ∧ s.Holds j)
  | .renewed => x.task = none ∧ ∀ j ∈ s.currentTask, j < k
  | .cleared => x.task = none ∧ s.currentTask = none
  | .ready => x.task = none ∧ s.currentTask = none ∧ x.token = some s.cancellationToken
  | .spawned => x.task.isSome ∧ s.currentTask = none ∧ x.token = some s.cancellationToken
  | .stored => x.task.isSome ∧ s.currentTask = some k ∧ x.token = some s.cancellationToken

/-- Only the last request is starting or has a task that is not finished. -/
structure Serial (s : State) : Prop where
  earlier : ∀ k x, s.sessions[k]? = some x → k + 1 < s.sessions.length → x.start = .stored ∧ x.task = some .finished
  last : ∀ k x, s.sessions[k]? = some x → k + 1 = s.sessions.length → Phase s k x
  idle : s.sessions = [] → s.currentTask = none
  cancels : ∀ k ∈ s.cancels, ∃ x, s.sessions[k]? = some x ∧ x.start = .stored

theorem Serial.init : Serial {} := by
  refine ⟨?_, ?_, fun _ => rfl, ?_⟩ <;> simp

variable {s t : State} {a : Action} {k : Nat} {x y : Session}

theorem lt_or_last (hk : s.sessions[k]? = some x) : k + 1 < s.sessions.length ∨ k + 1 = s.sessions.length := by
  have hlt : k < s.sessions.length := (List.getElem?_eq_some_iff.mp hk).1
  omega

/-- What has not started or not finished is last. -/
theorem Serial.is_last (h : Serial s) (hk : s.sessions[k]? = some x)
    (hx : x.start ≠ .stored ∨ x.task ≠ some .finished) : k + 1 = s.sessions.length := by
  rcases lt_or_last hk with hlt | hlast
  · obtain ⟨hstart, htask⟩ := h.earlier k x hk hlt
    rcases hx with hne | hne
    · exact absurd hstart hne
    · exact absurd htask hne
  · exact hlast

theorem Session.task_of_isRunning (h : x.isRunning = true) : x.task.isSome ∧ x.task ≠ some .finished := by
  unfold Session.isRunning at h
  cases htask : x.task with
  | none =>
    rw [htask] at h
    cases h
  | some task =>
    rw [htask] at h
    refine ⟨rfl, fun hfinished => ?_⟩
    rw [hfinished] at h
    cases h

theorem isFinished_eq (hk : s.sessions[k]? = some x) : s.isFinished k = (x.task == some .finished) := by
  rw [State.isFinished, hk]
  rfl

/-- A stored handle is that of a request that has started. -/
theorem Serial.stored_of_current (h : Serial s) (hcurrent : s.currentTask = some k) :
    ∃ x, s.sessions[k]? = some x ∧ x.start = .stored := by
  cases hlen : s.sessions.length with
  | zero =>
    rw [h.idle (List.length_eq_zero_iff.mp hlen)] at hcurrent
    cases hcurrent
  | succ n =>
    have hearlier {j : Nat} (hj : j < n) : ∃ x, s.sessions[j]? = some x ∧ x.start = .stored := by
      have hlt : j < s.sessions.length := by omega
      refine ⟨s.sessions[j], List.getElem?_eq_getElem hlt, ?_⟩
      exact (h.earlier j _ (List.getElem?_eq_getElem hlt) (by omega)).1
    have hn : n < s.sessions.length := by omega
    have hlast := h.last n _ (List.getElem?_eq_getElem hn) hlen.symm
    unfold Phase at hlast
    split at hlast
    · obtain ⟨-, ⟨hnone, -⟩ | ⟨j, hj, hholds, -⟩⟩ := hlast
      · rw [hnone] at hcurrent
        cases hcurrent
      · rw [hholds, Option.some.injEq] at hcurrent
        exact hearlier (by omega)
    · exact hearlier (hlast.2 k hcurrent)
    · rw [hlast.2] at hcurrent
      cases hcurrent
    · rw [hlast.2.1] at hcurrent
      cases hcurrent
    · rw [hlast.2.1] at hcurrent
      cases hcurrent
    · next hstart =>
      rw [hlast.2.1, Option.some.injEq] at hcurrent
      subst hcurrent
      exact ⟨_, List.getElem?_eq_getElem hn, hstart⟩

/-- A running task is the last request's, and its start is nearly over. -/
theorem Serial.of_running (h : Serial s) (hk : s.sessions[k]? = some x) (hrunning : x.isRunning = true) :
    k + 1 = s.sessions.length ∧ x.token = some s.cancellationToken ∧
      (x.start = .spawned ∧ s.currentTask = none ∨ x.start = .stored ∧ s.currentTask = some k) := by
  obtain ⟨hsome, hne⟩ := Session.task_of_isRunning hrunning
  have hlast := h.is_last hk (.inr hne)
  refine ⟨hlast, ?_⟩
  have hphase := h.last k x hk hlast
  unfold Phase at hphase
  split at hphase
  iterate 4
    rw [hphase.1] at hsome
    cases hsome
  · next hstart => exact ⟨hphase.2.2, .inl ⟨hstart, hphase.2.1⟩⟩
  · next hstart => exact ⟨hphase.2.2, .inr ⟨hstart, hphase.2.1⟩⟩

theorem Serial.sound (h : Serial s) : s.Sound where
  single j k hj hk := by
    obtain ⟨x, hx, hxrunning⟩ := hj
    obtain ⟨y, hy, hyrunning⟩ := hk
    have hjlast := (h.of_running hx hxrunning).1
    have hklast := (h.of_running hy hyrunning).1
    omega
  latest hstored k hk := by
    have hlt : k < s.sessions.length := by omega
    have hphase := h.last k _ (List.getElem?_eq_getElem hlt) hk
    unfold Phase at hphase
    rw [hstored _ (List.getElem_mem hlt)] at hphase
    exact ⟨hphase.2.1, _, List.getElem?_eq_getElem hlt, hphase.2.2⟩
  own k hcurrent hrunning := by
    obtain ⟨x, hx, hxrunning⟩ := hrunning
    exact ⟨hcurrent, x, hx, (h.of_running hx hxrunning).2.1⟩

/-! ## The steps keep it -/

/-- A step that only moves the last request on. -/
theorem Serial.set_last (h : Serial s) (hk : s.sessions[k]? = some x) (hlast : k + 1 = s.sessions.length)
    (hsessions : t.sessions = s.sessions.set k y) (hcancels : t.cancels = s.cancels)
    (hstart : x.start = .stored → y.start = .stored) (hphase : Phase t k y) : Serial t where
  earlier j z hj hlt := by
    rw [hsessions, List.length_set] at hlt
    have hne : k ≠ j := by omega
    rw [hsessions, List.getElem?_set_ne hne] at hj
    exact h.earlier j z hj hlt
  last j z hj hjlast := by
    rw [hsessions, List.length_set] at hjlast
    obtain rfl : j = k := by omega
    have hlt : j < s.sessions.length := by omega
    rw [hsessions, List.getElem?_set_self hlt, Option.some.injEq] at hj
    subst hj
    exact hphase
  idle hnil := by
    rw [hsessions] at hnil
    have hzero : s.sessions.length = 0 := by
      rw [← List.length_set, hnil]
      rfl
    omega
  cancels j hj := by
    rw [hcancels] at hj
    obtain ⟨z, hz, hzstart⟩ := h.cancels j hj
    rw [hsessions]
    by_cases hne : k = j
    · subst hne
      rw [hk, Option.some.injEq] at hz
      subst hz
      have hlt : k < s.sessions.length := by omega
      exact ⟨y, List.getElem?_set_self hlt, hstart hzstart⟩
    · rw [List.getElem?_set_ne hne]
      exact ⟨z, hz, hzstart⟩

theorem Serial.initiate (h : Serial s) (hk : s.sessions[k]? = some x) (hs : s.initiate k x = some t) : Serial t := by
  have hne : x.start ≠ .stored := by
    intro hstored
    rw [State.initiate, hstored] at hs
    cases hs
  have hlast := h.is_last hk (.inl hne)
  have hphase := h.last k x hk hlast
  unfold State.initiate at hs
  unfold Phase at hphase
  split at hs
  · next hstart =>
    cases hs
    rw [hstart] at hphase
    obtain ⟨htask, hcells⟩ := hphase
    refine h.set_last hk hlast rfl rfl (fun hstored => absurd hstored hne) ⟨htask, fun j hj => ?_⟩
    rcases hcells with ⟨hnone, -⟩ | ⟨i, hi, hholds, -⟩
    · exact absurd (hnone.symm.trans hj) nofun
    · have hij : i = j := Option.some.inj (hholds.symm.trans hj)
      omega
  · next hstart =>
    cases hs
    rw [hstart] at hphase
    exact h.set_last hk hlast rfl rfl (fun hstored => absurd hstored hne) ⟨hphase.1, rfl⟩
  · next hstart =>
    cases hs
    rw [hstart] at hphase
    exact h.set_last hk hlast rfl rfl (fun hstored => absurd hstored hne) ⟨hphase.1, hphase.2, rfl⟩
  · next hstart =>
    cases hs
    rw [hstart] at hphase
    exact h.set_last hk hlast rfl rfl (fun hstored => absurd hstored hne) ⟨rfl, hphase.2⟩
  · next hstart =>
    cases hs
    rw [hstart] at hphase
    exact h.set_last hk hlast rfl rfl (fun hstored => absurd hstored hne) ⟨hphase.1, rfl, hphase.2.2⟩
  · cases hs

/-- A task that is not finished moves on, and the cells stay. -/
theorem Serial.set_task (h : Serial s) (hk : s.sessions[k]? = some x) (hrunning : x.isRunning = true) (task : Task) :
    Serial (s.setSession k { x with task := some task }) := by
  obtain ⟨hlast, htoken, hcells⟩ := h.of_running hk hrunning
  refine h.set_last hk hlast rfl rfl id ?_
  unfold Phase
  rcases hcells with ⟨hstart, hcurrent⟩ | ⟨hstart, hcurrent⟩
  · dsimp only
    rw [hstart]
    exact ⟨rfl, hcurrent, htoken⟩
  · dsimp only
    rw [hstart]
    exact ⟨rfl, hcurrent, htoken⟩

/-- The task that clears finds no finished one. -/
theorem Serial.clearCompletedTask_eq (h : Serial s) (hk : s.sessions[k]? = some x) (hrunning : x.isRunning = true) :
    s.clearCompletedTask = s := by
  obtain ⟨-, -, ⟨-, hcurrent⟩ | ⟨-, hcurrent⟩⟩ := h.of_running hk hrunning
  · rw [State.clearCompletedTask, hcurrent]
  · have hfinished : s.isFinished k = false := by
      rw [isFinished_eq hk]
      exact beq_false_of_ne (Session.task_of_isRunning hrunning).2
    rw [State.clearCompletedTask, hcurrent]
    dsimp only
    rw [hfinished]
    rfl

theorem Serial.runTask (h : Serial s) (hk : s.sessions[k]? = some x) (hs : s.runTask k x = some t) : Serial t := by
  have hrunning {task : Task} (htask : x.task = some task) (hne : task ≠ .finished) : x.isRunning = true := by
    rw [Session.isRunning, htask]
    exact bne_iff_ne.mpr hne
  unfold State.runTask at hs
  split at hs
  · next htask =>
    cases hs
    exact h.set_task hk (hrunning htask nofun) _
  · next htask =>
    cases hs
    exact h.set_task hk (hrunning htask nofun) _
  · next htask =>
    have hx := hrunning htask nofun
    rw [h.clearCompletedTask_eq hk hx] at hs
    cases hs
    exact h.set_task hk hx _
  · next htask =>
    cases hs
    exact h.set_task hk (hrunning htask nofun) _
  · cases hs
  · cases hs

/-- A request is accepted when all earlier ones have started and finished. -/
theorem Serial.accept (h : Serial s) (hstored : ∀ x ∈ s.sessions, x.start = .stored)
    (hidle : s.isDiscoveryRunning = false) (request : DaemonDiscoveryRequest) :
    Serial { s with sessions := s.sessions ++ [{ request }] } where
  earlier k x hk hlt := by
    simp only [List.length_append, List.length_singleton] at hlt
    have hlt : k < s.sessions.length := by omega
    rw [List.getElem?_append_left hlt] at hk
    refine ⟨hstored x (List.mem_of_getElem? hk), ?_⟩
    rcases lt_or_last hk with hlt | hlast
    · exact (h.earlier k x hk hlt).2
    · have hholds := h.sound.latest hstored k hlast
      rw [State.isDiscoveryRunning, hholds.1] at hidle
      simpa [isFinished_eq hk] using hidle
  last k x hk hlast := by
    simp only [List.length_append, List.length_singleton] at hlast
    obtain rfl : k = s.sessions.length := by omega
    rw [List.getElem?_concat_length, Option.some.injEq] at hk
    subst hk
    refine ⟨rfl, ?_⟩
    cases hlen : s.sessions.length with
    | zero => exact .inl ⟨h.idle (List.length_eq_zero_iff.mp hlen), rfl⟩
    | succ n =>
      obtain ⟨hcurrent, x, hx, htoken⟩ := h.sound.latest hstored n hlen.symm
      have hlt : n < s.sessions.length := by omega
      exact .inr ⟨n, rfl, hcurrent, x, (List.getElem?_append_left hlt).trans hx, htoken⟩
  idle hnil := by simp at hnil
  cancels k hk := by
    obtain ⟨x, hx, hstart⟩ := h.cancels k hk
    have hlt : k < s.sessions.length := (List.getElem?_eq_some_iff.mp hx).1
    exact ⟨x, (List.getElem?_append_left hlt).trans hx, hstart⟩

theorem Serial.step (h : Serial s) (hapart : Apart s a) (hs : step s a = some t) : Serial t := by
  cases a with
  | tryInitiateSession request =>
    simp only [DaemonDiscoverySessionManager.step] at hs
    split at hs
    · cases hs
      exact h
    · next hidle =>
      cases hs
      have hidle : s.isDiscoveryRunning = false := Bool.eq_false_iff.mpr hidle
      exact h.accept (hapart hidle) hidle request
  | initiate k =>
    obtain ⟨x, hk, hs⟩ := Option.bind_eq_some_iff.mp hs
    exact h.initiate hk hs
  | run k =>
    obtain ⟨x, hk, hs⟩ := Option.bind_eq_some_iff.mp hs
    exact h.runTask hk hs
  | cancelCurrentSession =>
    simp only [DaemonDiscoverySessionManager.step] at hs
    split at hs
    · next k hcurrent =>
      split at hs
      · cases hs
        exact h
      · cases hs
        refine ⟨h.earlier, h.last, h.idle, fun j hj => ?_⟩
        rcases List.mem_append.mp hj with hj | hj
        · exact h.cancels j hj
        · obtain rfl := List.mem_singleton.mp hj
          exact h.stored_of_current hcurrent
    · cases hs
      exact h
  | cancel i =>
    simp only [DaemonDiscoverySessionManager.step] at hs
    split at hs
    · cases hs
      exact ⟨h.earlier, h.last, h.idle, fun k hk => h.cancels k (List.mem_of_mem_eraseIdx hk)⟩
    · cases hs

/-! ## Cancellations -/

/-- A task that was found running has the current token until a later request replaces it. -/
theorem Serial.token_of_cancels (h : Serial s) (hk : k ∈ s.cancels)
    (hlater : ∀ x ∈ s.sessions.drop (k + 1), x.start = .accepted) :
    ∃ x ∈ s.sessions[k]?, x.token = some s.cancellationToken := by
  obtain ⟨x, hx, hstart⟩ := h.cancels k hk
  rcases lt_or_last hx with hlt | hlast
  · have hnext : s.sessions[k + 1]? = some s.sessions[k + 1] := List.getElem?_eq_getElem hlt
    have haccepted : s.sessions[k + 1].start = .accepted := by
      refine hlater _ (List.mem_of_getElem? (i := 0) ?_)
      rw [List.getElem?_drop]
      exact hnext
    have hlast : k + 1 + 1 = s.sessions.length :=
      h.is_last hnext (.inl (by rw [haccepted]; nofun))
    have hphase := h.last (k + 1) _ hnext hlast
    unfold Phase at hphase
    rw [haccepted] at hphase
    obtain ⟨-, ⟨-, hzero⟩ | ⟨j, hj, -, htoken⟩⟩ := hphase
    · exact absurd hzero (Nat.succ_ne_zero k)
    · obtain rfl : j = k := Nat.succ.inj hj
      exact htoken
  · have hphase := h.last k x hx hlast
    unfold Phase at hphase
    rw [hstart] at hphase
    exact ⟨x, hx, hphase.2.2⟩

theorem Serial.cancelReaches (h : Serial s) (hapart : Apart s a)
    (hs : DaemonDiscoverySessionManager.step s a = some t) :
    CancelReaches s a t := by
  cases a with
  | cancelCurrentSession =>
    rintro k ⟨x, hx, hrunning⟩
    obtain ⟨-, -, ⟨hstart, -⟩ | ⟨-, hcurrent⟩⟩ := h.of_running hx hrunning
    · have hstopped := hapart x (List.mem_of_getElem? hx) hstart
      rw [hrunning] at hstopped
      cases hstopped
    · have hfinished : s.isFinished k = false := by
        rw [isFinished_eq hx]
        exact beq_false_of_ne (Session.task_of_isRunning hrunning).2
      simp only [DaemonDiscoverySessionManager.step, hcurrent, hfinished, Bool.false_eq_true, if_false] at hs
      cases hs
      rfl
  | cancel i =>
    intro k hk
    simp only [DaemonDiscoverySessionManager.step, Option.mem_def.mp hk] at hs
    cases hs
    obtain ⟨x, hx, htoken⟩ := h.token_of_cancels (List.mem_of_getElem? hk) (hapart k hk)
    exact ⟨x, hx, s.cancellationToken, htoken, rfl⟩
  | _ => trivial

/-- **One discovery at a time.** In a run whose calls keep apart the manager is
sound after every step, and every cancellation reaches the task it is meant for. -/
theorem sound_of_apart {actions : List Action} (h : Transition.Along step Apart {} actions) :
    Transition.Every step (fun s a t => t.Sound ∧ CancelReaches s a t) {} actions :=
  h.every (I := Serial) (fun _ _ _ hI hapart ht => hI.step hapart ht)
    (fun _ _ _ hI hapart ht => ⟨(hI.step hapart ht).sound, hI.cancelReaches hapart ht⟩) .init

/-- Two discoveries one after the other, the second one cancelled. -/
theorem sound_of_apart_serial : Transition.Every step (fun s a t => t.Sound ∧ CancelReaches s a t) {}
    [.tryInitiateSession ⟨7, .selfReport 3⟩, .initiate 0, .initiate 0, .initiate 0, .initiate 0, .initiate 0,
      .tryInitiateSession ⟨8, .selfReport 3⟩, .run 0, .run 0, .run 0, .run 0,
      .tryInitiateSession ⟨8, .selfReport 3⟩, .initiate 1, .initiate 1, .initiate 1, .initiate 1, .run 1, .initiate 1,
      .cancelCurrentSession, .cancel 0, .run 1, .run 1] :=
  sound_of_apart (by decide +kernel)

/-- Two requests pass the check before either has stored its handle, and two tasks run.
A task is spawned and its handle not stored yet, and a cancellation has no effect. -/
theorem broken_while_starting :
    ¬ Transition.Every step (fun s a t => t.Sound ∧ CancelReaches s a t) {}
      [.tryInitiateSession ⟨7, .selfReport 3⟩, .tryInitiateSession ⟨8, .selfReport 3⟩,
        .initiate 0, .initiate 0, .initiate 0, .initiate 0, .initiate 1, .initiate 1, .initiate 1, .initiate 1] ∧
    ¬ Transition.Every step (fun s a t => t.Sound ∧ CancelReaches s a t) {}
      [.tryInitiateSession ⟨7, .selfReport 3⟩, .initiate 0, .initiate 0, .initiate 0, .initiate 0,
        .cancelCurrentSession] := by
  constructor
  · rintro ⟨-, -, -, -, -, -, -, -, -, ⟨hsound, -⟩, -⟩
    exact absurd (hsound.single 0 1 ⟨_, rfl, rfl⟩ ⟨_, rfl, rfl⟩) (by decide)
  · rintro ⟨-, -, -, -, -, ⟨-, hcancel⟩, -⟩
    exact absurd (hcancel 0 ⟨_, rfl, rfl⟩) (by decide)

end Netvisor.DaemonDiscoverySessionManager
