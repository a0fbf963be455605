/-
The lockout after failed logins, with logins under way at the same time.

A login is checked against the counter of its address, looks its user up,
verifies the password, and only then is counted or clears the counter; in
between, others take their steps. The check sees what was counted, not what is
under way: logins that start together are all let through.
-/
import Netvisor.Auth.AccountsFacts
import Netvisor.Auth.Service
import Netvisor.Lib.Transition

namespace Netvisor

open Transition (Visits Along)

structure LoginRequest where
  email : EmailAddress
  password : String
deriving DecidableEq, Repr

def LoginRequest.isValid (request : LoginRequest) : Bool := 10 ≤ request.password.length

namespace LoginLockout

def maxLoginAttempts : Nat := 5

def lockoutDurationSecs : Int := 15 * 60

/-- In nanoseconds. -/
def lockoutDuration : Int := lockoutDurationSecs * 1000000000

/-- The failed attempts counted for an address, and when the last one was. -/
abbrev Entry := Nat × DateTime

def Entry.isRecent (entry : Entry) (now : DateTime) : Bool :=
  AuthService.elapsedSecs entry.2 now < lockoutDurationSecs

/-- What `check_login_lockout` refuses an attempt with. -/
def lockout (entry : Option Entry) (now : DateTime) : Option String :=
  match entry with
  | some entry =>
    if entry.1 ≥ maxLoginAttempts && entry.isRecent now then
      some ("Too many failed login attempts. Try again in " ++
        toString ((lockoutDurationSecs - AuthService.elapsedSecs entry.2 now) / 60 + 1) ++ " minutes.")
    else none
  | none => none

/-- How far a login is. -/
inductive Stage
  /-- It is not locked out. -/
  | checked
  /-- Its user was read. -/
  | found (user : User)
  | failed
  | succeeded (user : User)
deriving DecidableEq, Repr

def Stage.isPending : Stage → Bool
  | checked | found _ => true
  | failed | succeeded _ => false

structure Attempt where
  request : LoginRequest
  stage : Stage
deriving DecidableEq, Repr

/-- Something that happened to an account. -/
structure Occurrence where
  time : DateTime
  userId : Uuid
  email : EmailAddress
deriving DecidableEq, Repr

structure State where
  accounts : Accounts := {}
  now : DateTime := 0
  loginAttempts : Assoc EmailAddress Entry := ∅
  /-- The logins under way, in no order. -/
  attempts : List Attempt := []
  /-- When a password was verified against the hash of an account, newest first. -/
  verified : List Occurrence := []
  /-- When a login succeeded. -/
  logins : List Occurrence := []

inductive Action
  | tick (elapsed : Nat)
  | check (request : LoginRequest)
  | find (attempt : Attempt)
  | verify (attempt : Attempt)
  /-- Count the attempt, or clear the counter. -/
  | finish (attempt : Attempt)
  | cleanup

namespace State

/-- A login takes its next step. -/
def moves (s : State) (attempt : Attempt) (stage : Stage) : State :=
  { s with attempts := { attempt with stage } :: s.attempts.erase attempt }

def counter (s : State) (email : EmailAddress) : Nat := ((s.loginAttempts.lookup email).map (·.1)).getD 0

/-- One more, in 32 bits. -/
def increment (s : State) (email : EmailAddress) : State :=
  { s with loginAttempts := s.loginAttempts.insert email ((s.counter email + 1) % 2 ^ 32, s.now) }

end State

section Login

variable [EmailRules] [PasswordRules]

/-- Read the user with the address; without one that can be read the login fails. -/
def findUser (s : State) (email : EmailAddress) : Stage :=
  match (UserService.getOne fun u => u.base.email == email) s.accounts with
  | .ok (some user) _ => .found user
  | _ => .failed

/-- Verify the password of a user who has one. -/
def verifyUser (s : State) (attempt : Attempt) (user : User) : State :=
  match user.base.passwordHash with
  | none => s.moves attempt .failed
  | some passwordHash =>
    let s := { s with verified := { time := s.now, userId := user.id, email := attempt.request.email } :: s.verified }
    match PasswordRules.verifyPassword attempt.request.password passwordHash with
    | .error _ => s.moves attempt .failed
    | .ok () => s.moves attempt (if user.base.emailVerified then .succeeded user else .failed)

/-- The sections of `login` between two awaits, and `cleanup_old_login_attempts`. -/
def step (s : State) : Action → Option State
  | .tick elapsed => some { s with now := s.now + elapsed }
  | .check request =>
    if request.isValid && (lockout (s.loginAttempts.lookup request.email) s.now).isNone then
      some { s with attempts := { request, stage := .checked } :: s.attempts }
    else some s
  | .find attempt =>
    if attempt ∈ s.attempts then
      match attempt.stage with
      | .checked => some (s.moves attempt (findUser s attempt.request.email))
      | _ => none
    else none
  | .verify attempt =>
    if attempt ∈ s.attempts then
      match attempt.stage with
      | .found user => some (verifyUser s attempt user)
      | _ => none
    else none
  | .finish attempt =>
    if attempt ∈ s.attempts then
      let rest := { s with attempts := s.attempts.erase attempt }
      match attempt.stage with
      | .failed => some (rest.increment attempt.request.email)
      | .succeeded user =>
        some
          { rest with
            loginAttempts := rest.loginAttempts.erase attempt.request.email
            logins := { time := s.now, userId := user.id, email := attempt.request.email } :: s.logins }
      | _ => none
    else none
  | .cleanup => some { s with loginAttempts := s.loginAttempts.filter fun _ entry => entry.isRecent s.now }

end Login

/-- The server starts with its accounts, and no login under way. -/
def start (accounts : Accounts) (now : DateTime) : State := { accounts, now }

/-! ## The bound -/

/-- The period of the lockout that begins at `since`. -/
def Within (since time : DateTime) : Prop := since ≤ time ∧ time < since + lockoutDuration

instance (since time : DateTime) : Decidable (Within since time) := inferInstanceAs (Decidable (_ ∧ _))

/-- In every period without a successful login, the passwords verified against an account are bounded. -/
def Bounded (s : State) : Prop :=
  ∀ userId since, (∀ l ∈ s.logins, l.userId = userId → ¬ Within since l.time) →
    s.verified.countP (fun v => v.userId == userId && decide (Within since v.time)) ≤ maxLoginAttempts

/-- The entry of an address, had the logins under way been counted already. -/
def State.countedEntry (s : State) (email : EmailAddress) : Option Entry :=
  let underWay := s.attempts.countP fun a => a.request.email == email
  if underWay = 0 then s.loginAttempts.lookup email else some (s.counter email + underWay, s.now)

/-- A login that is let through would also be if those under way had been
counted, and no counter runs over. -/
def CountsUnderWay (s : State) : Action → Prop
  | .check request => request.isValid = true → lockout (s.loginAttempts.lookup request.email) s.now = none →
      lockout (s.countedEntry request.email) s.now = none
  | .finish attempt => attempt.stage = .failed → s.counter attempt.request.email + 1 < 2 ^ 32
  | _ => True

instance (s : State) (a : Action) : Decidable (CountsUnderWay s a) := by
  unfold CountsUnderWay
  cases a <;> infer_instance

/-! ## Counting -/

namespace State

/-- The logins for an address that have yet to verify a password. -/
def pending (s : State) (email : EmailAddress) : Nat :=
  s.attempts.countP fun a => a.request.email == email && a.stage.isPending

/-- Those that have yet to be counted. -/
def uncounted (s : State) (email : EmailAddress) : Nat :=
  s.attempts.countP fun a => a.request.email == email && !a.stage.isPending

/-- The passwords verified for an address since then. -/
def verifiedSince (s : State) (email : EmailAddress) (since : DateTime) : Nat :=
  s.verified.countP fun v => v.email == email && decide (since ≤ v.time)

/-- Those verified in the period. -/
def verifiedWithin (s : State) (email : EmailAddress) (since : DateTime) : Nat :=
  s.verified.countP fun v => v.email == email && decide (Within since v.time)

end State

variable {s t : State} {email : EmailAddress} {since : DateTime} {attempt : Attempt}

theorem countP_cons_erase {p : Attempt → Bool} {l : List Attempt} {a b : Attempt} (h : a ∈ l) :
    (b :: l.erase a).countP p + (if p a then 1 else 0) = l.countP p + if p b then 1 else 0 := by
  rw [(List.perm_cons_erase h).countP_eq p, List.countP_cons, List.countP_cons]
  omega

theorem countP_erase_add {p : Attempt → Bool} {l : List Attempt} {a : Attempt} (h : a ∈ l) :
    (l.erase a).countP p + (if p a then 1 else 0) = l.countP p := by
  rw [(List.perm_cons_erase h).countP_eq p, List.countP_cons]

theorem pending_add_uncounted :
    s.pending email + s.uncounted email = s.attempts.countP fun a => a.request.email == email := by
  simp only [State.pending, State.uncounted]
  induction s.attempts with
  | nil => rfl
  | cons a as ih =>
    simp only [List.countP_cons]
    cases a.request.email == email <;> cases a.stage.isPending <;> simp <;> omega

theorem verifiedWithin_le : s.verifiedWithin email since ≤ s.verifiedSince email since := by
  refine List.countP_mono_left fun v _ h => ?_
  simp only [Bool.and_eq_true, decide_eq_true_eq] at h ⊢
  exact ⟨h.1, h.2.1⟩

theorem lt_add_lockoutDuration (now : Int) : now < now + lockoutDuration := by
  unfold lockoutDuration lockoutDurationSecs
  omega

/-- What began later passes later. -/
theorem lt_of_since_le {since last now : Int} (hlast : since ≤ last) (hnow : now < since + lockoutDuration) :
    now < last + lockoutDuration := by
  omega

theorem isRecent_iff {entry : Entry} {now : DateTime} : entry.isRecent now = true ↔
    now < entry.2 + lockoutDuration := by
  have hseconds (last now : Int) : (now - last) / 1000000000 < 15 * 60 ↔ now < last + 15 * 60 * 1000000000 := by omega
  rw [Entry.isRecent, decide_eq_true_iff]
  exact hseconds entry.2 now

/-- An account is not locked out: too few attempts were counted, or the last one was long ago. -/
theorem lockout_some_eq_none {entry : Entry} {now : DateTime} :
    lockout (some entry) now = none ↔ entry.1 < maxLoginAttempts ∨ entry.2 + lockoutDuration ≤ now := by
  simp only [lockout, ite_eq_right_iff, reduceCtorEq, imp_false, Bool.and_eq_true, isRecent_iff, decide_eq_true_iff,
    not_and_or, ge_iff_le, not_le, not_lt]

/-! ## The invariant -/

/-- The user that is found with the address. -/
def Finds (s : State) (email : EmailAddress) (userId : Uuid) : Prop :=
  ∃ row, s.accounts.users.rows.find? (fun u => u.base.email == email) = some row ∧ row.id = userId

/-- Of a period that has not passed, and had no successful login: what was
verified in it is counted or waits for it, and with what is under way comes to
no more than the bound. -/
structure Open (s : State) (email : EmailAddress) (since : DateTime) : Prop where
  counted : s.verifiedSince email since ≤ s.counter email + s.uncounted email
  recent : s.uncounted email < s.verifiedSince email since →
    ∃ entry, s.loginAttempts.lookup email = some entry ∧ since ≤ entry.2
  bound : s.verifiedSince email since + s.pending email ≤ maxLoginAttempts

structure Inv (s : State) : Prop where
  past : ∀ v ∈ s.verified, v.time ≤ s.now
  pastLogins : ∀ l ∈ s.logins, l.time ≤ s.now
  users : ∀ v ∈ s.verified, Finds s v.email v.userId
  loginUsers : ∀ l ∈ s.logins, Finds s l.email l.userId
  stages : ∀ a ∈ s.attempts, ∀ user, a.stage = .found user ∨ a.stage = .succeeded user →
    Finds s a.request.email user.id
  current : ∀ email since, s.now < since + lockoutDuration →
    (∀ l ∈ s.logins, l.email = email → l.time < since) → Open s email since
  bounded : ∀ email since, (∀ l ∈ s.logins, l.email = email → ¬ Within since l.time) →
    s.verifiedWithin email since ≤ maxLoginAttempts

/-- A login that is let through leaves room for one more. -/
theorem Open.room (h : Open s email since) (hnow : s.now < since + lockoutDuration)
    (hlet : lockout (s.countedEntry email) s.now = none) :
    s.verifiedSince email since + (s.pending email + 1) ≤ maxLoginAttempts := by
  have hunderWay := @pending_add_uncounted s email
  have hcounted := h.counted
  unfold State.countedEntry at hlet
  dsimp only at hlet
  rw [← hunderWay] at hlet
  split at hlet
  · next hnone =>
    have hpending : s.pending email = 0 := by omega
    have huncounted : s.uncounted email = 0 := by omega
    cases hentry : s.loginAttempts.lookup email with
    | none =>
      have hcounter : s.counter email = 0 := by simp [State.counter, hentry]
      have hbound : 1 ≤ maxLoginAttempts := by decide
      omega
    | some entry =>
      have hcounter : s.counter email = entry.1 := by simp [State.counter, hentry]
      rw [hentry, lockout_some_eq_none] at hlet
      rcases hlet with hfew | hold
      · omega
      · -- nothing verified in the period was counted that long ago
        have hzero : ¬ 0 < s.verifiedSince email since := by
          intro hpos
          obtain ⟨entry', hentry', hsince⟩ := h.recent (by omega)
          rw [hentry] at hentry'
          cases hentry'
          exact absurd (lt_of_since_le hsince hnow) (not_lt.mpr hold)
        have hbound : 1 ≤ maxLoginAttempts := by decide
        omega
  · rw [lockout_some_eq_none] at hlet
    rcases hlet with hfew | hold
    · dsimp only at hfew
      omega
    · exact absurd (lt_add_lockoutDuration s.now) (not_lt.mpr hold)

/-- A login that verifies no password takes its next step. -/
theorem Open.moves (h : Open s email since) (hmem : attempt ∈ s.attempts) (hpending : attempt.stage.isPending = true)
    (stage : Stage) : Open (s.moves attempt stage) email since := by
  have hp := @countP_cons_erase (fun a =>
    a.request.email == email && a.stage.isPending) _ _ { attempt with stage } hmem
  have hu := @countP_cons_erase (fun a =>
    a.request.email == email && !a.stage.isPending) _ _ { attempt with stage } hmem
  dsimp only at hp hu
  rw [hpending] at hp hu
  have hsum : (s.moves attempt stage).pending email ≤ s.pending email ∧
      s.uncounted email ≤ (s.moves attempt stage).uncounted email := by
    simp only [State.pending, State.uncounted, State.moves]
    cases hemail : attempt.request.email == email <;> cases hstage : stage.isPending <;>
      simp only [hemail, hstage, Bool.not_true, Bool.not_false, if_true, if_false, Bool.false_eq_true, Bool.and_true,
        Bool.and_false] at hp hu <;> omega
  obtain ⟨hpend, hunc⟩ := hsum
  have hcounted := h.counted
  have hbound := h.bound
  refine ⟨?_, fun hlt => h.recent (lt_of_le_of_lt hunc hlt), ?_⟩
  · exact le_trans hcounted (Nat.add_le_add_left hunc _)
  · exact le_trans (Nat.add_le_add_left hpend _) hbound

/-- A password is verified. -/
theorem Open.verified (h : Open s email since) (hmem : attempt ∈ s.attempts)
    (hpending : attempt.stage.isPending = true)
    {stage : Stage} (hstage : stage.isPending = false) (userId : Uuid) :
    Open (State.moves { s with verified :=
      { time := s.now, userId, email := attempt.request.email } :: s.verified } attempt
      stage) email since := by
  have hp := @countP_cons_erase (fun a =>
    a.request.email == email && a.stage.isPending) _ _ { attempt with stage } hmem
  have hu := @countP_cons_erase (fun a =>
    a.request.email == email && !a.stage.isPending) _ _ { attempt with stage } hmem
  rw [hpending, hstage] at hp hu
  have hcounted := h.counted
  have hbound := h.bound
  refine ⟨?_, fun hlt => h.recent ?_, ?_⟩
  all_goals
    simp only [State.pending, State.uncounted, State.verifiedSince, State.moves, State.counter, List.countP_cons] at *
    cases hemail : attempt.request.email == email <;> cases hsince : decide (since ≤ s.now) <;>
      simp only [hemail, hsince, Bool.not_true, Bool.not_false, if_true, if_false, Bool.false_eq_true, Bool.and_true,
        Bool.and_false] at * <;> omega

/-- Verified since then, so then is not to come. -/
theorem since_le_now (hpast : ∀ v ∈ s.verified, v.time ≤ s.now) (h : 0 < s.verifiedSince email since) :
    since ≤ s.now := by
  obtain ⟨v, hv, hmatch⟩ := List.countP_pos_iff.mp h
  simp only [Bool.and_eq_true, decide_eq_true_eq] at hmatch
  exact le_trans hmatch.2 (hpast v hv)

/-- A failed login is counted. -/
theorem Open.increment (h : Open s email since) (hpast : ∀ v ∈ s.verified, v.time ≤ s.now)
    (hmem : attempt ∈ s.attempts)
    (hfailed : attempt.stage = .failed) (hroom : s.counter attempt.request.email + 1 < 2 ^ 32) :
    Open (State.increment { s with attempts := s.attempts.erase attempt } attempt.request.email) email since := by
  have hp := @countP_erase_add (fun a => a.request.email == email && a.stage.isPending) _ _ hmem
  have hu := @countP_erase_add (fun a => a.request.email == email && !a.stage.isPending) _ _ hmem
  rw [hfailed] at hp hu
  simp only [show Stage.failed.isPending = false from rfl, Bool.and_false, Bool.false_eq_true, if_false,
    Bool.not_false, Bool.and_true] at hp hu
  have hcounted := h.counted
  have hbound : s.verifiedSince email since + (State.increment { s with attempts := s.attempts.erase attempt }
      attempt.request.email).pending email ≤ maxLoginAttempts := le_of_eq_of_le (congrArg _ hp) h.bound
  by_cases hemail : email = attempt.request.email
  · subst hemail
    simp only [beq_self_eq_true, if_true] at hu
    have hentry : (State.increment { s with attempts := s.attempts.erase attempt }
        attempt.request.email).loginAttempts.lookup attempt.request.email = some (s.counter attempt.request.email + 1, s.now) := by
      simp only [State.increment, AList.lookup_insert]
      rw [show State.counter { s with attempts := s.attempts.erase attempt } attempt.request.email =
        s.counter attempt.request.email from rfl, Nat.mod_eq_of_lt hroom]
    refine ⟨?_, fun hlt => ⟨_, hentry, since_le_now hpast (Nat.zero_lt_of_lt hlt)⟩, hbound⟩
    rw [State.counter, hentry]
    simp only [Option.map_some, Option.getD_some]
    change s.verifiedSince _ since ≤ _ + List.countP _ (s.attempts.erase attempt)
    simp only [State.uncounted] at hcounted
    omega
  · have hother : (attempt.request.email == email) = false := beq_eq_false_iff_ne.mpr fun heq => hemail heq.symm
    simp only [hother, Bool.false_eq_true, if_false, Nat.add_zero] at hu
    have hentry : (State.increment { s with attempts := s.attempts.erase attempt }
        attempt.request.email).loginAttempts.lookup email = s.loginAttempts.lookup email := AList.lookup_insert_ne hemail
    refine ⟨?_, fun hlt => ?_, hbound⟩
    · rw [State.counter, hentry]
      exact le_of_le_of_eq hcounted (congrArg _ hu.symm)
    · rw [hentry]
      exact h.recent (lt_of_eq_of_lt hu.symm hlt)

/-- A successful login clears its counter; what is under way stays. -/
theorem Open.clear {user : User} (h : Open s email since) (hpast : ∀ v ∈ s.verified, v.time ≤ s.now)
    (hmem : attempt ∈ s.attempts) (hsucceeded : attempt.stage = .succeeded user)
    (hlogin : email = attempt.request.email → s.now < since) (logins : List Occurrence) :
    Open { s with attempts := s.attempts.erase attempt, loginAttempts :=
      s.loginAttempts.erase attempt.request.email, logins }
      email since := by
  have hp := @countP_erase_add (fun a => a.request.email == email && a.stage.isPending) _ _ hmem
  have hu := @countP_erase_add (fun a => a.request.email == email && !a.stage.isPending) _ _ hmem
  rw [hsucceeded] at hp hu
  simp only [show (Stage.succeeded user).isPending = false from rfl, Bool.and_false, Bool.false_eq_true, if_false,
    Bool.not_false, Bool.and_true] at hp hu
  have hcounted := h.counted
  have hbound : s.verifiedSince email since + (s.attempts.erase attempt).countP
      (fun a => a.request.email == email && a.stage.isPending) ≤ maxLoginAttempts :=
      le_of_eq_of_le (congrArg _ hp) h.bound
  by_cases hemail : email = attempt.request.email
  · have hzero : ¬ 0 < s.verifiedSince email since := fun hpos =>
      absurd (since_le_now hpast hpos) (not_le.mpr (hlogin hemail))
    refine ⟨?_, fun hlt => absurd (Nat.zero_lt_of_lt hlt) hzero, hbound⟩
    exact le_trans (Nat.le_of_not_lt hzero) (Nat.zero_le _)
  · have hother : (attempt.request.email == email) = false := beq_eq_false_iff_ne.mpr fun heq => hemail heq.symm
    simp only [hother, Bool.false_eq_true, if_false, Nat.add_zero] at hu
    have hentry : (AList.erase attempt.request.email s.loginAttempts).lookup email = s.loginAttempts.lookup email :=
      AList.lookup_erase_ne hemail
    refine ⟨?_, fun hlt => ?_, hbound⟩
    · rw [State.counter]
      dsimp only
      rw [hentry]
      exact le_of_le_of_eq hcounted (congrArg _ hu.symm)
    · dsimp only
      rw [hentry]
      exact h.recent (lt_of_eq_of_lt hu.symm hlt)

/-- What is cleaned up is too old to count. -/
theorem Open.cleanup (h : Open s email since) (hnow : s.now < since + lockoutDuration) :
    Open { s with loginAttempts := s.loginAttempts.filter fun _ entry => entry.isRecent s.now } email since := by
  have hkept (entry : Entry) (hentry : s.loginAttempts.lookup email = some entry) (hsince : since ≤ entry.2) :
      (s.loginAttempts.filter fun _ entry => entry.isRecent s.now).lookup email = some entry := by
    rw [Assoc.lookup_filter, hentry, Option.filter_some, if_pos (isRecent_iff.mpr (lt_of_since_le hsince hnow))]
  have hcounted := h.counted
  refine ⟨?_, fun hlt => ?_, h.bound⟩
  · by_cases hlt : s.uncounted email < s.verifiedSince email since
    · obtain ⟨entry, hentry, hsince⟩ := h.recent hlt
      rw [State.counter]
      dsimp only
      rw [hkept entry hentry hsince, ← hentry]
      exact hcounted
    · exact le_trans (Nat.le_of_not_lt hlt) (Nat.le_add_left _ _)
  · obtain ⟨entry, hentry, hsince⟩ := h.recent hlt
    exact ⟨entry, hkept entry hentry hsince, hsince⟩

/-! ## Steps -/

/-- Periods that have passed are bounded as before, the others by what is counted and under way. -/
theorem bounded_of_current (hpast : ∀ l ∈ t.logins, l.time ≤ t.now)
    (hcurrent : ∀ email since, t.now < since + lockoutDuration → (∀ l ∈ t.logins, l.email = email → l.time < since) →
      Open t email since)
    (hclosed : ∀ email since, since + lockoutDuration ≤ t.now →
      (∀ l ∈ t.logins, l.email = email → ¬ Within since l.time) →
      t.verifiedWithin email since ≤ maxLoginAttempts) :
    ∀ email since, (∀ l ∈ t.logins, l.email = email → ¬ Within since l.time) →
      t.verifiedWithin email since ≤ maxLoginAttempts := by
  intro email since hlogins
  by_cases hnow : t.now < since + lockoutDuration
  · have hopen := hcurrent email since hnow fun l hl hemail => by
      by_contra hlate
      exact hlogins l hl hemail ⟨not_lt.mp hlate, lt_of_le_of_lt (hpast l hl) hnow⟩
    exact le_trans verifiedWithin_le (le_trans (Nat.le_add_right _ _) hopen.bound)
  · exact hclosed email since (not_lt.mp hnow) hlogins

/-- The counters change, and the logins under way, and each period that has not passed stays as it should be. -/
theorem Inv.of_open (h : Inv s) (haccounts : t.accounts = s.accounts) (hnow : t.now = s.now)
    (hverified : t.verified = s.verified) (hlogins : t.logins = s.logins)
    (hstages : ∀ a ∈ t.attempts, ∀ user, a.stage = .found user ∨ a.stage = .succeeded user →
      Finds s a.request.email user.id)
    (hopen : ∀ email since, s.now < since + lockoutDuration → Open s email since → Open t email since) : Inv t := by
  obtain ⟨accounts, now, loginAttempts, attempts, verified, logins⟩ := t
  subst haccounts hnow hverified hlogins
  exact {
    past := h.past
    pastLogins := h.pastLogins
    users := h.users
    loginUsers := h.loginUsers
    stages := hstages
    current := fun email since hnow hl => hopen email since hnow (h.current email since hnow hl)
    bounded := h.bounded }

theorem Inv.tick (h : Inv s) (elapsed : Nat) : Inv { s with now := s.now + elapsed } where
  past v hv := le_trans (h.past v hv) (Int.le_add_of_nonneg_right (Int.natCast_nonneg elapsed))
  pastLogins l hl := le_trans (h.pastLogins l hl) (Int.le_add_of_nonneg_right (Int.natCast_nonneg elapsed))
  users := h.users
  loginUsers := h.loginUsers
  stages := h.stages
  current email since hnow hl := by
    have hopen := h.current email since
      (lt_of_le_of_lt (Int.le_add_of_nonneg_right (Int.natCast_nonneg elapsed)) hnow) hl
    exact ⟨hopen.counted, hopen.recent, hopen.bound⟩
  bounded := h.bounded

theorem Inv.check (h : Inv s) {request : LoginRequest}
    (hlet : lockout (s.countedEntry request.email) s.now = none) :
    Inv { s with attempts := { request, stage := .checked } :: s.attempts } := by
  refine h.of_open rfl rfl rfl rfl (fun a ha user hstage => ?_) fun email since hnow hopen => ?_
  · rcases List.mem_cons.mp ha with rfl | ha
    · rcases hstage with hstage | hstage <;> cases hstage
    · exact h.stages a ha user hstage
  · refine ⟨?_, fun hlt => hopen.recent ?_, ?_⟩
    · simpa [State.uncounted, State.verifiedSince, State.counter, Stage.isPending] using hopen.counted
    · simpa [State.uncounted, State.verifiedSince, Stage.isPending] using hlt
    · by_cases hemail : request.email = email
      · subst hemail
        have hroom := hopen.room hnow hlet
        simpa [State.pending, State.verifiedSince, Stage.isPending] using hroom
      · have hbound := hopen.bound
        simpa [State.pending, State.verifiedSince, Stage.isPending, hemail] using hbound

/-- Every login under way but one is as it was. -/
theorem stages_moves (h : Inv s) {stage : Stage}
    (hstage : ∀ user, stage = .found user ∨ stage = .succeeded user → Finds s attempt.request.email user.id) :
    ∀ a ∈ (s.moves attempt stage).attempts, ∀ user, a.stage = .found user ∨ a.stage = .succeeded user →
      Finds s a.request.email user.id := by
  intro a ha user hfound
  rcases List.mem_cons.mp ha with rfl | ha
  · exact hstage user hfound
  · exact h.stages a (List.mem_of_mem_erase ha) user hfound

theorem Inv.moves (h : Inv s) (hmem : attempt ∈ s.attempts) (hpending : attempt.stage.isPending = true)
    {stage : Stage}
    (hstage : ∀ user, stage = .found user ∨ stage = .succeeded user → Finds s attempt.request.email user.id) :
    Inv (s.moves attempt stage) :=
  h.of_open rfl rfl rfl rfl (stages_moves h hstage) fun _ _ _ hopen => hopen.moves hmem hpending stage

theorem Inv.verified (h : Inv s) (hmem : attempt ∈ s.attempts) {user : User} (hfound : attempt.stage = .found user)
    {stage : Stage} (hdone : stage = .failed ∨ stage = .succeeded user) :
    Inv (State.moves { s with verified :=
      { time := s.now, userId := user.id, email := attempt.request.email } :: s.verified }
      attempt stage) := by
  have hpending : attempt.stage.isPending = true := by rw [hfound]; rfl
  have hnotPending : stage.isPending = false := by rcases hdone with rfl | rfl <;> rfl
  have huser := h.stages attempt hmem user (.inl hfound)
  have hcurrent (email : EmailAddress) (since : DateTime) (hnow : s.now < since + lockoutDuration)
      (hl : ∀ l ∈ s.logins, l.email = email → l.time < since) :=
    (h.current email since hnow hl).verified hmem hpending hnotPending user.id
  refine {
    past := List.forall_mem_cons.mpr ⟨le_refl s.now, h.past⟩
    pastLogins := h.pastLogins
    users := List.forall_mem_cons.mpr ⟨huser, h.users⟩
    loginUsers := h.loginUsers
    stages := stages_moves h fun user' hstage => ?_
    current := hcurrent
    bounded := bounded_of_current h.pastLogins hcurrent fun email since hpassed hl => ?_ }
  · rcases hdone with rfl | rfl
    · rcases hstage with hstage | hstage <;> cases hstage
    · rcases hstage with hstage | hstage
      · cases hstage
      · cases hstage
        exact huser
  · have houtside : ¬ Within since s.now := fun hwithin => absurd hwithin.2 (not_lt.mpr hpassed)
    have hbefore := h.bounded email since hl
    simpa [State.verifiedWithin, State.moves, List.countP_cons, houtside] using hbefore

theorem Inv.increment (h : Inv s) (hmem : attempt ∈ s.attempts) (hfailed : attempt.stage = .failed)
    (hroom : s.counter attempt.request.email + 1 < 2 ^ 32) :
    Inv (State.increment { s with attempts := s.attempts.erase attempt } attempt.request.email) :=
  h.of_open rfl rfl rfl rfl (fun a ha => h.stages a (List.mem_of_mem_erase ha)) fun _ _ _ hopen =>
    hopen.increment h.past hmem hfailed hroom

theorem Inv.clear (h : Inv s) (hmem : attempt ∈ s.attempts) {user : User}
    (hsucceeded : attempt.stage = .succeeded user) :
    Inv { s with
      attempts := s.attempts.erase attempt
      loginAttempts := s.loginAttempts.erase attempt.request.email
      logins := { time := s.now, userId := user.id, email := attempt.request.email } :: s.logins } := by
  have huser := h.stages attempt hmem user (.inr hsucceeded)
  have hpastLogins : ∀ l ∈ Occurrence.mk s.now user.id attempt.request.email :: s.logins, l.time ≤ s.now :=
    List.forall_mem_cons.mpr ⟨le_refl s.now, h.pastLogins⟩
  have hcurrent (email : EmailAddress) (since : DateTime) (hnow : s.now < since + lockoutDuration)
      (hl : ∀ l ∈ Occurrence.mk s.now user.id attempt.request.email :: s.logins, l.email = email →
        l.time < since) := by
    rw [List.forall_mem_cons] at hl
    exact (h.current email since hnow hl.2).clear h.past hmem hsucceeded (fun hemail => hl.1 hemail.symm)
      (Occurrence.mk s.now user.id attempt.request.email :: s.logins)
  refine {
    past := h.past
    pastLogins := hpastLogins
    users := h.users
    loginUsers := List.forall_mem_cons.mpr ⟨huser, h.loginUsers⟩
    stages := fun a ha => h.stages a (List.mem_of_mem_erase ha)
    current := hcurrent
    bounded := bounded_of_current hpastLogins hcurrent fun email since _ hl => ?_ }
  exact h.bounded email since (List.forall_mem_cons.mp hl).2

theorem Inv.cleanup (h : Inv s) :
    Inv { s with loginAttempts := s.loginAttempts.filter fun _ entry => entry.isRecent s.now } :=
  h.of_open rfl rfl rfl rfl h.stages fun _ _ hnow hopen => hopen.cleanup hnow

/-- The bound for addresses is one for accounts: only its own address finds an account. -/
theorem Inv.bounded_users (h : Inv s) : Bounded s := by
  intro userId since hlogins
  by_cases hany : ∃ v ∈ s.verified, v.userId = userId
  · obtain ⟨v, hv, rfl⟩ := hany
    obtain ⟨row, hrow, hid⟩ := h.users v hv
    have hemail (w : Occurrence) (hw : Finds s w.email w.userId) (huser : w.userId = v.userId) : w.email =
        v.email := by
      obtain ⟨row', hrow', hid'⟩ := hw
      have hsame : row' = row := s.accounts.users.eq_of_key (List.mem_of_find?_eq_some hrow')
        (List.mem_of_find?_eq_some hrow) (hid'.trans (huser.trans hid.symm))
      have h1 : row'.base.email = w.email := by simpa using List.find?_some hrow'
      have h2 : row.base.email = v.email := by simpa using List.find?_some hrow
      rw [← h1, ← h2, hsame]
    have hbound := h.bounded v.email since fun l hl hle => hlogins l hl ?_
    · refine le_trans (List.countP_mono_left fun w hw hmatch => ?_) hbound
      simp only [Bool.and_eq_true, beq_iff_eq, decide_eq_true_eq] at hmatch ⊢
      exact ⟨hemail w (h.users w hw) hmatch.1, hmatch.2⟩
    · obtain ⟨row', hrow', hid'⟩ := h.loginUsers l hl
      rw [hle, hrow] at hrow'
      cases hrow'
      exact hid'.symm.trans hid
  · refine le_trans (le_of_eq (List.countP_eq_zero.mpr fun w hw hmatch => hany ⟨w, hw, ?_⟩)) (Nat.zero_le _)
    simp only [Bool.and_eq_true, beq_iff_eq] at hmatch
    exact hmatch.1

section Runs

variable [EmailRules] [PasswordRules]

omit [PasswordRules] in
/-- Who is found has the address. -/
theorem finds_of_findUser {user : User} (h : findUser s email = .found user ∨ findUser s email = .succeeded user) :
    Finds s email user.id := by
  have hwp : Program.wp (UserService.getOne fun u => u.base.email == email)
      (fun found _ => ∀ user, found = some user → Finds s email user.id) (fun _ _ => True) s.accounts := by
    rw [UserService.wp_getOne]
    refine ⟨fun _ user hnone => (by cases hnone), fun row hrow => ⟨fun _ user huser => ?_, fun _ _ => trivial⟩⟩
    cases huser
    exact ⟨row, hrow, rfl⟩
  unfold findUser at h
  unfold Program.wp at hwp
  split at h
  · next found accounts hfound =>
    rw [hfound] at hwp
    rcases h with h | h
    · cases h
      exact hwp user rfl
    · cases h
  · rcases h with h | h <;> cases h

/-- A login that looks at what is under way keeps the invariant. -/
theorem Inv.step {a : Action} (h : Inv s) (hcounts : CountsUnderWay s a) (hstep : step s a = some t) : Inv t := by
  cases a with
  | tick elapsed =>
    cases hstep
    exact h.tick elapsed
  | check request =>
    simp only [LoginLockout.step, Bool.and_eq_true, Option.isNone_iff_eq_none] at hstep
    split at hstep
    · next hlet =>
      cases hstep
      exact h.check (hcounts hlet.1 hlet.2)
    · cases hstep
      exact h
  | find attempt =>
    simp only [LoginLockout.step] at hstep
    split at hstep
    · next hmem =>
      split at hstep
      · next hchecked =>
        cases hstep
        exact h.moves hmem (by rw [hchecked]; rfl) fun user hfound => finds_of_findUser hfound
      · cases hstep
    · cases hstep
  | verify attempt =>
    simp only [LoginLockout.step] at hstep
    split at hstep
    · next hmem =>
      split at hstep
      · next user hfound =>
        cases hstep
        unfold verifyUser
        split
        · refine h.moves hmem (by rw [hfound]; rfl) fun user' hstage => ?_
          rcases hstage with hstage | hstage <;> cases hstage
        · split
          · exact h.verified hmem hfound (.inl rfl)
          · refine h.verified hmem hfound ?_
            split
            · exact .inr rfl
            · exact .inl rfl
      · cases hstep
    · cases hstep
  | finish attempt =>
    simp only [LoginLockout.step] at hstep
    split at hstep
    · next hmem =>
      split at hstep
      · next hfailed =>
        cases hstep
        exact h.increment hmem hfailed (hcounts hfailed)
      · next user hsucceeded =>
        cases hstep
        exact h.clear hmem hsucceeded
      · cases hstep
    · cases hstep
  | cleanup =>
    cases hstep
    exact h.cleanup

omit [EmailRules] [PasswordRules] in
theorem inv_start (accounts : Accounts) (now : DateTime) : Inv (start accounts now) where
  past := List.forall_mem_nil _
  pastLogins := List.forall_mem_nil _
  users := List.forall_mem_nil _
  loginUsers := List.forall_mem_nil _
  stages := List.forall_mem_nil _
  current _ _ _ _ := ⟨Nat.zero_le _, fun h => absurd h (Nat.not_lt_zero _), Nat.zero_le _⟩
  bounded _ _ _ := Nat.zero_le _

/-- **With the logins under way taken into account, at most five passwords are
verified against an account in any period of the lockout without a successful
login, whatever logins are made and however their steps are interleaved.** -/
theorem bounded_of_countsUnderWay (accounts : Accounts) (now : DateTime) (as : List Action)
    (h : Along step CountsUnderWay (start accounts now) as) : Visits step Bounded (start accounts now) as :=
  h.visits (fun _ _ _ hI hok hstep => hI.step hok hstep) (fun _ hI => hI.bounded_users) (inv_start accounts now)

end Runs

/-- A user with a password, and a guess at it. -/
def guessed : User :=
  { id := 1, createdAt := 0, updatedAt := 0
    base := { email := "owner@example.com", organizationId := 2, passwordHash := some "hash", hasPassword := true } }

def guess : LoginRequest := { email := "owner@example.com", password := "0123456789" }

/-- Wrong passwords are refused. -/
abbrev guessing : PasswordRules := ⟨fun _ password => .ok password, fun _ _ => .error "Invalid", fun _ => none⟩

/-- Two guesses, one after the other. -/
def guessesInTurn : List Action :=
  [.check guess, .find { request := guess, stage := .checked }, .verify { request := guess, stage := .found guessed },
    .finish { request := guess, stage := .failed }, .check guess, .find { request := guess, stage := .checked }]

theorem guesses_in_turn :
    @Visits _ _ (@step ⟨fun _ => none, id⟩ guessing) Bounded
        (start { users := { rows := [guessed] } } 0) guessesInTurn :=
  @bounded_of_countsUnderWay ⟨fun _ => none, id⟩ guessing { users := { rows := [guessed] } } 0 guessesInTurn
    (by decide +kernel)

/-- Six guesses at once. -/
def guessesAtOnce : List Action :=
  List.replicate 6 (.check guess) ++ List.replicate 6 (.find { request := guess, stage := .checked }) ++
    List.replicate 6 (.verify { request := guess, stage := .found guessed })

theorem six_guesses_verified :
    ¬ @Visits _ _ (@step ⟨fun _ => none, id⟩ guessing) Bounded (start { users := { rows := [guessed] } } 0)
      guessesAtOnce := by
  intro h
  have hfew := h.2.mono (S := fun _ _ t => (∀ l ∈ t.logins, l.userId = 1 → ¬ Within 0 l.time) →
    t.verified.countP (fun v => v.userId == 1 && decide (Within 0 v.time)) ≤ maxLoginAttempts) fun _ _ _ _ ht =>
      ht 1 0
  exact absurd hfew (by decide +kernel)

end LoginLockout

end Netvisor
