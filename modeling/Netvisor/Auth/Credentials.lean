/-
Changes of passwords and addresses that come between one another.

Every operation on a user reads the row, works out a new one, looks whether the
user is still there and writes the row back whole, so that any of the others
may come between these. The changes acknowledged so far are kept, newest first,
so that an operation can tell which there were since it read its row.
-/
import Netvisor.Auth.Verification

namespace Netvisor

open Program (wp after)
open Transition (Visits Along)

namespace UserHandlers

variable [EmailRules]

/-- What `update_user` writes. -/
def updateUserRow (entity : AuthenticatedEntity) (id : Uuid) (body : User) : AccountStore User := do
  authorize .isUser entity
  if entity.userId != some id then throw (.unauthorized "You can only update your own user record")
  else
    let request := body.deserialize
    match ← internally (UserService.getById id) with
    | none => throw (.entityNotFound "User" id)
    | some existing =>
      if request.base.organizationId != existing.base.organizationId then throw .permissionDenied
      else if request.base.permissions != existing.base.permissions then throw .permissionDenied
      else return preserve existing request

/-- What `admin_update_user` writes. -/
def adminUpdateUserRow (entity : AuthenticatedEntity) (id : Uuid) (body : User) : AccountStore User := do
  authorize .admin entity
  match entity.userId, entity.permissions with
  | some adminUserId, some adminPermissions =>
    let request := body.deserialize
    match ← internally (UserService.getById id) with
    | none => throw (.entityNotFound "User" id)
    | some existing =>
      if adminUpdateDenied adminUserId adminPermissions id existing request then throw .permissionDenied
      else return preserve existing request
  | _, _ => throw .userRequired

theorem updateUser_eq {entity : AuthenticatedEntity} {id : Uuid} {body : User} :
    updateUser entity id body = (do
      let row ← updateUserRow entity id body
      internally (UserService.update row)) := by
  unfold updateUser updateUserRow
  rw [bind_assoc]
  congr 1
  funext _
  split
  · rfl
  rw [bind_assoc]
  dsimp only
  refine congrArg _ (funext fun existing => ?_)
  cases existing with
  | none => rfl
  | some existing =>
    dsimp only
    split
    · rfl
    split
    · rfl
    · rw [pure_bind]

theorem adminUpdateUser_eq {entity : AuthenticatedEntity} {id : Uuid} {body : User} :
    adminUpdateUser entity id body = do
      let row ← adminUpdateUserRow entity id body
      let updated ← internally (UserService.update row)
      internally (UserService.setNetworkIds id body.deserialize.base.networkIds)
      return updated := by
  unfold adminUpdateUser adminUpdateUserRow
  rw [bind_assoc]
  congr 1
  funext _
  cases entity.userId with
  | none => rfl
  | some adminUserId =>
    cases entity.permissions with
    | none => rfl
    | some adminPermissions =>
      dsimp only
      rw [bind_assoc]
      congr 1
      funext existing
      cases existing with
      | none => rfl
      | some existing =>
        dsimp only
        split
        · rfl
        · rw [pure_bind]

end UserHandlers

namespace Credentials

/-- What an operation says it did, once it is acknowledged. -/
structure Change where
  userId : Uuid
  /-- The hash of the password that was set. -/
  password : Option String := none
  /-- The address that was changed to. -/
  email : Option EmailAddress := none
  /-- The reset token that was accepted. -/
  resetToken : Option String := none
deriving DecidableEq, Repr

/-- What is left to do once the row is written. -/
inductive Rest
  | done
  | fail (message : String)
  | send (mail : Mail)
  | setNetworkIds (networkIds : List Uuid)
deriving DecidableEq, Repr

/-- An operation that has read the row of a user. -/
structure Write where
  userId : Uuid
  /-- The row as it will be written. -/
  row : User
  change : Change := { userId }
  rest : Rest := .done
deriving DecidableEq, Repr

inductive Operation
  | updatePassword (userId : Uuid) (currentPassword : Option String) (newPassword salt : String)
  | initiatePasswordReset (email : EmailAddress)
  | completePasswordReset (token newPassword salt : String)
  | requestEmailChange (userId : Uuid) (currentPassword : Option String) (newEmail : EmailAddress)
  | verifyEmail (token : String)
  | updateUser (entity : AuthenticatedEntity) (id : Uuid) (body : User)
  | adminUpdateUser (entity : AuthenticatedEntity) (id : Uuid) (body : User)

/-- The address the user with the verification token changes to. -/
def pendingEmail [EmailRules] (accounts : Accounts) (token : String) : Option EmailAddress :=
  (accounts.users.rows.find? fun u => u.base.emailVerificationToken == some token).bind (·.read.base.pendingEmail)

variable [EmailRules] [PasswordRules]

open AuthStore AuthService in
/-- What an operation reads and checks before it writes; it is over if there is nothing to write. -/
def Operation.read : Operation → AuthStore (Option Write)
  | .updatePassword userId currentPassword newPassword salt => do
    let row ← updatePasswordRow userId currentPassword newPassword salt
    return some { userId := row.id, row, change := { userId := row.id, password := row.base.passwordHash } }
  | .initiatePasswordReset email => do
    match ← initiateResetRow email with
    | none => return none
    | some (row, token) =>
      return some { userId := row.id, row, rest := .send { userId := row.id, address := row.base.email, token } }
  | .completePasswordReset token newPassword salt => do
    let (row, accepted) ← completeResetRow token newPassword salt
    let change : Change :=
      if accepted then { userId := row.id, password := row.base.passwordHash, resetToken := some token }
      else { userId := row.id }
    return some { userId := row.id, row, change, rest :=
      if accepted then .done else .fail "Password reset token has expired" }
  | .requestEmailChange userId currentPassword newEmail => do
    let (row, token) ← emailChangeRow userId currentPassword newEmail
    return some { userId := row.id, row, rest := .send { userId := row.id, address := newEmail, token } }
  | .verifyEmail token => do
    let email := pendingEmail (← get).accounts token
    let row ← verifyEmailRow token
    return some { userId := row.id, row, change := { userId := row.id, email } }
  | .updateUser entity id body => do
    let row ← inAccounts (UserHandlers.updateUserRow entity id body)
    return some { userId := id, row }
  | .adminUpdateUser entity id body => do
    let row ← inAccounts (UserHandlers.adminUpdateUserRow entity id body)
    return some { userId := id, row, rest := .setNetworkIds body.deserialize.base.networkIds }

open AuthStore in
/-- What an operation does after its row is written. -/
def Write.finish (w : Write) : AuthStore Unit :=
  match w.rest with
  | .done => return ()
  | .fail message => fail message
  | .send mail => send mail
  | .setNetworkIds networkIds => inAccounts (internally (UserService.setNetworkIds w.userId networkIds))

open AuthStore in
/-- The operation as the service runs it. -/
def Operation.request : Operation → AuthStore Unit
  | .updatePassword userId currentPassword newPassword salt => do
    let _ ← AuthService.updatePassword userId currentPassword newPassword salt
  | .initiatePasswordReset email => AuthService.initiatePasswordReset email
  | .completePasswordReset token newPassword salt => do
    let _ ← AuthService.completePasswordReset token newPassword salt
  | .requestEmailChange userId currentPassword newEmail =>
    AuthService.requestEmailChange userId currentPassword newEmail
  | .verifyEmail token => do let _ ← AuthService.verifyEmail token
  | .updateUser entity id body => do let _ ← inAccounts (UserHandlers.updateUser entity id body)
  | .adminUpdateUser entity id body => do let _ ← inAccounts (UserHandlers.adminUpdateUser entity id body)

/-- The operation with nothing coming between. -/
def Operation.perform (operation : Operation) : AuthStore Unit := do
  match ← operation.read with
  | none => return ()
  | some w =>
    let _ ← AuthService.write w.row
    w.finish

/-- An operation under way. -/
structure Task extends Write where
  /-- How many changes were acknowledged when the row was read. -/
  seen : Nat
  /-- Whether the user was found again. -/
  found : Bool := false
deriving DecidableEq, Repr

structure State where
  auth : AuthState
  tasks : List Task := []
  /-- The changes acknowledged so far, newest first. -/
  acknowledged : List Change := []

inductive Action
  | tick (elapsed : Nat)
  | read (operation : Operation)
  /-- The first half of `CrudService::update`. -/
  | find (i : Nat)
  /-- The second half, and what is left of the operation. -/
  | write (i : Nat)

namespace State

def users (s : State) : List User := s.auth.accounts.users.rows

/-- What the program returns is under way. -/
def spawn (s : State) : Option Write → State
  | none => s
  | some w => { s with tasks := s.tasks ++ [{ toWrite := w, seen := s.acknowledged.length }] }

end State

def step (s : State) : Action → Option State
  | .tick elapsed => some { s with auth.accounts.now := s.auth.accounts.now + elapsed }
  | .read operation =>
    match operation.read s.auth with
    | .ok w auth => some (State.spawn { s with auth } w)
    | .error _ auth => some { s with auth }
  | .find i =>
    match s.tasks[i]? with
    | none => none
    | some task =>
      match UserService.getById task.row.id s.auth.accounts with
      | .ok (some _) _ => some { s with tasks := s.tasks.set i { task with found := true } }
      | _ => some { s with tasks := s.tasks.eraseIdx i }
  | .write i =>
    match s.tasks[i]? with
    | none => none
    | some task =>
      if !task.found then none
      else
        let rest := { s with tasks := s.tasks.eraseIdx i }
        match AuthStore.inAccounts (UserService.store task.row) s.auth with
        | .ok _ auth =>
          some { rest with auth := Program.after task.finish auth, acknowledged := task.change :: s.acknowledged }
        | .error _ auth => some { rest with auth }

/-- Nothing is under way. -/
def start (auth : AuthState) : State := { auth }

/-! ## One operation after the other -/

omit [EmailRules] [PasswordRules] in
theorem inAccounts_ignored {α : Type} {p : AccountStore α} :
    (AuthStore.inAccounts p >>= fun _ => pure ()) = AuthStore.inAccounts (p >>= fun _ => pure ()) := by
  funext s
  simp only [AuthStore.inAccounts, bind, EStateM.bind]
  cases p s.accounts <;> rfl

omit [PasswordRules] in
/-- A write returns what it was given. -/
theorem write_bind {α : Type} {user : User} {f : User → AuthStore α} :
    (AuthService.write user >>= f) = (do let _ ← AuthService.write user; f user) := by
  funext s
  have hreturns : wp (AuthService.write user) (fun u _ => u = user) (fun _ _ => True) s := by
    simp only [AuthService.write, AuthStore.wp_inAccounts, UserService.wp_update]
    exact ⟨fun _ => trivial, fun _ _ => ⟨fun _ => ⟨fun _ _ => trivial, fun _ _ => trivial⟩, fun _ _ => trivial⟩⟩
  simp only [bind, EStateM.bind]
  cases hran : AuthService.write user s with
  | error e t => rfl
  | ok u t =>
    rw [Program.wp_of_ok hran] at hreturns
    rw [hreturns]

omit [PasswordRules] in
/-- The update of an endpoint writes the row of the service, and its errors are those of a request. -/
theorem after_internally {id : Uuid} (s : AuthState) (row : AccountStore User) (rest : Rest)
    (finish : AccountStore Unit)
    (hfinish : ∀ user, (Write.mk id user { userId := id } rest).finish = AuthStore.inAccounts finish) :
    after (do
        let row ← AuthStore.inAccounts row
        let _ ← AuthService.write row
        (Write.mk id row { userId := id } rest).finish) s =
      after (AuthStore.inAccounts do
        let row ← row
        let _ ← internally (UserService.update row)
        finish) s := by
  simp only [hfinish, after, AuthService.write, AuthStore.inAccounts, internally, Program.mapError, bind,
    EStateM.bind]
  cases row s.accounts with
  | error e accounts => rfl
  | ok user accounts =>
    dsimp only
    cases UserService.update user accounts with
    | error e accounts => rfl
    | ok user accounts => dsimp only

/-- An operation that nothing comes between is the one of the service. -/
theorem after_perform (operation : Operation) (s : AuthState) :
    after operation.perform s = after operation.request s := by
  cases operation with
  | updatePassword userId currentPassword newPassword salt =>
    simp [Operation.perform, Operation.request, Operation.read, AuthService.updatePassword, Write.finish]
  | initiatePasswordReset email =>
    have hsame : (Operation.initiatePasswordReset email).perform =
        (Operation.initiatePasswordReset email).request := by
      simp only [Operation.perform, Operation.request, Operation.read, AuthService.initiatePasswordReset, bind_assoc]
      congr 1
      funext x
      cases x with
      | none => rw [pure_bind]
      | some x =>
        obtain ⟨row, token⟩ := x
        simp only [pure_bind, Write.finish]
        exact (write_bind (f := fun user =>
          AuthStore.send { userId := user.id, address := user.base.email, token := token })).symm
    rw [hsame]
  | completePasswordReset token newPassword salt =>
    have hsame : (Operation.completePasswordReset token newPassword salt).perform =
        (Operation.completePasswordReset token newPassword salt).request := by
      simp only [Operation.perform, Operation.request, Operation.read, AuthService.completePasswordReset,
        Write.finish, bind_assoc, pure_bind]
      congr 1
      funext x
      obtain ⟨row, accepted⟩ := x
      cases accepted <;> rfl
    rw [hsame]
  | requestEmailChange userId currentPassword newEmail =>
    have hsame : (Operation.requestEmailChange userId currentPassword newEmail).perform =
        (Operation.requestEmailChange userId currentPassword newEmail).request := by
      simp only [Operation.perform, Operation.request, Operation.read, AuthService.requestEmailChange, Write.finish,
        bind_assoc, pure_bind]
      congr 1
      funext x
      obtain ⟨row, token⟩ := x
      exact (write_bind (f := fun user =>
        AuthStore.send { userId := user.id, address := newEmail, token := token })).symm
    rw [hsame]
  | verifyEmail token =>
    have hsame : (Operation.verifyEmail token).perform =
        (do let _ ← (get : AuthStore AuthState); (Operation.verifyEmail token).request) := by
      simp [Operation.perform, Operation.request, Operation.read, AuthService.verifyEmail, Write.finish]
    rw [hsame]
    rfl
  | updateUser entity id body =>
    have hsame : (Operation.updateUser entity id body).request = AuthStore.inAccounts (do
        let row ← UserHandlers.updateUserRow entity id body
        let _ ← internally (UserService.update row)
        return ()) := by
      rw [Operation.request, UserHandlers.updateUser_eq, inAccounts_ignored, bind_assoc]
    rw [hsame]
    simp only [Operation.perform, Operation.read, bind_assoc, pure_bind]
    exact after_internally s _ .done (return ()) fun _ => rfl
  | adminUpdateUser entity id body =>
    have hsame : (Operation.adminUpdateUser entity id body).request = AuthStore.inAccounts (do
        let row ← UserHandlers.adminUpdateUserRow entity id body
        let _ ← internally (UserService.update row)
        internally (UserService.setNetworkIds id body.deserialize.base.networkIds)) := by
      rw [Operation.request, UserHandlers.adminUpdateUser_eq, inAccounts_ignored]
      simp only [bind_assoc, pure_bind, bind_pure_unit]
    rw [hsame]
    simp only [Operation.perform, Operation.read, bind_assoc, pure_bind]
    exact after_internally s _ (.setNetworkIds _) (internally (UserService.setNetworkIds id _)) fun _ => rfl
/-- The steps of an operation, one after the other. -/
def State.serially (s : State) (operation : Operation) : State :=
  [.read operation, .find 0, .write 0].foldl (fun s a => (step s a).getD s) s

omit [PasswordRules] in
theorem wp_getById_same {id : Uuid} {accounts : Accounts} :
    wp (UserService.getById id) (fun _ t => t = accounts) (fun _ t => t = accounts) accounts := by
  rw [UserService.wp_getById]
  exact ⟨fun _ => rfl, fun _ _ => ⟨fun _ => rfl, fun _ _ => rfl⟩⟩

/-- The steps of an operation do what the service does, if no other operation is under way. -/
theorem serially_auth (s : State) (operation : Operation) (h : s.tasks = []) :
    (s.serially operation).auth = after operation.request s.auth := by
  rw [← after_perform]
  simp only [State.serially, List.foldl_cons, List.foldl_nil]
  have hperform : operation.perform s.auth = match operation.read s.auth with
    | .ok none auth => .ok () auth
    | .ok (some w) auth => (do let _ ← AuthService.write w.row; w.finish) auth
    | .error e auth => .error e auth := by
    simp only [Operation.perform, bind, EStateM.bind]
    rcases operation.read s.auth with ⟨w, auth⟩ | ⟨e, auth⟩
    · cases w <;> rfl
    · rfl
  rw [after, hperform]
  simp only [step]
  rcases operation.read s.auth with ⟨w, auth⟩ | ⟨e, auth⟩
  · cases w with
    | none => simp [State.spawn, h]
    | some w =>
      simp only [State.spawn, h, List.nil_append, Option.getD_some, List.getElem?_cons_zero]
      have hsame := @wp_getById_same _ w.row.id auth.accounts
      simp only [bind, EStateM.bind, AuthService.write, AuthStore.inAccounts, UserService.update]
      rcases hget : UserService.getById w.row.id auth.accounts with ⟨found, accounts⟩ | ⟨e, accounts⟩
      · rw [Program.wp_of_ok hget] at hsame
        rw [hsame]
        cases found with
        | none => rfl
        | some found =>
          simp only [List.set_cons_zero, Option.getD_some, List.getElem?_cons_zero, Bool.not_true, Bool.false_eq_true,
            if_false]
          rcases UserService.store w.row auth.accounts with ⟨_, accounts⟩ | ⟨e, accounts⟩
          · rfl
          · rfl
      · rw [Program.wp_of_error hget] at hsame
        rw [hsame]
        rfl
  · simp [h]

/-! ## What is claimed -/

namespace State

variable (s : State)

/-- The changes to a user that were acknowledged, newest first. -/
def changesOf (userId : Uuid) : List Change := s.acknowledged.filter fun c => c.userId = userId

/-- The changes to the user that were acknowledged since the task read the row. -/
def since (task : Task) : List Change :=
  (s.acknowledged.take (s.acknowledged.length - task.seen)).filter fun c => c.userId = task.userId

/-- The reset tokens that were accepted. -/
def accepted : List String := s.acknowledged.filterMap (·.resetToken)

end State

/-- Users have the password and the address they last changed to, and no reset token was accepted twice. -/
structure Kept (s : State) : Prop where
  passwords : ∀ user ∈ s.users, ∀ hash, (s.changesOf user.id).findSome? (·.password) = some hash →
    user.base.passwordHash = some hash
  emails : ∀ user ∈ s.users, ∀ email, (s.changesOf user.id).findSome? (·.email) = some email → user.base.email = email
  tokens : s.accepted.Nodup

/-- The reset tokens a write stores or has accepted. -/
def Write.resetTokens (w : Write) : List String :=
  w.row.base.passwordResetToken.toList ++ w.change.resetToken.toList

/-- Nobody has, had or is about to have the reset token. -/
def Unused (s : State) (token : String) : Prop :=
  (∀ user ∈ s.users, user.base.passwordResetToken ≠ some token) ∧
  (∀ task ∈ s.tasks, token ∉ task.resetTokens) ∧ token ∉ s.accepted

/-- The reset token an operation draws. -/
def Operation.draws (s : State) : Operation → Option String
  | .initiatePasswordReset _ => some (toString (s.auth.accounts.drawn.headD Uuid.nil))
  | _ => none

/-- A write comes in time: since its row was read no change of the password was acknowledged, unless it
sets the password itself, no change of the address, unless it changes the address itself, and no reset
token was accepted, unless it has to do with none. A token that is drawn is a new one. -/
def Timely (s : State) : Action → Prop
  | .read operation => ∀ token ∈ operation.draws s, Unused s token
  | .write i => ∀ task ∈ s.tasks[i]?,
    (task.change.password.isSome = true ∨ ∀ c ∈ s.since task, c.password = none) ∧
    (task.change.email.isSome = true ∨ ∀ c ∈ s.since task, c.email = none) ∧
    (task.resetTokens = [] ∨ ∀ c ∈ s.since task, c.resetToken = none)
  | _ => True

instance (s : State) (token : String) : Decidable (Unused s token) := inferInstanceAs (Decidable (_ ∧ _ ∧ _))

instance (s : State) (a : Action) : Decidable (Timely s a) := by
  unfold Timely
  cases a <;> infer_instance

/-- No two users have one reset token. -/
def Distinct (users : Table User User.id) : Prop :=
  ∀ u ∈ users.rows, ∀ v ∈ users.rows, ∀ token, u.base.passwordResetToken = some token →
    v.base.passwordResetToken = some token → u.id = v.id

/-! ## What an operation has read -/

/-- What is written and what will be acknowledged go together. -/
structure Write.WellFormed (w : Write) : Prop where
  user : w.change.userId = w.userId
  /-- What is written under another id changes nothing of note. -/
  row : w.row.id = w.userId ∨ w.change = { userId := w.userId } ∧ w.row.base.passwordResetToken = none
  sets : ∀ hash, w.change.password = some hash → w.row.base.passwordHash = some hash
  changes : ∀ email, w.change.email = some email → w.row.base.email = email
  accepts : w.change.resetToken.isSome = true → w.row.base.passwordResetToken = none

/-- What a write carries over from the row that was read, and the reset token that was drawn. -/
structure Carries (users : List User) (drawn : Option String) (w : Write) : Prop extends w.WellFormed where
  known : ∃ u ∈ users, u.id = w.userId
  password : w.change.password = none → ∃ u ∈ users, u.id = w.userId ∧ u.base.passwordHash = w.row.base.passwordHash
  email : w.change.email = none → ∃ u ∈ users, u.id = w.userId ∧ u.base.email = w.row.base.email
  tokens : ∀ token ∈ w.resetTokens, drawn = some token ∨
    ∃ u ∈ users, u.id = w.userId ∧ u.base.passwordResetToken = some token

variable {s t : State} {users : List User} {drawn : Option String} {u row : User} {token : String}

omit [EmailRules] [PasswordRules] in
/-- A row is written back under its id, with a new password, with a new address, or with neither. -/
theorem carries {w : Write} (hu : u ∈ users) (hid : u.id = w.userId) (hrow : w.row.id = w.userId)
    (huser : w.change.userId = w.userId)
    (hpassword : u.base.passwordHash = w.row.base.passwordHash ∧ w.change.password = none ∨
      w.change.password.isSome = true ∧ w.row.base.passwordHash = w.change.password)
    (hemail : u.base.email = w.row.base.email ∧ w.change.email = none ∨ w.change.email = some w.row.base.email)
    (htoken : ∀ token, w.row.base.passwordResetToken = some token →
      drawn = some token ∨ u.base.passwordResetToken = some token)
    (haccepts : ∀ token, w.change.resetToken = some token →
      w.row.base.passwordResetToken = none ∧ u.base.passwordResetToken = some token) :
    Carries users drawn w where
  user := huser
  row := .inl hrow
  sets hash h := by
    rcases hpassword with ⟨-, hnone⟩ | ⟨-, heq⟩
    · rw [hnone] at h
      cases h
    · exact heq.trans h
  changes email h := by
    rcases hemail with ⟨-, hnone⟩ | heq
    · rw [hnone] at h
      cases h
    · exact Option.some.inj (heq.symm.trans h)
  accepts h := by
    obtain ⟨token, htoken⟩ := Option.isSome_iff_exists.mp h
    exact (haccepts token htoken).1
  known := ⟨u, hu, hid⟩
  password h := by
    rcases hpassword with ⟨heq, -⟩ | ⟨hsome, -⟩
    · exact ⟨u, hu, hid, heq⟩
    · rw [h] at hsome
      cases hsome
  email h := by
    rcases hemail with ⟨heq, -⟩ | heq
    · exact ⟨u, hu, hid, heq⟩
    · rw [h] at heq
      cases heq
  tokens token h := by
    rcases List.mem_append.mp h with h | h
    · exact (htoken token (Option.mem_toList.mp h)).imp_right fun h => ⟨u, hu, hid, h⟩
    · exact .inr ⟨u, hu, hid, (haccepts token (Option.mem_toList.mp h)).2⟩

omit [PasswordRules] in
/-- An update carries the password and the address over, and no token. -/
theorem carries_preserve {accounts : Accounts} {id : Uuid} {body : User} {rest : Rest}
    (hget : accounts.users.get id = some u) :
    ∀ x, some (Write.mk id (UserHandlers.preserve u.read body.deserialize) { userId := id } rest) = some x →
      Carries accounts.users.rows none x := by
  obtain ⟨hu, hid⟩ := Table.get_eq_some.mp hget
  rintro _ ⟨⟩
  refine ⟨⟨rfl, .inr ⟨rfl, rfl⟩, fun _ h => (by cases h), fun _ h => (by cases h), fun h => (by cases h)⟩,
    ⟨u, hu, hid⟩, fun _ => ⟨u, hu, hid, rfl⟩, fun _ => ⟨u, hu, hid, rfl⟩, fun token h => ?_⟩
  simp [Write.resetTokens, UserHandlers.preserve, User.deserialize] at h

/-- Reading leaves the users as they are. -/
theorem wp_read (s : State) (operation : Operation) :
    wp operation.read
      (fun w auth => auth.accounts.users = s.auth.accounts.users ∧ ∀ x, w = some x →
        Carries s.users (operation.draws s) x)
      (fun _ auth => auth.accounts.users = s.auth.accounts.users) s.auth := by
  cases operation with
  | updatePassword userId currentPassword newPassword salt =>
    simp only [Operation.read, AuthService.updatePasswordRow, Program.wp_bind, AuthStore.wp_inAccounts,
      UserService.wp_getById, AuthStore.wp_fail]
    refine ⟨fun _ => trivial, fun u hget => ⟨fun _ => ?_, fun _ _ => trivial⟩⟩
    have hset (hash : String) (now : DateTime) :
        ∀ x, some (Write.mk u.id (u.read.setPassword hash now) { userId := u.id, password := some hash } .done) =
          some x →
          Carries s.users none x := by
      rintro _ ⟨⟩
      exact carries (Table.get_eq_some.mp hget).1 rfl rfl rfl (.inr ⟨rfl, rfl⟩) (.inl ⟨rfl, rfl⟩)
        (fun _ h => .inr h) fun _ h => (by cases h)
    split
    · simp only [Program.wp_pure, Program.wp_bind, AuthStore.wp_checked, AuthStore.wp_now]
      exact ⟨fun hash _ => ⟨trivial, hset hash _⟩, fun _ _ => trivial⟩
    · simp only [AuthStore.wp_fail, Program.wp_bind]
    · simp only [Program.wp_pure, Program.wp_bind, AuthStore.wp_checked, AuthStore.wp_now]
      exact ⟨fun _ _ => ⟨fun hash _ => ⟨trivial, hset hash _⟩, fun _ _ => trivial⟩, fun _ _ => trivial⟩
  | initiatePasswordReset email =>
    simp only [Operation.read, AuthService.initiateResetRow, Program.wp_bind, AuthStore.wp_requireEmailService,
      AuthStore.wp_inAccounts, UserService.wp_getOne]
    refine ⟨fun _ => trivial, fun _ => ⟨fun _ => ?_, fun u hfind => ⟨fun _ => ?_, fun _ _ => trivial⟩⟩⟩
    · exact ⟨rfl, fun _ h => (by cases h)⟩
    · refine ⟨rfl, ?_⟩
      rintro _ ⟨⟩
      exact carries (List.mem_of_find?_eq_some hfind) rfl rfl rfl (.inl ⟨rfl, rfl⟩) (.inl ⟨rfl, rfl⟩)
        (fun _ h => .inl h) fun _ h => (by cases h)
  | completePasswordReset token newPassword salt =>
    simp only [Operation.read, AuthService.completeResetRow, Program.wp_bind, AuthStore.wp_inAccounts,
      UserService.wp_getOne, AuthStore.wp_fail]
    refine ⟨fun _ => trivial, fun u hfind => ⟨fun _ => ?_, fun _ _ => trivial⟩⟩
    have hmem := List.mem_of_find?_eq_some hfind
    have htoken : u.base.passwordResetToken = some token := by simpa using List.find?_some hfind
    split
    · exact rfl
    simp only [Program.wp_bind, AuthStore.wp_now, Program.wp_ite, Program.wp_pure, AuthStore.wp_checked]
    refine ⟨fun _ => ⟨trivial, ?_⟩, fun _ => ⟨fun hash _ => ⟨trivial, ?_⟩, fun _ _ => trivial⟩⟩
    · rintro _ ⟨⟩
      exact carries hmem rfl rfl rfl (.inl ⟨rfl, rfl⟩) (.inl ⟨rfl, rfl⟩) (fun _ h => (by cases h)) fun _ h =>
        (by cases h)
    · rintro _ ⟨⟩
      exact carries hmem rfl rfl rfl (.inr ⟨rfl, rfl⟩) (.inl ⟨rfl, rfl⟩) (fun _ h => (by cases h))
        fun _ h => ⟨rfl, htoken.trans h⟩
  | requestEmailChange userId currentPassword newEmail =>
    simp only [Operation.read, AuthService.emailChangeRow, Program.wp_bind, AuthStore.wp_requireEmailService,
      AuthStore.wp_inAccounts, UserService.wp_getById, AuthStore.wp_fail]
    refine ⟨fun _ => trivial, fun _ => ⟨fun _ => trivial, fun u hget => ⟨fun _ => ?_, fun _ _ => trivial⟩⟩⟩
    simp only [Program.wp_ite, AuthStore.wp_fail]
    refine ⟨fun _ => trivial, fun _ => ?_⟩
    split
    · exact rfl
    · exact rfl
    simp only [Program.wp_bind, AuthStore.wp_checked, Program.wp_ite, AuthStore.wp_fail, AuthStore.wp_inAccounts]
    refine ⟨fun _ _ => ⟨fun _ => trivial, fun _ => UserService.wp_getAll (fun existing => ?_) fun _ => rfl⟩,
      fun _ _ => trivial⟩
    simp only [AuthService.wp_newToken, AuthStore.wp_now, Program.wp_pure]
    refine ⟨fun _ => trivial, fun _ => ⟨trivial, ?_⟩⟩
    rintro _ ⟨⟩
    exact carries (Table.get_eq_some.mp hget).1 rfl rfl rfl (.inl ⟨rfl, rfl⟩) (.inl ⟨rfl, rfl⟩)
      (fun _ h => .inr h) fun _ h => (by cases h)
  | verifyEmail token =>
    simp only [Operation.read, AuthService.verifyEmailRow, Program.wp_bind, Program.wp_get, AuthStore.wp_inAccounts,
      UserService.wp_getOne, AuthStore.wp_fail]
    refine ⟨fun _ => trivial, fun u hfind => ⟨fun _ => ?_, fun _ _ => trivial⟩⟩
    have hpending : pendingEmail s.auth.accounts token = u.read.base.pendingEmail := by
      rw [pendingEmail, hfind, Option.bind_some]
    split
    · exact rfl
    simp only [Program.wp_bind, AuthStore.wp_now, Program.wp_ite, AuthStore.wp_fail, Program.wp_pure, hpending]
    refine ⟨fun _ => trivial, fun _ => ⟨trivial, ?_⟩⟩
    rintro _ ⟨⟩
    refine carries (List.mem_of_find?_eq_some hfind) rfl rfl rfl (.inl ⟨rfl, rfl⟩) ?_ (fun _ h => .inr h) fun _ h =>
      (by cases h)
    change u.base.email = u.read.base.pendingEmail.getD u.base.email ∧ u.read.base.pendingEmail = none ∨
      u.read.base.pendingEmail = some (u.read.base.pendingEmail.getD u.base.email)
    cases u.read.base.pendingEmail with
    | none => exact .inl ⟨rfl, rfl⟩
    | some email => exact .inr rfl
  | updateUser entity id body =>
    simp only [Operation.read, UserHandlers.updateUserRow, Program.wp_bind, AuthStore.wp_inAccounts, wp_authorize,
      Program.wp_ite, Program.wp_throw, wp_internally, UserService.wp_getById, Program.wp_pure]
    refine ⟨fun _ => ⟨fun _ => trivial, fun _ => ⟨fun _ => trivial, fun u hget => ⟨fun _ => ?_, fun _ _ => trivial⟩⟩⟩,
      fun _ _ => trivial⟩
    exact ⟨fun _ => trivial, fun _ => ⟨fun _ => trivial, fun _ => ⟨trivial, carries_preserve hget⟩⟩⟩
  | adminUpdateUser entity id body =>
    simp only [Operation.read, UserHandlers.adminUpdateUserRow, Program.wp_bind, AuthStore.wp_inAccounts,
      wp_authorize]
    refine ⟨fun _ => ?_, fun _ _ => trivial⟩
    split
    · simp only [Program.wp_bind, wp_internally, UserService.wp_getById, Program.wp_ite, Program.wp_throw,
        Program.wp_pure]
      refine ⟨fun _ => trivial,
        fun u hget => ⟨fun _ => ⟨fun _ => trivial, fun _ => ⟨trivial, carries_preserve hget⟩⟩, fun _ _ => trivial⟩⟩
    · exact rfl

/-! ## The invariant -/

/-- What holds of an operation under way: what it does not set is as it was read, unless a change was
acknowledged since, and its tokens belong to its user. -/
structure Fits (owner : String → Uuid) (s : State) (task : Task) : Prop extends task.toWrite.WellFormed where
  seen : task.seen ≤ s.acknowledged.length
  known : ∃ u ∈ s.users, u.id = task.userId
  password : task.change.password = none → (∀ c ∈ s.since task, c.password = none) →
    ∃ u ∈ s.users, u.id = task.userId ∧ u.base.passwordHash = task.row.base.passwordHash
  email : task.change.email = none → (∀ c ∈ s.since task, c.email = none) →
    ∃ u ∈ s.users, u.id = task.userId ∧ u.base.email = task.row.base.email
  owned : ∀ token ∈ task.resetTokens, owner token = task.userId
  unaccepted : (∀ c ∈ s.since task, c.resetToken = none) → ∀ token ∈ task.resetTokens, token ∉ s.accepted

structure Inv (owner : String → Uuid) (s : State) : Prop extends Kept s where
  stored : ∀ u ∈ s.users, ∀ token, u.base.passwordResetToken = some token → owner token = u.id ∧ token ∉ s.accepted
  tasks : ∀ task ∈ s.tasks, Fits owner s task

variable {owner : String → Uuid} {task : Task}

omit [EmailRules] [PasswordRules] in
/-- Nothing is acknowledged and the users stay as they are. -/
theorem Inv.of_eq (h : Inv owner s) (hu : t.users = s.users) (ha : t.acknowledged = s.acknowledged)
    (ht : ∀ task ∈ t.tasks, Fits owner s task) : Inv owner t where
  passwords := by
    rw [hu, show t.changesOf = s.changesOf by unfold State.changesOf; rw [ha]]
    exact h.passwords
  emails := by
    rw [hu, show t.changesOf = s.changesOf by unfold State.changesOf; rw [ha]]
    exact h.emails
  tokens := by
    rw [State.accepted, ha]
    exact h.tokens
  stored := by
    rw [hu, State.accepted, ha]
    exact h.stored
  tasks task htask := by
    have hfits := ht task htask
    have hsince : t.since task = s.since task := by rw [State.since, State.since, ha]
    refine ⟨hfits.toWellFormed, ?_, ?_, ?_, ?_, hfits.owned, ?_⟩
    · rw [ha]
      exact hfits.seen
    · rw [hu]
      exact hfits.known
    · rw [hu, hsince]
      exact hfits.password
    · rw [hu, hsince]
      exact hfits.email
    · rw [hsince, State.accepted, ha]
      exact hfits.unaccepted

omit [EmailRules] [PasswordRules] in
/-- An operation that has just read its row is under way; a token it drew belongs to its user. -/
theorem Inv.spawn (h : Inv owner s) {w : Write} {drawn : Option String} (hw : Carries s.users drawn w)
    (hunused : ∀ token ∈ drawn, Unused s token) :
    Inv (fun token => if drawn = some token then w.userId else owner token) (s.spawn (some w)) := by
  have hold (token : String) (hne : drawn ≠ some token) :
      (if drawn = some token then w.userId else owner token) = owner token := if_neg hne
  have hother {task : Task} (htask : task ∈ s.tasks) (token : String) (htoken : token ∈ task.resetTokens) :
      drawn ≠ some token := fun heq => (hunused token heq).2.1 task htask htoken
  have hrow {u : User} (hu : u ∈ s.users) (token : String) (htoken : u.base.passwordResetToken = some token) :
      drawn ≠ some token := fun heq => (hunused token heq).1 u hu htoken
  refine ⟨⟨h.passwords, h.emails, h.tokens⟩, fun u hu token htoken => ?_, fun task htask => ?_⟩
  · rw [hold token (hrow hu token htoken)]
    exact h.stored u hu token htoken
  rcases List.mem_append.mp htask with htask | htask
  · have hfits := h.tasks task htask
    refine ⟨hfits.toWellFormed, hfits.seen, hfits.known, hfits.password, hfits.email, fun token htoken => ?_,
      hfits.unaccepted⟩
    rw [hold token (hother htask token htoken)]
    exact hfits.owned token htoken
  · rw [List.mem_singleton.mp htask]
    refine ⟨hw.toWellFormed, le_rfl, hw.known, fun hnone _ => hw.password hnone, fun hnone _ => hw.email hnone,
      fun token htoken => ?_, fun _ token htoken => ?_⟩
    · rcases hw.tokens token htoken with hdrawn | ⟨u, hu, hid, hstored⟩
      · exact if_pos hdrawn
      · rw [hold token (hrow hu token hstored)]
        exact (h.stored u hu token hstored).1.trans hid
    · rcases hw.tokens token htoken with hdrawn | ⟨u, hu, -, hstored⟩
      · exact (hunused token hdrawn).2.2
      · exact (h.stored u hu token hstored).2

/-! ## What a write does -/

/-- How the row of a user turns out after a write. -/
structure Turns (w : Write) (u v : User) : Prop where
  id : v.id = u.id
  password : v.base.passwordHash = u.base.passwordHash ∧ (u.id = w.userId → w.change.password = none) ∨
    u.id = w.userId ∧ ∃ hash, w.change.password = some hash ∧ v.base.passwordHash = some hash
  email : v.base.email = u.base.email ∧ (u.id = w.userId → w.change.email = none) ∨
    u.id = w.userId ∧ w.change.email = some v.base.email
  token : v.base.passwordResetToken = u.base.passwordResetToken ∨
    u.id = w.userId ∧ v.base.passwordResetToken = w.row.base.passwordResetToken
  accepts : u.id = w.userId → w.change.resetToken.isSome = true → v.base.passwordResetToken = none

omit [EmailRules] [PasswordRules] in
theorem since_cons {c : Change} (hseen : task.seen ≤ s.acknowledged.length)
    (ha : t.acknowledged = c :: s.acknowledged) :
    t.since task = if c.userId = task.userId then c :: s.since task else s.since task := by
  have hlength : t.acknowledged.length - task.seen = s.acknowledged.length - task.seen + 1 := by
    rw [ha, List.length_cons]
    omega
  rw [State.since, hlength, ha, List.take_succ_cons, List.filter_cons]
  simp only [decide_eq_true_eq]
  rfl

/-- The conditions on a write that comes in time. -/
structure Current (s : State) (task : Task) : Prop where
  password : task.change.password.isSome = true ∨ ∀ c ∈ s.since task, c.password = none
  email : task.change.email.isSome = true ∨ ∀ c ∈ s.since task, c.email = none
  resetToken : task.resetTokens = [] ∨ ∀ c ∈ s.since task, c.resetToken = none

omit [EmailRules] [PasswordRules] in
/-- A write that comes in time is acknowledged. -/
theorem Inv.acknowledge (h : Inv owner s) (htask : task ∈ s.tasks) (hcurrent : Current s task)
    (ha : t.acknowledged = task.change :: s.acknowledged) (htasks : t.tasks ⊆ s.tasks) {f : User → User}
    (hu : t.users = s.users.map f) (hf : ∀ u ∈ s.users, Turns task.toWrite u (f u)) : Inv owner t := by
  have hfits := h.tasks task htask
  have haccepted : t.accepted = task.change.resetToken.toList ++ s.accepted := by
    rw [State.accepted, ha, List.filterMap_cons]
    cases task.change.resetToken <;> rfl
  have hunaccepted : ∀ token ∈ task.resetTokens, token ∉ s.accepted := by
    rcases hcurrent.resetToken with hnone | hnone
    · rw [hnone]
      exact fun token htoken => absurd htoken List.not_mem_nil
    · exact hfits.unaccepted hnone
  have hchanges (id : Uuid) : t.changesOf id =
      if task.userId = id then task.change :: s.changesOf id else s.changesOf id := by
    rw [State.changesOf, ha, List.filter_cons, hfits.user]
    simp only [decide_eq_true_eq]
    rfl
  refine ⟨⟨?_, ?_, ?_⟩, ?_, fun x hx => ?_⟩
  · intro v hv hash hlast
    rw [hu] at hv
    obtain ⟨u, hmem, rfl⟩ := List.mem_map.mp hv
    have hturns := hf u hmem
    rw [hturns.id, hchanges] at hlast
    rcases hturns.password with ⟨hsame, hnone⟩ | ⟨hid, new, hset, hnew⟩
    · rw [hsame]
      split at hlast
      · next hid =>
        rw [List.findSome?_cons, hnone hid.symm] at hlast
        exact h.passwords u hmem hash hlast
      · exact h.passwords u hmem hash hlast
    · rw [if_pos hid.symm, List.findSome?_cons, hset] at hlast
      rw [hnew]
      exact hlast
  · intro v hv email hlast
    rw [hu] at hv
    obtain ⟨u, hmem, rfl⟩ := List.mem_map.mp hv
    have hturns := hf u hmem
    rw [hturns.id, hchanges] at hlast
    rcases hturns.email with ⟨hsame, hnone⟩ | ⟨hid, hset⟩
    · rw [hsame]
      split at hlast
      · next hid =>
        rw [List.findSome?_cons, hnone hid.symm] at hlast
        exact h.emails u hmem email hlast
      · exact h.emails u hmem email hlast
    · rw [if_pos hid.symm, List.findSome?_cons, hset] at hlast
      exact Option.some.inj hlast
  · rw [haccepted]
    cases htoken : task.change.resetToken with
    | none => exact h.tokens
    | some token =>
      refine List.nodup_cons.mpr ⟨hunaccepted token ?_, h.tokens⟩
      exact List.mem_append_right _ (Option.mem_toList.mpr htoken)
  · intro v hv token htoken
    rw [hu] at hv
    obtain ⟨u, hmem, rfl⟩ := List.mem_map.mp hv
    have hturns := hf u hmem
    have hnew (hother : owner token ≠ task.userId) : token ∉ task.change.resetToken.toList := fun hmem =>
      hother (hfits.owned token (List.mem_append_right _ hmem))
    have hleft (hid : u.id = task.userId) : token ∉ task.change.resetToken.toList := fun hmem => by
      rw [hturns.accepts hid (Option.isSome_of_mem (Option.mem_toList.mp hmem))] at htoken
      cases htoken
    rw [hturns.id, haccepted, List.mem_append, not_or]
    rcases hturns.token with hsame | ⟨hid, hwritten⟩
    · obtain ⟨howner, hstored⟩ := h.stored u hmem token (hsame.symm.trans htoken)
      refine ⟨howner, ?_, hstored⟩
      by_cases hid : u.id = task.userId
      · exact hleft hid
      · exact hnew (howner ▸ hid)
    · have hcarried : token ∈ task.resetTokens :=
        List.mem_append_left _ (Option.mem_toList.mpr (hwritten.symm.trans htoken))
      exact ⟨(hfits.owned token hcarried).trans hid.symm, hleft hid, hunaccepted token hcarried⟩
  · have hx := h.tasks x (htasks hx)
    have hsince := since_cons hx.seen ha
    rw [hfits.user] at hsince
    have hearlier {P : Change → Prop} (hall : ∀ c ∈ t.since x, P c) :
        (∀ c ∈ s.since x, P c) ∧ (task.userId = x.userId → P task.change) := by
      rw [hsince] at hall
      split at hall
      · exact ⟨fun c hc => hall c (List.mem_cons_of_mem _ hc), fun _ => hall _ List.mem_cons_self⟩
      · next hid => exact ⟨hall, fun heq => absurd heq hid⟩
    refine ⟨hx.toWellFormed, ?_, ?_, fun hnone hall => ?_, fun hnone hall => ?_, hx.owned,
      fun hall token htoken => ?_⟩
    · rw [ha, List.length_cons]
      exact Nat.le_succ_of_le hx.seen
    · obtain ⟨u, hmem, hid⟩ := hx.known
      refine ⟨f u, ?_, (hf u hmem).id.trans hid⟩
      rw [hu]
      exact List.mem_map_of_mem hmem
    · obtain ⟨hbefore, hlast⟩ := hearlier hall
      obtain ⟨u, hmem, hid, hsame⟩ := hx.password hnone hbefore
      refine ⟨f u, by rw [hu]; exact List.mem_map_of_mem hmem, (hf u hmem).id.trans hid, ?_⟩
      rcases (hf u hmem).password with ⟨hkept, -⟩ | ⟨hself, hash, hset, -⟩
      · exact hkept.trans hsame
      · rw [hlast (hself.symm.trans hid)] at hset
        cases hset
    · obtain ⟨hbefore, hlast⟩ := hearlier hall
      obtain ⟨u, hmem, hid, hsame⟩ := hx.email hnone hbefore
      refine ⟨f u, by rw [hu]; exact List.mem_map_of_mem hmem, (hf u hmem).id.trans hid, ?_⟩
      rcases (hf u hmem).email with ⟨hkept, -⟩ | ⟨hself, hset⟩
      · exact hkept.trans hsame
      · rw [hlast (hself.symm.trans hid)] at hset
        cases hset
    · obtain ⟨hbefore, hlast⟩ := hearlier hall
      rw [haccepted, List.mem_append, not_or]
      refine ⟨fun haccepts => ?_, hx.unaccepted hbefore token htoken⟩
      have howner : task.userId = x.userId :=
        (hfits.owned token (List.mem_append_right _ haccepts)).symm.trans (hx.owned token htoken)
      rw [hlast howner] at haccepts
      exact List.not_mem_nil haccepts

omit [PasswordRules] in
/-- The row is written as `f` says, or the statement is refused. -/
theorem wp_store (h : Inv owner s) (htask : task ∈ s.tasks) (hcurrent : Current s task) :
    wp (AuthStore.inAccounts (UserService.store task.row))
      (fun _ auth => ∃ f : User → User, auth.accounts.users.rows = s.users.map f ∧
        ∀ u ∈ s.users, Turns task.toWrite u (f u))
      (fun _ auth => auth.accounts.users = s.auth.accounts.users) s.auth := by
  have hfits := h.tasks task htask
  simp only [AuthStore.wp_inAccounts, UserService.store, Program.wp_bind, Program.wp_get, wp_runStatement,
    Program.wp_set, Program.wp_pure]
  refine ⟨fun users hupdate => ?_, fun _ _ => trivial⟩
  rcases updateIn_eq_ok hupdate with ⟨hmissing, rfl⟩ | ⟨hviolated, -, rfl⟩
  · -- nobody has the id of the row, so it is not that of the user who was read
    have hchange : task.change = { userId := task.userId } := by
      rcases hfits.row with hid | ⟨hchange, -⟩
      · obtain ⟨u, hu, huid⟩ := hfits.known
        exact absurd (huid.trans hid.symm) (Table.get_eq_none.mp hmissing u hu)
      · exact hchange
    refine ⟨id, by rw [List.map_id]; rfl, fun u _ => ⟨rfl, .inl ⟨rfl, fun _ => ?_⟩, .inl ⟨rfl, fun _ => ?_⟩, .inl rfl,
      fun _ haccepts => ?_⟩⟩
    · rw [hchange]
    · rw [hchange]
    · rw [hchange] at haccepts
      cases haccepts
  · have hrow : task.row.id = task.userId := by
      rcases hfits.row with hid | ⟨hchange, -⟩
      · exact hid
      · -- the address of the user who was read is still taken
        have hnone : task.change.email = none := by rw [hchange]
        have hsince : ∀ c ∈ s.since task, c.email = none := by
          rcases hcurrent.email with hsome | hsince
          · rw [hnone] at hsome
            cases hsome
          · exact hsince
        obtain ⟨u, hu, hid, hemail⟩ := hfits.email hnone hsince
        by_contra hne
        have hclash := not_clash hviolated List.mem_cons_self hu fun heq => hne (heq.symm.trans hid)
        rw [beq_eq_false_iff_ne] at hclash
        exact hclash (congrArg EmailRules.lower hemail)
    refine ⟨fun u => if u.id = task.row.id then task.row.row else u, rfl, fun u hu => ?_⟩
    dsimp only
    split
    · next hid =>
      have hself : u.id = task.userId := hid.trans hrow
      have hsame {u' : User} (hu' : u' ∈ s.users) (hid' : u'.id = task.userId) : u' = u :=
        s.auth.accounts.users.eq_of_key hu' hu (hid'.trans hself.symm)
      refine ⟨hid.symm, ?_, ?_, .inr ⟨hself, rfl⟩, fun _ => hfits.accepts⟩
      · cases hpassword : task.change.password with
        | some hash => exact .inr ⟨hself, hash, rfl, hfits.sets hash hpassword⟩
        | none =>
          have hsince := hcurrent.password.resolve_left (by rw [hpassword]; exact Bool.false_ne_true)
          obtain ⟨u', hu', hid', heq⟩ := hfits.password hpassword hsince
          rw [hsame hu' hid'] at heq
          exact .inl ⟨heq.symm, fun _ => rfl⟩
      · cases hemail : task.change.email with
        | some email =>
          refine .inr ⟨hself, ?_⟩
          rw [← hfits.changes email hemail]
          rfl
        | none =>
          have hsince := hcurrent.email.resolve_left (by rw [hemail]; exact Bool.false_ne_true)
          obtain ⟨u', hu', hid', heq⟩ := hfits.email hemail hsince
          rw [hsame hu' hid'] at heq
          exact .inl ⟨heq.symm, fun _ => rfl⟩
    · next hid =>
      have hother : u.id ≠ task.userId := fun heq => hid (heq.trans hrow.symm)
      exact ⟨rfl, .inl ⟨rfl, fun heq => absurd heq hother⟩, .inl ⟨rfl, fun heq => absurd heq hother⟩, .inl rfl,
        fun heq => absurd heq hother⟩

omit [EmailRules] [PasswordRules] in
/-- What is left of an operation leaves the users as they are. -/
theorem users_after_finish (w : Write) (auth : AuthState) :
    (Program.after w.finish auth).accounts.users = auth.accounts.users := by
  refine (Program.wp_after (P := fun t : AuthState => t.accounts.users = auth.accounts.users)).mp ?_
  unfold Write.finish
  split
  · exact rfl
  · exact rfl
  · simp only [AuthStore.send, Program.wp_bind, Program.wp_get]
    split
    · exact rfl
    simp only [Program.wp_bind, Program.wp_modify]
    split
    · exact rfl
    · exact rfl
  · simp only [AuthStore.wp_inAccounts, wp_internally, UserService.setNetworkIds, Program.wp_bind, Program.wp_get,
      wp_runStatement, Program.wp_set]
    exact ⟨fun _ _ => trivial, fun _ _ => trivial⟩

/-- A step whose write comes in time keeps the invariant. -/
theorem Inv.step {a : Action} (h : Inv owner s) (hok : Timely s a) (hstep : step s a = some t) :
    ∃ owner, Inv owner t := by
  cases a with
  | tick elapsed =>
    cases hstep
    exact ⟨owner, h.of_eq rfl rfl h.tasks⟩
  | read operation =>
    have hread := wp_read s operation
    simp only [Credentials.step] at hstep
    split at hstep
    · next w auth hran =>
      rw [Program.wp_of_ok hran] at hread
      obtain ⟨husers, hcarries⟩ := hread
      cases hstep
      have hsame : Inv owner { s with auth } := h.of_eq (congrArg Table.rows husers) rfl h.tasks
      cases w with
      | none => exact ⟨owner, hsame⟩
      | some w =>
        have hcarried : Carries (State.users { s with auth }) (operation.draws s) w := by
          rw [State.users, husers]
          exact hcarries w rfl
        refine ⟨_, hsame.spawn hcarried fun token htoken => ?_⟩
        obtain ⟨hrows, htasks, haccepted⟩ := hok token htoken
        refine ⟨?_, htasks, haccepted⟩
        rw [State.users, husers]
        exact hrows
    · next e auth hran =>
      rw [Program.wp_of_error hran] at hread
      cases hstep
      exact ⟨owner, h.of_eq (congrArg Table.rows hread) rfl h.tasks⟩
  | find i =>
    simp only [Credentials.step] at hstep
    split at hstep
    · cases hstep
    next task htask =>
    split at hstep
    · cases hstep
      refine ⟨owner, h.of_eq rfl rfl fun x hx => ?_⟩
      rcases List.mem_or_eq_of_mem_set hx with hx | rfl
      · exact h.tasks x hx
      · have hfits := h.tasks task (List.mem_of_getElem? htask)
        exact ⟨hfits.toWellFormed, hfits.seen, hfits.known, hfits.password, hfits.email, hfits.owned,
          hfits.unaccepted⟩
    · cases hstep
      exact ⟨owner, h.of_eq rfl rfl fun x hx => h.tasks x (List.mem_of_mem_eraseIdx hx)⟩
  | write i =>
    simp only [Credentials.step] at hstep
    split at hstep
    · cases hstep
    next task htask =>
    have hmem := List.mem_of_getElem? htask
    obtain ⟨hpassword, hemail, htoken⟩ := hok task htask
    have hstore := wp_store h hmem ⟨hpassword, hemail, htoken⟩
    split at hstep
    · cases hstep
    split at hstep
    · next auth hran =>
      rw [Program.wp_of_ok hran] at hstore
      obtain ⟨f, hrows, hturns⟩ := hstore
      cases hstep
      refine ⟨owner, h.acknowledge hmem ⟨hpassword, hemail, htoken⟩ rfl (List.eraseIdx_subset) ?_ hturns⟩
      rw [State.users, users_after_finish]
      exact hrows
    · next e auth hran =>
      rw [Program.wp_of_error hran] at hstore
      cases hstep
      exact ⟨owner, h.of_eq (congrArg Table.rows hstore) rfl fun x hx => h.tasks x (List.mem_of_mem_eraseIdx hx)⟩

omit [EmailRules] [PasswordRules] in
theorem inv_start {auth : AuthState} (h : Distinct auth.accounts.users) : ∃ owner, Inv owner (start auth) := by
  refine ⟨fun token => ((auth.accounts.users.rows.find? fun u => u.base.passwordResetToken = some token).map
    (·.id)).getD
    Uuid.nil, ⟨fun _ _ _ h => (by cases h), fun _ _ _ h => (by cases h), List.nodup_nil⟩, fun u hu token htoken => ?_,
    List.forall_mem_nil _⟩
  refine ⟨?_, List.not_mem_nil⟩
  cases hfind : auth.accounts.users.rows.find? fun u => u.base.passwordResetToken = some token with
  | none => exact absurd htoken (by simpa using List.find?_eq_none.mp hfind u hu)
  | some v =>
    have hv : v.base.passwordResetToken = some token := by simpa using List.find?_some hfind
    exact h v (List.mem_of_find?_eq_some hfind) u hu token hv htoken

/-- **Acknowledged changes of passwords and addresses are kept, and no reset token is accepted twice**, in every
run whose writes come in time. -/
theorem kept_of_timely (auth : AuthState) (hdistinct : Distinct auth.accounts.users) (as : List Action)
    (h : Along step Timely (start auth) as) : Visits step Kept (start auth) as :=
  h.visits (I := fun s => ∃ owner, Inv owner s) (fun _ _ _ ⟨_, hi⟩ hok hstep => hi.step hok hstep)
    (fun _ ⟨_, hi⟩ => hi.toKept) (inv_start hdistinct)

section Runs

/-- A user with a password. -/
def user : User :=
  { id := 1, createdAt := 0, updatedAt := 0
    base := { email := "user@example.com", organizationId := 5, passwordHash := some "old", emailVerified := true } }

def server : AuthState where
  accounts :=
    { organizations := ⟨[{ id := 5 }], by decide⟩
      users := ⟨[user], by decide⟩
      drawn := [7] }
  emailService := some {}

def entity : AuthenticatedEntity := .user 1 5 .viewer [] true

omit [EmailRules] [PasswordRules] in
/-- A password is reset and the user then updates the record, one request after the other. -/
theorem kept_in_turn :
    @Visits _ _ (@step ⟨fun _ => none, id⟩ ⟨fun _ password => .ok password, fun _ _ => .ok (), fun _ => none⟩) Kept
      (start server)
      [.read (.initiatePasswordReset "user@example.com"), .find 0, .write 0,
        .read (.completePasswordReset "00000000-0000-0000-0000-000000000007" "new" ""), .find 0, .write 0,
        .read (.updateUser entity 1 user), .find 0, .write 0] :=
  @kept_of_timely ⟨fun _ => none, id⟩ ⟨fun _ password => .ok password, fun _ _ => .ok (), fun _ => none⟩ _
    (by unfold Distinct; decide +kernel) _ (by decide +kernel)

omit [EmailRules] [PasswordRules] in
/-- The user updates the record, which was read before the password changed and is written afterwards. -/
theorem password_comes_back :
    ¬ @Visits _ _ (@step ⟨fun _ => none, id⟩ ⟨fun _ password => .ok password, fun _ _ => .ok (), fun _ => none⟩) Kept
      (start server)
      [.read (.updateUser entity 1 user), .read (.updatePassword 1 (some "old") "new" ""), .find 1, .write 1,
        .find 0, .write 0] := by
  intro h
  have hpasswords := h.2.mono
    (S := fun _ _ t => ∀ u ∈ t.users, (t.changesOf u.id).findSome? (·.password) = some "new" →
      u.base.passwordHash = some "new")
    fun _ _ _ _ hkept u hu => hkept.passwords u hu "new"
  exact absurd hpasswords (by decide +kernel)

end Runs

end Credentials

end Netvisor
