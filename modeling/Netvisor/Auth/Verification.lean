/-
That a verified address was proven: in every run of the requests that write
users, somebody presented a token that was mailed to the address.

The token of a user goes with the pending address, if there is one, and with
the user's own otherwise, because a change of address is only asked for by
verified users and a mail is only repeated for others. What breaks this is an
admin's update, which takes the mark from the request.
-/
import Netvisor.Auth.Service
import Netvisor.Lib.Transition
import Netvisor.Users.HandlersFacts

namespace Netvisor

open Program (wp after)
open Transition (Visits Along)

/-! ## What the programs write -/

section Programs

variable {α : Type} {s : AuthState} {E : Failure → AuthState → Prop}

namespace AuthStore

@[simp] theorem wp_inAccounts {p : AccountStore α} {Q : α → AuthState → Prop} : wp (inAccounts p) Q E s ↔
    wp p (fun a accounts => Q a { s with accounts })
        (fun e accounts => E (.answered e) { s with accounts }) s.accounts := by
  simp only [wp, inAccounts]
  cases p s.accounts <;> exact Iff.rfl

@[simp] theorem wp_fail {message : String} {Q : α → AuthState → Prop} :
    wp (fail message) Q E s ↔ E (.answered (.internalError message)) s := Iff.rfl

@[simp] theorem wp_now {Q : DateTime → AuthState → Prop} : wp now Q E s ↔ Q s.accounts.now s := Iff.rfl

@[simp] theorem wp_checked {result : Except String α} {Q : α → AuthState → Prop} : wp (checked result) Q E s ↔
    (∀ a, result = .ok a → Q a s) ∧ ∀ message, result = .error message →
    E (.answered (.internalError message)) s := by
  cases result <;> simp [checked]

@[simp] theorem wp_requireEmailService {Q : Unit → AuthState → Prop} : wp requireEmailService Q E s ↔
    (s.emailService.isNone = true → E (.answered (.internalError "Email service not configured")) s) ∧
      (s.emailService.isNone = false → Q () s) := by
  simp only [requireEmailService, Program.wp_bind, Program.wp_get, Program.wp_ite, wp_fail, Program.wp_pure,
    Bool.not_eq_true]

/-- A mail is handed over, whether it is then refused or not. -/
theorem wp_send {mail : Mail} {Q : Unit → AuthState → Prop} (hs : s.emailService.isSome = true)
    (hQ : Q () { s with mails := mail :: s.mails }) (hE : ∀ e, E e { s with mails := mail :: s.mails }) :
    wp (send mail) Q E s := by
  obtain ⟨service, hservice⟩ := Option.isSome_iff_exists.mp hs
  rw [hservice] at hQ
  simp only [hservice] at hE
  simp only [send, Program.wp_bind, Program.wp_get, hservice, Program.wp_modify]
  split
  · exact hQ
  · exact hE _

end AuthStore

@[simp] theorem AuthService.wp_newToken {Q : String → AuthState → Prop} : wp AuthService.newToken Q E s ↔
    Q (toString (s.accounts.drawn.headD Uuid.nil)) { s with accounts.drawn := s.accounts.drawn.tail } := Iff.rfl

variable [EmailRules]

/-- A write replaces the row with the id of the user, or changes nothing. -/
theorem AuthService.wp_write {user : User} {Q : User → AuthState → Prop} (hE : ∀ e, E e s)
    (hQ : Q user { s with accounts.users := s.accounts.users.update user.row }) : wp (write user) Q E s := by
  simp only [write, AuthStore.wp_inAccounts, UserService.wp_update]
  refine ⟨fun _ => hE _, fun row hrow => ⟨fun _ => ⟨fun users hupdate => ?_, fun e _ => hE _⟩, fun e _ => hE _⟩⟩
  rcases updateIn_eq_ok hupdate with ⟨hmissing, -⟩ | ⟨-, -, rfl⟩
  · rw [User.row_id, hrow] at hmissing
    cases hmissing
  · exact hQ

end Programs

/-! ## The runs -/

namespace Verification

/-- The server, and the tokens presented to `verify_email` so far. -/
structure State where
  auth : AuthState
  presented : List String := []

inductive Action
  | tick (elapsed : Nat)
  /-- Requests that write no user. -/
  | other (accounts : Accounts)
  | register (request : RegisterRequest) (params : LoginRegisterParams) (pendingSetup : Option PendingSetup)
      (plan : Option BillingPlan) (salt : String)
  | resendVerificationEmail (email : EmailAddress)
  /-- The session holds the id of a user. -/
  | requestEmailChange (userId : Uuid) (currentPassword : Option String) (newEmail : EmailAddress)
  | verifyEmail (token : String)
  | updateUser (userId id : Uuid) (body : User)
  | adminUpdateUser (entity : AuthenticatedEntity) (id : Uuid) (body : User)

variable [EmailRules] [PasswordRules]

open AuthStore in
/-- What a request does to the server. -/
def perform : Action → AuthStore Unit
  | .tick elapsed => modify fun s => { s with accounts.now := s.accounts.now + elapsed }
  | .other accounts => modify fun s => { s with accounts := { accounts with users := s.accounts.users } }
  | .register request params pendingSetup plan salt => do
    let _ ← AuthService.register request params pendingSetup plan salt
  | .resendVerificationEmail email => AuthService.resendVerificationEmail email
  | .requestEmailChange userId currentPassword newEmail =>
    AuthHandlers.requestEmailChange userId currentPassword newEmail
  | .verifyEmail token => do let _ ← AuthService.verifyEmail token
  | .updateUser userId id body => do
    let entity ← inAccounts (UserHandlers.session userId)
    let _ ← inAccounts (UserHandlers.updateUser entity id body)
  | .adminUpdateUser entity id body => do let _ ← inAccounts (UserHandlers.adminUpdateUser entity id body)

/-- Addresses in a request parse. -/
def Action.parses : Action → Bool
  | .requestEmailChange _ _ newEmail => (EmailRules.invalid newEmail).isNone
  | _ => true

/-- One request after the other, answered or refused. -/
def step (s : State) (a : Action) : Option State :=
  if a.parses then
    some
      { auth := after (perform a) s.auth
        presented := match a with
          | .verifyEmail token => token :: s.presented
          | _ => s.presented }
  else none

/-- An empty server with an email service. -/
def start (emailService : EmailService) : State := { auth := { emailService := some emailService } }

/-- A token mailed to the address for the user was presented. -/
def Proven (s : State) (userId : Uuid) (address : EmailAddress) : Prop :=
  ∃ mail ∈ s.auth.mails, mail.userId = userId ∧ mail.address = address ∧ mail.token ∈ s.presented

instance (s : State) (userId : Uuid) (address : EmailAddress) : Decidable (Proven s userId address) :=
  inferInstanceAs (Decidable (∃ mail ∈ s.auth.mails, _))

/-- Every verified address was proven. -/
def VerifiedProven (s : State) : Prop :=
  ∀ user ∈ s.auth.accounts.users.rows, user.base.emailVerified = true → Proven s user.id user.base.email

instance (s : State) : Decidable (VerifiedProven s) :=
  inferInstanceAs (Decidable (∀ user ∈ s.auth.accounts.users.rows, _))

open UserHandlers (AdminAccepted) in
/-- An admin's update that is accepted marks a user as verified only if the
user is, or has proven the address. -/
def MarksProven (s : State) : Action → Prop
  | .adminUpdateUser entity id body => ∀ existing, AdminAccepted s.auth.accounts entity id existing body →
      body.base.emailVerified = true → existing.base.emailVerified = true ∨ Proven s existing.id existing.base.email
  | _ => True

/-! ## The invariant -/

/-- What holds of a stored user, given the mails and the tokens presented. -/
structure Sound (mails : List Mail) (presented : List String) (user : User) : Prop where
  pending : ∀ address, user.base.pendingEmail = some address →
    user.base.emailVerified = true ∧ EmailRules.invalid address = none
  token : ∀ token, user.base.emailVerificationToken = some token →
    { userId := user.id, address := user.base.pendingEmail.getD user.base.email, token } ∈ mails
  verified : user.base.emailVerified = true →
    ∃ mail ∈ mails, mail.userId = user.id ∧ mail.address = user.base.email ∧ mail.token ∈ presented

structure Inv (presented : List String) (s : AuthState) : Prop where
  emailService : s.emailService.isSome = true
  sound : ∀ user ∈ s.accounts.users.rows, Sound s.mails presented user

variable {s t : AuthState} {presented : List String} {user row : User} {mails mails' : List Mail}

omit [PasswordRules] in
theorem Sound.mono (h : Sound mails presented user) {presented' : List String} (hm : mails ⊆ mails')
    (hp : presented ⊆ presented') : Sound mails' presented' user where
  pending := h.pending
  token token ht := hm (h.token token ht)
  verified hv := by
    obtain ⟨mail, hmail, hid, haddress, hpresented⟩ := h.verified hv
    exact ⟨mail, hm hmail, hid, haddress, hp hpresented⟩

omit [PasswordRules] in
/-- Other accounts with the same users. -/
theorem Inv.of_users (h : Inv presented s) {accounts : Accounts} (hu : accounts.users = s.accounts.users) :
    Inv presented { s with accounts } where
  emailService := h.emailService
  sound := by
    dsimp only
    rw [hu]
    exact h.sound

omit [PasswordRules] in
/-- A row is replaced. -/
theorem Inv.update (h : Inv presented s) (hs : Sound s.mails presented row) :
    Inv presented { s with accounts.users := s.accounts.users.update row } where
  emailService := h.emailService
  sound user hu := by
    rcases Table.mem_update.mp hu with ⟨rfl, -⟩ | ⟨hu, -⟩
    · exact hs
    · exact h.sound user hu

omit [PasswordRules] in
/-- A row is replaced, and a mail handed over. -/
theorem Inv.update_send {mail : Mail} (h : Inv presented s) (hs : Sound (mail :: s.mails) presented row) :
    Inv presented { s with accounts.users := s.accounts.users.update row, mails := mail :: s.mails } where
  emailService := h.emailService
  sound user hu := by
    rcases Table.mem_update.mp hu with ⟨rfl, -⟩ | ⟨hu, -⟩
    · exact hs
    · exact (h.sound user hu).mono (List.subset_cons_self _ _) (List.Subset.refl _)

/-- The program keeps the invariant, wherever it ends. -/
def Stays {α : Type} (presented : List String) (p : AuthStore α) (s : AuthState) : Prop :=
  wp p (fun _ t => Inv presented t) (fun _ t => Inv presented t) s

/-! ### Registration -/

omit [PasswordRules] in
/-- A user that is yet to verify the address, and asked for no other. -/
theorem sound_new (hpending : user.base.pendingEmail = none) (htoken : user.base.emailVerificationToken = none)
    (hverified : user.base.emailVerified = false) : Sound mails presented user where
  pending address h := by
    rw [hpending] at h
    cases h
  token token h := by
    rw [htoken] at h
    cases h
  verified h := by
    rw [hverified] at h
    cases h

omit [PasswordRules] in
theorem stays_sendVerificationEmailInternal (h : Inv presented s) (hpending : user.base.pendingEmail = none)
    (hverified : user.base.emailVerified = false) :
    Stays presented (AuthService.sendVerificationEmailInternal user) s := by
  have hdrawn : Inv presented { s with accounts.drawn := s.accounts.drawn.tail } := h.of_users rfl
  have hsound (token : String) (expires : DateTime) :
      Sound ({ userId := user.id, address := user.base.email, token } :: s.mails) presented
        (user.withVerification token expires).row := by
    refine ⟨fun address ha => ?_, fun token' ht => ?_, fun hv => ?_⟩
    · have hnone := hpending.symm.trans ha
      cases hnone
    · have haddress : (user.withVerification token expires).row.base.pendingEmail.getD user.base.email =
          user.base.email := by
        rw [show (user.withVerification token expires).row.base.pendingEmail = user.base.pendingEmail from rfl,
          hpending, Option.getD_none]
      cases ht
      rw [show (user.withVerification token expires).row.base.email = user.base.email from rfl, haddress]
      exact List.mem_cons_self
    · have hfalse := hverified.symm.trans hv
      cases hfalse
  simp only [Stays, AuthService.sendVerificationEmailInternal, Program.wp_bind, AuthStore.wp_requireEmailService,
    AuthService.wp_newToken, AuthStore.wp_now]
  refine ⟨fun _ => h, fun _ => AuthService.wp_write (fun _ => hdrawn) ?_⟩
  exact AuthStore.wp_send h.emailService (hdrawn.update_send (hsound _ _)) fun _ => hdrawn.update_send (hsound _ _)

omit [PasswordRules] in
/-- Creating a user adds a row for it, or nothing. -/
theorem wp_create {accounts : Accounts} {base : UserBase} :
    wp (UserService.create base)
      (fun user t => user.base = base ∧ t.users.rows = accounts.users.rows ++ [user.row])
      (fun _ t => t.users = accounts.users ∨ ∃ user : User, user.base = base ∧
        t.users.rows = accounts.users.rows ++ [user.row])
      accounts := by
  simp only [UserService.create, Program.wp_bind, AccountStore.wp_newV4, Program.wp_get, UserService.wp_getOne]
  refine ⟨fun _ => ?_, fun user _ => ⟨fun _ => .inl rfl, fun _ _ => .inl trivial⟩⟩
  simp only [wp_runStatement]
  refine ⟨fun users hinsert => ?_, fun _ _ => .inl trivial⟩
  have hrows := (Table.insert_eq_some (insertInto_eq_ok hinsert).1).1
  simp only [Program.wp_set]
  split
  · rw [Program.wp_bind]
    simp only [UserService.setNetworkIds, Program.wp_bind, Program.wp_get, wp_runStatement, Program.wp_set,
      Program.wp_pure]
    exact ⟨fun _ _ => ⟨trivial, hrows⟩, fun _ _ => .inr ⟨_, rfl, hrows⟩⟩
  · exact ⟨rfl, hrows⟩

omit [PasswordRules] in
/-- Users are only added. -/
theorem wp_provisionUser {accounts : Accounts} {email : EmailAddress} {passwordHash : String}
    {params : LoginRegisterParams} {termsAcceptedAt : Option DateTime} {pendingSetup : Option PendingSetup}
    {plan : Option BillingPlan} :
    wp (AuthService.provisionUser email passwordHash params termsAcceptedAt pendingSetup plan)
      (fun user t => user.base.pendingEmail = none ∧ user.base.emailVerified = false ∧
        user.base.emailVerificationToken = none ∧ t.users.rows = accounts.users.rows ++ [user.row])
      (fun _ t => t.users = accounts.users ∨ ∃ user : User, user.base.pendingEmail = none ∧
        user.base.emailVerified = false ∧ user.base.emailVerificationToken = none ∧
        t.users.rows = accounts.users.rows ++ [user.row])
      accounts := by
  have hcreate (t : Accounts) (ht : t.users = accounts.users) (organizationId : Uuid)
    (permissions : UserOrgPermissions) :
      wp (UserService.create (UserBase.newPassword email passwordHash organizationId permissions params.networkIds
          termsAcceptedAt))
        (fun user t => user.base.pendingEmail = none ∧ user.base.emailVerified = false ∧
          user.base.emailVerificationToken = none ∧ t.users.rows = accounts.users.rows ++ [user.row])
        (fun _ t => t.users = accounts.users ∨ ∃ user : User, user.base.pendingEmail = none ∧
          user.base.emailVerified = false ∧ user.base.emailVerificationToken = none ∧
          t.users.rows = accounts.users.rows ++ [user.row]) t := by
    refine wp_create.mono (fun user u ⟨hbase, hrows⟩ => ?_) fun _ u hu => ?_
    · rw [hbase, hrows, ht]
      exact ⟨rfl, rfl, rfl, rfl⟩
    · rcases hu with hu | ⟨user, hbase, hrows⟩
      · exact .inl (hu.trans ht)
      · refine .inr ⟨user, ?_⟩
        rw [hbase, hrows, ht]
        exact ⟨rfl, rfl, rfl, rfl⟩
  unfold AuthService.provisionUser
  cases params.orgId with
  | some orgId =>
    simp only [Program.wp_bind, Program.wp_pure]
    exact hcreate accounts rfl _ _
  | none =>
    simp only [OrganizationService.create, Program.wp_bind, Program.wp_pure, Program.wp_get, AccountStore.wp_newV4,
      wp_runStatement, Program.wp_set]
    exact ⟨fun organizations _ => hcreate { accounts with organizations, drawn := accounts.drawn.tail } rfl _ _,
      fun _ _ => .inl trivial⟩

omit [PasswordRules] in
/-- A user is added that is yet to verify the address. -/
theorem Inv.insert (h : Inv presented s) {accounts : Accounts} (hpending : user.base.pendingEmail = none)
    (hverified : user.base.emailVerified = false) (htoken : user.base.emailVerificationToken = none)
    (hrows : accounts.users.rows = s.accounts.users.rows ++ [user.row]) : Inv presented { s with accounts } where
  emailService := h.emailService
  sound u hu := by
    dsimp only at hu
    rw [hrows, List.mem_append, List.mem_singleton] at hu
    rcases hu with hu | rfl
    · exact h.sound u hu
    · exact sound_new hpending htoken hverified

theorem stays_register (h : Inv presented s) {request : RegisterRequest} {params : LoginRegisterParams}
    {pendingSetup : Option PendingSetup} {plan : Option BillingPlan} {salt : String} :
    Stays presented (AuthService.register request params pendingSetup plan salt) s := by
  unfold Stays AuthService.register
  split
  · exact h
  simp only [Program.wp_bind, AuthStore.wp_inAccounts]
  refine UserService.wp_getAll (fun users => ?_) fun _ => h
  simp only [Program.wp_ite, AuthStore.wp_fail, Program.wp_bind, AuthStore.wp_now, AuthStore.wp_checked,
    AuthStore.wp_inAccounts]
  refine ⟨fun _ => h, fun _ => ⟨fun passwordHash _ => ?_, fun _ _ => h⟩⟩
  refine wp_provisionUser.mono (fun user t hadds => ?_) fun e t ht => ?_
  · obtain ⟨hpending, hverified, htoken, hrows⟩ := hadds
    have hadded : Inv presented { s with accounts := t } := h.insert hpending hverified htoken hrows
    simp only [Program.wp_get]
    refine ⟨fun _ => ?_, fun hnone => absurd h.emailService hnone⟩
    rw [Program.wp_attempt]
    exact (stays_sendVerificationEmailInternal hadded hpending hverified).mono (fun _ _ ht => ht) fun _ _ ht => ht
  · rcases ht with ht | ⟨user, hpending, hverified, htoken, hrows⟩
    · exact h.of_users ht
    · exact h.insert hpending hverified htoken hrows

/-! ### Mails -/

omit [PasswordRules] in
/-- A pending address is read back. -/
theorem Sound.read (h : Sound mails presented user) : user.read.base.pendingEmail = user.base.pendingEmail := by
  change user.base.pendingEmail.filter (fun address => (EmailRules.invalid address).isNone) = user.base.pendingEmail
  cases hp : user.base.pendingEmail with
  | none => rfl
  | some address => rw [Option.filter_some, if_pos (Option.isNone_iff_eq_none.mpr (h.pending address hp).2)]

omit [PasswordRules] in
theorem stays_resendVerificationEmail (h : Inv presented s) {email : EmailAddress} :
    Stays presented (AuthService.resendVerificationEmail email) s := by
  unfold Stays AuthService.resendVerificationEmail
  simp only [Program.wp_bind, Program.wp_get]
  split
  · exact h
  simp only [Program.wp_bind, AuthStore.wp_inAccounts, UserService.wp_getOne]
  refine ⟨fun _ => h, fun row hrow => ⟨fun _ => ?_, fun _ _ => h⟩⟩
  have hsound := h.sound row (List.mem_of_find?_eq_some hrow)
  simp only [Program.wp_ite, AuthStore.wp_fail, Program.wp_bind, Bool.not_eq_true]
  refine ⟨fun _ => h, fun hunverified => ?_⟩
  have hpending : row.read.base.pendingEmail = none := by
    rw [hsound.read, Option.eq_none_iff_forall_ne_some]
    intro address haddress
    have hverified := (hsound.pending address haddress).1
    rw [show row.base.emailVerified = row.read.base.emailVerified from rfl, hunverified] at hverified
    cases hverified
  refine (stays_sendVerificationEmailInternal h hpending hunverified).mono (fun _ t ht => ?_) fun _ _ ht => ht
  exact ⟨ht.emailService, ht.sound⟩

omit [PasswordRules] in
/-- Whoever asks with a session is a stored user. -/
theorem wp_session {accounts : Accounts} {userId : Uuid} {Q : AuthenticatedEntity → Accounts → Prop}
    {E : ApiError → Accounts → Prop} (hE : ∀ e, E e accounts)
    (hQ : ∀ row networkIds, accounts.users.get userId = some row →
      Q (.user row.id row.base.organizationId row.base.permissions networkIds row.base.emailVerified) accounts) :
    wp (UserHandlers.session userId) Q E accounts := by
  simp only [UserHandlers.session, Program.wp_bind, Program.wp_mapError, UserService.wp_getById]
  exact ⟨fun _ => hE _, fun row hrow => ⟨fun _ => hQ row _ hrow, fun _ _ => hE _⟩⟩

omit [EmailRules] [PasswordRules] in
/-- A user is let in who is verified. -/
theorem verified_of_authorized {userId organizationId : Uuid} {permissions : UserOrgPermissions}
    {networkIds : List Uuid}
    {verified : Bool} (h : PermissionRequirement.isUser.authorized
      (.user userId organizationId permissions networkIds verified) = none) : verified = true := by
  cases verified with
  | true => rfl
  | false => cases h

theorem stays_requestEmailChange (h : Inv presented s) {userId : Uuid} {currentPassword : Option String}
    {newEmail : EmailAddress} (hvalid : EmailRules.invalid newEmail = none) :
    Stays presented (AuthHandlers.requestEmailChange userId currentPassword newEmail) s := by
  unfold Stays AuthHandlers.requestEmailChange AuthService.requestEmailChange AuthService.emailChangeRow
  simp only [Program.wp_bind, AuthStore.wp_inAccounts]
  refine wp_session (fun _ => h) fun row networkIds hrow => ?_
  obtain ⟨hstored, hid⟩ := Table.get_eq_some.mp hrow
  have hsound := h.sound row hstored
  simp only [wp_authorize, AuthStore.wp_requireEmailService, UserService.wp_getById, AuthStore.wp_fail]
  refine ⟨fun hauthorized => ⟨fun _ => h, fun _ => ⟨fun _ => h, fun x hx => ⟨fun _ => ?_, fun _ _ => h⟩⟩⟩,
    fun _ _ => h⟩
  have hsame : row = x := Option.some.inj (hrow.symm.trans hx)
  subst hsame
  have hverified := verified_of_authorized hauthorized
  simp only [Program.wp_ite, AuthStore.wp_fail]
  refine ⟨fun _ => h, fun _ => ?_⟩
  split
  · exact h
  · exact h
  simp only [Program.wp_bind, AuthStore.wp_checked, Program.wp_ite, AuthStore.wp_fail, AuthStore.wp_inAccounts]
  refine ⟨fun _ _ => ⟨fun _ => h, fun _ => UserService.wp_getAll (fun existing => ?_) fun _ => h⟩, fun _ _ => h⟩
  simp only [AuthService.wp_newToken, AuthStore.wp_now, Program.wp_pure]
  refine ⟨fun _ => h, fun _ => ?_⟩
  have hdrawn : Inv presented { s with accounts.drawn := s.accounts.drawn.tail } := h.of_users rfl
  refine AuthService.wp_write (fun _ => hdrawn) ?_
  have hchanged (token : String) (expires : DateTime) :
      Sound ({ userId := row.id, address := newEmail, token } :: s.mails) presented
        (User.row { row.read.withVerification token expires with base.pendingEmail := some newEmail }) := by
    refine ⟨fun address ha => ?_, fun token' ht => ?_, fun _ => ?_⟩
    · cases ha
      exact ⟨hverified, hvalid⟩
    · cases ht
      exact List.mem_cons_self
    · exact (hsound.mono (List.subset_cons_self _ _) (List.Subset.refl _)).verified hverified
  exact AuthStore.wp_send h.emailService (hdrawn.update_send (hchanged _ _)) fun _ =>
    hdrawn.update_send (hchanged _ _)

/-! ### Presenting a token -/

omit [PasswordRules] in
theorem stays_verifyEmail (h : Inv presented s) (token : String) :
    Stays (token :: presented) (AuthService.verifyEmail token) s := by
  have hpresented : Inv (token :: presented) s :=
    ⟨h.emailService, fun user hu => (h.sound user hu).mono (List.Subset.refl _) (List.subset_cons_self _ _)⟩
  unfold Stays AuthService.verifyEmail AuthService.verifyEmailRow
  simp only [Program.wp_bind, AuthStore.wp_inAccounts, UserService.wp_getOne, AuthStore.wp_fail]
  refine ⟨fun _ => hpresented, fun row hrow => ⟨fun _ => ?_, fun _ _ => hpresented⟩⟩
  have hsound := h.sound row (List.mem_of_find?_eq_some hrow)
  have htoken : row.base.emailVerificationToken = some token := by simpa using List.find?_some hrow
  split
  · exact hpresented
  simp only [Program.wp_bind, AuthStore.wp_now, Program.wp_ite, AuthStore.wp_fail, Program.wp_pure]
  refine ⟨fun _ => hpresented, fun _ => AuthService.wp_write (fun _ => hpresented) (hpresented.update ?_)⟩
  refine ⟨fun _ ha => (by cases ha), fun _ ht => (by cases ht), fun _ => ?_⟩
  refine ⟨_, hsound.token token htoken, rfl, ?_, List.mem_cons_self⟩
  rw [← hsound.read]
  rfl

/-! ### Updates -/

omit [PasswordRules] in
/-- An update keeps the address and drops what is pending. -/
theorem sound_written {existing body : User} (hid : body.id = existing.id)
    (hverified : body.base.emailVerified = true →
      ∃ mail ∈ mails, mail.userId = existing.id ∧ mail.address = existing.base.email ∧ mail.token ∈ presented) :
    Sound mails presented (UserHandlers.written existing body) := by
  refine ⟨fun _ ha => (by cases ha), fun _ ht => (by cases ht), fun hv => ?_⟩
  obtain ⟨mail, hmail, huser, haddress, hpresented⟩ := hverified hv
  exact ⟨mail, hmail, huser.trans hid.symm, haddress, hpresented⟩

omit [PasswordRules] in
theorem stays_updateUser (h : Inv presented s) {userId id : Uuid} {body : User} :
    Stays presented (do
      let entity ← AuthStore.inAccounts (UserHandlers.session userId)
      let _ ← AuthStore.inAccounts (UserHandlers.updateUser entity id body)) s := by
  simp only [Stays, Program.wp_bind, AuthStore.wp_inAccounts]
  refine wp_session (fun _ => h) fun row networkIds hrow => ?_
  refine UserHandlers.wp_updateUser (fun _ _ => h) fun existing haccepted _ => ?_
  have hself : row.id = id := Option.some.inj haccepted.self
  have hsame : existing = row := by
    have hfound := haccepted.found
    rw [← hself, (Table.get_eq_some.mp hrow).2, hrow] at hfound
    exact (Option.some.inj hfound).symm
  subst hsame
  refine h.update (sound_written (haccepted.own.trans hself.symm) fun _ => ?_)
  exact (h.sound existing (Table.get_eq_some.mp hrow).1).verified (verified_of_authorized haccepted.authorized)

open UserHandlers (AdminAccepted) in
omit [PasswordRules] in
theorem stays_adminUpdateUser (h : Inv presented s) {entity : AuthenticatedEntity} {id : Uuid} {body : User}
    (hmarks : ∀ existing, AdminAccepted s.accounts entity id existing body → body.base.emailVerified = true →
      existing.base.emailVerified = true ∨
        ∃ mail ∈ s.mails, mail.userId = existing.id ∧ mail.address = existing.base.email ∧ mail.token ∈ presented) :
    Stays presented (do let _ ← AuthStore.inAccounts (UserHandlers.adminUpdateUser entity id body)) s := by
  simp only [Stays, Program.wp_bind, AuthStore.wp_inAccounts]
  refine UserHandlers.wp_adminUpdateUser (fun _ _ => h) fun existing haccepted => ?_
  obtain ⟨hstored, hid⟩ := Table.get_eq_some.mp haccepted.found
  have hwritten : Inv presented
      { s with accounts.users := s.accounts.users.update (UserHandlers.written existing body) } := by
    refine h.update (sound_written (haccepted.own.trans hid.symm) fun hbody => ?_)
    rcases hmarks existing haccepted hbody with hverified | hproven
    · exact (h.sound existing hstored).verified hverified
    · exact hproven
  exact ⟨fun _ _ _ => hwritten.of_users rfl, fun _ _ _ => hwritten⟩

/-! ### One request -/

omit [PasswordRules] in
open UserHandlers (AdminAccepted) in
/-- An accepted update of an admin leaves a row with the mark of the request, and mails nothing. -/
theorem after_adminUpdateUser {entity : AuthenticatedEntity} {id : Uuid} {existing body : User}
    (haccepted : AdminAccepted s.accounts entity id existing body) :
    UserHandlers.written existing body ∈
        (after (do let _ ← AuthStore.inAccounts (UserHandlers.adminUpdateUser entity id body))
          s).accounts.users.rows ∧
      (after (do let _ ← AuthStore.inAccounts (UserHandlers.adminUpdateUser entity id body)) s).mails = s.mails := by
  refine (Program.wp_after (P := fun t : AuthState =>
    UserHandlers.written existing body ∈ t.accounts.users.rows ∧ t.mails = s.mails)).mp ?_
  simp only [Program.wp_bind, AuthStore.wp_inAccounts]
  refine UserHandlers.wp_adminUpdateUser (fun _ hnone => absurd haccepted (hnone existing)) fun x hx => ?_
  have hsame : x = existing := Option.some.inj (hx.found.symm.trans haccepted.found)
  subst hsame
  obtain ⟨hstored, hid⟩ := Table.get_eq_some.mp haccepted.found
  have hmem : UserHandlers.written x body ∈ (s.accounts.users.update (UserHandlers.written x body)).rows :=
    Table.mem_update.mpr (.inl ⟨rfl, x, hstored, hid.trans haccepted.own.symm⟩)
  exact ⟨fun _ _ _ => ⟨hmem, rfl⟩, fun _ _ _ => ⟨hmem, trivial⟩⟩

/-- A request keeps the invariant, unless an admin marks an address that nobody proved. -/
theorem Inv.step {a : Action} {c d : State} (h : Inv c.presented c.auth) (hmarks : MarksProven c a)
    (hstep : step c a = some d) : Inv d.presented d.auth := by
  have hstays {p : AuthStore Unit} {presented : List String} (hp : Stays presented p c.auth) :
      Inv presented (after p c.auth) := Program.wp_after.mp hp
  have hignored {α : Type} {p : AuthStore α} {presented : List String} (hp : Stays presented p c.auth) :
      Stays presented (do let _ ← p) c.auth := by
    simp only [Stays, Program.wp_bind, Program.wp_pure]
    exact hp
  simp only [Verification.step] at hstep
  split at hstep
  case isFalse => cases hstep
  next hparses =>
  cases hstep
  cases a with
  | tick elapsed => exact h.of_users rfl
  | other accounts => exact h.of_users rfl
  | register request params pendingSetup plan salt => exact hstays (hignored (stays_register h))
  | resendVerificationEmail email => exact hstays (stays_resendVerificationEmail h)
  | requestEmailChange userId currentPassword newEmail =>
    exact hstays (stays_requestEmailChange h (Option.isNone_iff_eq_none.mp hparses))
  | verifyEmail token => exact hstays (hignored (stays_verifyEmail h token))
  | updateUser userId id body => exact hstays (stays_updateUser h)
  | adminUpdateUser entity id body => exact hstays (stays_adminUpdateUser h hmarks)

omit [PasswordRules] in
theorem inv_start {emailService : EmailService} : Inv (start emailService).presented (start emailService).auth where
  emailService := rfl
  sound := List.forall_mem_nil _

omit [PasswordRules] in
theorem verifiedProven_of_inv {c : State} (h : Inv c.presented c.auth) : VerifiedProven c := fun user hu hv =>
  (h.sound user hu).verified hv

/-- An admin who marks an address that nobody proved leaves it marked. -/
theorem marksProven_of_verifiedProven {a : Action} {c d : State} (hstep : step c a = some d)
    (hproven : VerifiedProven d) : MarksProven c a := by
  cases a with
  | adminUpdateUser entity id body =>
    intro existing haccepted hbody
    simp only [step, Action.parses, if_true, Option.some.injEq] at hstep
    subst hstep
    obtain ⟨hmem, hmails⟩ := after_adminUpdateUser haccepted
    obtain ⟨mail, hmail, huser, haddress, hpresented⟩ := hproven _ hmem hbody
    have hid : body.id = existing.id := haccepted.own.trans (Table.get_eq_some.mp haccepted.found).2.symm
    exact .inr ⟨mail, hmails ▸ hmail, huser.trans hid, haddress, hpresented⟩
  | _ => trivial

/-- **In every run on an empty server with an email service, every verified
address was proven, exactly when no admin's update that is accepted marks a
user as verified who is not and has not proven the address.** -/
theorem verified_iff_marksProven (emailService : EmailService) (as : List Action) :
    Visits step VerifiedProven (start emailService) as ↔ Along step MarksProven (start emailService) as :=
  Transition.visits_iff_along (I := fun c => Inv c.presented c.auth) (fun _ _ _ hI hok hstep => hI.step hok hstep)
    (fun _ => verifiedProven_of_inv) (fun _ _ _ _ => marksProven_of_verifiedProven) inv_start

/-- The owner, who verified an address, and a member of the organization who
did not; the owner's update of the member says that the address is verified. -/
def markedByOwner : List Action :=
  [.other { drawn := [1, 2, 3, 4, 5] },
    .register { email := "owner@example.com", password := "secret" } {} none none "",
    .verifyEmail "00000000-0000-0000-0000-000000000003",
    .register { email := "member@example.com", password := "secret" } { orgId := some 1 } none none "",
    .adminUpdateUser (.user 2 1 .owner [] true) 4
      { id := 4, createdAt := 0, updatedAt := 0
        base := { email := "member@example.com", organizationId := 1, emailVerified := true } }]

omit [EmailRules] [PasswordRules] in
theorem member_marked_unproven :
    ¬ @Visits _ _ (@step ⟨fun _ => none, id⟩ ⟨fun _ password => .ok password, fun _ _ => .ok (), fun _ => none⟩)
      VerifiedProven (start {}) markedByOwner := by
  decide +kernel

end Verification

end Netvisor
