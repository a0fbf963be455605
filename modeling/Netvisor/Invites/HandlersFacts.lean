/-
What the statements of a request do to users and invites, and that a request
makes someone a member by an invite at most once.
-/
import Netvisor.Auth.AccountsFacts
import Netvisor.Invites.Handlers

namespace Netvisor

open Program (after wp)

namespace InviteTables

@[simp] theorem wp_onAccounts {α : Type} {p : AccountStore α} {s : InviteTables} {Q : α → InviteTables → Prop}
    {E : Refusal → InviteTables → Prop} : wp (onAccounts p) Q E s ↔
      wp p (fun a accounts => Q a { s with accounts }) (fun e accounts => E (.failed e.message) { s with accounts })
        s.accounts := by
  simp only [wp, onAccounts]
  cases p s.accounts <;> exact Iff.rfl

end InviteTables

namespace InviteStatement

/-- The statement makes someone a member by an invite. -/
def Joins : InviteStatement → Prop
  | insertUser (some _) _ | updateUser (some _) _ => True
  | _ => False

/-- What a statement of the request with the number does. -/
def Effect [Deployment] [EmailRules] (n : Nat) : InviteStatement → InviteTables → InviteTables → Prop
  | other, s, t =>
    t.accounts.users = s.accounts.users ∧ t.accounts.now = s.accounts.now ∧ t.invites = s.invites ∧
      t.history = s.history
  | create invite, s, t =>
    (Deployment.config invite.base.organizationId).canInviteUsers = true ∧
    t = after (InviteTables.insertInvite invite) s
  | use request id, s, t => request = n ∧ t = after (InviteTables.deleteUsed request id) s
  | revoke ids, s, t => t = after (InviteTables.deleteInvites ids) s
  | insertUser admission user, s, t =>
    (∀ a, admission = some a → a.request = n) ∧ t = after (InviteTables.insertUser admission user) s
  | updateUser admission user, s, t =>
    (∀ a, admission = some a → a.request = n) ∧ t = after (InviteTables.updateUser admission user) s

end InviteStatement

namespace InviteProcess

open InviteStatement (Effect Joins)
open InviteTables (onAccounts wp_onAccounts)
open Process (Does Avoids AtMostOnce attempt statement query)

variable [Deployment] [EmailRules] {α β : Type} {n : Nat} {p : InviteProcess α} {f : α → InviteProcess β}

/-- The statements are those of request `n`, and none makes anyone a member by an invite. -/
def Quiet (n : Nat) (p : InviteProcess α) : Prop := Does (fun label s t => Effect n label s t ∧ ¬ Joins label) p

/-- The statements are those of request `n`, and at most one makes someone a member by an invite. -/
structure Once (n : Nat) (p : InviteProcess α) : Prop where
  does : Does (Effect n) p
  once : AtMostOnce Joins p

theorem Quiet.once (h : Quiet n p) : Once n p where
  does := h.mono fun _ _ _ h => h.1
  once := Avoids.atMostOnce (h.mono fun _ _ _ h => h.2)

theorem Quiet.bind (h : Quiet n p) (hf : ∀ a, Quiet n (f a)) : Quiet n (p >>= f) := Does.bind h hf

theorem Quiet.attempt (h : Quiet n p) : Quiet n (attempt p) := Does.attempt h

theorem Quiet.bind_once (h : Quiet n p) (hf : ∀ a, Once n (f a)) : Once n (p >>= f) where
  does := h.once.does.bind fun a => (hf a).does
  once := Avoids.bind_atMostOnce (h.mono fun _ _ _ h => h.2) fun a => (hf a).once

theorem Once.bind (h : Once n p) (hf : ∀ a, Quiet n (f a)) : Once n (p >>= f) where
  does := h.does.bind fun a => (hf a).once.does
  once := h.once.bind fun a => (hf a).mono fun _ _ _ h => h.2

theorem Once.attempt (h : Once n p) : Once n (attempt p) where
  does := h.does.attempt
  once := h.once.attempt

theorem quiet_pure (a : α) : Quiet n (pure a : InviteProcess α) := trivial

theorem quiet_fail (e : Refusal) : Quiet n (Process.fail e : InviteProcess α) := trivial

theorem once_fail (e : Refusal) : Once n (Process.fail e : InviteProcess α) := ⟨trivial, trivial⟩

/-! ## Statements -/

theorem quiet_query {g : InviteTables → α} : Quiet n (query .other g) :=
  Process.does_query fun _ => ⟨⟨rfl, rfl, rfl, rfl⟩, id⟩

/-- A statement against the accounts that leaves the users and the time alone. -/
theorem quiet_onAccounts {q : AccountStore α}
    (h : ∀ s, wp q (fun _ t => t.users = s.users ∧ t.now = s.now) (fun _ t => t.users = s.users ∧ t.now = s.now) s) :
    Quiet n (statement .other (onAccounts q)) := by
  refine Process.does_statement fun s => ⟨?_, id⟩
  refine (Program.wp_after (P := Effect n .other s)).mp ?_
  rw [wp_onAccounts]
  exact (h s.accounts).mono (fun _ _ ht => ⟨ht.1, ht.2, rfl, rfl⟩) fun _ _ ht => ⟨ht.1, ht.2, rfl, rfl⟩

theorem quiet_getUserById {id : Uuid} : Quiet n (getUserById id) :=
  quiet_onAccounts fun _ =>
    UserService.wp_getById.mpr ⟨fun _ => ⟨rfl, rfl⟩, fun _ _ => ⟨fun _ => ⟨rfl, rfl⟩, fun _ _ => ⟨rfl, rfl⟩⟩⟩

theorem quiet_getOne {q : User → Bool} : Quiet n (statement .other (onAccounts (UserService.getOne q))) :=
  quiet_onAccounts fun _ =>
    UserService.wp_getOne.mpr ⟨fun _ => ⟨rfl, rfl⟩, fun _ _ => ⟨fun _ => ⟨rfl, rfl⟩, fun _ _ => ⟨rfl, rfl⟩⟩⟩

theorem quiet_getUsers {q : User → Bool} : Quiet n (getUsers q) :=
  quiet_onAccounts fun _ => UserService.wp_getAll (fun _ => ⟨rfl, rfl⟩) fun _ => ⟨rfl, rfl⟩

theorem quiet_newV4 : Quiet n newV4 := quiet_onAccounts fun _ => ⟨rfl, rfl⟩

theorem quiet_now : Quiet n now := quiet_query

theorem quiet_setNetworkIds {id : Uuid} {networkIds : List Uuid} :
    Quiet n (statement .other (onAccounts (UserService.setNetworkIds id networkIds))) := by
  refine quiet_onAccounts fun s => ?_
  simp only [UserService.setNetworkIds, Program.wp_bind, Program.wp_get, wp_runStatement, Program.wp_set]
  exact ⟨fun _ _ => ⟨trivial, trivial⟩, fun _ _ => ⟨trivial, trivial⟩⟩

theorem quiet_createOrganization {name : String} {plan : Option BillingPlan} :
    Quiet n (statement .other (onAccounts (OrganizationService.create name plan))) := by
  refine quiet_onAccounts fun s => ?_
  simp only [OrganizationService.create, Program.wp_bind, AccountStore.wp_newV4, Program.wp_get, wp_runStatement,
    Program.wp_set, Program.wp_pure]
  exact ⟨fun _ _ => ⟨trivial, trivial⟩, fun _ _ => ⟨trivial, trivial⟩⟩

theorem quiet_saveSession {browser : Uuid} {session : Session} : Quiet n (saveSession browser session) :=
  Process.does_statement fun _ => ⟨⟨rfl, rfl, rfl, rfl⟩, id⟩

theorem quiet_internally (h : Quiet n p) : Quiet n (internally p) := by
  refine h.attempt.bind fun r => ?_
  split <;> trivial

theorem once_internally (h : Once n p) : Once n (internally p) := by
  refine h.attempt.bind fun r => ?_
  split <;> trivial

theorem quiet_authorized {q : PermissionRequirement} {entity : AuthenticatedEntity} :
    Quiet n (authorized q entity) := by
  unfold authorized
  split <;> trivial

theorem once_insertUser {admission : Option Admission} {user : User} (h : ∀ a, admission = some a → a.request = n) :
    Once n (statement (.insertUser admission user) (InviteTables.insertUser admission user)) :=
  ⟨Process.does_statement fun _ => ⟨h, rfl⟩, Process.atMostOnce_statement⟩

theorem once_updateUser {admission : Option Admission} {user : User} (h : ∀ a, admission = some a → a.request = n) :
    Once n (statement (.updateUser admission user) (InviteTables.updateUser admission user)) :=
  ⟨Process.does_statement fun _ => ⟨h, rfl⟩, Process.atMostOnce_statement⟩

/-! ## Services -/

theorem once_createUser {admission : Option Admission} {base : UserBase}
    (h : ∀ a, admission = some a → a.request = n) :
    Once n (createUser admission base) := by
  refine quiet_newV4.bind_once fun id => quiet_now.bind_once fun createdAt => quiet_now.bind_once fun updatedAt => ?_
  refine quiet_getOne.bind_once fun existing => ?_
  cases existing with
  | some user => exact once_fail _
  | none =>
    refine (once_insertUser h).bind fun _ => ?_
    split
    · exact quiet_pure _
    · exact quiet_setNetworkIds.bind fun _ => quiet_pure _

theorem once_update {admission : Option Admission} {user : User} (h : ∀ a, admission = some a → a.request = n) :
    Once n (update admission user) := by
  refine quiet_getUserById.bind_once fun stored => ?_
  cases stored with
  | none => exact once_fail _
  | some stored => exact (once_updateUser h).bind fun _ => quiet_pure _

theorem quiet_getValidInvite {id : Uuid} : Quiet n (getValidInvite id) := by
  refine quiet_query.bind fun read => ?_
  split
  · exact quiet_fail _
  · split <;> trivial

theorem quiet_useInvite {id : Uuid} : Quiet n (useInvite n id) := by
  refine quiet_query.bind fun read => ?_
  split
  · exact quiet_fail _
  · split
    · exact Quiet.bind (Process.does_statement fun _ => ⟨⟨rfl, rfl⟩, fun h => h⟩) fun _ => quiet_pure _
    · exact quiet_fail _

theorem quiet_deleteInvites {ids : List Uuid} :
    Quiet n (statement (.revoke ids) (InviteTables.deleteInvites ids)) :=
  Process.does_statement fun _ => ⟨rfl, id⟩

theorem quiet_deleteInvite {id : Uuid} : Quiet n (deleteInvite id) := by
  refine quiet_query.bind fun read => ?_
  split
  · exact quiet_fail _
  · exact quiet_deleteInvites

theorem quiet_deleteAll {q : DateTime → Invite → Bool} : Quiet n (deleteAll q) := by
  refine quiet_query.bind fun ids => ?_
  split
  · exact quiet_pure _
  · exact quiet_deleteInvites

/-! ## Endpoints -/

theorem quiet_usersOrNone {q : User → Bool} : Quiet n (usersOrNone q) := by
  refine quiet_getUsers.attempt.bind fun users => ?_
  cases users <;> trivial

theorem quiet_checkSeats {plan : PlanConfig} {organizationId : Uuid} : Quiet n (checkSeats plan organizationId) := by
  unfold checkSeats
  split
  · refine quiet_usersOrNone.bind fun users => quiet_query.bind fun pendingInvites => ?_
    dsimp only
    split <;> trivial
  · exact quiet_pure _

theorem quiet_checkSendTo {sendTo : Option EmailAddress} : Quiet n (checkSendTo sendTo) := by
  cases sendTo with
  | none => exact quiet_pure _
  | some sendTo =>
    refine quiet_usersOrNone.bind fun users => ?_
    split <;> trivial

/-- The plan that is given on includes inviting users. -/
theorem quiet_requireInviteUsers {entity : AuthenticatedEntity} {f : PlanConfig → InviteProcess β}
    (hf : ∀ organizationId, entity.organizationId = some organizationId →
      (Deployment.config organizationId).canInviteUsers = true → Quiet n (f (Deployment.config organizationId))) :
    Quiet n (requireInviteUsers entity >>= f) := by
  unfold requireInviteUsers
  rw [bind_assoc]
  refine quiet_authorized.bind fun _ => ?_
  split
  · exact quiet_fail _
  · exact quiet_fail _
  next organizationId _ horganization =>
  rw [bind_assoc]
  refine quiet_query.bind fun organization => ?_
  split
  · exact quiet_fail _
  · dsimp only
    split
    · next hplan => exact hf organizationId horganization hplan
    · exact quiet_fail _

theorem quiet_createInvite {entity : AuthenticatedEntity} {request : CreateInviteRequest} :
    Quiet n (createInvite entity request) := by
  refine quiet_authorized.bind fun _ => quiet_requireInviteUsers fun organizationId horganization hplan => ?_
  rw [horganization]
  cases entity.userId with
  | none => exact quiet_fail _
  | some userId =>
  cases entity.permissions with
  | none => exact quiet_fail _
  | some permissions =>
  dsimp only
  split
  · exact quiet_fail _
  · split
    · exact quiet_fail _
    · refine quiet_checkSeats.bind fun _ => quiet_checkSendTo.bind fun _ => quiet_newV4.bind fun id => ?_
      refine quiet_now.bind fun now => Quiet.bind (quiet_internally ?_) fun _ => quiet_pure _
      exact Process.does_statement fun _ => ⟨⟨hplan, rfl⟩, fun h => h⟩

theorem quiet_revokeInvite {entity : AuthenticatedEntity} {id : Uuid} : Quiet n (revokeInvite entity id) := by
  refine quiet_authorized.bind fun _ => ?_
  split
  · exact quiet_fail _
  · exact quiet_fail _
  · exact quiet_fail _
  · refine Quiet.bind ?_ fun invite => ?_
    · refine quiet_getValidInvite.attempt.bind fun r => ?_
      split <;> trivial
    · split
      · exact quiet_fail _
      · split
        · exact quiet_fail _
        · exact quiet_internally quiet_deleteInvite

theorem quiet_refuse {browser : Uuid} {session : Session} {location : Redirect} :
    Quiet n (refuse browser session location : InviteProcess α) :=
  quiet_saveSession.bind fun _ => quiet_fail _

/-- What is pending is completed under the number of the request. -/
theorem once_processPendingInvite {session : Session} {f : Option PendingInvite × Session → InviteProcess β}
    (hf : ∀ p session, (∀ p', p = some p' → p'.admission.request = n) → Once n (f (p, session))) :
    Once n (processPendingInvite n session >>= f) := by
  unfold processPendingInvite
  split
  · rw [bind_assoc]
    refine quiet_useInvite.attempt.bind_once fun _ => hf _ _ fun p' hp' => ?_
    cases hp'
    rfl
  · exact hf _ _ fun p' hp' => (by cases hp')

theorem once_acceptWithoutAccount {browser userId : Uuid} {session : Session} :
    Once n (acceptWithoutAccount n browser session userId) := by
  refine once_processPendingInvite fun p session hp => ?_
  cases p with
  | none => exact (quiet_saveSession.bind fun _ => quiet_pure _).once
  | some p =>
    refine quiet_getUserById.attempt.bind_once fun user => ?_
    split
    · exact quiet_refuse.once
    · exact quiet_refuse.once
    · refine (once_update fun a ha => ?_).attempt.bind fun r => ?_
      · cases ha
        exact hp p rfl
      · split
        · exact quiet_refuse
        · exact quiet_saveSession.bind fun _ => quiet_pure _

theorem once_acceptInviteLink {browser id : Uuid} : Once n (acceptInviteLink n browser id) := by
  refine quiet_getValidInvite.attempt.bind_once fun invite => ?_
  cases invite with
  | error e => exact once_fail _
  | ok invite =>
    refine quiet_query.bind_once fun organization => quiet_getUserById.attempt.bind_once fun inviter => ?_
    refine quiet_query.bind_once fun session => ?_
    dsimp only
    split
    · refine quiet_getUserById.attempt.bind_once fun user => ?_
      split
      · exact (quiet_deleteInvite.attempt.bind fun _ => quiet_refuse).once
      · exact once_acceptWithoutAccount
    · exact (quiet_saveSession.bind fun _ => quiet_pure _).once

theorem once_provisionUser {pendingInvite : Option PendingInvite} {pendingSetup : Option PendingSetup}
    {base : Uuid → UserOrgPermissions → List Uuid → UserBase}
    (h : ∀ p, pendingInvite = some p → p.admission.request = n) :
    Once n (provisionUser pendingInvite pendingSetup base) := by
  unfold provisionUser
  split
  · next p =>
    refine once_createUser fun a ha => ?_
    cases ha
    exact h p rfl
  · exact quiet_createOrganization.bind_once fun _ => once_createUser fun a ha => (by cases ha)

theorem once_registerUser [PasswordRules] {registration : Registration} {pendingInvite : Option PendingInvite}
    {pendingSetup : Option PendingSetup} (h : ∀ p, pendingInvite = some p → p.admission.request = n) :
    Once n (registerUser registration pendingInvite pendingSetup) := by
  unfold registerUser
  dsimp only
  split
  · exact once_fail _
  · refine quiet_getUsers.bind_once fun users => ?_
    split
    · exact once_fail _
    · refine quiet_now.bind_once fun now => ?_
      split
      · exact once_fail _
      · exact once_provisionUser h

theorem once_register [PasswordRules] {browser : Uuid} {registration : Registration} :
    Once n (register n browser registration) := by
  unfold register
  split
  · exact once_fail _
  · refine (quiet_internally quiet_getUsers).bind_once fun existing => ?_
    split
    · exact once_fail _
    · refine quiet_query.bind_once fun session => once_processPendingInvite fun p session hp => ?_
      exact (once_internally (once_registerUser hp)).bind fun _ => quiet_saveSession.bind fun _ => quiet_pure _

theorem once_registerOidcUser {oidc : OidcService} {pendingAuth : OidcPendingAuth} {params : OidcRegisterParams}
    {pendingInvite : Option PendingInvite} {pendingSetup : Option PendingSetup}
    (h : ∀ p, pendingInvite = some p → p.admission.request = n) :
    Once n (registerOidcUser oidc pendingAuth params pendingInvite pendingSetup) := by
  unfold registerOidcUser
  split
  · exact once_fail _
  · refine quiet_getOne.bind_once fun existing => ?_
    split
    · exact (quiet_pure _).once
    · split
      · exact once_fail _
      · dsimp only
        split
        · exact once_fail _
        · refine quiet_getUsers.bind_once fun users => ?_
          split
          · unfold autoLink
            split
            · exact once_fail _
            · exact quiet_now.bind_once fun _ => once_update fun a ha => (by cases ha)
          · exact quiet_now.bind_once fun _ => once_provisionUser h

theorem once_handleRegisterFlow {browser : Uuid} {oidc : OidcService} {pendingAuth : OidcPendingAuth}
    {params : OidcRegisterParams} : Once n (handleRegisterFlow n browser oidc pendingAuth params) := by
  refine quiet_query.bind_once fun session => once_processPendingInvite fun p session hp => ?_
  refine (once_registerOidcUser hp).attempt.bind fun r => ?_
  split
  · exact quiet_refuse
  · exact quiet_fail _
  · exact quiet_saveSession.bind fun _ => quiet_pure _

end InviteProcess

open InviteProcess in
/-- Every request issues statements of its own, and makes someone a member by an invite at most once. -/
theorem InviteRequest.once_process [Deployment] [EmailRules] [PasswordRules] {n : Nat} :
    ∀ r : InviteRequest, Once n (r.process n)
  | .create _ _ => (quiet_createInvite.bind fun _ => quiet_pure _).once
  | .revoke _ _ => quiet_revokeInvite.once
  | .revokeAll organizationId => Quiet.once (p := revokeOrgInvites organizationId) quiet_deleteAll
  | .cleanup => Quiet.once (p := cleanupExpired) quiet_deleteAll
  | .accept _ _ => once_acceptInviteLink.bind fun _ => quiet_pure _
  | .register _ _ => once_register.bind fun _ => quiet_pure _
  | .registerOidc _ _ _ _ => once_handleRegisterFlow.bind fun _ => quiet_pure _

end Netvisor
