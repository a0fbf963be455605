/-
What an update of a user may change: the record with the id of the path, apart
from the fields only the server sets, and for an admin the networks the user
may access.

The record of no other user changes. But an admin may update a user of any
organization, networks are given whoever they belong to, and of the fields only
the server sets some are taken from the request and some are cleared.
-/
import Netvisor.Users.HandlersFacts

namespace Netvisor

open Program (after wp)

/-- The fields of a user that only the server sets. -/
structure ServerFields where
  passwordHash : Option String
  oidcProvider : Option String
  oidcSubject : Option String
  oidcLinkedAt : Option DateTime
  termsAcceptedAt : Option DateTime
  emailVerified : Bool
  emailVerificationToken : Option String
  emailVerificationExpires : Option DateTime
  passwordResetToken : Option String
  passwordResetExpires : Option DateTime
  pendingEmail : Option EmailAddress
deriving DecidableEq, Repr

def User.serverFields (user : User) : ServerFields where
  passwordHash := user.base.passwordHash
  oidcProvider := user.base.oidcProvider
  oidcSubject := user.base.oidcSubject
  oidcLinkedAt := user.base.oidcLinkedAt
  termsAcceptedAt := user.base.termsAcceptedAt
  emailVerified := user.base.emailVerified
  emailVerificationToken := user.base.emailVerificationToken
  emailVerificationExpires := user.base.emailVerificationExpires
  passwordResetToken := user.base.passwordResetToken
  passwordResetExpires := user.base.passwordResetExpires
  pendingEmail := user.base.pendingEmail

inductive UserUpdate
  | own
  | admin
deriving DecidableEq, Repr

namespace UserUpdate

open UserHandlers

variable [EmailRules]

/-- The endpoint that answers the request. -/
def run : UserUpdate → AuthenticatedEntity → Uuid → User → AccountStore User
  | own => updateUser
  | admin => adminUpdateUser

/-- The caller may update this user with this request: users themselves, and an admin the users of
the organization with a level below the admin's that are given no other, except by an owner. -/
def Allows (update : UserUpdate) (entity : AuthenticatedEntity) (body user : User) : Prop :=
  match update with
  | own => entity.userId = some user.id
  | admin => entity.organizationId = some user.base.organizationId ∧ ∃ permissions,
      entity.permissions = some permissions ∧ user.base.permissions < permissions ∧
        (permissions = .owner ∨ body.base.permissions < permissions)

end UserUpdate

/-- From `s` to `t`, nothing but the user with the id changes, and that one only if it may. -/
structure Confined (allowed : User → Prop) (id : Uuid) (s t : Accounts) : Prop where
  frame : t = { s with users := t.users, userNetworkAccess := t.userNetworkAccess }
  others : ∀ x, x.id ≠ id → (x ∈ t.users.rows ↔ x ∈ s.users.rows)
  user : Option.Rel (fun x y => y.row = x.row ∨ (allowed x ∧ y.serverFields = x.serverFields))
    (s.users.get id) (t.users.get id)
  othersAccess : ∀ r, r.1 ≠ id → (r ∈ t.userNetworkAccess ↔ r ∈ s.userNetworkAccess)
  access : (∀ n, n ∈ t.givenTo id ↔ n ∈ s.givenTo id) ∨
    ∃ x, s.users.get id = some x ∧ allowed x ∧
      ∀ n ∈ t.givenTo id, n ∈ s.givenTo id ∨ n ∈ s.networksOf x.base.organizationId

namespace Confined

variable {allowed : User → Prop} {id : Uuid} {s : Accounts}

theorem refl : Confined allowed id s s where
  frame := rfl
  others _ _ := Iff.rfl
  user := by
    cases s.users.get id with
    | none => exact .none
    | some x => exact .some (.inl rfl)
  othersAccess _ _ := Iff.rfl
  access := .inl fun _ => Iff.rfl

end Confined

namespace UserUpdate

open UserHandlers

variable [EmailRules] {s : Accounts} {entity : AuthenticatedEntity} {existing body : User} {id : Uuid}

/-- The request says of the fields only the server sets what is stored, and those
that are not accepted from a client are not set. -/
structure Untouched (existing body : User) : Prop where
  termsAcceptedAt : body.base.termsAcceptedAt = existing.base.termsAcceptedAt
  emailVerified : body.base.emailVerified = existing.base.emailVerified
  emailVerificationToken : existing.base.emailVerificationToken = none
  emailVerificationExpires : existing.base.emailVerificationExpires = none
  passwordResetToken : existing.base.passwordResetToken = none
  passwordResetExpires : existing.base.passwordResetExpires = none
  pendingEmail : existing.base.pendingEmail = none

/-- The request says what is stored. -/
structure Repeats (existing body : User) : Prop extends Untouched existing body where
  createdAt : body.createdAt = existing.createdAt
  updatedAt : body.updatedAt = existing.updatedAt
  permissions : body.base.permissions = existing.base.permissions

/-- When an update is confined to the user it is for. -/
def Sound (s : Accounts) (entity : AuthenticatedEntity) (id : Uuid) (body : User) : UserUpdate → Prop
  | own => ∀ existing, OwnAccepted s entity id existing body → Untouched existing body
  | admin => ∀ existing, AdminAccepted s entity id existing body →
      (Repeats existing body ∨
        (entity.organizationId = some existing.base.organizationId ∧ Untouched existing body)) ∧
      (Grantable s body.base.networkIds →
        (∀ n, n ∈ body.base.networkIds ↔ n ∈ s.givenTo id) ∨
        (entity.organizationId = some existing.base.organizationId ∧
          ∀ n ∈ body.base.networkIds, n ∈ s.givenTo id ∨ n ∈ s.networksOf existing.base.organizationId))

/-! ## The row that is written -/

theorem serverFields_written_iff : (written existing body).serverFields = existing.serverFields ↔
    Untouched existing body := by
  simp only [User.serverFields, written, preserve, User.deserialize, User.row, User.read,
    ServerFields.mk.injEq, true_and, eq_comm (a := none)]
  exact ⟨fun ⟨h1, h2, h3, h4, h5, h6, h7⟩ => ⟨h1, h2, h3, h4, h5, h6, h7⟩,
    fun ⟨h1, h2, h3, h4, h5, h6, h7⟩ => ⟨h1, h2, h3, h4, h5, h6, h7⟩⟩

theorem row_written_iff (hid : body.id = existing.id)
    (horganization : body.base.organizationId = existing.base.organizationId) :
    (written existing body).row = existing.row ↔ Repeats existing body := by
  obtain ⟨eid, ecreated, eupdated, ebase⟩ := existing
  obtain ⟨bid, bcreated, bupdated, bbase⟩ := body
  simp only [written, preserve, User.deserialize, User.row, User.read, User.mk.injEq, UserBase.mk.injEq, true_and]
    at hid horganization ⊢
  constructor
  · rintro ⟨-, hcreated, hupdated, -, hpermissions, hterms, hverified, h1, h2, h3, h4, h5⟩
    exact ⟨⟨hterms, hverified, h1.symm, h2.symm, h3.symm, h4.symm, h5.symm⟩, hcreated, hupdated, hpermissions⟩
  · rintro ⟨⟨hterms, hverified, h1, h2, h3, h4, h5⟩, hcreated, hupdated, hpermissions⟩
    exact ⟨hid, hcreated, hupdated, horganization, hpermissions, hterms, hverified, h1.symm, h2.symm,
      h3.symm, h4.symm, h5.symm⟩

/-- After the row and the networks of the user are replaced. -/
theorem confined_written_iff {allowed : User → Prop} {rows : List (Uuid × Uuid)}
    (hget : s.users.get id = some existing)
    (hid : body.id = id) (horganization : body.base.organizationId = existing.base.organizationId)
    (hothers : ∀ r, r.1 ≠ id → (r ∈ rows ↔ r ∈ s.userNetworkAccess)) :
    Confined allowed id s { s with users := s.users.update (written existing body), userNetworkAccess := rows } ↔
      (Repeats existing body ∨ (allowed existing ∧ Untouched existing body)) ∧
      ((∀ n, (id, n) ∈ rows ↔ n ∈ s.givenTo id) ∨
        (allowed existing ∧ ∀ n, (id, n) ∈ rows →
          n ∈ s.givenTo id ∨ n ∈ s.networksOf existing.base.organizationId)) := by
  have hexisting := (Table.get_eq_some.mp hget).2
  have hwritten : (written existing body).id = id := hid
  have hnew := Table.get_update_self hget hwritten
  have hrow := row_written_iff (hid.trans hexisting.symm) horganization
  constructor
  · intro h
    have huser := h.user
    rw [hget, show _ = some (written existing body) from hnew] at huser
    obtain huser | huser := huser
    refine ⟨?_, ?_⟩
    · rwa [hrow, serverFields_written_iff] at huser
    · rcases h.access with haccess | ⟨x, hx, hallowed, haccess⟩
      · exact .inl fun n => Accounts.mem_givenTo.symm.trans (haccess n)
      · rw [hget] at hx
        cases hx
        exact .inr ⟨hallowed, fun n hn => haccess n (Accounts.mem_givenTo.mpr hn)⟩
  · rintro ⟨huser, haccess⟩
    refine ⟨rfl, fun x hx => Table.mem_update_of_ne (hwritten ▸ hx), ?_, hothers, ?_⟩
    · rw [hget, show _ = some (written existing body) from hnew]
      refine .some ?_
      rwa [hrow, serverFields_written_iff]
    · rcases haccess with haccess | ⟨hallowed, haccess⟩
      · exact .inl fun n => Accounts.mem_givenTo.trans (haccess n)
      · exact .inr ⟨existing, hget, hallowed, fun n hn => haccess n (Accounts.mem_givenTo.mp hn)⟩

/-! ## Both requests -/

theorem own_confined_iff : Confined (own.Allows entity body) id s (after (updateUser entity id body) s) ↔
    own.Sound s entity id body := by
  refine (Program.wp_after (P := fun t => Confined (own.Allows entity body) id s t)).symm.trans ?_
  refine Program.wp.iff (wp_updateUser (fun e hnone => ?_) fun existing h user => ?_)
  · exact iff_of_true .refl fun existing h => absurd h (hnone existing)
  have hallowed : own.Allows entity body existing := by
    rw [Allows, (Table.get_eq_some.mp h.found).2]
    exact h.self
  have hsound : own.Sound s entity id body ↔ Untouched existing body := by
    refine ⟨fun hsound => hsound existing h, fun huntouched x hx => ?_⟩
    have hfound := hx.found
    rw [h.found] at hfound
    cases hfound
    exact huntouched
  rw [hsound]
  refine (confined_written_iff h.found h.own h.organization fun _ _ => Iff.rfl).trans ⟨?_, fun huntouched => ?_⟩
  · rintro ⟨hrepeats | ⟨-, huntouched⟩, -⟩
    · exact hrepeats.toUntouched
    · exact huntouched
  · exact ⟨.inr ⟨hallowed, huntouched⟩, .inl fun n => Accounts.mem_givenTo.symm⟩

omit [EmailRules] in
/-- What is not denied leaves the organization and keeps to the levels below the admin's. -/
theorem of_not_denied {adminUserId : Uuid} {adminPermissions : UserOrgPermissions}
    (h : adminUpdateDenied adminUserId adminPermissions id existing body = false) :
    existing.base.permissions < adminPermissions ∧
      (adminPermissions = .owner ∨ body.base.permissions < adminPermissions) ∧
      body.base.organizationId = existing.base.organizationId := by
  simp only [adminUpdateDenied, Bool.or_eq_false_iff, decide_eq_false_iff_not, not_le, ge_iff_le,
    Bool.and_eq_false_iff, bne_eq_false_iff_eq] at h
  obtain ⟨⟨⟨-, hbelow⟩, hrequested⟩, horganization⟩ := h
  exact ⟨hbelow, hrequested, horganization⟩

/-- The checks on the request leave only the organization of the user open. -/
theorem admin_allows_iff (h : AdminAccepted s entity id existing body) :
    admin.Allows entity body existing ↔ entity.organizationId = some existing.base.organizationId := by
  obtain ⟨_, permissions, -, hpermissions, hallowed⟩ := h.allowed
  obtain ⟨hbelow, hrequested, -⟩ := of_not_denied hallowed
  exact ⟨And.left, fun horganization => ⟨horganization, permissions, hpermissions, hbelow, hrequested⟩⟩

theorem admin_confined_iff : Confined (admin.Allows entity body) id s (after (adminUpdateUser entity id body) s) ↔
    admin.Sound s entity id body := by
  refine (Program.wp_after (P := fun t => Confined (admin.Allows entity body) id s t)).symm.trans ?_
  refine Program.wp.iff (wp_adminUpdateUser (fun e hnone => ?_) fun existing h => ?_)
  · exact iff_of_true .refl fun existing h => absurd h (hnone existing)
  obtain ⟨_, _, -, -, hallowed⟩ := h.allowed
  have horganization := (of_not_denied hallowed).2.2
  have hsound : admin.Sound s entity id body ↔
      (Repeats existing body ∨ (admin.Allows entity body existing ∧ Untouched existing body)) ∧
      (Grantable s body.base.networkIds → (∀ n, n ∈ body.base.networkIds ↔ n ∈ s.givenTo id) ∨
        (admin.Allows entity body existing ∧
          ∀ n ∈ body.base.networkIds, n ∈ s.givenTo id ∨ n ∈ s.networksOf existing.base.organizationId)) := by
    rw [admin_allows_iff h]
    refine ⟨fun hsound => hsound existing h, fun hsound x hx => ?_⟩
    have hfound := hx.found
    rw [h.found] at hfound
    cases hfound
    exact hsound
  rw [hsound]
  refine ⟨fun user rows hrows => ?_, fun e e' herror => ?_⟩
  · have hothers : ∀ r, r.1 ≠ id → (r ∈ rows ↔ r ∈ s.userNetworkAccess) := fun r hr => by
      rw [replaceAccess_eq_ok hrows]
      simp [hr]
    have hnew : ∀ n, (id, n) ∈ rows ↔ n ∈ body.base.networkIds := fun n => by
      rw [replaceAccess_eq_ok hrows]
      simp
    refine (confined_written_iff h.found h.own horganization hothers).trans (and_congr_right fun _ => ?_)
    simp only [hnew, (grantable_iff h.found).mpr ⟨rows, hrows⟩, true_implies]
  · refine (confined_written_iff h.found h.own horganization fun _ _ => Iff.rfl).trans (and_congr_right fun _ => ?_)
    refine iff_of_true (.inl fun n => Accounts.mem_givenTo.symm) fun hgrantable => ?_
    obtain ⟨rows, hrows⟩ := (grantable_iff h.found).mp hgrantable
    rw [hrows] at herror
    cases herror

/-- **An update is confined to the user of the path**, and to what it may change there, exactly if
an accepted request says of the fields only the server sets what is stored, none of those it cannot
say is set, and an admin's is for a user and for networks of the admin's own organization. -/
theorem confined_iff (update : UserUpdate) (s : Accounts) (entity : AuthenticatedEntity) (id : Uuid) (body : User) :
    Confined (update.Allows entity body) id s (after (update.run entity id body) s) ↔
        update.Sound s entity id body := by
  cases update with
  | own => exact own_confined_iff
  | admin => exact admin_confined_iff

omit [EmailRules] in
/-- An admin of one organization takes a member of another one's rights away. -/
theorem admin_of_other_organization :
    let member : User := { id := 5, base :=
      { email := "m@example.com", organizationId := 3, permissions := .member } }
    let body : User := { id := 5, base := { email := "m@example.com", organizationId := 3, permissions := .viewer } }
    let s : Accounts := { organizations := ⟨[{ id := 2 }, { id := 3 }], by decide⟩, users := ⟨[member], by decide⟩ }
    ¬ Confined (admin.Allows (.user 1 2 .admin [] true) body) 5 s
      (after (@run ⟨fun _ => none, fun email => email⟩ admin (.user 1 2 .admin [] true) 5 body) s) := by
  intro member body s h
  let rules : EmailRules := ⟨fun _ => none, fun email => email⟩
  have hsound := admin_confined_iff.mp h
  rcases (hsound member ⟨rfl, rfl, rfl, ⟨1, .admin, rfl, rfl, by decide⟩, rfl, by decide⟩).1 with hrepeats |
    ⟨horganization, -⟩
  · exact absurd hrepeats.permissions (by decide)
  · exact absurd horganization (by decide)

end UserUpdate

end Netvisor
