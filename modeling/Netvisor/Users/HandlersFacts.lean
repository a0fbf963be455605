/-
What the endpoints that update users write.

The row that is written carries the address of the user of the path, so the
index on addresses refuses it under any other id.
-/
import Netvisor.Auth.AccountsFacts
import Netvisor.Users.Handlers

namespace Netvisor

open Program (wp)

section Programs

variable {α : Type} {s : Accounts}

@[simp] theorem wp_internally {p : AccountStore α} {Q : α → Accounts → Prop} {E : ApiError → Accounts → Prop} :
    wp (internally p) Q E s ↔ wp p Q (fun e => E (.internalError e.message)) s := Program.wp_mapError

theorem internally_bind {β : Type} (p : AccountStore α) (f : α → AccountStore β) :
    internally (p >>= f) = internally p >>= fun a => internally (f a) := Program.mapError_bind p f

end Programs

theorem Accounts.mem_givenTo {s : Accounts} {id n : Uuid} : n ∈ s.givenTo id ↔ (id, n) ∈ s.userNetworkAccess := by
  simp [Accounts.givenTo]

namespace UserHandlers

open UserService (uniques references)

variable [EmailRules] {s : Accounts} {existing body : User} {id : Uuid}

/-- The row an update writes. -/
def written (existing body : User) : User := (preserve existing.read body.deserialize).row

/-- The row is only written under the id of the user whose address it has. -/
theorem id_of_not_violated {user : User} (huser : user ∈ s.users.rows) (hemail : user.base.email = existing.base.email)
    (h : violated s.users uniques (written existing body) = none) : body.id = user.id := by
  by_contra hne
  have hclash := not_clash h List.mem_cons_self huser (fun hid => hne hid.symm)
  rw [beq_eq_false_iff_ne] at hclash
  exact hclash (congrArg EmailRules.lower hemail)

/-- The row passes the constraints of the table. -/
def Writable (s : Accounts) (user : User) : Prop :=
  violated s.users uniques user = none ∧ references s user = true

instance (s : Accounts) (user : User) : Decidable (Writable s user) := inferInstanceAs (Decidable (_ ∧ _))

/-- An update replaces the row of the path, or changes nothing. -/
theorem wp_update_written {Q : User → Accounts → Prop} {E : ApiError → Accounts → Prop}
    (hget : s.users.get id = some existing) (hreadable : existing.Readable)
    (hQ : ∀ user, body.id = id ∧ Writable s (written existing body) →
      Q user { s with users := s.users.update (written existing body) })
    (hE : ∀ e, ¬ (body.id = id ∧ Writable s (written existing body)) → E e s) :
    wp (internally (UserService.update (preserve existing.read body.deserialize))) Q E s := by
  rw [wp_internally, UserService.wp_update]
  refine ⟨fun hmissing => hE _ ?_,
    fun row hrow => ⟨fun hread => ⟨fun users hupdate => ?_, fun e herror => hE _ ?_⟩, ?_⟩⟩
  · rintro ⟨hid, -⟩
    have hfound : s.users.get body.id = some existing := hid ▸ hget
    rw [show (preserve existing.read body.deserialize).id = body.id from rfl, hfound] at hmissing
    cases hmissing
  · rcases updateIn_eq_ok hupdate with ⟨hmissing, -⟩ | ⟨hviolated, href, rfl⟩
    · rw [User.row_id, hrow] at hmissing
      cases hmissing
    · obtain ⟨hstored, hid⟩ := Table.get_eq_some.mp hget
      exact hQ _ ⟨(id_of_not_violated hstored rfl hviolated).trans hid, hviolated, href⟩
  · rintro ⟨-, hviolated, href⟩
    have hsome : (s.users.get (written existing body).id).isSome = true := by
      rw [show (written existing body).id = (preserve existing.read body.deserialize).id from rfl, hrow]
      rfl
    have hok : updateIn "users" s.users uniques (references s (written existing body))
        (written existing body) = .ok _ :=
      updateIn_of hsome hviolated href
    have hsame : updateIn "users" s.users uniques (references s (written existing body))
        (written existing body) = .error e :=
      herror
    rw [hok] at hsame
    cases hsame
  · intro e he
    refine hE _ ?_
    rintro ⟨hid, -⟩
    have hfound : s.users.get body.id = some existing := hid ▸ hget
    rw [show (preserve existing.read body.deserialize).id = body.id from rfl, hfound] at hrow
    cases hrow
    exact User.fromRow_eq_error he hreadable

/-- The request of a user passes all checks, and the row those of the table. -/
structure OwnAccepted (s : Accounts) (entity : AuthenticatedEntity) (id : Uuid) (existing body : User) : Prop where
  authorized : PermissionRequirement.isUser.authorized entity = none
  self : entity.userId = some id
  found : s.users.get id = some existing
  readable : existing.Readable
  organization : body.base.organizationId = existing.base.organizationId
  permissions : body.base.permissions = existing.base.permissions
  own : body.id = id
  writable : Writable s (written existing body)

/-- A user's own update replaces the row of the path, or changes nothing. -/
theorem wp_updateUser {entity : AuthenticatedEntity} {Q : User → Accounts → Prop} {E : ApiError → Accounts → Prop}
    (hE : ∀ e, (∀ existing, ¬ OwnAccepted s entity id existing body) → E e s)
    (hQ : ∀ existing, OwnAccepted s entity id existing body →
      ∀ user, Q user { s with users := s.users.update (written existing body) }) :
    wp (updateUser entity id body) Q E s := by
  unfold updateUser
  simp only [Program.wp_bind, wp_authorize, Program.wp_ite, Program.wp_throw, wp_internally, UserService.wp_getById,
    bne_iff_ne, ne_eq, Decidable.not_not]
  refine ⟨fun hauthorized => ⟨fun hself => hE _ fun x h => hself h.self, fun hself => ⟨fun hmissing => ?_, ?_⟩⟩,
    fun e he => hE e fun x h => by rw [h.authorized] at he; cases he⟩
  · exact hE _ fun x h => by rw [h.found] at hmissing; cases hmissing
  intro existing hget
  have hother : ∀ x, OwnAccepted s entity id x body → x = existing := by
    intro x h
    have hx := h.found
    rw [hget] at hx
    exact (Option.some.inj hx).symm
  refine ⟨fun hreadable => ⟨fun horganization => ?_, fun horganization => ⟨fun hpermissions => ?_,
    fun hpermissions => ?_⟩⟩, fun e he => ?_⟩
  · exact hE _ fun x h => horganization (hother x h ▸ h.organization)
  · exact hE _ fun x h => hpermissions (hother x h ▸ h.permissions)
  · refine (wp_internally.mp <| wp_update_written hget hreadable (fun user hwritten => ?_) fun e hnot => ?_)
    · exact hQ existing ⟨hauthorized, hself, hget, hreadable, horganization, hpermissions, hwritten.1,
        hwritten.2⟩ user
    · exact hE e fun x h => hnot (by rw [← hother x h]; exact ⟨h.own, h.writable⟩)
  · exact hE _ fun x h => User.fromRow_eq_error he (hother x h ▸ h.readable)

/-- The networks named in a request, given to a user in place of those it was given before. -/
def newAccess (s : Accounts) (id : Uuid) (networkIds : List Uuid) : Except ApiError (List (Uuid × Uuid)) :=
  replaceAccess "user_network_access" "user_network_access_user_id_network_id_key" (s.users.get id).isSome
    (fun n => (s.networks.get n).isSome) id s.userNetworkAccess networkIds

/-- The networks of the request can be given to a user: they are stored, and none is named twice. -/
def Grantable (s : Accounts) (networkIds : List Uuid) : Prop :=
  (∀ n ∈ networkIds, (s.networks.get n).isSome = true) ∧ networkIds.Nodup

instance (s : Accounts) (networkIds : List Uuid) : Decidable (Grantable s networkIds) :=
  inferInstanceAs (Decidable (_ ∧ _))

omit [EmailRules] in
theorem grantable_iff (hget : s.users.get id = some existing) {networkIds : List Uuid} :
    Grantable s networkIds ↔ ∃ rows, newAccess s id networkIds = .ok rows := by
  have howner : (s.users.get id).isSome = true := by rw [hget]; rfl
  constructor
  · rintro ⟨hstored, hnodup⟩
    exact replaceAccess_of howner hstored hnodup
  · rintro ⟨rows, hrows⟩
    exact ⟨fun n hn => ((grantAccess_eq_ok hrows).2 n hn).2, (grantAccess_nodup hrows).1⟩

/-- The request of an admin passes all checks, and the row those of the table. -/
structure AdminAccepted (s : Accounts) (entity : AuthenticatedEntity) (id : Uuid) (existing body : User) : Prop where
  authorized : PermissionRequirement.admin.authorized entity = none
  found : s.users.get id = some existing
  readable : existing.Readable
  allowed : ∃ adminUserId adminPermissions, entity.userId = some adminUserId ∧
    entity.permissions = some adminPermissions ∧
      adminUpdateDenied adminUserId adminPermissions id existing body = false
  own : body.id = id
  writable : Writable s (written existing body)

instance {entity : AuthenticatedEntity} : Decidable (AdminAccepted s entity id existing body) :=
  decidable_of_iff
    (PermissionRequirement.admin.authorized entity = none ∧ s.users.get id = some existing ∧ existing.Readable ∧
      (entity.userId.any fun adminUserId => entity.permissions.any fun adminPermissions =>
        !adminUpdateDenied adminUserId adminPermissions id existing body) = true ∧
      body.id = id ∧ Writable s (written existing body))
    (by
      constructor
      · rintro ⟨hauthorized, hfound, hreadable, hallowed, hown, hwritable⟩
        simp only [Option.any_eq_true, Bool.not_eq_true'] at hallowed
        obtain ⟨uid, huser, perms, hpermissions, hallowed⟩ := hallowed
        exact ⟨hauthorized, hfound, hreadable, ⟨uid, perms, huser, hpermissions, hallowed⟩, hown, hwritable⟩
      · rintro ⟨hauthorized, hfound, hreadable, ⟨uid, perms, huser, hpermissions, hallowed⟩, hown, hwritable⟩
        exact ⟨hauthorized, hfound, hreadable, by simp [huser, hpermissions, hallowed], hown, hwritable⟩)

/-- An admin's update replaces the row of the path and then its networks, or changes nothing. -/
theorem wp_adminUpdateUser {entity : AuthenticatedEntity} {Q : User → Accounts → Prop}
    {E : ApiError → Accounts → Prop}
    (hE : ∀ e, (∀ existing, ¬ AdminAccepted s entity id existing body) → E e s)
    (hQ : ∀ existing, AdminAccepted s entity id existing body →
      (∀ user userNetworkAccess, newAccess s id body.base.networkIds = .ok userNetworkAccess →
        Q user { s with users := s.users.update (written existing body), userNetworkAccess }) ∧
      ∀ e e', newAccess s id body.base.networkIds = .error e' →
        E e { s with users := s.users.update (written existing body) }) :
    wp (adminUpdateUser entity id body) Q E s := by
  unfold adminUpdateUser
  simp only [Program.wp_bind, wp_authorize]
  refine ⟨fun hauthorized => ?_, fun e he => hE e fun existing h => by rw [h.authorized] at he; cases he⟩
  split
  case h_2 hnone =>
    refine hE _ fun existing h => ?_
    obtain ⟨uid, perms, huid, hperms, -⟩ := h.allowed
    exact hnone uid perms huid hperms
  next uid perms huid hperms =>
  simp only [Program.wp_bind, wp_internally, UserService.wp_getById]
  refine ⟨fun hmissing => ?_, fun existing hget => ⟨fun hreadable => ?_, fun e he => ?_⟩⟩
  · exact hE _ fun existing h => by rw [h.found] at hmissing; cases hmissing
  · have hother : ∀ x, AdminAccepted s entity id x body → x = existing := by
      intro x h
      have hx := h.found
      rw [hget] at hx
      exact (Option.some.inj hx).symm
    simp only [Program.wp_ite, Program.wp_throw, Bool.not_eq_true]
    refine ⟨fun hdenied => hE _ fun x h => ?_, fun hallowed => ?_⟩
    · obtain ⟨uid', perms', huid', hperms', hallowed⟩ := h.allowed
      rw [huid] at huid'
      rw [hperms] at hperms'
      cases huid'
      cases hperms'
      rw [hother x h] at hallowed
      have hsame : adminUpdateDenied uid perms id existing body = true := hdenied
      rw [hallowed] at hsame
      cases hsame
    · rw [Program.wp_bind]
      refine wp_update_written hget hreadable (fun user hwritten => ?_) fun e hnot => ?_
      · have haccepted : AdminAccepted s entity id existing body :=
          ⟨hauthorized, hget, hreadable, ⟨uid, perms, huid, hperms, hallowed⟩, hwritten.1, hwritten.2⟩
        have hstays : ((s.users.update (written existing body)).get id).isSome = (s.users.get id).isSome := by
          rw [hget, Option.isSome_some, Table.get_isSome]
          refine ⟨written existing body, Table.mem_update.mpr (.inl ⟨rfl, existing, ?_⟩), hwritten.1⟩
          obtain ⟨hmem, hid⟩ := Table.get_eq_some.mp hget
          exact ⟨hmem, hid.trans hwritten.1.symm⟩
        have hsame : ∀ r, replaceAccess "user_network_access" "user_network_access_user_id_network_id_key"
            ((s.users.update (written existing body)).get id).isSome (fun n => (s.networks.get n).isSome) id
            s.userNetworkAccess body.base.networkIds = r ↔ newAccess s id body.base.networkIds = r := by
          intro r
          rw [hstays, newAccess]
        simp only [Program.wp_bind, wp_internally, UserService.setNetworkIds, Program.wp_get, wp_runStatement,
          Program.wp_set, Program.wp_pure]
        obtain ⟨hok, herror⟩ := hQ existing haccepted
        exact ⟨fun access haccess => hok user access ((hsame _).mp haccess),
          fun e he => herror _ e ((hsame _).mp he)⟩
      · exact hE e fun x h => hnot (by rw [← hother x h]; exact ⟨h.own, h.writable⟩)
  · refine hE _ fun x h => ?_
    have hx := h.found
    rw [hget] at hx
    cases hx
    exact User.fromRow_eq_error he h.readable

end UserHandlers

end Netvisor
