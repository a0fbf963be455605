/-
An invite admits at most one user, and not after it was used, revoked or
expired?

A registration goes on with what its session holds, whether it could use the
invite or not. So one invite admits everyone who opened its link before, and
may still do so when it is gone. It admits one user, and no seat is taken that
the plan does not include, in every run in which whoever is made a member has
used the invite, and in time.
-/
import Netvisor.Invites.HandlersFacts
import Netvisor.Lib.Pool

namespace Netvisor

open Program (after wp)
open Transition (Visits Along)
open InviteStatement (Effect Joins)

namespace InviteTables

variable [Deployment] [EmailRules] {s t : InviteTables} {organizationId : Uuid} {n : Nat}

/-! ## Seats -/

def members (organizationId : Uuid) (users : Table User User.id) : Nat :=
  users.rows.countP fun u => u.base.organizationId == organizationId

/-- The invite is to the organization, and has not expired. -/
def isOpen (organizationId : Uuid) (now : DateTime) (invite : Invite) : Bool :=
  invite.base.organizationId == organizationId && invite.isValid now

def openInvites (organizationId : Uuid) (s : InviteTables) : Nat :=
  s.invites.rows.countP (isOpen organizationId s.accounts.now)

/-- The seats of the organization, where its plan has a number of them and no price for more. -/
def seatLimit (organizationId : Uuid) : Option Nat :=
  if (Deployment.config organizationId).seatCents.isNone then
    (Deployment.config organizationId).includedSeats else none

/-- The invites that were used and have admitted nobody yet, while they would be open. -/
def admitting (organizationId : Uuid) (s : InviteTables) : Nat :=
  s.history.used.countP fun u =>
    isOpen organizationId s.accounts.now u.1 && !(s.history.joined.map (·.1)).contains u.1.id

/-! ## What is claimed, and what is kept -/

/-- Every invite admitted at most one user, by a request that alone may have used it, when it was not revoked
and had not expired; and the seats of the plan suffice. -/
structure Sound (organizationId : Uuid) (s : InviteTables) : Prop where
  once : (s.history.joined.map (·.1)).Nodup
  usedByNoOther : ∀ j ∈ s.history.joined, ∀ u ∈ s.history.used, u.1.id = j.1 → u.2 = j.2.1
  notRevoked : ∀ j ∈ s.history.joined, ∀ i ∈ s.history.revoked, i.id ≠ j.1
  notExpired : ∀ j ∈ s.history.joined, ∀ i ∈ s.history.issued, i.id = j.1 → i.isValid j.2.2 = true
  seats : ∀ limit, seatLimit organizationId = some limit →
    members organizationId s.accounts.users + openInvites organizationId s ≤ limit

/-- Every invite there has been is stored, or was used or revoked; who was admitted used the invite. -/
structure Inv (organizationId : Uuid) (s : InviteTables) : Prop where
  ids : (s.history.issued.map Invite.id).Nodup
  fates : (s.invites.rows ++ (s.history.used.map (·.1) ++ s.history.revoked)).Perm s.history.issued
  once : (s.history.joined.map (·.1)).Nodup
  tickets : ∀ j ∈ s.history.joined, ∃ u ∈ s.history.used, u.1.id = j.1 ∧ u.2 = j.2.1 ∧ u.1.isValid j.2.2 = true
  seats : ∀ limit, seatLimit organizationId = some limit →
    members organizationId s.accounts.users + openInvites organizationId s + admitting organizationId s ≤ limit

/-- Nothing has become of the invites yet, and the seats suffice for the members and the open invites. -/
structure Starts (organizationId : Uuid) (s : InviteTables) : Prop where
  history : s.history = { issued := s.invites.rows }
  seats : ∀ limit, seatLimit organizationId = some limit →
    members organizationId s.accounts.users + openInvites organizationId s ≤ limit

section Facts

omit [EmailRules]

theorem Starts.inv (h : Starts organizationId s) : Inv organizationId s := by
  obtain ⟨hhistory, hseats⟩ := h
  refine ⟨?_, ?_, ?_, ?_, fun limit hlimit => ?_⟩
  · rw [hhistory]
    exact s.invites.nodup
  · rw [hhistory]
    simp
  · rw [hhistory]
    exact List.nodup_nil
  · rw [hhistory]
    intro j hj
    cases hj
  · have hnone : admitting organizationId s = 0 := by rw [admitting, hhistory, List.countP_nil]
    rw [hnone]
    exact hseats limit hlimit

theorem Inv.mem_issued_of_used (h : Inv organizationId s) {u : Invite × Nat} (hu : u ∈ s.history.used) :
    u.1 ∈ s.history.issued :=
  h.fates.subset (List.mem_append_right _ (List.mem_append_left _ (List.mem_map_of_mem hu)))

/-- No invite is used twice, and none is used and revoked. -/
theorem Inv.nodup_gone (h : Inv organizationId s) :
    ((s.history.used.map (·.1.id)) ++ s.history.revoked.map Invite.id).Nodup := by
  have hall := (h.fates.map Invite.id).nodup_iff.mpr h.ids
  rw [List.map_append, List.map_append, List.map_map] at hall
  exact hall.of_append_right

theorem Inv.eq_of_used (h : Inv organizationId s) {u v : Invite × Nat} (hu : u ∈ s.history.used)
    (hv : v ∈ s.history.used) (hid : u.1.id = v.1.id) : u = v :=
  List.inj_on_of_nodup_map h.nodup_gone.of_append_left hu hv hid

theorem Inv.sound (h : Inv organizationId s) : Sound organizationId s where
  once := h.once
  usedByNoOther := by
    intro j hj u hu hid
    obtain ⟨v, hv, hvid, hrequest, -⟩ := h.tickets j hj
    rw [h.eq_of_used hu hv (hid.trans hvid.symm), hrequest]
  notRevoked := by
    intro j hj i hi hid
    obtain ⟨v, hv, hvid, -⟩ := h.tickets j hj
    refine (List.nodup_append.mp h.nodup_gone).2.2 j.1 ?_ j.1 (List.mem_map.mpr ⟨i, hi, hid⟩) rfl
    exact List.mem_map.mpr ⟨v, hv, hvid⟩
  notExpired := by
    intro j hj i hi hid
    obtain ⟨v, hv, hvid, -, hvalid⟩ := h.tickets j hj
    rw [List.inj_on_of_nodup_map h.ids hi (h.mem_issued_of_used hv) (hid.trans hvid.symm)]
    exact hvalid
  seats limit hlimit := le_trans (Nat.le_add_right _ _) (h.seats limit hlimit)

/-- An organization whose plan allows invites has no limit of seats. -/
theorem seatLimit_eq_none (h : (Deployment.config organizationId).canInviteUsers = true) :
    seatLimit organizationId = none := by
  unfold PlanConfig.canInviteUsers at h
  unfold seatLimit
  cases hincluded : (Deployment.config organizationId).includedSeats with
  | none => split <;> rfl
  | some seats =>
    rw [hincluded] at h
    have hsome : (Deployment.config organizationId).seatCents.isSome = true := by simpa using h
    rw [if_neg]
    simpa [Option.isNone_iff_eq_none, Option.isSome_iff_ne_none] using hsome

/-! ## Invites -/

theorem Inv.insert (h : Inv organizationId s) {invite : Invite}
    (hplan : (Deployment.config invite.base.organizationId).canInviteUsers = true)
    (hnew : ∀ i ∈ s.history.issued, i.id ≠ invite.id) : Inv organizationId (after (insertInvite invite) s) := by
  refine (Program.wp_after (P := Inv organizationId)).mp ?_
  simp only [insertInvite, Program.wp_bind, Program.wp_get]
  split
  · exact h
  next invites hinsert =>
  obtain ⟨hrows, -⟩ := Table.insert_eq_some (insertInto_eq_ok hinsert).1
  rw [Program.wp_set]
  refine ⟨?_, ?_, h.once, h.tickets, fun limit hlimit => ?_⟩
  · rw [List.map_cons, List.nodup_cons]
    refine ⟨fun hmem => ?_, h.ids⟩
    obtain ⟨i, hi, hid⟩ := List.mem_map.mp hmem
    exact hnew i hi hid
  · rw [hrows, List.append_assoc, List.singleton_append]
    exact List.perm_middle.trans (h.fates.cons invite)
  · have hother : isOpen organizationId s.accounts.now invite = false := by
      by_contra hopen
      simp only [isOpen, Bool.not_eq_false, Bool.and_eq_true, beq_iff_eq] at hopen
      rw [← hopen.1, seatLimit_eq_none hplan] at hlimit
      cases hlimit
    simpa [openInvites, admitting, hrows, hother] using h.seats limit hlimit

/-- An invite that is used is no longer stored. -/
theorem Inv.use (h : Inv organizationId s) {id : Uuid} : Inv organizationId (after (deleteUsed n id) s) := by
  have hperm : ((s.invites.get id).toList ++ (s.invites.filter fun i => i.id != id).rows).Perm s.invites.rows :=
    Table.perm_get_filter
  refine ⟨h.ids, ?_, h.once, fun j hj => ?_, fun limit hlimit => ?_⟩
  · refine List.Perm.trans ?_ ((hperm.append_right _).trans h.fates)
    have htaken : ((s.invites.get id).map fun i => (i, n)).toList.map (·.1) = (s.invites.get id).toList := by
      cases s.invites.get id <;> rfl
    show (_ ++ (List.map _ (_ ++ _) ++ _)).Perm _
    rw [List.map_append, htaken, List.append_assoc, List.append_assoc]
    exact List.perm_append_comm_assoc _ _ _
  · obtain ⟨u, hu, hrest⟩ := h.tickets j hj
    exact ⟨u, List.mem_append_right _ hu, hrest⟩
  · refine le_trans ?_ (h.seats limit hlimit)
    have hopen : openInvites organizationId s = _ := (hperm.countP_eq _).symm
    have hopen' : openInvites organizationId (after (deleteUsed n id) s) =
        (s.invites.filter fun i => i.id != id).rows.countP (isOpen organizationId s.accounts.now) := rfl
    have hadmitting : admitting organizationId (after (deleteUsed n id) s) =
        (((s.invites.get id).map fun i => (i, n)).toList ++ s.history.used).countP fun u =>
          isOpen organizationId s.accounts.now u.1 && !(s.history.joined.map (·.1)).contains u.1.id := rfl
    have hmembers : members organizationId (after (deleteUsed n id) s).accounts.users =
      members organizationId s.accounts.users := rfl
    rw [List.countP_append] at hopen hadmitting
    rw [hopen', hadmitting, hmembers, hopen]
    have htaken : (((s.invites.get id).map fun i => (i, n)).toList.countP fun u =>
        isOpen organizationId s.accounts.now u.1 && !(s.history.joined.map (·.1)).contains u.1.id) ≤
          (s.invites.get id).toList.countP (isOpen organizationId s.accounts.now) := by
      cases s.invites.get id with
      | none => exact le_rfl
      | some i =>
        simp only [Option.map_some, Option.toList_some, List.countP_singleton]
        split
        · next hi => rw [if_pos (Bool.and_eq_true_iff.mp hi).1]
        · exact Nat.zero_le _
    unfold admitting
    omega

theorem Inv.revoke (h : Inv organizationId s) {ids : List Uuid} :
    Inv organizationId (after (deleteInvites ids) s) := by
  refine ⟨h.ids, ?_, h.once, h.tickets, fun limit hlimit => ?_⟩
  · have hperm := List.filter_append_perm (fun i : Invite => ids.contains i.id) s.invites.rows
    refine List.Perm.trans ?_ ((hperm.append_right _).trans h.fates)
    rw [List.append_assoc]
    exact ((List.perm_append_comm_assoc _ _ _).append_left _).trans (List.perm_append_comm_assoc _ _ _)
  · refine le_trans ?_ (h.seats limit hlimit)
    have hopen : openInvites organizationId (after (deleteInvites ids) s) ≤ openInvites organizationId s :=
      List.Sublist.countP_le List.filter_sublist
    have hsame : admitting organizationId (after (deleteInvites ids) s) = admitting organizationId s := rfl
    rw [hsame]
    exact Nat.add_le_add_right (Nat.add_le_add_left hopen _) _

/-- As time goes by invites expire. -/
theorem Inv.later (h : Inv organizationId s) {now : DateTime} (hnow : s.accounts.now ≤ now) :
    Inv organizationId { s with accounts := { s.accounts with now } } := by
  have hexpire : ∀ i, isOpen organizationId now i = true → isOpen organizationId s.accounts.now i = true := by
    intro i hi
    simp only [isOpen, Invite.isValid, Bool.and_eq_true, decide_eq_true_eq] at hi ⊢
    exact ⟨hi.1, lt_of_le_of_lt hnow hi.2⟩
  refine ⟨h.ids, h.fates, h.once, h.tickets, fun limit hlimit => le_trans ?_ (h.seats limit hlimit)⟩
  refine Nat.add_le_add (Nat.add_le_add_left (List.countP_mono_left fun i _ => hexpire i) _) ?_
  refine List.countP_mono_left fun u _ hu => ?_
  rw [Bool.and_eq_true] at hu ⊢
  exact ⟨hexpire u.1 hu.1, hu.2⟩

/-! ## Users -/

theorem Inv.of_eq (h : Inv organizationId s) (husers : t.accounts.users = s.accounts.users)
    (hnow : t.accounts.now = s.accounts.now) (hinvites : t.invites = s.invites) (hhistory : t.history = s.history) :
    Inv organizationId t := by
  have hmembers : members organizationId t.accounts.users = members organizationId s.accounts.users := by rw [husers]
  have hopen : openInvites organizationId t = openInvites organizationId s := by
    rw [openInvites, hinvites, hnow, openInvites]
  have hadmitting : admitting organizationId t = admitting organizationId s := by
    rw [admitting, hhistory, hnow, admitting]
  obtain ⟨hids, hfates, honce, htickets, hseats⟩ := h
  refine ⟨?_, ?_, ?_, ?_, ?_⟩
  · rwa [hhistory]
  · rwa [hhistory, hinvites]
  · rwa [hhistory]
  · rwa [hhistory]
  · rwa [hmembers, hopen, hadmitting]

/-- The users change, but no more of them are members. -/
theorem Inv.users (h : Inv organizationId s) {users : Table User User.id}
    (hmembers : members organizationId users ≤ members organizationId s.accounts.users) :
    Inv organizationId { s with accounts := { s.accounts with users } } where
  ids := h.ids
  fates := h.fates
  once := h.once
  tickets := h.tickets
  seats limit hlimit := le_trans (Nat.add_le_add_right (Nat.add_le_add_right hmembers _) _) (h.seats limit hlimit)

/-- The request has used the invite it admits by, to the organization of the user, and in time. -/
def HasUsed (a : Admission) (user : User) (s : InviteTables) : Prop :=
  ∃ u ∈ s.history.used, u.2 = a.request ∧ u.1.id = a.inviteId ∧
    u.1.base.organizationId = user.base.organizationId ∧ u.1.isValid s.accounts.now = true

instance (a : Admission) (user : User) (s : InviteTables) : Decidable (HasUsed a user s) :=
  inferInstanceAs (Decidable (∃ u ∈ _, _))

/-- Whoever is admitted by an invite that was used takes the seat of that invite. -/
theorem Inv.join (h : Inv organizationId s) {a : Admission} {user : User} {users : Table User User.id}
    (hused : HasUsed a user s) (hfirst : ∀ j ∈ s.history.joined, j.2.1 ≠ a.request)
    (hmembers : members organizationId users ≤
      members organizationId s.accounts.users + if user.base.organizationId == organizationId then 1 else 0) :
    Inv organizationId { s with
      accounts := { s.accounts with users }, history := InviteHistory.join (some a) s.accounts.now s.history } := by
  obtain ⟨u, hu, hrequest, hid, horganization, hvalid⟩ := hused
  have hnew : a.inviteId ∉ s.history.joined.map (·.1) := by
    intro hmem
    obtain ⟨j, hj, hjid⟩ := List.mem_map.mp hmem
    obtain ⟨v, hv, hvid, hvrequest, -⟩ := h.tickets j hj
    obtain rfl := h.eq_of_used hv hu (hvid.trans (hjid.trans hid.symm))
    exact hfirst j hj (hvrequest.symm.trans hrequest)
  refine ⟨h.ids, h.fates, ?_, ?_, fun limit hlimit => le_trans ?_ (h.seats limit hlimit)⟩
  · exact List.nodup_cons.mpr ⟨hnew, h.once⟩
  · intro j hj
    rcases List.mem_cons.mp hj with rfl | hj
    · exact ⟨u, hu, hid, hrequest, hvalid⟩
    · exact h.tickets j hj
  · -- the invite was counted as admitting, and the user is counted as a member now
    have hfewer : ∀ v : Invite × Nat, (isOpen organizationId s.accounts.now v.1 &&
        !(a.inviteId :: s.history.joined.map (·.1)).contains v.1.id) = true →
          (isOpen organizationId s.accounts.now v.1 && !(s.history.joined.map (·.1)).contains v.1.id) = true := by
      intro v hv
      simp only [List.contains_cons, Bool.and_eq_true, Bool.not_or] at hv
      rw [Bool.and_eq_true]
      exact ⟨hv.1, hv.2.2⟩
    have hadmitting : (s.history.used.countP fun v => isOpen organizationId s.accounts.now v.1 &&
        !(a.inviteId :: s.history.joined.map (·.1)).contains v.1.id) +
          (if user.base.organizationId == organizationId then 1 else 0) ≤ admitting organizationId s := by
      split
      · next hsame =>
        have hperm := List.perm_cons_erase hu
        have hbefore : (isOpen organizationId s.accounts.now u.1 &&
            !(s.history.joined.map (·.1)).contains u.1.id) = true := by
          have hopen : isOpen organizationId s.accounts.now u.1 = true := by
            rw [isOpen, horganization, hsame, hvalid, Bool.and_self]
          rw [hopen, hid, Bool.true_and, Bool.not_eq_true']
          simpa using hnew
        unfold admitting
        rw [hperm.countP_eq, hperm.countP_eq, List.countP_cons_of_neg (by simp [hid])]
        refine le_trans (Nat.add_le_add_right (List.countP_mono_left fun v _ => hfewer v) 1) ?_
        exact (List.countP_cons_of_pos (p := fun v : Invite × Nat => isOpen organizationId s.accounts.now v.1 &&
          !(s.history.joined.map (·.1)).contains v.1.id) hbefore).ge
      · exact List.countP_mono_left fun v _ => hfewer v
    have hopen : openInvites organizationId { s with
        accounts := { s.accounts with users }
        history := InviteHistory.join (some a) s.accounts.now s.history } = openInvites organizationId s := rfl
    rw [hopen]
    unfold admitting InviteHistory.join at *
    simp only [List.map_cons]
    omega

variable (organizationId) in
omit [Deployment] in
theorem members_insert {users : Table User User.id} {user : User} (h : s.accounts.users.insert user = some users) :
    members organizationId users =
      members organizationId s.accounts.users + if user.base.organizationId == organizationId then 1 else 0 := by
  simp only [members, (Table.insert_eq_some h).1, List.countP_append, List.countP_singleton]

variable (organizationId) in
omit [Deployment] in
theorem members_update {stored user : User} (h : s.accounts.users.get user.id = some stored) :
    members organizationId (s.accounts.users.update user) +
        (if stored.base.organizationId == organizationId then 1 else 0) =
      members organizationId s.accounts.users + if user.base.organizationId == organizationId then 1 else 0 :=
  Table.countP_update h

end Facts

/-! ## One statement -/

/-- Whoever is admitted has used the invite in time. New invites and organizations have new ids, and
otherwise users stay in their organization. -/
def Allowed (organizationId : Uuid) : InviteStatement → InviteTables → Prop
  | .create invite, s => ∀ i ∈ s.history.issued, i.id ≠ invite.id
  | .insertUser (some a) user, s | .updateUser (some a) user, s => HasUsed a user s
  | .insertUser none user, _ => user.base.organizationId ≠ organizationId
  | .updateUser none user, s => ∀ stored, s.accounts.users.get user.id = some stored →
      stored.base.organizationId = user.base.organizationId
  | .other, _ | .use _ _, _ | .revoke _, _ => True

instance : ∀ (label : InviteStatement) (s : InviteTables), Decidable (Allowed organizationId label s)
  | .create invite, s => inferInstanceAs (Decidable (∀ i ∈ s.history.issued, i.id ≠ invite.id))
  | .insertUser (some a) user, s | .updateUser (some a) user, s => inferInstanceAs (Decidable (HasUsed a user s))
  | .insertUser none user, _ => inferInstanceAs (Decidable (user.base.organizationId ≠ organizationId))
  | .updateUser none user, s =>
    inferInstanceAs (Decidable (∀ stored ∈ s.accounts.users.get user.id,
      stored.base.organizationId = user.base.organizationId))
  | .other, _ | .use _ _, _ | .revoke _, _ => .isTrue trivial

theorem Inv.insertUser (h : Inv organizationId s) {admission : Option Admission} {user : User}
    (hallowed : Allowed organizationId (.insertUser admission user) s)
    (hfirst : ∀ a, admission = some a → ∀ j ∈ s.history.joined, j.2.1 ≠ a.request) :
    Inv organizationId (after (InviteTables.insertUser admission user) s) := by
  refine (Program.wp_after (P := Inv organizationId)).mp ?_
  simp only [InviteTables.insertUser, Program.wp_bind, Program.wp_get]
  split
  · exact h
  next users hinsert =>
  have hmembers := members_insert organizationId (insertInto_eq_ok hinsert).1
  rw [Program.wp_set]
  cases admission with
  | none =>
    refine h.users (hmembers.trans ?_).le
    have hother : user.base.organizationId ≠ organizationId := hallowed
    rw [if_neg (by simpa using hother), Nat.add_zero]
  | some a => exact h.join hallowed (hfirst a rfl) hmembers.le

theorem Inv.updateUser (h : Inv organizationId s) {admission : Option Admission} {user : User}
    (hallowed : Allowed organizationId (.updateUser admission user) s)
    (hfirst : ∀ a, admission = some a → ∀ j ∈ s.history.joined, j.2.1 ≠ a.request) :
    Inv organizationId (after (InviteTables.updateUser admission user) s) := by
  refine (Program.wp_after (P := Inv organizationId)).mp ?_
  simp only [InviteTables.updateUser, Program.wp_bind, Program.wp_get]
  split
  · exact h
  next users hupdate =>
  rw [Program.wp_set]
  cases hget : s.accounts.users.get user.id with
  | none =>
    have hsame : users = s.accounts.users := by
      rcases updateIn_eq_ok hupdate with ⟨-, rfl⟩ | ⟨-, -, rfl⟩
      · rfl
      · exact Table.update_missing hget
    rw [hsame]
    exact h
  | some stored =>
    obtain ⟨-, -, rfl⟩ := (updateIn_eq_ok hupdate).resolve_left fun hmissing => by
      rw [hget] at hmissing
      cases hmissing.1
    have hmembers := members_update organizationId hget
    cases admission with
    | none =>
      have hsame := hallowed stored hget
      rw [hsame, Nat.add_right_cancel_iff] at hmembers
      exact h.users hmembers.le
    | some a => exact h.join hallowed (hfirst a rfl) (le_trans (Nat.le_add_right _ _) hmembers.le)

theorem Inv.effect (h : Inv organizationId s) {label : InviteStatement} (heffect : Effect n label s t)
    (hallowed : Allowed organizationId label s) (hfirst : Joins label → ∀ j ∈ s.history.joined, j.2.1 ≠ n) :
    Inv organizationId t := by
  cases label with
  | other =>
    obtain ⟨husers, hnow, hinvites, hhistory⟩ := heffect
    exact h.of_eq husers hnow hinvites hhistory
  | create invite =>
    obtain ⟨hplan, rfl⟩ := heffect
    exact h.insert hplan hallowed
  | use request id =>
    obtain ⟨-, rfl⟩ := heffect
    exact h.use
  | revoke ids =>
    cases heffect
    exact h.revoke
  | insertUser admission user =>
    obtain ⟨hrequest, rfl⟩ := heffect
    refine h.insertUser hallowed fun a ha => ?_
    rw [hrequest a ha]
    subst ha
    exact hfirst trivial
  | updateUser admission user =>
    obtain ⟨hrequest, rfl⟩ := heffect
    refine h.updateUser hallowed fun a ha => ?_
    rw [hrequest a ha]
    subst ha
    exact hfirst trivial

omit [Deployment] [EmailRules] in
theorem joined_join (history : InviteHistory) (now : DateTime) {admission : Option Admission}
    (hrequest : ∀ a, admission = some a → a.request = n) :
    (InviteHistory.join admission now history).joined = history.joined ∨
      admission ≠ none ∧ ∃ id, (InviteHistory.join admission now history).joined =
          (id, n, now) :: history.joined := by
  cases admission with
  | none => exact .inl rfl
  | some a =>
    refine .inr ⟨fun h => (by cases h), a.inviteId, ?_⟩
    rw [← hrequest a rfl]
    rfl

/-- From `s` to `t` nobody was admitted, or someone by the request. -/
def JoinedBy (n : Nat) (label : InviteStatement) (s t : InviteTables) : Prop :=
  t.history.joined = s.history.joined ∨ Joins label ∧ ∃ id now, t.history.joined = (id, n, now) :: s.history.joined

theorem joined_effect {label : InviteStatement} (heffect : Effect n label s t) : JoinedBy n label s t := by
  cases label with
  | other => exact .inl (congrArg InviteHistory.joined heffect.2.2.2)
  | create invite =>
    obtain ⟨-, rfl⟩ := heffect
    refine .inl ((Program.wp_after (P := fun t : InviteTables => t.history.joined = s.history.joined)).mp ?_)
    simp only [insertInvite, Program.wp_bind, Program.wp_get]
    split <;> rfl
  | use request id =>
    obtain ⟨-, rfl⟩ := heffect
    exact .inl rfl
  | revoke ids =>
    cases heffect
    exact .inl rfl
  | insertUser admission user =>
    obtain ⟨hrequest, rfl⟩ := heffect
    refine (Program.wp_after (P := JoinedBy n (.insertUser admission user) s)).mp ?_
    simp only [InviteTables.insertUser, Program.wp_bind, Program.wp_get]
    split
    · exact .inl rfl
    · rw [Program.wp_set]
      refine (joined_join s.history s.accounts.now hrequest).imp_right ?_
      rintro ⟨hsome, id, hjoined⟩
      refine ⟨?_, id, _, hjoined⟩
      cases admission with
      | none => exact absurd rfl hsome
      | some a => trivial
  | updateUser admission user =>
    obtain ⟨hrequest, rfl⟩ := heffect
    refine (Program.wp_after (P := JoinedBy n (.updateUser admission user) s)).mp ?_
    simp only [InviteTables.updateUser, Program.wp_bind, Program.wp_get]
    split
    · exact .inl rfl
    · rw [Program.wp_set]
      split
      · refine (joined_join s.history s.accounts.now hrequest).imp_right ?_
        rintro ⟨hsome, id, hjoined⟩
        refine ⟨?_, id, _, hjoined⟩
        cases admission with
        | none => exact absurd rfl hsome
        | some a => trivial
      · exact .inl rfl

end InviteTables

/-! ## Requests at the same time -/

namespace InviteRequest

open InviteTables (Allowed Inv Sound)

variable [Deployment] [EmailRules] [PasswordRules]

/-- A request comes in, the next statement of one is issued, or time passes. -/
abbrev Action := Pool.Action InviteRequest Nat

def wait (n : Nat) (s : InviteTables) : InviteTables :=
  { s with accounts := { s.accounts with now := s.accounts.now + n } }

def step : Pool InviteStatement Refusal InviteTables → Action → Option (Pool InviteStatement Refusal InviteTables) :=
  Pool.step process wait

/-- A process is that of a request, and one by which someone was admitted admits nobody else. -/
def Admits (n : Nat) (s : InviteTables) : Option (InviteProcess Unit) → Prop
  | none => ∀ j ∈ s.history.joined, j.2.1 ≠ n
  | some p => InviteProcess.Once n p ∧ ((∃ j ∈ s.history.joined, j.2.1 = n) → Process.Avoids Joins p)

omit [PasswordRules] in
/-- What another request does admits nobody for this one. -/
theorem Admits.other {n m : Nat} {s t : InviteTables} {label : InviteStatement} {q : Option (InviteProcess Unit)}
    (heffect : Effect n label s t) (hne : m ≠ n) (h : Admits m s q) : Admits m t q := by
  have hjoined : ∀ j ∈ t.history.joined, j.2.1 = m → j ∈ s.history.joined := by
    intro j hj hm
    rcases InviteTables.joined_effect heffect with heq | ⟨-, id, now, heq⟩
    · rwa [heq] at hj
    · rw [heq] at hj
      rcases List.mem_cons.mp hj with rfl | hj
      · exact absurd hm.symm hne
      · exact hj
  cases q with
  | none => exact fun j hj hm => h j (hjoined j hj hm) hm
  | some p => exact ⟨h.1, fun ⟨j, hj, hm⟩ => h.2 ⟨j, hjoined j hj hm, hm⟩⟩

theorem keeps {organizationId : Uuid} :
    Pool.Keeps process wait (Inv organizationId) Admits (Allowed organizationId) fun _ _ => True where
  start := by
    intro s n r h
    refine ⟨once_process r, ?_⟩
    rintro ⟨j, hj, hn⟩
    exact absurd hn (h j hj)
  own := by
    intro s n label after next hinv ⟨honce, havoids⟩ hallowed
    obtain ⟨heffect, hnext⟩ := honce.does s
    obtain ⟨honceNext, hlast⟩ := honce.once s
    -- a process that is about to admit someone has admitted nobody
    have hfirst : Joins label → ∀ j ∈ s.history.joined, j.2.1 ≠ n :=
      fun hjoins j hj hn => (havoids ⟨j, hj, hn⟩ s).1 hjoins
    refine ⟨hinv.effect heffect hallowed hfirst, ⟨hnext, honceNext⟩, ?_⟩
    rintro ⟨j, hj, hn⟩
    rcases InviteTables.joined_effect heffect with heq | ⟨hjoins, -⟩
    · exact (havoids ⟨j, heq ▸ hj, hn⟩ s).2
    · exact hlast hjoins
  others := by
    intro s n m label after next q _ h hne hq
    exact hq.other (h.1.does s).1 hne
  other := by
    intro s d hinv _
    have hnow : s.accounts.now ≤ s.accounts.now + (d : Int) := Int.le_add_of_nonneg_right (Int.natCast_nonneg d)
    exact ⟨hinv.later hnow, fun n q hq => by cases q <;> exact hq⟩

/-- **An invite admits at most one user, never after it was used, revoked or expired, and the members and
open invites stay within the seats of the plan, as long as whoever is admitted by an invite has used it.** -/
theorem sound_of_used {organizationId : Uuid} {s : InviteTables} (hs : InviteTables.Starts organizationId s)
    (as : List Action)
    (h : Along step (Pool.Meets (Allowed organizationId) fun _ _ => True) { state := s } as) :
    Visits step (fun p => Sound organizationId p.state) { state := s } as := by
  refine keeps.visits (fun _ h => h.sound) hs.inv (fun n j hj => ?_) h
  rw [hs.history] at hj
  cases hj

end InviteRequest

section OneInvite

open InviteRequest
open InviteTables (members openInvites)

/-- Every text is an address, and every password will do. -/
private abbrev anyEmail : EmailRules where
  invalid _ := none
  lower email := email

private abbrev anyPassword : PasswordRules where
  hashPassword _ password := .ok password
  verifyPassword _ _ := .ok ()
  validate _ := none

/-- Plans have two seats, and no more can be bought. -/
private abbrev twoSeats : Deployment where
  config _ := { includedSeats := some 2 }

/-- An owner, and an invite the owner has created. -/
private def oneInvite : InviteTables where
  accounts := {
    organizations := .single { id := 1 }
    users := .single { id := 2, base := { email := "owner", organizationId := 1, permissions := .owner } }
    drawn := [21, 22] }
  invites := .single { id := 5, base := { organizationId := 1, createdBy := 2, expiresAt := 100 } }
  history := { issued := [{ id := 5, base := { organizationId := 1, createdBy := 2, expiresAt := 100 } }] }

/-- A browser opens the link, and registers later. -/
private def opens (browser : Uuid) : InviteRequest := .accept browser 5

private def registers (browser : Uuid) (email : EmailAddress) : InviteRequest :=
  .register browser { request := { email, password := "password" } }

/-- Two browsers open the link before either registers. -/
private def twoRegister : List InviteRequest.Action :=
  [.request (opens 10), .request (opens 11)] ++ List.replicate 5 (.issue 0) ++ List.replicate 5 (.issue 1) ++
    [.request (registers 10 "a"), .request (registers 11 "b")] ++ List.replicate 12 (.issue 2) ++
    List.replicate 11 (.issue 3)

theorem one_invite_admits_two : let _ := anyEmail; let _ := anyPassword; let _ := twoSeats
    InviteTables.Starts 1 oneInvite ∧
      ¬ Visits step (fun p => (p.state.history.joined.map (·.1)).Nodup) { state := oneInvite } twoRegister ∧
      ¬ Visits step (fun p => members 1 p.state.accounts.users + openInvites 1 p.state ≤ 2) { state := oneInvite }
        twoRegister := by
  intro _ _ _
  refine ⟨⟨rfl, fun limit hlimit => ?_⟩, ?_, ?_⟩
  · cases hlimit
    decide
  · decide +kernel
  · decide +kernel

/-- One browser alone uses the invite. -/
theorem one_browser_is_admitted : let _ := anyEmail; let _ := anyPassword; let _ := twoSeats
    Visits step (fun p => InviteTables.Sound 1 p.state) { state := oneInvite }
      (.request (opens 10) :: List.replicate 5 (.issue 0) ++
        .request (registers 10 "a") :: List.replicate 12 (.issue 1)) :=
  let _ := anyEmail; let _ := anyPassword; let _ := twoSeats
  sound_of_used ⟨rfl, fun limit hlimit => by cases hlimit; decide⟩ _ (by decide +kernel)

end OneInvite

end Netvisor
