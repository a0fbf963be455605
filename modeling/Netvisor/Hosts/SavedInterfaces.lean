/-
The interfaces of a discovered host, saved one after another.

Whether each is given a row with its address is settled by the request and the
rows stored before: a lookup by id or by MAC address goes wrong at a stored row of
another address, or at one made for an earlier interface of another address.
-/
import Mathlib.Data.List.Induction
import Netvisor.Hosts.StoredInterfaces

namespace Netvisor

open Program (wp)

namespace HostService

variable {host : Host}

/-! ## The payload and the stored rows -/

section

variable (db : Db) (host : Host) (before : List Interface) (i : Interface)

/-- No interface before it is new and has its address. -/
def Unmet : Prop := ∀ k ∈ before, IsNew db host k → ¬k.SameAddress i

/-- No row is stored for the interface, and none before it stands for its address. -/
def Adds : Prop := IsNew db host i ∧ Unmet db host before i

/-- The row is stored for the interface, and none before it stands for its address. -/
def Takes (e : Interface) : Prop := StoredFor db host i e ∧ (e.id = i.id ∨ Unmet db host before i)

/-- The interface is told apart from those before it: the row stored for it is the
host's, with its IP address, and not stored for one of them with another subnet;
it has no id in common with a new one of another address, and if it is new, no
MAC address either. -/
structure Clear : Prop where
  represented : ∀ e, Takes db host before i e → e.base.hostId = host.id ∧ e.base.ipAddress = i.base.ipAddress
  alone : ∀ e p j, Takes db host before i e → p ++ [j] <+: before → Takes db host p j e → j.SameAddress i
  ids : ∀ p j, p ++ [j] <+: before → Adds db host p j → j.id = i.id → i.id ≠ Uuid.nil → j.SameAddress i
  macs : Adds db host before i → ∀ p j, p ++ [j] <+: before → Adds db host p j →
    j.base.macAddress = i.base.macAddress → i.base.macAddress = none

end

/-- Every interface of the request is told apart from those before it. -/
def ToldApart (db : Db) (host : Host) (interfaces : List Interface) : Prop :=
  ∀ before i, before ++ [i] <+: interfaces → Clear db host before i

/-- The ids still to be drawn are enough, and none is one of the request. -/
structure DrawsFresh (db : Db) (interfaces : List Interface) : Prop where
  enough : interfaces.length < db.drawn.length
  unknown : ∀ i ∈ interfaces, i.id ∉ db.drawn

/-! ## Saving one interface -/

variable {db db' t t' : Db} {i e c : Interface} {is es before new : List Interface}
  {done : List (Interface × Interface)}

/-- Only the interfaces stored matter to what is told apart. -/
theorem Clear.congr {db₁ : Db} (h : db₁.interfaces = db.interfaces) (hclear : Clear db₁ host before i) :
    Clear db host before i := by
  have hstored : StoredFor db₁ host = StoredFor db host := by
    funext i e
    refine propext ?_
    rw [← existingInterface_eq_some, ← existingInterface_eq_some, existingInterface_onHost, existingInterface_onHost, h]
  have htakes : Takes db₁ host = Takes db host := by
    unfold Takes Unmet IsNew
    rw [hstored]
  have hadds : Adds db₁ host = Adds db host := by
    unfold Adds Unmet IsNew
    rw [hstored]
  obtain ⟨hrepresented, halone, hids, hmacs⟩ := hclear
  rw [htakes] at hrepresented halone
  rw [hadds] at hids hmacs
  exact ⟨hrepresented, halone, hids, hmacs⟩

theorem toldApart_congr {db₁ : Db} (h : db₁.interfaces = db.interfaces) :
    ToldApart db₁ host is ↔ ToldApart db host is :=
  forall₃_congr fun _ _ _ => ⟨.congr h, .congr h.symm⟩

/-- The row is as one is made for the interface. -/
structure Made (db : Db) (host : Host) (i c : Interface) : Prop where
  base : c.base = (onHost host i).base
  id : i.id ≠ Uuid.nil → c.id = i.id
  drawn : i.id = Uuid.nil → c.id ∈ db.drawn

theorem Made.sameAddress (h : Made db host i c) : c.SameAddress i := by
  constructor
  · rw [h.base]
    rfl
  · rw [h.base]
    rfl

theorem Made.mac (h : Made db host i c) : c.base.macAddress = i.base.macAddress := by
  rw [h.base]
  rfl

/-- The row is new as the interface is, if its id is. -/
theorem Made.isNew (h : Made db host i c) (hi : IsNew db host i) (hid : ∀ row ∈ db.interfaces.rows, row.id ≠ c.id) :
    IsNew db host c := by
  refine isNew_iff.mpr fun row hrow => ⟨hid row hrow, fun haddress => ?_, fun hmac => ?_⟩
  · exact (isNew_iff.mp hi row hrow).2.1 ⟨haddress.1, haddress.2.trans h.sameAddress⟩
  · exact (isNew_iff.mp hi row hrow).2.2 ⟨hmac.1, hmac.2.1.trans h.mac, h.mac ▸ hmac.2.2⟩

/-- The interface is found, or a row is made for it. -/
theorem wp_saveInterface (hdrawn : 0 < db.drawn.length) : wp (saveInterface .upsert host i)
    (fun e t => t.drawn <:+ db.drawn ∧ db.drawn.length ≤ t.drawn.length + 1 ∧
      ((existingInterface db (onHost host i) = some e ∧ t.interfaces = db.interfaces) ∨
        (existingInterface db (onHost host i) = none ∧ Made db host i e ∧
          t.interfaces.rows = db.interfaces.rows ++ [e])))
    (fun _ _ => True) db := by
  unfold saveInterface
  simp only [Program.wp_bind, Program.wp_get, if_true]
  cases h : existingInterface db (onHost host i) with
  | some e =>
    rw [onHost] at h
    simp only [h]
    exact ⟨List.suffix_rfl, Nat.le_succ _, .inl ⟨rfl, rfl⟩⟩
  | none =>
    rw [onHost] at h
    simp only [h, CrudService.create, Program.wp_bind, Storable.wp_orNew]
    have hinsert : ∀ (i' : Interface) (drawn : List Uuid), Made db host i i' → drawn <:+ db.drawn →
        db.drawn.length ≤ drawn.length + 1 → wp (Storable.create i') (fun e t => t.drawn <:+ db.drawn ∧
          db.drawn.length ≤ t.drawn.length + 1 ∧ ((none = some e ∧ t.interfaces = db.interfaces) ∨
            (True ∧ Made db host i e ∧ t.interfaces.rows = db.interfaces.rows ++ [e]))) (fun _ _ => True)
          { db with drawn } := by
      intro i' drawn hmade hsuffix hlength
      refine Storable.wp_create (fun _ => trivial) fun t ht _ => ⟨hsuffix, hlength, .inr ⟨trivial, hmade, ?_⟩⟩
      exact (Table.insert_eq_some ht).1
    have htail : db.drawn.length ≤ db.drawn.tail.length + 1 := by
      rw [List.length_tail]
      omega
    have hhead : db.drawn.headD Uuid.nil ∈ db.drawn := by
      obtain ⟨id, rest, hids⟩ := List.exists_cons_of_length_pos hdrawn
      rw [hids]
      exact List.mem_cons_self
    refine ⟨fun hnil => hinsert _ _ ⟨rfl, fun hid => absurd hnil hid, fun _ => hhead⟩ (List.tail_suffix _) htail,
      fun hid => hinsert _ db.drawn ⟨rfl, fun _ => rfl, fun hnil => absurd hnil hid⟩ List.suffix_rfl (Nat.le_succ _)⟩

/-! ## Saving the interfaces of a host -/

/-- What is promised of the interfaces of a request and those that stand for them. -/
structure Kept (hostId : Uuid) (pairs : List (Interface × Interface)) : Prop where
  represented : ∀ p ∈ pairs, p.2.base.hostId = hostId ∧ p.2.base.ipAddress = p.1.base.ipAddress
  apart : pairs.Pairwise fun p q => ¬ p.1.SameAddress q.1 → p.2.id ≠ q.2.id

/-- The one found is the host's, has the IP address, and stands for none so far of another subnet. -/
structure Fits (hostId : Uuid) (done : List (Interface × Interface)) (i e : Interface) : Prop where
  onHost : e.base.hostId = hostId
  ipAddress : e.base.ipAddress = i.base.ipAddress
  alone : ∀ p ∈ done, p.2.id = e.id → p.1.SameAddress i

theorem kept_concat {hostId : Uuid} : Kept hostId (done ++ [(i, e)]) ↔ Kept hostId done ∧ Fits hostId done i e := by
  constructor
  · intro h
    have hpair := h.represented (i, e) (by simp)
    have hapart := List.pairwise_append.mp h.apart
    refine ⟨⟨fun p hp => h.represented p (by simp [hp]), hapart.1⟩, hpair.1, hpair.2, fun p hp hid => ?_⟩
    by_contra hother
    exact hapart.2.2 p hp (i, e) (by simp) hother hid
  · intro ⟨h, hfits⟩
    refine ⟨fun p hp => ?_, List.pairwise_append.mpr ⟨h.apart, List.pairwise_singleton _ _, fun p hp q hq => ?_⟩⟩
    · rcases List.mem_append.mp hp with hp | hp
      · exact h.represented p hp
      · rw [List.mem_singleton.mp hp]
        exact ⟨hfits.onHost, hfits.ipAddress⟩
    · rw [List.mem_singleton.mp hq]
      exact fun hother hid => hother (hfits.alone p hp hid)

/-! ## What is found -/

theorem prefix_concat {p : List Interface} {j : Interface} :
    p ++ [j] <+: before ++ [i] ↔ p = before ∧ j = i ∨ p ++ [j] <+: before := by
  rw [List.prefix_concat_iff]
  refine or_congr_left ⟨fun h => ?_, fun ⟨hp, hj⟩ => by rw [hp, hj]⟩
  obtain ⟨hp, hj⟩ := List.append_inj' h rfl
  exact ⟨hp, (List.cons.inj hj).1⟩

/-- Of the new interfaces with an address, the first one has a row made. -/
theorem exists_adds {k : Interface} (hk : k ∈ before) (hnew : IsNew db host k) :
    ∃ p j, p ++ [j] <+: before ∧ Adds db host p j ∧ j.SameAddress k := by
  induction before using List.reverseRecOn generalizing k with
  | nil => cases hk
  | append_singleton before i ih =>
    have hearlier {k : Interface} (hk : k ∈ before) (hnew : IsNew db host k) :
        ∃ p j, p ++ [j] <+: before ++ [i] ∧ Adds db host p j ∧ j.SameAddress k := by
      obtain ⟨p, j, hj, hadds, hsame⟩ := ih hk hnew
      exact ⟨p, j, prefix_concat.mpr (.inr hj), hadds, hsame⟩
    rcases List.mem_append.mp hk with hk | hk
    · exact hearlier hk hnew
    · rw [List.mem_singleton] at hk
      subst hk
      by_cases hunmet : Unmet db host before k
      · exact ⟨before, k, List.prefix_rfl, ⟨hnew, hunmet⟩, rfl, rfl⟩
      · unfold Unmet at hunmet
        push Not at hunmet
        obtain ⟨k', hk', hnew', hsame'⟩ := hunmet
        obtain ⟨p, j, hj, hadds, hsame⟩ := hearlier hk' hnew'
        exact ⟨p, j, hj, hadds, hsame.trans hsame'⟩

/-- What was done for the interfaces before: a row was made for each that adds
one, a stored one is given to each that takes one, and the others are given one
that was made, with their address. -/
structure Follows (db : Db) (host : Host) (before : List Interface) (done : List (Interface × Interface))
    (new : List Interface) (t : Db) : Prop where
  rows : t.interfaces.rows = db.interfaces.rows ++ new
  adds : ∀ p j, p ++ [j] <+: before → Adds db host p j → ∃ c ∈ new, Made db host j c
  made : ∀ c ∈ new, ∃ p j, p ++ [j] <+: before ∧ Adds db host p j ∧ Made db host j c ∧ (j, c) ∈ done
  takes : ∀ p j e, p ++ [j] <+: before → Takes db host p j e → (j, e) ∈ done
  given : ∀ q ∈ done, (∃ p, p ++ [q.1] <+: before ∧ Takes db host p q.1 q.2) ∨ q.2 ∈ new ∧ q.2.SameAddress q.1

namespace Follows

theorem start : Follows db host [] [] [] db where
  rows := (List.append_nil _).symm
  adds p j hj := by simp at hj
  made c hc := by cases hc
  takes p j e hj := by simp at hj
  given q hq := by cases hq

variable (h : Follows db host before done new t)
include h

theorem nodup : ((db.interfaces.rows ++ new).map Interface.id).Nodup := h.rows ▸ t.interfaces.nodup

theorem id_ne {row : Interface} (hrow : row ∈ db.interfaces.rows) (hc : c ∈ new) : row.id ≠ c.id := by
  have hnodup := h.nodup
  rw [List.map_append, List.nodup_append] at hnodup
  exact hnodup.2.2 _ (List.mem_map_of_mem hrow) _ (List.mem_map_of_mem hc)

theorem eq_of_id {c' : Interface} (hc : c ∈ new) (hc' : c' ∈ new) (hid : c.id = c'.id) : c = c' :=
  List.inj_on_of_nodup_map h.nodup (List.mem_append_right _ hc) (List.mem_append_right _ hc') hid

theorem isNew : ∀ c ∈ new, c.base.hostId = host.id ∧ IsNew db host c := by
  intro c hc
  obtain ⟨p, j, -, hadds, hmade, -⟩ := h.made c hc
  refine ⟨?_, hmade.isNew hadds.1 fun row hrow => h.id_ne hrow hc⟩
  rw [hmade.base]
  rfl

/-- A row made with the address is one made for an interface before. -/
theorem not_unmet (hc : c ∈ new) (hsame : c.SameAddress i) : ¬Unmet db host before i := by
  intro hunmet
  obtain ⟨p, j, hj, hadds, hmade, -⟩ := h.made c hc
  have hmem : j ∈ before := hj.subset (List.mem_append_right _ List.mem_cons_self)
  exact hunmet j hmem hadds.1 (hmade.sameAddress.symm.trans hsame)

theorem unmet (hnew : ∀ c ∈ new, ¬c.SameAddress i) : Unmet db host before i := by
  intro k hk hknew hsame
  obtain ⟨p, j, hj, hadds, hjk⟩ := exists_adds hk hknew
  obtain ⟨c, hc, hmade⟩ := h.adds p j hj hadds
  exact hnew c hc (hmade.sameAddress.trans (hjk.trans hsame))

/-- An interface that is met by one before it takes a row by its id only. -/
theorem id_of_takes (hc : c ∈ new) (hsame : c.SameAddress i) (he : Takes db host before i e) : e.id = i.id :=
  he.2.resolve_right (h.not_unmet hc hsame)

/-- Whoever is given a row that was made has its address. -/
theorem sameAddress_of_given (hc : c ∈ new) (hi : c.SameAddress i) {q : Interface × Interface} (hq : q ∈ done)
    (hid : q.2.id = c.id) : q.1.SameAddress i := by
  rcases h.given q hq with ⟨p, -, htakes⟩ | ⟨hnew, hsame⟩
  · exact absurd hid (h.id_ne htakes.1.mem hc)
  · have heq : q.2 = c := h.eq_of_id hnew hc hid
    exact hsame.symm.trans (heq ▸ hi)

/-- A row that was made fits an interface with its address. -/
theorem fits_new (hc : c ∈ new) (hsame : c.SameAddress i) : Fits host.id done i c :=
  ⟨(h.isNew c hc).1, hsame.2, fun _ hq hid => h.sameAddress_of_given hc hsame hq hid⟩

/-- A stored row fits the interface that takes it exactly when it is the host's,
has the IP address, and nothing before it of another address takes it. -/
theorem fits_stored (he : Takes db host before i e) : Fits host.id done i e ↔
    (e.base.hostId = host.id ∧ e.base.ipAddress = i.base.ipAddress) ∧
      ∀ p j, p ++ [j] <+: before → Takes db host p j e → j.SameAddress i := by
  constructor
  · intro hfits
    exact ⟨⟨hfits.onHost, hfits.ipAddress⟩, fun p j hj htakes => hfits.alone (j, e) (h.takes p j e hj htakes) rfl⟩
  · rintro ⟨⟨hhost, hip⟩, halone⟩
    refine ⟨hhost, hip, fun q hq hid => ?_⟩
    rcases h.given q hq with ⟨p, hj, htakes⟩ | ⟨hnew, -⟩
    · have heq : q.2 = e := db.interfaces.eq_of_key htakes.1.mem he.1.mem hid
      exact halone p q.1 hj (heq ▸ htakes)
    · exact absurd hid.symm (h.id_ne he.1.mem hnew)

/-- The row with the id of the interface was made for one of that id. -/
theorem exists_of_id (hi : i.id ∉ db.drawn) (hc : c ∈ new) (hid : c.id = i.id) :
    ∃ p j, p ++ [j] <+: before ∧ Adds db host p j ∧ Made db host j c ∧ (j, c) ∈ done ∧ j.id = i.id ∧
      i.id ≠ Uuid.nil := by
  obtain ⟨p, j, hj, hadds, hmade, hdone⟩ := h.made c hc
  have hnil : j.id ≠ Uuid.nil := fun hnil => hi (hid ▸ hmade.drawn hnil)
  have hji : j.id = i.id := (hmade.id hnil).symm.trans hid
  exact ⟨p, j, hj, hadds, hmade, hdone, hji, hji ▸ hnil⟩

/-- An interface that shares its id with no row that was made shares it with none it was made for. -/
theorem ids_of_ne (hids : ∀ c ∈ new, c.id ≠ i.id) : ∀ p j, p ++ [j] <+: before → Adds db host p j → j.id = i.id →
    i.id ≠ Uuid.nil → j.SameAddress i := by
  intro p j hj hadds hid hnil
  obtain ⟨c, hc, hmade⟩ := h.adds p j hj hadds
  exact absurd ((hmade.id (hid ▸ hnil)).trans hid) (hids c hc)

/-- **What is found fits exactly when the interface is told apart from those before it.** -/
theorem fits_iff (hi : i.id ∉ db.drawn) :
    (∀ e, existingInterface t (onHost host i) = some e → Fits host.id done i e) ↔ Clear db host before i := by
  have hfound := found_existingInterface (i := i) h.rows h.isNew
  generalize existingInterface t (onHost host i) = found at hfound
  cases hfound with
  | stored hstored hnew =>
    rename_i e
    have htakes : Takes db host before i e := by
      refine ⟨hstored, hnew.imp_right fun hnew => h.unmet fun c hc => (hnew c hc).2⟩
    have hids : ∀ c ∈ new, c.id ≠ i.id := by
      intro c hc hid
      rcases hnew with heq | hnew
      · exact h.id_ne hstored.mem hc (heq.trans hid.symm)
      · exact (hnew c hc).1 hid
    simp only [Option.some.injEq, forall_eq', h.fits_stored htakes]
    constructor
    · rintro ⟨hrepresented, halone⟩
      refine ⟨fun e' he' => ?_, fun e' p j he' => ?_, h.ids_of_ne hids, fun hadds => absurd hstored (hadds.1 e)⟩
      · rwa [he'.1.unique hstored]
      · rw [he'.1.unique hstored]
        exact halone p j
    · intro hclear
      exact ⟨hclear.represented e htakes, fun p j => hclear.alone e p j htakes⟩
  | byId hc hid =>
    rename_i c
    obtain ⟨p, j, hj, hadds, hmade, hdone, hji, hnil⟩ := h.exists_of_id hi hc hid
    simp only [Option.some.injEq, forall_eq']
    constructor
    · intro hfits
      have hsame : c.SameAddress i := hmade.sameAddress.trans (hfits.alone (j, c) hdone rfl)
      have hnone (e : Interface) : ¬Takes db host before i e := fun he =>
        h.id_ne he.1.mem hc ((h.id_of_takes hc hsame he).trans hid.symm)
      refine ⟨fun e he => absurd he (hnone e), fun e _ _ he => absurd he (hnone e), fun p' j' hj' hadds' hji' _ => ?_,
        fun hunmet => absurd hunmet.2 (h.not_unmet hc hsame)⟩
      obtain ⟨c', hc', hmade'⟩ := h.adds p' j' hj' hadds'
      have heq : c' = c := h.eq_of_id hc' hc ((hmade'.id (hji' ▸ hnil)).trans (hji'.trans hid.symm))
      exact hmade'.sameAddress.symm.trans (heq ▸ hsame)
    · intro hclear
      exact h.fits_new hc (hmade.sameAddress.trans (hclear.ids p j hj hadds hji hnil))
  | byAddress hids hc hsame =>
    rename_i c
    have hnone (e : Interface) : ¬Takes db host before i e := fun he =>
      hids e (List.mem_append_left _ he.1.mem) (h.id_of_takes hc hsame he)
    refine iff_of_true (fun e he => Option.some.inj he ▸ h.fits_new hc hsame) ⟨fun e he => absurd he (hnone e),
      fun e _ _ he => absurd he (hnone e), h.ids_of_ne fun c hc => hids c (List.mem_append_right _ hc),
      fun hadds => absurd hadds.2 (h.not_unmet hc hsame)⟩
  | byMac hnewI hnew hc hmac =>
    rename_i c
    obtain ⟨p, j, hj, hadds, hmade, hdone⟩ := h.made c hc
    refine iff_of_false (fun hfits => ?_) fun hclear => ?_
    · exact (hnew c hc).2 (hmade.sameAddress.trans ((hfits c rfl).alone (j, c) hdone rfl))
    · have haddsI : Adds db host before i := ⟨hnewI, h.unmet fun c hc => (hnew c hc).2⟩
      have hnone := hclear.macs haddsI p j hj hadds (hmade.mac.symm.trans hmac.2.1)
      have hsome := hmac.2.2
      rw [hnone] at hsome
      cases hsome
  | none hnewI hnew =>
    refine iff_of_true (fun e he => by cases he) ⟨fun e he => absurd he.1 (hnewI e),
      fun e _ _ he => absurd he.1 (hnewI e), h.ids_of_ne fun c hc => (hnew c hc).1, fun _ p j hj hadds hmac => ?_⟩
    obtain ⟨c, hc, hmade⟩ := h.adds p j hj hadds
    by_contra hsome
    exact (hnew c hc).2.2 ⟨(h.isNew c hc).1, hmade.mac.trans hmac, Option.isSome_iff_ne_none.mpr hsome⟩

end Follows

namespace Follows

variable (h : Follows db host before done new t)
include h

/-- What is found for an interface that is told apart is the stored row it takes,
or one that was made with its address. -/
theorem of_found (hi : i.id ∉ db.drawn) (hclear : Clear db host before i)
    (he : existingInterface t (onHost host i) = some e) :
    Takes db host before i e ∨ e ∈ new ∧ e.SameAddress i ∧ ∀ e', ¬Takes db host before i e' := by
  have hfound := found_existingInterface (i := i) h.rows h.isNew
  rw [he] at hfound
  cases hfound with
  | stored hstored hnew =>
    exact .inl ⟨hstored, hnew.imp_right fun hnew => h.unmet fun c hc => (hnew c hc).2⟩
  | byId hc hid =>
    obtain ⟨p, j, hj, hadds, hmade, -, hji, hnil⟩ := h.exists_of_id hi hc hid
    have hsame : e.SameAddress i := hmade.sameAddress.trans (hclear.ids p j hj hadds hji hnil)
    refine .inr ⟨hc, hsame, fun e' he' => ?_⟩
    exact h.id_ne he'.1.mem hc ((h.id_of_takes hc hsame he').trans hid.symm)
  | byAddress hids hc hsame =>
    refine .inr ⟨hc, hsame, fun e' he' => ?_⟩
    exact hids e' (List.mem_append_left _ he'.1.mem) (h.id_of_takes hc hsame he')
  | byMac hnewI hnew hc hmac =>
    have hfits := ((h.fits_iff hi).mpr hclear e he).alone
    obtain ⟨p, j, hj, hadds, hmade, hdone⟩ := h.made e hc
    exact absurd (hmade.sameAddress.trans (hfits (j, e) hdone rfl)) (hnew e hc).2

theorem found (hi : i.id ∉ db.drawn) (hclear : Clear db host before i)
    (he : existingInterface t (onHost host i) = some e) (ht : t'.interfaces = t.interfaces) :
    Follows db host (before ++ [i]) (done ++ [(i, e)]) new t' where
  rows := ht ▸ h.rows
  adds p j hj hadds := by
    rcases prefix_concat.mp hj with ⟨rfl, rfl⟩ | hj
    · rcases h.of_found hi hclear he with htakes | ⟨hc, hsame, -⟩
      · exact absurd htakes.1 (hadds.1 e)
      · exact absurd hadds.2 (h.not_unmet hc hsame)
    · exact h.adds p j hj hadds
  made c hc := by
    obtain ⟨p, j, hj, hadds, hmade, hdone⟩ := h.made c hc
    exact ⟨p, j, prefix_concat.mpr (.inr hj), hadds, hmade, List.mem_append_left _ hdone⟩
  takes p j e' hj htakes := by
    rcases prefix_concat.mp hj with ⟨rfl, rfl⟩ | hj
    · rcases h.of_found hi hclear he with htakes' | ⟨-, -, hnone⟩
      · rw [htakes.1.unique htakes'.1]
        exact List.mem_append_right _ List.mem_cons_self
      · exact absurd htakes (hnone e')
    · exact List.mem_append_left _ (h.takes p j e' hj htakes)
  given q hq := by
    rcases List.mem_append.mp hq with hq | hq
    · exact (h.given q hq).imp_left fun ⟨p, hj, htakes⟩ => ⟨p, prefix_concat.mpr (.inr hj), htakes⟩
    · rw [List.mem_singleton.mp hq]
      rcases h.of_found hi hclear he with htakes | ⟨hc, hsame, -⟩
      · exact .inl ⟨before, List.prefix_rfl, htakes⟩
      · exact .inr ⟨hc, hsame⟩

theorem added (hnone : existingInterface t (onHost host i) = none) (hmade : Made db host i c)
    (ht : t'.interfaces.rows = t.interfaces.rows ++ [c]) :
    Follows db host (before ++ [i]) (done ++ [(i, c)]) (new ++ [c]) t' := by
  have hfound := found_existingInterface (i := i) h.rows h.isNew
  rw [hnone] at hfound
  cases hfound with
  | none hnewI hnew =>
    have hadds : Adds db host before i := ⟨hnewI, h.unmet fun c hc => (hnew c hc).2.1⟩
    have hlast : c ∈ new ++ [c] := List.mem_append_right _ List.mem_cons_self
    refine ⟨by rw [ht, h.rows, List.append_assoc], fun p j hj hadds' => ?_, fun c' hc' => ?_, fun p j e hj htakes => ?_,
      fun q hq => ?_⟩
    · rcases prefix_concat.mp hj with ⟨rfl, rfl⟩ | hj
      · exact ⟨c, hlast, hmade⟩
      · obtain ⟨c', hc', hmade'⟩ := h.adds p j hj hadds'
        exact ⟨c', List.mem_append_left _ hc', hmade'⟩
    · rcases List.mem_append.mp hc' with hc' | hc'
      · obtain ⟨p, j, hj, hadds', hmade', hdone⟩ := h.made c' hc'
        exact ⟨p, j, prefix_concat.mpr (.inr hj), hadds', hmade', List.mem_append_left _ hdone⟩
      · rw [List.mem_singleton.mp hc']
        exact ⟨before, i, List.prefix_rfl, hadds, hmade, List.mem_append_right _ List.mem_cons_self⟩
    · rcases prefix_concat.mp hj with ⟨rfl, rfl⟩ | hj
      · exact absurd htakes.1 (hnewI e)
      · exact List.mem_append_left _ (h.takes p j e hj htakes)
    · rcases List.mem_append.mp hq with hq | hq
      · rcases h.given q hq with ⟨p, hj, htakes⟩ | ⟨hc', hsame⟩
        · exact .inl ⟨p, prefix_concat.mpr (.inr hj), htakes⟩
        · exact .inr ⟨List.mem_append_left _ hc', hsame⟩
      · rw [List.mem_singleton.mp hq]
        exact .inr ⟨hlast, hmade.sameAddress⟩

end Follows

/-! ## All interfaces of the request -/

theorem toldApart_concat : ToldApart db host (before ++ [i]) ↔ ToldApart db host before ∧ Clear db host before i := by
  unfold ToldApart
  constructor
  · intro h
    exact ⟨fun p j hj => h p j (prefix_concat.mpr (.inr hj)), h before i List.prefix_rfl⟩
  · rintro ⟨h, hclear⟩ p j hj
    rcases prefix_concat.mp hj with ⟨rfl, rfl⟩ | hj
    · exact hclear
    · exact h p j hj

/-- The interfaces saved so far: they are kept, and the table is as their ids,
addresses and MAC addresses make it, or they were not all told apart. -/
structure Saved (db : Db) (host : Host) (before es rest : List Interface) (t : Db) : Prop where
  length : es.length = before.length
  stored : ∀ p ∈ before.zip es, p.2 ∈ t.interfaces.rows
  drawn : t.drawn <:+ db.drawn
  enough : rest.length ≤ t.drawn.length
  unknown : ∀ i ∈ rest, i.id ∉ db.drawn
  kept : Kept host.id (before.zip es) ∧ ToldApart db host before ∧ (∃ new, Follows db host before (before.zip es) new t)
    ∨ ¬Kept host.id (before.zip es) ∧ ¬ToldApart db host before

theorem Saved.step {rest : List Interface} (h : Saved db host before es (i :: rest) t) :
    wp (saveInterface .upsert host i) (fun e => Saved db host (before ++ [i]) (es ++ [e]) rest)
      (fun _ _ => True) t := by
  have hpos : 0 < t.drawn.length := Nat.lt_of_lt_of_le (Nat.succ_pos _) h.enough
  refine (wp_saveInterface hpos).mono (fun e t' hsave => ?_) fun _ _ he => he
  obtain ⟨hdrawn, hlength, hcases⟩ := hsave
  have hi : i.id ∉ db.drawn := h.unknown i List.mem_cons_self
  have hzip : (before ++ [i]).zip (es ++ [e]) = before.zip es ++ [(i, e)] := List.zip_append h.length.symm
  have henough : rest.length ≤ t'.drawn.length := by
    have hrest := h.enough
    rw [List.length_cons] at hrest
    omega
  refine ⟨by simp [h.length], ?_, hdrawn.trans h.drawn, henough,
    fun j hj => h.unknown j (List.mem_cons_of_mem _ hj), ?_⟩
  · rw [hzip]
    intro p hp
    rcases hcases with ⟨hfound, ht⟩ | ⟨-, -, ht⟩
    · rw [ht]
      rcases List.mem_append.mp hp with hp | hp
      · exact h.stored p hp
      · rw [List.mem_singleton.mp hp]
        exact (existingInterface_eq_some.mp hfound).mem
    · rw [ht]
      rcases List.mem_append.mp hp with hp | hp
      · exact List.mem_append_left _ (h.stored p hp)
      · rw [List.mem_singleton.mp hp]
        exact List.mem_append_right _ List.mem_cons_self
  · rw [hzip, kept_concat, toldApart_concat]
    rcases h.kept with ⟨hkept, hapart, new, hfollows⟩ | ⟨hlost, hnot⟩
    · have hiff := hfollows.fits_iff hi
      by_cases hclear : Clear db host before i
      · left
        rcases hcases with ⟨hfound, ht⟩ | ⟨hnone, hmade, ht⟩
        · exact ⟨⟨hkept, hiff.mpr hclear e hfound⟩, ⟨hapart, hclear⟩, new, hfollows.found hi hclear hfound ht⟩
        · have hmade : Made db host i e := ⟨hmade.base, hmade.id, fun hnil => h.drawn.subset (hmade.drawn hnil)⟩
          have hadded := hfollows.added hnone hmade ht
          have hfits := hadded.fits_new (List.mem_append_right _ List.mem_cons_self) hmade.sameAddress
          have hfits : Fits host.id (before.zip es) i e :=
            ⟨hfits.onHost, hfits.ipAddress, fun p hp => hfits.alone p (List.mem_append_left _ hp)⟩
          exact ⟨⟨hkept, hfits⟩, ⟨hapart, hclear⟩, _, hadded⟩
      · right
        refine ⟨fun hboth => hclear (hiff.mp fun e' he' => ?_), fun hboth => hclear hboth.2⟩
        rcases hcases with ⟨hfound, -⟩ | ⟨hnone, -, -⟩
        · rw [← Option.some.inj (hfound.symm.trans he')]
          exact hboth.2
        · rw [hnone] at he'
          cases he'
    · exact .inr ⟨fun hboth => hlost hboth.1, fun hboth => hnot hboth.1⟩

theorem wp_saveInterfaces {is : List Interface} (henough : is.length ≤ db.drawn.length)
    (hunknown : ∀ i ∈ is, i.id ∉ db.drawn) :
    wp (is.mapM (saveInterface .upsert host)) (fun es => Saved db host is es []) (fun _ _ => True) db := by
  have hnone : ToldApart db host [] := by
    intro p j hj
    simp at hj
  refine Program.wp_mapM_all (I := Saved db host) (fun _ _ _ _ _ h => h.step) ?_
  exact ⟨rfl, List.forall_mem_nil _, List.suffix_rfl, henough, hunknown,
    .inl ⟨⟨List.forall_mem_nil _, List.Pairwise.nil⟩, hnone, [], .start⟩⟩

end HostService

end Netvisor
