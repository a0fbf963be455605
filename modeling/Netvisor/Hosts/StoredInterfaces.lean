/-
Which row is stored for an interface of a host, and which is found for it after
rows have been added for other ones.

A row is found by its id, else by its subnet and IP address on the host, else by
its MAC address there. A row that was added is new to all three, so it is found
in place of a stored one only by its address.
-/
import Netvisor.Hosts.ServiceFacts
import Netvisor.Services.Reassignment

namespace Netvisor

instance (i other : Interface) : Decidable (i.SameAddress other) := instDecidableAnd

theorem Interface.SameAddress.symm {i other : Interface} (h : i.SameAddress other) : other.SameAddress i :=
  ⟨h.1.symm, h.2.symm⟩

theorem Interface.SameAddress.trans {i j k : Interface} (h : i.SameAddress j) (h' : j.SameAddress k) :
    i.SameAddress k :=
  ⟨h.1.trans h'.1, h.2.trans h'.2⟩

namespace HostService

/-- The interface as it is looked for on the host. -/
def onHost (host : Host) (i : Interface) : Interface := { i with base.hostId := host.id }

/-- The row is the host's, and has the address of the interface. -/
def HasAddress (host : Host) (i row : Interface) : Prop := row.base.hostId = host.id ∧ row.SameAddress i

/-- The row is the host's, and has the MAC address of the interface. -/
def HasMac (host : Host) (i row : Interface) : Prop :=
  row.base.hostId = host.id ∧ row.base.macAddress = i.base.macAddress ∧ i.base.macAddress.isSome = true

instance (host : Host) (i row : Interface) : Decidable (HasAddress host i row) := instDecidableAnd

instance (host : Host) (i row : Interface) : Decidable (HasMac host i row) := instDecidableAnd

/-- The oldest of the rows. -/
def oldest (rows : Table Interface Interface.id) (p : Interface → Prop) [DecidablePred p] : Option Interface :=
  (rows.select (fun row => decide (p row)) Interface.createdAt).head?

/-- The row stored for an interface of the host: the one with its id, else the
oldest with its address, else the oldest with its MAC address. -/
inductive StoredFor (db : Db) (host : Host) (i e : Interface) : Prop
  | byId (hrow : e ∈ db.interfaces.rows) (hid : e.id = i.id)
  | byAddress (hids : ∀ row ∈ db.interfaces.rows, row.id ≠ i.id)
      (holdest : oldest db.interfaces (HasAddress host i) = some e)
  | byMac (hids : ∀ row ∈ db.interfaces.rows, row.id ≠ i.id)
      (haddress : ∀ row ∈ db.interfaces.rows, ¬HasAddress host i row)
      (holdest : oldest db.interfaces (HasMac host i) = some e)

/-- No row is stored for the interface. -/
def IsNew (db : Db) (host : Host) (i : Interface) : Prop := ∀ e, ¬StoredFor db host i e

/-! ## The oldest row -/

section

variable {rows rows' : Table Interface Interface.id} {p : Interface → Prop} [DecidablePred p] {e : Interface}
  {new : List Interface}

theorem of_oldest (h : oldest rows p = some e) : e ∈ rows.rows ∧ p e := by
  obtain ⟨hrow, hp⟩ := Table.mem_select.mp (List.mem_of_mem_head? h)
  exact ⟨hrow, of_decide_eq_true hp⟩

theorem oldest_eq_none : oldest rows p = none ↔ ∀ row ∈ rows.rows, ¬p row := by
  rw [oldest, List.head?_eq_none_iff, List.eq_nil_iff_forall_not_mem]
  simp only [Table.mem_select, decide_eq_true_eq, not_and]

/-- Rows that do not count can be added. -/
theorem oldest_append (hrows : rows'.rows = rows.rows ++ new) (hnew : ∀ c ∈ new, ¬p c) :
    oldest rows' p = oldest rows p := by
  have hnone : new.filter (fun row => decide (p row)) = [] :=
    List.filter_eq_nil_iff.mpr fun c hc => by rw [decide_eq_true_eq]; exact hnew c hc
  rw [oldest, oldest, Table.select, Table.select, hrows, List.filter_append, hnone, List.append_nil]

end

variable {db t : Db} {host : Host} {i e c : Interface} {new : List Interface}

theorem existingInterface_onHost : existingInterface db (onHost host i) =
    (db.interfaces.get i.id).or
      ((oldest db.interfaces (HasAddress host i)).or (oldest db.interfaces (HasMac host i))) := by
  have haddress : ((db.interfaces.select (fun row => row.base.hostId == host.id && row.base.subnetId == i.base.subnetId)
      Interface.createdAt).find? fun row => row.base.ipAddress == i.base.ipAddress) =
      oldest db.interfaces (HasAddress host i) := by
    rw [Table.find?_select, oldest]
    congr 2
    funext row
    rw [Bool.eq_iff_iff, decide_eq_true_eq]
    simp [HasAddress, Interface.SameAddress, and_assoc]
  have hmac : (i.base.macAddress.bind fun mac => (db.interfaces.select
      (fun row => row.base.hostId == host.id && row.base.macAddress == some mac) Interface.createdAt).head?) =
      oldest db.interfaces (HasMac host i) := by
    cases hi : i.base.macAddress with
    | none =>
      refine (oldest_eq_none.mpr fun row _ hrow => ?_).symm
      rw [HasMac, hi] at hrow
      exact Bool.false_ne_true hrow.2.2
    | some mac =>
      rw [Option.bind_some, oldest]
      congr 2
      funext row
      rw [Bool.eq_iff_iff, decide_eq_true_eq]
      simp [HasMac, hi]
  unfold existingInterface onHost
  simp only [Option.orElse_eq_orElse, Option.orElse_eq_or, haddress, hmac]

/-- What is looked up in the stored rows is what is stored for the interface. -/
theorem existingInterface_eq_some : existingInterface db (onHost host i) = some e ↔ StoredFor db host i e := by
  simp only [existingInterface_onHost, Option.or_eq_some_iff, Table.get_eq_some, Table.get_eq_none, oldest_eq_none]
  constructor
  · rintro (⟨hrow, hid⟩ | ⟨hids, holdest | ⟨haddress, holdest⟩⟩)
    · exact .byId hrow hid
    · exact .byAddress hids holdest
    · exact .byMac hids haddress holdest
  · intro h
    cases h with
    | byId hrow hid => exact .inl ⟨hrow, hid⟩
    | byAddress hids holdest => exact .inr ⟨hids, .inl holdest⟩
    | byMac hids haddress holdest => exact .inr ⟨hids, .inr ⟨haddress, holdest⟩⟩

theorem existingInterface_eq_none : existingInterface db (onHost host i) = none ↔ IsNew db host i := by
  rw [Option.eq_none_iff_forall_ne_some]
  exact forall_congr' fun e => not_congr existingInterface_eq_some

theorem StoredFor.unique {e' : Interface} (h : StoredFor db host i e) (h' : StoredFor db host i e') : e = e' :=
  Option.some.inj ((existingInterface_eq_some.mpr h).symm.trans (existingInterface_eq_some.mpr h'))

theorem StoredFor.mem (h : StoredFor db host i e) : e ∈ db.interfaces.rows := by
  cases h with
  | byId hrow hid => exact hrow
  | byAddress hids holdest => exact (of_oldest holdest).1
  | byMac hids haddress holdest => exact (of_oldest holdest).1

/-- A new interface shares no id, address or MAC address with the rows. -/
theorem isNew_iff : IsNew db host i ↔
    ∀ row ∈ db.interfaces.rows, row.id ≠ i.id ∧ ¬HasAddress host i row ∧ ¬HasMac host i row := by
  rw [← existingInterface_eq_none, existingInterface_onHost, Option.or_eq_none_iff, Option.or_eq_none_iff,
    Table.get_eq_none, oldest_eq_none, oldest_eq_none]
  exact ⟨fun h row hrow => ⟨h.1 row hrow, h.2.1 row hrow, h.2.2 row hrow⟩,
    fun h => ⟨fun row hrow => (h row hrow).1, fun row hrow => (h row hrow).2.1, fun row hrow => (h row hrow).2.2⟩⟩

/-! ## Rows that were added -/

/-- What is found for an interface when the rows `new` were added. -/
inductive Found (db : Db) (host : Host) (new : List Interface) (i : Interface) : Option Interface → Prop
  | stored {e : Interface} (hstored : StoredFor db host i e)
      (hnew : e.id = i.id ∨ ∀ c ∈ new, c.id ≠ i.id ∧ ¬c.SameAddress i) : Found db host new i (some e)
  | byId {c : Interface} (hc : c ∈ new) (hid : c.id = i.id) : Found db host new i (some c)
  | byAddress {c : Interface} (hids : ∀ row ∈ db.interfaces.rows ++ new, row.id ≠ i.id) (hc : c ∈ new)
      (haddress : c.SameAddress i) : Found db host new i (some c)
  | byMac {c : Interface} (hi : IsNew db host i) (hnew : ∀ c ∈ new, c.id ≠ i.id ∧ ¬c.SameAddress i) (hc : c ∈ new)
      (hmac : HasMac host i c) : Found db host new i (some c)
  | none (hi : IsNew db host i) (hnew : ∀ c ∈ new, c.id ≠ i.id ∧ ¬c.SameAddress i ∧ ¬HasMac host i c) :
      Found db host new i none

/-- A row that was added for a new interface hides no stored row of another one. -/
theorem found_existingInterface (hrows : t.interfaces.rows = db.interfaces.rows ++ new)
    (hnew : ∀ c ∈ new, c.base.hostId = host.id ∧ IsNew db host c) :
    Found db host new i (existingInterface t (onHost host i)) := by
  have hnoAddress (haddress : ∃ row ∈ db.interfaces.rows, HasAddress host i row) : ∀ c ∈ new, ¬c.SameAddress i := by
    intro c hc hci
    obtain ⟨row, hrow, hhost, hsame⟩ := haddress
    exact (isNew_iff.mp (hnew c hc).2 row hrow).2.1 ⟨hhost, hsame.trans hci.symm⟩
  have hnoMac (hmac : ∃ row ∈ db.interfaces.rows, HasMac host i row) : ∀ c ∈ new, ¬HasMac host i c := by
    rintro c hc ⟨-, hci, hsome⟩
    obtain ⟨row, hrow, hhost, hsame, -⟩ := hmac
    exact (isNew_iff.mp (hnew c hc).2 row hrow).2.2 ⟨hhost, hsame.trans hci.symm, hci ▸ hsome⟩
  rw [existingInterface_onHost]
  cases hget : t.interfaces.get i.id with
  | some e =>
    obtain ⟨hrow, hid⟩ := Table.get_eq_some.mp hget
    rw [Option.some_or]
    rcases List.mem_append.mp (hrows ▸ hrow) with hstored | hc
    · exact .stored (.byId hstored hid) (.inl hid)
    · exact .byId hc hid
  | none =>
    rw [Table.get_eq_none, hrows] at hget
    have hids : ∀ row ∈ db.interfaces.rows, row.id ≠ i.id := fun row hrow => hget row (List.mem_append_left _ hrow)
    have hnewIds : ∀ c ∈ new, c.id ≠ i.id := fun c hc => hget c (List.mem_append_right _ hc)
    rw [Option.none_or]
    cases haddress : oldest t.interfaces (HasAddress host i) with
    | some e =>
      obtain ⟨hrow, -, hsame⟩ := of_oldest haddress
      rw [Option.some_or]
      by_cases hstored : ∃ row ∈ db.interfaces.rows, HasAddress host i row
      · rw [oldest_append hrows fun c hc h => hnoAddress hstored c hc h.2] at haddress
        exact .stored (.byAddress hids haddress) (.inr fun c hc => ⟨hnewIds c hc, hnoAddress hstored c hc⟩)
      · rcases List.mem_append.mp (hrows ▸ hrow) with hold | hc
        · exact absurd ⟨e, hold, (of_oldest haddress).2⟩ hstored
        · exact .byAddress hget hc hsame
    | none =>
      rw [oldest_eq_none, hrows] at haddress
      have hnoAddress : ∀ row ∈ db.interfaces.rows, ¬HasAddress host i row := fun row hrow =>
        haddress row (List.mem_append_left _ hrow)
      have hnewAddress : ∀ c ∈ new, c.id ≠ i.id ∧ ¬c.SameAddress i := fun c hc =>
        ⟨hnewIds c hc, fun h => haddress c (List.mem_append_right _ hc) ⟨(hnew c hc).1, h⟩⟩
      rw [Option.none_or]
      by_cases hstored : ∃ row ∈ db.interfaces.rows, HasMac host i row
      · rw [oldest_append hrows (hnoMac hstored)]
        obtain ⟨row, hrow, hmac⟩ := hstored
        cases holdest : oldest db.interfaces (HasMac host i) with
        | none => exact absurd hmac (oldest_eq_none.mp holdest row hrow)
        | some e => exact .stored (.byMac hids hnoAddress holdest) (.inr hnewAddress)
      · have hi : IsNew db host i := isNew_iff.mpr fun row hrow =>
          ⟨hids row hrow, hnoAddress row hrow, fun hmac => hstored ⟨row, hrow, hmac⟩⟩
        cases holdest : oldest t.interfaces (HasMac host i) with
        | some c =>
          obtain ⟨hrow, hmac⟩ := of_oldest holdest
          rcases List.mem_append.mp (hrows ▸ hrow) with hold | hc
          · exact absurd ⟨c, hold, hmac⟩ hstored
          · exact .byMac hi hnewAddress hc hmac
        | none =>
          rw [oldest_eq_none, hrows] at holdest
          exact .none hi fun c hc =>
            ⟨(hnewAddress c hc).1, (hnewAddress c hc).2, holdest c (List.mem_append_right _ hc)⟩

end HostService

end Netvisor
