/-
What becomes of a neighbor's chassis id on its way into the entity that is sent
to the server.

It is collected as text, without its subtype, and its kind is told from the
text again. It is kept in two cases only. A MAC address is kept where its bytes
are not UTF-8: bytes that are, as those of `52:54:00:12:34:56`, are taken for a
name. A locally assigned id is kept where it is UTF-8 and does not look like a
MAC address. No other subtype is.
-/
import Mathlib.Data.String.Basic
import Netvisor.Snmp.Conversion
import Netvisor.Snmp.Neighbors

namespace Netvisor.Snmp

/-! ## Hex -/

theorem utf8Size_digitChar (n : Nat) : (Nat.digitChar n).utf8Size = 1 := by
  by_cases h : n < 16
  · have hall : ∀ n < 16, (Nat.digitChar n).utf8Size = 1 := by decide
    exact hall n h
  · rw [Nat.digitChar_eq_star.mpr (by omega)]
    decide

theorem toList_hexByte (b : UInt8) :
    (hexByte b).toList = [Nat.digitChar (b.toNat / 16), Nat.digitChar (b.toNat % 16)] := String.toList_ofList

theorem formatHex_cons_cons (b b' : UInt8) (bytes : List UInt8) :
    (formatHex (b :: b' :: bytes)).toList = (hexByte b).toList ++ ':' :: (formatHex (b' :: bytes)).toList := by
  simp [formatHex, String.toList_intercalate, List.intercalate]

theorem mem_formatHex {bytes : List UInt8} {c : Char} (h : c ∈ (formatHex bytes).toList) :
    c = ':' ∨ ∃ n, c = Nat.digitChar n := by
  have hbyte (b : UInt8) (hb : c ∈ (hexByte b).toList) : ∃ n, c = Nat.digitChar n := by
    rw [toList_hexByte] at hb
    rcases List.mem_pair.mp hb with h | h
    · exact ⟨_, h⟩
    · exact ⟨_, h⟩
  induction bytes with
  | nil => simp [formatHex] at h
  | cons b bytes ih =>
    cases bytes with
    | nil => exact .inr (hbyte b (by simpa [formatHex] using h))
    | cons b' bytes =>
      rw [formatHex_cons_cons, List.mem_append, List.mem_cons] at h
      rcases h with h | h | h
      · exact .inr (hbyte b h)
      · exact .inl h
      · exact ih h

theorem replacement_notMem_formatHex (bytes : List UInt8) : Utf8.replacement ∉ (formatHex bytes).toList := by
  intro h
  rcases mem_formatHex h with h | ⟨n, h⟩
  · exact absurd h (by decide)
  · have hsize := utf8Size_digitChar n
    rw [← h] at hsize
    exact absurd hsize (by decide)

theorem toList_formatHex_six (a b c d e f : UInt8) : (formatHex [a, b, c, d, e, f]).toList =
    (hexByte a).toList ++ ':' :: ((hexByte b).toList ++ ':' :: ((hexByte c).toList ++ ':' :: ((hexByte d).toList ++
      ':' :: ((hexByte e).toList ++ ':' :: (hexByte f).toList)))) := by
  rw [formatHex_cons_cons, formatHex_cons_cons, formatHex_cons_cons, formatHex_cons_cons, formatHex_cons_cons]
  simp [formatHex]

theorem length_formatHex : ∀ {bytes : List UInt8}, bytes.length = 6 → (formatHex bytes).toList.length = 17
  | [a, b, c, d, e, f], _ => by simp [toList_formatHex_six, toList_hexByte]

theorem looksLikeMac_formatHex : ∀ {bytes : List UInt8}, bytes.length = 6 → looksLikeMac (formatHex bytes) = true
  | [a, b, c, d, e, f], _ => by
    have hcolon : ':' ∈ (formatHex [a, b, c, d, e, f]).toList := by simp [toList_formatHex_six]
    have hsize : (formatHex [a, b, c, d, e, f]).utf8ByteSize = 17 := by
      rw [← String.ofList_toList (s := formatHex [a, b, c, d, e, f]), String.utf8ByteSize_ofList,
        toList_formatHex_six]
      have hone : Char.utf8Size ':' = 1 := by decide
      simp [toList_hexByte, utf8Size_digitChar, hone]
    simp [looksLikeMac, hcolon, hsize]

/-! ## The neighbor on a port -/

/-- The row is of the only neighbor on the port. -/
structure OnlyNeighbor (varbinds : List LldpVarbind) (row : LldpIndex) (ifIndex : BitVec 32) : Prop where
  mem : row ∈ lldpRows varbinds
  port : asI32 row.localPortNum = ifIndex
  only : ∀ i ∈ lldpRows varbinds, asI32 i.localPortNum = ifIndex → i = row

/-- The chassis id the agent answered with, the last time it did. -/
def LldpIndex.chassisId (varbinds : List LldpVarbind) (row : LldpIndex) : Option Value :=
  ((varbinds.filter fun x => x.index = row).filter fun x => x.column = .remChassisId).getLast?.map (·.value)

theorem remoteChassisId_foldl (xs : List LldpVarbind) (n : LldpNeighbor) :
    (xs.foldl LldpNeighbor.set n).remoteChassisId =
      match (xs.filter fun x => x.column = .remChassisId).getLast? with
      | some x => chassisText x.value
      | none => n.remoteChassisId := by
  induction xs using List.reverseRecOn with
  | nil => rfl
  | append_singleton xs x ih =>
    rw [List.foldl_append, List.filter_append]
    obtain ⟨index, column, value⟩ := x
    cases column with
    | remChassisId => simp [LldpNeighbor.set]
    | remManAddr => cases value <;> simpa [LldpNeighbor.set] using ih
    | remPortId | remPortDesc | remSysName | remSysDesc => simpa [LldpNeighbor.set] using ih

variable {varbinds : List LldpVarbind} {row : LldpIndex} {ifIndex : BitVec 32}

/-- The neighbor found for the port is what the row tells. -/
theorem find_lldpNeighbors (h : OnlyNeighbor varbinds row ifIndex) :
    ((lldpNeighbors varbinds).find? fun n => n.localPortIndex == ifIndex) = some (row.neighbor varbinds) := by
  have hown (k : BitVec 32 × BitVec 32) (n : LldpNeighbor) (hport : k.1 = ifIndex)
      (hk : (Assoc.gather (fun x => x.index.key) (fun k =>
        { localPortIndex := k.1 }) LldpNeighbor.set varbinds).lookup k =
        some n) : n = row.neighbor varbinds := by
    rw [Assoc.lookup_gather] at hk
    split at hk
    · next hmem =>
      obtain ⟨x, hx, rfl⟩ := List.mem_map.mp hmem
      have hrow : x.index = row := h.only _ (mem_lldpRows.mpr ⟨x, hx, rfl⟩) hport
      have hsame : (varbinds.filter fun y => y.index.key = x.index.key) = varbinds.filter fun y => y.index = row := by
        refine List.filter_congr fun y hy => ?_
        have hiff : y.index.key = x.index.key ↔ y.index = row := by
          constructor
          · intro he
            exact h.only _ (mem_lldpRows.mpr ⟨y, hy, rfl⟩) ((congrArg Prod.fst he).trans hport)
          · rintro he
            rw [he, hrow]
        simp [hiff]
      rw [← Option.some.inj hk, hsame, hrow]
      rfl
    · cases hk
  obtain ⟨x, hx, hrow⟩ := mem_lldpRows.mp h.mem
  obtain ⟨n, hn⟩ : ∃ n, (Assoc.gather (fun x => x.index.key) (fun k => { localPortIndex := k.1 }) LldpNeighbor.set
      varbinds).lookup row.key = some n := by
    rw [Assoc.lookup_gather, if_pos (List.mem_map.mpr ⟨x, hx, by rw [hrow]⟩)]
    exact ⟨_, rfl⟩
  have hmem : row.neighbor varbinds ∈ lldpNeighbors varbinds := by
    rw [← hown row.key n h.port hn]
    exact Assoc.mem_values.mpr ⟨_, hn⟩
  cases hfind : (lldpNeighbors varbinds).find? fun n => n.localPortIndex == ifIndex with
  | none =>
    have hport := List.find?_eq_none.mp hfind _ hmem
    simp [h.port] at hport
  | some m =>
    obtain ⟨k, hk⟩ := Assoc.mem_values.mp (List.mem_of_find?_eq_some hfind)
    have hport : m.localPortIndex = ifIndex := by simpa using List.find?_some hfind
    have hkey : m.localPortIndex = k.1 := by
      rw [Assoc.lookup_gather] at hk
      split at hk
      · rw [← Option.some.inj hk, localPortIndex_foldl]
      · cases hk
    rw [hown k m (hkey.symm.trans hport) hk]

/-! ## What is kept -/

/-- When the kind told from the text is the one that was announced. -/
def ChassisIdKept (subtype : UInt8) (octets : List UInt8) : Prop :=
  (subtype = 4 ∧ octets.length = 6 ∧ Utf8.fromUtf8 octets = none) ∨
    (subtype = 7 ∧ ∃ id, Utf8.fromUtf8 octets = some id ∧ looksLikeMac id = false)

theorem chassisIdOfText_mac {id mac : String} :
    chassisIdOfText id = .macAddress mac ↔ looksLikeMac id = true ∧ id = mac := by
  unfold chassisIdOfText
  split <;> simp_all

theorem chassisIdOfText_local {id name : String} :
    chassisIdOfText id = .locallyAssigned name ↔ looksLikeMac id = false ∧ id = name := by
  unfold chassisIdOfText
  split <;> simp_all

theorem chassisText_octetString (octets : List UInt8) :
    chassisText (.octetString octets) = some ((Utf8.fromUtf8 octets).getD (formatHex octets)) := by
  simp only [chassisText, valueToString]
  cases Utf8.fromUtf8 octets <;> rfl

/-- For a MAC address. -/
theorem keeps_mac {octets : List UInt8} (h : octets.length = 6) :
    chassisIdOfText ((Utf8.fromUtf8 octets).getD (formatHex octets)) = .macAddress (formatHex octets) ↔
      Utf8.fromUtf8 octets = none := by
  rw [chassisIdOfText_mac]
  cases hutf8 : Utf8.fromUtf8 octets with
  | none => simp [looksLikeMac_formatHex h]
  | some id =>
    -- as text it has 6 characters at most
    have hle := Utf8.length_fromUtf8_le hutf8
    have hne : id ≠ formatHex octets := by
      rintro rfl
      rw [length_formatHex h] at hle
      omega
    simp [hne]

/-- For a locally assigned id. -/
theorem keeps_local {octets : List UInt8} :
    chassisIdOfText ((Utf8.fromUtf8 octets).getD (formatHex octets)) = .locallyAssigned (Utf8.fromUtf8Lossy octets) ↔
      ∃ id, Utf8.fromUtf8 octets = some id ∧ looksLikeMac id = false := by
  rw [chassisIdOfText_local]
  cases hutf8 : Utf8.fromUtf8 octets with
  | none =>
    have hne : formatHex octets ≠ Utf8.fromUtf8Lossy octets := by
      intro he
      have hmem := Utf8.replacement_mem hutf8
      rw [← he] at hmem
      exact replacement_notMem_formatHex octets hmem
    simp [hne]
  | some id => simp [Utf8.fromUtf8Lossy_of_fromUtf8 hutf8]

theorem keeps_iff (subtype : UInt8) (octets : List UInt8) :
    (chassisText (.octetString octets)).map chassisIdOfText = LldpChassisId.fromSnmp subtype octets ↔
      ChassisIdKept subtype octets := by
  have hkept (n : Nat) (hn : subtype.toNat = n) (h4 : n ≠ 4) (h7 : n ≠ 7) : ¬ChassisIdKept subtype octets := by
    rintro (⟨rfl, -⟩ | ⟨rfl, -⟩)
    · exact h4 hn.symm
    · exact h7 hn.symm
  have hother (x : LldpChassisId) (hmac : ∀ mac, x ≠ .macAddress mac) (hlocal : ∀ name, x ≠ .locallyAssigned name)
      (id : String) : chassisIdOfText id ≠ x := by
    rintro rfl
    unfold chassisIdOfText at hmac hlocal
    split at hmac
    · exact hmac _ rfl
    · next hlooks => exact hlocal id (by rw [if_neg hlooks])
  have hnone (n : Nat) (hn : subtype.toNat = n) (h4 : n ≠ 4) (h7 : n ≠ 7) (x : LldpChassisId)
      (hmac : ∀ mac, x ≠ .macAddress mac) (hlocal : ∀ name, x ≠ .locallyAssigned name) (id : String) :
      some (chassisIdOfText id) = some x ↔ ChassisIdKept subtype octets := by
    simp [hkept n hn h4 h7, hother x hmac hlocal id]
  rw [chassisText_octetString, Option.map_some]
  unfold LldpChassisId.fromSnmp
  split
  · next h => exact hnone 1 h (by omega) (by omega) _ (by simp) (by simp) _
  · next h => exact hnone 2 h (by omega) (by omega) _ (by simp) (by simp) _
  · next h => exact hnone 3 h (by omega) (by omega) _ (by simp) (by simp) _
  · next h =>
    obtain rfl : subtype = 4 := UInt8.toNat_inj.mp h
    split
    · next hlen => simp [keeps_mac hlen, ChassisIdKept, hlen]
    · next hlen => simp [ChassisIdKept, hlen]
  · next h =>
    cases parseNetworkAddress octets with
    | none => simp [hkept 5 h (by omega) (by omega)]
    | some ip => exact hnone 5 h (by omega) (by omega) _ (by simp) (by simp) _
  · next h => exact hnone 6 h (by omega) (by omega) _ (by simp) (by simp) _
  · next h =>
    obtain rfl : subtype = 7 := UInt8.toNat_inj.mp h
    simp [keeps_local, ChassisIdKept]
  · next h1 h2 h3 h4 h5 h6 h7 =>
    simp [hkept subtype.toNat rfl (fun h => h4 h) (fun h => h7 h)]

/-- **The chassis id of the only neighbor on a port reaches the server as what
its subtype and its bytes say exactly when it is a MAC address that is not
UTF-8, or a locally assigned id that is and does not look like a MAC address.** -/
theorem lldpChassisId_eq_fromSnmp_iff {entry : IfTableEntry} (hrow : OnlyNeighbor varbinds row entry.ifIndex)
    {octets : List UInt8} (hoctets : row.chassisId varbinds = some (.octetString octets)) (subtype : UInt8)
    (networkId : Uuid) (cdpNeighbors : List CdpNeighbor) :
    (convertSnmpIfEntry entry networkId (lldpNeighbors varbinds) cdpNeighbors).lldpChassisId =
      LldpChassisId.fromSnmp subtype octets ↔ ChassisIdKept subtype octets := by
  have htext : (row.neighbor varbinds).remoteChassisId = chassisText (.octetString octets) := by
    obtain ⟨x, hx, hvalue⟩ := Option.map_eq_some_iff.mp hoctets
    rw [LldpIndex.neighbor, remoteChassisId_foldl, hx]
    exact congrArg chassisText hvalue
  rw [← keeps_iff, ← htext]
  simp only [convertSnmpIfEntry, find_lldpNeighbors hrow, Option.bind_some]

/-- An agent with one neighbor, on port 3, and the neighbor's chassis id. -/
def neighborAgent (octets : List UInt8) (column : LldpColumn) : List Response :=
  match column with
  | .remChassisId => [.varbind (column.oid ++ [0, 3, 1]) (.octetString octets)]
  | _ => [.empty]

theorem neighborAgent_only (octets : List UInt8) :
    OnlyNeighbor (lldpVarbinds (neighborAgent octets)) ⟨0, 3, 1⟩ 3 := by
  have hrows : lldpRows (lldpVarbinds (neighborAgent octets)) = [⟨0, 3, 1⟩] := rfl
  refine ⟨by simp [hrows], rfl, fun i hi _ => ?_⟩
  rw [hrows] at hi
  exact List.mem_singleton.mp hi

/-- `b8:27:eb:12:34:56` is kept. -/
theorem lldpChassisId_raspberry :
    (convertSnmpIfEntry { ifIndex := 3 } Uuid.nil
      (lldpNeighbors (lldpVarbinds (neighborAgent [0xB8, 0x27, 0xEB, 0x12, 0x34, 0x56]))) []).lldpChassisId =
        LldpChassisId.fromSnmp 4 [0xB8, 0x27, 0xEB, 0x12, 0x34, 0x56] :=
  (lldpChassisId_eq_fromSnmp_iff (neighborAgent_only _) rfl 4 Uuid.nil []).mpr
    (.inl ⟨rfl, rfl, by decide⟩)

/-- `00:1a:2b:3c:4d:5e` is not: its bytes are text. A text with NUL is sent like
any other, and it is the column on the server that refuses it. -/
theorem lldpChassisId_ascii_mac :
    (convertSnmpIfEntry { ifIndex := 3 } Uuid.nil
      (queryLldpNeighbors (neighborAgent [0x00, 0x1A, 0x2B, 0x3C, 0x4D, 0x5E])) []).lldpChassisId =
        some (.locallyAssigned "\x00\x1a+<M^") ∧
      some (.locallyAssigned "\x00\x1a+<M^") ≠ LldpChassisId.fromSnmp 4 [0x00, 0x1A, 0x2B, 0x3C, 0x4D, 0x5E] := by
  decide

end Netvisor.Snmp
