/-
The daemon's table queries. A column is walked with one request after the
other until the answer is not of the column, and each answer is put into the
entry its object identifier names.

An answer's arcs start with the column's, so that it is an object identifier
to go on from, and a query fails only when it gets no session.
-/
import Netvisor.Lib.Gather
import Netvisor.Lib.Sorting
import Netvisor.Snmp.Values

namespace Netvisor.Snmp

/-- How a request ends. -/
inductive Response
  | varbind (oid : Oid) (value : Value)
  /-- An answer that holds nothing. -/
  | empty
  | failed
  | timedOut

def maxWalkEntries : Nat := 10000

/-- What a walk of a column comes by: the rest of each object identifier, with
the value. The responses are those to its requests, one after the other. -/
def walk (base : Oid) : Nat → List Response → List (Oid × Value)
  | n + 1, .varbind oid value :: responses =>
    if (oidToVec oid).length ≤ base.length ∨ !base.isPrefixOf (oidToVec oid) then []
    else ((oidToVec oid).drop base.length, value) :: walk base n responses
  | _, _ => []

/-- `as i32`. -/
def asI32 (n : Nat) : BitVec 32 := BitVec.ofNat 32 n

theorem toInt_asI32 {n : Nat} (h : n < 2 ^ 31) : (asI32 n).toInt = n := by
  have hn : (asI32 n).toNat = n := by
    rw [asI32, BitVec.toNat_ofNat]
    omega
  rw [BitVec.toInt_eq_toNat_cond, hn]
  split <;> omega

theorem asI32_inj {m n : Nat} (hm : m < 2 ^ 31) (hn : n < 2 ^ 31) (h : asI32 m = asI32 n) : m = n := by
  have hint : (m : Int) = n := by rw [← toInt_asI32 hm, ← toInt_asI32 hn, h]
  exact_mod_cast hint

/-! ## The interface table -/

structure IfTableEntry where
  ifIndex : BitVec 32
  ifDescr : Option String := none
  ifType : Option (BitVec 32) := none
  ifMtu : Option (BitVec 32) := none
  ifSpeed : Option (BitVec 64) := none
  ifPhysAddress : Option MacAddress := none
  ifAdminStatus : Option (BitVec 32) := none
  ifOperStatus : Option (BitVec 32) := none
  ifName : Option String := none
  ifAlias : Option String := none
deriving DecidableEq, Repr

inductive IfColumn
  | ifIndex
  | ifDescr
  | ifType
  | ifMtu
  | ifSpeed
  | ifPhysAddress
  | ifAdminStatus
  | ifOperStatus
  | ifName
  | ifHighSpeed
  | ifAlias
deriving DecidableEq, Repr

def IfColumn.oid : IfColumn → Oid
  | .ifIndex => [1, 3, 6, 1, 2, 1, 2, 2, 1, 1]
  | .ifDescr => [1, 3, 6, 1, 2, 1, 2, 2, 1, 2]
  | .ifType => [1, 3, 6, 1, 2, 1, 2, 2, 1, 3]
  | .ifMtu => [1, 3, 6, 1, 2, 1, 2, 2, 1, 4]
  | .ifSpeed => [1, 3, 6, 1, 2, 1, 2, 2, 1, 5]
  | .ifPhysAddress => [1, 3, 6, 1, 2, 1, 2, 2, 1, 6]
  | .ifAdminStatus => [1, 3, 6, 1, 2, 1, 2, 2, 1, 7]
  | .ifOperStatus => [1, 3, 6, 1, 2, 1, 2, 2, 1, 8]
  | .ifName => [1, 3, 6, 1, 2, 1, 31, 1, 1, 1, 1]
  | .ifHighSpeed => [1, 3, 6, 1, 2, 1, 31, 1, 1, 1, 15]
  | .ifAlias => [1, 3, 6, 1, 2, 1, 31, 1, 1, 1, 18]

def ifColumns : List IfColumn :=
  [.ifIndex, .ifDescr, .ifType, .ifMtu, .ifSpeed, .ifPhysAddress, .ifAdminStatus, .ifOperStatus, .ifName,
    .ifHighSpeed, .ifAlias]

/-- A value of the interface table, by the last arc of its object identifier. -/
structure IfVarbind where
  ifIndex : Nat
  column : IfColumn
  value : Value
deriving DecidableEq, Repr

def IfTableEntry.set (entry : IfTableEntry) (x : IfVarbind) : IfTableEntry :=
  match x.column with
  | .ifIndex => entry
  | .ifDescr => { entry with ifDescr := valueToString x.value }
  | .ifType => { entry with ifType := valueToI32 x.value }
  | .ifMtu => { entry with ifMtu := valueToI32 x.value }
  | .ifSpeed => if entry.ifSpeed.isNone then { entry with ifSpeed := valueToU64 x.value } else entry
  | .ifPhysAddress => { entry with ifPhysAddress := valueToMac x.value }
  | .ifAdminStatus => { entry with ifAdminStatus := valueToI32 x.value }
  | .ifOperStatus => { entry with ifOperStatus := valueToI32 x.value }
  | .ifName => { entry with ifName := valueToString x.value }
  -- reported in Mbps; the product of a release build
  | .ifHighSpeed => match valueToU64 x.value with
    | some mbps => { entry with ifSpeed := some (mbps * 1000000) }
    | none => entry
  | .ifAlias => { entry with ifAlias := valueToString x.value }

def ifVarbinds (responses : IfColumn → List Response) : List IfVarbind :=
  ifColumns.flatMap fun column => (walk column.oid maxWalkEntries (responses column)).filterMap fun (suffix, value) =>
    suffix.getLast?.map fun ifIndex => { ifIndex, column, value }

/-- The entries some varbinds tell of. -/
def ifTableEntries (varbinds : List IfVarbind) : List IfTableEntry :=
  (Assoc.gather (fun x => asI32 x.ifIndex) (fun ifIndex =>
    { ifIndex }) IfTableEntry.set varbinds).values.insertionSort
    fun a b => a.ifIndex.toInt ≤ b.ifIndex.toInt

def walkIfTable (responses : IfColumn → List Response) : List IfTableEntry := ifTableEntries (ifVarbinds responses)

/-! ## Neighbors over LLDP -/

structure LldpNeighbor where
  localPortIndex : BitVec 32
  remoteChassisId : Option String := none
  remotePortId : Option String := none
  remotePortDesc : Option String := none
  remoteSysName : Option String := none
  remoteSysDesc : Option String := none
  remoteMgmtAddr : Option IpAddr := none
deriving DecidableEq, Repr

inductive LldpColumn
  | remChassisId
  | remPortId
  | remPortDesc
  | remSysName
  | remSysDesc
  | remManAddr
deriving DecidableEq, Repr

def LldpColumn.oid : LldpColumn → Oid
  | .remChassisId => [1, 0, 8802, 1, 1, 2, 1, 4, 1, 1, 5]
  | .remPortId => [1, 0, 8802, 1, 1, 2, 1, 4, 1, 1, 7]
  | .remPortDesc => [1, 0, 8802, 1, 1, 2, 1, 4, 1, 1, 8]
  | .remSysName => [1, 0, 8802, 1, 1, 2, 1, 4, 1, 1, 9]
  | .remSysDesc => [1, 0, 8802, 1, 1, 2, 1, 4, 1, 1, 10]
  | .remManAddr => [1, 0, 8802, 1, 1, 2, 1, 4, 2, 1, 2]

def lldpColumns : List LldpColumn :=
  [.remChassisId, .remPortId, .remPortDesc, .remSysName, .remSysDesc, .remManAddr]

/-- The index of a row of the remote table: `timeMark.localPortNum.remIndex`. -/
structure LldpIndex where
  timeMark : Nat
  localPortNum : Nat
  remIndex : Nat
deriving DecidableEq, Repr

/-- The index starts what follows the column; an address has more arcs. -/
def LldpIndex.ofSuffix : Oid → Option LldpIndex
  | timeMark :: localPortNum :: remIndex :: _ => some { timeMark, localPortNum, remIndex }
  | _ => none

/-- What a neighbor is kept under. -/
def LldpIndex.key (index : LldpIndex) : BitVec 32 × BitVec 32 := (asI32 index.localPortNum, asI32 index.remIndex)

structure LldpVarbind where
  index : LldpIndex
  column : LldpColumn
  value : Value
deriving DecidableEq, Repr

/-- A chassis id as text, in hex where it is none. -/
def chassisText (value : Value) : Option String :=
  (valueToString value).or (match value with
    | .octetString bytes => some (formatHex bytes)
    | _ => none)

def LldpNeighbor.set (neighbor : LldpNeighbor) (x : LldpVarbind) : LldpNeighbor :=
  match x.column with
  | .remChassisId => { neighbor with remoteChassisId := chassisText x.value }
  | .remPortId => { neighbor with remotePortId := valueToString x.value }
  | .remPortDesc => { neighbor with remotePortDesc := valueToString x.value }
  | .remSysName => { neighbor with remoteSysName := valueToString x.value }
  | .remSysDesc => { neighbor with remoteSysDesc := valueToString x.value }
  | .remManAddr => match x.value with
    | .octetString bytes => { neighbor with remoteMgmtAddr := parseLldpMgmtAddr bytes }
    | _ => neighbor

def lldpVarbinds (responses : LldpColumn → List Response) : List LldpVarbind :=
  lldpColumns.flatMap fun column =>
    (walk column.oid maxWalkEntries (responses column)).filterMap fun (suffix, value) =>
    (LldpIndex.ofSuffix suffix).map fun index => { index, column, value }

/-- The neighbors some varbinds tell of. -/
def lldpNeighbors (varbinds : List LldpVarbind) : List LldpNeighbor :=
  (Assoc.gather (fun x => x.index.key) (fun k => { localPortIndex := k.1 }) LldpNeighbor.set varbinds).values

def queryLldpNeighbors (responses : LldpColumn → List Response) : List LldpNeighbor :=
  lldpNeighbors (lldpVarbinds responses)

/-! ## Neighbors over CDP -/

structure CdpNeighbor where
  localPortIndex : BitVec 32
  remoteDeviceId : Option String := none
  remotePortId : Option String := none
  remotePlatform : Option String := none
  remoteAddress : Option IpAddr := none
deriving DecidableEq, Repr

end Netvisor.Snmp
