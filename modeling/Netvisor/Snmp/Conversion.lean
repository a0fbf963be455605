/-
From an entry of the interface table to the entity that is sent to the server,
with the neighbor on its port, and how a chassis id is read where its subtype
is known.
-/
import Netvisor.Snmp.Queries

namespace Netvisor

/-! ## What LLDP says -/

def parseNetworkAddress : List UInt8 → Option IpAddr
  | [] => none
  | addrFamily :: addrBytes =>
    if addrFamily = 1 ∧ addrBytes.length = 4 then some (.v4 (Snmp.ofBytes 32 addrBytes))
    else if addrFamily = 2 ∧ addrBytes.length = 16 then some (.v6 (Snmp.ofBytes 128 addrBytes))
    else none

/-- A chassis id from its subtype and its bytes. -/
def LldpChassisId.fromSnmp (subtype : UInt8) (value : List UInt8) : Option LldpChassisId :=
  match subtype.toNat with
  | 1 => some (.chassisComponent (Utf8.fromUtf8Lossy value))
  | 2 => some (.interfaceAlias (Utf8.fromUtf8Lossy value))
  | 3 => some (.portComponent (Utf8.fromUtf8Lossy value))
  | 4 => if value.length = 6 then some (.macAddress (Snmp.formatHex value)) else none
  | 5 => (parseNetworkAddress value).map .networkAddress
  | 6 => some (.interfaceName (Utf8.fromUtf8Lossy value))
  | 7 => some (.locallyAssigned (Utf8.fromUtf8Lossy value))
  | _ => none

namespace Snmp

/-! ## The entity -/

/-- `xx:xx:xx:xx:xx:xx` has a colon and is 17 bytes long. -/
def looksLikeMac (id : String) : Bool := id.toList.contains ':' && id.utf8ByteSize == 17

def chassisIdOfText (id : String) : LldpChassisId :=
  if looksLikeMac id then .macAddress id else .locallyAssigned id

def convertSnmpIfEntry (entry : IfTableEntry) (networkId : Uuid) (lldpNeighbors : List LldpNeighbor)
    (cdpNeighbors : List CdpNeighbor) : IfEntryBase :=
  let lldpNeighbor := lldpNeighbors.find? fun n => n.localPortIndex == entry.ifIndex
  let cdpNeighbor := cdpNeighbors.find? fun n => n.localPortIndex == entry.ifIndex
  { hostId := Uuid.nil
    networkId
    ifIndex := entry.ifIndex
    ifDescr := entry.ifDescr.getD ""
    ifAlias := entry.ifAlias
    ifType := entry.ifType.getD 1
    speedBps := entry.ifSpeed
    adminStatus := .ofInt (entry.ifAdminStatus.getD 1).toInt
    operStatus := .ofInt (entry.ifOperStatus.getD 1).toInt
    macAddress := entry.ifPhysAddress
    interfaceId := none
    neighbor := none
    lldpChassisId := lldpNeighbor.bind fun n => n.remoteChassisId.map chassisIdOfText
    lldpPortId := lldpNeighbor.bind fun n => n.remotePortId.map .interfaceName
    lldpSysName := lldpNeighbor.bind (·.remoteSysName)
    lldpPortDesc := lldpNeighbor.bind (·.remotePortDesc)
    lldpMgmtAddr := lldpNeighbor.bind (·.remoteMgmtAddr)
    lldpSysDesc := lldpNeighbor.bind (·.remoteSysDesc)
    cdpDeviceId := cdpNeighbor.bind (·.remoteDeviceId)
    cdpPortId := cdpNeighbor.bind (·.remotePortId)
    cdpPlatform := cdpNeighbor.bind (·.remotePlatform)
    cdpAddress := cdpNeighbor.bind (·.remoteAddress) }

end Snmp

end Netvisor
