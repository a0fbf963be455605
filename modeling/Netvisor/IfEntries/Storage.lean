/-
How an if-entry is kept in its table: `to_params`, the `INSERT` and `UPDATE` of the
generic storage, and `from_row`.

Every field is read back as it was stored, but for `speed_bps`: it is bound as an
`i32`, and it is not named at all where it is absent.
-/
import Mathlib.Algebra.Group.Int.Defs
import Netvisor.IfEntries.AddressTexts
import Netvisor.Lib.Assoc

namespace Netvisor

/-! ## LLDP identifiers as JSON -/

/-- `serde_json::Value`. -/
inductive Json
  | null
  | bool (b : Bool)
  | number (n : Int)
  | string (s : String)
  | array (values : List Json)
  | object (fields : List (String × Json))

namespace Json

def isNull : Json → Bool
  | null => true
  | _ => false

def asString : Json → Option String
  | string s => some s
  | _ => none

/-- `#[serde(tag = "subtype", content = "value")]` -/
def tagged (subtype value : String) : Json := object [("subtype", string subtype), ("value", string value)]

/-- The tag and the content, from an object or an array of the two. -/
def untag : Json → Option (String × String)
  | object fields => do
    let subtype ← (← fields.lookup "subtype").asString
    let value ← (← fields.lookup "value").asString
    return (subtype, value)
  | array [subtype, value] => do return (← subtype.asString, ← value.asString)
  | _ => none

/-- An identifier that may be missing, in a column of its own. -/
def write {α : Type} (serialize : α → Json) (a : Option α) : Json := (a.map serialize).getD null

/-- What cannot be deserialized is none. -/
def read {α : Type} (deserialize : Json → Option α) (v : Option Json) : Option α :=
  v.bind fun v => if v.isNull then none else deserialize v

theorem read_write {α : Type} {serialize : α → Json} {deserialize : Json → Option α}
    (hnull : ∀ a, (serialize a).isNull = false) (hback : ∀ a, deserialize (serialize a) = some a) (a : Option α) :
    read deserialize (some (write serialize a)) = a := by
  cases a with
  | none => rfl
  | some a => simp [read, write, hnull, hback]

@[simp] theorem untag_tagged (subtype value : String) : (tagged subtype value).untag = some (subtype, value) := by
  simp [tagged, untag, List.lookup_cons, asString]

end Json

namespace LldpChassisId

def serialize : LldpChassisId → Json
  | chassisComponent id => Json.tagged "ChassisComponent" id
  | interfaceAlias name => Json.tagged "InterfaceAlias" name
  | portComponent id => Json.tagged "PortComponent" id
  | macAddress mac => Json.tagged "MacAddress" mac
  | networkAddress ip => Json.tagged "NetworkAddress" ip.display
  | interfaceName name => Json.tagged "InterfaceName" name
  | locallyAssigned id => Json.tagged "LocallyAssigned" id

def deserialize (v : Json) : Option LldpChassisId := do
  let (subtype, value) ← v.untag
  match subtype with
  | "ChassisComponent" => some (chassisComponent value)
  | "InterfaceAlias" => some (interfaceAlias value)
  | "PortComponent" => some (portComponent value)
  | "MacAddress" => some (macAddress value)
  | "NetworkAddress" => (IpAddr.parse value).map networkAddress
  | "InterfaceName" => some (interfaceName value)
  | "LocallyAssigned" => some (locallyAssigned value)
  | _ => none

theorem deserialize_serialize (c : LldpChassisId) : deserialize c.serialize = some c := by
  cases c <;> simp [serialize, deserialize, IpAddr.parse_display]

theorem isNull_serialize (c : LldpChassisId) : c.serialize.isNull = false := by
  cases c <;> rfl

end LldpChassisId

namespace LldpPortId

def serialize : LldpPortId → Json
  | interfaceAlias name => Json.tagged "InterfaceAlias" name
  | portComponent id => Json.tagged "PortComponent" id
  | macAddress mac => Json.tagged "MacAddress" mac
  | networkAddress ip => Json.tagged "NetworkAddress" ip.display
  | interfaceName name => Json.tagged "InterfaceName" name
  | agentCircuitId id => Json.tagged "AgentCircuitId" id
  | locallyAssigned id => Json.tagged "LocallyAssigned" id

def deserialize (v : Json) : Option LldpPortId := do
  let (subtype, value) ← v.untag
  match subtype with
  | "InterfaceAlias" => some (interfaceAlias value)
  | "PortComponent" => some (portComponent value)
  | "MacAddress" => some (macAddress value)
  | "NetworkAddress" => (IpAddr.parse value).map networkAddress
  | "InterfaceName" => some (interfaceName value)
  | "AgentCircuitId" => some (agentCircuitId value)
  | "LocallyAssigned" => some (locallyAssigned value)
  | _ => none

theorem deserialize_serialize (p : LldpPortId) : deserialize p.serialize = some p := by
  cases p <;> simp [serialize, deserialize, IpAddr.parse_display]

theorem isNull_serialize (p : LldpPortId) : p.serialize.isNull = false := by
  cases p <;> rfl

end LldpPortId

/-! ## Statuses as integers -/

namespace IfAdminStatus

/-- `i32::from` -/
def toI32 : IfAdminStatus → BitVec 32
  | up => 1
  | down => 2
  | testing => 3

theorem ofInt_toI32 (s : IfAdminStatus) : ofInt s.toI32.toInt = s := by
  cases s <;> decide

end IfAdminStatus

namespace IfOperStatus

/-- `i32::from` -/
def toI32 : IfOperStatus → BitVec 32
  | up => 1
  | down => 2
  | testing => 3
  | unknown => 4
  | dormant => 5
  | notPresent => 6
  | lowerLayerDown => 7

theorem ofInt_toI32 (s : IfOperStatus) : ofInt s.toI32.toInt = s := by
  cases s <;> decide

end IfOperStatus

/-! ## Rows -/

/-- What a statement binds. -/
inductive SqlValue
  | uuid (v : Uuid)
  | optionalUuid (v : Option Uuid)
  | string (v : String)
  | optionalString (v : Option String)
  | i32 (v : BitVec 32)
  | timestamp (v : DateTime)
  | optionalMacAddress (v : Option MacAddress)
  | optionalIpAddr (v : Option IpAddr)
  | jsonValue (v : Json)

/-- What a column holds. -/
inductive Datum
  | null
  | uuid (v : Uuid)
  | text (v : String)
  | integer (v : BitVec 32)
  | bigint (v : BitVec 64)
  | timestamptz (v : DateTime)
  | macaddr (v : MacAddress)
  | inet (v : IpAddr) (prefixLength : Nat)
  | jsonb (v : Json)

/-- The prefix length of a single address. -/
def IpAddr.maxPrefix : IpAddr → Nat
  | v4 _ => 32
  | v6 _ => 128

/-- `bind_value` -/
def SqlValue.bindValue : SqlValue → Datum
  | uuid v => .uuid v
  | optionalUuid v => v.elim .null .uuid
  | string v => .text v
  | optionalString v => v.elim .null .text
  | i32 v => .integer v
  | timestamp v => .timestamptz v
  | optionalMacAddress v => v.elim .null .macaddr
  | optionalIpAddr v => v.elim .null fun ip => .inet ip ip.maxPrefix
  | jsonValue v => .jsonb v

/-- An integer is widened where the column is a `BIGINT`. -/
def Datum.cast (column : String) : Datum → Datum
  | integer v => if column = "speed_bps" then bigint (v.signExtend 64) else integer v
  | d => d

abbrev PgRow := String → Datum

namespace PgRow

/-- The named columns take the bound values, and the others keep theirs. -/
def assign (params : List (String × SqlValue)) (row : PgRow) : PgRow := fun column =>
  match params.lookup column with
  | some value => value.bindValue.cast column
  | none => row column

/-- `build_insert_query`: only `speed_bps` is ever left out, and it has no default. -/
def insert (columns : List String) (values : List SqlValue) : PgRow :=
  assign (columns.zip values) fun _ => .null

/-- `build_update_query`: `SET` names all but the first column, which is in the `WHERE`. -/
def update (columns : List String) (values : List SqlValue) (row : PgRow) : PgRow :=
  match values, row "id" with
  | .uuid id :: _, .uuid stored => if id = stored then assign ((columns.zip values).drop 1) row else row
  | _, _ => row

end PgRow

/-- `sqlx::Decode` -/
class Decode (α : Type) where
  decode : Datum → Option α

instance : Decode Uuid where
  decode
    | .uuid v => some v
    | _ => none

instance : Decode String where
  decode
    | .text v => some v
    | _ => none

instance : Decode (BitVec 32) where
  decode
    | .integer v => some v
    | _ => none

instance : Decode (BitVec 64) where
  decode
    | .bigint v => some v
    | _ => none

instance : Decode DateTime where
  decode
    | .timestamptz v => some v
    | _ => none

instance : Decode MacAddress where
  decode
    | .macaddr v => some v
    | _ => none

/-- An address is no network. -/
instance : Decode IpAddr where
  decode
    | .inet v prefixLength => if prefixLength = v.maxPrefix then some v else none
    | _ => none

instance : Decode Json where
  decode
    | .jsonb v => some v
    | _ => none

instance {α : Type} [Decode α] : Decode (Option α) where
  decode
    | .null => some none
    | d => (Decode.decode d).map some

/-- `get`, which panics on what it cannot decode. -/
def PgRow.get {α : Type} [Decode α] (row : PgRow) (column : String) : Option α := Decode.decode (row column)

/-! ## What is bound is read back -/

section

variable (column : String)

theorem decode_uuid (v : Uuid) : Decode.decode ((SqlValue.uuid v).bindValue.cast column) = some v := rfl

theorem decode_string (v : String) : Decode.decode ((SqlValue.string v).bindValue.cast column) = some v := rfl

theorem decode_timestamp (v : DateTime) : Decode.decode ((SqlValue.timestamp v).bindValue.cast column) = some v := rfl

theorem decode_jsonValue (v : Json) :
    Decode.decode ((SqlValue.jsonValue v).bindValue.cast column) = some (some v) := rfl

theorem decode_i32 {column : String} (h : column ≠ "speed_bps") (v : BitVec 32) :
    Decode.decode ((SqlValue.i32 v).bindValue.cast column) = some v := by
  simp [SqlValue.bindValue, Datum.cast, h, Decode.decode]

theorem decode_optionalUuid (v : Option Uuid) :
    Decode.decode ((SqlValue.optionalUuid v).bindValue.cast column) = some v := by
  cases v <;> rfl

theorem decode_optionalString (v : Option String) :
    Decode.decode ((SqlValue.optionalString v).bindValue.cast column) = some v := by
  cases v <;> rfl

theorem decode_optionalMacAddress (v : Option MacAddress) :
    Decode.decode ((SqlValue.optionalMacAddress v).bindValue.cast column) = some v := by
  cases v <;> rfl

theorem decode_optionalIpAddr (v : Option IpAddr) :
    Decode.decode ((SqlValue.optionalIpAddr v).bindValue.cast column) = some v := by
  cases v with
  | none => rfl
  | some ip => simp [SqlValue.bindValue, Datum.cast, Decode.decode]

end

theorem PgRow.assign_of_mem {params : List (String × SqlValue)} {column : String} {value : SqlValue} (row : PgRow)
    (hnodup : (params.map Prod.fst).Nodup) (h : (column, value) ∈ params) :
    PgRow.assign params row column = value.bindValue.cast column := by
  have hlookup : params.lookup column = some value := (Assoc.lookup_eq_some_iff hnodup).mpr h
  simp [PgRow.assign, hlookup]

/-- Assigning what the row has already is no change. -/
theorem PgRow.assign_cons_of_eq {params : List (String × SqlValue)} {column : String} {value : SqlValue} {row : PgRow}
    (hnot : column ∉ params.map Prod.fst) (h : row column = value.bindValue.cast column) :
    PgRow.assign ((column, value) :: params) row = PgRow.assign params row := by
  have hlookup : params.lookup column = none := by
    rw [List.lookup_eq_none_iff]
    intro p hp
    have : p.1 ≠ column := fun heq => hnot (List.mem_map.mpr ⟨p, hp, heq⟩)
    simpa using this.symm
  funext c
  by_cases hc : c = column
  · subst hc
    simp [PgRow.assign, hlookup, h]
  · have hne : (c == column) = false := by simpa using hc
    simp [PgRow.assign, List.lookup_cons, hne]

/-! ## If-entries -/

namespace IfEntry

/-- The columns of both kinds of neighbor, of which one is set at most. -/
def neighborColumns : Option Neighbor → Option Uuid × Option Uuid
  | some (.ifEntry id) => (some id, none)
  | some (.host id) => (none, some id)
  | none => (none, none)

def toParams (e : IfEntry) : List String × List SqlValue :=
  let (neighborIfEntryId, neighborHostId) := neighborColumns e.base.neighbor
  let lldpChassisJson := Json.write LldpChassisId.serialize e.base.lldpChassisId
  let lldpPortJson := Json.write LldpPortId.serialize e.base.lldpPortId
  let columns :=
    ["id", "host_id", "network_id", "if_index", "if_descr", "if_alias", "if_type", "admin_status", "oper_status",
      "mac_address", "interface_id", "neighbor_if_entry_id", "neighbor_host_id", "lldp_chassis_id", "lldp_port_id",
      "lldp_sys_name", "lldp_port_desc", "lldp_mgmt_addr", "lldp_sys_desc", "cdp_device_id", "cdp_port_id",
      "cdp_platform", "cdp_address", "created_at", "updated_at"]
  let values : List SqlValue :=
    [.uuid e.id, .uuid e.base.hostId, .uuid e.base.networkId, .i32 e.base.ifIndex, .string e.base.ifDescr,
      .optionalString e.base.ifAlias, .i32 e.base.ifType, .i32 e.base.adminStatus.toI32, .i32 e.base.operStatus.toI32,
      .optionalMacAddress e.base.macAddress, .optionalUuid e.base.interfaceId, .optionalUuid neighborIfEntryId,
      .optionalUuid neighborHostId, .jsonValue lldpChassisJson, .jsonValue lldpPortJson,
      .optionalString e.base.lldpSysName, .optionalString e.base.lldpPortDesc, .optionalIpAddr e.base.lldpMgmtAddr,
      .optionalString e.base.lldpSysDesc, .optionalString e.base.cdpDeviceId, .optionalString e.base.cdpPortId,
      .optionalString e.base.cdpPlatform, .optionalIpAddr e.base.cdpAddress, .timestamp e.createdAt,
      .timestamp e.updatedAt]
  -- BIGINT needs special handling
  if e.base.speedBps.isSome then
    (columns.insertIdx 7 "speed_bps", values.insertIdx 7 (.i32 ((e.base.speedBps.getD 0).truncate 32)))
  else (columns, values)

def neighborOf : Option Uuid → Option Uuid → Option Neighbor
  | some id, none => some (.ifEntry id)
  | none, some id => some (.host id)
  | none, none => none
  | some id, some _ => some (.ifEntry id)

def fromRow (row : PgRow) : Option IfEntry := do
  let adminStatusRaw : BitVec 32 ← row.get "admin_status"
  let operStatusRaw : BitVec 32 ← row.get "oper_status"
  let speedBps : Option (BitVec 64) ← row.get "speed_bps"
  let macAddress : Option MacAddress ← row.get "mac_address"
  let neighborIfEntryId : Option Uuid ← row.get "neighbor_if_entry_id"
  let neighborHostId : Option Uuid ← row.get "neighbor_host_id"
  let lldpChassisJson : Option Json ← row.get "lldp_chassis_id"
  let lldpPortJson : Option Json ← row.get "lldp_port_id"
  return {
    id := ← row.get "id"
    createdAt := ← row.get "created_at"
    updatedAt := ← row.get "updated_at"
    base := {
      hostId := ← row.get "host_id"
      networkId := ← row.get "network_id"
      ifIndex := ← row.get "if_index"
      ifDescr := ← row.get "if_descr"
      ifAlias := ← row.get "if_alias"
      ifType := ← row.get "if_type"
      speedBps
      adminStatus := IfAdminStatus.ofInt adminStatusRaw.toInt
      operStatus := IfOperStatus.ofInt operStatusRaw.toInt
      macAddress
      interfaceId := ← row.get "interface_id"
      neighbor := neighborOf neighborIfEntryId neighborHostId
      lldpChassisId := Json.read LldpChassisId.deserialize lldpChassisJson
      lldpPortId := Json.read LldpPortId.deserialize lldpPortJson
      lldpSysName := ← row.get "lldp_sys_name"
      lldpPortDesc := ← row.get "lldp_port_desc"
      -- an address that cannot be read is none
      lldpMgmtAddr := (row.get "lldp_mgmt_addr").join
      lldpSysDesc := ← row.get "lldp_sys_desc"
      cdpDeviceId := ← row.get "cdp_device_id"
      cdpPortId := ← row.get "cdp_port_id"
      cdpPlatform := ← row.get "cdp_platform"
      cdpAddress := (row.get "cdp_address").join } }

/-- The row that `create` leaves. -/
def created (e : IfEntry) : PgRow := PgRow.insert e.toParams.1 e.toParams.2

/-- The row that `update` leaves of an older one. -/
def updated (e : IfEntry) (row : PgRow) : PgRow := PgRow.update e.toParams.1 e.toParams.2 row

/-- The columns a statement names, with their values. -/
def params (e : IfEntry) : List (String × SqlValue) := e.toParams.1.zip e.toParams.2

theorem nodup_params (e : IfEntry) : (e.params.map Prod.fst).Nodup := by
  cases hspeed : e.base.speedBps with
  | none => simp [params, toParams, hspeed]
  | some v => simp [params, toParams, hspeed]

/-- All columns but that of the speed are named always. -/
theorem mem_params (e : IfEntry) :
    ∀ p ∈ [("id", SqlValue.uuid e.id), ("host_id", .uuid e.base.hostId), ("network_id", .uuid e.base.networkId),
      ("if_index", .i32 e.base.ifIndex), ("if_descr", .string e.base.ifDescr),
      ("if_alias", .optionalString e.base.ifAlias), ("if_type", .i32 e.base.ifType),
      ("admin_status", .i32 e.base.adminStatus.toI32), ("oper_status", .i32 e.base.operStatus.toI32),
      ("mac_address", .optionalMacAddress e.base.macAddress), ("interface_id", .optionalUuid e.base.interfaceId),
      ("neighbor_if_entry_id", .optionalUuid (neighborColumns e.base.neighbor).1),
      ("neighbor_host_id", .optionalUuid (neighborColumns e.base.neighbor).2),
      ("lldp_chassis_id", .jsonValue (Json.write LldpChassisId.serialize e.base.lldpChassisId)),
      ("lldp_port_id", .jsonValue (Json.write LldpPortId.serialize e.base.lldpPortId)),
      ("lldp_sys_name", .optionalString e.base.lldpSysName), ("lldp_port_desc", .optionalString e.base.lldpPortDesc),
      ("lldp_mgmt_addr", .optionalIpAddr e.base.lldpMgmtAddr), ("lldp_sys_desc", .optionalString e.base.lldpSysDesc),
      ("cdp_device_id", .optionalString e.base.cdpDeviceId), ("cdp_port_id", .optionalString e.base.cdpPortId),
      ("cdp_platform", .optionalString e.base.cdpPlatform), ("cdp_address", .optionalIpAddr e.base.cdpAddress),
      ("created_at", .timestamp e.createdAt), ("updated_at", .timestamp e.updatedAt)], p ∈ e.params := by
  cases hspeed : e.base.speedBps with
  | none => simp [params, toParams, hspeed]
  | some v => simp [params, toParams, hspeed]

theorem get_assign {α : Type} [Decode α] {e : IfEntry} {row : PgRow} {column : String} {value : SqlValue}
    (h : (column, value) ∈ e.params) :
    (PgRow.assign e.params row).get column = Decode.decode (α := α) (value.bindValue.cast column) := by
  rw [PgRow.get, PgRow.assign_of_mem row e.nodup_params h]

/-- The speed that is read: the low 32 bits of what was stored, or what the row had. -/
def readSpeed (e : IfEntry) (row : PgRow) : Option (Option (BitVec 64)) :=
  match e.base.speedBps with
  | some v => some (some ((v.truncate 32).signExtend 64))
  | none => row.get "speed_bps"

theorem get_speed (e : IfEntry) (row : PgRow) : (PgRow.assign e.params row).get "speed_bps" = readSpeed e row := by
  cases hspeed : e.base.speedBps with
  | none =>
    have hunnamed : e.params.lookup "speed_bps" = none := by
      simp [params, toParams, hspeed, List.lookup_cons]
    simp [PgRow.get, PgRow.assign, hunnamed, readSpeed, hspeed]
  | some v =>
    have hmem : ("speed_bps", SqlValue.i32 (v.truncate 32)) ∈ e.params := by simp [params, toParams, hspeed]
    rw [get_assign hmem]
    simp [readSpeed, hspeed, SqlValue.bindValue, Datum.cast, Decode.decode]

theorem neighborOf_neighborColumns (n : Option Neighbor) :
    neighborOf (neighborColumns n).1 (neighborColumns n).2 = n := by
  rcases n with _ | id | id <;> rfl

/-- Every field but the speed is read as it was stored. -/
theorem fromRow_assign (e : IfEntry) (row : PgRow) :
    fromRow (PgRow.assign e.params row) = (readSpeed e row).map fun speedBps =>
        { e with base.speedBps := speedBps } := by
  have named := e.mem_params
  simp only [List.forall_mem_cons] at named
  obtain ⟨hid, hhost, hnetwork, hindex, hdescr, halias, htype, hadmin, hoper, hmac, hinterface, hifEntry,
    hneighborHost, hchassis, hport, hsysName, hportDesc, hmgmt, hsysDesc, hdevice, hcdpPort, hplatform, hcdpAddress,
    hcreated, hupdated, -⟩ := named
  simp only [fromRow, get_speed, get_assign hid, get_assign hhost, get_assign hnetwork, get_assign hindex,
    get_assign hdescr, get_assign halias, get_assign htype, get_assign hadmin, get_assign hoper, get_assign hmac,
    get_assign hinterface, get_assign hifEntry, get_assign hneighborHost, get_assign hchassis, get_assign hport,
    get_assign hsysName, get_assign hportDesc, get_assign hmgmt, get_assign hsysDesc, get_assign hdevice,
    get_assign hcdpPort, get_assign hplatform, get_assign hcdpAddress, get_assign hcreated, get_assign hupdated]
  have hinteger : ∀ column ∈ ["if_index", "if_type", "admin_status", "oper_status"], column ≠ "speed_bps" := by
    decide
  simp only [List.forall_mem_cons] at hinteger
  obtain ⟨nindex, ntype, nadmin, noper, -⟩ := hinteger
  simp only [decode_uuid, decode_string, decode_timestamp, decode_jsonValue, decode_i32 nindex, decode_i32 ntype,
    decode_i32 nadmin, decode_i32 noper, decode_optionalUuid, decode_optionalString, decode_optionalMacAddress,
    decode_optionalIpAddr, Option.bind_eq_bind, Option.bind_some, Option.join_some, IfAdminStatus.ofInt_toI32,
    IfOperStatus.ofInt_toI32, neighborOf_neighborColumns,
    Json.read_write LldpChassisId.isNull_serialize LldpChassisId.deserialize_serialize,
    Json.read_write LldpPortId.isNull_serialize LldpPortId.deserialize_serialize]
  cases readSpeed e row with
  | none => rfl
  | some speedBps => rfl

/-! ## The rows that are left -/

theorem created_eq (e : IfEntry) : e.created = PgRow.assign e.params fun _ => .null := rfl

/-- Leaving the id out of the `SET` is no loss. -/
theorem updated_eq {e : IfEntry} {row : PgRow} (hid : row "id" = .uuid e.id) :
    e.updated row = PgRow.assign e.params row := by
  have hnodup := e.nodup_params
  have hparams : e.params = ("id", .uuid e.id) :: e.params.tail ∧ e.updated row = PgRow.assign e.params.tail row := by
    cases hspeed : e.base.speedBps with
    | none => simp [params, updated, PgRow.update, toParams, hspeed, hid]
    | some v => simp [params, updated, PgRow.update, toParams, hspeed, hid]
  rw [hparams.1, List.map_cons, List.nodup_cons] at hnodup
  rw [hparams.2, hparams.1, List.tail_cons, PgRow.assign_cons_of_eq hnodup.1 hid]

/-- The speed comes back: it is an `i32`, or the column had none before. -/
def SpeedKept (e : IfEntry) (before : Datum) : Prop :=
  match e.base.speedBps with
  | some v => -2 ^ 31 ≤ v.toInt ∧ v.toInt < 2 ^ 31
  | none => before = .null

theorem signExtend_truncate_iff (v : BitVec 64) :
    (v.truncate 32).signExtend 64 = v ↔ -2 ^ 31 ≤ v.toInt ∧ v.toInt < 2 ^ 31 := by
  rw [← BitVec.toInt_inj, BitVec.toInt_signExtend_of_le (by decide), BitVec.toInt_setWidth]
  have hlt := v.isLt
  rw [BitVec.toInt_eq_toNat_cond, Int.bmod]
  split <;> split <;> omega

theorem get_speed_iff (row : PgRow) :
    row.get (α := Option (BitVec 64)) "speed_bps" = some none ↔ row "speed_bps" = .null := by
  unfold PgRow.get
  cases hd : row "speed_bps" <;> simp [Decode.decode]

theorem readSpeed_iff (e : IfEntry) (row : PgRow) :
    readSpeed e row = some e.base.speedBps ↔ e.SpeedKept (row "speed_bps") := by
  unfold readSpeed SpeedKept
  cases e.base.speedBps with
  | none => exact get_speed_iff row
  | some v => simpa using signExtend_truncate_iff v

theorem fromRow_assign_iff (e : IfEntry) (row : PgRow) :
    fromRow (PgRow.assign e.params row) = some e ↔ e.SpeedKept (row "speed_bps") := by
  rw [fromRow_assign, ← readSpeed_iff]
  cases readSpeed e row with
  | none => simp
  | some speedBps =>
    simp only [Option.map_some, Option.some.injEq]
    constructor
    · intro h
      rw [← h]
    · intro h
      rw [h]

/-- **An if-entry is read back as it was stored exactly when its speed is**, after its creation as after an
update of any row with its id. -/
theorem read_back_iff (e : IfEntry) :
    (fromRow e.created = some e ↔ e.SpeedKept .null) ∧
      ∀ row : PgRow, row "id" = .uuid e.id → (fromRow (e.updated row) = some e ↔ e.SpeedKept (row "speed_bps")) := by
  refine ⟨?_, fun row hid => ?_⟩
  · rw [created_eq, fromRow_assign_iff]
  · rw [updated_eq hid, fromRow_assign_iff]

theorem read_back_iff_gigabit :
    fromRow ({ base.speedBps := some 1000000000 } : IfEntry).created = some { base.speedBps := some 1000000000 } ∧
      (fromRow (({} : IfEntry).updated ({ base.speedBps := some 1000000000 } : IfEntry).created) = some {} ↔
        ({} : IfEntry).SpeedKept (.bigint 1000000000)) :=
  ⟨(read_back_iff _).1.mpr ⟨by decide, by decide⟩, (read_back_iff {}).2 _ rfl⟩

/-- Ten gigabits per second overflow, and a speed that is gone stays. -/
theorem not_read_back :
    ¬ (∀ e : IfEntry, fromRow e.created = some e) ∧
      ¬ (∀ (e : IfEntry) (row : PgRow), row "id" = .uuid e.id → fromRow (e.updated row) = some e) := by
  refine ⟨fun h => ?_, fun h => ?_⟩
  · have overflow : fromRow ({ base.speedBps := some 10000000000 } : IfEntry).created =
        some { base.speedBps := some 1410065408 } := by decide +kernel
    have := overflow.symm.trans (h _)
    exact absurd this (by decide)
  · have kept : fromRow (({} : IfEntry).updated ({ base.speedBps := some 1000000000 } : IfEntry).created) =
        some { base.speedBps := some 1000000000 } := by decide +kernel
    have := kept.symm.trans (h {} _ rfl)
    exact absurd this (by decide)

end IfEntry

end Netvisor
