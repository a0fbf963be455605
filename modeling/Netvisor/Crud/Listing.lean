/-
Lists of entities, a page at a time: what a request's ordering and pagination
come to as a query, and the page and the total that the query answers with.

The database is what the query is put to. Which of the orders that the `ORDER BY`
allows it answers in is its own choice, made anew for each query.
-/
import Netvisor.Lib.Paging
import Netvisor.Lib.Sql

namespace Netvisor

open Sql (Expr LeftJoin)

variable {κ : Type}

/-! ## Filters -/

/-- The filter of a query on a table, by the rows that it asks for. Its conditions are on columns of the table alone.
As it is built, with a text and the values for it, it is `Where.StorableFilter`. -/
structure StorableFilter (κ : Type) where
  tableName : String
  conditions : Sql.Row κ → Bool
  limitValue : Option Nat := none
  offsetValue : Option Nat := none
  joins : List LeftJoin := []

namespace StorableFilter

def limit (filter : StorableFilter κ) (limit : Nat) : StorableFilter κ := { filter with limitValue := some limit }

def offset (filter : StorableFilter κ) (offset : Nat) : StorableFilter κ := { filter with offsetValue := some offset }

def join (filter : StorableFilter κ) (joinClause : LeftJoin) : StorableFilter κ :=
  { filter with joins := filter.joins ++ [joinClause] }

/-- `FROM`, `JOIN` and `WHERE`. -/
def lines [DecidableEq κ] (filter : StorableFilter κ) (db : Sql.Database κ) : List (Sql.Line κ) :=
  (Sql.source db filter.tableName filter.joins).filter fun line => filter.conditions line.row

/-- `LIMIT` and `OFFSET`. -/
def pagination (filter : StorableFilter κ) (out : List (Sql.Line κ)) : List (Sql.Line κ) :=
  match filter.limitValue with
  | none => out.drop (filter.offsetValue.getD 0)
  | some limit => Paging.page limit (filter.offsetValue.getD 0) out

end StorableFilter

structure PaginatedResult (κ : Type) where
  items : List (Sql.Row κ)
  totalCount : Nat

/-- The total and the page, where `out` is the order in which the database has the lines. -/
def getPaginated [DecidableEq κ] (db : Sql.Database κ) (filter : StorableFilter κ) (out : List (Sql.Line κ)) :
    PaginatedResult κ where
  items := (filter.pagination out).map Sql.Line.row
  totalCount := (filter.lines db).length

/-! ## Pagination -/

structure PaginationParams where
  limit : Option Nat := none
  offset : Option Nat := none

namespace PaginationParams

def defaultLimit : Nat := 50

def maxLimit : Nat := 1000

/-- `none` is no limit. -/
def effectiveLimit (self : PaginationParams) : Option Nat :=
  match self.limit with
  | some 0 => none
  | some n => some (min n maxLimit)
  | none => some defaultLimit

def effectiveOffset (self : PaginationParams) : Nat := self.offset.getD 0

def applyToFilter (self : PaginationParams) (filter : StorableFilter κ) : StorableFilter κ :=
  let filter := match self.effectiveLimit with
    | some limit => filter.limit limit
    | none => filter
  filter.offset self.effectiveOffset

end PaginationParams

/-! ## Ordering -/

inductive OrderDirection
  | asc
  | desc
deriving DecidableEq, Repr

def OrderDirection.toSql : OrderDirection → Sql.Direction
  | asc => .asc
  | desc => .desc

/-- The fields that a kind of entity can be ordered or grouped by. -/
class OrderField (O : Type) where
  toSql : O → Expr
  joinSql : O → Option LeftJoin := fun _ => none
  /-- The order of a list that names no field. -/
  defaultOrder : Sql.Part

/-- The joins of the fields, once where both have the same, and the group first. -/
def applyOrdering {O : Type} [OrderField O] (groupBy orderBy : Option O) (direction : Option OrderDirection)
    (filter : StorableFilter κ) (defaultOrder : Sql.Part) : StorableFilter κ × List Sql.Part :=
  let (filter, groupParts) := match groupBy with
    | some groupField =>
      let filter := match OrderField.joinSql groupField with
        | some join => filter.join join
        | none => filter
      (filter, [Sql.Part.mk (OrderField.toSql groupField) .asc])
    | none => (filter, [])
  let (filter, orderParts) := match orderBy with
    | some orderField =>
      let groupJoin := groupBy.bind OrderField.joinSql
      let filter := match OrderField.joinSql orderField with
        | some join => if groupJoin = some join then filter else filter.join join
        | none => filter
      (filter, [Sql.Part.mk (OrderField.toSql orderField) (direction.getD .asc).toSql])
    | none => (filter, [])
  (filter, if (groupParts ++ orderParts).isEmpty then [defaultOrder] else groupParts ++ orderParts)

/-- The query parameters of a list. -/
structure FilterQuery (O : Type) where
  groupBy : Option O := none
  orderBy : Option O := none
  orderDirection : Option OrderDirection := none
  pagination : PaginationParams := {}

/-- The query that a list is read with. -/
def FilterQuery.query {O : Type} [OrderField O] (self : FilterQuery O) (filter : StorableFilter κ) :
    StorableFilter κ × List Sql.Part :=
  applyOrdering self.groupBy self.orderBy self.orderDirection (self.pagination.applyToFilter filter)
    (OrderField.defaultOrder O)

/-! ## The fields of each kind of entity -/

inductive HostOrderField
  | createdAt
  | name
  | hostname
  | updatedAt
  | virtualizedBy
  | networkId

instance : OrderField HostOrderField where
  toSql
    | .createdAt => .column "hosts" "created_at"
    | .name => .column "hosts" "name"
    | .hostname => .column "hosts" "hostname"
    | .updatedAt => .column "hosts" "updated_at"
    | .networkId => .column "hosts" "network_id"
    | .virtualizedBy => .coalesce "virt_service" "name"
  joinSql
    | .virtualizedBy => some
      { table := "services", name := "virt_service", on := .detail "hosts" "virtualization" "service_id" }
    | _ => none
  defaultOrder := { expr := .column "hosts" "created_at", direction := .asc }

inductive ServiceOrderField
  | createdAt
  | name
  | updatedAt
  | host
  | networkId
  | position

instance : OrderField ServiceOrderField where
  toSql
    | .createdAt => .column "services" "created_at"
    | .name => .column "services" "name"
    | .updatedAt => .column "services" "updated_at"
    | .networkId => .column "services" "network_id"
    | .position => .column "services" "position"
    | .host => .coalesce "service_host" "name"
  joinSql
    | .host => some { table := "hosts", name := "service_host", on := .column "services" "host_id" }
    | _ => none
  defaultOrder := { expr := .column "services" "created_at", direction := .asc }

inductive DaemonOrderField
  | createdAt
  | name
  | lastSeen
  | updatedAt
  | networkId

instance : OrderField DaemonOrderField where
  toSql
    | .createdAt => .column "daemons" "created_at"
    | .name => .column "daemons" "name"
    | .lastSeen => .column "daemons" "last_seen"
    | .updatedAt => .column "daemons" "updated_at"
    | .networkId => .column "daemons" "network_id"
  defaultOrder := { expr := .column "daemons" "created_at", direction := .asc }

inductive SubnetOrderField
  | createdAt
  | name
  | cidr
  | subnetType
  | updatedAt
  | networkId

instance : OrderField SubnetOrderField where
  toSql
    | .createdAt => .column "subnets" "created_at"
    | .name => .column "subnets" "name"
    | .cidr => .column "subnets" "cidr"
    | .subnetType => .column "subnets" "subnet_type"
    | .updatedAt => .column "subnets" "updated_at"
    | .networkId => .column "subnets" "network_id"
  defaultOrder := { expr := .column "subnets" "created_at", direction := .asc }

inductive GroupOrderField
  | createdAt
  | name
  | groupType
  | updatedAt
  | networkId

instance : OrderField GroupOrderField where
  toSql
    | .createdAt => .column "groups" "created_at"
    | .name => .column "groups" "name"
    | .groupType => .column "groups" "group_type"
    | .updatedAt => .column "groups" "updated_at"
    | .networkId => .column "groups" "network_id"
  defaultOrder := { expr := .column "groups" "created_at", direction := .asc }

inductive TagOrderField
  | createdAt
  | name
  | color
  | updatedAt

instance : OrderField TagOrderField where
  toSql
    | .createdAt => .column "tags" "created_at"
    | .name => .column "tags" "name"
    | .color => .column "tags" "color"
    | .updatedAt => .column "tags" "updated_at"
  defaultOrder := { expr := .column "tags" "created_at", direction := .asc }

inductive SnmpCredentialOrderField
  | createdAt
  | name
  | version
  | updatedAt

instance : OrderField SnmpCredentialOrderField where
  toSql
    | .createdAt => .column "snmp_credentials" "created_at"
    | .name => .column "snmp_credentials" "name"
    | .version => .column "snmp_credentials" "version"
    | .updatedAt => .column "snmp_credentials" "updated_at"
  defaultOrder := { expr := .column "snmp_credentials" "created_at", direction := .asc }

/-! ## Walking through a list -/

section

variable [LinearOrder κ] {O : Type} [OrderField O]

/-- What the database may answer a query in: its lines, in an order that the `ORDER BY` allows. -/
def Answers (db : Sql.Database κ) (query : StorableFilter κ × List Sql.Part) (out : List (Sql.Line κ)) : Prop :=
  Paging.Lists (Sql.orderLe db query.2) (query.1.lines db) out

/-- The offsets of a walk through a list are the multiples of the limit that its requests name, or of the default. -/
def stride (limit : Option Nat) : Nat := limit.getD PaginationParams.defaultLimit

/-- The request for page `k` of a walk. -/
def FilterQuery.walk (self : FilterQuery O) (k : Nat) : FilterQuery O :=
  { self with pagination := { limit := self.pagination.limit, offset := some (k * stride self.pagination.limit) } }

/-- `m` pages are through a list of `total` rows. Without a limit the first is. -/
def Through (limit : Option Nat) (total m : Nat) : Prop :=
  if stride limit = 0 then m = 1 else total ≤ m * stride limit

end

end Netvisor
