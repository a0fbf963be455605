/-
`StorableFilter` as a builder: each method adds conditions whose placeholders go
on from the values that are there, and its own values.

The columns are those of the table of the entities. The list of ids of a method
that narrows to some entities is never left out: none of them is no row.
-/
import Netvisor.Crud.Listing
import Netvisor.Discovery.Sessions
import Netvisor.Lib.Where
import Netvisor.Tags.Service
import Mathlib.Data.List.Induction
import Mathlib.Data.List.Forall2

namespace Netvisor

namespace Where

open Clause (Name Column Atom Term Condition Row Bound)

/-- The values that are bound to queries with filters. -/
inductive SqlValue
  | uuid (v : Uuid)
  | string (v : String)
  | bool (v : Bool)
  | timestamp (v : DateTime)
  | email (v : EmailAddress)
  | userOrgPermissions (v : UserOrgPermissions)
  | daemonMode (v : DaemonMode)
  | ipAddr (v : IpAddr)
  | macAddress (v : MacAddress)
  | entityDiscriminant (v : EntityDiscriminants)
deriving DecidableEq, Repr

/-- Only times are compared by order. -/
instance : LT SqlValue where
  lt
    | .timestamp a, .timestamp b => a < b
    | _, _ => False

/-- A name in the text of a query. -/
def named (text : String) (plain : Clause.Plain text := by decide) : Name := { text, plain }

structure StorableFilter extends Bound SqlValue where
  tableName : Name
  limitValue : Option Nat := none
  offsetValue : Option Nat := none
  joins : List String := []

namespace StorableFilter

def new (tableName : Name) : StorableFilter := { tableName }

variable (f : StorableFilter)

def qualifyColumn (column : Name) : Column := { table := some f.tableName, name := column }

def toWhereClause : String := f.sql

def toLimitClause : String := match f.limitValue with
  | some limit => "LIMIT " ++ toString limit
  | none => ""

def toOffsetClause : String := match f.offsetValue with
  | some offset => if offset > 0 then "OFFSET " ++ toString offset else ""
  | none => ""

def toPaginationClause : String := " ".intercalate ([f.toLimitClause, f.toOffsetClause].filter (· ≠ ""))

def toJoinClause : String := " ".intercalate f.joins

/-! ## What the methods do -/

/-- More conditions, on no value. -/
def add (conditions : List Condition) : StorableFilter := { f with conditions := f.conditions ++ conditions }

/-- A comparison with a value. -/
def compare (column : Name) (op : Clause.Op) (value : SqlValue) : StorableFilter :=
  { f with
    conditions := f.conditions ++ [.term (.atom (.compare (f.qualifyColumn column) op (f.values.length + 1)))]
    values := f.values ++ [value] }

/-- One of the ids. An empty `IN` clause should match nothing. -/
def oneOf (column : Name) (ids : List Uuid) : StorableFilter :=
  if ids.isEmpty then f.add [.term (.atom .never)]
  else
    { f with
      conditions := f.conditions ++
        [.term (.atom (.isIn (f.qualifyColumn column) (ids.zipIdx.map fun x => f.values.length + x.2 + 1)))]
      values := f.values ++ ids.map .uuid }

/-! ## The methods -/

def limit (limit : Nat) : StorableFilter := { f with limitValue := some limit }

def offset (offset : Nat) : StorableFilter := { f with offsetValue := some offset }

def join (joinClause : String) : StorableFilter := { f with joins := f.joins ++ [joinClause] }

def entityId (id : Uuid) : StorableFilter := f.compare (named "id") .eq (.uuid id)

def entityIds (ids : List Uuid) : StorableFilter := f.oneOf (named "id") ids

def networkIds (ids : List Uuid) : StorableFilter := f.oneOf (named "network_id") ids

def userId (id : Uuid) : StorableFilter := f.compare (named "user_id") .eq (.uuid id)

def userIds (ids : List Uuid) : StorableFilter := f.oneOf (named "user_id") ids

def hiddenIs (hidden : Bool) : StorableFilter := f.compare (named "hidden") .eq (.bool hidden)

def hostId (id : Uuid) : StorableFilter := f.compare (named "host_id") .eq (.uuid id)

def subnetId (id : Uuid) : StorableFilter := f.compare (named "subnet_id") .eq (.uuid id)

def macAddress (mac : MacAddress) : StorableFilter := f.compare (named "mac_address") .eq (.macAddress mac)

def passwordResetToken (token : String) : StorableFilter :=
  f.compare (named "password_reset_token") .eq (.string token)

def emailVerificationToken (token : String) : StorableFilter :=
  f.compare (named "email_verification_token") .eq (.string token)

def name (name : String) : StorableFilter := f.compare (named "name") .eq (.string name)

def groupId (id : Uuid) : StorableFilter := f.compare (named "group_id") .eq (.uuid id)

def groupIds (ids : List Uuid) : StorableFilter := f.oneOf (named "group_id") ids

def bindingId (id : Uuid) : StorableFilter := f.compare (named "binding_id") .eq (.uuid id)

def hostIds (ids : List Uuid) : StorableFilter := f.oneOf (named "host_id") ids

def apiKey (apiKey : String) : StorableFilter := f.compare (named "key") .eq (.string apiKey)

def scheduledDiscovery : StorableFilter :=
  f.add [.term (.atom (.jsonText { name := named "run_type" } (named "type") (named "Scheduled"))),
    .term (.atom (.jsonTrue { name := named "run_type" } (named "enabled")))]

def oidcSubject (subject : String) : StorableFilter :=
  let g := f.compare (named "oidc_subject") .eq (.string subject)
  g.add [.term (.atom (.isNotNull (f.qualifyColumn (named "oidc_provider"))))]

def email (email : EmailAddress) : StorableFilter := f.compare (named "email") .eq (.email email)

def organizationId (organizationId : Uuid) : StorableFilter :=
  f.compare (named "organization_id") .eq (.uuid organizationId)

def topologyId (topologyId : Uuid) : StorableFilter := f.compare (named "topology_id") .eq (.uuid topologyId)

def userPermissions (permissions : UserOrgPermissions) : StorableFilter :=
  f.compare (named "permissions") .eq (.userOrgPermissions permissions)

def expiresBefore (timestamp : DateTime) : StorableFilter := f.compare (named "expires_at") .lt (.timestamp timestamp)

def uuidColumn (column : Name) (id : Uuid) : StorableFilter := f.compare column .eq (.uuid id)

def uuidsColumn (column : Name) (ids : List Uuid) : StorableFilter := f.oneOf column ids

def serviceId (id : Uuid) : StorableFilter := f.compare (named "service_id") .eq (.uuid id)

def daemonMode (mode : DaemonMode) : StorableFilter := f.compare (named "mode") .eq (.daemonMode mode)

def isUnreachable (isUnreachable : Bool) : StorableFilter :=
  f.compare (named "is_unreachable") .eq (.bool isUnreachable)

def standby (standby : Bool) : StorableFilter := f.compare (named "standby") .eq (.bool standby)

def entityType (entityType : EntityDiscriminants) : StorableFilter :=
  f.compare (named "entity_type") .eq (.entityDiscriminant entityType)

def tagId (id : Uuid) : StorableFilter := f.compare (named "tag_id") .eq (.uuid id)

/-- Without tags there is nothing to filter by. -/
def hasAnyTags (tagIds : List Uuid) (entityType : EntityDiscriminants) : StorableFilter :=
  if tagIds.isEmpty then f
  else
    { f with
      conditions := f.conditions ++
        [.term (.inSelect (f.qualifyColumn (named "id")) (named "entity_id") (named "entity_tags")
          [.compare { name := named "entity_type" } .eq (f.values.length + 1),
            .isIn { name := named "tag_id" } (tagIds.zipIdx.map fun x => f.values.length + x.2 + 2)])]
      values := f.values ++ .entityDiscriminant entityType :: tagIds.map .uuid }

def ipAddress (ip : IpAddr) : StorableFilter := f.compare (named "ip_address") .eq (.ipAddr ip)

def ifDescr (descr : String) : StorableFilter := f.compare (named "if_descr") .eq (.string descr)

def chassisId (chassisId : String) : StorableFilter := f.compare (named "chassis_id") .eq (.string chassisId)

def interfaceId (interfaceId : Uuid) : StorableFilter := f.compare (named "interface_id") .eq (.uuid interfaceId)

/-- Neighbor data, but no neighbor. -/
def unresolvedLldpInNetwork (networkId : Uuid) : StorableFilter :=
  let g := f.compare (named "network_id") .eq (.uuid networkId)
  g.add [
    .anyOf [.atom (.isNotNull (f.qualifyColumn (named "lldp_chassis_id"))),
      .atom (.isNotNull (f.qualifyColumn (named "cdp_device_id"))),
        .atom (.isNotNull (f.qualifyColumn (named "cdp_address")))],
    .term (.atom (.isNull (f.qualifyColumn (named "neighbor_if_entry_id")))),
    .term (.atom (.isNull (f.qualifyColumn (named "neighbor_host_id"))))]

def hasNeighbor : StorableFilter :=
  f.add [.anyOf [.atom (.isNotNull (f.qualifyColumn (named "neighbor_if_entry_id"))),
    .atom (.isNotNull (f.qualifyColumn (named "neighbor_host_id")))]]

def hasNeighborIfEntry : StorableFilter :=
  f.add [.term (.atom (.isNotNull (f.qualifyColumn (named "neighbor_if_entry_id"))))]

/-- Connected to the host or to an entry of the host; the id is bound once. -/
def neighborHost (hostId : Uuid) : StorableFilter :=
  { f with
    conditions := f.conditions ++
      [.anyOf [.atom (.compare (f.qualifyColumn (named "neighbor_host_id")) .eq (f.values.length + 1)),
        .inSelect (f.qualifyColumn (named "neighbor_if_entry_id")) (named "id") (named "if_entries")
          [.compare { name := named "host_id" } .eq (f.values.length + 1)]]]
    values := f.values ++ [.uuid hostId] }

def withoutBrevoCompanyId : StorableFilter :=
  f.add [.term (.atom (.isNull (f.qualifyColumn (named "brevo_company_id"))))]

def withBrevoCompanyId : StorableFilter :=
  f.add [.term (.atom (.isNotNull (f.qualifyColumn (named "brevo_company_id"))))]

def stripeCustomerId (id : String) : StorableFilter := f.compare (named "stripe_customer_id") .eq (.string id)

end StorableFilter

/-! ## Chains of calls -/

/-- A call of a method. -/
inductive Call
  | limit (limit : Nat) | offset (offset : Nat) | join (joinClause : String)
  | entityId (id : Uuid) | entityIds (ids : List Uuid) | networkIds (ids : List Uuid)
  | userId (id : Uuid) | userIds (ids : List Uuid) | hiddenIs (hidden : Bool)
  | hostId (id : Uuid) | subnetId (id : Uuid) | macAddress (mac : MacAddress)
  | passwordResetToken (token : String) | emailVerificationToken (token : String) | name (name : String)
  | groupId (id : Uuid) | groupIds (ids : List Uuid) | bindingId (id : Uuid) | hostIds (ids : List Uuid)
  | apiKey (apiKey : String) | scheduledDiscovery | oidcSubject (subject : String) | email (email : EmailAddress)
  | organizationId (organizationId : Uuid) | topologyId (topologyId : Uuid)
  | userPermissions (permissions : UserOrgPermissions) | expiresBefore (timestamp : DateTime)
  | uuidColumn (column : Name) (id : Uuid) | uuidsColumn (column : Name) (ids : List Uuid)
  | serviceId (id : Uuid) | daemonMode (mode : DaemonMode) | isUnreachable (isUnreachable : Bool) | standby
    (standby : Bool)
  | entityType (entityType : EntityDiscriminants) | tagId (id : Uuid)
  | hasAnyTags (tagIds : List Uuid) (entityType : EntityDiscriminants)
  | ipAddress (ip : IpAddr) | ifDescr (descr : String) | chassisId (chassisId : String) | interfaceId
    (interfaceId : Uuid)
  | unresolvedLldpInNetwork (networkId : Uuid) | hasNeighbor | hasNeighborIfEntry | neighborHost (hostId : Uuid)
  | withoutBrevoCompanyId | withBrevoCompanyId | stripeCustomerId (id : String)

namespace Call

def apply (f : StorableFilter) : Call → StorableFilter
  | limit n => f.limit n
  | offset n => f.offset n
  | join joinClause => f.join joinClause
  | entityId id => f.entityId id
  | entityIds ids => f.entityIds ids
  | networkIds ids => f.networkIds ids
  | userId id => f.userId id
  | userIds ids => f.userIds ids
  | hiddenIs hidden => f.hiddenIs hidden
  | hostId id => f.hostId id
  | subnetId id => f.subnetId id
  | macAddress mac => f.macAddress mac
  | passwordResetToken token => f.passwordResetToken token
  | emailVerificationToken token => f.emailVerificationToken token
  | name n => f.name n
  | groupId id => f.groupId id
  | groupIds ids => f.groupIds ids
  | bindingId id => f.bindingId id
  | hostIds ids => f.hostIds ids
  | apiKey key => f.apiKey key
  | scheduledDiscovery => f.scheduledDiscovery
  | oidcSubject subject => f.oidcSubject subject
  | email address => f.email address
  | organizationId id => f.organizationId id
  | topologyId id => f.topologyId id
  | userPermissions permissions => f.userPermissions permissions
  | expiresBefore timestamp => f.expiresBefore timestamp
  | uuidColumn column id => f.uuidColumn column id
  | uuidsColumn column ids => f.uuidsColumn column ids
  | serviceId id => f.serviceId id
  | daemonMode mode => f.daemonMode mode
  | isUnreachable b => f.isUnreachable b
  | standby b => f.standby b
  | entityType kind => f.entityType kind
  | tagId id => f.tagId id
  | hasAnyTags tagIds kind => f.hasAnyTags tagIds kind
  | ipAddress ip => f.ipAddress ip
  | ifDescr descr => f.ifDescr descr
  | chassisId text => f.chassisId text
  | interfaceId id => f.interfaceId id
  | unresolvedLldpInNetwork id => f.unresolvedLldpInNetwork id
  | hasNeighbor => f.hasNeighbor
  | hasNeighborIfEntry => f.hasNeighborIfEntry
  | neighborHost id => f.neighborHost id
  | withoutBrevoCompanyId => f.withoutBrevoCompanyId
  | withBrevoCompanyId => f.withBrevoCompanyId
  | stripeCustomerId id => f.stripeCustomerId id

end Call

/-- The tables that subqueries read. -/
abbrev Tables := String → List (Row SqlValue)

section Meanings

variable (row : Row SqlValue)

def Is (column : String) (value : SqlValue) : Prop := row.columns column = some value

def IsOneOf (column : String) (ids : List Uuid) : Prop := ∃ id ∈ ids, Is row column (.uuid id)

def Present (column : String) : Prop := ∃ value, row.columns column = some value

variable (tables : Tables)

/-- What a call asks of a row. -/
def Call.Meaning : Call → Prop
  | limit _ | offset _ | join _ => True
  | entityId id => Is row "id" (.uuid id)
  | entityIds ids => IsOneOf row "id" ids
  | networkIds ids => IsOneOf row "network_id" ids
  | userId id => Is row "user_id" (.uuid id)
  | userIds ids => IsOneOf row "user_id" ids
  | hiddenIs hidden => Is row "hidden" (.bool hidden)
  | hostId id => Is row "host_id" (.uuid id)
  | subnetId id => Is row "subnet_id" (.uuid id)
  | macAddress mac => Is row "mac_address" (.macAddress mac)
  | passwordResetToken token => Is row "password_reset_token" (.string token)
  | emailVerificationToken token => Is row "email_verification_token" (.string token)
  | name n => Is row "name" (.string n)
  | groupId id => Is row "group_id" (.uuid id)
  | groupIds ids => IsOneOf row "group_id" ids
  | bindingId id => Is row "binding_id" (.uuid id)
  | hostIds ids => IsOneOf row "host_id" ids
  | apiKey key => Is row "key" (.string key)
  | scheduledDiscovery =>
    row.details "run_type" "type" = some "Scheduled" ∧ row.details "run_type" "enabled" = some "true"
  | oidcSubject subject => Is row "oidc_subject" (.string subject) ∧ Present row "oidc_provider"
  | email address => Is row "email" (.email address)
  | organizationId id => Is row "organization_id" (.uuid id)
  | topologyId id => Is row "topology_id" (.uuid id)
  | userPermissions permissions => Is row "permissions" (.userOrgPermissions permissions)
  | expiresBefore timestamp => ∃ t, Is row "expires_at" (.timestamp t) ∧ t < timestamp
  | uuidColumn column id => Is row column.text (.uuid id)
  | uuidsColumn column ids => IsOneOf row column.text ids
  | serviceId id => Is row "service_id" (.uuid id)
  | daemonMode mode => Is row "mode" (.daemonMode mode)
  | isUnreachable b => Is row "is_unreachable" (.bool b)
  | standby b => Is row "standby" (.bool b)
  | entityType kind => Is row "entity_type" (.entityDiscriminant kind)
  | tagId id => Is row "tag_id" (.uuid id)
  | hasAnyTags tagIds kind => tagIds = [] ∨ ∃ id, Is row "id" id ∧ ∃ link ∈ tables "entity_tags",
      Is link "entity_type" (.entityDiscriminant kind) ∧ IsOneOf link "tag_id" tagIds ∧ Is link "entity_id" id
  | ipAddress ip => Is row "ip_address" (.ipAddr ip)
  | ifDescr descr => Is row "if_descr" (.string descr)
  | chassisId text => Is row "chassis_id" (.string text)
  | interfaceId id => Is row "interface_id" (.uuid id)
  | unresolvedLldpInNetwork id => Is row "network_id" (.uuid id) ∧
      (Present row "lldp_chassis_id" ∨ Present row "cdp_device_id" ∨ Present row "cdp_address") ∧
      ¬ Present row "neighbor_if_entry_id" ∧ ¬ Present row "neighbor_host_id"
  | hasNeighbor => Present row "neighbor_if_entry_id" ∨ Present row "neighbor_host_id"
  | hasNeighborIfEntry => Present row "neighbor_if_entry_id"
  | neighborHost id => Is row "neighbor_host_id" (.uuid id) ∨ ∃ entryId, Is row "neighbor_if_entry_id" entryId ∧
      ∃ entry ∈ tables "if_entries", Is entry "host_id" (.uuid id) ∧ Is entry "id" entryId
  | withoutBrevoCompanyId => ¬ Present row "brevo_company_id"
  | withBrevoCompanyId => Present row "brevo_company_id"
  | stripeCustomerId id => Is row "stripe_customer_id" (.string id)

end Meanings

/-- The call narrows to the entities of a list of ids, and the list is empty. -/
def Call.OfNone : Call → Prop
  | entityIds ids | networkIds ids | hostIds ids | userIds ids | groupIds ids | uuidsColumn _ ids => ids = []
  | _ => False

/-- The filter after a chain of calls. -/
def build (tableName : Name) (calls : List Call) : StorableFilter := calls.foldl Call.apply (.new tableName)

/-! ## What a call adds -/

variable {f g h : StorableFilter} {P Q : Tables → Row SqlValue → Prop}

/-- One filter is another with a clause more, which is met by some rows. -/
def Adds (f g : StorableFilter) (P : Tables → Row SqlValue → Prop) : Prop :=
  ∃ b : Bound SqlValue, b.Numbered ∧ (∀ tables row, b.Selects tables row ↔ P tables row) ∧
    g.toBound = f.toBound.append b ∧ g.tableName = f.tableName

theorem Adds.congr (h : Adds f g P) (hPQ : ∀ tables row, P tables row ↔ Q tables row) : Adds f g Q := by
  obtain ⟨b, hnumbered, hmeans, hbound⟩ := h
  exact ⟨b, hnumbered, fun tables row => (hmeans tables row).trans (hPQ tables row), hbound⟩

theorem append_empty (b : Bound SqlValue) : b.append {} = b := by
  simp only [Bound.append, List.map_nil, List.append_nil]

theorem Adds.refl (hsame : g.toBound = f.toBound) (htable : g.tableName = f.tableName) :
    Adds f g fun _ _ => True := by
  refine ⟨{}, fun k => ?_, fun tables row => ?_, by rw [append_empty, hsame], htable⟩
  · constructor
    · intro hk
      cases hk
    · rintro ⟨hle, hge⟩
      exact absurd (hle.trans hge) (by decide)
  · exact iff_true_intro fun c hc => nomatch hc

/-- What is left of a range of numbers: the placeholders of a clause with as many values. -/
theorem mem_numbers {α : Type} {l : List α} {first k : Nat} :
    k ∈ l.zipIdx.map (fun x => x.2 + first) ↔ first ≤ k ∧ k < l.length + first := by
  have hindex : (fun x : α × Nat => x.2 + first) = (· + first) ∘ Prod.snd := rfl
  rw [hindex, ← List.map_map, List.zipIdx_map_snd, List.mem_map]
  simp only [List.mem_range']
  constructor
  · rintro ⟨i, ⟨j, hj, rfl⟩, rfl⟩
    omega
  · intro hk
    exact ⟨k - first, ⟨k - first, by omega, by omega⟩, by omega⟩

theorem adds_compare (column : Name) (op : Clause.Op) (value : SqlValue) : Adds f (f.compare column op value)
    fun _ row => row.Has column fun a => op.Holds a value := by
  refine ⟨{ conditions := [.term (.atom (.compare (f.qualifyColumn column) op 1))], values := [value] }, fun k => ?_,
    fun tables row => ?_, rfl, rfl⟩
  · change k ∈ [1] ↔ 1 ≤ k ∧ k ≤ 1
    rw [List.mem_singleton]
    omega
  · simp only [Bound.Selects, List.forall_mem_singleton, Condition.holds_term, Term.holds_atom, Atom.holds_compare]
    refine exists_congr fun a => and_congr_right fun _ => ⟨?_, fun ho => ⟨value, rfl, ho⟩⟩
    rintro ⟨b, ⟨⟩, ho⟩
    exact ho

theorem adds_equal (column : Name) (value : SqlValue) :
    Adds f (f.compare column .eq value) fun _ row => Is row column.text value :=
  (adds_compare column .eq value).congr fun _ _ =>
    ⟨fun ⟨_, hrow, heq⟩ => hrow.trans (congrArg some heq), fun hrow => ⟨value, hrow, rfl⟩⟩

/-- What is bound to the numbers of the ids is one of them. -/
theorem bound_numbers (values : List SqlValue) {ids : List SqlValue} {first : Nat} {α : Type} {l : List α}
    (hlength : l.length = ids.length)
    (hfirst : values.length + 1 = first) (a : SqlValue) :
    (∃ n ∈ l.zipIdx.map (fun x => x.2 + first), Clause.bound (values ++ ids) n = some a) ↔ a ∈ ids := by
  subst hfirst
  rw [List.mem_iff_getElem?]
  constructor
  · rintro ⟨n, hn, ha⟩
    rw [mem_numbers] at hn
    obtain ⟨i, rfl⟩ : ∃ i, n = values.length + (i + 1) := ⟨n - values.length - 1, by omega⟩
    rw [Clause.bound_append_right (by omega), Clause.bound, if_neg (by omega), Nat.add_sub_cancel] at ha
    exact ⟨i, ha⟩
  · rintro ⟨i, hi⟩
    obtain ⟨hlt, -⟩ := List.getElem?_eq_some_iff.mp hi
    refine ⟨values.length + (i + 1), mem_numbers.mpr (by omega), ?_⟩
    rw [Clause.bound_append_right (by omega), Clause.bound, if_neg (by omega), Nat.add_sub_cancel]
    exact hi

theorem adds_oneOf (column : Name) (ids : List Uuid) :
    Adds f (f.oneOf column ids) fun _ row => IsOneOf row column.text ids := by
  unfold StorableFilter.oneOf
  split
  · next hempty =>
    refine ⟨{ conditions := [.term (.atom .never)] }, fun k => ?_, fun tables row => ?_, ?_, rfl⟩
    · change k ∈ [] ↔ 1 ≤ k ∧ k ≤ 0
      simp
      omega
    · rw [List.isEmpty_iff.mp hempty]
      simp only [Bound.Selects, List.forall_mem_singleton, Condition.holds_term, Term.holds_atom]
      refine ⟨False.elim, ?_⟩
      rintro ⟨_, hid, -⟩
      cases hid
    · simp only [StorableFilter.add, Bound.append, List.append_nil]
      rfl
  · refine ⟨{ conditions := [.term (.atom (.isIn (f.qualifyColumn column) (ids.zipIdx.map fun x => x.2 + 1)))]
              values := ids.map .uuid }, fun k => ?_, fun tables row => ?_, ?_, rfl⟩
    · have hmem : k ∈ ids.zipIdx.map (fun x => x.2 + 1) ↔ 1 ≤ k ∧ k < ids.length + 1 := mem_numbers
      change k ∈ (ids.zipIdx.map fun x => x.2 + 1) ++ [] ↔ 1 ≤ k ∧ k ≤ (ids.map SqlValue.uuid).length
      rw [List.append_nil, hmem, List.length_map]
      omega
    · simp only [Bound.Selects, List.forall_mem_singleton, Condition.holds_term, Term.holds_atom, Atom.holds_isIn]
      have hbound (a : SqlValue) : (∃ n ∈ ids.zipIdx.map fun x => x.2 + 1,
        Clause.bound (ids.map SqlValue.uuid) n = some a) ↔
          a ∈ ids.map SqlValue.uuid := bound_numbers [] (List.length_map _).symm rfl a
      simp only [hbound]
      simp only [List.mem_map]
      constructor
      · rintro ⟨_, hrow, id, hid, rfl⟩
        exact ⟨id, hid, hrow⟩
      · rintro ⟨id, hid, hrow⟩
        exact ⟨_, hrow, id, hid, rfl⟩
    · have hnumbers : (ids.zipIdx.map fun x => f.values.length + x.2 + 1) =
          (ids.zipIdx.map fun x => x.2 + 1).map (f.values.length + ·) := by
        rw [List.map_map]
        rfl
      simp only [Bound.append, List.map_singleton, Condition.map, Term.map, Atom.map, hnumbers]

/-- Conditions on no value. -/
theorem adds_add {conditions : List Condition} (hnone : conditions.flatMap Condition.placeholders = [])
    (hsame : ∀ k, conditions.map (Condition.map (k + ·)) = conditions) : Adds f (f.add conditions)
    fun tables row => ∀ c ∈ conditions, c.Holds tables [] row := by
  refine ⟨{ conditions }, fun k => ?_, fun tables row => Iff.rfl, ?_, rfl⟩
  · rw [Bound.placeholders, hnone]
    simp
    omega
  · simp only [StorableFilter.add, Bound.append, hsame, List.append_nil]

theorem holds_isNotNull {column : Column} {values : List SqlValue} {row : Row SqlValue} :
    (Atom.isNotNull column).Holds values row ↔ Present row column.name.text :=
  exists_congr fun _ => and_iff_left trivial

theorem holds_isNull {column : Column} {values : List SqlValue} {row : Row SqlValue} :
    (Atom.isNull column).Holds values row ↔ ¬ Present row column.name.text := by
  rw [Present, ← Option.isSome_iff_exists, Option.not_isSome_iff_eq_none]
  exact Iff.rfl

theorem holds_equal {column : Column} {values : List SqlValue} {row : Row SqlValue} {n : Nat} {value : SqlValue}
    (h : Clause.bound values n = some value) : (Atom.compare column .eq n).Holds values row ↔
    Is row column.name.text value := by
  simp only [Atom.holds_compare, h, Option.some.injEq, exists_eq_left']
  exact ⟨fun h => by obtain ⟨a, ha, rfl⟩ := h; exact ha, fun h => ⟨value, h, rfl⟩⟩

theorem adds_hasAnyTags (tagIds : List Uuid) (kind : EntityDiscriminants) :
    Adds f (f.hasAnyTags tagIds kind) fun tables row => (Call.hasAnyTags tagIds kind).Meaning row tables := by
  unfold StorableFilter.hasAnyTags
  split
  · next hempty =>
    exact (Adds.refl rfl rfl).congr fun _ _ => iff_of_true trivial (.inl (List.isEmpty_iff.mp hempty))
  · next hsome =>
    have hne : tagIds ≠ [] := fun h => hsome (List.isEmpty_iff.mpr h)
    refine ⟨{ conditions := [.term (.inSelect (f.qualifyColumn (named "id")) (named "entity_id") (named "entity_tags")
                [.compare { name := named "entity_type" } .eq 1,
                  .isIn { name := named "tag_id" } (tagIds.zipIdx.map fun x => x.2 + 2)])]
              values := .entityDiscriminant kind :: tagIds.map .uuid }, fun k => ?_, fun tables row => ?_, ?_, rfl⟩
    · have hmem : k ∈ tagIds.zipIdx.map (fun x => x.2 + 2) ↔ 2 ≤ k ∧ k < tagIds.length + 2 := mem_numbers
      have hnumbers : (Bound.mk (ν := SqlValue)
          [.term (.inSelect (f.qualifyColumn (named "id")) (named "entity_id") (named "entity_tags")
            [.compare { name := named "entity_type" } .eq 1,
              .isIn { name := named "tag_id" } (tagIds.zipIdx.map fun x => x.2 + 2)])]
          (.entityDiscriminant kind :: tagIds.map .uuid)).placeholders = 1 :: tagIds.zipIdx.map fun x => x.2 + 2 := by
        simp [Bound.placeholders, Condition.placeholders, Term.placeholders, Atom.placeholders]
      rw [hnumbers, List.mem_cons, hmem, List.length_cons, List.length_map]
      omega
    · have hbound (a : SqlValue) : (∃ n ∈ tagIds.zipIdx.map fun x => x.2 + 2,
          Clause.bound (.entityDiscriminant kind :: tagIds.map SqlValue.uuid) n = some a) ↔
              a ∈ tagIds.map SqlValue.uuid :=
        bound_numbers [.entityDiscriminant kind] (List.length_map _).symm rfl a
      have htags (link : Row SqlValue) :
        (Atom.isIn { name := named "tag_id" } (tagIds.zipIdx.map fun x => x.2 + 2)).Holds
          (.entityDiscriminant kind :: tagIds.map SqlValue.uuid) link ↔ IsOneOf link "tag_id" tagIds := by
        simp only [Atom.holds_isIn, hbound]
        simp only [List.mem_map]
        constructor
        · rintro ⟨_, hlink, id, hid, rfl⟩
          exact ⟨id, hid, hlink⟩
        · rintro ⟨id, hid, hlink⟩
          exact ⟨_, hlink, id, hid, rfl⟩
      have hkind : Clause.bound (.entityDiscriminant kind :: tagIds.map SqlValue.uuid) 1 =
        some (.entityDiscriminant kind) := rfl
      simp only [Bound.Selects, List.forall_mem_singleton, Condition.holds_term, Term.holds_inSelect,
        List.forall_mem_cons, htags, holds_equal hkind, Call.Meaning, hne, false_or]
      exact exists_congr fun id => and_congr_right fun _ => exists_congr fun link =>
        and_congr_right fun _ => and_assoc
    · have hnumbers : (tagIds.zipIdx.map fun x => f.values.length + x.2 + 2) =
          (tagIds.zipIdx.map fun x => x.2 + 2).map (f.values.length + ·) := by
        rw [List.map_map]
        rfl
      simp only [Bound.append, Condition.map, Term.map, List.map_cons, List.map_nil, Atom.map, hnumbers]

theorem adds_neighborHost (hostId : Uuid) :
    Adds f (f.neighborHost hostId) fun tables row => (Call.neighborHost hostId).Meaning row tables := by
  refine ⟨{ conditions := [.anyOf [.atom (.compare (f.qualifyColumn _) .eq 1),
              .inSelect (f.qualifyColumn _) _ _
                [.compare { name := _ } .eq 1]]]
            values := [.uuid hostId] }, fun k => ?_, fun tables row => ?_, rfl, rfl⟩
  · change k ∈ [1, 1] ↔ 1 ≤ k ∧ k ≤ 1
    simp
    omega
  · have hbound : Clause.bound [SqlValue.uuid hostId] 1 = some (.uuid hostId) := rfl
    simp only [Bound.Selects, List.forall_mem_singleton, Condition.holds_anyOf, List.exists_mem_cons_iff,
      List.not_mem_nil, false_and, exists_false, or_false, Term.holds_atom, Term.holds_inSelect,
      holds_equal hbound]
    rfl

theorem adds_unresolvedLldpInNetwork (networkId : Uuid) : Adds f (f.unresolvedLldpInNetwork networkId)
    fun tables row => (Call.unresolvedLldpInNetwork networkId).Meaning row tables := by
  refine ⟨{ conditions := [.term (.atom (.compare (f.qualifyColumn (named "network_id")) .eq 1)),
              .anyOf [.atom (.isNotNull (f.qualifyColumn (named "lldp_chassis_id"))),
                .atom (.isNotNull (f.qualifyColumn (named "cdp_device_id"))),
                .atom (.isNotNull (f.qualifyColumn (named "cdp_address")))],
              .term (.atom (.isNull (f.qualifyColumn (named "neighbor_if_entry_id")))),
              .term (.atom (.isNull (f.qualifyColumn (named "neighbor_host_id"))))]
            values := [.uuid networkId] }, fun k => ?_, fun tables row => ?_, ?_, rfl⟩
  · change k ∈ [1] ↔ 1 ≤ k ∧ k ≤ 1
    rw [List.mem_singleton]
    omega
  · have hbound : Clause.bound [SqlValue.uuid networkId] 1 = some (.uuid networkId) := rfl
    simp only [Bound.Selects, List.forall_mem_cons, Condition.holds_term, Condition.holds_anyOf,
      List.exists_mem_cons_iff, List.not_mem_nil, false_and, exists_false, or_false, false_implies, implies_true,
      and_true, Term.holds_atom, holds_equal hbound, holds_isNotNull, holds_isNull]
    rfl
  · simp only [StorableFilter.unresolvedLldpInNetwork, StorableFilter.add, StorableFilter.compare, Bound.append,
      List.append_assoc]
    rfl

theorem adds_oidcSubject (subject : String) :
    Adds f (f.oidcSubject subject) fun tables row => (Call.oidcSubject subject).Meaning row tables := by
  refine ⟨{ conditions := [.term (.atom (.compare (f.qualifyColumn (named "oidc_subject")) .eq 1)),
              .term (.atom (.isNotNull (f.qualifyColumn (named "oidc_provider"))))]
            values := [.string subject] }, fun k => ?_, fun tables row => ?_, ?_, rfl⟩
  · change k ∈ [1] ↔ 1 ≤ k ∧ k ≤ 1
    rw [List.mem_singleton]
    omega
  · have hbound : Clause.bound [SqlValue.string subject] 1 = some (.string subject) := rfl
    simp only [Bound.Selects, List.forall_mem_cons, List.not_mem_nil, false_implies, implies_true, and_true,
      Condition.holds_term, Term.holds_atom, holds_equal hbound, holds_isNotNull]
    rfl
  · simp only [StorableFilter.oidcSubject, StorableFilter.add, StorableFilter.compare, Bound.append,
      List.append_assoc]
    rfl

theorem adds_expiresBefore (timestamp : DateTime) :
    Adds f (f.expiresBefore timestamp) fun tables row => (Call.expiresBefore timestamp).Meaning row tables := by
  refine (adds_compare _ .lt (.timestamp timestamp)).congr fun tables row => ?_
  constructor
  · rintro ⟨a, hrow, hlt⟩
    cases a with
    | timestamp t => exact ⟨t, hrow, hlt⟩
    | uuid _ | string _ | bool _ | email _ | userOrgPermissions _ | daemonMode _ | ipAddr _ | macAddress _
    | entityDiscriminant _ =>
      have hnever : False := hlt
      exact hnever.elim
  · rintro ⟨t, hrow, hlt⟩
    exact ⟨.timestamp t, hrow, hlt⟩

/-- The clause that each call adds. -/
theorem adds_apply (c : Call) : Adds f (c.apply f) fun tables row => c.Meaning row tables := by
  cases c with
  | limit _ | offset _ | join _ => exact Adds.refl rfl rfl
  | entityIds ids => exact adds_oneOf (named "id") ids
  | networkIds ids => exact adds_oneOf (named "network_id") ids
  | userIds ids => exact adds_oneOf (named "user_id") ids
  | groupIds ids => exact adds_oneOf (named "group_id") ids
  | hostIds ids => exact adds_oneOf (named "host_id") ids
  | uuidsColumn column ids => exact adds_oneOf column ids
  | uuidColumn column id => exact adds_equal column (.uuid id)
  | expiresBefore timestamp => exact adds_expiresBefore timestamp
  | oidcSubject subject => exact adds_oidcSubject subject
  | hasAnyTags tagIds kind => exact adds_hasAnyTags tagIds kind
  | unresolvedLldpInNetwork id => exact adds_unresolvedLldpInNetwork id
  | neighborHost id => exact adds_neighborHost id
  | scheduledDiscovery =>
    refine (adds_add rfl fun _ => rfl).congr fun tables row => ?_
    simp only [List.forall_mem_cons, List.not_mem_nil, false_implies, implies_true, and_true,
      Condition.holds_term, Term.holds_atom]
    rfl
  | hasNeighbor =>
    refine (adds_add rfl fun _ => rfl).congr fun tables row => ?_
    simp only [List.forall_mem_singleton, Condition.holds_anyOf, List.exists_mem_cons_iff, List.not_mem_nil, false_and,
      exists_false, or_false, Term.holds_atom, holds_isNotNull]
    rfl
  | hasNeighborIfEntry | withBrevoCompanyId =>
    refine (adds_add rfl fun _ => rfl).congr fun tables row => ?_
    simp only [List.forall_mem_singleton, Condition.holds_term, Term.holds_atom, holds_isNotNull]
    rfl
  | withoutBrevoCompanyId =>
    refine (adds_add rfl fun _ => rfl).congr fun tables row => ?_
    simp only [List.forall_mem_singleton, Condition.holds_term, Term.holds_atom, holds_isNull]
    rfl
  | entityId _ | userId _ | hiddenIs _ | hostId _ | subnetId _ | macAddress _ | passwordResetToken _
  | emailVerificationToken _ | name _ | groupId _ | bindingId _ | apiKey _ | email _ | organizationId _ | topologyId _
  | userPermissions _ | serviceId _ | daemonMode _ | isUnreachable _ | standby _ | entityType _ | tagId _ | ipAddress _
  | ifDescr _ | chassisId _ | interfaceId _ | stripeCustomerId _ => exact adds_equal _ _

theorem Adds.numbered (h : Adds f g P) (hf : f.Numbered) : g.Numbered := by
  obtain ⟨b, hnumbered, -, hbound, -⟩ := h
  rw [hbound]
  exact hf.append hnumbered

theorem Adds.selects (h : Adds f g P) (hf : f.Numbered) (tables : Tables) (row : Row SqlValue) :
    g.Selects tables row ↔ f.Selects tables row ∧ P tables row := by
  obtain ⟨b, hnumbered, hmeans, hbound, -⟩ := h
  rw [hbound, Bound.selects_append hf hnumbered, hmeans]

/-! ## Whole chains -/

/-- The conditions are those of a call: with all the values, a row meets them if it is what the call asks for. -/
structure Asks (f : StorableFilter) (call : Call) (conditions : List Condition) : Prop where
  placeholders : ∀ c ∈ conditions, ∀ k ∈ c.placeholders, 1 ≤ k ∧ k ≤ f.values.length
  holds : ∀ tables row, (∀ c ∈ conditions, c.Holds tables f.values row) ↔ call.Meaning row tables

/-- The values of later calls do not change what a call asks. -/
theorem Asks.grow {call : Call} {conditions : List Condition} {values : List SqlValue} (h : Asks f call conditions)
    (hvalues : g.values = f.values ++ values) : Asks g call conditions where
  placeholders c hc k hk := by
    have hrange := h.placeholders c hc k hk
    rw [hvalues, List.length_append]
    omega
  holds tables row := by
    rw [← h.holds tables row, hvalues]
    exact forall₂_congr fun c hc => c.holds_congr fun n hn => Clause.bound_append_left (h.placeholders c hc n hn)

/-- What a call adds asks for what the call does. -/
theorem Adds.asks {call : Call} (h : Adds f g fun tables row => call.Meaning row tables) :
    ∃ conditions values, g.conditions = f.conditions ++ conditions ∧ g.values = f.values ++ values ∧
      Asks g call conditions := by
  obtain ⟨b, hnumbered, hmeans, hbound, -⟩ := h
  have hvalues : g.values = f.values ++ b.values := congrArg Bound.values hbound
  have hrange (c : Condition) (hc : c ∈ b.conditions) (n : Nat) (hn : n ∈ c.placeholders) : 1 ≤ n ∧
      n ≤ b.values.length :=
    (hnumbered n).mp (List.mem_flatMap.mpr ⟨c, hc, hn⟩)
  refine ⟨b.conditions.map (Condition.map (f.values.length + ·)), b.values, congrArg Bound.conditions hbound,
    hvalues, ?_, ?_⟩
  · intro _ hc k hk
    obtain ⟨c, hmem, rfl⟩ := List.mem_map.mp hc
    rw [Condition.placeholders_map] at hk
    obtain ⟨n, hn, rfl⟩ := List.mem_map.mp hk
    have hle := hrange c hmem n hn
    rw [hvalues, List.length_append]
    omega
  · intro tables row
    refine Iff.trans ?_ (hmeans tables row)
    rw [List.forall_mem_map, hvalues]
    exact forall₂_congr fun c hc => c.holds_map fun n hn => Clause.bound_append_right (hrange c hc n hn).1

theorem build_concat (tableName : Name) (calls : List Call) (call : Call) :
    build tableName (calls ++ [call]) = call.apply (build tableName calls) := List.foldl_concat ..

theorem numbered_build (tableName : Name) (calls : List Call) : (build tableName calls).Numbered := by
  induction calls using List.reverseRecOn with
  | nil =>
    intro k
    change k ∈ [] ↔ 1 ≤ k ∧ k ≤ 0
    rw [List.mem_nil_iff, false_iff]
    omega
  | append_singleton calls call ih =>
    rw [build_concat]
    exact (adds_apply call).numbered ih

/-- Each call has conditions of its own. -/
theorem parts_build (tableName : Name) (calls : List Call) : ∃ parts : List (List Condition),
    (build tableName calls).conditions = parts.flatten ∧ List.Forall₂ (Asks (build tableName calls)) calls parts := by
  induction calls using List.reverseRecOn with
  | nil => exact ⟨[], rfl, .nil⟩
  | append_singleton calls call ih =>
    obtain ⟨parts, hparts, hasks⟩ := ih
    obtain ⟨conditions, values, hconditions, hvalues, hlast⟩ := (adds_apply (f := build tableName calls) call).asks
    rw [build_concat]
    refine ⟨parts ++ [conditions], ?_, List.rel_append (hasks.imp fun _ _ h => h.grow hvalues) (.cons hlast .nil)⟩
    rw [hconditions, hparts, List.flatten_concat]

theorem selects_build (tableName : Name) (calls : List Call) (tables : Tables) (row : Row SqlValue) :
    (build tableName calls).Selects tables row ↔ ∀ call ∈ calls, call.Meaning row tables := by
  induction calls using List.reverseRecOn with
  | nil => exact iff_of_true (fun _ hc => nomatch hc) fun _ hc => nomatch hc
  | append_singleton calls call ih =>
    rw [build_concat, (adds_apply call).selects (numbered_build tableName calls), ih, List.forall_mem_append,
      List.forall_mem_singleton]

theorem Call.OfNone.not_meaning {call : Call} (h : call.OfNone) (tables : Tables) (row : Row SqlValue) :
    ¬ call.Meaning row tables := by
  cases call with
  | entityIds ids | networkIds ids | hostIds ids | userIds ids | groupIds ids | uuidsColumn _ ids =>
    obtain rfl : ids = [] := h
    rintro ⟨_, hid, _⟩
    exact nomatch hid
  | _ => exact h.elim

/-- What holds of the filter that a chain of calls gives. -/
structure WellFormed (calls : List Call) (f : StorableFilter) : Prop where
  /-- The placeholders of the text are `$1` to `$n`, where `n` values are bound. -/
  placeholders : ∀ k, k ∈ Clause.placeholdersOf f.toWhereClause ↔ 1 ≤ k ∧ k ≤ f.values.length
  /-- The conditions are the ones of the calls, each with its own values. -/
  parts : ∃ parts : List (List Condition), f.conditions = parts.flatten ∧ List.Forall₂ (Asks f) calls parts
  selects : ∀ tables row, f.Selects tables row ↔ ∀ call ∈ calls, call.Meaning row tables
  none : ∀ call ∈ calls, call.OfNone → ∀ tables row, ¬ f.Selects tables row

/-- **The filter of every chain of calls is well formed.** -/
theorem build_wellFormed (tableName : Name) (calls : List Call) : WellFormed calls (build tableName calls) where
  placeholders k := by
    have htext : Clause.placeholdersOf (build tableName calls).toWhereClause = (build tableName calls).placeholders :=
      Bound.placeholdersOf_sql _
    rw [htext]
    exact numbered_build tableName calls k
  parts := parts_build tableName calls
  selects := selects_build tableName calls
  none call hcall hnone tables row hselects :=
    hnone.not_meaning tables row ((selects_build tableName calls tables row).mp hselects call hcall)

example : (build (named "services") [.networkIds [7, 8], .hasAnyTags [9] .service, .hostIds [],
    .hiddenIs false]).toWhereClause =
    "WHERE services.network_id IN ($1, $2) AND services.id IN (SELECT entity_id FROM entity_tags WHERE " ++
      "entity_type = $3 AND tag_id IN ($4)) AND FALSE AND services.hidden = $5" := by decide +kernel

/-! ## The rows that a query goes through -/

section Listing

variable {κ : Type} (f : StorableFilter) (tables : Tables) (read : Sql.Row κ → Row SqlValue)
  (joins : List Sql.LeftJoin)

open Classical in
/-- The filter of a list of entities, where the database reads its rows and the joins so. -/
noncomputable def StorableFilter.listing : Netvisor.StorableFilter κ where
  tableName := f.tableName.text
  conditions row := f.Selects tables (read row)
  limitValue := f.limitValue
  offsetValue := f.offsetValue
  joins

theorem listing_limit (n : Nat) : (f.limit n).listing tables read joins = (f.listing tables read joins).limit n := rfl

theorem listing_offset (n : Nat) : (f.offset n).listing tables read joins = (f.listing tables read joins).offset n :=
  rfl

/-- A list goes through the lines whose rows are what every call asks for. -/
theorem mem_lines_listing [DecidableEq κ] {db : Sql.Database κ} {tableName : Name} {calls : List Call}
    {line : Sql.Line κ} : line ∈ ((build tableName calls).listing tables read joins).lines db ↔
      line ∈ Sql.source db (build tableName calls).tableName.text joins ∧
        ∀ call ∈ calls, call.Meaning (read line.row) tables := by
  rw [Netvisor.StorableFilter.lines, List.mem_filter, ← selects_build tableName calls]
  exact and_congr_right fun _ => @decide_eq_true_iff _ (Classical.propDecidable _)

end Listing

/-! ## The filter of a list of entities of networks -/

structure NetworkFilterQuery where
  networkId : Option Uuid
  ids : Option (List Uuid)
  limit : Option Nat
  offset : Option Nat

namespace NetworkFilterQuery

variable (self : NetworkFilterQuery)

def applyToFilter (filter : StorableFilter) (userNetworkIds : List Uuid) : StorableFilter :=
  let filter := match self.ids with
    | some ids => if ids.isEmpty then filter else filter.entityIds ids
    | none => filter
  match self.networkId with
  | some id => if id ∈ userNetworkIds then filter.networkIds [id] else filter.networkIds []
  | none => filter.networkIds userNetworkIds

/-- The networks that it narrows to. -/
def networks (userNetworkIds : List Uuid) : List Uuid := match self.networkId with
  | some id => if id ∈ userNetworkIds then [id] else []
  | none => userNetworkIds

/-- The calls that it comes to. -/
def calls (userNetworkIds : List Uuid) : List Call :=
  (match self.ids with
    | some ids => if ids.isEmpty then [] else [.entityIds ids]
    | none => []) ++ [.networkIds (self.networks userNetworkIds)]

theorem applyToFilter_build (tableName : Name) (before : List Call) (userNetworkIds : List Uuid) :
    self.applyToFilter (build tableName before) userNetworkIds =
        build tableName (before ++ self.calls userNetworkIds) := by
  have hnetworks (g : StorableFilter) : (match self.networkId with
      | some id => if id ∈ userNetworkIds then g.networkIds [id] else g.networkIds []
      | none => g.networkIds userNetworkIds) = g.networkIds (self.networks userNetworkIds) := by
    unfold networks
    cases self.networkId with
    | some id =>
      by_cases hown : id ∈ userNetworkIds
      · simp only [if_pos hown]
      · simp only [if_neg hown]
    | none => rfl
  rw [applyToFilter, hnetworks, build, build, List.foldl_append, calls, List.foldl_append]
  cases self.ids with
  | some ids =>
    by_cases hempty : ids.isEmpty
    · simp only [if_pos hempty]
      rfl
    · simp only [if_neg hempty]
      rfl
  | none => rfl

/-- **Whoever asks is shown entities of their own networks only, whatever they ask for.** -/
theorem network_of_selects (tableName : Name) (before : List Call) (userNetworkIds : List Uuid) (tables : Tables)
    (row : Row SqlValue) (h : (self.applyToFilter (build tableName before) userNetworkIds).Selects tables row) :
    IsOneOf row "network_id" userNetworkIds := by
  rw [applyToFilter_build, selects_build] at h
  obtain ⟨id, hid, hrow⟩ : IsOneOf row "network_id" (self.networks userNetworkIds) :=
    h (.networkIds (self.networks userNetworkIds))
      (List.mem_append_right _ (List.mem_append_right _ (List.mem_singleton_self _)))
  refine ⟨id, ?_, hrow⟩
  unfold networks at hid
  split at hid
  · split at hid
    · next hown => rwa [List.mem_singleton.mp hid]
    · exact nomatch hid
  · exact hid

end NetworkFilterQuery

end Where

end Netvisor
