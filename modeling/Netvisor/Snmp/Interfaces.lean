/-
The index and the speed of an interface, as the agent reports them and as they
are sent to the server.

An index is cut to 32 bits and a speed to 63, and a speed reported in Mbps is
multiplied in 64 bits. An agent that keeps to the types of the table reports
nothing so large; the daemon takes any number.
-/
import Netvisor.Snmp.Conversion

namespace Netvisor.Snmp

variable {varbinds : List IfVarbind}

/-- The interfaces some varbinds are of. -/
def ifRows (varbinds : List IfVarbind) : List Nat := (varbinds.map (·.ifIndex)).dedup

/-- The numbers read from a column. -/
def numbers (column : IfColumn) (varbinds : List IfVarbind) : List (BitVec 64) :=
  varbinds.filterMap fun x => if x.column = column then valueToU64 x.value else none

/-- The speed reported for an interface in bits per second: `ifHighSpeed`, in
Mbps, before `ifSpeed`, as the walk has it. That is so also where `ifHighSpeed`
is 0, so an `ifSpeed` of 64000 beside it counts as 0. -/
def reportedSpeed (varbinds : List IfVarbind) (ifIndex : Nat) : Option Nat :=
  let own := varbinds.filter fun x => x.ifIndex = ifIndex
  ((numbers .ifHighSpeed own).getLast?.map fun mbps => mbps.toNat * 1000000).or
    ((numbers .ifSpeed own).head?.map BitVec.toNat)

/-- No product overflows, and what is sent to the server is one entry for each
interface, with its index and its speed. -/
structure Faithful (varbinds : List IfVarbind) (networkId : Uuid) (lldpNeighbors : List LldpNeighbor)
    (cdpNeighbors : List CdpNeighbor) : Prop where
  product : ∀ mbps ∈ numbers .ifHighSpeed varbinds, ¬BitVec.umulOverflow mbps 1000000
  entries : ((ifTableEntries varbinds).map fun entry =>
      let base := convertSnmpIfEntry entry networkId lldpNeighbors cdpNeighbors
      (base.ifIndex.toInt, base.speedBps.map BitVec.toInt)).Perm
    ((ifRows varbinds).map fun (ifIndex : Nat) => ((ifIndex : Int), (reportedSpeed varbinds ifIndex).map Int.ofNat))

theorem ifIndex_foldl (xs : List IfVarbind) (e : IfTableEntry) :
    (xs.foldl IfTableEntry.set e).ifIndex = e.ifIndex := by
  induction xs generalizing e with
  | nil => rfl
  | cons x xs ih =>
    have hset : (e.set x).ifIndex = e.ifIndex := by
      unfold IfTableEntry.set
      split
      all_goals (try rfl)
      all_goals (split <;> rfl)
    rw [List.foldl_cons, ih, hset]

theorem numbers_cons (column : IfColumn) (x : IfVarbind) (xs : List IfVarbind) : numbers column (x :: xs) =
    (if x.column = column then valueToU64 x.value else none).toList ++ numbers column xs := by
  rw [numbers, List.filterMap_cons]
  split
  · next h => rw [h]; rfl
  · next n h => rw [h]; rfl

/-- The last number for `ifHighSpeed`, else the speed there was, else the first
number for `ifSpeed`. -/
theorem ifSpeed_foldl (xs : List IfVarbind) (e : IfTableEntry) : (xs.foldl IfTableEntry.set e).ifSpeed =
    ((numbers .ifHighSpeed xs).getLast?.map (· * 1000000)).or (e.ifSpeed.or (numbers .ifSpeed xs).head?) := by
  induction xs generalizing e with
  | nil => simp [numbers]
  | cons x xs ih =>
    rw [List.foldl_cons, ih, numbers_cons, numbers_cons]
    obtain ⟨i, column, value⟩ := x
    cases column with
    | ifHighSpeed =>
      cases h : valueToU64 value with
      | none => simp [IfTableEntry.set, h]
      | some mbps =>
        cases hlast : (numbers .ifHighSpeed xs).getLast? <;> simp [IfTableEntry.set, h, hlast, List.getLast?_cons]
    | ifSpeed =>
      cases hspeed : e.ifSpeed with
      | none => cases h : valueToU64 value <;> simp [IfTableEntry.set, h, hspeed]
      | some s => simp [IfTableEntry.set, hspeed]
    | ifIndex | ifDescr | ifType | ifMtu | ifPhysAddress | ifAdminStatus | ifOperStatus | ifName | ifAlias =>
      simp [IfTableEntry.set]

theorem perm_ifTableEntries (hindex : ∀ i ∈ ifRows varbinds, i < 2 ^ 31) :
    (ifTableEntries varbinds).Perm ((ifRows varbinds).map fun i =>
      (varbinds.filter fun x => x.ifIndex = i).foldl IfTableEntry.set { ifIndex := asI32 i }) :=
  (List.perm_insertionSort _ _).trans (Assoc.perm_values_gather IfVarbind.ifIndex asI32
    fun i hi j hj => asI32_inj (hindex i (List.mem_dedup.mpr hi)) (hindex j (List.mem_dedup.mpr hj)))

theorem numbers_filter_subset (column : IfColumn) (p : IfVarbind → Bool) (xs : List IfVarbind) :
    numbers column (xs.filter p) ⊆ numbers column xs :=
  (List.filter_sublist.filterMap _).subset

theorem not_umulOverflow_iff (mbps : BitVec 64) :
    ¬BitVec.umulOverflow mbps 1000000 ↔ mbps.toNat ≤ 18446744073709 := by
  have hmillion : (1000000 : BitVec 64).toNat = 1000000 := by decide
  simp only [BitVec.umulOverflow, decide_eq_true_eq, hmillion]
  omega

theorem toInt_eq_toNat {b : BitVec 64} (h : b.toNat < 2 ^ 63) : b.toInt = b.toNat := by
  rw [BitVec.toInt_eq_toNat_cond]
  split <;> omega

/-- Without overflow, a speed below `2 ^ 63` is the one reported. -/
theorem toInt_ifSpeed {i : Nat} {e : IfTableEntry} (he : e.ifSpeed = none)
    (hmbps : ∀ mbps ∈ numbers .ifHighSpeed varbinds, mbps.toNat ≤ 18446744073709)
    (hspeed : ∀ s ∈ reportedSpeed varbinds i, s < 2 ^ 63) :
    ((varbinds.filter fun x => x.ifIndex = i).foldl IfTableEntry.set e).ifSpeed.map BitVec.toInt =
      (reportedSpeed varbinds i).map Int.ofNat := by
  rw [ifSpeed_foldl, he, reportedSpeed]
  simp only [reportedSpeed] at hspeed
  cases hlast : (numbers .ifHighSpeed (varbinds.filter fun x => x.ifIndex = i)).getLast? with
  | some mbps =>
    simp only [hlast, Option.map_some, Option.some_or, Option.mem_def, Option.some.injEq, forall_eq'] at hspeed ⊢
    have hle := hmbps mbps (numbers_filter_subset _ _ _ (List.mem_of_getLast? hlast))
    have hproduct : (mbps * 1000000).toNat = mbps.toNat * 1000000 := by
      have hmillion : (1000000 : BitVec 64).toNat = 1000000 := by decide
      rw [BitVec.toNat_mul, hmillion]
      omega
    rw [toInt_eq_toNat (by omega), hproduct]
    rfl
  | none =>
    cases hhead : (numbers .ifSpeed (varbinds.filter fun x => x.ifIndex = i)).head? with
    | none => rfl
    | some speed =>
      simp only [hlast, hhead, Option.map_some, Option.map_none, Option.none_or, Option.mem_def, Option.some.injEq,
        forall_eq'] at hspeed ⊢
      rw [toInt_eq_toNat hspeed]
      rfl

/-- **What is sent is what is reported exactly when every index is below
`2 ^ 31`, every number for `ifHighSpeed` can be multiplied, and every speed is
below `2 ^ 63`.** -/
theorem faithful_iff (varbinds : List IfVarbind) (networkId : Uuid) (lldpNeighbors : List LldpNeighbor)
    (cdpNeighbors : List CdpNeighbor) : Faithful varbinds networkId lldpNeighbors cdpNeighbors ↔
    (∀ mbps ∈ numbers .ifHighSpeed varbinds, mbps.toNat ≤ 18446744073709) ∧
      ∀ i ∈ ifRows varbinds, i < 2 ^ 31 ∧ ∀ s ∈ reportedSpeed varbinds i, s < 2 ^ 63 := by
  constructor
  · intro h
    refine ⟨fun mbps hm => (not_umulOverflow_iff mbps).mp (h.product mbps hm), fun i hi => ?_⟩
    obtain ⟨e, -, he⟩ := List.mem_map.mp (h.entries.mem_iff.mpr (List.mem_map_of_mem hi))
    obtain ⟨hindex, hspeed⟩ := Prod.mk.inj he
    have hlt := (convertSnmpIfEntry e networkId lldpNeighbors cdpNeighbors).ifIndex.toInt_lt
    refine ⟨by omega, fun s hs => ?_⟩
    rw [Option.mem_def.mp hs] at hspeed
    obtain ⟨speed, -, hs⟩ := Option.map_eq_some_iff.mp hspeed
    have hbound := speed.toInt_lt
    have hs : speed.toInt = s := hs
    omega
  · rintro ⟨hmbps, hrows⟩
    refine ⟨fun mbps hm => (not_umulOverflow_iff mbps).mpr (hmbps mbps hm), ?_⟩
    refine ((perm_ifTableEntries fun i hi => (hrows i hi).1).map _).trans (List.Perm.of_eq ?_)
    rw [List.map_map]
    refine List.map_congr_left fun i hi => ?_
    simp only [Function.comp_apply, convertSnmpIfEntry, ifIndex_foldl, toInt_asI32 (hrows i hi).1]
    rw [toInt_ifSpeed rfl hmbps (hrows i hi).2]

/-- An interface with 18446744073710 Mbps in a 64 bit counter. -/
def fastAgent (column : IfColumn) : List Response :=
  match column with
  | .ifIndex => [.varbind (column.oid ++ [1]) (.integer 1)]
  | .ifHighSpeed => [.varbind (column.oid ++ [1]) (.counter64 18446744073710)]
  | _ => [.empty]

/-- The product starts over at zero. -/
theorem fastAgent_not_faithful : ¬Faithful (ifVarbinds fastAgent) Uuid.nil [] [] ∧
    walkIfTable fastAgent = [{ ifIndex := 1, ifSpeed := some 448384 }] := by
  refine ⟨fun h => ?_, by decide⟩
  have hmbps : 18446744073710 ∈ numbers .ifHighSpeed (ifVarbinds fastAgent) := by decide
  exact h.product _ hmbps (by decide)

end Netvisor.Snmp
