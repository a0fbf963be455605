/-
The neighbors collected from the remote table of LLDP, beside its rows.

A row's index is `timeMark.localPortNum.remIndex`, and a neighbor is kept under
the last two, each cut to 32 bits. Rows that differ in the time mark only are put
into one neighbor, whose fields then are of several rows.
-/
import Netvisor.Snmp.Queries

namespace Netvisor.Snmp

/-- The rows some varbinds are of. -/
def lldpRows (varbinds : List LldpVarbind) : List LldpIndex := (varbinds.map (·.index)).dedup

/-- What a row tells: its own varbinds and no others. -/
def LldpIndex.neighbor (varbinds : List LldpVarbind) (row : LldpIndex) : LldpNeighbor :=
  (varbinds.filter fun x => x.index = row).foldl LldpNeighbor.set { localPortIndex := asI32 row.localPortNum }

/-- The neighbors are the rows, each with the row's port and all that the row
tells. -/
def Unmixed (varbinds : List LldpVarbind) : Prop :=
  ((lldpNeighbors varbinds).map fun n => (n.localPortIndex.toInt, n)).Perm
    ((lldpRows varbinds).map fun row => ((row.localPortNum : Int), row.neighbor varbinds))

theorem mem_lldpRows {varbinds : List LldpVarbind} {row : LldpIndex} :
    row ∈ lldpRows varbinds ↔ ∃ x ∈ varbinds, x.index = row := by
  simp [lldpRows]

theorem localPortIndex_foldl (xs : List LldpVarbind) (n : LldpNeighbor) :
    (xs.foldl LldpNeighbor.set n).localPortIndex = n.localPortIndex := by
  induction xs generalizing n with
  | nil => rfl
  | cons x xs ih =>
    have hset : (n.set x).localPortIndex = n.localPortIndex := by
      unfold LldpNeighbor.set
      split
      all_goals (try rfl)
      split <;> rfl
    rw [List.foldl_cons, ih, hset]

@[simp] theorem LldpIndex.localPortIndex_neighbor (varbinds : List LldpVarbind) (row : LldpIndex) :
    (row.neighbor varbinds).localPortIndex = asI32 row.localPortNum := localPortIndex_foldl _ _

/-- Where the rows have different keys. -/
theorem perm_lldpNeighbors {varbinds : List LldpVarbind}
    (hinj : ∀ i ∈ lldpRows varbinds, ∀ j ∈ lldpRows varbinds, i.key = j.key → i = j) :
    (lldpNeighbors varbinds).Perm ((lldpRows varbinds).map (·.neighbor varbinds)) :=
  Assoc.perm_values_gather LldpVarbind.index LldpIndex.key fun i hi j hj =>
    hinj i (List.mem_dedup.mpr hi) j (List.mem_dedup.mpr hj)

/-- **The neighbors are the rows exactly when no two rows agree in the port and
the index of the neighbor and no port is cut.** -/
theorem unmixed_iff (varbinds : List LldpVarbind) : Unmixed varbinds ↔
    (∀ i ∈ lldpRows varbinds, ∀ j ∈ lldpRows varbinds, i.key = j.key → i = j) ∧
      ∀ i ∈ lldpRows varbinds, i.localPortNum < 2 ^ 31 := by
  constructor
  · intro h
    have hlen : (lldpNeighbors varbinds).length = (lldpRows varbinds).length := by simpa using h.length_eq
    refine ⟨fun i hi j hj => ?_, fun i hi => ?_⟩
    · exact Assoc.inj_of_length LldpVarbind.index LldpIndex.key hlen
        i (List.mem_dedup.mp hi) j (List.mem_dedup.mp hj)
    · obtain ⟨n, -, hn⟩ := List.mem_map.mp (h.mem_iff.mpr (List.mem_map_of_mem hi))
      have hport : n.localPortIndex.toInt = i.localPortNum := congrArg Prod.fst hn
      have hlt := n.localPortIndex.toInt_lt
      omega
  · rintro ⟨hinj, hports⟩
    refine ((perm_lldpNeighbors hinj).map _).trans (List.Perm.of_eq ?_)
    rw [List.map_map]
    refine List.map_congr_left fun i hi => ?_
    rw [Function.comp_apply, LldpIndex.localPortIndex_neighbor, toInt_asI32 (hports i hi)]

/-- A switch that tells of two neighbors on port 3, learned at different times.
The first one describes its port. -/
def twoTimeMarks (column : LldpColumn) : List Response :=
  match column with
  | .remChassisId => [.varbind (column.oid ++ [100, 3, 1]) (.octetString [0x61]),
      .varbind (column.oid ++ [200, 3, 1]) (.octetString [0x62])]
  | .remPortDesc => [.varbind (column.oid ++ [100, 3, 1]) (.octetString [0x78])]
  | _ => [.empty]

/-- The one neighbor collected has the chassis id of the one and the port of the
other. -/
theorem twoTimeMarks_not_unmixed : ¬Unmixed (lldpVarbinds twoTimeMarks) ∧
    queryLldpNeighbors twoTimeMarks =
      [{ localPortIndex := 3, remoteChassisId := some "b", remotePortDesc := some "x" }] := by
  have hquery : queryLldpNeighbors twoTimeMarks =
      [{ localPortIndex := 3, remoteChassisId := some "b", remotePortDesc := some "x" }] := by decide
  have hcollected : (lldpNeighbors (lldpVarbinds twoTimeMarks)).length = 1 := congrArg List.length hquery
  have hrows : (lldpRows (lldpVarbinds twoTimeMarks)).length = 2 := by decide
  refine ⟨fun h => ?_, hquery⟩
  have hlen := h.length_eq
  rw [List.length_map, List.length_map, hcollected, hrows] at hlen
  cases hlen

end Netvisor.Snmp
