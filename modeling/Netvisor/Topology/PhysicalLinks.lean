/-
The edges between linked ports: one for each two ports of which one reports the
other as its neighbor, whichever of them comes first.
-/
import Mathlib.Data.Sym.Sym2
import Netvisor.Topology.EdgeBuilderFacts

namespace Netvisor

namespace EdgeBuilder

variable {ctx : TopologyContext} {visible : Uuid → Bool} {a b e : IfEntry} {t : Uuid} {entries : List IfEntry}
  {processed : List (Uuid × Uuid)}

/-- The entry's neighbor is the port. -/
def Reports (a : IfEntry) (id : Uuid) : Prop := a.base.neighbor = some (.ifEntry id)

/-- The ports are at interfaces that have nodes, in subnets that are known. -/
structure Joinable (ctx : TopologyContext) (visible : Uuid → Bool) (a b : IfEntry) : Prop where
  ends : ∀ entry, entry = a ∨ entry = b → ∃ interfaceId, ctx.resolveInterfaceForIfEntry entry = some interfaceId ∧
    visible interfaceId = true ∧ (ctx.getSubnetFromInterfaceId interfaceId).isSome = true

/-- The two ports a physical link is between. -/
def linkedPorts (edge : Edge) : Option (Sym2 Uuid) :=
  match edge.edgeType with
  | .physicalLink sourceIfEntryId targetIfEntryId _ => some s(sourceIfEntryId, targetIfEntryId)
  | _ => none

theorem Joinable.symm (h : Joinable ctx visible a b) : Joinable ctx visible b a :=
  ⟨fun entry hentry => h.ends entry hentry.symm⟩

/-! ## Pairs in order -/

/-- The key of a link: its two ports, the one of the smaller id first. -/
def pairKey (source target : Uuid) : Uuid × Uuid :=
  if (show BitVec 128 from source) < (show BitVec 128 from target) then (source, target) else (target, source)

theorem linkOf_eq_some {key : Uuid × Uuid} : linkOf e = some (t, key) ↔ Reports e t ∧ key = pairKey e.id t := by
  unfold linkOf Reports pairKey
  split
  · next target h =>
    rw [h, Option.some.injEq, Prod.mk.injEq, Option.some.injEq, Neighbor.ifEntry.injEq]
    constructor
    · rintro ⟨rfl, rfl⟩
      exact ⟨rfl, rfl⟩
    · rintro ⟨rfl, rfl⟩
      exact ⟨rfl, rfl⟩
  · next h =>
    refine iff_of_false (fun h => nomatch h) fun hreports => ?_
    exact h t hreports.1

theorem linkOf_eq_none : linkOf e = none ↔ ∀ t, ¬ Reports e t := by
  constructor
  · intro h t hreports
    have hsome := linkOf_eq_some.mpr ⟨hreports, rfl⟩
    rw [h] at hsome
    cases hsome
  · intro h
    by_contra hsome
    obtain ⟨⟨t, key⟩, hlink⟩ := Option.ne_none_iff_exists'.mp hsome
    exact h t (linkOf_eq_some.mp hlink).1

/-- Two links have one key exactly if they are between the same ports. -/
theorem pairKey_eq_iff {p q p' q' : Uuid} : pairKey p q = pairKey p' q' ↔ s(p, q) = s(p', q') := by
  have hports (p q : Uuid) : s((pairKey p q).1, (pairKey p q).2) = s(p, q) := by
    unfold pairKey
    split
    · rfl
    · exact Sym2.eq_swap
  have hswap (p q : Uuid) : pairKey p q = pairKey q p := by
    unfold pairKey
    by_cases hpq : (show BitVec 128 from p) < (show BitVec 128 from q)
    · rw [if_pos hpq, if_neg (BitVec.lt_asymm hpq)]
    · by_cases hqp : (show BitVec 128 from q) < (show BitVec 128 from p)
      · rw [if_neg hpq, if_pos hqp]
      · have heq : p = q := BitVec.le_antisymm (BitVec.not_lt.mp hqp) (BitVec.not_lt.mp hpq)
        rw [heq]
  constructor
  · intro h
    rw [← hports p q, h, hports]
  · intro h
    rcases Sym2.eq_iff.mp h with ⟨rfl, rfl⟩ | ⟨rfl, rfl⟩
    · rfl
    · exact hswap p q

/-! ## The first of each pair -/

/-- The ports of the links that are kept. -/
def ports (link : IfEntry × Uuid) : Sym2 Uuid := s(link.1.id, link.2)

theorem mem_firstLinks {link : IfEntry × Uuid} (h : link ∈ firstLinks entries processed) :
    link.1 ∈ entries ∧ Reports link.1 link.2 ∧ pairKey link.1.id link.2 ∉ processed := by
  induction entries generalizing processed with
  | nil => cases h
  | cons entry entries ih =>
    unfold firstLinks at h
    split at h
    · next target key hlink =>
      obtain ⟨hreports, rfl⟩ := linkOf_eq_some.mp hlink
      split at h
      · obtain ⟨hmem, hrest⟩ := ih h
        exact ⟨List.mem_cons_of_mem _ hmem, hrest⟩
      · next hnew =>
        rcases List.mem_cons.mp h with rfl | h
        · exact ⟨List.mem_cons_self, hreports, hnew⟩
        · obtain ⟨hmem, hrest, hkey⟩ := ih h
          exact ⟨List.mem_cons_of_mem _ hmem, hrest, fun hin => hkey (List.mem_cons_of_mem _ hin)⟩
    · obtain ⟨hmem, hrest⟩ := ih h
      exact ⟨List.mem_cons_of_mem _ hmem, hrest⟩

theorem nodup_firstLinks (entries : List IfEntry) (processed : List (Uuid × Uuid)) :
    ((firstLinks entries processed).map ports).Nodup := by
  induction entries generalizing processed with
  | nil => exact List.nodup_nil
  | cons entry entries ih =>
    unfold firstLinks
    split
    · next target key hlink =>
      obtain ⟨-, rfl⟩ := linkOf_eq_some.mp hlink
      split
      · exact ih processed
      · refine List.nodup_cons.mpr ⟨fun hmem => ?_, ih _⟩
        obtain ⟨link, hin, hports⟩ := List.mem_map.mp hmem
        refine (mem_firstLinks hin).2.2 ?_
        rw [pairKey_eq_iff.mpr hports]
        exact List.mem_cons_self
    · exact ih processed

/-- For each report a link between the two ports is kept. -/
theorem exists_firstLinks (hmem : e ∈ entries) (hreports : Reports e t) (hnew : pairKey e.id t ∉ processed) :
    ∃ link ∈ firstLinks entries processed, ports link = s(e.id, t) := by
  induction entries generalizing processed with
  | nil => cases hmem
  | cons entry entries ih =>
    unfold firstLinks
    split
    · next target key hlink =>
      obtain ⟨-, rfl⟩ := linkOf_eq_some.mp hlink
      by_cases hsame : s(entry.id, target) = s(e.id, t)
      · have hkey := pairKey_eq_iff.mpr hsame
        rw [if_neg (hkey ▸ hnew)]
        exact ⟨(entry, target), List.mem_cons_self, hsame⟩
      · have hrest : e ∈ entries := by
          refine (List.mem_cons.mp hmem).resolve_left ?_
          rintro rfl
          refine hsame ?_
          rw [show target = t from Neighbor.ifEntry.inj
            (Option.some.inj ((linkOf_eq_some.mp hlink).1.symm.trans hreports))]
        split
        · exact ih hrest hnew
        · have hnext : pairKey e.id t ∉ pairKey entry.id target :: processed := by
            rw [List.mem_cons, not_or]
            exact ⟨fun heq => hsame (pairKey_eq_iff.mp heq.symm), hnew⟩
          obtain ⟨link, hin, hports⟩ := ih hrest hnext
          exact ⟨link, List.mem_cons_of_mem _ hin, hports⟩
    · next hnone =>
      refine ih ((List.mem_cons.mp hmem).resolve_left ?_) hnew
      rintro rfl
      exact linkOf_eq_none.mp hnone t hreports

/-! ## The edges -/

/-- The edge of a link, if its ports can be joined. -/
def edgeOf (ctx : TopologyContext) (visible : Uuid → Bool) (link : IfEntry × Uuid) : Option Edge := do
  let sourceInterfaceId ← ctx.resolveInterfaceForIfEntry link.1
  let targetEntry ← ctx.getIfEntryById link.2
  let targetInterfaceId ← ctx.resolveInterfaceForIfEntry targetEntry
  if visible sourceInterfaceId && visible targetInterfaceId then
    draw ctx sourceInterfaceId targetInterfaceId targetInterfaceId (.physicalLink link.1.id targetEntry.id .lldp)
      (some (ctx.displayName link.1 ++ " ↔ " ++ ctx.displayName targetEntry))
  else none

theorem createPhysicalLinkEdges_eq :
    createPhysicalLinkEdges ctx visible =
      (firstLinks ctx.getIfEntriesWithNeighbor []).filterMap (edgeOf ctx visible) := rfl

/-- What is drawn has the type asked for, and its ends are in subnets. -/
theorem subnets_of_draw {source target anchor : Uuid} {edgeType : EdgeType} {label : Option String} {edge : Edge}
    (h : draw ctx source target anchor edgeType label = some edge) : edge.edgeType = edgeType ∧
      (ctx.getSubnetFromInterfaceId source).isSome = true ∧ (ctx.getSubnetFromInterfaceId anchor).isSome = true := by
  simp only [draw, determineInterfaceHandles, bind, Option.bind_eq_some_iff] at h
  obtain ⟨handles, ⟨sourceSubnet, hsource, targetSubnet, htarget, -⟩, hdrawn⟩ := h
  cases hdrawn
  exact ⟨rfl, by rw [hsource]; rfl, by rw [htarget]; rfl⟩

/-- The edge of a link is between its ports. -/
theorem edgeOf_eq_some {link : IfEntry × Uuid} {edge : Edge} (h : edgeOf ctx visible link = some edge) :
    linkedPorts edge = some (ports link) ∧ ∃ b ∈ ctx.ifEntries.rows, b.id = link.2 ∧
        Joinable ctx visible link.1 b := by
  simp only [edgeOf, bind, Option.bind_eq_some_iff] at h
  obtain ⟨i, hi, b, hb, j, hj, h⟩ := h
  obtain ⟨hrow, hid⟩ := Table.get_eq_some.mp hb
  split at h
  · next hvisible =>
    obtain ⟨htype, hisubnet, hjsubnet⟩ := subnets_of_draw h
    obtain ⟨hivisible, hjvisible⟩ := Bool.and_eq_true_iff.mp hvisible
    refine ⟨by rw [linkedPorts, htype, ports, hid], b, hrow, hid, ⟨?_⟩⟩
    rintro entry (rfl | rfl)
    · exact ⟨i, hi, hivisible, hisubnet⟩
    · exact ⟨j, hj, hjvisible, hjsubnet⟩
  · cases h

theorem isSome_edgeOf {link : IfEntry × Uuid} {b : IfEntry} (hb : b ∈ ctx.ifEntries.rows) (hid : b.id = link.2)
    (hjoin : Joinable ctx visible link.1 b) : (edgeOf ctx visible link).isSome = true := by
  obtain ⟨i, hi, hivisible, hisubnet⟩ := hjoin.ends link.1 (.inl rfl)
  obtain ⟨j, hj, hjvisible, hjsubnet⟩ := hjoin.ends b (.inr rfl)
  have hget : ctx.getIfEntryById link.2 = some b := Table.get_eq_some.mpr ⟨hb, hid⟩
  simp only [edgeOf, hi, hget, hj, bind, Option.bind_some, hivisible, hjvisible, Bool.and_self, if_true]
  exact draw_isSome hisubnet hjsubnet

theorem mem_getIfEntriesWithNeighbor : e ∈ ctx.getIfEntriesWithNeighbor ↔
    e ∈ ctx.ifEntries.rows ∧ ∃ t, Reports e t := by
  rw [TopologyContext.getIfEntriesWithNeighbor, List.mem_filter]
  refine and_congr_right fun _ => ?_
  unfold Reports
  split
  · next t h => exact iff_of_true rfl ⟨t, h⟩
  · next h => exact iff_of_false Bool.false_ne_true fun ⟨t, ht⟩ => h t ht

/-- The ports of the edges are those of links that are kept, each of them once. -/
theorem nodup_linkedPorts : ((createPhysicalLinkEdges ctx visible).map linkedPorts).Nodup := by
  have hsublist (links : List (IfEntry × Uuid)) : ((links.filterMap (edgeOf ctx visible)).map linkedPorts).Sublist
      ((links.map ports).map some) := by
    induction links with
    | nil => exact List.Sublist.refl _
    | cons link links ih =>
      rw [List.filterMap_cons]
      split
      · exact ih.trans (List.sublist_cons_self _ _)
      · next edge hedge =>
        rw [List.map_cons, List.map_cons, List.map_cons, (edgeOf_eq_some hedge).1]
        exact ih.cons_cons _
  rw [createPhysicalLinkEdges_eq]
  exact ((nodup_firstLinks _ _).map (Option.some_injective _)).sublist (hsublist _)

/-- There is an edge between two ports exactly if one reports the other and they can be joined. -/
theorem mem_linkedPorts {pair : Option (Sym2 Uuid)} : pair ∈ (createPhysicalLinkEdges ctx visible).map linkedPorts ↔
    ∃ a ∈ ctx.ifEntries.rows, ∃ b ∈ ctx.ifEntries.rows, pair = some s(a.id, b.id) ∧
      (Reports a b.id ∨ Reports b a.id) ∧
      Joinable ctx visible a b := by
  rw [createPhysicalLinkEdges_eq, List.mem_map]
  constructor
  · rintro ⟨edge, hedge, rfl⟩
    obtain ⟨link, hlink, hedge⟩ := List.mem_filterMap.mp hedge
    obtain ⟨hmem, hreports, -⟩ := mem_firstLinks hlink
    obtain ⟨hports, b, hb, hid, hjoin⟩ := edgeOf_eq_some hedge
    refine ⟨link.1, (mem_getIfEntriesWithNeighbor.mp hmem).1, b, hb, ?_, .inl ?_, hjoin⟩
    · rw [hports, ports, hid]
    · rw [hid]
      exact hreports
  · rintro ⟨a, ha, b, hb, rfl, hreports, hjoin⟩
    -- The link that is kept for the report may be that of the other port.
    have hdrawn {a b : IfEntry} (ha : a ∈ ctx.ifEntries.rows) (hb : b ∈ ctx.ifEntries.rows)
      (hreports : Reports a b.id)
        (hjoin : Joinable ctx visible a b) :
        ∃ edge ∈ (firstLinks ctx.getIfEntriesWithNeighbor []).filterMap (edgeOf ctx visible),
          linkedPorts edge = some s(a.id, b.id) := by
      obtain ⟨link, hlink, hports⟩ :=
        exists_firstLinks (mem_getIfEntriesWithNeighbor.mpr ⟨ha, b.id, hreports⟩) hreports
        List.not_mem_nil
      have hrow := (mem_getIfEntriesWithNeighbor.mp (mem_firstLinks hlink).1).1
      have hsome : (edgeOf ctx visible link).isSome = true := by
        rcases Sym2.eq_iff.mp hports with ⟨hsource, htarget⟩ | ⟨hsource, htarget⟩
        · rw [← ctx.ifEntries.eq_of_key hrow ha hsource] at hjoin
          exact isSome_edgeOf hb htarget.symm hjoin
        · rw [← ctx.ifEntries.eq_of_key hrow hb hsource] at hjoin
          exact isSome_edgeOf ha htarget.symm hjoin.symm
      obtain ⟨edge, hedge⟩ := Option.isSome_iff_exists.mp hsome
      exact ⟨edge, List.mem_filterMap.mpr ⟨link, hlink, hedge⟩, (edgeOf_eq_some hedge).1.trans (congrArg some hports)⟩
    rcases hreports with hreports | hreports
    · exact hdrawn ha hb hreports hjoin
    · rw [Sym2.eq_swap]
      exact hdrawn hb ha hreports hjoin.symm

/-- **There is one edge between any two ports of which one reports the other and that can be joined, none between others,
and the order of the entries does not matter.** -/
theorem physicalLinks_unique (ctx : TopologyContext) :
    ((createPhysicalLinkEdges ctx ctx.interfaceWillHaveNode).map linkedPorts).Nodup ∧
    (∀ pair, pair ∈ (createPhysicalLinkEdges ctx ctx.interfaceWillHaveNode).map linkedPorts ↔
      ∃ a ∈ ctx.ifEntries.rows, ∃ b ∈ ctx.ifEntries.rows, pair = some s(a.id, b.id) ∧
        (Reports a b.id ∨ Reports b a.id) ∧
        Joinable ctx ctx.interfaceWillHaveNode a b) ∧
    ∀ ctx' ifEntries, ctx' = { ctx with ifEntries } → ifEntries.rows.Perm ctx.ifEntries.rows →
      ∀ pair, pair ∈ (createPhysicalLinkEdges ctx' ctx'.interfaceWillHaveNode).map linkedPorts ↔
        pair ∈ (createPhysicalLinkEdges ctx ctx.interfaceWillHaveNode).map linkedPorts := by
  refine ⟨nodup_linkedPorts, fun _ => mem_linkedPorts, ?_⟩
  rintro ctx' ifEntries rfl hperm pair
  rw [mem_linkedPorts, mem_linkedPorts]
  have hentries (e : IfEntry) : e ∈ ifEntries.rows ↔ e ∈ ctx.ifEntries.rows := hperm.mem_iff
  have hjoinable (a b : IfEntry) : Joinable { ctx with ifEntries } ctx.interfaceWillHaveNode a b ↔
      Joinable ctx ctx.interfaceWillHaveNode a b := ⟨fun h => ⟨h.ends⟩, fun h => ⟨h.ends⟩⟩
  refine exists_congr fun a => and_congr (hentries a) (exists_congr fun b => and_congr (hentries b) ?_)
  exact and_congr_right fun _ => and_congr_right fun _ => hjoinable a b

end EdgeBuilder

end Netvisor
