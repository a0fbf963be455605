/-
What a host is after any number of discoveries have been merged into it.

Each field an upsert fills keeps the first value it ever had. The entries of the
discoveries are put in front of those there are, and the oldest are dropped, but
only where both sources are discoveries: another source is replaced whole, or
stays as it is.
-/
import Netvisor.Hosts.Transfers

namespace Netvisor

/-- What the source says about the discoveries of the entity. -/
def EntitySource.metadata : EntitySource → List DiscoveryMetadata
  | discovery metadata => metadata
  | discoveryWithMatch metadata _ => metadata
  | _ => []

namespace HostService

open Program (wp)

variable {db : Db} {id : Uuid} {h d : Host} {ds : List Host} {existing new : EntitySource}

/-- Merge what was discovered into the host as it is stored. -/
def mergeNext (id : Uuid) (d : Host) : Store Unit := do
  match ← Storable.getById id with
  | some existing =>
    let _ ← upsertHost existing d
    return ()
  | none => return ()

/-- One after the other. -/
def mergeDiscovered (id : Uuid) (ds : List Host) : Store Unit := ds.forM (mergeNext id)

/-- The fields an upsert fills where they are empty. -/
def filledFields : List (HostBase → Option String) :=
  [HostBase.hostname, HostBase.sysDescr, HostBase.sysObjectId, HostBase.sysLocation, HostBase.sysContact,
    HostBase.managementUrl, HostBase.chassisId]

/-! ## The promise -/

/-- The entries of all that was merged, the newest first. -/
def entriesSeen (h : Host) (ds : List Host) : List DiscoveryMetadata :=
  ds.reverse.flatMap (·.base.source.metadata) ++ h.base.source.metadata

/-- `h'` is the join of `h` and all that was merged into it. -/
structure Joined (h : Host) (ds : List Host) (h' : Host) : Prop where
  first : ∀ f ∈ filledFields, f h'.base = (h :: ds).findSome? fun d => f d.base
  newest : ds ≠ [] → h'.base.source.metadata = (entriesSeen h ds).take maxDiscoveryMetadataEntries

/-! ## One merge -/

/-- No entry is lost that belongs to the newest, and none kept that does not. -/
def Retains : EntitySource → EntitySource → Prop
  | .discovery _, .discovery _ => True
  | existing, .discovery new =>
    new.length ≤ maxDiscoveryMetadataEntries ∧ (existing.metadata = [] ∨ new.length = maxDiscoveryMetadataEntries)
  | existing, new => new.metadata = [] ∧ existing.metadata.length ≤ maxDiscoveryMetadataEntries

instance : Decidable (Retains existing new) := by
  unfold Retains
  split <;> infer_instance

theorem metadata_mergeSource (h : Retains existing new) :
    (mergeSource existing new).metadata = (new.metadata ++ existing.metadata).take maxDiscoveryMetadataEntries := by
  have replaced (e n : List DiscoveryMetadata) (hn : n.length ≤ maxDiscoveryMetadataEntries)
      (he : e = [] ∨ n.length = maxDiscoveryMetadataEntries) : n = (n ++ e).take maxDiscoveryMetadataEntries := by
    rcases he with rfl | hlen
    · rw [List.append_nil, List.take_of_length_le hn]
    · rw [← hlen, List.take_left]
  have kept (e n : List DiscoveryMetadata) (h : n = [] ∧ e.length ≤ maxDiscoveryMetadataEntries) :
      e = (n ++ e).take maxDiscoveryMetadataEntries := by
    rw [h.1, List.nil_append, List.take_of_length_le h.2]
  cases new with
  | discovery n =>
    cases existing with
    | discovery e => rfl
    | manual | system | discoveryWithMatch | unknown => exact replaced _ _ h.1 h.2
  | manual | system | discoveryWithMatch | unknown => cases existing <;> exact kept _ _ h

/-- Of entries that are all different, a merge keeps the newest only if it retains them. -/
theorem retains_of_metadata_mergeSource (hnodup : (new.metadata ++ existing.metadata).Nodup)
    (h : (mergeSource existing new).metadata = (new.metadata ++ existing.metadata).take maxDiscoveryMetadataEntries) :
    Retains existing new := by
  have replaced (e n : List DiscoveryMetadata) (h : n = (n ++ e).take maxDiscoveryMetadataEntries) :
      n.length ≤ maxDiscoveryMetadataEntries ∧ (e = [] ∨ n.length = maxDiscoveryMetadataEntries) := by
    have hlen := congrArg List.length h
    rw [List.length_take, List.length_append] at hlen
    refine ⟨by omega, ?_⟩
    by_cases he : e = []
    · exact .inl he
    · have := List.length_pos_of_ne_nil he
      exact .inr (by omega)
  -- The newest entry would be the first of those that were there already.
  have kept (e n : List DiscoveryMetadata) (hnodup : (n ++ e).Nodup)
    (h : e = (n ++ e).take maxDiscoveryMetadataEntries) :
      n = [] ∧ e.length ≤ maxDiscoveryMetadataEntries := by
    have hlen := congrArg List.length h
    rw [List.length_take, List.length_append] at hlen
    refine ⟨?_, by omega⟩
    cases n with
    | nil => rfl
    | cons x n =>
      have hx : x ∈ e := by
        rw [h]
        simp [maxDiscoveryMetadataEntries]
      simp only [List.cons_append, List.nodup_cons, List.mem_append] at hnodup
      exact absurd (.inr hx) hnodup.1
  cases new with
  | discovery n =>
    cases existing with
    | discovery e => trivial
    | manual | system | discoveryWithMatch | unknown => exact replaced _ _ h
  | manual | system | discoveryWithMatch | unknown => cases existing <;> exact kept _ _ hnodup h

theorem filled_merged {f : HostBase → Option String} (hf : f ∈ filledFields) :
    f (merged h d).base = (f h.base <|> f d.base) := by
  simp only [filledFields, List.mem_cons, List.not_mem_nil, or_false] at hf
  rcases hf with rfl | rfl | rfl | rfl | rfl | rfl | rfl <;> rfl

/-! ## Many merges -/

/-- Every merge of the sequence retains the newest entries. -/
def RetainsAll (source : EntitySource) : List Host → Prop
  | [] => True
  | d :: ds => Retains source d.base.source ∧ RetainsAll (mergeSource source d.base.source) ds

theorem RetainsAll.left {source : EntitySource} :
    ∀ {done rest : List Host}, RetainsAll source (done ++ rest) → RetainsAll source done
  | [], _, _ => trivial
  | _ :: _, _, h => ⟨h.1, h.2.left⟩

theorem first_foldl_merged {f : HostBase → Option String} (hf : f ∈ filledFields) :
    f (ds.foldl merged h).base = (h :: ds).findSome? fun d => f d.base := by
  induction ds generalizing h with
  | nil => cases hh : f h.base <;> simp [hh]
  | cons d ds ih =>
    rw [List.foldl_cons, ih, List.findSome?_cons, filled_merged hf]
    cases hh : f h.base <;> cases hd : f d.base <;> simp [hh, hd]

theorem take_append_take {α : Type} {n : Nat} (l l' : List α) : (l ++ l'.take n).take n = (l ++ l').take n := by
  rw [List.take_append, List.take_append, List.take_take, Nat.min_eq_left (Nat.sub_le n l.length)]

theorem newest_foldl_merged (hretains : RetainsAll h.base.source ds) (hne : ds ≠ []) :
    (ds.foldl merged h).base.source.metadata = (entriesSeen h ds).take maxDiscoveryMetadataEntries := by
  induction ds generalizing h with
  | nil => exact absurd rfl hne
  | cons d ds ih =>
    have hstep : (merged h d).base.source.metadata
        = (d.base.source.metadata ++ h.base.source.metadata).take maxDiscoveryMetadataEntries :=
      metadata_mergeSource hretains.1
    have hseen : entriesSeen h (d :: ds)
        = ds.reverse.flatMap (·.base.source.metadata) ++ (d.base.source.metadata ++ h.base.source.metadata) := by
      simp [entriesSeen]
    rw [List.foldl_cons, hseen]
    by_cases hds : ds = []
    · rw [hds]
      exact hstep
    · rw [ih hretains.2 hds, entriesSeen, hstep, take_append_take]

theorem joined_foldl_merged (hretains : RetainsAll h.base.source ds) : Joined h ds (ds.foldl merged h) where
  first _ hf := first_foldl_merged hf
  newest := newest_foldl_merged hretains

/-! ## In the database -/

theorem get_mergeNext (hget : db.hosts.get id = some h) :
    wp (mergeNext id d) (fun _ t => t.hosts.get id = some (merged h d)) (fun _ t => t = db) db := by
  have hid : h.id = id := (Table.get_eq_some.mp hget).2
  have hstored : (Storable.table (α := Host) db).get id = some h := hget
  simp only [mergeNext, Program.wp_bind, Storable.wp_getById, hstored, upsertHost, Program.wp_ite, Program.wp_pure]
  refine ⟨fun _ => Storable.wp_update (fun _ => rfl) (fun hmissing => ?_) fun _ _ => ?_, fun hupdates => ?_⟩
  · rw [← hid] at hget
    exact absurd (hget.symm.trans hmissing) (by simp)
  · exact Table.get_update_self hget hid
  · rw [merged_of_not_hasUpdates (by simpa using hupdates)]
    exact hget

/-- The host is all that was merged, or all up to the merge that failed. -/
theorem get_mergeDiscovered (hget : db.hosts.get id = some h) :
    wp (mergeDiscovered id ds) (fun _ t => t.hosts.get id = some (ds.foldl merged h))
      (fun _ t => ∃ done rest, ds = done ++ rest ∧ t.hosts.get id = some (done.foldl merged h)) db := by
  induction ds generalizing h db with
  | nil => exact hget
  | cons d ds ih =>
    show wp (mergeNext id d >>= fun _ => mergeDiscovered id ds) _ _ db
    rw [Program.wp_bind]
    refine (get_mergeNext hget).mono (fun _ t ht => ?_) fun _ t ht => ⟨[], d :: ds, rfl, ht ▸ hget⟩
    refine (ih ht).mono (fun _ u hu => hu) fun _ u ⟨done, rest, hds, hu⟩ => ⟨d :: done, rest, ?_, hu⟩
    rw [hds, List.cons_append]

/-- **As long as every merge retains the newest entries, the stored host is the
join of all that was merged into it, also where a merge fails.** -/
theorem mergeDiscovered_joined (hget : db.hosts.get id = some h) (hretains : RetainsAll h.base.source ds) :
    wp (mergeDiscovered id ds) (fun _ t => ∃ h', t.hosts.get id = some h' ∧ Joined h ds h')
      (fun _ t => ∃ done rest h', ds = done ++ rest ∧ t.hosts.get id = some h' ∧ Joined h done h') db := by
  refine (get_mergeDiscovered hget).mono (fun _ t ht => ⟨_, ht, joined_foldl_merged hretains⟩) ?_
  intro _ t ⟨done, rest, hds, ht⟩
  rw [hds] at hretains
  exact ⟨done, rest, _, hds, ht, joined_foldl_merged hretains.left⟩

/-- A host by the administrator. -/
def addedByHand : Host where
  id := 1
  base := { name := "server", source := .manual }

/-- A host as that many discoveries found it. -/
def foundTimes (n : Nat) : Host where
  id := 1
  base :=
    { name := "server", hostname := some "server.lan"
      source := .discovery ((List.range n).map fun date => ⟨.selfReport 1, 3, date⟩) }

/-- A host that was found by a pattern. -/
def foundByMatch : Host where
  id := 1
  base := { name := "server", source := .discoveryWithMatch [⟨.selfReport 1, 3, 7⟩] ⟨.reason "port", .high⟩ }

def storedHost (h : Host) : Db where
  hosts := { rows := [h] }
  networks := [h.base.networkId]

theorem mergeDiscovered_joined_added :
    wp (mergeDiscovered 1 [foundTimes 2, foundTimes 9])
      (fun _ t => ∃ h', t.hosts.get 1 = some h' ∧ Joined addedByHand [foundTimes 2, foundTimes 9] h')
      (fun _ t => ∃ done rest h', [foundTimes 2, foundTimes 9] = done ++ rest ∧ t.hosts.get 1 = some h' ∧
        Joined addedByHand done h') (storedHost addedByHand) :=
  mergeDiscovered_joined rfl ⟨by decide, trivial, trivial⟩

theorem not_joined_of_run {h d : Host} (hget : db.hosts.get id = some h)
    (hok : wp (mergeDiscovered id [d]) (fun _ _ => True) (fun _ _ => False) db)
    (hne : (merged h d).base.source.metadata ≠ (entriesSeen h [d]).take maxDiscoveryMetadataEntries) :
    wp (mergeDiscovered id [d]) (fun _ t => ¬ ∃ h', t.hosts.get id = some h' ∧ Joined h [d] h')
        (fun _ _ => False) db := by
  refine ((get_mergeDiscovered hget).and hok).mono (fun _ t ⟨ht, _⟩ => ?_) fun _ _ h => h.2
  rintro ⟨h', hh', hjoined⟩
  rw [ht] at hh'
  cases hh'
  exact hne (hjoined.newest (List.cons_ne_nil d []))

/-- One entry too many is kept of a discovery that is merged into a host added by
hand, and the entry of a host found by a pattern is lost. -/
theorem merges_not_joined :
    wp (mergeDiscovered 1 [foundTimes 11])
      (fun _ t => ¬ ∃ h', t.hosts.get 1 = some h' ∧ Joined addedByHand [foundTimes 11] h')
      (fun _ _ => False) (storedHost addedByHand) ∧
    wp (mergeDiscovered 1 [foundTimes 1])
      (fun _ t => ¬ ∃ h', t.hosts.get 1 = some h' ∧ Joined foundByMatch [foundTimes 1] h')
      (fun _ _ => False) (storedHost foundByMatch) :=
  ⟨not_joined_of_run rfl (by decide +kernel) (by decide +kernel),
    not_joined_of_run rfl (by decide +kernel) (by decide +kernel)⟩

end HostService

end Netvisor
