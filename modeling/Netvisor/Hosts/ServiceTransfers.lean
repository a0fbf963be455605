/-
When an update of the services of a host goes through in every order of the
request: exactly if whoever asks for what another service has gives up no port
itself, and the other one does.

Ports that services swap or pass round are given up by services that ask for
one, so one of them comes before the service whose port it asks for.
-/
import Mathlib.Data.List.Sort
import Netvisor.Hosts.ServiceSync

namespace Netvisor

open Program (wp)
open HostUpdate (syncServices syncChildren orderInputs isLosing resolve)

/-! ## Positions -/

namespace PositionedInput

theorem validateSequentialPositions_perm {l l' : List Int} (h : l.Perm l') (name : String) :
    validateSequentialPositions l name = validateSequentialPositions l' name := by
  have hsorted : l.insertionSort (· ≤ ·) = l'.insertionSort (· ≤ ·) := by
    have hperm := (List.perm_insertionSort (· ≤ ·) l).trans (h.trans (List.perm_insertionSort (· ≤ ·) l').symm)
    exact hperm.eq_of_sortedLE List.sortedLE_insertionSort List.sortedLE_insertionSort
  simp only [validateSequentialPositions, hsorted, h.length_eq]

variable {α : Type} [PositionedInput α] {inputs inputs' : List α} {existing : List (Uuid × Int)} {name : String}

theorem exists_resolved_iff : (∃ resolved, resolveAndValidate inputs existing name = .ok resolved) ↔
    inputs = [] ∨ (inputs.filterMap position).length = 0 ∨
      (inputs.filterMap position).length = inputs.length ∧
      validateSequentialPositions (inputs.filterMap position) name = none := by
  have hle : (inputs.filterMap position).length ≤ inputs.length := List.length_filterMap_le ..
  simp only [resolveAndValidate, List.isEmpty_iff]
  split
  · next hempty => simp [hempty]
  · next hempty =>
    split
    · next hsome =>
      simp only [reduceCtorEq, exists_false, hempty, false_or, false_iff, not_or, not_and]
      exact ⟨by omega, fun heq => by omega⟩
    · split
      · next hall =>
        have hpos : (inputs.filterMap position).length ≠ 0 := by
          rw [hall]
          exact fun h => hempty (List.length_eq_zero_iff.mp h)
        cases hvalid : validateSequentialPositions (inputs.filterMap position) name with
        | none => exact iff_of_true ⟨inputs, rfl⟩ (.inr (.inr ⟨hall, rfl⟩))
        | some message =>
          refine iff_of_false (fun ⟨_, h⟩ => nomatch h) ?_
          rintro (h | h | ⟨-, h⟩)
          · exact hempty h
          · exact hpos h
          · cases h
      · next hsome hall =>
        have hnone : (inputs.filterMap position).length = 0 := by omega
        simp [hnone]

/-- Whether the positions are in order does not depend on the order of the inputs. -/
theorem exists_resolved_perm (h : inputs.Perm inputs')
    (hresolved : ∃ resolved, resolveAndValidate inputs existing name = .ok resolved) :
    ∃ resolved, resolveAndValidate inputs' existing name = .ok resolved := by
  rw [exists_resolved_iff] at hresolved ⊢
  have hpositions := h.filterMap position
  rw [← hpositions.length_eq, ← h.length_eq, ← validateSequentialPositions_perm hpositions name]
  refine hresolved.imp_left fun hnil => ?_
  rw [hnil] at h
  exact List.perm_nil.mp h.symm

end PositionedInput

/-- The input without where its service is to stand. -/
def ServiceInput.unplaced (x : ServiceInput) : ServiceInput := { x with position := none }

theorem map_unplaced_assignPositions (existing : List (Uuid × Int)) (inputs : List ServiceInput) (next : Int) :
    (PositionedInput.assignPositions existing next inputs).map ServiceInput.unplaced =
    inputs.map ServiceInput.unplaced := by
  induction inputs generalizing next with
  | nil => rfl
  | cons x inputs ih =>
    unfold PositionedInput.assignPositions
    split
    · rw [List.map_cons, List.map_cons, ih]
      rfl
    · rw [List.map_cons, List.map_cons, ih]
      rfl

theorem map_unplaced_of_resolved {inputs resolved : List ServiceInput} {existing : List (Uuid × Int)} {name : String}
    (h : PositionedInput.resolveAndValidate inputs existing name = .ok resolved) :
    resolved.map ServiceInput.unplaced = inputs.map ServiceInput.unplaced := by
  unfold PositionedInput.resolveAndValidate at h
  split at h
  · rw [Except.ok.inj h]
  dsimp only at h
  split at h
  · cases h
  split at h
  · split at h
    · cases h
    · rw [Except.ok.inj h]
  · rw [← Except.ok.inj h]
    exact map_unplaced_assignPositions existing inputs _

namespace ServiceSync

variable {c : ServiceSync} {x y : ServiceInput} {inputs inputs' : List ServiceInput} {t : Db} {s : Service}

/-! ## What does not depend on the order of the inputs -/

@[simp] theorem unplaced_id : x.unplaced.id = x.id := rfl

@[simp] theorem bindings_unplaced : c.bindings x.unplaced = c.bindings x := by
  have hfound : c.found x.unplaced = c.found x := rfl
  simp only [bindings, target, hfound]
  cases c.found x <;> rfl

theorem written_unplaced : c.Written x.unplaced s ↔ c.Written x s := by
  have hfound : c.found x.unplaced = c.found x := rfl
  simp only [Written, target, hfound]
  cases c.found x <;> exact Iff.rfl

theorem clash_unplaced : c.Clash x.unplaced y.unplaced ↔ c.Clash x y := by
  simp only [Clash, bindings_unplaced, unplaced_id]

/-- The inputs are the same but for their order and where the services are to stand. -/
def Alike (inputs inputs' : List ServiceInput) : Prop :=
  (inputs.map ServiceInput.unplaced).Perm (inputs'.map ServiceInput.unplaced)

namespace Alike

theorem symm (h : Alike inputs inputs') : Alike inputs' inputs := List.Perm.symm h

theorem exists_mem (h : Alike inputs inputs') (hx : x ∈ inputs) :
    ∃ y ∈ inputs', x.id = y.id ∧ c.bindings x = c.bindings y ∧
    ∀ s, c.Written x s ↔ c.Written y s := by
  obtain ⟨y, hy, hxy⟩ := List.mem_map.mp (h.mem_iff.mp (List.mem_map_of_mem hx))
  refine ⟨y, hy, by rw [← unplaced_id, ← hxy, unplaced_id], ?_, fun s => ?_⟩
  · rw [← bindings_unplaced, ← hxy, bindings_unplaced]
  · rw [← written_unplaced, ← hxy, written_unplaced]

theorem ids (h : Alike inputs inputs') : (inputs.map ServiceInput.id).Perm (inputs'.map ServiceInput.id) := by
  have hids := h.map ServiceInput.id
  rwa [List.map_map, List.map_map] at hids

theorem flatMap (h : Alike inputs inputs') : (inputs.flatMap c.bindings).Perm (inputs'.flatMap c.bindings) := by
  have hbindings := List.Perm.flatMap_right c.bindings h
  simpa only [List.flatMap_map, bindings_unplaced] using hbindings

theorem consistent (h : Alike inputs inputs') (hC : c.Consistent inputs') : c.Consistent inputs where
  host := hC.host
  network := hC.network
  nodup := h.ids.nodup_iff.mpr hC.nodup
  nonnil x hx := by
    obtain ⟨y, hy, hid, -⟩ := h.exists_mem (c := c) hx
    rw [hid]
    exact hC.nonnil y hy
  own x hx := by
    obtain ⟨y, hy, hid, -⟩ := h.exists_mem (c := c) hx
    rw [hid]
    exact hC.own y hy
  noConflicts x hx := by
    obtain ⟨y, hy, -, hbindings, -⟩ := h.exists_mem (c := c) hx
    rw [hbindings]
    exact hC.noConflicts y hy
  onHost x hx := by
    obtain ⟨y, hy, -, hbindings, -⟩ := h.exists_mem (c := c) hx
    rw [hbindings]
    exact hC.onHost y hy
  disjoint x hx z hz := by
    obtain ⟨y, hy, hid, hbindings, -⟩ := h.exists_mem (c := c) hx
    obtain ⟨w, hw, hwid, hwbindings, -⟩ := h.exists_mem (c := c) hz
    rw [hid, hwid, hbindings, hwbindings]
    exact hC.disjoint y hy w hw
  distinct := (h.flatMap.pairwise_iff fun {a b} hab hba => hba ▸ hab hba.symm).mpr hC.distinct
  ownBindings b hb := hC.ownBindings b (h.flatMap.mem_iff.mp hb)

theorem drawable (h : Alike inputs inputs') (hD : c.Drawable inputs') : c.Drawable inputs where
  fresh := ⟨hD.fresh.nodup, hD.fresh.nonnil, hD.fresh.unstored, fun id hid =>
    hD.fresh.unknown id ((h.flatMap.map _).mem_iff.mp hid)⟩
  enough := h.flatMap.length_eq ▸ hD.enough

theorem reached (h : Alike inputs inputs') (hR : c.Reached inputs' t) : c.Reached inputs t where
  others := hR.others
  services s hs hhost := by
    obtain ⟨y, hy, hwritten⟩ := hR.services s hs hhost
    obtain ⟨x, hx, -, -, hiff⟩ := h.symm.exists_mem (c := c) hy
    exact ⟨x, hx, (hiff s).mp hwritten⟩
  all x hx := by
    obtain ⟨y, hy, -, -, hiff⟩ := h.exists_mem (c := c) hx
    obtain ⟨s, hs, hwritten⟩ := hR.all y hy
    exact ⟨s, hs, (hiff s).mpr hwritten⟩
  bindings x hx := by
    obtain ⟨y, hy, hid, hbindings, -⟩ := h.exists_mem (c := c) hx
    rw [hid, hbindings]
    exact hR.bindings y hy

end Alike

/-! ## The update -/

/-- The inputs are saved in an order in which no service asks for what one after it has. -/
def Clear (c : ServiceSync) (inputs : List ServiceInput) : Prop :=
  (orderInputs c.existing inputs).Pairwise fun x y => ¬ c.Clash x y

theorem clear_unplaced {resolved : List ServiceInput}
    (h : resolved.map ServiceInput.unplaced = inputs.map ServiceInput.unplaced) :
    c.Clear resolved ↔ c.Clear inputs := by
  have hmap (l : List ServiceInput) : (orderInputs c.existing l).map ServiceInput.unplaced =
      orderInputs c.existing (l.map ServiceInput.unplaced) := by
    simp only [orderInputs, List.map_append, List.filter_map]
    rfl
  have hclear (l : List ServiceInput) : c.Clear l ↔
      (orderInputs c.existing (l.map ServiceInput.unplaced)).Pairwise fun x y => ¬ c.Clash x y := by
    rw [← hmap, List.pairwise_map]
    simp only [clash_unplaced]
    exact Iff.rfl
  rw [hclear, hclear, h]

theorem orderInputs_perm (existing : List Service) (inputs : List ServiceInput) :
    (orderInputs existing inputs).Perm inputs :=
  List.filter_append_perm _ inputs

/-- The statements that save one service. -/
def saving (c : ServiceSync) (existing : Option Service) (x : ServiceInput) (now : DateTime) :
    HostUpdate.Steps Service :=
  let service := x.intoService c.hostId c.networkId .manual now
  match existing with
  | some existing => HostUpdate.updateService .services (service.preserveImmutableFields existing)
  | none => HostUpdate.createService .services service

theorem run_saving (x : ServiceInput) (now : DateTime) :
    (c.saving ((c.db.servicesOf c.hostId).find? fun e => Storable.id e == x.id) x now).run = c.save x now := by
  change (c.saving (c.found x) x now).run = c.save x now
  unfold saving save
  cases c.found x with
  | some existing => exact HostUpdate.run_updateService _
  | none => exact HostUpdate.run_createService _

theorem syncServices_eq (inputs : List ServiceInput) : syncServices c.hostId c.networkId inputs = (do
    let existing ← HostUpdate.servicesOfHost .services c.hostId
    let inputs ← resolve inputs (existing.map fun s => (s.id, s.base.position)) "service"
    syncChildren .services (fun ids db => db.deleteServices ids) existing ServiceInput.id
        (orderInputs existing inputs) c.saving) :=
  rfl

/-- The services of the host are made those of the list, exactly if they are saved in an order that is clear. -/
theorem wp_syncServices (hV : c.Valid inputs) (hdb : c.db.Referential) (hD : c.Drawable inputs) :
    wp (syncServices c.hostId c.networkId inputs).run (fun _ t => c.Clear inputs ∧ c.Reached inputs t)
      (fun _ _ => ¬ c.Clear inputs) c.db := by
  obtain ⟨resolved, hresolved⟩ := hV.positions
  have hmap := map_unplaced_of_resolved hresolved
  have halike : Alike (orderInputs c.existing resolved) inputs := by
    have hperm := (orderInputs_perm c.existing resolved).map ServiceInput.unplaced
    rwa [hmap] at hperm
  have hloop {t : Db} (ht : c.Progress [] (orderInputs c.existing resolved) t) :=
    (wp_saveAll (halike.consistent hV.toConsistent) hdb (halike.drawable hD) ht).mono
      (fun _ u ⟨hpair, hu⟩ => (⟨(clear_unplaced hmap).mp hpair, halike.symm.reached hu⟩ : c.Clear inputs ∧
        c.Reached inputs u))
      fun _ _ hnot hclear => hnot ((clear_unplaced hmap).mpr hclear)
  have hresolve : resolve inputs ((c.db.servicesOf c.hostId).map fun s => (s.id, s.base.position)) "service" =
      pure resolved := by
    change resolve inputs (c.existing.map fun s => (s.id, s.base.position)) "service" = _
    rw [resolve, hresolved]
  simp only [syncServices_eq, syncChildren, Process.run_bind, HostUpdate.run_servicesOfHost, Program.wp_bind,
    Program.wp_map, Program.wp_get, hresolve, Process.run_pure, Program.wp_pure, Process.run_ite,
      Process.run_statement, Process.run_mapM,
    Process.run_query, run_saving]
  have hF := (halike.drawable hD).fresh
  rw [Program.wp_ite]
  refine ⟨fun _ => ?_, fun hnone => ?_⟩
  · simp only [Program.wp_bind, Program.wp_modify, Program.wp_pure]
    have hkeeps (id : Uuid) : (!(c.unlisted (orderInputs c.existing resolved)).contains id) = true ↔
        id ∉ c.unlisted (orderInputs c.existing resolved) := by simp
    refine hloop (.start hF ⟨_, _, rfl⟩ (fun s => ?_) fun b => ?_)
    · exact Table.mem_filter.trans (and_congr_right fun _ => hkeeps s.id)
    · exact Table.mem_filter.trans (and_congr_right fun _ => hkeeps b.base.serviceId)
  · simp only [Program.wp_bind, Program.wp_pure]
    have hempty : c.unlisted (orderInputs c.existing resolved) = [] := by
      rw [Bool.not_eq_true, Bool.not_eq_false'] at hnone
      exact List.isEmpty_iff.mp hnone
    refine hloop (.start hF ⟨c.db.services, c.db.bindings, rfl⟩ (fun s => ?_) fun b => ?_)
    · simp [hempty]
    · simp [hempty]

theorem valid_perm (h : inputs'.Perm inputs) (hV : c.Valid inputs) : c.Valid inputs' where
  toConsistent := Alike.consistent (h.map _) hV.toConsistent
  positions := PositionedInput.exists_resolved_perm h.symm hV.positions

/-- In every order of the list the services of the host become those of the list. What `Reached` leaves open are the ids of
bindings that have none in the list, and where new services stand. Where the update fails, nothing is changed. -/
structure Reaches (c : ServiceSync) (inputs : List ServiceInput) : Prop where
  succeeds : ∀ l, l.Perm inputs →
    wp (syncServices c.hostId c.networkId l).run (fun _ t => c.Reached inputs t) (fun _ _ => False) c.db
  unchanged : ∀ l, l.Perm inputs → wp (syncServices c.hostId c.networkId l).run (fun _ _ => True)
    (fun _ t => t.services.rows = c.db.services.rows ∧ t.bindings.rows = c.db.bindings.rows) c.db

/-- Who asks for what another service has gives up no port itself, and the other service does. -/
def Yielding (c : ServiceSync) (inputs : List ServiceInput) : Prop :=
  ∀ x ∈ inputs, ∀ y ∈ inputs, x.id ≠ y.id → c.Clash x y → isLosing c.existing y = true ∧ isLosing c.existing x = false

theorem forall_clear_iff_yielding (hnodup : (inputs.map ServiceInput.id).Nodup) :
    (∀ l, l.Perm inputs → c.Clear l) ↔ c.Yielding inputs := by
  have horders : (∀ l, l.Perm inputs → c.Clear l) ↔ ∀ x ∈ inputs, ∀ y ∈ inputs, x ≠ y → ¬¬ c.Clash x y →
      isLosing c.existing y = true ∧ isLosing c.existing x = false :=
    Handover.forall_perm_pairwise_iff hnodup.of_map
  simp only [horders, not_not]
  refine forall₄_congr fun x hx y hy => imp_congr_left (not_congr ?_)
  exact ⟨fun h => h ▸ rfl, fun h => List.inj_on_of_nodup_map hnodup hx hy h⟩

/-- **The update reaches a valid list in every order exactly if who asks for what another service has gives up no port
itself, and the other one does.** -/
theorem reaches_iff_yielding (hV : c.Valid inputs) (hdb : c.db.Referential) (hD : c.Drawable inputs) :
    c.Reaches inputs ↔ c.Yielding inputs := by
  rw [← forall_clear_iff_yielding hV.nodup]
  have hsync (l : List ServiceInput) (hl : l.Perm inputs) :=
    wp_syncServices (valid_perm hl hV) hdb (Alike.drawable (hl.map _) hD)
  constructor
  · intro h l hl
    obtain ⟨_, _, -, ⟨hclear, -⟩, -⟩ := Program.returns_of_wp
      (((hsync l hl).and (h.succeeds l hl)).mono (fun _ _ h => h) fun _ _ h => h.2)
    exact hclear
  · intro h
    refine ⟨fun l hl => ?_, fun l hl => ?_⟩
    · exact (hsync l hl).mono (fun _ _ hreached => Alike.reached (hl.symm.map _) hreached.2) fun _ _ hnot =>
        hnot (h l hl)
    · exact (hsync l hl).mono (fun _ _ _ => trivial) fun _ _ hnot => absurd (h l hl) hnot

/-! ## Two services that each have a port, and one that has none -/

def twoPorts : ServiceSync where
  hostId := 2
  networkId := 1
  db :=
    { networks := [1]
      hosts := .single { id := 2, base := { networkId := 1 } }
      ports :=
        { rows := [{ id := 3, base := { hostId := 2, networkId := 1 } },
          { id := 4, base := { hostId := 2, networkId := 1 } }]
          nodup := by decide }
      services :=
        { rows := [5, 6, 7].map fun id => { id, base := { hostId := 2, networkId := 1 } }
          nodup := by decide }
      bindings :=
        { rows :=
            [{ id := 11, base := { networkId := 1, serviceId := 5, bindingType := .port 3 none } },
              { id := 12, base := { networkId := 1, serviceId := 6, bindingType := .port 4 none } }]
          nodup := by decide }
      drawn := [21, 22, 23] }

def input (id : Uuid) (bindings : List BindingInput) : ServiceInput where
  id := id
  serviceDefinition := {}
  name := ""
  bindings := bindings

/-- The first service is given the port of the second. -/
def transfer : List ServiceInput := [input 5 [.port 11 3 none, .port Uuid.nil 4 none], input 6 []]

/-- Each is given the port of the other. -/
def swap : List ServiceInput := [input 5 [.port Uuid.nil 4 none], input 6 [.port Uuid.nil 3 none]]

theorem valid_transfer : twoPorts.Valid transfer where
  host := by decide
  network := by decide
  positions := ⟨_, rfl⟩
  nodup := by decide
  nonnil := by decide
  own := by decide
  noConflicts := by decide
  onHost := by decide
  disjoint := by decide
  distinct := by unfold DistinctIds; decide
  ownBindings := by decide

theorem valid_swap : twoPorts.Valid swap where
  host := by decide
  network := by decide
  positions := ⟨_, rfl⟩
  nodup := by decide
  nonnil := by decide
  own := by decide
  noConflicts := by decide
  onHost := by decide
  disjoint := by decide
  distinct := by unfold DistinctIds; decide
  ownBindings := by decide

theorem referential_twoPorts : twoPorts.db.Referential := by
  unfold Db.Referential
  decide

theorem reaches_transfer : twoPorts.Reaches transfer :=
  (reaches_iff_yielding valid_transfer referential_twoPorts ⟨by decide +kernel, by decide +kernel⟩).mpr (by
    unfold Yielding Clash
    decide +kernel)

theorem not_reaches_of_fails (c : ServiceSync) (inputs : List ServiceInput) {P : Error → Db → Prop}
    (hfails : wp (syncServices c.hostId c.networkId inputs).run (fun _ _ => False) P c.db) : ¬ c.Reaches inputs := by
  intro h
  have hnever := ((h.succeeds inputs (.refl _)).and hfails).mono (fun _ _ hend => hend.2) fun _ _ hend => hend.1
  obtain ⟨_, _, -, hfalse⟩ := Program.returns_of_wp hnever
  exact hfalse

theorem swap_run : wp (syncServices twoPorts.hostId twoPorts.networkId swap).run (fun _ _ => False)
    (fun _ t => t.services.rows.map (·.id) = [5, 6]) twoPorts.db := by
  decide

/-- Ports cannot be swapped, and the service that the list does not have is gone though the update fails. -/
theorem swap_fails : twoPorts.Valid swap ∧ twoPorts.db.Referential ∧ twoPorts.Drawable swap ∧
    ¬ twoPorts.Reaches swap ∧
    wp (syncServices twoPorts.hostId twoPorts.networkId swap).run (fun _ _ => False)
      (fun _ t => t.services.rows.map (·.id) = [5, 6]) twoPorts.db :=
  ⟨valid_swap, referential_twoPorts, ⟨by decide +kernel, by decide +kernel⟩,
    not_reaches_of_fails twoPorts swap swap_run, swap_run⟩

end ServiceSync

end Netvisor
