/-
The bindings of one service: when no two of them are of one type, exclude each
other, or one covers the other.

Deduplicating, validating and merging see to it, so what breaks it goes around
them: a binding endpoint, which looks only at the bindings with the network id
of the request and does not ask for equal or covering ones, or a failure half
way through saving, which leaves bindings from before next to new ones.
-/
import Netvisor.Services.System

namespace Netvisor

/-- No two bindings of a service clash. -/
def Db.MinimalBindings (db : Db) : Prop :=
  ∀ a ∈ db.bindings.rows, ∀ b ∈ db.bindings.rows, a.base.serviceId = b.base.serviceId → a ≠ b →
    a.base.bindingType.clashes b.base.bindingType = false

instance (db : Db) : Decidable db.MinimalBindings := by
  unfold Db.MinimalBindings
  infer_instance

namespace ServiceService

variable {db db' : Db} {service existing newData : Service} {result : Option Service}

theorem minimal_children (h : Minimal service.base.bindings) : Minimal (children service) := by
  rw [minimal_iff_types] at h ⊢
  rw [children, List.map_map]
  exact h

/-- Where saving the service may be refused, no binding saved clashes with one
from before that is not overwritten yet. -/
def Interruptible (db : Db) (service : Service) : Prop :=
  ∀ done c rest, children service = done ++ c :: rest → Refused db service.id done c →
    ∀ d ∈ done, ∀ r ∈ db.bindingsOf service.id, (∀ d ∈ done, d.id ≠ r.id) → (∃ x ∈ c :: rest, x.id = r.id) →
      d.base.bindingType.clashes r.base.bindingType = false

theorem minimal_out {db₀ : Db} {parentId : Uuid} {done out rest : List Binding}
    (h : Saving db₀ parentId done out rest db) (hdone : Minimal done) : Minimal out := by
  rw [minimal_iff_types] at hdone ⊢
  have hmap : out.map (·.base.bindingType) = done.map (·.base.bindingType) := by
    refine List.forall₂_eq_eq_eq ▸ List.forall₂_map_left_iff.mpr (List.forall₂_map_right_iff.mpr ?_)
    exact h.written.flip.imp fun b c hbc => by rw [hbc.1]
  rwa [hmap]

/-- Saving keeps the bindings of each service minimal. -/
theorem minimalBindings_saves (h : db.MinimalBindings) (hs : Saves db service result db') (hne : db'.drawn ≠ [])
    (hmin : Minimal (children service))
    (hold : (∀ r ∈ db.bindings.rows, r.base.serviceId ≠ service.id) ∨
      db.hasService service.id = true ∧ Interruptible db service) : db'.MinimalBindings := by
  obtain ⟨done, out, rest, ⟨hl, db₀, hrow, hsaving, hrefused⟩, -⟩ := hs
  have hbindings : db₀.bindings = db.bindings := by
    obtain ⟨services, drawn, -, rfl⟩ := hrow.same
    rfl
  have hout : Minimal out := minimal_out hsaving (hmin.sublist (hl ▸ List.sublist_append_left _ _))
  have hmixed (a b : Binding) (ha : a ∈ out) (hbs : b.base.serviceId = service.id) (hb : b ∈ db₀.bindings.rows)
      (hdone : ∀ d ∈ done, d.id ≠ b.id) (hrest : ∃ c ∈ rest, c.id = b.id) :
      a.base.bindingType.clashes b.base.bindingType = false := by
    rw [hbindings] at hb
    rcases hold with hnone | ⟨hstored, hint⟩
    · exact absurd hbs (hnone b hb)
    · obtain ⟨d, hd, hda, -⟩ := hsaving.mem_out ha
      cases rest with
      | nil => simp at hrest
      | cons c rest =>
        rw [hda]
        exact hint done c rest hl (hrow.refused hstored (hrefused c rfl hne)) d hd b
          (Db.mem_bindingsOf.mpr ⟨hb, hbs⟩) hdone hrest
  intro a ha b hb hab hne
  by_cases hp : a.base.serviceId = service.id
  · rcases hsaving.own a ha hp with haout | ⟨haold, -, hadone, harest⟩ <;>
      rcases hsaving.own b hb (hab ▸ hp) with hbout | ⟨hbold, -, hbdone, hbrest⟩
    · exact hout.clashes haout hbout hne
    · exact hmixed a b haout (hab ▸ hp) hbold hbdone hbrest
    · rw [BindingType.clashes_comm]
      exact hmixed b a hbout hp haold hadone harest
    · rw [hbindings] at haold hbold
      exact h a haold b hbold hab hne
  · have ha := (hsaving.others a hp).mp ha
    have hb := (hsaving.others b (hab ▸ hp)).mp hb
    rw [hbindings] at ha hb
    exact h a ha b hb hab hne

/-! ## Merging -/

/-- No new binding has the id of an existing one that a new one supersedes. -/
def ReusesNoId (existing newData : Service) : Prop :=
  ∀ r ∈ existing.base.bindings,
    (∃ b ∈ newData.base.bindings, b.base.bindingType.supersedes r.base.bindingType = true) →
      ∀ c ∈ newData.base.bindings, c.id ≠ r.id

/-- No new binding is refused after those before it. -/
def NoneRefused (db : Db) (existing newData : Service) : Prop :=
  ∀ done c rest, (newData.base.bindings.map fun b => b.withService existing.id existing.base.networkId) =
    done ++ c :: rest → ¬ Refused db existing.id done c

theorem interruptible_of_reusesNoId (he : Stored db existing) (hmin : Minimal existing.base.bindings)
    (h : ReusesNoId existing newData) : Interruptible db (merged existing newData) := by
  intro done c rest hl hr d hd r hr' hdone ⟨x, hx, hxr⟩
  have hmem : r ∈ existing.base.bindings := he.mem_bindings.mpr (Db.mem_bindingsOf.mp hr')
  by_cases hkept : r ∈ mergeBindings existing.base.bindings newData.base.bindings
  · -- The binding is still there, as itself, so it stands behind `d` in a minimal list.
    have hchild : r.withService existing.id existing.base.networkId ∈ done ++ c :: rest :=
      hl ▸ mem_children.mpr ⟨r, hkept, rfl⟩
    have hpair : Minimal (done ++ c :: rest) := hl ▸ minimal_children (minimal_mergeBindings hmin)
    rcases List.mem_append.mp hchild with hin | hin
    · exact absurd rfl (hdone (r.withService existing.id existing.base.networkId) hin)
    · exact (List.pairwise_append.mp hpair).2.2 d hd (r.withService existing.id existing.base.networkId) hin
  · -- The binding is superseded, so the one with its id is new.
    have hgone := (mem_mergeBindings_of_mem hmem).resolve_left hkept
    have hx' : x ∈ children (merged existing newData) := hl ▸ List.mem_append_right _ hx
    obtain ⟨y, hy, rfl⟩ := mem_children.mp hx'
    have hyr : y.id = r.id := hxr
    rcases mem_mergeBindings hy with hy' | hy'
    · have hyr : y = r := db.bindings.eq_of_key (he.mem_bindings.mp hy').1 (he.mem_bindings.mp hmem).1 hyr
      exact absurd (hyr ▸ hy) hkept
    · exact absurd hyr (h r hmem hgone y hy')

/-- A new binding that is refused among the merged ones is refused among the new ones. -/
theorem interruptible_of_noneRefused (hdb : db.Referential) (he : Stored db existing)
    (hnetwork : db.hasNetwork existing.base.networkId = true) (h : NoneRefused db existing newData) :
    Interruptible db (merged existing newData) := by
  intro done c rest hl hr
  exfalso
  obtain ⟨kept, added, hmerged, hkept, hadded⟩ := mergeBindings_append existing.base.bindings newData.base.bindings
  let own (b : Binding) : Binding := b.withService existing.id existing.base.networkId
  have hl : kept.map own ++ added.map own = done ++ c :: rest := by
    rw [← hl, ← List.map_append, ← hmerged]
    rfl
  have hstored (b : Binding) (hb : b ∈ kept) : b ∈ db.bindingsOf existing.id :=
    Db.mem_bindingsOf.mpr (he.mem_bindings.mp (hkept hb))
  have hnew (pre : List Binding) (hdone : done = kept.map own ++ pre)
      (hpre : added.map own = pre ++ c :: rest) : False := by
    -- The refused one is new, after the new ones in `pre`.
    obtain ⟨a₁, a₂, hadd, rfl, ha₂⟩ := List.map_eq_append_iff.mp hpre
    obtain ⟨y, a₃, rfl, rfl, -⟩ := List.map_eq_cons_iff.mp ha₂
    obtain ⟨p, q, hsplit, hp, hq⟩ := List.append_sublist_iff.mp (hadd ▸ hadded)
    obtain ⟨q₁, q₂, rfl, hy, -⟩ := List.cons_sublist_iff.mp hq
    obtain ⟨q₀, q₁, rfl⟩ := List.append_of_mem hy
    refine h ((p ++ q₀).map own) (own y) ((q₁ ++ q₂).map own) (by rw [hsplit]; simp [own]) ?_
    refine hr.imp_right fun ⟨hnil, hfree, htaken⟩ => ⟨hnil, hfree, htaken.imp_right fun ⟨d, hd, hdc⟩ => ?_⟩
    rw [hdone, List.mem_append] at hd
    rcases hd with hd | hd
    · obtain ⟨b, hb, rfl⟩ := List.mem_map.mp hd
      exact absurd hdc (hfree b (hstored b hb))
    · obtain ⟨b, hb, rfl⟩ := List.mem_map.mp hd
      exact ⟨own b, List.mem_map.mpr ⟨b, List.mem_append_left _ (hp.subset hb), rfl⟩, hdc⟩
  rcases List.append_eq_append_iff.mp hl with ⟨pre, hdone, hpre⟩ | ⟨post, hkept', hcons⟩
  · exact hnew pre hdone hpre
  cases post with
  | nil => exact hnew [] (by simpa using hkept'.symm) (by simpa using hcons.symm)
  | cons x post =>
    -- The refused one is stored already, with what it refers to.
    obtain ⟨rfl, -⟩ := List.cons.inj hcons
    obtain ⟨b, hb, rfl⟩ := List.mem_map.mp (hkept' ▸ List.mem_append_right _ List.mem_cons_self)
    rcases hr with href | ⟨-, hfree, -⟩
    · have hb' := he.mem_bindings.mp (hkept hb)
      have hbref := hdb b hb'.1
      simp only [Storable.references, Bool.and_eq_true] at hbref
      have : Storable.references db (own b) = true := by
        simp only [Storable.references, Bool.and_eq_true]
        exact ⟨⟨⟨hnetwork, he.hasService⟩, hbref.1.2⟩, hbref.2⟩
      cases href.symm.trans this
    · exact hfree b (hstored b hb) rfl

end ServiceService

namespace Services

open ServiceService (Creates Saves Stored Updatable Interruptible ReusesNoId NoneRefused incoming deduplicated merged
  mergeTarget children reassignServiceInterfaceBindings)
open BindingHandlers (Creatable Replaceable Bound remaining othersThan)
open HostService (openPortsService)

variable {s t : State} {a : Action} {db db' : Db} {service existing newData : Service} {result : Option Service}

/-- Merging leaves no half of it in the table next to what it replaces. -/
def MergesCleanly (db : Db) (existing newData : Service) : Prop :=
  ReusesNoId existing newData ∨ NoneRefused db existing newData

def CreatesCleanly (db : Db) (service : Service) : Prop :=
  ∀ existing ∈ mergeTarget db service, MergesCleanly db existing service

/-- A binding written by an endpoint clashes with none that stays, and saving
the bindings of a service may not stop where it would leave two that clash. -/
def KeepsMinimal (s : State) (a : Action) : Prop :=
  let db := s.dbAt a
  match a.operation with
  | .createService service => CreatesCleanly db (incoming db service)
  | .updateService service => Updatable db (deduplicated service) → Interruptible db (deduplicated service)
  | .upsertService id newData => ∀ existing, Stored db existing → existing.id = id → MergesCleanly db existing newData
  | .createBinding networkIds binding =>
    Creatable db networkIds binding → ∀ r ∈ remaining db binding, r.base.serviceId = binding.base.serviceId →
      binding.base.bindingType.clashes r.base.bindingType = false
  | .updateBinding networkIds id binding =>
    Replaceable db networkIds id binding → ∀ r ∈ othersThan db id, r.base.serviceId = binding.base.serviceId →
      binding.base.bindingType.clashes r.base.bindingType = false
  | .saveService index =>
    ∀ o ∈ s.ongoing[index]?, ∀ service ∈ o.services.head?,
      CreatesCleanly db (incoming db (reassignServiceInterfaceBindings o.r service))
  | .finish index =>
    ∀ o ∈ s.ongoing[index]?, CreatesCleanly db (incoming db (openPortsService o.r.updatedHost o.batch.orphaned))
  | _ => True

theorem minimalBindings_removes (h : db.MinimalBindings) (hr : db.Removes db') : db'.MinimalBindings :=
  fun a ha b hb => h a (hr.bindings a ha).1 b (hr.bindings b hb).1

theorem minimal_of_stored (h : db.MinimalBindings) (he : Stored db existing) : Minimal existing.base.bindings := by
  have hnodup : existing.base.bindings.Nodup := by
    obtain ⟨row, -, rfl⟩ := he
    exact Table.select_perm.nodup_iff.mpr ((List.Nodup.of_map _ db.bindings.nodup).filter _)
  refine hnodup.imp_of_mem fun ha hb hne => ?_
  obtain ⟨ha, hap⟩ := he.mem_bindings.mp ha
  obtain ⟨hb, hbp⟩ := he.mem_bindings.mp hb
  exact h _ ha _ hb (hap.trans hbp.symm) hne

theorem minimalBindings_merges (h : db.MinimalBindings) (hdb : Sound db) (he : Stored db existing)
    (hc : MergesCleanly db existing newData) (hs : Saves db (merged existing newData) result db')
    (hne : db'.drawn ≠ []) : db'.MinimalBindings := by
  have hmin := minimal_of_stored h he
  have hnetwork : db.hasNetwork existing.base.networkId = true := hs.hasNetwork
  refine ServiceService.minimalBindings_saves h hs hne
    (ServiceService.minimal_children (ServiceService.minimal_mergeBindings hmin)) (.inr ⟨he.hasService, ?_⟩)
  rcases hc with hc | hc
  · exact ServiceService.interruptible_of_reusesNoId he hmin hc
  · exact ServiceService.interruptible_of_noneRefused hdb.referential he hnetwork hc

theorem minimalBindings_creates (h : db.MinimalBindings) (hdb : Sound db)
    (hc : CreatesCleanly db (incoming db service))
    (hs : Creates db (incoming db service) result db') (hne : db'.drawn ≠ []) : db'.MinimalBindings := by
  cases hs with
  | merges existing target saves =>
    exact minimalBindings_merges h hdb (ServiceService.stored_of_mergeTarget target) (hc existing target) saves hne
  | new target accepted saves =>
    have hmin : Minimal (ServiceService.withNextPosition db (incoming db service)).base.bindings :=
      ServiceService.minimal_deduplicateBindings accepted.noConflicts
    refine ServiceService.minimalBindings_saves h saves hne (ServiceService.minimal_children hmin)
      (.inl fun r hr heq => ?_)
    -- A binding of the service would refer to a service that was not there.
    obtain ⟨x, hx, hid⟩ := hdb.referential.hasService hr
    have := accepted.new
    rw [Db.hasService_iff.mpr ⟨x, hx, hid.trans heq⟩] at this
    cases this

theorem minimalBindings_bound (h : db.MinimalBindings) {kept : List Binding} {b binding : Binding}
    (hkept : ∀ r ∈ kept, r ∈ db.bindings.rows) (hbase : b.base = binding.base) (hb : Bound db kept b db')
    (hc : ∀ r ∈ kept, r.base.serviceId = binding.base.serviceId →
      binding.base.bindingType.clashes r.base.bindingType = false) : db'.MinimalBindings := by
  intro x hx y hy hxy hne
  rcases (hb.rows x).mp hx with rfl | hx <;> rcases (hb.rows y).mp hy with rfl | hy
  · exact absurd rfl hne
  · rw [hbase] at hxy ⊢
    exact hc y hy hxy.symm
  · rw [BindingType.clashes_comm, hbase]
    exact hc x hx (hbase ▸ hxy)
  · exact h x (hkept x hx) y (hkept y hy) hxy hne

theorem minimalBindings_step (hdb : Sound s.db) (h : s.db.MinimalBindings) (hk : KeepsMinimal s a)
    (hs : step s a = some t) : t.db.MinimalBindings := by
  obtain ⟨hF, hne, heffect⟩ := effect_of_step hs
  have hdb : Sound (s.dbAt a) := ⟨hdb.referential, hdb.named⟩
  have h : (s.dbAt a).MinimalBindings := h
  rcases heffect with hr | hw
  · exact minimalBindings_removes h hr
  simp only [KeepsMinimal] at hk
  generalize a.operation = op at hw hk
  cases op with
  | createService service =>
    obtain ⟨result, hc⟩ := hw
    exact minimalBindings_creates h hdb hk hc hne
  | updateService service =>
    obtain ⟨hu, result, hsaves⟩ := hw
    have hmin : Minimal (deduplicated service).base.bindings :=
      ServiceService.minimal_deduplicateBindings hu.noConflicts
    exact ServiceService.minimalBindings_saves h hsaves hne (ServiceService.minimal_children hmin)
      (.inr ⟨hu.stored, hk hu⟩)
  | upsertService id newData =>
    obtain ⟨existing, result, hstored, hid, hsaves⟩ := hw
    exact minimalBindings_merges h hdb hstored (hk existing hstored hid) hsaves hne
  | createBinding networkIds binding =>
    obtain ⟨hc, b, hbase, hb⟩ := hw
    exact minimalBindings_bound h (fun r hr => (List.mem_filter.mp hr).1) hbase hb (hk hc)
  | updateBinding networkIds id binding =>
    obtain ⟨hc, b, hbase, hb⟩ := hw
    exact minimalBindings_bound h (fun r hr => (List.mem_filter.mp hr).1) hbase hb (hk hc)
  | saveService index =>
    obtain ⟨o, ho, service, hservice, -, result, hc⟩ := hw
    exact minimalBindings_creates h hdb (hk o ho service hservice) hc hne
  | finish index =>
    obtain ⟨o, ho, result, db₁, hc, hr⟩ := hw
    have hne : db₁.drawn ≠ [] := fun hnil => hne (List.suffix_nil.mp (hnil ▸ hr.drawn))
    exact minimalBindings_removes (minimalBindings_creates h hdb (hk o ho) hc hne) hr
  | _ => exact hw.elim

/-- **Minimality.** From a database without services, in a run whose steps keep
to the condition, the bindings of each service are minimal throughout. -/
theorem minimal_of_keepsMinimal {db : Db} (hservices : db.services.rows = []) (hbindings : db.bindings.rows = [])
    {as : List Action} (h : Transition.Along step KeepsMinimal { db } as) :
    Transition.Visits step (fun s => s.db.MinimalBindings) { db } as := by
  refine h.visits (I := fun s => Sound s.db ∧ s.db.MinimalBindings)
    (fun s a t hI hk ht => ⟨hI.1.step ht, minimalBindings_step hI.1 hI.2 hk ht⟩) (fun s hI => hI.2) ⟨⟨?_, ?_⟩, ?_⟩
  · exact fun b hb => absurd hb (by simp [hbindings])
  · exact fun s hs => absurd hs (by simp [hservices])
  · exact fun b hb => absurd hb (by simp [hbindings])

theorem minimal_of_keepsMinimal_create : Transition.Visits step (fun s => s.db.MinimalBindings) { db := oneHost }
    [{ operation := .createService (serviceOn 5 [3, 4]), drawn := [10, 11, 12] }] := by
  refine minimal_of_keepsMinimal rfl rfl (Transition.every_cons.mpr fun t _ => ⟨fun existing he => ?_, trivial⟩)
  have hnone : mergeTarget { oneHost with drawn := [10, 11, 12] }
      (incoming { oneHost with drawn := [10, 11, 12] } (serviceOn 5 [3, 4])) = none := by
    decide
  cases hnone.symm.trans he

/-- The endpoint does not ask whether the service has the binding already. -/
theorem port_bound_twice : ¬ Transition.Visits step (fun s => s.db.MinimalBindings) { db := oneHost }
    [{ operation := .createService (serviceOn 5 [3]), drawn := [10, 11] },
      { operation := .createBinding [1] { base := { serviceId := 5, networkId := 1, bindingType := .port 3 none } }
        drawn := [12, 13] }] := by
  decide +kernel

end Services

end Netvisor
