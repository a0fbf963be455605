/-
The ports of a host: when no two of its services claim one.

Creating and updating a service by hand, and each service of a discovery, are
checked against the other services. What goes around the checks: the binding
endpoints, discovered services that are created or merged directly, the
bindings left over that go to the "Unclaimed Open Ports", and an update that
moves a service to another host and fails half way.
-/
import Netvisor.Services.System

namespace Netvisor

/-! ## Overlapping bindings -/

/-- The two bindings claim one port. -/
def Binding.overlaps (a b : Binding) : Bool :=
  match a.claim, b.claim with
  | some c, some d => claimsOverlap c d
  | _, _ => false

theorem Binding.overlaps_comm (a b : Binding) : a.overlaps b = b.overlaps a := by
  unfold overlaps
  cases a.claim <;> cases b.claim <;> simp [claimsOverlap_comm]

theorem Binding.overlaps_of_base {a b : Binding} (h : a.base.bindingType = b.base.bindingType) (c : Binding) :
    a.overlaps c = b.overlaps c := by
  simp only [overlaps, claim, h]

/-- Bindings of two services of one host. -/
def Db.Rivals (db : Db) (a b : Binding) : Prop :=
  ∃ s ∈ db.services.rows, ∃ t ∈ db.services.rows, s.id = a.base.serviceId ∧ t.id = b.base.serviceId ∧
    s.id ≠ t.id ∧ s.base.hostId = t.base.hostId

/-- No two services of a host claim one port. -/
def Db.Exclusive (db : Db) : Prop :=
  ∀ a ∈ db.bindings.rows, ∀ b ∈ db.bindings.rows, db.Rivals a b → a.overlaps b = false

instance (db : Db) (a b : Binding) : Decidable (db.Rivals a b) := by
  unfold Db.Rivals
  infer_instance

instance (db : Db) : Decidable db.Exclusive := by
  unfold Db.Exclusive
  infer_instance

theorem Binding.conflicts_claims {b : Binding} {s : Service} :
    b.conflicts s.claims = true ↔ ∃ r ∈ s.base.bindings, b.overlaps r = true := by
  simp only [conflicts, overlaps, Service.claims]
  cases b.claim with
  | none => simp
  | some c =>
    simp only [List.any_eq_true, List.mem_filterMap]
    constructor
    · rintro ⟨d, ⟨r, hr, hrd⟩, hcd⟩
      exact ⟨r, hr, by rw [hrd]; exact hcd⟩
    · rintro ⟨r, hr, hcr⟩
      cases hrd : r.claim with
      | none => simp [hrd] at hcr
      | some d => exact ⟨d, ⟨r, hr, hrd⟩, by simpa [hrd] using hcr⟩

theorem Binding.conflicts_append {b : Binding} {l l' : List (Uuid × Option Uuid)} :
    b.conflicts (l ++ l') = (b.conflicts l || b.conflicts l') := by
  unfold conflicts
  cases b.claim <;> simp

namespace ServiceService

variable {db db' : Db} {service existing newData : Service} {result : Option Service} {b : Binding}
  {hostId serviceId : Uuid}

/-- The check against the other services of a host, in terms of the tables. -/
theorem conflicts_claimedByOthers : b.conflicts (claimedByOthers db hostId serviceId) = true ↔
    ∃ t ∈ db.services.rows, t.base.hostId = hostId ∧ t.id ≠ serviceId ∧
      ∃ r ∈ db.bindings.rows, r.base.serviceId = t.id ∧ b.overlaps r = true := by
  have hflat (l : List Service) : b.conflicts (l.flatMap Service.claims) = l.any fun s => b.conflicts s.claims := by
    induction l with
    | nil => unfold Binding.conflicts; cases b.claim <;> rfl
    | cons s l ih => rw [List.flatMap_cons, Binding.conflicts_append, ih, List.any_cons]
  rw [claimedByOthers, hflat, List.any_eq_true]
  simp only [List.mem_filter, Db.mem_servicesOf, Binding.conflicts_claims, bne_iff_ne]
  constructor
  · rintro ⟨_, ⟨⟨t, ht, hhost, rfl⟩, hid⟩, r, hr, hover⟩
    obtain ⟨hr, hrs⟩ := Db.mem_bindingsOf.mp hr
    exact ⟨t, ht, hhost, hid, r, hr, hrs, hover⟩
  · rintro ⟨t, ht, hhost, hid, r, hr, hrs, hover⟩
    exact ⟨_, ⟨⟨t, ht, hhost, rfl⟩, hid⟩, r, Db.mem_bindingsOf.mpr ⟨hr, hrs⟩, hover⟩

theorem portTaken_eq_none {ports : List Port} {others : List Service} :
    portTaken ports others b = none ↔ ∀ s ∈ others, b.conflicts s.claims = false := by
  unfold portTaken
  cases hfind : others.find? fun s => b.conflicts s.claims with
  | none =>
    have := List.find?_eq_none.mp hfind
    simp only [Bool.not_eq_true] at this
    cases b.portId <;> simpa using this
  | some owner =>
    have howner := List.find?_some hfind
    have hmem := List.mem_of_find?_eq_some hfind
    have hport : b.portId.isSome = true := by
      unfold Binding.conflicts Binding.claim BindingType.claim at howner
      unfold Binding.portId
      cases hb : b.base.bindingType <;> simp_all
    obtain ⟨p, hp⟩ := Option.isSome_iff_exists.mp hport
    simp only [hp, reduceCtorEq, false_iff, not_forall]
    exact ⟨owner, hmem, by simp [howner]⟩

/-- What the check of the services made by hand rules out. -/
theorem available_iff {ports : List Port} {bindings : List Binding} :
    bindings.findSome? (portTaken ports ((db.servicesOf hostId).filter fun s => s.id != serviceId)) = none ↔
      ∀ b ∈ bindings, b.conflicts (claimedByOthers db hostId serviceId) = false := by
  rw [List.findSome?_eq_none_iff]
  refine forall₂_congr fun b _ => ?_
  rw [portTaken_eq_none, Bool.eq_false_iff, Ne, conflicts_claimedByOthers]
  simp only [List.mem_filter, Db.mem_servicesOf, bne_iff_ne, Bool.eq_false_iff, Ne, Binding.conflicts_claims]
  constructor
  · rintro h ⟨t, ht, hhost, hid, r, hr, hrs, hover⟩
    exact h _ ⟨⟨t, ht, hhost, rfl⟩, hid⟩ ⟨r, Db.mem_bindingsOf.mpr ⟨hr, hrs⟩, hover⟩
  · rintro h _ ⟨⟨t, ht, hhost, rfl⟩, hid⟩ ⟨r, hr, hover⟩
    obtain ⟨hr, hrs⟩ := Db.mem_bindingsOf.mp hr
    exact h ⟨t, ht, hhost, hid, r, hr, hrs, hover⟩

/-! ## Saving a service -/

/-- Where saving the service may be refused, no binding from before that is not
overwritten yet claims a port another service of the host has. -/
def MovesCleanly (db : Db) (service : Service) : Prop :=
  ∀ done c rest, children service = done ++ c :: rest → Refused db service.id done c →
    ∀ r ∈ db.bindingsOf service.id, (∀ d ∈ done, d.id ≠ r.id) → (∃ x ∈ c :: rest, x.id = r.id) →
      r.conflicts (claimedByOthers db service.base.hostId service.id) = false

theorem exclusive_saves (h : db.Exclusive) (hs : Saves db service result db') (hne : db'.drawn ≠ [])
    (hnew : ∀ c ∈ children service, c.conflicts (claimedByOthers db service.base.hostId service.id) = false)
    (hold : (∀ r ∈ db.bindings.rows, r.base.serviceId ≠ service.id) ∨
      db.hasService service.id = true ∧ MovesCleanly db service) : db'.Exclusive := by
  have hservices := hs.services
  obtain ⟨done, out, rest, ⟨hl, db₀, hrow, hsaving, hrefused⟩, -⟩ := hs
  have hbindings : db₀.bindings = db.bindings := by
    obtain ⟨services, drawn, -, rfl⟩ := hrow.same
    rfl
  -- A binding of the service next to one of another service of its host.
  have hown (a b : Binding) (ha : a ∈ db'.bindings.rows) (hb : b ∈ db'.bindings.rows)
    (hp : a.base.serviceId = service.id)
      (hr : db'.Rivals a b) : a.overlaps b = false := by
    obtain ⟨s, hs, t, ht, hsa, htb, hst, hhost⟩ := hr
    have hs : s = Storable.row service := ((hservices s).mp hs).resolve_right fun hs => hs.2 (hsa.trans hp)
    obtain ⟨ht, htid⟩ := ((hservices t).mp ht).resolve_left fun ht => hst (by rw [hs, ht])
    have hb : b ∈ db.bindings.rows := by
      rw [← hbindings]
      exact (hsaving.others b fun hbs => htid (htb.trans hbs)).mp hb
    have hrival (c : Binding) (hc : c.overlaps b = true) :
        c.conflicts (claimedByOthers db service.base.hostId service.id) = true := by
      refine conflicts_claimedByOthers.mpr ⟨t, ht, ?_, htid, b, hb, htb.symm, hc⟩
      rw [← hhost, hs]
      rfl
    by_contra hover
    rw [Bool.not_eq_false] at hover
    rcases hsaving.own a ha hp with haout | ⟨haold, -, hdone, hrest⟩
    · obtain ⟨c, hc, hac, -⟩ := hsaving.mem_out haout
      rw [Binding.overlaps_of_base (congrArg (·.bindingType) hac)] at hover
      cases (hrival c hover).symm.trans (hnew c (hl ▸ List.mem_append_left _ hc))
    · rw [hbindings] at haold
      rcases hold with hnone | ⟨hstored, hmoves⟩
      · exact hnone a haold hp
      · cases rest with
        | nil => simp at hrest
        | cons c rest =>
          have := hmoves done c rest hl (hrow.refused hstored (hrefused c rfl hne)) a
            (Db.mem_bindingsOf.mpr ⟨haold, hp⟩) hdone hrest
          cases (hrival a hover).symm.trans this
  intro a ha b hb hr
  by_cases hap : a.base.serviceId = service.id
  · exact hown a b ha hb hap hr
  by_cases hbp : b.base.serviceId = service.id
  · rw [Binding.overlaps_comm]
    obtain ⟨s, hs, t, ht, hsa, htb, hst, hhost⟩ := hr
    exact hown b a hb ha hbp ⟨t, ht, s, hs, htb, hsa, hst.symm, hhost.symm⟩
  have ha := (hsaving.others a hap).mp ha
  have hb := (hsaving.others b hbp).mp hb
  rw [hbindings] at ha hb
  obtain ⟨s, hs, t, ht, hsa, htb, hst, hhost⟩ := hr
  have hstay (x : Service) (hx : x ∈ db'.services.rows) (hid : x.id ≠ service.id) : x ∈ db.services.rows :=
    (((hservices x).mp hx).resolve_left fun heq => hid (by rw [heq]; rfl)).1
  exact h a ha b hb ⟨s, hstay s hs fun heq => hap (hsa.symm.trans heq), t,
    hstay t ht fun heq => hbp (htb.symm.trans heq), hsa, htb, hst, hhost⟩

theorem hostId_of_mergeTarget (h : mergeTarget db service = some existing) :
    existing.base.hostId = service.base.hostId := by
  simp only [mergeTarget, Option.filter_eq_some_iff] at h
  obtain ⟨row, -, hhost, rfl⟩ := Db.mem_servicesOf.mp (List.mem_of_find?_eq_some h.1)
  exact hhost

/-- What a stored service claims, no other service of its host does. -/
theorem not_conflicts_of_stored (h : db.Exclusive) (he : Stored db existing) (hb : b ∈ db.bindings.rows)
    (hbs : b.base.serviceId = existing.id) :
    b.conflicts (claimedByOthers db existing.base.hostId existing.id) = false := by
  rw [Bool.eq_false_iff, Ne, conflicts_claimedByOthers]
  rintro ⟨t, ht, hhost, hid, r, hr, hrs, hover⟩
  obtain ⟨row, hrow, rfl⟩ := he
  have := h b hb r hr ⟨row, hrow, t, ht, hbs.symm, hrs.symm, hid.symm, hhost.symm⟩
  cases hover.symm.trans this

/-- The new bindings that claim a port of another service are excluded by an
interface binding of the existing service. -/
def MergesUnclaimed (db : Db) (existing newData : Service) : Prop :=
  ∀ b ∈ newData.base.bindings, b.conflicts (claimedByOthers db existing.base.hostId existing.id) = true →
    ∃ e ∈ existing.base.bindings, ∃ i, e.base.bindingType = .interface i ∧
      b.base.bindingType.excludes e.base.bindingType = true

theorem exclusive_merges (h : db.Exclusive) (he : Stored db existing) (hc : MergesUnclaimed db existing newData)
    (hs : Saves db (merged existing newData) result db') (hne : db'.drawn ≠ []) : db'.Exclusive := by
  refine exclusive_saves h hs hne (fun c hc' => ?_) (.inr ⟨he.hasService, fun _ _ _ _ _ r hr _ _ => ?_⟩)
  · obtain ⟨x, hx, rfl⟩ := mem_children.mp hc'
    change x.conflicts (claimedByOthers db existing.base.hostId existing.id) = false
    rcases not_excluded_of_mem_mergeBindings hx with hx | ⟨hx, hfree⟩
    · obtain ⟨hx, hxs⟩ := he.mem_bindings.mp hx
      exact not_conflicts_of_stored h he hx hxs
    · by_contra hconf
      rw [Bool.not_eq_false] at hconf
      obtain ⟨e, hmem, i, hi, hex⟩ := hc x hx hconf
      cases hex.symm.trans (hfree i e hmem hi)
  · obtain ⟨hr, hrs⟩ := Db.mem_bindingsOf.mp hr
    have hfree := not_conflicts_of_stored h he hr hrs
    exact hfree

end ServiceService

namespace Services

open ServiceService (Creates Saves Stored Updatable Accepted MovesCleanly MergesUnclaimed incoming deduplicated merged
  mergeTarget children claimedByOthers withNextPosition reassignServiceInterfaceBindings conflicts_claimedByOthers)
open BindingHandlers (Creatable Replaceable Bound remaining othersThan)
open HostService (openPortsService)

variable {s t : State} {a : Action} {db db' : Db} {service existing newData : Service} {result : Option Service}
  {binding b : Binding}

/-- A service is merged or created with no port of another service of its host. -/
def CreatesUnclaimed (db : Db) (service : Service) : Prop :=
  match mergeTarget db service with
  | some existing => MergesUnclaimed db existing service
  | none => Accepted db (withNextPosition db service) →
    ∀ b ∈ service.base.bindings, b.conflicts (claimedByOthers db service.base.hostId service.id) = false

/-- The binding claims no port of another service of its service's host. -/
def BindsUnclaimed (db : Db) (binding : Binding) : Prop :=
  ∀ s ∈ db.services.get binding.base.serviceId, binding.conflicts (claimedByOthers db s.base.hostId s.id) = false

/-- Nothing is written that claims a port another service of the host has,
neither for good nor while the bindings of a service are saved. -/
def KeepsExclusive (s : State) (a : Action) : Prop :=
  let db := s.dbAt a
  match a.operation with
  | .createService service => CreatesUnclaimed db (incoming db service)
  | .updateService service => Updatable db (deduplicated service) → MovesCleanly db (deduplicated service)
  | .upsertService id newData =>
    ∀ existing, Stored db existing → existing.id = id → MergesUnclaimed db existing newData
  | .createBinding networkIds binding => Creatable db networkIds binding → BindsUnclaimed db binding
  | .updateBinding networkIds id binding =>
    Replaceable db networkIds id binding → BindsUnclaimed (db.deleteBindings [id]) binding
  | .saveService index =>
    -- A service of a discovery is checked, but not against the stored one whose id it has.
    ∀ o ∈ s.ongoing[index]?, ∀ service ∈ o.services.head?,
      ∀ existing ∈ mergeTarget db (incoming db (reassignServiceInterfaceBindings o.r service)),
        db.hasService service.id = true → service.id = existing.id
  | .finish index =>
    ∀ o ∈ s.ongoing[index]?, CreatesUnclaimed db (incoming db (openPortsService o.r.updatedHost o.batch.orphaned))
  | _ => True

theorem exclusive_removes (h : db.Exclusive) (hr : db.Removes db') : db'.Exclusive := by
  intro a ha b hb ⟨s, hs, t, ht, hst⟩
  exact h a (hr.bindings a ha).1 b (hr.bindings b hb).1 ⟨s, hr.services s hs, t, hr.services t ht, hst⟩

theorem exclusive_creates (h : db.Exclusive) (hdb : Sound db) (hs : Creates db service result db')
    (hne : db'.drawn ≠ [])
    (hmerges : ∀ existing, mergeTarget db service = some existing → MergesUnclaimed db existing service)
    (hnew : mergeTarget db service = none → Accepted db (withNextPosition db service) →
      ∀ b ∈ service.base.bindings, b.conflicts (claimedByOthers db service.base.hostId service.id) = false) :
    db'.Exclusive := by
  cases hs with
  | merges existing target saves =>
    exact ServiceService.exclusive_merges h (ServiceService.stored_of_mergeTarget target)
      (hmerges existing target) saves hne
  | new target accepted saves =>
    refine ServiceService.exclusive_saves h saves hne (fun c hc => ?_) (.inl fun r hr heq => ?_)
    · obtain ⟨x, hx, rfl⟩ := ServiceService.mem_children.mp hc
      exact hnew target accepted x hx
    · obtain ⟨x, hx, hid⟩ := hdb.referential.hasService hr
      have := accepted.new
      rw [Db.hasService_iff.mpr ⟨x, hx, hid.trans heq⟩] at this
      cases this

theorem exclusive_creates_of_unclaimed (h : db.Exclusive) (hdb : Sound db) (hs : Creates db service result db')
    (hne : db'.drawn ≠ []) (hc : CreatesUnclaimed db service) : db'.Exclusive := by
  refine exclusive_creates h hdb hs hne (fun existing target => ?_) fun target => ?_
  · rw [CreatesUnclaimed, target] at hc
    exact hc
  · rw [CreatesUnclaimed, target] at hc
    exact hc

/-- A service of a discovery that is available claims no port of another one. -/
theorem unclaimed_of_available {r : ServiceService.Reassignment} {batch : HostService.Batch}
    (havail : HostService.Available db r batch service) {serviceId : Uuid}
    (hid : ∀ t ∈ db.services.rows, t.id = service.id → t.id = serviceId) :
    ∀ b ∈ service.base.bindings, b.conflicts (claimedByOthers db r.updatedHost.id serviceId) = false := by
  intro b hb
  have hfree := havail b hb
  rw [Binding.conflicts_append, Bool.or_eq_false_iff] at hfree
  rw [Bool.eq_false_iff, Ne, conflicts_claimedByOthers]
  rintro ⟨t, ht, hhost, hne, hover⟩
  have := conflicts_claimedByOthers.mpr ⟨t, ht, hhost, fun heq => hne (hid t ht heq), hover⟩
  cases this.symm.trans hfree.1

theorem exclusive_bound (h : db.Exclusive) {kept : List Binding} (hbase : b.base = binding.base)
    (hkept : ∀ r ∈ kept, r ∈ db.bindings.rows) (hb : Bound db kept b db')
    (hc : ∀ s ∈ db.services.rows, s.id = binding.base.serviceId → ∀ t ∈ db.services.rows, t.id ≠ s.id →
      t.base.hostId = s.base.hostId → ∀ r ∈ kept, r.base.serviceId = t.id → binding.overlaps r = false) :
    db'.Exclusive := by
  have hrivals {x y : Binding} (hr : db'.Rivals x y) : db.Rivals x y := by
    obtain ⟨bindings, drawn, rfl⟩ := hb.same
    exact hr
  have hnew (y : Binding) (hy : y ∈ kept) (hr : db.Rivals b y) : b.overlaps y = false := by
    obtain ⟨s, hs, t, ht, hsb, hty, hne, hhost⟩ := hr
    rw [Binding.overlaps_of_base (congrArg (·.bindingType) hbase)]
    exact hc s hs (hsb.trans (congrArg (·.serviceId) hbase)) t ht hne.symm hhost.symm y hy hty.symm
  intro x hx y hy hr
  have hr := hrivals hr
  rcases (hb.rows x).mp hx with rfl | hx <;> rcases (hb.rows y).mp hy with rfl | hy
  · obtain ⟨s, -, t, -, hs, ht, hne, -⟩ := hr
    exact absurd (hs.trans ht.symm) hne
  · exact hnew y hy hr
  · obtain ⟨s, hs, t, ht, hsx, hty, hne, hhost⟩ := hr
    rw [Binding.overlaps_comm]
    exact hnew x hx ⟨t, ht, s, hs, hty, hsx, hne.symm, hhost.symm⟩
  · exact h x (hkept x hx) y (hkept y hy) hr

theorem overlaps_of_bindsUnclaimed (hc : BindsUnclaimed db binding) {s t : Service} {r : Binding}
    (hs : s ∈ db.services.rows) (hsb : s.id = binding.base.serviceId) (ht : t ∈ db.services.rows) (hne : t.id ≠ s.id)
    (hhost : t.base.hostId = s.base.hostId) (hr : r ∈ db.bindings.rows) (hrt : r.base.serviceId = t.id) :
    binding.overlaps r = false := by
  have hfree := hc s (Table.get_eq_some.mpr ⟨hs, hsb⟩)
  by_contra hover
  rw [Bool.not_eq_false] at hover
  cases (conflicts_claimedByOthers.mpr ⟨t, ht, hhost, hne, r, hr, hrt, hover⟩).symm.trans hfree

theorem exclusive_step (hdb : Sound s.db) (h : s.db.Exclusive) (hk : KeepsExclusive s a) (hs : step s a = some t) :
    t.db.Exclusive := by
  obtain ⟨hF, hne, heffect⟩ := effect_of_step hs
  have hdb : Sound (s.dbAt a) := ⟨hdb.referential, hdb.named⟩
  have h : (s.dbAt a).Exclusive := h
  rcases heffect with hr | hw
  · exact exclusive_removes h hr
  simp only [KeepsExclusive] at hk
  generalize s.dbAt a = db at hk hw h hdb hF
  generalize a.operation = op at hw hk
  cases op with
  | createService service =>
    obtain ⟨result, hc⟩ := hw
    exact exclusive_creates_of_unclaimed h hdb hc hne hk
  | updateService service =>
    obtain ⟨hu, result, hsaves⟩ := hw
    refine ServiceService.exclusive_saves h hsaves hne (fun c hc => ?_) (.inr ⟨hu.stored, hk hu⟩)
    obtain ⟨x, hx, rfl⟩ := ServiceService.mem_children.mp hc
    exact ServiceService.available_iff.mp hu.available x hx
  | upsertService id newData =>
    obtain ⟨existing, result, hstored, hid, hsaves⟩ := hw
    exact ServiceService.exclusive_merges h hstored (hk existing hstored hid) hsaves hne
  | createBinding networkIds binding =>
    obtain ⟨hc, b, hbase, hb⟩ := hw
    refine exclusive_bound h hbase (fun r hr => (List.mem_filter.mp hr).1) hb fun s hs hsb t ht hne hhost r hr hrt =>
      ?_
    exact overlaps_of_bindsUnclaimed (hk hc) hs hsb ht hne hhost (List.mem_filter.mp hr).1 hrt
  | updateBinding networkIds id binding =>
    obtain ⟨hc, b, hbase, hb⟩ := hw
    refine exclusive_bound h hbase (fun r hr => (List.mem_filter.mp hr).1) hb fun s hs hsb t ht hne hhost r hr hrt =>
      ?_
    obtain ⟨hr, hid⟩ := List.mem_filter.mp hr
    have hr : r ∈ (db.deleteBindings [id]).bindings.rows := Table.mem_filter.mpr ⟨hr, by simpa using hid⟩
    exact overlaps_of_bindsUnclaimed (hk hc) hs hsb ht hne hhost hr hrt
  | saveService index =>
    obtain ⟨o, ho, service, hservice, havail, result, hc⟩ := hw
    have hk := hk o ho service hservice
    generalize hS : reassignServiceInterfaceBindings o.r service = reassigned at havail hc hk
    have hhost : (incoming db reassigned).base.hostId = o.r.updatedHost.id := by
      rw [← hS, incoming]
      split <;> rfl
    have hid : service.id = reassigned.id := by rw [← hS]; rfl
    have hsub (b : Binding) (hb : b ∈ (incoming db reassigned).base.bindings) : b ∈ reassigned.base.bindings := by
      rw [incoming] at hb
      have := ServiceService.mem_deduplicated hb
      split at this <;> exact this
    refine exclusive_creates h hdb hc hne (fun existing target b hb hconf => ?_) fun target accepted b hb => ?_
    · rw [ServiceService.hostId_of_mergeTarget target, hhost] at hconf
      have hids (t : Service) (ht : t ∈ db.services.rows) (heq : t.id = reassigned.id) : t.id = existing.id := by
        rw [heq, ← hid]
        exact hk existing target (Db.hasService_iff.mpr ⟨t, ht, heq.trans hid.symm⟩)
      have hfree : b.conflicts (claimedByOthers db o.r.updatedHost.id existing.id) = false :=
        unclaimed_of_available havail hids b (hsub b hb)
      cases hconf.symm.trans hfree
    · rw [hhost]
      refine unclaimed_of_available havail (fun t ht heq => ?_) b (hsub b hb)
      -- A row with the id of the service would have kept it from being new.
      have hnil : reassigned.id ≠ Uuid.nil := heq ▸ hdb.named t ht
      have hnew' : db.hasService (incoming db reassigned).id = false := accepted.new
      have hnew : db.hasService reassigned.id = false := by
        rw [incoming, if_neg hnil] at hnew'
        exact hnew'
      exact absurd (Db.hasService_iff.mpr ⟨t, ht, heq⟩) (by rw [hnew]; simp)
  | finish index =>
    obtain ⟨o, ho, result, db₁, hc, hr⟩ := hw
    have hne : db₁.drawn ≠ [] := fun hnil => hne (List.suffix_nil.mp (hnil ▸ hr.drawn))
    exact exclusive_removes (exclusive_creates_of_unclaimed h hdb hc hne (hk o ho)) hr
  | _ => exact hw.elim

/-- **Exclusivity.** From a database without services, in a run whose steps keep
to the condition, no two services of a host claim one port, throughout. -/
theorem exclusive_of_keepsExclusive {db : Db} (hservices : db.services.rows = []) (hbindings : db.bindings.rows = [])
    {as : List Action} (h : Transition.Along step KeepsExclusive { db } as) :
    Transition.Visits step (fun s => s.db.Exclusive) { db } as := by
  refine h.visits (I := fun s => Sound s.db ∧ s.db.Exclusive)
    (fun s a t hI hk ht => ⟨hI.1.step ht, exclusive_step hI.1 hI.2 hk ht⟩) (fun s hI => hI.2) ⟨⟨?_, ?_⟩, ?_⟩
  · exact fun b hb => absurd hb (by simp [hbindings])
  · exact fun s hs => absurd hs (by simp [hservices])
  · exact fun b hb => absurd hb (by simp [hbindings])

theorem exclusive_of_keepsExclusive_create : Transition.Visits step (fun s => s.db.Exclusive) { db := oneHost }
    [{ operation := .createService (serviceOn 5 [3, 4]), drawn := [10, 11, 12] }] := by
  refine exclusive_of_keepsExclusive rfl rfl (Transition.every_cons.mpr fun t _ => ⟨?_, trivial⟩)
  have hnone : mergeTarget { oneHost with drawn := [10, 11, 12] }
      (incoming { oneHost with drawn := [10, 11, 12] } (serviceOn 5 [3, 4])) = none := by
    decide
  change CreatesUnclaimed { oneHost with drawn := [10, 11, 12] }
    (incoming { oneHost with drawn := [10, 11, 12] } (serviceOn 5 [3, 4]))
  rw [CreatesUnclaimed, hnone]
  exact fun _ => by decide

/-- The endpoint does not ask whether another service of the host has the port. -/
theorem port_shared_through_endpoint : ¬ Transition.Visits step (fun s => s.db.Exclusive) { db := oneHost }
    [{ operation := .createService (serviceOn 5 [3]), drawn := [10, 11] },
      { operation := .createService { serviceOn 6 [] with base := { (serviceOn 6 []).base with name := "other" } }
        drawn := [12, 13] },
      { operation := .createBinding [1] { base := { serviceId := 6, networkId := 1, bindingType := .port 3 none } }
        drawn := [14, 15] }] := by
  decide +kernel

end Services

end Netvisor
