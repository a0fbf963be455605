/-
What the services of a container on a bridge are bound to in the end.

A service listens at what it was recognized at, at the container's own ports on
the interface it was found at, and on the host where these ports are published.
Nothing else is added, and nothing is lost when the bindings to a port that is
published everywhere are replaced.
-/
import Netvisor.Daemon.Containers
import Netvisor.Hosts.Matching

namespace Netvisor

theorem Interface.eq_refl (i : Interface) : i.eq i = true :=
  eq_iff.mpr (.inl ⟨rfl, rfl⟩)

theorem Interface.eq_comm {i j : Interface} (h : i.eq j = true) : j.eq i = true := by
  rcases eq_iff.mp h with ⟨hsubnet, hip⟩ | ⟨mac, hi, hj⟩ | hid
  · exact eq_iff.mpr (.inl ⟨hsubnet.symm, hip.symm⟩)
  · exact eq_iff.mpr (.inr (.inl ⟨mac, hj, hi⟩))
  · exact eq_iff.mpr (.inr (.inr hid.symm))

theorem Binding.eq_port {b : Binding} {portId interfaceId : Uuid} (hport : b.portId = some portId)
    (hinterface : b.interfaceId = some interfaceId) : b.base.bindingType = .port portId (some interfaceId) := by
  rw [Binding.portId] at hport
  rw [Binding.interfaceId] at hinterface
  cases hbinding : b.base.bindingType with
  | interface id =>
    rw [hbinding] at hport
    cases hport
  | port id interface =>
    rw [hbinding] at hport hinterface
    have heq : interface = some interfaceId := hinterface
    rw [Option.some.inj hport, heq]

namespace Docker

/-- Of the first ids that are drawn, no two are the same. -/
def Distinct (draws : Draws) (n : Nat) : Prop := ((List.range n).map draws.newV4).Nodup

theorem Distinct.inj {draws : Draws} {n : Nat} (h : Distinct draws n) {i j : Nat} (hi : i < n) (hj : j < n)
    (heq : draws.newV4 i = draws.newV4 j) : i = j :=
  List.inj_on_of_nodup_map h (List.mem_range.mpr hi) (List.mem_range.mpr hj) heq

theorem Distinct.mono {draws : Draws} {m n : Nat} (h : Distinct draws n) (hmn : m ≤ n) : Distinct draws m :=
  List.Nodup.map_on (fun _ hi _ hj => h.inj (lt_of_lt_of_le (List.mem_range.mp hi) hmn)
    (lt_of_lt_of_le (List.mem_range.mp hj) hmn)) List.nodup_range

/-- A binding puts the service at the port on the interface. -/
def Listens (ports : List Port) (bindings : List Binding) (config : PortConfig) (interfaceId : Uuid) : Prop :=
  ∃ p ∈ ports, p.base.portType = config ∧ ∃ b ∈ bindings, b.base.bindingType = .port p.id (some interfaceId)

/-- The bindings are to the ports and to the interfaces, under ids of their own. -/
structure Wired (draws : Draws) (interfaces : List Interface) (w : Wiring) : Prop where
  functional : ∀ p ∈ w.ports, ∀ q ∈ w.ports, p.id = q.id → p = q
  ports : ∀ b ∈ w.bindings, ∀ id, b.portId = some id → ∃ p ∈ w.ports, p.id = id
  interfaces : ∀ b ∈ w.bindings, ∃ i ∈ interfaces, b.interfaceId = some i.id
  ids : (w.bindings.map Binding.id).Nodup
  drawnPorts : ∀ p ∈ w.ports, ∃ k < w.drawn, p.id = draws.newV4 k
  drawnBindings : ∀ b ∈ w.bindings, ∃ k < w.drawn, b.id = draws.newV4 k

/-- What a step adds to where a service listens; ports are only added to. -/
structure Adds (draws : Draws) (interfaces : List Interface) (A : PortConfig → Uuid → Prop) (w w' : Wiring) :
    Prop where
  wired : Wired draws interfaces w'
  ports : w.ports ⊆ w'.ports
  drawn : w.drawn ≤ w'.drawn
  listens : ∀ config id, Listens w'.ports w'.bindings config id ↔ Listens w.ports w.bindings config id ∨ A config id

variable {draws : Draws} {n : Nat} {interfaces : List Interface} {w w' w'' : Wiring} {A B : PortConfig → Uuid → Prop}

/-! ## Wirings -/

theorem Adds.refl (h : Wired draws interfaces w) : Adds draws interfaces (fun _ _ => False) w w where
  wired := h
  ports := List.Subset.refl _
  drawn := le_rfl
  listens _ _ := by rw [or_false]

theorem Adds.trans (h : Adds draws interfaces A w w') (h' : Adds draws interfaces B w' w'') :
    Adds draws interfaces (fun config id => A config id ∨ B config id) w w'' where
  wired := h'.wired
  ports := List.Subset.trans h.ports h'.ports
  drawn := h.drawn.trans h'.drawn
  listens config id := by rw [h'.listens, h.listens, or_assoc]

theorem Adds.congr (h : Adds draws interfaces A w w') (hAB : ∀ config id, A config id ↔ B config id) :
    Adds draws interfaces B w w' where
  wired := h.wired
  ports := h.ports
  drawn := h.drawn
  listens config id := by rw [h.listens, hAB]

/-- What is there already may as well be added. -/
theorem Adds.weaken (h : Adds draws interfaces (fun _ _ => False) w w')
    (hA : ∀ config id, A config id → Listens w.ports w.bindings config id) : Adds draws interfaces A w w' where
  wired := h.wired
  ports := h.ports
  drawn := h.drawn
  listens config id := by
    rw [h.listens, or_false]
    exact ⟨.inl, fun h => h.elim (fun h => h) (hA config id)⟩

theorem drawn_le_foldl {α : Type} {f : Wiring → α → Wiring} (hmono : ∀ w a, w.drawn ≤ (f w a).drawn) (l : List α)
    (w : Wiring) : w.drawn ≤ (l.foldl f w).drawn := by
  induction l generalizing w with
  | nil => exact le_rfl
  | cons a l ih => exact (hmono w a).trans (ih (f w a))

/-- Steps that each add something add all of it. -/
theorem Adds.foldl {α : Type} {f : Wiring → α → Wiring} {A : α → PortConfig → Uuid → Prop} {P : Wiring → Prop}
    {l : List α} (hmono : ∀ w a, w.drawn ≤ (f w a).drawn)
    (hf : ∀ a ∈ l, ∀ w, Wired draws interfaces w → P w → (f w a).drawn ≤ n →
      Adds draws interfaces (A a) w (f w a) ∧ P (f w a))
    (h : Wired draws interfaces w) (hP : P w) (hn : (l.foldl f w).drawn ≤ n) :
    Adds draws interfaces (fun config id => ∃ a ∈ l, A a config id) w (l.foldl f w) ∧ P (l.foldl f w) := by
  induction l generalizing w with
  | nil => exact ⟨(Adds.refl h).congr fun _ _ => by simp, hP⟩
  | cons a l ih =>
    obtain ⟨hstep, hP'⟩ := hf a List.mem_cons_self w h hP ((drawn_le_foldl hmono l (f w a)).trans hn)
    obtain ⟨hrest, hP''⟩ := ih (fun a ha => hf a (List.mem_cons_of_mem _ ha)) hstep.wired hP' hn
    refine ⟨(hstep.trans hrest).congr fun config id => ?_, hP''⟩
    simp only [List.mem_cons, exists_eq_or_imp]

theorem Wired.draw (h : Wired draws interfaces w) {drawn : Nat} (hdrawn : w.drawn ≤ drawn) :
    Adds draws interfaces (fun _ _ => False) w { w with drawn } where
  wired := by
    refine ⟨h.functional, h.ports, h.interfaces, h.ids, fun p hp => ?_, fun b hb => ?_⟩
    · obtain ⟨k, hk, heq⟩ := h.drawnPorts p hp
      exact ⟨k, lt_of_lt_of_le hk hdrawn, heq⟩
    · obtain ⟨k, hk, heq⟩ := h.drawnBindings b hb
      exact ⟨k, lt_of_lt_of_le hk hdrawn, heq⟩
  ports := List.Subset.refl _
  drawn := hdrawn
  listens _ _ := by rw [or_false]

/-- Ports more do not change where a service listens. -/
theorem Wired.listens_iff (h : Wired draws interfaces w) {ports : List Port}
    (hfunctional : ∀ p ∈ ports, ∀ q ∈ ports, p.id = q.id → p = q) (hsub : w.ports ⊆ ports) (config : PortConfig)
    (id : Uuid) : Listens ports w.bindings config id ↔ Listens w.ports w.bindings config id := by
  constructor
  · rintro ⟨p, hp, rfl, b, hb, hbinding⟩
    obtain ⟨q, hq, heq⟩ := h.ports b hb p.id (by rw [Binding.portId, hbinding])
    obtain rfl : p = q := hfunctional p hp q (hsub hq) heq.symm
    exact ⟨p, hq, rfl, b, hb, hbinding⟩
  · rintro ⟨p, hp, hconfig, hb⟩
    exact ⟨p, hsub hp, hconfig, hb⟩

/-- The bindings of a service that comes later, among the ports that have been added by then. -/
theorem Wired.grow {bindings : List Binding} {ports : List Port} {drawn : Nat}
    (h : Wired draws interfaces { bindings, ports, drawn }) (h' : Wired draws interfaces w') (hsub : ports ⊆ w'.ports)
    (hdrawn : drawn ≤ w'.drawn) :
    Wired draws interfaces { bindings, ports := w'.ports, drawn := w'.drawn } ∧
      ∀ config id, Listens w'.ports bindings config id ↔ Listens ports bindings config id := by
  refine ⟨⟨h'.functional, fun b hb id hid => ?_, h.interfaces, h.ids, h'.drawnPorts, fun b hb => ?_⟩,
    h.listens_iff h'.functional hsub⟩
  · obtain ⟨p, hp, heq⟩ := h.ports b hb id hid
    exact ⟨p, hsub hp, heq⟩
  · obtain ⟨k, hk, heq⟩ := h.drawnBindings b hb
    exact ⟨k, lt_of_lt_of_le hk hdrawn, heq⟩

/-- A port more does not change where a service listens. -/
theorem Wired.addPort (h : Wired draws interfaces w) {port : Port} {drawn : Nat} (hdrawn : w.drawn ≤ drawn)
    (hid : ∃ k < drawn, port.id = draws.newV4 k) (hnew : ∀ p ∈ w.ports, p.id = port.id → p = port) :
    Adds draws interfaces (fun _ _ => False) w { w with ports := w.ports ++ [port], drawn } := by
  have hsub : w.ports ⊆ w.ports ++ [port] := List.subset_append_left _ _
  have hfunctional : ∀ p ∈ w.ports ++ [port], ∀ q ∈ w.ports ++ [port], p.id = q.id → p = q := by
    intro p hp q hq heq
    rw [List.mem_append, List.mem_singleton] at hp hq
    rcases hp with hp | rfl
    · rcases hq with hq | rfl
      · exact h.functional p hp q hq heq
      · exact hnew p hp heq
    · rcases hq with hq | rfl
      · exact (hnew q hq heq.symm).symm
      · rfl
  refine ⟨⟨hfunctional, fun b hb id hid => ?_, h.interfaces, h.ids, fun p hp => ?_, fun b hb => ?_⟩, hsub, hdrawn,
    fun config id => ?_⟩
  · obtain ⟨p, hp, heq⟩ := h.ports b hb id hid
    exact ⟨p, hsub hp, heq⟩
  · rcases List.mem_append.mp hp with hp | hp
    · obtain ⟨k, hk, heq⟩ := h.drawnPorts p hp
      exact ⟨k, lt_of_lt_of_le hk hdrawn, heq⟩
    · rw [List.mem_singleton.mp hp]
      exact hid
  · obtain ⟨k, hk, heq⟩ := h.drawnBindings b hb
    exact ⟨k, lt_of_lt_of_le hk hdrawn, heq⟩
  · rw [or_false]
    exact h.listens_iff hfunctional hsub config id

/-- The bindings of a service to a port on some interfaces. -/
theorem Wired.bind (h : Wired draws interfaces w) (hdraws : Distinct draws n) {port : Port} (hport : port ∈ w.ports)
    (bound : List Interface) (hbound : ∀ i ∈ bound, i ∈ interfaces) (hn : w.drawn + bound.length ≤ n) :
    Adds draws interfaces (fun config id => config = port.base.portType ∧ ∃ i ∈ bound, i.id = id) w
      { w with
        bindings := w.bindings ++ bound.mapIdx fun k i =>
          Binding.newServiceless draws (w.drawn + k) (.port port.id (some i.id))
        drawn := w.drawn + bound.length } := by
  have hmem {b : Binding} : b ∈ (bound.mapIdx fun k i =>
      Binding.newServiceless draws (w.drawn + k) (.port port.id (some i.id))) ↔
      ∃ (k : Nat) (hk : k < bound.length), Binding.newServiceless draws (w.drawn + k)
        (.port port.id (some bound[k].id)) = b := List.mem_mapIdx
  have hids : (bound.mapIdx fun k i =>
      Binding.newServiceless draws (w.drawn + k) (.port port.id (some i.id))).map Binding.id =
      (List.range' w.drawn bound.length).map draws.newV4 := by
    refine List.ext_getElem (by simp) fun k hk hk' => ?_
    simp [Binding.newServiceless]
  refine ⟨⟨h.functional, fun b hb id hid => ?_, fun b hb => ?_, ?_, fun p hp => ?_, fun b hb => ?_⟩,
    List.Subset.refl _, Nat.le_add_right _ _, fun config id => ⟨?_, ?_⟩⟩
  · rcases List.mem_append.mp hb with hb | hb
    · exact h.ports b hb id hid
    · obtain ⟨k, hk, rfl⟩ := hmem.mp hb
      exact ⟨port, hport, Option.some.inj hid⟩
  · rcases List.mem_append.mp hb with hb | hb
    · exact h.interfaces b hb
    · obtain ⟨k, hk, rfl⟩ := hmem.mp hb
      exact ⟨bound[k], hbound _ (List.getElem_mem hk), rfl⟩
  · rw [List.map_append, hids]
    have hlt {k : Nat} (hk : k ∈ List.range' w.drawn bound.length) : k < n :=
      lt_of_lt_of_le (List.mem_range'_1.mp hk).2 hn
    refine List.nodup_append'.mpr ⟨h.ids, List.Nodup.map_on (fun _ hi _ hj => hdraws.inj (hlt hi) (hlt hj))
      (List.nodup_range' ..), fun id hid hid' => ?_⟩
    obtain ⟨b, hb, rfl⟩ := List.mem_map.mp hid
    obtain ⟨k, hk, heq⟩ := h.drawnBindings b hb
    obtain ⟨k', hk', heq'⟩ := List.mem_map.mp hid'
    have hsame := hdraws.inj (hlt hk') (hk.trans_le ((Nat.le_add_right _ _).trans hn)) (heq'.trans heq)
    rw [List.mem_range'_1] at hk'
    omega
  · obtain ⟨k, hk, heq⟩ := h.drawnPorts p hp
    exact ⟨k, Nat.lt_add_right _ hk, heq⟩
  · rcases List.mem_append.mp hb with hb | hb
    · obtain ⟨k, hk, heq⟩ := h.drawnBindings b hb
      exact ⟨k, Nat.lt_add_right _ hk, heq⟩
    · obtain ⟨k, hk, rfl⟩ := hmem.mp hb
      exact ⟨w.drawn + k, Nat.add_lt_add_left hk _, rfl⟩
  · rintro ⟨p, hp, rfl, b, hb, hbinding⟩
    rcases List.mem_append.mp hb with hb | hb
    · exact .inl ⟨p, hp, rfl, b, hb, hbinding⟩
    · obtain ⟨k, hk, rfl⟩ := hmem.mp hb
      injection hbinding with hid hinterface
      rw [h.functional p hp port hport hid.symm]
      exact .inr ⟨rfl, bound[k], List.getElem_mem hk, Option.some.inj hinterface⟩
  · rintro (⟨p, hp, hconfig, b, hb, hbinding⟩ | ⟨rfl, i, hi, rfl⟩)
    · exact ⟨p, hp, hconfig, b, List.mem_append_left _ hb, hbinding⟩
    · obtain ⟨k, hk, rfl⟩ := List.getElem_of_mem hi
      exact ⟨port, hport, rfl, _, List.mem_append_right _ (hmem.mpr ⟨k, hk, rfl⟩), rfl⟩

theorem Wired.filter (h : Wired draws interfaces w) (keep : Binding → Bool) :
    Wired draws interfaces { w with bindings := w.bindings.filter keep } where
  functional := h.functional
  ports b hb := h.ports b (List.mem_of_mem_filter hb)
  interfaces b hb := h.interfaces b (List.mem_of_mem_filter hb)
  ids := h.ids.sublist (List.filter_sublist.map _)
  drawnPorts := h.drawnPorts
  drawnBindings b hb := h.drawnBindings b (List.mem_of_mem_filter hb)

/-- A service as it is sent: with the bindings the Docker context adds, and all of them on the host. -/
structure Bound (A : PortConfig → Uuid → Prop) (interfaces : List Interface) (ports ports' : List Port)
    (s s' : Service) : Prop where
  service : ∃ bindings, s' = { s with base.bindings := bindings }
  toPorts : ∀ b ∈ s'.base.bindings, ∀ id, b.portId = some id → ∃ p ∈ ports', p.id = id
  toInterfaces : ∀ b ∈ s'.base.bindings, ∃ i ∈ interfaces, b.interfaceId = some i.id
  superseded : ∀ b ∈ s'.base.bindings, ∀ b' ∈ s'.base.bindings, ∀ portId id,
    b.base.bindingType = .port portId (some id) → b'.base.bindingType ≠ .interface id
  listens : ∀ config id, Listens ports' s'.base.bindings config id ↔
    Listens ports s.base.bindings config id ∨ A config id

theorem Bound.congr {ports ports' : List Port} {s s' : Service} (h : Bound A interfaces ports ports' s s')
    (hAB : ∀ config id, A config id ↔ B config id) : Bound B interfaces ports ports' s s' where
  service := h.service
  toPorts := h.toPorts
  toInterfaces := h.toInterfaces
  superseded := h.superseded
  listens config id := by rw [h.listens, hAB]

/-! ## The container's own ports -/

namespace BridgeContext

variable {c : BridgeContext}

/-- The service is bound at the interface of the container only. -/
def AtInterface (c : BridgeContext) (w : Wiring) : Prop := ∀ b ∈ w.bindings, b.interfaceId = some c.interface.id

/-- The ports of the container are among the ports of the host. -/
def Covered (c : BridgeContext) (ports : List Port) : Prop :=
  ∀ t ∈ c.containerPorts, ∃ p ∈ ports, p.base.portType = t.config

theorem drawn_le_bindContainerPort (w : Wiring) (t : PortType) :
    w.drawn ≤ (c.bindContainerPort draws w t).drawn := by
  rw [bindContainerPort]
  split
  · split
    · exact le_rfl
    · exact Nat.le_succ _
  · exact le_rfl

theorem adds_bindContainerPort (hdraws : Distinct draws n) (hinterface : c.interface ∈ interfaces)
    (h : Wired draws interfaces w) (hat : c.AtInterface w) {t : PortType}
    (hopen : ∃ p ∈ w.ports, p.base.portType = t.config) (hn : (c.bindContainerPort draws w t).drawn ≤ n) :
    Adds draws interfaces (fun config id => config = t.config ∧ id = c.interface.id) w
      (c.bindContainerPort draws w t) ∧ c.AtInterface (c.bindContainerPort draws w t) := by
  obtain ⟨p, hfind⟩ : ∃ p, (w.ports.find? fun p => p.base.portType == t.config) = some p := by
    rw [← Option.isSome_iff_exists, List.find?_isSome]
    obtain ⟨p, hp, hconfig⟩ := hopen
    exact ⟨p, hp, beq_iff_eq.mpr hconfig⟩
  have hp := List.mem_of_find?_eq_some hfind
  have hfound := List.find?_some hfind
  have hconfig : p.base.portType = t.config := beq_iff_eq.mp hfound
  simp only [bindContainerPort, hfind] at hn ⊢
  split
  · next hbound =>
    refine ⟨(Adds.refl h).weaken fun config id => ?_, hat⟩
    rintro ⟨rfl, rfl⟩
    rw [List.contains_iff_mem, List.mem_filterMap] at hbound
    obtain ⟨b, hb, hport⟩ := hbound
    exact ⟨p, hp, hconfig, b, hb, Binding.eq_port hport (hat b hb)⟩
  · next hfree =>
    rw [if_neg hfree] at hn
    have hadds := h.bind hdraws hp [c.interface] (by simpa using hinterface) hn
    refine ⟨hadds.congr fun config id => ?_, fun b hb => ?_⟩
    · rw [hconfig]
      simp [eq_comm]
    · rcases List.mem_append.mp hb with hb | hb
      · exact hat b hb
      · rw [List.mem_singleton.mp hb]
        rfl

/-! ## The ports of the host -/

/-- The interfaces of the host, and how they are known to the container. -/
structure Sound (c : BridgeContext) (interfaces : List Interface) : Prop where
  distinct : interfaces.Pairwise fun i j => i.eq j = false
  known : ∀ i ∈ interfaces, ∃ s, (i, s) ∈ c.pairs
  placed : ∀ p ∈ c.pairs, p.1.base.subnetId = p.2.id
  typed : ∀ p ∈ c.pairs, ∀ q ∈ c.pairs, p.2.id = q.2.id → p.2.base.subnetType = q.2.base.subnetType

theorem mem_of_mem_nonDockerInterfaces {i : Interface} (hi : i ∈ c.nonDockerInterfaces interfaces) :
    i ∈ interfaces := by
  obtain ⟨p, -, hfind⟩ := List.mem_filterMap.mp hi
  exact List.mem_of_find?_eq_some hfind

/-- The first interface that is equal to one of the list is that one. -/
theorem find?_eq_self (hdistinct : interfaces.Pairwise fun i j => i.eq j = false) {i : Interface}
    (hi : i ∈ interfaces) : (interfaces.find? fun j => j.eq i) = some i := by
  induction interfaces with
  | nil => cases hi
  | cons j interfaces ih =>
    rw [List.pairwise_cons] at hdistinct
    rcases List.mem_cons.mp hi with rfl | hi
    · rw [List.find?_cons, Interface.eq_refl]
    · rw [List.find?_cons, hdistinct.1 i hi]
      exact ih hdistinct.2 hi

/-- An interface is on a Docker bridge, or it is bound to what is published everywhere. -/
theorem mem_nonDockerInterfaces (hsound : c.Sound interfaces) {i : Interface} (hi : i ∈ interfaces)
    (hbridge : i.base.subnetId ∉ c.dockerBridgeSubnetIds) : i ∈ c.nonDockerInterfaces interfaces := by
  obtain ⟨s, hs⟩ := hsound.known i hi
  have htype : s.base.subnetType ≠ .dockerBridge := by
    intro htype
    rw [hsound.placed _ hs] at hbridge
    exact hbridge (List.mem_map.mpr ⟨(i, s), List.mem_filter.mpr ⟨hs, beq_iff_eq.mpr htype⟩, rfl⟩)
  exact List.mem_filterMap.mpr
    ⟨(i, s), List.mem_filter.mpr ⟨hs, bne_iff_ne.mpr htype⟩, find?_eq_self hsound.distinct hi⟩

/-- What is replaced is bound again. -/
theorem mem_of_isNonDocker (hsound : c.Sound interfaces) {b : Binding} {portId : Uuid}
    (h : c.isNonDocker interfaces portId b = true) :
    b.portId = some portId ∧ ∃ i ∈ c.nonDockerInterfaces interfaces, b.interfaceId = some i.id := by
  rw [isNonDocker, Bool.and_eq_true, beq_iff_eq] at h
  obtain ⟨hport, hplace⟩ := h
  cases hinterface : b.interfaceId with
  | none =>
    rw [hinterface] at hplace
    cases hplace
  | some id =>
    rw [hinterface, Option.bind_some] at hplace
    cases hfind : interfaces.find? fun i => i.id == id with
    | none =>
      rw [hfind] at hplace
      cases hplace
    | some i =>
      rw [hfind] at hplace
      have hbridge : i.base.subnetId ∉ c.dockerBridgeSubnetIds := by simpa using hplace
      have hid := List.find?_some hfind
      rw [beq_iff_eq] at hid
      exact ⟨hport, i, mem_nonDockerInterfaces hsound (List.mem_of_find?_eq_some hfind) hbridge, by rw [hid]⟩

/-- The interfaces a port is bound to that is published on the address. -/
def listenersAt (c : BridgeContext) (interfaces : List Interface) (ip : IpAddr) : List Interface :=
  match interfaces.find? fun i => i.base.ipAddress == ip with
  | some hostInterface => [hostInterface]
  | none => if ip = allInterfacesIp then c.nonDockerInterfaces interfaces else []

/-- The bindings to a port on all interfaces but those of Docker bridges are replaced, and none is missed. -/
theorem adds_replaced (hdraws : Distinct draws n) (hsound : c.Sound interfaces) (h : Wired draws interfaces w)
    {port : Port} (hport : port ∈ w.ports) (hn : w.drawn + (c.nonDockerInterfaces interfaces).length ≤ n)
    (replaced : List Uuid)
    (hreplaced : ∀ id ∈ replaced, ∃ b ∈ w.bindings, c.isNonDocker interfaces port.id b = true ∧ b.id = id) :
    Adds draws interfaces
      (fun config id => config = port.base.portType ∧ ∃ i ∈ c.nonDockerInterfaces interfaces, i.id = id) w
      { w with
        bindings := (w.bindings.filter fun b => !replaced.contains b.id) ++
          (c.nonDockerInterfaces interfaces).mapIdx fun k i =>
            Binding.newServiceless draws (w.drawn + k) (.port port.id (some i.id))
        drawn := w.drawn + (c.nonDockerInterfaces interfaces).length } := by
  have hadds := (h.filter fun b => !replaced.contains b.id).bind hdraws hport
    (c.nonDockerInterfaces interfaces) (fun i hi => mem_of_mem_nonDockerInterfaces hi) hn
  refine ⟨hadds.wired, hadds.ports, hadds.drawn, fun config id => (hadds.listens config id).trans ⟨?_, ?_⟩⟩
  · rintro (⟨p, hp, hconfig, b, hb, hbinding⟩ | hadded)
    · exact .inl ⟨p, hp, hconfig, b, List.mem_of_mem_filter hb, hbinding⟩
    · exact .inr hadded
  · rintro (⟨p, hp, rfl, b, hb, hbinding⟩ | hadded)
    · by_cases hid : b.id ∈ replaced
      · obtain ⟨b', hb', hnonDocker, heq⟩ := hreplaced b.id hid
        obtain rfl : b' = b := List.inj_on_of_nodup_map h.ids hb' hb heq
        obtain ⟨hportId, i, hi, hinterface⟩ := mem_of_isNonDocker hsound hnonDocker
        rw [Binding.portId, hbinding] at hportId
        rw [Binding.interfaceId, hbinding] at hinterface
        obtain rfl : p = port := h.functional p hp port hport (Option.some.inj hportId)
        exact .inr ⟨rfl, i, hi, (Option.some.inj hinterface).symm⟩
      · refine .inl ⟨p, hp, rfl, b, List.mem_filter.mpr ⟨hb, ?_⟩, hbinding⟩
        simpa using hid
    · exact .inr hadded

/-- The port that is bound: one that is there, or a new one. -/
theorem adds_port (hdraws : Distinct draws n) (h : Wired draws interfaces w) (t : PortType)
    {existing : Option Port} (hexisting : existing = w.ports.find? fun p => p.base.portType == t.config)
    (hn : (if existing.isSome then w.drawn else w.drawn + 1) ≤ n) :
    (existing.getD (Port.newHostless draws w.drawn t)).base.portType = t.config ∧
    Adds draws interfaces (fun _ _ => False) w
      { w with
        ports := w.ports ++ [existing.getD (Port.newHostless draws w.drawn t)]
        drawn := if existing.isSome then w.drawn else w.drawn + 1 } := by
  cases existing with
  | some p =>
    have hp := List.mem_of_find?_eq_some hexisting.symm
    have hconfig := List.find?_some hexisting.symm
    exact ⟨beq_iff_eq.mp hconfig, h.addPort le_rfl (h.drawnPorts p hp) fun q hq => h.functional q hq p hp⟩
  | none =>
    refine ⟨rfl, h.addPort (Nat.le_succ _) ⟨w.drawn, Nat.lt_succ_self _, rfl⟩ fun p hp heq => ?_⟩
    obtain ⟨k, hk, hid⟩ := h.drawnPorts p hp
    have hsame := hdraws.inj (hk.trans hn) hn (hid.symm.trans heq)
    omega

theorem drawn_le_drawn (w : Wiring) (t : PortType) :
    w.drawn ≤ if (w.ports.find? fun p => p.base.portType == t.config).isSome then w.drawn else w.drawn + 1 := by
  split <;> omega

theorem drawn_le_bindHostPort (ip : IpAddr) (w : Wiring) (t : PortType) :
    (if (w.ports.find? fun p => p.base.portType == t.config).isSome then w.drawn else w.drawn + 1) ≤
      (c.bindHostPort draws interfaces ip w t).drawn := by
  unfold bindHostPort
  dsimp only
  generalize (if (w.ports.find? fun p => p.base.portType == t.config).isSome then w.drawn else w.drawn + 1) = drawn
  cases interfaces.find? fun i => i.base.ipAddress == ip with
  | some hostInterface => exact Nat.le_succ _
  | none =>
    dsimp only
    split
    · exact Nat.le_add_right _ _
    · exact le_rfl

theorem drawn_le_bindHostPorts (published : IpAddr × List PortType) (w : Wiring) :
    w.drawn ≤ (published.2.foldl (c.bindHostPort draws interfaces published.1) w).drawn :=
  drawn_le_foldl (fun w t => (drawn_le_drawn w t).trans (drawn_le_bindHostPort published.1 w t)) published.2 w

theorem adds_bindHostPort (hdraws : Distinct draws n) (hsound : c.Sound interfaces) (h : Wired draws interfaces w)
    (ip : IpAddr) (t : PortType) (hn : (c.bindHostPort draws interfaces ip w t).drawn ≤ n) :
    Adds draws interfaces (fun config id => config = t.config ∧ ∃ i ∈ c.listenersAt interfaces ip, i.id = id) w
      (c.bindHostPort draws interfaces ip w t) := by
  obtain ⟨existing, hexisting⟩ : ∃ existing, existing = w.ports.find? fun p => p.base.portType == t.config := ⟨_, rfl⟩
  have hport := @drawn_le_bindHostPort draws interfaces c ip w t
  rw [← hexisting] at hport
  obtain ⟨hconfig, hadds⟩ := adds_port hdraws h t hexisting (hport.trans hn)
  rw [bindHostPort, ← hexisting] at hn ⊢
  generalize existing.getD (Port.newHostless draws w.drawn t) = port at hn hconfig hadds
  have hmem : port ∈ w.ports ++ [port] := List.mem_append_right _ (List.mem_singleton_self _)
  unfold listenersAt
  cases hfind : interfaces.find? fun i => i.base.ipAddress == ip with
  | some hostInterface =>
    rw [hfind] at hn
    have hbound := hadds.wired.bind hdraws hmem [hostInterface] (fun i hi => by
      rw [List.mem_singleton.mp hi]
      exact List.mem_of_find?_eq_some hfind) hn
    refine (hadds.trans hbound).congr fun config id => ?_
    rw [hconfig, false_or]
  | none =>
    rw [hfind] at hn
    by_cases hip : ip = allInterfacesIp
    · simp only [if_pos hip, List.length_mapIdx] at hn ⊢
      have hreplaced := adds_replaced hdraws hsound hadds.wired hmem hn
        (if existing.isSome then (w.bindings.filter (c.isNonDocker interfaces port.id)).map Binding.id else [])
        fun id hid => by
          split at hid
          · obtain ⟨b, hb, rfl⟩ := List.mem_map.mp hid
            obtain ⟨hb, hnonDocker⟩ := List.mem_filter.mp hb
            exact ⟨b, hb, hnonDocker, rfl⟩
          · cases hid
      refine (hadds.trans hreplaced).congr fun config id => ?_
      rw [hconfig, false_or]
    · simp only [if_neg hip]
      refine (h.draw ?_).congr fun config id => ?_
      · split <;> omega
      · simp

/-! ## Services -/

/-- What the Docker context adds: the container's ports where it was found, and the published ports of the host. -/
def Added (c : BridgeContext) (interfaces : List Interface) (config : PortConfig) (id : Uuid) : Prop :=
  (∃ t ∈ c.containerPorts, config = t.config ∧ id = c.interface.id) ∨
    ∃ published ∈ c.hostPorts, ∃ t ∈ published.2, config = t.config ∧
      ∃ i ∈ c.listenersAt interfaces published.1, i.id = id

theorem listens_dropSuperseded {ports : List Port} {bindings : List Binding} {config : PortConfig} {id : Uuid} :
    Listens ports (dropSuperseded bindings) config id ↔ Listens ports bindings config id := by
  refine exists_congr fun p => and_congr_right fun _ => and_congr_right fun _ => exists_congr fun b => ?_
  constructor
  · rintro ⟨hb, hbinding⟩
    exact ⟨List.mem_of_mem_filter hb, hbinding⟩
  · rintro ⟨hb, hbinding⟩
    refine ⟨List.mem_filter.mpr ⟨hb, ?_⟩, hbinding⟩
    rw [Binding.portId, hbinding]
    rfl

/-- Where there is a port binding, no interface binding is left. -/
theorem superseded_dropSuperseded {bindings : List Binding} {b b' : Binding} (hb : b ∈ dropSuperseded bindings)
    (hb' : b' ∈ dropSuperseded bindings) {portId id : Uuid} (hport : b.base.bindingType = .port portId (some id)) :
    b'.base.bindingType ≠ .interface id := by
  intro hinterface
  have hkept := (List.mem_filter.mp hb').2
  rw [Binding.portId, Binding.interfaceId, hinterface] at hkept
  have hnot : id ∉ (bindings.filter fun b => b.portId.isSome).filterMap Binding.interfaceId := by simpa using hkept
  refine hnot (List.mem_filterMap.mpr ⟨b, List.mem_filter.mpr ⟨List.mem_of_mem_filter hb, ?_⟩, ?_⟩)
  · rw [Binding.portId, hport]
    rfl
  · rw [Binding.interfaceId, hport]

theorem adds_bindService (hdraws : Distinct draws n) (hsound : c.Sound interfaces)
    (hinterface : c.interface ∈ interfaces) {ports : List Port} {drawn : Nat} {bindings : List Binding}
    (h : Wired draws interfaces { bindings, ports, drawn }) (hat : c.AtInterface { bindings, ports, drawn })
    (hcovered : c.Covered ports) (hn : (c.bindService draws interfaces ports drawn bindings).drawn ≤ n) :
    Adds draws interfaces (c.Added interfaces) { bindings, ports, drawn }
      (c.bindService draws interfaces ports drawn bindings) := by
  have hmono (w : Wiring) (published : IpAddr × List PortType) :=
    @drawn_le_bindHostPorts draws interfaces c published w
  obtain ⟨hcontainer, -⟩ := Adds.foldl (f := c.bindContainerPort draws)
    (P := fun w => c.AtInterface w ∧ c.Covered w.ports) (l := c.containerPorts)
    (A := fun t config id => config = t.config ∧ id = c.interface.id) drawn_le_bindContainerPort
    (fun t ht w hw hP hn => by
      obtain ⟨hadds, hat⟩ := adds_bindContainerPort hdraws hinterface hw hP.1 (hP.2 t ht) hn
      refine ⟨hadds, hat, fun t ht => ?_⟩
      obtain ⟨p, hp, hconfig⟩ := hP.2 t ht
      exact ⟨p, hadds.ports hp, hconfig⟩)
    h ⟨hat, hcovered⟩ ((drawn_le_foldl hmono c.hostPorts _).trans hn)
  obtain ⟨hhost, -⟩ := Adds.foldl (P := fun _ => True) (l := c.hostPorts)
    (A := fun published config id => ∃ t ∈ published.2, config = t.config ∧
      ∃ i ∈ c.listenersAt interfaces published.1, i.id = id)
    (f := fun w published => published.2.foldl (c.bindHostPort draws interfaces published.1) w) hmono
    (fun published _ w hw _ hn => Adds.foldl (P := fun _ => True)
      (fun w t => (drawn_le_drawn w t).trans (drawn_le_bindHostPort published.1 w t))
      (fun t _ w hw _ hn => ⟨adds_bindHostPort hdraws hsound hw published.1 t hn, trivial⟩) hw trivial hn)
    hcontainer.wired trivial hn
  have hadds := hcontainer.trans hhost
  refine ⟨hadds.wired.filter _, hadds.ports, hadds.drawn, fun config id => ?_⟩
  exact listens_dropSuperseded.trans (hadds.listens config id)

theorem drawn_le_bindServices (services : List Service) (ports : List Port) (drawn : Nat) :
    drawn ≤ (c.bindServices draws interfaces ports drawn services).2.2 := by
  induction services generalizing ports drawn with
  | nil => exact le_rfl
  | cons s services ih =>
    have hcontainer := drawn_le_foldl (@drawn_le_bindContainerPort draws c) c.containerPorts
      { bindings := s.base.bindings, ports, drawn }
    have hhost (w : Wiring) := drawn_le_foldl
      (fun w published => @drawn_le_bindHostPorts draws interfaces c published w) c.hostPorts w
    exact (hcontainer.trans (hhost _)).trans (ih _ _)

theorem bound_bindServices (hdraws : Distinct draws n) (hsound : c.Sound interfaces)
    (hinterface : c.interface ∈ interfaces) {services : List Service} {ports : List Port} {drawn : Nat}
    (hports : Wired draws interfaces { bindings := [], ports, drawn }) (hcovered : c.Covered ports)
    (h : ∀ s ∈ services, Wired draws interfaces { bindings := s.base.bindings, ports, drawn } ∧
      c.AtInterface { bindings := s.base.bindings, ports, drawn })
    (hn : (c.bindServices draws interfaces ports drawn services).2.2 ≤ n) :
    ports ⊆ (c.bindServices draws interfaces ports drawn services).2.1 ∧
    (∃ drawn', Wired draws interfaces
      { bindings := [], ports := (c.bindServices draws interfaces ports drawn services).2.1, drawn := drawn' }) ∧
    List.Forall₂
      (Bound (c.Added interfaces) interfaces ports (c.bindServices draws interfaces ports drawn services).2.1) services
      (c.bindServices draws interfaces ports drawn services).1 := by
  induction services generalizing ports drawn with
  | nil => exact ⟨List.Subset.refl _, ⟨drawn, hports⟩, .nil⟩
  | cons s services ih =>
    obtain ⟨hs, hat⟩ := h s List.mem_cons_self
    have hadds := adds_bindService hdraws hsound hinterface hs hat hcovered
      ((drawn_le_bindServices services _ _).trans hn)
    generalize hw : c.bindService draws interfaces ports drawn s.base.bindings = w at hadds
    have hservices : c.bindServices draws interfaces ports drawn (s :: services) =
        ({ s with base.bindings := w.bindings } :: (c.bindServices draws interfaces w.ports w.drawn services).1,
          (c.bindServices draws interfaces w.ports w.drawn services).2) := by rw [bindServices, hw]
    rw [hservices] at hn ⊢
    have hgrown {bindings : List Binding} (hb : Wired draws interfaces { bindings, ports, drawn }) :=
      hb.grow hadds.wired hadds.ports hadds.drawn
    obtain ⟨hsub, ⟨drawn', hfinal⟩, hrest⟩ := ih (hgrown hports).1
      (fun t ht => by
        obtain ⟨p, hp, hconfig⟩ := hcovered t ht
        exact ⟨p, hadds.ports hp, hconfig⟩)
      (fun s' hs' => ⟨(hgrown (h s' (List.mem_cons_of_mem _ hs')).1).1, (h s' (List.mem_cons_of_mem _ hs')).2⟩) hn
    refine ⟨List.Subset.trans hadds.ports hsub, ⟨drawn', hfinal⟩, .cons ?_ ?_⟩
    · refine ⟨⟨w.bindings, rfl⟩, fun b hb id hid => ?_, hadds.wired.interfaces, fun b hb b' hb' portId id hport => ?_,
        fun config id => ?_⟩
      · obtain ⟨p, hp, heq⟩ := hadds.wired.ports b hb id hid
        exact ⟨p, hsub hp, heq⟩
      · have hdropped : w.bindings = dropSuperseded _ := (congrArg Wiring.bindings hw).symm
        exact superseded_dropSuperseded (hdropped ▸ hb) (hdropped ▸ hb') hport
      · exact ((hadds.wired.listens_iff hfinal.functional hsub config id)).trans (hadds.listens config id)
    · refine ((List.forall₂_and_left (p := (· ∈ services)) _ _).mpr ⟨fun _ hs' => hs', hrest⟩).imp ?_
      rintro s' s'' ⟨hs', hbound⟩
      refine ⟨hbound.service, hbound.toPorts, hbound.toInterfaces, hbound.superseded, fun config id => ?_⟩
      rw [hbound.listens, (hgrown (h s' (List.mem_cons_of_mem _ hs')).1).2]

end BridgeContext

end Docker

end Netvisor
