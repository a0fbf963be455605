/-
What a change of the plan needs to find on a subscription to leave it well
formed, and that the add-ons it leaves behind stay.
-/
import Netvisor.Billing.Subscriptions

namespace Netvisor

open Program (wp)

/-- What a change to items makes of one that is there. -/
def SubscriptionItem.revised (updates : List UpdateSubscriptionItems) (item : SubscriptionItem) :
    Option SubscriptionItem :=
  match updates.find? fun u => u.id == some item.id with
  | none => some item
  | some u =>
    if u.deleted = some true then none
    else some { item with price := u.price.getD item.price, quantity := u.quantity.getD item.quantity }

/-- What is relied on of the payment provider. -/
structure Stripe.Documented (stripe : Stripe) : Prop where
  /-- A price has one lookup key. -/
  distinct : ∀ k k' price, stripe.searchPrice k = some price → stripe.searchPrice k' = some price → k = k'
  listed : ∀ subscriptions customerId, ∀ s ∈ stripe.listSubscriptions subscriptions customerId, s ∈ subscriptions
  /-- Items that are named are changed, those without an id are added, and the others stay. -/
  updated : ∀ updates items, (items.map SubscriptionItem.id).Nodup →
    (∀ u ∈ updates, u.id = none → u.price.isSome = true) →
    ∃ added, (stripe.updateItems updates items).Perm (items.filterMap (SubscriptionItem.revised updates) ++ added) ∧
      added.map (fun item => (some item.price, item.quantity))
        = (updates.filter fun u => u.id.isNone).map fun u => (u.price, u.quantity.getD 1)

namespace BillingService

variable {stripe : Stripe} {s : BillingState} {organizationId : Uuid} {old target : PricedPlan}
variable {items : List SubscriptionItem}

/-- One item for the plan, and one for each add-on it sells, at their prices. -/
def WellFormed (stripe : Stripe) (plan : PricedPlan) (items : List SubscriptionItem) : Prop :=
  ∃ base addons, stripe.searchPrice plan.stripeBasePriceLookupKey = some base ∧
    plan.addonPriceLookupKeys.mapM stripe.searchPrice = some addons ∧
    (items.map SubscriptionItem.price).Perm (base :: addons)

instance (plan : PricedPlan) : Decidable (WellFormed stripe plan items) :=
  match hbase : stripe.searchPrice plan.stripeBasePriceLookupKey,
    haddons : plan.addonPriceLookupKeys.mapM stripe.searchPrice with
  | some base, some addons =>
    decidable_of_iff ((items.map SubscriptionItem.price).Perm (base :: addons)) <| by
      constructor
      · exact fun h => ⟨base, addons, hbase, haddons, h⟩
      · intro ⟨base', addons', hbase', haddons', h⟩
        cases hbase.symm.trans hbase'
        cases haddons.symm.trans haddons'
        exact h
  | none, _ => .isFalse fun ⟨_, _, h, _⟩ => by simp [hbase] at h
  | _, none => .isFalse fun ⟨_, _, _, h, _⟩ => by simp [haddons] at h

/-- One item for the plan, and any of its add-ons, in any order. -/
def Subscribed (stripe : Stripe) (plan : PricedPlan) (items : List SubscriptionItem) : Prop :=
  ∃ base chosen, stripe.searchPrice plan.stripeBasePriceLookupKey = some base ∧ chosen.Nodup ∧
    (∀ price ∈ chosen, ∃ key ∈ plan.addonPriceLookupKeys, stripe.searchPrice key = some price) ∧
    (items.map SubscriptionItem.price).Perm (base :: chosen)

/-- The items after the first are the add-ons the plan sells, at its prices. -/
def AddonsFollow (stripe : Stripe) (plan : PricedPlan) (items : List SubscriptionItem) : Prop :=
  ∃ first rest addons, items = first :: rest ∧ plan.addonPriceLookupKeys.mapM stripe.searchPrice = some addons ∧
    (rest.map SubscriptionItem.price).Perm addons

/-! ## One change -/

theorem wp_orFail {α : Type} {message : String} {a : Option α} {Q : α → BillingState → Prop}
    {E : Error → BillingState → Prop} : wp (orFail message a) Q E s ↔
      (∀ x, a = some x → Q x s) ∧ (a = none → E (.internal message) s) := by
  cases a <;> simp [orFail]

/-- The first item of the active subscription gets the base price, or nothing changes. -/
theorem wp_changePlan :
    wp (changePlan stripe organizationId target)
      (fun _ t => ∃ organization customerId base sub first, s.organizations.get organizationId = some organization ∧
        organization.stripeCustomerId = some customerId ∧
        stripe.searchPrice target.stripeBasePriceLookupKey = some base ∧
        activeSubscription stripe s customerId = some sub ∧ sub.items.head? = some first ∧
        ∃ sub', sub'.id = sub.id ∧ t = { s with subscriptions := s.subscriptions.update sub' } ∧
          sub'.items = stripe.updateItems [{ id := some first.id, price := some base, quantity := some 1 }] sub.items)
      (fun _ t => t = s) s := by
  simp only [changePlan, updateSubscription, Program.wp_bind, Program.wp_get, Program.wp_pure,
    Program.wp_modify, wp_orFail, implies_true, and_true]
  intro organization horg customerId hcustomer base hbase sub hsub first hfirst
  exact ⟨organization, customerId, base, sub, first, horg, hcustomer, hbase, hsub, hfirst,
    { sub with
      items := stripe.updateItems [{ id := some first.id, price := some base, quantity := some 1 }] sub.items
      metadata := { plan := some target, organizationId := some organizationId }
      cancelAtPeriodEnd := false }, rfl, rfl, rfl⟩

/-- The prices after the first item was given the base price. -/
theorem prices_of_first_replaced (hstripe : stripe.Documented) {first : SubscriptionItem}
    {rest : List SubscriptionItem}
    {base : String} (hnodup : ((first :: rest).map SubscriptionItem.id).Nodup) :
    ((stripe.updateItems [{ id := some first.id, price := some base, quantity := some 1 }] (first :: rest)).map
      SubscriptionItem.price).Perm (base :: rest.map SubscriptionItem.price) := by
  let updates : List UpdateSubscriptionItems := [{ id := some first.id, price := some base, quantity := some 1 }]
  obtain ⟨added, hperm, hadded⟩ := hstripe.updated updates (first :: rest) hnodup (by simp [updates])
  have hnone : added = [] := by simpa [updates] using hadded
  have hrest : rest.filterMap (SubscriptionItem.revised updates) = rest := by
    rw [List.map_cons, List.nodup_cons] at hnodup
    have hsame : ∀ item ∈ rest, SubscriptionItem.revised updates item = some item := by
      intro item hitem
      have hne : first.id ≠ item.id := fun heq => hnodup.1 (heq ▸ List.mem_map_of_mem hitem)
      simp [SubscriptionItem.revised, updates, hne]
    rw [List.filterMap_congr hsame, List.filterMap_some]
  have hfirst : SubscriptionItem.revised updates first = some { first with price := base, quantity := 1 } := by
    simp [SubscriptionItem.revised, updates]
  rw [hnone, List.append_nil, List.filterMap_cons_some hfirst, hrest] at hperm
  exact hperm.map SubscriptionItem.price

theorem wellFormed_iff_addonsFollow {items' : List SubscriptionItem} {base : String} {first : SubscriptionItem}
    {rest : List SubscriptionItem} (hbase : stripe.searchPrice target.stripeBasePriceLookupKey = some base)
    (hprices : (items'.map SubscriptionItem.price).Perm (base :: rest.map SubscriptionItem.price)) :
    WellFormed stripe target items' ↔ AddonsFollow stripe target (first :: rest) := by
  constructor
  · intro ⟨base', addons, hbase', haddons, hperm⟩
    cases hbase.symm.trans hbase'
    exact ⟨first, rest, addons, rfl, haddons, (hprices.symm.trans hperm).cons_inv⟩
  · intro ⟨first', rest', addons, heq, haddons, hperm⟩
    cases heq
    exact ⟨base, addons, hbase, haddons, hprices.trans (hperm.cons base)⟩

/-! ## Another plan -/

/-- The product a key is of: what comes before the first underscore. -/
def productOf (key : String) : List Char := key.toList.takeWhile fun c => c ≠ '_'

theorem productOf_eq {p : PricedPlan} {key : String} (rest : List Char)
    (hkey : key.toList = p.stripeProductId.toList ++ '_' :: rest) : productOf key = p.stripeProductId.toList := by
  have hall : p.stripeProductId.toList.all (fun c => decide (c ≠ '_')) = true := by
    unfold PricedPlan.stripeProductId String.toLower
    rw [String.toList_map]
    cases p.plan <;> rfl
  rw [productOf, hkey, List.takeWhile_append_of_pos (List.all_eq_true.mp hall),
    List.takeWhile_cons_of_neg (by decide), List.append_nil]

theorem productOf_base (p : PricedPlan) : productOf p.stripeBasePriceLookupKey = p.stripeProductId.toList := by
  refine productOf_eq (toString p.baseCents ++ "_" ++ p.rate.display).toList ?_
  simp [PricedPlan.stripeBasePriceLookupKey]

theorem productOf_addon {p : PricedPlan} {key : String} (hkey : key ∈ p.addonPriceLookupKeys) :
    productOf key = p.stripeProductId.toList := by
  have hseats : "_seats_".toList = '_' :: "seats_".toList := by decide
  have hnetworks : "_networks_".toList = '_' :: "networks_".toList := by decide
  simp only [PricedPlan.addonPriceLookupKeys, PricedPlan.stripeSeatAddonPriceLookupKey,
    PricedPlan.stripeNetworkAddonPriceLookupKey, List.mem_append, Option.mem_toList, Option.map_eq_some_iff] at hkey
  rcases hkey with ⟨c, -, rfl⟩ | ⟨c, -, rfl⟩
  · refine productOf_eq ("seats_" ++ toString c ++ "_" ++ p.rate.display).toList ?_
    simp [hseats]
  · refine productOf_eq ("networks_" ++ toString c ++ "_" ++ p.rate.display).toList ?_
    simp [hnetworks]

theorem stripeProductId_injective {p q : PricedPlan} (h : p.stripeProductId = q.stripeProductId) :
    p.plan = q.plan := by
  have hids : ([.community, .free, .starter, .pro, .team, .business, .enterprise, .demo, .commercialSelfHosted].map
      fun plan : BillingPlan => plan.display.toList.map Char.toLower).Nodup := by decide +kernel
  have hall (plan : BillingPlan) : plan ∈
      [.community, .free, .starter, .pro, .team, .business, .enterprise, .demo, .commercialSelfHosted] := by
    cases plan <;> decide
  refine List.inj_on_of_nodup_map hids (hall p.plan) (hall q.plan) ?_
  have h := congrArg String.toList h
  unfold PricedPlan.stripeProductId String.toLower at h
  rwa [String.toList_map, String.toList_map] at h

theorem mem_of_mapM {l : List String} {prices : List String} {price : String}
    (h : l.mapM stripe.searchPrice = some prices) (hprice : price ∈ prices) :
    ∃ key ∈ l, stripe.searchPrice key = some price := by
  induction l generalizing prices with
  | nil =>
    cases h
    exact absurd hprice List.not_mem_nil
  | cons key l ih =>
    simp only [List.mapM_cons, Option.bind_eq_bind, Option.bind_eq_some_iff, Option.pure_def, Option.some.injEq] at h
    obtain ⟨first, hfirst, rest, hrest, rfl⟩ := h
    rcases List.mem_cons.mp hprice with rfl | hprice
    · exact ⟨key, List.mem_cons_self, hfirst⟩
    · obtain ⟨key', hkey', hsearch⟩ := ih hrest hprice
      exact ⟨key', List.mem_cons_of_mem key hkey', hsearch⟩

/-- Nothing of another plan is an add-on of this one. -/
theorem not_addon_of_other (hstripe : stripe.Documented) (hplan : old.plan ≠ target.plan)
    (hsubscribed : Subscribed stripe old items) {item : SubscriptionItem} (hitem : item ∈ items) {key : String}
    (hkey : key ∈ target.addonPriceLookupKeys) : stripe.searchPrice key ≠ some item.price := by
  intro hsearch
  obtain ⟨base, chosen, hbase, -, hchosen, hperm⟩ := hsubscribed
  have hof : ∃ key', productOf key' = old.stripeProductId.toList ∧ stripe.searchPrice key' = some item.price := by
    have hmem := hperm.mem_iff.mp (List.mem_map_of_mem hitem)
    rcases List.mem_cons.mp hmem with heq | hmem
    · exact ⟨_, productOf_base old, heq ▸ hbase⟩
    · obtain ⟨key', hkey', hsearch'⟩ := hchosen _ hmem
      exact ⟨key', productOf_addon hkey', hsearch'⟩
  obtain ⟨key', hproduct, hsearch'⟩ := hof
  rw [hstripe.distinct key' key item.price hsearch' hsearch, productOf_addon hkey] at hproduct
  exact hplan (stripeProductId_injective (String.toList_injective hproduct)).symm

/-- A subscription to another plan is left well formed if it has no add-ons and none are sold. -/
theorem addonsFollow_iff_of_other (hstripe : stripe.Documented) (hplan : old.plan ≠ target.plan)
    (hsubscribed : Subscribed stripe old items) :
    AddonsFollow stripe target items ↔ items.length = 1 ∧ target.addonPriceLookupKeys = [] := by
  constructor
  · rintro ⟨first, rest, addons, rfl, haddons, hperm⟩
    have hrest : rest = [] := by
      refine List.eq_nil_iff_forall_not_mem.mpr fun item hitem => ?_
      obtain ⟨key, hkey, hsearch⟩ := mem_of_mapM haddons (hperm.mem_iff.mp (List.mem_map_of_mem hitem))
      exact not_addon_of_other hstripe hplan hsubscribed (List.mem_cons_of_mem first hitem) hkey hsearch
    rw [hrest, List.map_nil, List.nil_perm] at hperm
    refine ⟨by rw [hrest, List.length_singleton], ?_⟩
    rw [hperm] at haddons
    cases hkeys : target.addonPriceLookupKeys with
    | nil => rfl
    | cons key keys =>
      rw [hkeys] at haddons
      simp [List.mapM_cons, Option.bind_eq_some_iff] at haddons
  · intro ⟨hlength, hnone⟩
    obtain ⟨first, rfl⟩ := List.length_eq_one_iff.mp hlength
    exact ⟨first, [], [], rfl, by rw [hnone]; rfl, List.Perm.refl _⟩

/-- Even with add-ons left out, a subscription to another plan can have none before. -/
theorem subscribed_iff_of_other (hstripe : stripe.Documented) (hplan : old.plan ≠ target.plan)
    {items' rest : List SubscriptionItem} {first : SubscriptionItem} {base : String}
    (hsubscribed : Subscribed stripe old (first :: rest))
    (hbase : stripe.searchPrice target.stripeBasePriceLookupKey = some base)
    (hprices : (items'.map SubscriptionItem.price).Perm (base :: rest.map SubscriptionItem.price)) :
    Subscribed stripe target items' ↔ (first :: rest).length = 1 := by
  constructor
  · intro ⟨base', chosen, hbase', _, hchosen, hperm⟩
    cases hbase.symm.trans hbase'
    have hrest : (rest.map SubscriptionItem.price).Perm chosen := (hprices.symm.trans hperm).cons_inv
    have hnone : rest = [] := by
      refine List.eq_nil_iff_forall_not_mem.mpr fun item hitem => ?_
      obtain ⟨key, hkey, hsearch⟩ := hchosen _ (hrest.mem_iff.mp (List.mem_map_of_mem hitem))
      exact not_addon_of_other hstripe hplan hsubscribed (List.mem_cons_of_mem first hitem) hkey hsearch
    rw [hnone, List.length_singleton]
  · intro hlength
    have hnone : rest = [] := List.eq_nil_of_length_eq_zero (by simpa using hlength)
    rw [hnone] at hprices
    exact ⟨base, [], hbase, List.nodup_nil, by simp, hprices⟩

/-- **A change of the plan leaves the subscription well formed exactly if the items
after the first are the add-ons of the new plan, which for a subscription to another
plan means that it has none and none are sold. Without any add-on of the old plan it is left
exactly if it has none. It fails without a change.** -/
theorem changePlan_wellFormed_iff (hstripe : stripe.Documented)
    (hitems : ∀ sub ∈ s.subscriptions.rows, (sub.items.map SubscriptionItem.id).Nodup) :
    wp (changePlan stripe organizationId target)
      (fun _ t => ∃ organization customerId sub sub', s.organizations.get organizationId = some organization ∧
        organization.stripeCustomerId = some customerId ∧ activeSubscription stripe s customerId = some sub ∧
        t.subscriptions.get sub.id = some sub' ∧
        (WellFormed stripe target sub'.items ↔ AddonsFollow stripe target sub.items) ∧
        ∀ old : PricedPlan, old.plan ≠ target.plan → Subscribed stripe old sub.items →
          (WellFormed stripe target sub'.items ↔ sub.items.length = 1 ∧ target.addonPriceLookupKeys = []) ∧
          (Subscribed stripe target sub'.items ↔ sub.items.length = 1))
      (fun _ t => t = s) s := by
  refine wp_changePlan.mono ?_ fun _ _ h => h
  rintro _ t ⟨organization, customerId, base, sub, first, horg, hcustomer, hbase, hsub, hfirst, sub', hid,
    rfl, hupdate⟩
  have hmem : sub ∈ s.subscriptions.rows := hstripe.listed _ _ sub (List.mem_of_find?_eq_some hsub)
  have hget : s.subscriptions.get sub.id = some sub := Table.get_eq_some.mpr ⟨hmem, rfl⟩
  refine ⟨organization, customerId, sub, sub', horg, hcustomer, hsub, Table.get_update_self hget hid, ?_⟩
  have hnodup := hitems sub hmem
  cases hlist : sub.items with
  | nil => simp [hlist] at hfirst
  | cons item rest =>
    rw [hlist] at hfirst hupdate hnodup
    cases hfirst
    have hprices : (sub'.items.map SubscriptionItem.price).Perm (base :: rest.map SubscriptionItem.price) := by
      rw [hupdate]
      exact prices_of_first_replaced hstripe hnodup
    have hiff : WellFormed stripe target sub'.items ↔ AddonsFollow stripe target (first :: rest) :=
      wellFormed_iff_addonsFollow hbase hprices
    refine ⟨hiff, fun old hplan hsubscribed => ⟨?_, subscribed_iff_of_other hstripe hplan hsubscribed hbase hprices⟩⟩
    exact hiff.trans (addonsFollow_iff_of_other hstripe hplan hsubscribed)

/-! ## What is left behind -/

/-- A count of the add-ons changes items of these add-ons only, and adds items at a price. -/
theorem mem_itemsToUpdate {extraSeats extraNetworks : Nat} {u : UpdateSubscriptionItems}
    (hu : u ∈ itemsToUpdate stripe target extraSeats extraNetworks items) :
    (u.id = none ∧ u.price.isSome = true) ∨
      ∃ item ∈ items, u.id = some item.id ∧ ∃ key ∈ target.addonPriceLookupKeys,
          stripe.searchPrice key = some item.price := by
  have hadded {found : Bool} {extra : Nat} {key : Option String} (hu : u ∈ addItem stripe found extra key) :
      u.id = none ∧ u.price.isSome = true := by
    unfold addItem at hu
    split at hu
    · simp only [Option.mem_toList, Option.map_eq_some_iff] at hu
      obtain ⟨price, -, rfl⟩ := hu
      exact ⟨rfl, rfl⟩
    · exact absurd hu List.not_mem_nil
  have haddon {item : SubscriptionItem} {key : Option String} (h : isAddon stripe key item = true) :
      ∃ k ∈ key, stripe.searchPrice k = some item.price := by
    simp only [isAddon, Option.any_eq_true, Option.bind_eq_some_iff, beq_iff_eq] at h
    obtain ⟨price, ⟨k, hk, hsearch⟩, hprice⟩ := h
    exact ⟨k, hk, hprice ▸ hsearch⟩
  simp only [itemsToUpdate, List.mem_append] at hu
  rcases hu with (hu | hu) | hu
  · simp only [countItems, List.mem_filterMap] at hu
    obtain ⟨item, hitem, hcount⟩ := hu
    refine .inr ⟨item, hitem, ?_⟩
    split at hcount
    · next hseat =>
      cases hcount
      obtain ⟨key, hkey, hsearch⟩ := haddon hseat
      exact ⟨rfl, key, List.mem_append_left _ (Option.mem_toList.mpr hkey), hsearch⟩
    · split at hcount
      · next hnetwork =>
        cases hcount
        obtain ⟨key, hkey, hsearch⟩ := haddon hnetwork
        exact ⟨rfl, key, List.mem_append_right _ (Option.mem_toList.mpr hkey), hsearch⟩
      · cases hcount
  · exact .inl (hadded hu)
  · exact .inl (hadded hu)

/-- An item that is no add-on of the plan stays as it is. -/
theorem mem_updateItems (hstripe : stripe.Documented) (hnodup : (items.map SubscriptionItem.id).Nodup)
    {extraSeats extraNetworks : Nat} {item : SubscriptionItem} (hitem : item ∈ items)
    (hforeign : ∀ key ∈ target.addonPriceLookupKeys, stripe.searchPrice key ≠ some item.price) :
    item ∈ stripe.updateItems (itemsToUpdate stripe target extraSeats extraNetworks items) items := by
  have hpriced : ∀ u ∈ itemsToUpdate stripe target extraSeats extraNetworks items, u.id = none →
      u.price.isSome = true := by
    intro u hu hnone
    rcases mem_itemsToUpdate hu with h | ⟨_, _, hid, _⟩
    · exact h.2
    · exact absurd (hnone.symm.trans hid) (by simp)
  obtain ⟨added, hperm, -⟩ := hstripe.updated _ items hnodup hpriced
  refine hperm.mem_iff.mpr (List.mem_append_left _ (List.mem_filterMap.mpr ⟨item, hitem, ?_⟩))
  have hnone : (itemsToUpdate stripe target extraSeats extraNetworks items).find? (fun u => u.id == some item.id) =
      none := by
    refine List.find?_eq_none.mpr fun u hu hid => ?_
    rcases mem_itemsToUpdate hu with h | ⟨item', hitem', hid', key, hkey, hsearch⟩
    · simp [h.1] at hid
    · have heq : item' = item := by
        refine List.inj_on_of_nodup_map hnodup hitem' hitem (Option.some.inj (hid'.symm.trans ?_))
        simpa using hid
      exact hforeign key hkey (heq ▸ hsearch)
  rw [SubscriptionItem.revised, hnone]

/-- The add-ons of another plan are never counted, so they stay at their price. -/
theorem foreign_kept_by_updateAddonPrices (hstripe : stripe.Documented)
    (hitems : ∀ sub ∈ s.subscriptions.rows, (sub.items.map SubscriptionItem.id).Nodup) {organization : Organization}
    {networkCount seatCount : Nat} {sub : Subscription} (hsub : s.subscriptions.get sub.id = some sub)
    {item : SubscriptionItem} (hitem : item ∈ sub.items)
    (hforeign : ∀ key ∈ target.addonPriceLookupKeys, stripe.searchPrice key ≠ some item.price) :
    wp (updateAddonPrices stripe organization (some target) networkCount seatCount)
      (fun _ t => ∃ sub', t.subscriptions.get sub.id = some sub' ∧ item ∈ sub'.items) (fun _ t => t = s) s := by
  simp only [updateAddonPrices, updateSubscription, Program.wp_bind, Program.wp_get, Program.wp_ite, Program.wp_pure,
    Program.wp_modify, wp_orFail, implies_true, and_true]
  intro plan hplan customerId _ active hactive
  cases hplan
  refine ⟨fun _ => ?_, fun _ => ⟨sub, hsub, hitem⟩⟩
  have hmem : active ∈ s.subscriptions.rows := hstripe.listed _ _ active (List.mem_of_find?_eq_some hactive)
  by_cases hsame : sub.id = active.id
  · have heq : sub = active := s.subscriptions.eq_of_key (Table.get_eq_some.mp hsub).1 hmem hsame
    subst heq
    exact ⟨_, Table.get_update_self hsub rfl, mem_updateItems hstripe (hitems sub hmem) hitem hforeign⟩
  · refine ⟨sub, ?_, hitem⟩
    rw [Table.get_update, if_neg hsame]
    exact hsub

/-! ## A provider -/

/-- A provider with all prices, that lists the subscriptions of a customer as they are stored. -/
def simpleStripe : Stripe where
  searchPrice key := some ("price_" ++ key)
  listSubscriptions subscriptions customerId := subscriptions.filter fun s => s.customer = customerId
  updateItems updates items :=
    items.filterMap (SubscriptionItem.revised updates)
      ++ (updates.filter fun u => u.id.isNone).map fun u =>
        { id := "new", price := u.price.getD "", quantity := u.quantity.getD 1 }

theorem simpleStripe_documented : simpleStripe.Documented where
  distinct k k' price hk hk' := by
    have heq : "price_" ++ k = "price_" ++ k' := Option.some.inj (hk.trans hk'.symm)
    have htext := congrArg String.toList heq
    simp only [String.toList_append] at htext
    exact String.toList_injective (List.append_cancel_left htext)
  listed _ _ _ hs := List.mem_of_mem_filter hs
  updated updates items _ hpriced := by
    refine ⟨_, List.Perm.refl _, ?_⟩
    rw [List.map_map]
    refine List.map_congr_left fun u hu => ?_
    obtain ⟨hu, hnone⟩ := List.mem_filter.mp hu
    obtain ⟨price, hprice⟩ := Option.isSome_iff_exists.mp (hpriced u hu (Option.isNone_iff_eq_none.mp hnone))
    simp [hprice]

def starterPlan : PricedPlan where
  plan := .starter
  config := { includedSeats := some 1, includedNetworks := some 1 }
  baseCents := 1499

def proPlan : PricedPlan where
  plan := .pro
  config := { includedSeats := some 1, includedNetworks := some 3 }
  baseCents := 2999

def teamPlan : PricedPlan where
  plan := .team
  config :=
    { seatCents := some 1000, networkCents := some 800, includedSeats := some 10, includedNetworks := some 15 }
  baseCents := 8999

def businessPlan : PricedPlan where
  plan := .business
  config :=
    { seatCents := some 800, networkCents := some 500, includedSeats := some 25, includedNetworks := some 50 }
  baseCents := 14999

/-- An organization with items of these prices. -/
def subscribedTo (prices : List (String × String)) : BillingState where
  organizations := { rows := [{ id := 1, stripeCustomerId := some "cus" }] }
  subscriptions :=
    { rows :=
        [{ id := "sub", customer := "cus", status := .active
           items := prices.map fun p => { id := p.1, price := p.2, quantity := 1 } }] }

/-- The only item of the subscription gets the price of the plan. -/
theorem changePlan_wellFormed_pro : ∃ message t sub',
    changePlan simpleStripe 1 proPlan (subscribedTo [("base", "price_starter_1499_Month")]) = .ok message t ∧
      t.subscriptions.get "sub" = some sub' ∧ WellFormed simpleStripe proPlan sub'.items := by
  have hok : wp (changePlan simpleStripe 1 proPlan) (fun _ _ => True) (fun _ _ => False)
      (subscribedTo [("base", "price_starter_1499_Month")]) := by decide +kernel
  have hitems : ∀ sub ∈ (subscribedTo [("base", "price_starter_1499_Month")]).subscriptions.rows,
      (sub.items.map SubscriptionItem.id).Nodup := by decide +kernel
  obtain ⟨message, t, hrun, -⟩ := Program.returns_of_wp hok
  obtain ⟨organization, customerId, sub, sub', horg, hcustomer, hsub, hget, hiff, -⟩ :=
    (Program.wp_of_ok hrun).mp (changePlan_wellFormed_iff simpleStripe_documented hitems)
  cases horg
  cases hcustomer
  cases hsub
  exact ⟨message, t, sub', hrun, hget, hiff.mpr ⟨_, [], [], rfl, rfl, List.Perm.refl _⟩⟩

/-- From team to business the seats stay at the price of the team, and with the seats
first it is they who get the price of the plan. -/
theorem addons_left_behind :
    Subscribed simpleStripe teamPlan
        [⟨"base", "price_team_8999_Month", 1⟩, ⟨"seats", "price_team_seats_1000_Month", 1⟩] ∧
      wp (changePlan simpleStripe 1 businessPlan)
        (fun _ t => ∃ sub' ∈ t.subscriptions.rows, ¬ WellFormed simpleStripe businessPlan sub'.items)
        (fun _ _ => False)
        (subscribedTo [("base", "price_team_8999_Month"), ("seats", "price_team_seats_1000_Month")]) ∧
      wp (changePlan simpleStripe 1 starterPlan)
        (fun _ t => ∃ sub' ∈ t.subscriptions.rows,
          sub'.items.map SubscriptionItem.price = ["price_starter_1499_Month", "price_team_8999_Month"])
        (fun _ _ => False)
        (subscribedTo [("seats", "price_team_seats_1000_Month"), ("base", "price_team_8999_Month")]) := by
  refine ⟨⟨"price_team_8999_Month", ["price_team_seats_1000_Month"], by decide +kernel, by decide, ?_,
    List.Perm.refl _⟩, by decide +kernel, by decide +kernel⟩
  intro price hprice
  rw [List.mem_singleton.mp hprice]
  exact ⟨"team_seats_1000_Month", by decide +kernel, by decide +kernel⟩

end BillingService

end Netvisor
