/-
The items of an organization's subscription, as a change of the plan and a new
count of the add-ons leave them.

A change of the plan gives the first item the price of the new plan and touches
no other, so the subscription comes out right only if the others are those of
the new plan already.
-/
import Netvisor.Auth.Accounts
import Netvisor.StorageFacts

namespace Netvisor

open Program (wp)

/-! ## Plans and their prices -/

inductive BillingRate
  | month
  | year
deriving DecidableEq, Repr

def BillingRate.display : BillingRate → String
  | month => "Month"
  | year => "Year"

def BillingPlan.display : BillingPlan → String
  | community => "Community"
  | free => "Free"
  | starter => "Starter"
  | pro => "Pro"
  | team => "Team"
  | business => "Business"
  | enterprise => "Enterprise"
  | demo => "Demo"
  | commercialSelfHosted => "CommercialSelfHosted"

def BillingPlan.name : BillingPlan → String
  | commercialSelfHosted => "On-Premise"
  | plan => plan.display

/-- A plan with what it costs. -/
structure PricedPlan where
  plan : BillingPlan
  config : PlanConfig := {}
  baseCents : Int
  rate : BillingRate := .month
deriving DecidableEq, Repr

namespace PricedPlan

variable (p : PricedPlan)

def stripeProductId : String := p.plan.display.toLower

def stripeBasePriceLookupKey : String :=
  p.stripeProductId ++ "_" ++ toString p.baseCents ++ "_" ++ p.rate.display

def stripeSeatAddonPriceLookupKey : Option String :=
  p.config.seatCents.map fun c => p.stripeProductId ++ "_seats_" ++ toString c ++ "_" ++ p.rate.display

def stripeNetworkAddonPriceLookupKey : Option String :=
  p.config.networkCents.map fun c => p.stripeProductId ++ "_networks_" ++ toString c ++ "_" ++ p.rate.display

/-- The keys of the prices of the add-ons it sells. -/
def addonPriceLookupKeys : List String :=
  p.stripeSeatAddonPriceLookupKey.toList ++ p.stripeNetworkAddonPriceLookupKey.toList

end PricedPlan

/-! ## Subscriptions -/

inductive SubscriptionStatus
  | active
  | canceled
  | incomplete
  | incompleteExpired
  | pastDue
  | paused
  | trialing
  | unpaid
deriving DecidableEq, Repr

structure SubscriptionItem where
  id : String
  /-- The id of the price. -/
  price : String
  quantity : Nat
deriving DecidableEq, Repr

structure SubscriptionMetadata where
  plan : Option PricedPlan := none
  organizationId : Option Uuid := none
deriving DecidableEq, Repr

structure Subscription where
  id : String
  customer : String
  status : SubscriptionStatus
  items : List SubscriptionItem
  metadata : SubscriptionMetadata := {}
  cancelAtPeriodEnd : Bool := false
deriving DecidableEq, Repr

/-- A change to one item, or a new one if there is no id. -/
structure UpdateSubscriptionItems where
  id : Option String := none
  price : Option String := none
  quantity : Option Nat := none
  deleted : Option Bool := none
deriving DecidableEq, Repr

/-- What the payment provider answers and does. -/
structure Stripe where
  /-- The id of the first price with the lookup key. -/
  searchPrice : String → Option String
  listSubscriptions : List Subscription → String → List Subscription
  updateItems : List UpdateSubscriptionItems → List SubscriptionItem → List SubscriptionItem

structure BillingState where
  organizations : Table Organization Organization.id := {}
  subscriptions : Table Subscription Subscription.id := {}

abbrev BillingStore := EStateM Error BillingState

namespace BillingService

/-- The value, or an error with the message. -/
def orFail {α : Type} (message : String) : Option α → BillingStore α
  | some a => return a
  | none => throw (.internal message)

def isActive (s : Subscription) : Bool := s.status = .active ∨ s.status = .trialing

variable (stripe : Stripe)

def activeSubscription (s : BillingState) (customerId : String) : Option Subscription :=
  (stripe.listSubscriptions s.subscriptions.rows customerId).find? isActive

/-- `UpdateSubscription`, with the items and whatever else is set. -/
def updateSubscription (subscription : Subscription) (items : List UpdateSubscriptionItems) : BillingStore Unit :=
  modify fun s =>
    { s with subscriptions :=
      s.subscriptions.update { subscription with items := stripe.updateItems items subscription.items } }

def changePlan (organizationId : Uuid) (targetPlan : PricedPlan) : BillingStore String := do
  let organization ← orFail "Organization not found" ((← get).organizations.get organizationId)
  let customerId ← orFail "No Stripe customer ID" organization.stripeCustomerId
  let basePrice ← orFail "Could not find price for target plan"
    (stripe.searchPrice targetPlan.stripeBasePriceLookupKey)
  let sub ← orFail "No active subscription found to modify" (activeSubscription stripe (← get) customerId)
  let baseItem ← orFail "No subscription items found" sub.items.head?
  updateSubscription stripe
    { sub with
      metadata := { plan := some targetPlan, organizationId := some organizationId }
      cancelAtPeriodEnd := false }
    [{ id := some baseItem.id, price := some basePrice, quantity := some 1 }]
  return "Plan changed to " ++ targetPlan.plan.name

/-- The item is of the add-on, whose price is found. -/
def isAddon (lookupKey : Option String) (item : SubscriptionItem) : Bool :=
  (lookupKey.bind stripe.searchPrice).any fun price => item.price == price

/-- The change to an item of an add-on: the new quantity, or none of it at all. -/
def countItem (item : SubscriptionItem) (extra : Nat) : UpdateSubscriptionItems where
  id := some item.id
  price := some item.price
  quantity := some extra
  deleted := if extra = 0 then some true else none

/-- The changes to the items that are there. -/
def countItems (plan : PricedPlan) (extraSeats extraNetworks : Nat) (items : List SubscriptionItem) :
    List UpdateSubscriptionItems :=
  items.filterMap fun item =>
    if isAddon stripe plan.stripeSeatAddonPriceLookupKey item then some (countItem item extraSeats)
    else if isAddon stripe plan.stripeNetworkAddonPriceLookupKey item then some (countItem item extraNetworks)
    else none

/-- A new item, unless one was found, nothing is needed or there is no price. -/
def addItem (found : Bool) (extra : Nat) (lookupKey : Option String) : List UpdateSubscriptionItems :=
  if !found && extra > 0 then
    ((lookupKey.bind stripe.searchPrice).map fun price =>
      ({ price := some price, quantity := some extra } : UpdateSubscriptionItems)).toList
  else []

def itemsToUpdate (plan : PricedPlan) (extraSeats extraNetworks : Nat) (items : List SubscriptionItem) :
    List UpdateSubscriptionItems :=
  let isSeat := isAddon stripe plan.stripeSeatAddonPriceLookupKey
  let isNetwork := fun item => !isSeat item && isAddon stripe plan.stripeNetworkAddonPriceLookupKey item
  countItems stripe plan extraSeats extraNetworks items
    ++ addItem stripe (items.any isSeat) extraSeats plan.stripeSeatAddonPriceLookupKey
    ++ addItem stripe (items.any isNetwork) extraNetworks plan.stripeNetworkAddonPriceLookupKey

/-- `organizationPlan` is the plan of the organization with its prices. -/
def updateAddonPrices (organization : Organization) (organizationPlan : Option PricedPlan)
    (networkCount seatCount : Nat) :
    BillingStore Unit := do
  let plan ← orFail ("Organization " ++ organization.name ++ " doesn't have a billing plan") organizationPlan
  let customerId ← orFail ("Organization " ++ organization.name ++ " doesn't have a Stripe customer ID")
    organization.stripeCustomerId
  let extraNetworks := (plan.config.includedNetworks.map fun included => networkCount - included).getD 0
  let extraSeats := (plan.config.includedSeats.map fun included => seatCount - included).getD 0
  let subscription ← orFail "No active or trialing subscription found" (activeSubscription stripe (← get) customerId)
  let items := itemsToUpdate stripe plan extraSeats extraNetworks subscription.items
  if !items.isEmpty then
    updateSubscription stripe subscription items

end BillingService

end Netvisor
