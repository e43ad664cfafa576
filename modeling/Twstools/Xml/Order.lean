import Twstools.Xml.OrderFields
import Twstools.Xml.ContractDetails
import Twstools.Twsdo.Query
/-!
# Orders in xml

A job to place an order is written as a `query` element, with a child for
the contract and one for the order. It comes back exactly when its strings
have no NUL and, unless defaults are skipped, every price of the order is
given: the short form leaves out what the long form cannot write.
-/

namespace Twstools

/-- What the default constructors of the API make, those of orders
included. -/
structure OrderDefaults extends DetailsDefaults where
  orderComboLeg : OrderComboLeg
  order : Order

variable (skip : Bool) (name : String)

/-! ## Writing and reading -/

namespace OrderComboLeg

/-- `conv_ib2xml(parent, name, OrderComboLeg)`. -/
def convIb2xml (oCL dflt : OrderComboLeg) : XmlNode :=
  .element name (addAttrDouble skip "price" oCL.price dflt.price) []

/-- `conv_xml2ib(OrderComboLeg)`. -/
def convXml2ib (oCL : OrderComboLeg) (node : XmlNode) : OrderComboLeg where
  price := getAttrDouble node "price" oCL.price

end OrderComboLeg

namespace Order

/-- `conv_ib2xml(parent, name, Order)`. -/
def convIb2xml (api : OrderDefaults) (o : Order) : XmlNode :=
  let dflt := api.order
  .element name
    (o.toOrderTerms.addAttrs skip dflt.toOrderTerms ++
      o.toOrderRouting.addAttrs skip dflt.toOrderRouting ++
      o.toOrderVolatility.addAttrs skip dflt.toOrderVolatility ++
      o.toOrderScale.addAttrs skip dflt.toOrderScale ++
      o.toOrderPegged.addAttrs skip dflt.toOrderPegged)
    (addChildTagValueList skip "algoParams" o.algoParams api.tagValue ++
      addChildTagValueList skip "smartComboRoutingParams" o.smartComboRoutingParams
        api.tagValue ++
      (match o.orderComboLegs with
        | none => []
        | some legs => [.element "orderComboLegs" []
            (legs.map (·.convIb2xml skip "orderComboLeg" api.orderComboLeg))]) ++
      addChildTagValueList skip "orderMiscOptions" o.orderMiscOptions api.tagValue)

/-- The loop of `conv_xml2ib(Order)` over the children. -/
def readChild (api : OrderDefaults) (o : Order) (p : XmlNode) : Order :=
  if p.is "algoParams" then { o with algoParams := some (getChildTagValueList p api.tagValue) }
  else if p.is "smartComboRoutingParams" then
    { o with smartComboRoutingParams := some (getChildTagValueList p api.tagValue) }
  else if p.is "orderMiscOptions" then
    { o with orderMiscOptions := some (getChildTagValueList p api.tagValue) }
  else if p.is "orderComboLegs" then
    { o with
      orderComboLegs :=
        some ((p.children.filter (·.is "orderComboLeg")).map api.orderComboLeg.convXml2ib) }
  else o

/-- `conv_xml2ib(Order)`. -/
def convXml2ib (api : OrderDefaults) (o : Order) (node : XmlNode) : Order :=
  node.children.foldl (readChild api)
    { o with
      toOrderTerms := o.toOrderTerms.getAttrs node
      toOrderRouting := o.toOrderRouting.getAttrs node
      toOrderVolatility := o.toOrderVolatility.getAttrs node
      toOrderScale := o.toOrderScale.getAttrs node
      toOrderPegged := o.toOrderPegged.getAttrs node }

end Order

namespace PlaceOrder

/-- A new `PlaceOrder`. -/
def init (api : OrderDefaults) : PlaceOrder where
  orderId := 0
  time_sent := 0
  contract := api.contract
  order := api.order

/-- `to_xml(parent, PlaceOrder)`. -/
def toXml (api : OrderDefaults) (po : PlaceOrder) : XmlNode :=
  let dflt := init api
  .element "query"
    (addAttrLong skip "orderId" po.orderId dflt.orderId ++
      addAttrLongLong skip "time_sent" po.time_sent dflt.time_sent)
    [po.contract.convIb2xml skip "contract" api.toApiDefaults,
      po.order.convIb2xml skip "order" api]

/-- The loop of `from_xml(PlaceOrder)` over the children. -/
def readChild (api : OrderDefaults) (po : PlaceOrder) (p : XmlNode) : PlaceOrder :=
  if p.is "contract" then { po with contract := po.contract.convXml2ib api.toApiDefaults p }
  else if p.is "order" then { po with order := po.order.convXml2ib api p }
  else po

/-- `from_xml(PlaceOrder)`. -/
def fromXml (api : OrderDefaults) (po : PlaceOrder) (node : XmlNode) : PlaceOrder :=
  let po := node.children.foldl (readChild api) po
  { po with
    orderId := getAttrLong node "orderId" po.orderId
    time_sent := getAttrLongLong node "time_sent" po.time_sent }

end PlaceOrder

/-! ## What comes back -/

/-- The numbers are of their types, and the doubles defaults or short. -/
structure Order.Exact (api : OrderDefaults) (o : Order) : Prop where
  terms : o.toOrderTerms.Exact api.order.toOrderTerms
  routing : o.toOrderRouting.Exact api.order.toOrderRouting
  volatility : o.toOrderVolatility.Exact api.order.toOrderVolatility
  scale : o.toOrderScale.Exact api.order.toOrderScale
  pegged : o.toOrderPegged.Exact api.order.toOrderPegged
  orderComboLegs : ∀ legs ∈ o.orderComboLegs, ∀ oCL ∈ legs,
    oCL.price.Usual api.orderComboLeg.price

/-- The strings have no NUL, and the doubles are given unless they are left
out. -/
@[mk_iff] structure Order.Kept (o : Order) : Prop where
  terms : o.toOrderTerms.Kept skip
  routing : o.toOrderRouting.Kept skip
  volatility : o.toOrderVolatility.Kept skip
  scale : o.toOrderScale.Kept skip
  pegged : o.toOrderPegged.Kept skip
  algoParams : ∀ l ∈ o.algoParams, ∀ tV ∈ l, tV.Clean
  smartComboRoutingParams : ∀ l ∈ o.smartComboRoutingParams, ∀ tV ∈ l, tV.Clean
  orderComboLegs : ∀ legs ∈ o.orderComboLegs, ∀ oCL ∈ legs, oCL.price.Given skip
  orderMiscOptions : ∀ l ∈ o.orderMiscOptions, ∀ tV ∈ l, tV.Clean

/-- What the API promises about a new order: strings without NUL, doubles
unset or short, and null pointers. -/
structure OrderDefaults.Proper (api : OrderDefaults) : Prop
    extends details : api.toDetailsDefaults.Proper where
  orderComboLeg : api.orderComboLeg.price.Default
  terms : api.order.toOrderTerms.Proper
  routing : api.order.toOrderRouting.Proper
  volatility : api.order.toOrderVolatility.Proper
  scale : api.order.toOrderScale.Proper
  pegged : api.order.toOrderPegged.Proper
  algoParams : api.order.algoParams = none
  smartComboRoutingParams : api.order.smartComboRoutingParams = none
  orderComboLegs : api.order.orderComboLegs = none
  orderMiscOptions : api.order.orderMiscOptions = none

/-- The numbers are of their types, and the doubles defaults or short. -/
structure PlaceOrder.Exact (api : OrderDefaults) (po : PlaceOrder) : Prop where
  orderId : InLong po.orderId
  time_sent : InLong po.time_sent
  contract : po.contract.Exact
  order : po.order.Exact api

/-- The strings have no NUL, and the doubles of the order are given unless
they are left out. -/
@[mk_iff] structure PlaceOrder.Kept (po : PlaceOrder) : Prop where
  contract : po.contract.Clean
  order : po.order.Kept skip

variable {skip name} {api : OrderDefaults}

/-- A leg comes back exactly when its price is given. -/
theorem OrderComboLeg.read_write {dflt oCL : OrderComboLeg} (he : oCL.price.Usual dflt.price)
    (hd : dflt.price.Default) :
    dflt.convXml2ib (oCL.convIb2xml skip name dflt) = oCL ↔ oCL.price.Given skip := by
  rw [OrderComboLeg.ext_iff]
  simp only [convIb2xml, convXml2ib, getAttrDouble, addAttrDouble, XmlNode.prop, lookup_newAttr,
    if_true]
  exact double_given he hd

namespace Order

/-- An order is its groups of fields and its four lists. -/
theorem eq_iff {o o' : Order} : o = o' ↔ o.toOrderTerms = o'.toOrderTerms ∧
    o.toOrderRouting = o'.toOrderRouting ∧ o.toOrderVolatility = o'.toOrderVolatility ∧
    o.toOrderScale = o'.toOrderScale ∧ o.toOrderPegged = o'.toOrderPegged ∧
    o.algoParams = o'.algoParams ∧ o.smartComboRoutingParams = o'.smartComboRoutingParams ∧
    o.orderComboLegs = o'.orderComboLegs ∧ o.orderMiscOptions = o'.orderMiscOptions := by
  cases o
  cases o'
  rw [Order.mk.injEq]

/-- The legs are read from their elements, one by one. -/
theorem readChild_orderComboLegs {o : Order} {legs : List OrderComboLeg} :
    o.readChild api (.element "orderComboLegs" []
      (legs.map (·.convIb2xml skip "orderComboLeg" api.orderComboLeg))) =
      { o with orderComboLegs := some (legs.map fun oCL =>
          api.orderComboLeg.convXml2ib
            (oCL.convIb2xml skip "orderComboLeg" api.orderComboLeg)) } := by
  have hall : (legs.map (·.convIb2xml skip "orderComboLeg" api.orderComboLeg)).filter
      (·.is "orderComboLeg") =
        legs.map (·.convIb2xml skip "orderComboLeg" api.orderComboLeg) := by
    rw [List.filter_eq_self]
    intro node hnode
    obtain ⟨oCL, -, rfl⟩ := List.mem_map.1 hnode
    simp [OrderComboLeg.convIb2xml, XmlNode.is]
  have h : ∀ cs, (XmlNode.element "orderComboLegs" [] cs).is "orderComboLegs" = true :=
    fun cs => by simp [XmlNode.is]
  rw [readChild, XmlNode.is_ne (h _) (by decide), if_neg (by decide),
    XmlNode.is_ne (h _) (by decide), if_neg (by decide), XmlNode.is_ne (h _) (by decide),
    if_neg (by decide), if_pos (h _), XmlNode.children, hall, List.map_map]
  rfl

/-! A list of tags is read into the field of its element. -/

theorem foldl_algoParams {o : Order} {l : Option (List TagValue)} (h : o.algoParams = none) :
    (addChildTagValueList skip "algoParams" l api.tagValue).foldl (readChild api) o =
      { o with algoParams := l.map (·.map fun tV =>
          api.tagValue.convXml2ib (tV.convIb2xml skip "tagValue" api.tagValue)) } := by
  refine foldl_addChildTagValueList (g := fun l => { o with algoParams := l }) (by rw [← h]) ?_
  intro p hp
  rw [readChild, if_pos hp]

theorem foldl_smartComboRoutingParams {o : Order} {l : Option (List TagValue)}
    (h : o.smartComboRoutingParams = none) :
    (addChildTagValueList skip "smartComboRoutingParams" l api.tagValue).foldl (readChild api) o =
      { o with smartComboRoutingParams := l.map (·.map fun tV =>
          api.tagValue.convXml2ib (tV.convIb2xml skip "tagValue" api.tagValue)) } := by
  refine foldl_addChildTagValueList (g := fun l => { o with smartComboRoutingParams := l })
    (by rw [← h]) ?_
  intro p hp
  rw [readChild, XmlNode.is_ne hp (by decide), if_neg (by decide), if_pos hp]

theorem foldl_orderMiscOptions {o : Order} {l : Option (List TagValue)}
    (h : o.orderMiscOptions = none) :
    (addChildTagValueList skip "orderMiscOptions" l api.tagValue).foldl (readChild api) o =
      { o with orderMiscOptions := l.map (·.map fun tV =>
          api.tagValue.convXml2ib (tV.convIb2xml skip "tagValue" api.tagValue)) } := by
  refine foldl_addChildTagValueList (g := fun l => { o with orderMiscOptions := l })
    (by rw [← h]) ?_
  intro p hp
  rw [readChild, XmlNode.is_ne hp (by decide), if_neg (by decide), XmlNode.is_ne hp (by decide),
    if_neg (by decide), if_pos hp]

/-- What the children of a written order are read as. -/
theorem readChildren {o o₀ : Order} (ha : o₀.algoParams = none)
    (hs : o₀.smartComboRoutingParams = none) (hl : o₀.orderComboLegs = none)
    (hm : o₀.orderMiscOptions = none) :
    (convIb2xml skip name api o).children.foldl (readChild api) o₀ =
      { o₀ with
        algoParams := o.algoParams.map (·.map fun tV =>
          api.tagValue.convXml2ib (tV.convIb2xml skip "tagValue" api.tagValue))
        smartComboRoutingParams := o.smartComboRoutingParams.map (·.map fun tV =>
          api.tagValue.convXml2ib (tV.convIb2xml skip "tagValue" api.tagValue))
        orderComboLegs := o.orderComboLegs.map (·.map fun oCL =>
          api.orderComboLeg.convXml2ib (oCL.convIb2xml skip "orderComboLeg" api.orderComboLeg))
        orderMiscOptions := o.orderMiscOptions.map (·.map fun tV =>
          api.tagValue.convXml2ib (tV.convIb2xml skip "tagValue" api.tagValue)) } := by
  simp only [convIb2xml, XmlNode.children, List.foldl_append]
  rw [foldl_algoParams ha, foldl_smartComboRoutingParams (by exact hs)]
  cases o.orderComboLegs with
  | none => rw [List.foldl_nil, foldl_orderMiscOptions (by exact hm), Option.map_none, ← hl]
  | some legs =>
      rw [List.foldl_cons, List.foldl_nil, readChild_orderComboLegs,
        foldl_orderMiscOptions (by exact hm), Option.map_some]

/-- No two attributes have the same name. -/
theorem names_nodup : (OrderTerms.names ++ OrderRouting.names ++ OrderVolatility.names ++
    OrderScale.names ++ OrderPegged.names).Nodup := by
  decide +kernel

/-- A name belongs to one group. -/
theorem names_apart (n : String) :
    (n ∈ OrderTerms.names → n ∉ OrderRouting.names ∧ n ∉ OrderVolatility.names ∧
      n ∉ OrderScale.names ∧ n ∉ OrderPegged.names) ∧
    (n ∈ OrderRouting.names → n ∉ OrderVolatility.names ∧ n ∉ OrderScale.names ∧
      n ∉ OrderPegged.names) ∧
    (n ∈ OrderVolatility.names → n ∉ OrderScale.names ∧ n ∉ OrderPegged.names) ∧
    (n ∈ OrderScale.names → n ∉ OrderPegged.names) := by
  have h := names_nodup
  simp only [List.nodup_append, List.mem_append, ne_eq] at h
  grind

/-- **An order comes back exactly when it is kept.** -/
theorem read_write {o : Order} (he : o.Exact api) (hp : api.Proper) :
    api.order.convXml2ib api (convIb2xml skip name api o) = o ↔ o.Kept skip := by
  have hlegs : o.orderComboLegs.map (·.map fun oCL => api.orderComboLeg.convXml2ib
      (oCL.convIb2xml skip "orderComboLeg" api.orderComboLeg)) = o.orderComboLegs ↔
        ∀ legs ∈ o.orderComboLegs, ∀ oCL ∈ legs, oCL.price.Given skip := by
    cases hc : o.orderComboLegs with
    | none => simp
    | some legs =>
        simp only [Option.map_some, Option.some.injEq, map_eq_self_iff, Option.mem_def,
          forall_eq']
        exact forall₂_congr fun oCL hm =>
          OrderComboLeg.read_write (he.orderComboLegs legs hc oCL hm) hp.orderComboLeg
  rw [convXml2ib, readChildren (by exact hp.algoParams) (by exact hp.smartComboRoutingParams)
    (by exact hp.orderComboLegs) (by exact hp.orderMiscOptions), eq_iff, kept_iff]
  dsimp only
  rw [convIb2xml, hlegs, tagValueList_kept hp.details.tagValue,
    tagValueList_kept hp.details.tagValue, tagValueList_kept hp.details.tagValue]
  rw [OrderTerms.read_write he.terms hp.terms, OrderRouting.read_write he.routing hp.routing,
    OrderVolatility.read_write he.volatility hp.volatility,
    OrderScale.read_write he.scale hp.scale, OrderPegged.read_write he.pegged hp.pegged]
  all_goals
    -- an attribute is found in the one group that has its name
    intro n hn
    obtain ⟨hT, hR, hV, hS⟩ := names_apart n
    simp only [List.lookup_append]
    grind [OrderTerms.lookup_addAttrs, OrderRouting.lookup_addAttrs,
      OrderVolatility.lookup_addAttrs, OrderScale.lookup_addAttrs, OrderPegged.lookup_addAttrs]

end Order

namespace PlaceOrder

/-- What a written job is read as. -/
theorem fromXml_toXml {po : PlaceOrder} :
    fromXml api (init api) (po.toXml skip api) =
      { orderId := (written skip toString po.orderId 0).elim 0 atol
        time_sent := (written skip toString po.time_sent 0).elim 0 atoll
        contract := api.contract.convXml2ib api.toApiDefaults
          (po.contract.convIb2xml skip "contract" api.toApiDefaults)
        order := api.order.convXml2ib api (po.order.convIb2xml skip "order" api) } := by
  have hcontract : ∀ po₁ : PlaceOrder, po₁.readChild api
      (po.contract.convIb2xml skip "contract" api.toApiDefaults) =
        { po₁ with
          contract := po₁.contract.convXml2ib api.toApiDefaults
            (po.contract.convIb2xml skip "contract" api.toApiDefaults) } := fun po₁ =>
    if_pos (by simp [Contract.convIb2xml, XmlNode.is])
  have horder : ∀ po₁ : PlaceOrder, po₁.readChild api
      (po.order.convIb2xml skip "order" api) =
        { po₁ with
          order := po₁.order.convXml2ib api
            (po.order.convIb2xml skip "order" api) } := fun po₁ => by
    rw [readChild, if_neg (by simp [Order.convIb2xml, XmlNode.is]),
      if_pos (by simp [Order.convIb2xml, XmlNode.is])]
  simp only [fromXml, toXml, XmlNode.children, List.foldl_cons, List.foldl_nil, hcontract, horder,
    getAttrLong, getAttrLongLong, addAttrLong, addAttrLongLong, XmlNode.prop,
    List.lookup_append, lookup_newAttr, String.reduceEq, if_true, if_false, Option.or_none,
    Option.none_or, init]

/-- **Orders survive writing and reading exactly when** no string has a NUL
and, unless defaults are skipped, no double of the order is unset. -/
theorem orders_survive_iff (hp : api.Proper) {po : PlaceOrder} (he : po.Exact api) :
    fromXml api (init api) (po.toXml skip api) = po ↔ po.Kept skip := by
  rw [fromXml_toXml, PlaceOrder.ext_iff, kept_iff, long_kept he.orderId,
    longLong_kept he.time_sent, Contract.read_write he.contract hp.details.toProper,
    Order.read_write he.order hp]
  simp only [true_and]

open PacketContractDetails in
/-- An API as it comes: zeros and empty strings, and prices that are not
given. -/
def unsetApi : OrderDefaults where
  toDetailsDefaults := zeroDetailsApi
  orderComboLeg := {}
  order := {}

theorem default_unset : UNSET_DOUBLE.Default := .inl rfl

theorem default_zero : (0 : Double).Default :=
  .inr (.finite (by decide +kernel) ⟨0, 0, by decide, by decide +kernel⟩)

open PacketContractDetails in
theorem unsetApi_proper : unsetApi.Proper where
  details := zeroDetailsApi_proper
  orderComboLeg := .inl rfl
  terms := by
    constructor <;> simp only [unsetApi, default_unset, default_zero] <;> decide
  routing := by
    constructor <;> simp only [unsetApi, default_unset, default_zero] <;> decide
  volatility := by
    constructor <;> simp only [unsetApi, default_unset] <;> decide
  scale := by
    constructor <;> simp only [unsetApi, default_unset] <;> decide
  pegged := by
    constructor <;> simp only [unsetApi, default_unset, default_zero] <;> decide
  algoParams := rfl
  smartComboRoutingParams := rfl
  orderComboLegs := rfl
  orderMiscOptions := rfl

/-- A limit order: its other prices are unset. -/
def limitOrder : PlaceOrder where
  orderId := 7
  contract := { symbol := "IBM", secType := "STK", exchange := "SMART" }
  order := { action := "BUY", totalQuantity := 100, orderType := "LMT",
             lmtPrice := .finite ((1015 : ℕ) / 10 ^ 1) }

theorem limitOrder_exact : limitOrder.Exact unsetApi where
  orderId := by decide
  time_sent := by decide
  contract := ⟨by decide, by decide +kernel, by simp [limitOrder], by simp [limitOrder]⟩
  order :=
    { terms := by
        constructor
        case totalQuantity =>
          exact .inr (.finite (by decide +kernel) ⟨100, 0, by decide, by decide +kernel⟩)
        case lmtPrice => exact .inr (Double.short_of_digits (by decide) 1)
        all_goals first | decide | exact .inl rfl
      routing := by constructor <;> first | decide | exact .inl rfl
      volatility := by constructor <;> first | decide | exact .inl rfl
      scale := by constructor <;> first | decide | exact .inl rfl
      pegged := by constructor <;> first | decide | exact .inl rfl
      orderComboLegs := by simp [limitOrder] }

theorem limitOrder_kept : limitOrder.Kept true where
  contract := by constructor <;> first | decide | simp [limitOrder]
  order :=
    { terms := by constructor <;> first | decide | exact .inl rfl
      routing := by constructor <;> first | decide | exact .inl rfl
      volatility := by constructor <;> first | decide | exact .inl rfl
      scale := by constructor <;> first | decide | exact .inl rfl
      pegged := by constructor <;> first | decide | exact .inl rfl
      algoParams := by simp [limitOrder]
      smartComboRoutingParams := by simp [limitOrder]
      orderComboLegs := by simp [limitOrder]
      orderMiscOptions := by simp [limitOrder] }

/-- The short form of a limit order survives. -/
theorem orders_survive_short :
    fromXml unsetApi (init unsetApi) (limitOrder.toXml true unsetApi) = limitOrder :=
  (orders_survive_iff unsetApi_proper limitOrder_exact).2 limitOrder_kept

/-- Its long form gives it a stop price, and an infinite one. -/
theorem unset_price_infinite :
    (fromXml unsetApi (init unsetApi) (limitOrder.toXml false unsetApi)).order.trailStopPrice =
        .inf false ∧
      fromXml unsetApi (init unsetApi) (limitOrder.toXml false unsetApi) ≠ limitOrder := by
  decide +kernel

end PlaceOrder

end Twstools
