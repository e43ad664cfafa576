import Twstools.Xml.Node
import Twstools.Api.Order
import Twstools.Clib.Digits
import Mathlib.Tactic.MkIffOfInductiveProp
/-!
# The fields of an order in xml

The attributes of an order, one group of fields after the other. A string
comes back exactly when it has no NUL, and a double with ten digits always
does. The double that stands for a price that is not given comes back only
where it is left out: written with ten digits it is rounded up, and no
double is that large.
-/

namespace Twstools

/-! ## Doubles that may be unset -/

namespace Double

/-- What is left at its default, or has ten digits. -/
def Usual (x dflt : Double) : Prop := x = dflt ∨ x.Short

/-- What the API has for a default: the unset double, or ten digits. -/
def Default (x : Double) : Prop := x = UNSET_DOUBLE ∨ x.Short

/-- It is not unset, unless it need not be written then. -/
def Given (skip : Bool) (x : Double) : Prop := skip = true ∨ x ≠ UNSET_DOUBLE

end Double

/-- **The unset double does not read back.** -/
theorem unset_not_exact : ¬ UNSET_DOUBLE.PrintsExactly := by decide +kernel

theorem double_given {skip : Bool} {r u : Double} (h : r.Usual u) (hu : u.Default) :
    (written skip Double.printG10 r u).elim u Double.atof = r ↔ r.Given skip := by
  have hshort : ∀ {x : Double}, x.Short → x ≠ UNSET_DOUBLE ∧ x.PrintsExactly := fun hx =>
    ⟨fun he => unset_not_exact (he ▸ Double.printsExactly_of_short hx),
      Double.printsExactly_of_short hx⟩
  rcases h with rfl | h
  · rcases hu with rfl | hu
    · -- an unset double is kept only where it is not written
      cases skip with
      | false => simpa [written, Double.Given, Double.PrintsExactly] using unset_not_exact
      | true => simp [written, Double.Given]
    · exact ⟨fun _ => .inr (hshort hu).1, fun _ => double_kept (hshort hu).2⟩
  · exact ⟨fun _ => .inr (hshort h).1, fun _ => double_kept (hshort h).2⟩

section Write

variable (skip : Bool)

/-! ## Writing and reading -/

namespace OrderTerms

/-- The attributes of these fields, as `conv_ib2xml(Order)` writes them. -/
def addAttrs (o dflt : OrderTerms) : List (String × String) :=
  addAttrLong skip "orderId" o.orderId dflt.orderId ++
    addAttrLong skip "clientId" o.clientId dflt.clientId ++
    addAttrInt skip "permId" o.permId dflt.permId ++
    addAttrString skip "action" o.action dflt.action ++
    addAttrDouble skip "totalQuantity" o.totalQuantity dflt.totalQuantity ++
    addAttrString skip "orderType" o.orderType dflt.orderType ++
    addAttrDouble skip "lmtPrice" o.lmtPrice dflt.lmtPrice ++
    addAttrDouble skip "auxPrice" o.auxPrice dflt.auxPrice ++
    addAttrString skip "tif" o.tif dflt.tif ++
    addAttrString skip "ocaGroup" o.ocaGroup dflt.ocaGroup ++
    addAttrString skip "activeStartTime" o.activeStartTime dflt.activeStartTime ++
    addAttrString skip "activeStopTime" o.activeStopTime dflt.activeStopTime ++
    addAttrInt skip "ocaType" o.ocaType dflt.ocaType ++
    addAttrString skip "orderRef" o.orderRef dflt.orderRef ++
    addAttrBool skip "transmit" o.transmit dflt.transmit ++
    addAttrLong skip "parentId" o.parentId dflt.parentId ++
    addAttrBool skip "blockOrder" o.blockOrder dflt.blockOrder ++
    addAttrBool skip "sweepToFill" o.sweepToFill dflt.sweepToFill ++
    addAttrInt skip "displaySize" o.displaySize dflt.displaySize ++
    addAttrInt skip "triggerMethod" o.triggerMethod dflt.triggerMethod ++
    addAttrBool skip "outsideRth" o.outsideRth dflt.outsideRth ++
    addAttrBool skip "hidden" o.hidden dflt.hidden ++
    addAttrString skip "goodAfterTime" o.goodAfterTime dflt.goodAfterTime ++
    addAttrString skip "goodTillDate" o.goodTillDate dflt.goodTillDate ++
    addAttrString skip "rule80A" o.rule80A dflt.rule80A ++
    addAttrBool skip "allOrNone" o.allOrNone dflt.allOrNone ++
    addAttrInt skip "minQty" o.minQty dflt.minQty ++
    addAttrDouble skip "percentOffset" o.percentOffset dflt.percentOffset ++
    addAttrBool skip "overridePercentageConstraints" o.overridePercentageConstraints
      dflt.overridePercentageConstraints ++
    addAttrDouble skip "trailStopPrice" o.trailStopPrice dflt.trailStopPrice ++
    addAttrDouble skip "trailingPercent" o.trailingPercent dflt.trailingPercent

/-- The fields, as `conv_xml2ib(Order)` reads them. -/
def getAttrs (o : OrderTerms) (node : XmlNode) : OrderTerms where
  orderId := getAttrLong node "orderId" o.orderId
  clientId := getAttrLong node "clientId" o.clientId
  permId := getAttrInt node "permId" o.permId
  action := getAttrString node "action" o.action
  totalQuantity := getAttrDouble node "totalQuantity" o.totalQuantity
  orderType := getAttrString node "orderType" o.orderType
  lmtPrice := getAttrDouble node "lmtPrice" o.lmtPrice
  auxPrice := getAttrDouble node "auxPrice" o.auxPrice
  tif := getAttrString node "tif" o.tif
  activeStartTime := getAttrString node "activeStartTime" o.activeStartTime
  activeStopTime := getAttrString node "activeStopTime" o.activeStopTime
  ocaGroup := getAttrString node "ocaGroup" o.ocaGroup
  ocaType := getAttrInt node "ocaType" o.ocaType
  orderRef := getAttrString node "orderRef" o.orderRef
  transmit := getAttrBool node "transmit" o.transmit
  parentId := getAttrLong node "parentId" o.parentId
  blockOrder := getAttrBool node "blockOrder" o.blockOrder
  sweepToFill := getAttrBool node "sweepToFill" o.sweepToFill
  displaySize := getAttrInt node "displaySize" o.displaySize
  triggerMethod := getAttrInt node "triggerMethod" o.triggerMethod
  outsideRth := getAttrBool node "outsideRth" o.outsideRth
  hidden := getAttrBool node "hidden" o.hidden
  goodAfterTime := getAttrString node "goodAfterTime" o.goodAfterTime
  goodTillDate := getAttrString node "goodTillDate" o.goodTillDate
  rule80A := getAttrString node "rule80A" o.rule80A
  allOrNone := getAttrBool node "allOrNone" o.allOrNone
  minQty := getAttrInt node "minQty" o.minQty
  percentOffset := getAttrDouble node "percentOffset" o.percentOffset
  overridePercentageConstraints :=
    getAttrBool node "overridePercentageConstraints" o.overridePercentageConstraints
  trailStopPrice := getAttrDouble node "trailStopPrice" o.trailStopPrice
  trailingPercent := getAttrDouble node "trailingPercent" o.trailingPercent

end OrderTerms

namespace OrderRouting

/-- The attributes of these fields, as `conv_ib2xml(Order)` writes them. -/
def addAttrs (o dflt : OrderRouting) : List (String × String) :=
  addAttrString skip "faGroup" o.faGroup dflt.faGroup ++
    addAttrString skip "faProfile" o.faProfile dflt.faProfile ++
    addAttrString skip "faMethod" o.faMethod dflt.faMethod ++
    addAttrString skip "faPercentage" o.faPercentage dflt.faPercentage ++
    addAttrString skip "openClose" o.openClose dflt.openClose ++
    addAttrInt skip "origin" o.origin dflt.origin ++
    addAttrInt skip "shortSaleSlot" o.shortSaleSlot dflt.shortSaleSlot ++
    addAttrString skip "designatedLocation" o.designatedLocation dflt.designatedLocation ++
    addAttrInt skip "exemptCode" o.exemptCode dflt.exemptCode ++
    addAttrDouble skip "discretionaryAmt" o.discretionaryAmt dflt.discretionaryAmt ++
    addAttrBool skip "eTradeOnly" o.eTradeOnly dflt.eTradeOnly ++
    addAttrBool skip "firmQuoteOnly" o.firmQuoteOnly dflt.firmQuoteOnly ++
    addAttrDouble skip "nbboPriceCap" o.nbboPriceCap dflt.nbboPriceCap ++
    addAttrBool skip "optOutSmartRouting" o.optOutSmartRouting dflt.optOutSmartRouting ++
    addAttrInt skip "auctionStrategy" o.auctionStrategy dflt.auctionStrategy ++
    addAttrDouble skip "startingPrice" o.startingPrice dflt.startingPrice ++
    addAttrDouble skip "stockRefPrice" o.stockRefPrice dflt.stockRefPrice ++
    addAttrDouble skip "delta" o.delta dflt.delta ++
    addAttrDouble skip "stockRangeLower" o.stockRangeLower dflt.stockRangeLower ++
    addAttrDouble skip "stockRangeUpper" o.stockRangeUpper dflt.stockRangeUpper ++
    addAttrBool skip "randomizeSize" o.randomizeSize dflt.randomizeSize ++
    addAttrBool skip "randomizePrice" o.randomizePrice dflt.randomizePrice

/-- The fields, as `conv_xml2ib(Order)` reads them. -/
def getAttrs (o : OrderRouting) (node : XmlNode) : OrderRouting where
  faGroup := getAttrString node "faGroup" o.faGroup
  faProfile := getAttrString node "faProfile" o.faProfile
  faMethod := getAttrString node "faMethod" o.faMethod
  faPercentage := getAttrString node "faPercentage" o.faPercentage
  openClose := getAttrString node "openClose" o.openClose
  origin := getAttrInt node "origin" o.origin
  shortSaleSlot := getAttrInt node "shortSaleSlot" o.shortSaleSlot
  designatedLocation := getAttrString node "designatedLocation" o.designatedLocation
  exemptCode := getAttrInt node "exemptCode" o.exemptCode
  discretionaryAmt := getAttrDouble node "discretionaryAmt" o.discretionaryAmt
  eTradeOnly := getAttrBool node "eTradeOnly" o.eTradeOnly
  firmQuoteOnly := getAttrBool node "firmQuoteOnly" o.firmQuoteOnly
  nbboPriceCap := getAttrDouble node "nbboPriceCap" o.nbboPriceCap
  optOutSmartRouting := getAttrBool node "optOutSmartRouting" o.optOutSmartRouting
  auctionStrategy := getAttrInt node "auctionStrategy" o.auctionStrategy
  startingPrice := getAttrDouble node "startingPrice" o.startingPrice
  stockRefPrice := getAttrDouble node "stockRefPrice" o.stockRefPrice
  delta := getAttrDouble node "delta" o.delta
  stockRangeLower := getAttrDouble node "stockRangeLower" o.stockRangeLower
  stockRangeUpper := getAttrDouble node "stockRangeUpper" o.stockRangeUpper
  randomizeSize := getAttrBool node "randomizeSize" o.randomizeSize
  randomizePrice := getAttrBool node "randomizePrice" o.randomizePrice

end OrderRouting

namespace OrderVolatility

/-- The attributes of these fields, as `conv_ib2xml(Order)` writes them. -/
def addAttrs (o dflt : OrderVolatility) : List (String × String) :=
  addAttrDouble skip "volatility" o.volatility dflt.volatility ++
    addAttrInt skip "volatilityType" o.volatilityType dflt.volatilityType ++
    addAttrString skip "deltaNeutralOrderType" o.deltaNeutralOrderType dflt.deltaNeutralOrderType ++
    addAttrDouble skip "deltaNeutralAuxPrice" o.deltaNeutralAuxPrice dflt.deltaNeutralAuxPrice ++
    addAttrLong skip "deltaNeutralConId" o.deltaNeutralConId dflt.deltaNeutralConId ++
    addAttrString skip "deltaNeutralSettlingFirm" o.deltaNeutralSettlingFirm
      dflt.deltaNeutralSettlingFirm ++
    addAttrString skip "deltaNeutralClearingAccount" o.deltaNeutralClearingAccount
      dflt.deltaNeutralClearingAccount ++
    addAttrString skip "deltaNeutralClearingIntent" o.deltaNeutralClearingIntent
      dflt.deltaNeutralClearingIntent ++
    addAttrString skip "deltaNeutralOpenClose" o.deltaNeutralOpenClose dflt.deltaNeutralOpenClose ++
    addAttrBool skip "deltaNeutralShortSale" o.deltaNeutralShortSale dflt.deltaNeutralShortSale ++
    addAttrInt skip "deltaNeutralShortSaleSlot" o.deltaNeutralShortSaleSlot
      dflt.deltaNeutralShortSaleSlot ++
    addAttrString skip "deltaNeutralDesignatedLocation" o.deltaNeutralDesignatedLocation
      dflt.deltaNeutralDesignatedLocation ++
    addAttrBool skip "continuousUpdate" o.continuousUpdate dflt.continuousUpdate ++
    addAttrInt skip "referencePriceType" o.referencePriceType dflt.referencePriceType ++
    addAttrDouble skip "basisPoints" o.basisPoints dflt.basisPoints ++
    addAttrInt skip "basisPointsType" o.basisPointsType dflt.basisPointsType

/-- The fields, as `conv_xml2ib(Order)` reads them. -/
def getAttrs (o : OrderVolatility) (node : XmlNode) : OrderVolatility where
  volatility := getAttrDouble node "volatility" o.volatility
  volatilityType := getAttrInt node "volatilityType" o.volatilityType
  deltaNeutralOrderType := getAttrString node "deltaNeutralOrderType" o.deltaNeutralOrderType
  deltaNeutralAuxPrice := getAttrDouble node "deltaNeutralAuxPrice" o.deltaNeutralAuxPrice
  deltaNeutralConId := getAttrLong node "deltaNeutralConId" o.deltaNeutralConId
  deltaNeutralSettlingFirm :=
    getAttrString node "deltaNeutralSettlingFirm" o.deltaNeutralSettlingFirm
  deltaNeutralClearingAccount :=
    getAttrString node "deltaNeutralClearingAccount" o.deltaNeutralClearingAccount
  deltaNeutralClearingIntent :=
    getAttrString node "deltaNeutralClearingIntent" o.deltaNeutralClearingIntent
  deltaNeutralOpenClose := getAttrString node "deltaNeutralOpenClose" o.deltaNeutralOpenClose
  deltaNeutralShortSale := getAttrBool node "deltaNeutralShortSale" o.deltaNeutralShortSale
  deltaNeutralShortSaleSlot :=
    getAttrInt node "deltaNeutralShortSaleSlot" o.deltaNeutralShortSaleSlot
  deltaNeutralDesignatedLocation :=
    getAttrString node "deltaNeutralDesignatedLocation" o.deltaNeutralDesignatedLocation
  continuousUpdate := getAttrBool node "continuousUpdate" o.continuousUpdate
  referencePriceType := getAttrInt node "referencePriceType" o.referencePriceType
  basisPoints := getAttrDouble node "basisPoints" o.basisPoints
  basisPointsType := getAttrInt node "basisPointsType" o.basisPointsType

end OrderVolatility

namespace OrderScale

/-- The attributes of these fields, as `conv_ib2xml(Order)` writes them. -/
def addAttrs (o dflt : OrderScale) : List (String × String) :=
  addAttrInt skip "scaleInitLevelSize" o.scaleInitLevelSize dflt.scaleInitLevelSize ++
    addAttrInt skip "scaleSubsLevelSize" o.scaleSubsLevelSize dflt.scaleSubsLevelSize ++
    addAttrDouble skip "scalePriceIncrement" o.scalePriceIncrement dflt.scalePriceIncrement ++
    addAttrDouble skip "scalePriceAdjustValue" o.scalePriceAdjustValue dflt.scalePriceAdjustValue ++
    addAttrInt skip "scalePriceAdjustInterval" o.scalePriceAdjustInterval
      dflt.scalePriceAdjustInterval ++
    addAttrDouble skip "scaleProfitOffset" o.scaleProfitOffset dflt.scaleProfitOffset ++
    addAttrBool skip "scaleAutoReset" o.scaleAutoReset dflt.scaleAutoReset ++
    addAttrInt skip "scaleInitPosition" o.scaleInitPosition dflt.scaleInitPosition ++
    addAttrInt skip "scaleInitFillQty" o.scaleInitFillQty dflt.scaleInitFillQty ++
    addAttrBool skip "scaleRandomPercent" o.scaleRandomPercent dflt.scaleRandomPercent ++
    addAttrString skip "scaleTable" o.scaleTable dflt.scaleTable ++
    addAttrString skip "hedgeType" o.hedgeType dflt.hedgeType ++
    addAttrString skip "hedgeParam" o.hedgeParam dflt.hedgeParam ++
    addAttrString skip "account" o.account dflt.account ++
    addAttrString skip "settlingFirm" o.settlingFirm dflt.settlingFirm ++
    addAttrString skip "clearingAccount" o.clearingAccount dflt.clearingAccount ++
    addAttrString skip "clearingIntent" o.clearingIntent dflt.clearingIntent ++
    addAttrString skip "algoStrategy" o.algoStrategy dflt.algoStrategy ++
    addAttrString skip "algoId" o.algoId dflt.algoId ++
    addAttrBool skip "whatIf" o.whatIf dflt.whatIf ++
    addAttrBool skip "notHeld" o.notHeld dflt.notHeld ++
    addAttrBool skip "solicited" o.solicited dflt.solicited ++
    addAttrString skip "modelCode" o.modelCode dflt.modelCode

/-- The fields, as `conv_xml2ib(Order)` reads them. -/
def getAttrs (o : OrderScale) (node : XmlNode) : OrderScale where
  scaleInitLevelSize := getAttrInt node "scaleInitLevelSize" o.scaleInitLevelSize
  scaleSubsLevelSize := getAttrInt node "scaleSubsLevelSize" o.scaleSubsLevelSize
  scalePriceIncrement := getAttrDouble node "scalePriceIncrement" o.scalePriceIncrement
  scalePriceAdjustValue := getAttrDouble node "scalePriceAdjustValue" o.scalePriceAdjustValue
  scalePriceAdjustInterval := getAttrInt node "scalePriceAdjustInterval" o.scalePriceAdjustInterval
  scaleProfitOffset := getAttrDouble node "scaleProfitOffset" o.scaleProfitOffset
  scaleAutoReset := getAttrBool node "scaleAutoReset" o.scaleAutoReset
  scaleInitPosition := getAttrInt node "scaleInitPosition" o.scaleInitPosition
  scaleInitFillQty := getAttrInt node "scaleInitFillQty" o.scaleInitFillQty
  scaleRandomPercent := getAttrBool node "scaleRandomPercent" o.scaleRandomPercent
  scaleTable := getAttrString node "scaleTable" o.scaleTable
  hedgeType := getAttrString node "hedgeType" o.hedgeType
  hedgeParam := getAttrString node "hedgeParam" o.hedgeParam
  account := getAttrString node "account" o.account
  settlingFirm := getAttrString node "settlingFirm" o.settlingFirm
  clearingAccount := getAttrString node "clearingAccount" o.clearingAccount
  clearingIntent := getAttrString node "clearingIntent" o.clearingIntent
  algoStrategy := getAttrString node "algoStrategy" o.algoStrategy
  algoId := getAttrString node "algoId" o.algoId
  whatIf := getAttrBool node "whatIf" o.whatIf
  notHeld := getAttrBool node "notHeld" o.notHeld
  solicited := getAttrBool node "solicited" o.solicited
  modelCode := getAttrString node "modelCode" o.modelCode

end OrderScale

namespace OrderPegged

/-- The attributes of these fields, as `conv_ib2xml(Order)` writes them. -/
def addAttrs (o dflt : OrderPegged) : List (String × String) :=
  addAttrInt skip "referenceContractId" o.referenceContractId dflt.referenceContractId ++
    addAttrDouble skip "peggedChangeAmount" o.peggedChangeAmount dflt.peggedChangeAmount ++
    addAttrBool skip "isPeggedChangeAmountDecrease" o.isPeggedChangeAmountDecrease
      dflt.isPeggedChangeAmountDecrease ++
    addAttrDouble skip "referenceChangeAmount" o.referenceChangeAmount dflt.referenceChangeAmount ++
    addAttrString skip "referenceExchangeId" o.referenceExchangeId dflt.referenceExchangeId ++
    addAttrString skip "adjustedOrderType" o.adjustedOrderType dflt.adjustedOrderType ++
    addAttrDouble skip "triggerPrice" o.triggerPrice dflt.triggerPrice ++
    addAttrDouble skip "adjustedStopPrice" o.adjustedStopPrice dflt.adjustedStopPrice ++
    addAttrDouble skip "adjustedStopLimitPrice" o.adjustedStopLimitPrice
      dflt.adjustedStopLimitPrice ++
    addAttrDouble skip "adjustedTrailingAmount" o.adjustedTrailingAmount
      dflt.adjustedTrailingAmount ++
    addAttrInt skip "adjustableTrailingUnit" o.adjustableTrailingUnit dflt.adjustableTrailingUnit ++
    addAttrDouble skip "lmtPriceOffset" o.lmtPriceOffset dflt.lmtPriceOffset ++
    addAttrBool skip "conditionsCancelOrder" o.conditionsCancelOrder dflt.conditionsCancelOrder ++
    addAttrBool skip "conditionsIgnoreRth" o.conditionsIgnoreRth dflt.conditionsIgnoreRth ++
    addAttrString skip "extOperator" o.extOperator dflt.extOperator ++
    addAttrDouble skip "cashQty" o.cashQty dflt.cashQty ++
    addAttrString skip "mifid2DecisionMaker" o.mifid2DecisionMaker dflt.mifid2DecisionMaker ++
    addAttrString skip "mifid2DecisionAlgo" o.mifid2DecisionAlgo dflt.mifid2DecisionAlgo ++
    addAttrString skip "mifid2ExecutionTrader" o.mifid2ExecutionTrader dflt.mifid2ExecutionTrader ++
    addAttrString skip "mifid2ExecutionAlgo" o.mifid2ExecutionAlgo dflt.mifid2ExecutionAlgo ++
    addAttrBool skip "dontUseAutoPriceForHedge" o.dontUseAutoPriceForHedge
      dflt.dontUseAutoPriceForHedge

/-- The fields, as `conv_xml2ib(Order)` reads them. -/
def getAttrs (o : OrderPegged) (node : XmlNode) : OrderPegged where
  referenceContractId := getAttrInt node "referenceContractId" o.referenceContractId
  peggedChangeAmount := getAttrDouble node "peggedChangeAmount" o.peggedChangeAmount
  isPeggedChangeAmountDecrease :=
    getAttrBool node "isPeggedChangeAmountDecrease" o.isPeggedChangeAmountDecrease
  referenceChangeAmount := getAttrDouble node "referenceChangeAmount" o.referenceChangeAmount
  referenceExchangeId := getAttrString node "referenceExchangeId" o.referenceExchangeId
  adjustedOrderType := getAttrString node "adjustedOrderType" o.adjustedOrderType
  triggerPrice := getAttrDouble node "triggerPrice" o.triggerPrice
  adjustedStopPrice := getAttrDouble node "adjustedStopPrice" o.adjustedStopPrice
  adjustedStopLimitPrice := getAttrDouble node "adjustedStopLimitPrice" o.adjustedStopLimitPrice
  adjustedTrailingAmount := getAttrDouble node "adjustedTrailingAmount" o.adjustedTrailingAmount
  adjustableTrailingUnit := getAttrInt node "adjustableTrailingUnit" o.adjustableTrailingUnit
  lmtPriceOffset := getAttrDouble node "lmtPriceOffset" o.lmtPriceOffset
  conditionsCancelOrder := getAttrBool node "conditionsCancelOrder" o.conditionsCancelOrder
  conditionsIgnoreRth := getAttrBool node "conditionsIgnoreRth" o.conditionsIgnoreRth
  extOperator := getAttrString node "extOperator" o.extOperator
  cashQty := getAttrDouble node "cashQty" o.cashQty
  mifid2DecisionMaker := getAttrString node "mifid2DecisionMaker" o.mifid2DecisionMaker
  mifid2DecisionAlgo := getAttrString node "mifid2DecisionAlgo" o.mifid2DecisionAlgo
  mifid2ExecutionTrader := getAttrString node "mifid2ExecutionTrader" o.mifid2ExecutionTrader
  mifid2ExecutionAlgo := getAttrString node "mifid2ExecutionAlgo" o.mifid2ExecutionAlgo
  dontUseAutoPriceForHedge := getAttrBool node "dontUseAutoPriceForHedge" o.dontUseAutoPriceForHedge

end OrderPegged

/-! ## What comes back -/

/-- The numbers are of their types, the doubles defaults or short. -/
structure OrderTerms.Exact (o dflt : OrderTerms) : Prop where
  orderId : InLong o.orderId
  clientId : InLong o.clientId
  permId : InInt o.permId
  totalQuantity : o.totalQuantity.Usual dflt.totalQuantity
  lmtPrice : o.lmtPrice.Usual dflt.lmtPrice
  auxPrice : o.auxPrice.Usual dflt.auxPrice
  ocaType : InInt o.ocaType
  parentId : InLong o.parentId
  displaySize : InInt o.displaySize
  triggerMethod : InInt o.triggerMethod
  minQty : InInt o.minQty
  percentOffset : o.percentOffset.Usual dflt.percentOffset
  trailStopPrice : o.trailStopPrice.Usual dflt.trailStopPrice
  trailingPercent : o.trailingPercent.Usual dflt.trailingPercent

/-- The strings have no NUL, and what is written as a number is one. -/
@[mk_iff] structure OrderTerms.Kept (o : OrderTerms) : Prop where
  action : CString o.action
  totalQuantity : o.totalQuantity.Given skip
  orderType : CString o.orderType
  lmtPrice : o.lmtPrice.Given skip
  auxPrice : o.auxPrice.Given skip
  tif : CString o.tif
  ocaGroup : CString o.ocaGroup
  activeStartTime : CString o.activeStartTime
  activeStopTime : CString o.activeStopTime
  orderRef : CString o.orderRef
  goodAfterTime : CString o.goodAfterTime
  goodTillDate : CString o.goodTillDate
  rule80A : CString o.rule80A
  percentOffset : o.percentOffset.Given skip
  trailStopPrice : o.trailStopPrice.Given skip
  trailingPercent : o.trailingPercent.Given skip

/-- What the API promises about its defaults. -/
structure OrderTerms.Proper (dflt : OrderTerms) : Prop where
  action : CString dflt.action
  totalQuantity : dflt.totalQuantity.Default
  orderType : CString dflt.orderType
  lmtPrice : dflt.lmtPrice.Default
  auxPrice : dflt.auxPrice.Default
  tif : CString dflt.tif
  ocaGroup : CString dflt.ocaGroup
  activeStartTime : CString dflt.activeStartTime
  activeStopTime : CString dflt.activeStopTime
  orderRef : CString dflt.orderRef
  goodAfterTime : CString dflt.goodAfterTime
  goodTillDate : CString dflt.goodTillDate
  rule80A : CString dflt.rule80A
  percentOffset : dflt.percentOffset.Default
  trailStopPrice : dflt.trailStopPrice.Default
  trailingPercent : dflt.trailingPercent.Default

/-- The numbers are of their types, the doubles defaults or short. -/
structure OrderRouting.Exact (o dflt : OrderRouting) : Prop where
  origin : InInt o.origin
  shortSaleSlot : InInt o.shortSaleSlot
  exemptCode : InInt o.exemptCode
  discretionaryAmt : o.discretionaryAmt.Usual dflt.discretionaryAmt
  nbboPriceCap : o.nbboPriceCap.Usual dflt.nbboPriceCap
  auctionStrategy : InInt o.auctionStrategy
  startingPrice : o.startingPrice.Usual dflt.startingPrice
  stockRefPrice : o.stockRefPrice.Usual dflt.stockRefPrice
  delta : o.delta.Usual dflt.delta
  stockRangeLower : o.stockRangeLower.Usual dflt.stockRangeLower
  stockRangeUpper : o.stockRangeUpper.Usual dflt.stockRangeUpper

/-- The strings have no NUL, and what is written as a number is one. -/
@[mk_iff] structure OrderRouting.Kept (o : OrderRouting) : Prop where
  faGroup : CString o.faGroup
  faProfile : CString o.faProfile
  faMethod : CString o.faMethod
  faPercentage : CString o.faPercentage
  openClose : CString o.openClose
  designatedLocation : CString o.designatedLocation
  discretionaryAmt : o.discretionaryAmt.Given skip
  nbboPriceCap : o.nbboPriceCap.Given skip
  startingPrice : o.startingPrice.Given skip
  stockRefPrice : o.stockRefPrice.Given skip
  delta : o.delta.Given skip
  stockRangeLower : o.stockRangeLower.Given skip
  stockRangeUpper : o.stockRangeUpper.Given skip

/-- What the API promises about its defaults. -/
structure OrderRouting.Proper (dflt : OrderRouting) : Prop where
  faGroup : CString dflt.faGroup
  faProfile : CString dflt.faProfile
  faMethod : CString dflt.faMethod
  faPercentage : CString dflt.faPercentage
  openClose : CString dflt.openClose
  designatedLocation : CString dflt.designatedLocation
  discretionaryAmt : dflt.discretionaryAmt.Default
  nbboPriceCap : dflt.nbboPriceCap.Default
  startingPrice : dflt.startingPrice.Default
  stockRefPrice : dflt.stockRefPrice.Default
  delta : dflt.delta.Default
  stockRangeLower : dflt.stockRangeLower.Default
  stockRangeUpper : dflt.stockRangeUpper.Default

/-- The numbers are of their types, the doubles defaults or short. -/
structure OrderVolatility.Exact (o dflt : OrderVolatility) : Prop where
  volatility : o.volatility.Usual dflt.volatility
  volatilityType : InInt o.volatilityType
  deltaNeutralAuxPrice : o.deltaNeutralAuxPrice.Usual dflt.deltaNeutralAuxPrice
  deltaNeutralConId : InLong o.deltaNeutralConId
  deltaNeutralShortSaleSlot : InInt o.deltaNeutralShortSaleSlot
  referencePriceType : InInt o.referencePriceType
  basisPoints : o.basisPoints.Usual dflt.basisPoints
  basisPointsType : InInt o.basisPointsType

/-- The strings have no NUL, and what is written as a number is one. -/
@[mk_iff] structure OrderVolatility.Kept (o : OrderVolatility) : Prop where
  volatility : o.volatility.Given skip
  deltaNeutralOrderType : CString o.deltaNeutralOrderType
  deltaNeutralAuxPrice : o.deltaNeutralAuxPrice.Given skip
  deltaNeutralSettlingFirm : CString o.deltaNeutralSettlingFirm
  deltaNeutralClearingAccount : CString o.deltaNeutralClearingAccount
  deltaNeutralClearingIntent : CString o.deltaNeutralClearingIntent
  deltaNeutralOpenClose : CString o.deltaNeutralOpenClose
  deltaNeutralDesignatedLocation : CString o.deltaNeutralDesignatedLocation
  basisPoints : o.basisPoints.Given skip

/-- What the API promises about its defaults. -/
structure OrderVolatility.Proper (dflt : OrderVolatility) : Prop where
  volatility : dflt.volatility.Default
  deltaNeutralOrderType : CString dflt.deltaNeutralOrderType
  deltaNeutralAuxPrice : dflt.deltaNeutralAuxPrice.Default
  deltaNeutralSettlingFirm : CString dflt.deltaNeutralSettlingFirm
  deltaNeutralClearingAccount : CString dflt.deltaNeutralClearingAccount
  deltaNeutralClearingIntent : CString dflt.deltaNeutralClearingIntent
  deltaNeutralOpenClose : CString dflt.deltaNeutralOpenClose
  deltaNeutralDesignatedLocation : CString dflt.deltaNeutralDesignatedLocation
  basisPoints : dflt.basisPoints.Default

/-- The numbers are of their types, the doubles defaults or short. -/
structure OrderScale.Exact (o dflt : OrderScale) : Prop where
  scaleInitLevelSize : InInt o.scaleInitLevelSize
  scaleSubsLevelSize : InInt o.scaleSubsLevelSize
  scalePriceIncrement : o.scalePriceIncrement.Usual dflt.scalePriceIncrement
  scalePriceAdjustValue : o.scalePriceAdjustValue.Usual dflt.scalePriceAdjustValue
  scalePriceAdjustInterval : InInt o.scalePriceAdjustInterval
  scaleProfitOffset : o.scaleProfitOffset.Usual dflt.scaleProfitOffset
  scaleInitPosition : InInt o.scaleInitPosition
  scaleInitFillQty : InInt o.scaleInitFillQty

/-- The strings have no NUL, and what is written as a number is one. -/
@[mk_iff] structure OrderScale.Kept (o : OrderScale) : Prop where
  scalePriceIncrement : o.scalePriceIncrement.Given skip
  scalePriceAdjustValue : o.scalePriceAdjustValue.Given skip
  scaleProfitOffset : o.scaleProfitOffset.Given skip
  scaleTable : CString o.scaleTable
  hedgeType : CString o.hedgeType
  hedgeParam : CString o.hedgeParam
  account : CString o.account
  settlingFirm : CString o.settlingFirm
  clearingAccount : CString o.clearingAccount
  clearingIntent : CString o.clearingIntent
  algoStrategy : CString o.algoStrategy
  algoId : CString o.algoId
  modelCode : CString o.modelCode

/-- What the API promises about its defaults. -/
structure OrderScale.Proper (dflt : OrderScale) : Prop where
  scalePriceIncrement : dflt.scalePriceIncrement.Default
  scalePriceAdjustValue : dflt.scalePriceAdjustValue.Default
  scaleProfitOffset : dflt.scaleProfitOffset.Default
  scaleTable : CString dflt.scaleTable
  hedgeType : CString dflt.hedgeType
  hedgeParam : CString dflt.hedgeParam
  account : CString dflt.account
  settlingFirm : CString dflt.settlingFirm
  clearingAccount : CString dflt.clearingAccount
  clearingIntent : CString dflt.clearingIntent
  algoStrategy : CString dflt.algoStrategy
  algoId : CString dflt.algoId
  modelCode : CString dflt.modelCode

/-- The numbers are of their types, the doubles defaults or short. -/
structure OrderPegged.Exact (o dflt : OrderPegged) : Prop where
  referenceContractId : InInt o.referenceContractId
  peggedChangeAmount : o.peggedChangeAmount.Usual dflt.peggedChangeAmount
  referenceChangeAmount : o.referenceChangeAmount.Usual dflt.referenceChangeAmount
  triggerPrice : o.triggerPrice.Usual dflt.triggerPrice
  adjustedStopPrice : o.adjustedStopPrice.Usual dflt.adjustedStopPrice
  adjustedStopLimitPrice : o.adjustedStopLimitPrice.Usual dflt.adjustedStopLimitPrice
  adjustedTrailingAmount : o.adjustedTrailingAmount.Usual dflt.adjustedTrailingAmount
  adjustableTrailingUnit : InInt o.adjustableTrailingUnit
  lmtPriceOffset : o.lmtPriceOffset.Usual dflt.lmtPriceOffset
  cashQty : o.cashQty.Usual dflt.cashQty

/-- The strings have no NUL, and what is written as a number is one. -/
@[mk_iff] structure OrderPegged.Kept (o : OrderPegged) : Prop where
  peggedChangeAmount : o.peggedChangeAmount.Given skip
  referenceChangeAmount : o.referenceChangeAmount.Given skip
  referenceExchangeId : CString o.referenceExchangeId
  adjustedOrderType : CString o.adjustedOrderType
  triggerPrice : o.triggerPrice.Given skip
  adjustedStopPrice : o.adjustedStopPrice.Given skip
  adjustedStopLimitPrice : o.adjustedStopLimitPrice.Given skip
  adjustedTrailingAmount : o.adjustedTrailingAmount.Given skip
  lmtPriceOffset : o.lmtPriceOffset.Given skip
  extOperator : CString o.extOperator
  cashQty : o.cashQty.Given skip
  mifid2DecisionMaker : CString o.mifid2DecisionMaker
  mifid2DecisionAlgo : CString o.mifid2DecisionAlgo
  mifid2ExecutionTrader : CString o.mifid2ExecutionTrader
  mifid2ExecutionAlgo : CString o.mifid2ExecutionAlgo

/-- What the API promises about its defaults. -/
structure OrderPegged.Proper (dflt : OrderPegged) : Prop where
  peggedChangeAmount : dflt.peggedChangeAmount.Default
  referenceChangeAmount : dflt.referenceChangeAmount.Default
  referenceExchangeId : CString dflt.referenceExchangeId
  adjustedOrderType : CString dflt.adjustedOrderType
  triggerPrice : dflt.triggerPrice.Default
  adjustedStopPrice : dflt.adjustedStopPrice.Default
  adjustedStopLimitPrice : dflt.adjustedStopLimitPrice.Default
  adjustedTrailingAmount : dflt.adjustedTrailingAmount.Default
  lmtPriceOffset : dflt.lmtPriceOffset.Default
  extOperator : CString dflt.extOperator
  cashQty : dflt.cashQty.Default
  mifid2DecisionMaker : CString dflt.mifid2DecisionMaker
  mifid2DecisionAlgo : CString dflt.mifid2DecisionAlgo
  mifid2ExecutionTrader : CString dflt.mifid2ExecutionTrader
  mifid2ExecutionAlgo : CString dflt.mifid2ExecutionAlgo

end Write

/-! ## A group of fields that is written and read -/

variable {skip : Bool} {name : String}

namespace OrderTerms

/-- The names of the attributes. -/
def names : List String := (addAttrs false {} {}).map Prod.fst

/-- No other attribute is written. -/
theorem lookup_addAttrs {o dflt : OrderTerms} {n : String} (hn : n ∉ names) :
    (o.addAttrs skip dflt).lookup n = none := by
  suffices h : NamedWithin (o.addAttrs skip dflt) (addAttrs false {} {}) from h n hn
  unfold addAttrs
  repeat' with_reducible apply NamedWithin.append
  all_goals exact .field

/-- The fields are read from their attributes, whatever else there is. -/
theorem read_write {o dflt : OrderTerms} {attrs : List (String × String)} {cs : List XmlNode}
    (he : o.Exact dflt) (hd : dflt.Proper)
    (h : ∀ n ∈ names, attrs.lookup n = (o.addAttrs skip dflt).lookup n) :
    dflt.getAttrs (.element name attrs cs) = o ↔ o.Kept skip := by
  unfold names addAttrs at h
  simp only [addAttrString, addAttrDouble, addAttrLong, addAttrInt, addAttrBool, List.map_append,
    names_newAttr, List.mem_append, List.mem_singleton, or_imp, forall_and, forall_eq,
    List.lookup_append, lookup_newAttr, String.reduceEq, if_true, if_false, Option.or_none,
    Option.none_or] at h
  rw [OrderTerms.ext_iff]
  simp only [getAttrs, getAttrString, getAttrDouble, getAttrLong, getAttrInt, getAttrBool,
    XmlNode.prop, h]
  simp only [long_kept he.orderId, long_kept he.clientId, int_kept he.permId,
    string_kept hd.action, double_given he.totalQuantity hd.totalQuantity, string_kept hd.orderType,
    double_given he.lmtPrice hd.lmtPrice, double_given he.auxPrice hd.auxPrice, string_kept hd.tif,
    string_kept hd.ocaGroup, string_kept hd.activeStartTime, string_kept hd.activeStopTime,
    int_kept he.ocaType, string_kept hd.orderRef, long_kept he.parentId, int_kept he.displaySize,
    int_kept he.triggerMethod, string_kept hd.goodAfterTime, string_kept hd.goodTillDate,
    string_kept hd.rule80A, int_kept he.minQty, double_given he.percentOffset hd.percentOffset,
    double_given he.trailStopPrice hd.trailStopPrice,
    double_given he.trailingPercent hd.trailingPercent, bool_kept, true_and]
  exact (kept_iff skip o).symm

end OrderTerms

namespace OrderRouting

/-- The names of the attributes. -/
def names : List String := (addAttrs false {} {}).map Prod.fst

/-- No other attribute is written. -/
theorem lookup_addAttrs {o dflt : OrderRouting} {n : String} (hn : n ∉ names) :
    (o.addAttrs skip dflt).lookup n = none := by
  suffices h : NamedWithin (o.addAttrs skip dflt) (addAttrs false {} {}) from h n hn
  unfold addAttrs
  repeat' with_reducible apply NamedWithin.append
  all_goals exact .field

/-- The fields are read from their attributes, whatever else there is. -/
theorem read_write {o dflt : OrderRouting} {attrs : List (String × String)} {cs : List XmlNode}
    (he : o.Exact dflt) (hd : dflt.Proper)
    (h : ∀ n ∈ names, attrs.lookup n = (o.addAttrs skip dflt).lookup n) :
    dflt.getAttrs (.element name attrs cs) = o ↔ o.Kept skip := by
  unfold names addAttrs at h
  simp only [addAttrString, addAttrDouble, addAttrInt, addAttrBool, List.map_append, names_newAttr,
    List.mem_append, List.mem_singleton, or_imp, forall_and, forall_eq, List.lookup_append,
    lookup_newAttr, String.reduceEq, if_true, if_false, Option.or_none, Option.none_or] at h
  rw [OrderRouting.ext_iff]
  simp only [getAttrs, getAttrString, getAttrDouble, getAttrInt, getAttrBool, XmlNode.prop, h]
  simp only [string_kept hd.faGroup, string_kept hd.faProfile, string_kept hd.faMethod,
    string_kept hd.faPercentage, string_kept hd.openClose, int_kept he.origin,
    int_kept he.shortSaleSlot, string_kept hd.designatedLocation, int_kept he.exemptCode,
    double_given he.discretionaryAmt hd.discretionaryAmt,
    double_given he.nbboPriceCap hd.nbboPriceCap, int_kept he.auctionStrategy,
    double_given he.startingPrice hd.startingPrice, double_given he.stockRefPrice hd.stockRefPrice,
    double_given he.delta hd.delta, double_given he.stockRangeLower hd.stockRangeLower,
    double_given he.stockRangeUpper hd.stockRangeUpper, bool_kept, true_and, and_true]
  exact (kept_iff skip o).symm

end OrderRouting

namespace OrderVolatility

/-- The names of the attributes. -/
def names : List String := (addAttrs false {} {}).map Prod.fst

/-- No other attribute is written. -/
theorem lookup_addAttrs {o dflt : OrderVolatility} {n : String} (hn : n ∉ names) :
    (o.addAttrs skip dflt).lookup n = none := by
  suffices h : NamedWithin (o.addAttrs skip dflt) (addAttrs false {} {}) from h n hn
  unfold addAttrs
  repeat' with_reducible apply NamedWithin.append
  all_goals exact .field

/-- The fields are read from their attributes, whatever else there is. -/
theorem read_write {o dflt : OrderVolatility} {attrs : List (String × String)} {cs : List XmlNode}
    (he : o.Exact dflt) (hd : dflt.Proper)
    (h : ∀ n ∈ names, attrs.lookup n = (o.addAttrs skip dflt).lookup n) :
    dflt.getAttrs (.element name attrs cs) = o ↔ o.Kept skip := by
  unfold names addAttrs at h
  simp only [addAttrString, addAttrDouble, addAttrLong, addAttrInt, addAttrBool, List.map_append,
    names_newAttr, List.mem_append, List.mem_singleton, or_imp, forall_and, forall_eq,
    List.lookup_append, lookup_newAttr, String.reduceEq, if_true, if_false, Option.or_none,
    Option.none_or] at h
  rw [OrderVolatility.ext_iff]
  simp only [getAttrs, getAttrString, getAttrDouble, getAttrLong, getAttrInt, getAttrBool,
    XmlNode.prop, h]
  simp only [double_given he.volatility hd.volatility, int_kept he.volatilityType,
    string_kept hd.deltaNeutralOrderType,
    double_given he.deltaNeutralAuxPrice hd.deltaNeutralAuxPrice, long_kept he.deltaNeutralConId,
    string_kept hd.deltaNeutralSettlingFirm, string_kept hd.deltaNeutralClearingAccount,
    string_kept hd.deltaNeutralClearingIntent, string_kept hd.deltaNeutralOpenClose,
    int_kept he.deltaNeutralShortSaleSlot, string_kept hd.deltaNeutralDesignatedLocation,
    int_kept he.referencePriceType, double_given he.basisPoints hd.basisPoints,
    int_kept he.basisPointsType, bool_kept, true_and, and_true]
  exact (kept_iff skip o).symm

end OrderVolatility

namespace OrderScale

/-- The names of the attributes. -/
def names : List String := (addAttrs false {} {}).map Prod.fst

/-- No other attribute is written. -/
theorem lookup_addAttrs {o dflt : OrderScale} {n : String} (hn : n ∉ names) :
    (o.addAttrs skip dflt).lookup n = none := by
  suffices h : NamedWithin (o.addAttrs skip dflt) (addAttrs false {} {}) from h n hn
  unfold addAttrs
  repeat' with_reducible apply NamedWithin.append
  all_goals exact .field

/-- The fields are read from their attributes, whatever else there is. -/
theorem read_write {o dflt : OrderScale} {attrs : List (String × String)} {cs : List XmlNode}
    (he : o.Exact dflt) (hd : dflt.Proper)
    (h : ∀ n ∈ names, attrs.lookup n = (o.addAttrs skip dflt).lookup n) :
    dflt.getAttrs (.element name attrs cs) = o ↔ o.Kept skip := by
  unfold names addAttrs at h
  simp only [addAttrString, addAttrDouble, addAttrInt, addAttrBool, List.map_append, names_newAttr,
    List.mem_append, List.mem_singleton, or_imp, forall_and, forall_eq, List.lookup_append,
    lookup_newAttr, String.reduceEq, if_true, if_false, Option.or_none, Option.none_or] at h
  rw [OrderScale.ext_iff]
  simp only [getAttrs, getAttrString, getAttrDouble, getAttrInt, getAttrBool, XmlNode.prop, h]
  simp only [int_kept he.scaleInitLevelSize, int_kept he.scaleSubsLevelSize,
    double_given he.scalePriceIncrement hd.scalePriceIncrement,
    double_given he.scalePriceAdjustValue hd.scalePriceAdjustValue,
    int_kept he.scalePriceAdjustInterval, double_given he.scaleProfitOffset hd.scaleProfitOffset,
    int_kept he.scaleInitPosition, int_kept he.scaleInitFillQty, string_kept hd.scaleTable,
    string_kept hd.hedgeType, string_kept hd.hedgeParam, string_kept hd.account,
    string_kept hd.settlingFirm, string_kept hd.clearingAccount, string_kept hd.clearingIntent,
    string_kept hd.algoStrategy, string_kept hd.algoId, string_kept hd.modelCode, bool_kept,
    true_and]
  exact (kept_iff skip o).symm

end OrderScale

namespace OrderPegged

/-- The names of the attributes. -/
def names : List String := (addAttrs false {} {}).map Prod.fst

/-- No other attribute is written. -/
theorem lookup_addAttrs {o dflt : OrderPegged} {n : String} (hn : n ∉ names) :
    (o.addAttrs skip dflt).lookup n = none := by
  suffices h : NamedWithin (o.addAttrs skip dflt) (addAttrs false {} {}) from h n hn
  unfold addAttrs
  repeat' with_reducible apply NamedWithin.append
  all_goals exact .field

/-- The fields are read from their attributes, whatever else there is. -/
theorem read_write {o dflt : OrderPegged} {attrs : List (String × String)} {cs : List XmlNode}
    (he : o.Exact dflt) (hd : dflt.Proper)
    (h : ∀ n ∈ names, attrs.lookup n = (o.addAttrs skip dflt).lookup n) :
    dflt.getAttrs (.element name attrs cs) = o ↔ o.Kept skip := by
  unfold names addAttrs at h
  simp only [addAttrString, addAttrDouble, addAttrInt, addAttrBool, List.map_append, names_newAttr,
    List.mem_append, List.mem_singleton, or_imp, forall_and, forall_eq, List.lookup_append,
    lookup_newAttr, String.reduceEq, if_true, if_false, Option.or_none, Option.none_or] at h
  rw [OrderPegged.ext_iff]
  simp only [getAttrs, getAttrString, getAttrDouble, getAttrInt, getAttrBool, XmlNode.prop, h]
  simp only [int_kept he.referenceContractId,
    double_given he.peggedChangeAmount hd.peggedChangeAmount,
    double_given he.referenceChangeAmount hd.referenceChangeAmount,
    string_kept hd.referenceExchangeId, string_kept hd.adjustedOrderType,
    double_given he.triggerPrice hd.triggerPrice,
    double_given he.adjustedStopPrice hd.adjustedStopPrice,
    double_given he.adjustedStopLimitPrice hd.adjustedStopLimitPrice,
    double_given he.adjustedTrailingAmount hd.adjustedTrailingAmount,
    int_kept he.adjustableTrailingUnit, double_given he.lmtPriceOffset hd.lmtPriceOffset,
    string_kept hd.extOperator, double_given he.cashQty hd.cashQty,
    string_kept hd.mifid2DecisionMaker, string_kept hd.mifid2DecisionAlgo,
    string_kept hd.mifid2ExecutionTrader, string_kept hd.mifid2ExecutionAlgo, bool_kept, true_and,
    and_true]
  exact (kept_iff skip o).symm

end OrderPegged

end Twstools
