import Twstools.Api.Contract
/-!
# Orders and executions of the TWS API

The structs of `twsapi/Order.h` and `twsapi/Execution.h`, with the fields
the program reads or writes. Of an order the job processing looks at the
action, the quantity and two flags only; the rest travels through xml files.
-/

namespace Twstools

/-- What stands for a price that is not given. -/
def UNSET_DOUBLE : Double := .finite Double.DBL_MAX

/-- What stands for a number that is not given. -/
def UNSET_INTEGER : ℤ := INT_MAX

/-- `OrderComboLeg`. -/
@[ext] structure OrderComboLeg where
  price : Double := UNSET_DOUBLE
  deriving DecidableEq

/-- The main and the extended fields of an order. -/
@[ext] structure OrderTerms where
  orderId : ℤ := 0
  clientId : ℤ := 0
  permId : ℤ := 0
  action : String := ""
  totalQuantity : Double := 0
  orderType : String := ""
  lmtPrice : Double := UNSET_DOUBLE
  auxPrice : Double := UNSET_DOUBLE
  tif : String := ""
  ocaGroup : String := ""
  activeStartTime : String := ""
  activeStopTime : String := ""
  ocaType : ℤ := 0
  orderRef : String := ""
  transmit : Bool := true
  parentId : ℤ := 0
  blockOrder : Bool := false
  sweepToFill : Bool := false
  displaySize : ℤ := 0
  triggerMethod : ℤ := 0
  outsideRth : Bool := false
  hidden : Bool := false
  goodAfterTime : String := ""
  goodTillDate : String := ""
  rule80A : String := ""
  allOrNone : Bool := false
  minQty : ℤ := UNSET_INTEGER
  percentOffset : Double := UNSET_DOUBLE
  overridePercentageConstraints : Bool := false
  trailStopPrice : Double := UNSET_DOUBLE
  trailingPercent : Double := UNSET_DOUBLE
  deriving DecidableEq

/-- The fields for advisors, institutions and smart routing. -/
@[ext] structure OrderRouting where
  faGroup : String := ""
  faProfile : String := ""
  faMethod : String := ""
  faPercentage : String := ""
  openClose : String := "O"
  origin : ℤ := 0
  shortSaleSlot : ℤ := 0
  designatedLocation : String := ""
  exemptCode : ℤ := -1
  discretionaryAmt : Double := 0
  eTradeOnly : Bool := true
  firmQuoteOnly : Bool := true
  nbboPriceCap : Double := UNSET_DOUBLE
  optOutSmartRouting : Bool := false
  auctionStrategy : ℤ := 0
  startingPrice : Double := UNSET_DOUBLE
  stockRefPrice : Double := UNSET_DOUBLE
  delta : Double := UNSET_DOUBLE
  stockRangeLower : Double := UNSET_DOUBLE
  stockRangeUpper : Double := UNSET_DOUBLE
  randomizeSize : Bool := false
  randomizePrice : Bool := false
  deriving DecidableEq

/-- The fields of volatility and combo orders. -/
@[ext] structure OrderVolatility where
  volatility : Double := UNSET_DOUBLE
  volatilityType : ℤ := UNSET_INTEGER
  deltaNeutralOrderType : String := ""
  deltaNeutralAuxPrice : Double := UNSET_DOUBLE
  deltaNeutralConId : ℤ := 0
  deltaNeutralSettlingFirm : String := ""
  deltaNeutralClearingAccount : String := ""
  deltaNeutralClearingIntent : String := ""
  deltaNeutralOpenClose : String := ""
  deltaNeutralShortSale : Bool := false
  deltaNeutralShortSaleSlot : ℤ := 0
  deltaNeutralDesignatedLocation : String := ""
  continuousUpdate : Bool := false
  referencePriceType : ℤ := UNSET_INTEGER
  basisPoints : Double := UNSET_DOUBLE
  basisPointsType : ℤ := UNSET_INTEGER
  deriving DecidableEq

/-- The fields of scale and hedge orders, and of clearing. -/
@[ext] structure OrderScale where
  scaleInitLevelSize : ℤ := UNSET_INTEGER
  scaleSubsLevelSize : ℤ := UNSET_INTEGER
  scalePriceIncrement : Double := UNSET_DOUBLE
  scalePriceAdjustValue : Double := UNSET_DOUBLE
  scalePriceAdjustInterval : ℤ := UNSET_INTEGER
  scaleProfitOffset : Double := UNSET_DOUBLE
  scaleAutoReset : Bool := false
  scaleInitPosition : ℤ := UNSET_INTEGER
  scaleInitFillQty : ℤ := UNSET_INTEGER
  scaleRandomPercent : Bool := false
  scaleTable : String := ""
  hedgeType : String := ""
  hedgeParam : String := ""
  account : String := ""
  settlingFirm : String := ""
  clearingAccount : String := ""
  clearingIntent : String := ""
  algoStrategy : String := ""
  algoId : String := ""
  whatIf : Bool := false
  notHeld : Bool := false
  solicited : Bool := false
  modelCode : String := ""
  deriving DecidableEq

/-- The fields of pegged and adjusted orders, and what was added last. -/
@[ext] structure OrderPegged where
  referenceContractId : ℤ := 0
  peggedChangeAmount : Double := 0
  isPeggedChangeAmountDecrease : Bool := false
  referenceChangeAmount : Double := 0
  referenceExchangeId : String := ""
  adjustedOrderType : String := ""
  triggerPrice : Double := UNSET_DOUBLE
  adjustedStopPrice : Double := UNSET_DOUBLE
  adjustedStopLimitPrice : Double := UNSET_DOUBLE
  adjustedTrailingAmount : Double := UNSET_DOUBLE
  adjustableTrailingUnit : ℤ := 0
  lmtPriceOffset : Double := UNSET_DOUBLE
  conditionsCancelOrder : Bool := false
  conditionsIgnoreRth : Bool := false
  extOperator : String := ""
  cashQty : Double := UNSET_DOUBLE
  mifid2DecisionMaker : String := ""
  mifid2DecisionAlgo : String := ""
  mifid2ExecutionTrader : String := ""
  mifid2ExecutionAlgo : String := ""
  dontUseAutoPriceForHedge : Bool := false
  deriving DecidableEq

/-- `Order`, without the conditions and the soft dollar tier, which the xml
files do not have either. The pointers at the end may be null. -/
structure Order extends OrderTerms, OrderRouting, OrderVolatility, OrderScale, OrderPegged where
  algoParams : Option (List TagValue) := none
  smartComboRoutingParams : Option (List TagValue) := none
  orderComboLegs : Option (List OrderComboLeg) := none
  orderMiscOptions : Option (List TagValue) := none
  deriving DecidableEq

/-- `Execution`. -/
structure Execution where
  execId : String
  time : String
  acctNumber : String
  exchange : String
  side : String
  shares : Double
  price : Double
  permId : ℤ
  clientId : ℤ
  orderId : ℤ
  liquidation : ℤ
  cumQty : Double
  avgPrice : Double
  orderRef : String
  evRule : String
  evMultiplier : Double
  modelCode : String
  lastLiquidity : ℤ
  deriving DecidableEq

end Twstools
