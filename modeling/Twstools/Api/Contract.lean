import Twstools.Clib.Double
/-!
# Contracts of the TWS API

The structs of `twsapi/Contract.h`, with the fields the program reads or
writes. `exchange` is what the pacing control and the farm states look at;
the other fields travel through requests and xml files.
-/

namespace Twstools

/-- `ComboLeg`. -/
@[ext] structure ComboLeg where
  conId : ℤ
  ratio : ℤ
  action : String
  exchange : String
  openClose : ℤ
  shortSaleSlot : ℤ
  designatedLocation : String
  exemptCode : ℤ
  deriving DecidableEq

/-- `DeltaNeutralContract`. -/
@[ext] structure DeltaNeutralContract where
  conId : ℤ
  delta : Double
  price : Double
  deriving DecidableEq

/-- `Contract`. The two pointers at the end may be null. -/
@[ext] structure Contract where
  conId : ℤ := 0
  symbol : String := ""
  secType : String := ""
  lastTradeDateOrContractMonth : String := ""
  strike : Double := 0
  right : String := ""
  multiplier : String := ""
  exchange : String := ""
  primaryExchange : String := ""
  currency : String := ""
  localSymbol : String := ""
  tradingClass : String := ""
  includeExpired : Bool := false
  secIdType : String := ""
  secId : String := ""
  comboLegsDescrip : String := ""
  comboLegs : Option (List ComboLeg) := none
  deltaNeutralContract : Option DeltaNeutralContract := none
  deriving DecidableEq, Inhabited

/-- `TagValue`. -/
@[ext] structure TagValue where
  tag : String
  value : String
  deriving DecidableEq

/-- `ContractDetails`. The list at the end may be null. -/
@[ext] structure ContractDetails where
  summary : Contract := {}
  marketName : String := ""
  minTick : Double := 0
  orderTypes : String := ""
  validExchanges : String := ""
  priceMagnifier : ℤ := 0
  underConId : ℤ := 0
  longName : String := ""
  contractMonth : String := ""
  industry : String := ""
  category : String := ""
  subcategory : String := ""
  timeZoneId : String := ""
  tradingHours : String := ""
  liquidHours : String := ""
  evRule : String := ""
  evMultiplier : Double := 0
  mdSizeMultiplier : ℤ := 0
  aggGroup : ℤ := 0
  underSymbol : String := ""
  underSecType : String := ""
  marketRuleIds : String := ""
  realExpirationDate : String := ""
  lastTradeTime : String := ""
  cusip : String := ""
  ratings : String := ""
  descAppend : String := ""
  bondType : String := ""
  couponType : String := ""
  callable : Bool := false
  putable : Bool := false
  coupon : Double := 0
  convertible : Bool := false
  maturity : String := ""
  issueDate : String := ""
  nextOptionDate : String := ""
  nextOptionType : String := ""
  nextOptionPartial : Bool := false
  notes : String := ""
  secIdList : Option (List TagValue) := none
  deriving DecidableEq

end Twstools
