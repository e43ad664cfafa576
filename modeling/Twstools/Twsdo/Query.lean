import Twstools.Api.Contract
import Twstools.Api.Order
/-!
# Requests and their rows

The jobs a work file can ask for (`tws_query.h`), and the rows TWS answers
them with (`tws_meta.h`).
-/

namespace Twstools

/-- `ContractDetailsRequest`. -/
structure ContractDetailsRequest where
  ibContract : Contract := {}
  deriving DecidableEq

/-- `HistRequest`. `formatDate` starts invalid: TWS allows 1 or 2. -/
@[ext] structure HistRequest where
  ibContract : Contract := {}
  endDateTime : String := ""
  durationStr : String := ""
  barSizeSetting : String := ""
  whatToShow : String := ""
  useRTH : ℤ := 0
  formatDate : ℤ := 0
  deriving DecidableEq

/-- `AccStatusRequest`. -/
structure AccStatusRequest where
  subscribe : Bool := true
  acctCode : String := ""
  deriving DecidableEq

/-- `PlaceOrder`. -/
@[ext] structure PlaceOrder where
  orderId : ℤ := 0
  time_sent : ℤ := 0
  contract : Contract := {}
  order : Order := {}
  deriving DecidableEq

/-- `MktDataRequest`. -/
structure MktDataRequest where
  ibContract : Contract := {}
  genericTicks : String := ""
  snapshot : Bool := false
  deriving DecidableEq

/-- `OptParamsRequest`. -/
structure OptParamsRequest where
  ibContract : Contract := {}
  deriving DecidableEq

/-- `RowError`. -/
structure RowError where
  id : ℤ
  code : ℤ
  msg : String
  deriving DecidableEq

/-- `RowHist`, made with the values of `dflt_RowHist`. -/
@[ext] structure RowHist where
  date : String := ""
  «open» : Double := -1
  high : Double := -1
  low : Double := -1
  close : Double := -1
  volume : ℤ := -1
  count : ℤ := -1
  WAP : Double := -1
  hasGaps : Bool := false
  deriving DecidableEq

/-- The test of `PacketHistData::append` for the end of the rows:
`strncmp(row.date.c_str(), "finished", 8) == 0`. -/
def RowHist.isFinished (row : RowHist) : Bool := "finished".toList.isPrefixOf row.date.toList

/-- `RowAccVal`. -/
structure RowAccVal where
  key : String
  val : String
  currency : String
  accountName : String
  deriving DecidableEq

/-- `RowPrtfl`. -/
structure RowPrtfl where
  contract : Contract
  position : Double
  marketPrice : Double
  marketValue : Double
  averageCost : Double
  unrealizedPNL : Double
  realizedPNL : Double
  accountName : String
  deriving DecidableEq

/-- `RowAcc`. -/
inductive RowAcc where
  | t_AccVal (row : RowAccVal)
  | t_Prtfl (row : RowPrtfl)
  | t_stamp (timeStamp : String)
  | t_end (accountName : String)
  deriving DecidableEq

/-- `RowExecution`. -/
structure RowExecution where
  contract : Contract
  execution : Execution
  deriving DecidableEq

/-- `RowOrderStatus`. -/
structure RowOrderStatus where
  id : ℤ
  status : String
  filled : Double
  remaining : Double
  avgFillPrice : Double
  permId : ℤ
  parentId : ℤ
  lastFillPrice : Double
  clientId : ℤ
  whyHeld : String
  deriving DecidableEq

/-- `RowOpenOrder`, without the order state, which is only written out. -/
structure RowOpenOrder where
  orderId : ℤ
  contract : Contract
  order : Order
  deriving DecidableEq

/-- `TwsRow`. -/
inductive TwsRow where
  | t_error (row : RowError)
  | t_orderStatus (row : RowOrderStatus)
  | t_openOrder (row : RowOpenOrder)
  deriving DecidableEq

/-- `RowOptParams`. The sets are given in order. -/
structure RowOptParams where
  exchange : String
  underlyingConId : ℤ
  tradingClass : String
  multiplier : String
  expirations : List String
  strikes : List Double
  deriving DecidableEq

end Twstools
