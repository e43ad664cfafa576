import Twstools.Common.Fault
/-!
# The assertions of the program

One name per `assert` of the modelled functions, after the function it
stands in. Where a function asserts more than once the names say which.
-/

namespace Twstools

/-- The sites of `assert` in `tws_meta.cpp`, `tws_account.cpp`, `twsdo.cpp`,
`tws_xml.cpp` and `twsgen.cpp`. -/
inductive Assertion where
  -- tws_meta.cpp, todo lists
  | histCheckoutOptNone | histCheckoutOptFound | histCancelForRepeat | histCurrent | histTellDone
  | contractDetailsCheckout | contractDetailsRepeat | contractDetailsCurrent
  | placeOrderCheckout | placeOrderCurrent
  | optParamsCheckout | optParamsRepeat | optParamsCurrent
  -- tws_meta.cpp, packets
  | closeErrorClosed
  | contractDetailsRecord | contractDetailsSetFinished
  | contractDetailsAppendReqId | contractDetailsAppendMode
  | histDataRecord | histDataAppendMode | histDataAppendReqId | histDataDump
  | placeOrderRecord | placeOrderModifyMode | placeOrderModifyId
  | accStatusRecord | executionsRecord | ordersRecord | mktDataRecord
  | accStatusClear | executionsClear | ordersClear
  | placeOrderFromXml | readFileType
  | optParamsRecord | optParamsSetFinished | optParamsAppendReqId | optParamsAppendMode
  -- tws_meta.cpp, pacing
  | addRequestLazy | addRequestFarm | removeLastRequestLazy | removeLastRequestFarm
  | notifyViolationLazy | notifyViolationFarm
  | goodTimeGlobal | goodTimeFarm | countLeftGlobal | countLeftFarm
  | checkAddFarmHmds | checkAddFarmLazy | checkAddLazyHmds | checkAddLazyLazy
  | notifyCode | getFarmPrefix | learnHmdsLastOk
  -- tws_account.cpp
  | updatePortfolioConId | updateOoPermId | updateOsPermId
  -- twsdo.cpp
  | startIdle | connectTwsConnected | connectTwsResult | waitDataNone | changeState
  | finContractsSize | finContractsConId
  | finPlaceOrderId | finPlaceOrderOld
  | twsErrorNotConnected | twsErrorRequestType | twsErrorMessage
  | errorPlaceOrderOld | errorPlaceOrderLive
  | connectionClosedRequest | connectionClosedNone | connectionClosedOrders
  | historicalDataFinished
  | orderStatusOld | orderStatusLive | openOrderOld | openOrderLive
  | tickReqId | reqHistoricalDataLeft | reqMktDataQuotes
  -- tws_xml.cpp
  | nextXmlRootType
  -- twsgen.cpp
  | getIncExpMode | splitWhatToShowEnd | splitWhatToShowSize
  | minBeginDateTime | skipExpiryParse | skipExpiryTime
  deriving DecidableEq, Repr

end Twstools
