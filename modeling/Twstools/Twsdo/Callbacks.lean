import Twstools.Twsdo.Model
/-!
# Answers of TWS

The callbacks for the rows and the end marks of the answers, for the
orders, and for the rest. One that does not belong to the current request
is ignored: the type must be right, and for contract details, historical
data and option parameters the number as well. The account takes its rows
before that, whatever is asked for, and asserts that they can be filed.
-/

namespace Twstools

/-! ## The account

The rows are filed by contract or by order in maps nothing reads; what
remains of them is the assertion about the key. -/

namespace Account

/-- `Account::updatePortfolio`. -/
def updatePortfolio (row : RowPrtfl) : Exec Assertion Unit :=
  ensure (row.contract.conId > 0) .updatePortfolioConId

/-- `Account::update_oo`. -/
def update_oo (row : RowOpenOrder) : Exec Assertion Unit :=
  ensure (row.order.permId > 0) .updateOoPermId

/-- `Account::update_os`. -/
def update_os (row : RowOrderStatus) : Exec Assertion Unit :=
  ensure (row.permId > 0) .updateOsPermId

end Account

namespace TwsDL

/-- The common beginning of the callbacks that look at the number. -/
def expect (s : TwsDL) (t : ReqType) (reqId : ℤ) (f : Exec Assertion TwsDL) :
    Exec Assertion TwsDL :=
  if s.currentRequest.reqType ≠ t then pure s
  else if s.currentRequest.reqId ≠ reqId then pure s
  else f

/-- `twsContractDetails`. -/
def twsContractDetails (s : TwsDL) (reqId : ℤ) (cd : ContractDetails) : Exec Assertion TwsDL :=
  s.expect .CONTRACT_DETAILS_REQUEST reqId do
    let p ← Packet.asContractDetails s.packet
    let p ← p.append reqId cd
    pure { s with packet := some (.contractDetails p) }

/-- `twsBondContractDetails`. -/
def twsBondContractDetails (s : TwsDL) (reqId : ℤ) (cd : ContractDetails) :
    Exec Assertion TwsDL :=
  s.twsContractDetails reqId cd

/-- `twsContractDetailsEnd`. -/
def twsContractDetailsEnd (s : TwsDL) (reqId : ℤ) : Exec Assertion TwsDL :=
  s.expect .CONTRACT_DETAILS_REQUEST reqId do
    let p ← Packet.asContractDetails s.packet
    let p ← p.setFinished
    pure { s with packet := some (.contractDetails p) }

/-- `twsHistoricalData`. -/
def twsHistoricalData (s : TwsDL) (reqId : ℤ) (row : RowHist) : Exec Assertion TwsDL :=
  s.expect .HIST_REQUEST reqId do
    let hR ← s.workTodo.histTodo.current
    let s := { s with dataFarms := s.dataFarms.learnHmds hR.ibContract }
    let p ← Packet.asHistData s.packet
    ensure (p.finished = false) .historicalDataFinished
    let p ← p.append reqId row
    pure { s with packet := some (.histData p) }

/-- `twsOptParams`. -/
def twsOptParams (s : TwsDL) (reqId : ℤ) (r : RowOptParams) : Exec Assertion TwsDL :=
  s.expect .OPT_PARAMS_REQUEST reqId do
    let p ← Packet.asOptParams s.packet
    let p ← p.append reqId r
    pure { s with packet := some (.optParams p) }

/-- `twsOptParamsEnd`. -/
def twsOptParamsEnd (s : TwsDL) (reqId : ℤ) : Exec Assertion TwsDL :=
  s.expect .OPT_PARAMS_REQUEST reqId do
    let p ← Packet.asOptParams s.packet
    let p ← p.setFinished
    pure { s with packet := some (.optParams p) }

/-! ## Account, executions and orders -/

/-- The common body of the account callbacks. -/
def onAccStatus (s : TwsDL) (f : PacketAccStatus → PacketAccStatus) : Exec Assertion TwsDL :=
  if s.currentRequest.reqType ≠ .ACC_STATUS_REQUEST then pure s
  else do
    let p ← Packet.asAccStatus s.packet
    pure { s with packet := some (.accStatus (f p)) }

/-- `twsUpdateAccountValue`. -/
def twsUpdateAccountValue (s : TwsDL) (row : RowAccVal) := s.onAccStatus (·.append (.t_AccVal row))

/-- `twsUpdatePortfolio`. -/
def twsUpdatePortfolio (s : TwsDL) (row : RowPrtfl) : Exec Assertion TwsDL := do
  Account.updatePortfolio row
  s.onAccStatus (·.append (.t_Prtfl row))

/-- `twsUpdateAccountTime`. -/
def twsUpdateAccountTime (s : TwsDL) (timeStamp : String) :=
  s.onAccStatus (·.append (.t_stamp timeStamp))

/-- `twsAccountDownloadEnd`. -/
def twsAccountDownloadEnd (s : TwsDL) (accountName : String) :=
  s.onAccStatus (·.appendAccountDownloadEnd accountName)

/-- The common body of the callbacks for executions. -/
def onExecutions (s : TwsDL) (f : PacketExecutions → PacketExecutions) : Exec Assertion TwsDL :=
  if s.currentRequest.reqType ≠ .EXECUTIONS_REQUEST then pure s
  else do
    let p ← Packet.asExecutions s.packet
    pure { s with packet := some (.executions (f p)) }

/-- `twsExecDetails`. -/
def twsExecDetails (s : TwsDL) (reqId : ℤ) (row : RowExecution) :=
  s.onExecutions (·.append reqId row)

/-- `twsExecDetailsEnd`. -/
def twsExecDetailsEnd (s : TwsDL) (reqId : ℤ) := s.onExecutions (·.appendExecutionsEnd reqId)

/-- The beginning of `twsOrderStatus` and `twsOpenOrder`: while all orders
are asked for, everything belongs to the answer. -/
def onOrders (s : TwsDL) (row : TwsRow) (f : Exec Assertion TwsDL) : Exec Assertion TwsDL :=
  if s.currentRequest.reqType = .ORDERS_REQUEST then do
    let p ← Packet.asOrders s.packet
    pure { s with packet := some (.orders (p.append row)) }
  else f

/-- The common rest of `twsOrderStatus` and `twsOpenOrder`: the packet of
the order, live or finished, takes the row. -/
def onOrder (s : TwsDL) (oldSite liveSite : Assertion) (orderId : ℤ)
    (f : PacketPlaceOrder → Exec Assertion PacketPlaceOrder) : Exec Assertion TwsDL :=
  match s.p_orders[orderId]?, s.p_orders_old[orderId]? with
  | some p, _ => do
      ensure (orderId ∉ s.p_orders_old) oldSite
      let p ← f p
      pure { s with p_orders := s.p_orders.insert orderId p }
  | none, some p => do
      ensure (orderId ∉ s.p_orders) liveSite
      let p ← f p
      pure { s with p_orders_old := s.p_orders_old.insert orderId p }
  | none, none => pure s

/-- `twsOrderStatus`. -/
def twsOrderStatus (s : TwsDL) (row : RowOrderStatus) : Exec Assertion TwsDL := do
  Account.update_os row
  s.onOrders (.t_orderStatus row) <|
    s.onOrder .orderStatusOld .orderStatusLive row.id fun p => pure (p.appendOrderStatus row)

/-- `twsOpenOrder`. -/
def twsOpenOrder (s : TwsDL) (row : RowOpenOrder) : Exec Assertion TwsDL := do
  Account.update_oo row
  s.onOrders (.t_openOrder row) <|
    s.onOrder .openOrderOld .openOrderLive row.orderId fun p => p.appendOpenOrder row

variable {s s' : TwsDL}

theorem twsUpdatePortfolio_eq_ok {row : RowPrtfl} :
    s.twsUpdatePortfolio row = .ok s' ↔
      row.contract.conId > 0 ∧ s.onAccStatus (·.append (.t_Prtfl row)) = .ok s' := by
  simp [twsUpdatePortfolio, Account.updatePortfolio]

theorem twsOrderStatus_eq_ok {row : RowOrderStatus} :
    s.twsOrderStatus row = .ok s' ↔ row.permId > 0 ∧
      s.onOrders (.t_orderStatus row) (s.onOrder .orderStatusOld .orderStatusLive row.id
        fun p => pure (p.appendOrderStatus row)) = .ok s' := by
  simp [twsOrderStatus, Account.update_os]

theorem twsOpenOrder_eq_ok {row : RowOpenOrder} :
    s.twsOpenOrder row = .ok s' ↔ row.order.permId > 0 ∧
      s.onOrders (.t_openOrder row) (s.onOrder .openOrderOld .openOrderLive row.orderId
        fun p => p.appendOpenOrder row) = .ok s' := by
  simp [twsOpenOrder, Account.update_oo]

/-- `twsOpenOrderEnd`. -/
def twsOpenOrderEnd (s : TwsDL) : Exec Assertion TwsDL :=
  if s.currentRequest.reqType ≠ .ORDERS_REQUEST then pure s
  else do
    let p ← Packet.asOrders s.packet
    pure { s with packet := some (.orders p.appendOpenOrderEnd) }

/-! ## The connection and the tickers -/

/-- `twsConnectAck`. -/
def twsConnectAck (s : TwsDL) : Exec Assertion TwsDL :=
  if s.asyncEConnect then
    let (s, _) := { s with connectivity_IB_TWS := true }.canSend 2
    pure (s.act .startApi)
  else pure s

/-- `twsCurrentTime`. -/
def twsCurrentTime (s : TwsDL) (time : ℤ) : Exec Assertion TwsDL :=
  pure { s with
    tws_hb := { s.tws_hb with
      cnt_recv := s.tws_hb.cnt_recv + 1
      time_recv := s.now
      tws_time := time } }

/-- `nextValidId`. -/
def nextValidId (s : TwsDL) (orderId : ℤ) : Exec Assertion TwsDL :=
  if s.state = .WAIT_TWS_CON then pure { s with tws_valid_orderId := orderId } else pure s

/-- `twsTickPrice`, without the quotes it stores. -/
def twsTickPrice (s : TwsDL) (reqId : ℤ) : Exec Assertion TwsDL := do
  let () ← atIndex (List.replicate s.quotes ()) (reqId - 1)
  ensure (reqId > 0 ∧ reqId ≤ toInt s.workTodo.mktDataTodo.length) .tickReqId
  pure s

/-- `twsTickSize`, without the quotes it stores. -/
def twsTickSize (s : TwsDL) (reqId : ℤ) : Exec Assertion TwsDL := s.twsTickPrice reqId

/-- `twsTickOptionComputation`, `twsTickGeneric` and `twsTickString`, which
print the contract of the ticker only. -/
def twsTick (s : TwsDL) (reqId : ℤ) : Exec Assertion TwsDL := do
  let _c ← deref (if reqId > 0 then s.workTodo.mktDataTodo[(reqId - 1).toNat]? else none)
  pure s

end TwsDL

end Twstools
