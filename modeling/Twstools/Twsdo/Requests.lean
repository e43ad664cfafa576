import Twstools.Twsdo.Model
/-!
# Making requests

Each of these functions takes a job off its todo list, opens a packet with
the next request number, and sends. Orders are not waited for: all of them
are placed as soon as nothing else is left to do.
-/

namespace Twstools

namespace TwsDL

/-- `reqContractDetails`. -/
def reqContractDetails (s : TwsDL) : Exec Assertion TwsDL := do
  let (s, ok) := s.canSend 1
  if ok then do
    let todo ← s.workTodo.contractDetailsTodo.checkout
    let s := { s with workTodo := { s.workTodo with contractDetailsTodo := todo } }
    let cdR ← todo.current
    let s ← s.nextRequest .CONTRACT_DETAILS_REQUEST
    let p ← ({} : PacketContractDetails).record s.currentRequest.reqId cdR
    let s := { s with packet := some (.contractDetails p) }
    pure (s.act (.reqContractDetails s.currentRequest.reqId cdR.ibContract))
  else pure s

/-- `reqHistoricalData`. `checkoutOpt` may tell to wait. -/
def reqHistoricalData (s : TwsDL) : Exec Assertion TwsDL := do
  ensure (s.workTodo.histTodo.countLeft > 0) .reqHistoricalDataLeft
  let (h, pacingControl, wait) ← s.workTodo.histTodo.checkoutOpt s.pacingControl s.dataFarms s.now
  let s := { s.setHist h with pacingControl := pacingControl }
  if wait > 0 then pure { s with curIdleTime := if wait < 1000 then wait else 1000 }
  else do
    let s ← s.nextRequest .HIST_REQUEST
    let hR ← s.workTodo.histTodo.current
    let pacingControl ← s.pacingControl.addRequest s.dataFarms s.now hR.ibContract
    let s := { s with pacingControl := pacingControl }
    let p ← ({} : PacketHistData).record s.currentRequest.reqId hR
    let s := { s with packet := some (.histData p) }
    pure (s.act (.reqHistoricalData s.currentRequest.reqId hR))

/-- `reqAccStatus`. -/
def reqAccStatus (s : TwsDL) : Exec Assertion TwsDL := do
  let s ← s.nextRequest .ACC_STATUS_REQUEST
  let aR : AccStatusRequest := { subscribe := true, acctCode := s.cfg.tws_account_name }
  let p ← ({} : PacketAccStatus).record aR
  let s := { s with packet := some (.accStatus p) }
  pure (s.act (.reqAccountUpdates aR.subscribe aR.acctCode))

/-- `reqExecutions`. -/
def reqExecutions (s : TwsDL) : Exec Assertion TwsDL := do
  let s ← s.nextRequest .EXECUTIONS_REQUEST
  let p ← ({} : PacketExecutions).record s.currentRequest.reqId
  let s := { s with packet := some (.executions p) }
  pure (s.act (.reqExecutions s.currentRequest.reqId))

/-- `reqOrders`. -/
def reqOrders (s : TwsDL) : Exec Assertion TwsDL := do
  let s ← s.nextRequest .ORDERS_REQUEST
  let p ← ({} : PacketOrders).record
  let s := { s with packet := some (.orders p) }
  pure (s.act .reqAllOpenOrders)

/-- `reqOptParams`. -/
def reqOptParams (s : TwsDL) : Exec Assertion TwsDL := do
  let (s, ok) := s.canSend 1
  if ok then do
    let todo ← s.workTodo.optParamsTodo.checkout
    let s := { s with workTodo := { s.workTodo with optParamsTodo := todo } }
    let opR ← todo.current
    let s ← s.nextRequest .OPT_PARAMS_REQUEST
    let p ← ({} : PacketOptParams).record s.currentRequest.reqId opR
    let s := { s with packet := some (.optParams p) }
    pure (s.act (.reqSecDefOptParams s.currentRequest.reqId opR.ibContract))
  else pure s

/-- The number of an order: its own, or the next one TWS allows. -/
def orderIdOf (s : TwsDL) (pO : PlaceOrder) : Exec Assertion (TwsDL × ℤ) :=
  if pO.orderId = 0 then s.fetchIncOrderId else pure (s, pO.orderId)

/-- The packet of an order: a new one, or that of a live order with this
number. The orders that are finished are not looked at. -/
def recordOrder (s : TwsDL) (orderId : ℤ) (pO : PlaceOrder) : Exec Assertion TwsDL := do
  let p ← (match s.p_orders[orderId]? with
    | none => ({} : PacketPlaceOrder).record s.now orderId pO
    | some p => p.modify s.now pO)
  pure { s with p_orders := s.p_orders.insert orderId p }

/-- What `placeOrder` sends: an order of nothing may cancel. The client
takes the number as an `int`. -/
def sendOrder (s : TwsDL) (orderId : ℤ) (pO : PlaceOrder) : TwsDL :=
  if pO.order.totalQuantity ≠ 0 ∨ strcaseEq pO.order.action "CANCEL" = false then
    s.act (.placeOrder (toInt orderId) pO.contract pO.order)
  else s.act (.cancelOrder (toInt orderId))

/-- `placeOrder`. -/
def placeOrder (s : TwsDL) : Exec Assertion TwsDL := do
  let todo ← s.workTodo.placeOrderTodo.checkout
  let s := { s with workTodo := { s.workTodo with placeOrderTodo := todo } }
  let pO ← todo.current
  let (s, orderId) ← s.orderIdOf pO
  let s ← s.recordOrder orderId pO
  pure (s.sendOrder orderId pO)

/-- The loop of `placeAllOrders`, for so many iterations at most. -/
def placeOrders : ℕ → TwsDL → Exec Assertion TwsDL
  | 0, s => pure s
  | n + 1, s =>
      if s.workTodo.placeOrderTodo.countLeft > 0 then
        let (s, ok) := s.canSend 1
        if ok then do
          let s ← s.placeOrder
          placeOrders n s
        else pure s
      else pure s

/-- `placeAllOrders`: each iteration places one of the orders left. -/
def placeAllOrders (s : TwsDL) : Exec Assertion TwsDL :=
  placeOrders s.workTodo.placeOrderTodo.countLeft.toNat s

/-- `reqMktData`. The tickers get the numbers from 1 on. -/
def reqMktData (s : TwsDL) : Exec Assertion TwsDL := do
  let v := s.workTodo.mktDataTodo
  ensure (s.quotes = 0) .reqMktDataQuotes
  pure { s with
    quotes := v.length
    out := s.out ++ v.mapIdx fun i r => .reqMktData (i + 1) r
    fuckme := v.length + 1 }

end TwsDL

end Twstools
