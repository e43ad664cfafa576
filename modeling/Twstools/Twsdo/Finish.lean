import Twstools.Twsdo.Model
/-!
# Finishing what has been answered

`waitData` looks at the current packet once a turn. A closed packet is
written out unless it was closed by an error, its job goes back to the
todo list or to the done ones, and the request is over. Orders are
finished one by one, by `finPlaceOrder`.
-/

namespace Twstools

namespace TwsDL

/-- `finContracts`. Its result is whether to go on. -/
def finContracts (s : TwsDL) : Exec Assertion (TwsDL × Bool) := do
  let p ← deref s.packet
  match p.getError with
  | .NONE => do
      let s ← s.dumpPacket
      pure (s, true)
  | .NODATA | .NAV | .REQUEST | .TIMEOUT => pure (s, true)
  | .TWSCON => do
      let conTodo ← s.workTodo.contractDetailsTodo.repeat
      pure ({ s with workTodo := { s.workTodo with contractDetailsTodo := conTodo } }, true)

/-- `finOptParams`. -/
def finOptParams (s : TwsDL) : Exec Assertion (TwsDL × Bool) := do
  let p ← deref s.packet
  match p.getError with
  | .NONE => do
      let s ← s.dumpPacket
      pure (s, true)
  | .NODATA | .NAV | .REQUEST | .TIMEOUT => pure (s, true)
  | .TWSCON => do
      let opTodo ← s.workTodo.optParamsTodo.repeat
      pure ({ s with workTodo := { s.workTodo with optParamsTodo := opTodo } }, true)

/-- `finHist`. -/
def finHist (s : TwsDL) : Exec Assertion (TwsDL × Bool) := do
  let p ← deref s.packet
  match p.getError with
  | .NONE => do
      let s ← s.dumpPacket
      let h ← s.workTodo.histTodo.tellDone
      pure (s.setHist h, true)
  | .NODATA | .NAV => do
      let h ← s.workTodo.histTodo.tellDone
      pure (s.setHist h, true)
  | .TWSCON => do
      let h ← s.workTodo.histTodo.cancelForRepeat 0
      pure (s.setHist h, true)
  | .TIMEOUT => do
      let h ← s.workTodo.histTodo.cancelForRepeat 1
      pure (s.setHist h, true)
  | .REQUEST => do
      let h ← s.workTodo.histTodo.cancelForRepeat 2
      pure (s.setHist h, true)

/-- Whether `finPlaceOrder` closes the order itself: a non transmit order
without an answer for five seconds. -/
def outdated (now : ℤ) (r : PlaceOrder) : Bool := !r.order.transmit && now - r.time_sent > 5000

/-- The loop body of `finPlaceOrder`. -/
def finOrder (s : TwsDL) (orderId : ℤ) (p : PacketPlaceOrder) : Exec Assertion (TwsDL × Bool) := do
  let r ← deref p.request
  ensure (orderId = r.orderId) .finPlaceOrderId
  if p.finished ∨ outdated s.now r then do
    let p ← (if p.finished then pure p else p.closeError .NONE)
    match p.getError with
    | .NONE | .REQUEST | .TIMEOUT => do
        let s := s.act (.dumpOrder orderId p)
        ensure (orderId ∉ s.p_orders_old) .finPlaceOrderOld
        pure ({ s with
          p_orders_old := s.p_orders_old.insert orderId p
          p_orders := s.p_orders.erase orderId }, true)
    | .NODATA | .NAV => pure ({ s with p_orders := s.p_orders.insert orderId p }, true)
    | .TWSCON => pure ({ s with p_orders := s.p_orders.insert orderId p }, false)
  else pure (s, true)

/-- The loop of `finPlaceOrder`. An iteration erases its own entry only,
so it goes through the orders there were at the start. -/
def finOrders : List (ℤ × PacketPlaceOrder) → TwsDL × Bool → Exec Assertion (TwsDL × Bool)
  | [], r => pure r
  | (orderId, p) :: rest, (s, ok) => do
      let (s, ok') ← s.finOrder orderId p
      finOrders rest (s, ok && ok')

/-- `finPlaceOrder`. -/
def finPlaceOrder (s : TwsDL) : Exec Assertion (TwsDL × Bool) :=
  finOrders s.p_orders.toList (s, true)

/-- The switch of `waitData` over the type of the request. -/
def finRequest (s : TwsDL) : Exec Assertion (TwsDL × Bool) :=
  match s.currentRequest.reqType with
  | .OPT_PARAMS_REQUEST => s.finOptParams
  | .CONTRACT_DETAILS_REQUEST => s.finContracts
  | .HIST_REQUEST => s.finHist
  | .ACC_STATUS_REQUEST | .EXECUTIONS_REQUEST | .ORDERS_REQUEST => do
      let s ← s.dumpPacket
      pure (s, true)
  | .NONE => do
      ensure false .waitDataNone
      pure (s, false)

/-- The end of `waitData`, when the packet is closed. -/
def finPacket (s : TwsDL) : Exec Assertion TwsDL := do
  let (s, ok) ← s.finRequest
  let s := if ok then s else { s with error := 1, lastError := "Fatal error.", quit := true }
  let p ← deref s.packet
  let s := s.act (.delete p)
  pure { s with packet := none, currentRequest := s.currentRequest.close }

/-- `waitData` after `finPlaceOrder`. -/
def waitPacket (s : TwsDL) : Exec Assertion TwsDL :=
  match s.packet with
  | none => pure s
  | some p =>
      if s.currentRequest.reqType = .NONE then pure s
      else if p.finished then s.finPacket
      else if s.currentRequest.age s.now ≤ s.cfg.tws_reqTimeout then pure s
      else do
        -- timeout waiting for data
        let s ← s.closePacket .TIMEOUT
        s.finPacket

/-- `waitData`. What `finPlaceOrder` returns is not looked at. -/
def waitData (s : TwsDL) : Exec Assertion TwsDL := do
  let (s, _) ← s.finPlaceOrder
  s.waitPacket

end TwsDL

end Twstools
