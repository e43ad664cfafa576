import Twstools.Twsdo.Model
import Mathlib.Data.List.Infix
/-!
# Errors and lost connections

`twsError` gets every message of TWS. One about the current request may
close its packet, one about an order closes the order, and the others are
about the connection. While there is no connection only failures to
connect are expected.
-/

namespace Twstools

/-- `ERR_MATCH`. -/
def RowError.matches (err : RowError) (str : String) : Bool := str.toList <:+: err.msg.toList

namespace TwsDL

/-- `errorContracts`. -/
def errorContracts (s : TwsDL) (err : RowError) : Exec Assertion TwsDL :=
  if err.code = 200 then
    -- a timeout pushes the request back
    s.closePacket (if s.connectivity_IB_TWS then .REQUEST else .TIMEOUT)
  else if err.code = 321 ∨ err.code = 322 then s.closePacket .REQUEST
  else pure s

/-- `dataFarms.learnHmds(c)`. -/
def learnHmds (s : TwsDL) (c : Contract) : TwsDL :=
  { s with dataFarms := s.dataFarms.learnHmds c }

/-- `pacingControl.remove_last_request(c)`. -/
def removeLastRequest (s : TwsDL) (c : Contract) : Exec Assertion TwsDL := do
  let pacingControl ← s.pacingControl.removeLastRequest s.dataFarms c
  pure { s with pacingControl := pacingControl }

/-- The messages of error 162. -/
def errorHistService (s : TwsDL) (err : RowError) (cur_hR : HistRequest) :
    Exec Assertion TwsDL :=
  let curContract := cur_hR.ibContract
  if err.matches "Historical data request pacing violation" then do
    let s ← s.closePacket .TWSCON
    let pacingControl ← s.pacingControl.notifyViolation s.dataFarms s.now curContract
    pure { s with pacingControl := pacingControl }
  else if err.matches "HMDS query returned no data:" then
    (s.learnHmds curContract).closePacket .NODATA
  else if err.matches "No historical market data for" then
    (s.learnHmds curContract).closePacket .NAV
  else if err.matches "No data of type EODChart is available" ∨
      err.matches "No data of type DayChart is available" ∨
      err.matches "BEST queries are not supported for this contract" then do
    let s ← s.closePacket .NAV
    (s.setHist (s.workTodo.histTodo.skipByNodata cur_hR)).removeLastRequest curContract
  else if err.matches "No market data permissions for" then do
    let s ← (s.learnHmds curContract).closePacket .REQUEST
    (s.setHist (s.workTodo.histTodo.skipByPerm curContract)).removeLastRequest curContract
  else if err.matches "Unknown contract" then
    (s.learnHmds curContract).closePacket .REQUEST
  else pure s

/-- The messages of error 165. -/
def errorHistServer (s : TwsDL) (err : RowError) (curContract : Contract) :
    Exec Assertion TwsDL :=
  if err.matches "HMDS server disconnect occurred.  Attempting reconnection" ∨
      err.matches "HMDS connection attempt failed.  Connection will be re-attempted" then
    pure { s with curIdleTime := s.cfg.tws_reqTimeout }
  else if err.matches "HMDS server connection was successful" then do
    let dataFarms ← s.dataFarms.learnHmdsLastOk s.msgCounter curContract
    pure { s with dataFarms := dataFarms }
  else pure s

/-- `errorHistData`. -/
def errorHistData (s : TwsDL) (err : RowError) : Exec Assertion TwsDL := do
  let cur_hR ← s.workTodo.histTodo.current
  let _p_histData ← Packet.asHistData s.packet
  if err.code = 162 then s.errorHistService err cur_hR
  else if err.code = 165 then s.errorHistServer err cur_hR.ibContract
  else if err.code = 200 then
    s.closePacket (if s.connectivity_IB_TWS then .REQUEST else .TIMEOUT)
  else if err.code = 321 then s.closePacket .REQUEST
  else pure s

/-- `errorPlaceOrder`. Error 2102 leaves the order open. -/
def errorPlaceOrder (s : TwsDL) (err : RowError) : Exec Assertion TwsDL :=
  match s.p_orders[err.id]?, s.p_orders_old[err.id]? with
  | some p, _ => do
      ensure (err.id ∉ s.p_orders_old) .errorPlaceOrderOld
      let p := p.appendError err
      let p ← (if err.code = 2102 then pure p else p.closeError .REQUEST)
      pure { s with p_orders := s.p_orders.insert err.id p }
  | none, some p => do
      ensure (err.id ∉ s.p_orders) .errorPlaceOrderLive
      pure { s with p_orders_old := s.p_orders_old.insert err.id (p.appendError err) }
  | none, none => pure s

/-- The messages that are about no request. -/
def errorGeneric (s : TwsDL) (err : RowError) : Exec Assertion TwsDL :=
  if err.code = 1100 then do
    ensure (err.matches "Connectivity between IB and T") .twsErrorMessage
    ensure (err.matches " has been lost.") .twsErrorMessage
    pure { s with connectivity_IB_TWS := false, curIdleTime := s.cfg.tws_reqTimeout }
  else if err.code = 1101 ∨ err.code = 1102 then do
    ensure (err.matches "Connectivity between IB and T") .twsErrorMessage
    ensure (err.matches (if err.code = 1101 then " has been restored - data lost."
      else " has been restored - data maintained.")) .twsErrorMessage
    let s := { s with connectivity_IB_TWS := true }
    if s.currentRequest.reqType = .HIST_REQUEST then s.closePacket .TWSCON else pure s
  else if err.code = 1300 then do
    ensure (err.matches "TWS socket port has been reset and this connection is being dropped.")
      .twsErrorMessage
    pure s
  else if 2103 ≤ err.code ∧ err.code ≤ 2108 then do
    let dataFarms ← s.dataFarms.notify s.msgCounter err.code err.msg
    let s := { s with dataFarms := dataFarms }
    pure { s with pacingControl := s.pacingControl.clear s.dataFarms s.now }
  else if err.code = 2110 then do
    ensure (err.matches "Connectivity between T") .twsErrorMessage
    ensure (err.matches " and server is broken. It will be restored automatically.")
      .twsErrorMessage
    pure { s with connectivity_IB_TWS := false }
  else pure s

/-- `twsError` for a message about the current request. -/
def errorRequest (s : TwsDL) (err : RowError) : Exec Assertion TwsDL :=
  match s.currentRequest.reqType with
  | .CONTRACT_DETAILS_REQUEST | .OPT_PARAMS_REQUEST => s.errorContracts err
  | .HIST_REQUEST => s.errorHistData err
  | .ACC_STATUS_REQUEST | .EXECUTIONS_REQUEST | .ORDERS_REQUEST => do
      ensure false .twsErrorRequestType
      pure s
  | .NONE => pure s

/-- `twsError`. -/
def twsError (s : TwsDL) (err : RowError) : Exec Assertion TwsDL := do
  let s := { s with msgCounter := s.msgCounter + 1 }
  if s.connected = false then do
    ensure (err.code = 503 ∨ err.code = 502) .twsErrorNotConnected
    pure s
  else if err.id = s.currentRequest.reqId then s.errorRequest err
  else do
    let s ← s.errorPlaceOrder err
    if err.id ≠ -1 then pure s else s.errorGeneric err

/-- The request of a lost connection. -/
def closeRequest (s : TwsDL) : Exec Assertion TwsDL :=
  match s.currentRequest.reqType with
  | .NONE => pure s
  | .CONTRACT_DETAILS_REQUEST | .OPT_PARAMS_REQUEST | .HIST_REQUEST => do
      let p ← deref s.packet
      if p.finished then pure s else s.closePacket .TWSCON
  | .ACC_STATUS_REQUEST | .EXECUTIONS_REQUEST | .ORDERS_REQUEST => do
      let p ← deref s.packet
      ensure p.finished .connectionClosedRequest
      pure s

/-- `twsConnectionClosed`. -/
def twsConnectionClosed (s : TwsDL) : Exec Assertion TwsDL := do
  let s ← s.closeRequest
  ensure s.p_orders.isEmpty .connectionClosedOrders
  let s := { s with connectivity_IB_TWS := false, dataFarms := s.dataFarms.setAllBroken }
  pure { s with
    pacingControl := s.pacingControl.clear s.dataFarms s.now
    lastConnectionTime := s.now }

/-- `disconnectTWS` of the client. -/
def disconnectTWS (s : TwsDL) : Exec Assertion TwsDL :=
  if s.connected then ({ s with connected := false }.act .eDisconnect).twsConnectionClosed
  else pure s

end TwsDL

end Twstools
