import Twstools.Twsdo.Todo
import Twstools.Twsdo.Packet
/-!
# The state of `twsdo`

`TwsDL` is the whole program between two calls of the TWS API: what is left
to do, the request that is being waited for and the packet that collects
its answer, the orders, the pacing, and the connection. `out` is what the
program has done to the world so far, oldest first.
-/

namespace Twstools

open Std

/-- `ConfigTwsdo`, the part the event loop reads. -/
structure ConfigTwsdo where
  tws_account_name : String := ""
  mkt_data_type : ℤ := 3
  tws_conTimeout : ℤ := 30000
  tws_reqTimeout : ℤ := 1200000
  tws_maxRequests : ℤ := 60
  tws_pacingInterval : ℤ := 605000
  tws_minPacingTime : ℤ := 1000
  tws_violationPause : ℤ := 60000
  get_account : Bool := false
  get_exec : Bool := false
  get_order : Bool := false

/-- `RateLimit`. -/
structure RateLimit where
  m_count : ℤ := 0
  m_time : ℤ := 0

namespace RateLimit

/-- `m_interval`. -/
def m_interval : ℤ := 500

/-- `m_rate`. -/
def m_rate : ℤ := 25

/-- `can_send`. The time is unsigned. -/
def canSend (r : RateLimit) (clock n : ℤ) : RateLimit × Bool :=
  let now := clock.tdiv m_interval % 18446744073709551616
  if r.m_time < now then ({ m_time := now, m_count := n }, true)
  else if r.m_count + n > m_rate then (r, false)
  else ({ r with m_count := r.m_count + n }, true)

end RateLimit

/-- `TwsHeartBeat`. -/
structure TwsHeartBeat where
  cnt_sent : ℤ := 0
  cnt_recv : ℤ := 0
  time_sent : ℤ := 0
  time_recv : ℤ := 0
  tws_time : ℤ := 0

/-- What the program does: the calls of `TWSClient`, and the packets it
writes or deletes. A written packet comes with the historical job that was
checked out, which the program itself only prints for debugging. -/
inductive Action where
  | reqContractDetails (reqId : ℤ) (ibContract : Contract)
  | reqHistoricalData (reqId : ℤ) (hR : HistRequest)
  | reqSecDefOptParams (reqId : ℤ) (ibContract : Contract)
  | reqAccountUpdates (subscribe : Bool) (acctCode : String)
  | reqExecutions (reqId : ℤ)
  | reqAllOpenOrders
  | placeOrder (orderId : ℤ) (contract : Contract) (order : Order)
  | cancelOrder (orderId : ℤ)
  | reqMktData (tickerId : ℤ) (r : MktDataRequest)
  | reqMarketDataType (t : ℤ)
  | reqCurrentTime
  | startApi
  | eDisconnect
  | dumpXml (p : Packet) (job : Option HistJob)
  | delete (p : Packet)
  | dumpOrder (orderId : ℤ) (p : PacketPlaceOrder)
  deriving DecidableEq

/-- `TwsDL::State`. -/
inductive State where
  | WAIT_TWS_CON
  | IDLE
  deriving DecidableEq, Repr

/-- `TwsDL`. The last fields are not members of the class: `fuckme` is the
static variable of `idle`, `connected` and `asyncEConnect` are asked of the
socket, `now` is the clock. -/
structure TwsDL where
  cfg : ConfigTwsdo
  state : State := .IDLE
  quit : Bool := false
  error : ℤ := 0
  lastError : String := ""
  lastConnectionTime : ℤ := 0
  tws_hb : TwsHeartBeat := {}
  tws_valid_orderId : ℤ := 0
  connectivity_IB_TWS : Bool := false
  curIdleTime : ℤ := 0
  rate_limit : RateLimit := {}
  msgCounter : ℤ := 0
  currentRequest : GenericRequest := {}
  workTodo : WorkTodo := {}
  quotes : ℕ := 0
  packet : Option Packet := none
  p_orders : TreeMap ℤ PacketPlaceOrder := ∅
  p_orders_old : TreeMap ℤ PacketPlaceOrder := ∅
  dataFarms : DataFarmStates := .init
  pacingControl : PacingGod := .init
  fuckme : ℤ := 0
  connected : Bool := false
  asyncEConnect : Bool := false
  now : ℤ := 0
  out : List Action := []

namespace TwsDL

/-- One action more. -/
def act (s : TwsDL) (a : Action) : TwsDL := { s with out := s.out ++ [a] }

/-- `rate_limit->can_send(n)`. -/
def canSend (s : TwsDL) (n : ℤ) : TwsDL × Bool :=
  let (rate_limit, ok) := s.rate_limit.canSend s.now n
  ({ s with rate_limit := rate_limit }, ok)

/-- The todo list of historical jobs after one of its operations. -/
def setHist (s : TwsDL) (h : HistTodo) : TwsDL :=
  { s with workTodo := { s.workTodo with histTodo := h } }

/-- `changeState`. -/
def changeState (s : TwsDL) (t : State) : Exec Assertion TwsDL := do
  ensure (s.state ≠ t) .changeState
  pure { s with state := t }

/-- `currentRequest.nextRequest(t)`. -/
def nextRequest (s : TwsDL) (t : ReqType) : Exec Assertion TwsDL := do
  let currentRequest ← s.currentRequest.nextRequest t s.now
  pure { s with currentRequest := currentRequest }

/-- `packet->closeError(e)`. -/
def closePacket (s : TwsDL) (e : ReqErr) : Exec Assertion TwsDL := do
  let p ← deref s.packet
  let p ← p.closeError e
  pure { s with packet := some p }

/-- `packet->dumpXml()`. -/
def dumpPacket (s : TwsDL) : Exec Assertion TwsDL := do
  let p ← deref s.packet
  pure (s.act (.dumpXml p s.workTodo.histTodo.checkedOutRequest))

/-- `fetch_inc_order_id`, which `placeOrder` repeats. The number is a
`long` and must not overflow. -/
def fetchIncOrderId (s : TwsDL) : Exec Assertion (TwsDL × ℤ) :=
  if s.tws_valid_orderId < 9223372036854775807 then
    .ok ({ s with tws_valid_orderId := s.tws_valid_orderId + 1 }, s.tws_valid_orderId)
  else .error .overflow

/-- `setup` and the beginning of `start`, for the requests of a work file. -/
def start (cfg : ConfigTwsdo) (asyncEConnect : Bool) (jobs : List Job) : TwsDL where
  cfg := cfg
  asyncEConnect := asyncEConnect
  pacingControl :=
    (PacingGod.init.setPacingTime cfg.tws_maxRequests cfg.tws_pacingInterval
      cfg.tws_minPacingTime).setViolationPause cfg.tws_violationPause
  workTodo :=
    ({ acc_status_todo := cfg.get_account
       executions_todo := cfg.get_exec
       orders_todo := cfg.get_order } : WorkTodo).readFile jobs

end TwsDL

end Twstools
