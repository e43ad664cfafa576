import Twstools.Twsdo.Finish
import Twstools.Twsdo.Requests
import Twstools.Twsdo.Errors
import Twstools.Twsdo.Callbacks
import Twstools.Common.Run
/-!
# The event loop

A run of the program is a sequence of events: the clock goes on, TWS calls
back, or the event loop takes one turn. Nothing is assumed about their
order. A step is an event that does not end the program.
-/

namespace Twstools

/-- What connecting does: the errors it calls back with, its result, and
whether the socket is connected then. -/
structure Connect where
  errors : List RowError := []
  con : Bool := true
  connected : Bool := true
  deriving DecidableEq

/-- The events. -/
inductive Event where
  | clock (now : ℤ)
  | turn (c : Connect)
  | connectAck
  | connectionClosed
  | error (err : RowError)
  | contractDetails (reqId : ℤ) (cd : ContractDetails)
  | bondContractDetails (reqId : ℤ) (cd : ContractDetails)
  | contractDetailsEnd (reqId : ℤ)
  | historicalData (reqId : ℤ) (row : RowHist)
  | optParams (reqId : ℤ) (r : RowOptParams)
  | optParamsEnd (reqId : ℤ)
  | updateAccountValue (row : RowAccVal)
  | updatePortfolio (row : RowPrtfl)
  | updateAccountTime (timeStamp : String)
  | accountDownloadEnd (accountName : String)
  | execDetails (reqId : ℤ) (row : RowExecution)
  | execDetailsEnd (reqId : ℤ)
  | orderStatus (row : RowOrderStatus)
  | openOrder (row : RowOpenOrder)
  | openOrderEnd
  | currentTime (time : ℤ)
  | nextValidId (orderId : ℤ)
  | tickPrice (reqId : ℤ)
  | tickSize (reqId : ℤ)
  | tick (reqId : ℤ)
  deriving DecidableEq

/-- Whether the event is a turn of the event loop. -/
def Event.isTurn : Event → Bool
  | .turn _ => true
  | _ => false

namespace TwsDL

/-- `connectTws`. -/
def connectTws (c : Connect) (s : TwsDL) : Exec Assertion TwsDL := do
  ensure (s.connected = false ∧ s.connectivity_IB_TWS = false) .connectTwsConnected
  let w := s.now - s.lastConnectionTime
  if w < s.cfg.tws_conTimeout then pure { s with curIdleTime := s.cfg.tws_conTimeout - w }
  else do
    let s := { s with lastConnectionTime := s.now }
    let s ← s.changeState .WAIT_TWS_CON
    let s := { s with tws_hb := {} }
    let s ← c.errors.foldlM twsError s
    let s := { s with connected := c.connected }
    ensure (c.con = s.connected) .connectTwsResult
    if c.con = false then s.changeState .IDLE
    else if s.asyncEConnect = false then pure { s with connectivity_IB_TWS := true }
    else pure s

/-- The part of `waitTwsCon` that asks for the time. -/
def askTime (s : TwsDL) : TwsDL :=
  if s.tws_hb.tws_time = 0 ∧ s.tws_valid_orderId ≠ 0 then
    let s := { s with tws_hb := { s.tws_hb with cnt_sent := 1, time_sent := s.now } }
    let (s, _) := s.canSend 2
    let s := if s.cfg.mkt_data_type ≠ 0 then s.act (.reqMarketDataType s.cfg.mkt_data_type) else s
    s.act .reqCurrentTime
  else s

/-- `waitTwsCon`. -/
def waitTwsCon (s : TwsDL) : Exec Assertion TwsDL :=
  let w := s.cfg.tws_conTimeout - (s.now - s.lastConnectionTime)
  if s.connected then
    let s := s.askTime
    if s.tws_hb.tws_time ≠ 0 ∧ s.tws_valid_orderId ≠ 0 then s.changeState .IDLE
    else if w > 0 then pure { s with curIdleTime := w }
    else s.disconnectTWS
  else s.changeState .IDLE

/-- The static variable of `idle`: the tickers are asked for once. -/
def startMktData (s : TwsDL) : Exec Assertion TwsDL :=
  if s.fuckme ≤ 0 then s.reqMktData else pure s

/-- The switch of `idle`. -/
def request (s : TwsDL) : ReqType → Exec Assertion TwsDL
  | .ACC_STATUS_REQUEST => s.reqAccStatus
  | .EXECUTIONS_REQUEST => s.reqExecutions
  | .ORDERS_REQUEST => s.reqOrders
  | .CONTRACT_DETAILS_REQUEST => s.reqContractDetails
  | .HIST_REQUEST => s.reqHistoricalData
  | .OPT_PARAMS_REQUEST => s.reqOptParams
  | .NONE => s.placeAllOrders

/-- The end of `idle`: nothing is left to do. -/
def checkDone (s : TwsDL) (reqType : ReqType) : TwsDL :=
  if reqType = .NONE ∧ s.fuckme ≤ 1 ∧ s.workTodo.placeOrderTodo.countLeft ≤ 0 ∧
      s.p_orders.isEmpty then
    { s with lastError := "No more work to do.", quit := true }
  else s

/-- `idle` after `waitData`, while connected. -/
def work (s : TwsDL) : Exec Assertion TwsDL := do
  let s ← s.startMktData
  let (workTodo, reqType) := s.workTodo.nextReqType
  let s ← { s with workTodo := workTodo }.request reqType
  pure (s.checkDone reqType)

/-- `idle`. -/
def idle (c : Connect) (s : TwsDL) : Exec Assertion TwsDL := do
  let s ← s.waitData
  if s.quit = true ∨ s.currentRequest.reqType ≠ .NONE then pure s
  else if s.connected = false then s.connectTws c
  else s.work

/-- One turn of `eventLoop`, without the call of `selectStuff`. -/
def turn (c : Connect) (s : TwsDL) : Exec Assertion TwsDL := do
  let s := { s with curIdleTime := -1 }
  let s ← (match s.state with
    | .WAIT_TWS_CON => s.waitTwsCon
    | .IDLE => s.idle c)
  pure (if s.curIdleTime = -1 then { s with curIdleTime := 50 } else s)

/-- What an event does. -/
def handle (s : TwsDL) : Event → Exec Assertion TwsDL
  | .clock now => pure { s with now := now }
  | .turn c => s.turn c
  | .connectAck => s.twsConnectAck
  | .connectionClosed => { s with connected := false }.twsConnectionClosed
  | .error err => s.twsError err
  | .contractDetails reqId cd => s.twsContractDetails reqId cd
  | .bondContractDetails reqId cd => s.twsBondContractDetails reqId cd
  | .contractDetailsEnd reqId => s.twsContractDetailsEnd reqId
  | .historicalData reqId row => s.twsHistoricalData reqId row
  | .optParams reqId r => s.twsOptParams reqId r
  | .optParamsEnd reqId => s.twsOptParamsEnd reqId
  | .updateAccountValue row => s.twsUpdateAccountValue row
  | .updatePortfolio row => s.twsUpdatePortfolio row
  | .updateAccountTime timeStamp => s.twsUpdateAccountTime timeStamp
  | .accountDownloadEnd accountName => s.twsAccountDownloadEnd accountName
  | .execDetails reqId row => s.twsExecDetails reqId row
  | .execDetailsEnd reqId => s.twsExecDetailsEnd reqId
  | .orderStatus row => s.twsOrderStatus row
  | .openOrder row => s.twsOpenOrder row
  | .openOrderEnd => s.twsOpenOrderEnd
  | .currentTime time => s.twsCurrentTime time
  | .nextValidId orderId => s.nextValidId orderId
  | .tickPrice reqId => s.twsTickPrice reqId
  | .tickSize reqId => s.twsTickSize reqId
  | .tick reqId => s.twsTick reqId

/-- One step of the program: the loop goes on until `quit` is set. -/
def Step (s : TwsDL) (e : Event) (s' : TwsDL) : Prop := s.quit = false ∧ s.handle e = .ok s'

/-- `Step`, to be executed. -/
def next (s : TwsDL) (e : Event) : Option TwsDL := if s.quit then none else (s.handle e).toOption

theorem step_of_next {s s' : TwsDL} {e : Event} (h : s.next e = some s') : s.Step e s' := by
  unfold next at h
  split at h
  · cases h
  · rename_i hq
    refine ⟨by simpa using hq, ?_⟩
    cases he : s.handle e with
    | error f => rw [he] at h; cases h
    | ok s₁ => rw [he] at h; rw [Option.some.inj h]

/-- The program on a sequence of events: it takes no more once `quit` is
set. -/
def play (evs : List Event) (s : TwsDL) : Exec Assertion TwsDL :=
  evs.foldlM (fun s e => if s.quit then pure s else s.handle e) s

/-- **What is played to a state that is not the last is a run.** -/
theorem run_of_play {s s' : TwsDL} {evs : List Event} (hq : s'.quit = false)
    (h : s.play evs = .ok s') : Run Step s evs s' := by
  induction evs using List.reverseRecOn generalizing s' with
  | nil =>
      rw [← Except.ok.inj h]
      exact .nil
  | append_singleton evs e ih =>
      rw [play, List.foldlM_append, Exec.bind_eq_ok] at h
      obtain ⟨s₁, h₁, h⟩ := h
      have hlast : (if s₁.quit then pure s₁ else s₁.handle e) = .ok s' := by simpa using h
      cases hq₁ : s₁.quit with
      | true =>
          rw [hq₁, if_pos rfl] at hlast
          obtain rfl := Except.ok.inj hlast
          exact absurd (hq₁.symm.trans hq) (by decide)
      | false =>
          rw [hq₁, if_neg (by decide)] at hlast
          exact (ih hq₁ h₁).snoc ⟨hq₁, hlast⟩

/-- Runs are played. -/
theorem play_of_run {s s' : TwsDL} {evs : List Event} (h : Run Step s evs s') :
    s.play evs = .ok s' := by
  induction h with
  | nil => rfl
  | snoc _ hstep ih =>
      rw [play, List.foldlM_append]
      refine Exec.bind_eq_ok.2 ⟨_, ih, ?_⟩
      simp [hstep.1, hstep.2]

/-- **A fault has its place**: a run leads to the event that ends the
program. -/
theorem play_eq_error {s : TwsDL} {evs : List Event} {f : Fault Assertion} :
    s.play evs = .error f ↔ ∃ pre e post s', evs = pre ++ e :: post ∧ Run Step s pre s' ∧
      s'.quit = false ∧ s'.handle e = .error f := by
  rw [play, Exec.foldlM_eq_error]
  constructor
  · rintro ⟨pre, e, post, s', rfl, hpre, he⟩
    cases hq : s'.quit with
    | true =>
        rw [hq, if_pos rfl] at he
        cases he
    | false =>
        rw [hq, if_neg (by decide)] at he
        exact ⟨pre, e, post, s', rfl, run_of_play hq hpre, hq, he⟩
  · rintro ⟨pre, e, post, s', rfl, hpre, hq, he⟩
    exact ⟨pre, e, post, s', rfl, play_of_run hpre, by simp [hq, he]⟩

/-- The events after which the program is connected and idle: at the time
`t` it connects, TWS hands out the order number `id` and tells its time. -/
def connects (t id : ℤ) : List Event :=
  [.clock t, .turn {}, .nextValidId id, .turn {}, .currentTime t, .turn {}]

end TwsDL

end Twstools
