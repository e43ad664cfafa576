import Twstools.Twsdo.Loop
/-!
# The life of a request

Of the state of the program only `Jobs` matters for a request: the todo
lists, the request, its packet, and what was sent and written. This file
lists what can happen to it. An event other than a turn may change the
packet (`Called`); a turn may finish the request (`Waited`) and then make
the next one (`Worked`).
-/

namespace Twstools

/-- The actions that belong to the current request. -/
def Action.ofRequest : Action → Bool
  | .reqContractDetails .. | .reqHistoricalData .. | .reqSecDefOptParams ..
  | .reqAccountUpdates .. | .reqExecutions .. | .reqAllOpenOrders
  | .dumpXml .. | .delete .. => true
  | .placeOrder .. | .cancelOrder .. | .reqMktData .. | .reqMarketDataType ..
  | .reqCurrentTime | .startApi | .eDisconnect | .dumpOrder .. => false

/-- Those that ask for the account, the executions or the orders. -/
def Action.unnumbered : Action → Bool
  | .reqAccountUpdates .. | .reqExecutions .. | .reqAllOpenOrders => true
  | _ => false

/-- The type and the number under which an action asks. -/
def Action.asks : Action → Option (ReqType × ℤ)
  | .reqContractDetails n _ => some (.CONTRACT_DETAILS_REQUEST, n)
  | .reqHistoricalData n _ => some (.HIST_REQUEST, n)
  | .reqSecDefOptParams n _ => some (.OPT_PARAMS_REQUEST, n)
  | .reqExecutions n => some (.EXECUTIONS_REQUEST, n)
  | _ => none

/-- What a request is about. -/
structure Jobs where
  state : State
  quit : Bool
  error : ℤ
  contractDetailsTodo : ContractDetailsTodo
  optParamsTodo : OptParamsTodo
  histTodo : HistTodo
  request : GenericRequest
  packet : Option Packet
  log : List Action

/-- The part of the program that is about requests. -/
def TwsDL.jobs (s : TwsDL) : Jobs where
  state := s.state
  quit := s.quit
  error := s.error
  contractDetailsTodo := s.workTodo.contractDetailsTodo
  optParamsTodo := s.workTodo.optParamsTodo
  histTodo := s.workTodo.histTodo
  request := s.currentRequest
  packet := s.packet
  log := s.out.filter (·.ofRequest)

/-! ## Rows and marks -/

/-- The rows of the answers that are checked by number. -/
inductive Row where
  | contractDetails (cd : ContractDetails)
  | hist (row : RowHist)
  | optParams (r : RowOptParams)
  deriving DecidableEq

/-- The row an event delivers: for which type of request, under which
number. -/
def Event.row : Event → Option (ReqType × ℤ × Row)
  | .contractDetails n cd | .bondContractDetails n cd =>
      some (.CONTRACT_DETAILS_REQUEST, n, .contractDetails cd)
  | .historicalData n row => if row.isFinished then none else some (.HIST_REQUEST, n, .hist row)
  | .optParams n r => some (.OPT_PARAMS_REQUEST, n, .optParams r)
  | _ => none

/-- The end mark an event is. -/
def Event.mark : Event → Option (ReqType × ℤ)
  | .contractDetailsEnd n => some (.CONTRACT_DETAILS_REQUEST, n)
  | .historicalData n row => if row.isFinished then some (.HIST_REQUEST, n) else none
  | .optParamsEnd n => some (.OPT_PARAMS_REQUEST, n)
  | _ => none

/-- Whether an event may close a packet with an error. -/
def Event.closes : Event → Bool
  | .error _ | .connectionClosed => true
  | _ => false

namespace Packet

/-- The rows of a packet. -/
def rows : Packet → List Row
  | contractDetails p => p.cdList.map .contractDetails
  | histData p => p.rows.map .hist
  | optParams p => p.opList.map .optParams
  | _ => []

/-- The number of a packet. -/
def reqId : Packet → ℤ
  | contractDetails p => p.reqId
  | histData p => p.reqId
  | optParams p => p.reqId
  | executions p => p.reqId
  | _ => -1

/-- The types whose callbacks look at the number. -/
def Numbered (p : Packet) : Prop :=
  p.reqType = .CONTRACT_DETAILS_REQUEST ∨ p.reqType = .HIST_REQUEST ∨
    p.reqType = .OPT_PARAMS_REQUEST

/-- **What an event does to the packet of the request `q`.** -/
inductive Called (e : Event) (q : GenericRequest) : Packet → Packet → Prop
  /-- It is about something else. -/
  | stay {p : Packet} : (∀ r, e.row ≠ some (q.reqType, q.reqId, r)) →
      e.mark ≠ some (q.reqType, q.reqId) → Called e q p p
  /-- A row is appended to the open packet. -/
  | contractRow {p : PacketContractDetails} {cd : ContractDetails} {n : ℤ} :
      e.row = some (q.reqType, q.reqId, .contractDetails cd) → p.mode = .RECORD →
      n = q.reqId → (p.cdList ≠ [] → p.reqId = n) →
      Called e q (contractDetails p)
        (contractDetails { p with reqId := n, cdList := p.cdList ++ [cd] })
  /-- A row is appended to the open packet. -/
  | histRow {p : PacketHistData} {row : RowHist} :
      e.row = some (q.reqType, q.reqId, .hist row) → p.mode = .RECORD → p.error = .NONE →
      Called e q (histData p) (histData { p with rows := p.rows ++ [row] })
  /-- A row is appended to the open packet. -/
  | optRow {p : PacketOptParams} {r : RowOptParams} {n : ℤ} :
      e.row = some (q.reqType, q.reqId, .optParams r) → p.mode = .RECORD →
      n = q.reqId → (p.opList ≠ [] → p.reqId = n) →
      Called e q (optParams p) (optParams { p with reqId := n, opList := p.opList ++ [r] })
  /-- The end mark closes the open packet. -/
  | contractEnd {p : PacketContractDetails} :
      e.mark = some (q.reqType, q.reqId) → p.mode = .RECORD →
      Called e q (contractDetails p) (contractDetails { p with mode := .CLOSED })
  /-- The end mark closes the open packet, which keeps it. -/
  | histEnd {p : PacketHistData} {row : RowHist} :
      e = .historicalData q.reqId row → e.mark = some (q.reqType, q.reqId) →
      p.mode = .RECORD → p.error = .NONE →
      Called e q (histData p) (histData { p with mode := .CLOSED, finishRow := row })
  /-- The end mark closes the open packet. -/
  | optEnd {p : PacketOptParams} :
      e.mark = some (q.reqType, q.reqId) → p.mode = .RECORD →
      Called e q (optParams p) (optParams { p with mode := .CLOSED })
  /-- Account, executions and orders, which have no number to check. -/
  | other {p p' : Packet} : ¬ p.Numbered → p'.reqType = p.reqType →
      p'.base.error = p.base.error → p'.base.mode ≠ .CLEAN → Called e q p p'
  /-- An error or a lost connection closes the packet. -/
  | closed {p p' : Packet} {err : ReqErr} : e.closes = true → err ≠ .NONE →
      (err = .TWSCON → q.reqType ≠ .HIST_REQUEST → e = .connectionClosed) →
      p.closeError err = .ok p' → Called e q p p'

end Packet

/-- What an event does to the historical jobs, next to the packet: some
that are alike are given up together. -/
inductive HistTodo.Skipped (h : HistTodo) : HistTodo → Prop
  | stay : Skipped h h
  | skip (con : Contract) (f : HistRequest → Bool) : Skipped h (h.skip con f)

namespace Jobs

/-- **What an event other than a turn does.** -/
inductive Called (e : Event) (j : Jobs) : Jobs → Prop
  /-- There is no request. -/
  | none : j.packet = none → Called e j j
  /-- The packet changes. -/
  | some {p p' : Packet} {h : HistTodo} : j.packet = some p → p.Called e j.request p' →
      j.histTodo.Skipped h → Called e j { j with packet := some p', histTodo := h }

/-- What finishing the closed packet `p` does to its job. -/
inductive Finished (p : Packet) (j : Jobs) : Jobs → Prop
  /-- The connection was lost: the contract is asked for again. -/
  | contractDetailsAgain {todo : ContractDetailsTodo} : p.reqType = .CONTRACT_DETAILS_REQUEST →
      p.getError = .TWSCON → j.contractDetailsTodo.repeat = .ok todo →
      Finished p j { j with contractDetailsTodo := todo }
  /-- The connection was lost: the option parameters are asked for again. -/
  | optParamsAgain {todo : OptParamsTodo} : p.reqType = .OPT_PARAMS_REQUEST →
      p.getError = .TWSCON → j.optParamsTodo.repeat = .ok todo →
      Finished p j { j with optParamsTodo := todo }
  /-- The historical job is done, with an answer. -/
  | histDumped {h : HistTodo} : p.reqType = .HIST_REQUEST → p.getError = .NONE →
      j.histTodo.tellDone = .ok h →
      Finished p j { j with
        histTodo := h
        log := j.log ++ [.dumpXml p j.histTodo.checkedOutRequest] }
  /-- It is done, without one. -/
  | histDone {h : HistTodo} : p.reqType = .HIST_REQUEST → p.getError ≠ .NONE →
      j.histTodo.tellDone = .ok h → Finished p j { j with histTodo := h }
  /-- It is not done. -/
  | histAgain {h : HistTodo} {priority : ℤ} : p.reqType = .HIST_REQUEST → p.getError ≠ .NONE →
      j.histTodo.cancelForRepeat priority = .ok h → Finished p j { j with histTodo := h }
  /-- Any other answer is written out. -/
  | dumped : p.reqType ≠ .HIST_REQUEST → (p.Numbered → p.getError = .NONE) →
      Finished p j { j with log := j.log ++ [.dumpXml p j.histTodo.checkedOutRequest] }
  /-- Contract details and option parameters are given up after an error. -/
  | dropped : p.Numbered → p.reqType ≠ .HIST_REQUEST → p.getError ≠ .NONE →
      p.getError ≠ .TWSCON → Finished p j j

/-- **What `waitData` does.** -/
inductive Waited (j : Jobs) : Jobs → Prop
  /-- There is no request, or it is still open. -/
  | stay : Waited j j
  /-- The packet is closed, if by a timeout just now, and the request is
  over. -/
  | fin {p p' : Packet} {j' : Jobs} : j.packet = some p →
      (p' = p ∧ p.finished = true ∨ p.finished = false ∧ p.closeError .TIMEOUT = .ok p') →
      Finished p' j j' →
      Waited j { j' with
        packet := none
        request := j.request.close
        log := j'.log ++ [.delete p'] }

/-- **What the rest of a turn does**, no request being open. -/
inductive Worked (j : Jobs) : Jobs → Prop
  /-- Nothing, but for the state. -/
  | stay (st : State) : Worked j { j with state := st }
  /-- Nothing is left to do. -/
  | done : j.contractDetailsTodo.countLeft ≤ 0 → j.optParamsTodo.countLeft ≤ 0 →
      j.histTodo.leftRequests = [] → Worked j { j with quit := true }
  /-- A contract is asked for. -/
  | contractDetails {todo : ContractDetailsTodo} {r : ContractDetailsRequest} {now : ℤ} :
      j.contractDetailsTodo.checkout = .ok todo → todo.current = .ok r →
      Worked j { j with
        contractDetailsTodo := todo
        request := ⟨.CONTRACT_DETAILS_REQUEST, j.request.reqId + 1, now⟩
        packet := some (.contractDetails
          { mode := .RECORD, reqId := j.request.reqId + 1, request := some r })
        log := j.log ++ [.reqContractDetails (j.request.reqId + 1) r.ibContract] }
  /-- Option parameters are asked for. -/
  | optParams {todo : OptParamsTodo} {r : OptParamsRequest} {now : ℤ} :
      j.optParamsTodo.checkout = .ok todo → todo.current = .ok r →
      Worked j { j with
        optParamsTodo := todo
        request := ⟨.OPT_PARAMS_REQUEST, j.request.reqId + 1, now⟩
        packet := some (.optParams
          { mode := .RECORD, reqId := j.request.reqId + 1, request := some r })
        log := j.log ++ [.reqSecDefOptParams (j.request.reqId + 1) r.ibContract] }
  /-- One of the historical jobs left is checked out. -/
  | hist {job : HistJob} {now : ℤ} : j.histTodo.checkedOutRequest = none →
      job ∈ j.histTodo.leftRequests →
      Worked j { j with
        histTodo := { j.histTodo with
          leftRequests := j.histTodo.leftRequests.eraseP (·.ptr = job.ptr)
          checkedOutRequest := some job }
        request := ⟨.HIST_REQUEST, j.request.reqId + 1, now⟩
        packet := some (.histData
          { mode := .RECORD, reqId := j.request.reqId + 1, request := some job.request })
        log := j.log ++ [.reqHistoricalData (j.request.reqId + 1) job.request] }
  /-- The account, the executions or the orders are asked for. -/
  | other {p : Packet} {a : Action} {now : ℤ} : ¬ p.Numbered → p.base = { mode := .RECORD } →
      a.unnumbered = true → (∀ q, a.asks = some q → q.2 = j.request.reqId + 1) →
      Worked j { j with
        request := ⟨p.reqType, j.request.reqId + 1, now⟩
        packet := some p
        log := j.log ++ [a] }

/-- **What a turn does.** -/
inductive Turned (j : Jobs) : Jobs → Prop
  /-- The connection is not complete. -/
  | connect (st : State) : j.request.reqType = .NONE → Turned j { j with state := st }
  /-- A request is open still, or the program is to quit. -/
  | wait {j' : Jobs} : Waited j j' → Turned j j'
  /-- None is open. -/
  | work {j₁ j' : Jobs} : Waited j j₁ → j₁.state = .IDLE → j₁.request.reqType = .NONE →
      Worked j₁ j' → Turned j j'

end Jobs

end Twstools
