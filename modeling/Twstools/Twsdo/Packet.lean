import Twstools.Twsdo.Query
import Twstools.Twsdo.GenericRequest
import Twstools.Assertion
/-!
# Packets

A packet collects the answer to one request. It records from when the
request is made until an end marker or an error closes it, and the first
of these wins: a closed packet keeps its error. The packet that is current
is of one of six classes, told by `Packet.reqType`.
-/

namespace Twstools

/-- `req_err`. -/
inductive ReqErr where
  | NONE
  | NODATA
  | NAV
  | TWSCON
  | TIMEOUT
  | REQUEST
  deriving DecidableEq, Repr

/-- `Packet::Mode`. -/
inductive Mode where
  | CLEAN
  | RECORD
  | CLOSED
  deriving DecidableEq, Repr

/-- The members of the base class `Packet`. -/
structure PacketBase where
  mode : Mode := .CLEAN
  error : ReqErr := .NONE
  deriving DecidableEq

namespace PacketBase

/-- `empty`. -/
def empty (p : PacketBase) : Bool := p.mode = .CLEAN

/-- `finished`. -/
def finished (p : PacketBase) : Bool := p.mode = .CLOSED

/-- `getError`. -/
def getError (p : PacketBase) : ReqErr := p.error

/-- `closeError`: what is closed already is left as it is. -/
def closeError (p : PacketBase) (e : ReqErr) : Exec Assertion PacketBase :=
  if p.mode ≠ .RECORD then do
    ensure (p.mode = .CLOSED) .closeErrorClosed
    pure p
  else pure { p with mode := .CLOSED, error := e }

/-- **The first closing wins.** -/
theorem closeError_eq_ok {p p' : PacketBase} {e : ReqErr} (h : p.closeError e = .ok p') :
    p.mode = .RECORD ∧ p' = { mode := .CLOSED, error := e } ∨ p.mode = .CLOSED ∧ p' = p := by
  unfold closeError at h
  split at h
  · obtain ⟨hm, rfl⟩ : p.mode = .CLOSED ∧ p = p' := by simpa using h
    exact .inr ⟨hm, rfl⟩
  · rename_i hm
    exact .inl ⟨by simpa using hm, (Except.ok.inj h).symm⟩

end PacketBase

/-! ## The classes -/

/-- `PacketContractDetails`. -/
structure PacketContractDetails extends PacketBase where
  reqId : ℤ := -1
  request : Option ContractDetailsRequest := none
  cdList : List ContractDetails := []
  deriving DecidableEq

namespace PacketContractDetails

/-- `record`. -/
def record (p : PacketContractDetails) (reqId : ℤ) (cdr : ContractDetailsRequest) :
    Exec Assertion PacketContractDetails := do
  ensure (p.empty ∧ p.reqId = -1 ∧ p.request = none ∧ p.cdList = []) .contractDetailsRecord
  pure { p with reqId := reqId, request := some cdr, mode := .RECORD }

/-- `setFinished`. -/
def setFinished (p : PacketContractDetails) : Exec Assertion PacketContractDetails := do
  ensure (p.mode = .RECORD) .contractDetailsSetFinished
  pure { p with mode := .CLOSED }

/-- `clear`. -/
def clear (p : PacketContractDetails) : PacketContractDetails :=
  { p with mode := .CLEAN, reqId := -1, cdList := [], request := none }

/-- `append`. The first row sets the number. -/
def append (p : PacketContractDetails) (reqId : ℤ) (c : ContractDetails) :
    Exec Assertion PacketContractDetails := do
  let p := if p.cdList = [] then { p with reqId := reqId } else p
  ensure (p.reqId = reqId) .contractDetailsAppendReqId
  ensure (p.mode = .RECORD) .contractDetailsAppendMode
  pure { p with cdList := p.cdList ++ [c] }

/-- **A row is appended to an open packet only**, under one number. -/
theorem append_eq_ok {p p' : PacketContractDetails} {reqId : ℤ} {c : ContractDetails}
    (h : p.append reqId c = .ok p') : p.mode = .RECORD ∧ (p.cdList ≠ [] → p.reqId = reqId) ∧
      p' = { p with reqId := reqId, cdList := p.cdList ++ [c] } := by
  simp only [append, Exec.bind_eq_ok] at h
  obtain ⟨u, hid, v, hrec, h⟩ := h
  rw [Exec.ensure_eq_ok] at hid hrec
  by_cases hl : p.cdList = []
  · rw [if_pos hl] at hrec h
    exact ⟨hrec, fun hn => absurd hl hn, (Except.ok.inj h).symm⟩
  · rw [if_neg hl] at hid hrec h
    refine ⟨hrec, fun _ => hid, ?_⟩
    rw [← Except.ok.inj h, ← hid]

end PacketContractDetails

/-- `PacketHistData`. -/
structure PacketHistData extends PacketBase where
  reqId : ℤ := -1
  request : Option HistRequest := none
  rows : List RowHist := []
  finishRow : RowHist := {}
  deriving DecidableEq

namespace PacketHistData

/-- `record`. -/
def record (p : PacketHistData) (reqId : ℤ) (hR : HistRequest) :
    Exec Assertion PacketHistData := do
  ensure (p.mode = .CLEAN ∧ p.error = .NONE ∧ p.request = none) .histDataRecord
  pure { p with mode := .RECORD, reqId := reqId, request := some hR }

/-- `clear`. -/
def clear (p : PacketHistData) : PacketHistData :=
  { p with
    mode := .CLEAN
    error := .NONE
    reqId := -1
    request := none
    rows := []
    finishRow := {} }

/-- `append`. -/
def append (p : PacketHistData) (reqId : ℤ) (row : RowHist) : Exec Assertion PacketHistData := do
  ensure (p.mode = .RECORD ∧ p.error = .NONE) .histDataAppendMode
  ensure (p.reqId = reqId) .histDataAppendReqId
  if row.isFinished then pure { p with mode := .CLOSED, finishRow := row }
  else pure { p with rows := p.rows ++ [row] }

/-- **A row is appended to an open packet only**; the last one closes it. -/
theorem append_eq_ok {p p' : PacketHistData} {reqId : ℤ} {row : RowHist}
    (h : p.append reqId row = .ok p') : p.mode = .RECORD ∧ p.error = .NONE ∧ p.reqId = reqId ∧
      p' = if row.isFinished then { p with mode := .CLOSED, finishRow := row }
        else { p with rows := p.rows ++ [row] } := by
  simp only [append, Exec.bind_eq_ok] at h
  obtain ⟨u, hrec, v, hid, h⟩ := h
  rw [Exec.ensure_eq_ok] at hid hrec
  refine ⟨hrec.1, hrec.2, hid, ?_⟩
  split at h
  · rename_i hf
    rw [if_pos hf, ← Except.ok.inj h]
  · rename_i hf
    rw [if_neg hf, ← Except.ok.inj h]

end PacketHistData

/-- `PacketPlaceOrder`. -/
structure PacketPlaceOrder extends PacketBase where
  request : Option PlaceOrder := none
  list : List TwsRow := []
  deriving DecidableEq

namespace PacketPlaceOrder

/-- `closeError` of the base class. -/
def closeError (p : PacketPlaceOrder) (e : ReqErr) : Exec Assertion PacketPlaceOrder := do
  let b ← p.toPacketBase.closeError e
  pure { p with toPacketBase := b }

/-- `record`. -/
def record (p : PacketPlaceOrder) (now orderId : ℤ) (oP : PlaceOrder) :
    Exec Assertion PacketPlaceOrder := do
  ensure (p.mode = .CLEAN ∧ p.error = .NONE ∧ p.request = none) .placeOrderRecord
  pure { p with mode := .RECORD, request := some { oP with orderId := orderId, time_sent := now } }

/-- `modify`. -/
def modify (p : PacketPlaceOrder) (now : ℤ) (oP : PlaceOrder) :
    Exec Assertion PacketPlaceOrder := do
  ensure (p.mode = .RECORD) .placeOrderModifyMode
  let r ← deref p.request
  ensure (r.orderId = oP.orderId) .placeOrderModifyId
  pure { p with request := some { oP with time_sent := now } }

/-- `clear`. -/
def clear (p : PacketPlaceOrder) : PacketPlaceOrder :=
  { p with mode := .CLEAN, error := .NONE, list := [], request := none }

/-- `append(const RowError&)`. -/
def appendError (p : PacketPlaceOrder) (err : RowError) : PacketPlaceOrder :=
  { p with list := p.list ++ [.t_error err] }

/-- `append(const RowOrderStatus&)`: nothing remaining closes the packet. -/
def appendOrderStatus (p : PacketPlaceOrder) (row : RowOrderStatus) : PacketPlaceOrder :=
  { p with
    list := p.list ++ [.t_orderStatus row]
    mode := if row.remaining = 0 then .CLOSED else p.mode }

/-- `append(const RowOpenOrder&)`: for a what-if order it closes the
packet. -/
def appendOpenOrder (p : PacketPlaceOrder) (row : RowOpenOrder) :
    Exec Assertion PacketPlaceOrder := do
  let r ← deref p.request
  pure { p with
    list := p.list ++ [.t_openOrder row]
    mode := if r.order.whatIf then .CLOSED else p.mode }

/-- The first closing wins. -/
theorem closeError_eq_ok {p p' : PacketPlaceOrder} {e : ReqErr} (h : p.closeError e = .ok p') :
    p.mode = .RECORD ∧ p' = { p with mode := .CLOSED, error := e } ∨
      p.mode = .CLOSED ∧ p' = p := by
  simp only [closeError, Exec.bind_eq_ok] at h
  obtain ⟨b, hb, h⟩ := h
  rw [← Except.ok.inj h]
  rcases PacketBase.closeError_eq_ok hb with ⟨hm, rfl⟩ | ⟨hm, rfl⟩
  · exact .inl ⟨hm, rfl⟩
  · exact .inr ⟨hm, rfl⟩

/-- Rows close a packet at most. -/
theorem appendOrderStatus_recorded {p : PacketPlaceOrder} {row : RowOrderStatus}
    (hm : p.mode ≠ .CLEAN) : (p.appendOrderStatus row).mode ≠ .CLEAN := by
  unfold appendOrderStatus
  dsimp only
  split
  · exact Mode.noConfusion
  · exact hm

theorem appendOpenOrder_recorded {p p' : PacketPlaceOrder} {row : RowOpenOrder}
    (h : p.appendOpenOrder row = .ok p') (hm : p.mode ≠ .CLEAN) : p'.mode ≠ .CLEAN := by
  simp only [appendOpenOrder, Exec.bind_eq_ok] at h
  obtain ⟨r, -, h⟩ := h
  rw [← Except.ok.inj h]
  dsimp only
  split
  · exact Mode.noConfusion
  · exact hm

end PacketPlaceOrder

/-- `PacketAccStatus`. -/
structure PacketAccStatus extends PacketBase where
  request : Option AccStatusRequest := none
  list : List RowAcc := []
  deriving DecidableEq

namespace PacketAccStatus

/-- `record`. -/
def record (p : PacketAccStatus) (aR : AccStatusRequest) : Exec Assertion PacketAccStatus := do
  ensure p.empty .accStatusRecord
  pure { p with mode := .RECORD, request := some aR }

/-- `clear`. -/
def clear (p : PacketAccStatus) : Exec Assertion PacketAccStatus := do
  ensure p.finished .accStatusClear
  pure { p with mode := .CLEAN, list := [], request := none }

/-- The `append` functions but the last. -/
def append (p : PacketAccStatus) (row : RowAcc) : PacketAccStatus :=
  { p with list := p.list ++ [row] }

/-- `appendAccountDownloadEnd`. -/
def appendAccountDownloadEnd (p : PacketAccStatus) (accountName : String) : PacketAccStatus :=
  { p with list := p.list ++ [.t_end accountName], mode := .CLOSED }

end PacketAccStatus

/-- `PacketExecutions`. The request has no fields. -/
structure PacketExecutions extends PacketBase where
  reqId : ℤ := -1
  list : List RowExecution := []
  deriving DecidableEq

namespace PacketExecutions

/-- `record`. -/
def record (p : PacketExecutions) (reqId : ℤ) : Exec Assertion PacketExecutions := do
  ensure p.empty .executionsRecord
  pure { p with mode := .RECORD, reqId := reqId }

/-- `clear`. The number stays. -/
def clear (p : PacketExecutions) : Exec Assertion PacketExecutions := do
  ensure p.finished .executionsClear
  pure { p with mode := .CLEAN, list := [] }

/-- `append`: the number is not looked at. -/
def append (p : PacketExecutions) (_reqId : ℤ) (row : RowExecution) : PacketExecutions :=
  { p with list := p.list ++ [row] }

/-- `appendExecutionsEnd`. -/
def appendExecutionsEnd (p : PacketExecutions) (_reqId : ℤ) : PacketExecutions :=
  { p with mode := .CLOSED }

end PacketExecutions

/-- `PacketOrders`. The request has no fields. -/
structure PacketOrders extends PacketBase where
  list : List TwsRow := []
  deriving DecidableEq

namespace PacketOrders

/-- `record`. -/
def record (p : PacketOrders) : Exec Assertion PacketOrders := do
  ensure p.empty .ordersRecord
  pure { p with mode := .RECORD }

/-- `clear`. -/
def clear (p : PacketOrders) : Exec Assertion PacketOrders := do
  ensure p.finished .ordersClear
  pure { p with mode := .CLEAN, list := [] }

/-- `append`. -/
def append (p : PacketOrders) (row : TwsRow) : PacketOrders :=
  { p with list := p.list ++ [row] }

/-- `appendOpenOrderEnd`. -/
def appendOpenOrderEnd (p : PacketOrders) : PacketOrders := { p with mode := .CLOSED }

end PacketOrders

/-- `PacketMktData`, which has no rows. -/
structure PacketMktData extends PacketBase where
  reqId : ℤ := -1
  request : Option MktDataRequest := none
  deriving DecidableEq

namespace PacketMktData

/-- `record`. -/
def record (p : PacketMktData) (reqId : ℤ) (mR : MktDataRequest) :
    Exec Assertion PacketMktData := do
  ensure (p.mode = .CLEAN ∧ p.error = .NONE ∧ p.request = none) .mktDataRecord
  pure { p with mode := .RECORD, reqId := reqId, request := some mR }

/-- `clear`. -/
def clear (p : PacketMktData) : PacketMktData :=
  { p with mode := .CLEAN, error := .NONE, reqId := -1, request := none }

end PacketMktData

/-- `PacketOptParams`. -/
structure PacketOptParams extends PacketBase where
  reqId : ℤ := -1
  request : Option OptParamsRequest := none
  opList : List RowOptParams := []
  deriving DecidableEq

namespace PacketOptParams

/-- `record`. -/
def record (p : PacketOptParams) (reqId : ℤ) (opR : OptParamsRequest) :
    Exec Assertion PacketOptParams := do
  ensure (p.empty ∧ p.reqId = -1 ∧ p.request = none ∧ p.opList = []) .optParamsRecord
  pure { p with reqId := reqId, request := some opR, mode := .RECORD }

/-- `setFinished`. -/
def setFinished (p : PacketOptParams) : Exec Assertion PacketOptParams := do
  ensure (p.mode = .RECORD) .optParamsSetFinished
  pure { p with mode := .CLOSED }

/-- `clear`. -/
def clear (p : PacketOptParams) : PacketOptParams :=
  { p with mode := .CLEAN, reqId := -1, opList := [], request := none }

/-- `append`. The first row sets the number. -/
def append (p : PacketOptParams) (reqId : ℤ) (r : RowOptParams) :
    Exec Assertion PacketOptParams := do
  let p := if p.opList = [] then { p with reqId := reqId } else p
  ensure (p.reqId = reqId) .optParamsAppendReqId
  ensure (p.mode = .RECORD) .optParamsAppendMode
  pure { p with opList := p.opList ++ [r] }

/-- **A row is appended to an open packet only**, under one number. -/
theorem append_eq_ok {p p' : PacketOptParams} {reqId : ℤ} {r : RowOptParams}
    (h : p.append reqId r = .ok p') : p.mode = .RECORD ∧ (p.opList ≠ [] → p.reqId = reqId) ∧
      p' = { p with reqId := reqId, opList := p.opList ++ [r] } := by
  simp only [append, Exec.bind_eq_ok] at h
  obtain ⟨u, hid, v, hrec, h⟩ := h
  rw [Exec.ensure_eq_ok] at hid hrec
  by_cases hl : p.opList = []
  · rw [if_pos hl] at hrec h
    exact ⟨hrec, fun hn => absurd hl hn, (Except.ok.inj h).symm⟩
  · rw [if_neg hl] at hid hrec h
    refine ⟨hrec, fun _ => hid, ?_⟩
    rw [← Except.ok.inj h, ← hid]

end PacketOptParams

/-! ## The current packet -/

/-- A `Packet*` that is not null. -/
inductive Packet where
  | contractDetails (p : PacketContractDetails)
  | histData (p : PacketHistData)
  | accStatus (p : PacketAccStatus)
  | executions (p : PacketExecutions)
  | orders (p : PacketOrders)
  | optParams (p : PacketOptParams)
  deriving DecidableEq

namespace Packet

/-- The request type a class of packets belongs to. -/
def reqType : Packet → ReqType
  | contractDetails _ => .CONTRACT_DETAILS_REQUEST
  | histData _ => .HIST_REQUEST
  | accStatus _ => .ACC_STATUS_REQUEST
  | executions _ => .EXECUTIONS_REQUEST
  | orders _ => .ORDERS_REQUEST
  | optParams _ => .OPT_PARAMS_REQUEST

/-- The members of the base class. -/
def base : Packet → PacketBase
  | contractDetails p => p.toPacketBase
  | histData p => p.toPacketBase
  | accStatus p => p.toPacketBase
  | executions p => p.toPacketBase
  | orders p => p.toPacketBase
  | optParams p => p.toPacketBase

/-- The same packet with other base members. -/
def withBase (b : PacketBase) : Packet → Packet
  | contractDetails p => contractDetails { p with toPacketBase := b }
  | histData p => histData { p with toPacketBase := b }
  | accStatus p => accStatus { p with toPacketBase := b }
  | executions p => executions { p with toPacketBase := b }
  | orders p => orders { p with toPacketBase := b }
  | optParams p => optParams { p with toPacketBase := b }

@[simp] theorem reqType_withBase {p : Packet} {b : PacketBase} :
    (p.withBase b).reqType = p.reqType := by
  cases p <;> rfl

@[simp] theorem base_withBase {p : Packet} {b : PacketBase} : (p.withBase b).base = b := by
  cases p <;> rfl

/-- `finished`, `getError` and `closeError` of the base class. -/
def finished (p : Packet) : Bool := p.base.finished

/-- `getError`. -/
def getError (p : Packet) : ReqErr := p.base.getError

/-- `closeError`. -/
def closeError (p : Packet) (e : ReqErr) : Exec Assertion Packet := do
  let b ← p.base.closeError e
  pure (p.withBase b)

theorem reqType_ne_none (p : Packet) : p.reqType ≠ .NONE := by
  cases p <;> simp [reqType]

/-- The first closing wins. -/
theorem closeError_eq_ok {p p' : Packet} {e : ReqErr} (h : p.closeError e = .ok p') :
    p.base.mode = .RECORD ∧ p' = p.withBase { mode := .CLOSED, error := e } ∨
      p.base.mode = .CLOSED ∧ p' = p := by
  simp only [closeError, Exec.bind_eq_ok] at h
  obtain ⟨b, hb, h⟩ := h
  rw [← Except.ok.inj h]
  rcases PacketBase.closeError_eq_ok hb with ⟨hm, rfl⟩ | ⟨hm, rfl⟩
  · exact .inl ⟨hm, rfl⟩
  · exact .inr ⟨hm, by cases p <;> rfl⟩

theorem reqType_closeError {p p' : Packet} {e : ReqErr} (h : p.closeError e = .ok p') :
    p'.reqType = p.reqType := by
  rcases closeError_eq_ok h with ⟨-, rfl⟩ | ⟨-, rfl⟩
  · exact reqType_withBase
  · rfl

/-- The cast `(PacketContractDetails*)packet`: the class must be right. -/
def asContractDetails : Option Packet → Exec Assertion PacketContractDetails
  | some (contractDetails p) => .ok p
  | _ => .error .badAccess

/-- `(PacketHistData*)packet`. -/
def asHistData : Option Packet → Exec Assertion PacketHistData
  | some (histData p) => .ok p
  | _ => .error .badAccess

/-- `(PacketAccStatus*)packet`. -/
def asAccStatus : Option Packet → Exec Assertion PacketAccStatus
  | some (accStatus p) => .ok p
  | _ => .error .badAccess

/-- `(PacketExecutions*)packet`. -/
def asExecutions : Option Packet → Exec Assertion PacketExecutions
  | some (executions p) => .ok p
  | _ => .error .badAccess

/-- `(PacketOrders*)packet`. -/
def asOrders : Option Packet → Exec Assertion PacketOrders
  | some (orders p) => .ok p
  | _ => .error .badAccess

/-- `(PacketOptParams*)packet`. -/
def asOptParams : Option Packet → Exec Assertion PacketOptParams
  | some (optParams p) => .ok p
  | _ => .error .badAccess

end Packet

end Twstools
