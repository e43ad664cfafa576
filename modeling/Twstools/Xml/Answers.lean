import Twstools.Xml.Order
import Twstools.Xml.HistData
import Twstools.Twsdo.Packet
/-!
# The other answers in xml

Executions, account and order rows are written like historical data, but
nothing reads such an answer back: of the functions to read a row only that
for historical data is implemented. The parts of an execution can be read,
and come back exactly when their strings have no NUL.
-/

namespace Twstools

/-! ## What the rows are made of -/

/-- `ExecutionFilter`. -/
@[ext] structure ExecutionFilter where
  m_clientId : ℤ
  m_acctCode : String
  m_time : String
  m_symbol : String
  m_secType : String
  m_exchange : String
  m_side : String
  deriving DecidableEq

/-- `ExecutionsRequest`. -/
@[ext] structure ExecutionsRequest where
  executionFilter : ExecutionFilter
  deriving DecidableEq

/-- `OrderState`. -/
@[ext] structure OrderState where
  status : String
  initMarginBefore : String
  maintMarginBefore : String
  equityWithLoanBefore : String
  initMarginChange : String
  maintMarginChange : String
  equityWithLoanChange : String
  initMarginAfter : String
  maintMarginAfter : String
  equityWithLoanAfter : String
  commission : Double
  minCommission : Double
  maxCommission : Double
  commissionCurrency : String
  warningText : String
  deriving DecidableEq

/-- What the default constructors of the API make, those of executions and
order states included. -/
structure AnswerDefaults extends OrderDefaults where
  execution : Execution
  executionFilter : ExecutionFilter
  orderState : OrderState

variable (skip : Bool) (name : String)

/-! ## Writing and reading the parts -/

namespace Execution

/-- `conv_ib2xml(parent, name, Execution)`. -/
def convIb2xml (e dflt : Execution) : XmlNode :=
  .element name
    (addAttrString skip "execId" e.execId dflt.execId ++
      addAttrString skip "time" e.time dflt.time ++
      addAttrString skip "acctNumber" e.acctNumber dflt.acctNumber ++
      addAttrString skip "exchange" e.exchange dflt.exchange ++
      addAttrString skip "side" e.side dflt.side ++
      addAttrDouble skip "shares" e.shares dflt.shares ++
      addAttrDouble skip "price" e.price dflt.price ++
      addAttrInt skip "permId" e.permId dflt.permId ++
      addAttrLong skip "clientId" e.clientId dflt.clientId ++
      addAttrLong skip "orderId" e.orderId dflt.orderId ++
      addAttrInt skip "liquidation" e.liquidation dflt.liquidation ++
      addAttrDouble skip "cumQty" e.cumQty dflt.cumQty ++
      addAttrDouble skip "avgPrice" e.avgPrice dflt.avgPrice ++
      addAttrString skip "orderRef" e.orderRef dflt.orderRef ++
      addAttrString skip "evRule" e.evRule dflt.evRule ++
      addAttrDouble skip "evMultiplier" e.evMultiplier dflt.evMultiplier ++
      addAttrString skip "modelCode" e.modelCode dflt.modelCode ++
      addAttrInt skip "lastLiquidity" e.lastLiquidity dflt.lastLiquidity) []

/-- `conv_xml2ib(Execution)`. -/
def convXml2ib (e : Execution) (node : XmlNode) : Execution where
  execId := getAttrString node "execId" e.execId
  time := getAttrString node "time" e.time
  acctNumber := getAttrString node "acctNumber" e.acctNumber
  exchange := getAttrString node "exchange" e.exchange
  side := getAttrString node "side" e.side
  shares := getAttrDouble node "shares" e.shares
  price := getAttrDouble node "price" e.price
  permId := getAttrInt node "permId" e.permId
  clientId := getAttrLong node "clientId" e.clientId
  orderId := getAttrLong node "orderId" e.orderId
  liquidation := getAttrInt node "liquidation" e.liquidation
  cumQty := getAttrDouble node "cumQty" e.cumQty
  avgPrice := getAttrDouble node "avgPrice" e.avgPrice
  orderRef := getAttrString node "orderRef" e.orderRef
  evRule := getAttrString node "evRule" e.evRule
  evMultiplier := getAttrDouble node "evMultiplier" e.evMultiplier
  modelCode := getAttrString node "modelCode" e.modelCode
  lastLiquidity := getAttrInt node "lastLiquidity" e.lastLiquidity

end Execution

namespace ExecutionFilter

/-- `conv_ib2xml(parent, name, ExecutionFilter)`. -/
def convIb2xml (eF dflt : ExecutionFilter) : XmlNode :=
  .element name
    (addAttrLong skip "m_clientId" eF.m_clientId dflt.m_clientId ++
      addAttrString skip "m_acctCode" eF.m_acctCode dflt.m_acctCode ++
      addAttrString skip "m_time" eF.m_time dflt.m_time ++
      addAttrString skip "m_symbol" eF.m_symbol dflt.m_symbol ++
      addAttrString skip "m_secType" eF.m_secType dflt.m_secType ++
      addAttrString skip "m_exchange" eF.m_exchange dflt.m_exchange ++
      addAttrString skip "m_side" eF.m_side dflt.m_side) []

/-- `conv_xml2ib(ExecutionFilter)`. -/
def convXml2ib (eF : ExecutionFilter) (node : XmlNode) : ExecutionFilter where
  m_clientId := getAttrLong node "m_clientId" eF.m_clientId
  m_acctCode := getAttrString node "m_acctCode" eF.m_acctCode
  m_time := getAttrString node "m_time" eF.m_time
  m_symbol := getAttrString node "m_symbol" eF.m_symbol
  m_secType := getAttrString node "m_secType" eF.m_secType
  m_exchange := getAttrString node "m_exchange" eF.m_exchange
  m_side := getAttrString node "m_side" eF.m_side

end ExecutionFilter

namespace OrderState

/-- `conv_ib2xml(parent, name, OrderState)`. -/
def convIb2xml (os dflt : OrderState) : XmlNode :=
  .element name
    (addAttrString skip "status" os.status dflt.status ++
      addAttrString skip "initMarginBefore" os.initMarginBefore dflt.initMarginBefore ++
      addAttrString skip "maintMarginBefore" os.maintMarginBefore dflt.maintMarginBefore ++
      addAttrString skip "equityWithLoanBefore" os.equityWithLoanBefore
        dflt.equityWithLoanBefore ++
      addAttrString skip "initMarginChange" os.initMarginChange dflt.initMarginChange ++
      addAttrString skip "maintMarginChange" os.maintMarginChange dflt.maintMarginChange ++
      addAttrString skip "equityWithLoanChange" os.equityWithLoanChange
        dflt.equityWithLoanChange ++
      addAttrString skip "initMarginAfter" os.initMarginAfter dflt.initMarginAfter ++
      addAttrString skip "maintMarginAfter" os.maintMarginAfter dflt.maintMarginAfter ++
      addAttrString skip "equityWithLoanAfter" os.equityWithLoanAfter dflt.equityWithLoanAfter ++
      addAttrDouble skip "commission" os.commission dflt.commission ++
      addAttrDouble skip "minCommission" os.minCommission dflt.minCommission ++
      addAttrDouble skip "maxCommission" os.maxCommission dflt.maxCommission ++
      addAttrString skip "commissionCurrency" os.commissionCurrency dflt.commissionCurrency ++
      addAttrString skip "warningText" os.warningText dflt.warningText) []

/-- `conv_xml2ib(OrderState)`. -/
def convXml2ib (os : OrderState) (node : XmlNode) : OrderState where
  status := getAttrString node "status" os.status
  initMarginBefore := getAttrString node "initMarginBefore" os.initMarginBefore
  maintMarginBefore := getAttrString node "maintMarginBefore" os.maintMarginBefore
  equityWithLoanBefore := getAttrString node "equityWithLoanBefore" os.equityWithLoanBefore
  initMarginChange := getAttrString node "initMarginChange" os.initMarginChange
  maintMarginChange := getAttrString node "maintMarginChange" os.maintMarginChange
  equityWithLoanChange := getAttrString node "equityWithLoanChange" os.equityWithLoanChange
  initMarginAfter := getAttrString node "initMarginAfter" os.initMarginAfter
  maintMarginAfter := getAttrString node "maintMarginAfter" os.maintMarginAfter
  equityWithLoanAfter := getAttrString node "equityWithLoanAfter" os.equityWithLoanAfter
  commission := getAttrDouble node "commission" os.commission
  minCommission := getAttrDouble node "minCommission" os.minCommission
  maxCommission := getAttrDouble node "maxCommission" os.maxCommission
  commissionCurrency := getAttrString node "commissionCurrency" os.commissionCurrency
  warningText := getAttrString node "warningText" os.warningText

end OrderState

/-! ## The requests -/

/-- `to_xml(parent, AccStatusRequest)`. -/
def AccStatusRequest.toXml (aR : AccStatusRequest) : XmlNode :=
  let dflt : AccStatusRequest := {}
  .element "query"
    (addAttrBool skip "subscribe" aR.subscribe dflt.subscribe ++
      addAttrString skip "acctCode" aR.acctCode dflt.acctCode) []

/-- `from_xml(AccStatusRequest)`. -/
def AccStatusRequest.fromXml (aR : AccStatusRequest) (node : XmlNode) : AccStatusRequest where
  subscribe := getAttrBool node "subscribe" aR.subscribe
  acctCode := getAttrString node "acctCode" aR.acctCode

/-- `to_xml(parent, ExecutionsRequest)`. -/
def ExecutionsRequest.toXml (api : AnswerDefaults) (eR : ExecutionsRequest) : XmlNode :=
  .element "query" []
    [eR.executionFilter.convIb2xml skip "executionFilter" api.executionFilter]

/-- `from_xml(ExecutionsRequest)`. -/
def ExecutionsRequest.fromXml (eR : ExecutionsRequest) (node : XmlNode) : ExecutionsRequest where
  executionFilter := node.children.foldl
    (fun eF p => if p.is "executionFilter" then eF.convXml2ib p else eF) eR.executionFilter

/-- `to_xml(parent, OrdersRequest)`. -/
def ordersQuery : XmlNode := .element "query" [] []

/-! ## The rows -/

section Rows

/-- `to_xml(parent, RowError)`. All attributes of a row are written. -/
def RowError.toXml (row : RowError) : XmlNode :=
  .element "error"
    [("id", toString row.id), ("code", toString row.code), ("msg", c_str row.msg)] []

variable (api : AnswerDefaults)

/-- `to_xml(parent, RowAcc)`. -/
def RowAcc.toXml : RowAcc → XmlNode
  | .t_AccVal d => .element "AccVal" [("key", c_str d.key), ("val", c_str d.val),
      ("currency", c_str d.currency), ("accountName", c_str d.accountName)] []
  | .t_Prtfl d => .element "Prtfl" [("position", d.position.printG10),
      ("marketPrice", d.marketPrice.printG10), ("marketValue", d.marketValue.printG10),
      ("averageCost", d.averageCost.printG10), ("unrealizedPNL", d.unrealizedPNL.printG10),
      ("realizedPNL", d.realizedPNL.printG10), ("accountName", c_str d.accountName)]
      [d.contract.convIb2xml skip "contract" api.toApiDefaults]
  | .t_stamp d => .element "stamp" [("timeStamp", c_str d)] []
  | .t_end d => .element "end" [("accountName", c_str d)] []

/-- `to_xml(parent, RowExecution)`. -/
def RowExecution.toXml (row : RowExecution) : XmlNode :=
  .element "ExecDetails" []
    [row.contract.convIb2xml skip "contract" api.toApiDefaults,
      row.execution.convIb2xml skip "execution" api.execution]

/-- `to_xml(parent, RowOrderStatus)`. -/
def RowOrderStatus.toXml (d : RowOrderStatus) : XmlNode :=
  .element "OrderStatus" [("id", toString d.id), ("status", c_str d.status),
    ("filled", d.filled.printG10), ("remaining", d.remaining.printG10),
    ("avgFillPrice", d.avgFillPrice.printG10), ("permId", toString d.permId),
    ("parentId", toString d.parentId), ("lastFillPrice", d.lastFillPrice.printG10),
    ("clientId", toString d.clientId), ("whyHeld", c_str d.whyHeld)] []

-- the order state of an open order, which the row itself leaves out
variable (orderState : RowOpenOrder → OrderState)

/-- `to_xml(parent, RowOpenOrder)`. -/
def RowOpenOrder.toXml (d : RowOpenOrder) : XmlNode :=
  .element "OpenOrder" [("orderId", toString d.orderId)]
    [d.contract.convIb2xml skip "contract" api.toApiDefaults,
      d.order.convIb2xml skip "order" api.toOrderDefaults,
      (orderState d).convIb2xml skip "orderState" api.orderState]

/-- `to_xml(parent, TwsRow)`. -/
def TwsRow.toXml : TwsRow → XmlNode
  | .t_error row => row.toXml
  | .t_orderStatus row => row.toXml
  | .t_openOrder row => row.toXml skip api orderState

/-! ## The packets -/

/-- `dumpXml`, the `request` element it puts into the document. -/
def PacketPlaceOrder.dumpXml (p : PacketPlaceOrder) : Exec Assertion XmlNode := do
  let request ← deref p.request
  pure (.element "request" [("type", "place_order")]
    (request.toXml skip api.toOrderDefaults ::
      if p.mode = .CLOSED then
        [.element "response" [] (p.list.map (·.toXml skip api orderState))]
      else []))

/-- `dumpXml`. -/
def PacketAccStatus.dumpXml (p : PacketAccStatus) : Exec Assertion XmlNode := do
  let request ← deref p.request
  pure (.element "request" [("type", "account")]
    [request.toXml skip, .element "response" [] (p.list.map (·.toXml skip api))])

/-- `dumpXml`. The request is always a new one. -/
def PacketExecutions.dumpXml (p : PacketExecutions) : XmlNode :=
  .element "request" [("type", "executions")]
    [ExecutionsRequest.toXml skip api ⟨api.executionFilter⟩,
      .element "response" [] (p.list.map (·.toXml skip api))]

/-- `dumpXml`. -/
def PacketOrders.dumpXml (p : PacketOrders) : XmlNode :=
  .element "request" [("type", "open_orders")]
    [ordersQuery, .element "response" [] (p.list.map (·.toXml skip api orderState))]

end Rows

/-! ## What comes back -/

attribute [ext] Execution AccStatusRequest

/-- The numbers are of their types, and the doubles print exactly. -/
structure Execution.Exact (e : Execution) : Prop where
  shares : e.shares.PrintsExactly
  price : e.price.PrintsExactly
  permId : InInt e.permId
  clientId : InLong e.clientId
  orderId : InLong e.orderId
  liquidation : InInt e.liquidation
  cumQty : e.cumQty.PrintsExactly
  avgPrice : e.avgPrice.PrintsExactly
  evMultiplier : e.evMultiplier.PrintsExactly
  lastLiquidity : InInt e.lastLiquidity

/-- The strings have no NUL. -/
@[mk_iff] structure Execution.Clean (e : Execution) : Prop where
  execId : CString e.execId
  time : CString e.time
  acctNumber : CString e.acctNumber
  exchange : CString e.exchange
  side : CString e.side
  orderRef : CString e.orderRef
  evRule : CString e.evRule
  modelCode : CString e.modelCode

/-- The strings have no NUL. -/
@[mk_iff] structure ExecutionFilter.Clean (eF : ExecutionFilter) : Prop where
  m_acctCode : CString eF.m_acctCode
  m_time : CString eF.m_time
  m_symbol : CString eF.m_symbol
  m_secType : CString eF.m_secType
  m_exchange : CString eF.m_exchange
  m_side : CString eF.m_side

/-- The doubles are defaults or short. -/
structure OrderState.Exact (os dflt : OrderState) : Prop where
  commission : os.commission.Usual dflt.commission
  minCommission : os.minCommission.Usual dflt.minCommission
  maxCommission : os.maxCommission.Usual dflt.maxCommission

/-- The strings have no NUL, and the doubles are given unless they are left
out. -/
@[mk_iff] structure OrderState.Kept (os : OrderState) : Prop where
  status : CString os.status
  initMarginBefore : CString os.initMarginBefore
  maintMarginBefore : CString os.maintMarginBefore
  equityWithLoanBefore : CString os.equityWithLoanBefore
  initMarginChange : CString os.initMarginChange
  maintMarginChange : CString os.maintMarginChange
  equityWithLoanChange : CString os.equityWithLoanChange
  initMarginAfter : CString os.initMarginAfter
  maintMarginAfter : CString os.maintMarginAfter
  equityWithLoanAfter : CString os.equityWithLoanAfter
  commission : os.commission.Given skip
  minCommission : os.minCommission.Given skip
  maxCommission : os.maxCommission.Given skip
  commissionCurrency : CString os.commissionCurrency
  warningText : CString os.warningText

/-- What the API promises about a new order state. -/
structure OrderState.Proper (dflt : OrderState) : Prop where
  clean : dflt.Kept true
  commission : dflt.commission.Default
  minCommission : dflt.minCommission.Default
  maxCommission : dflt.maxCommission.Default

variable {skip} {name}

/-- **An execution comes back exactly when its strings have no NUL.** -/
theorem Execution.read_write {dflt e : Execution} (he : e.Exact) (hd : dflt.Clean) :
    dflt.convXml2ib (e.convIb2xml skip name dflt) = e ↔ e.Clean := by
  rw [Execution.ext_iff]
  simp only [convIb2xml, convXml2ib, getAttrString, getAttrDouble, getAttrInt, getAttrLong,
    addAttrString, addAttrDouble, addAttrInt, addAttrLong, XmlNode.prop, List.lookup_append,
    lookup_newAttr, String.reduceEq, if_true, if_false, Option.or_none, Option.none_or]
  simp only [string_kept hd.execId, string_kept hd.time, string_kept hd.acctNumber,
    string_kept hd.exchange, string_kept hd.side, double_kept he.shares, double_kept he.price,
    int_kept he.permId, long_kept he.clientId, long_kept he.orderId, int_kept he.liquidation,
    double_kept he.cumQty, double_kept he.avgPrice, string_kept hd.orderRef,
    string_kept hd.evRule, double_kept he.evMultiplier, string_kept hd.modelCode,
    int_kept he.lastLiquidity, true_and, and_true]
  exact (clean_iff e).symm

/-- A filter comes back exactly when its strings have no NUL. -/
theorem ExecutionFilter.read_write {dflt eF : ExecutionFilter} (he : InLong eF.m_clientId)
    (hd : dflt.Clean) : dflt.convXml2ib (eF.convIb2xml skip name dflt) = eF ↔ eF.Clean := by
  rw [ExecutionFilter.ext_iff]
  simp only [convIb2xml, convXml2ib, getAttrString, getAttrLong, addAttrString, addAttrLong,
    XmlNode.prop, List.lookup_append, lookup_newAttr, String.reduceEq, if_true, if_false,
    Option.or_none, Option.none_or]
  simp only [long_kept he, string_kept hd.m_acctCode, string_kept hd.m_time,
    string_kept hd.m_symbol, string_kept hd.m_secType, string_kept hd.m_exchange,
    string_kept hd.m_side, true_and]
  exact (clean_iff eF).symm

/-- The query of an account request comes back exactly when the account's
name has no NUL. -/
theorem AccStatusRequest.read_write {aR : AccStatusRequest} :
    fromXml {} (aR.toXml skip) = aR ↔ CString aR.acctCode := by
  obtain ⟨subscribe, acctCode⟩ := aR
  simp only [toXml, fromXml, getAttrString, getAttrBool, addAttrString, addAttrBool, XmlNode.prop,
    List.lookup_append, lookup_newAttr, String.reduceEq, if_true, if_false, Option.or_none,
    Option.none_or, mk.injEq]
  simp only [bool_kept, string_kept (t := "") (by decide), true_and]

/-- The query of an executions request comes back when its filter does. -/
theorem ExecutionsRequest.read_write {api : AnswerDefaults} {eR : ExecutionsRequest}
    (he : InLong eR.executionFilter.m_clientId) (hd : api.executionFilter.Clean) :
    fromXml ⟨api.executionFilter⟩ (eR.toXml skip api) = eR ↔ eR.executionFilter.Clean := by
  rw [ExecutionsRequest.ext_iff, ← ExecutionFilter.read_write he hd]
  rfl

/-- **An order state comes back exactly when its strings have no NUL** and,
unless defaults are skipped, all commissions are given. -/
theorem OrderState.read_write {dflt os : OrderState} (he : os.Exact dflt) (hd : dflt.Proper) :
    dflt.convXml2ib (os.convIb2xml skip name dflt) = os ↔ os.Kept skip := by
  obtain ⟨hc, h1, h2, h3⟩ := hd
  rw [OrderState.ext_iff]
  simp only [convIb2xml, convXml2ib, getAttrString, getAttrDouble, addAttrString, addAttrDouble,
    XmlNode.prop, List.lookup_append, lookup_newAttr, String.reduceEq, if_true, if_false,
    Option.or_none, Option.none_or]
  simp only [string_kept hc.status, string_kept hc.initMarginBefore,
    string_kept hc.maintMarginBefore, string_kept hc.equityWithLoanBefore,
    string_kept hc.initMarginChange, string_kept hc.maintMarginChange,
    string_kept hc.equityWithLoanChange, string_kept hc.initMarginAfter,
    string_kept hc.maintMarginAfter, string_kept hc.equityWithLoanAfter,
    double_given he.commission h1, double_given he.minCommission h2,
    double_given he.maxCommission h3, string_kept hc.commissionCurrency,
    string_kept hc.warningText]
  exact (kept_iff skip os).symm

end Twstools
