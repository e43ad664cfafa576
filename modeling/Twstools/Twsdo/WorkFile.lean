import Twstools.Twsdo.Todo
import Twstools.Xml.Order
import Twstools.Xml.Stream
/-!
# Reading a work file

`read_file` goes through the elements of a work file and `read_req` adds
what each of them asks for, by its type, to the jobs. Elements of another
name or type are passed over; the number of the others is returned.
-/

namespace Twstools

/-! ## The requests of the elements -/

/-- `from_xml(MktDataRequest)`. -/
def MktDataRequest.fromXml (api : ApiDefaults) (mdr : MktDataRequest) (node : XmlNode) :
    MktDataRequest where
  ibContract := node.children.foldl
    (fun c p => if p.is "reqContract" then c.convXml2ib api p else c) mdr.ibContract
  genericTicks := getAttrString node "genericTicks" mdr.genericTicks
  snapshot := getAttrBool node "snapshot" mdr.snapshot

/-- `from_xml(OptParamsRequest)`. -/
def OptParamsRequest.fromXml (api : ApiDefaults) (opr : OptParamsRequest) (node : XmlNode) :
    OptParamsRequest where
  ibContract := node.children.foldl
    (fun c p => if p.is "reqContract" then c.convXml2ib api p else c) opr.ibContract

/-- `PacketMktData::fromXml`, of which the request is all. -/
def PacketMktData.fromXml (api : ApiDefaults) (root : XmlNode) : Option MktDataRequest :=
  root.children.foldl (fun request p =>
    if p.is "query" then some (MktDataRequest.fromXml api { ibContract := api.contract } p)
    else request) none

/-- `PacketOptParams::fromXml`. -/
def PacketOptParams.fromXml (api : ApiDefaults) (root : XmlNode) : PacketOptParams :=
  root.children.foldl (fun pop p =>
    if p.is "query" then
      { pop with
        request := some (OptParamsRequest.fromXml api { ibContract := api.contract } p) }
    else pop) {}

/-- A child of the `request` of an order. Its answer cannot be read yet. -/
def PacketPlaceOrder.readChild (api : OrderDefaults) (ppo : PacketPlaceOrder) (p : XmlNode) :
    Exec Assertion PacketPlaceOrder := do
  let ppo := if p.is "query" then
    { ppo with request := some ((PlaceOrder.init api).fromXml api p) } else ppo
  ensure (p.is "response" → ∀ q ∈ p.children, ¬ q.isElement) .placeOrderFromXml
  pure ppo

/-- `PacketPlaceOrder::fromXml`. -/
def PacketPlaceOrder.fromXml (api : OrderDefaults) (root : XmlNode) :
    Exec Assertion PacketPlaceOrder :=
  root.children.foldlM (readChild api) {}

/-! ## The jobs -/

variable (api : OrderDefaults)

/-- What `read_req` makes of an element: nothing, if there is no type or an
unknown one. -/
def Job.fromXml (xn : XmlNode) : Exec Assertion (Option Job) :=
  match xn.prop "type" with
  | none => pure none
  | some tmp =>
      if tmp = "contract_details" then do
        let r ← deref (PacketContractDetails.fromXml api.toDetailsDefaults xn).request
        pure (some (.contract_details r))
      else if tmp = "historical_data" then do
        let r ← deref (PacketHistData.fromXml api.toApiDefaults xn).request
        pure (some (.historical_data r))
      else if tmp = "place_order" then do
        let ppo ← PacketPlaceOrder.fromXml api xn
        let r ← deref ppo.request
        pure (some (.place_order r))
      else if tmp = "market_data" then do
        let r ← deref (PacketMktData.fromXml api.toApiDefaults xn)
        let cdr ← deref (PacketContractDetails.fromXml api.toDetailsDefaults xn).request
        pure (some (.market_data r cdr))
      else if tmp = "opt_params" then do
        let r ← deref (PacketOptParams.fromXml api.toApiDefaults xn).request
        pure (some (.opt_params r))
      else if tmp = "account" then pure (some .account)
      else if tmp = "executions" then pure (some .executions)
      else if tmp = "open_orders" then pure (some .open_orders)
      else pure none

namespace WorkTodo

/-- `read_req`, and what it returns. -/
def readXmlReq (w : WorkTodo) (xn : XmlNode) : Exec Assertion (WorkTodo × ℤ) := do
  match ← Job.fromXml api xn with
  | none => pure (w, 0)
  | some job => pure (w.readReq job, 1)

/-- The body of the loop of `read_file`. -/
def readXmlNode (r : WorkTodo × ℤ) (xn : XmlNode) : Exec Assertion (WorkTodo × ℤ) := do
  let (w, retVal) := r
  ensure xn.isElement .readFileType
  if xn.is "request" then do
    let (w, n) ← w.readXmlReq api xn
    pure (w, retVal + n)
  else pure (w, retVal)

/-- `read_file` for a file that can be opened, and what it returns. -/
def readXmlFile (xmlReadMemory : List UInt8 → ℤ → Option XmlDoc) (fuel : ℕ) (w : WorkTodo)
    (file : TwsXml) : Exec Assertion (WorkTodo × ℤ) := do
  let xns ← file.nextXmlNodes xmlReadMemory fuel
  xns.foldlM (readXmlNode api) (w, 0)

/-- The element asks for the job. -/
def AsksFor (xn : XmlNode) (job : Job) : Prop :=
  xn.is "request" = true ∧ Job.fromXml api xn = .ok (some job)

variable {api} {xn : XmlNode} {xns : List XmlNode} {job : Job} {jobs : List Job}
variable {w : WorkTodo} {n : ℤ}

end WorkTodo

end Twstools
