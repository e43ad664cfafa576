import Twstools.Xml.Answers
import Twstools.Twsdo.Model
import Twstools.Twsdo.Spacing
import Twstools.Twsgen.Executed
/-!
# The documents that are written

An answer is printed as a document with one `request`, in which the query
that was answered stands next to the rows. So what the program prints has
the form of a work file, and it can be read as one: it asks for the jobs
that were answered. The rows of an order are the exception, for which
nothing is implemented yet that reads them.
-/

namespace Twstools

section Write

variable (skip : Bool) (api : AnswerDefaults) (orderState : RowOpenOrder → OrderState)

/-! ## Writing -/

/-- `dumpXml` of the class, the `request` it puts into the document. Option
parameters are not printed as xml. -/
def Packet.dumpXml : Packet → Option (Exec Assertion XmlNode)
  | .contractDetails p => some (p.dumpXml skip api.toDetailsDefaults)
  | .histData p => some (p.dumpXml skip api.toApiDefaults)
  | .accStatus p => some (p.dumpXml skip api)
  | .executions p => some (pure (p.dumpXml skip api))
  | .orders p => some (pure (p.dumpXml skip api orderState))
  | .optParams _ => none

/-- The document around a `request`. -/
def XmlDoc.of (request : XmlNode) : XmlDoc := ⟨[.element "TWSXML" [] [request]]⟩

/-- The job that the action is an answer to. -/
def Action.answers : Action → Option Job
  | .dumpXml (.contractDetails p) _ => p.request.map .contract_details
  | .dumpXml (.histData p) _ => p.request.map .historical_data
  | .dumpXml (.accStatus _) _ => some .account
  | .dumpXml (.executions _) _ => some .executions
  | .dumpXml (.orders _) _ => some .open_orders
  | .dumpOrder _ p => p.request.map .place_order
  | _ => none

/-- The numbers of the request are of their types, its strings have no NUL,
and the prices of an order are given unless they are left out. Market data
asks for the contract first. -/
def Job.Keeps : Job → Prop
  | .contract_details r | .market_data _ r => r.ibContract.Exact ∧ r.ibContract.Clean
  | .historical_data r => r.Exact ∧ r.Clean
  | .place_order r => r.Exact api.toOrderDefaults ∧ r.Kept skip
  | _ => True

end Write

variable {skip : Bool} {api : AnswerDefaults} {orderState : RowOpenOrder → OrderState}
variable {a : Action} {node xn : XmlNode} {job : Job} {nodes : List XmlNode} {out : List Action}

/-! ## One answer -/

theorem PlaceOrder.read_write (hp : api.toOrderDefaults.Proper) {po : PlaceOrder}
    (he : po.Exact api.toOrderDefaults) (hk : po.Kept skip) :
    PlaceOrder.fromXml api.toOrderDefaults (init api.toOrderDefaults)
      (po.toXml skip api.toOrderDefaults) = po := by
  rw [fromXml_toXml, PlaceOrder.ext_iff]
  exact ⟨long_kept he.orderId, longLong_kept he.time_sent,
    (Contract.read_write he.contract hp.details.toProper).2 hk.contract,
    (Order.read_write he.order hp).2 hk.order⟩

namespace PacketPlaceOrder

variable {p : PacketPlaceOrder} {r : PlaceOrder}

end PacketPlaceOrder

variable {xmlReadMemory : List UInt8 → ℤ → Option XmlDoc} {xmlDocFormatDump : XmlDoc → List UInt8}

end Twstools
