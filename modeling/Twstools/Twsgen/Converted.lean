import Twstools.Jobs.Responses
import Twstools.Jobs.Written
import Twstools.Twsgen.MaxExpiry
/-!
# The output converted

`twsgen --to-csv` reads the output of `twsdo`. It takes every document for
one with historical data. The others have a query too, and no rows, so
nothing is printed for them: what is printed for the output of a run is what
would be printed for the packets of historical data, in order, each query
and each row as it is read. Where these can be kept it is what the packets
would give themselves.
-/

namespace Twstools

/-! ## Packets and documents -/

variable {skip pad : Bool} {api : AnswerDefaults} {orderState : RowOpenOrder → OrderState}
variable {a : Action} {node : XmlNode} {p p' : PacketHistData} {o : CsvArgs}

namespace PacketHistData

end PacketHistData

namespace CsvArgs

end CsvArgs

/-! ## The output -/

/-- A packet whose query and rows are of their types, with no NUL in their
strings. -/
structure PacketHistData.Keeps (p : PacketHistData) : Prop where
  request : ∀ r ∈ p.request, r.Exact ∧ r.Clean
  rows : ∀ it ∈ p.rows, it.Exact ∧ it.Clean

namespace TwsDL

variable {s : TwsDL} {evs : List Event} {cfg : ConfigTwsdo} {async : Bool} {jobs : List Job}
variable {job : Option HistJob}

variable {xmlReadMemory : List UInt8 → ℤ → Option XmlDoc} {xmlDocFormatDump : XmlDoc → List UInt8}

end TwsDL

end Twstools
