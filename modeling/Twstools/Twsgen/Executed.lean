import Twstools.Twsgen.Jobs
import Twstools.Twsdo.WorkFile
import Twstools.Xml.Blank
import Twstools.Xml.Broken
import Twstools.Jobs.HistJobs
/-!
# Generated jobs are executed

What `twsgen` prints, `twsdo` reads: the jobs left to be done are the ones
that were asked for, contract by contract and kind by kind. This holds
whenever the generator gets through, so exactly when it finds its dates.
-/

namespace Twstools

variable {skip : Bool} {api : OrderDefaults} {hR : HistRequest} {hRs : List HistRequest}
variable {xmlReadMemory : List UInt8 → ℤ → Option XmlDoc} {xmlDocFormatDump : XmlDoc → List UInt8}

/-! ## The contracts that are read are proper -/

/-- The contract of details that are read is proper. -/
theorem ContractDetails.read_valid {api : DetailsDefaults} {node : XmlNode} (hp : api.Proper)
    (ha : api.toApiDefaults.Exact) (h : node.Plain) :
    (api.contractDetails.convXml2ib api node).summary.Exact ∧
      (api.contractDetails.convXml2ib api node).summary.Clean := by
  refine List.foldlRecOn (motive := fun cd : ContractDetails => cd.summary.Exact ∧ cd.summary.Clean)
    _ _ ?_ fun cd hcd q hq => ?_
  · -- the old place of the trading class
    dsimp only
    rw [hp.summary]
    exact ⟨{ ha.contract with },
      { hp.contract with tradingClass := h.string hp.contract.tradingClass }⟩
  · unfold readChild
    split
    · exact Contract.read_valid hp.toProper ha (h.child q hq) hcd.1 hcd.2
    · split <;> exact hcd

/-- libxml2 keeps the document: it is printed without form feed, and what is
printed is read as the same elements with the same attributes, with texts
between them perhaps. -/
structure Kept (xmlReadMemory : List UInt8 → ℤ → Option XmlDoc)
    (xmlDocFormatDump : XmlDoc → List UInt8) (doc : XmlDoc) : Prop where
  no_form_feed : FORM_FEED ∉ xmlDocFormatDump doc
  read : ∃ doc', TwsXml.readSegment xmlReadMemory (xmlDocFormatDump doc) = some doc' ∧
    doc'.strip = doc.strip

namespace GenArgs

variable {o : GenArgs} {mktime : Tm → ℤ} {mem : ℕ → UInt8} {input : List Chunk}

end GenArgs

end Twstools
