import Twstools.Xml.HistData
import Twstools.Clib.Digits
/-!
# Writing is a normal form

Whatever a document says about historical data, what is read from it is
proper: the strings have no NUL, the numbers are of their types and print
exactly. So writing it and reading it again changes nothing, and writes the
same text again, with or without the defaults.
-/

namespace Twstools

/-- The attributes that are read as floating point numbers. -/
def numberNames : List String :=
  ["strike", "delta", "price", "open", "high", "low", "close", "WAP"]

/-- Every text in the document is a C string, and every floating point
number has at most ten significant digits. -/
inductive XmlNode.Readable : XmlNode → Prop
  | element {name : String} {attrs : List (String × String)} {children : List XmlNode} :
      (∀ a v, (a, v) ∈ attrs → CString v ∧ (a ∈ numberNames → (Double.atof v).Short)) →
      (∀ c ∈ children, c.Readable) → Readable (.element name attrs children)
  | other : Readable .other

/-- The attributes of a contract that are read as floating point numbers. -/
def contractNumbers : List String := ["strike", "delta", "price"]

/-- Every text in the document is a C string, and every floating point
number of a contract prints exactly. -/
def XmlNode.Plain : XmlNode → Prop := All fun a v =>
  CString v ∧ (a ∈ contractNumbers → (Double.atof v).PrintsExactly)

/-! ## A field that is read -/

section Fields

variable {node : XmlNode} {name : String} {x : Double} {s : String}

/-- A number that prints exactly, or the one before. -/
theorem printsExactly_getAttrDouble (hx : x.PrintsExactly)
    (h : ∀ v, node.prop name = some v → (Double.atof v).PrintsExactly) :
    (getAttrDouble node name x).PrintsExactly := by
  unfold getAttrDouble
  rcases hv : node.prop name with _ | v
  · exact hx
  · exact h v hv

/-- A text without NUL, or the one before. -/
theorem cString_getAttrString (hs : CString s) (h : ∀ v, node.prop name = some v → CString v) :
    CString (getAttrString node name s) := by
  unfold getAttrString
  rcases hv : node.prop name with _ | v
  · exact hs
  · exact h v hv

theorem XmlNode.Plain.string (h : node.Plain) (hs : CString s) :
    CString (getAttrString node name s) :=
  cString_getAttrString hs fun _ hv => (h.prop_eq hv).1

theorem XmlNode.Plain.double (h : node.Plain) (hx : x.PrintsExactly)
    (hn : name ∈ contractNumbers := by decide) : (getAttrDouble node name x).PrintsExactly :=
  printsExactly_getAttrDouble hx fun _ hv => (h.prop_eq hv).2 hn

namespace XmlNode.Readable

theorem child (h : node.Readable) : ∀ c ∈ node.children, c.Readable := by
  rcases h with ⟨-, hc⟩ | -
  · exact hc
  · exact fun c hc => absurd hc List.not_mem_nil

theorem all (h : node.Readable) :
    node.All fun a v => CString v ∧ (a ∈ numberNames → (Double.atof v).Short) := by
  induction h with
  | element ha hc ih => exact .element ha ih
  | other => exact .other

theorem plain (h : node.Readable) : node.Plain := by
  have hsub : ∀ a ∈ contractNumbers, a ∈ numberNames := by decide
  induction h with
  | element ha hc ih =>
      refine .element (fun a v hav => ?_) ih
      obtain ⟨hv, hshort⟩ := ha a v hav
      exact ⟨hv, fun hn => Double.printsExactly_of_short (hshort (hsub a hn))⟩
  | other => exact .other

theorem string (h : node.Readable) (hs : CString s) : CString (getAttrString node name s) :=
  h.plain.string hs

theorem double (h : node.Readable) (hx : x.PrintsExactly)
    (hn : name ∈ numberNames := by decide) : (getAttrDouble node name x).PrintsExactly :=
  printsExactly_getAttrDouble hx fun _ hv =>
    Double.printsExactly_of_short ((h.all.prop_eq hv).2 hn)

end XmlNode.Readable

end Fields

theorem inLong_atol (s : String) : InLong (atol s) := by
  have h : ∀ x, InLong (clampLong x) := fun x => by
    unfold InLong clampLong LONG_MIN LONG_MAX
    omega
  unfold atol strtol
  split
  dsimp only
  split
  · show InLong 0
    decide
  · exact h _

/-- What `atoi` returns is an `int`. -/
theorem inInt_getAttrInt {node : XmlNode} {name : String} {x : ℤ} (hx : InInt x) :
    InInt (getAttrInt node name x) := by
  unfold getAttrInt
  cases node.prop name with
  | none => exact hx
  | some v => exact inInt_toInt _

/-- What `atol` returns is a `long`. -/
theorem inLong_getAttrLong {node : XmlNode} {name : String} {x : ℤ} (hx : InLong x) :
    InLong (getAttrLong node name x) := by
  unfold getAttrLong
  cases node.prop name with
  | none => exact hx
  | some v => exact inLong_atol v

/-- The defaults of the API are values of their types and print exactly. -/
structure ApiDefaults.Exact (api : ApiDefaults) : Prop where
  comboLeg : api.comboLeg.Exact
  deltaNeutralContract : api.deltaNeutralContract.Exact
  contract : api.contract.Exact

variable {node : XmlNode} {api : ApiDefaults}

/-! ## A struct that is read -/

theorem ComboLeg.read_valid {cl : ComboLeg} (h : node.Plain) (he : cl.Exact)
    (hc : cl.Clean) : (cl.convXml2ib node).Exact ∧ (cl.convXml2ib node).Clean where
  left :=
    ⟨inLong_getAttrLong he.conId, inLong_getAttrLong he.ratio, inLong_getAttrLong he.openClose,
      inLong_getAttrLong he.shortSaleSlot, inInt_getAttrInt he.exemptCode⟩
  right := ⟨h.string hc.action, h.string hc.exchange, h.string hc.designatedLocation⟩

theorem DeltaNeutralContract.read_valid {uc : DeltaNeutralContract} (h : node.Plain)
    (he : uc.Exact) : (uc.convXml2ib node).Exact :=
  ⟨inLong_getAttrLong he.conId, h.double he.delta, h.double he.price⟩

namespace Contract

variable {c : Contract}

theorem readChild_valid (hp : api.Proper) (ha : api.Exact) (h : node.Plain) (he : c.Exact)
    (hc : c.Clean) : (c.readChild api node).Exact ∧ (c.readChild api node).Clean := by
  unfold readChild
  split
  · -- the legs
    have hlegs : ∀ cl ∈ (node.children.filter (·.is "comboLeg")).map api.comboLeg.convXml2ib,
        cl.Exact ∧ cl.Clean := by
      intro cl hcl
      obtain ⟨q, hq, rfl⟩ := List.mem_map.1 hcl
      exact ComboLeg.read_valid (h.child q (List.mem_filter.1 hq).1) ha.comboLeg hp.comboLeg
    refine ⟨{ he with comboLegs := ?_ }, { hc with comboLegs := ?_ }⟩
    · rintro legs ⟨⟩ cl hcl
      exact (hlegs cl hcl).1
    · rintro legs ⟨⟩ cl hcl
      exact (hlegs cl hcl).2
  split
  · refine ⟨{ he with deltaNeutralContract := ?_ }, { hc with }⟩
    rintro uc ⟨⟩
    exact DeltaNeutralContract.read_valid h ha.deltaNeutralContract
  · exact ⟨he, hc⟩

/-- **A contract that is read is proper**, over one that is. -/
theorem read_valid (hp : api.Proper) (ha : api.Exact) (h : node.Plain) (he : c.Exact)
    (hc : c.Clean) : (c.convXml2ib api node).Exact ∧ (c.convXml2ib api node).Clean := by
  refine List.foldlRecOn (motive := fun c : Contract => c.Exact ∧ c.Clean) _ _ ⟨?_, ?_⟩
    fun c hc q hq => readChild_valid hp ha (h.child q hq) hc.1 hc.2
  · exact { he with conId := inLong_getAttrLong he.conId, strike := h.double he.strike }
  · exact
      { hc with
        symbol := h.string hc.symbol
        secType := h.string hc.secType
        lastTradeDateOrContractMonth := h.string (h.string hc.lastTradeDateOrContractMonth)
        right := h.string hc.right
        multiplier := h.string hc.multiplier
        exchange := h.string hc.exchange
        primaryExchange := h.string hc.primaryExchange
        currency := h.string hc.currency
        localSymbol := h.string hc.localSymbol
        tradingClass := h.string hc.tradingClass
        secIdType := h.string hc.secIdType
        secId := h.string hc.secId
        comboLegsDescrip := h.string hc.comboLegsDescrip }

end Contract

theorem HistRequest.read_valid {hR : HistRequest} (hp : api.Proper) (ha : api.Exact)
    (h : node.Readable) (he : hR.Exact) (hc : hR.Clean) :
    (hR.fromXml api node).Exact ∧ (hR.fromXml api node).Clean := by
  have hcontract : (hR.fromXml api node).ibContract.Exact ∧
      (hR.fromXml api node).ibContract.Clean := by
    refine List.foldlRecOn (motive := fun c : Contract => c.Exact ∧ c.Clean) _ _
      ⟨he.ibContract, hc.ibContract⟩ fun c hc q hq => ?_
    split
    · exact Contract.read_valid hp ha (h.child q hq).plain hc.1 hc.2
    · exact hc
  exact ⟨⟨hcontract.1, inInt_getAttrInt he.useRTH, inInt_getAttrInt he.formatDate⟩,
    ⟨hcontract.2, h.string hc.endDateTime, h.string hc.durationStr,
      h.string hc.barSizeSetting, h.string hc.whatToShow⟩⟩

theorem dfltRowHist_valid : dfltRowHist.Exact ∧ dfltRowHist.Clean := by
  constructor
  · constructor <;> decide +kernel
  · constructor <;> decide

/-- **A row that is read is proper**: its volume is an `int`. -/
theorem RowHist.read_valid (h : node.Readable) :
    (RowHist.fromXml node).Exact ∧ (RowHist.fromXml node).Clean := by
  obtain ⟨he, hc⟩ := dfltRowHist_valid
  exact ⟨⟨h.double he.open, h.double he.high, h.double he.low, h.double he.close,
      (inInt_getAttrInt hc.volume).inLong, inInt_getAttrInt he.count, h.double he.WAP⟩,
    ⟨h.string hc.date, inInt_getAttrInt hc.volume⟩⟩

/-! ## A packet that is read -/

namespace PacketHistData

variable {p : PacketHistData} {skip : Bool}

/-- What is read into a packet is proper. -/
structure Valid (p : PacketHistData) : Prop where
  request : ∀ hR ∈ p.request, hR.Exact ∧ hR.Clean
  rows : ∀ r ∈ p.rows, r.Exact ∧ r.Clean
  finishRow : p.finishRow.Exact ∧ p.finishRow.Clean

theorem readRow_valid (h : p.Valid) (hn : node.Readable) : (p.readRow node).Valid := by
  unfold readRow
  split
  · refine { h with rows := fun r hr => ?_ }
    rcases List.mem_append.1 hr with hr | hr
    · exact h.rows r hr
    · rw [List.mem_singleton.1 hr]
      exact RowHist.read_valid hn
  split
  · exact { h with finishRow := RowHist.read_valid hn }
  · exact h

theorem readChild_valid (hp : api.Proper) (ha : api.Exact) (h : p.Valid) (hn : node.Readable) :
    (p.readChild api node).Valid := by
  have hempty : CString "" := by decide
  have hzero : InInt 0 := by decide
  have hquery : (if node.is "query" then
      { p with request := some ((HistRequest.init api).fromXml api node) } else p).Valid := by
    split
    · refine { h with request := ?_ }
      rintro hR ⟨⟩
      exact HistRequest.read_valid hp ha hn ⟨ha.contract, hzero, hzero⟩
        ⟨hp.contract, hempty, hempty, hempty, hempty⟩
    · exact h
  unfold readChild
  dsimp only
  split
  · exact List.foldlRecOn (motive := Valid) _ _ hquery fun p h q hq =>
      readRow_valid h (hn.child q hq)
  · exact hquery

end PacketHistData

end Twstools
