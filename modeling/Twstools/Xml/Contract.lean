import Twstools.Xml.Node
import Twstools.Api.Contract
import Mathlib.Tactic.MkIffOfInductiveProp
/-!
# Contracts in xml

`convIb2xml` writes a struct of the API as an element, `convXml2ib` reads
it over a given value. What the constructors of the API leave in a new
struct is a parameter. A struct comes back exactly when its strings have no
NUL; its numbers do in any case, if they are of their types.
-/

namespace Twstools

/-- What the default constructors of the API make. -/
structure ApiDefaults where
  comboLeg : ComboLeg
  deltaNeutralContract : DeltaNeutralContract
  contract : Contract

variable (skip : Bool) (name : String)

/-! ## Writing and reading -/

namespace ComboLeg

/-- `conv_ib2xml(parent, name, ComboLeg)`. -/
def convIb2xml (cl dflt : ComboLeg) : XmlNode :=
  .element name
    (addAttrLong skip "conId" cl.conId dflt.conId ++
      addAttrLong skip "ratio" cl.ratio dflt.ratio ++
      addAttrString skip "action" cl.action dflt.action ++
      addAttrString skip "exchange" cl.exchange dflt.exchange ++
      addAttrLong skip "openClose" cl.openClose dflt.openClose ++
      addAttrLong skip "shortSaleSlot" cl.shortSaleSlot dflt.shortSaleSlot ++
      addAttrString skip "designatedLocation" cl.designatedLocation dflt.designatedLocation ++
      addAttrInt skip "exemptCode" cl.exemptCode dflt.exemptCode)
    []

/-- `conv_xml2ib(ComboLeg)`. -/
def convXml2ib (cl : ComboLeg) (node : XmlNode) : ComboLeg where
  conId := getAttrLong node "conId" cl.conId
  ratio := getAttrLong node "ratio" cl.ratio
  action := getAttrString node "action" cl.action
  exchange := getAttrString node "exchange" cl.exchange
  openClose := getAttrLong node "openClose" cl.openClose
  shortSaleSlot := getAttrLong node "shortSaleSlot" cl.shortSaleSlot
  designatedLocation := getAttrString node "designatedLocation" cl.designatedLocation
  exemptCode := getAttrInt node "exemptCode" cl.exemptCode

end ComboLeg

namespace DeltaNeutralContract

/-- `conv_ib2xml(parent, name, DeltaNeutralContract)`. -/
def convIb2xml (uc dflt : DeltaNeutralContract) : XmlNode :=
  .element name
    (addAttrLong skip "conId" uc.conId dflt.conId ++
      addAttrDouble skip "delta" uc.delta dflt.delta ++
      addAttrDouble skip "price" uc.price dflt.price)
    []

/-- `conv_xml2ib(DeltaNeutralContract)`. -/
def convXml2ib (uc : DeltaNeutralContract) (node : XmlNode) : DeltaNeutralContract where
  conId := getAttrLong node "conId" uc.conId
  delta := getAttrDouble node "delta" uc.delta
  price := getAttrDouble node "price" uc.price

end DeltaNeutralContract

namespace Contract

/-- `conv_ib2xml(parent, name, Contract)`. The month is written under its
old name. -/
def convIb2xml (api : ApiDefaults) (c : Contract) : XmlNode :=
  let dflt := api.contract
  .element name
    (addAttrLong skip "conId" c.conId dflt.conId ++
      addAttrString skip "symbol" c.symbol dflt.symbol ++
      addAttrString skip "secType" c.secType dflt.secType ++
      addAttrString skip "expiry" c.lastTradeDateOrContractMonth
        dflt.lastTradeDateOrContractMonth ++
      addAttrDouble skip "strike" c.strike dflt.strike ++
      addAttrString skip "right" c.right dflt.right ++
      addAttrString skip "multiplier" c.multiplier dflt.multiplier ++
      addAttrString skip "exchange" c.exchange dflt.exchange ++
      addAttrString skip "primaryExchange" c.primaryExchange dflt.primaryExchange ++
      addAttrString skip "currency" c.currency dflt.currency ++
      addAttrString skip "localSymbol" c.localSymbol dflt.localSymbol ++
      addAttrString skip "tradingClass" c.tradingClass dflt.tradingClass ++
      addAttrBool skip "includeExpired" c.includeExpired dflt.includeExpired ++
      addAttrString skip "secIdType" c.secIdType dflt.secIdType ++
      addAttrString skip "secId" c.secId dflt.secId ++
      addAttrString skip "comboLegsDescrip" c.comboLegsDescrip dflt.comboLegsDescrip)
    ((match c.comboLegs with
      | none => []
      | some legs =>
          [.element "comboLegs" [] (legs.map (·.convIb2xml skip "comboLeg" api.comboLeg))]) ++
      match c.deltaNeutralContract with
      | none => []
      | some uc => [uc.convIb2xml skip "deltaNeutralContract" api.deltaNeutralContract])

/-- The loop of `conv_xml2ib(Contract)` over the children. -/
def readChild (api : ApiDefaults) (c : Contract) (p : XmlNode) : Contract :=
  if p.is "comboLegs" then
    { c with
      comboLegs := some ((p.children.filter (·.is "comboLeg")).map api.comboLeg.convXml2ib) }
  else if p.is "deltaNeutralContract" then
    { c with deltaNeutralContract := some (api.deltaNeutralContract.convXml2ib p) }
  else c

/-- `conv_xml2ib(Contract)`. The new name of the month wins. -/
def convXml2ib (api : ApiDefaults) (c : Contract) (node : XmlNode) : Contract :=
  node.children.foldl (readChild api)
    { c with
      conId := getAttrLong node "conId" c.conId
      symbol := getAttrString node "symbol" c.symbol
      secType := getAttrString node "secType" c.secType
      lastTradeDateOrContractMonth :=
        getAttrString node "lastTradeDateOrContractMonth"
          (getAttrString node "expiry" c.lastTradeDateOrContractMonth)
      strike := getAttrDouble node "strike" c.strike
      right := getAttrString node "right" c.right
      multiplier := getAttrString node "multiplier" c.multiplier
      exchange := getAttrString node "exchange" c.exchange
      primaryExchange := getAttrString node "primaryExchange" c.primaryExchange
      currency := getAttrString node "currency" c.currency
      localSymbol := getAttrString node "localSymbol" c.localSymbol
      tradingClass := getAttrString node "tradingClass" c.tradingClass
      includeExpired := getAttrBool node "includeExpired" c.includeExpired
      secIdType := getAttrString node "secIdType" c.secIdType
      secId := getAttrString node "secId" c.secId
      comboLegsDescrip := getAttrString node "comboLegsDescrip" c.comboLegsDescrip }

end Contract

/-! ## What comes back -/

/-- The numbers are of their types. -/
structure ComboLeg.Exact (cl : ComboLeg) : Prop where
  conId : InLong cl.conId
  ratio : InLong cl.ratio
  openClose : InLong cl.openClose
  shortSaleSlot : InLong cl.shortSaleSlot
  exemptCode : InInt cl.exemptCode

/-- The strings have no NUL. -/
@[mk_iff] structure ComboLeg.Clean (cl : ComboLeg) : Prop where
  action : CString cl.action
  exchange : CString cl.exchange
  designatedLocation : CString cl.designatedLocation

/-- The number is of its type, and the doubles print exactly. -/
structure DeltaNeutralContract.Exact (uc : DeltaNeutralContract) : Prop where
  conId : InLong uc.conId
  delta : uc.delta.PrintsExactly
  price : uc.price.PrintsExactly

/-- The numbers are of their types, and the doubles print exactly. -/
structure Contract.Exact (c : Contract) : Prop where
  conId : InLong c.conId
  strike : c.strike.PrintsExactly
  comboLegs : ∀ legs ∈ c.comboLegs, ∀ cl ∈ legs, cl.Exact
  deltaNeutralContract : ∀ uc ∈ c.deltaNeutralContract, uc.Exact

/-- The strings have no NUL. -/
@[mk_iff] structure Contract.Clean (c : Contract) : Prop where
  symbol : CString c.symbol
  secType : CString c.secType
  lastTradeDateOrContractMonth : CString c.lastTradeDateOrContractMonth
  right : CString c.right
  multiplier : CString c.multiplier
  exchange : CString c.exchange
  primaryExchange : CString c.primaryExchange
  currency : CString c.currency
  localSymbol : CString c.localSymbol
  tradingClass : CString c.tradingClass
  secIdType : CString c.secIdType
  secId : CString c.secId
  comboLegsDescrip : CString c.comboLegsDescrip
  comboLegs : ∀ legs ∈ c.comboLegs, ∀ cl ∈ legs, cl.Clean

/-- What the API promises about its defaults: no NUL in the strings, and
null pointers. -/
structure ApiDefaults.Proper (api : ApiDefaults) : Prop where
  comboLeg : api.comboLeg.Clean
  contract : api.contract.Clean
  comboLegs : api.contract.comboLegs = none
  deltaNeutralContract : api.contract.deltaNeutralContract = none

variable {skip name} {api : ApiDefaults}

theorem ComboLeg.read_write {dflt cl : ComboLeg} (he : cl.Exact) (hd : dflt.Clean) :
    dflt.convXml2ib (cl.convIb2xml skip name dflt) = cl ↔ cl.Clean := by
  rw [ComboLeg.ext_iff]
  simp only [convIb2xml, convXml2ib, getAttrLong, getAttrInt, getAttrString, addAttrLong,
    addAttrInt, addAttrString, XmlNode.prop, List.lookup_append, lookup_newAttr, String.reduceEq,
    if_true, if_false, Option.or_none, Option.none_or]
  simp only [long_kept he.conId, long_kept he.ratio, long_kept he.openClose,
    long_kept he.shortSaleSlot, int_kept he.exemptCode, string_kept hd.action,
    string_kept hd.exchange, string_kept hd.designatedLocation, true_and, and_true]
  exact (ComboLeg.clean_iff cl).symm

theorem DeltaNeutralContract.read_write {dflt uc : DeltaNeutralContract} (he : uc.Exact) :
    dflt.convXml2ib (uc.convIb2xml skip name dflt) = uc := by
  rw [DeltaNeutralContract.ext_iff]
  simp only [convIb2xml, convXml2ib, getAttrLong, getAttrDouble, addAttrLong, addAttrDouble,
    XmlNode.prop, List.lookup_append, lookup_newAttr, String.reduceEq, if_true, if_false,
    Option.or_none, Option.none_or]
  exact ⟨long_kept he.conId, double_kept he.delta, double_kept he.price⟩

namespace Contract

/-- The legs are read from their elements, one by one. -/
theorem readChild_comboLegs {c : Contract} {legs : List ComboLeg} :
    c.readChild api (.element "comboLegs" []
      (legs.map (·.convIb2xml skip "comboLeg" api.comboLeg))) =
      { c with comboLegs := some (legs.map fun cl =>
          api.comboLeg.convXml2ib (cl.convIb2xml skip "comboLeg" api.comboLeg)) } := by
  have hall : (legs.map (·.convIb2xml skip "comboLeg" api.comboLeg)).filter (·.is "comboLeg") =
      legs.map (·.convIb2xml skip "comboLeg" api.comboLeg) := by
    rw [List.filter_eq_self]
    intro node hnode
    obtain ⟨cl, -, rfl⟩ := List.mem_map.1 hnode
    simp [ComboLeg.convIb2xml, XmlNode.is]
  rw [readChild, if_pos (by simp [XmlNode.is])]
  simp only [XmlNode.children, hall, List.map_map]
  rfl

/-- What the children of a written contract are read as. -/
theorem readChildren {c c₀ : Contract} (hl : c₀.comboLegs = none)
    (hu : c₀.deltaNeutralContract = none) :
    (convIb2xml skip name api c).children.foldl (readChild api) c₀ =
      { c₀ with
        comboLegs := c.comboLegs.map (·.map fun cl =>
          api.comboLeg.convXml2ib (cl.convIb2xml skip "comboLeg" api.comboLeg))
        deltaNeutralContract := c.deltaNeutralContract.map fun uc =>
          api.deltaNeutralContract.convXml2ib
            (uc.convIb2xml skip "deltaNeutralContract" api.deltaNeutralContract) } := by
  have hdelta : ∀ (c₁ : Contract) (uc : DeltaNeutralContract), c₁.readChild api
      (uc.convIb2xml skip "deltaNeutralContract" api.deltaNeutralContract) =
        { c₁ with deltaNeutralContract := some (api.deltaNeutralContract.convXml2ib
          (uc.convIb2xml skip "deltaNeutralContract" api.deltaNeutralContract)) } :=
    fun c₁ uc => by
      rw [readChild, if_neg (by simp [DeltaNeutralContract.convIb2xml, XmlNode.is]),
        if_pos (by simp [DeltaNeutralContract.convIb2xml, XmlNode.is])]
  simp only [convIb2xml, XmlNode.children]
  rw [Contract.ext_iff]
  cases c.comboLegs with
  | none =>
      cases c.deltaNeutralContract with
      | none => simp [hl, hu]
      | some uc => simp [hdelta, hl]
  | some legs =>
      cases c.deltaNeutralContract with
      | none => simp [readChild_comboLegs, hu]
      | some uc => simp [readChild_comboLegs, hdelta]

/-- **A contract comes back exactly when its strings have no NUL.** -/
theorem read_write {c : Contract} (he : c.Exact) (hp : api.Proper) :
    api.contract.convXml2ib api (convIb2xml skip name api c) = c ↔ c.Clean := by
  obtain ⟨hcl, hd, hnl, hnu⟩ := hp
  rw [convXml2ib, readChildren (by exact hnl) (by exact hnu), Contract.ext_iff]
  simp only [convIb2xml, getAttrLong, getAttrDouble, getAttrBool, getAttrString, addAttrLong,
    addAttrDouble, addAttrBool, addAttrString, XmlNode.prop, List.lookup_append, lookup_newAttr,
    String.reduceEq, if_true, if_false, Option.or_none, Option.none_or, Option.elim_none]
  have hlegs : c.comboLegs.map (·.map fun cl =>
      api.comboLeg.convXml2ib (cl.convIb2xml skip "comboLeg" api.comboLeg)) =
        c.comboLegs ↔ ∀ legs ∈ c.comboLegs, ∀ cl ∈ legs, cl.Clean := by
    cases hc : c.comboLegs with
    | none => simp
    | some legs =>
        simp only [Option.map_some, Option.some.injEq, map_eq_self_iff, Option.mem_def,
          forall_eq']
        exact forall₂_congr fun cl hm => ComboLeg.read_write (he.comboLegs legs hc cl hm) hcl
  have hdelta : c.deltaNeutralContract.map (fun uc => api.deltaNeutralContract.convXml2ib
      (uc.convIb2xml skip "deltaNeutralContract" api.deltaNeutralContract)) =
        c.deltaNeutralContract := by
    cases hc : c.deltaNeutralContract with
    | none => rfl
    | some uc =>
        exact congrArg some (DeltaNeutralContract.read_write (he.deltaNeutralContract uc hc))
  simp only [long_kept he.conId, double_kept he.strike, bool_kept, string_kept hd.symbol,
    string_kept hd.secType, string_kept hd.lastTradeDateOrContractMonth, string_kept hd.right,
    string_kept hd.multiplier, string_kept hd.exchange, string_kept hd.primaryExchange,
    string_kept hd.currency, string_kept hd.localSymbol, string_kept hd.tradingClass,
    string_kept hd.secIdType, string_kept hd.secId, string_kept hd.comboLegsDescrip, hlegs,
    hdelta, true_and, and_true]
  exact (clean_iff c).symm

end Contract

end Twstools
