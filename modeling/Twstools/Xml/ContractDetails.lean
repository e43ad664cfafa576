import Twstools.Xml.HistData
/-!
# Contract details in xml

A packet of contract details is dumped as a `request` element: the query,
and a `ContractDetails` element for each row. The contract is a child of
its own, but a `tradingClass` of the details, where it once was, is taken
as well. What is written comes back exactly when its strings have no NUL.
-/

namespace Twstools

/-- What the default constructors of the API make, those of contract details
included. -/
structure DetailsDefaults extends ApiDefaults where
  tagValue : TagValue
  contractDetails : ContractDetails

variable (skip : Bool) (name : String)

/-! ## Tags with values -/

namespace TagValue

/-- `conv_ib2xml(parent, name, TagValue)`. -/
def convIb2xml (tV dflt : TagValue) : XmlNode :=
  .element name (addAttrString skip "tag" tV.tag dflt.tag ++
    addAttrString skip "value" tV.value dflt.value) []

/-- `conv_xml2ib(TagValue)`. -/
def convXml2ib (tV : TagValue) (node : XmlNode) : TagValue where
  tag := getAttrString node "tag" tV.tag
  value := getAttrString node "value" tV.value

end TagValue

/-- `ADD_CHILD_TAGVALUELIST`. -/
def addChildTagValueList (l : Option (List TagValue)) (dflt : TagValue) : List XmlNode :=
  match l with
  | none => []
  | some l => [.element name [] (l.map (·.convIb2xml skip "tagValue" dflt))]

/-- `GET_CHILD_TAGVALUELIST`. -/
def getChildTagValueList (p : XmlNode) (dflt : TagValue) : List TagValue :=
  (p.children.filter (·.is "tagValue")).map dflt.convXml2ib

/-! ## Writing and reading -/

namespace ContractDetails

/-- `conv_ib2xml(parent, name, ContractDetails)`. -/
def convIb2xml (api : DetailsDefaults) (cd : ContractDetails) : XmlNode :=
  let dflt := api.contractDetails
  .element name
    (addAttrString skip "marketName" cd.marketName dflt.marketName ++
      addAttrDouble skip "minTick" cd.minTick dflt.minTick ++
      addAttrString skip "orderTypes" cd.orderTypes dflt.orderTypes ++
      addAttrString skip "validExchanges" cd.validExchanges dflt.validExchanges ++
      addAttrLong skip "priceMagnifier" cd.priceMagnifier dflt.priceMagnifier ++
      addAttrInt skip "underConId" cd.underConId dflt.underConId ++
      addAttrString skip "longName" cd.longName dflt.longName ++
      addAttrString skip "contractMonth" cd.contractMonth dflt.contractMonth ++
      addAttrString skip "industry" cd.industry dflt.industry ++
      addAttrString skip "category" cd.category dflt.category ++
      addAttrString skip "subcategory" cd.subcategory dflt.subcategory ++
      addAttrString skip "timeZoneId" cd.timeZoneId dflt.timeZoneId ++
      addAttrString skip "tradingHours" cd.tradingHours dflt.tradingHours ++
      addAttrString skip "liquidHours" cd.liquidHours dflt.liquidHours ++
      addAttrString skip "evRule" cd.evRule dflt.evRule ++
      addAttrDouble skip "evMultiplier" cd.evMultiplier dflt.evMultiplier ++
      addAttrInt skip "mdSizeMultiplier" cd.mdSizeMultiplier dflt.mdSizeMultiplier ++
      addAttrInt skip "aggGroup" cd.aggGroup dflt.aggGroup ++
      addAttrString skip "underSymbol" cd.underSymbol dflt.underSymbol ++
      addAttrString skip "underSecType" cd.underSecType dflt.underSecType ++
      addAttrString skip "marketRuleIds" cd.marketRuleIds dflt.marketRuleIds ++
      addAttrString skip "realExpirationDate" cd.realExpirationDate dflt.realExpirationDate ++
      addAttrString skip "lastTradeTime" cd.lastTradeTime dflt.lastTradeTime ++
      addAttrString skip "cusip" cd.cusip dflt.cusip ++
      addAttrString skip "ratings" cd.ratings dflt.ratings ++
      addAttrString skip "descAppend" cd.descAppend dflt.descAppend ++
      addAttrString skip "bondType" cd.bondType dflt.bondType ++
      addAttrString skip "couponType" cd.couponType dflt.couponType ++
      addAttrBool skip "callable" cd.callable dflt.callable ++
      addAttrBool skip "putable" cd.putable dflt.putable ++
      addAttrDouble skip "coupon" cd.coupon dflt.coupon ++
      addAttrBool skip "convertible" cd.convertible dflt.convertible ++
      addAttrString skip "maturity" cd.maturity dflt.maturity ++
      addAttrString skip "issueDate" cd.issueDate dflt.issueDate ++
      addAttrString skip "nextOptionDate" cd.nextOptionDate dflt.nextOptionDate ++
      addAttrString skip "nextOptionType" cd.nextOptionType dflt.nextOptionType ++
      addAttrBool skip "nextOptionPartial" cd.nextOptionPartial dflt.nextOptionPartial ++
      addAttrString skip "notes" cd.notes dflt.notes)
    (cd.summary.convIb2xml skip "summary" api.toApiDefaults ::
      addChildTagValueList skip "secIdList" cd.secIdList api.tagValue)

/-- The loop of `conv_xml2ib(ContractDetails)` over the children. -/
def readChild (api : DetailsDefaults) (cd : ContractDetails) (p : XmlNode) : ContractDetails :=
  if p.is "summary" then { cd with summary := cd.summary.convXml2ib api.toApiDefaults p }
  else if p.is "secIdList" then { cd with secIdList := some (getChildTagValueList p api.tagValue) }
  else cd

/-- `conv_xml2ib(ContractDetails)`. The attribute `tradingClass` goes to the
contract, where the `summary` may overwrite it. -/
def convXml2ib (api : DetailsDefaults) (cd : ContractDetails) (node : XmlNode) :
    ContractDetails :=
  node.children.foldl (readChild api)
    { cd with
      summary := { cd.summary with
        tradingClass := getAttrString node "tradingClass" cd.summary.tradingClass }
      marketName := getAttrString node "marketName" cd.marketName
      minTick := getAttrDouble node "minTick" cd.minTick
      orderTypes := getAttrString node "orderTypes" cd.orderTypes
      validExchanges := getAttrString node "validExchanges" cd.validExchanges
      priceMagnifier := getAttrLong node "priceMagnifier" cd.priceMagnifier
      underConId := getAttrInt node "underConId" cd.underConId
      longName := getAttrString node "longName" cd.longName
      contractMonth := getAttrString node "contractMonth" cd.contractMonth
      industry := getAttrString node "industry" cd.industry
      category := getAttrString node "category" cd.category
      subcategory := getAttrString node "subcategory" cd.subcategory
      timeZoneId := getAttrString node "timeZoneId" cd.timeZoneId
      tradingHours := getAttrString node "tradingHours" cd.tradingHours
      liquidHours := getAttrString node "liquidHours" cd.liquidHours
      evRule := getAttrString node "evRule" cd.evRule
      evMultiplier := getAttrDouble node "evMultiplier" cd.evMultiplier
      mdSizeMultiplier := getAttrInt node "mdSizeMultiplier" cd.mdSizeMultiplier
      aggGroup := getAttrInt node "aggGroup" cd.aggGroup
      underSymbol := getAttrString node "underSymbol" cd.underSymbol
      underSecType := getAttrString node "underSecType" cd.underSecType
      marketRuleIds := getAttrString node "marketRuleIds" cd.marketRuleIds
      realExpirationDate := getAttrString node "realExpirationDate" cd.realExpirationDate
      lastTradeTime := getAttrString node "lastTradeTime" cd.lastTradeTime
      cusip := getAttrString node "cusip" cd.cusip
      ratings := getAttrString node "ratings" cd.ratings
      descAppend := getAttrString node "descAppend" cd.descAppend
      bondType := getAttrString node "bondType" cd.bondType
      couponType := getAttrString node "couponType" cd.couponType
      callable := getAttrBool node "callable" cd.callable
      putable := getAttrBool node "putable" cd.putable
      coupon := getAttrDouble node "coupon" cd.coupon
      convertible := getAttrBool node "convertible" cd.convertible
      maturity := getAttrString node "maturity" cd.maturity
      issueDate := getAttrString node "issueDate" cd.issueDate
      nextOptionDate := getAttrString node "nextOptionDate" cd.nextOptionDate
      nextOptionType := getAttrString node "nextOptionType" cd.nextOptionType
      nextOptionPartial := getAttrBool node "nextOptionPartial" cd.nextOptionPartial
      notes := getAttrString node "notes" cd.notes }

end ContractDetails

namespace ContractDetailsRequest

/-- `to_xml(parent, ContractDetailsRequest)`. -/
def toXml (api : DetailsDefaults) (cdr : ContractDetailsRequest) : XmlNode :=
  .element "query" [] [cdr.ibContract.convIb2xml skip "reqContract" api.toApiDefaults]

/-- `from_xml(ContractDetailsRequest)`. -/
def fromXml (api : DetailsDefaults) (cdr : ContractDetailsRequest) (node : XmlNode) :
    ContractDetailsRequest :=
  node.children.foldl (fun cdr p =>
    if p.is "reqContract" then
      { cdr with ibContract := api.contract.convXml2ib api.toApiDefaults p }
    else cdr) cdr

end ContractDetailsRequest

namespace PacketContractDetails

/-- `dumpXml`, the `request` element it puts into the document. -/
def dumpXml (api : DetailsDefaults) (p : PacketContractDetails) : Exec Assertion XmlNode := do
  let request ← deref p.request
  pure (.element "request" [("type", "contract_details")]
    [request.toXml skip api,
      .element "response" [] (p.cdList.map (·.convIb2xml skip "ContractDetails" api))])

/-- A child of the `request`. -/
def readChild (api : DetailsDefaults) (pcd : PacketContractDetails) (p : XmlNode) :
    PacketContractDetails :=
  let pcd := if p.is "query" then
    { pcd with
      request := some (ContractDetailsRequest.fromXml api { ibContract := api.contract } p) }
    else pcd
  if p.is "response" then
    { pcd with
      cdList := pcd.cdList ++ (p.children.filter (·.is "ContractDetails")).map
        (api.contractDetails.convXml2ib api) }
  else pcd

/-- `PacketContractDetails::fromXml`. -/
def fromXml (api : DetailsDefaults) (root : XmlNode) : PacketContractDetails :=
  root.children.foldl (readChild api) {}

end PacketContractDetails

/-! ## What comes back -/

/-- The strings have no NUL. -/
@[mk_iff] structure TagValue.Clean (tV : TagValue) : Prop where
  tag : CString tV.tag
  value : CString tV.value

/-- The numbers are of their types, and the doubles print exactly. -/
structure ContractDetails.Exact (cd : ContractDetails) : Prop where
  summary : cd.summary.Exact
  minTick : cd.minTick.PrintsExactly
  priceMagnifier : InLong cd.priceMagnifier
  underConId : InInt cd.underConId
  evMultiplier : cd.evMultiplier.PrintsExactly
  mdSizeMultiplier : InInt cd.mdSizeMultiplier
  aggGroup : InInt cd.aggGroup
  coupon : cd.coupon.PrintsExactly

/-- The strings have no NUL. -/
@[mk_iff] structure ContractDetails.Clean (cd : ContractDetails) : Prop where
  summary : cd.summary.Clean
  marketName : CString cd.marketName
  orderTypes : CString cd.orderTypes
  validExchanges : CString cd.validExchanges
  longName : CString cd.longName
  contractMonth : CString cd.contractMonth
  industry : CString cd.industry
  category : CString cd.category
  subcategory : CString cd.subcategory
  timeZoneId : CString cd.timeZoneId
  tradingHours : CString cd.tradingHours
  liquidHours : CString cd.liquidHours
  evRule : CString cd.evRule
  underSymbol : CString cd.underSymbol
  underSecType : CString cd.underSecType
  marketRuleIds : CString cd.marketRuleIds
  realExpirationDate : CString cd.realExpirationDate
  lastTradeTime : CString cd.lastTradeTime
  cusip : CString cd.cusip
  ratings : CString cd.ratings
  descAppend : CString cd.descAppend
  bondType : CString cd.bondType
  couponType : CString cd.couponType
  maturity : CString cd.maturity
  issueDate : CString cd.issueDate
  nextOptionDate : CString cd.nextOptionDate
  nextOptionType : CString cd.nextOptionType
  notes : CString cd.notes
  secIdList : ∀ l ∈ cd.secIdList, ∀ tV ∈ l, tV.Clean

/-- What the API promises about its defaults: no NUL in the strings, a new
contract in new details, and null pointers. -/
structure DetailsDefaults.Proper (api : DetailsDefaults) : Prop
    extends api.toApiDefaults.Proper where
  tagValue : api.tagValue.Clean
  contractDetails : api.contractDetails.Clean
  summary : api.contractDetails.summary = api.contract
  secIdList : api.contractDetails.secIdList = none

variable {skip name} {api : DetailsDefaults}

theorem TagValue.read_write {dflt tV : TagValue} (hd : dflt.Clean) :
    dflt.convXml2ib (tV.convIb2xml skip name dflt) = tV ↔ tV.Clean := by
  rw [TagValue.ext_iff]
  simp only [convIb2xml, convXml2ib, getAttrString, addAttrString, XmlNode.prop,
    List.lookup_append, lookup_newAttr, String.reduceEq, if_true, if_false, Option.or_none,
    Option.none_or, string_kept hd.tag, string_kept hd.value]
  exact (TagValue.clean_iff tV).symm

/-- The elements of a list are read one by one. -/
theorem getChildTagValueList_eq {l : List TagValue} {dflt : TagValue} :
    getChildTagValueList (.element name [] (l.map (·.convIb2xml skip "tagValue" dflt))) dflt =
      l.map fun tV => dflt.convXml2ib (tV.convIb2xml skip "tagValue" dflt) := by
  have hall : (l.map (·.convIb2xml skip "tagValue" dflt)).filter (·.is "tagValue") =
      l.map (·.convIb2xml skip "tagValue" dflt) := by
    rw [List.filter_eq_self]
    intro node hnode
    obtain ⟨tV, -, rfl⟩ := List.mem_map.1 hnode
    simp [TagValue.convIb2xml, XmlNode.is]
  rw [getChildTagValueList, XmlNode.children, hall, List.map_map]
  rfl

/-- A list of tags comes back exactly when no string has a NUL. -/
theorem tagValueList_kept {o : Option (List TagValue)} {dflt : TagValue} (hd : dflt.Clean) :
    o.map (·.map fun tV => dflt.convXml2ib (tV.convIb2xml skip "tagValue" dflt)) = o ↔
      ∀ l ∈ o, ∀ tV ∈ l, tV.Clean := by
  cases o with
  | none => simp
  | some l =>
      simp only [Option.map_some, Option.some.injEq, map_eq_self_iff, Option.mem_def,
        forall_eq']
      exact forall₂_congr fun tV _ => TagValue.read_write hd

/-- A reader that sets a field to the list of its element sets it to the list
that was written. -/
theorem foldl_addChildTagValueList {α : Type} {f : α → XmlNode → α}
    {g : Option (List TagValue) → α} {a : α} {l : Option (List TagValue)} {dflt : TagValue}
    (hnone : g none = a)
    (hsome : ∀ p, p.is name = true → f a p = g (some (getChildTagValueList p dflt))) :
    (addChildTagValueList skip name l dflt).foldl f a =
      g (l.map (·.map fun tV => dflt.convXml2ib (tV.convIb2xml skip "tagValue" dflt))) := by
  cases l with
  | none => exact hnone.symm
  | some l =>
      rw [addChildTagValueList, List.foldl_cons, List.foldl_nil,
        hsome _ (by simp [XmlNode.is]), getChildTagValueList_eq, Option.map_some]

namespace ContractDetails

/-- What the children of written details are read as. -/
theorem readChildren {cd cd₀ : ContractDetails} (hl : cd₀.secIdList = none) :
    (convIb2xml skip name api cd).children.foldl (readChild api) cd₀ =
      { cd₀ with
        summary := cd₀.summary.convXml2ib api.toApiDefaults
          (cd.summary.convIb2xml skip "summary" api.toApiDefaults)
        secIdList := cd.secIdList.map (·.map fun tV =>
          api.tagValue.convXml2ib (tV.convIb2xml skip "tagValue" api.tagValue)) } := by
  have hsummary : ∀ cd₁ : ContractDetails, cd₁.readChild api
      (cd.summary.convIb2xml skip "summary" api.toApiDefaults) =
        { cd₁ with
          summary := cd₁.summary.convXml2ib api.toApiDefaults
            (cd.summary.convIb2xml skip "summary" api.toApiDefaults) } := fun cd₁ =>
    if_pos (by simp [Contract.convIb2xml, XmlNode.is])
  simp only [convIb2xml, XmlNode.children, List.foldl_cons, hsummary]
  refine foldl_addChildTagValueList (g := fun l => { cd₀ with
      summary := cd₀.summary.convXml2ib api.toApiDefaults
        (cd.summary.convIb2xml skip "summary" api.toApiDefaults)
      secIdList := l }) ?_ ?_
  · rw [← hl]
  · intro p h
    rw [readChild, XmlNode.is_ne h (by decide), if_neg (by decide), if_pos h]

/-- **Details come back exactly when their strings have no NUL.** -/
theorem read_write {cd : ContractDetails} (he : cd.Exact) (hp : api.Proper) :
    api.contractDetails.convXml2ib api (convIb2xml skip name api cd) = cd ↔ cd.Clean := by
  have hd := hp.contractDetails
  rw [convXml2ib, readChildren (by exact hp.secIdList), ContractDetails.ext_iff]
  simp only [convIb2xml, getAttrLong, getAttrInt, getAttrDouble, getAttrBool, getAttrString,
    addAttrLong, addAttrInt, addAttrDouble, addAttrBool, addAttrString, XmlNode.prop,
    List.lookup_append, lookup_newAttr, String.reduceEq, if_true, if_false, Option.or_none,
    Option.none_or, Option.elim_none]
  have hsummary : ({ api.contractDetails.summary with
      tradingClass := api.contractDetails.summary.tradingClass } : Contract).convXml2ib
        api.toApiDefaults (cd.summary.convIb2xml skip "summary" api.toApiDefaults) =
          cd.summary ↔ cd.summary.Clean := by
    rw [hp.summary]
    exact Contract.read_write he.summary hp.toProper
  simp only [hsummary, tagValueList_kept hp.tagValue,
    string_kept hd.marketName, double_kept he.minTick, string_kept hd.orderTypes,
    string_kept hd.validExchanges, long_kept he.priceMagnifier, int_kept he.underConId,
    string_kept hd.longName, string_kept hd.contractMonth, string_kept hd.industry,
    string_kept hd.category, string_kept hd.subcategory, string_kept hd.timeZoneId,
    string_kept hd.tradingHours, string_kept hd.liquidHours, string_kept hd.evRule,
    double_kept he.evMultiplier, int_kept he.mdSizeMultiplier, int_kept he.aggGroup,
    string_kept hd.underSymbol, string_kept hd.underSecType, string_kept hd.marketRuleIds,
    string_kept hd.realExpirationDate, string_kept hd.lastTradeTime, string_kept hd.cusip,
    string_kept hd.ratings, string_kept hd.descAppend, string_kept hd.bondType,
    string_kept hd.couponType, double_kept he.coupon, string_kept hd.maturity,
    string_kept hd.issueDate, string_kept hd.nextOptionDate, string_kept hd.nextOptionType,
    string_kept hd.notes, bool_kept, true_and]
  exact (clean_iff cd).symm

end ContractDetails

/-- A request comes back exactly when its strings have no NUL. -/
theorem ContractDetailsRequest.read_write {cdr : ContractDetailsRequest}
    (he : cdr.ibContract.Exact) (hp : api.Proper) :
    fromXml api { ibContract := api.contract } (cdr.toXml skip api) = cdr ↔
      cdr.ibContract.Clean := by
  have hread : fromXml api { ibContract := api.contract } (cdr.toXml skip api) =
      { ibContract := api.contract.convXml2ib api.toApiDefaults
          (cdr.ibContract.convIb2xml skip "reqContract" api.toApiDefaults) } := by
    simp [fromXml, toXml, XmlNode.children, XmlNode.is, Contract.convIb2xml]
  have hcontract : api.contract.convXml2ib api.toApiDefaults
      (cdr.ibContract.convIb2xml skip "reqContract" api.toApiDefaults) = cdr.ibContract ↔
      cdr.ibContract.Clean := Contract.read_write he hp.toProper
  rw [hread, ← hcontract]
  constructor
  · intro h
    exact congrArg ContractDetailsRequest.ibContract h
  · intro h
    rw [h]

namespace PacketContractDetails

/-- What the element of a packet is read as. -/
theorem fromXml_dumpXml {p : PacketContractDetails} {cdr : ContractDetailsRequest}
    {node : XmlNode} (hr : p.request = some cdr) (h : p.dumpXml skip api = .ok node) :
    fromXml api node =
      { request := some (ContractDetailsRequest.fromXml api { ibContract := api.contract }
          (cdr.toXml skip api))
        cdList := p.cdList.map fun cd =>
          api.contractDetails.convXml2ib api (cd.convIb2xml skip "ContractDetails" api) } := by
  rw [dumpXml, hr] at h
  obtain rfl := Except.ok.inj h
  have hall : (p.cdList.map (·.convIb2xml skip "ContractDetails" api)).filter
      (·.is "ContractDetails") = p.cdList.map (·.convIb2xml skip "ContractDetails" api) := by
    rw [List.filter_eq_self]
    intro node hnode
    obtain ⟨cd, -, rfl⟩ := List.mem_map.1 hnode
    simp [ContractDetails.convIb2xml, XmlNode.is]
  have hquery : ∀ pcd : PacketContractDetails, pcd.readChild api (cdr.toXml skip api) =
      { pcd with
        request := some (ContractDetailsRequest.fromXml api { ibContract := api.contract }
          (cdr.toXml skip api)) } := fun pcd => by
    simp [readChild, ContractDetailsRequest.toXml, XmlNode.is]
  have hresp : ∀ (pcd : PacketContractDetails) (cs : List XmlNode),
      pcd.readChild api (.element "response" [] cs) =
        { pcd with
          cdList := pcd.cdList ++ (cs.filter (·.is "ContractDetails")).map
            (api.contractDetails.convXml2ib api) } := fun pcd cs => by
    simp [readChild, XmlNode.is, XmlNode.children]
  simp only [fromXml, XmlNode.children, List.foldl_cons, List.foldl_nil, hquery, hresp, hall,
    List.map_map, List.nil_append]
  rfl

/-- **Contract details survive writing and reading exactly when** no string
has a NUL, with and without the defaults. -/
theorem contract_details_survive (hp : api.Proper) {p : PacketContractDetails}
    {cdr : ContractDetailsRequest} (hr : p.request = some cdr) (heR : cdr.ibContract.Exact)
    (he : ∀ cd ∈ p.cdList, cd.Exact) :
    ∃ node, p.dumpXml skip api = .ok node ∧
      ((fromXml api node).request = some cdr ∧ (fromXml api node).cdList = p.cdList ↔
        cdr.ibContract.Clean ∧ ∀ cd ∈ p.cdList, cd.Clean) := by
  obtain ⟨node, h⟩ : ∃ node, p.dumpXml skip api = .ok node := by
    rw [dumpXml, hr]
    exact ⟨_, rfl⟩
  refine ⟨node, h, ?_⟩
  rw [fromXml_dumpXml hr h]
  dsimp only
  rw [Option.some.injEq, ContractDetailsRequest.read_write heR hp, map_eq_self_iff]
  exact and_congr_right fun _ => forall₂_congr fun cd hm => ContractDetails.read_write (he cd hm) hp

open PacketHistData in
/-- An API whose constructors make zeros and empty strings. -/
def zeroDetailsApi : DetailsDefaults where
  toApiDefaults := zeroApi
  tagValue := ⟨"", ""⟩
  contractDetails := {}

open PacketHistData in
theorem zeroDetailsApi_proper : zeroDetailsApi.Proper where
  toProper := zeroApi_proper
  tagValue := by constructor <;> decide
  contractDetails := by
    constructor <;> first | exact zeroApi_proper.contract | simp +decide [zeroDetailsApi]
  summary := rfl
  secIdList := rfl

/-- A future with an identifier, and a combination with two empty lists. -/
def twoDetails : List ContractDetails :=
  [{ summary := { symbol := "ESTX50", lastTradeDateOrContractMonth := "20150320" }
     secIdList := some [⟨"ISIN", "DE0009652388"⟩] },
    { summary := { comboLegs := some [], deltaNeutralContract := some ⟨5, 1, 2⟩ }
      secIdList := some [] }]

/-- Both come back. -/
theorem contract_details_survive_two :
    ∃ node, ({ mode := .CLOSED, request := some {}, cdList := twoDetails } :
        PacketContractDetails).dumpXml true zeroDetailsApi = .ok node ∧
      ((fromXml zeroDetailsApi node).request = some {} ∧
        (fromXml zeroDetailsApi node).cdList = twoDetails ↔
        Contract.Clean {} ∧ ∀ cd ∈ twoDetails, cd.Clean) := by
  refine contract_details_survive (p := { mode := .CLOSED, request := some {}
                                          cdList := twoDetails })
    zeroDetailsApi_proper rfl ⟨by decide, by decide +kernel, by simp, by simp⟩ ?_
  intro cd hcd
  simp only [twoDetails, List.mem_cons, List.not_mem_nil, or_false] at hcd
  rcases hcd with rfl | rfl
  · exact ⟨⟨by decide, by decide +kernel, by simp, by simp⟩, by decide +kernel, by decide,
      by decide, by decide +kernel, by decide, by decide, by decide +kernel⟩
  · refine ⟨⟨by decide, by decide +kernel, by simp, ?_⟩, by decide +kernel, by decide,
      by decide, by decide +kernel, by decide, by decide, by decide +kernel⟩
    rintro uc ⟨⟩
    exact ⟨by decide, by decide +kernel, by decide +kernel⟩

/-- **A NUL cuts a name off.** -/
theorem nul_is_lost :
    ∃ (p : PacketContractDetails) (node : XmlNode), p.request = some {} ∧
      p.cdList = [{ marketName := "A\x00B" }] ∧ p.dumpXml false zeroDetailsApi = .ok node ∧
      (fromXml zeroDetailsApi node).cdList = [{ marketName := "A" }] ∧
      (fromXml zeroDetailsApi node).cdList ≠ p.cdList := by
  refine ⟨{ mode := .CLOSED, request := some {}, cdList := [{ marketName := "A\x00B" }] }, _,
    rfl, rfl, rfl, ?_⟩
  decide +kernel

end PacketContractDetails

end Twstools
